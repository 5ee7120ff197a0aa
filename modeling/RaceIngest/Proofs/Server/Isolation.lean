import RaceIngest.Proofs.Server.Share
import RaceIngest.Proofs.Session.Filing

/-!
# Endpoints that do not see each other

A server that receives from one endpoint alone does what a server does for that endpoint among all
others. When all is deleted from a run that is not for the endpoint, and all junk, then a run is
left, and after every step the server in it has the sessions and the calls of the endpoint in the
same states, has published the same events, and has stored the same races and samples.

`Station.keep?` says what is left of one action, and `Station.left` what is left of a run. The
number of a task or of a call is then its number among those of the endpoint. One action is followed
by the part as `Station.follows_act` says, and from that a run by induction. The identifiers must be
distinct all along, and they are so when they are in the end, because a service only ever draws more
of them.

## Main definitions

* `Station.keep?`, `Station.left`, `Station.run?`,
* `Station.Shows`.

## Main statements

* `Station.follows_act`, `Station.follows_step`, `Station.follows_run`,
* `Station.endpoint_is_isolated`.
-/

namespace RaceIngest

/-! ## Supplies that are drawn from -/

namespace Service

/-- A service draws from its supplies, and its sessions never become fewer. -/
structure Grows (before after : Service MemoryStore) : Prop where
  ids_eq : after.world.ids = before.world.ids
  issued_le : before.world.issued ≤ after.world.issued
  sessionIds_eq : after.sessionIds = before.sessionIds
  tasks_le : before.registry.tasks.length ≤ after.registry.tasks.length

variable {service before after : Service MemoryStore}

theorem Grows.refl (service : Service MemoryStore) : service.Grows service :=
  ⟨rfl, Nat.le_refl _, rfl, Nat.le_refl _⟩

theorem Grows.trans {first second third : Service MemoryStore} (hone : first.Grows second)
    (htwo : second.Grows third) : first.Grows third :=
  ⟨htwo.ids_eq.trans hone.ids_eq, Nat.le_trans hone.issued_le htwo.issued_le,
    htwo.sessionIds_eq.trans hone.sessionIds_eq, Nat.le_trans hone.tasks_le htwo.tasks_le⟩

/-- What is distinct in the end was distinct before. -/
theorem Distinct.of_grows (hdistinct : after.Distinct) (hgrows : before.Grows after) :
    before.Distinct := by
  obtain ⟨hraces, hsessions⟩ := hdistinct
  constructor
  · intro i hfirst j hsecond hsame
    refine hraces i (Nat.lt_of_lt_of_le hfirst hgrows.issued_le) j
      (Nat.lt_of_lt_of_le hsecond hgrows.issued_le) ?_
    rw [hgrows.ids_eq]
    exact hsame
  · intro i hfirst j hsecond hsame
    refine hsessions i (Nat.lt_of_lt_of_le hfirst hgrows.tasks_le) j
      (Nat.lt_of_lt_of_le hsecond hgrows.tasks_le) ?_
    rw [hgrows.sessionIds_eq]
    exact hsame

theorem grows_step {now : Nat} {id : TaskId} {step : TaskStep}
    (hstepped : service.step? now id step = some after) : service.Grows after := by
  obtain ⟨task, new, hturned, -⟩ := exists_turn hstepped
  have htasks : service.registry.tasks.length ≤ after.registry.tasks.length := by
    rw [hturned.registry_eq]
    exact Nat.le_of_eq List.length_set.symm
  by_cases hcalled : step = .call
  · subst hcalled
    obtain ⟨_, _, request, _, _, rfl⟩ := call?_eq_some hstepped
    obtain ⟨calls, called, hsame⟩ := service.world.exists_call_eq request
    refine ⟨?_, ?_, rfl, htasks⟩
    · show (service.world.call request).2.ids = service.world.ids
      rw [hsame]
    · show service.world.issued ≤ (service.world.call request).2.issued
      rw [hsame]
  · by_cases hcompleted : step = .complete
    · subst hcompleted
      obtain ⟨_, _, request, _, fails, _, rfl⟩ := complete?_eq_some hstepped
      refine ⟨?_, (service.world.le_act request fails).2, rfl, htasks⟩
      exact service.world.ids_act request fails
    · have hsame := hturned.world_eq hcalled hcompleted
      exact ⟨congrArg World.ids hsame, Nat.le_of_eq (congrArg World.issued hsame).symm,
        hturned.sessionIds_eq, htasks⟩

end Service

/-- Nothing is drawn by what is not a step of a task, save the identifier of a new session. -/
theorem Traffic.Move.grows {shards : Shards} {traffic after : Traffic MemoryStore} {action : Action}
    (hmove : traffic.Move shards action after)
    (hrests : ∀ now id step, action ≠ .task now id step) : traffic.service.Grows after.service := by
  have htasks : traffic.registry.tasks.length ≤ after.registry.tasks.length := by
    cases hmove.tasksMove with
    | rests hsame =>
        rw [hsame]
    | opens endpoint session hsame =>
        rw [hsame, List.length_append]
        exact Nat.le_add_right _ _
    | changes n id task new operations samples hfound hchange hsame =>
        rw [hsame, List.length_set]
  cases hmove with
  | turns now id step => exact absurd rfl (hrests now id step)
  | _ => exact ⟨rfl, Nat.le_refl _, rfl, htasks⟩

namespace Station

variable {endpoint : String} {draws : Draws} {division : Division} {selection : Selection}
  {shards : Shards} {station whole part after : Station MemoryStore} {action : ServerAction}

theorem Move.grows (hmove : station.Move shards action after)
    (hrests : ∀ now id step, action ≠ .task now id step) :
    station.traffic.service.Grows after.traffic.service := by
  cases hmove with
  | turns now id step => exact absurd rfl (hrests now id step)
  | receives _ _ _ _ _ _ _ _ _ hmove | routes _ _ _ _ _ _ _ _ _ hmove
  | dies _ _ _ _ _ _ _ _ _ _ hmove | silences _ _ _ _ _ _ hmove | closes _ _ _ _ _ _ hmove
  | hasClosed _ _ _ _ _ _ hmove | sweeps _ _ _ _ _ _ _ hmove =>
      exact hmove.grows (by simp)
  | _ => exact ⟨rfl, Nat.le_refl _, rfl, Nat.le_refl _⟩

theorem grows_step (hstepped : station.step? shards action = some after) :
    station.traffic.service.Grows after.traffic.service := by
  by_cases hturns : ∃ now id step, action = .task now id step
  · obtain ⟨now, id, step, rfl⟩ := hturns
    obtain ⟨moved, hwent, rfl⟩ := Option.map_eq_some_iff.mp hstepped
    obtain ⟨traffic, hturned, rfl⟩ := Option.map_eq_some_iff.mp hwent
    obtain ⟨service, htaken, rfl⟩ := Option.map_eq_some_iff.mp hturned
    rw [traffic_notice]
    exact Service.grows_step htaken
  · obtain ⟨moved, hmove, rfl⟩ := exists_move hstepped
    rw [traffic_notice]
    exact hmove.grows fun now id step hsame => hturns ⟨now, id, step, hsame⟩

theorem grows_run (actions : List ServerAction) (station : Station MemoryStore) :
    station.traffic.service.Grows (station.run shards actions).traffic.service := by
  induction actions generalizing station with
  | nil => exact .refl _
  | cons action actions ih =>
      apply Service.Grows.trans ?_ (ih (station.step shards action))
      unfold step
      cases hstepped : station.step? shards action with
      | none => exact .refl _
      | some after => exact grows_step hstepped

/-! ## One action -/

/-- What is left of an action in the part of an endpoint, when all is deleted that is not for the
endpoint, and all junk. A deadline that comes too late in the part is no deadline there. -/
def keep? (endpoint : String) (whole part : Station MemoryStore) :
    ServerAction → Option ServerAction
  | .receive n sender datagram =>
    if sender = endpoint ∧ Server.isJunk datagram = false then some (.receive n sender datagram)
    else none
  | .route r =>
    if (whole.traffic.calls[r]?).any (·.endpoint == endpoint) then
      some (.route (whole.traffic.callRank endpoint r))
    else none
  | .task now id step =>
    if whole.registry.endpointOf? id = some endpoint then
      some (.task now (whole.registry.rank endpoint id) step)
    else none
  | .sweep s sender => if sender = endpoint then some (.sweep s sender) else none
  | .expire s => some (if part.isResolved s then .resolve s else .expire s)
  | action => some action

/-- Takes what is left of an action, if anything is. -/
def goOn? (endpoint : String) (shards : Shards) (whole : Station MemoryStore)
    (action : ServerAction) (part : Station MemoryStore) : Option (Station MemoryStore) :=
  (whole.keep? endpoint part action).elim (some part) (part.act? shards)

theorem exists_call_of_route? {r : Nat} (hwent : whole.route? r = some after) :
    ∃ call, whole.traffic.calls[r]? = some call := by
  unfold route? at hwent
  split at hwent
  · rename_i n call howner hfound
    exact ⟨call, hfound⟩
  · cases hwent

/-- Every action that is possible in the whole is followed by the part. -/
theorem follows_act (hdivided : whole.Divided endpoint draws division)
    (hdistinct : after.traffic.service.Distinct) (hwent : whole.act? shards action = some after) :
    Follows endpoint draws division whole after (whole.goOn? endpoint shards action) := by
  unfold goOn?
  cases action with
  | listen =>
      rw [← Option.some.inj hwent]
      exact follows_listen hdivided
  | bind n bound => exact follows_bind hdivided hwent
  | receive n sender datagram =>
      cases hjunk : Server.isJunk datagram with
      | true =>
          rw [eq_of_receive_junk hjunk hwent]
          simp only [keep?, hjunk, reduceCtorEq, and_false, if_false]
          exact .rests hdivided
      | false =>
          by_cases hown : sender = endpoint
          · simp only [keep?, hjunk, hown]
            exact follows_receive hdivided hjunk (hown ▸ hwent)
          · simp only [keep?, hown]
            exact follows_receive_of_foreign hdivided hown hjunk hwent
  | route r =>
      obtain ⟨call, hfound⟩ := exists_call_of_route? hwent
      by_cases hown : call.endpoint = endpoint
      · simp only [keep?, hfound, Option.any_some, hown, BEq.rfl]
        exact follows_route hdivided hfound hown hdistinct hwent
      · simp only [keep?, hfound, Option.any_some, beq_iff_eq, hown]
        exact follows_route_of_foreign hdivided hfound hown hdistinct hwent
  | task now id step =>
      obtain ⟨traffic, hturned, rfl⟩ := Option.map_eq_some_iff.mp hwent
      by_cases hown : whole.registry.endpointOf? id = some endpoint
      · simp only [keep?, hown]
        exact follows_turn hdivided hown hdistinct hturned
      · simp only [keep?, hown]
        exact follows_turn_of_foreign hdivided hown hdistinct hturned
  | stop n => exact follows_stop hdivided hwent
  | fail n => exact follows_fail hdivided hwent
  | shutdown deadline =>
      rw [← Option.some.inj hwent]
      exact follows_shutdown deadline hdivided
  | cancel s => exact follows_cancel hdivided hwent
  | close s => exact follows_close hdivided hwent
  | sweep s sender =>
      by_cases hown : sender = endpoint
      · simp only [keep?, hown]
        exact follows_sweep hdivided (hown ▸ hwent)
      · simp only [keep?, hown]
        exact follows_sweep_of_foreign hdivided hown hwent
  | watch s => exact follows_watch hdivided hwent
  | resolve s => exact follows_resolve hdivided hwent
  | expire s =>
      have hgoes : (fun part => (whole.keep? endpoint part (.expire s)).elim (some part)
          (part.act? shards)) = fun part : Station MemoryStore =>
            part.await? s (if part.isResolved s then resolveStage?
              else expireStage? part.registry) := by
        funext part
        cases hresolved : part.isResolved s <;> simp [keep?, hresolved, act?]
      rw [hgoes]
      exact follows_expire hdivided hwent

/-! ## Taking notice -/

theorem notice_of_allEnded (hended : station.registry.allEnded = true) :
    station.notice = { station with shutdowns := station.shutdowns.map ShutdownCall.notice } :=
  if_pos hended

theorem notice_of_not_allEnded (hgoesOn : ¬station.registry.allEnded = true) :
    station.notice = station :=
  if_neg hgoesOn

/-- Those who took notice learn nothing more. -/
theorem notice_notice (station : Station MemoryStore) :
    station.notice.notice = station.notice := by
  have hagain (call : ShutdownCall) : call.notice.notice = call.notice := by
    unfold ShutdownCall.notice
    cases hstage : call.stage <;> simp [hstage]
  by_cases hended : station.registry.allEnded = true
  · have hstill : station.notice.registry.allEnded = true := by
      rw [registry, traffic_notice]
      exact hended
    rw [notice_of_allEnded hstill, notice_of_allEnded hended]
    simp [hagain]
  · rw [notice_of_not_allEnded hended, notice_of_not_allEnded hended]

/-- The calls of a part that wait learn of the end when those of the whole do, or earlier. -/
theorem Part.notice (hshares : Part endpoint selection draws division whole part) :
    Part endpoint selection draws division whole.notice part.notice := by
  obtain ⟨hbeside, htraffic⟩ := hshares
  have hshutdowns := hbeside.shutdowns
  refine ⟨?_, by rw [traffic_notice, traffic_notice]; exact htraffic⟩
  by_cases hended : whole.registry.allEnded = true
  · have hendedThere : part.registry.allEnded = true := Part.allEnded ⟨hbeside, htraffic⟩ hended
    rw [notice_of_allEnded hended, notice_of_allEnded hendedThere]
    refine { hbeside with shutdowns := ?_ }
    rw [List.forall₂_map_left_iff, List.forall₂_map_right_iff]
    exact hshutdowns.imp fun _ _ => ShutdownCall.Matches.notice
  · rw [notice_of_not_allEnded hended]
    by_cases hendedThere : part.registry.allEnded = true
    · rw [notice_of_allEnded hendedThere]
      refine { hbeside with shutdowns := ?_ }
      rw [List.forall₂_map_right_iff]
      exact hshutdowns.imp fun _ _ => ShutdownCall.Matches.notice_part
    · rw [notice_of_not_allEnded hendedThere]
      exact hbeside

theorem Divided.notice (hdivided : station.Divided endpoint draws division) :
    station.notice.Divided endpoint draws division := by
  refine ⟨?_, ?_⟩
  · rw [traffic_notice]
    exact hdivided.traffic
  · rw [traffic_notice, owners_notice]
    exact hdivided.length_owners

/-! ## Runs -/

/-- Takes actions, one after the other, if every one of them is possible. -/
def run? (shards : Shards) (actions : List ServerAction) (station : Station MemoryStore) :
    Option (Station MemoryStore) :=
  actions.foldlM (fun station action => station.step? shards action) station

/-- What is left of a run, beside the run of the part that it is: actions that were not possible are
deleted as well. -/
def left (endpoint : String) (shards : Shards) :
    List ServerAction → Station MemoryStore → Station MemoryStore → List ServerAction
  | [], _, _ => []
  | action :: actions, whole, part =>
    match whole.step? shards action with
    | none => left endpoint shards actions whole part
    | some after =>
      match whole.keep? endpoint part action with
      | none => left endpoint shards actions after part
      | some kept => kept :: left endpoint shards actions after (part.step shards kept)

/-- What is left of a run begins with what is left of its beginning. -/
theorem left_begins {earlier actions : List ServerAction} (hbegins : earlier <+: actions)
    (whole part : Station MemoryStore) :
    left endpoint shards earlier whole part <+: left endpoint shards actions whole part := by
  induction earlier generalizing actions whole part with
  | nil => exact List.nil_prefix
  | cons action earlier ih =>
      obtain ⟨rest, rfl⟩ := hbegins
      have hfurther (whole part : Station MemoryStore) :=
        ih (List.prefix_append earlier rest) whole part
      rw [List.cons_append, left, left]
      cases whole.step? shards action with
      | none => exact hfurther whole part
      | some after =>
          cases whole.keep? endpoint part action with
          | none => exact hfurther after part
          | some kept =>
              exact List.cons_prefix_cons.mpr ⟨rfl, hfurther after (part.step shards kept)⟩

/-- The part goes on as it is told, and takes notice. -/
theorem follows_step (hdivided : whole.Divided endpoint draws division)
    (hdistinct : after.traffic.service.Distinct)
    (hstepped : whole.step? shards action = some after) :
    ∃ draws' division', draws.Begins draws' ∧ after.Divided endpoint draws' division' ∧
      ∀ selection part, selection.Picks draws' →
        Part endpoint selection draws division whole part → part.notice = part →
          ∃ part', (whole.keep? endpoint part action).elim (some part) (part.step? shards) =
              some part' ∧
            Part endpoint selection draws' division' after part' ∧ part'.notice = part' := by
  obtain ⟨moved, hwent, rfl⟩ := Option.map_eq_some_iff.mp hstepped
  rw [traffic_notice] at hdistinct
  obtain ⟨draws', division', hbegins, hmovedDivided, hparts⟩ := follows_act hdivided hdistinct hwent
  refine ⟨draws', division', hbegins, hmovedDivided.notice, ?_⟩
  intro selection part hpicks hshares hnoticed
  obtain ⟨there, hgoes, hmovedShares⟩ := hparts selection part hpicks hshares
  refine ⟨there.notice, ?_, hmovedShares.notice, there.notice_notice⟩
  unfold goOn? at hgoes
  cases hkept : whole.keep? endpoint part action with
  | none =>
      rw [hkept] at hgoes
      rw [← Option.some.inj hgoes, hnoticed]
      rfl
  | some action =>
      rw [hkept] at hgoes
      exact congrArg (Option.map Station.notice) hgoes

/-- What is left of a run is a run of the part, and it ends in the part of what the run ends in. -/
def LeavesRun (endpoint : String) (shards : Shards) (selection : Selection)
    (whole part : Station MemoryStore) (actions : List ServerAction) : Prop :=
  ∃ draws division part', (whole.run shards actions).Divided endpoint draws division ∧
    part.run? shards (left endpoint shards actions whole part) = some part' ∧
    Part endpoint selection draws division (whole.run shards actions) part'

theorem leavesRun_nil (hdivided : whole.Divided endpoint draws division)
    (hshares : Part endpoint selection draws division whole part) :
    LeavesRun endpoint shards selection whole part [] :=
  ⟨draws, division, part, hdivided, rfl, hshares⟩

theorem run_of_step? {actions : List ServerAction}
    (hstepped : whole.step? shards action = some after) :
    whole.run shards (action :: actions) = after.run shards actions := by
  show (whole.step shards action).run shards actions = _
  rw [step, hstepped]
  rfl

theorem run_of_step?_eq_none {actions : List ServerAction}
    (hstays : whole.step? shards action = none) :
    whole.run shards (action :: actions) = whole.run shards actions := by
  show (whole.step shards action).run shards actions = _
  rw [step, hstays]
  rfl

theorem LeavesRun.cons_of_none {actions : List ServerAction}
    (hstays : whole.step? shards action = none)
    (hrest : LeavesRun endpoint shards selection whole part actions) :
    LeavesRun endpoint shards selection whole part (action :: actions) := by
  unfold LeavesRun
  rw [run_of_step?_eq_none hstays, left, hstays]
  exact hrest

theorem LeavesRun.cons {actions : List ServerAction} {there : Station MemoryStore}
    (hstepped : whole.step? shards action = some after)
    (hgoes : (whole.keep? endpoint part action).elim (some part) (part.step? shards) = some there)
    (hrest : LeavesRun endpoint shards selection after there actions) :
    LeavesRun endpoint shards selection whole part (action :: actions) := by
  unfold LeavesRun
  rw [run_of_step? hstepped, left, hstepped]
  cases hkept : whole.keep? endpoint part action with
  | none =>
      rw [hkept] at hgoes
      rw [← Option.some.inj hgoes] at hrest
      exact hrest
  | some action =>
      rw [hkept] at hgoes
      have htaken : part.step? shards action = some there := hgoes
      have hstepThere : part.step shards action = there := by
        rw [step, htaken]
        rfl
      dsimp only
      rw [hstepThere, run?, List.foldlM_cons, htaken]
      exact hrest

/-- A run draws from the supplies, and whatever selection picks what was drawn for the endpoint,
every beginning of the run leaves a run of the part. -/
theorem follows_run (actions : List ServerAction) (hdivided : whole.Divided endpoint draws division)
    (hdistinct : (whole.run shards actions).traffic.service.Distinct) :
    ∃ draws' division', draws.Begins draws' ∧
      (whole.run shards actions).Divided endpoint draws' division' ∧
        ∀ selection part, selection.Picks draws' →
          Part endpoint selection draws division whole part → part.notice = part →
            ∀ earlier, earlier <+: actions →
              LeavesRun endpoint shards selection whole part earlier := by
  induction actions generalizing whole draws division with
  | nil =>
      refine ⟨draws, division, .refl draws, hdivided, ?_⟩
      intro selection part _ hshares _ earlier hbegins
      rw [List.prefix_nil.mp hbegins]
      exact leavesRun_nil hdivided hshares
  | cons action actions ih =>
      -- a run stops before its first action, or goes on after it
      have hbeginnings {selection : Selection} {part : Station MemoryStore}
          (hshares : Part endpoint selection draws division whole part)
          (hfurther : ∀ earlier, earlier <+: actions →
            LeavesRun endpoint shards selection whole part (action :: earlier))
          (earlier : List ServerAction) (hbegins : earlier <+: action :: actions) :
          LeavesRun endpoint shards selection whole part earlier := by
        cases earlier with
        | nil => exact leavesRun_nil hdivided hshares
        | cons first earlier =>
            obtain ⟨rfl, hbefore⟩ := List.cons_prefix_cons.mp hbegins
            exact hfurther earlier hbefore
      cases hstepped : whole.step? shards action with
      | none =>
          rw [run_of_step?_eq_none hstepped] at hdistinct ⊢
          obtain ⟨draws', division', hbegins, hlast, hparts⟩ := ih hdivided hdistinct
          refine ⟨draws', division', hbegins, hlast,
            fun selection part hpicks hshares hnoticed => ?_⟩
          exact hbeginnings hshares fun earlier hbefore =>
            (hparts selection part hpicks hshares hnoticed earlier hbefore).cons_of_none hstepped
      | some after =>
          rw [run_of_step? hstepped] at hdistinct ⊢
          obtain ⟨draws₁, division₁, hfirst, hdividedAfter, hsteps⟩ :=
            follows_step hdivided (hdistinct.of_grows (grows_run actions after)) hstepped
          obtain ⟨draws₂, division₂, hsecond, hlast, hparts⟩ := ih hdividedAfter hdistinct
          refine ⟨draws₂, division₂, hfirst.trans hsecond, hlast,
            fun selection part hpicks hshares hnoticed => ?_⟩
          obtain ⟨there, hgoes, hsharesThere, hnoticedThere⟩ :=
            hsteps selection part (hpicks.of_begins hsecond) hshares hnoticed
          exact hbeginnings hshares fun earlier hbefore =>
            (hparts selection there hpicks hsharesThere hnoticedThere earlier hbefore).cons
              hstepped hgoes

end Station

/-! ## Servers that start -/

/-- No session and no race belong to anyone yet. -/
def Division.nobody : Division := ⟨∅, ∅, [], []⟩

theorem Division.not_knows_nobody (id : Uuid) : ¬nobody.Knows id := fun hknown =>
  hknown.elim (Set.notMem_empty id) (Set.notMem_empty id)

section Start

variable (endpoint : String) (config : ServerConfig) (readings : Nat → Calendar.Timestamp)
  (ids sessionIds : Nat → Uuid) (selection : Selection)

theorem Shelf.race?_empty (id : Uuid) : MemoryStore.empty.shelf.race? id = none := rfl

theorem Shelf.samples_empty (id : Uuid) : MemoryStore.empty.shelf.samples id = [] := rfl

theorem World.given_fresh :
    (World.fresh MemoryStore.empty .none readings ids).given = ∅ := by
  ext id
  constructor
  · rintro ⟨n, hbelow, -⟩
    cases hbelow
  · intro hmem
    exact absurd hmem (Set.notMem_empty id)

theorem World.divided_fresh :
    (World.fresh MemoryStore.empty .none readings ids).Divided .nobody where
  outage_eq := rfl
  ordered := List.Pairwise.nil
  stored := by
    constructor
    · intro id race hfound
      have hnothing := (Shelf.race?_empty id).symm.trans hfound
      cases hnothing
    · intro id hinserted
      exact absurd (Shelf.samples_empty id) hinserted
  announced := fun event hmem => by cases hmem
  known := fun id hknown => absurd hknown (Division.not_knows_nobody id)

theorem World.part_fresh :
    World.Part selection {} .nobody (World.fresh MemoryStore.empty .none readings ids)
      (World.fresh MemoryStore.empty .none (readings ∘ selection.readings)
        (ids ∘ selection.ids)) where
  outage_eq := rfl
  ordered := List.Pairwise.nil
  stored := ⟨fun _ _ => rfl, fun _ _ => rfl, fun id _ => Shelf.race?_empty id,
    fun id _ => Shelf.samples_empty id⟩
  events_eq := rfl
  readings_eq := rfl
  read_eq := rfl
  ids_eq := rfl
  issued_eq := rfl
  given_eq := World.given_fresh _ _

/-- A server that no call is at work on yet, with an empty store that never fails. -/
def Station.start : Station MemoryStore :=
  fresh config (.fresh .empty .none readings ids) sessionIds

namespace Station

theorem divided_start :
    (start config readings ids sessionIds).Divided endpoint {} .nobody where
  length_owners := rfl
  traffic := by
    refine ⟨?_, Traffic.addressed_fresh config (.fresh MemoryStore.empty .none readings ids) _⟩
    constructor
    case world => exact World.divided_fresh readings ids
    case apart => exact ⟨fun id hown => absurd hown (Set.notMem_empty id), nofun⟩
    case registry => exact ⟨rfl, rfl, fun id task hfound => by cases hfound⟩
    case fit => exact ⟨drawnBelow_nil 0, drawnBelow_nil 0, drawnBelow_nil 0⟩
    case opened_eq => rfl

theorem part_start :
    Part endpoint selection {} .nobody (start config readings ids sessionIds)
      (start config (readings ∘ selection.readings) (ids ∘ selection.ids)
        (sessionIds ∘ selection.sessions)) where
  beside := ⟨rfl, rfl, .nil, .nil, rfl⟩
  traffic := ⟨⟨rfl, rfl, World.part_fresh readings ids selection⟩, rfl, rfl⟩

end Station

end Start

namespace Station

variable {endpoint : String} {draws : Draws} {division : Division} {selection : Selection}
  {shards : Shards} {whole part : Station MemoryStore}

/-! ## What a run shows of an endpoint -/

/-- The races that are stored of the sessions of an endpoint. -/
def racesOf (station : Station MemoryStore) (endpoint : String) : List Race :=
  station.traffic.service.world.store.index.races.filter fun race =>
    (station.registry.sessionsOf endpoint).contains race.sessionId

/-- The events that the sessions of an endpoint published. -/
def eventsOf (station : Station MemoryStore) (endpoint : String) : List Event :=
  station.traffic.service.world.events.filter fun event =>
    (station.registry.sessionsOf endpoint).contains event.race.sessionId

/-- One server has of an endpoint what the other one has, and nothing else. -/
structure Shows (endpoint : String) (whole part : Station MemoryStore) : Prop where
  /-- The sessions are in the same states, with the same samples queued for them. -/
  registry_eq : part.registry = whole.registry.share endpoint
  /-- The calls are as far and returned the same. -/
  calls_eq : part.traffic.calls = whole.traffic.shareCalls endpoint
  events_eq : part.traffic.service.world.events = whole.eventsOf endpoint
  races_eq : part.traffic.service.world.store.index.races = whole.racesOf endpoint
  /-- The races were all begun in the part, and it has the same samples of them. -/
  races_given : ∀ race ∈ part.traffic.service.world.store.index.races,
    race.id ∈ part.traffic.service.world.given
  samples_eq : ∀ race ∈ part.traffic.service.world.given,
    part.traffic.service.world.store.samplesOf race =
      whole.traffic.service.world.store.samplesOf race
  samples_eq_nil : ∀ race, race ∉ part.traffic.service.world.given →
    part.traffic.service.world.store.samplesOf race = []

theorem announces_eq (hdivided : whole.Divided endpoint draws division) :
    division.announces = fun event =>
      (whole.registry.sessionsOf endpoint).contains event.race.sessionId := by
  unfold Division.announces
  rw [hdivided.traffic.service.registry.sessions_eq]

theorem mem_racesOf_iff {race : Race} (hdivided : whole.Divided endpoint draws division) :
    race ∈ whole.racesOf endpoint ↔
      race ∈ whole.traffic.service.world.store.index.races ∧
        race.sessionId ∈ division.sessions := by
  unfold racesOf
  rw [List.mem_filter, List.contains_iff_mem, hdivided.traffic.service.registry.sessions_eq]

/-- The part has stored the races of the sessions of the endpoint. -/
theorem Part.mem_races_iff {race : Race}
    (hshares : Part endpoint selection draws division whole part)
    (hdivided : whole.Divided endpoint draws division) :
    race ∈ part.traffic.service.world.store.index.races ↔ race ∈ whole.racesOf endpoint := by
  have hworld := hdivided.traffic.service.world
  have hapart := hdivided.traffic.service.apart
  have hworldPart := hshares.traffic.service.world
  have hfound {station : Station MemoryStore}
      (hordered : station.traffic.service.world.store.index.Ordered) :
      station.traffic.service.world.store.shelf.race? race.id = some race ↔
        race ∈ station.traffic.service.world.store.index.races :=
    (RaceIndex.Ascending.find?_eq_some_iff hordered).trans (and_iff_left rfl)
  rw [mem_racesOf_iff hdivided, ← hfound hworld.ordered, ← hfound hworldPart.ordered]
  constructor
  · intro hstored
    have hown : race.id ∈ division.owned := by
      by_contra hother
      rw [hworldPart.stored.race_eq_none race.id hother] at hstored
      cases hstored
    rw [hworldPart.stored.race race.id hown] at hstored
    refine ⟨hstored, ?_⟩
    rcases hworld.stored.race race.id race hstored with hpair | hpair
    · exact hpair.2
    · exact absurd hpair.1 (hapart.races race.id hown)
  · rintro ⟨hstored, hmine⟩
    rcases hworld.stored.race race.id race hstored with hpair | hpair
    · rw [hworldPart.stored.race race.id hpair.1]
      exact hstored
    · exact absurd hpair.2 (hapart.sessions race.sessionId hmine)

theorem Part.shows (hshares : Part endpoint selection draws division whole part)
    (hdivided : whole.Divided endpoint draws division) : Shows endpoint whole part := by
  have hworldPart := hshares.traffic.service.world
  constructor
  case registry_eq => exact hshares.traffic.service.registry_eq
  case calls_eq => exact hshares.traffic.calls_eq
  case events_eq =>
    rw [hworldPart.events_eq, announces_eq hdivided]
    rfl
  case races_eq =>
    have hordered := hdivided.traffic.service.world.ordered
    apply RaceIndex.Ascending.eq_of_mem_iff hworldPart.ordered
    · exact List.Pairwise.filter _ hordered
    · exact fun race => hshares.mem_races_iff hdivided
  case races_given =>
    intro race hstored
    rw [hworldPart.given_eq]
    by_contra hother
    have hmissing := hworldPart.stored.race_eq_none race.id hother
    have hfound := (RaceIndex.Ascending.find?_eq_some_iff hworldPart.ordered).mpr ⟨hstored, rfl⟩
    have hnothing := hmissing.symm.trans hfound
    cases hnothing
  case samples_eq =>
    intro race hgiven
    rw [hworldPart.given_eq] at hgiven
    exact hworldPart.stored.samples race hgiven
  case samples_eq_nil =>
    intro race hother
    rw [hworldPart.given_eq] at hother
    exact hworldPart.stored.samples_eq_nil race hother

/-- Receiving junk leaves the sessions, the calls and the store as they are. -/
theorem traffic_of_receive_junk {station after : Station MemoryStore} {n : Nat} {sender : String}
    {datagram : List UInt8} (hjunk : Server.isJunk datagram = true)
    (hstepped : station.step? shards (.receive n sender datagram) = some after) :
    after.traffic = station.traffic := by
  obtain ⟨moved, hwent, rfl⟩ := Option.map_eq_some_iff.mp hstepped
  rw [traffic_notice, eq_of_receive_junk hjunk hwent]

/-- Endpoints do not see each other, and junk is not seen at all.

Take any run of a server over an empty store that never fails, in which no identifier is drawn
twice, and delete from it all that is not for one endpoint: the datagrams of the others, the steps
of their calls and of their sessions, and all junk. A run is left of a server that starts alike,
where the clock and the supplies of identifiers give what they gave to the steps that are left.
After every step of it the sessions of the endpoint are in the same states, its calls have returned
the same, the same events were published, and the same races and samples are stored of its sessions.

Receiving junk opens no session, and does nothing else to the sessions, the calls and the store. -/
theorem endpoint_is_isolated (shards : Shards) (config : ServerConfig)
    (readings : Nat → Calendar.Timestamp) (ids sessionIds : Nat → Uuid) (endpoint : String)
    (actions : List ServerAction)
    (hdistinct : ((start config readings ids sessionIds).run shards
      actions).traffic.service.Distinct) :
    (∃ selection : Selection, selection.Increasing ∧
      let together := start config readings ids sessionIds
      let alone := start config (readings ∘ selection.readings) (ids ∘ selection.ids)
        (sessionIds ∘ selection.sessions)
      ∀ earlier, earlier <+: actions →
        left endpoint shards earlier together alone <+:
            left endpoint shards actions together alone ∧
          ∃ part, alone.run? shards (left endpoint shards earlier together alone) = some part ∧
            Shows endpoint (together.run shards earlier) part) ∧
    ∀ (sender : String) (datagram : List UInt8), Server.isJunk datagram = true →
      (∀ server : Server MemoryStore, server.receive sender datagram = server) ∧
        ∀ (station after : Station MemoryStore) (n : Nat),
          station.step? shards (.receive n sender datagram) = some after →
            after.traffic = station.traffic := by
  constructor
  · have hdivided := divided_start endpoint config readings ids sessionIds
    obtain ⟨draws, division, -, hlast, hparts⟩ := follows_run actions hdivided hdistinct
    obtain ⟨selection, hincreasing, hpicks⟩ := hlast.traffic.service.fit.exists_selection
    refine ⟨selection, hincreasing, fun earlier hbegins => ⟨left_begins hbegins _ _, ?_⟩⟩
    have hshares := part_start endpoint config readings ids sessionIds selection
    obtain ⟨_, _, part, hdividedThen, hran, hsharesThen⟩ :=
      hparts selection _ hpicks hshares rfl earlier hbegins
    exact ⟨part, hran, hsharesThen.shows hdividedThen⟩
  · intro sender datagram hjunk
    refine ⟨fun server => server.receive_of_junk sender hjunk, ?_⟩
    intro station after n hstepped
    exact traffic_of_receive_junk hjunk hstepped

/-- Two endpoints begin races beside each other, and a datagram without content arrives from one of
them. That one begins its race alike without the other. -/
theorem car_is_isolated_from_bus :
    let datagram := Wire.Packet.encode { Sample.lapping .one with timestampMs := 1 }
    let requests (id : TaskId) : List ServerAction :=
      (List.replicate 5 [.task 0 id .call, .task 0 id .complete]).flatten
    let actions : List ServerAction := [.listen, .bind 0 (some "127.0.0.1:5300"),
      .receive 0 "bus" datagram, .route 0, .route 0, .route 0, .route 0,
      .receive 0 "car" datagram, .route 1, .route 1, .route 1, .route 1, .receive 0 "car" [],
      .task 0 0 .start, .task 0 0 .receive] ++ requests 0 ++ [.task 0 0 .settle,
      .task 0 1 .start, .task 0 1 .receive] ++ requests 1 ++ [.task 0 1 .settle]
    let whole := (start {} (fun _ => default) .ofNat .ofNat).run .single actions
    whole.traffic.service.Distinct ∧ whole.registry.tasks.length = 2 ∧
      (whole.racesOf "car").length = 1 ∧
      (∃ selection : Selection, selection.Increasing ∧
        let together := start {} (fun _ => default) .ofNat .ofNat
        let alone := start {} ((fun _ => default) ∘ selection.readings) (.ofNat ∘ selection.ids)
          (.ofNat ∘ selection.sessions)
        ∃ part, alone.run? .single (left "car" .single actions together alone) = some part ∧
          Shows "car" whole part) ∧
      ∃ after, whole.step? .single (.receive 0 "car" []) = some after ∧
        after.traffic = whole.traffic := by
  intro datagram requests actions
  have hdistinct : ((start {} (fun _ => default) .ofNat .ofNat).run .single
      actions).traffic.service.Distinct := by
    constructor
    · unfold World.Distinct
      decide +kernel
    · decide +kernel
  have hfacts :
      let whole := (start {} (fun _ => default) .ofNat .ofNat).run .single actions
      whole.registry.tasks.length = 2 ∧ (whole.racesOf "car").length = 1 ∧
        whole.listens[0]? = some (.receiving 0) ∧ whole.isRouting 0 = false := by
    refine ⟨?_, ?_, ?_, ?_⟩ <;> decide +kernel
  obtain ⟨⟨selection, hincreasing, hbeginnings⟩, hjunk⟩ :=
    endpoint_is_isolated .single {} (fun _ => default) .ofNat .ofNat "car" actions hdistinct
  obtain ⟨-, hshown⟩ := hbeginnings actions List.prefix_rfl
  dsimp only at hfacts hshown ⊢
  generalize (start {} (fun _ => default) .ofNat .ofNat).run .single actions = whole
    at hdistinct hfacts hshown ⊢
  obtain ⟨htasks, hraces, hlistening, hidle⟩ := hfacts
  have hnothing : Server.isJunk [] = true := by decide
  have hreceived : whole.step? .single (.receive 0 "car" []) = some whole.notice := by
    simp [step?, act?, receive?, hlistening, hidle, (Server.sample?_eq_none_iff []).mpr hnothing]
  exact ⟨hdistinct, htasks, hraces, ⟨selection, hincreasing, hshown⟩, whole.notice, hreceived,
    (hjunk "car" [] hnothing).2 whole whole.notice 0 hreceived⟩

end Station

end RaceIngest
