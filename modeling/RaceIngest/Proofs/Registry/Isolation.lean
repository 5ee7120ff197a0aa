import RaceIngest.Proofs.Registry.Callers
import RaceIngest.Proofs.Registry.Division

/-!
# Traffic of one endpoint among others

The callers that route samples of one endpoint find, in its share of the registry, what they find in
the whole: the sessions of the endpoint, under other numbers. So the traffic of the endpoint goes on
by itself as it does among the others.

Every step of a call or of a task for the endpoint, and everything that concerns the registry as
such, is possible in the part as well and keeps it the part of the whole; a step for another
endpoint leaves the part as it is.

## Main definitions

* `Traffic.shareCalls`,
* `Traffic.Divided`, `Traffic.Part`, `Traffic.Follows`.

## Main statements

* `Traffic.follows_route`, `Traffic.follows_turn`, `Traffic.follows_close`,
  `Traffic.follows_cancel`: what the part does when the whole goes on,
* `Traffic.follows_route_of_foreign` and its kind: when it does nothing.
-/

namespace RaceIngest

/-- The stage of a call, with other numbers of tasks. -/
def RouteStage.renumber (number : TaskId → TaskId) : RouteStage → RouteStage
  | .looking => .looking
  | .opening => .opening
  | .spawning id => .spawning (number id)
  | .sending id => .sending (number id)
  | .returned accepted => .returned accepted
  | .died => .died

/-- A call, with other numbers of tasks. -/
def RouteCall.renumber (number : TaskId → TaskId) (call : RouteCall) : RouteCall :=
  { call with stage := call.stage.renumber number }

theorem RouteCall.stage_renumber {call : RouteCall} {stage : RouteStage}
    (hhere : call.stage = stage) (number : TaskId → TaskId) :
    (call.renumber number).stage = stage.renumber number :=
  congrArg (RouteStage.renumber number) hhere

namespace Traffic

variable {endpoint : String} {draws : Draws} {division : Division} {selection : Selection}
  {shards : Shards} {whole part after : Traffic MemoryStore} {n : Nat} {call : RouteCall}
  {id : TaskId}

/-! ## Calls of an endpoint -/

/-- The number of a call among the calls for an endpoint. -/
def callRank (traffic : Traffic MemoryStore) (endpoint : String) (n : Nat) : Nat :=
  rankOf (·.endpoint == endpoint) traffic.calls n

/-- The calls for an endpoint, with the numbers that its tasks have in its share. -/
def shareCalls (traffic : Traffic MemoryStore) (endpoint : String) : List RouteCall :=
  (traffic.calls.filter (·.endpoint == endpoint)).map
    (·.renumber (traffic.registry.rank endpoint))

/-- No move changes the number of a task that is known. -/
theorem TasksMove.rank_eq {σ : Type} {before after : Traffic σ} (htasks : before.TasksMove after)
    (endpoint : String) (hknown : id < before.registry.tasks.length) :
    after.registry.rank endpoint id = before.registry.rank endpoint id := by
  unfold Registry.rank
  cases htasks with
  | rests hsame => rw [hsame]
  | opens other sessionId hsame =>
      rw [hsame]
      exact rankOf_append (Nat.le_of_lt hknown) _
  | changes m changed task new operations samples hfound hchange hsame =>
      rw [hsame]
      exact rankOf_set hfound (by simp [hchange.endpoint_eq]) id

theorem renumber_eq (htasks : whole.TasksMove after) (haddressed : whole.Addressed)
    (hfound : whole.calls[n]? = some call) :
    call.renumber (after.registry.rank endpoint) =
      call.renumber (whole.registry.rank endpoint) := by
  have hknown : ∀ id, call.stage = .spawning id ∨ call.stage = .sending id →
      after.registry.rank endpoint id = whole.registry.rank endpoint id := fun id hnames =>
    htasks.rank_eq endpoint
      (Registry.lt_of_endpointOf? (haddressed.call_addressed n call id hfound hnames))
  unfold RouteCall.renumber
  cases hstage : call.stage with
  | looking | opening | returned | died => rfl
  | spawning id =>
      show { call with stage := .spawning _ } = { call with stage := .spawning _ }
      rw [hknown id (.inl hstage)]
  | sending id =>
      show { call with stage := .sending _ } = { call with stage := .sending _ }
      rw [hknown id (.inr hstage)]

/-- The calls for the endpoint mean the same tasks after a move. -/
theorem renumber_calls (htasks : whole.TasksMove after) (haddressed : whole.Addressed) :
    (whole.calls.filter (·.endpoint == endpoint)).map
      (·.renumber (after.registry.rank endpoint)) = whole.shareCalls endpoint := by
  apply List.map_congr_left
  intro call hmem
  obtain ⟨n, hfound⟩ := List.mem_iff_getElem?.mp (List.mem_filter.mp hmem).1
  exact renumber_eq htasks haddressed hfound

theorem shareCalls_of_rests (htasks : whole.TasksMove after) (haddressed : whole.Addressed)
    (hcalls : after.calls = whole.calls) :
    after.shareCalls endpoint = whole.shareCalls endpoint := by
  unfold shareCalls
  rw [hcalls]
  exact renumber_calls htasks haddressed

/-- A call for the endpoint goes on. -/
theorem shareCalls_set (htasks : whole.TasksMove after) (haddressed : whole.Addressed)
    (hfound : whole.calls[n]? = some call) (hown : call.endpoint = endpoint) {stage : RouteStage}
    (hcalls : after.calls = whole.calls.set n { call with stage }) :
    after.shareCalls endpoint = (whole.shareCalls endpoint).set (whole.callRank endpoint n)
      { call with stage := stage.renumber (after.registry.rank endpoint) } := by
  rw [← renumber_calls htasks haddressed]
  unfold shareCalls callRank
  rw [hcalls, filter_set_of_pos hfound (by simpa using hown) (by simpa using hown), List.map_set]
  rfl

/-- A call for another endpoint goes on. -/
theorem shareCalls_set_of_ne (htasks : whole.TasksMove after) (haddressed : whole.Addressed)
    (hfound : whole.calls[n]? = some call) (hother : call.endpoint ≠ endpoint) {stage : RouteStage}
    (hcalls : after.calls = whole.calls.set n { call with stage }) :
    after.shareCalls endpoint = whole.shareCalls endpoint := by
  rw [← renumber_calls htasks haddressed]
  unfold shareCalls
  rw [hcalls, filter_set_of_neg hfound (by simpa using hother) (by simpa using hother)]

/-- A call for the endpoint is found among its calls. -/
theorem getElem?_shareCalls (hfound : whole.calls[n]? = some call)
    (hown : call.endpoint = endpoint) : (whole.shareCalls endpoint)[whole.callRank endpoint n]? =
      some (call.renumber (whole.registry.rank endpoint)) := by
  unfold shareCalls callRank
  rw [List.getElem?_map, getElem?_filter_rankOf hfound (by simpa using hown)]
  rfl

/-! ## Wholes and parts -/

/-- Sessions and races are divided between an endpoint and the others. -/
structure Divided (endpoint : String) (draws : Draws) (division : Division)
    (traffic : Traffic MemoryStore) : Prop where
  service : traffic.service.Divided endpoint draws division
  addressed : traffic.Addressed

/-- One traffic is what an endpoint has of another. -/
structure Part (endpoint : String) (selection : Selection) (draws : Draws) (division : Division)
    (whole part : Traffic MemoryStore) : Prop where
  service : Service.Part endpoint selection draws division whole.service part.service
  calls_eq : part.calls = whole.shareCalls endpoint
  closers_eq : part.closers = whole.closers

/-- The whole becomes what is told, whatever was drawn, and every part of it that goes on as told
becomes its part. -/
def Follows (endpoint : String) (draws : Draws) (division : Division)
    (whole after : Traffic MemoryStore)
    (goesOn : Traffic MemoryStore → Option (Traffic MemoryStore)) : Prop :=
  ∃ draws' division', draws.Begins draws' ∧ after.Divided endpoint draws' division' ∧
    ∀ selection part, selection.Picks draws' → Part endpoint selection draws division whole part →
      ∃ part', goesOn part = some part' ∧ Part endpoint selection draws' division' after part'

/-- The part follows when its service does, and its calls and closers do. -/
theorem Follows.of_service {goesOn : Traffic MemoryStore → Option (Traffic MemoryStore)}
    {serves : Service MemoryStore → Option (Service MemoryStore)}
    (hfollows : Service.Follows endpoint draws division whole.service after.service serves)
    (haddressed : after.Addressed)
    (hgoes : ∀ selection part service, Part endpoint selection draws division whole part →
      serves part.service = some service →
      ∃ part', goesOn part = some part' ∧ part'.service = service ∧
        part'.calls = after.shareCalls endpoint ∧ part'.closers = after.closers) :
    Follows endpoint draws division whole after goesOn := by
  obtain ⟨draws', division', hbegins, hdivided, hparts⟩ := hfollows
  refine ⟨draws', division', hbegins, ⟨hdivided, haddressed⟩,
    fun selection part hpicks hshares => ?_⟩
  obtain ⟨service, hserved, hserviceShares⟩ := hparts selection part.service hpicks hshares.service
  obtain ⟨part', hgone, hsame, hcalls, hclosers⟩ := hgoes selection part service hshares hserved
  exact ⟨part', hgone,
    { service := hsame ▸ hserviceShares, calls_eq := hcalls, closers_eq := hclosers }⟩

/-- The part follows when only its calls and closers do. -/
theorem Follows.of_calls {goesOn : Traffic MemoryStore → Option (Traffic MemoryStore)}
    (hdivided : whole.Divided endpoint draws division) (haddressed : after.Addressed)
    (hsame : after.service = whole.service)
    (hgoes : ∀ selection part, Part endpoint selection draws division whole part →
      ∃ part', goesOn part = some part' ∧ part'.service = part.service ∧
        part'.calls = after.shareCalls endpoint ∧ part'.closers = after.closers) :
    Follows endpoint draws division whole after goesOn := by
  have hrests : Service.Follows endpoint draws division whole.service after.service some :=
    hsame.symm ▸ .rests hdivided.service
  apply Follows.of_service hrests haddressed
  intro selection part service hshares hserved
  rw [← Option.some.inj hserved]
  exact hgoes selection part hshares

/-- Nothing happens, and the part does nothing. -/
theorem Follows.rests (hdivided : whole.Divided endpoint draws division) :
    Follows endpoint draws division whole whole some :=
  .of_calls hdivided hdivided.addressed rfl fun _ part hshares =>
    ⟨part, rfl, rfl, hshares.calls_eq, hshares.closers_eq⟩

/-! ## Calls that go on -/

/-- The calls of a part with one at another stage are those of the whole with it. -/
theorem Part.setStage_calls (hshares : Part endpoint selection draws division whole part)
    (htasks : whole.TasksMove after) (haddressed : whole.Addressed)
    (hfound : whole.calls[n]? = some call) (hown : call.endpoint = endpoint) {stage : RouteStage}
    (hcalls : after.calls = whole.calls.set n { call with stage }) (part' : Traffic MemoryStore)
    (hothers : part'.calls = part.calls) :
    (part'.setStage (whole.callRank endpoint n) (call.renumber (whole.registry.rank endpoint))
      (stage.renumber (after.registry.rank endpoint))).calls = after.shareCalls endpoint := by
  rw [shareCalls_set htasks haddressed hfound hown hcalls, ← hshares.calls_eq, ← hothers]
  rfl

theorem Part.getElem?_calls (hshares : Part endpoint selection draws division whole part)
    (hfound : whole.calls[n]? = some call) (hown : call.endpoint = endpoint) :
    part.calls[whole.callRank endpoint n]? =
      some (call.renumber (whole.registry.rank endpoint)) := by
  rw [hshares.calls_eq]
  exact getElem?_shareCalls hfound hown

theorem Part.lookup? (hshares : Part endpoint selection draws division whole part) :
    part.registry.lookup? endpoint =
      (whole.registry.lookup? endpoint).map (whole.registry.rank endpoint) := by
  show part.service.registry.lookup? endpoint = _
  rw [hshares.service.registry_eq]
  exact Registry.lookup?_share whole.registry endpoint

/-- An endpoint that has no session in the whole has none in the part. -/
theorem Part.lookup?_of_none (hshares : Part endpoint selection draws division whole part)
    (hlookup : whole.registry.lookup? endpoint = none) : part.registry.lookup? endpoint = none := by
  rw [hshares.lookup?, hlookup]
  rfl

theorem Part.lookup?_of_some (hshares : Part endpoint selection draws division whole part)
    (hlookup : whole.registry.lookup? endpoint = some id) :
    part.registry.lookup? endpoint = some (whole.registry.rank endpoint id) := by
  rw [hshares.lookup?, hlookup]
  rfl

theorem Part.closed_eq (hshares : Part endpoint selection draws division whole part) :
    part.registry.closed = whole.registry.closed := by
  show part.service.registry.closed = _
  rw [hshares.service.registry_eq]
  rfl

theorem Part.isFatal_eq (hshares : Part endpoint selection draws division whole part) :
    part.registry.isFatal endpoint = whole.registry.isFatal endpoint := by
  show part.service.registry.isFatal endpoint = _
  rw [hshares.service.registry_eq]
  exact Registry.isFatal_share whole.registry endpoint

/-- A call for the endpoint finds its session or misses it, is refused, or dies. -/
theorem follows_of_setStage {stage : RouteStage} (hdivided : whole.Divided endpoint draws division)
    (hfound : whole.calls[n]? = some call) (hown : call.endpoint = endpoint)
    (hmove : whole.Move .single (.route n) (whole.setStage n call stage))
    (hroutes : ∀ selection part, Part endpoint selection draws division whole part →
      part.route? (whole.callRank endpoint n) = some (part.setStage (whole.callRank endpoint n)
        (call.renumber (whole.registry.rank endpoint))
        (stage.renumber (whole.registry.rank endpoint)))) :
    Follows endpoint draws division whole (whole.setStage n call stage)
      (·.route? (whole.callRank endpoint n)) := by
  apply Follows.of_calls hdivided (hdivided.addressed.move hmove) rfl
  intro selection part hshares
  refine ⟨_, hroutes selection part hshares, rfl, ?_, hshares.closers_eq⟩
  exact hshares.setStage_calls hmove.tasksMove hdivided.addressed hfound hown rfl part rfl

theorem follows_looking (hdivided : whole.Divided endpoint draws division)
    (hfound : whole.calls[n]? = some call) (hown : call.endpoint = endpoint)
    (hstage : call.stage = .looking ∨ call.stage = .opening)
    (hlookup : whole.registry.lookup? call.endpoint = some id) :
    Follows endpoint draws division whole (whole.setStage n call (.sending id))
      (·.route? (whole.callRank endpoint n)) := by
  subst hown
  apply follows_of_setStage hdivided hfound rfl (.finds n call id hfound hstage hlookup)
  intro selection part hshares
  exact route?_of_found (hshares.getElem?_calls hfound rfl)
    (hstage.imp (RouteCall.stage_renumber · _) (RouteCall.stage_renumber · _))
    (hshares.lookup?_of_some hlookup)

theorem follows_missed (hdivided : whole.Divided endpoint draws division)
    (hfound : whole.calls[n]? = some call) (hown : call.endpoint = endpoint)
    (hstage : call.stage = .looking) (hlookup : whole.registry.lookup? call.endpoint = none) :
    Follows endpoint draws division whole (whole.setStage n call .opening)
      (·.route? (whole.callRank endpoint n)) := by
  subst hown
  apply follows_of_setStage hdivided hfound rfl (.misses n call hfound hstage hlookup)
  intro selection part hshares
  exact route?_of_missed (hshares.getElem?_calls hfound rfl) (RouteCall.stage_renumber hstage _)
    (hshares.lookup?_of_none hlookup)

theorem follows_refused (hdivided : whole.Divided endpoint draws division)
    (hfound : whole.calls[n]? = some call) (hown : call.endpoint = endpoint)
    (hstage : call.stage = .opening) (hlookup : whole.registry.lookup? call.endpoint = none)
    (hclosed : whole.registry.closed = true) :
    Follows endpoint draws division whole (whole.setStage n call (.returned false))
      (·.route? (whole.callRank endpoint n)) := by
  subst hown
  apply follows_of_setStage hdivided hfound rfl (.isRefused n call hfound hstage hlookup hclosed)
  intro selection part hshares
  exact route?_of_closed (hshares.getElem?_calls hfound rfl) (RouteCall.stage_renumber hstage _)
    (hshares.lookup?_of_none hlookup) (hshares.closed_eq.trans hclosed)

theorem follows_died (hdivided : whole.Divided endpoint draws division)
    (hfound : whole.calls[n]? = some call) (hown : call.endpoint = endpoint)
    (hstage : call.stage = .opening)
    (hfatal : whole.registry.isFatal call.endpoint = true) :
    Follows endpoint draws division whole (whole.setStage n call .died)
      (·.route? (whole.callRank endpoint n)) := by
  subst hown
  apply follows_of_setStage hdivided hfound rfl (.dies n call hfound hstage hfatal)
  intro selection part hshares
  exact route?_of_fatal (hshares.getElem?_calls hfound rfl) (RouteCall.stage_renumber hstage _)
    (hshares.isFatal_eq.trans hfatal)

/-- The number that a task gets which is opened for the endpoint. -/
theorem rank_of_opened (registry : Registry) (endpoint : String) (session : Uuid) :
    (registry.opened endpoint session).rank endpoint registry.tasks.length =
      (registry.share endpoint).tasks.length := by
  rw [Registry.rank_opened session (Nat.le_refl _)]
  exact rankOf_length registry.tasks

theorem follows_opening (hdivided : whole.Divided endpoint draws division)
    (hfound : whole.calls[n]? = some call) (hown : call.endpoint = endpoint)
    (hstage : call.stage = .opening) (hlookup : whole.registry.lookup? call.endpoint = none)
    (haccepting : whole.registry.closed = false)
    (hsurvives : whole.registry.isFatal call.endpoint = false)
    (hdistinct : (whole.service.opened call.endpoint).Distinct) :
    Follows endpoint draws division whole
      ((whole.withRegistry (whole.registry.opened call.endpoint
        (whole.service.sessionIds whole.registry.tasks.length))).setStage n call
          (.spawning whole.registry.tasks.length))
      (·.route? (whole.callRank endpoint n)) := by
  have hmove : whole.Move .single (.route n) _ := .opens n call hfound hstage hlookup haccepting
    hsurvives
  have hplaced : whole.registry.Placed := hdivided.addressed.table_addressed
  subst hown
  have hfollows := Service.follows_opened hdivided.service hplaced hdistinct
  apply Follows.of_service hfollows (hdivided.addressed.move hmove)
  intro selection part service hshares hserved
  have hopens : part.route? (whole.callRank call.endpoint n) = _ :=
    route?_of_opened (hshares.getElem?_calls hfound rfl) (RouteCall.stage_renumber hstage _)
      (hshares.lookup?_of_none hlookup) (hshares.closed_eq.trans haccepting)
      (hshares.isFatal_eq.trans hsurvives)
  have hnumber : part.registry.tasks.length = (whole.registry.opened call.endpoint
      (whole.service.sessionIds whole.registry.tasks.length)).rank call.endpoint
        whole.registry.tasks.length := by
    rw [rank_of_opened]
    show part.service.registry.tasks.length = _
    rw [hshares.service.registry_eq]
  refine ⟨_, hopens, Option.some.inj hserved, ?_, hshares.closers_eq⟩
  rw [hnumber]
  exact hshares.setStage_calls hmove.tasksMove hdivided.addressed hfound rfl rfl
    (part.withRegistry _) rfl

theorem follows_spawning (hdivided : whole.Divided endpoint draws division)
    (hfound : whole.calls[n]? = some call) (hown : call.endpoint = endpoint)
    (hstage : call.stage = .spawning id) :
    Follows endpoint draws division whole
      ((whole.withRegistry (whole.registry.spawn id)).setStage n call (.sending id))
      (·.route? (whole.callRank endpoint n)) := by
  have hmove : whole.Move .single (.route n) _ := .spawns n call id hfound hstage
  have hknown : whole.registry.endpointOf? id = some endpoint :=
    hown ▸ hdivided.addressed.call_addressed n call id hfound (.inl hstage)
  have hfollows : Service.Follows endpoint draws division whole.service
      { whole.service with registry := whole.registry.spawn id } _ :=
    .of_registry (·.spawn (whole.registry.rank endpoint id))
      (Service.divided_of_spawn hdivided.service id) (Registry.share_spawn hknown)
  apply Follows.of_service hfollows (hdivided.addressed.move hmove)
  intro selection part service hshares hserved
  have hspawns : part.route? (whole.callRank endpoint n) = _ :=
    route?_of_spawning (hshares.getElem?_calls hfound hown) (RouteCall.stage_renumber hstage _)
  have hnumber := hmove.tasksMove.rank_eq endpoint (Registry.lt_of_endpointOf? hknown)
  refine ⟨_, hspawns, Option.some.inj hserved, ?_, hshares.closers_eq⟩
  rw [← hnumber]
  exact hshares.setStage_calls hmove.tasksMove hdivided.addressed hfound hown rfl
    (part.withRegistry _) rfl

/-- A call that knows its task queues its sample there, or drops it. -/
theorem exists_route?_of_sending (traffic : Traffic MemoryStore)
    (hfound : traffic.calls[n]? = some call) (hstage : call.stage = .sending id) :
    let sent := traffic.registry.send id call.sample
    ∃ posted, traffic.route? n =
      some { (traffic.withRegistry sent.2).setStage n call (.returned sent.1) with posted } := by
  intro sent
  unfold route?
  simp only [hfound, hstage]
  split
  · exact ⟨_, rfl⟩
  · exact ⟨traffic.posted, rfl⟩

theorem follows_sending (hdivided : whole.Divided endpoint draws division)
    (hfound : whole.calls[n]? = some call) (hown : call.endpoint = endpoint)
    (hstage : call.stage = .sending id) (hrouted : whole.route? n = some after) :
    Follows endpoint draws division whole after (·.route? (whole.callRank endpoint n)) := by
  have hmove : whole.Move .single (.route n) after := move_of_route hrouted
  have hknown : whole.registry.endpointOf? id = some endpoint :=
    hown ▸ hdivided.addressed.call_addressed n call id hfound (.inr hstage)
  obtain ⟨posted, hsends⟩ := whole.exists_route?_of_sending hfound hstage
  rw [hrouted, Option.some.injEq] at hsends
  subst hsends
  have hshare := Registry.share_send hknown call.sample
  have hfollows : Service.Follows endpoint draws division whole.service
      { whole.service with registry := (whole.registry.send id call.sample).2 } _ :=
    .of_registry (fun registry => (registry.send (whole.registry.rank endpoint id) call.sample).2)
      (Service.divided_of_send hdivided.service id call.sample) (congrArg Prod.snd hshare).symm
  apply Follows.of_service hfollows (hdivided.addressed.move hmove)
  intro selection part service hshares hserved
  have hthere : (call.renumber (whole.registry.rank endpoint)).stage =
      .sending (whole.registry.rank endpoint id) := RouteCall.stage_renumber hstage _
  obtain ⟨postedThere, hsendsThere⟩ :=
    part.exists_route?_of_sending (hshares.getElem?_calls hfound hown) hthere
  have haccepted : (part.registry.send (whole.registry.rank endpoint id) call.sample).1 =
      (whole.registry.send id call.sample).1 := by
    show (part.service.registry.send _ _).1 = _
    rw [hshares.service.registry_eq, hshare]
  refine ⟨_, hsendsThere, Option.some.inj hserved, ?_, hshares.closers_eq⟩
  have hcalls := hshares.setStage_calls hmove.tasksMove hdivided.addressed hfound hown rfl
    (part.withRegistry (part.registry.send (whole.registry.rank endpoint id) call.sample).2) rfl
  rw [← hcalls]
  show part.calls.set _ _ = part.calls.set _ _
  rw [show RouteStage.renumber _ (.returned _) = .returned _ from rfl, ← haccepted]
  rfl

/-- **A call for the endpoint goes on in the part as it does in the whole.** -/
theorem follows_route (hdivided : whole.Divided endpoint draws division)
    (hfound : whole.calls[n]? = some call) (hown : call.endpoint = endpoint)
    (hdistinct : after.service.Distinct) (hrouted : whole.route? n = some after) :
    Follows endpoint draws division whole after (·.route? (whole.callRank endpoint n)) := by
  cases hstage : call.stage with
  | looking =>
      cases hlookup : whole.registry.lookup? call.endpoint with
      | some id =>
          rw [route?_of_found hfound (.inl hstage) hlookup, Option.some.injEq] at hrouted
          exact hrouted ▸ follows_looking hdivided hfound hown (.inl hstage) hlookup
      | none =>
          rw [route?_of_missed hfound hstage hlookup, Option.some.injEq] at hrouted
          exact hrouted ▸ follows_missed hdivided hfound hown hstage hlookup
  | opening =>
      cases hlookup : whole.registry.lookup? call.endpoint with
      | some id =>
          rw [route?_of_found hfound (.inr hstage) hlookup, Option.some.injEq] at hrouted
          exact hrouted ▸ follows_looking hdivided hfound hown (.inr hstage) hlookup
      | none =>
          cases hclosed : whole.registry.closed with
          | true =>
              rw [route?_of_closed hfound hstage hlookup hclosed, Option.some.injEq] at hrouted
              exact hrouted ▸ follows_refused hdivided hfound hown hstage hlookup hclosed
          | false =>
              cases hfatal : whole.registry.isFatal call.endpoint with
              | true =>
                  rw [route?_of_fatal hfound hstage hfatal, Option.some.injEq] at hrouted
                  exact hrouted ▸ follows_died hdivided hfound hown hstage hfatal
              | false =>
                  rw [route?_of_opened hfound hstage hlookup hclosed hfatal,
                    Option.some.injEq] at hrouted
                  subst hrouted
                  exact follows_opening hdivided hfound hown hstage hlookup hclosed hfatal hdistinct
  | spawning id =>
      rw [route?_of_spawning hfound hstage, Option.some.injEq] at hrouted
      exact hrouted ▸ follows_spawning hdivided hfound hown hstage
  | sending id => exact follows_sending hdivided hfound hown hstage hrouted
  | returned | died => simp [route?, hfound, hstage] at hrouted

/-- A call for another endpoint goes on without the part. -/
theorem follows_route_of_foreign (hdivided : whole.Divided endpoint draws division)
    (hfound : whole.calls[n]? = some call) (hother : call.endpoint ≠ endpoint)
    (hdistinct : after.service.Distinct) (hrouted : whole.route? n = some after) :
    Follows endpoint draws division whole after some := by
  have hmove : whole.Move .single (.route n) after := move_of_route hrouted
  have hstays {stage : RouteStage} (hfollows : Service.Follows endpoint draws division whole.service
      after.service some) (hcalls : after.calls = whole.calls.set n { call with stage })
      (hclosers : after.closers = whole.closers) :
      Follows endpoint draws division whole after some := by
    apply Follows.of_service hfollows (hdivided.addressed.move hmove)
    intro selection part service hshares hsame
    refine ⟨part, rfl, Option.some.inj hsame, ?_, hshares.closers_eq.trans hclosers.symm⟩
    rw [hshares.calls_eq]
    exact (shareCalls_set_of_ne hmove.tasksMove hdivided.addressed hfound hother hcalls).symm
  have hforeign {id : TaskId} (hknows : call.stage = .spawning id ∨ call.stage = .sending id) :
      whole.registry.endpointOf? id ≠ some endpoint := by
    rw [hdivided.addressed.call_addressed n call id hfound hknows]
    exact fun hsame => hother (Option.some.inj hsame)
  cases hmove with
  | finds _ here id hfound' | misses _ here hfound' | isRefused _ here hfound'
  | dies _ here hfound' | drops _ here id hfound' =>
      have hsame : call = here := Option.some.inj (hfound.symm.trans hfound')
      subst hsame
      exact hstays (.rests hdivided.service) rfl rfl
  | opens _ here hfound' =>
      have hsame : call = here := Option.some.inj (hfound.symm.trans hfound')
      subst hsame
      exact hstays (Service.follows_opened_of_foreign hdivided.service
        hdivided.addressed.table_addressed hother hdistinct) rfl rfl
  | spawns _ here id hfound' hstage =>
      have hsame : call = here := Option.some.inj (hfound.symm.trans hfound')
      subst hsame
      exact hstays (.of_share (Service.divided_of_spawn hdivided.service id)
        (Registry.share_spawn_of_ne (hforeign (.inl hstage)))) rfl rfl
  | posts _ here id task hfound' hstage hknown =>
      have hsame : call = here := Option.some.inj (hfound.symm.trans hfound')
      subst hsame
      have hplace : { task with queue := { task.queue with
          samples := task.queue.samples ++ [call.sample] } }.endpoint = task.endpoint := rfl
      have hkept := hdivided.service.setTask hknown hplace fun _ _ hwithin =>
        ⟨hwithin.session, hwithin.script⟩
      exact hstays (.of_share hkept
        (Registry.share_setTask_of_ne hknown (hforeign (.inr hstage)) hplace)) rfl rfl

/-! ## Arrivals, closers and tasks -/

theorem follows_arrive (hdivided : whole.Divided endpoint draws division) (sample : Sample) :
    Follows endpoint draws division whole
      { whole with calls := whole.calls ++ [{ endpoint := endpoint, sample := sample }] }
      fun part => some { part with
          calls := part.calls ++ [{ endpoint := endpoint, sample := sample }] } := by
  have hmove : whole.Move .single (.arrive endpoint sample) _ := .arrives endpoint sample
  apply Follows.of_calls hdivided (hdivided.addressed.move hmove) rfl
  intro selection part hshares
  refine ⟨_, rfl, rfl, ?_, hshares.closers_eq⟩
  show part.calls ++ [_] = _
  rw [hshares.calls_eq]
  unfold shareCalls
  rw [List.filter_append, List.map_append]
  simp [RouteCall.renumber, RouteStage.renumber]

theorem follows_arrive_of_foreign (hdivided : whole.Divided endpoint draws division)
    {other : String} (hforeign : other ≠ endpoint) (sample : Sample) :
    Follows endpoint draws division whole
      { whole with calls := whole.calls ++ [{ endpoint := other, sample := sample }] } some := by
  have hmove : whole.Move .single (.arrive other sample) _ := .arrives other sample
  apply Follows.of_calls hdivided (hdivided.addressed.move hmove) rfl
  intro selection part hshares
  refine ⟨part, rfl, rfl, ?_, hshares.closers_eq⟩
  rw [hshares.calls_eq]
  unfold shareCalls
  rw [List.filter_append]
  simp [hforeign]

/-- A task of the endpoint takes its steps in the part. -/
theorem follows_turn {now : Nat} {step : TaskStep}
    (hdivided : whole.Divided endpoint draws division)
    (hown : whole.registry.endpointOf? id = some endpoint) (hdistinct : after.service.Distinct)
    (hturned : whole.turn? now id step = some after) : Follows endpoint draws division whole after
      (·.turn? now (whole.registry.rank endpoint id) step) := by
  have hmove : whole.Move .single (.task now id step) after := move_of_turn hturned
  obtain ⟨service, hstepped, rfl⟩ := Option.map_eq_some_iff.mp hturned
  have hfollows := Service.follows_step hdivided.service hdivided.addressed.table_addressed hown
    hdistinct.races hstepped
  apply Follows.of_service hfollows (hdivided.addressed.move hmove)
  intro selection part there hshares hserved
  refine ⟨_, Option.map_eq_some_iff.mpr ⟨there, hserved, rfl⟩, rfl, ?_, hshares.closers_eq⟩
  exact hshares.calls_eq.trans (shareCalls_of_rests hmove.tasksMove hdivided.addressed rfl).symm

/-- Another task takes its steps without the part. -/
theorem follows_turn_of_foreign {now : Nat} {step : TaskStep}
    (hdivided : whole.Divided endpoint draws division)
    (hforeign : whole.registry.endpointOf? id ≠ some endpoint) (hdistinct : after.service.Distinct)
    (hturned : whole.turn? now id step = some after) :
    Follows endpoint draws division whole after some := by
  have hmove : whole.Move .single (.task now id step) after := move_of_turn hturned
  obtain ⟨service, hstepped, rfl⟩ := Option.map_eq_some_iff.mp hturned
  have hfollows := Service.follows_step_of_foreign hdivided.service hforeign hdistinct.races
    hstepped
  apply Follows.of_service hfollows (hdivided.addressed.move hmove)
  intro selection part there hshares hsame
  refine ⟨part, rfl, Option.some.inj hsame, ?_, hshares.closers_eq⟩
  exact hshares.calls_eq.trans (shareCalls_of_rests hmove.tasksMove hdivided.addressed rfl).symm

/-- When all sessions in a shard were told to close, those of the endpoint were. -/
theorem isSwept_share {registry : Registry} (hplaced : registry.Placed) {shard : Nat}
    (hswept : isSwept shards registry shard = true) :
    isSwept shards (registry.share endpoint) shard = true := by
  unfold isSwept at hswept ⊢
  rw [List.all_eq_true] at hswept ⊢
  intro entry hmem
  obtain ⟨⟨owner, id⟩, hfiltered, rfl⟩ := List.mem_map.mp hmem
  obtain ⟨hlisted, hhere⟩ := List.mem_filter.mp hfiltered
  have hown : owner = endpoint := by simpa using hhere
  obtain ⟨task, hfound, hmine⟩ := Registry.endpointOf?_eq_some_iff.mp (hplaced (owner, id) hlisted)
  have htold : (shards.shardOf owner != shard || (registry.task? id).any Task.cancelled) = true :=
    hswept (owner, id) hlisted
  show (shards.shardOf owner != shard ||
    ((registry.share endpoint).task? (registry.rank endpoint id)).any Task.cancelled) = true
  rw [Registry.task?_share hfound (hmine.trans hown)]
  rw [hfound] at htold
  exact htold

/-- The registry changes as such, and the part's changes likewise. -/
theorem follows_registry {goesOn : Traffic MemoryStore → Option (Traffic MemoryStore)}
    (change : Registry → Registry) (closers : List CloseStage)
    (hdivided : whole.Divided endpoint draws division)
    (haddressed : { whole.withRegistry (change whole.registry) with closers }.Addressed)
    (htasks : (change whole.registry).tasks = whole.registry.tasks)
    (hshare : (change whole.registry).share endpoint = change (whole.registry.share endpoint))
    (hgoes : ∀ selection part, Part endpoint selection draws division whole part →
      goesOn part = some { part.withRegistry (change part.registry) with closers }) :
    Follows endpoint draws division whole
      { whole.withRegistry (change whole.registry) with closers } goesOn := by
  have hfollows : Service.Follows endpoint draws division whole.service
      { whole.service with registry := change whole.registry } _ :=
    .of_registry change (hdivided.service.of_tasks htasks) hshare
  apply Follows.of_service hfollows haddressed
  intro selection part service hshares hserved
  have hrests : whole.TasksMove { whole.withRegistry (change whole.registry) with closers } :=
    .rests htasks rfl rfl
  refine ⟨_, hgoes selection part hshares, Option.some.inj hserved, ?_, rfl⟩
  exact hshares.calls_eq.trans (shareCalls_of_rests hrests hdivided.addressed rfl).symm

theorem follows_close (hdivided : whole.Divided endpoint draws division)
    (hclosed : whole.close? shards n = some after) :
    Follows endpoint draws division whole after (·.close? shards n) := by
  have haddressed := hdivided.addressed.move (move_of_close hclosed)
  have hclosers {part : Traffic MemoryStore} {selection : Selection}
      (hshares : Part endpoint selection draws division whole part) :
      part.closers[n]? = whole.closers[n]? := by rw [hshares.closers_eq]
  cases move_of_close hclosed with
  | refuses _ hstage =>
      apply follows_registry Registry.refuse _ hdivided haddressed rfl Registry.share_refuse
      intro selection part hshares
      unfold close?
      rw [hclosers hshares, hstage, hshares.closers_eq]
  | awaits _ shard hstage hlast =>
      apply follows_registry Registry.await _ hdivided haddressed rfl Registry.share_await
      intro selection part hshares
      unfold close?
      rw [hclosers hshares, hstage, hshares.closers_eq]
      exact if_neg (Nat.not_lt.mpr hlast)
  | passes _ shard hstage hmore hswept =>
      apply follows_registry id _ hdivided haddressed rfl rfl
      intro selection part hshares
      have hthere : isSwept shards part.registry shard = true := by
        show isSwept shards part.service.registry shard = true
        rw [hshares.service.registry_eq]
        exact isSwept_share hdivided.addressed.table_addressed hswept
      unfold close?
      rw [hclosers hshares, hstage, hshares.closers_eq]
      exact (if_pos hmore).trans (if_pos hthere)

/-- The session of the endpoint is told to close in the part. -/
theorem follows_cancel (hdivided : whole.Divided endpoint draws division)
    (hcancelled : whole.cancel? shards n endpoint = some after) :
    Follows endpoint draws division whole after (·.cancel? shards n endpoint) := by
  have hmove := move_of_cancel hcancelled
  have haddressed := hdivided.addressed.move hmove
  cases hmove with
  | cancels _ shard _ id hstage hlookup hhere =>
      have hknown : whole.registry.endpointOf? id = some endpoint :=
        hdivided.addressed.table_addressed (endpoint, id) (Registry.mem_table_of_lookup? hlookup)
      have hfollows : Service.Follows endpoint draws division whole.service
          { whole.service with registry := whole.registry.cancel id } _ :=
        .of_registry (·.cancel (whole.registry.rank endpoint id))
          (Service.divided_of_cancel hdivided.service id) (Registry.share_cancel hknown)
      apply Follows.of_service hfollows haddressed
      intro selection part service hshares hserved
      have hthere : part.registry.lookup? endpoint = some (whole.registry.rank endpoint id) :=
        hshares.lookup?_of_some hlookup
      have hcancels : part.cancel? shards n endpoint =
          some (part.withRegistry (part.registry.cancel (whole.registry.rank endpoint id))) := by
        unfold cancel?
        rw [hshares.closers_eq, hstage, hthere]
        exact if_pos hhere
      refine ⟨_, hcancels, Option.some.inj hserved, ?_, hshares.closers_eq⟩
      exact hshares.calls_eq.trans
        (shareCalls_of_rests (move_of_cancel hcancelled).tasksMove hdivided.addressed rfl).symm

/-- The session of another endpoint is told to close without the part. -/
theorem follows_cancel_of_foreign (hdivided : whole.Divided endpoint draws division)
    {other : String} (hforeign : other ≠ endpoint)
    (hcancelled : whole.cancel? shards n other = some after) :
    Follows endpoint draws division whole after some := by
  have hmove := move_of_cancel hcancelled
  have haddressed := hdivided.addressed.move hmove
  cases hmove with
  | cancels _ shard _ id hstage hlookup hhere =>
      have hknown : whole.registry.endpointOf? id = some other :=
        hdivided.addressed.table_addressed (other, id) (Registry.mem_table_of_lookup? hlookup)
      have hstranger : whole.registry.endpointOf? id ≠ some endpoint := fun hown =>
        hforeign (Option.some.inj (hknown.symm.trans hown))
      have hfollows : Service.Follows endpoint draws division whole.service
          { whole.service with registry := whole.registry.cancel id } some :=
        .of_share (Service.divided_of_cancel hdivided.service id)
          (Registry.share_cancel_of_ne hstranger)
      apply Follows.of_service hfollows haddressed
      intro selection part service hshares hsame
      refine ⟨part, rfl, Option.some.inj hsame, ?_, hshares.closers_eq⟩
      exact hshares.calls_eq.trans
        (shareCalls_of_rests (move_of_cancel hcancelled).tasksMove hdivided.addressed rfl).symm

theorem follows_beginClose (hdivided : whole.Divided endpoint draws division) :
    Follows endpoint draws division whole { whole with closers := whole.closers ++ [.refusing] }
      fun part => some { part with closers := part.closers ++ [.refusing] } := by
  have hmove : whole.Move .single .beginClose _ := .beginsClose
  apply Follows.of_calls hdivided (hdivided.addressed.move hmove) rfl
  intro selection part hshares
  refine ⟨_, rfl, rfl, ?_, congrArg (· ++ [CloseStage.refusing]) hshares.closers_eq⟩
  exact hshares.calls_eq.trans (shareCalls_of_rests hmove.tasksMove hdivided.addressed rfl).symm

theorem follows_reopen (hdivided : whole.Divided endpoint draws division) :
    Follows endpoint draws division whole (whole.withRegistry whole.registry.reopen)
      fun part => some (part.withRegistry part.registry.reopen) := by
  have hmove : whole.Move .single .reopen _ := .reopens
  apply follows_registry Registry.reopen whole.closers hdivided (hdivided.addressed.move hmove) rfl
    Registry.share_reopen
  intro selection part hshares
  rw [← hshares.closers_eq]
  rfl

end Traffic

end RaceIngest
