import RaceIngest.Proofs.Registry.Occupancy

/-!
# Closing the registry misses no session

A call that closes the registry first refuses new sessions and then goes through the table, one
shard after the other, while callers go on to route samples and tasks go on to leave. A caller that
found no session may be anywhere between looking its endpoint up and opening one for it when the
first shard is visited.

That no session is missed rests on the order. A session is opened only while new ones are not
refused, and that is looked at together with the table; so from the moment the call begins its way
through the table nothing is added to it, neither in the shards that it has passed nor in those that
it has still to visit. Behind it every session that is left was told to close. It may be the call of
another caller that told it, and any number of calls may go through the table at once.

## Main results

* `Traffic.Swept.move`: the shards behind a call stay swept, until the registry is reopened.
* `Traffic.Sweeps.move`: a call passes a shard when it is swept.
* `Traffic.closing_misses_no_session`: when the call is over all sessions in the table were told to
  close, and none is opened any more.
-/

namespace RaceIngest

/-! ## Tasks that were told to close -/

theorem Task.Turn.cancelled_eq {interval : Duration} {task after : Task} {step : TaskStep}
    {operation : Option Operation} (h : task.Turn interval step operation after) :
    after.cancelled = task.cancelled := by
  cases h <;> rfl

/-- A task that was told to close stays so. -/
theorem Task.Change.cancelled {interval : Duration} {task after : Task}
    {operations : List Operation} {samples : List Sample}
    (h : task.Change interval operations samples after) (hcancelled : task.cancelled = true) :
    after.cancelled = true := by
  cases h with
  | turns step operation _ hturn => exact hturn.cancelled_eq.trans hcancelled
  | spawns | queues => exact hcancelled
  | cancels => rfl

namespace Traffic

variable {σ : Type}

/-- A session was told to close. -/
def IsCancelled (traffic : Traffic σ) (id : TaskId) : Prop :=
  ∃ task, traffic.registry.task? id = some task ∧ task.cancelled = true

theorem TasksMove.isCancelled {before after : Traffic σ} (h : before.TasksMove after)
    {id : TaskId} (hid : before.IsCancelled id) : after.IsCancelled id := by
  cases h with
  | rests htasks =>
      unfold IsCancelled Registry.task?
      rw [htasks]
      exact hid
  | opens endpoint sessionId htasks =>
      obtain ⟨task, htask, hcancelled⟩ := hid
      have hlt := (List.getElem?_eq_some_iff.mp htask).1
      refine ⟨task, ?_, hcancelled⟩
      rw [Registry.task?, htasks, List.getElem?_append_left hlt]
      exact htask
  | changes n changed task task' operations samples htask hchange htasks =>
      refine (Registry.exists_task_iff_of_set htask htasks _ id).mpr ?_
      by_cases hsame : changed = id
      · subst hsame
        obtain ⟨task₀, htask₀, hcancelled⟩ := hid
        rw [htask, Option.some.injEq] at htask₀
        rw [if_pos rfl]
        exact hchange.cancelled (htask₀ ▸ hcancelled)
      · rw [if_neg hsame]
        exact hid

/-! ## A registry that refuses new sessions -/

/-- Unless it is reopened, a registry that refuses new sessions goes on to do so, and its table only
gets smaller. -/
theorem Move.of_closed {shards : Shards} {traffic after : Traffic σ} {action : Action}
    (h : traffic.Move shards action after) (hclosed : traffic.registry.closed = true)
    (hne : action ≠ .reopen) :
    after.registry.closed = true ∧ after.registry.table.Sublist traffic.registry.table ∧
      after.registry.tasks.length = traffic.registry.tasks.length := by
  cases h with
  | opens n call _ _ _ hopen =>
      rw [hclosed] at hopen
      cases hopen
  | spawns n call id =>
      rcases traffic.registry.spawn_cases id with hspawn | ⟨task, -, -, hspawn⟩
      · rw [hspawn]
        exact ⟨hclosed, List.Sublist.refl _, rfl⟩
      · rw [hspawn]
        exact ⟨hclosed, List.Sublist.refl _, List.length_set⟩
  | cancels n shard endpoint id =>
      rcases traffic.registry.cancel_cases id with hcancel | ⟨task, -, hcancel⟩
      · rw [hcancel]
        exact ⟨hclosed, List.Sublist.refl _, rfl⟩
      · rw [hcancel]
        exact ⟨hclosed, List.Sublist.refl _, List.length_set⟩
  | posts => exact ⟨hclosed, List.Sublist.refl _, List.length_set⟩
  | turns now id step task task' service hturned =>
      change service.registry.closed = true ∧ service.registry.table.Sublist _ ∧
        service.registry.tasks.length = _
      rw [hturned.registry_eq]
      refine ⟨hclosed, ?_, List.length_set⟩
      dsimp only
      split
      · exact List.filter_sublist
      · exact List.Sublist.refl _
  | refuses => exact ⟨rfl, List.Sublist.refl _, rfl⟩
  | reopens => exact absurd rfl hne
  | _ => exact ⟨hclosed, List.Sublist.refl _, rfl⟩

theorem lookup?_eq_none_of_sublist {before after : Registry} {endpoint : String}
    (h : before.lookup? endpoint = none) (htable : after.table.Sublist before.table) :
    after.lookup? endpoint = none :=
  List.lookup_eq_none_iff.mpr fun entry hentry =>
    List.lookup_eq_none_iff.mp h entry (htable.subset hentry)

/-! ## The way through the table -/

/-- New sessions are refused, and those in the first shards were told to close. -/
structure Swept (shards : Shards) (traffic : Traffic σ) (shard : Nat) : Prop where
  closed : traffic.registry.closed = true
  cancelled : ∀ entry ∈ traffic.registry.table, shards.shardOf entry.1 < shard →
    traffic.IsCancelled entry.2

theorem Swept.move {shards : Shards} {traffic after : Traffic σ} {action : Action} {shard : Nat}
    (h : traffic.Swept shards shard) (hmove : traffic.Move shards action after)
    (hne : action ≠ .reopen) : after.Swept shards shard := by
  obtain ⟨hclosed, htable, -⟩ := hmove.of_closed h.closed hne
  exact ⟨hclosed, fun entry hentry hlt =>
    hmove.tasksMove.isCancelled (h.cancelled entry (htable.subset hentry) hlt)⟩

/-- A shard whose sessions were all told to close is swept, too. -/
theorem Swept.next {shards : Shards} {traffic : Traffic σ} {shard : Nat}
    (h : traffic.Swept shards shard) (hswept : isSwept shards traffic.registry shard = true) :
    traffic.Swept shards (shard + 1) := by
  refine ⟨h.closed, fun entry hentry hlt => ?_⟩
  by_cases hbefore : shards.shardOf entry.1 < shard
  · exact h.cancelled entry hentry hbefore
  · have hhere : shards.shardOf entry.1 = shard := by omega
    have hall := List.all_eq_true.mp hswept entry hentry
    simp only [hhere, bne_self_eq_false, Bool.false_or] at hall
    cases htask : traffic.registry.task? entry.2 with
    | none =>
        rw [htask] at hall
        cases hall
    | some task =>
        rw [htask] at hall
        exact ⟨task, htask, hall⟩

/-- What is behind a call on its way through the table. -/
structure Sweeps (shards : Shards) (traffic : Traffic σ) (n : Nat) : Prop where
  sweeping : ∀ shard, traffic.closers[n]? = some (.sweeping shard) → traffic.Swept shards shard
  returned : traffic.closers[n]? = some .returned → traffic.Swept shards shards.count

/-- A call that has only begun has nothing behind it. -/
theorem sweeps_of_refusing {shards : Shards} {traffic : Traffic σ} {n : Nat}
    (h : ∀ stage, traffic.closers[n]? = some stage → stage = .refusing) :
    traffic.Sweeps shards n where
  sweeping := fun _ hcloser => nomatch h _ hcloser
  returned := fun hcloser => nomatch h _ hcloser

/-- Another call went on, or none. -/
theorem Sweeps.keep {shards : Shards} {before after : Traffic σ} {n : Nat}
    (h : before.Sweeps shards n) (hcloser : after.closers[n]? = before.closers[n]?)
    (hswept : ∀ shard, before.Swept shards shard → after.Swept shards shard) :
    after.Sweeps shards n where
  sweeping := by
    rw [hcloser]
    exact fun shard hshard => hswept shard (h.sweeping shard hshard)
  returned := by
    rw [hcloser]
    exact fun hover => hswept _ (h.returned hover)

/-- The call itself went on. -/
theorem Sweeps.goOn {shards : Shards} {after : Traffic σ} {n : Nat} {stage : CloseStage}
    (hcloser : after.closers[n]? = some stage)
    (hsweeping : ∀ shard, stage = .sweeping shard → after.Swept shards shard)
    (hreturned : stage = .returned → after.Swept shards shards.count) :
    after.Sweeps shards n where
  sweeping := by
    rw [hcloser]
    exact fun shard hshard => hsweeping shard (Option.some.inj hshard)
  returned := by
    rw [hcloser]
    exact fun hover => hreturned (Option.some.inj hover)

theorem Sweeps.move {shards : Shards} {traffic after : Traffic σ} {action : Action} {n : Nat}
    (h : traffic.Sweeps shards n) (hmove : traffic.Move shards action after)
    (hne : action ≠ .reopen) : after.Sweeps shards n := by
  have hswept : ∀ shard, traffic.Swept shards shard → after.Swept shards shard :=
    fun _ hbefore => hbefore.move hmove hne
  cases hmove with
  | beginsClose =>
      by_cases hlt : n < traffic.closers.length
      · exact h.keep (List.getElem?_append_left hlt) hswept
      · refine sweeps_of_refusing fun stage hstage => ?_
        rcases getElem?_concat_cases hstage with hold | ⟨-, hnew⟩
        · exact absurd (List.getElem?_eq_some_iff.mp hold).1 hlt
        · exact hnew
  | refuses m hcloser =>
      by_cases hm : m = n
      · subst hm
        have hlt := (List.getElem?_eq_some_iff.mp hcloser).1
        refine .goOn (List.getElem?_set_self hlt) ?_ (by simp)
        rintro shard ⟨rfl⟩
        exact ⟨rfl, fun _ _ hneg => absurd hneg (Nat.not_lt_zero _)⟩
      · exact h.keep (List.getElem?_set_ne hm) hswept
  | passes m shard hcloser _ hpassed =>
      by_cases hm : m = n
      · subst hm
        have hlt := (List.getElem?_eq_some_iff.mp hcloser).1
        refine .goOn (List.getElem?_set_self hlt) ?_ (by simp)
        rintro next ⟨rfl⟩
        exact hswept _ ((h.sweeping shard hcloser).next hpassed)
      · exact h.keep (List.getElem?_set_ne hm) hswept
  | awaits m shard hcloser hge =>
      by_cases hm : m = n
      · subst hm
        have hlt := (List.getElem?_eq_some_iff.mp hcloser).1
        refine .goOn (List.getElem?_set_self hlt) (by simp) fun _ => hswept _ ?_
        have hbehind := h.sweeping shard hcloser
        exact ⟨hbehind.closed, fun entry hentry hentryLt =>
          hbehind.cancelled entry hentry (hentryLt.trans_le hge)⟩
      · exact h.keep (List.getElem?_set_ne hm) hswept
  | reopens => exact absurd rfl hne
  | _ => exact h.keep rfl hswept

/-! ## Runs -/

variable [Store σ]

/-- Closing the registry missed no session: those in the table were told to close, those that were
not told have left it, and as long as the registry is not reopened there will be no others. A call
for an endpoint without a session is refused and changes nothing but itself, be it all at once or
step by step with everybody else going on. -/
structure ClosedOff (shards : Shards) (traffic : Traffic σ) : Prop where
  cancelled : ∀ entry ∈ traffic.registry.table, traffic.IsCancelled entry.2
  left : ∀ id task, traffic.registry.task? id = some task → task.cancelled = false →
    task.stage.hasLeft = true
  shrinks : ∀ more, .reopen ∉ more →
    (traffic.run shards more).registry.table.Sublist traffic.registry.table ∧
      (traffic.run shards more).registry.tasks.length = traffic.registry.tasks.length
  route_eq : ∀ endpoint, traffic.registry.lookup? endpoint = none → ∀ sample,
    traffic.service.route endpoint sample = (false, none, traffic.service)
  route?_eq : ∀ endpoint, traffic.registry.lookup? endpoint = none → ∀ more, .reopen ∉ more →
    ∀ n call, (traffic.run shards more).calls[n]? = some call → call.endpoint = endpoint →
    (call.stage = .looking → (traffic.run shards more).route? n =
        some ((traffic.run shards more).setStage n call .opening)) ∧
      (call.stage = .opening → (traffic.run shards more).route? n =
        some ((traffic.run shards more).setStage n call (.returned false)))

/-- Unless it is reopened, a closed registry opens no session whatever is done. -/
theorem run_of_closed (shards : Shards) {traffic : Traffic σ}
    (hclosed : traffic.registry.closed = true) {more : List Action} (hmore : .reopen ∉ more) :
    (traffic.run shards more).registry.closed = true ∧
      (traffic.run shards more).registry.table.Sublist traffic.registry.table ∧
      (traffic.run shards more).registry.tasks.length = traffic.registry.tasks.length := by
  refine run_induction (P := fun after => after.registry.closed = true ∧
    after.registry.table.Sublist traffic.registry.table ∧
    after.registry.tasks.length = traffic.registry.tasks.length) more ?_
    ⟨hclosed, List.Sublist.refl _, rfl⟩
  intro before ⟨hbefore, htable, hlength⟩ action haction after hmove
  have hne : action ≠ .reopen := fun heq => hmore (heq ▸ haction)
  obtain ⟨hafter, htable', hlength'⟩ := hmove.of_closed hbefore hne
  exact ⟨hafter, htable'.trans htable, hlength'.trans hlength⟩

/-- When all shards are swept the registry is closed off. -/
theorem Swept.closedOff {shards : Shards} {traffic : Traffic σ}
    (h : traffic.Swept shards shards.count) (hoccupied : traffic.Occupied) :
    traffic.ClosedOff shards where
  cancelled := fun entry hentry => h.cancelled entry hentry (shards.shardOf_lt entry.1)
  left := by
    intro id task htask hcancelled
    -- a session that has not left is in the table, and there all were told to close
    by_contra hhere
    have hmem := hoccupied.tabled.mem_table id task htask (by simpa using hhere)
    obtain ⟨found, hfound, htold⟩ := h.cancelled _ hmem (shards.shardOf_lt _)
    rw [htask, Option.some.injEq] at hfound
    rw [← hfound, hcancelled] at htold
    cases htold
  shrinks := fun _ hmore => (run_of_closed shards h.closed hmore).2
  route_eq := by
    intro endpoint hnone sample
    unfold Service.route Registry.route
    rw [hnone]
    simp only [Registry.openSession_of_closed hnone h.closed]
  route?_eq := by
    intro endpoint hnone more hmore n call hcall hown
    obtain ⟨hclosed, htable, -⟩ := run_of_closed shards h.closed hmore
    have hstill : (traffic.run shards more).registry.lookup? call.endpoint = none :=
      lookup?_eq_none_of_sublist (hown ▸ hnone) htable
    exact ⟨fun hstage => route?_of_missed hcall hstage hstill,
      fun hstage => route?_of_closed hcall hstage hstill hclosed⟩

/-- **Closing the registry misses no session.** Whatever went on before a call began to close the
registry, and whoever does what meanwhile and afterwards, unless the registry is reopened: when the
call is over the registry is closed off. -/
theorem closing_misses_no_session (shards : Shards) (config : ServerConfig) (world : World σ)
    (sessionIds : Nat → Uuid) (earlier later : List Action) (n : Nat) :
    let begun := (fresh config world sessionIds).run shards earlier
    (∀ stage, begun.closers[n]? = some stage → stage = .refusing) → .reopen ∉ later →
    (begun.run shards later).closers[n]? = some .returned →
    (begun.run shards later).ClosedOff shards := by
  intro begun hbegun hlater hreturned
  have hoccupied : (begun.run shards later).Occupied := occupied_run shards
    (occupied_run shards (occupied_fresh config world sessionIds) earlier) later
  have hsweeps : (begun.run shards later).Sweeps shards n := by
    refine run_induction (P := fun traffic => traffic.Sweeps shards n) later ?_
      (sweeps_of_refusing hbegun)
    intro before hbefore action haction after hmove
    exact hbefore.move hmove fun heq => hlater (heq ▸ haction)
  exact (hsweeps.returned hreturned).closedOff hoccupied

/-- One caller has put its session into the table and another has found none for its endpoint, when
the registry is closed. The first goes on to spawn its task, which is told to close; the second is
refused. -/
theorem closedOff_of_first_contacts :
    let world := World.fresh MemoryStore.empty .none (fun _ => default) .ofNat
    let earlier := [.arrive "car" (.lapping .one), .arrive "bus" (.lapping .one), .route 0,
      .route 0, .route 1]
    let later := [.beginClose, .close 0, .route 1, .cancel 0 "car", .route 0, .close 0, .close 0]
    let traffic := ((fresh {} world .ofNat).run .single earlier).run .single later
    traffic.ClosedOff .single ∧ traffic.registry.endpoints = ["car"] ∧
      traffic.registry.tasks.map (·.cancelled) = [true] ∧
      traffic.calls.map RouteCall.stage = [.sending 0, .returned false] := by
  intro world earlier later traffic
  have hclosers : ((fresh {} world .ofNat).run .single earlier).closers = [] := by decide +kernel
  refine ⟨?_, by decide +kernel, by decide +kernel, by decide +kernel⟩
  refine closing_misses_no_session .single {} world .ofNat earlier later 0 ?_ (by decide +kernel)
    (by decide +kernel)
  intro stage hstage
  rw [hclosers] at hstage
  cases hstage

end Traffic

end RaceIngest
