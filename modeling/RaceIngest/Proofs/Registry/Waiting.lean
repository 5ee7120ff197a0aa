import RaceIngest.Proofs.Registry.Delivery

/-!
# Waiting until all sessions are closed

`Registry.allEnded` is when a wait for the end of all sessions is over: the registry was closed and
no task is pending. A task is pending from the moment it is spawned, and a session is in the table
before that. So the wait can be over while a caller has put a session into the table and not
spawned its task yet; that session opens its race and calls the store after the wait.

It can also be over with a session in the table whose task died, because its checkpoint interval
is one that no clock can tick at. Nothing else goes wrong: in every run in which the registry is not
reopened, a wait that is over has waited for everything exactly when neither is the case.

## Main results

* `Traffic.Spawning`, `Traffic.Listed`, `Traffic.Refusing`, the invariants of runs that do not
  reopen the registry.
* `Traffic.AtRest.move`: when all tasks have ended and new sessions are refused, nothing happens.
* `Traffic.ClosedForGood`: what a wait promises.
* `Traffic.closedForGood_iff`: when it keeps the promise.
-/

namespace RaceIngest

namespace Traffic

variable {σ : Type}

/-! ## Callers that open sessions -/

/-- A task is in the table but not spawned yet. -/
def IsOpened (traffic : Traffic σ) (id : TaskId) : Prop :=
  ∃ task, traffic.registry.task? id = some task ∧ task.stage = .opened

/-- A call put a session into the table and is about to spawn its task. -/
def Spawns (traffic : Traffic σ) (n : Nat) (id : TaskId) : Prop :=
  ∃ call, traffic.calls[n]? = some call ∧ call.stage = .spawning id

/-- The tasks that are not spawned yet are those that a call is about to spawn, each of them one. -/
structure Spawning (traffic : Traffic σ) : Prop where
  opened_iff : ∀ id, traffic.IsOpened id ↔ ∃ n, traffic.Spawns n id
  spawns_unique : ∀ n m id, traffic.Spawns n id → traffic.Spawns m id → n = m

theorem Spawning.congr {before after : Traffic σ} (h : before.Spawning)
    (hspawns : ∀ n id, after.Spawns n id ↔ before.Spawns n id)
    (hopened : ∀ id, after.IsOpened id ↔ before.IsOpened id) : after.Spawning where
  opened_iff := by
    intro id
    simp only [hspawns, hopened]
    exact h.opened_iff id
  spawns_unique := by
    intro n m id
    simp only [hspawns]
    exact h.spawns_unique n m id

theorem spawns_iff_of_set {before after : Traffic σ} {n : Nat} {call : RouteCall}
    {stage : RouteStage} (hcall : before.calls[n]? = some call)
    (hcalls : after.calls = before.calls.set n { call with stage }) (m : Nat) (id : TaskId) :
    after.Spawns m id ↔ if n = m then stage = .spawning id else before.Spawns m id := by
  have hlt : n < before.calls.length := (List.getElem?_eq_some_iff.mp hcall).1
  unfold Spawns
  rw [hcalls]
  by_cases hm : n = m
  · subst hm
    simp [hlt]
  · rw [if_neg hm, List.getElem?_set_ne hm]

/-- A call that neither was nor is about to spawn a task leaves open who is. -/
theorem spawns_iff_of_goesOn {before after : Traffic σ} {n : Nat} {call : RouteCall}
    {stage : RouteStage} (hcall : before.calls[n]? = some call)
    (hcalls : after.calls = before.calls.set n { call with stage })
    (hbefore : ∀ id, call.stage ≠ .spawning id) (hstage : ∀ id, stage ≠ .spawning id) (m : Nat)
    (id : TaskId) : after.Spawns m id ↔ before.Spawns m id := by
  rw [spawns_iff_of_set hcall hcalls]
  by_cases hm : n = m
  · subst hm
    rw [if_pos rfl]
    refine ⟨fun hspawning => absurd hspawning (hstage id), ?_⟩
    rintro ⟨other, hother, hspawning⟩
    rw [hcall, Option.some.injEq] at hother
    exact absurd (hother ▸ hspawning) (hbefore id)
  · rw [if_neg hm]

theorem isOpened_iff_of_set {before after : Traffic σ} {changed : TaskId} {task task' : Task}
    (htask : before.registry.task? changed = some task)
    (htasks : after.registry.tasks = before.registry.tasks.set changed task') (id : TaskId) :
    after.IsOpened id ↔
      if changed = id then task'.stage = .opened else before.IsOpened id :=
  Registry.exists_task_iff_of_set htask htasks _ id

/-- A task whose stage stays opened, or is not and does not become so. -/
theorem isOpened_iff_of_keep {before after : Traffic σ} {changed : TaskId} {task task' : Task}
    (htask : before.registry.task? changed = some task)
    (htasks : after.registry.tasks = before.registry.tasks.set changed task')
    (hstage : task'.stage = .opened ↔ task.stage = .opened) (id : TaskId) :
    after.IsOpened id ↔ before.IsOpened id :=
  Registry.exists_task_iff_of_keep htask htasks hstage id

/-- A call that opens a session is the one that is about to spawn its task. -/
theorem Spawning.opens {before after : Traffic σ} (h : before.Spawning) {n : Nat}
    {call : RouteCall} (task : Task) (hcall : before.calls[n]? = some call)
    (hstage : call.stage = .opening)
    (hcalls : after.calls = before.calls.set n
      { call with stage := .spawning before.registry.tasks.length })
    (htasks : after.registry.tasks = before.registry.tasks ++ [task])
    (hopened : task.stage = .opened) : after.Spawning := by
  let new : TaskId := before.registry.tasks.length
  have hspawns : ∀ m id, after.Spawns m id ↔ before.Spawns m id ∨ n = m ∧ new = id := by
    intro m id
    rw [spawns_iff_of_set hcall hcalls]
    by_cases hm : n = m
    · subst hm
      rw [if_pos rfl, RouteStage.spawning.injEq]
      refine ⟨fun hid => .inr ⟨rfl, hid⟩, ?_⟩
      rintro (⟨other, hother, hspawning⟩ | ⟨-, hid⟩)
      · rw [hcall, Option.some.injEq] at hother
        simp [← hother, hstage] at hspawning
      · exact hid
    · simp [hm]
  have hisOpened : ∀ id, after.IsOpened id ↔ before.IsOpened id ∨ new = id := by
    intro id
    unfold IsOpened Registry.task?
    rw [htasks]
    constructor
    · rintro ⟨other, hother, hotherStage⟩
      rcases getElem?_concat_cases hother with hold | ⟨hid, -⟩
      · exact .inl ⟨other, hold, hotherStage⟩
      · exact .inr hid.symm
    · rintro (⟨other, hother, hotherStage⟩ | hid)
      · have hlt := (List.getElem?_eq_some_iff.mp hother).1
        exact ⟨other, (List.getElem?_append_left hlt).trans hother, hotherStage⟩
      · rw [← hid]
        exact ⟨task, List.getElem?_concat_length, hopened⟩
  have hfresh : ¬before.IsOpened new := by
    rintro ⟨other, hother, -⟩
    exact Nat.lt_irrefl _ (List.getElem?_eq_some_iff.mp hother).1
  refine ⟨?_, ?_⟩
  · intro id
    rw [hisOpened, h.opened_iff]
    simp only [hspawns]
    constructor
    · rintro (⟨m, hm⟩ | hid)
      · exact ⟨m, .inl hm⟩
      · exact ⟨n, .inr ⟨rfl, hid⟩⟩
    · rintro ⟨m, hm | ⟨-, hid⟩⟩
      · exact .inl ⟨m, hm⟩
      · exact .inr hid
  · intro m k id hm hk
    have hold : ∀ m, before.Spawns m id → new ≠ id := by
      rintro m hbefore rfl
      exact hfresh ((h.opened_iff new).mpr ⟨m, hbefore⟩)
    rcases (hspawns m id).mp hm with hm | ⟨rfl, hid⟩
    · rcases (hspawns k id).mp hk with hk | ⟨-, hid⟩
      · exact h.spawns_unique m k id hm hk
      · exact absurd hid (hold m hm)
    · rcases (hspawns k id).mp hk with hk | ⟨rfl, -⟩
      · exact absurd hid (hold k hk)
      · rfl

/-- A call that spawns its task was the only one about to. -/
theorem Spawning.spawns {before after : Traffic σ} (h : before.Spawning) {n : Nat}
    {call : RouteCall} {id : TaskId} (hcall : before.calls[n]? = some call)
    (hstage : call.stage = .spawning id)
    (hcalls : after.calls = before.calls.set n { call with stage := .sending id })
    (hregistry : after.registry = before.registry.spawn id) : after.Spawning := by
  have hspawnsId : before.Spawns n id := ⟨call, hcall, hstage⟩
  obtain ⟨task, htask, hopened⟩ := (h.opened_iff id).mpr ⟨n, hspawnsId⟩
  have htasks : after.registry.tasks =
      before.registry.tasks.set id { task with stage := .spawned } := by
    rw [hregistry, Registry.spawn_of_opened htask hopened]
    rfl
  have hspawns : ∀ m other, after.Spawns m other ↔ n ≠ m ∧ before.Spawns m other := by
    intro m other
    rw [spawns_iff_of_set hcall hcalls]
    by_cases hm : n = m <;> simp [hm]
  have hisOpened : ∀ other, after.IsOpened other ↔ id ≠ other ∧ before.IsOpened other := by
    intro other
    rw [isOpened_iff_of_set htask htasks]
    by_cases hid : id = other <;> simp [hid]
  -- a call is about to spawn one task only
  have hsame : ∀ other, before.Spawns n other → id = other := by
    rintro other ⟨call', hcall', hstage'⟩
    rw [hcall, Option.some.injEq] at hcall'
    rw [← hcall', hstage] at hstage'
    exact RouteStage.spawning.inj hstage'
  refine ⟨?_, ?_⟩
  · intro other
    rw [hisOpened, h.opened_iff]
    simp only [hspawns]
    constructor
    · rintro ⟨hne, m, hm⟩
      refine ⟨m, ?_, hm⟩
      rintro rfl
      exact hne (hsame other hm)
    · rintro ⟨m, hne, hm⟩
      refine ⟨?_, m, hm⟩
      rintro rfl
      exact hne (h.spawns_unique n m id hspawnsId hm)
  · intro m k other hm hk
    exact h.spawns_unique m k other ((hspawns m other).mp hm).2 ((hspawns k other).mp hk).2

theorem Spawning.move {shards : Shards} {traffic after : Traffic σ} {action : Action}
    (h : traffic.Spawning) (hmove : traffic.Move shards action after) : after.Spawning := by
  cases hmove with
  | arrives endpoint sample =>
      refine h.congr (fun n id => ?_) fun id => Iff.rfl
      refine ⟨?_, ?_⟩
      · rintro ⟨call, hcall, hstage⟩
        rcases getElem?_concat_cases hcall with hold | ⟨-, rfl⟩
        · exact ⟨call, hold, hstage⟩
        · cases hstage
      · rintro ⟨call, hcall, hstage⟩
        have hlt : n < traffic.calls.length := (List.getElem?_eq_some_iff.mp hcall).1
        exact ⟨call, (List.getElem?_append_left hlt).trans hcall, hstage⟩
  | finds n call id hcall hstage =>
      refine h.congr (spawns_iff_of_goesOn hcall rfl ?_ (by simp)) fun id => Iff.rfl
      intro other
      rcases hstage with hlooking | hopening
      · simp [hlooking]
      · simp [hopening]
  | misses n call hcall hstage | isRefused n call hcall hstage | dies n call hcall hstage
  | drops n call _ hcall hstage =>
      exact h.congr (spawns_iff_of_goesOn hcall rfl (by simp [hstage]) (by simp)) fun id => Iff.rfl
  | opens n call hcall hstage =>
      exact h.opens (traffic.registry.newTask call.endpoint _) hcall hstage rfl rfl rfl
  | spawns n call id hcall hstage => exact h.spawns hcall hstage rfl rfl
  | posts n call id task hcall hstage htask =>
      exact h.congr (spawns_iff_of_goesOn hcall rfl (by simp [hstage]) (by simp))
        (isOpened_iff_of_keep htask rfl Iff.rfl)
  | turns now id step task task' service hturned hturn =>
      have htasks : service.registry.tasks = traffic.registry.tasks.set id task' := by
        rw [hturned.registry_eq]
      have hopened : task'.stage = .opened ↔ task.stage = .opened :=
        ⟨fun hafter => absurd hafter hturn.stage_ne_opened, fun hbefore => by
          have hpending := hturn.isPending
          rw [Task.isPending, hbefore] at hpending
          cases hpending⟩
      exact h.congr (fun n id => Iff.rfl) (isOpened_iff_of_keep hturned.task_eq htasks hopened)
  | cancels n shard endpoint id =>
      refine h.congr (fun n id => Iff.rfl) ?_
      rcases traffic.registry.cancel_cases id with hcancel | ⟨task, htask, hcancel⟩
      · rw [hcancel]
        exact fun id => Iff.rfl
      · rw [hcancel]
        exact isOpened_iff_of_keep htask rfl Iff.rfl
  | beginsClose | refuses | passes | awaits | reopens =>
      exact h.congr (fun n id => Iff.rfl) fun id => Iff.rfl

/-! ## The table -/

end Traffic

/-- Whether a task in a stage has given up its place in the table. -/
def Stage.hasLeft : Stage → Bool
  | .unregistered | .draining | .busy .draining _ _ | .busy .closing _ _ | .ended => true
  | _ => false

/-- Only by unregistering a task gives up its place. -/
theorem Task.Turn.hasLeft {interval : Duration} {task after : Task} {step : TaskStep}
    {operation : Option Operation} (h : task.Turn interval step operation after)
    (hleft : after.stage.hasLeft = true) : task.stage.hasLeft = true ∨ step = .unregister := by
  cases h with
  | unregisters => exact .inr rfl
  | starts | dies | leaves | receives | flushes | idles => cases hleft
  | closesQueue hstage | drains _ _ hstage | concludes hstage =>
      rw [hstage]
      exact .inl rfl
  | calls work _ _ _ hstage | completes work _ _ _ _ hstage =>
      rw [hstage]
      cases work <;> first | exact .inl rfl | cases hleft
  | settles work _ hstage =>
      rw [hstage]
      cases work <;> first | exact .inl rfl | cases hleft

namespace Traffic

variable {σ : Type}

/-- A session in the table has not given up its place. -/
def Listed (traffic : Traffic σ) : Prop :=
  ∀ entry ∈ traffic.registry.table, ∀ task, traffic.registry.task? entry.2 = some task →
    task.stage.hasLeft = false

/-- A task that changes stays in the table only when it has not given up its place. -/
theorem Listed.of_set {before after : Traffic σ} (h : before.Listed) {id : TaskId}
    {task task' : Task} (htask : before.registry.task? id = some task)
    (htasks : after.registry.tasks = before.registry.tasks.set id task')
    (htable : ∀ entry ∈ after.registry.table, entry ∈ before.registry.table)
    (hstage : task'.stage.hasLeft = true →
      task.stage.hasLeft = true ∨ ∀ entry ∈ after.registry.table, entry.2 ≠ id) :
    after.Listed := by
  intro entry hentry other hother
  rw [Registry.task?, htasks] at hother
  rcases getElem?_set_cases hother with ⟨hid, rfl⟩ | ⟨-, hold⟩
  · have hbefore : task.stage.hasLeft = false :=
      h entry (htable entry hentry) task (by rw [← hid]; exact htask)
    cases hleft : other.stage.hasLeft with
    | false => rfl
    | true =>
        rcases hstage hleft with hcontra | hgone
        · rw [hbefore] at hcontra
          cases hcontra
        · exact absurd hid.symm (hgone entry hentry)
  · exact h entry (htable entry hentry) other hold

theorem Listed.move {shards : Shards} {traffic after : Traffic σ} {action : Action}
    (h : traffic.Listed) (haddressed : traffic.Addressed)
    (hmove : traffic.Move shards action after) : after.Listed := by
  cases hmove with
  | opens n call hcall hstage =>
      intro entry hentry task htask
      rcases getElem?_concat_cases htask with hold | ⟨hid, rfl⟩
      · rcases List.mem_append.mp hentry with hbefore | hnew
        · exact h entry hbefore task hold
        · rw [List.mem_singleton.mp hnew] at hold
          exact absurd (List.getElem?_eq_some_iff.mp hold).1 (Nat.lt_irrefl _)
      · rfl
  | spawns n call id =>
      rcases traffic.registry.spawn_cases id with hspawn | ⟨task, htask, -, hspawn⟩
      · rw [hspawn]
        exact h
      · rw [hspawn]
        exact h.of_set htask rfl (fun entry hentry => hentry) (by simp [Stage.hasLeft])
  | posts n call id task _ _ htask =>
      exact h.of_set htask rfl (fun entry hentry => hentry) .inl
  | cancels n shard endpoint id =>
      rcases traffic.registry.cancel_cases id with hcancel | ⟨task, htask, hcancel⟩
      · rw [hcancel]
        exact h
      · rw [hcancel]
        exact h.of_set htask rfl (fun entry hentry => hentry) .inl
  | turns now id step task task' service hturned hturn =>
      have htasks : service.registry.tasks = traffic.registry.tasks.set id task' := by
        rw [hturned.registry_eq]
      have htable : service.registry.table = if step = .unregister then
          traffic.registry.table.filter fun entry =>
            !(entry.1 == task.endpoint && entry.2 == id)
          else traffic.registry.table := by
        rw [hturned.registry_eq]
      refine h.of_set hturned.task_eq htasks (fun entry hentry => ?_) fun hleft => ?_
      · change entry ∈ service.registry.table at hentry
        rw [htable] at hentry
        split at hentry
        · exact (List.mem_filter.mp hentry).1
        · exact hentry
      · refine (hturn.hasLeft hleft).imp_right fun hstep entry hentry hid => ?_
        change entry ∈ service.registry.table at hentry
        rw [htable, if_pos hstep] at hentry
        obtain ⟨hbefore, hkept⟩ := List.mem_filter.mp hentry
        -- the entries of a task carry its own endpoint
        have hendpoint := haddressed.table_addressed entry hbefore
        rw [hid, Registry.endpointOf?, hturned.task_eq, Option.map_some, Option.some.injEq]
          at hendpoint
        simp [hid, hendpoint] at hkept
  | _ => exact h

/-! ## Closing comes before waiting -/

/-- From the moment a call began to close the registry, new sessions are refused. -/
structure Refusing (traffic : Traffic σ) : Prop where
  closed_of_awaitable : traffic.registry.awaitable = true → traffic.registry.closed = true
  closed_of_closer : ∀ (n : Nat) (stage : CloseStage), traffic.closers[n]? = some stage →
    stage ≠ .refusing → traffic.registry.closed = true

theorem Refusing.keep {before after : Traffic σ} (h : before.Refusing)
    (hclosed : after.registry.closed = before.registry.closed)
    (hawaitable : after.registry.awaitable = before.registry.awaitable)
    (hclosers : after.closers = before.closers) : after.Refusing where
  closed_of_awaitable := by
    rw [hclosed, hawaitable]
    exact h.closed_of_awaitable
  closed_of_closer := by
    rw [hclosed, hclosers]
    exact h.closed_of_closer

theorem Refusing.move {shards : Shards} {traffic after : Traffic σ} {action : Action}
    (h : traffic.Refusing) (hmove : traffic.Move shards action after) (hne : action ≠ .reopen) :
    after.Refusing := by
  cases hmove with
  | spawns n call id =>
      obtain ⟨tasks, hspawn⟩ := traffic.registry.exists_spawn_eq id
      rw [hspawn]
      exact h.keep rfl rfl rfl
  | cancels n shard endpoint id =>
      obtain ⟨tasks, hcancel⟩ := traffic.registry.exists_cancel_eq id
      rw [hcancel]
      exact h.keep rfl rfl rfl
  | turns now id step task task' service hturned =>
      have hclosed : service.registry.closed = traffic.registry.closed := by
        rw [hturned.registry_eq]
      have hawaitable : service.registry.awaitable = traffic.registry.awaitable := by
        rw [hturned.registry_eq]
      exact h.keep hclosed hawaitable rfl
  | beginsClose =>
      refine ⟨h.closed_of_awaitable, fun n stage hstage hpast => ?_⟩
      rcases getElem?_concat_cases hstage with hold | ⟨-, rfl⟩
      · exact h.closed_of_closer n stage hold hpast
      · exact absurd rfl hpast
  | refuses => exact ⟨fun _ => rfl, fun _ _ _ _ => rfl⟩
  | passes n shard hcloser =>
      have hclosed := h.closed_of_closer n _ hcloser (by simp)
      exact ⟨h.closed_of_awaitable, fun _ _ _ _ => hclosed⟩
  | awaits n shard hcloser =>
      have hclosed := h.closed_of_closer n _ hcloser (by simp)
      exact ⟨fun _ => hclosed, fun _ _ _ _ => hclosed⟩
  | reopens => exact absurd rfl hne
  | _ => exact h.keep rfl rfl rfl

/-! ## What a wait promises -/

/-- Everything is closed for good: all tasks that ever were have run to the end of their close, the
table is empty, and as long as the registry is not reopened no session is opened and nothing
happens to the world, whoever goes on. -/
structure ClosedForGood [Store σ] (shards : Shards) (traffic : Traffic σ) : Prop where
  ended : ∀ id task, traffic.registry.task? id = some task →
    task.stage = .ended ∧ ∃ earlier, traffic.performed id = earlier ++ [.close]
  table_eq_nil : traffic.registry.table = []
  final : ∀ later, .reopen ∉ later →
    (traffic.run shards later).registry.tasks = traffic.registry.tasks ∧
      (traffic.run shards later).registry.table = [] ∧
      (traffic.run shards later).service.world = traffic.service.world

/-! ## Rest -/

/-- All tasks have ended, the table is empty, and new sessions are refused. -/
structure AtRest (traffic : Traffic σ) : Prop where
  ended : ∀ id task, traffic.registry.task? id = some task →
    task.stage = .ended ∧ task.queue.isOpen = false
  table_eq_nil : traffic.registry.table = []
  closed : traffic.registry.closed = true

theorem AtRest.lookup?_eq_none {traffic : Traffic σ} (h : traffic.AtRest) (endpoint : String) :
    traffic.registry.lookup? endpoint = none := by
  rw [Registry.lookup?, h.table_eq_nil]
  rfl

/-- At rest nothing happens any more, unless the registry is reopened. -/
theorem AtRest.move {shards : Shards} {traffic after : Traffic σ} {action : Action}
    (h : traffic.AtRest) (hmove : traffic.Move shards action after) (hne : action ≠ .reopen) :
    after.AtRest ∧ after.registry.tasks = traffic.registry.tasks ∧
      after.service.world = traffic.service.world := by
  cases hmove with
  | arrives | misses | isRefused | dies | drops | beginsClose | passes =>
      exact ⟨⟨h.ended, h.table_eq_nil, h.closed⟩, rfl, rfl⟩
  | refuses => exact ⟨⟨h.ended, h.table_eq_nil, rfl⟩, rfl, rfl⟩
  | awaits => exact ⟨⟨h.ended, h.table_eq_nil, h.closed⟩, rfl, rfl⟩
  | finds n call id hcall hstage hfound =>
      rw [h.lookup?_eq_none] at hfound
      cases hfound
  | opens n call hcall hstage hnone hopen =>
      rw [h.closed] at hopen
      cases hopen
  | spawns n call id hcall hstage =>
      rcases traffic.registry.spawn_cases id with hspawn | ⟨task, htask, hopened, -⟩
      · rw [hspawn]
        exact ⟨⟨h.ended, h.table_eq_nil, h.closed⟩, rfl, rfl⟩
      · rw [(h.ended id task htask).1] at hopened
        cases hopened
  | posts n call id task hcall hstage htask hopen =>
      rw [(h.ended id task htask).2] at hopen
      cases hopen
  | turns now id step task task' service hturned hturn =>
      have hpending := hturn.isPending
      rw [Task.isPending, (h.ended id task hturned.task_eq).1] at hpending
      cases hpending
  | cancels n shard endpoint id hcloser hfound =>
      rw [h.lookup?_eq_none] at hfound
      cases hfound
  | reopens => exact absurd rfl hne

/-- When a wait is over with no call about to spawn a task and no task dead, all is at rest. -/
theorem atRest_of_allEnded {traffic : Traffic σ} (haccounted : traffic.Accounted)
    (haddressed : traffic.Addressed) (hspawning : traffic.Spawning) (hlisted : traffic.Listed)
    (hrefusing : traffic.Refusing) (hended : traffic.registry.allEnded = true)
    (hspawns : ∀ n id, ¬traffic.Spawns n id)
    (halive : ∀ id task, traffic.registry.task? id = some task → task.stage ≠ .dead) :
    traffic.AtRest := by
  simp only [Registry.allEnded, Registry.pending, Bool.and_eq_true, beq_iff_eq,
    List.countP_eq_zero] at hended
  obtain ⟨hawaitable, hpending⟩ := hended
  have hstages : ∀ id task, traffic.registry.task? id = some task → task.stage = .ended := by
    intro id task htask
    have hover := hpending task (List.mem_of_getElem? htask)
    cases hstage : task.stage with
    | ended => rfl
    | opened =>
        obtain ⟨n, hn⟩ := (hspawning.opened_iff id).mp ⟨task, htask, hstage⟩
        exact absurd hn (hspawns n id)
    | dead => exact absurd hstage (halive id task htask)
    | _ => simp [Task.isPending, hstage] at hover
  refine { ended := ?_, table_eq_nil := ?_, closed := hrefusing.closed_of_awaitable hawaitable }
  · intro id task htask
    have hstage := hstages id task htask
    rw [(haccounted.task_accounted id task htask).isOpen_eq, hstage]
    exact ⟨rfl, rfl⟩
  · -- an entry left in the table would be that of a task that has not left it
    refine List.eq_nil_iff_forall_not_mem.mpr fun entry hentry => ?_
    obtain ⟨task, htask, -⟩ :=
      Option.map_eq_some_iff.mp (haddressed.table_addressed entry hentry)
    have hleft := hlisted entry hentry task htask
    rw [hstages entry.2 task htask] at hleft
    cases hleft

/-! ## Runs -/

theorem spawning_fresh (config : ServerConfig) (world : World σ) (sessionIds : Nat → Uuid) :
    (fresh config world sessionIds).Spawning where
  opened_iff := by simp [fresh, IsOpened, Spawns, Registry.task?, Registry.ofConfig]
  spawns_unique := by simp [fresh, Spawns]

theorem listed_fresh (config : ServerConfig) (world : World σ) (sessionIds : Nat → Uuid) :
    (fresh config world sessionIds).Listed := by
  simp [Listed, fresh, Registry.ofConfig]

theorem refusing_fresh (config : ServerConfig) (world : World σ) (sessionIds : Nat → Uuid) :
    (fresh config world sessionIds).Refusing where
  closed_of_awaitable := by simp [fresh, Registry.ofConfig]
  closed_of_closer := by simp [fresh]

variable [Store σ]

theorem AtRest.run (shards : Shards) {traffic : Traffic σ} (h : traffic.AtRest)
    {later : List Action} (hlater : .reopen ∉ later) :
    (traffic.run shards later).AtRest ∧
      (traffic.run shards later).registry.tasks = traffic.registry.tasks ∧
      (traffic.run shards later).service.world = traffic.service.world := by
  refine run_induction (P := fun after => after.AtRest ∧
    after.registry.tasks = traffic.registry.tasks ∧
    after.service.world = traffic.service.world) later ?_ ⟨h, rfl, rfl⟩
  intro before ⟨hrest, htasks, hworld⟩ action haction after hmove
  have hne : action ≠ .reopen := fun heq => hlater (heq ▸ haction)
  obtain ⟨hrest', htasks', hworld'⟩ := hrest.move hmove hne
  exact ⟨hrest', htasks'.trans htasks, hworld'.trans hworld⟩

theorem waiting_invariant_run (shards : Shards) (config : ServerConfig) (world : World σ)
    (sessionIds : Nat → Uuid) (actions : List Action) (hreopen : .reopen ∉ actions) :
    let traffic := (fresh config world sessionIds).run shards actions
    traffic.Spawning ∧ traffic.Listed ∧ traffic.Refusing := by
  refine (run_induction (P := fun traffic => traffic.Addressed ∧ traffic.Spawning ∧
    traffic.Listed ∧ traffic.Refusing) actions ?_ ?_).2
  · intro traffic ⟨haddressed, hspawning, hlisted, hrefusing⟩ action haction after hmove
    have hne : action ≠ .reopen := fun heq => hreopen (heq ▸ haction)
    exact ⟨haddressed.move hmove, hspawning.move hmove, hlisted.move haddressed hmove,
      hrefusing.move hmove hne⟩
  · exact ⟨addressed_fresh config world sessionIds, spawning_fresh config world sessionIds,
      listed_fresh config world sessionIds, refusing_fresh config world sessionIds⟩

/-- In a run in which the registry is not reopened, a wait that is over has waited for everything
exactly when no call is between putting its session into the table and spawning its task, and no
task died. -/
theorem closedForGood_iff (shards : Shards) (config : ServerConfig) (world : World σ)
    (sessionIds : Nat → Uuid) (actions : List Action) (hreopen : .reopen ∉ actions) :
    let traffic := (fresh config world sessionIds).run shards actions
    traffic.registry.allEnded = true →
      (traffic.ClosedForGood shards ↔
        (∀ n id, ¬traffic.Spawns n id) ∧
          ∀ id task, traffic.registry.task? id = some task → task.stage ≠ .dead) := by
  intro traffic hended
  obtain ⟨haccounted, -, haddressed, -, -⟩ := invariant_run shards config world sessionIds actions
  obtain ⟨hspawning, hlisted, hrefusing⟩ :=
    waiting_invariant_run shards config world sessionIds actions hreopen
  constructor
  · intro hgood
    refine ⟨?_, ?_⟩
    · intro n id hspawns
      obtain ⟨task, htask, hstage⟩ := (hspawning.opened_iff id).mpr ⟨n, hspawns⟩
      rw [(hgood.ended id task htask).1] at hstage
      cases hstage
    · intro id task htask hdead
      rw [(hgood.ended id task htask).1] at hdead
      cases hdead
  · rintro ⟨hspawns, halive⟩
    have hrest := atRest_of_allEnded haccounted haddressed hspawning hlisted hrefusing hended
      hspawns halive
    refine { ended := ?_, table_eq_nil := hrest.table_eq_nil, final := ?_ }
    · intro id task htask
      have hstage := (hrest.ended id task htask).1
      obtain ⟨-, earlier, hearlier, -⟩ :=
        (haccounted.task_accounted id task htask).closes_last (by rw [hstage]; rfl)
      exact ⟨hstage, earlier, hearlier⟩
    · intro later hlater
      obtain ⟨hlaterRest, htasks, hworld⟩ := hrest.run shards hlater
      exact ⟨htasks, hlaterRest.table_eq_nil, hworld⟩

/-- A wait that is over when the one session has ended: its task was told to close, left its place
in the table, added the sample that was still queued, and closed the session. -/
theorem closedForGood_of_ended :
    let world := World.fresh MemoryStore.empty .none (fun _ => default) .ofNat
    let requests := (List.replicate 5 [.task 0 0 .call, .task 0 0 .complete]).flatten
    let actions := [.arrive "car" (.lapping .one), .route 0, .route 0, .route 0, .route 0,
        .task 0 0 .start, .beginClose, .close 0, .cancel 0 "car", .close 0, .close 0,
        .task 0 0 .leave, .task 0 0 .unregister, .task 0 0 .closeQueue, .task 0 0 .drain] ++
      requests ++ [.task 0 0 .settle, .task 0 0 .conclude] ++ requests ++ [.task 0 0 .settle]
    let traffic := (fresh {} world .ofNat).run .single actions
    traffic.registry.allEnded = true ∧ traffic.ClosedForGood .single := by
  intro world requests actions
  have hreopen : .reopen ∉ actions := by decide +kernel
  have hended : ((fresh {} world .ofNat).run .single actions).registry.allEnded = true := by
    decide +kernel
  have hstages : ((fresh {} world .ofNat).run .single actions).calls.map RouteCall.stage =
      [.returned true] := by
    decide +kernel
  have hleft : ((fresh {} world .ofNat).run .single actions).registry.tasks.all
      (fun task => task.stage.hasLeft) = true := by
    decide +kernel
  refine ⟨hended, (closedForGood_iff .single {} world .ofNat actions hreopen hended).mpr ⟨?_, ?_⟩⟩
  · rintro n id ⟨call, hcall, hspawning⟩
    have hmem := List.mem_map_of_mem (f := RouteCall.stage) (List.mem_of_getElem? hcall)
    rw [hstages, hspawning, List.mem_singleton] at hmem
    cases hmem
  · intro id task htask hdead
    have hstage := List.all_eq_true.mp hleft task (List.mem_of_getElem? htask)
    rw [hdead] at hstage
    cases hstage

/-- Two waits that are over too early. In the first a call had put its session into the table and
not spawned its task, when the registry was closed; the session adds its sample and calls the store
afterwards. In the second the task died, although its settings are valid, and its session stays in
the table. -/
theorem not_closedForGood_of_spawning_or_death :
    let world := World.fresh MemoryStore.empty .none (fun _ => default) .ofNat
    let closing := [.beginClose, .close 0, .cancel 0 "car", .close 0, .close 0]
    let interrupted := (fresh {} world .ofNat).run .single
      ([.arrive "car" (.lapping .one), .route 0, .route 0] ++ closing)
    let later := interrupted.run .single
      [.route 0, .route 0, .task 0 0 .start, .task 0 0 .receive, .task 0 0 .call,
        .task 0 0 .complete, .task 0 0 .call, .task 0 0 .complete, .task 0 0 .call]
    let endless : ServerConfig := { checkpointInterval := .ofSeconds (2 ^ 63) }
    let died := (fresh endless world .ofNat).run .single
      ([.arrive "car" (.lapping .one), .route 0, .route 0, .route 0, .route 0, .task 0 0 .start] ++
        closing)
    (interrupted.registry.allEnded = true ∧ interrupted.service.world.calls.length = 0 ∧
        later.service.world.calls.length = 1 ∧ ¬interrupted.ClosedForGood .single) ∧
      (endless.validate = .ok () ∧ died.registry.allEnded = true ∧
        died.registry.endpoints = ["car"] ∧ ¬died.ClosedForGood .single) := by
  refine ⟨⟨by decide +kernel, by decide +kernel, by decide +kernel, fun hgood => ?_⟩,
    rfl, by decide +kernel, by decide +kernel, fun hgood => ?_⟩
  · exact absurd hgood.table_eq_nil (by decide +kernel)
  · exact absurd hgood.table_eq_nil (by decide +kernel)

end Traffic

end RaceIngest
