import RaceIngest.Proofs.Registry.Traffic

/-!
# What an action does to the traffic

Every action that is possible is one `Traffic.Move`: it says what held before, where the caller or
the task was, and what is left behind. Invariants of runs are proved from the moves by induction;
no later proof opens a step again.

Most invariants are about the tasks or about the callers only. For the tasks there is a coarser
view, `Traffic.TasksMove`: no task changes, one is opened, or one changes as `Task.Change` says.

## Main results

* `Traffic.move_of_step`: every action that is possible is a move.
* `Traffic.run_induction`: what every move keeps, every run keeps.
* `Traffic.Move.tasksMove`: what a move does to the tasks and to the histories.
-/

namespace RaceIngest

/-! ## Entries of lists that change -/

/-- An entry of a list with one more at its end is an old one or the new one. -/
theorem getElem?_concat_cases {α : Type} {entries : List α} {new entry : α} {i : Nat}
    (h : (entries ++ [new])[i]? = some entry) :
    entries[i]? = some entry ∨ i = entries.length ∧ entry = new := by
  by_cases hlt : i < entries.length
  · rw [List.getElem?_append_left hlt] at h
    exact .inl h
  · have hle := Nat.le_of_not_lt hlt
    rw [List.getElem?_append_right hle, List.getElem?_singleton] at h
    split at h
    · rename_i hzero
      exact .inr ⟨by omega, (Option.some.inj h).symm⟩
    · cases h

/-- An entry of a list with one entry replaced is the new one or an old one. -/
theorem getElem?_set_cases {α : Type} {entries : List α} {new entry : α} {n i : Nat}
    (h : (entries.set n new)[i]? = some entry) :
    n = i ∧ entry = new ∨ n ≠ i ∧ entries[i]? = some entry := by
  by_cases hi : n = i
  · rw [List.getElem?_set, if_pos hi] at h
    split at h
    · exact .inl ⟨hi, (Option.some.inj h).symm⟩
    · cases h
  · rw [List.getElem?_set_ne hi] at h
    exact .inr ⟨hi, h⟩

/-- An entry stays when another one is replaced. -/
theorem getElem?_set_of_ne {α : Type} {entries : List α} {old entry : α} {n i : Nat}
    (hold : entries[n]? = some old) (hentry : entries[i]? = some entry) (hne : entry ≠ old)
    (new : α) : (entries.set n new)[i]? = some entry := by
  have hother : n ≠ i := by
    rintro rfl
    rw [hentry, Option.some.injEq] at hold
    exact hne hold
  rw [List.getElem?_set_ne hother]
  exact hentry

/-- What a task is like after one task changed. -/
theorem Registry.exists_task_iff_of_set {before after : Registry} {changed : TaskId}
    {task task' : Task} (htask : before.task? changed = some task)
    (htasks : after.tasks = before.tasks.set changed task') (p : Task → Prop) (id : TaskId) :
    (∃ task, after.task? id = some task ∧ p task) ↔
      if changed = id then p task' else ∃ task, before.task? id = some task ∧ p task := by
  have hlt : changed < before.tasks.length := (List.getElem?_eq_some_iff.mp htask).1
  unfold Registry.task?
  rw [htasks]
  by_cases hid : changed = id
  · subst hid
    simp [hlt]
  · rw [if_neg hid, List.getElem?_set_ne hid]

/-- A property that the changed task had before exactly if it has it now. -/
theorem Registry.exists_task_iff_of_keep {before after : Registry} {changed : TaskId}
    {task task' : Task} (htask : before.task? changed = some task)
    (htasks : after.tasks = before.tasks.set changed task') {p : Task → Prop}
    (hkeeps : p task' ↔ p task) (id : TaskId) :
    (∃ task, after.task? id = some task ∧ p task) ↔
      ∃ task, before.task? id = some task ∧ p task := by
  rw [exists_task_iff_of_set htask htasks]
  by_cases hid : changed = id
  · subst hid
    rw [if_pos rfl, hkeeps]
    refine ⟨fun hp => ⟨task, htask, hp⟩, ?_⟩
    rintro ⟨other, hother, hp⟩
    rw [htask, Option.some.injEq] at hother
    rw [hother]
    exact hp
  · rw [if_neg hid]

theorem Registry.mem_table_of_lookup? {registry : Registry} {endpoint : String} {id : TaskId}
    (h : registry.lookup? endpoint = some id) : (endpoint, id) ∈ registry.table := by
  obtain ⟨earlier, later, htable, -⟩ := List.lookup_eq_some_iff.mp h
  rw [htable]
  exact List.mem_append_cons_self

/-! ## What an action does -/

namespace Traffic

variable {σ : Type}

/-- What the actions do, one constructor for each case. -/
inductive Move (shards : Shards) (traffic : Traffic σ) : Action → Traffic σ → Prop where
  | arrives (endpoint : String) (sample : Sample) :
      Move shards traffic (.arrive endpoint sample)
        { traffic with calls := traffic.calls ++ [{ endpoint := endpoint, sample := sample }] }
  | finds (n : Nat) (call : RouteCall) (id : TaskId) (hcall : traffic.calls[n]? = some call)
      (hstage : call.stage = .looking ∨ call.stage = .opening)
      (hfound : traffic.registry.lookup? call.endpoint = some id) :
      Move shards traffic (.route n) (traffic.setStage n call (.sending id))
  | misses (n : Nat) (call : RouteCall) (hcall : traffic.calls[n]? = some call)
      (hstage : call.stage = .looking) (hnone : traffic.registry.lookup? call.endpoint = none) :
      Move shards traffic (.route n) (traffic.setStage n call .opening)
  | isRefused (n : Nat) (call : RouteCall) (hcall : traffic.calls[n]? = some call)
      (hstage : call.stage = .opening) (hnone : traffic.registry.lookup? call.endpoint = none)
      (hclosed : traffic.registry.closed = true) :
      Move shards traffic (.route n) (traffic.setStage n call (.returned false))
  | opens (n : Nat) (call : RouteCall) (hcall : traffic.calls[n]? = some call)
      (hstage : call.stage = .opening) (hnone : traffic.registry.lookup? call.endpoint = none)
      (hopen : traffic.registry.closed = false)
      (hsurvives : traffic.registry.isFatal call.endpoint = false) :
      Move shards traffic (.route n)
        ((traffic.withRegistry (traffic.registry.opened call.endpoint
          (traffic.service.sessionIds traffic.registry.tasks.length))).setStage n call
            (.spawning traffic.registry.tasks.length))
  | dies (n : Nat) (call : RouteCall) (hcall : traffic.calls[n]? = some call)
      (hstage : call.stage = .opening)
      (hfatal : traffic.registry.isFatal call.endpoint = true) :
      Move shards traffic (.route n) (traffic.setStage n call .died)
  | spawns (n : Nat) (call : RouteCall) (id : TaskId) (hcall : traffic.calls[n]? = some call)
      (hstage : call.stage = .spawning id) :
      Move shards traffic (.route n)
        ((traffic.withRegistry (traffic.registry.spawn id)).setStage n call (.sending id))
  | posts (n : Nat) (call : RouteCall) (id : TaskId) (task : Task)
      (hcall : traffic.calls[n]? = some call) (hstage : call.stage = .sending id)
      (htask : traffic.registry.task? id = some task) (hopen : task.queue.isOpen = true)
      (hroom : task.queue.samples.length < task.queue.capacity) :
      Move shards traffic (.route n)
        { (traffic.withRegistry (traffic.registry.setTask id
            { task with queue := { task.queue with
                samples := task.queue.samples ++ [call.sample] } })).setStage
              n call (.returned true) with
          posted := traffic.posted ++ [⟨n, id, call.sample⟩] }
  | drops (n : Nat) (call : RouteCall) (id : TaskId) (hcall : traffic.calls[n]? = some call)
      (hstage : call.stage = .sending id) :
      Move shards traffic (.route n) (traffic.setStage n call (.returned false))
  | turns (now : Nat) (id : TaskId) (step : TaskStep) (task task' : Task) (service : Service σ)
      (hturned : traffic.service.Turned service id step task task')
      (hturn : task.Turn traffic.registry.interval step (task.begins step) task') :
      Move shards traffic (.task now id step)
        { traffic with
          service
          begun := traffic.begun ++ (task.begins step).toList.map (id, ·) }
  | beginsClose :
      Move shards traffic .beginClose { traffic with closers := traffic.closers ++ [.refusing] }
  | refuses (n : Nat) (hcloser : traffic.closers[n]? = some .refusing) :
      Move shards traffic (.close n)
        { traffic.withRegistry traffic.registry.refuse with
          closers := traffic.closers.set n (.sweeping 0) }
  | passes (n shard : Nat) (hcloser : traffic.closers[n]? = some (.sweeping shard))
      (hlt : shard < shards.count) (hswept : isSwept shards traffic.registry shard = true) :
      Move shards traffic (.close n)
        { traffic with closers := traffic.closers.set n (.sweeping (shard + 1)) }
  | awaits (n shard : Nat) (hcloser : traffic.closers[n]? = some (.sweeping shard))
      (hge : shards.count ≤ shard) :
      Move shards traffic (.close n)
        { traffic.withRegistry traffic.registry.await with
          closers := traffic.closers.set n .returned }
  | cancels (n shard : Nat) (endpoint : String) (id : TaskId)
      (hcloser : traffic.closers[n]? = some (.sweeping shard))
      (hfound : traffic.registry.lookup? endpoint = some id)
      (hshard : shards.shardOf endpoint = shard) :
      Move shards traffic (.cancel n endpoint)
        (traffic.withRegistry (traffic.registry.cancel id))
  | reopens : Move shards traffic .reopen (traffic.withRegistry traffic.registry.reopen)

theorem move_of_route {shards : Shards} {traffic after : Traffic σ} {n : Nat}
    (h : traffic.route? n = some after) : traffic.Move shards (.route n) after := by
  cases hcall : traffic.calls[n]? with
  | none => simp [route?, hcall] at h
  | some call =>
      cases hstage : call.stage with
      | looking =>
          cases hlookup : traffic.registry.lookup? call.endpoint with
          | none =>
              rw [route?_of_missed hcall hstage hlookup, Option.some.injEq] at h
              rw [← h]
              exact .misses n call hcall hstage hlookup
          | some id =>
              rw [route?_of_found hcall (.inl hstage) hlookup, Option.some.injEq] at h
              rw [← h]
              exact .finds n call id hcall (.inl hstage) hlookup
      | opening =>
          cases hlookup : traffic.registry.lookup? call.endpoint with
          | some id =>
              rw [route?_of_found hcall (.inr hstage) hlookup, Option.some.injEq] at h
              rw [← h]
              exact .finds n call id hcall (.inr hstage) hlookup
          | none =>
              cases hclosed : traffic.registry.closed with
              | true =>
                  rw [route?_of_closed hcall hstage hlookup hclosed, Option.some.injEq] at h
                  rw [← h]
                  exact .isRefused n call hcall hstage hlookup hclosed
              | false =>
                  cases hfatal : traffic.registry.isFatal call.endpoint with
                  | true =>
                      rw [route?_of_fatal hcall hstage hfatal, Option.some.injEq] at h
                      rw [← h]
                      exact .dies n call hcall hstage hfatal
                  | false =>
                      rw [route?_of_opened hcall hstage hlookup hclosed hfatal,
                        Option.some.injEq] at h
                      rw [← h]
                      exact .opens n call hcall hstage hlookup hclosed hfatal
      | spawning id =>
          rw [route?_of_spawning hcall hstage, Option.some.injEq] at h
          rw [← h]
          exact .spawns n call id hcall hstage
      | sending id =>
          unfold route? at h
          simp only [hcall, hstage] at h
          cases htask : traffic.registry.task? id with
          | none =>
              simp only [Registry.send_of_none htask, Bool.false_eq_true, if_false,
                Option.some.injEq] at h
              rw [← h]
              exact .drops n call id hcall hstage
          | some task =>
              rw [Registry.send_eq htask] at h
              by_cases hroom : task.queue.isOpen = true ∧
                  task.queue.samples.length < task.queue.capacity
              · simp only [if_pos hroom, if_true, Option.some.injEq] at h
                rw [← h]
                exact .posts n call id task hcall hstage htask hroom.1 hroom.2
              · simp only [if_neg hroom, Bool.false_eq_true, if_false, Option.some.injEq] at h
                rw [← h]
                exact .drops n call id hcall hstage
      | returned | died => simp [route?, hcall, hstage] at h

theorem move_of_close {shards : Shards} {traffic after : Traffic σ} {n : Nat}
    (h : traffic.close? shards n = some after) : traffic.Move shards (.close n) after := by
  unfold close? at h
  split at h
  · rename_i hcloser
    rw [← Option.some.inj h]
    exact .refuses n hcloser
  · rename_i shard hcloser
    by_cases hlt : shard < shards.count
    · rw [if_pos hlt] at h
      split at h
      · rename_i hswept
        rw [← Option.some.inj h]
        exact .passes n shard hcloser hlt hswept
      · cases h
    · rw [if_neg hlt] at h
      rw [← Option.some.inj h]
      exact .awaits n shard hcloser (Nat.le_of_not_lt hlt)
  · cases h
  · cases h

theorem move_of_cancel {shards : Shards} {traffic after : Traffic σ} {n : Nat}
    {endpoint : String} (h : traffic.cancel? shards n endpoint = some after) :
    traffic.Move shards (.cancel n endpoint) after := by
  unfold cancel? at h
  split at h
  · rename_i shard id hcloser hfound
    split at h
    · rename_i hshard
      rw [← Option.some.inj h]
      exact .cancels n shard endpoint id hcloser hfound hshard
    · cases h
  · cases h

variable [Store σ]

theorem move_of_turn {shards : Shards} {traffic after : Traffic σ} {now : Nat} {id : TaskId}
    {step : TaskStep} (h : traffic.turn? now id step = some after) :
    traffic.Move shards (.task now id step) after := by
  obtain ⟨service, hservice, rfl⟩ := Option.map_eq_some_iff.mp h
  obtain ⟨task, task', hturned, hturn⟩ := Service.exists_turn hservice
  rw [hturned.task_eq]
  exact .turns now id step task task' service hturned hturn

/-- Every action that is possible is one of the moves. -/
theorem move_of_step {shards : Shards} {traffic after : Traffic σ} {action : Action}
    (h : traffic.step? shards action = some after) : traffic.Move shards action after := by
  cases action with
  | arrive endpoint sample =>
      rw [← Option.some.inj h]
      exact .arrives endpoint sample
  | route n => exact move_of_route h
  | task now id step => exact move_of_turn h
  | beginClose =>
      rw [← Option.some.inj h]
      exact .beginsClose
  | close n => exact move_of_close h
  | cancel n endpoint => exact move_of_cancel h
  | reopen =>
      rw [← Option.some.inj h]
      exact .reopens

/-- What every move keeps, every run keeps. -/
theorem run_induction {shards : Shards} {P : Traffic σ → Prop} (actions : List Action)
    (hmove : ∀ traffic, P traffic → ∀ action ∈ actions, ∀ after,
      traffic.Move shards action after → P after)
    {traffic : Traffic σ} (h : P traffic) : P (traffic.run shards actions) := by
  induction actions generalizing traffic with
  | nil => exact h
  | cons action actions ih =>
      have hrest : ∀ traffic, P traffic → ∀ other ∈ actions, ∀ after,
          traffic.Move shards other after → P after :=
        fun traffic h other hother => hmove traffic h other (List.mem_cons_of_mem _ hother)
      refine ih hrest ?_
      unfold step
      cases hstep : traffic.step? shards action with
      | none => exact h
      | some after => exact hmove traffic h action List.mem_cons_self after (move_of_step hstep)

end Traffic

/-! ## What an action does to the tasks -/

/-- What one step does to one task: the operations that the task begins, the samples that are
queued for it, and the task after it. -/
inductive Task.Change (interval : Duration) (task : Task) :
    List Operation → List Sample → Task → Prop where
  | turns (step : TaskStep) (operation : Option Operation) (after : Task)
      (hturn : task.Turn interval step operation after) :
      Change interval task operation.toList [] after
  | spawns (hstage : task.stage = .opened) :
      Change interval task [] [] { task with stage := .spawned }
  | cancels : Change interval task [] [] { task with cancelled := true }
  | queues (sample : Sample) (hopen : task.queue.isOpen = true)
      (hroom : task.queue.samples.length < task.queue.capacity) :
      Change interval task [] [sample]
        { task with queue := { task.queue with samples := task.queue.samples ++ [sample] } }

theorem Task.Change.endpoint_eq {interval : Duration} {task after : Task}
    {operations : List Operation} {samples : List Sample}
    (h : task.Change interval operations samples after) : after.endpoint = task.endpoint := by
  cases h with
  | turns step operation _ hturn => exact hturn.endpoint_eq
  | spawns | cancels | queues => rfl

/-- The endpoint that a task was opened for. -/
def Registry.endpointOf? (registry : Registry) (id : TaskId) : Option String :=
  (registry.task? id).map Task.endpoint

namespace Traffic

variable {σ : Type}

/-- What one move does to the tasks and to the histories: nothing, one more task, or a change of
one task. -/
inductive TasksMove (before after : Traffic σ) : Prop where
  | rests (htasks : after.registry.tasks = before.registry.tasks)
      (hbegun : after.begun = before.begun) (hposted : after.posted = before.posted)
  | opens (endpoint : String) (sessionId : Uuid)
      (htasks : after.registry.tasks =
        before.registry.tasks ++ [before.registry.newTask endpoint sessionId])
      (hbegun : after.begun = before.begun) (hposted : after.posted = before.posted)
  | changes (n : Nat) (id : TaskId) (task task' : Task) (operations : List Operation)
      (samples : List Sample) (htask : before.registry.task? id = some task)
      (hchange : task.Change before.registry.interval operations samples task')
      (htasks : after.registry.tasks = before.registry.tasks.set id task')
      (hbegun : after.begun = before.begun ++ operations.map (id, ·))
      (hposted : after.posted = before.posted ++ samples.map (⟨n, id, ·⟩))

theorem Move.tasksMove {shards : Shards} {traffic after : Traffic σ} {action : Action}
    (h : traffic.Move shards action after) : traffic.TasksMove after := by
  cases h with
  | arrives | finds | misses | isRefused | dies | drops | beginsClose | refuses | passes | awaits
  | reopens => exact .rests rfl rfl rfl
  | opens n call => exact .opens call.endpoint _ rfl rfl rfl
  | spawns n call id =>
      rcases traffic.registry.spawn_cases id with hspawn | ⟨task, htask, hstage, hspawn⟩
      · rw [hspawn]
        exact .rests rfl rfl rfl
      · rw [hspawn]
        exact .changes n id task _ [] [] htask (.spawns hstage) rfl
          (by simp [setStage, withRegistry]) (by simp [setStage, withRegistry])
  | posts n call id task _ _ htask hopen hroom =>
      exact .changes n id task _ [] [call.sample] htask (.queues _ hopen hroom) rfl
        (by simp [setStage, withRegistry]) rfl
  | turns now id step task task' service hturned hturn =>
      refine .changes 0 id task task' _ [] hturned.task_eq (.turns step _ task' hturn) ?_ rfl
        (by simp)
      change service.registry.tasks = _
      rw [hturned.registry_eq]
  | cancels n shard endpoint id =>
      rcases traffic.registry.cancel_cases id with hcancel | ⟨task, htask, hcancel⟩
      · rw [hcancel]
        exact .rests rfl rfl rfl
      · rw [hcancel]
        exact .changes 0 id task _ [] [] htask .cancels rfl (by simp [withRegistry])
          (by simp [withRegistry])

/-- No move changes the settings of the registry. -/
theorem Move.settings_eq {shards : Shards} {traffic after : Traffic σ} {action : Action}
    (h : traffic.Move shards action after) :
    after.registry.interval = traffic.registry.interval ∧
      after.registry.queueCapacity = traffic.registry.queueCapacity ∧
        after.registry.bufferCapacity = traffic.registry.bufferCapacity := by
  cases h with
  | spawns n call id =>
      obtain ⟨tasks, hspawn⟩ := traffic.registry.exists_spawn_eq id
      rw [hspawn]
      exact ⟨rfl, rfl, rfl⟩
  | cancels n shard endpoint id =>
      obtain ⟨tasks, hcancel⟩ := traffic.registry.exists_cancel_eq id
      rw [hcancel]
      exact ⟨rfl, rfl, rfl⟩
  | turns now id step task task' service hturned =>
      change service.registry.interval = _ ∧ service.registry.queueCapacity = _ ∧
        service.registry.bufferCapacity = _
      rw [hturned.registry_eq]
      exact ⟨rfl, rfl, rfl⟩
  | _ => exact ⟨rfl, rfl, rfl⟩

/-- No move changes the endpoint of a task. -/
theorem TasksMove.endpointOf?_eq {before after : Traffic σ} (h : before.TasksMove after)
    {id : TaskId} {endpoint : String} (hid : before.registry.endpointOf? id = some endpoint) :
    after.registry.endpointOf? id = some endpoint := by
  obtain ⟨task, htask, hendpoint⟩ := Option.map_eq_some_iff.mp hid
  have hlt : id < before.registry.tasks.length := (List.getElem?_eq_some_iff.mp htask).1
  refine Option.map_eq_some_iff.mpr ?_
  cases h with
  | rests htasks => exact ⟨task, by rw [Registry.task?, htasks]; exact htask, hendpoint⟩
  | opens other sessionId htasks =>
      refine ⟨task, ?_, hendpoint⟩
      rw [Registry.task?, htasks, List.getElem?_append_left hlt]
      exact htask
  | changes n changed old new operations samples hold hchange htasks =>
      rw [Registry.task?, htasks]
      by_cases hsame : changed = id
      · subst hsame
        rw [htask, Option.some.injEq] at hold
        exact ⟨new, List.getElem?_set_self hlt, by rw [hchange.endpoint_eq, ← hold, hendpoint]⟩
      · rw [List.getElem?_set_ne hsame]
        exact ⟨task, htask, hendpoint⟩

/-- An entry of the table was there before, or is that of a session opened for its endpoint. -/
theorem Move.mem_table {shards : Shards} {traffic after : Traffic σ} {action : Action}
    (h : traffic.Move shards action after) {entry : String × TaskId}
    (hentry : entry ∈ after.registry.table) :
    entry ∈ traffic.registry.table ∨ after.registry.endpointOf? entry.2 = some entry.1 := by
  cases h with
  | opens n call =>
      refine (List.mem_append.mp hentry).imp id fun hnew => ?_
      rw [List.mem_singleton.mp hnew]
      simp [Registry.endpointOf?, Registry.task?, Registry.opened, Registry.newTask, setStage,
        withRegistry]
  | spawns n call id =>
      obtain ⟨tasks, hspawn⟩ := traffic.registry.exists_spawn_eq id
      rw [hspawn] at hentry
      exact .inl hentry
  | cancels n shard endpoint id =>
      obtain ⟨tasks, hcancel⟩ := traffic.registry.exists_cancel_eq id
      rw [hcancel] at hentry
      exact .inl hentry
  | turns now id step task task' service hturned =>
      change entry ∈ service.registry.table at hentry
      rw [hturned.registry_eq] at hentry
      dsimp only at hentry
      split at hentry
      · exact .inl (List.mem_filter.mp hentry).1
      · exact .inl hentry
  | _ => exact .inl hentry

end Traffic

end RaceIngest
