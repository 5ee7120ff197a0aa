import RaceIngest.Proofs.Registry.Delivery

/-!
# Idle sessions

When a checkpoint is due and the task received no sample since the last, the session is idle: the
task leaves its loop, and the race is finished. What a task received is what it took out of its
queue. The loop waits for a sample and for the checkpoint at once and may go on with either, so a
due checkpoint can overtake a sample that is queued already, in particular after a slow checkpoint.
Then a session is declared idle although its endpoint was not.

A run is `Watched` for one task: beside the traffic it keeps the traffic as it was when the current
interval of the task began, which is when the task started or handled its last checkpoint. The
samples that waited then and those that were queued since are received in this order, so the mistake
can be told from the queue: what was queued since is the end of what still waits.

## Main results

* `Traffic.Watched.Kept.step`: what one action does to the flag by which a task knows whether it is
  idle.
* `Traffic.idle_iff`: when a checkpoint ends the loop, and what is left in the queue then.
* `Traffic.idle_while_queued`: an endpoint that queued a sample in every interval, and whose race is
  finished all the same.
-/

namespace RaceIngest

/-! ## Tasks within an interval -/

/-- Whether a task in a stage is in its loop. -/
def Stage.isLooping : Stage → Bool
  | .waiting _ | .busy (.adding _) _ _ | .busy (.flushing _) _ _ => true
  | _ => false

/-- Whether a task in a stage has not run yet. -/
def Stage.isUnstarted : Stage → Bool
  | .opened | .spawned => true
  | _ => false

/-- Whether an action begins an interval of a task: the task starts, or handles a checkpoint. -/
def Action.beginsInterval (id : TaskId) : Action → Bool
  | .task _ other .start | .task _ other .tick => other == id
  | _ => false

theorem Action.exists_of_beginsInterval {id : TaskId} {action : Action}
    (h : action.beginsInterval id = true) :
    ∃ now step, action = .task now id step ∧ (step = .start ∨ step = .tick) := by
  unfold beginsInterval at h
  split at h
  · rename_i now other
    exact ⟨now, .start, by rw [eq_of_beq h], .inl rfl⟩
  · rename_i now other
    exact ⟨now, .tick, by rw [eq_of_beq h], .inr rfl⟩
  · cases h

/-- A task makes some requests, one after the other, and gets their answers. -/
def Action.requests (id : TaskId) (count : Nat) : List Action :=
  (List.replicate count [.task 0 id .call, .task 0 id .complete]).flatten

/-- A task goes on within an interval and begins some operations: in the loop it notes whether one
of them adds a sample, and before the loop it notes nothing. -/
structure Task.Proceeds (task : Task) (later : List Operation) (after : Task) : Prop where
  looping : after.stage.isLooping = true → task.stage.isLooping = true ∧
    (after.received = true ↔ task.received = true ∨ addedSamples later ≠ [])
  unstarted : after.stage.isUnstarted = true →
    task.stage.isUnstarted = true ∧ after.received = task.received

namespace Task

variable {task after : Task}

/-- A change that neither receives nor moves in or out of the loop. -/
theorem Proceeds.keep (hreceived : after.received = task.received)
    (hlooping : after.stage.isLooping = task.stage.isLooping)
    (hunstarted : after.stage.isUnstarted = task.stage.isUnstarted) :
    task.Proceeds [] after where
  looping := by
    intro h
    rw [← hlooping, hreceived]
    exact ⟨h, by simp [addedSamples]⟩
  unstarted := by
    intro h
    rw [← hunstarted]
    exact ⟨h, hreceived⟩

/-- A task that is behind its loop has nothing to note any more. -/
theorem Proceeds.of_past (later : List Operation) (hlooping : after.stage.isLooping = false)
    (hunstarted : after.stage.isUnstarted = false) : task.Proceeds later after where
  looping := by simp [hlooping]
  unstarted := by simp [hunstarted]

theorem Turn.proceeds {interval : Duration} {step : TaskStep} {operation : Option Operation}
    (hturn : task.Turn interval step operation after) (hstart : step ≠ .start)
    (htick : step ≠ .tick) : task.Proceeds operation.toList after := by
  cases hturn with
  | starts | dies => exact absurd rfl hstart
  | flushes | idles => exact absurd rfl htick
  | leaves | unregisters | closesQueue | drains | concludes => exact .of_past _ rfl rfl
  | receives due sample samples hstage =>
      refine ⟨?_, ?_⟩
      · intro _
        rw [hstage]
        exact ⟨rfl, by simp [addedSamples, Operation.added?]⟩
      · intro h
        cases h
  | calls work _ _ _ hstage | completes work _ _ _ _ hstage =>
      refine .keep rfl ?_ ?_
      · rw [hstage]
        cases work <;> rfl
      · rw [hstage]
        rfl
  | settles work _ hstage =>
      refine .keep rfl ?_ ?_
      · rw [hstage]
        cases work <;> rfl
      · rw [hstage]
        cases work <;> rfl

/-- At the beginning of an interval nothing was received. -/
theorem Turn.received_eq_false {interval : Duration} {step : TaskStep}
    {operation : Option Operation} (hturn : task.Turn interval step operation after)
    (hstep : step = .start ∨ step = .tick)
    (hunstarted : task.stage.isUnstarted = true → task.received = false) :
    after.received = false := by
  cases hturn with
  | starts due hstage | dies hstage => exact hunstarted (by rw [hstage]; rfl)
  | flushes => rfl
  | idles due hstage hidle => exact hidle
  | _ => simp at hstep

end Task

namespace Traffic

variable {σ : Type}

/-- What a move that begins no interval of a task does to it: the task is new, or it goes on. -/
theorem Move.proceeds {shards : Shards} {traffic after : Traffic σ} {action : Action}
    (hmove : traffic.Move shards action after) {id : TaskId}
    (hwithin : action.beginsInterval id = false) :
    ∃ later, after.performed id = traffic.performed id ++ later ∧
      ∀ task', after.registry.task? id = some task' →
        (task'.stage = .opened ∧ task'.received = false) ∨
          ∃ task, traffic.registry.task? id = some task ∧ task.Proceeds later task' := by
  have hrests : ∀ task', traffic.registry.task? id = some task' →
      (task'.stage = .opened ∧ task'.received = false) ∨
        ∃ task, traffic.registry.task? id = some task ∧ task.Proceeds [] task' :=
    fun task' htask' => .inr ⟨task', htask', .keep rfl rfl rfl⟩
  -- a change of one task that is no turn of it
  have hset : ∀ (changed : TaskId) (task new : Task), traffic.registry.task? changed = some task →
      task.Proceeds [] new → ∀ task', (traffic.registry.tasks.set changed new)[id]? = some task' →
        (task'.stage = .opened ∧ task'.received = false) ∨
          ∃ task, traffic.registry.task? id = some task ∧ task.Proceeds [] task' := by
    intro changed task new htask hproceeds task' htask'
    rcases getElem?_set_cases htask' with ⟨rfl, rfl⟩ | ⟨-, hold⟩
    · exact .inr ⟨task, htask, hproceeds⟩
    · exact hrests task' hold
  cases hmove with
  | arrives | finds | misses | isRefused | dies | drops | beginsClose | refuses | passes | awaits
  | reopens => exact ⟨[], (List.append_nil _).symm, hrests⟩
  | opens n call =>
      refine ⟨[], (List.append_nil _).symm, fun task' htask' => ?_⟩
      rcases getElem?_concat_cases htask' with hold | ⟨-, rfl⟩
      · exact hrests task' hold
      · exact .inl ⟨rfl, rfl⟩
  | spawns n call other =>
      refine ⟨[], (List.append_nil _).symm, ?_⟩
      rcases traffic.registry.spawn_cases other with hspawn | ⟨task, htask, hstage, hspawn⟩
      · rw [hspawn]
        exact hrests
      · rw [hspawn]
        exact hset other task _ htask (.keep rfl (by rw [hstage]; rfl) (by rw [hstage]; rfl))
  | posts n call other task _ _ htask =>
      exact ⟨[], (List.append_nil _).symm, hset other task _ htask (.keep rfl rfl rfl)⟩
  | cancels n shard endpoint other =>
      refine ⟨[], (List.append_nil _).symm, ?_⟩
      rcases traffic.registry.cancel_cases other with hcancel | ⟨task, htask, hcancel⟩
      · rw [hcancel]
        exact hrests
      · rw [hcancel]
        exact hset other task _ htask (.keep rfl rfl rfl)
  | turns now other step task new service hturned hturn =>
      refine ⟨if other = id then (task.begins step).toList else [], performed_append rfl id, ?_⟩
      intro task' htask'
      change service.registry.tasks[id]? = some task' at htask'
      rw [hturned.registry_eq] at htask'
      rcases getElem?_set_cases htask' with ⟨rfl, rfl⟩ | ⟨hne, hold⟩
      · refine .inr ⟨task, hturned.task_eq, ?_⟩
        rw [if_pos rfl]
        refine hturn.proceeds ?_ ?_
        · rintro rfl
          simp [Action.beginsInterval] at hwithin
        · rintro rfl
          simp [Action.beginsInterval] at hwithin
      · rw [if_neg hne]
        exact hrests task' hold

/-! ## Watched runs -/

/-- A run that is watched for one task: the traffic, and the traffic as it was when the current
interval of the task began. -/
structure Watched (σ : Type) where
  traffic : Traffic σ
  since : Traffic σ

namespace Watched

/-- A run that is watched from now on. -/
def start (traffic : Traffic σ) : Watched σ := ⟨traffic, traffic⟩

/-- Takes an action, if it is possible. -/
def step [Store σ] (shards : Shards) (id : TaskId) (watched : Watched σ) (action : Action) :
    Watched σ :=
  match watched.traffic.step? shards action with
  | none => watched
  | some after => ⟨after, if action.beginsInterval id then after else watched.since⟩

/-- Takes actions, one after the other. -/
def run [Store σ] (shards : Shards) (id : TaskId) (actions : List Action) (watched : Watched σ) :
    Watched σ :=
  actions.foldl (step shards id) watched

/-- The samples that waited for a task when its interval began. -/
def waiting (watched : Watched σ) (id : TaskId) : List Sample :=
  ((watched.since.registry.task? id).map fun task => task.queue.samples).getD []

/-- The samples that were queued for a task since its interval began. -/
def queued (watched : Watched σ) (id : TaskId) : List Sample :=
  (watched.traffic.postedTo id).drop (watched.since.postedTo id).length

/-- The samples that a task received since its interval began. -/
def received (watched : Watched σ) (id : TaskId) : List Sample :=
  addedSamples ((watched.traffic.performed id).drop (watched.since.performed id).length)

/-- Watching changes nothing. -/
theorem traffic_run [Store σ] (shards : Shards) (id : TaskId) (actions : List Action)
    (watched : Watched σ) :
    (watched.run shards id actions).traffic = watched.traffic.run shards actions := by
  induction actions generalizing watched with
  | nil => rfl
  | cons action actions ih =>
      have hstep : (watched.step shards id action).traffic =
          watched.traffic.step shards action := by
        unfold Watched.step Traffic.step
        cases watched.traffic.step? shards action <;> rfl
      show ((watched.step shards id action).run shards id actions).traffic = _
      rw [ih, hstep, ← Traffic.run_cons]

/-- What is known of a watched task: its histories go on since its interval began, and within the
loop it has noted whether it received anything. -/
structure Kept (watched : Watched σ) (id : TaskId) : Prop where
  accounted : watched.traffic.Accounted
  since_accounted : watched.since.Accounted
  performed_prefix : watched.since.performed id <+: watched.traffic.performed id
  posted_prefix : watched.since.postedTo id <+: watched.traffic.postedTo id
  looping : ∀ task, watched.traffic.registry.task? id = some task →
    task.stage.isLooping = true → (task.received = true ↔ watched.received id ≠ []) ∧
      ∃ old, watched.since.registry.task? id = some old ∧ old.stage ≠ .dead
  unstarted : ∀ task, watched.traffic.registry.task? id = some task →
    task.stage.isUnstarted = true → task.received = false

theorem received_eq_of_append {watched : Watched σ} {id : TaskId} {later : List Operation}
    (h : watched.traffic.performed id = watched.since.performed id ++ later) :
    watched.received id = addedSamples later := by
  rw [received, h, List.drop_left]

/-- The histories of a run only grow. -/
theorem postedTo_prefix_of_move {shards : Shards} {traffic after : Traffic σ} {action : Action}
    (hmove : traffic.Move shards action after) (id : TaskId) :
    traffic.postedTo id <+: after.postedTo id := by
  cases hmove.tasksMove with
  | rests _ _ hposted | opens _ _ _ _ hposted =>
      have hsame : traffic.postedTo id = after.postedTo id :=
        (congrFun (postedTo_eq hposted) id).symm
      exact hsame ▸ List.prefix_rfl
  | changes _ _ _ _ _ _ _ _ _ _ hposted =>
      rw [postedTo_append hposted]
      exact List.prefix_append _ _

/-- A task that begins an interval has received nothing in it. -/
theorem Kept.begin {shards : Shards} {watched : Watched σ} {id : TaskId} (h : watched.Kept id)
    {action : Action} {after : Traffic σ} (hmove : watched.traffic.Move shards action after)
    (hbegins : action.beginsInterval id = true) : (start after).Kept id := by
  obtain ⟨now, step, rfl, hstep⟩ := Action.exists_of_beginsInterval hbegins
  have haccounted : after.Accounted := h.accounted.move hmove
  have hreceived : ∀ task', after.registry.task? id = some task' → task'.received = false := by
    intro task' htask'
    cases hmove with
    | turns _ _ _ task new service hturned hturn =>
        change service.registry.tasks[id]? = some task' at htask'
        rw [hturned.registry_eq] at htask'
        rcases getElem?_set_cases htask' with ⟨-, rfl⟩ | ⟨hne, -⟩
        · exact hturn.received_eq_false hstep (h.unstarted task hturned.task_eq)
        · exact absurd rfl hne
  refine ⟨haccounted, haccounted, List.prefix_rfl, List.prefix_rfl, ?_, ?_⟩
  · intro task' htask' hlooping
    have hnone : (start after).received id = addedSamples [] :=
      received_eq_of_append (List.append_nil _).symm
    refine ⟨by simp [hnone, hreceived task' htask', addedSamples], task', htask', ?_⟩
    intro hdead
    rw [hdead] at hlooping
    cases hlooping
  · intro task' htask' _
    exact hreceived task' htask'

/-- Within an interval the flag keeps up with what is received. -/
theorem Kept.within {shards : Shards} {watched : Watched σ} {id : TaskId} (h : watched.Kept id)
    {action : Action} {after : Traffic σ} (hmove : watched.traffic.Move shards action after)
    (hwithin : action.beginsInterval id = false) :
    (⟨after, watched.since⟩ : Watched σ).Kept id := by
  obtain ⟨later, hperformed, htasks⟩ := hmove.proceeds hwithin
  obtain ⟨earlier, hearlier⟩ := h.performed_prefix
  have hafter : after.performed id = watched.since.performed id ++ (earlier ++ later) := by
    rw [hperformed, ← hearlier, List.append_assoc]
  have hreceived : (⟨after, watched.since⟩ : Watched σ).received id =
      watched.received id ++ addedSamples later := by
    rw [received_eq_of_append hafter, received_eq_of_append hearlier.symm, addedSamples_append]
  refine ⟨h.accounted.move hmove, h.since_accounted, ⟨_, hafter.symm⟩,
    h.posted_prefix.trans (postedTo_prefix_of_move hmove id), ?_, ?_⟩
  · intro task' htask' hlooping
    rcases htasks task' htask' with ⟨hopened, -⟩ | ⟨task, htask, hproceeds⟩
    · rw [hopened] at hlooping
      cases hlooping
    · obtain ⟨hbefore, hflag⟩ := hproceeds.looping hlooping
      obtain ⟨hiff, hsince⟩ := h.looping task htask hbefore
      refine ⟨?_, hsince⟩
      rw [hflag, hiff, hreceived]
      by_cases hnone : watched.received id = [] <;> simp [hnone]
  · intro task' htask' hunstarted
    rcases htasks task' htask' with ⟨-, hfalse⟩ | ⟨task, htask, hproceeds⟩
    · exact hfalse
    · obtain ⟨hbefore, hsame⟩ := hproceeds.unstarted hunstarted
      rw [hsame]
      exact h.unstarted task htask hbefore

/-- Every action keeps what is known of a watched task. -/
theorem Kept.step [Store σ] {watched : Watched σ} {id : TaskId} (h : watched.Kept id)
    (shards : Shards) (action : Action) : (watched.step shards id action).Kept id := by
  unfold Watched.step
  cases hstep : watched.traffic.step? shards action with
  | none => exact h
  | some after =>
      have hmove := move_of_step hstep
      cases hbegins : action.beginsInterval id with
      | true => exact h.begin hmove hbegins
      | false => exact h.within hmove hbegins

theorem kept_fresh (config : ServerConfig) (world : World σ) (sessionIds : Nat → Uuid)
    (id : TaskId) : (start (fresh config world sessionIds)).Kept id where
  accounted := accounted_fresh config world sessionIds
  since_accounted := accounted_fresh config world sessionIds
  performed_prefix := List.prefix_rfl
  posted_prefix := List.prefix_rfl
  looping := by simp [start, fresh, Registry.task?, Registry.ofConfig]
  unstarted := by simp [start, fresh, Registry.task?, Registry.ofConfig]

theorem kept_run [Store σ] (shards : Shards) (config : ServerConfig) (world : World σ)
    (sessionIds : Nat → Uuid) (id : TaskId) (actions : List Action) :
    ((start (fresh config world sessionIds)).run shards id actions).Kept id := by
  have hrun : ∀ (actions : List Action) (watched : Watched σ), watched.Kept id →
      (watched.run shards id actions).Kept id := by
    intro actions
    induction actions with
    | nil => exact fun watched h => h
    | cons action actions ih => exact fun watched h => ih _ (h.step shards action)
  exact hrun actions _ (kept_fresh config world sessionIds id)

/-- What waited when the interval began and what was queued since is what was received since and
what waits now, in the same order. -/
theorem Kept.waiting_append_queued {watched : Watched σ} {id : TaskId} (h : watched.Kept id)
    {task : Task} (htask : watched.traffic.registry.task? id = some task)
    (hlooping : task.stage.isLooping = true) :
    watched.waiting id ++ watched.queued id = watched.received id ++ task.queue.samples := by
  obtain ⟨-, old, hold, halive⟩ := h.looping task htask hlooping
  obtain ⟨later, hlater⟩ := h.performed_prefix
  obtain ⟨newer, hnewer⟩ := h.posted_prefix
  have hdead : task.stage ≠ .dead := by
    intro hdead
    rw [hdead] at hlooping
    cases hlooping
  have hbefore := (h.since_accounted.task_accounted id old hold).samples_eq halive
  have hnow := (h.accounted.task_accounted id task htask).samples_eq hdead
  have hwaiting : watched.waiting id = old.queue.samples := by
    simp [waiting, hold]
  have hqueued : watched.queued id = newer := by
    rw [queued, ← hnewer, List.drop_left]
  rw [← hlater, ← hnewer, ← hbefore, addedSamples_append, List.append_assoc,
    List.append_assoc] at hnow
  rw [hwaiting, hqueued, received_eq_of_append hlater.symm]
  exact (List.append_cancel_left hnow).symm

end Watched

/-! ## Declaring a session idle -/

/-- A task has left its loop and not yet given up its place in the table. -/
def Leaves (traffic : Traffic σ) (id : TaskId) : Prop :=
  ∃ task, traffic.registry.task? id = some task ∧ task.stage = .leaving

variable [Store σ]

/-- A checkpoint finds the task in its loop, and ends the loop when the task noted nothing. -/
theorem leaves_iff_of_tick {shards : Shards} {traffic after : Traffic σ} {now : Nat} {id : TaskId}
    {task : Task} (htask : traffic.registry.task? id = some task)
    (hstep : traffic.step? shards (.task now id .tick) = some after) :
    task.stage.isLooping = true ∧ (after.Leaves id ↔ task.received = false) := by
  have hlt : id < traffic.registry.tasks.length := (List.getElem?_eq_some_iff.mp htask).1
  cases move_of_step hstep with
  | turns _ _ _ old new service hturned hturn =>
      have hsame : old = task := Option.some.inj (hturned.task_eq.symm.trans htask)
      subst hsame
      have hnew : service.registry.task? id = some new := by
        rw [hturned.registry_eq]
        exact List.getElem?_set_self hlt
      have hleaves : Leaves { traffic with
          service, begun := traffic.begun ++ (old.begins .tick).toList.map (id, ·) } id ↔
          new.stage = .leaving := by
        refine ⟨?_, fun hstage => ⟨new, hnew, hstage⟩⟩
        rintro ⟨task', htask', hstage⟩
        change service.registry.task? id = some task' at htask'
        rw [hnew, Option.some.injEq] at htask'
        rw [htask']
        exact hstage
      rw [hleaves]
      generalize old.begins .tick = operation at hturn
      cases hturn with
      | flushes due next hstage hreceived =>
          refine ⟨by rw [hstage]; rfl, ?_⟩
          simp [hreceived]
      | idles due hstage hidle =>
          refine ⟨by rw [hstage]; rfl, ?_⟩
          simp [hidle]

/-- A checkpoint ends the loop of a task, which declares its session idle, exactly when the task
received no sample since the interval began. What was queued since then is all still in the queue,
behind what waited before. So nothing was queued in the interval, as it should be, exactly when the
queue did not change in it, and in particular when the checkpoint finds it empty. -/
theorem idle_iff (shards : Shards) (config : ServerConfig) (world : World σ)
    (sessionIds : Nat → Uuid) (actions : List Action) (id : TaskId) (now : Nat) :
    let watched := (Watched.start (fresh config world sessionIds)).run shards id actions
    ∀ task after, watched.traffic.registry.task? id = some task →
      watched.traffic.step? shards (.task now id .tick) = some after →
      (after.Leaves id ↔ watched.received id = []) ∧
        (after.Leaves id →
          task.queue.samples = watched.waiting id ++ watched.queued id ∧
            (watched.queued id = [] ↔ task.queue.samples = watched.waiting id)) := by
  intro watched task after htask hstep
  have hkept : watched.Kept id := Watched.kept_run shards config world sessionIds id actions
  obtain ⟨hlooping, hleaves⟩ := leaves_iff_of_tick htask hstep
  obtain ⟨hflag, -⟩ := hkept.looping task htask hlooping
  have hnothing : after.Leaves id ↔ watched.received id = [] := by
    rw [hleaves, ← Bool.not_eq_true, hflag]
    exact Decidable.not_not
  refine ⟨hnothing, ?_⟩
  intro hidle
  have hqueue := hkept.waiting_append_queued htask hlooping
  rw [hnothing.mp hidle, List.nil_append] at hqueue
  refine ⟨hqueue.symm, ?_⟩
  rw [← hqueue]
  exact List.append_right_eq_self.symm

/-- A checkpoint that finds the task where its flag tells whether the session is idle. -/
theorem leaves_of_unreceived {shards : Shards} {traffic : Traffic σ} {now : Nat} {id : TaskId}
    (hpossible : (traffic.step? shards (.task now id .tick)).isSome = true)
    (hreceived : (traffic.registry.task? id).map Task.received = some false) :
    (traffic.step shards (.task now id .tick)).Leaves id := by
  obtain ⟨after, hstep⟩ := Option.isSome_iff_exists.mp hpossible
  obtain ⟨task, htask, hflag⟩ := Option.map_eq_some_iff.mp hreceived
  have hafter : traffic.step shards (.task now id .tick) = after := by
    rw [step, hstep, Option.getD_some]
  rw [hafter]
  exact (leaves_iff_of_tick htask hstep).2.mpr hflag

omit [Store σ] in
/-- A session that is idle for a whole interval and is declared so. -/
theorem idle_of_quiet_interval :
    let world := World.fresh MemoryStore.empty .none (fun _ => default) .ofNat
    let actions := [.arrive "car" (.lapping .one), .route 0, .route 0, .route 0, .route 0,
        .task 0 0 .start, .task 0 0 .receive] ++ Action.requests 0 5 ++
      [.task 0 0 .settle, .task 5000000000 0 .tick] ++ Action.requests 0 2 ++ [.task 0 0 .settle]
    let watched := (Watched.start (fresh {} world .ofNat)).run .single 0 actions
    ∃ task after, watched.traffic.registry.task? 0 = some task ∧
      watched.traffic.step? .single (.task 10000000000 0 .tick) = some after ∧
      after.Leaves 0 ∧ watched.queued 0 = [] := by
  intro world actions
  have hfacts :
      let watched := (Watched.start (fresh {} world .ofNat)).run .single 0 actions
      (watched.traffic.registry.task? 0).map (fun task => task.queue.samples) =
          some (watched.waiting 0) ∧
        (watched.traffic.step? .single (.task 10000000000 0 .tick)).isSome = true ∧
        watched.received 0 = [] := by
    refine ⟨?_, ?_, ?_⟩ <;> decide +kernel
  have hiff := idle_iff .single {} world .ofNat actions 0 10000000000
  dsimp only at hfacts hiff ⊢
  generalize (Watched.start (fresh {} world .ofNat)).run .single 0 actions = watched
    at hfacts hiff ⊢
  obtain ⟨hqueue, hpossible, hreceived⟩ := hfacts
  obtain ⟨task, htask, hsame⟩ := Option.map_eq_some_iff.mp hqueue
  obtain ⟨after, hstep⟩ := Option.isSome_iff_exists.mp hpossible
  obtain ⟨hleaves, hright⟩ := hiff task after htask hstep
  have hidle : after.Leaves 0 := hleaves.mpr hreceived
  exact ⟨task, after, htask, hstep, hidle, (hright hidle).2.mpr hsame⟩

/-- An endpoint that queues a sample in every interval, and whose race is finished all the same. The
second sample is queued while the first checkpoint calls the store; when that is done the second
checkpoint is due, and the task handles it although it could receive the sample. -/
theorem idle_while_queued :
    let world := World.fresh MemoryStore.empty .none (fun _ => default) .ofNat
    let first := (Watched.start (fresh {} world .ofNat)).run .single 0
      ([.arrive "car" (.lapping .one), .route 0, .route 0, .route 0, .task 0 0 .start, .route 0,
        .task 0 0 .receive] ++ Action.requests 0 5 ++ [.task 0 0 .settle])
    let second := first.run .single 0
      ([.task 5000000000 0 .tick] ++ Action.requests 0 1 ++
        [.arrive "car" (.lapping ⟨0x40000000⟩), .route 1, .route 1] ++ Action.requests 0 1 ++
        [.task 0 0 .settle])
    let idle := second.traffic.step .single (.task 10000000000 0 .tick)
    let ended := idle.run .single
      ([.task 0 0 .unregister, .task 0 0 .closeQueue, .task 0 0 .drain] ++ Action.requests 0 1 ++
        [.task 0 0 .settle, .task 0 0 .conclude] ++ Action.requests 0 5)
    (first.queued 0 = [.lapping .one] ∧ second.queued 0 = [.lapping ⟨0x40000000⟩]) ∧
      (second.traffic.step? .single (.task 10000000000 0 .receive)).isSome = true ∧
      idle.Leaves 0 ∧
      ended.service.world.events.map (fun event => (event.kind, event.race.inProgress)) =
        [(.started, true), (.finished, false)] := by
  refine ⟨⟨by decide +kernel, by decide +kernel⟩, by decide +kernel, ?_, by decide +kernel⟩
  exact leaves_of_unreceived (by decide +kernel) (by decide +kernel)

end Traffic

end RaceIngest
