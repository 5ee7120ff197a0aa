import RaceIngest.Proofs.Registry.Accounts

/-!
# What is queued can be added

The accounts say that a sample that was queued is added or still queued. This module adds that no
sample has to stay queued: from wherever a run has come to, a task that was spawned can add
everything that is queued for it by steps of its own, without the help of anyone else.

A task goes on in the same way from every stage. A script has an end, since every request leaves a
smaller one; between two scripts the task takes one sample out of its queue.

## Main results

* `Traffic.canReach_of_busy`: a task can finish the script it is busy with.
* `Traffic.exists_added`: a spawned task can add everything that is queued for it.
-/

namespace RaceIngest

/-! ## Tasks are never stuck -/

/-- Whether a task in a stage waits for the answer to a request that it does not make. -/
def Stage.isStuck : Stage → Bool
  | .busy _ script (some _) =>
    match script with
    | .done _ => true
    | .ask _ _ => false
  | _ => false

theorem Task.Turn.isStuck_eq_false {interval : Duration} {task after : Task} {step : TaskStep}
    {operation : Option Operation} (h : task.Turn interval step operation after) :
    after.stage.isStuck = false := by
  cases h with
  | settles work => cases work <;> rfl
  | _ => rfl

namespace Traffic

variable {σ : Type}

/-- No task is stuck. -/
def Unstuck (traffic : Traffic σ) : Prop :=
  ∀ id task, traffic.registry.task? id = some task → task.stage.isStuck = false

theorem Unstuck.move {shards : Shards} {traffic after : Traffic σ} {action : Action}
    (h : traffic.Unstuck) (hmove : traffic.Move shards action after) : after.Unstuck := by
  intro id task htask
  cases hmove.tasksMove with
  | rests htasks =>
      rw [Registry.task?, htasks] at htask
      exact h id task htask
  | opens endpoint sessionId htasks =>
      rw [Registry.task?, htasks] at htask
      rcases getElem?_concat_cases htask with hold | ⟨-, rfl⟩
      · exact h id task hold
      · rfl
  | changes n changed old new operations samples hold hchange htasks =>
      rw [Registry.task?, htasks] at htask
      rcases getElem?_set_cases htask with ⟨-, rfl⟩ | ⟨-, hkept⟩
      · cases hchange with
        | turns step operation _ hturn => exact hturn.isStuck_eq_false
        | spawns => rfl
        | cancels | queues => exact h changed old hold
      · exact h id task hkept

theorem unstuck_fresh (config : ServerConfig) (world : World σ) (sessionIds : Nat → Uuid) :
    (fresh config world sessionIds).Unstuck := by
  simp [Unstuck, fresh, Registry.task?, Registry.ofConfig]

/-! ## Steps of one task -/

/-- What a step of a task leaves behind: the task as it is then, and nothing more queued. -/
structure Took (before after : Traffic σ) (id : TaskId) (task : Task) : Prop where
  task_eq : after.registry.task? id = some task
  posted_eq : after.posted = before.posted
  interval_eq : after.registry.interval = before.registry.interval

theorem Took.trans {first second third : Traffic σ} {id : TaskId} {task task' : Task}
    (h : first.Took second id task) (h' : second.Took third id task') :
    first.Took third id task' :=
  ⟨h'.task_eq, h'.posted_eq.trans h.posted_eq, h'.interval_eq.trans h.interval_eq⟩

variable [Store σ] {traffic : Traffic σ} {id : TaskId} {task : Task}

/-- A step that is the task's turn. -/
private theorem took_of_step? (shards : Shards) {step : TaskStep} (service : Service σ)
    {task' : Task} (hstep : traffic.service.step? 0 id step = some service)
    (htask : service.registry.task? id = some task')
    (hinterval : service.registry.interval = traffic.registry.interval) :
    traffic.Took (traffic.step shards (.task 0 id step)) id task' := by
  have hafter : traffic.step shards (.task 0 id step) =
      { traffic with
        service
        begun := traffic.begun ++
          (((traffic.registry.task? id).bind (Task.begins · step)).toList.map (id, ·)) } := by
    simp [Traffic.step, step?, turn?, hstep]
  rw [hafter]
  exact ⟨htask, rfl, hinterval⟩

theorem task?_setTask_self {registry : Registry} (htask : registry.task? id = some task)
    (task' : Task) : (registry.setTask id task').task? id = some task' :=
  List.getElem?_set_self (List.getElem?_eq_some_iff.mp htask).1

/-- A step that touches only the task. -/
private theorem took_onTask (shards : Shards) (step : TaskStep) {change : Task → Option Task}
    {task' : Task} (htask : traffic.registry.task? id = some task)
    (hstep : traffic.service.step? 0 id step = Service.step?.onTask traffic.service id change)
    (hchange : change task = some task') :
    traffic.Took (traffic.step shards (.task 0 id step)) id task' := by
  refine took_of_step? shards
    { traffic.service with registry := traffic.registry.setTask id task' } ?_ ?_ ?_
  · rw [hstep, Service.step?.onTask, Registry.stepTask?, htask, Option.bind_some, hchange]
    rfl
  · exact task?_setTask_self htask task'
  · rfl

private theorem took_unregister (shards : Shards) (htask : traffic.registry.task? id = some task)
    (hstage : task.stage = .leaving) :
    traffic.Took (traffic.step shards (.task 0 id .unregister)) id
      { task with stage := .unregistered } := by
  have hstep : traffic.service.step? 0 id .unregister =
      (traffic.registry.unregister? id).map ({ traffic.service with registry := · }) := rfl
  simp only [Registry.unregister?, htask, hstage, Option.map_some] at hstep
  exact took_of_step? shards _ hstep (task?_setTask_self htask _) rfl

private theorem took_call (shards : Shards) (htask : traffic.registry.task? id = some task)
    {work : Work} {request : Request} {next : request.Answer → Script Session}
    (hstage : task.stage = .busy work (.ask request next) none) :
    ∃ fails, traffic.Took (traffic.step shards (.task 0 id .call)) id
      { task with stage := .busy work (.ask request next) (some fails) } := by
  have hstep : traffic.service.step? 0 id .call = traffic.service.call? id := rfl
  simp only [Service.call?, htask, hstage] at hstep
  exact ⟨_, took_of_step? shards _ hstep (task?_setTask_self htask _) rfl⟩

private theorem took_complete (shards : Shards) (htask : traffic.registry.task? id = some task)
    {work : Work} {request : Request} {next : request.Answer → Script Session} {fails : Bool}
    (hstage : task.stage = .busy work (.ask request next) (some fails)) :
    ∃ reply, traffic.Took (traffic.step shards (.task 0 id .complete)) id
      { task with stage := .busy work (next reply) none } := by
  have hstep : traffic.service.step? 0 id .complete = traffic.service.complete? id := rfl
  simp only [Service.complete?, htask, hstage] at hstep
  exact ⟨_, took_of_step? shards _ hstep (task?_setTask_self htask _) rfl⟩

/-! ## What a task can reach -/

/-- A task can come by its own steps to where `P` holds. -/
def CanReach (shards : Shards) (id : TaskId) (P : Traffic σ → Prop) (traffic : Traffic σ) : Prop :=
  ∃ steps : List TaskStep, P (traffic.run shards (steps.map (.task 0 id ·)))

theorem CanReach.now {shards : Shards} {P : Traffic σ → Prop} (h : P traffic) :
    traffic.CanReach shards id P := ⟨[], h⟩

theorem CanReach.after {shards : Shards} {P : Traffic σ → Prop} (step : TaskStep)
    (h : (traffic.step shards (.task 0 id step)).CanReach shards id P) :
    traffic.CanReach shards id P := by
  obtain ⟨steps, hsteps⟩ := h
  exact ⟨step :: steps, hsteps⟩

/-- A task can finish the script it is busy with. The induction is on the script. -/
theorem canReach_of_busy {shards : Shards} {P : Traffic σ → Prop} {work : Work}
    (script : Script Session) {fate : Option Bool}
    (htask : traffic.registry.task? id = some task)
    (hstage : task.stage = .busy work script fate) (hunstuck : task.stage.isStuck = false)
    (hgoesOn : ∀ after session,
      traffic.Took after id { task with session, stage := Task.stageAfter work } →
      after.CanReach shards id P) : traffic.CanReach shards id P := by
  induction script generalizing traffic task fate with
  | done session =>
      cases fate with
      | some fails =>
          rw [hstage] at hunstuck
          cases hunstuck
      | none =>
          refine .after .settle (hgoesOn _ session (took_onTask shards .settle htask rfl ?_))
          simp [Task.settle?, hstage]
  | ask request next ih =>
      -- once the request was called its answer leaves a smaller script
      have hcalled : ∀ (called : Traffic σ) (fails : Bool),
          traffic.Took called id
            { task with stage := .busy work (.ask request next) (some fails) } →
          called.CanReach shards id P := by
        intro called fails hcall
        obtain ⟨reply, hcomplete⟩ := took_complete shards hcall.task_eq rfl
        refine .after .complete (ih reply hcomplete.task_eq rfl rfl fun after session hdone => ?_)
        exact hgoesOn after session (hcall.trans (hcomplete.trans hdone))
      cases fate with
      | some fails =>
          refine hcalled traffic fails ⟨?_, rfl, rfl⟩
          rw [htask, ← hstage]
      | none =>
          obtain ⟨fails, hcall⟩ := took_call shards htask hstage
          exact .after .call (hcalled _ fails hcall)

/-- Nothing is queued for the task, and nothing more was queued for any. -/
def Emptied (before : Traffic σ) (id : TaskId) (after : Traffic σ) : Prop :=
  after.posted = before.posted ∧
    ∃ task, after.registry.task? id = some task ∧ task.stage ≠ .dead ∧ task.queue.samples = []

theorem canReach_emptied_of_waiting (shards : Shards) (start : Traffic σ) {due : Nat}
    (samples : List Sample) (htask : traffic.registry.task? id = some task)
    (hposted : traffic.posted = start.posted) (hstage : task.stage = .waiting due)
    (hsamples : task.queue.samples = samples) :
    traffic.CanReach shards id (start.Emptied id) := by
  induction samples generalizing traffic task with
  | nil => exact .now ⟨hposted, task, htask, by simp [hstage], hsamples⟩
  | cons sample samples ih =>
      have hreceive : task.receive? = some
          { task with
            queue := { task.queue with samples }
            received := true
            stage := .busy (.adding due) (task.session.add sample) none } := by
        simp [Task.receive?, hstage, SampleQueue.receive?, hsamples]
      have hreceived := took_onTask shards .receive htask rfl hreceive
      refine .after .receive (canReach_of_busy _ hreceived.task_eq rfl rfl ?_)
      intro after session hdone
      have hafter := hreceived.trans hdone
      exact ih hafter.task_eq (hafter.posted_eq.trans hposted) rfl rfl

theorem canReach_emptied_of_draining (shards : Shards) (start : Traffic σ)
    (samples : List Sample) (htask : traffic.registry.task? id = some task)
    (hposted : traffic.posted = start.posted) (hstage : task.stage = .draining)
    (hsamples : task.queue.samples = samples) :
    traffic.CanReach shards id (start.Emptied id) := by
  induction samples generalizing traffic task with
  | nil => exact .now ⟨hposted, task, htask, by simp [hstage], hsamples⟩
  | cons sample samples ih =>
      have hdrain : task.drain? = some
          { task with
            queue := { task.queue with samples }
            stage := .busy .draining (task.session.add sample) none } := by
        simp [Task.drain?, hstage, SampleQueue.receive?, hsamples]
      have hdrained := took_onTask shards .drain htask rfl hdrain
      refine .after .drain (canReach_of_busy _ hdrained.task_eq rfl rfl ?_)
      intro after session hdone
      have hafter := hdrained.trans hdone
      exact ih hafter.task_eq (hafter.posted_eq.trans hposted) rfl rfl

theorem canReach_emptied_of_unregistered (shards : Shards) (start : Traffic σ)
    (htask : traffic.registry.task? id = some task) (hposted : traffic.posted = start.posted)
    (hstage : task.stage = .unregistered) : traffic.CanReach shards id (start.Emptied id) := by
  have hclose : task.closeQueue? =
      some { task with queue := task.queue.close, stage := .draining } := by
    simp [Task.closeQueue?, hstage]
  have hclosed := took_onTask shards .closeQueue htask rfl hclose
  exact .after .closeQueue (canReach_emptied_of_draining shards start _ hclosed.task_eq
    (hclosed.posted_eq.trans hposted) rfl rfl)

theorem canReach_emptied_of_leaving (shards : Shards) (start : Traffic σ)
    (htask : traffic.registry.task? id = some task) (hposted : traffic.posted = start.posted)
    (hstage : task.stage = .leaving) : traffic.CanReach shards id (start.Emptied id) := by
  have hleft := took_unregister shards htask hstage
  exact .after .unregister (canReach_emptied_of_unregistered shards start hleft.task_eq
    (hleft.posted_eq.trans hposted) rfl)

theorem canReach_emptied_of_spawned (shards : Shards) (start : Traffic σ)
    (hpossible : isPossibleInterval traffic.registry.interval = true)
    (htask : traffic.registry.task? id = some task) (hposted : traffic.posted = start.posted)
    (hstage : task.stage = .spawned) : traffic.CanReach shards id (start.Emptied id) := by
  have hstart : task.start? traffic.registry.interval 0 = some
      { task with stage := .waiting (0 + traffic.registry.interval.nanoseconds) } := by
    simp [Task.start?, hstage, hpossible]
  have hstarted := took_onTask shards .start htask rfl hstart
  exact .after .start (canReach_emptied_of_waiting shards start _ hstarted.task_eq
    (hstarted.posted_eq.trans hposted) rfl rfl)

/-- A task that was spawned and did not die can come to where nothing is queued for it. -/
theorem canReach_emptied (shards : Shards) (haccounted : traffic.Accounted)
    (hunstuck : traffic.Unstuck) (hpossible : isPossibleInterval traffic.registry.interval = true)
    (htask : traffic.registry.task? id = some task) (hspawned : task.stage ≠ .opened) :
    traffic.CanReach shards id (traffic.Emptied id) := by
  have haccount := haccounted.task_accounted id task htask
  have hclosing : task.stage.isClosing = true → task.queue.samples = [] :=
    fun hstage => (haccount.closes_last hstage).1
  cases hstage : task.stage with
  | opened => exact absurd hstage hspawned
  | spawned => exact canReach_emptied_of_spawned shards traffic hpossible htask rfl hstage
  | waiting due => exact canReach_emptied_of_waiting shards traffic _ htask rfl hstage rfl
  | busy work script fate =>
      refine canReach_of_busy script htask hstage (hunstuck id task htask) fun after session h => ?_
      cases work with
      | adding due | flushing due =>
          exact canReach_emptied_of_waiting shards traffic _ h.task_eq h.posted_eq rfl rfl
      | draining =>
          exact canReach_emptied_of_draining shards traffic _ h.task_eq h.posted_eq rfl rfl
      | closing =>
          exact .now ⟨h.posted_eq, _, h.task_eq, by simp [Task.stageAfter],
            hclosing (by rw [hstage]; rfl)⟩
  | leaving => exact canReach_emptied_of_leaving shards traffic htask rfl hstage
  | unregistered => exact canReach_emptied_of_unregistered shards traffic htask rfl hstage
  | draining => exact canReach_emptied_of_draining shards traffic _ htask rfl hstage rfl
  | ended =>
      exact .now ⟨rfl, task, htask, by simp [hstage], hclosing (by rw [hstage]; rfl)⟩
  | dead => exact absurd hstage (haccounted.alive hpossible htask)

/-- A task that was spawned can add everything that is queued for it, by its own steps. -/
theorem exists_added (shards : Shards) (haccounted : traffic.Accounted)
    (hunstuck : traffic.Unstuck) (hpossible : isPossibleInterval traffic.registry.interval = true)
    (htask : traffic.registry.task? id = some task) (hspawned : task.stage ≠ .opened) :
    ∃ steps : List TaskStep,
      addedSamples ((traffic.run shards (steps.map (.task 0 id ·))).performed id) =
        traffic.postedTo id := by
  obtain ⟨steps, hposted, after, hafter, halive, hempty⟩ :=
    canReach_emptied shards haccounted hunstuck hpossible htask hspawned
  have haccountedAfter : (traffic.run shards (steps.map (.task 0 id ·))).Accounted :=
    run_induction _ (fun _ h _ _ _ hmove => h.move hmove) haccounted
  have hsamples := (haccountedAfter.task_accounted id after hafter).samples_eq halive
  rw [hempty, List.append_nil, postedTo_eq hposted] at hsamples
  exact ⟨steps, hsamples⟩

end Traffic

end RaceIngest
