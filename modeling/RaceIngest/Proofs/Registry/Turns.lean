import RaceIngest.Registry.Service

/-!
# What a step of a task does

Every step of a session task is one `Task.Turn`: it says in which stage the task was, what was in
its queue, and which task is left behind. A turn that begins an operation on the session names it,
and leaves the task busy with the script of that operation.

A turn concerns one task. `Service.Turned` adds what it does to the service around it: only the
step that unregisters a task changes the table, and only requests touch the world.

## Main results

* `Service.exists_turn`: every step of a task is a turn.
* `Task.Turn.busy_of_begins`: an operation that a turn begins is what the task carries out next.
* `Task.Turn.isPending`: a task that is not spawned yet, or over, takes no turn.
-/

namespace RaceIngest

/-- The operation on its session that a task begins with a step, if the step is taken. -/
def Task.begins (task : Task) : TaskStep → Option Operation
  | .receive | .drain => task.queue.samples.head?.map .add
  | .tick => if task.received then some .checkpoint else none
  | .conclude => some .close
  | .start | .leave | .unregister | .closeQueue | .call | .complete | .settle => none

/-- A sample that a queue gives is its first. -/
theorem SampleQueue.receive?_eq_some {queue rest : SampleQueue} {sample : Sample}
    (h : queue.receive? = some (sample, rest)) :
    queue.samples = sample :: rest.samples ∧ rest = { queue with samples := rest.samples } := by
  unfold receive? at h
  split at h
  · cases h
  · rename_i first samples hsamples
    rw [Option.some.injEq, Prod.mk.injEq] at h
    obtain ⟨rfl, rfl⟩ := h
    exact ⟨hsamples, rfl⟩

namespace Task

/-- The turns of a task: the step, the operation it begins, and the task after it. -/
inductive Turn (interval : Duration) (task : Task) : TaskStep → Option Operation → Task → Prop where
  | starts (due : Nat) (hstage : task.stage = .spawned)
      (hpossible : isPossibleInterval interval = true) :
      Turn interval task .start none { task with stage := .waiting due }
  | dies (hstage : task.stage = .spawned) (himpossible : isPossibleInterval interval = false) :
      Turn interval task .start none
        { task with stage := .dead, queue := { task.queue with samples := [], isOpen := false } }
  | leaves (due : Nat) (hstage : task.stage = .waiting due) (hcancelled : task.cancelled = true) :
      Turn interval task .leave none { task with stage := .leaving }
  | receives (due : Nat) (sample : Sample) (samples : List Sample)
      (hstage : task.stage = .waiting due) (hsamples : task.queue.samples = sample :: samples) :
      Turn interval task .receive (some (.add sample))
        { task with
          queue := { task.queue with samples }
          received := true
          stage := .busy (.adding due) (task.session.add sample) none }
  | flushes (due next : Nat) (hstage : task.stage = .waiting due)
      (hreceived : task.received = true) :
      Turn interval task .tick (some .checkpoint)
        { task with
          received := false
          stage := .busy (.flushing next) task.session.checkpoint none }
  | idles (due : Nat) (hstage : task.stage = .waiting due) (hidle : task.received = false) :
      Turn interval task .tick none { task with stage := .leaving }
  | unregisters (hstage : task.stage = .leaving) :
      Turn interval task .unregister none { task with stage := .unregistered }
  | closesQueue (hstage : task.stage = .unregistered) :
      Turn interval task .closeQueue none
        { task with queue := task.queue.close, stage := .draining }
  | drains (sample : Sample) (samples : List Sample) (hstage : task.stage = .draining)
      (hsamples : task.queue.samples = sample :: samples) :
      Turn interval task .drain (some (.add sample))
        { task with
          queue := { task.queue with samples }
          stage := .busy .draining (task.session.add sample) none }
  | concludes (hstage : task.stage = .draining) (hempty : task.queue.samples = []) :
      Turn interval task .conclude (some .close)
        { task with stage := .busy .closing task.session.close none }
  | calls (work : Work) (request : Request) (next : request.Answer → Script Session) (fails : Bool)
      (hstage : task.stage = .busy work (.ask request next) none) :
      Turn interval task .call none
        { task with stage := .busy work (.ask request next) (some fails) }
  | completes (work : Work) (request : Request) (next : request.Answer → Script Session)
      (fails : Bool) (reply : request.Answer)
      (hstage : task.stage = .busy work (.ask request next) (some fails)) :
      Turn interval task .complete none { task with stage := .busy work (next reply) none }
  | settles (work : Work) (session : Session)
      (hstage : task.stage = .busy work (.done session) none) :
      Turn interval task .settle none { task with session, stage := stageAfter work }

/-- A turn that begins an operation leaves the task busy with its script, and no other turn
begins one. -/
theorem Turn.busy_of_begins {interval : Duration} {task after : Task} {step : TaskStep}
    {operation : Operation} (h : task.Turn interval step (some operation) after) :
    after.session = task.session ∧
      ∃ work, after.stage = .busy work (operation.script task.session) none := by
  cases h with
  | receives due => exact ⟨rfl, .adding due, rfl⟩
  | flushes due next => exact ⟨rfl, .flushing next, rfl⟩
  | drains => exact ⟨rfl, .draining, rfl⟩
  | concludes => exact ⟨rfl, .closing, rfl⟩

theorem Turn.endpoint_eq {interval : Duration} {task after : Task} {step : TaskStep}
    {operation : Option Operation} (h : task.Turn interval step operation after) :
    after.endpoint = task.endpoint := by
  cases h <;> rfl

/-- A task that takes a turn is one that is waited for. -/
theorem Turn.isPending {interval : Duration} {task after : Task} {step : TaskStep}
    {operation : Option Operation} (h : task.Turn interval step operation after) :
    task.isPending = true := by
  unfold Task.isPending
  cases h with
  | starts _ hstage | dies hstage | leaves _ hstage | receives _ _ _ hstage
  | flushes _ _ hstage | idles _ hstage | unregisters hstage | closesQueue hstage
  | drains _ _ hstage | concludes hstage | calls _ _ _ _ hstage
  | completes _ _ _ _ _ hstage | settles _ _ hstage => rw [hstage]

theorem Turn.stage_ne_opened {interval : Duration} {task after : Task} {step : TaskStep}
    {operation : Option Operation} (h : task.Turn interval step operation after) :
    after.stage ≠ .opened := by
  cases h with
  | settles work => cases work <;> simp [stageAfter]
  | _ => simp

/-! ## Steps that touch only the task -/

variable {interval : Duration} {now : Nat} {task after : Task}

theorem turn_of_start (h : task.start? interval now = some after) :
    task.Turn interval .start none after := by
  unfold start? at h
  split at h
  · rename_i hstage
    split at h
    · rename_i hpossible
      rw [← Option.some.inj h]
      exact .starts _ hstage hpossible
    · rename_i himpossible
      rw [← Option.some.inj h]
      exact .dies hstage (by simpa using himpossible)
  · cases h

theorem turn_of_leave (h : task.leave? = some after) : task.Turn interval .leave none after := by
  unfold leave? at h
  split at h
  · rename_i due hstage
    split at h
    · rename_i hcancelled
      rw [← Option.some.inj h]
      exact .leaves due hstage hcancelled
    · cases h
  · cases h

theorem turn_of_receive (h : task.receive? = some after) :
    task.Turn interval .receive (task.begins .receive) after := by
  unfold receive? at h
  split at h
  · rename_i due hstage
    obtain ⟨⟨sample, rest⟩, hreceive, rfl⟩ := Option.map_eq_some_iff.mp h
    obtain ⟨hsamples, hrest⟩ := SampleQueue.receive?_eq_some hreceive
    have hbegins : task.begins .receive = some (.add sample) := by simp [begins, hsamples]
    rw [hbegins, hrest]
    exact .receives due sample _ hstage hsamples
  · cases h

theorem turn_of_tick (h : task.tick? interval now = some after) :
    task.Turn interval .tick (task.begins .tick) after := by
  unfold tick? at h
  split at h
  · rename_i due hstage
    split at h
    · by_cases hreceived : task.received = true
      · rw [if_pos hreceived] at h
        rw [← Option.some.inj h, begins, if_pos hreceived]
        exact .flushes due _ hstage hreceived
      · rw [if_neg hreceived] at h
        rw [← Option.some.inj h, begins, if_neg hreceived]
        exact .idles due hstage (by simpa using hreceived)
    · cases h
  · cases h

theorem turn_of_closeQueue (h : task.closeQueue? = some after) :
    task.Turn interval .closeQueue none after := by
  unfold closeQueue? at h
  split at h
  · rename_i hstage
    rw [← Option.some.inj h]
    exact .closesQueue hstage
  · cases h

theorem turn_of_drain (h : task.drain? = some after) :
    task.Turn interval .drain (task.begins .drain) after := by
  unfold drain? at h
  split at h
  · rename_i hstage
    obtain ⟨⟨sample, rest⟩, hreceive, rfl⟩ := Option.map_eq_some_iff.mp h
    obtain ⟨hsamples, hrest⟩ := SampleQueue.receive?_eq_some hreceive
    have hbegins : task.begins .drain = some (.add sample) := by simp [begins, hsamples]
    rw [hbegins, hrest]
    exact .drains sample _ hstage hsamples
  · cases h

theorem turn_of_conclude (h : task.conclude? = some after) :
    task.Turn interval .conclude (some .close) after := by
  unfold conclude? at h
  split at h
  · rename_i hstage
    split at h
    · rename_i hempty
      rw [← Option.some.inj h]
      exact .concludes hstage (List.isEmpty_iff.mp hempty)
    · cases h
  · cases h

theorem turn_of_settle (h : task.settle? = some after) :
    task.Turn interval .settle none after := by
  unfold settle? at h
  split at h
  · rename_i work session hstage
    rw [← Option.some.inj h]
    exact .settles work session hstage
  · cases h

end Task

/-! ## Steps of a service -/

namespace Service

variable {σ : Type}

/-- What a step of a task leaves of the service around it. -/
structure Turned (before after : Service σ) (id : TaskId) (step : TaskStep) (task task' : Task) :
    Prop where
  task_eq : before.registry.task? id = some task
  registry_eq : after.registry =
    { before.registry with
      tasks := before.registry.tasks.set id task'
      table := if step = .unregister then
          before.registry.table.filter fun (endpoint, owner) =>
            !(endpoint == task.endpoint && owner == id)
        else before.registry.table }
  sessionIds_eq : after.sessionIds = before.sessionIds
  world_eq : step ≠ .call → step ≠ .complete → after.world = before.world

private theorem exists_turn_onTask {service after : Service σ} {id : TaskId} {step : TaskStep}
    {change : Task → Option Task} (hstep : step ≠ .unregister)
    (hturn : ∀ task task', change task = some task' →
      task.Turn service.registry.interval step (task.begins step) task')
    (h : step?.onTask service id change = some after) :
    ∃ task task', service.Turned after id step task task' ∧
      task.Turn service.registry.interval step (task.begins step) task' := by
  unfold step?.onTask Registry.stepTask? at h
  obtain ⟨registry, hregistry, rfl⟩ := Option.map_eq_some_iff.mp h
  obtain ⟨task', hbind, rfl⟩ := Option.map_eq_some_iff.mp hregistry
  obtain ⟨task, htask, hchange⟩ := Option.bind_eq_some_iff.mp hbind
  refine ⟨task, task', ⟨htask, ?_, rfl, fun _ _ => rfl⟩, hturn task task' hchange⟩
  simp [Registry.setTask, hstep]

private theorem exists_turn_call {service after : Service σ} {id : TaskId}
    (h : service.call? id = some after) :
    ∃ task task', service.Turned after id .call task task' ∧
      task.Turn service.registry.interval .call none task' := by
  unfold call? at h
  split at h
  · cases h
  · rename_i task htask
    split at h
    · rename_i work request next hstage
      rw [← Option.some.inj h]
      exact ⟨task, _, ⟨htask, rfl, rfl, fun hne => absurd rfl hne⟩,
        .calls work request next _ hstage⟩
    · cases h

private theorem exists_turn_complete [Store σ] {service after : Service σ} {id : TaskId}
    (h : service.complete? id = some after) :
    ∃ task task', service.Turned after id .complete task task' ∧
      task.Turn service.registry.interval .complete none task' := by
  unfold complete? at h
  split at h
  · cases h
  · rename_i task htask
    split at h
    · rename_i work request next fails hstage
      rw [← Option.some.inj h]
      exact ⟨task, _, ⟨htask, rfl, rfl, fun _ hne => absurd rfl hne⟩,
        .completes work request next fails _ hstage⟩
    · cases h

private theorem exists_turn_unregister {service after : Service σ} {id : TaskId}
    (h : (service.registry.unregister? id).map ({ service with registry := · }) = some after) :
    ∃ task task', service.Turned after id .unregister task task' ∧
      task.Turn service.registry.interval .unregister none task' := by
  obtain ⟨registry, hregistry, rfl⟩ := Option.map_eq_some_iff.mp h
  unfold Registry.unregister? at hregistry
  split at hregistry
  · cases hregistry
  · rename_i task htask
    split at hregistry
    · rename_i hstage
      rw [← Option.some.inj hregistry]
      exact ⟨task, _, ⟨htask, rfl, rfl, fun _ _ => rfl⟩, .unregisters hstage⟩
    · cases hregistry

/-- Every step of a task is a turn. -/
theorem exists_turn [Store σ] {service after : Service σ} {now : Nat} {id : TaskId}
    {step : TaskStep} (h : service.step? now id step = some after) :
    ∃ task task', service.Turned after id step task task' ∧
      task.Turn service.registry.interval step (task.begins step) task' := by
  cases step with
  | start => exact exists_turn_onTask (by decide) (fun _ _ => Task.turn_of_start) h
  | leave => exact exists_turn_onTask (by decide) (fun _ _ => Task.turn_of_leave) h
  | receive => exact exists_turn_onTask (by decide) (fun _ _ => Task.turn_of_receive) h
  | tick => exact exists_turn_onTask (by decide) (fun _ _ => Task.turn_of_tick) h
  | unregister => exact exists_turn_unregister h
  | closeQueue => exact exists_turn_onTask (by decide) (fun _ _ => Task.turn_of_closeQueue) h
  | drain => exact exists_turn_onTask (by decide) (fun _ _ => Task.turn_of_drain) h
  | conclude => exact exists_turn_onTask (by decide) (fun _ _ => Task.turn_of_conclude) h
  | call => exact exists_turn_call h
  | complete => exact exists_turn_complete h
  | settle => exact exists_turn_onTask (by decide) (fun _ _ => Task.turn_of_settle) h

end Service

end RaceIngest
