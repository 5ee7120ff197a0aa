import RaceIngest.Proofs.Registry.Turns

/-!
# Traffic on a registry

A `Traffic` is a service together with the callers that are at work on it: those that route a
sample and those that close the registry, each with the step it takes next. Any number of callers
and all tasks go on side by side. Every `Action` is one atomic step of one of them, and a run is an
arbitrary list of actions; an action that is not possible leaves everything as it is.

What a caller does in one step is what it does under one lock. A caller that routes looks its
endpoint up, opens a session when there was none, spawns the task of the session it opened, and
queues its sample; between any two of these everybody else may go on. It dies when it has to open a
session and none can have the capacities that were asked for. A caller that closes the
registry first refuses new sessions, then goes through the shards of the table, where it leaves a
shard only when all sessions in it were told to close, and finally lets the end be waited for.

Two histories are kept beside the state: which sample was queued for which task by which caller,
and which operations the tasks began on their sessions.

## Main results

* `Traffic.run_route`: a call that survives and whose steps are not interrupted is `Service.route`.
-/

namespace RaceIngest

/-! ## Callers -/

/-- Where a call that routes a sample is. -/
inductive RouteStage where
  /-- It has not looked its endpoint up yet. -/
  | looking
  /-- Its endpoint had no session. -/
  | opening
  /-- It put a session into the table and has not spawned its task yet. -/
  | spawning (id : TaskId)
  /-- It knows the task that its sample is for. -/
  | sending (id : TaskId)
  /-- It is over; the result says whether the sample was queued. -/
  | returned (accepted : Bool)
  /-- It was to open a session that cannot be made, and took nothing with it. -/
  | died
  deriving DecidableEq

/-- A call that routes a sample. -/
structure RouteCall where
  endpoint : String
  sample : Sample
  stage : RouteStage := .looking

/-- Where a call that closes the registry is. -/
inductive CloseStage where
  | refusing
  /-- It goes through the shards of the table and is at this one. -/
  | sweeping (shard : Nat)
  | returned
  deriving DecidableEq

/-- How a table is divided into shards. -/
structure Shards where
  count : Nat
  shardOf : String → Nat
  shardOf_lt : ∀ endpoint, shardOf endpoint < count

/-- A table that is not divided. -/
def Shards.single : Shards := ⟨1, fun _ => 0, fun _ => Nat.one_pos⟩

/-- A sample that was queued for a task by a call. -/
structure Posted where
  call : Nat
  task : TaskId
  sample : Sample
  deriving DecidableEq

/-- A service and the callers that are at work on it. -/
structure Traffic (σ : Type) where
  service : Service σ
  /-- The calls that route a sample, in the order in which they began. -/
  calls : List RouteCall := []
  /-- The calls that close the registry, in the order in which they began. -/
  closers : List CloseStage := []
  /-- The samples that were queued so far, oldest first. -/
  posted : List Posted := []
  /-- The operations that tasks began on their sessions so far, oldest first. -/
  begun : List (TaskId × Operation) := []

/-- One atomic step of a caller or a task. -/
inductive Action where
  /-- A caller begins to route a sample. -/
  | arrive (endpoint : String) (sample : Sample)
  /-- A call that routes a sample takes its next step. -/
  | route (n : Nat)
  /-- A task takes a step at a moment. -/
  | task (now : Nat) (id : TaskId) (step : TaskStep)
  /-- A caller begins to close the registry. -/
  | beginClose
  /-- A call that closes the registry goes on. -/
  | close (n : Nat)
  /-- A call that closes the registry tells the session of an endpoint to close. -/
  | cancel (n : Nat) (endpoint : String)
  /-- Sessions are accepted again. -/
  | reopen
  deriving DecidableEq

namespace Traffic

variable {σ : Type}

/-- The registry that the traffic is on. -/
abbrev registry (traffic : Traffic σ) : Registry := traffic.service.registry

/-- The traffic with another registry. -/
def withRegistry (traffic : Traffic σ) (registry : Registry) : Traffic σ :=
  { traffic with service := { traffic.service with registry } }

/-- The traffic with a call at another stage. -/
def setStage (traffic : Traffic σ) (n : Nat) (call : RouteCall) (stage : RouteStage) : Traffic σ :=
  { traffic with calls := traffic.calls.set n { call with stage } }

/-- The next step of a call that routes a sample. -/
def route? (traffic : Traffic σ) (n : Nat) : Option (Traffic σ) :=
  match traffic.calls[n]? with
  | none => none
  | some call =>
    match call.stage with
    | .looking =>
      match traffic.registry.lookup? call.endpoint with
      | some id => some (traffic.setStage n call (.sending id))
      | none => some (traffic.setStage n call .opening)
    | .opening =>
      if traffic.registry.isFatal call.endpoint then some (traffic.setStage n call .died)
      else
        let sessionId := traffic.service.sessionIds traffic.registry.tasks.length
        match traffic.registry.openSession call.endpoint sessionId with
        | (none, registry) =>
          some ((traffic.withRegistry registry).setStage n call (.returned false))
        | (some id, registry) =>
          let found := (traffic.registry.lookup? call.endpoint).isSome
          some ((traffic.withRegistry registry).setStage n call
            (if found then .sending id else .spawning id))
    | .spawning id =>
      some ((traffic.withRegistry (traffic.registry.spawn id)).setStage n call (.sending id))
    | .sending id =>
      let (accepted, registry) := traffic.registry.send id call.sample
      let traffic := (traffic.withRegistry registry).setStage n call (.returned accepted)
      if accepted then some { traffic with posted := traffic.posted ++ [⟨n, id, call.sample⟩] }
      else some traffic
    | .returned _ | .died => none

/-- Whether all sessions in a shard of the table were told to close. -/
def isSwept (shards : Shards) (registry : Registry) (shard : Nat) : Bool :=
  registry.table.all fun (endpoint, id) =>
    shards.shardOf endpoint != shard || (registry.task? id).any Task.cancelled

/-- The next step of a call that closes the registry, apart from telling a session to close. -/
def close? (shards : Shards) (traffic : Traffic σ) (n : Nat) : Option (Traffic σ) :=
  match traffic.closers[n]? with
  | some .refusing =>
    some { traffic.withRegistry traffic.registry.refuse with
      closers := traffic.closers.set n (.sweeping 0) }
  | some (.sweeping shard) =>
    if shard < shards.count then
      if isSwept shards traffic.registry shard then
        some { traffic with closers := traffic.closers.set n (.sweeping (shard + 1)) }
      else none
    else
      some { traffic.withRegistry traffic.registry.await with
        closers := traffic.closers.set n .returned }
  | some .returned | none => none

/-- A call that closes the registry tells a session in its shard to close. -/
def cancel? (shards : Shards) (traffic : Traffic σ) (n : Nat) (endpoint : String) :
    Option (Traffic σ) :=
  match traffic.closers[n]?, traffic.registry.lookup? endpoint with
  | some (.sweeping shard), some id =>
    if shards.shardOf endpoint = shard then
      some (traffic.withRegistry (traffic.registry.cancel id))
    else none
  | _, _ => none

/-- A step of a task. The operation that it begins goes into the history. -/
def turn? [Store σ] (traffic : Traffic σ) (now : Nat) (id : TaskId) (step : TaskStep) :
    Option (Traffic σ) :=
  (traffic.service.step? now id step).map fun service =>
    let operation := (traffic.registry.task? id).bind (Task.begins · step)
    { traffic with service, begun := traffic.begun ++ operation.toList.map (id, ·) }

/-- Takes an action; `none` when it is not possible. -/
def step? [Store σ] (shards : Shards) (traffic : Traffic σ) : Action → Option (Traffic σ)
  | .arrive endpoint sample =>
    some { traffic with calls := traffic.calls ++ [{ endpoint := endpoint, sample := sample }] }
  | .route n => traffic.route? n
  | .task now id step => traffic.turn? now id step
  | .beginClose => some { traffic with closers := traffic.closers ++ [.refusing] }
  | .close n => traffic.close? shards n
  | .cancel n endpoint => traffic.cancel? shards n endpoint
  | .reopen => some (traffic.withRegistry traffic.registry.reopen)

/-- Takes an action, if it is possible. -/
def step [Store σ] (shards : Shards) (traffic : Traffic σ) (action : Action) : Traffic σ :=
  (traffic.step? shards action).getD traffic

/-- Takes actions, one after the other. -/
def run [Store σ] (shards : Shards) (actions : List Action) (traffic : Traffic σ) : Traffic σ :=
  actions.foldl (step shards) traffic

/-- No caller at work yet, on the registry of a configured server. -/
def fresh (config : ServerConfig) (world : World σ) (sessionIds : Nat → Uuid) : Traffic σ where
  service := { registry := .ofConfig config, world, sessionIds }

end Traffic

/-! ## Changes of a registry -/

namespace Registry

/-- The task of a session that is opened for an endpoint. -/
def newTask (registry : Registry) (endpoint : String) (sessionId : Uuid) : Task where
  endpoint := endpoint
  session := { id := sessionId, capacity := registry.bufferCapacity }
  queue := { capacity := registry.queueCapacity }

/-- The registry after a session was opened for an endpoint. -/
def opened (registry : Registry) (endpoint : String) (sessionId : Uuid) : Registry :=
  { registry with
    table := registry.table ++ [(endpoint, registry.tasks.length)]
    tasks := registry.tasks ++ [registry.newTask endpoint sessionId] }

theorem openSession_of_found {registry : Registry} {endpoint : String} {id : TaskId}
    (h : registry.lookup? endpoint = some id) (sessionId : Uuid) :
    registry.openSession endpoint sessionId = (some id, registry) := by
  simp [openSession, h]

theorem openSession_of_closed {registry : Registry} {endpoint : String}
    (h : registry.lookup? endpoint = none) (hclosed : registry.closed = true) (sessionId : Uuid) :
    registry.openSession endpoint sessionId = (none, registry) := by
  simp [openSession, h, hclosed]

theorem openSession_of_open {registry : Registry} {endpoint : String}
    (h : registry.lookup? endpoint = none) (hopen : registry.closed = false) (sessionId : Uuid) :
    registry.openSession endpoint sessionId =
      (some registry.tasks.length, registry.opened endpoint sessionId) := by
  simp [openSession, h, hopen, opened, newTask]

theorem isFatal_of_found {registry : Registry} {endpoint : String} {id : TaskId}
    (h : registry.lookup? endpoint = some id) : registry.isFatal endpoint = false := by
  simp [isFatal, h]

theorem isFatal_of_closed {registry : Registry} (hclosed : registry.closed = true)
    (endpoint : String) : registry.isFatal endpoint = false := by
  simp [isFatal, hclosed]

/-- With capacities that sessions can have no sample is fatal. -/
theorem isFatal_of_possible {registry : Registry}
    (hpossible : sessionFailure? registry.bufferCapacity registry.queueCapacity = none)
    (endpoint : String) : registry.isFatal endpoint = false := by
  simp [isFatal, hpossible]

theorem isFatal_eq_true_iff {registry : Registry} {endpoint : String} :
    registry.isFatal endpoint = true ↔ registry.lookup? endpoint = none ∧
      registry.closed = false ∧
      (sessionFailure? registry.bufferCapacity registry.queueCapacity).isSome = true := by
  simp [isFatal, and_assoc]

theorem setTask_self {registry : Registry} {id : TaskId} {task : Task}
    (h : registry.task? id = some task) : registry.setTask id task = registry := by
  obtain ⟨hlt, hget⟩ := List.getElem?_eq_some_iff.mp h
  unfold setTask
  rw [← hget, List.set_getElem_self]

/-- What queueing a sample does: it goes to the end of an open queue with room. -/
theorem send_eq {registry : Registry} {id : TaskId} {task : Task}
    (h : registry.task? id = some task) (sample : Sample) :
    registry.send id sample =
      if task.queue.isOpen = true ∧ task.queue.samples.length < task.queue.capacity then
        (true, registry.setTask id
          { task with queue := { task.queue with samples := task.queue.samples ++ [sample] } })
      else (false, registry) := by
  unfold send
  rw [h]
  unfold SampleQueue.send
  by_cases hroom : task.queue.isOpen = true ∧ task.queue.samples.length < task.queue.capacity
  · simp [hroom]
  · have hfull : (task.queue.isOpen &&
        decide (task.queue.samples.length < task.queue.capacity)) = false := by
      rw [Bool.eq_false_iff]
      simpa using hroom
    rw [if_neg hroom]
    simp only [hfull, Bool.false_eq_true, if_false, setTask_self h]

theorem send_of_none {registry : Registry} {id : TaskId} (h : registry.task? id = none)
    (sample : Sample) : registry.send id sample = (false, registry) := by
  unfold send
  rw [h]

theorem spawn_of_opened {registry : Registry} {id : TaskId} {task : Task}
    (htask : registry.task? id = some task) (hstage : task.stage = .opened) :
    registry.spawn id = registry.setTask id { task with stage := .spawned } := by
  simp [spawn, stepTask?, htask, Task.spawn?, hstage]

/-- Spawning a task that is not spawned yet changes its stage; anything else changes nothing. -/
theorem spawn_cases (registry : Registry) (id : TaskId) :
    registry.spawn id = registry ∨ ∃ task, registry.task? id = some task ∧ task.stage = .opened ∧
      registry.spawn id = registry.setTask id { task with stage := .spawned } := by
  unfold spawn stepTask?
  cases htask : registry.task? id with
  | none => exact .inl rfl
  | some task =>
      simp only [Option.bind_some, Task.spawn?]
      split
      · rename_i hstage
        exact .inr ⟨task, rfl, hstage, rfl⟩
      · exact .inl rfl

theorem cancel_cases (registry : Registry) (id : TaskId) :
    registry.cancel id = registry ∨ ∃ task, registry.task? id = some task ∧
      registry.cancel id = registry.setTask id { task with cancelled := true } := by
  unfold cancel stepTask?
  cases htask : registry.task? id with
  | none => exact .inl rfl
  | some task => exact .inr ⟨task, rfl, rfl⟩

/-- Spawning changes the tasks only. -/
theorem exists_spawn_eq (registry : Registry) (id : TaskId) :
    ∃ tasks, registry.spawn id = { registry with tasks } := by
  rcases registry.spawn_cases id with hspawn | ⟨task, -, -, hspawn⟩
  · exact ⟨registry.tasks, hspawn⟩
  · exact ⟨_, hspawn⟩

/-- Cancelling changes the tasks only. -/
theorem exists_cancel_eq (registry : Registry) (id : TaskId) :
    ∃ tasks, registry.cancel id = { registry with tasks } := by
  rcases registry.cancel_cases id with hcancel | ⟨task, -, hcancel⟩
  · exact ⟨registry.tasks, hcancel⟩
  · exact ⟨_, hcancel⟩

end Registry

/-! ## Calls that are not interrupted -/

namespace Traffic

variable {σ : Type} {traffic : Traffic σ} {n : Nat} {call : RouteCall}

theorem getElem?_calls_setStage (traffic : Traffic σ) (hcall : traffic.calls[n]? = some call)
    (stage : RouteStage) :
    (traffic.setStage n call stage).calls[n]? = some { call with stage } := by
  have hlt : n < traffic.calls.length := (List.getElem?_eq_some_iff.mp hcall).1
  simp [setStage, hlt]

theorem route?_of_found {id : TaskId} (hcall : traffic.calls[n]? = some call)
    (hstage : call.stage = .looking ∨ call.stage = .opening)
    (hfound : traffic.registry.lookup? call.endpoint = some id) :
    traffic.route? n = some (traffic.setStage n call (.sending id)) := by
  rcases hstage with hlooking | hopening
  · simp [route?, hcall, hlooking, hfound]
  · simp [route?, hcall, hopening, Registry.isFatal_of_found hfound,
      Registry.openSession_of_found hfound, hfound, withRegistry]

theorem route?_of_missed (hcall : traffic.calls[n]? = some call) (hstage : call.stage = .looking)
    (hnone : traffic.registry.lookup? call.endpoint = none) :
    traffic.route? n = some (traffic.setStage n call .opening) := by
  simp [route?, hcall, hstage, hnone]

theorem route?_of_closed (hcall : traffic.calls[n]? = some call) (hstage : call.stage = .opening)
    (hnone : traffic.registry.lookup? call.endpoint = none)
    (hclosed : traffic.registry.closed = true) :
    traffic.route? n = some (traffic.setStage n call (.returned false)) := by
  simp [route?, hcall, hstage, Registry.isFatal_of_closed hclosed,
    Registry.openSession_of_closed hnone hclosed, withRegistry]

theorem route?_of_fatal (hcall : traffic.calls[n]? = some call) (hstage : call.stage = .opening)
    (hfatal : traffic.registry.isFatal call.endpoint = true) :
    traffic.route? n = some (traffic.setStage n call .died) := by
  simp [route?, hcall, hstage, hfatal]

theorem route?_of_opened (hcall : traffic.calls[n]? = some call) (hstage : call.stage = .opening)
    (hnone : traffic.registry.lookup? call.endpoint = none)
    (hopen : traffic.registry.closed = false)
    (hsurvives : traffic.registry.isFatal call.endpoint = false) :
    traffic.route? n = some ((traffic.withRegistry (traffic.registry.opened call.endpoint
      (traffic.service.sessionIds traffic.registry.tasks.length))).setStage n call
        (.spawning traffic.registry.tasks.length)) := by
  simp [route?, hcall, hstage, hnone, hsurvives, Registry.openSession_of_open hnone hopen]

theorem route?_of_spawning {id : TaskId} (hcall : traffic.calls[n]? = some call)
    (hstage : call.stage = .spawning id) :
    traffic.route? n =
      some ((traffic.withRegistry (traffic.registry.spawn id)).setStage n call (.sending id)) := by
  simp [route?, hcall, hstage]

variable [Store σ]

theorem run_cons (shards : Shards) (action : Action) (actions : List Action) :
    traffic.run shards (action :: actions) = (traffic.step shards action).run shards actions := rfl

theorem step_route {after : Traffic σ} (shards : Shards) (h : traffic.route? n = some after) :
    traffic.step shards (.route n) = after := by
  simp [step, step?, h]

/-- A call that is over takes no further step. -/
theorem run_route_of_returned (shards : Shards) {accepted : Bool}
    (hcall : traffic.calls[n]? = some call) (hstage : call.stage = .returned accepted) (k : Nat) :
    traffic.run shards (List.replicate k (.route n)) = traffic := by
  have hstep : traffic.step shards (.route n) = traffic := by
    simp [step, step?, route?, hcall, hstage]
  induction k with
  | zero => rfl
  | succ k ih => rw [List.replicate_succ, run_cons, hstep, ih]

/-- A call that knows its task queues its sample there, and is over. -/
theorem run_route_of_sending (shards : Shards) {id : TaskId}
    (hcall : traffic.calls[n]? = some call) (hstage : call.stage = .sending id) (k : Nat) :
    let sent := traffic.registry.send id call.sample
    let after := traffic.run shards (List.replicate (k + 1) (.route n))
    after.service = { traffic.service with registry := sent.2 } ∧
      after.calls[n]? = some { call with stage := .returned sent.1 } := by
  intro sent after
  have hroute : ∃ posted, traffic.route? n =
      some { (traffic.withRegistry sent.2).setStage n call (.returned sent.1) with posted } := by
    unfold route?
    simp only [hcall, hstage]
    split
    · exact ⟨_, rfl⟩
    · exact ⟨traffic.posted, rfl⟩
  obtain ⟨posted, hroute⟩ := hroute
  have hreturned := getElem?_calls_setStage
    { traffic.withRegistry sent.2 with posted } hcall (.returned sent.1)
  have hafter : after =
      { (traffic.withRegistry sent.2).setStage n call (.returned sent.1) with posted } := by
    change traffic.run shards (List.replicate (k + 1) (.route n)) = _
    rw [List.replicate_succ, run_cons, step_route shards hroute]
    exact run_route_of_returned shards hreturned rfl k
  rw [hafter]
  exact ⟨rfl, hreturned⟩

/-- A call that opened a session spawns its task and queues its sample there. -/
theorem run_route_of_spawning (shards : Shards) {id : TaskId}
    (hcall : traffic.calls[n]? = some call) (hstage : call.stage = .spawning id) :
    let sent := (traffic.registry.spawn id).send id call.sample
    let after := traffic.run shards (List.replicate 2 (.route n))
    after.service = { traffic.service with registry := sent.2 } ∧
      after.calls[n]? = some { call with stage := .returned sent.1 } := by
  have hsending := getElem?_calls_setStage
    (traffic.withRegistry (traffic.registry.spawn id)) hcall (.sending id)
  rw [List.replicate_succ, run_cons, step_route shards (route?_of_spawning hcall hstage)]
  exact run_route_of_sending shards hsending rfl 0

/-- A call that survives and whose steps are not interrupted does what `Service.route` does. -/
theorem run_route (shards : Shards) (hcall : traffic.calls[n]? = some call)
    (hstage : call.stage = .looking)
    (hsurvives : traffic.registry.isFatal call.endpoint = false) :
    let routed := traffic.service.route call.endpoint call.sample
    let after := traffic.run shards (List.replicate 4 (.route n))
    after.service = routed.2.2 ∧
      after.calls[n]? = some { call with stage := .returned routed.1 } := by
  have hopening := getElem?_calls_setStage _ hcall .opening
  unfold Service.route Registry.route
  rw [List.replicate_succ, run_cons]
  cases hlookup : traffic.registry.lookup? call.endpoint with
  | some id =>
      rw [step_route shards (route?_of_found hcall (.inl hstage) hlookup)]
      exact run_route_of_sending shards (getElem?_calls_setStage _ hcall (.sending id)) rfl 2
  | none =>
      rw [step_route shards (route?_of_missed hcall hstage hlookup), List.replicate_succ, run_cons]
      cases hclosed : traffic.registry.closed with
      | true =>
          have hreturned := getElem?_calls_setStage _ hopening (.returned false)
          rw [step_route shards (route?_of_closed hopening rfl hlookup hclosed),
            run_route_of_returned shards hreturned rfl 2]
          simp only [Registry.openSession_of_closed hlookup hclosed]
          exact ⟨rfl, hreturned⟩
      | false =>
          have hspawning := getElem?_calls_setStage
            ((traffic.setStage n call .opening).withRegistry
              (traffic.registry.opened call.endpoint
                (traffic.service.sessionIds traffic.registry.tasks.length)))
            hopening (.spawning traffic.registry.tasks.length)
          have hsent := run_route_of_spawning shards hspawning rfl
          rw [step_route shards (route?_of_opened hopening rfl hlookup hclosed hsurvives)]
          simp only [Registry.openSession_of_open hlookup hclosed]
          exact hsent

end Traffic

end RaceIngest
