import RaceIngest.Registry.Task

/-!
# The registry of sessions

The `Registry` routes samples to one session per endpoint and opens sessions on first contact. Its
table maps the endpoints with a live session to the numbers of their tasks; tasks are numbered in
the order in which they were opened, and stay known after they left the table.

Routing a sample takes several atomic steps, between which tasks and other callers may go on:
looking the endpoint up, and when it is unknown opening a session, which checks that the registry
accepts sessions and puts the session into the table in one step, spawning its task, and finally
queueing the sample. `Registry.route` is these steps one after the other, for a caller that survives
them: one that has to open a session whose buffer or queue cannot be made dies before anything
changed.

Closing the registry refuses new sessions and tells every live session to close. Sessions that were
told to close keep taking samples until their queue closes, and wait for nothing but themselves;
`Registry.allEnded` says when all of them are over.

## Main definitions

* `Registry`, with `lookup?`, `openSession`, `isFatal`, `spawn`, `send`, `route`,
* `Registry.refuse`, `Registry.cancel`, `Registry.closeAll`, `Registry.reopen`,
* `Registry.unregister?`,
* `Registry.endpoints`, `Registry.pending`, `Registry.allEnded`.
-/

namespace RaceIngest

/-- The number of a task. -/
abbrev TaskId := Nat

/-- The live sessions and the tasks that run them. -/
structure Registry where
  interval : Duration
  queueCapacity : Nat
  bufferCapacity : Nat
  table : List (String × TaskId) := []
  tasks : List Task := []
  /-- Whether new sessions are refused. -/
  closed : Bool := false
  /-- Whether the end of all sessions may be waited for. -/
  awaitable : Bool := false

namespace Registry

/-- The registry of a configured server. -/
def ofConfig (config : ServerConfig) : Registry where
  interval := config.checkpointInterval
  queueCapacity := config.queueCapacity
  bufferCapacity := config.bufferCapacity

/-- The task with a number. -/
def task? (registry : Registry) (id : TaskId) : Option Task := registry.tasks[id]?

/-- The registry with a task changed. -/
def setTask (registry : Registry) (id : TaskId) (task : Task) : Registry :=
  { registry with tasks := registry.tasks.set id task }

/-- The registry after a step of one task, if it is the task's turn. -/
def stepTask? (registry : Registry) (id : TaskId) (step : Task → Option Task) : Option Registry :=
  ((registry.task? id).bind step).map (registry.setTask id)

/-! ## Routing -/

/-- The task of the live session of an endpoint. -/
def lookup? (registry : Registry) (endpoint : String) : Option TaskId :=
  registry.table.lookup endpoint

/-- Finds the session of an endpoint or puts a new one into the table, in one step. A closed
registry refuses. The session has the given identifier. -/
def openSession (registry : Registry) (endpoint : String) (sessionId : Uuid) :
    Option TaskId × Registry :=
  match registry.lookup? endpoint with
  | some id => (some id, registry)
  | none =>
    if registry.closed then (none, registry)
    else
      let id := registry.tasks.length
      let task : Task :=
        { endpoint
          session := { id := sessionId, capacity := registry.bufferCapacity }
          queue := { capacity := registry.queueCapacity } }
      (some id,
        { registry with
          table := registry.table ++ [(endpoint, id)]
          tasks := registry.tasks ++ [task] })

/-- Whether routing a sample of an endpoint kills the caller: a session would have to be opened, and
none can have the capacities that were asked for. -/
def isFatal (registry : Registry) (endpoint : String) : Bool :=
  (registry.lookup? endpoint).isNone && !registry.closed &&
    (sessionFailure? registry.bufferCapacity registry.queueCapacity).isSome

/-- Spawns the task of a session that was just opened. -/
def spawn (registry : Registry) (id : TaskId) : Registry :=
  (registry.stepTask? id Task.spawn?).getD registry

/-- Queues a sample for a task. -/
def send (registry : Registry) (id : TaskId) (sample : Sample) : Bool × Registry :=
  match registry.task? id with
  | none => (false, registry)
  | some task =>
    let (accepted, queue) := task.queue.send sample
    (accepted, registry.setTask id { task with queue })

/-- Routes a sample to the session of an endpoint. The result is whether it was queued, and the
task it went to; a new session has the given identifier. -/
def route (registry : Registry) (endpoint : String) (sessionId : Uuid) (sample : Sample) :
    Bool × Option TaskId × Registry :=
  match registry.lookup? endpoint with
  | some id =>
    let (accepted, registry) := registry.send id sample
    (accepted, some id, registry)
  | none =>
    match registry.openSession endpoint sessionId with
    | (none, registry) => (false, none, registry)
    | (some id, registry) =>
      let (accepted, registry) := (registry.spawn id).send id sample
      (accepted, some id, registry)

/-! ## Closing -/

/-- Refuses new sessions from now on. -/
def refuse (registry : Registry) : Registry := { registry with closed := true }

/-- Tells one session to close. -/
def cancel (registry : Registry) (id : TaskId) : Registry :=
  (registry.stepTask? id fun task => some { task with cancelled := true }).getD registry

/-- Lets the end of all sessions be waited for. -/
def await (registry : Registry) : Registry := { registry with awaitable := true }

/-- Refuses new sessions and tells every session in the table to close. -/
def closeAll (registry : Registry) : Registry :=
  (registry.table.foldl (fun registry (_, id) => registry.cancel id) registry.refuse).await

/-- Accepts sessions again. -/
def reopen (registry : Registry) : Registry := { registry with closed := false, awaitable := false }

/-- A task that left its loop gives up its place in the table, unless the place is no longer its
own. -/
def unregister? (registry : Registry) (id : TaskId) : Option Registry :=
  match registry.task? id with
  | none => none
  | some task =>
    match task.stage with
    | .leaving =>
      let table := registry.table.filter fun (endpoint, owner) =>
        !(endpoint == task.endpoint && owner == id)
      some ({ registry with table }.setTask id { task with stage := .unregistered })
    | _ => none

/-! ## Views -/

/-- The endpoints with a live session. -/
def endpoints (registry : Registry) : List String := registry.table.map Prod.fst

/-- How many tasks are not over. -/
def pending (registry : Registry) : Nat := registry.tasks.countP Task.isPending

/-- Whether waiting for the end of all sessions is over. -/
def allEnded (registry : Registry) : Bool := registry.awaitable && registry.pending == 0

end Registry

end RaceIngest
