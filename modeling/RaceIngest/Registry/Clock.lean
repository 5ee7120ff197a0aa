import RaceIngest.Registry.Service

/-!
# Sessions under a clock

A `ClockedService` runs the steps of a service in one particular order, on a clock that moves only
when everything is at rest. Tasks that can go on run one after the other, in the order in which
they became able to, each until it has to wait: for a sample or its next checkpoint in the loop, or
for a call to the store that takes time. In the loop closing goes before samples, and samples
before checkpoints.

Time passes in whole milliseconds. When nothing can run, the clock moves to the next moment at
which a task waits to be woken, and the tasks that wait for it run in the order in which they began
to wait.

## Main definitions

* `ClockedService`,
* `ClockedService.runTask`, `ClockedService.settle`,
* `ClockedService.advanceTo`, `ClockedService.wait`.
-/

namespace RaceIngest

/-- Nanoseconds of a millisecond, the grain of the clock. -/
def clockGrain : Nat := 1000000

/-- The first moment of the clock that is not before a time. -/
def clockCeil (time : Nat) : Nat := (time + clockGrain - 1) / clockGrain * clockGrain

/-- A task that waits for a moment: for its next checkpoint, or for the store to answer. -/
structure Sleeper where
  task : TaskId
  moment : Nat
  inCall : Bool
  deriving DecidableEq

/-- A service with a clock. -/
structure ClockedService (σ : Type) where
  service : Service σ
  /-- The time, in nanoseconds. -/
  now : Nat := 0
  /-- How long every call to the store takes, in nanoseconds. -/
  delay : Nat := 0
  /-- The tasks that can run, in the order in which they became able to. -/
  ready : List TaskId := []
  /-- The tasks that wait for a moment, in the order in which they began to. -/
  sleepers : List Sleeper := []

/-- How a task goes on when it runs. -/
inductive Turn where
  /-- It takes a step. -/
  | step (step : TaskStep)
  /-- It takes a step and then waits until a moment for the answer of the store. -/
  | callUntil (moment : Nat)
  /-- It waits until a moment, or until it is woken. -/
  | sleepUntil (moment : Nat)
  /-- It goes on waiting for the store. -/
  | rest
  /-- It is over. -/
  | over

namespace ClockedService

variable {σ : Type}

/-- Whether a task waits for the answer of the store. -/
def isInCall (clocked : ClockedService σ) (id : TaskId) : Bool :=
  clocked.sleepers.any fun sleeper => sleeper.task == id && sleeper.inCall

/-- How a task goes on. -/
def turn (clocked : ClockedService σ) (id : TaskId) (task : Task) : Turn :=
  match task.stage with
  | .opened | .ended | .dead => .over
  | .spawned => .step .start
  | .waiting due =>
    if task.cancelled then .step .leave
    else if !task.queue.samples.isEmpty then .step .receive
    else if due ≤ clocked.now then .step .tick
    else .sleepUntil (clockCeil due)
  | .busy _ (.done _) _ => .step .settle
  | .busy _ (.ask request _) fate =>
    if fate.isSome then
      if clocked.isInCall id then .rest else .step .complete
    else if request.method?.isSome && clocked.delay != 0 then .callUntil (clocked.now + clocked.delay)
    else .step .call
  | .leaving => .step .unregister
  | .unregistered => .step .closeQueue
  | .draining => .step (if task.queue.samples.isEmpty then .conclude else .drain)

/-- Forgets what a task waits for. -/
def forget (clocked : ClockedService σ) (id : TaskId) : ClockedService σ :=
  { clocked with sleepers := clocked.sleepers.filter fun sleeper => sleeper.task != id }

/-- Lets a task wait. One that already waits for the same keeps its place. -/
def sleep (clocked : ClockedService σ) (sleeper : Sleeper) : ClockedService σ :=
  if clocked.sleepers.contains sleeper then clocked
  else
    let clocked := clocked.forget sleeper.task
    { clocked with sleepers := clocked.sleepers ++ [sleeper] }

/-- Runs a task until it has to wait, for at most a number of turns. -/
def runTurns [Store σ] (id : TaskId) : Nat → ClockedService σ → ClockedService σ
  | 0, clocked => clocked
  | turns + 1, clocked =>
    match clocked.service.registry.task? id with
    | none => clocked
    | some task =>
      match clocked.turn id task with
      | .over => clocked.forget id
      | .rest => clocked
      | .sleepUntil moment => clocked.sleep ⟨id, moment, false⟩
      | .callUntil moment =>
        match clocked.service.step? clocked.now id .call with
        | none => clocked
        | some service => { clocked with service }.sleep ⟨id, moment, true⟩
      | .step step =>
        match clocked.service.step? clocked.now id step with
        | none => clocked
        | some service => runTurns id turns { clocked with service }

/-- Turns that are more than enough for a task with some queued samples: every sample takes a
bounded number of requests, each two turns, and so do a checkpoint and the end of a session. -/
def turnsFor (queued : Nat) : Nat := 64 * (queued + 16)

/-- Runs a task until it has to wait. -/
def runTask [Store σ] (clocked : ClockedService σ) (id : TaskId) : ClockedService σ :=
  match clocked.service.registry.task? id with
  | none => clocked
  | some task => runTurns id (turnsFor task.queue.samples.length) clocked

/-- Runs all tasks that can run. Tasks do not wake each other, so one round is enough. -/
def settle [Store σ] (clocked : ClockedService σ) : ClockedService σ :=
  clocked.ready.foldl runTask { clocked with ready := [] }

/-- Makes a task able to run. -/
def wake (clocked : ClockedService σ) (id : TaskId) : ClockedService σ :=
  if clocked.ready.contains id then clocked else { clocked with ready := clocked.ready ++ [id] }

/-- Routes a sample and makes its session able to run. -/
def route (clocked : ClockedService σ) (endpoint : String) (sample : Sample) :
    Bool × ClockedService σ :=
  let (accepted, id, service) := clocked.service.route endpoint sample
  let clocked := { clocked with service }
  (accepted,
    match id with
    | some id => clocked.wake id
    | none => clocked)

/-- Applies a change to the registry. -/
def onRegistry (clocked : ClockedService σ) (change : Registry → Registry) : ClockedService σ :=
  { clocked with
    service := { clocked.service with registry := change clocked.service.registry } }

/-- Tells every session to close and makes them able to run. -/
def closeAll (clocked : ClockedService σ) : ClockedService σ :=
  let live := clocked.service.registry.table.map Prod.snd
  live.foldl wake (clocked.onRegistry Registry.closeAll)

/-- The next moment some task waits for. -/
def nextMoment? (clocked : ClockedService σ) : Option Nat :=
  (clocked.sleepers.map Sleeper.moment).min?

/-- Moves the clock and makes the tasks able to run that wait for no later moment. -/
def moveTo (clocked : ClockedService σ) (moment : Nat) : ClockedService σ :=
  let (due, sleepers) := clocked.sleepers.partition fun sleeper => sleeper.moment ≤ moment
  let due := due.mergeSort fun a b => a.moment ≤ b.moment
  due.foldl (fun clocked sleeper => clocked.wake sleeper.task) { clocked with now := moment, sleepers }

/-- Lets tasks run at all moments before `target` at which one waits to be woken, stopping early
when `stop` holds at rest. The result says whether it was stopped. -/
def passBefore [Store σ] (stop : ClockedService σ → Bool) (target : Nat) :
    Nat → ClockedService σ → Bool × ClockedService σ
  | 0, clocked => (false, clocked)
  | moments + 1, clocked =>
    if stop clocked then (true, clocked)
    else
      match clocked.nextMoment? with
      | none => (false, clocked)
      | some moment =>
        if moment < target then passBefore stop target moments ((clocked.moveTo moment).settle)
        else (false, clocked)

/-- Waits until `stop` holds, at most for some time. The result says whether it held in time. Tasks
run only when there is something to wait for and time to do so. At the end of the time the tasks
that wait for that moment become able to run. -/
def wait [Store σ] (stop : ClockedService σ → Bool) (time : Nat) (clocked : ClockedService σ) :
    Bool × ClockedService σ :=
  if stop clocked || time == 0 then (stop clocked, clocked)
  else
    let target := clocked.now + time
    match passBefore stop target (time / clockGrain + 2) clocked.settle with
    | (true, clocked) => (true, clocked)
    | (false, clocked) => (false, clocked.moveTo target)

/-- Lets some time pass. -/
def pass [Store σ] (time : Nat) (clocked : ClockedService σ) : ClockedService σ :=
  (wait (fun _ => false) time clocked).2

end ClockedService

end RaceIngest
