import RaceIngest.Config.Basic
import RaceIngest.Session.Basic

/-!
# Session tasks

Every session runs in a task of its own. Samples reach it through a bounded `SampleQueue`, and
what the task does is a sequence of atomic steps, between which other tasks and callers go on:

* once started it waits in a loop, and leaves the wait when it was told to close, when a sample is
  queued, or when its checkpoint is due;
* a sample is added to the session, a due checkpoint flushes it. A checkpoint that is due although
  no sample was received since the last one ends the loop: the session is idle;
* after the loop the task gives up its place in the table, closes its queue, adds what is still
  queued, and closes the session.

Adding, flushing and closing are session scripts, carried out one request at a time. The steps that
touch only the task are here; each is `none` when it is not the task's turn for it.

## Main definitions

* `sessionFailure?`, `SampleQueue` with `send`, `receive?`, `close`,
* `Stage`, `Task`, and the steps `Task.start?`, `Task.leave?`, `Task.receive?`, `Task.tick?`,
  `Task.closeQueue?`, `Task.drain?`, `Task.conclude?`, `Task.settle?`.
-/

namespace RaceIngest

-- Powers are those of the core library, also where algebra is imported.
attribute [local instance (high)] instPowNat

/-- The bytes that a sample takes up in a buffer, together with its race and its time. -/
def recordedSize : Nat := 360

/-- Why no session can be opened whose buffer and queue have some capacities, if none can. The bytes
of a full buffer must be counted by a signed machine word, and the free places of a queue by a word
of which three bits are taken. -/
def sessionFailure? (bufferCapacity queueCapacity : Nat) : Option String :=
  if 2 ^ (63 : Nat) - 4 < recordedSize * bufferCapacity then some "capacity overflow"
  else if queueCapacity = 0 then some "mpsc bounded channel requires buffer > 0"
  else if 2 ^ (61 : Nat) ≤ queueCapacity then
    some "a semaphore may not have more than MAX_PERMITS permits (2305843009213693951)"
  else none

/-! ## Queues -/

/-- Samples that wait for a session: at most `capacity` of them, oldest first. -/
structure SampleQueue where
  capacity : Nat
  samples : List Sample := []
  isOpen : Bool := true
  deriving DecidableEq

namespace SampleQueue

/-- Queues a sample unless the queue is closed or full. -/
def send (queue : SampleQueue) (sample : Sample) : Bool × SampleQueue :=
  if queue.isOpen && decide (queue.samples.length < queue.capacity) then
    (true, { queue with samples := queue.samples ++ [sample] })
  else (false, queue)

/-- Takes the oldest sample. -/
def receive? (queue : SampleQueue) : Option (Sample × SampleQueue) :=
  match queue.samples with
  | [] => none
  | sample :: samples => some (sample, { queue with samples })

/-- Refuses further samples; those queued stay. -/
def close (queue : SampleQueue) : SampleQueue := { queue with isOpen := false }

end SampleQueue

/-! ## Tasks -/

/-- What the script of a busy task is for. Inside the loop the next checkpoint time is kept. -/
inductive Work where
  | adding (due : Nat)
  | flushing (due : Nat)
  | draining
  | closing
  deriving DecidableEq

/-- Where a task is. -/
inductive Stage where
  /-- In the table, but not spawned yet. -/
  | opened
  /-- Spawned, but not run yet. -/
  | spawned
  /-- In the loop, with the time of the next checkpoint in nanoseconds. -/
  | waiting (due : Nat)
  /-- Carrying out a script. While its first request is under way, `fate` tells whether that will
  fail. -/
  | busy (work : Work) (script : Script Session) (fate : Option Bool)
  /-- Out of the loop. -/
  | leaving
  /-- Out of the table. -/
  | unregistered
  /-- The queue is closed. -/
  | draining
  /-- The session is closed and the task over. -/
  | ended
  /-- The task died when it first ran, because its checkpoint interval is impossible. -/
  | dead

/-- A session and the task that runs it. -/
structure Task where
  endpoint : String
  session : Session
  queue : SampleQueue
  /-- Whether the task was told to close. -/
  cancelled : Bool := false
  /-- Whether a sample was received since the last checkpoint. -/
  received : Bool := false
  stage : Stage := .opened

/-- How many seconds a clock may already have counted. -/
def clockHeadroom : Nat := 2 ^ (20 : Nat)

/-- Whether a clock can tick at an interval: it is positive, and adding it to a clock reading stays
within the signed 64-bit seconds of clocks. -/
def isPossibleInterval (interval : Duration) : Bool :=
  !interval.isZero && decide (interval.seconds + clockHeadroom < 2 ^ (63 : Nat))

/-- How late a checkpoint may be, in nanoseconds, without moving the schedule. -/
def tickTolerance : Nat := 5000000

/-- The checkpoint after one that was due and is handled now: it keeps to the schedule unless it is
late beyond the tolerance, and then waits a full interval from now. -/
def nextDue (interval : Duration) (due now : Nat) : Nat :=
  if due + tickTolerance < now then now + interval.nanoseconds else due + interval.nanoseconds

namespace Task

/-- Whether waiting for sessions has to wait for this task. -/
def isPending (task : Task) : Bool :=
  match task.stage with
  | .opened | .ended | .dead => false
  | _ => true

/-- The task is spawned. -/
def spawn? (task : Task) : Option Task :=
  match task.stage with
  | .opened => some { task with stage := .spawned }
  | _ => none

/-- The task runs for the first time: it sets its first checkpoint, or dies with its queue when the
interval is impossible. -/
def start? (interval : Duration) (now : Nat) (task : Task) : Option Task :=
  match task.stage with
  | .spawned =>
    some <|
      if isPossibleInterval interval then
        { task with stage := .waiting (now + interval.nanoseconds) }
      else { task with stage := .dead, queue := { task.queue with samples := [], isOpen := false } }
  | _ => none

/-- A task that was told to close leaves its loop. -/
def leave? (task : Task) : Option Task :=
  match task.stage with
  | .waiting _ => if task.cancelled then some { task with stage := .leaving } else none
  | _ => none

/-- A queued sample is received in the loop. -/
def receive? (task : Task) : Option Task :=
  match task.stage with
  | .waiting due =>
    task.queue.receive?.map fun (sample, queue) =>
      { task with queue, received := true, stage := .busy (.adding due) (task.session.add sample) none }
  | _ => none

/-- A due checkpoint flushes the session, or ends the loop when nothing was received since the
last. -/
def tick? (interval : Duration) (now : Nat) (task : Task) : Option Task :=
  match task.stage with
  | .waiting due =>
    if due ≤ now then
      some <|
        if task.received then
          { task with
            received := false
            stage := .busy (.flushing (nextDue interval due now)) task.session.checkpoint none }
        else { task with stage := .leaving }
    else none
  | _ => none

/-- An unregistered task closes its queue. -/
def closeQueue? (task : Task) : Option Task :=
  match task.stage with
  | .unregistered => some { task with queue := task.queue.close, stage := .draining }
  | _ => none

/-- A sample that is still queued is added after the loop. -/
def drain? (task : Task) : Option Task :=
  match task.stage with
  | .draining =>
    task.queue.receive?.map fun (sample, queue) =>
      { task with queue, stage := .busy .draining (task.session.add sample) none }
  | _ => none

/-- With an empty queue the session is closed. -/
def conclude? (task : Task) : Option Task :=
  match task.stage with
  | .draining =>
    if task.queue.samples.isEmpty then
      some { task with stage := .busy .closing task.session.close none }
    else none
  | _ => none

/-- Where a task goes on when a script is done. -/
def stageAfter : Work → Stage
  | .adding due | .flushing due => .waiting due
  | .draining => .draining
  | .closing => .ended

/-- A script that is done gives the session its new state. -/
def settle? (task : Task) : Option Task :=
  match task.stage with
  | .busy work (.done session) none => some { task with session, stage := stageAfter work }
  | _ => none

end Task

end RaceIngest
