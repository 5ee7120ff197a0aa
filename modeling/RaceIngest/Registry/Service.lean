import RaceIngest.Registry.Basic
import RaceIngest.Session.World

/-!
# Sessions at work

A `Service` is a registry together with the world its sessions run against. Its steps are those of
routing and of the tasks. A request of a busy task takes two steps, `Service.call?` and
`Service.complete?`, so a call to the store may take time while everything else goes on. Whether it
fails is settled when it is called.

Nothing here says in which order steps are taken: any sequence of enabled steps is a run. One
particular order, driven by a clock, is in `RaceIngest.Registry.Clock`.

## Main definitions

* `Service` and `Service.route`,
* `TaskStep`, `Service.step?`.
-/

namespace RaceIngest

/-- A registry and the world of its sessions. -/
structure Service (σ : Type) where
  registry : Registry
  world : World σ
  /-- The supply of identifiers of sessions. -/
  sessionIds : Nat → Uuid

/-- The steps of a task. -/
inductive TaskStep where
  | start
  | leave
  | receive
  | tick
  | unregister
  | closeQueue
  | drain
  | conclude
  | call
  | complete
  | settle
  deriving DecidableEq, Repr

namespace Service

variable {σ : Type}

/-- Routes a sample. -/
def route (service : Service σ) (endpoint : String) (sample : Sample) :
    Bool × Option TaskId × Service σ :=
  let sessionId := service.sessionIds service.registry.tasks.length
  let (accepted, id, registry) := service.registry.route endpoint sessionId sample
  (accepted, id, { service with registry })

/-- The first request of the script of a busy task is called. -/
def call? (service : Service σ) (id : TaskId) : Option (Service σ) :=
  match service.registry.task? id with
  | none => none
  | some task =>
    match task.stage with
    | .busy work (.ask request next) none =>
      let (fails, world) := service.world.call request
      let stage := .busy work (.ask request next) (some fails)
      some { service with
        registry := service.registry.setTask id { task with stage }
        world }
    | _ => none

/-- A request that was called is carried out, and the script goes on with the answer. -/
def complete? [Store σ] (service : Service σ) (id : TaskId) : Option (Service σ) :=
  match service.registry.task? id with
  | none => none
  | some task =>
    match task.stage with
    | .busy work (.ask request next) (some fails) =>
      let (reply, world) := service.world.act fails request
      let stage := .busy work (next reply) none
      some { service with
        registry := service.registry.setTask id { task with stage }
        world }
    | _ => none

/-- Takes a step of a task at a moment; `none` when it is not the task's turn. -/
def step? [Store σ] (service : Service σ) (now : Nat) (id : TaskId) : TaskStep → Option (Service σ)
  | .call => service.call? id
  | .complete => service.complete? id
  | .unregister => (service.registry.unregister? id).map ({ service with registry := · })
  | .start => onTask (Task.start? service.registry.interval now)
  | .leave => onTask Task.leave?
  | .receive => onTask Task.receive?
  | .tick => onTask (Task.tick? service.registry.interval now)
  | .closeQueue => onTask Task.closeQueue?
  | .drain => onTask Task.drain?
  | .conclude => onTask Task.conclude?
  | .settle => onTask Task.settle?
where
  /-- A step that touches only the task. -/
  onTask (step : Task → Option Task) : Option (Service σ) :=
    (service.registry.stepTask? id step).map ({ service with registry := · })

end Service

end RaceIngest
