import RaceIngest.Session.Basic

/-!
# Running sessions

A `World` is what sessions run against: a store, a supply of clock readings and identifiers, and
what was observed so far, that is the calls to the store, the samples it took, and the events that
were published. An `Outage` says which calls of the store fail; a failing call has no effect.

A request is answered in two steps, because a store may take its time: `World.call` records that
an insert or an update was called and settles whether the call fails, and `World.act` lets it
happen. A query is recorded with its answer.

## Main definitions

* `Outage`, `Call`, `World`,
* `World.call`, `World.act`, `World.answer`,
* `Operation` and `World.perform`, the operations on one session.
-/

namespace RaceIngest

open Calendar

/-- Which calls of a store fail, by the number of calls before it and its method. -/
abbrev Outage := Nat → Method → Bool

/-- No call fails. -/
def Outage.none : Outage := fun _ _ => false

/-- Exactly the calls of some methods fail. -/
def Outage.ofMethods (methods : List Method) : Outage := fun _ method => methods.contains method

/-- The error of a call that fails because of an outage. -/
def Outage.error : StorageError := .io "outage"

/-- A call to a store. -/
inductive Call where
  | upsert (races : List Race)
  | insert (race : Race) (samples : List Recorded)
  | last (race : Uuid) (result : Except StorageError Recorded)

/-- What sessions run against. -/
structure World (σ : Type) where
  store : σ
  outage : Outage := .none
  /-- How many calls the store was asked to carry out. -/
  called : Nat := 0
  /-- The calls so far, oldest first. -/
  calls : List Call := []
  /-- The samples that the store took, oldest first. -/
  kept : List Recorded := []
  /-- The events so far, oldest first. -/
  events : List Event := []
  /-- The readings of the clock. -/
  readings : Nat → Timestamp
  /-- How often the clock was read. -/
  read : Nat := 0
  /-- The supply of identifiers. -/
  ids : Nat → Uuid
  /-- How many identifiers were given out. -/
  issued : Nat := 0

namespace World

variable {σ : Type}

/-- Records that an insert or an update was called. -/
def note (world : World σ) : Request → World σ
  | .insert race samples => { world with calls := world.calls ++ [.insert race samples] }
  | .upsert races => { world with calls := world.calls ++ [.upsert races] }
  | _ => world

/-- Whether a request fails when it is made now, because of an outage. -/
def fails (world : World σ) (request : Request) : Bool :=
  request.method?.any (world.outage world.called)

/-- Calls the store, if a request does that. The result says whether the call will fail. -/
def call (world : World σ) (request : Request) : Bool × World σ :=
  let called := if request.method?.isSome then world.called + 1 else world.called
  (world.fails request, { world.note request with called })

/-- Carries out a request that was called, given whether it fails. -/
def act [Store σ] (world : World σ) (fails : Bool) : (r : Request) → r.Answer × World σ
  | .insert race samples =>
    if fails then (.error Outage.error, world)
    else
      let (result, store) := Store.insertSamples world.store race samples
      let kept :=
        match result with
        | .ok () => world.kept ++ samples
        | .error _ => world.kept
      (result, { world with store, kept })
  | .upsert races =>
    if fails then (.error Outage.error, world)
    else
      let (result, store) := Store.upsertRaces world.store races
      (result, { world with store })
  | .last race =>
    let result := if fails then .error Outage.error else Store.lastSample world.store race
    (result, { world with calls := world.calls ++ [.last race result] })
  | .publish event => ((), { world with events := world.events ++ [event] })
  | .clock => (world.readings world.read, { world with read := world.read + 1 })
  | .freshId => (world.ids world.issued, { world with issued := world.issued + 1 })

/-- Answers a request at once. -/
def answer [Store σ] (r : Request) (world : World σ) : r.Answer × World σ :=
  let (fails, world) := world.call r
  world.act fails r

end World

/-- An operation on a session. -/
inductive Operation where
  | add (sample : Sample)
  | checkpoint
  | close
  deriving DecidableEq

/-- The script of an operation. -/
def Operation.script (session : Session) : Operation → Script Session
  | .add sample => session.add sample
  | .checkpoint => session.checkpoint
  | .close => session.close

namespace World

variable {σ : Type} [Store σ]

/-- Performs an operation on a session. -/
def perform (operation : Operation) (state : Session × World σ) : Session × World σ :=
  (operation.script state.1).run World.answer state.2

/-- Performs operations one after the other. -/
def performAll (operations : List Operation) (state : Session × World σ) : Session × World σ :=
  operations.foldl (fun state operation => perform operation state) state

theorem performAll_append (first second : List Operation) (state : Session × World σ) :
    performAll (first ++ second) state = performAll second (performAll first state) :=
  List.foldl_append

end World

end RaceIngest
