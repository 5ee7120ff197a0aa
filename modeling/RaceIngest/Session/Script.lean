import RaceIngest.Store.Basic

/-!
# Session scripts

What a session does is a `Script`: a sequence of requests to its surroundings, each chosen after
the answers to those before it, with a result at the end. Requests are the three operations on a
store, the publication of an event, a reading of the clock, and a fresh identifier.

A script says nothing about who answers. The same script is run to its end against a store
(`World`), or stopped at a request and continued later, while other sessions go on, when store
operations take time. Statements about a session that hold for every way of answering are
statements about its script.

## Main definitions

* `Request` and `Request.Answer`,
* `Script` with its monad structure,
* `Script.run`, which answers from a state.
-/

namespace RaceIngest

open Calendar

/-- What a session asks for. -/
inductive Request where
  | insert (race : Race) (samples : List Recorded)
  | upsert (races : List Race)
  | last (race : Uuid)
  | publish (event : Event)
  | clock
  | freshId
  deriving DecidableEq

/-- What a request is answered with. -/
abbrev Request.Answer : Request → Type
  | .insert _ _ => Except StorageError Unit
  | .upsert _ => Except StorageError Unit
  | .last _ => Except StorageError Recorded
  | .publish _ => Unit
  | .clock => Timestamp
  | .freshId => Uuid

/-- The store operation that a request is, if it is one. -/
def Request.method? : Request → Option Method
  | .insert _ _ => some .insertSamples
  | .upsert _ => some .upsertRaces
  | .last _ => some .lastSample
  | .publish _ | .clock | .freshId => none

/-- A sequence of requests that ends with a result. -/
inductive Script (α : Type) : Type where
  | done (result : α)
  | ask (request : Request) (next : request.Answer → Script α)

namespace Script

variable {α β : Type}

/-- Goes on after a script. -/
def bind (script : Script α) (next : α → Script β) : Script β :=
  match script with
  | .done result => next result
  | .ask request rest => .ask request fun answer => (rest answer).bind next

instance : Monad Script where
  pure := .done
  bind := bind

@[simp] theorem pure_eq_done (a : α) : (pure a : Script α) = .done a := rfl

@[simp] theorem done_bind (a : α) (next : α → Script β) : (Script.done a >>= next) = next a := rfl

@[simp] theorem ask_bind (request : Request) (rest : request.Answer → Script α)
    (next : α → Script β) :
    (Script.ask request rest >>= next) = .ask request fun answer => rest answer >>= next := rfl

theorem bind_done (script : Script α) : (script >>= Script.done) = script := by
  induction script with
  | done a => rfl
  | ask request rest ih => simp only [ask_bind]; congr 1; funext answer; exact ih answer

theorem bind_bind {γ : Type} (script : Script α) (next : α → Script β) (last : β → Script γ) :
    ((script >>= next) >>= last) = (script >>= fun a => next a >>= last) := by
  induction script with
  | done a => rfl
  | ask request rest ih => simp only [ask_bind]; congr 1; funext answer; exact ih answer

/-- One request, with its answer as the result. -/
def request (r : Request) : Script r.Answer := .ask r .done

/-- Inserts samples of a race; whether that succeeded is the result. -/
def insert (race : Race) (samples : List Recorded) : Script (Except StorageError Unit) :=
  request (.insert race samples)

/-- Inserts or updates races; whether that succeeded is the result. -/
def upsert (races : List Race) : Script (Except StorageError Unit) := request (.upsert races)

/-- The last stored sample of a race. -/
def last (race : Uuid) : Script (Except StorageError Recorded) := request (.last race)

/-- Publishes an event. -/
def publish (event : Event) : Script Unit := request (.publish event)

/-- Reads the clock. -/
def clock : Script Timestamp := request .clock

/-- A fresh identifier. -/
def freshId : Script Uuid := request .freshId

/-- Runs a script to its end, answering every request from a state. -/
def run {σ : Type} (answer : (r : Request) → σ → r.Answer × σ) : Script α → σ → α × σ
  | .done result, state => (result, state)
  | .ask request next, state =>
    let (reply, state) := answer request state
    (next reply).run answer state

@[simp] theorem run_done {σ : Type} (answer : (r : Request) → σ → r.Answer × σ) (a : α)
    (state : σ) : (Script.done a).run answer state = (a, state) := rfl

theorem run_bind {σ : Type} (answer : (r : Request) → σ → r.Answer × σ) (script : Script α)
    (next : α → Script β) (state : σ) :
    (script >>= next).run answer state =
      (next (script.run answer state).1).run answer (script.run answer state).2 := by
  induction script generalizing state with
  | done a => rfl
  | ask request rest ih => exact ih _ _

end Script

end RaceIngest
