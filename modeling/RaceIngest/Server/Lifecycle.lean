import RaceIngest.Error

/-!
# The life cycle of a listener

A listener is stopped, starting while one caller binds its socket, or listening. Its state is
guarded by a lock, and every function here is one section under that lock, or the cancellation of
a token, which needs none:

* a call to listen claims the listener with a fresh token, binds without holding the lock, and
  completes or gives up its claim in a second section. When its token was cancelled in between, the
  state belongs to someone else and is left alone;
* a call to shut down takes the state, which leaves the listener stopped, and cancels the token it
  found afterwards.

So a second call to listen is refused while the first is binding or listening, and a listener that
was shut down may be started again at once.

## Main definitions

* `ListenerState`, `Lifecycle`,
* `Lifecycle.claim`, `Lifecycle.completeBind`, `Lifecycle.take`, `Lifecycle.cancel`,
* `Lifecycle.running`, `Lifecycle.addr?`.
-/

namespace RaceIngest

/-- The number of a call to listen, by which it is told to stop. -/
abbrev Token := Nat

/-- What a listener is doing. -/
inductive ListenerState where
  | stopped
  | starting (token : Token)
  | listening (token : Token) (addr : String)
  deriving DecidableEq, Repr

/-- The state of a listener and the tokens that were given out and cancelled. -/
structure Lifecycle where
  state : ListenerState := .stopped
  issued : Nat := 0
  cancelled : List Token := []
  deriving DecidableEq, Repr

namespace Lifecycle

/-- Claims a stopped listener with a fresh token. -/
def claim (lifecycle : Lifecycle) : Except Error Token × Lifecycle :=
  match lifecycle.state with
  | .stopped =>
    let token := lifecycle.issued
    (.ok token, { lifecycle with state := .starting token, issued := token + 1 })
  | _ => (.error .alreadyRunning, lifecycle)

/-- Whether a token was cancelled. -/
def isCancelled (lifecycle : Lifecycle) (token : Token) : Bool := lifecycle.cancelled.contains token

/-- Completes a claim with what binding the configured address gave: the address of the socket, or
nothing when it could not be bound. -/
def completeBind (lifecycle : Lifecycle) (token : Token) (configured : String)
    (bound : Option String) : Except Error Unit × Lifecycle :=
  if lifecycle.isCancelled token then (.error .serverClosed, lifecycle)
  else
    match bound with
    | none => (.error (.bind configured), { lifecycle with state := .stopped })
    | some addr => (.ok (), { lifecycle with state := .listening token addr })

/-- Takes the state and leaves the listener stopped. -/
def take (lifecycle : Lifecycle) : ListenerState × Lifecycle :=
  (lifecycle.state, { lifecycle with state := .stopped })

/-- Cancels a token. -/
def cancel (lifecycle : Lifecycle) (token : Token) : Lifecycle :=
  { lifecycle with cancelled := token :: lifecycle.cancelled }

/-- Whether the socket is bound and the listener was not shut down. -/
def running (lifecycle : Lifecycle) : Bool :=
  match lifecycle.state with
  | .listening _ _ => true
  | _ => false

/-- The address of the bound socket. -/
def addr? (lifecycle : Lifecycle) : Option String :=
  match lifecycle.state with
  | .listening _ addr => some addr
  | _ => none

theorem running_eq_isSome_addr? (lifecycle : Lifecycle) :
    lifecycle.running = lifecycle.addr?.isSome := by
  unfold running addr?
  split <;> rfl

theorem claim_eq_ok_iff (lifecycle : Lifecycle) :
    (∃ token, lifecycle.claim.1 = .ok token) ↔ lifecycle.state = .stopped := by
  unfold claim
  split <;> simp_all

@[simp] theorem isCancelled_cancel (lifecycle : Lifecycle) (token : Token) :
    (lifecycle.cancel token).isCancelled token = true := by
  simp [cancel, isCancelled]

end Lifecycle

end RaceIngest
