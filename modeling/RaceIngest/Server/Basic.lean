import RaceIngest.Registry.Clock
import RaceIngest.Server.Lifecycle

/-!
# The telemetry server

A `Server` is a listener together with the sessions it feeds. Datagrams are told apart by the
endpoint they come from; those that hold no packet, and packets without a timestamp, are dropped
without a trace. Receiving never waits for a session.

A call to listen that returns does so with an error: at once when the listener is in use, after the
attempt to bind when that fails, and otherwise when its receive loop ended because it was told to
stop. With settings under which no session can be opened it dies of the first sample, and the
listener is none the wiser. Shutting down stops the receive loop, closes every session, and waits
for all of them at most until a deadline; sessions that are late go on closing. Shutting down a
stopped server does nothing, and a server that is still binding is only told to give up.

## Main definitions

* `ListenCall`, `Server`, `Server.ofConfig`,
* `Server.listen`, `Server.completeBind`, `Server.endLoops`,
* `Server.receive`,
* `Server.shutdown`,
* `newestEvents`, what a subscriber finds.
-/

namespace RaceIngest

/-- Where a call to listen is. -/
inductive ListenCall where
  | binding (token : Token)
  | receiving (token : Token)
  | returned (error : Error)
  /-- It died of a datagram. -/
  | died
  deriving DecidableEq, Repr

/-- How many events are kept for a subscriber that does not read them. -/
def eventCapacity : Nat := 256

/-- The events that a subscriber finds who did not read for a while: the newest of them. -/
def newestEvents (events : List Event) : List Event := events.drop (events.length - eventCapacity)

theorem length_newestEvents_le (events : List Event) :
    (newestEvents events).length ≤ eventCapacity := by
  simp [newestEvents]; omega

/-- A listener, its calls to listen so far, and its sessions. -/
structure Server (σ : Type) where
  config : ServerConfig
  lifecycle : Lifecycle := {}
  /-- The calls to listen, oldest first. -/
  calls : List ListenCall := []
  sessions : ClockedService σ

namespace Server

variable {σ : Type}

/-- A stopped server. A blank address stands for the default one. -/
def ofConfig (config : ServerConfig) (world : World σ) (sessionIds : Nat → Uuid) : Server σ :=
  let config := config.withAddress
  { config
    sessions := { service := { registry := .ofConfig config, world, sessionIds } } }

/-- Whether the socket is bound and the server was not shut down. -/
def running (server : Server σ) : Bool := server.lifecycle.running

/-- The address of the bound socket. -/
def addr? (server : Server σ) : Option String := server.lifecycle.addr?

/-- The endpoints with a live session. -/
def listeners (server : Server σ) : List String := server.sessions.service.registry.endpoints

/-! ## Listening -/

/-- A new call to listen claims the listener and begins to bind, or returns. -/
def listen (server : Server σ) : Server σ :=
  match server.lifecycle.claim with
  | (.ok token, lifecycle) =>
    { server with lifecycle, calls := server.calls ++ [.binding token] }
  | (.error error, lifecycle) =>
    { server with lifecycle, calls := server.calls ++ [.returned error] }

/-- A call that was binding goes on with what binding gave: it receives, and sessions are accepted,
or it returns. -/
def completeBind (server : Server σ) (call : Nat) (bound : Option String) : Server σ :=
  match server.calls[call]? with
  | some (.binding token) =>
    match server.lifecycle.completeBind token server.config.listenAddr bound with
    | (.ok (), lifecycle) =>
      { server with
        lifecycle
        calls := server.calls.set call (.receiving token)
        sessions := server.sessions.onRegistry Registry.reopen }
    | (.error error, lifecycle) =>
      { server with lifecycle, calls := server.calls.set call (.returned error) }
  | _ => server

/-- The numbers of the calls that are binding. -/
def bindingCalls (server : Server σ) : List Nat :=
  (List.range server.calls.length).filter fun call =>
    match server.calls[call]? with
    | some (.binding _) => true
    | _ => false

/-- Ends the receive loops that were told to stop. -/
def endLoops (server : Server σ) : Server σ :=
  { server with
    calls := server.calls.map fun call =>
      match call with
      | .receiving token =>
        if server.lifecycle.isCancelled token then .returned .serverClosed else call
      | _ => call }

/-! ## Receiving -/

/-- The sample that a datagram brings, if it is one to be recorded. -/
def sample? (datagram : List UInt8) : Option Sample :=
  match Wire.Packet.decode (datagram.take Wire.maxDatagramSize) with
  | .ok sample => if sample.hasTimestamp then some sample else none
  | .error _ => none

/-- Whether some call receives datagrams. -/
def isReceiving (server : Server σ) : Bool :=
  server.calls.any fun call =>
    match call with
    | .receiving _ => true
    | _ => false

/-- Receives a datagram from an endpoint, if some call does. -/
def receive (server : Server σ) (endpoint : String) (datagram : List UInt8) : Server σ :=
  match sample? datagram with
  | some sample =>
    if !server.isReceiving then server
    else if server.sessions.service.registry.isFatal endpoint then
      { server with
        calls := server.calls.map fun call =>
          match call with
          | .receiving _ => .died
          | _ => call }
    else { server with sessions := (server.sessions.route endpoint sample).2 }
  | none => server

/-! ## Shutting down -/

/-- Stops receiving, closes every session, and waits for all of them at most until a deadline. -/
def shutdown [Store σ] (server : Server σ) (deadline : Duration) : Except Error Unit × Server σ :=
  match server.lifecycle.take with
  | (.stopped, _) => (.ok (), server)
  | (.starting token, lifecycle) =>
    (.ok (), { server with lifecycle := lifecycle.cancel token })
  | (.listening token _, lifecycle) =>
    let server := { server with lifecycle := lifecycle.cancel token }.endLoops
    let ended (sessions : ClockedService σ) : Bool := sessions.service.registry.allEnded
    let (inTime, sessions) := server.sessions.closeAll.wait ended deadline.nanoseconds
    let pending := sessions.service.registry.pending
    (if inTime then .ok () else .error (.shutdownTimeout deadline pending), { server with sessions })

end Server

end RaceIngest
