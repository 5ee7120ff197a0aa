import RaceIngest.Proofs.Registry.Moves
import RaceIngest.Server.Basic

/-!
# A server and its callers

A `Station` is a server together with the calls that are at work on it: calls to listen, calls to
shut down, and the traffic on its registry. Any number of them go on side by side, each in the steps
that are atomic in it:

* a call to listen claims the listener under the lock, binds without it, and goes on with what
  binding gave under the lock again. Then it receives one datagram after the other, until it finds
  its token cancelled. It also ends when its socket cannot be read, and it dies of a sample for
  which no session can be made;
* a call to shut down takes the state under the lock, and only after that it cancels the token that
  it took. When the listener was listening it goes on to close the registry, as one of the closers
  of the traffic, and waits for the sessions until its deadline, which may pass at any moment.

Between the two steps of a call to shut down the listener counts as stopped, while the call to
listen whose token was taken does not know yet. Two histories beside the state tell what comes of
that: the tokens with which the listener was switched to listening although they had been taken, and
whether, when it was last switched, some call to shut down was still to refuse new sessions. A third
has the tokens of the calls that ended without being told to.

## Main definitions

* `ShutdownStage`, `ShutdownCall`, `Station`, `ServerAction`,
* `Station.step?`, `Station.run`, `Station.fresh`.

## Main results

* `Server.station_listen`, `Server.station_completeBind`, `Server.lifecycle_shutdown`: calls that
  are not interrupted do to the listener what `Server.listen`, `Server.completeBind` and
  `Server.shutdown` do.
-/

namespace RaceIngest

/-! ## Callers -/

/-- Where a call to shut down is. -/
inductive ShutdownStage where
  /-- It took the state of a listener that was binding, and is about to cancel its token. -/
  | abandoning (token : Token)
  /-- It took the state of a listener that was listening, and is about to cancel its token. -/
  | silencing (token : Token)
  /-- It closes the registry, as the closer with this number. -/
  | closing (closer : Nat)
  /-- It has closed the registry and does not wait yet. -/
  | closed
  /-- It waits for the end of all sessions, which was reached in the meantime or not. -/
  | waiting (reached : Bool)
  /-- It returned, with an error or not. -/
  | returned (error : Option Error)
  deriving DecidableEq

/-- A call to shut down. -/
structure ShutdownCall where
  deadline : Duration
  stage : ShutdownStage
  deriving DecidableEq

namespace ShutdownCall

/-- Whether a call has taken a token and not cancelled it yet. -/
def holds (call : ShutdownCall) (token : Token) : Bool :=
  match call.stage with
  | .abandoning held | .silencing held => held == token
  | _ => false

/-- Whether a call is about to close the registry. -/
def isSilencing (call : ShutdownCall) : Bool :=
  match call.stage with
  | .silencing _ => true
  | _ => false

/-- A call that waits for the end of all sessions learns that it was reached. -/
def notice (call : ShutdownCall) : ShutdownCall :=
  match call.stage with
  | .waiting _ => { call with stage := .waiting true }
  | _ => call

end ShutdownCall

/-- Whether a call that routes a sample is over. -/
def RouteStage.isOver : RouteStage → Bool
  | .returned _ | .died => true
  | _ => false

/-- A server and the calls that are at work on it. -/
structure Station (σ : Type) where
  /-- The address that is to be bound. -/
  address : String
  lifecycle : Lifecycle := {}
  /-- The calls to listen, in the order in which they began. -/
  listens : List ListenCall := []
  /-- The calls to shut down, in the order in which they began. -/
  shutdowns : List ShutdownCall := []
  traffic : Traffic σ
  /-- For every call that routes a sample, the call to listen that received it. -/
  owners : List Nat := []
  /-- The tokens with which the listener was switched to listening after they had been taken. -/
  overtaken : List Token := []
  /-- The tokens of calls that stopped receiving without being told to. -/
  broken : List Token := []
  /-- Whether some call was still to refuse new sessions when the listener was last switched. -/
  overlapping : Bool := false

/-- One atomic step of a call to a server, or of the traffic on it. -/
inductive ServerAction where
  /-- A call to listen claims the listener, or is refused. -/
  | listen
  /-- A call to listen goes on with what binding gave. -/
  | bind (n : Nat) (bound : Option String)
  /-- A call to listen receives a datagram. -/
  | receive (n : Nat) (endpoint : String) (datagram : List UInt8)
  /-- A sample that was received is routed one step further. -/
  | route (r : Nat)
  /-- A session task takes a step at a moment. -/
  | task (now : Nat) (id : TaskId) (step : TaskStep)
  /-- A call to listen finds that it was told to stop. -/
  | stop (n : Nat)
  /-- A call to listen cannot read its socket. -/
  | fail (n : Nat)
  /-- A call to shut down takes the state. -/
  | shutdown (deadline : Duration)
  /-- A call to shut down cancels the token that it took. -/
  | cancel (s : Nat)
  /-- A call to shut down goes on closing the registry. -/
  | close (s : Nat)
  /-- A call to shut down tells the session of an endpoint to close. -/
  | sweep (s : Nat) (endpoint : String)
  /-- A call to shut down begins to wait. -/
  | watch (s : Nat)
  /-- A call to shut down finds that all sessions have ended. -/
  | resolve (s : Nat)
  /-- The deadline of a call to shut down passes. -/
  | expire (s : Nat)
  deriving DecidableEq

namespace Station

variable {σ : Type}

/-! ## Steps -/

/-- The registry of the server. -/
abbrev registry (station : Station σ) : Registry := station.traffic.registry

/-- The station with a call to listen at another stage. -/
def setListen (station : Station σ) (n : Nat) (call : ListenCall) : Station σ :=
  { station with listens := station.listens.set n call }

/-- The station with a call to shut down at another stage. -/
def setStage (station : Station σ) (s : Nat) (call : ShutdownCall) (stage : ShutdownStage) :
    Station σ :=
  { station with shutdowns := station.shutdowns.set s { call with stage } }

/-- Whether a token was taken by a call to shut down that has not cancelled it yet. -/
def isHeld (station : Station σ) (token : Token) : Bool :=
  station.shutdowns.any (·.holds token)

/-- Whether some call to shut down took a listening state and has not refused new sessions yet. -/
def isUnrefused (station : Station σ) : Bool :=
  station.shutdowns.any ShutdownCall.isSilencing || station.traffic.closers.contains .refusing

/-- Whether a call to listen is in the middle of routing a sample. -/
def isRouting (station : Station σ) (n : Nat) : Bool :=
  (station.owners.zip station.traffic.calls).any fun (owner, call) =>
    owner == n && !call.stage.isOver

/-- A new call to listen claims the listener and begins to bind, or returns. -/
def listen (station : Station σ) : Station σ :=
  match station.lifecycle.claim with
  | (.ok token, lifecycle) =>
    { station with lifecycle, listens := station.listens ++ [.binding token] }
  | (.error error, lifecycle) =>
    { station with lifecycle, listens := station.listens ++ [.returned error] }

/-- The listener is switched to listening. -/
def switch (station : Station σ) (token : Token) (lifecycle : Lifecycle) : Station σ :=
  { station with
    lifecycle
    traffic := station.traffic.withRegistry station.registry.reopen
    overtaken := if station.isHeld token then token :: station.overtaken else station.overtaken
    overlapping := station.isUnrefused }

/-- A call that was binding goes on with what binding gave. -/
def bind? (station : Station σ) (n : Nat) (bound : Option String) : Option (Station σ) :=
  match station.listens[n]? with
  | some (.binding token) =>
    match station.lifecycle.completeBind token station.address bound with
    | (.ok (), lifecycle) => some ((station.switch token lifecycle).setListen n (.receiving token))
    | (.error error, lifecycle) => some ({ station with lifecycle }.setListen n (.returned error))
  | _ => none

/-- A call receives a datagram, and begins to route the sample in it, if there is one. -/
def receive? (station : Station σ) (n : Nat) (endpoint : String) (datagram : List UInt8) :
    Option (Station σ) :=
  match station.listens[n]? with
  | some (.receiving _) =>
    if station.isRouting n then none
    else
      match Server.sample? datagram with
      | none => some station
      | some sample =>
        let call : RouteCall := { endpoint := endpoint, sample := sample }
        some { station with
          traffic := { station.traffic with calls := station.traffic.calls ++ [call] }
          owners := station.owners ++ [n] }
  | _ => none

/-- A call that receives routes a sample one step further, and dies when the routing dies. -/
def route? (station : Station σ) (r : Nat) : Option (Station σ) :=
  match station.owners[r]?, station.traffic.calls[r]? with
  | some n, some call =>
    match station.listens[n]? with
    | some (.receiving token) =>
      (station.traffic.route? r).map fun traffic =>
        if call.stage = .opening ∧ station.registry.isFatal call.endpoint = true then
          { station.setListen n .died with traffic, broken := token :: station.broken }
        else { station with traffic }
    | _ => none
  | _, _ => none

/-- A call that was told to stop returns. -/
def stop? (station : Station σ) (n : Nat) : Option (Station σ) :=
  match station.listens[n]? with
  | some (.receiving token) =>
    if station.lifecycle.isCancelled token && !station.isRouting n then
      some (station.setListen n (.returned .serverClosed))
    else none
  | _ => none

/-- A call whose socket cannot be read returns as if it had been told to stop. -/
def fail? (station : Station σ) (n : Nat) : Option (Station σ) :=
  match station.listens[n]? with
  | some (.receiving token) =>
    if station.isRouting n then none
    else
      some { station.setListen n (.returned .serverClosed) with broken := token :: station.broken }
  | _ => none

/-- A new call to shut down takes the state. -/
def shutdown (station : Station σ) (deadline : Duration) : Station σ :=
  match station.lifecycle.take with
  | (.stopped, lifecycle) =>
    { station with lifecycle, shutdowns := station.shutdowns ++ [⟨deadline, .returned none⟩] }
  | (.starting token, lifecycle) =>
    { station with lifecycle, shutdowns := station.shutdowns ++ [⟨deadline, .abandoning token⟩] }
  | (.listening token _, lifecycle) =>
    { station with lifecycle, shutdowns := station.shutdowns ++ [⟨deadline, .silencing token⟩] }

/-- A call cancels the token that it took. It then returns, or begins to close the registry. -/
def cancel? (station : Station σ) (s : Nat) : Option (Station σ) :=
  match station.shutdowns[s]? with
  | none => none
  | some call =>
    match call.stage with
    | .abandoning token =>
      some ({ station with lifecycle := station.lifecycle.cancel token }.setStage s call
        (.returned none))
    | .silencing token =>
      some ({ station with
        lifecycle := station.lifecycle.cancel token
        traffic := { station.traffic with
          closers := station.traffic.closers ++ [CloseStage.refusing] } }.setStage s call
            (.closing station.traffic.closers.length))
    | _ => none

/-- A call goes on closing the registry. -/
def close? (shards : Shards) (station : Station σ) (s : Nat) : Option (Station σ) :=
  match station.shutdowns[s]? with
  | none => none
  | some call =>
    match call.stage with
    | .closing closer =>
      (station.traffic.close? shards closer).map fun traffic =>
        if traffic.closers[closer]? = some .returned then
          { station with traffic }.setStage s call .closed
        else { station with traffic }
    | _ => none

/-- A call that closes the registry tells the session of an endpoint to close. -/
def sweep? (shards : Shards) (station : Station σ) (s : Nat) (endpoint : String) :
    Option (Station σ) :=
  match station.shutdowns[s]? with
  | none => none
  | some call =>
    match call.stage with
    | .closing closer =>
      (station.traffic.cancel? shards closer endpoint).map ({ station with traffic := · })
    | _ => none

/-- A call that has closed the registry goes on to wait, and to return. -/
def await? (station : Station σ) (s : Nat) (next : ShutdownCall → Option ShutdownStage) :
    Option (Station σ) :=
  match station.shutdowns[s]? with
  | none => none
  | some call => (next call).map (station.setStage s call)

/-- How a call begins to wait. -/
def watchStage? (registry : Registry) (call : ShutdownCall) : Option ShutdownStage :=
  match call.stage with
  | .closed => some (.waiting registry.allEnded)
  | _ => none

/-- How a call returns when all sessions have ended. -/
def resolveStage? (call : ShutdownCall) : Option ShutdownStage :=
  match call.stage with
  | .waiting true => some (.returned none)
  | _ => none

/-- How a call returns when its deadline passes. -/
def expireStage? (registry : Registry) (call : ShutdownCall) : Option ShutdownStage :=
  match call.stage with
  | .waiting false => some (.returned (some (.shutdownTimeout call.deadline registry.pending)))
  | _ => none

/-- The calls that wait learn that all sessions have ended, if they have. -/
def notice (station : Station σ) : Station σ :=
  if station.registry.allEnded then
    { station with shutdowns := station.shutdowns.map ShutdownCall.notice }
  else station

@[simp] theorem traffic_notice (station : Station σ) :
    station.notice.traffic = station.traffic := by
  unfold notice
  split <;> rfl

@[simp] theorem listens_notice (station : Station σ) :
    station.notice.listens = station.listens := by
  unfold notice
  split <;> rfl

@[simp] theorem owners_notice (station : Station σ) :
    station.notice.owners = station.owners := by
  unfold notice
  split <;> rfl

/-- Takes an action, apart from what those who wait learn by it. -/
def act? [Store σ] (shards : Shards) (station : Station σ) : ServerAction → Option (Station σ)
  | .listen => some station.listen
  | .bind n bound => station.bind? n bound
  | .receive n endpoint datagram => station.receive? n endpoint datagram
  | .route r => station.route? r
  | .task now id step => (station.traffic.turn? now id step).map ({ station with traffic := · })
  | .stop n => station.stop? n
  | .fail n => station.fail? n
  | .shutdown deadline => some (station.shutdown deadline)
  | .cancel s => station.cancel? s
  | .close s => station.close? shards s
  | .sweep s endpoint => station.sweep? shards s endpoint
  | .watch s => station.await? s (watchStage? station.registry)
  | .resolve s => station.await? s resolveStage?
  | .expire s => station.await? s (expireStage? station.registry)

/-- Takes an action; `none` when it is not possible. -/
def step? [Store σ] (shards : Shards) (station : Station σ) (action : ServerAction) :
    Option (Station σ) :=
  (station.act? shards action).map notice

/-- Takes an action, if it is possible. -/
def step [Store σ] (shards : Shards) (station : Station σ) (action : ServerAction) : Station σ :=
  (station.step? shards action).getD station

/-- Takes actions, one after the other. -/
def run [Store σ] (shards : Shards) (actions : List ServerAction) (station : Station σ) :
    Station σ :=
  actions.foldl (step shards) station

/-- A stopped server on which no call is at work yet. -/
def fresh (config : ServerConfig) (world : World σ) (sessionIds : Nat → Uuid) : Station σ where
  address := config.withAddress.listenAddr
  traffic := .fresh config world sessionIds

end Station

/-! ## Calls that are not interrupted -/

namespace Server

variable {σ : Type}

/-- A server on which no other call is at work. -/
def station (server : Server σ) : Station σ where
  address := server.config.listenAddr
  lifecycle := server.lifecycle
  listens := server.calls
  traffic := { service := server.sessions.service }

theorem station_ofConfig (config : ServerConfig) (world : World σ) (sessionIds : Nat → Uuid) :
    (ofConfig config world sessionIds).station = .fresh config world sessionIds := by
  unfold ofConfig Server.station Station.fresh Traffic.fresh Registry.ofConfig
    ServerConfig.withAddress
  split <;> rfl

theorem station_listen (server : Server σ) : server.listen.station = server.station.listen := by
  unfold Server.listen Station.listen Server.station
  rcases server.lifecycle.claim with ⟨_ | _, _⟩ <;> rfl

theorem station_completeBind (server : Server σ) {n : Nat} {token : Token}
    (hcall : server.calls[n]? = some (.binding token)) (bound : Option String) :
    server.station.bind? n bound = some (server.completeBind n bound).station := by
  unfold Server.completeBind Station.bind? Server.station
  simp only [hcall]
  rcases server.lifecycle.completeBind token server.config.listenAddr bound with ⟨_ | _, _⟩
  · rfl
  · rfl

/-- A call to shut down that is not interrupted leaves the listener as `Server.shutdown` does. -/
theorem lifecycle_shutdown [Store σ] (server : Server σ) (deadline : Duration) :
    let taken := server.station.shutdown deadline
    ((taken.cancel? 0).getD taken).lifecycle = (server.shutdown deadline).2.lifecycle := by
  unfold Server.shutdown Station.shutdown Server.station Lifecycle.take
  cases hstate : server.lifecycle.state with
  | stopped =>
      show { server.lifecycle with state := .stopped } = server.lifecycle
      rw [← hstate]
  | starting token => rfl
  | listening token addr => rfl

end Server

end RaceIngest
