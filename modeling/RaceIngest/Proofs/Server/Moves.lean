import RaceIngest.Proofs.Server.Station

/-!
# What an action does to a server

Every action that is possible is one `Station.Move`, after which those who wait take notice. A move
says what held before, which call went on, and what is left behind; where the traffic goes on it
says by which of its own moves.

## Main results

* `Station.exists_move`: every action that is possible is a move.
* `Station.run_induction`: what every move and taking notice keep, every run keeps.
-/

namespace RaceIngest

namespace Station

variable {σ : Type}

/-- What the actions do, one constructor for each case. -/
inductive Move (shards : Shards) (station : Station σ) : ServerAction → Station σ → Prop where
  | claims (hstopped : station.lifecycle.state = .stopped) :
      Move shards station .listen
        { station with
          lifecycle :=
            { station.lifecycle with
              state := .starting station.lifecycle.issued
              issued := station.lifecycle.issued + 1 }
          listens := station.listens ++ [.binding station.lifecycle.issued] }
  | isRefused (hbusy : station.lifecycle.state ≠ .stopped) :
      Move shards station .listen
        { station with listens := station.listens ++ [.returned .alreadyRunning] }
  | givesUp (n : Nat) (bound : Option String) (token : Token)
      (hcall : station.listens[n]? = some (.binding token))
      (hcancelled : station.lifecycle.isCancelled token = true) :
      Move shards station (.bind n bound) (station.setListen n (.returned .serverClosed))
  | misses (n : Nat) (token : Token) (hcall : station.listens[n]? = some (.binding token))
      (hlive : station.lifecycle.isCancelled token = false) :
      Move shards station (.bind n none)
        ({ station with lifecycle := { station.lifecycle with state := .stopped } }.setListen n
          (.returned (.bind station.address)))
  | switches (n : Nat) (addr : String) (token : Token)
      (hcall : station.listens[n]? = some (.binding token))
      (hlive : station.lifecycle.isCancelled token = false) :
      Move shards station (.bind n (some addr))
        ((station.switch token
          { station.lifecycle with state := .listening token addr }).setListen n (.receiving token))
  | ignores (n : Nat) (endpoint : String) (datagram : List UInt8) :
      Move shards station (.receive n endpoint datagram) station
  | receives (n : Nat) (endpoint : String) (datagram : List UInt8) (token : Token)
      (sample : Sample) (traffic : Traffic σ)
      (hcall : station.listens[n]? = some (.receiving token)) (hidle : station.isRouting n = false)
      (hsample : Server.sample? datagram = some sample)
      (hmove : station.traffic.Move shards (.arrive endpoint sample) traffic) :
      Move shards station (.receive n endpoint datagram)
        { station with traffic, owners := station.owners ++ [n] }
  | routes (r n : Nat) (token : Token) (call : RouteCall) (traffic : Traffic σ)
      (howner : station.owners[r]? = some n) (hcall : station.traffic.calls[r]? = some call)
      (hlisten : station.listens[n]? = some (.receiving token))
      (hsurvives : ¬(call.stage = .opening ∧ station.registry.isFatal call.endpoint = true))
      (hmove : station.traffic.Move shards (.route r) traffic) :
      Move shards station (.route r) { station with traffic }
  | dies (r n : Nat) (token : Token) (call : RouteCall) (traffic : Traffic σ)
      (howner : station.owners[r]? = some n) (hcall : station.traffic.calls[r]? = some call)
      (hlisten : station.listens[n]? = some (.receiving token)) (hstage : call.stage = .opening)
      (hfatal : station.registry.isFatal call.endpoint = true)
      (hmove : station.traffic.Move shards (.route r) traffic) :
      Move shards station (.route r)
        { station.setListen n .died with traffic, broken := token :: station.broken }
  | turns (now : Nat) (id : TaskId) (step : TaskStep) (traffic : Traffic σ)
      (hmove : station.traffic.Move shards (.task now id step) traffic) :
      Move shards station (.task now id step) { station with traffic }
  | stops (n : Nat) (token : Token) (hcall : station.listens[n]? = some (.receiving token))
      (hcancelled : station.lifecycle.isCancelled token = true)
      (hidle : station.isRouting n = false) :
      Move shards station (.stop n) (station.setListen n (.returned .serverClosed))
  | fails (n : Nat) (token : Token) (hcall : station.listens[n]? = some (.receiving token))
      (hidle : station.isRouting n = false) :
      Move shards station (.fail n)
        { station.setListen n (.returned .serverClosed) with broken := token :: station.broken }
  | findsStopped (deadline : Duration) (hstate : station.lifecycle.state = .stopped) :
      Move shards station (.shutdown deadline)
        { station with shutdowns := station.shutdowns ++ [⟨deadline, .returned none⟩] }
  | takesStarting (deadline : Duration) (token : Token)
      (hstate : station.lifecycle.state = .starting token) :
      Move shards station (.shutdown deadline)
        { station with
          lifecycle := { station.lifecycle with state := .stopped }
          shutdowns := station.shutdowns ++ [⟨deadline, .abandoning token⟩] }
  | takesListening (deadline : Duration) (token : Token) (addr : String)
      (hstate : station.lifecycle.state = .listening token addr) :
      Move shards station (.shutdown deadline)
        { station with
          lifecycle := { station.lifecycle with state := .stopped }
          shutdowns := station.shutdowns ++ [⟨deadline, .silencing token⟩] }
  | abandons (s : Nat) (call : ShutdownCall) (token : Token)
      (hcall : station.shutdowns[s]? = some call) (hstage : call.stage = .abandoning token) :
      Move shards station (.cancel s)
        ({ station with lifecycle := station.lifecycle.cancel token }.setStage s call
          (.returned none))
  | silences (s : Nat) (call : ShutdownCall) (token : Token) (traffic : Traffic σ)
      (hcall : station.shutdowns[s]? = some call) (hstage : call.stage = .silencing token)
      (hmove : station.traffic.Move shards .beginClose traffic) :
      Move shards station (.cancel s)
        ({ station with lifecycle := station.lifecycle.cancel token, traffic }.setStage s call
          (.closing station.traffic.closers.length))
  | closes (s closer : Nat) (call : ShutdownCall) (traffic : Traffic σ)
      (hcall : station.shutdowns[s]? = some call) (hstage : call.stage = .closing closer)
      (hmove : station.traffic.Move shards (.close closer) traffic)
      (hgoesOn : traffic.closers[closer]? ≠ some .returned) :
      Move shards station (.close s) { station with traffic }
  | hasClosed (s closer : Nat) (call : ShutdownCall) (traffic : Traffic σ)
      (hcall : station.shutdowns[s]? = some call) (hstage : call.stage = .closing closer)
      (hmove : station.traffic.Move shards (.close closer) traffic)
      (hreturned : traffic.closers[closer]? = some .returned) :
      Move shards station (.close s) ({ station with traffic }.setStage s call .closed)
  | sweeps (s closer : Nat) (endpoint : String) (call : ShutdownCall) (traffic : Traffic σ)
      (hcall : station.shutdowns[s]? = some call) (hstage : call.stage = .closing closer)
      (hmove : station.traffic.Move shards (.cancel closer endpoint) traffic) :
      Move shards station (.sweep s endpoint) { station with traffic }
  | watches (s : Nat) (call : ShutdownCall) (hcall : station.shutdowns[s]? = some call)
      (hstage : call.stage = .closed) :
      Move shards station (.watch s)
        (station.setStage s call (.waiting station.registry.allEnded))
  | resolves (s : Nat) (call : ShutdownCall) (hcall : station.shutdowns[s]? = some call)
      (hstage : call.stage = .waiting true) :
      Move shards station (.resolve s) (station.setStage s call (.returned none))
  | expires (s : Nat) (call : ShutdownCall) (hcall : station.shutdowns[s]? = some call)
      (hstage : call.stage = .waiting false) :
      Move shards station (.expire s)
        (station.setStage s call
          (.returned (some (.shutdownTimeout call.deadline station.registry.pending))))

variable {shards : Shards} {station after : Station σ}

theorem move_of_listen : station.Move shards .listen station.listen := by
  unfold Station.listen Lifecycle.claim
  cases hstate : station.lifecycle.state with
  | stopped => exact .claims hstate
  | starting token => exact .isRefused (by simp [hstate])
  | listening token addr => exact .isRefused (by simp [hstate])

theorem move_of_bind {n : Nat} {bound : Option String} (h : station.bind? n bound = some after) :
    station.Move shards (.bind n bound) after := by
  unfold bind? at h
  split at h
  · rename_i token hcall
    unfold Lifecycle.completeBind at h
    cases hcancelled : station.lifecycle.isCancelled token with
    | true =>
        rw [hcancelled] at h
        rw [← Option.some.inj h]
        exact .givesUp n bound token hcall hcancelled
    | false =>
        rw [hcancelled] at h
        cases bound with
        | none =>
            rw [← Option.some.inj h]
            exact .misses n token hcall hcancelled
        | some addr =>
            rw [← Option.some.inj h]
            exact .switches n addr token hcall hcancelled
  · cases h

theorem move_of_receive {n : Nat} {endpoint : String} {datagram : List UInt8}
    (h : station.receive? n endpoint datagram = some after) :
    station.Move shards (.receive n endpoint datagram) after := by
  unfold receive? at h
  split at h
  · rename_i token hcall
    split at h
    · cases h
    · rename_i hidle
      split at h
      · rw [← Option.some.inj h]
        exact .ignores n endpoint datagram
      · rename_i sample hsample
        rw [← Option.some.inj h]
        exact .receives n endpoint datagram token sample _ hcall (by simpa using hidle) hsample
          (.arrives endpoint sample)
  · cases h

theorem move_of_route {r : Nat} (h : station.route? r = some after) :
    station.Move shards (.route r) after := by
  unfold route? at h
  split at h
  · rename_i n call howner hcall
    split at h
    · rename_i token hlisten
      obtain ⟨traffic, htraffic, rfl⟩ := Option.map_eq_some_iff.mp h
      have hmove : station.traffic.Move shards (.route r) traffic :=
        Traffic.move_of_route htraffic
      split
      · rename_i hfatal
        exact .dies r n token call traffic howner hcall hlisten hfatal.1 hfatal.2 hmove
      · rename_i hsurvives
        exact .routes r n token call traffic howner hcall hlisten hsurvives hmove
    · cases h
  · cases h

theorem move_of_stop {n : Nat} (h : station.stop? n = some after) :
    station.Move shards (.stop n) after := by
  unfold stop? at h
  split at h
  · rename_i token hcall
    split at h
    · rename_i hstop
      simp only [Bool.and_eq_true, Bool.not_eq_true'] at hstop
      rw [← Option.some.inj h]
      exact .stops n token hcall hstop.1 hstop.2
    · cases h
  · cases h

theorem move_of_fail {n : Nat} (h : station.fail? n = some after) :
    station.Move shards (.fail n) after := by
  unfold fail? at h
  split at h
  · rename_i token hcall
    split at h
    · cases h
    · rename_i hidle
      rw [← Option.some.inj h]
      exact .fails n token hcall (by simpa using hidle)
  · cases h

theorem move_of_shutdown (deadline : Duration) :
    station.Move shards (.shutdown deadline) (station.shutdown deadline) := by
  unfold Station.shutdown Lifecycle.take
  cases hstate : station.lifecycle.state with
  | stopped =>
      have hsame : { station.lifecycle with state := .stopped } = station.lifecycle := by
        rw [← hstate]
      show station.Move shards _ { station with lifecycle := _, shutdowns := _ }
      rw [hsame]
      exact .findsStopped deadline hstate
  | starting token => exact .takesStarting deadline token hstate
  | listening token addr => exact .takesListening deadline token addr hstate

theorem move_of_cancel {s : Nat} (h : station.cancel? s = some after) :
    station.Move shards (.cancel s) after := by
  unfold cancel? at h
  split at h
  · cases h
  · rename_i call hcall
    split at h
    · rename_i token hstage
      rw [← Option.some.inj h]
      exact .abandons s call token hcall hstage
    · rename_i token hstage
      rw [← Option.some.inj h]
      exact .silences s call token _ hcall hstage .beginsClose
    · cases h

theorem move_of_close {s : Nat} (h : station.close? shards s = some after) :
    station.Move shards (.close s) after := by
  unfold close? at h
  split at h
  · cases h
  · rename_i call hcall
    split at h
    · rename_i closer hstage
      obtain ⟨traffic, htraffic, rfl⟩ := Option.map_eq_some_iff.mp h
      have hmove := Traffic.move_of_close htraffic
      by_cases hreturned : traffic.closers[closer]? = some .returned
      · rw [if_pos hreturned]
        exact .hasClosed s closer call traffic hcall hstage hmove hreturned
      · rw [if_neg hreturned]
        exact .closes s closer call traffic hcall hstage hmove hreturned
    · cases h

theorem move_of_sweep {s : Nat} {endpoint : String}
    (h : station.sweep? shards s endpoint = some after) :
    station.Move shards (.sweep s endpoint) after := by
  unfold sweep? at h
  split at h
  · cases h
  · rename_i call hcall
    split at h
    · rename_i closer hstage
      obtain ⟨traffic, htraffic, rfl⟩ := Option.map_eq_some_iff.mp h
      exact .sweeps s closer endpoint call traffic hcall hstage (Traffic.move_of_cancel htraffic)
    · cases h

/-- A call that goes on after it has closed the registry changes its own stage only. -/
theorem await?_eq_some {s : Nat} {next : ShutdownCall → Option ShutdownStage}
    (h : station.await? s next = some after) :
    ∃ call stage, station.shutdowns[s]? = some call ∧ next call = some stage ∧
      after = station.setStage s call stage := by
  unfold await? at h
  split at h
  · cases h
  · rename_i call hcall
    obtain ⟨stage, hstage, rfl⟩ := Option.map_eq_some_iff.mp h
    exact ⟨call, stage, hcall, hstage, rfl⟩

theorem move_of_watch {s : Nat}
    (h : station.await? s (watchStage? station.registry) = some after) :
    station.Move shards (.watch s) after := by
  obtain ⟨call, stage, hcall, hnext, rfl⟩ := await?_eq_some h
  unfold watchStage? at hnext
  split at hnext
  · rename_i hstage
    rw [← Option.some.inj hnext]
    exact .watches s call hcall hstage
  · cases hnext

theorem move_of_resolve {s : Nat} (h : station.await? s resolveStage? = some after) :
    station.Move shards (.resolve s) after := by
  obtain ⟨call, stage, hcall, hnext, rfl⟩ := await?_eq_some h
  unfold resolveStage? at hnext
  split at hnext
  · rename_i hstage
    rw [← Option.some.inj hnext]
    exact .resolves s call hcall hstage
  · cases hnext

theorem move_of_expire {s : Nat}
    (h : station.await? s (expireStage? station.registry) = some after) :
    station.Move shards (.expire s) after := by
  obtain ⟨call, stage, hcall, hnext, rfl⟩ := await?_eq_some h
  unfold expireStage? at hnext
  split at hnext
  · rename_i hstage
    rw [← Option.some.inj hnext]
    exact .expires s call hcall hstage
  · cases hnext

/-- Every action that is possible is one of the moves, after which those who wait take notice. -/
theorem exists_move [Store σ] {action : ServerAction}
    (h : station.step? shards action = some after) :
    ∃ moved, station.Move shards action moved ∧ after = moved.notice := by
  obtain ⟨moved, hact, rfl⟩ := Option.map_eq_some_iff.mp h
  refine ⟨moved, ?_, rfl⟩
  cases action with
  | listen =>
      rw [← Option.some.inj hact]
      exact move_of_listen
  | bind n bound => exact move_of_bind hact
  | receive n endpoint datagram => exact move_of_receive hact
  | route r => exact move_of_route hact
  | task now id step =>
      obtain ⟨traffic, htraffic, rfl⟩ := Option.map_eq_some_iff.mp hact
      exact .turns now id step traffic (Traffic.move_of_turn htraffic)
  | stop n => exact move_of_stop hact
  | fail n => exact move_of_fail hact
  | shutdown deadline =>
      rw [← Option.some.inj hact]
      exact move_of_shutdown deadline
  | cancel s => exact move_of_cancel hact
  | close s => exact move_of_close hact
  | sweep s endpoint => exact move_of_sweep hact
  | watch s => exact move_of_watch hact
  | resolve s => exact move_of_resolve hact
  | expire s => exact move_of_expire hact

/-- What every move and taking notice keep, every run keeps. -/
theorem run_induction [Store σ] {P : Station σ → Prop} (actions : List ServerAction)
    (hmove : ∀ station, P station → ∀ action ∈ actions, ∀ after,
      station.Move shards action after → P after)
    (hnotice : ∀ station, P station → P station.notice) (h : P station) :
    P (station.run shards actions) := by
  induction actions generalizing station with
  | nil => exact h
  | cons action actions ih =>
      have hrest : ∀ station, P station → ∀ other ∈ actions, ∀ after,
          station.Move shards other after → P after :=
        fun station h other hother => hmove station h other (List.mem_cons_of_mem _ hother)
      refine ih hrest ?_
      unfold step
      cases hstep : station.step? shards action with
      | none => exact h
      | some after =>
          obtain ⟨moved, hmoved, rfl⟩ := exists_move hstep
          exact hnotice moved (hmove station h action List.mem_cons_self moved hmoved)

end Station

end RaceIngest
