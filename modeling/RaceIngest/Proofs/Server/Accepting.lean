import Mathlib.Algebra.Group.Nat.Defs
import RaceIngest.Proofs.Server.Moves
import RaceIngest.Proofs.Session.Filing
import RaceIngest.Store.Memory

/-!
# When a listening server accepts new sessions

Switching the listener to listening reopens the registry, so that a listening server should accept
new sessions. But a call to shut down refuses them some steps after it took the state, and by then
the listener may have been started again: the call closes the registry that was just reopened, and
the server listens without ever opening a session. The invariant `Station.Admitting` says that this
is the only way: while the server is running, the registry is closed, or about to be, exactly when
some call was still to refuse new sessions at the last switch.

A session is then opened for the first sample of an endpoint, unless none can have the capacities
that were asked for; such a sample kills the call that received it.

## Main results

* `Station.Admitting.move`: one move keeps what is known about closing.
* `Station.accepts_iff`: when a listening server on which no call to shut down is at work opens
  sessions.
* `Station.refused_while_listening`: servers that listen and open none.
-/

namespace RaceIngest

/-- Replacing an entry by one that is alike changes nothing about what some entry is like. -/
theorem any_set_of_eq {α : Type} {p : α → Bool} {entries : List α} {n : Nat} {old new : α}
    (hold : entries[n]? = some old) (hsame : p new = p old) :
    (entries.set n new).any p = entries.any p := by
  obtain ⟨hlt, hget⟩ := List.getElem?_eq_some_iff.mp hold
  have hmap : (entries.set n new).map p = entries.map p := by
    rw [List.map_set, hsame, ← hget, ← List.getElem_map p, List.set_getElem_self]
    simpa using hlt
  calc (entries.set n new).any p = ((entries.set n new).map p).any id := by
        rw [List.any_map, Function.id_comp]
    _ = (entries.map p).any id := by rw [hmap]
    _ = entries.any p := by rw [List.any_map, Function.id_comp]

namespace ShutdownCall

/-- Whether a call to shut down returned or has nothing left to do but wait for the sessions. -/
def isAtRest (call : ShutdownCall) : Bool :=
  match call.stage with
  | .waiting _ | .returned _ => true
  | _ => false

theorem notice_of_closing {call : ShutdownCall} {closer : Nat}
    (h : call.stage = .closing closer) : call.notice = call := by
  rw [notice, h]

theorem isSilencing_notice (call : ShutdownCall) : call.notice.isSilencing = call.isSilencing := by
  unfold notice
  split
  · rename_i reached hstage
    simp [isSilencing, hstage]
  · rfl

end ShutdownCall

/-! ## Closing the registry -/

namespace Traffic

variable {σ : Type} {shards : Shards} {traffic after : Traffic σ} {action : Action}

/-- Whether new sessions are refused, or some call that closes the registry is about to. -/
def isRefusing (traffic : Traffic σ) : Bool :=
  traffic.registry.closed || traffic.closers.contains .refusing

/-- A call that is past refusing new sessions stays past it. -/
theorem contains_refusing_set {closers : List CloseStage} {n shard : Nat} {new : CloseStage}
    (hcloser : closers[n]? = some (.sweeping shard)) (hnew : new ≠ .refusing) :
    (closers.set n new).contains .refusing = closers.contains .refusing := by
  rw [List.contains_eq_any_beq, List.contains_eq_any_beq]
  apply any_set_of_eq hcloser
  cases new with
  | refusing => exact absurd rfl hnew
  | sweeping | returned => rfl

/-- Only calls that begin to close and reopening make a difference. -/
theorem Move.isRefusing_eq (hmove : traffic.Move shards action after)
    (hbegin : action ≠ .beginClose) (hreopen : action ≠ .reopen) :
    after.isRefusing = traffic.isRefusing := by
  cases hmove with
  | beginsClose => exact absurd rfl hbegin
  | reopens => exact absurd rfl hreopen
  | spawns n call id =>
      obtain ⟨tasks, hspawn⟩ := traffic.registry.exists_spawn_eq id
      rw [hspawn]
      rfl
  | cancels n shard endpoint id =>
      obtain ⟨tasks, hcancel⟩ := traffic.registry.exists_cancel_eq id
      rw [hcancel]
      rfl
  | turns now id step task task' service hturned =>
      show (service.registry.closed || traffic.closers.contains .refusing) = traffic.isRefusing
      rw [hturned.registry_eq]
      rfl
  | refuses n hcloser =>
      have hmem : CloseStage.refusing ∈ traffic.closers := List.mem_of_getElem? hcloser
      simp [isRefusing, withRegistry, Registry.refuse, hmem]
  | passes n shard hcloser | awaits n shard hcloser =>
      show (traffic.registry.closed || (traffic.closers.set n _).contains .refusing) =
        traffic.isRefusing
      rw [contains_refusing_set hcloser (by simp)]
      rfl
  | _ => rfl

/-- A call that is about to refuse new sessions was there before, or has just begun to close. -/
theorem Move.refusing_of_refusing (hmove : traffic.Move shards action after)
    (hbegin : action ≠ .beginClose) {closer : Nat}
    (h : after.closers[closer]? = some .refusing) : traffic.closers[closer]? = some .refusing := by
  cases hmove with
  | beginsClose => exact absurd rfl hbegin
  | refuses | passes | awaits =>
      rcases getElem?_set_cases h with ⟨-, hnew⟩ | ⟨-, hold⟩
      · cases hnew
      · exact hold
  | _ => exact h

/-- Only a sample that arrives adds a call. -/
theorem Move.length_calls (hmove : traffic.Move shards action after)
    (harrive : ∀ endpoint sample, action ≠ .arrive endpoint sample) :
    after.calls.length = traffic.calls.length := by
  cases hmove with
  | arrives endpoint sample => exact absurd rfl (harrive endpoint sample)
  | finds | misses | isRefused | opens | dies | spawns | posts | drops => exact List.length_set
  | _ => rfl

end Traffic

namespace Station

variable {σ : Type} {station after : Station σ} {failure? : Option String}

/-! ## Closing while listening -/

/-- What is always known about closing. The settings stay, so a session that could not be opened
under them at first never can. A call to the registry that is about to refuse new sessions is that
of a call to shut down. While the server is running, its history tells whether new sessions are
refused or will be by the calls that are at work. -/
structure Admitting (failure? : Option String) (station : Station σ) : Prop where
  settings :
    sessionFailure? station.registry.bufferCapacity station.registry.queueCapacity = failure?
  length_owners : station.owners.length = station.traffic.calls.length
  closer : ∀ closer : Nat, station.traffic.closers[closer]? = some .refusing →
    ∃ call ∈ station.shutdowns, call.stage = .closing closer
  running : station.lifecycle.running = true →
    station.overlapping =
      (station.traffic.isRefusing || station.shutdowns.any ShutdownCall.isSilencing)

/-- A change that leaves the traffic alone and keeps the calls that are about to refuse. -/
theorem Admitting.keep (h : station.Admitting failure?)
    (htraffic : after.traffic = station.traffic) (howners : after.owners = station.owners)
    (hclosing : ∀ closer : Nat, station.traffic.closers[closer]? = some .refusing →
      ∀ call ∈ station.shutdowns, call.stage = .closing closer → call ∈ after.shutdowns)
    (hrunning : after.lifecycle.running = true →
      station.lifecycle.running = true ∧ after.overlapping = station.overlapping ∧
        after.shutdowns.any ShutdownCall.isSilencing =
          station.shutdowns.any ShutdownCall.isSilencing) :
    after.Admitting failure? where
  settings := by
    rw [registry, htraffic]
    exact h.settings
  length_owners := by
    rw [htraffic, howners]
    exact h.length_owners
  closer := by
    intro closer hcloser
    rw [htraffic] at hcloser
    obtain ⟨call, hcall, hstage⟩ := h.closer closer hcloser
    exact ⟨call, hclosing closer hcloser call hcall hstage, hstage⟩
  running := by
    intro hafter
    obtain ⟨hbefore, hoverlapping, hsilencing⟩ := hrunning hafter
    rw [htraffic, hoverlapping, hsilencing]
    exact h.running hbefore

/-- A call to shut down goes on that is not about to refuse new sessions. -/
theorem Admitting.of_stage (h : station.Admitting failure?) {s : Nat} {call : ShutdownCall}
    (stage : ShutdownStage) (hcall : station.shutdowns[s]? = some call)
    (hclosing : ∀ closer : Nat, station.traffic.closers[closer]? = some .refusing →
      call.stage ≠ .closing closer)
    (hbefore : call.isSilencing = false)
    (hafter : ({ call with stage } : ShutdownCall).isSilencing = false) :
    (station.setStage s call stage).Admitting failure? := by
  refine h.keep rfl rfl ?_ ?_
  · intro closer hcloser other hother hstage
    obtain ⟨m, hm⟩ := List.mem_iff_getElem?.mp hother
    refine List.mem_of_getElem? (getElem?_set_of_ne hcall hm ?_ _)
    rintro rfl
    exact hclosing closer hcloser hstage
  · intro hrunning
    exact ⟨hrunning, rfl, any_set_of_eq hcall (hafter.trans hbefore.symm)⟩

/-- The traffic goes on, and no call begins to close it. -/
theorem Admitting.of_traffic {shards : Shards} {action : Action} {traffic : Traffic σ}
    (h : station.Admitting failure?) (hmove : station.traffic.Move shards action traffic)
    (hbegin : action ≠ .beginClose) (hreopen : action ≠ .reopen) {owners : List Nat}
    (howners : owners.length = traffic.calls.length) :
    ({ station with traffic, owners } : Station σ).Admitting failure? where
  settings := by
    obtain ⟨-, hqueue, hbuffer⟩ := hmove.settings_eq
    show sessionFailure? traffic.registry.bufferCapacity traffic.registry.queueCapacity = failure?
    rw [hbuffer, hqueue]
    exact h.settings
  length_owners := howners
  closer := by
    intro closer hcloser
    exact h.closer closer (hmove.refusing_of_refusing hbegin hcloser)
  running := by
    intro hrunning
    show station.overlapping = (traffic.isRefusing || _)
    rw [hmove.isRefusing_eq hbegin hreopen]
    exact h.running hrunning

/-- The traffic goes on, and no call begins in it. -/
theorem Admitting.goOn {shards : Shards} {action : Action} {traffic : Traffic σ}
    (h : station.Admitting failure?) (hmove : station.traffic.Move shards action traffic)
    (hbegin : action ≠ .beginClose) (hreopen : action ≠ .reopen)
    (harrive : ∀ endpoint sample, action ≠ .arrive endpoint sample) :
    ({ station with traffic } : Station σ).Admitting failure? := by
  apply h.of_traffic hmove hbegin hreopen
  rw [h.length_owners, hmove.length_calls harrive]

/-- The listener is switched to listening, and it is noted whether some call is to refuse. -/
theorem Admitting.switch (h : station.Admitting failure?) (token : Token) (lifecycle : Lifecycle)
    (n : Nat) (call : ListenCall) :
    ((station.switch token lifecycle).setListen n call).Admitting failure? where
  settings := h.settings
  length_owners := h.length_owners
  closer := h.closer
  running := by
    intro _
    show station.isUnrefused = _
    rw [isUnrefused, Bool.or_comm]
    rfl

/-- A call to shut down begins to close the registry. -/
theorem Admitting.silence (h : station.Admitting failure?) {s : Nat} {call : ShutdownCall}
    {token : Token} {lifecycle : Lifecycle} (hcall : station.shutdowns[s]? = some call)
    (hstage : call.stage = .silencing token)
    (hstate : lifecycle.running = station.lifecycle.running) :
    ({ station with
      lifecycle
      traffic := { station.traffic with
        closers := station.traffic.closers ++ [CloseStage.refusing] } }.setStage s call
          (.closing station.traffic.closers.length)).Admitting failure? where
  settings := h.settings
  length_owners := h.length_owners
  closer := by
    intro closer hcloser
    have hlt : s < station.shutdowns.length := (List.getElem?_eq_some_iff.mp hcall).1
    rcases getElem?_concat_cases hcloser with hold | ⟨rfl, -⟩
    · obtain ⟨other, hother, hclosing⟩ := h.closer closer hold
      obtain ⟨m, hm⟩ := List.mem_iff_getElem?.mp hother
      refine ⟨other, List.mem_of_getElem? (getElem?_set_of_ne hcall hm ?_ _), hclosing⟩
      rintro rfl
      rw [hstage] at hclosing
      cases hclosing
    · exact ⟨_, List.mem_of_getElem? (List.getElem?_set_self hlt), rfl⟩
  running := by
    intro hrunning
    have hsilencing : station.shutdowns.any ShutdownCall.isSilencing = true := by
      apply List.any_eq_true.mpr
      exact ⟨call, List.mem_of_getElem? hcall, by rw [ShutdownCall.isSilencing, hstage]⟩
    have hoverlapping := h.running (hstate ▸ hrunning)
    rw [hsilencing, Bool.or_true] at hoverlapping
    show station.overlapping = _
    simp [hoverlapping, Traffic.isRefusing, setStage]

theorem Admitting.move {shards : Shards} {action : ServerAction} (h : station.Admitting failure?)
    (hmove : station.Move shards action after) : after.Admitting failure? := by
  cases hmove with
  | ignores => exact h
  | claims | misses | takesStarting | takesListening =>
      refine h.keep rfl rfl ?_ ?_
      · intro _ _ call hcall _
        first
          | exact hcall
          | exact List.mem_append_left _ hcall
      · intro hrunning
        cases hrunning
  | isRefused | givesUp | stops | fails =>
      exact h.keep rfl rfl (fun _ _ _ hcall _ => hcall) fun hrunning => ⟨hrunning, rfl, rfl⟩
  | switches n addr token => exact h.switch token _ n _
  | receives n endpoint datagram token sample traffic _ _ _ hmove =>
      refine h.of_traffic hmove (by simp) (by simp) ?_
      cases hmove
      simp [h.length_owners]
  | routes r n token call traffic _ _ _ _ hmove => exact h.goOn hmove (by simp) (by simp) (by simp)
  | dies r n token call traffic _ _ _ _ _ hmove =>
      have hgoesOn := h.goOn hmove (by simp) (by simp) (by simp)
      exact hgoesOn.keep rfl rfl (fun _ _ _ hcall _ => hcall) fun hrunning => ⟨hrunning, rfl, rfl⟩
  | turns now id step traffic hmove => exact h.goOn hmove (by simp) (by simp) (by simp)
  | closes s closer call traffic _ _ hmove => exact h.goOn hmove (by simp) (by simp) (by simp)
  | sweeps s closer endpoint call traffic _ _ hmove =>
      exact h.goOn hmove (by simp) (by simp) (by simp)
  | findsStopped deadline hstate =>
      refine h.keep rfl rfl (fun _ _ _ hcall _ => List.mem_append_left _ hcall) ?_
      intro hrunning
      simp [Lifecycle.running, hstate] at hrunning
  | abandons s call token hcall hstage =>
      have hcancelled : ({ station with
          lifecycle := station.lifecycle.cancel token } : Station σ).Admitting failure? :=
        h.keep rfl rfl (fun _ _ _ hcall _ => hcall) fun hrunning => ⟨hrunning, rfl, rfl⟩
      exact hcancelled.of_stage _ hcall (by simp [hstage])
        (by simp [ShutdownCall.isSilencing, hstage]) rfl
  | silences s call token traffic hcall hstage hmove =>
      cases hmove
      exact h.silence hcall hstage rfl
  | hasClosed s closer call traffic hcall hstage hmove hreturned =>
      have htraffic : ({ station with traffic } : Station σ).Admitting failure? :=
        h.goOn hmove (by simp) (by simp) (by simp)
      refine htraffic.of_stage _ hcall ?_ (by simp [ShutdownCall.isSilencing, hstage]) rfl
      intro other hother hsame
      rw [hstage, ShutdownStage.closing.injEq] at hsame
      subst hsame
      rw [hreturned] at hother
      cases hother
  | watches s call hcall hstage | resolves s call hcall hstage | expires s call hcall hstage =>
      exact h.of_stage _ hcall (by simp [hstage]) (by simp [ShutdownCall.isSilencing, hstage]) rfl

theorem Admitting.notice (h : station.Admitting failure?) : station.notice.Admitting failure? := by
  unfold Station.notice
  split
  · refine h.keep rfl rfl ?_ ?_
    · intro closer _ call hcall hstage
      exact List.mem_map.mpr ⟨call, hcall, ShutdownCall.notice_of_closing hstage⟩
    · intro hrunning
      refine ⟨hrunning, rfl, ?_⟩
      simp [List.any_map, Function.comp_def, ShutdownCall.isSilencing_notice]
  · exact h

theorem admitting_fresh (config : ServerConfig) (world : World σ) (sessionIds : Nat → Uuid) :
    (fresh config world sessionIds).Admitting
      (sessionFailure? config.bufferCapacity config.queueCapacity) where
  settings := rfl
  length_owners := rfl
  closer := by simp [fresh, Traffic.fresh]
  running := by
    intro hrunning
    cases hrunning

/-- When no call to shut down is at work, none is about to refuse new sessions. -/
theorem Admitting.closed_eq_overlapping (h : station.Admitting failure?)
    (hrunning : station.lifecycle.running = true)
    (hrest : ∀ call ∈ station.shutdowns, call.isAtRest = true) :
    station.registry.closed = station.overlapping := by
  have hsilencing : station.shutdowns.any ShutdownCall.isSilencing = false := by
    apply List.any_eq_false.mpr
    intro call hcall hstage
    have hcallRest := hrest call hcall
    unfold ShutdownCall.isSilencing at hstage
    unfold ShutdownCall.isAtRest at hcallRest
    split at hstage
    · rename_i token hsilencing
      rw [hsilencing] at hcallRest
      cases hcallRest
    · cases hstage
  have hrefusing : station.traffic.closers.contains .refusing = false := by
    rw [← Bool.not_eq_true, List.contains_iff_mem]
    intro hmem
    obtain ⟨closer, hcloser⟩ := List.mem_iff_getElem?.mp hmem
    obtain ⟨call, hcall, hstage⟩ := h.closer closer hcloser
    have hcallRest := hrest call hcall
    rw [ShutdownCall.isAtRest, hstage] at hcallRest
    cases hcallRest
  rw [h.running hrunning, hsilencing, Bool.or_false, Traffic.isRefusing, hrefusing, Bool.or_false]

/-! ## The first sample of an endpoint -/

/-- A sample is being routed by a call to listen that receives. -/
structure Routes (station : Station σ) (r : Nat) (call : RouteCall) : Prop where
  call_eq : station.traffic.calls[r]? = some call
  owner : ∃ n token, station.owners[r]? = some n ∧ station.listens[n]? = some (.receiving token)

variable [Store σ] (shards : Shards) {r : Nat} {call : RouteCall}

theorem step_of_act {action : ServerAction} (h : station.act? shards action = some after) :
    station.step shards action = after.notice := by
  rw [step, step?, h]
  rfl

/-- A sample that is received is routed next. -/
theorem routes_receive {n : Nat} {token : Token} {endpoint : String} {datagram : List UInt8}
    {sample : Sample} (hlength : station.owners.length = station.traffic.calls.length)
    (hlisten : station.listens[n]? = some (.receiving token)) (hidle : station.isRouting n = false)
    (hsample : Server.sample? datagram = some sample) :
    let received := station.step shards (.receive n endpoint datagram)
    received.registry = station.registry ∧
      received.Routes station.traffic.calls.length { endpoint := endpoint, sample := sample } := by
  have hact : station.act? shards (.receive n endpoint datagram) =
      some { station with
        traffic := { station.traffic with
          calls := station.traffic.calls ++ [{ endpoint := endpoint, sample := sample }] }
        owners := station.owners ++ [n] } := by
    simp [act?, receive?, hlisten, hidle, hsample]
  rw [step_of_act shards hact]
  refine ⟨by simp [registry], by simp, n, token, ?_, by simpa using hlisten⟩
  rw [owners_notice, ← hlength]
  exact List.getElem?_concat_length

/-- The endpoint of the sample turns out to have no session. -/
theorem Routes.miss (h : station.Routes r call) (hstage : call.stage = .looking)
    (hnone : station.registry.lookup? call.endpoint = none) :
    let missed := station.step shards (.route r)
    missed.registry = station.registry ∧ missed.Routes r { call with stage := .opening } := by
  obtain ⟨n, token, howner, hlisten⟩ := h.owner
  have hact : station.act? shards (.route r) =
      some { station with traffic := station.traffic.setStage r call .opening } := by
    simp [act?, route?, howner, h.call_eq, hlisten, hstage,
      Traffic.route?_of_missed h.call_eq hstage hnone]
  rw [step_of_act shards hact]
  refine ⟨by simp [registry, Traffic.setStage], ?_, n, token, by simpa using howner,
    by simpa using hlisten⟩
  rw [traffic_notice]
  exact Traffic.getElem?_calls_setStage _ h.call_eq .opening

/-- A closed registry refuses the sample. -/
theorem Routes.registry_of_closed (h : station.Routes r call) (hstage : call.stage = .opening)
    (hnone : station.registry.lookup? call.endpoint = none)
    (hclosed : station.registry.closed = true) :
    (station.step shards (.route r)).registry = station.registry := by
  obtain ⟨n, token, howner, hlisten⟩ := h.owner
  have hact : station.act? shards (.route r) =
      some { station with traffic := station.traffic.setStage r call (.returned false) } := by
    simp [act?, route?, howner, h.call_eq, hlisten, Registry.isFatal_of_closed hclosed,
      Traffic.route?_of_closed h.call_eq hstage hnone hclosed]
  rw [step_of_act shards hact]
  simp [registry, Traffic.setStage]

/-- A session that cannot have its capacities kills the call that is to open it. -/
theorem Routes.registry_of_failure (h : station.Routes r call) (hstage : call.stage = .opening)
    (hnone : station.registry.lookup? call.endpoint = none)
    (hopen : station.registry.closed = false) {message : String}
    (hfailure : sessionFailure? station.registry.bufferCapacity station.registry.queueCapacity =
      some message) :
    (station.step shards (.route r)).registry = station.registry := by
  obtain ⟨n, token, howner, hlisten⟩ := h.owner
  have hfatal : station.registry.isFatal call.endpoint = true :=
    Registry.isFatal_eq_true_iff.mpr ⟨hnone, hopen, by simp [hfailure]⟩
  have hact : station.act? shards (.route r) =
      some { station.setListen n .died with
        traffic := station.traffic.setStage r call .died
        broken := token :: station.broken } := by
    simp [act?, route?, howner, h.call_eq, hlisten, hstage, hfatal,
      Traffic.route?_of_fatal h.call_eq hstage hfatal]
  rw [step_of_act shards hact]
  simp [registry, Traffic.setStage]

theorem Routes.registry_of_open (h : station.Routes r call) (hstage : call.stage = .opening)
    (hnone : station.registry.lookup? call.endpoint = none)
    (hopen : station.registry.closed = false)
    (hroom : sessionFailure? station.registry.bufferCapacity station.registry.queueCapacity =
      none) :
    (station.step shards (.route r)).registry = station.registry.opened call.endpoint
      (station.traffic.service.sessionIds station.registry.tasks.length) := by
  obtain ⟨n, token, howner, hlisten⟩ := h.owner
  have hsurvives : station.registry.isFatal call.endpoint = false :=
    Registry.isFatal_of_possible hroom call.endpoint
  have hact : station.act? shards (.route r) =
      some { station with
        traffic := (station.traffic.withRegistry (station.registry.opened call.endpoint
          (station.traffic.service.sessionIds station.registry.tasks.length))).setStage r
            call (.spawning station.registry.tasks.length) } := by
    simp [act?, route?, howner, h.call_eq, hlisten, hsurvives,
      Traffic.route?_of_opened h.call_eq hstage hnone hopen hsurvives]
  rw [step_of_act shards hact]
  simp [registry, Traffic.setStage, Traffic.withRegistry]

/-- A session is opened when the registry is open and the session can have its capacities. -/
theorem Routes.opens_iff (h : station.Routes r call) (hstage : call.stage = .opening)
    (hnone : station.registry.lookup? call.endpoint = none) :
    ((station.step shards (.route r)).registry.lookup? call.endpoint).isSome = true ↔
      station.registry.closed = false ∧
        sessionFailure? station.registry.bufferCapacity station.registry.queueCapacity = none := by
  cases hclosed : station.registry.closed with
  | true =>
      rw [h.registry_of_closed shards hstage hnone hclosed]
      simp [hnone]
  | false =>
      cases hfailure : sessionFailure? station.registry.bufferCapacity
          station.registry.queueCapacity with
      | none =>
          rw [h.registry_of_open shards hstage hnone hclosed hfailure]
          simp [Registry.lookup?, Registry.opened, List.lookup_append]
      | some message =>
          rw [h.registry_of_failure shards hstage hnone hclosed hfailure]
          simp [hnone]

/-- What becomes of the first sample of an endpoint that has no session. -/
theorem opened_iff_of_receive {n : Nat} {token : Token} {endpoint : String}
    {datagram : List UInt8} (hlength : station.owners.length = station.traffic.calls.length)
    (hlisten : station.listens[n]? = some (.receiving token)) (hidle : station.isRouting n = false)
    (hsample : (Server.sample? datagram).isSome = true)
    (hnone : station.registry.lookup? endpoint = none) :
    let r := station.traffic.calls.length
    let routed := station.run shards [.receive n endpoint datagram, .route r, .route r]
    (routed.registry.lookup? endpoint).isSome = true ↔
      station.registry.closed = false ∧
        sessionFailure? station.registry.bufferCapacity station.registry.queueCapacity = none := by
  intro r routed
  obtain ⟨sample, hsample⟩ := Option.isSome_iff_exists.mp hsample
  obtain ⟨hreceived, hlooking⟩ := routes_receive shards hlength hlisten hidle hsample
  rw [← hreceived] at hnone ⊢
  obtain ⟨hmissed, hopening⟩ := hlooking.miss shards rfl hnone
  rw [← hmissed] at hnone ⊢
  exact hopening.opens_iff shards rfl hnone

/-! ## Listening servers -/

theorem admitting_run (shards : Shards) (config : ServerConfig) (world : World σ)
    (sessionIds : Nat → Uuid) (actions : List ServerAction) :
    ((fresh config world sessionIds).run shards actions).Admitting
      (sessionFailure? config.bufferCapacity config.queueCapacity) := by
  apply run_induction actions
  · intro station h action _ after hmove
    exact h.move hmove
  · intro station h
    exact h.notice
  · exact admitting_fresh config world sessionIds

/-- A server that is listening while no call to shut down is at work, be other calls to listen
binding or not, accepts new sessions exactly when no call to shut down was still to refuse them at
the moment of the last switch to listening. The first sample from an endpoint without a session then
opens one, if its buffer and its queue can have the capacities that were asked for. -/
theorem accepts_iff (shards : Shards) (config : ServerConfig) (world : World σ)
    (sessionIds : Nat → Uuid) (actions : List ServerAction)
    (hrunning : ((fresh config world sessionIds).run shards actions).lifecycle.running = true)
    (hrest : ∀ call ∈ ((fresh config world sessionIds).run shards actions).shutdowns,
      call.isAtRest = true) :
    let station := (fresh config world sessionIds).run shards actions
    (station.registry.closed = false ↔ station.overlapping = false) ∧
      ∀ n token endpoint datagram, station.listens[n]? = some (.receiving token) →
        station.isRouting n = false → (Server.sample? datagram).isSome = true →
        station.registry.lookup? endpoint = none →
        let r := station.traffic.calls.length
        let routed := station.run shards [.receive n endpoint datagram, .route r, .route r]
        ((routed.registry.lookup? endpoint).isSome = true ↔
          station.overlapping = false ∧
            sessionFailure? config.bufferCapacity config.queueCapacity = none) := by
  intro station
  have hadmitting := admitting_run shards config world sessionIds actions
  have hclosed : station.registry.closed = station.overlapping :=
    hadmitting.closed_eq_overlapping hrunning hrest
  constructor
  · rw [hclosed]
  · intro n token endpoint datagram hlisten hidle hsample hnone
    rw [← hclosed, ← hadmitting.settings]
    exact opened_iff_of_receive shards hadmitting.length_owners hlisten hidle hsample hnone

omit [Store σ] in
/-- A server that was shut down and started again opens a session for the first sample. -/
theorem accepts_after_restart :
    let world := World.fresh MemoryStore.empty .none (fun _ => default) .ofNat
    let datagram := Wire.Packet.encode { Sample.lapping .one with timestampMs := 1 }
    let actions := [.listen, .bind 0 (some "127.0.0.1:5300"), .shutdown ⟨5⟩, .cancel 0, .close 0,
      .close 0, .close 0, .watch 0, .resolve 0, .stop 0, .listen, .bind 1 (some "127.0.0.1:5300")]
    let station := (fresh {} world .ofNat).run .single actions
    let r := station.traffic.calls.length
    let routed := station.run .single [.receive 1 "car" datagram, .route r, .route r]
    station.lifecycle.running = true ∧ (∀ call ∈ station.shutdowns, call.isAtRest = true) ∧
      station.registry.closed = false ∧ (routed.registry.lookup? "car").isSome = true := by
  intro world datagram actions
  have hrunning : ((fresh {} world .ofNat).run .single actions).lifecycle.running = true := by
    decide +kernel
  have hrest : ∀ call ∈ ((fresh {} world .ofNat).run .single actions).shutdowns,
      call.isAtRest = true := by
    decide +kernel
  have hfacts :
      let station := (fresh {} world .ofNat).run .single actions
      station.overlapping = false ∧ station.listens[1]? = some (.receiving 1) ∧
        station.isRouting 1 = false ∧ station.registry.lookup? "car" = none := by
    refine ⟨?_, ?_, ?_, ?_⟩ <;> decide +kernel
  have hsample : (Server.sample? datagram).isSome = true := by
    decide +kernel
  have hiff := accepts_iff .single {} world .ofNat actions hrunning hrest
  dsimp only at hfacts hiff ⊢
  generalize (fresh {} world .ofNat).run .single actions = station
    at hrunning hrest hfacts hiff ⊢
  obtain ⟨hoverlapping, hlisten, hidle, hnone⟩ := hfacts
  obtain ⟨hopen, hopens⟩ := hiff
  have hroom : sessionFailure? ({} : ServerConfig).bufferCapacity
      ({} : ServerConfig).queueCapacity = none := by
    decide
  refine ⟨hrunning, hrest, hopen.mpr hoverlapping, ?_⟩
  exact (hopens 1 1 "car" datagram hlisten hidle hsample hnone).mpr ⟨hoverlapping, hroom⟩

omit [Store σ] in
/-- Servers that listen while no call is at work but the one that receives, and that open no session
for the first sample. One was started again while a call to shut down had not refused new sessions
yet, which it did afterwards. The other asked, with valid settings, for queues of a capacity that
no queue can have. -/
theorem refused_while_listening :
    let world := World.fresh MemoryStore.empty .none (fun _ => default) .ofNat
    let datagram := Wire.Packet.encode { Sample.lapping .one with timestampMs := 1 }
    let restarted := (fresh {} world .ofNat).run .single
      [.listen, .bind 0 (some "127.0.0.1:5300"), .shutdown ⟨5⟩, .cancel 0, .stop 0, .listen,
        .bind 1 (some "127.0.0.1:5300"), .close 0, .close 0, .close 0, .watch 0, .resolve 0]
    let refused := restarted.run .single [.receive 1 "car" datagram, .route 0, .route 0]
    let config : ServerConfig := { queueCapacity := 2 ^ 61 }
    let huge := (fresh config world .ofNat).run .single [.listen, .bind 0 (some "127.0.0.1:5300")]
    let killed := huge.run .single [.receive 0 "car" datagram, .route 0, .route 0]
    (restarted.lifecycle.running = true ∧
        restarted.listens = [.returned .serverClosed, .receiving 1] ∧
        restarted.shutdowns = [⟨⟨5⟩, .returned none⟩] ∧ restarted.registry.closed = true ∧
        refused.traffic.calls.map RouteCall.stage = [.returned false] ∧
        refused.registry.lookup? "car" = none) ∧
      config.validate = .ok () ∧ huge.lifecycle.running = true ∧ huge.listens = [.receiving 0] ∧
        killed.listens = [.died] ∧ killed.registry.lookup? "car" = none := by
  refine ⟨⟨?_, ?_, ?_, ?_, ?_, ?_⟩, rfl, ?_, ?_, ?_, ?_⟩ <;> decide +kernel

end Station

end RaceIngest
