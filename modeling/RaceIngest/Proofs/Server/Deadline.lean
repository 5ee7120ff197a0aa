import RaceIngest.Proofs.Registry.Sweep
import RaceIngest.Proofs.Server.Accepting
import RaceIngest.Proofs.Server.Starting

/-!
# When the deadline of a call to shut down passes

A call to shut down waits for the sessions that it told to close, and when its deadline passes
before they have ended it returns with an error. It learns of their end from the registry, which
says so when no session is pending and the end may be waited for. But the listener counts as stopped
from the first step of the call, so it may be started again while the call still waits, and the
switch to listening takes back that the end may be waited for. From then on nobody tells the call
anything, and it times out although its sessions have ended.

That is one way to a false alarm. The other is narrower: the switch may come while the call is still
closing the registry. Then the end may be waited for afterwards, but sessions that were opened since
are waited for as well.

## Main results

* `Station.Watched.move`: as long as the listener is not switched, a call waits for the sessions
  from before it closed the registry only, and is told of their end.
* `Station.Settled.move`: a call that was cut off is told nothing any more.
* `Station.timesOut_cases`: what a call has waited for when its deadline passes.
* `Station.false_alarm_after_restart`: a call that times out after all its sessions have ended.
-/

namespace RaceIngest

namespace ShutdownCall

/-- Whether a call is at closing the registry. -/
def isClosing (call : ShutdownCall) : Bool :=
  match call.stage with
  | .closing _ => true
  | _ => false

/-- Whether a call has closed the registry and has not learned that all sessions have ended. -/
def isUnresolved (call : ShutdownCall) : Bool :=
  match call.stage with
  | .closed | .waiting false => true
  | _ => false

/-- Whether a call has closed the registry, be it over or not. -/
def isPastClosing (call : ShutdownCall) : Bool :=
  match call.stage with
  | .closed | .waiting _ | .returned _ => true
  | _ => false

/-- A call that has closed the registry can only time out, or did. -/
def OnlyTimesOut (call : ShutdownCall) : Prop :=
  call.isUnresolved = true ∨
    ∃ pending, call.stage = .returned (some (.shutdownTimeout call.deadline pending))

theorem isPastClosing_of_isUnresolved {call : ShutdownCall} (h : call.isUnresolved = true) :
    call.isPastClosing = true := by
  unfold isUnresolved at h
  unfold isPastClosing
  split at h <;> simp_all

theorem isPastClosing_of_isAtRest {call : ShutdownCall} (h : call.isAtRest = true) :
    call.isPastClosing = true := by
  unfold isAtRest at h
  unfold isPastClosing
  split at h <;> simp_all

theorem OnlyTimesOut.isPastClosing {call : ShutdownCall} (h : call.OnlyTimesOut) :
    call.isPastClosing = true := by
  rcases h with hunresolved | ⟨pending, hstage⟩
  · exact isPastClosing_of_isUnresolved hunresolved
  · simp [ShutdownCall.isPastClosing, hstage]

theorem holds_of_isPastClosing {call : ShutdownCall} (h : call.isPastClosing = true)
    (token : Token) : call.holds token = false := by
  unfold isPastClosing at h
  unfold holds
  split at h <;> simp_all

end ShutdownCall

/-- A session has a task that is not over. -/
def Registry.IsPending (registry : Registry) (id : TaskId) : Prop :=
  ∃ task, registry.task? id = some task ∧ task.isPending = true

theorem Registry.exists_isPending {registry : Registry} (h : registry.pending ≠ 0) :
    ∃ id, registry.IsPending id ∧ id < registry.tasks.length := by
  obtain ⟨task, hmem, hpending⟩ := List.countP_pos_iff.mp (Nat.pos_of_ne_zero h)
  obtain ⟨id, hid⟩ := List.mem_iff_getElem?.mp hmem
  exact ⟨id, ⟨task, hid, hpending⟩, (List.getElem?_eq_some_iff.mp hid).1⟩

theorem Registry.not_isPending {registry : Registry} (h : registry.pending = 0) (id : TaskId) :
    ¬registry.IsPending id := by
  rintro ⟨task, htask, hpending⟩
  exact List.countP_eq_zero.mp h task (List.mem_of_getElem? htask) hpending

/-! ## Waiting for the end -/

namespace Traffic

variable {σ : Type} {shards : Shards} {traffic after : Traffic σ} {action : Action}

/-- Whether the end may be waited for is up to those who close the registry and reopen it. -/
theorem Move.awaitable_eq (hmove : traffic.Move shards action after)
    (hclose : ∀ n, action ≠ .close n) (hreopen : action ≠ .reopen) :
    after.registry.awaitable = traffic.registry.awaitable := by
  cases hmove with
  | spawns n call id =>
      obtain ⟨tasks, hspawn⟩ := traffic.registry.exists_spawn_eq id
      rw [hspawn]
      rfl
  | cancels n shard endpoint id =>
      obtain ⟨tasks, hcancel⟩ := traffic.registry.exists_cancel_eq id
      rw [hcancel]
      rfl
  | turns now id step task task' service hturned =>
      show service.registry.awaitable = _
      rw [hturned.registry_eq]
  | refuses n | passes n | awaits n => exact absurd rfl (hclose n)
  | reopens => exact absurd rfl hreopen
  | _ => rfl

/-- Only reopening the registry takes back that the end may be waited for. -/
theorem Move.awaitable (hmove : traffic.Move shards action after)
    (hawaitable : traffic.registry.awaitable = true) (hreopen : action ≠ .reopen) :
    after.registry.awaitable = true := by
  by_cases hclose : ∀ n, action ≠ .close n
  · rw [hmove.awaitable_eq hclose hreopen]
    exact hawaitable
  · cases hmove with
    | refuses | passes => exact hawaitable
    | awaits => rfl
    | _ => simp at hclose

/-- A call that goes on closing the registry leaves the others where they are. -/
theorem Move.closers_of_ne {n m : Nat} (hmove : traffic.Move shards (.close n) after)
    (hne : m ≠ n) : after.closers[m]? = traffic.closers[m]? := by
  cases hmove with
  | refuses | passes | awaits => exact List.getElem?_set_ne hne.symm

theorem Move.closers_eq (hmove : traffic.Move shards action after)
    (hclose : ∀ n, action ≠ .close n) (hbegin : action ≠ .beginClose) :
    after.closers = traffic.closers := by
  cases hmove with
  | refuses n | passes n | awaits n => exact absurd rfl (hclose n)
  | beginsClose => exact absurd rfl hbegin
  | _ => rfl

/-- A call that closes the registry lets the end be waited for as the last thing. -/
theorem Move.awaitable_of_returned {n : Nat} (hmove : traffic.Move shards (.close n) after)
    (hreturned : after.closers[n]? = some .returned) : after.registry.awaitable = true := by
  cases hmove with
  | refuses _ hcloser | passes _ _ hcloser =>
      rcases getElem?_set_cases hreturned with ⟨-, hnew⟩ | ⟨hne, -⟩
      · cases hnew
      · exact absurd rfl hne
  | awaits => rfl

end Traffic

namespace Station

variable {σ : Type} {shards : Shards} {station after : Station σ} {action : ServerAction} {s : Nat}

/-! ## What a move does to one call -/

/-- How a call to shut down goes on with a move. -/
inductive Goes (station after : Station σ) (call : ShutdownCall) : ShutdownCall → Prop where
  | rests : Goes station after call call
  | cancels (stage : ShutdownStage) (token : Token) (hholds : call.holds token = true) :
      Goes station after call { call with stage }
  | hasClosed (closer : Nat) (hstage : call.stage = .closing closer)
      (hawaitable : after.registry.awaitable = true) :
      Goes station after call { call with stage := .closed }
  | watches (hstage : call.stage = .closed) :
      Goes station after call { call with stage := .waiting station.registry.allEnded }
  | resolves (hstage : call.stage = .waiting true) :
      Goes station after call { call with stage := .returned none }
  | expires (hstage : call.stage = .waiting false) :
      Goes station after call
        { call with
          stage := .returned (some (.shutdownTimeout call.deadline station.registry.pending)) }

/-- A call that goes on when one call does. -/
theorem goes_set {s m : Nat} {call other new : ShutdownCall}
    (hother : station.shutdowns[m]? = some other) (hcall : station.shutdowns[s]? = some call)
    (hshutdowns : after.shutdowns = station.shutdowns.set m new)
    (hgoes : station.Goes after other new) :
    ∃ call', after.shutdowns[s]? = some call' ∧ station.Goes after call call' := by
  rw [hshutdowns]
  by_cases hm : m = s
  · subst hm
    rw [hcall, Option.some.injEq] at hother
    subst hother
    exact ⟨new, List.getElem?_set_self (List.getElem?_eq_some_iff.mp hcall).1, hgoes⟩
  · rw [List.getElem?_set_ne hm]
    exact ⟨call, hcall, .rests⟩

theorem Move.goes (hmove : station.Move shards action after) {s : Nat} {call : ShutdownCall}
    (hcall : station.shutdowns[s]? = some call) :
    ∃ call', after.shutdowns[s]? = some call' ∧ station.Goes after call call' := by
  cases hmove with
  | findsStopped | takesStarting | takesListening =>
      have hlt := (List.getElem?_eq_some_iff.mp hcall).1
      exact ⟨call, (List.getElem?_append_left hlt).trans hcall, .rests⟩
  | abandons m other token hother hstage =>
      exact goes_set hother hcall rfl (.cancels _ token (by simp [ShutdownCall.holds, hstage]))
  | silences m other token traffic hother hstage =>
      exact goes_set hother hcall rfl (.cancels _ token (by simp [ShutdownCall.holds, hstage]))
  | hasClosed m closer other traffic hother hstage hmove hreturned =>
      exact goes_set hother hcall rfl
        (.hasClosed closer hstage (hmove.awaitable_of_returned hreturned))
  | watches m other hother hstage => exact goes_set hother hcall rfl (.watches hstage)
  | resolves m other hother hstage => exact goes_set hother hcall rfl (.resolves hstage)
  | expires m other hother hstage => exact goes_set hother hcall rfl (.expires hstage)
  | _ => exact ⟨call, hcall, .rests⟩

theorem Goes.holds_eq_false {call call' : ShutdownCall} (h : station.Goes after call call')
    (hcall : ∀ token, call.holds token = false) (token : Token) : call'.holds token = false := by
  cases h with
  | rests => exact hcall token
  | cancels stage held hholds =>
      rw [hcall] at hholds
      cases hholds
  | hasClosed | watches | resolves | expires => rfl

/-- A call has closed the registry from before, or lets the end be waited for with this step. -/
theorem Goes.isUnresolved {call call' : ShutdownCall} (h : station.Goes after call call')
    (hcall : ∀ token, call.holds token = false) (hunresolved : call'.isUnresolved = true) :
    call.isUnresolved = true ∨ after.registry.awaitable = true := by
  cases h with
  | rests => exact .inl hunresolved
  | cancels stage held hholds =>
      rw [hcall] at hholds
      cases hholds
  | hasClosed closer hstage hawaitable => exact .inr hawaitable
  | watches hstage => exact .inl (by simp [ShutdownCall.isUnresolved, hstage])
  | resolves | expires => cases hunresolved

/-- A call that is at closing or unresolved was so before. -/
theorem Goes.isClosing_or {call call' : ShutdownCall} (h : station.Goes after call call')
    (hcall : ∀ token, call.holds token = false)
    (hcall' : call'.isClosing = true ∨ call'.isUnresolved = true) :
    call.isClosing = true ∨ call.isUnresolved = true := by
  cases h with
  | rests => exact hcall'
  | cancels stage held hholds =>
      rw [hcall] at hholds
      cases hholds
  | hasClosed closer hstage => exact .inl (by simp [ShutdownCall.isClosing, hstage])
  | watches hstage => exact .inr (by simp [ShutdownCall.isUnresolved, hstage])
  | resolves | expires => simp [ShutdownCall.isClosing, ShutdownCall.isUnresolved] at hcall'

/-- A move switches the listener to listening, or it keeps that the end may be waited for and that
new sessions are refused. -/
theorem Move.switches_or_keeps (hmove : station.Move shards action after) :
    (∃ n token addr, action = .bind n (some addr) ∧
        station.listens[n]? = some (.binding token) ∧
        station.lifecycle.isCancelled token = false ∧ after.shutdowns = station.shutdowns) ∨
      (station.registry.awaitable = true → after.registry.awaitable = true) ∧
        (station.registry.closed = true → after.registry.closed = true ∧
          after.registry.tasks.length = station.registry.tasks.length) := by
  cases hmove with
  | switches n addr token hcall hlive => exact .inl ⟨n, token, addr, rfl, hcall, hlive, rfl⟩
  | receives n endpoint datagram token sample traffic _ _ _ hmove
  | routes r n token call traffic _ _ _ _ hmove | dies r n token call traffic _ _ _ _ _ hmove
  | turns now id step traffic hmove
  | silences s call token traffic _ _ hmove | closes s closer call traffic _ _ hmove
  | hasClosed s closer call traffic _ _ hmove | sweeps s closer endpoint call traffic _ _ hmove =>
      refine .inr ⟨fun hawaitable => hmove.awaitable hawaitable (by simp), fun hclosed => ?_⟩
      obtain ⟨hafter, -, hlength⟩ := hmove.of_closed hclosed (by simp)
      exact ⟨hafter, hlength⟩
  | _ => exact .inr ⟨id, fun hclosed => ⟨hclosed, rfl⟩⟩

/-- A call to shut down learns by taking notice only that all sessions have ended. -/
theorem notice_cases {s : Nat} {call : ShutdownCall} (hcall : station.shutdowns[s]? = some call) :
    ∃ call', station.notice.shutdowns[s]? = some call' ∧
      (call' = call ∨ ∃ reached, call.stage = .waiting reached ∧
        call' = { call with stage := .waiting true } ∧ station.registry.allEnded = true) := by
  by_cases hended : station.registry.allEnded = true
  · refine ⟨call.notice, ?_, ?_⟩
    · rw [notice, if_pos hended, List.getElem?_map, hcall]
      rfl
    · unfold ShutdownCall.notice
      split
      · rename_i reached hstage
        exact .inr ⟨reached, hstage, rfl, hended⟩
      · exact .inl rfl
  · rw [notice, if_neg hended]
    exact ⟨call, hcall, .inl rfl⟩

/-! ## Calls that are told nothing any more -/

/-- As long as no call to shut down begins, every call is an old one that may have gone on. -/
theorem Move.exists_goes (hmove : station.Move shards action after)
    (hshutdown : ∀ deadline, action ≠ .shutdown deadline) {t : Nat} {call' : ShutdownCall}
    (hcall' : after.shutdowns[t]? = some call') :
    ∃ call, station.shutdowns[t]? = some call ∧ station.Goes after call call' := by
  have hlength : after.shutdowns.length = station.shutdowns.length := by
    cases hmove with
    | findsStopped deadline | takesStarting deadline | takesListening deadline =>
        exact absurd rfl (hshutdown deadline)
    | abandons | silences | hasClosed | watches | resolves | expires => exact List.length_set
    | _ => rfl
  have hlt := (List.getElem?_eq_some_iff.mp hcall').1
  have hcall := List.getElem?_eq_getElem (hlength ▸ hlt)
  obtain ⟨call'', hcall'', hgoes⟩ := hmove.goes hcall
  rw [hcall', Option.some.injEq] at hcall''
  exact ⟨_, hcall, hcall'' ▸ hgoes⟩

/-- A call that closes the registry and is not done is that of a call to shut down. -/
def Owned (station : Station σ) : Prop :=
  ∀ (m : Nat) (stage : CloseStage), station.traffic.closers[m]? = some stage →
    stage ≠ .returned → ∃ call ∈ station.shutdowns, call.stage = .closing m

/-- A call stays when one at another stage goes on. -/
theorem mem_set_of_stage_ne {s : Nat} {call other : ShutdownCall} (hcall : call ∈ station.shutdowns)
    (hother : station.shutdowns[s]? = some other) (hstage : call.stage ≠ other.stage)
    (new : ShutdownCall) : call ∈ station.shutdowns.set s new := by
  obtain ⟨t, ht⟩ := List.mem_iff_getElem?.mp hcall
  exact List.mem_of_getElem? (getElem?_set_of_ne hother ht (mt (congrArg _) hstage) new)

theorem Owned.move (h : station.Owned) (hmove : station.Move shards action after) :
    after.Owned := by
  cases hmove with
  | switches | claims | isRefused | givesUp | misses | ignores | stops | fails => exact h
  | receives n endpoint datagram token sample traffic _ _ _ hmove
  | routes r n token call traffic _ _ _ _ hmove | dies r n token call traffic _ _ _ _ _ hmove
  | turns now id step traffic hmove
  | sweeps s closer endpoint call traffic _ _ hmove =>
      intro m stage hstage hgoesOn
      rw [hmove.closers_eq (by simp) (by simp)] at hstage
      exact h m stage hstage hgoesOn
  | findsStopped | takesStarting | takesListening =>
      intro m stage hstage hgoesOn
      obtain ⟨call, hcall, hclosing⟩ := h m stage hstage hgoesOn
      exact ⟨call, List.mem_append_left _ hcall, hclosing⟩
  | abandons s other token hother hstage | watches s other hother hstage
  | resolves s other hother hstage | expires s other hother hstage =>
      intro m stage hm hgoesOn
      obtain ⟨call, hcall, hclosing⟩ := h m stage hm hgoesOn
      exact ⟨call, mem_set_of_stage_ne hcall hother (by simp [hclosing, hstage]) _, hclosing⟩
  | silences s other token traffic hother hstage hmove =>
      cases hmove
      intro m stage hm hgoesOn
      rcases getElem?_concat_cases hm with hold | ⟨rfl, -⟩
      · obtain ⟨call, hcall, hclosing⟩ := h m stage hold hgoesOn
        exact ⟨call, mem_set_of_stage_ne hcall hother (by simp [hclosing, hstage]) _, hclosing⟩
      · have hlt := (List.getElem?_eq_some_iff.mp hother).1
        exact ⟨_, List.mem_of_getElem? (List.getElem?_set_self hlt), rfl⟩
  | closes s closer other traffic hother hstage hmove =>
      intro m stage hm hgoesOn
      by_cases hcloser : m = closer
      · exact ⟨other, List.mem_of_getElem? hother, hcloser ▸ hstage⟩
      · rw [hmove.closers_of_ne hcloser] at hm
        exact h m stage hm hgoesOn
  | hasClosed s closer other traffic hother hstage hmove hreturned =>
      intro m stage hm hgoesOn
      by_cases hcloser : m = closer
      · subst hcloser
        exact absurd (Option.some.inj (hm.symm.trans hreturned)) hgoesOn
      · change traffic.closers[m]? = some stage at hm
        rw [hmove.closers_of_ne hcloser] at hm
        obtain ⟨call, hcall, hclosing⟩ := h m stage hm hgoesOn
        have hne : call.stage ≠ other.stage := by
          rw [hclosing, hstage, Ne, ShutdownStage.closing.injEq]
          exact hcloser
        exact ⟨call, mem_set_of_stage_ne hcall hother hne _, hclosing⟩

theorem Owned.notice (h : station.Owned) : station.notice.Owned := by
  intro m stage hstage hgoesOn
  rw [traffic_notice] at hstage
  obtain ⟨call, hcall, hclosing⟩ := h m stage hstage hgoesOn
  obtain ⟨t, ht⟩ := List.mem_iff_getElem?.mp hcall
  obtain ⟨call', hcall', rfl | ⟨reached, hwaiting, -⟩⟩ := notice_cases ht
  · exact ⟨call', List.mem_of_getElem? hcall', hclosing⟩
  · rw [hclosing] at hwaiting
    cases hwaiting

/-- No call to shut down but one is between two of its steps. -/
def OthersRest (station : Station σ) (s : Nat) : Prop :=
  ∀ (t : Nat) (call : ShutdownCall), station.shutdowns[t]? = some call → t ≠ s →
    call.isAtRest = true

theorem Goes.isAtRest {call call' : ShutdownCall} (h : station.Goes after call call')
    (hcall : call.isAtRest = true) : call'.isAtRest = true := by
  cases h with
  | rests => exact hcall
  | cancels stage token hholds =>
      have hpast := ShutdownCall.isPastClosing_of_isAtRest hcall
      rw [ShutdownCall.holds_of_isPastClosing hpast] at hholds
      cases hholds
  | hasClosed closer hstage | watches hstage =>
      rw [ShutdownCall.isAtRest, hstage] at hcall
      cases hcall
  | resolves | expires => rfl

theorem OthersRest.move (h : station.OthersRest s) (hmove : station.Move shards action after)
    (hshutdown : ∀ deadline, action ≠ .shutdown deadline) : after.OthersRest s := by
  intro t call' hcall' hne
  obtain ⟨call, hcall, hgoes⟩ := hmove.exists_goes hshutdown hcall'
  exact hgoes.isAtRest (h t call hcall hne)

theorem OthersRest.notice (h : station.OthersRest s) : station.notice.OthersRest s := by
  intro t call' hcall' hne
  unfold Station.notice at hcall'
  split at hcall'
  · rw [List.getElem?_map] at hcall'
    obtain ⟨call, hcall, rfl⟩ := Option.map_eq_some_iff.mp hcall'
    have hrest := h t call hcall hne
    unfold ShutdownCall.notice
    split
    · rfl
    · exact hrest
  · exact h t call' hcall' hne

theorem Goes.isPastClosing {call call' : ShutdownCall} (h : station.Goes after call call')
    (hcall : call.isPastClosing = true) : call'.isPastClosing = true := by
  cases h with
  | rests => exact hcall
  | cancels stage token hholds =>
      rw [ShutdownCall.holds_of_isPastClosing hcall] at hholds
      cases hholds
  | hasClosed | watches | resolves | expires => rfl

/-- A call that has not learned of the end does not learn of it while it may not be waited for. -/
theorem Goes.onlyTimesOut {call call' : ShutdownCall} (h : station.Goes after call call')
    (hended : station.registry.allEnded = false) (hcall : call.OnlyTimesOut) :
    call'.OnlyTimesOut := by
  cases h with
  | rests => exact hcall
  | cancels stage token hholds =>
      rw [ShutdownCall.holds_of_isPastClosing hcall.isPastClosing] at hholds
      cases hholds
  | hasClosed closer hstage | resolves hstage =>
      simp [ShutdownCall.OnlyTimesOut, ShutdownCall.isUnresolved, hstage] at hcall
  | watches hstage => exact .inl (by rw [hended]; rfl)
  | expires => exact .inr ⟨_, rfl⟩

/-- All calls to shut down are past closing the registry and the end may not be waited for, so that
one of them, which has not learned of it yet, never will. -/
structure Settled (station : Station σ) (s : Nat) : Prop where
  past : ∀ (t : Nat) (call : ShutdownCall), station.shutdowns[t]? = some call →
    call.isPastClosing = true
  returned : ∀ stage ∈ station.traffic.closers, stage = .returned
  notAwaitable : station.registry.awaitable = false
  onlyTimesOut : ∃ call, station.shutdowns[s]? = some call ∧ call.OnlyTimesOut

theorem Settled.allEnded (h : station.Settled s) : station.registry.allEnded = false := by
  rw [Registry.allEnded, h.notAwaitable, Bool.false_and]

theorem Settled.notice (h : station.Settled s) : station.notice.Settled s := by
  rw [Station.notice, if_neg (by simp [h.allEnded])]
  exact h

/-- A call that is past closing is not at a step that closes. -/
theorem stage_ne_of_isPastClosing {call : ShutdownCall} (h : call.isPastClosing = true) :
    (∀ token, call.stage ≠ .abandoning token ∧ call.stage ≠ .silencing token) ∧
      ∀ closer, call.stage ≠ .closing closer := by
  refine ⟨fun token => ⟨?_, ?_⟩, fun closer => ?_⟩ <;> intro hstage <;>
    simp [ShutdownCall.isPastClosing, hstage] at h

theorem Settled.move (h : station.Settled s) (hmove : station.Move shards action after)
    (hshutdown : ∀ deadline, action ≠ .shutdown deadline) : after.Settled s := by
  have hpast : ∀ (t : Nat) (call : ShutdownCall), after.shutdowns[t]? = some call →
      call.isPastClosing = true := by
    intro t call' hcall'
    obtain ⟨call, hcall, hgoes⟩ := hmove.exists_goes hshutdown hcall'
    exact hgoes.isPastClosing (h.past t call hcall)
  have honly : ∃ call, after.shutdowns[s]? = some call ∧ call.OnlyTimesOut := by
    obtain ⟨call, hcall, honly⟩ := h.onlyTimesOut
    obtain ⟨call', hcall', hgoes⟩ := hmove.goes hcall
    exact ⟨call', hcall', hgoes.onlyTimesOut h.allEnded honly⟩
  cases hmove with
  | receives n endpoint datagram token sample traffic _ _ _ hmove
  | routes r n token call traffic _ _ _ _ hmove | dies r n token call traffic _ _ _ _ _ hmove
  | turns now id step traffic hmove =>
      refine ⟨hpast, ?_, ?_, honly⟩
      · rw [hmove.closers_eq (by simp) (by simp)]
        exact h.returned
      · exact (hmove.awaitable_eq (by simp) (by simp)).trans h.notAwaitable
  | switches => exact ⟨hpast, h.returned, rfl, honly⟩
  | findsStopped deadline | takesStarting deadline | takesListening deadline =>
      exact absurd rfl (hshutdown deadline)
  | abandons t call token hcall hstage =>
      exact absurd hstage ((stage_ne_of_isPastClosing (h.past t call hcall)).1 token).1
  | silences t call token traffic hcall hstage =>
      exact absurd hstage ((stage_ne_of_isPastClosing (h.past t call hcall)).1 token).2
  | closes t closer call traffic hcall hstage | hasClosed t closer call traffic hcall hstage
  | sweeps t closer endpoint call traffic hcall hstage =>
      exact absurd hstage ((stage_ne_of_isPastClosing (h.past t call hcall)).2 closer)
  | _ => exact ⟨hpast, h.returned, h.notAwaitable, honly⟩

/-- Switching the listener to listening cuts off a call that is unresolved, when no other call is at
closing the registry. -/
theorem settled_switch {lifecycle : Lifecycle} {token : Token} {n : Nat} {listen : ListenCall}
    {call : ShutdownCall} (howned : station.Owned) (hothers : station.OthersRest s)
    (hcall : station.shutdowns[s]? = some call) (hunresolved : call.isUnresolved = true) :
    ((station.switch token lifecycle).setListen n listen).Settled s := by
  have hpast : ∀ (t : Nat) (call : ShutdownCall), station.shutdowns[t]? = some call →
      call.isPastClosing = true := by
    intro t other hother
    by_cases hne : t = s
    · subst hne
      rw [hcall, Option.some.injEq] at hother
      exact ShutdownCall.isPastClosing_of_isUnresolved (hother ▸ hunresolved)
    · exact ShutdownCall.isPastClosing_of_isAtRest (hothers t other hother hne)
  refine ⟨hpast, ?_, rfl, call, hcall, .inl hunresolved⟩
  intro stage hstage
  by_contra hgoesOn
  obtain ⟨m, hm⟩ := List.mem_iff_getElem?.mp hstage
  obtain ⟨other, hother, hclosing⟩ := howned m stage hm hgoesOn
  obtain ⟨t, ht⟩ := List.mem_iff_getElem?.mp hother
  exact absurd hclosing ((stage_ne_of_isPastClosing (hpast t other ht)).2 m)

/-! ## Deadlines and switches -/

/-- A call to shut down returns with an error if its deadline passes now. -/
def TimesOut [Store σ] (shards : Shards) (station : Station σ) (s : Nat) : Prop :=
  ∃ deadline, (station.step? shards (.expire s)).bind (·.shutdowns[s]?) =
    some ⟨deadline, .returned (some (.shutdownTimeout deadline station.registry.pending))⟩

/-- The listener was switched to listening by one of the later actions, at a moment at which a call
to shut down was at something. -/
def SwitchedWhile [Store σ] (shards : Shards) (start : Station σ) (later : List ServerAction)
    (s : Nat) (doing : ShutdownCall → Bool) : Prop :=
  ∃ earlier n addr rest, later = earlier ++ .bind n (some addr) :: rest ∧
    let moment := start.run shards earlier
    (∃ token, moment.listens[n]? = some (.binding token) ∧
      moment.lifecycle.isCancelled token = false) ∧
    ∃ call, moment.shutdowns[s]? = some call ∧ doing call = true

/-! ## Calls that do not know the end yet -/

/-- Who waits without knowing that all sessions have ended waits rightly: they have not, or their
end may not be waited for. -/
def Unnoticed (station : Station σ) : Prop :=
  ∀ call ∈ station.shutdowns, call.stage = .waiting false → station.registry.allEnded = false

theorem unnoticed_notice (station : Station σ) : station.notice.Unnoticed := by
  intro call hcall hstage
  by_cases hended : station.registry.allEnded = true
  · rw [notice, if_pos hended] at hcall
    obtain ⟨before, -, rfl⟩ := List.mem_map.mp hcall
    unfold ShutdownCall.notice at hstage
    split at hstage
    · cases hstage
    · rename_i hother
      exact absurd hstage (hother false)
  · rw [registry, traffic_notice]
    simpa using hended

/-- While the end may be waited for, who waits without knowing it waits for some session. -/
theorem Unnoticed.exists_isPending (h : station.Unnoticed) {s : Nat} {deadline : Duration}
    (hwaiting : station.shutdowns[s]? = some ⟨deadline, .waiting false⟩)
    (hawaitable : station.registry.awaitable = true) :
    ∃ id, station.registry.IsPending id ∧ id < station.registry.tasks.length := by
  apply Registry.exists_isPending
  intro hzero
  have hended := h _ (List.mem_of_getElem? hwaiting) rfl
  rw [Registry.allEnded, hawaitable, hzero] at hended
  cases hended

variable [Store σ] {start : Station σ} {later : List ServerAction} {count : Nat}
  {doing : ShutdownCall → Bool}

theorem timesOut_iff : station.TimesOut shards s ↔
    ∃ deadline, station.shutdowns[s]? = some ⟨deadline, .waiting false⟩ := by
  constructor
  · rintro ⟨deadline, hexpired⟩
    obtain ⟨after, hstep, -⟩ := Option.bind_eq_some_iff.mp hexpired
    obtain ⟨moved, hmove, -⟩ := exists_move hstep
    cases hmove with
    | expires _ call hcall hstage =>
        obtain ⟨deadline, stage⟩ := call
        subst hstage
        exact ⟨deadline, hcall⟩
  · rintro ⟨deadline, hcall⟩
    let error := Error.shutdownTimeout deadline station.registry.pending
    have hact : station.act? shards (.expire s) =
        some (station.setStage s ⟨deadline, .waiting false⟩ (.returned (some error))) := by
      simp [act?, await?, hcall, expireStage?, error]
    have hset : (station.setStage s ⟨deadline, .waiting false⟩
        (.returned (some error))).shutdowns[s]? = some ⟨deadline, .returned (some error)⟩ :=
      List.getElem?_set_self (List.getElem?_eq_some_iff.mp hcall).1
    obtain ⟨call', hcall', rfl | ⟨reached, hstage, -⟩⟩ := notice_cases hset
    · refine ⟨deadline, ?_⟩
      rw [step?, hact]
      exact hcall'
    · cases hstage

theorem SwitchedWhile.concat (h : SwitchedWhile shards start later s doing)
    (action : ServerAction) : SwitchedWhile shards start (later ++ [action]) s doing := by
  obtain ⟨earlier, n, addr, rest, rfl, hmoment⟩ := h
  exact ⟨earlier, n, addr, rest ++ [action], by simp, hmoment⟩

theorem not_switchedWhile (h : ∀ n addr, .bind n (some addr) ∉ later) :
    ¬SwitchedWhile shards start later s doing := by
  rintro ⟨earlier, n, addr, rest, rfl, -⟩
  exact h n addr List.mem_append_cons_self

/-- The listener is switched to listening just now. -/
theorem switchedWhile_concat {n : Nat} {addr : String} {token : Token} {call : ShutdownCall}
    (hrun : start.run shards later = station)
    (hlisten : station.listens[n]? = some (.binding token))
    (hlive : station.lifecycle.isCancelled token = false)
    (hcall : station.shutdowns[s]? = some call) (hdoing : doing call = true) :
    SwitchedWhile shards start (later ++ [.bind n (some addr)]) s doing := by
  refine ⟨later, n, addr, [], rfl, ?_, call, ?_, hdoing⟩
  · rw [hrun]
    exact ⟨token, hlisten, hlive⟩
  · rw [hrun]
    exact hcall

/-! ## Calls that wait for the sessions from before -/

/-- What is known of a call that closes the registry or has closed it and waits, from the moment on
at which new sessions were refused, with as many tasks as there were then. -/
structure Watched (shards : Shards) (start : Station σ) (later : List ServerAction)
    (station : Station σ) (s count : Nat) (call : ShutdownCall) : Prop where
  call_eq : station.shutdowns[s]? = some call
  notHolding : ∀ token, call.holds token = false
  awaitable : call.isUnresolved = true →
    SwitchedWhile shards start later s ShutdownCall.isUnresolved ∨
      station.registry.awaitable = true
  closed : call.isClosing = true ∨ call.isUnresolved = true →
    SwitchedWhile shards start later s ShutdownCall.isUnresolved ∨
      SwitchedWhile shards start later s ShutdownCall.isClosing ∨
        station.registry.closed = true ∧ station.registry.tasks.length = count

theorem Watched.move {call : ShutdownCall} (h : Watched shards start later station s count call)
    (hrun : start.run shards later = station) (hmove : station.Move shards action after) :
    ∃ call', Watched shards start (later ++ [action]) after s count call' := by
  obtain ⟨call', hcall', hgoes⟩ := hmove.goes h.call_eq
  refine ⟨call', hcall', hgoes.holds_eq_false h.notHolding, ?_, ?_⟩
  · intro hunresolved
    rcases hgoes.isUnresolved h.notHolding hunresolved with hbefore | hawaitable
    · rcases hmove.switches_or_keeps with ⟨n, token, addr, rfl, hlisten, hlive, -⟩ | ⟨hkept, -⟩
      · exact .inl (switchedWhile_concat hrun hlisten hlive h.call_eq hbefore)
      · exact (h.awaitable hbefore).imp (·.concat action) hkept
    · exact .inr hawaitable
  · intro hgoesOn
    have hbefore := hgoes.isClosing_or h.notHolding hgoesOn
    rcases hmove.switches_or_keeps with ⟨n, token, addr, rfl, hlisten, hlive, -⟩ | ⟨-, hkept⟩
    · rcases hbefore with hclosing | hunresolved
      · exact .inr (.inl (switchedWhile_concat hrun hlisten hlive h.call_eq hclosing))
      · exact .inl (switchedWhile_concat hrun hlisten hlive h.call_eq hunresolved)
    · refine (h.closed hbefore).imp (·.concat action) (Or.imp (·.concat action) ?_)
      rintro ⟨hclosed, hlength⟩
      obtain ⟨hafter, hsame⟩ := hkept hclosed
      exact ⟨hafter, hsame.trans hlength⟩

/-- A call that waits learns of the end, or stays as it is. -/
theorem Watched.notice {call : ShutdownCall}
    (h : Watched shards start later station s count call) :
    ∃ call', Watched shards start later station.notice s count call' := by
  obtain ⟨call', hcall', hsame | ⟨reached, hstage, rfl, -⟩⟩ := notice_cases h.call_eq
  · subst hsame
    refine ⟨call', hcall', h.notHolding, ?_, ?_⟩
    · rw [registry, traffic_notice]
      exact h.awaitable
    · rw [registry, traffic_notice]
      exact h.closed
  · exact ⟨_, hcall', fun _ => rfl, by simp [ShutdownCall.isUnresolved],
      by simp [ShutdownCall.isUnresolved, ShutdownCall.isClosing]⟩

/-- What is kept by every action is kept, be the action possible or not. -/
theorem watched_run {call : ShutdownCall} (h : Watched shards start [] start s count call)
    (later : List ServerAction) :
    ∃ call', Watched shards start later (start.run shards later) s count call' := by
  induction later using List.reverseRecOn with
  | nil => exact ⟨call, h⟩
  | append_singleton later action ih =>
      obtain ⟨call', hcall'⟩ := ih
      rw [run_concat]
      unfold step
      cases hstep : (start.run shards later).step? shards action with
      | none =>
          refine ⟨call', hcall'.call_eq, hcall'.notHolding, ?_, ?_⟩
          · exact fun hunresolved => (hcall'.awaitable hunresolved).imp_left (·.concat action)
          · exact fun hgoesOn => (hcall'.closed hgoesOn).imp (·.concat action)
              (Or.imp_left (·.concat action))
      | some after =>
          obtain ⟨moved, hmove, rfl⟩ := exists_move hstep
          obtain ⟨call'', hmoved⟩ := hcall'.move rfl hmove
          exact hmoved.notice

theorem unnoticed_run (h : start.Unnoticed) (later : List ServerAction) :
    (start.run shards later).Unnoticed := by
  induction later using List.reverseRecOn with
  | nil => exact h
  | append_singleton later action ih =>
      rw [run_concat]
      unfold step
      cases hstep : (start.run shards later).step? shards action with
      | none => exact ih
      | some after =>
          obtain ⟨moved, -, rfl⟩ := exists_move hstep
          exact unnoticed_notice moved

/-! ## Runs -/

theorem run_append (start : Station σ) (first second : List ServerAction) :
    start.run shards (first ++ second) = (start.run shards first).run shards second :=
  List.foldl_append

theorem run_cons (start : Station σ) (action : ServerAction) (actions : List ServerAction) :
    start.run shards (action :: actions) = (start.step shards action).run shards actions :=
  rfl

theorem settled_run (h : station.Settled s) (actions : List ServerAction)
    (hshutdown : ∀ deadline, .shutdown deadline ∉ actions) :
    (station.run shards actions).Settled s := by
  refine run_induction (P := fun station => station.Settled s) actions ?_ (fun _ h => h.notice) h
  intro station h action haction after hmove
  exact h.move hmove fun deadline heq => hshutdown deadline (heq ▸ haction)

theorem owned_run (h : station.Owned) (actions : List ServerAction) :
    (station.run shards actions).Owned := by
  apply run_induction actions
  · exact fun _ h _ _ _ hmove => h.move hmove
  · exact fun _ h => h.notice
  · exact h

theorem othersRest_run (h : station.OthersRest s) (actions : List ServerAction)
    (hshutdown : ∀ deadline, .shutdown deadline ∉ actions) :
    (station.run shards actions).OthersRest s := by
  refine run_induction (P := fun station => station.OthersRest s) actions ?_
    (fun _ h => h.notice) h
  intro station h action haction after hmove
  exact h.move hmove fun deadline heq => hshutdown deadline (heq ▸ haction)

/-- A call that was cut off once can only time out. -/
theorem onlyTimesOut_of_switchedWhile (howned : start.Owned) (hothers : start.OthersRest s)
    (hshutdown : ∀ deadline, .shutdown deadline ∉ later)
    (hswitched : SwitchedWhile shards start later s ShutdownCall.isUnresolved) :
    ∃ call, (start.run shards later).shutdowns[s]? = some call ∧ call.OnlyTimesOut := by
  obtain ⟨earlier, n, addr, rest, rfl, ⟨token, hlisten, hlive⟩, call, hcall, hunresolved⟩ :=
    hswitched
  simp only [List.mem_append, List.mem_cons, not_or] at hshutdown
  have howned : (start.run shards earlier).Owned := owned_run howned earlier
  have hothers : (start.run shards earlier).OthersRest s :=
    othersRest_run hothers earlier fun d => (hshutdown d).1
  rw [run_append, run_cons]
  have hstep : (start.run shards earlier).step shards (.bind n (some addr)) = _ :=
    step_of_act shards (by
      simp only [act?, bind?, hlisten, Lifecycle.completeBind, hlive, Bool.false_eq_true, if_false]
      rfl)
  rw [hstep]
  refine (settled_run (Settled.notice ?_) rest fun d => (hshutdown d).2.2).onlyTimesOut
  exact settled_switch howned hothers hcall hunresolved

/-- A call to shut down refuses new sessions, and goes on closing the registry. -/
theorem step_refuse {closer : Nat} {deadline : Duration}
    (hcall : station.shutdowns[s]? = some ⟨deadline, .closing closer⟩)
    (hcloser : station.traffic.closers[closer]? = some .refusing) :
    station.step shards (.close s) =
      { station with
        traffic := { station.traffic.withRegistry station.registry.refuse with
          closers := station.traffic.closers.set closer (.sweeping 0) } }.notice := by
  have hlt : closer < station.traffic.closers.length := (List.getElem?_eq_some_iff.mp hcloser).1
  have hclose : station.traffic.close? shards closer =
      some { station.traffic.withRegistry station.registry.refuse with
        closers := station.traffic.closers.set closer (.sweeping 0) } := by
    simp only [Traffic.close?, hcloser]
  refine step_of_act shards ?_
  simp [act?, close?, hcall, hclose, hlt]

/-- From then on it can be told how the call goes on. -/
theorem watched_refuse {closer : Nat} {deadline : Duration}
    (hcall : station.shutdowns[s]? = some ⟨deadline, .closing closer⟩)
    (hcloser : station.traffic.closers[closer]? = some .refusing) :
    ∃ call, Watched shards (station.step shards (.close s)) [] (station.step shards (.close s)) s
      station.registry.tasks.length call := by
  rw [step_refuse hcall hcloser]
  refine Watched.notice ⟨hcall, fun _ => rfl, ?_, fun _ => .inr (.inr ⟨rfl, rfl⟩)⟩
  simp [ShutdownCall.isUnresolved]

omit [Store σ] in
theorem owned_fresh (config : ServerConfig) (world : World σ) (sessionIds : Nat → Uuid) :
    (fresh config world sessionIds).Owned := by
  simp [Owned, fresh, Traffic.fresh]

omit [Store σ] in
theorem unnoticed_fresh (config : ServerConfig) (world : World σ) (sessionIds : Nat → Uuid) :
    (fresh config world sessionIds).Unnoticed := by
  simp [Unnoticed, fresh]

/-- What a call to shut down can have waited for in vain, whoever else was at work on the server
before it began to close the registry and afterwards. When its deadline passes before it learned
that all sessions have ended, some session from before it refused new ones has not ended; or the
listener was switched to listening while the call was waiting already; or it was switched while the
call was still closing the registry, and some session that was opened since has not ended. A call
during whose wait the listener is switched can only time out, whatever becomes of the sessions,
unless another call to shut down is at work. -/
theorem timesOut_cases (shards : Shards) (config : ServerConfig) (world : World σ)
    (sessionIds : Nat → Uuid) (earlier later : List ServerAction) {s closer : Nat}
    {deadline : Duration}
    (hcall : ((fresh config world sessionIds).run shards earlier).shutdowns[s]? =
      some ⟨deadline, .closing closer⟩)
    (hcloser : ((fresh config world sessionIds).run shards earlier).traffic.closers[closer]? =
      some .refusing) :
    let before := (fresh config world sessionIds).run shards earlier
    let refused := before.step shards (.close s)
    let after := refused.run shards later
    let count := before.registry.tasks.length
    (after.TimesOut shards s →
      (∃ id, id < count ∧ after.registry.IsPending id) ∨
        SwitchedWhile shards refused later s ShutdownCall.isUnresolved ∨
          SwitchedWhile shards refused later s ShutdownCall.isClosing ∧
            ∃ id, count ≤ id ∧ after.registry.IsPending id) ∧
    (before.OthersRest s → (∀ deadline, .shutdown deadline ∉ later) →
      SwitchedWhile shards refused later s ShutdownCall.isUnresolved →
      ∃ call, after.shutdowns[s]? = some call ∧ call.OnlyTimesOut) := by
  intro before refused after count
  constructor
  · intro htimesOut
    obtain ⟨deadline', hwaiting⟩ := timesOut_iff.mp htimesOut
    obtain ⟨call, (hwatched : Watched shards _ _ _ _ _ _)⟩ := watched_refuse hcall hcloser
    obtain ⟨call', hwatched'⟩ := watched_run hwatched later
    have hcall' : call' = ⟨deadline', .waiting false⟩ :=
      Option.some.inj (hwatched'.call_eq.symm.trans hwaiting)
    subst hcall'
    have hbefore : before.Unnoticed :=
      unnoticed_run (unnoticed_fresh config world sessionIds) earlier
    have hunnoticed : after.Unnoticed := unnoticed_run hbefore (.close s :: later)
    rcases hwatched'.awaitable rfl with hswitched | hawaitable
    · exact .inr (.inl hswitched)
    · obtain ⟨id, hid, hlt⟩ := hunnoticed.exists_isPending hwaiting hawaitable
      by_cases hold : id < count
      · exact .inl ⟨id, hold, hid⟩
      · rcases hwatched'.closed (.inr rfl) with hswitched | hswitched | ⟨-, hlength⟩
        · exact .inr (.inl hswitched)
        · exact .inr (.inr ⟨hswitched, id, Nat.le_of_not_lt hold, hid⟩)
        · exact absurd (hlt.trans_eq hlength) hold
  · intro hothers hshutdown hswitched
    have howned : refused.Owned :=
      owned_run (owned_run (owned_fresh config world sessionIds) earlier) [.close s]
    have hrest : refused.OthersRest s := othersRest_run hothers [.close s] (by simp)
    exact onlyTimesOut_of_switchedWhile howned hrest hshutdown hswitched

omit [Store σ] in
/-- A call to shut down whose deadline passes while the session that it told to close is at work. -/
theorem timesOut_of_slow_session :
    let world := World.fresh MemoryStore.empty .none (fun _ => default) .ofNat
    let datagram := Wire.Packet.encode { Sample.lapping .one with timestampMs := 1 }
    let earlier := [.listen, .bind 0 (some "127.0.0.1:5300"), .receive 0 "car" datagram, .route 0,
      .route 0, .route 0, .route 0, .task 0 0 .start, .shutdown ⟨5⟩, .cancel 0, .stop 0]
    let later := [.sweep 0 "car", .close 0, .close 0, .watch 0, .task 0 0 .leave]
    let before := (fresh {} world .ofNat).run .single earlier
    let after := (before.step .single (.close 0)).run .single later
    before.registry.endpoints = ["car"] ∧ after.TimesOut .single 0 ∧
      ∃ id, id < before.registry.tasks.length ∧ after.registry.IsPending id := by
  intro world datagram earlier later before after
  have htimesOut : after.TimesOut .single 0 := timesOut_iff.mpr ⟨⟨5⟩, by decide +kernel⟩
  have hcall : ((fresh {} world .ofNat).run .single earlier).shutdowns[0]? =
      some ⟨⟨5⟩, .closing 0⟩ := by
    decide +kernel
  have hcloser : ((fresh {} world .ofNat).run .single earlier).traffic.closers[0]? =
      some .refusing := by
    decide +kernel
  have hbind : ∀ n addr, .bind n (some addr) ∉ later := by simp [later]
  obtain ⟨hcases, -⟩ := timesOut_cases .single {} world .ofNat earlier later hcall hcloser
  refine ⟨by decide +kernel, htimesOut, ?_⟩
  rcases hcases htimesOut with hold | hswitched | ⟨hswitched, -⟩
  · with_reducible exact hold
  · exact absurd hswitched (not_switchedWhile hbind)
  · exact absurd hswitched (not_switchedWhile hbind)

omit [Store σ] in
/-- A call to shut down that times out although every session has ended: the listener was started
again while the call waited for the one session that there was. -/
theorem false_alarm_after_restart :
    let world := World.fresh MemoryStore.empty .none (fun _ => default) .ofNat
    let datagram := Wire.Packet.encode { Sample.lapping .one with timestampMs := 1 }
    let requests := (List.replicate 5 [.task 0 0 .call, .task 0 0 .complete]).flatten
    let earlier := [.listen, .bind 0 (some "127.0.0.1:5300"), .receive 0 "car" datagram, .route 0,
      .route 0, .route 0, .route 0, .task 0 0 .start, .shutdown ⟨5⟩, .cancel 0, .stop 0]
    let later := [.sweep 0 "car", .close 0, .close 0, .watch 0, .listen,
        .bind 1 (some "127.0.0.1:5300"), .task 0 0 .leave, .task 0 0 .unregister,
        .task 0 0 .closeQueue, .task 0 0 .drain] ++
      requests ++ [.task 0 0 .settle, .task 0 0 .conclude] ++ requests ++ [.task 0 0 .settle]
    let before := (fresh {} world .ofNat).run .single earlier
    let after := (before.step .single (.close 0)).run .single later
    before.registry.endpoints = ["car"] ∧
      (∀ task ∈ after.registry.tasks, task.stage.hasLeft = true) ∧
      (∀ id, ¬after.registry.IsPending id) ∧ after.TimesOut .single 0 ∧
      (after.step .single (.expire 0)).shutdowns =
        [⟨⟨5⟩, .returned (some (.shutdownTimeout ⟨5⟩ 0))⟩] := by
  intro world datagram requests earlier later before after
  refine ⟨by decide +kernel, by decide +kernel, ?_, ?_, by decide +kernel⟩
  · exact Registry.not_isPending (by decide +kernel)
  · exact timesOut_iff.mpr ⟨⟨5⟩, by decide +kernel⟩

end Station

end RaceIngest
