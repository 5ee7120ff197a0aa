import RaceIngest.Proofs.Server.Moves
import RaceIngest.Proofs.Session.Filing
import RaceIngest.Store.Memory

/-!
# When a server is stopped

A server on which every call is over should be stopped: no call receives datagrams, so the listener
should neither count as running nor refuse to be started. The invariant `Station.Orderly` follows
the token of the state. Nobody has taken it while the listener is starting, and the call that
claimed the listener with it is still binding. While the listener is listening, the call is
receiving, unless it was told to stop or stopped on its own.

What can go wrong is the moment of the switch. A call to shut down takes the state of a listener
that is binding and cancels the token only afterwards; when binding completes in between, the call
to listen sees no cancellation and switches the listener to listening all the same. It then finds
its token cancelled and returns, and nobody is left who would set the listener back.

## Main results

* `Station.Orderly.move`: one move keeps the order of the tokens.
* `Station.stopped_iff`: when a server whose calls are all over is stopped.
* `Station.listening_after_all_returned`: a server that is not.
-/

namespace RaceIngest

/-- The token of the call that a listener is claimed by. -/
def ListenerState.token? : ListenerState → Option Token
  | .stopped => none
  | .starting token | .listening token _ => some token

/-- Whether a call to listen returned or died. -/
def ListenCall.isOver : ListenCall → Bool
  | .returned _ | .died => true
  | _ => false

/-- Whether a call to shut down returned. -/
def ShutdownCall.isOver (call : ShutdownCall) : Bool :=
  match call.stage with
  | .returned _ => true
  | _ => false

theorem ShutdownCall.holds_notice (call : ShutdownCall) (token : Token) :
    call.notice.holds token = call.holds token := by
  unfold notice
  split
  · rename_i reached hstage
    simp [holds, hstage]
  · rfl

namespace Station

variable {σ : Type}

/-! ## Tokens that were taken -/

/-- Whether a call to shut down took a token, be it cancelled already or not. -/
def isTaken (station : Station σ) (token : Token) : Bool :=
  station.isHeld token || station.lifecycle.isCancelled token

theorem isTaken_iff (station : Station σ) (token : Token) :
    station.isTaken token = true ↔
      (∃ call ∈ station.shutdowns, call.holds token = true) ∨
        station.lifecycle.isCancelled token = true := by
  simp [isTaken, isHeld]

theorem isTaken_notice (station : Station σ) (token : Token) :
    station.notice.isTaken token = station.isTaken token := by
  unfold notice
  split
  · simp [isTaken, isHeld, List.any_map, Function.comp_def, ShutdownCall.holds_notice]
  · rfl

/-- A call to shut down that changes its stage gives up the token it holds only to cancel it. -/
theorem isTaken_of_setStage {station after : Station σ} {s : Nat} {call : ShutdownCall}
    {stage : ShutdownStage}
    (hshutdowns : after.shutdowns = station.shutdowns.set s { call with stage })
    (hstage : ∀ token, ({ call with stage } : ShutdownCall).holds token = false)
    (hcancelled : ∀ token, after.lifecycle.isCancelled token = true →
      station.isTaken token = true) (token : Token) (h : after.isTaken token = true) :
    station.isTaken token = true := by
  rcases (isTaken_iff after token).mp h with ⟨other, hother, hholds⟩ | hcancel
  · rw [hshutdowns] at hother
    rcases List.mem_or_eq_of_mem_set hother with hold | rfl
    · exact (isTaken_iff station token).mpr (.inl ⟨other, hold, hholds⟩)
    · rw [hstage] at hholds
      cases hholds
  · exact hcancelled token hcancel

/-! ## Order among the tokens -/

/-- What is always true of tokens and the calls that have them. -/
structure Orderly (station : Station σ) : Prop where
  state_lt : ∀ token, station.lifecycle.state.token? = some token →
    token < station.lifecycle.issued
  binding_lt : ∀ (n : Nat) (token : Token), station.listens[n]? = some (.binding token) →
    token < station.lifecycle.issued
  taken_lt : ∀ token, station.isTaken token = true → token < station.lifecycle.issued
  starting : ∀ token, station.lifecycle.state = .starting token →
    station.isTaken token = false ∧ ∃ n : Nat, station.listens[n]? = some (.binding token)
  listening : ∀ token addr, station.lifecycle.state = .listening token addr →
    (∃ n : Nat, station.listens[n]? = some (.receiving token)) ∨
      station.lifecycle.isCancelled token = true ∨ token ∈ station.broken
  overtaken : ∀ token addr, station.lifecycle.state = .listening token addr →
    station.isTaken token = true → token ∈ station.overtaken

/-- A change of the calls to shut down that takes no token. -/
theorem Orderly.of_shutdowns {station after : Station σ} (h : station.Orderly)
    (hstate : after.lifecycle.state = station.lifecycle.state)
    (hissued : after.lifecycle.issued = station.lifecycle.issued)
    (hlistens : after.listens = station.listens) (hbroken : after.broken = station.broken)
    (hovertaken : after.overtaken = station.overtaken)
    (hcancelled : ∀ token, station.lifecycle.isCancelled token = true →
      after.lifecycle.isCancelled token = true)
    (htaken : ∀ token, after.isTaken token = true → station.isTaken token = true) :
    after.Orderly where
  state_lt := by rw [hstate, hissued]; exact h.state_lt
  binding_lt := by rw [hlistens, hissued]; exact h.binding_lt
  taken_lt := by
    intro token htoken
    rw [hissued]
    exact h.taken_lt token (htaken token htoken)
  starting := by
    intro token hstarting
    rw [hstate] at hstarting
    obtain ⟨hfree, hbinding⟩ := h.starting token hstarting
    rw [hlistens]
    refine ⟨?_, hbinding⟩
    by_cases htoken : after.isTaken token = true
    · rw [htaken token htoken] at hfree
      cases hfree
    · simpa using htoken
  listening := by
    intro token addr hlistening
    rw [hstate] at hlistening
    rw [hlistens, hbroken]
    exact (h.listening token addr hlistening).imp id (Or.imp (hcancelled token) id)
  overtaken := by
    intro token addr hlistening htoken
    rw [hstate] at hlistening
    rw [hovertaken]
    exact h.overtaken token addr hlistening (htaken token htoken)

/-- A call to listen that is over: it gave up a token that was taken, or it was told to stop
receiving, or it stopped on its own. -/
theorem Orderly.of_listens {station after : Station σ} (h : station.Orderly) {n : Nat}
    {call new : ListenCall} (hcall : station.listens[n]? = some call)
    (hlistens : after.listens = station.listens.set n new) (hover : new.isOver = true)
    (hbinding : ∀ token, call = .binding token → station.isTaken token = true)
    (hreceiving : ∀ token, call = .receiving token →
      station.lifecycle.isCancelled token = true ∨ token ∈ after.broken)
    (hlifecycle : after.lifecycle = station.lifecycle)
    (hshutdowns : after.shutdowns = station.shutdowns)
    (hovertaken : after.overtaken = station.overtaken)
    (hbroken : ∀ token ∈ station.broken, token ∈ after.broken) : after.Orderly := by
  have htaken : after.isTaken = station.isTaken := by
    funext token
    rw [isTaken, isTaken, isHeld, isHeld, hlifecycle, hshutdowns]
  -- the calls that are not over are old ones, and all old ones but this are still there
  have hold : ∀ (m : Nat) (call' : ListenCall), after.listens[m]? = some call' →
      call'.isOver = false →
      station.listens[m]? = some call' := by
    intro m call' hcall' hgoesOn
    rw [hlistens] at hcall'
    rcases getElem?_set_cases hcall' with ⟨-, rfl⟩ | ⟨-, hbefore⟩
    · rw [hover] at hgoesOn
      cases hgoesOn
    · exact hbefore
  have hkept : ∀ (m : Nat) (call' : ListenCall), station.listens[m]? = some call' →
      call' ≠ call → after.listens[m]? = some call' := by
    intro m call' hcall' hne
    rw [hlistens]
    exact getElem?_set_of_ne hcall hcall' hne new
  refine ⟨?_, ?_, ?_, ?_, ?_, ?_⟩
  · rw [hlifecycle]
    exact h.state_lt
  · intro m token hm
    rw [hlifecycle]
    exact h.binding_lt m token (hold m _ hm rfl)
  · rw [hlifecycle, htaken]
    exact h.taken_lt
  · intro token hstarting
    rw [hlifecycle] at hstarting
    obtain ⟨hfree, m, hm⟩ := h.starting token hstarting
    rw [htaken]
    refine ⟨hfree, m, hkept m _ hm ?_⟩
    intro heq
    rw [hbinding token heq.symm] at hfree
    cases hfree
  · intro token addr hlistening
    rw [hlifecycle] at hlistening ⊢
    rcases h.listening token addr hlistening with ⟨m, hm⟩ | hcancelled | hmem
    · by_cases heq : call = .receiving token
      · exact .inr (hreceiving token heq)
      · exact .inl ⟨m, hkept m _ hm (Ne.symm heq)⟩
    · exact .inr (.inl hcancelled)
    · exact .inr (.inr (hbroken token hmem))
  · rw [hlifecycle, htaken, hovertaken]
    exact h.overtaken

/-- A change that concerns neither the listener nor the calls to listen and to shut down. -/
theorem Orderly.of_traffic {station : Station σ} (h : station.Orderly) (traffic : Traffic σ)
    (owners : List Nat) : { station with traffic, owners }.Orderly :=
  h.of_shutdowns rfl rfl rfl rfl rfl (fun _ hcancelled => hcancelled) fun _ htaken => htaken

/-- A call to shut down goes on and neither takes nor cancels anything. -/
theorem Orderly.of_stage {station : Station σ} (h : station.Orderly) (s : Nat)
    (call : ShutdownCall) {stage : ShutdownStage}
    (hstage : ∀ token, ({ call with stage } : ShutdownCall).holds token = false) :
    (station.setStage s call stage).Orderly := by
  refine h.of_shutdowns rfl rfl rfl rfl rfl (fun _ hcancelled => hcancelled) ?_
  refine isTaken_of_setStage rfl hstage fun token hcancelled => ?_
  exact (isTaken_iff station token).mpr (.inr hcancelled)

/-- A call to shut down cancels the token that it holds. -/
theorem Orderly.cancel {station : Station σ} (h : station.Orderly) {s : Nat} {call : ShutdownCall}
    {token : Token} {stage : ShutdownStage} (hcall : station.shutdowns[s]? = some call)
    (hholds : call.holds token = true)
    (hstage : ∀ other, ({ call with stage } : ShutdownCall).holds other = false)
    (traffic : Traffic σ) :
    ({ station with
      lifecycle := station.lifecycle.cancel token, traffic }.setStage s call stage).Orderly := by
  have hmem : call ∈ station.shutdowns := List.mem_of_getElem? hcall
  have hcancel : ∀ other, (station.lifecycle.cancel token).isCancelled other = true ↔
      other = token ∨ station.lifecycle.isCancelled other = true := by
    intro other
    simp [Lifecycle.isCancelled, Lifecycle.cancel]
  refine h.of_shutdowns rfl rfl rfl rfl rfl ?_ ?_
  · intro other hother
    exact (hcancel other).mpr (.inr hother)
  · refine isTaken_of_setStage rfl hstage fun other hother => ?_
    rcases (hcancel other).mp hother with rfl | hbefore
    · exact (isTaken_iff station other).mpr (.inl ⟨call, hmem, hholds⟩)
    · exact (isTaken_iff station other).mpr (.inr hbefore)

/-- A call to shut down takes the state. -/
theorem Orderly.take {station : Station σ} (h : station.Orderly) {call : ShutdownCall}
    (hholds : ∀ token, call.holds token = true → station.lifecycle.state.token? = some token) :
    { station with
      lifecycle := { station.lifecycle with state := .stopped }
      shutdowns := station.shutdowns ++ [call] }.Orderly where
  state_lt := by simp [ListenerState.token?]
  binding_lt := h.binding_lt
  taken_lt := by
    intro token htaken
    rcases (isTaken_iff _ token).mp htaken with ⟨other, hother, hheld⟩ | hcancelled
    · rcases List.mem_append.mp hother with hold | hnew
      · exact h.taken_lt token ((isTaken_iff station token).mpr (.inl ⟨other, hold, hheld⟩))
      · rw [List.mem_singleton.mp hnew] at hheld
        exact h.state_lt token (hholds token hheld)
    · exact h.taken_lt token ((isTaken_iff station token).mpr (.inr hcancelled))
  starting := by simp
  listening := by simp
  overtaken := by simp

/-- A call to listen claims the listener with a token that nobody has. -/
theorem Orderly.claim {station : Station σ} (h : station.Orderly) :
    { station with
      lifecycle :=
        { station.lifecycle with
          state := .starting station.lifecycle.issued
          issued := station.lifecycle.issued + 1 }
      listens := station.listens ++ [ListenCall.binding station.lifecycle.issued] }.Orderly where
  state_lt := by
    intro token htoken
    rw [← Option.some.inj htoken]
    exact Nat.lt_succ_self _
  binding_lt := by
    intro n token hn
    show token < station.lifecycle.issued + 1
    rcases getElem?_concat_cases hn with hold | ⟨-, hnew⟩
    · exact Nat.lt_succ_of_lt (h.binding_lt n token hold)
    · rw [ListenCall.binding.inj hnew]
      exact Nat.lt_succ_self _
  taken_lt := by
    intro token htaken
    exact Nat.lt_succ_of_lt (h.taken_lt token htaken)
  starting := by
    intro token hstarting
    rw [← ListenerState.starting.inj hstarting]
    refine ⟨?_, station.listens.length, List.getElem?_concat_length⟩
    show station.isTaken station.lifecycle.issued = false
    by_cases htaken : station.isTaken station.lifecycle.issued = true
    · exact absurd (h.taken_lt _ htaken) (Nat.lt_irrefl _)
    · simpa using htaken
  listening := by simp
  overtaken := by simp

/-- The listener is switched to listening. When its token was taken before, that is remembered. -/
theorem Orderly.switch {station : Station σ} (h : station.Orderly) {n : Nat} {token : Token}
    {addr : String} (hcall : station.listens[n]? = some (.binding token))
    (hlive : station.lifecycle.isCancelled token = false) :
    ((station.switch token
      { station.lifecycle with state := .listening token addr }).setListen n
        (.receiving token)).Orderly where
  state_lt := by
    intro other hother
    rw [← Option.some.inj hother]
    exact h.binding_lt n token hcall
  binding_lt := by
    intro m other hm
    rcases getElem?_set_cases hm with ⟨-, hnew⟩ | ⟨-, hold⟩
    · cases hnew
    · exact h.binding_lt m other hold
  taken_lt := h.taken_lt
  starting := by simp [Station.switch, setListen]
  listening := by
    intro other addr' hlistening
    have hlt : n < station.listens.length := (List.getElem?_eq_some_iff.mp hcall).1
    rw [← (ListenerState.listening.inj hlistening).1]
    exact .inl ⟨n, List.getElem?_set_self hlt⟩
  overtaken := by
    intro other addr' hlistening htaken
    rw [← (ListenerState.listening.inj hlistening).1] at htaken ⊢
    have hheld : station.isHeld token = true := by
      have htaken' : station.isTaken token = true := htaken
      rw [isTaken, hlive, Bool.or_false] at htaken'
      exact htaken'
    simp [Station.switch, setListen, hheld]

/-- The claim of a call that could not bind is given back. -/
theorem Orderly.miss {station : Station σ} (h : station.Orderly) {n : Nat} {error : Error} :
    ({ station with lifecycle := { station.lifecycle with state := .stopped } }.setListen n
      (.returned error)).Orderly where
  state_lt := by simp [ListenerState.token?, setListen]
  binding_lt := by
    intro m other hm
    rcases getElem?_set_cases hm with ⟨-, hnew⟩ | ⟨-, hold⟩
    · cases hnew
    · exact h.binding_lt m other hold
  taken_lt := h.taken_lt
  starting := by simp [setListen]
  listening := by simp [setListen]
  overtaken := by simp [setListen]

theorem Orderly.move {shards : Shards} {station after : Station σ} {action : ServerAction}
    (h : station.Orderly) (hmove : station.Move shards action after) : after.Orderly := by
  cases hmove with
  | ignores => exact h
  | receives | routes | turns | closes | sweeps => exact h.of_traffic _ _
  | claims => exact h.claim
  | misses => exact h.miss
  | switches n addr token hcall hlive => exact h.switch hcall hlive
  | isRefused =>
      refine ⟨h.state_lt, ?_, h.taken_lt, ?_, ?_, h.overtaken⟩
      · intro n token hn
        rcases getElem?_concat_cases hn with hold | ⟨-, hnew⟩
        · exact h.binding_lt n token hold
        · cases hnew
      · intro token hstarting
        obtain ⟨hfree, n, hn⟩ := h.starting token hstarting
        have hlt : n < station.listens.length := (List.getElem?_eq_some_iff.mp hn).1
        exact ⟨hfree, n, (List.getElem?_append_left hlt).trans hn⟩
      · intro token addr hlistening
        refine (h.listening token addr hlistening).imp ?_ id
        rintro ⟨n, hn⟩
        have hlt : n < station.listens.length := (List.getElem?_eq_some_iff.mp hn).1
        exact ⟨n, (List.getElem?_append_left hlt).trans hn⟩
  | givesUp n bound token hcall hcancelled =>
      refine h.of_listens hcall rfl rfl ?_ ?_ rfl rfl rfl fun _ hmem => hmem
      · intro other hother
        rw [← ListenCall.binding.inj hother]
        exact (isTaken_iff station token).mpr (.inr hcancelled)
      · intro other hother
        cases hother
  | stops n token hcall hcancelled =>
      refine h.of_listens hcall rfl rfl ?_ ?_ rfl rfl rfl fun _ hmem => hmem
      · intro other hother
        cases hother
      · intro other hother
        rw [← ListenCall.receiving.inj hother]
        exact .inl hcancelled
  | fails n token hcall | dies _ n token _ _ _ _ hcall =>
      refine h.of_listens hcall rfl rfl ?_ ?_ rfl rfl rfl fun _ hmem => List.mem_cons_of_mem _ hmem
      · intro other hother
        cases hother
      · intro other hother
        rw [← ListenCall.receiving.inj hother]
        exact .inr List.mem_cons_self
  | findsStopped deadline hstate =>
      have hsame : { station.lifecycle with state := .stopped } = station.lifecycle := by
        rw [← hstate]
      have hnone : ∀ token, (⟨deadline, .returned none⟩ : ShutdownCall).holds token = true →
          station.lifecycle.state.token? = some token := by simp [ShutdownCall.holds]
      have htake := h.take hnone
      rw [hsame] at htake
      exact htake
  | takesStarting deadline token hstate | takesListening deadline token _ hstate =>
      refine h.take fun other hholds => ?_
      rw [hstate, ← eq_of_beq hholds]
      rfl
  | abandons s call token hcall hstage =>
      exact h.cancel hcall (by simp [ShutdownCall.holds, hstage]) (fun _ => rfl) _
  | silences s call token traffic hcall hstage =>
      exact h.cancel hcall (by simp [ShutdownCall.holds, hstage]) (fun _ => rfl) _
  | hasClosed s closer call traffic =>
      exact (h.of_traffic traffic station.owners).of_stage s call fun _ => rfl
  | watches s call | resolves s call | expires s call => exact h.of_stage s call fun _ => rfl

theorem Orderly.notice {station : Station σ} (h : station.Orderly) : station.notice.Orderly := by
  have htaken : ∀ token, station.notice.isTaken token = true → station.isTaken token = true := by
    intro token htoken
    rw [isTaken_notice] at htoken
    exact htoken
  unfold Station.notice at htaken ⊢
  split
  · rename_i hended
    rw [if_pos hended] at htaken
    exact h.of_shutdowns rfl rfl rfl rfl rfl (fun _ hcancelled => hcancelled) htaken
  · exact h

theorem orderly_fresh (config : ServerConfig) (world : World σ) (sessionIds : Nat → Uuid) :
    (fresh config world sessionIds).Orderly where
  state_lt := by simp [fresh, ListenerState.token?]
  binding_lt := by simp [fresh]
  taken_lt := by simp [fresh, isTaken, isHeld, Lifecycle.isCancelled]
  starting := by simp [fresh]
  listening := by simp [fresh]
  overtaken := by simp [fresh]

/-! ## When all calls are over -/

/-- Every call to listen and every call to shut down is over. -/
structure AllOver (station : Station σ) : Prop where
  listens : ∀ call ∈ station.listens, call.isOver = true
  shutdowns : ∀ call ∈ station.shutdowns, call.isOver = true

/-- A listener that is left without calls is stopped, or it was switched to listening with a token
that had been taken, or the call that received for it stopped on its own. -/
theorem Orderly.state_of_allOver {station : Station σ} (h : station.Orderly)
    (hover : station.AllOver) :
    station.lifecycle.state = .stopped ∨
      ∃ token ∈ station.overtaken ++ station.broken,
        station.lifecycle.state.token? = some token := by
  cases hstate : station.lifecycle.state with
  | stopped => exact .inl rfl
  | starting token =>
      obtain ⟨-, n, hbinding⟩ := h.starting token hstate
      have hended := hover.listens _ (List.mem_of_getElem? hbinding)
      cases hended
  | listening token addr =>
      refine .inr ⟨token, List.mem_append.mpr ?_, rfl⟩
      rcases h.listening token addr hstate with ⟨n, hreceiving⟩ | hcancelled | hbroken
      · have hended := hover.listens _ (List.mem_of_getElem? hreceiving)
        cases hended
      · have htaken := (isTaken_iff station token).mpr (.inr hcancelled)
        exact .inl (h.overtaken token addr hstate htaken)
      · exact .inr hbroken

variable [Store σ]

theorem orderly_run (shards : Shards) (config : ServerConfig) (world : World σ)
    (sessionIds : Nat → Uuid) (actions : List ServerAction) :
    ((fresh config world sessionIds).run shards actions).Orderly := by
  apply run_induction actions
  · intro station h action _ after hmove
    exact h.move hmove
  · intro station h
    exact h.notice
  · exact orderly_fresh config world sessionIds

/-- A server whose calls are all over is stopped, so that it neither runs nor has an address and the
next call to listen is not refused, exactly when the state does not belong to a token with which the
listener was switched to listening after it had been taken, nor to one of a call that stopped
receiving without being told to. -/
theorem stopped_iff (shards : Shards) (config : ServerConfig) (world : World σ)
    (sessionIds : Nat → Uuid) (actions : List ServerAction)
    (hover : ((fresh config world sessionIds).run shards actions).AllOver) :
    let station := (fresh config world sessionIds).run shards actions
    (station.lifecycle.state = .stopped ∧ station.lifecycle.running = false ∧
        station.lifecycle.addr? = none ∧
        station.listen.listens = station.listens ++ [.binding station.lifecycle.issued]) ↔
      ∀ token ∈ station.overtaken ++ station.broken,
        station.lifecycle.state.token? ≠ some token := by
  intro station
  have horderly : station.Orderly := orderly_run shards config world sessionIds actions
  constructor
  · rintro ⟨hstopped, -⟩ token -
    rw [hstopped]
    intro htoken
    cases htoken
  · intro hfree
    rcases horderly.state_of_allOver hover with hstopped | ⟨token, hmem, htoken⟩
    · refine ⟨hstopped, ?_, ?_, ?_⟩
      · rw [Lifecycle.running, hstopped]
      · rw [Lifecycle.addr?, hstopped]
      · rw [Station.listen, Lifecycle.claim, hstopped]
    · exact absurd htoken (hfree token hmem)

omit [Store σ] in
/-- A server that was started and shut down. -/
theorem stopped_after_shutdown :
    let world := World.fresh MemoryStore.empty .none (fun _ => default) .ofNat
    let actions := [.listen, .bind 0 (some "127.0.0.1:5300"), .shutdown ⟨5⟩, .cancel 0, .close 0,
      .close 0, .close 0, .watch 0, .resolve 0, .stop 0]
    let station := (fresh {} world .ofNat).run .single actions
    station.AllOver ∧ station.lifecycle.running = false ∧
      station.listen.listens = [.returned .serverClosed, .binding 1] := by
  intro world actions
  have hover : ((fresh {} world .ofNat).run .single actions).AllOver :=
    ⟨by decide +kernel, by decide +kernel⟩
  have hiff := stopped_iff .single {} world .ofNat actions hover
  obtain ⟨-, hrunning, -, hlisten⟩ := hiff.mpr (by decide +kernel)
  refine ⟨hover, hrunning, ?_⟩
  rw [hlisten]
  decide +kernel

omit [Store σ] in
/-- A server on which no call is at work any more and which is listening all the same: its state was
taken while it was binding, and it was switched to listening before its token was cancelled. It
cannot be started again until it is shut down once more. -/
theorem listening_after_all_returned :
    let world := World.fresh MemoryStore.empty .none (fun _ => default) .ofNat
    let actions := [.listen, .shutdown ⟨5⟩, .bind 0 (some "127.0.0.1:5300"), .cancel 0, .stop 0]
    let station := (fresh {} world .ofNat).run .single actions
    station.listens = [.returned .serverClosed] ∧
      station.shutdowns = [⟨⟨5⟩, .returned none⟩] ∧
      station.lifecycle.running = true ∧
      station.lifecycle.addr? = some "127.0.0.1:5300" ∧
      station.listen.listens = [.returned .serverClosed, .returned .alreadyRunning] := by
  decide +kernel

end Station

end RaceIngest
