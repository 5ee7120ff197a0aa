import Mathlib.Data.List.Induction
import Mathlib.Data.Option.Basic
import RaceIngest.Proofs.Server.Moves
import RaceIngest.Proofs.Session.Filing
import RaceIngest.Store.Memory

/-!
# Concurrent calls to listen

A call to listen takes two sections under the lock, with the attempt to bind between them. What
keeps two calls from listening at once is the state alone: the first section leaves it starting, and
no other call goes on from there. As long as nobody shuts the listener down and every socket can be
read, the state tells exactly where the one call is that has claimed the listener.

The calls are told from their history: a call has claimed the listener when its `.listen` gave it a
token, and binding has ended for it with its first `.bind` after that. The invariant `Station.Held`
relates the history to the state, by way of the `Claim` that is held at the time, if any.

## Main results

* `Station.Held.move`: one move hands the claim on as the history says.
* `Station.binds_once`: at most one call holds the claim, and the state says which and how far it
  is.
-/

namespace RaceIngest

/-- What binding gave to a call to listen, when it has gone on with it: an address, or nothing. -/
def bindOutcome? (n : Nat) (actions : List ServerAction) : Option (Option String) :=
  actions.findSome? fun action =>
    match action with
    | .bind m bound => if m = n then some bound else none
    | _ => none

/-- A claim on a listener that was not given back. -/
structure Claim where
  /-- The call to listen that has the claim. -/
  call : Nat
  token : Token
  /-- The address of its socket, once the call went on with it. -/
  addr : Option String
  deriving DecidableEq

namespace Claim

/-- The state of a listener on which there is one claim at most. -/
def state : Option Claim → ListenerState
  | none => .stopped
  | some ⟨_, token, none⟩ => .starting token
  | some ⟨_, token, some addr⟩ => .listening token addr

theorem state_eq_stopped_iff (holder : Option Claim) : state holder = .stopped ↔ holder = none := by
  rcases holder with _ | ⟨n, token, _ | addr⟩ <;> simp [state]

theorem state_eq_starting_iff (holder : Option Claim) (token : Token) :
    state holder = .starting token ↔ ∃ n, holder = some ⟨n, token, none⟩ := by
  rcases holder with _ | ⟨n, other, _ | addr⟩ <;> simp [state]

theorem state_eq_listening_iff (holder : Option Claim) (token : Token) (addr : String) :
    state holder = .listening token addr ↔ ∃ n, holder = some ⟨n, token, some addr⟩ := by
  rcases holder with _ | ⟨n, other, _ | other'⟩ <;> simp [state]

/-- Where the call is that has the claim. A call that died of a datagram has it still. -/
def Stage (claim : Claim) (call : ListenCall) : Prop :=
  match claim.addr with
  | none => call = .binding claim.token
  | some _ => call = .receiving claim.token ∨ call = .died

end Claim

namespace Station

variable {σ : Type} [Store σ] {shards : Shards} {start station : Station σ}
  {actions : List ServerAction}

/-- A call to listen claimed the listener with a token, and these actions came after. -/
def Claimed (shards : Shards) (start : Station σ) (actions : List ServerAction) (n : Nat)
    (token : Token) (later : List ServerAction) : Prop :=
  ∃ earlier, actions = earlier ++ .listen :: later ∧
    (start.run shards earlier).listens.length = n ∧
    (start.run shards (earlier ++ [.listen])).listens[n]? = some (.binding token)

/-! ## Histories -/

theorem run_concat (start : Station σ) (actions : List ServerAction) (action : ServerAction) :
    start.run shards (actions ++ [action]) = (start.run shards actions).step shards action := by
  simp only [run, List.foldl_append, List.foldl_cons, List.foldl_nil]

/-- What binding gave in a longer history. -/
theorem bindOutcome?_concat (n : Nat) (actions : List ServerAction) (action : ServerAction) :
    bindOutcome? n (actions ++ [action]) =
      (bindOutcome? n actions).or (bindOutcome? n [action]) := by
  simp only [bindOutcome?, List.findSome?_append]

theorem bindOutcome?_of_ne {n : Nat} {action : ServerAction}
    (h : ∀ bound, action ≠ .bind n bound) : bindOutcome? n [action] = none := by
  rw [bindOutcome?, List.findSome?_singleton]
  split
  · rename_i m bound
    exact if_neg fun hm => h bound (by rw [hm])
  · rfl

/-- The claims of a longer history are the old ones and that of a call which begins just now. -/
theorem claimed_concat {action : ServerAction} {n : Nat} {token : Token}
    {later : List ServerAction} (h : Claimed shards start (actions ++ [action]) n token later) :
    (∃ rest, later = rest ++ [action] ∧ Claimed shards start actions n token rest) ∨
      later = [] ∧ action = .listen ∧ (start.run shards actions).listens.length = n ∧
        ((start.run shards actions).step shards .listen).listens[n]? = some (.binding token) := by
  obtain ⟨earlier, hactions, hlength, hcall⟩ := h
  rcases List.eq_nil_or_concat later with rfl | ⟨rest, last, rfl⟩
  · obtain ⟨rfl, hlast⟩ := List.append_inj' hactions rfl
    rw [run_concat] at hcall
    exact .inr ⟨rfl, List.singleton_inj.mp hlast, hlength, hcall⟩
  · rw [List.concat_eq_append, ← List.cons_append, ← List.append_assoc] at hactions
    obtain ⟨rfl, hlast⟩ := List.append_inj' hactions rfl
    rw [List.singleton_inj.mp hlast, List.concat_eq_append]
    exact .inl ⟨rest, rfl, earlier, rfl, hlength, hcall⟩

/-- A step other than a call to listen makes no claim. -/
theorem claimed_of_ne {action : ServerAction} (hlisten : action ≠ .listen) {n : Nat}
    {token : Token} {later : List ServerAction}
    (h : Claimed shards start (actions ++ [action]) n token later) :
    ∃ rest, later = rest ++ [action] ∧ Claimed shards start actions n token rest := by
  rcases claimed_concat h with hbefore | ⟨-, hnew, -⟩
  · exact hbefore
  · exact absurd hnew hlisten

theorem Claimed.concat {n : Nat} {token : Token} {later : List ServerAction}
    (h : Claimed shards start actions n token later) (action : ServerAction) :
    Claimed shards start (actions ++ [action]) n token (later ++ [action]) := by
  obtain ⟨earlier, rfl, hlength, hcall⟩ := h
  exact ⟨earlier, by simp, hlength, hcall⟩

/-! ## Who has the claim -/

/-- A history is over for a call when binding failed for it and the call said so. -/
def Released (station : Station σ) (n : Nat) (later : List ServerAction) : Prop :=
  bindOutcome? n later = some none ∧
    station.listens[n]? = some (.returned (.bind station.address))

/-- What is known when the calls that claimed the listener all gave it back, but for those of the
claim that is held. -/
structure Held (shards : Shards) (start : Station σ) (actions : List ServerAction)
    (station : Station σ) (holder : Option Claim) : Prop where
  shutdowns : station.shutdowns = []
  cancelled : station.lifecycle.cancelled = []
  state : station.lifecycle.state = Claim.state holder
  /-- Calls to listen that are not over have the claim. -/
  stage : ∀ (n : Nat) (call : ListenCall), station.listens[n]? = some call →
    (∃ claim, holder = some claim ∧ claim.call = n ∧ claim.Stage call) ∨
      (∀ claim, holder = some claim → claim.call ≠ n) ∧ ∃ error, call = .returned error
  claimed_lt : ∀ n token later, Claimed shards start actions n token later →
    n < station.listens.length
  /-- A call that claimed the listener has the claim, or gave it back. -/
  outcome : ∀ n token later, Claimed shards start actions n token later →
    (∃ claim, holder = some claim ∧ claim.call = n ∧ claim.token = token ∧
      bindOutcome? n later = claim.addr.map some) ∨
    (∀ claim, holder = some claim → claim.call ≠ n) ∧ station.Released n later
  claimed : ∀ claim, holder = some claim →
    ∃ later, Claimed shards start actions claim.call claim.token later

variable {holder : Option Claim} {after : Station σ} {action : ServerAction}

theorem Held.holder_of_stopped (h : Held shards start actions station holder)
    (hstate : station.lifecycle.state = .stopped) : holder = none :=
  (Claim.state_eq_stopped_iff holder).mp (h.state.symm.trans hstate)

/-- A call that is not over has the claim. -/
theorem Held.holder_of_stage (h : Held shards start actions station holder) {n : Nat}
    {call : ListenCall} (hcall : station.listens[n]? = some call)
    (hgoesOn : ∀ error, call ≠ .returned error) :
    ∃ claim, holder = some claim ∧ claim.call = n ∧ claim.Stage call := by
  rcases h.stage n call hcall with hheld | ⟨-, error, rfl⟩
  · exact hheld
  · exact absurd rfl (hgoesOn error)

theorem Held.holder_of_binding (h : Held shards start actions station holder) {n : Nat}
    {token : Token} (hcall : station.listens[n]? = some (.binding token)) :
    holder = some ⟨n, token, none⟩ := by
  obtain ⟨⟨m, other, _ | addr⟩, rfl, rfl, hstage⟩ := h.holder_of_stage hcall (by simp)
  · cases hstage
    rfl
  · rcases hstage with hstage | hstage
    · cases hstage
    · cases hstage

/-- The calls to listen that do not have the claim have returned. -/
theorem Held.returned_of_ne (h : Held shards start actions station holder) {claim : Claim}
    (hholder : holder = some claim) {n : Nat} {call : ListenCall} (hne : claim.call ≠ n)
    (hcall : station.listens[n]? = some call) : ∃ error, call = .returned error := by
  rcases h.stage n call hcall with ⟨other, hother, hn, -⟩ | ⟨-, hreturned⟩
  · rw [hholder, Option.some.injEq] at hother
    rw [hother] at hne
    exact absurd hn hne
  · exact hreturned

/-- The call that has the claim and has not gone on yet is binding. -/
theorem Held.binding (h : Held shards start actions station holder) {claim : Claim}
    (hclaim : holder = some claim) (haddr : claim.addr = none) :
    station.listens[claim.call]? = some (.binding claim.token) := by
  obtain ⟨later, hclaimed⟩ := h.claimed claim hclaim
  have hlt := h.claimed_lt _ _ _ hclaimed
  have hcall := List.getElem?_eq_getElem hlt
  rw [hcall]
  rcases h.stage _ _ hcall with ⟨claim', hclaim', -, hstage⟩ | ⟨hother, -⟩
  · rw [hclaim, Option.some.injEq] at hclaim'
    subst hclaim'
    rw [Claim.Stage, haddr] at hstage
    rw [hstage]
  · exact absurd rfl (hother claim hclaim)

/-- What binding gave to the calls that claimed the listener before, one step later. -/
theorem Held.outcome_concat (h : Held shards start actions station holder)
    (haddress : after.address = station.address)
    (hreturned : ∀ (n : Nat) (error : Error), station.listens[n]? = some (.returned error) →
      after.listens[n]? = some (.returned error))
    {n : Nat} {token : Token} {rest : List ServerAction}
    (hclaimed : Claimed shards start actions n token rest) :
    (∃ claim, holder = some claim ∧ claim.call = n ∧ claim.token = token ∧
      bindOutcome? n (rest ++ [action]) =
        (claim.addr.map some).or (bindOutcome? claim.call [action])) ∨
    (∀ claim, holder = some claim → claim.call ≠ n) ∧ after.Released n (rest ++ [action]) := by
  rcases h.outcome n token rest hclaimed with
    ⟨claim, hclaim, rfl, rfl, houtcome⟩ | ⟨hother, hfailed, hcall⟩
  · refine .inl ⟨claim, hclaim, rfl, rfl, ?_⟩
    rw [bindOutcome?_concat, houtcome]
  · refine .inr ⟨hother, ?_, ?_⟩
    · rw [bindOutcome?_concat, hfailed]
      rfl
    · rw [haddress]
      exact hreturned n _ hcall

omit [Store σ] in
/-- A call that begins leaves those that returned as they are. -/
theorem returned_concat {new : ListenCall} (hlistens : after.listens = station.listens ++ [new])
    (n : Nat) (error : Error) (hcall : station.listens[n]? = some (.returned error)) :
    after.listens[n]? = some (.returned error) := by
  rw [hlistens, List.getElem?_append_left (List.getElem?_eq_some_iff.mp hcall).1, hcall]

omit [Store σ] in
/-- A call that goes on from binding leaves those that returned as they are. -/
theorem returned_set {m : Nat} {token : Token} {new : ListenCall}
    (hcall : station.listens[m]? = some (.binding token))
    (hlistens : after.listens = station.listens.set m new) (n : Nat) (error : Error)
    (hreturned : station.listens[n]? = some (.returned error)) :
    after.listens[n]? = some (.returned error) := by
  rw [hlistens]
  exact getElem?_set_of_ne hcall hreturned (by simp) new

/-! ## What the steps do -/

/-- A step with which no call begins, after which a call to listen may have died of a datagram. -/
theorem Held.keep (h : Held shards start actions station holder) (hlisten : action ≠ .listen)
    (hbind : ∀ n bound, action = .bind n bound →
      ∀ token, station.listens[n]? ≠ some (.binding token))
    (hshutdowns : after.shutdowns = station.shutdowns)
    (hlifecycle : after.lifecycle = station.lifecycle) (haddress : after.address = station.address)
    (hlistens : after.listens = station.listens ∨ ∃ (n : Nat) (token : Token),
      station.listens[n]? = some (.receiving token) ∧
        after.listens = station.listens.set n .died) :
    Held shards start (actions ++ [action]) after holder where
  shutdowns := hshutdowns.trans h.shutdowns
  cancelled := by rw [hlifecycle, h.cancelled]
  state := by rw [hlifecycle, h.state]
  stage := by
    intro m call hcall
    rcases hlistens with hsame | ⟨n, token, hreceiving, hdied⟩
    · rw [hsame] at hcall
      exact h.stage m call hcall
    · rw [hdied] at hcall
      rcases getElem?_set_cases hcall with ⟨rfl, rfl⟩ | ⟨-, hold⟩
      · obtain ⟨⟨n, other, _ | addr⟩, hclaim, hn, hstage⟩ :=
          h.holder_of_stage hreceiving (by simp)
        · cases hstage
        · exact .inl ⟨_, hclaim, hn, .inr rfl⟩
      · exact h.stage m call hold
  claimed_lt := by
    intro n token later hclaimed
    have hlength : after.listens.length = station.listens.length := by
      rcases hlistens with hsame | ⟨m, other, -, hdied⟩
      · rw [hsame]
      · rw [hdied, List.length_set]
    obtain ⟨rest, -, hold⟩ := claimed_of_ne hlisten hclaimed
    rw [hlength]
    exact h.claimed_lt n token rest hold
  outcome := by
    intro n token later hclaimed
    obtain ⟨rest, rfl, hold⟩ := claimed_of_ne hlisten hclaimed
    have hreturned : ∀ (n : Nat) (error : Error), station.listens[n]? = some (.returned error) →
        after.listens[n]? = some (.returned error) := by
      intro n error hcall
      rcases hlistens with hsame | ⟨m, other, hreceiving, hdied⟩
      · rw [hsame]
        exact hcall
      · rw [hdied]
        exact getElem?_set_of_ne hreceiving hcall (by simp) _
    refine (h.outcome_concat haddress hreturned hold).imp_left ?_
    rintro ⟨claim, hclaim, rfl, rfl, houtcome⟩
    refine ⟨claim, hclaim, rfl, rfl, houtcome.trans ?_⟩
    cases haddr : claim.addr with
    | some addr => rfl
    | none =>
        -- the call is binding still, so that it was not its turn to go on
        have hcall := h.binding hclaim haddr
        rw [bindOutcome?_of_ne fun bound hturn => hbind _ bound hturn _ hcall]
        rfl
  claimed := by
    intro claim hclaim
    obtain ⟨later, hclaimed⟩ := h.claimed claim hclaim
    exact ⟨_, hclaimed.concat action⟩

/-- A call to listen that does not find the listener stopped returns at once. -/
theorem Held.refuse (h : Held shards start actions station holder)
    (hrun : start.run shards actions = station)
    (hstep : (station.step shards .listen).listens = after.listens)
    (hafter : after = { station with listens := station.listens ++ [.returned .alreadyRunning] }) :
    Held shards start (actions ++ [.listen]) after holder := by
  have hlistens : after.listens = station.listens ++ [.returned .alreadyRunning] := by rw [hafter]
  have hold : ∀ n token later, Claimed shards start (actions ++ [.listen]) n token later →
      ∃ rest, later = rest ++ [.listen] ∧ Claimed shards start actions n token rest := by
    intro n token later hclaimed
    rcases claimed_concat hclaimed with hbefore | ⟨-, -, rfl, hcall⟩
    · exact hbefore
    · rw [hrun, hstep, hlistens, List.getElem?_concat_length] at hcall
      cases hcall
  refine
    { shutdowns := by rw [hafter]; exact h.shutdowns
      cancelled := by rw [hafter]; exact h.cancelled
      state := by rw [hafter]; exact h.state
      stage := ?stage, claimed_lt := ?claimed_lt, outcome := ?outcome
      claimed := ?claimed }
  case stage =>
    intro n call hcall
    rw [hlistens] at hcall
    rcases getElem?_concat_cases hcall with hbefore | ⟨rfl, rfl⟩
    · exact h.stage n call hbefore
    · refine .inr ⟨?_, _, rfl⟩
      intro claim hclaim hlength
      obtain ⟨later, hclaimed⟩ := h.claimed claim hclaim
      exact absurd (h.claimed_lt _ _ _ hclaimed) (by omega)
  case claimed_lt =>
    intro n token later hclaimed
    obtain ⟨rest, -, hbefore⟩ := hold n token later hclaimed
    rw [hlistens, List.length_append]
    exact Nat.lt_add_right 1 (h.claimed_lt n token rest hbefore)
  case outcome =>
    intro n token later hclaimed
    obtain ⟨rest, rfl, hbefore⟩ := hold n token later hclaimed
    refine (h.outcome_concat (by rw [hafter]) (returned_concat hlistens) hbefore).imp_left ?_
    rintro ⟨claim, hclaim, rfl, rfl, houtcome⟩
    refine ⟨claim, hclaim, rfl, rfl, houtcome.trans ?_⟩
    rw [bindOutcome?_of_ne (by simp), Option.or_none]
  case claimed =>
    intro claim hclaim
    obtain ⟨later, hclaimed⟩ := h.claimed claim hclaim
    exact ⟨_, hclaimed.concat _⟩

/-- A call to listen that finds the listener stopped has the claim from now on. -/
theorem Held.claim (h : Held shards start actions station none)
    (hrun : start.run shards actions = station)
    (hstep : (station.step shards .listen).listens = after.listens)
    (hafter : after =
      { station with
        lifecycle :=
          { station.lifecycle with
            state := .starting station.lifecycle.issued
            issued := station.lifecycle.issued + 1 }
        listens := station.listens ++ [.binding station.lifecycle.issued] }) :
    Held shards start (actions ++ [.listen]) after
      (some ⟨station.listens.length, station.lifecycle.issued, none⟩) := by
  have hlistens : after.listens = station.listens ++ [.binding station.lifecycle.issued] := by
    rw [hafter]
  have hnew : Claimed shards start (actions ++ [.listen]) station.listens.length
      station.lifecycle.issued [] := by
    refine ⟨actions, rfl, by rw [hrun], ?_⟩
    rw [run_concat, hrun, hstep, hlistens, List.getElem?_concat_length]
  refine
    { shutdowns := by rw [hafter]; exact h.shutdowns
      cancelled := by rw [hafter]; exact h.cancelled
      state := by rw [hafter]; rfl
      stage := ?stage, claimed_lt := ?claimed_lt, outcome := ?outcome
      claimed := ?claimed }
  case stage =>
    intro n call hcall
    rw [hlistens] at hcall
    rcases getElem?_concat_cases hcall with hbefore | ⟨rfl, rfl⟩
    · rcases h.stage n call hbefore with ⟨claim, hclaim, -⟩ | ⟨-, hreturned⟩
      · cases hclaim
      · refine .inr ⟨?_, hreturned⟩
        rintro claim hclaim rfl
        have hlt := (List.getElem?_eq_some_iff.mp hbefore).1
        rw [← Option.some.inj hclaim] at hlt
        exact Nat.lt_irrefl _ hlt
    · exact .inl ⟨_, rfl, rfl, rfl⟩
  case claimed_lt =>
    intro n token later hclaimed
    rw [hlistens, List.length_append]
    rcases claimed_concat hclaimed with ⟨rest, -, hbefore⟩ | ⟨-, -, hlength, -⟩
    · exact Nat.lt_add_right 1 (h.claimed_lt n token rest hbefore)
    · rw [← hlength, hrun]
      exact Nat.lt_succ_self _
  case outcome =>
    intro n token later hclaimed
    rcases claimed_concat hclaimed with ⟨rest, rfl, hbefore⟩ | ⟨rfl, -, hlength, hcall⟩
    · have hlt := h.claimed_lt n token rest hbefore
      rcases h.outcome_concat (by rw [hafter]) (returned_concat hlistens) hbefore with
        ⟨claim, hclaim, -⟩ | ⟨-, hreleased⟩
      · cases hclaim
      · refine .inr ⟨?_, hreleased⟩
        rintro claim hclaim rfl
        rw [← Option.some.inj hclaim] at hlt
        exact Nat.lt_irrefl _ hlt
    · rw [hrun] at hlength
      rw [hrun, hstep, hlistens, ← hlength, List.getElem?_concat_length] at hcall
      refine .inl ⟨_, rfl, hlength, ?_, rfl⟩
      exact ListenCall.binding.inj (Option.some.inj hcall)
  case claimed =>
    intro claim hclaim
    rw [← Option.some.inj hclaim]
    exact ⟨[], hnew⟩

/-- The call that has the claim gives it back when it could not bind. -/
theorem Held.miss (h : Held shards start actions station holder) {n : Nat} {token : Token}
    (hcall : station.listens[n]? = some (.binding token))
    (hafter : after =
      { station with lifecycle := { station.lifecycle with state := .stopped } }.setListen n
        (.returned (.bind station.address))) :
    Held shards start (actions ++ [.bind n none]) after none := by
  have hholder := h.holder_of_binding hcall
  have hlistens : after.listens = station.listens.set n (.returned (.bind station.address)) := by
    rw [hafter]
    rfl
  have haddress : after.address = station.address := by rw [hafter]; rfl
  have hlt : n < station.listens.length := (List.getElem?_eq_some_iff.mp hcall).1
  refine
    { shutdowns := by rw [hafter]; exact h.shutdowns
      cancelled := by rw [hafter]; exact h.cancelled
      state := by rw [hafter]; rfl
      stage := ?stage, claimed_lt := ?claimed_lt, outcome := ?outcome
      claimed := ?claimed }
  case stage =>
    intro m call hm
    rw [hlistens] at hm
    refine .inr ⟨by simp, ?_⟩
    rcases getElem?_set_cases hm with ⟨-, rfl⟩ | ⟨hne, hbefore⟩
    · exact ⟨_, rfl⟩
    · exact h.returned_of_ne hholder hne hbefore
  case claimed_lt =>
    intro m other later hclaimed
    obtain ⟨rest, -, hbefore⟩ := claimed_of_ne (by simp) hclaimed
    rw [hlistens, List.length_set]
    exact h.claimed_lt m other rest hbefore
  case outcome =>
    intro m other later hclaimed
    obtain ⟨rest, rfl, hbefore⟩ := claimed_of_ne (by simp) hclaimed
    refine .inr ⟨by simp, ?_⟩
    rcases h.outcome_concat haddress (returned_set hcall hlistens) hbefore with
      ⟨claim, hclaim, rfl, rfl, houtcome⟩ | ⟨-, hreleased⟩
    · rw [hholder, Option.some.injEq] at hclaim
      subst hclaim
      refine ⟨houtcome.trans (by simp [bindOutcome?]), ?_⟩
      rw [hlistens, haddress, List.getElem?_set_self hlt]
    · exact hreleased
  case claimed =>
    simp

/-- The call that has the claim goes on to receive. -/
theorem Held.switch (h : Held shards start actions station holder) {n : Nat} {token : Token}
    {addr : String} (hcall : station.listens[n]? = some (.binding token))
    (hafter : after =
      (station.switch token { station.lifecycle with state := .listening token addr }).setListen n
        (.receiving token)) :
    Held shards start (actions ++ [.bind n (some addr)]) after (some ⟨n, token, some addr⟩) := by
  have hholder := h.holder_of_binding hcall
  have hlistens : after.listens = station.listens.set n (.receiving token) := by
    rw [hafter]
    rfl
  refine
    { shutdowns := by rw [hafter]; exact h.shutdowns
      cancelled := by rw [hafter]; exact h.cancelled
      state := by rw [hafter]; rfl
      stage := ?stage, claimed_lt := ?claimed_lt, outcome := ?outcome
      claimed := ?claimed }
  case stage =>
    intro m call hm
    rw [hlistens] at hm
    rcases getElem?_set_cases hm with ⟨rfl, rfl⟩ | ⟨hne, hbefore⟩
    · exact .inl ⟨_, rfl, rfl, .inl rfl⟩
    · refine .inr ⟨?_, h.returned_of_ne hholder hne hbefore⟩
      rintro claim hclaim
      rw [← Option.some.inj hclaim]
      exact hne
  case claimed_lt =>
    intro m other later hclaimed
    obtain ⟨rest, -, hbefore⟩ := claimed_of_ne (by simp) hclaimed
    rw [hlistens, List.length_set]
    exact h.claimed_lt m other rest hbefore
  case outcome =>
    intro m other later hclaimed
    obtain ⟨rest, rfl, hbefore⟩ := claimed_of_ne (by simp) hclaimed
    rcases h.outcome_concat (by rw [hafter]; rfl) (returned_set hcall hlistens) hbefore with
      ⟨claim, hclaim, rfl, rfl, houtcome⟩ | ⟨hother, hreleased⟩
    · rw [hholder, Option.some.injEq] at hclaim
      subst hclaim
      exact .inl ⟨_, rfl, rfl, rfl, houtcome.trans (by simp [bindOutcome?])⟩
    · refine .inr ⟨?_, hreleased⟩
      intro claim hclaim
      rw [← Option.some.inj hclaim]
      exact hother ⟨n, token, none⟩ hholder
  case claimed =>
    intro claim hclaim
    rw [← Option.some.inj hclaim]
    obtain ⟨later, hclaimed⟩ := h.claimed _ hholder
    exact ⟨_, hclaimed.concat _⟩

omit [Store σ] in
theorem notice_of_shutdowns (h : station.shutdowns = []) : station.notice = station := by
  unfold notice
  split
  · cases station
    cases h
    rfl
  · rfl

theorem Held.notice (h : Held shards start actions station holder) :
    Held shards start actions station.notice holder := by
  rw [notice_of_shutdowns h.shutdowns]
  exact h

/-- One move hands the claim on. As long as nobody shuts down, no token is cancelled, and a call
that was shut down never goes on. -/
theorem Held.move (h : Held shards start actions station holder)
    (hrun : start.run shards actions = station)
    (hstep : (station.step shards action).listens = after.listens)
    (hmove : station.Move shards action after) (hshutdown : ∀ deadline, action ≠ .shutdown deadline)
    (hfail : ∀ n, action ≠ .fail n) :
    ∃ holder', Held shards start (actions ++ [action]) after holder' := by
  have hlive : ∀ token, station.lifecycle.isCancelled token = false := by
    simp [Lifecycle.isCancelled, h.cancelled]
  have hnobody : ∀ (s : Nat) (call : ShutdownCall), station.shutdowns[s]? ≠ some call := by
    simp [h.shutdowns]
  cases hmove with
  | claims hstopped =>
      rw [h.holder_of_stopped hstopped] at h
      exact ⟨_, h.claim hrun hstep rfl⟩
  | isRefused hbusy => exact ⟨_, h.refuse hrun hstep rfl⟩
  | givesUp n bound token hcall hcancelled =>
      rw [hlive] at hcancelled
      cases hcancelled
  | misses n token hcall => exact ⟨_, h.miss hcall rfl⟩
  | switches n addr token hcall => exact ⟨_, h.switch hcall rfl⟩
  | ignores | receives | routes | turns =>
      exact ⟨_, h.keep (by simp) (by simp) rfl rfl rfl (.inl rfl)⟩
  | dies r n token call traffic howner hcall hlisten =>
      exact ⟨_, h.keep (by simp) (by simp) rfl rfl rfl (.inr ⟨n, token, hlisten, rfl⟩)⟩
  | stops n token hcall hcancelled =>
      rw [hlive] at hcancelled
      cases hcancelled
  | fails n => exact absurd rfl (hfail n)
  | findsStopped deadline | takesStarting deadline | takesListening deadline =>
      exact absurd rfl (hshutdown deadline)
  | abandons s call token hcall | silences s call token traffic hcall
  | closes s closer call traffic hcall | hasClosed s closer call traffic hcall
  | sweeps s closer endpoint call traffic hcall | watches s call hcall | resolves s call hcall
  | expires s call hcall => exact absurd hcall (hnobody s call)

/-! ## Whole runs -/

/-- A call to listen can always begin. -/
theorem step?_listen_ne_none : station.step? shards .listen ≠ none := by
  simp [step?, act?]

/-- A call that is binding can always go on. -/
theorem step?_bind_ne_none {n : Nat} {token : Token}
    (hcall : station.listens[n]? = some (.binding token)) (bound : Option String) :
    station.step? shards (.bind n bound) ≠ none := by
  simp only [step?, act?, bind?, hcall, ne_eq, Option.map_eq_none_iff]
  split <;> simp

/-- What an action does to the claim, possible or not. -/
theorem Held.step (h : Held shards start actions (start.run shards actions) holder)
    (hshutdown : ∀ deadline, action ≠ .shutdown deadline) (hfail : ∀ n, action ≠ .fail n) :
    ∃ holder', Held shards start (actions ++ [action])
      (start.run shards (actions ++ [action])) holder' := by
  rw [run_concat]
  cases hstep : (start.run shards actions).step? shards action with
  | none =>
      have hsame : (start.run shards actions).step shards action = start.run shards actions := by
        rw [Station.step, hstep, Option.getD_none]
      rw [hsame]
      refine ⟨holder, h.keep ?_ ?_ rfl rfl rfl (.inl rfl)⟩
      · rintro rfl
        exact step?_listen_ne_none hstep
      · rintro n bound rfl token hcall
        exact step?_bind_ne_none hcall bound hstep
  | some after =>
      have hafter : (start.run shards actions).step shards action = after := by
        rw [Station.step, hstep, Option.getD_some]
      obtain ⟨moved, hmove, rfl⟩ := exists_move hstep
      have hlistens := congrArg Station.listens hafter
      rw [listens_notice] at hlistens
      obtain ⟨holder', hmoved⟩ := h.move rfl hlistens hmove hshutdown hfail
      rw [hafter]
      exact ⟨holder', hmoved.notice⟩

theorem held_fresh (config : ServerConfig) (world : World σ) (sessionIds : Nat → Uuid) :
    Held shards (fresh config world sessionIds) [] (fresh config world sessionIds) none where
  shutdowns := rfl
  cancelled := rfl
  state := rfl
  stage := by simp [fresh]
  claimed_lt := by simp [Claimed]
  outcome := by simp [Claimed]
  claimed := by simp

theorem held_run (shards : Shards) (config : ServerConfig) (world : World σ)
    (sessionIds : Nat → Uuid) (actions : List ServerAction)
    (hshutdown : ∀ deadline, .shutdown deadline ∉ actions) (hfail : ∀ n, .fail n ∉ actions) :
    ∃ holder, Held shards (fresh config world sessionIds) actions
      ((fresh config world sessionIds).run shards actions) holder := by
  induction actions using List.reverseRecOn with
  | nil => exact ⟨none, held_fresh config world sessionIds⟩
  | append_singleton actions action ih =>
      simp only [List.mem_append, List.mem_singleton, not_or] at hshutdown hfail
      obtain ⟨holder, hheld⟩ := ih (fun deadline => (hshutdown deadline).1) fun n => (hfail n).1
      exact hheld.step (fun deadline => Ne.symm (hshutdown deadline).2) fun n =>
        Ne.symm (hfail n).2

/-! ## Steps that are not interrupted -/

theorem step_listen (hshutdowns : station.shutdowns = []) :
    station.step shards .listen = station.listen := by
  have hlistened : station.listen.shutdowns = [] := by
    unfold listen
    split <;> exact hshutdowns
  simp only [step, step?, act?, Option.map_some, Option.getD_some]
  exact notice_of_shutdowns hlistened

omit [Store σ] in
theorem listen_of_stopped (hstopped : station.lifecycle.state = .stopped) :
    station.listen =
      { station with
        lifecycle :=
          { station.lifecycle with
            state := .starting station.lifecycle.issued
            issued := station.lifecycle.issued + 1 }
        listens := station.listens ++ [.binding station.lifecycle.issued] } := by
  unfold listen Lifecycle.claim
  rw [hstopped]

omit [Store σ] in
theorem listen_of_busy (hbusy : station.lifecycle.state ≠ .stopped) :
    station.listen =
      { station with listens := station.listens ++ [.returned .alreadyRunning] } := by
  unfold listen Lifecycle.claim
  cases hstate : station.lifecycle.state with
  | stopped => exact absurd hstate hbusy
  | starting token | listening token addr => rfl

theorem step_bind_none {n : Nat} {token : Token} (hshutdowns : station.shutdowns = [])
    (hcall : station.listens[n]? = some (.binding token))
    (hlive : station.lifecycle.isCancelled token = false) :
    station.step shards (.bind n none) =
      { station with lifecycle := { station.lifecycle with state := .stopped } }.setListen n
        (.returned (.bind station.address)) := by
  simp only [step, step?, act?, bind?, hcall, Lifecycle.completeBind, hlive, Option.map_some,
    Option.getD_some, Bool.false_eq_true, if_false]
  exact notice_of_shutdowns hshutdowns

theorem step_bind_some {n : Nat} {token : Token} (hshutdowns : station.shutdowns = [])
    (hcall : station.listens[n]? = some (.binding token))
    (hlive : station.lifecycle.isCancelled token = false) (addr : String) :
    station.step shards (.bind n (some addr)) =
      (station.switch token { station.lifecycle with state := .listening token addr }).setListen n
        (.receiving token) := by
  simp only [step, step?, act?, bind?, hcall, Lifecycle.completeBind, hlive, Option.map_some,
    Option.getD_some, Bool.false_eq_true, if_false]
  exact notice_of_shutdowns hshutdowns

/-- A call that finds the listener stopped, and whose socket can be bound, listens. -/
theorem run_listen_bind (hshutdowns : station.shutdowns = [])
    (hcancelled : station.lifecycle.cancelled = [])
    (hstopped : station.lifecycle.state = .stopped) (addr : String) :
    let token := station.lifecycle.issued
    let after := station.run shards [.listen, .bind station.listens.length (some addr)]
    after.lifecycle.state = .listening token addr ∧
      after.listens = station.listens ++ [.receiving token] := by
  intro token after
  have hlisten : station.step shards .listen = _ :=
    (step_listen hshutdowns).trans (listen_of_stopped hstopped)
  have hlive : (station.step shards .listen).lifecycle.isCancelled token = false := by
    rw [hlisten]
    simp [Lifecycle.isCancelled, hcancelled]
  have hcall : (station.step shards .listen).listens[station.listens.length]? =
      some (.binding token) := by
    rw [hlisten]
    exact List.getElem?_concat_length
  have hafter : after = _ := step_bind_some (by rw [hlisten]; exact hshutdowns) hcall hlive addr
  rw [hafter, hlisten]
  exact ⟨rfl, by simp [setListen, switch, token]⟩

/-! ## One call at most -/

/-- What calls to listen come to that go on side by side, told from their history. -/
structure BindsOnce (shards : Shards) (start : Station σ) (actions : List ServerAction)
    (station : Station σ) : Prop where
  /-- At most one call claimed the listener and did not fail to bind. -/
  once : ∀ m n token token' later later', Claimed shards start actions m token later →
    Claimed shards start actions n token' later' → bindOutcome? m later ≠ some none →
    bindOutcome? n later' ≠ some none → m = n
  stopped : station.lifecycle.state = .stopped ↔
    ∀ n token later, Claimed shards start actions n token later → bindOutcome? n later = some none
  starting : ∀ token, station.lifecycle.state = .starting token ↔
    ∃ n later, Claimed shards start actions n token later ∧ bindOutcome? n later = none
  listening : ∀ token addr, station.lifecycle.state = .listening token addr ↔
    ∃ n later, Claimed shards start actions n token later ∧
      bindOutcome? n later = some (some addr)
  /-- Who finds the listener claimed returns at once and changes nothing. -/
  refused : station.lifecycle.state ≠ .stopped → station.step shards .listen =
    { station with listens := station.listens ++ [.returned .alreadyRunning] }
  /-- A call that failed to bind has said so. -/
  failed : ∀ n token later, Claimed shards start actions n token later →
    bindOutcome? n later = some none →
    station.listens[n]? = some (.returned (.bind station.address))
  /-- A call that fails to bind leaves the listener stopped, and a later call can listen. -/
  restored : ∀ (n : Nat) (token : Token), station.listens[n]? = some (.binding token) →
    let freed := station.step shards (.bind n none)
    freed.listens = station.listens.set n (.returned (.bind station.address)) ∧
      freed.lifecycle = { station.lifecycle with state := .stopped } ∧
      ∀ addr, let again := freed.run shards [.listen, .bind freed.listens.length (some addr)]
        again.lifecycle.state = .listening freed.lifecycle.issued addr ∧
          again.listens = freed.listens ++ [.receiving freed.lifecycle.issued]

/-- Who claimed the listener and did not fail to bind has the claim. -/
theorem Held.holder_of_claimed (h : Held shards start actions station holder) {n : Nat}
    {token : Token} {later : List ServerAction}
    (hclaimed : Claimed shards start actions n token later)
    (houtcome : bindOutcome? n later ≠ some none) :
    ∃ addr, holder = some ⟨n, token, addr⟩ ∧ bindOutcome? n later = addr.map some := by
  rcases h.outcome n token later hclaimed with
    ⟨⟨call, other, addr⟩, hholder, rfl, rfl, haddr⟩ | ⟨-, hfailed, -⟩
  · exact ⟨addr, hholder, haddr⟩
  · exact absurd hfailed houtcome

theorem map_some_ne_failed (addr : Option String) : addr.map some ≠ some none := by
  cases addr <;> simp

/-- A call has the claim exactly when it claimed the listener and has not given the claim back. -/
theorem Held.holder_iff (h : Held shards start actions station holder) (n : Nat) (token : Token)
    (addr : Option String) :
    holder = some ⟨n, token, addr⟩ ↔
      ∃ later, Claimed shards start actions n token later ∧
        bindOutcome? n later = addr.map some := by
  constructor
  · intro hholder
    obtain ⟨later, hclaimed⟩ := h.claimed _ hholder
    refine ⟨later, hclaimed, ?_⟩
    rcases h.outcome _ _ later hclaimed with ⟨other, hother, -, -, houtcome⟩ | ⟨hother, -⟩
    · rw [hholder, Option.some.injEq] at hother
      rw [houtcome, ← hother]
    · exact absurd rfl (hother _ hholder)
  · rintro ⟨later, hclaimed, houtcome⟩
    have hkept : bindOutcome? n later ≠ some none := by
      rw [houtcome]
      exact map_some_ne_failed addr
    obtain ⟨other, hholder, hother⟩ := h.holder_of_claimed hclaimed hkept
    rw [houtcome] at hother
    rw [hholder, Option.map_injective (Option.some_injective String) hother]

theorem Held.stopped_iff_failed (h : Held shards start actions station holder) :
    station.lifecycle.state = .stopped ↔ ∀ n token later,
      Claimed shards start actions n token later → bindOutcome? n later = some none := by
  rw [h.state, Claim.state_eq_stopped_iff]
  constructor
  · rintro rfl n token later hclaimed
    by_contra houtcome
    obtain ⟨addr, hholder, -⟩ := h.holder_of_claimed hclaimed houtcome
    cases hholder
  · intro hfailed
    rcases hholder : holder with _ | ⟨n, token, addr⟩
    · rfl
    · obtain ⟨later, hclaimed, houtcome⟩ := (h.holder_iff n token addr).mp hholder
      rw [hfailed n token later hclaimed] at houtcome
      exact absurd houtcome.symm (map_some_ne_failed addr)

theorem Held.bindsOnce (h : Held shards start actions station holder) :
    BindsOnce shards start actions station where
  once := by
    intro m n token token' later later' hm hn hmout hnout
    obtain ⟨addr, hholder, -⟩ := h.holder_of_claimed hm hmout
    obtain ⟨addr', hholder', -⟩ := h.holder_of_claimed hn hnout
    rw [hholder, Option.some.injEq] at hholder'
    exact congrArg Claim.call hholder'
  stopped := h.stopped_iff_failed
  starting := by
    intro token
    rw [h.state, Claim.state_eq_starting_iff]
    exact exists_congr fun n => h.holder_iff n token none
  listening := by
    intro token addr
    rw [h.state, Claim.state_eq_listening_iff]
    exact exists_congr fun n => h.holder_iff n token (some addr)
  refused := fun hbusy => (step_listen h.shutdowns).trans (listen_of_busy hbusy)
  failed := by
    intro n token later hclaimed hfailed
    rcases h.outcome n token later hclaimed with ⟨claim, -, -, -, houtcome⟩ | ⟨-, -, hreturned⟩
    · rw [hfailed] at houtcome
      exact absurd houtcome.symm (map_some_ne_failed claim.addr)
    · exact hreturned
  restored := by
    intro n token hcall freed
    have hlive : station.lifecycle.isCancelled token = false := by
      simp [Lifecycle.isCancelled, h.cancelled]
    have hfreed : freed = _ := step_bind_none h.shutdowns hcall hlive
    refine ⟨by rw [hfreed]; rfl, by rw [hfreed]; rfl, fun addr => ?_⟩
    exact run_listen_bind (by rw [hfreed]; exact h.shutdowns) (by rw [hfreed]; exact h.cancelled)
      (by rw [hfreed]; rfl) addr

/-- Calls to listen that go on side by side bind once: in every run in which nobody shuts down and
every socket can be read, at most one call is past its claim and has not failed. The state is
stopped exactly when there is none, starting with its token exactly from the claim until the call
goes on, and listening with its token and address exactly after it went on with a bound socket. All
others are refused without a change, until a call fails to bind and gives the claim back. -/
theorem binds_once (shards : Shards) (config : ServerConfig) (world : World σ)
    (sessionIds : Nat → Uuid) (actions : List ServerAction)
    (hshutdown : ∀ deadline, .shutdown deadline ∉ actions) (hfail : ∀ n, .fail n ∉ actions) :
    BindsOnce shards (fresh config world sessionIds) actions
      ((fresh config world sessionIds).run shards actions) := by
  obtain ⟨holder, hheld⟩ := held_run shards config world sessionIds actions hshutdown hfail
  exact hheld.bindsOnce

omit [Store σ] in
/-- Three calls of which the first cannot bind: the second was refused in the meantime, and the
third listens. -/
theorem third_call_listens :
    let world := World.fresh MemoryStore.empty .none (fun _ => default) .ofNat
    let start := fresh {} world .ofNat
    let actions := [.listen, .listen, .bind 0 none, .listen, .bind 2 (some "127.0.0.1:5300")]
    let station := start.run .single actions
    station.listens =
        [.returned (.bind defaultListenAddr), .returned .alreadyRunning, .receiving 1] ∧
      (∃ n later, Claimed .single start actions n 1 later ∧
        bindOutcome? n later = some (some "127.0.0.1:5300")) ∧
      (station.step .single .listen).lifecycle = station.lifecycle := by
  intro world start actions station
  have honce := binds_once .single {} world .ofNat actions (by simp [actions]) (by simp [actions])
  refine ⟨by decide +kernel, (honce.listening 1 "127.0.0.1:5300").mp (by decide +kernel), ?_⟩
  rw [honce.refused (by decide +kernel)]

end Station

end RaceIngest
