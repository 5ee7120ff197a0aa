import RaceIngest.Proofs.Session.Moves

/-!
# Every accepted sample is filed once

A session hands its samples to the store in batches, from four places: when a checkpoint is due,
when the race is paused, at a race boundary, and when it is closed. Every flush empties the buffer,
whether or not the store took the batch, and one branch of a flush throws the buffer away.

The samples handed to the store so far, in the order of the calls, followed by the buffer, are the
*ledger* of a session. A move never changes what is already in the ledger and adds exactly the
accepted sample, if there is one. What carries the induction is `Session.Coherent`: without a race
the buffer is empty, which makes the branch that throws it away harmless, and all samples in the
buffer carry the race that is open, so that a batch is never filed under another race.

## Main results

* `Session.Move.coherent`: the moves keep a session coherent.
* `Session.Move.ledger_eq`: a move adds the accepted sample to the ledger, and nothing else.
* `Session.Move.proper`: a move hands over no empty batch and no batch of mixed races.
* `filed_once_in_order`: the same for whole runs.
-/

namespace RaceIngest

open Calendar

/-! ## Accepted samples and the ledger -/

/-- The sample that an operation makes a session record, if there is one. -/
def Operation.accepted? : Operation → Option Sample
  | .add sample => if Session.accepts sample then some sample else none
  | .checkpoint | .close => none

theorem accepted?_add_of_not_onTrack {sample : Sample} (hoff : sample.onTrack = false) :
    (Operation.add sample).accepted? = none := by
  simp [Operation.accepted?, Session.accepts, hoff]

theorem accepted?_add_of_grid {sample : Sample} (hgrid : sample.currentLap.isZero = true) :
    (Operation.add sample).accepted? = none := by
  simp [Operation.accepted?, Session.accepts, hgrid]

/-- The samples that operations make a session record, in the order of their receipt. -/
def acceptedSamples (operations : List Operation) : List Sample :=
  operations.filterMap Operation.accepted?

/-- The samples that a call hands to the store. -/
def Call.samples : Call → List Recorded
  | .insert _ samples => samples
  | .upsert _ | .last _ _ => []

/-- All samples handed to the store by some calls, in their order. -/
def handedOver (calls : List Call) : List Recorded := calls.flatMap Call.samples

@[simp] theorem handedOver_nil : handedOver [] = [] := rfl

@[simp] theorem handedOver_append (first second : List Call) :
    handedOver (first ++ second) = handedOver first ++ handedOver second :=
  List.flatMap_append

/-- A new session. -/
def Session.fresh (id : Uuid) (capacity : Nat) : Session := { id, capacity }

/-- A world in which nothing happened yet. -/
def World.fresh {σ : Type} (store : σ) (outage : Outage) (readings : Nat → Timestamp)
    (ids : Nat → Uuid) : World σ :=
  { store, outage, readings, ids }

/-- A sample of a car on its first lap, at a time of the race clock. -/
def Sample.lapping (clock : Single) : Sample :=
  { (default : Sample) with isRaceOn := 1, currentLap := .one, currentRaceTime := clock }

/-- The samples handed to the store so far, followed by those that wait in the buffer. -/
def ledger {σ : Type} (state : Session × World σ) : List Recorded :=
  handedOver state.2.calls ++ state.1.buffer

/-- The accepted samples of a session so far, each with the identifier of its race. -/
def tags {σ : Type} (state : Session × World σ) : List (Sample × Uuid) :=
  (ledger state).map fun recorded => (recorded.sample, recorded.race)

namespace Session

/-! ## Coherent sessions -/

/-- Without a race nothing waits in the buffer; with one, all that waits belongs to it, and the
race clock is that of the last sample that waits. -/
structure Coherent (session : Session) : Prop where
  buffer_eq_nil : session.race = none → session.buffer = []
  tag_eq : ∀ race, session.race = some race →
    ∀ recorded ∈ session.buffer, recorded.race = race.id
  clock_eq : ∀ race last, session.race = some race → session.buffer.getLast? = some last →
    race.raceTime = last.sample.currentRaceTime

theorem coherent_of_buffer_eq_nil {session : Session} (hbuffer : session.buffer = []) :
    session.Coherent where
  buffer_eq_nil := fun _ => hbuffer
  tag_eq := by simp [hbuffer]
  clock_eq := by simp [hbuffer]

theorem coherent_fresh (id : Uuid) (capacity : Nat) : (fresh id capacity).Coherent :=
  coherent_of_buffer_eq_nil rfl

/-- A flush takes over the clock that the race already has. -/
theorem Coherent.raceTime_refreshed {session : Session} (h : session.Coherent) {race : Race}
    (hrace : session.race = some race) : (session.refreshed race).raceTime = race.raceTime := by
  unfold refreshed
  cases hlast : session.buffer.getLast? with
  | none => rfl
  | some last => exact (h.clock_eq race last hrace hlast).symm

/-- A flush leaves the open race and its clock as they are. -/
theorem Coherent.race_flushed {session : Session} (h : session.Coherent) :
    (session.flushed.race.map fun race => (race.id, race.raceTime)) =
      session.race.map fun race => (race.id, race.raceTime) := by
  cases hrace : session.race with
  | none => simp [flushed, hrace]
  | some race =>
      have hclock := h.raceTime_refreshed hrace
      simp [flushed, hrace, hclock]

theorem Coherent.handedOver_flushCalls {session : Session} (h : session.Coherent) :
    handedOver session.flushCalls = session.buffer := by
  unfold flushCalls
  cases hlast : session.buffer.getLast? with
  | none =>
      rw [List.getLast?_eq_none_iff.mp hlast]
      rfl
  | some last =>
      cases hrace : session.race with
      | none => exact (h.buffer_eq_nil hrace).symm
      | some race => simp [handedOver, Call.samples]

/-- The other calls of an operation that flushes hand nothing over. -/
theorem Coherent.handedOver_flushCalls_append {session : Session} (h : session.Coherent)
    {calls : List Call} (hcalls : handedOver calls = []) :
    handedOver (session.flushCalls ++ calls) = session.buffer := by
  rw [handedOver_append, h.handedOver_flushCalls, hcalls, List.append_nil]

theorem Entry.coherent {id : Uuid} {sample : Sample} {session ready : Session}
    {calls : List Call} {events : List Event} {taken : Nat}
    (h : session.Entry id sample calls events taken ready) (hsession : session.Coherent) :
    ready.Coherent := by
  cases h with
  | opens now hrace => exact coherent_of_buffer_eq_nil (hsession.buffer_eq_nil hrace)
  | crosses => exact coherent_of_buffer_eq_nil rfl
  | resumes race hrace =>
      refine { buffer_eq_nil := by simp, tag_eq := ?_, clock_eq := ?_ }
      · intro current hcurrent
        rw [Option.some.injEq] at hcurrent
        rw [← hcurrent]
        exact hsession.tag_eq race hrace
      · intro current last hcurrent hlast
        rw [Option.some.injEq] at hcurrent
        rw [← hcurrent]
        exact hsession.clock_eq race last hrace hlast
  | continues => exact hsession

theorem Coherent.recorded {ready : Session} (h : ready.Coherent) (sample : Sample) {race : Race}
    (hrace : ready.race = some race) (now : Timestamp) :
    (ready.recorded sample race now).Coherent := by
  refine { buffer_eq_nil := by simp [Session.recorded], tag_eq := ?_, clock_eq := ?_ }
  · intro current hcurrent entry hentry
    simp only [Session.recorded, Option.some.injEq] at hcurrent hentry
    rw [← hcurrent]
    rcases List.mem_append.mp hentry with hold | hnew
    · exact h.tag_eq race hrace entry hold
    · rw [List.mem_singleton.mp hnew]
  · intro current last hcurrent hlast
    simp only [Session.recorded, Option.some.injEq, List.getLast?_concat] at hcurrent hlast
    rw [← hcurrent, ← hlast]

theorem Move.coherent {id : Uuid} {session after : Session} {operation : Operation}
    {calls : List Call} {events : List Event} {taken : Nat}
    (h : session.Move id operation calls events taken after) (hsession : session.Coherent) :
    after.Coherent := by
  cases h with
  | staysOff => exact hsession
  | pauses => exact coherent_of_buffer_eq_nil rfl
  | waitsOnGrid => exact hsession
  | accepts _ _ _ _ _ ready race now hentry hrace =>
      exact (hentry.coherent hsession).recorded _ hrace now
  | flushes => exact coherent_of_buffer_eq_nil rfl
  | closesIdle => exact hsession
  | closes => exact coherent_of_buffer_eq_nil rfl

/-! ## What a move adds to the ledger -/

theorem Entry.ledger_eq {id : Uuid} {sample : Sample} {session ready : Session}
    {calls : List Call} {events : List Event} {taken : Nat}
    (h : session.Entry id sample calls events taken ready) (hsession : session.Coherent) :
    handedOver calls ++ ready.buffer = session.buffer := by
  cases h with
  | opens => rfl
  | crosses =>
      rw [hsession.handedOver_flushCalls_append rfl]
      exact List.append_nil _
  | resumes => rfl
  | continues => rfl

/-- A move leaves what is in the ledger alone and adds the accepted sample, if there is one. -/
theorem Move.ledger_eq {id : Uuid} {session after : Session} {operation : Operation}
    {calls : List Call} {events : List Event} {taken : Nat}
    (h : session.Move id operation calls events taken after) (hsession : session.Coherent) :
    ∃ filed, handedOver calls ++ after.buffer = session.buffer ++ filed ∧
      filed.map Recorded.sample = operation.accepted?.toList := by
  cases h with
  | staysOff sample hoff =>
      refine ⟨[], by simp, ?_⟩
      rw [accepted?_add_of_not_onTrack hoff]
      rfl
  | pauses sample hoff =>
      refine ⟨[], ?_, ?_⟩
      · rw [hsession.handedOver_flushCalls_append rfl]
        rfl
      · rw [accepted?_add_of_not_onTrack hoff]
        rfl
  | waitsOnGrid sample hon hgrid =>
      refine ⟨[], by simp, ?_⟩
      rw [accepted?_add_of_grid hgrid]
      rfl
  | accepts sample haccepts _ _ _ ready race now hentry =>
      have hready := hentry.ledger_eq hsession
      refine ⟨[⟨sample, race.id, now⟩], ?_, ?_⟩
      · simp only [Session.recorded]
        rw [← List.append_assoc, hready]
      · simp [Operation.accepted?, haccepts]
  | flushes =>
      refine ⟨[], ?_, rfl⟩
      rw [hsession.handedOver_flushCalls]
      rfl
  | closesIdle => exact ⟨[], by simp, rfl⟩
  | closes =>
      refine ⟨[], ?_, rfl⟩
      rw [hsession.handedOver_flushCalls_append rfl]
      rfl

end Session

/-- A sample that is recorded is tagged with the race it is recorded for. -/
theorem tags_recorded {σ : Type} {id : Uuid} {sample : Sample} {session ready : Session}
    {world world' : World σ} {calls : List Call} {events : List Event} {taken : Nat}
    (hentry : session.Entry id sample calls events taken ready) (hsession : session.Coherent)
    (hextends : world.Extends world' calls events taken) (race : Race) (now : Timestamp) :
    tags (ready.recorded sample race now, world') =
      tags (session, world) ++ [(sample, race.id)] := by
  have hready := hentry.ledger_eq hsession
  simp only [tags, ledger, hextends.calls_eq, handedOver_append, Session.recorded]
  rw [← hready]
  simp only [List.map_append, List.append_assoc, List.map_cons, List.map_nil]

/-! ## Batches -/

/-- A call that hands over samples hands over at least one, and all of them carry the race that is
passed with them. -/
def Call.Proper : Call → Prop
  | .insert race batch => batch ≠ [] ∧ ∀ recorded ∈ batch, recorded.race = race.id
  | .upsert _ | .last _ _ => True

namespace Session

theorem Coherent.proper_flushCalls {session : Session} (h : session.Coherent) :
    ∀ call ∈ session.flushCalls, call.Proper := by
  unfold flushCalls
  cases hlast : session.buffer.getLast? with
  | none => simp
  | some last =>
      cases hrace : session.race with
      | none => simp
      | some race =>
          have hne : session.buffer ≠ [] := by
            intro hnil
            simp [hnil] at hlast
          have htag : ∀ recorded ∈ session.buffer,
              recorded.race = (session.refreshed race).id := by
            rw [id_refreshed]
            exact h.tag_eq race hrace
          simp only [List.mem_cons, List.not_mem_nil, or_false, forall_eq_or_imp, forall_eq]
          exact ⟨trivial, hne, htag⟩

theorem Entry.proper {id : Uuid} {sample : Sample} {session ready : Session}
    {calls : List Call} {events : List Event} {taken : Nat}
    (h : session.Entry id sample calls events taken ready) (hsession : session.Coherent) :
    ∀ call ∈ calls, call.Proper := by
  have hflush := hsession.proper_flushCalls
  cases h with
  | opens => simp [Call.Proper]
  | crosses =>
      intro call hcall
      rcases List.mem_append.mp hcall with hold | hnew
      · exact hflush call hold
      · simp only [List.mem_cons, List.not_mem_nil, or_false] at hnew
        rcases hnew with rfl | rfl <;> trivial
  | resumes => simp [Call.Proper]
  | continues => simp

/-- A move hands over no empty batch and no batch of mixed races. -/
theorem Move.proper {id : Uuid} {session after : Session} {operation : Operation}
    {calls : List Call} {events : List Event} {taken : Nat}
    (h : session.Move id operation calls events taken after) (hsession : session.Coherent) :
    ∀ call ∈ calls, call.Proper := by
  have hflush := hsession.proper_flushCalls
  cases h with
  | staysOff => simp
  | waitsOnGrid => simp
  | closesIdle => simp
  | flushes => exact hflush
  | accepts _ _ _ _ _ _ _ _ hentry => exact hentry.proper hsession
  | pauses =>
      intro call hcall
      rcases List.mem_append.mp hcall with hold | hnew
      · exact hflush call hold
      · rw [List.mem_singleton.mp hnew]
        trivial
  | closes =>
      intro call hcall
      rcases List.mem_append.mp hcall with hold | hnew
      · exact hflush call hold
      · simp only [List.mem_cons, List.not_mem_nil, or_false] at hnew
        rcases hnew with rfl | rfl <;> trivial

theorem Move.buffer_eq_nil {id : Uuid} {session after : Session} {operation : Operation}
    {calls : List Call} {events : List Event} {taken : Nat}
    (h : session.Move id operation calls events taken after) (hsession : session.Coherent)
    (hoperation : operation = .checkpoint ∨ operation = .close) : after.buffer = [] := by
  cases h with
  | flushes => rfl
  | closesIdle hrace => exact hsession.buffer_eq_nil hrace
  | closes => rfl
  | _ => simp at hoperation

end Session

/-! ## Runs -/

section Runs

variable {σ : Type} [Store σ]

/-- What one operation does to a session and its world. -/
theorem World.exists_move (operation : Operation) (session : Session) (world : World σ) :
    ∃ calls events taken,
      session.Move (world.ids world.issued) operation calls events taken
        (World.perform operation (session, world)).1 ∧
      world.Extends (World.perform operation (session, world)).2 calls events taken :=
  session.yields_operation operation world

/-- A run keeps a session coherent, adds the accepted samples to the ledger in the order of their
receipt, and makes proper calls only. -/
theorem performAll_filing (operations : List Operation) (session : Session) (world : World σ)
    (hsession : session.Coherent) (hworld : ∀ call ∈ world.calls, call.Proper) :
    (World.performAll operations (session, world)).1.Coherent ∧
      (∀ call ∈ (World.performAll operations (session, world)).2.calls, call.Proper) ∧
      ∃ filed, ledger (World.performAll operations (session, world)) =
          ledger (session, world) ++ filed ∧
        filed.map Recorded.sample = acceptedSamples operations := by
  induction operations generalizing session world with
  | nil => exact ⟨hsession, hworld, [], by simp [World.performAll], rfl⟩
  | cons operation operations ih =>
      obtain ⟨calls, events, taken, hmove, hextends⟩ :=
        World.exists_move operation session world
      obtain ⟨first, hfirst, hsamples⟩ := hmove.ledger_eq hsession
      have hproper := hmove.proper hsession
      have hcalls := hextends.calls_eq
      obtain ⟨hcoherent, hrest, later, hlater, hlaterSamples⟩ :=
        ih (World.perform operation (session, world)).1
          (World.perform operation (session, world)).2 (hmove.coherent hsession) (by
            intro call hcall
            rw [hcalls] at hcall
            rcases List.mem_append.mp hcall with hold | hnew
            · exact hworld call hold
            · exact hproper call hnew)
      refine ⟨hcoherent, hrest, first ++ later, ?_, ?_⟩
      · calc ledger (World.performAll (operation :: operations) (session, world))
            = ledger (World.perform operation (session, world)) ++ later := hlater
          _ = handedOver world.calls ++ (handedOver calls ++
                (World.perform operation (session, world)).1.buffer) ++ later := by
              rw [ledger, hcalls, handedOver_append, List.append_assoc (handedOver world.calls)]
          _ = ledger (session, world) ++ (first ++ later) := by
              rw [hfirst, ledger]
              simp only [List.append_assoc]
      · rw [List.map_append, hsamples, hlaterSamples]
        cases hop : operation.accepted? <;> simp [acceptedSamples, hop]

/-- No sample is lost, duplicated, reordered or filed under the wrong race. Whatever the store
answers and whichever of its calls fail, after every run the samples handed over so far, in the
order of the calls, followed by the buffer, are the accepted samples in the order of their receipt;
every batch handed over is non-empty and carries the race passed with it; what waits in the buffer
carries the open race; and a checkpoint or a close leaves the buffer empty. -/
theorem filed_once_in_order (store : σ) (outage : Outage) (readings : Nat → Timestamp)
    (ids : Nat → Uuid) (id : Uuid) (capacity : Nat) (operations : List Operation) :
    let final := World.performAll operations
      (Session.fresh id capacity, World.fresh store outage readings ids)
    (handedOver final.2.calls ++ final.1.buffer).map Recorded.sample =
        acceptedSamples operations ∧
      (∀ race batch, Call.insert race batch ∈ final.2.calls →
        batch ≠ [] ∧ ∀ recorded ∈ batch, recorded.race = race.id) ∧
      (∀ recorded ∈ final.1.buffer, ∃ race, final.1.race = some race ∧
        recorded.race = race.id) ∧
      (World.perform .checkpoint final).1.buffer = [] ∧
      (World.perform .close final).1.buffer = [] := by
  intro final
  obtain ⟨hcoherent, hproper, filed, hledger, hsamples⟩ :=
    performAll_filing operations (Session.fresh id capacity)
      (World.fresh store outage readings ids) (Session.coherent_fresh id capacity)
      (by simp [World.fresh])
  have hempties : ∀ operation, operation = .checkpoint ∨ operation = .close →
      (World.perform operation final).1.buffer = [] := by
    intro operation hoperation
    obtain ⟨_, _, _, hmove, _⟩ := World.exists_move operation final.1 final.2
    exact hmove.buffer_eq_nil hcoherent hoperation
  refine ⟨?_, fun race batch hcall => hproper _ hcall, ?_, hempties _ (.inl rfl),
    hempties _ (.inr rfl)⟩
  · change (ledger final).map Recorded.sample = acceptedSamples operations
    rw [hledger, ← hsamples]
    rfl
  · intro recorded hrecorded
    cases hrace : final.1.race with
    | none =>
        rw [hcoherent.buffer_eq_nil hrace] at hrecorded
        exact absurd hrecorded List.not_mem_nil
    | some race => exact ⟨race, rfl, hcoherent.tag_eq race hrace recorded hrecorded⟩

end Runs

end RaceIngest
