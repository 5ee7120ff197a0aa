import RaceIngest.Proofs.Session.Chapters
import RaceIngest.Proofs.Store.Shelf

/-!
# The store mirrors the session

A session writes its race to the store at six different moments, each time another copy of it: when
the race starts, at every flush, when it is paused or resumed, at a boundary together with the next
race, and when it is closed. In between, the race in memory is ahead of the stored one, but only in
its clock, which every accepted sample moves.

This module says what a reliable store holds of a session. `Shelf.Holds` is what is true between
any two calls: one race of the session at most is in progress, and the calls say which; every other
race of the session is over; every sample that was handed over belongs to a stored race. An update
that carries two races, at a boundary, is what makes this possible. `Mirrors` is what is true after
every operation: the stored copy of the open race is the race in memory with the aggregates of the
last sample that was handed over for it.

## Main results

* `Shelf.Holds.upsert`, `Shelf.Holds.insert`: the calls of a session, one by one.
* `Mirrors.move`: every move keeps the store in step, and all calls on the way do.
* `store_mirrors_session`: the same for whole runs, in terms of the queries of the store.
-/

namespace RaceIngest

open Calendar

/-! ## Copies of a race -/

namespace Race

/-- A race with the aggregates of the last of its samples, or of a race that has none. -/
def asOf (race : Race) : Option Recorded → Race
  | some last => race.update last.sample
  | none =>
    { race with bestLap := .zero, raceTime := .zero, position := 0, distanceTraveled := .zero }

/-- A race whose clock was moved. -/
def withClock (race : Race) (clock : Single) : Race := { race with raceTime := clock }

@[simp] theorem id_withClock (race : Race) (clock : Single) : (race.withClock clock).id = race.id :=
  rfl

@[simp] theorem asOf_withClock (race : Race) (clock : Single) (last : Option Recorded) :
    (race.withClock clock).asOf last = race.asOf last := by
  cases last <;> rfl

/-- A race in progress. -/
structure Running (race : Race) (sessionId : Uuid) : Prop where
  sessionId_eq : race.sessionId = sessionId
  inProgress_eq : race.inProgress = true
  finishedAt_eq : race.finishedAt = none

/-- A race that is over. -/
structure Over (race : Race) : Prop where
  inProgress_eq : race.inProgress = false
  finishedAt_isSome : race.finishedAt.isSome = true

theorem Ends.over {race ended : Race} {result : Except StorageError Recorded}
    (h : race.Ends result ended) : ended.Over :=
  ⟨h.fits.1, h.fits.2⟩

end Race

/-- The samples that some calls handed over for a race. -/
def flushedFor (calls : List Call) (id : Uuid) : List Recorded :=
  (handedOver calls).filter fun recorded => recorded.race == id

theorem flushedFor_append (first second : List Call) (id : Uuid) :
    flushedFor (first ++ second) id = flushedFor first id ++ flushedFor second id := by
  rw [flushedFor, handedOver_append, List.filter_append]
  rfl

/-- Calls that hand nothing over change nothing. -/
theorem flushedFor_append_of_eq_nil (first : List Call) {second : List Call}
    (h : handedOver second = []) (id : Uuid) :
    flushedFor (first ++ second) id = flushedFor first id := by
  rw [flushedFor, handedOver_append, h, List.append_nil]
  rfl

/-! ## Between two calls -/

namespace Shelf

/-- What a store holds of a session after some calls. The race of the session that is in progress,
if there is one, is stored as `copy`, all its other races are over, and what was handed over
belongs to races that are stored. -/
structure Holds (initial : Shelf) (id : Uuid) (calls : List Call) (copy : Option Race) : Prop where
  stored : ∀ race, copy = some race →
    (initial.after calls).race? race.id = some race ∧ race.Running id
  others : ∀ other race, (initial.after calls).race? other = some race → race.sessionId = id →
    (∀ current, copy = some current → current.id ≠ other) → race.Over
  samples : ∀ other, ((initial.after calls).race? other).isSome = true ∨
    initial.race? other = none ∧ (initial.after calls).samples other = initial.samples other
  handed : ∀ recorded ∈ handedOver calls,
    ((initial.after calls).race? recorded.race).isSome = true

variable {initial : Shelf} {id : Uuid} {calls : List Call} {copy : Option Race}

/-- At most one stored race of the session is in progress. -/
theorem Holds.eq_of_inProgress (h : initial.Holds id calls copy) {first second : Uuid}
    {race race' : Race} (hfirst : (initial.after calls).race? first = some race)
    (hsecond : (initial.after calls).race? second = some race') (hrace : race.sessionId = id)
    (hrace' : race'.sessionId = id) (hrunning : race.inProgress = true)
    (hrunning' : race'.inProgress = true) : first = second := by
  have hcurrent : ∀ other race, (initial.after calls).race? other = some race →
      race.sessionId = id → race.inProgress = true →
      ∃ current, copy = some current ∧ current.id = other := by
    intro other race hstored hsession hprogress
    by_contra hnone
    have hover := h.others other race hstored hsession (fun current hcopy heq =>
      hnone ⟨current, hcopy, heq⟩)
    rw [hover.inProgress_eq] at hprogress
    exact Bool.false_ne_true hprogress
  obtain ⟨current, hcopy, hid⟩ := hcurrent first race hfirst hrace hrunning
  obtain ⟨current', hcopy', hid'⟩ := hcurrent second race' hsecond hrace' hrunning'
  rw [hcopy, Option.some.injEq] at hcopy'
  rw [← hid, ← hid', hcopy']

/-- The calls count only by what they leave behind. -/
theorem Holds.congr (h : initial.Holds id calls copy) {calls' : List Call}
    (hafter : initial.after calls' = initial.after calls)
    (hhanded : handedOver calls' = handedOver calls) : initial.Holds id calls' copy where
  stored := by rw [hafter]; exact h.stored
  others := by rw [hafter]; exact h.others
  samples := by rw [hafter]; exact h.samples
  handed := by rw [hafter, hhanded]; exact h.handed

/-- A question changes nothing. -/
theorem Holds.ask (h : initial.Holds id calls copy) (race : Uuid)
    (result : Except StorageError Recorded) :
    initial.Holds id (calls ++ [.last race result]) copy := by
  refine h.congr ?_ ?_
  · rw [after_append]
    rfl
  · rw [handedOver_append]
    exact List.append_nil _

/-- An update of one race stores that race, if it is a new race or another state of the stored
one. Only the race in progress may be updated. -/
theorem Holds.upsert (h : initial.Holds id calls copy) {race : Race}
    (hsame : ∀ stored, (initial.after calls).race? race.id = some stored → race.SameRace stored)
    (hcurrent : ∀ current, copy = some current → current.id = race.id) {copy' : Option Race}
    (hcopy : copy' = some race ∧ race.Running id ∨ copy' = none ∧ race.Over) :
    initial.Holds id (calls ++ [.upsert [race]]) copy' := by
  have hafter : initial.after (calls ++ [.upsert [race]]) = (initial.after calls).put race := by
    rw [after_append]
    rfl
  have hself : ((initial.after calls).put race).race? race.id = some race := by
    rw [race?_put_self]
    cases hstored : (initial.after calls).race? race.id with
    | none => rfl
    | some stored => exact congrArg some (Race.mergeMutable_eq (hsame stored hstored))
  refine { stored := ?_, others := ?_, samples := ?_, handed := ?_ }
  · intro other hother
    rcases hcopy with ⟨hsome, hrunning⟩ | ⟨hnone, -⟩
    · rw [hsome, Option.some.injEq] at hother
      rw [← hother, hafter]
      exact ⟨hself, hrunning⟩
    · rw [hnone] at hother
      exact absurd hother (by simp)
  · intro other found hfound hsession hother
    rw [hafter] at hfound
    by_cases heq : other = race.id
    · rw [heq, hself, Option.some.injEq] at hfound
      rcases hcopy with ⟨hsome, -⟩ | ⟨-, hover⟩
      · exact absurd heq.symm (hother race hsome)
      · rw [← hfound]
        exact hover
    · rw [race?_put_of_ne _ heq] at hfound
      refine h.others other found hfound hsession ?_
      intro current hcopy' hid
      exact heq (hid.symm.trans (hcurrent current hcopy'))
  · intro other
    rw [hafter]
    rcases h.samples other with hstored | ⟨hnone, hkept⟩
    · exact .inl (isSome_race?_put hstored race)
    · exact .inr ⟨hnone, hkept⟩
  · intro recorded hrecorded
    have hnothing : handedOver [Call.upsert [race]] = [] := rfl
    rw [handedOver_append, hnothing, List.append_nil] at hrecorded
    rw [hafter]
    exact isSome_race?_put (h.handed recorded hrecorded) race

/-- A flush hands over samples of the race in progress. -/
theorem Holds.insert {current race : Race} (h : initial.Holds id calls (some current))
    (hid : race.id = current.id) {batch : List Recorded}
    (htag : ∀ recorded ∈ batch, recorded.race = race.id) :
    initial.Holds id (calls ++ [.insert race batch]) (some current) := by
  have hafter : initial.after (calls ++ [.insert race batch]) =
      (initial.after calls).insert race batch := by
    rw [after_append]
    rfl
  have hstored := (h.stored current rfl).1
  refine { stored := ?_, others := ?_, samples := ?_, handed := ?_ }
  · rw [hafter]
    exact h.stored
  · rw [hafter]
    exact h.others
  · intro other
    rw [hafter]
    rcases h.samples other with hsome | ⟨hnone, hkept⟩
    · exact .inl hsome
    · by_cases heq : other = race.id
      · refine .inl ?_
        rw [heq, hid]
        exact Option.isSome_of_eq_some hstored
      · refine .inr ⟨hnone, ?_⟩
        rw [← hkept]
        simp [Shelf.insert, heq]
  · intro recorded hrecorded
    rw [hafter]
    rw [handedOver_append] at hrecorded
    rcases List.mem_append.mp hrecorded with hold | hnew
    · exact h.handed recorded hold
    · have hmem : recorded ∈ batch := by simpa [handedOver, Call.samples] using hnew
      rw [htag recorded hmem, hid]
      exact Option.isSome_of_eq_some hstored

/-- Another state of the race in progress is stored. -/
theorem Holds.update {current race : Race} (h : initial.Holds id calls (some current))
    (hsame : race.SameRace current) (hrunning : race.Running id) :
    initial.Holds id (calls ++ [.upsert [race]]) (some race) := by
  refine h.upsert ?_ ?_ (.inl ⟨rfl, hrunning⟩)
  · intro stored hstored
    rw [hsame.id_eq, (h.stored current rfl).1, Option.some.injEq] at hstored
    rw [← hstored]
    exact hsame
  · intro other hother
    rw [Option.some.injEq] at hother
    rw [← hother, hsame.id_eq]

/-- The race in progress is stored as one that is over. -/
theorem Holds.finish {current race : Race} (h : initial.Holds id calls (some current))
    (hsame : race.SameRace current) (hover : race.Over) :
    initial.Holds id (calls ++ [.upsert [race]]) none := by
  refine h.upsert ?_ ?_ (.inr ⟨rfl, hover⟩)
  · intro stored hstored
    rw [hsame.id_eq, (h.stored current rfl).1, Option.some.injEq] at hstored
    rw [← hstored]
    exact hsame
  · intro other hother
    rw [Option.some.injEq] at hother
    rw [← hother, hsame.id_eq]

/-- A race is stored for the first time. -/
theorem Holds.start (h : initial.Holds id calls none) {race : Race}
    (hnew : (initial.after calls).race? race.id = none) (hrunning : race.Running id) :
    initial.Holds id (calls ++ [.upsert [race]]) (some race) := by
  refine h.upsert ?_ (by simp) (.inl ⟨rfl, hrunning⟩)
  intro stored hstored
  rw [hnew] at hstored
  exact absurd hstored (by simp)

/-- One call can finish the race in progress and start the next. -/
theorem Holds.cross {current ended next : Race} (h : initial.Holds id calls (some current))
    (hsame : ended.SameRace current) (hover : ended.Over)
    (hnew : (initial.after calls).race? next.id = none) (hrunning : next.Running id) :
    initial.Holds id (calls ++ [.upsert [ended, next]]) (some next) := by
  have hstored := (h.stored current rfl).1
  have hdiffer : next.id ≠ ended.id := by
    intro heq
    rw [heq, hsame.id_eq, hstored] at hnew
    exact absurd hnew (by simp)
  have hfinished := h.finish hsame hover
  have hstill : (initial.after (calls ++ [.upsert [ended]])).race? next.id = none := by
    rw [after_append]
    exact (race?_put_of_ne _ hdiffer).trans hnew
  refine (hfinished.start hstill hrunning).congr ?_ ?_
  · rw [after_append, after_append, after_append]
    rfl
  · simp [handedOver, Call.samples]

end Shelf

/-! ## Calls one after the other -/

/-- After each of some further calls the store holds something of the session, and after the last
one `copy`. -/
inductive Shelf.Trail (initial : Shelf) (id : Uuid) (calls : List Call) :
    List Call → Option Race → Prop where
  | here {copy : Option Race} (h : initial.Holds id calls copy) : Trail initial id calls [] copy
  | step {further : List Call} {call : Call} {copy copy' : Option Race}
      (hbefore : Trail initial id calls further copy)
      (h : initial.Holds id (calls ++ further ++ [call]) copy') :
      Trail initial id calls (further ++ [call]) copy'

namespace Shelf

variable {initial : Shelf} {id : Uuid} {calls further : List Call} {copy : Option Race}

theorem Trail.holds (h : initial.Trail id calls further copy) :
    initial.Holds id (calls ++ further) copy := by
  cases h with
  | here h => rwa [List.append_nil]
  | step hbefore h => rwa [← List.append_assoc]

theorem Trail.one {call : Call} {copy' : Option Race} (h : initial.Holds id calls copy)
    (h' : initial.Holds id (calls ++ [call]) copy') : initial.Trail id calls [call] copy' := by
  have hcall : calls ++ [] ++ [call] = calls ++ [call] := by rw [List.append_nil]
  have hstep : initial.Trail id calls ([] ++ [call]) copy' := .step (.here h) (hcall ▸ h')
  exact hstep

/-- A race is finished in two calls: a question and an update. -/
theorem Trail.ask_then (h : initial.Trail id calls further copy) {race : Uuid}
    {result : Except StorageError Recorded} {call : Call} {copy' copy'' : Option Race}
    (hasked : initial.Holds id (calls ++ further ++ [.last race result]) copy')
    (hcalled : initial.Holds id (calls ++ further ++ [.last race result] ++ [call]) copy'') :
    initial.Trail id calls (further ++ [.last race result, call]) copy'' := by
  have hsplit : further ++ [.last race result, call] = further ++ [.last race result] ++ [call] :=
    by simp
  rw [hsplit]
  refine .step (.step h hasked) ?_
  rwa [← List.append_assoc calls]

theorem Trail.holds_of_prefix (h : initial.Trail id calls further copy) {part : List Call}
    (hpart : part <+: further) : ∃ copy', initial.Holds id (calls ++ part) copy' := by
  induction h with
  | here h =>
      rw [List.prefix_nil.mp hpart, List.append_nil]
      exact ⟨_, h⟩
  | step hbefore h ih =>
      rcases List.prefix_concat_iff.mp hpart with rfl | hearlier
      · rw [← List.append_assoc]
        exact ⟨_, h⟩
      · exact ih hearlier

end Shelf

/-! ## Identifiers that were not used yet -/

/-- No race is stored for the identifiers of the supply from `issued` on, below a bound. -/
def Shelf.Unused (initial : Shelf) (ids : Nat → Uuid) (issued bound : Nat) (calls : List Call) :
    Prop :=
  ∀ number, issued ≤ number → number < bound → (initial.after calls).race? (ids number) = none

namespace Shelf

variable {initial : Shelf} {ids : Nat → Uuid} {issued bound : Nat} {calls : List Call}

/-- What stores no other race uses no identifier. -/
theorem Unused.of_race?_eq (h : initial.Unused ids issued bound calls) {further : List Call}
    (heq : ∀ other, (initial.after calls).race? other = none →
      (initial.after (calls ++ further)).race? other = none) :
    initial.Unused ids issued bound (calls ++ further) :=
  fun number hissued hbound => heq _ (h number hissued hbound)

theorem Unused.ask (h : initial.Unused ids issued bound calls) (race : Uuid)
    (result : Except StorageError Recorded) :
    initial.Unused ids issued bound (calls ++ [.last race result]) := by
  refine h.of_race?_eq fun other hnone => ?_
  rw [after_append]
  exact hnone

theorem Unused.insert (h : initial.Unused ids issued bound calls) (race : Race)
    (batch : List Recorded) :
    initial.Unused ids issued bound (calls ++ [.insert race batch]) := by
  refine h.of_race?_eq fun other hnone => ?_
  rw [after_append]
  exact hnone

/-- An update of a stored race uses no identifier. -/
theorem Unused.update (h : initial.Unused ids issued bound calls) {race : Race}
    (hstored : ((initial.after calls).race? race.id).isSome = true) :
    initial.Unused ids issued bound (calls ++ [.upsert [race]]) := by
  refine h.of_race?_eq fun other hnone => ?_
  have hne : other ≠ race.id := by
    rintro rfl
    rw [hnone] at hstored
    exact Bool.false_ne_true hstored
  rw [after_append]
  exact (race?_put_of_ne _ hne).trans hnone

/-- A race that starts uses the first identifier. -/
theorem Unused.start (h : initial.Unused ids issued bound calls)
    (hdistinct : ∀ i j, i < bound → j < bound → ids i = ids j → i = j) (hissued : issued < bound)
    {race : Race} (hid : race.id = ids issued) :
    initial.Unused ids (issued + 1) bound (calls ++ [.upsert [race]]) := by
  intro number hnumber hbound
  have hne : ids number ≠ race.id := by
    intro heq
    have hsame := hdistinct number issued hbound hissued (heq.trans hid)
    omega
  rw [after_append]
  exact (race?_put_of_ne _ hne).trans (h number (Nat.le_of_succ_le hnumber) hbound)

theorem Unused.cross (h : initial.Unused ids issued bound calls)
    (hdistinct : ∀ i j, i < bound → j < bound → ids i = ids j → i = j) (hissued : issued < bound)
    {ended next : Race} (hstored : ((initial.after calls).race? ended.id).isSome = true)
    (hid : next.id = ids issued) :
    initial.Unused ids (issued + 1) bound (calls ++ [.upsert [ended, next]]) := by
  have hboth := (h.update hstored).start hdistinct hissued hid
  unfold Unused at hboth ⊢
  rw [after_append, after_append] at hboth
  rw [after_append]
  exact hboth

/-- Nothing was handed over for an identifier without a stored race. -/
theorem Holds.flushedFor_eq_nil {id : Uuid} {copy : Option Race}
    (h : initial.Holds id calls copy) {other : Uuid}
    (hnone : (initial.after calls).race? other = none) : flushedFor calls other = [] := by
  unfold flushedFor
  rw [List.filter_eq_nil_iff]
  intro recorded hrecorded htag
  have hsome := h.handed recorded hrecorded
  rw [beq_iff_eq.mp htag, hnone] at hsome
  exact Bool.false_ne_true hsome

end Shelf

/-! ## After an operation -/

/-- The store is in step with a session after an operation: the race that is open is stored as
`copy`, which differs from it by its clock at most, and not at all once the buffer is empty. The
copy has the aggregates of the last sample that was handed over for it. -/
structure Mirrors (initial : Shelf) (ids : Nat → Uuid) (bound : Nat) (id : Uuid) (issued : Nat)
    (session : Session) (calls : List Call) (copy : Option Race) : Prop where
  coherent : session.Coherent
  id_eq : session.id = id
  holds : initial.Holds id calls copy
  memory : session.race.map (·.withClock .zero) = copy.map (·.withClock .zero)
  settled : session.buffer = [] → session.race = copy
  flushed : ∀ race, copy = some race → race.asOf (flushedFor calls race.id).getLast? = race
  idle : ∀ race, session.race = some race → race.paused = true → session.buffer = []
  unused : initial.Unused ids issued bound calls

namespace Mirrors

variable {initial : Shelf} {ids : Nat → Uuid} {bound issued : Nat} {id : Uuid} {session : Session}
  {calls : List Call} {copy : Option Race}

/-- With an empty buffer, memory and store agree. -/
theorem of_settled (hid : session.id = id) (hbuffer : session.buffer = [])
    (hrace : session.race = copy) (hholds : initial.Holds id calls copy)
    (hflushed : ∀ race, copy = some race → race.asOf (flushedFor calls race.id).getLast? = race)
    (hunused : initial.Unused ids issued bound calls) :
    Mirrors initial ids bound id issued session calls copy where
  coherent := Session.coherent_of_buffer_eq_nil hbuffer
  id_eq := hid
  holds := hholds
  memory := by rw [hrace]
  settled := fun _ => hrace
  flushed := hflushed
  idle := fun _ _ _ => hbuffer
  unused := hunused

/-- The open race and its stored copy differ by the clock at most. -/
theorem exists_copy (h : Mirrors initial ids bound id issued session calls copy) {race : Race}
    (hrace : session.race = some race) :
    ∃ stored, copy = some stored ∧ race = stored.withClock race.raceTime := by
  have hmemory := h.memory
  rw [hrace, Option.map_some] at hmemory
  obtain ⟨stored, hcopy, heq⟩ := Option.map_eq_some_iff.mp hmemory.symm
  have hclocks := congrArg (·.withClock race.raceTime) heq
  exact ⟨stored, hcopy, hclocks.symm⟩

theorem copy_eq_none (h : Mirrors initial ids bound id issued session calls copy)
    (hrace : session.race = none) : copy = none := by
  have hmemory := h.memory
  rw [hrace, Option.map_none] at hmemory
  exact Option.map_eq_none_iff.mp hmemory.symm

/-- A flush brings the store up to the session. -/
theorem flush (h : Mirrors initial ids bound id issued session calls copy) :
    ∃ copy', initial.Trail id calls session.flushCalls copy' ∧
      Mirrors initial ids bound id issued session.flushed (calls ++ session.flushCalls) copy' := by
  have hholds := h.holds
  cases hlast : session.buffer.getLast? with
  | none =>
      have hbuffer := List.getLast?_eq_none_iff.mp hlast
      have hcalls : session.flushCalls = [] := by simp [Session.flushCalls, hlast]
      have hrace : session.flushed.race = session.race := by
        have hrefreshed : session.refreshed = fun race => race := by
          funext race
          simp [Session.refreshed, hlast]
        simp [Session.flushed, hrefreshed]
      rw [hcalls, List.append_nil]
      exact ⟨copy, .here hholds, .of_settled h.id_eq rfl (hrace.trans (h.settled hbuffer)) hholds
        h.flushed h.unused⟩
  | some last =>
      cases hrace : session.race with
      | none =>
          rw [h.coherent.buffer_eq_nil hrace] at hlast
          exact absurd hlast (by simp)
      | some race =>
          obtain ⟨stored, hcopy, hclock⟩ := h.exists_copy hrace
          rw [hcopy] at hholds
          obtain ⟨hstored, hrunning⟩ := hholds.stored stored rfl
          have hrefreshed : session.refreshed race = stored.update last.sample := by
            unfold Session.refreshed
            rw [hlast, hclock]
            rfl
          have hcalls : session.flushCalls = [.upsert [stored.update last.sample]] ++
              [.insert (stored.update last.sample) session.buffer] := by
            simp [Session.flushCalls, hlast, hrace, hrefreshed]
          have hnow : session.flushed.race = some (stored.update last.sample) := by
            simp [Session.flushed, hrace, hrefreshed]
          have htag : ∀ recorded ∈ session.buffer,
              recorded.race = (stored.update last.sample).id := by
            intro recorded hrecorded
            rw [h.coherent.tag_eq race hrace recorded hrecorded, hclock]
            rfl
          have hupdated := hholds.update (stored.sameRace_update last.sample)
            ⟨hrunning.sessionId_eq, hrunning.inProgress_eq, hrunning.finishedAt_eq⟩
          have hinserted := hupdated.insert rfl htag
          have htrail : initial.Trail id calls session.flushCalls
              (some (stored.update last.sample)) := by
            rw [hcalls]
            exact .step (.one hholds hupdated) hinserted
          refine ⟨_, htrail, .of_settled h.id_eq rfl hnow htrail.holds ?_ ?_⟩
          · intro other hother
            rw [Option.some.injEq] at hother
            have hkept : flushedFor session.flushCalls other.id = session.buffer := by
              rw [flushedFor, h.coherent.handedOver_flushCalls, List.filter_eq_self]
              intro recorded hrecorded
              rw [htag recorded hrecorded, hother]
              exact beq_self_eq_true _
            rw [flushedFor_append, hkept, List.getLast?_append, hlast, ← hother]
            rfl
          · have hsome : ((initial.after calls).race? (stored.update last.sample).id).isSome =
                true := Option.isSome_of_eq_some hstored
            rw [hcalls, ← List.append_assoc]
            exact (h.unused.update hsome).insert _ _

/-- After a flush the open race is stored as it is. -/
theorem copy_eq_of_flushed
    (h : Mirrors initial ids bound id issued session.flushed calls copy) {current : Race}
    (hcurrent : session.flushed.race = some current) : copy = some current := by
  rw [← h.settled rfl, hcurrent]

/-! ## Moves -/

/-- A race that is paused or resumed is stored at once. -/
theorem setPaused (h : Mirrors initial ids bound id issued session calls copy) {race : Race}
    (hrace : session.race = some race) (hbuffer : session.buffer = []) (paused : Bool) :
    initial.Holds id (calls ++ [.upsert [{ race with paused }]]) (some { race with paused }) ∧
      Mirrors initial ids bound id issued { session with race := some { race with paused } }
        (calls ++ [.upsert [{ race with paused }]]) (some { race with paused }) := by
  have hcopy : copy = some race := by rw [← h.settled hbuffer, hrace]
  have hholds := h.holds
  rw [hcopy] at hholds
  obtain ⟨hstored, hrunning⟩ := hholds.stored race rfl
  have hupdated := hholds.update (race.sameRace_setPaused paused)
    ⟨hrunning.sessionId_eq, hrunning.inProgress_eq, hrunning.finishedAt_eq⟩
  refine ⟨hupdated, .of_settled h.id_eq hbuffer rfl hupdated ?_ ?_⟩
  · intro other hother
    rw [Option.some.injEq] at hother
    rw [flushedFor_append_of_eq_nil _ rfl, ← hother]
    have hflushed := h.flushed race hcopy
    have hpaused : ∀ last : Option Recorded, ({ race with paused } : Race).asOf last =
        { race.asOf last with paused } := by
      intro last
      cases last <;> rfl
    rw [hpaused, hflushed]
  · exact h.unused.update (Option.isSome_of_eq_some hstored)

/-- A session that makes ready for an accepted sample keeps the store in step, call by call, and
finds a race that is not paused. -/
theorem entry (h : Mirrors initial ids bound id issued session calls copy)
    (hdistinct : ∀ i j, i < bound → j < bound → ids i = ids j → i = j) {sample : Sample}
    (haccepts : Session.accepts sample = true) {further : List Call} {events : List Event}
    {taken : Nat} {ready : Session} (hbound : issued + taken ≤ bound)
    (hentry : session.Entry (ids issued) sample further events taken ready) :
    (∃ copy', initial.Trail id calls further copy' ∧
      Mirrors initial ids bound id (issued + taken) ready (calls ++ further) copy') ∧
      ∀ race, ready.race = some race → race.paused = false := by
  cases hentry with
  | opens now hrace =>
      have hcopy := h.copy_eq_none hrace
      have hbuffer := h.coherent.buffer_eq_nil hrace
      have hnew := h.unused issued (Nat.le_refl _) hbound
      have hnothing := h.holds.flushedFor_eq_nil hnew
      have hholds := h.holds
      rw [hcopy] at hholds
      have hrunning : (Race.start sample session.id (ids issued) now).Running id :=
        ⟨h.id_eq, rfl, rfl⟩
      have hstarted := hholds.start hnew hrunning
      refine ⟨⟨_, .one hholds hstarted, .of_settled h.id_eq hbuffer rfl hstarted ?_ ?_⟩, ?_⟩
      · intro race hother
        rw [Option.some.injEq] at hother
        rw [flushedFor_append_of_eq_nil _ rfl, ← hother]
        change (Race.start _ _ _ _).asOf (flushedFor calls (ids issued)).getLast? = _
        rw [hnothing]
        rfl
      · exact h.unused.start hdistinct hbound rfl
      · intro race hother
        rw [Option.some.injEq] at hother
        rw [← hother]
        exact (fits_start haccepts _ _ now).2.1
  | crosses race current ended result now hrace hnew hcurrent hends =>
      obtain ⟨copy', htrail, hflushed⟩ := h.flush
      have hcopy := hflushed.copy_eq_of_flushed hcurrent
      rw [hcopy] at htrail hflushed
      have hholds := hflushed.holds
      have hstored := (hholds.stored current rfl).1
      have hfree := hflushed.unused issued (Nat.le_refl _) hbound
      have hnothing := hholds.flushedFor_eq_nil hfree
      have hasked := hholds.ask current.id result
      have hfree' : (initial.after (calls ++ session.flushCalls ++
          [.last current.id result])).race? (ids issued) = none := by
        rw [Shelf.after_append]
        exact hfree
      have hrunning : (Race.start sample session.id (ids issued) now).Running id :=
        ⟨h.id_eq, rfl, rfl⟩
      have hcrossed := hasked.cross hends.sameRace hends.over hfree' hrunning
      have htrail' := htrail.ask_then hasked hcrossed
      refine ⟨⟨_, htrail', .of_settled h.id_eq rfl rfl htrail'.holds ?_ ?_⟩, ?_⟩
      · intro race hother
        rw [Option.some.injEq] at hother
        have hnothing' : flushedFor (calls ++ (session.flushCalls ++ [.last current.id result,
            .upsert [ended, Race.start sample session.id (ids issued) now]])) (ids issued) = [] := by
          rw [← List.append_assoc, flushedFor_append_of_eq_nil _ rfl, hnothing]
        rw [← hother]
        change (Race.start _ _ _ _).asOf (flushedFor _ (ids issued)).getLast? = _
        rw [hnothing']
        rfl
      · have hsome : ((initial.after (calls ++ session.flushCalls ++
            [.last current.id result])).race? ended.id).isSome = true := by
          rw [Shelf.after_append, hends.sameRace.id_eq]
          exact Option.isSome_of_eq_some hstored
        have hid : (Race.start sample session.id (ids issued) now).id = ids issued := rfl
        have hunused := (hflushed.unused.ask current.id result).cross hdistinct hbound hsome hid
        simpa only [List.append_assoc, List.cons_append, List.nil_append] using hunused
      · intro race hother
        rw [Option.some.injEq] at hother
        rw [← hother]
        exact (fits_start haccepts _ _ now).2.1
  | resumes race hrace hold hpaused =>
      obtain ⟨hupdated, hmirrors⟩ := h.setPaused hrace (h.idle race hrace hpaused) false
      refine ⟨⟨_, .one h.holds hupdated, hmirrors⟩, ?_⟩
      intro other hother
      rw [Option.some.injEq] at hother
      rw [← hother]
  | continues race hrace hold hpaused =>
      rw [List.append_nil]
      refine ⟨⟨copy, .here h.holds, h⟩, ?_⟩
      intro other hother
      rw [hrace, Option.some.injEq] at hother
      rw [← hother]
      exact hpaused

/-- A sample that is recorded moves the clock in memory only. -/
theorem record (h : Mirrors initial ids bound id issued session calls copy) (sample : Sample)
    {race : Race} (hrace : session.race = some race) (hrunning : race.paused = false)
    (now : Timestamp) :
    Mirrors initial ids bound id issued (session.recorded sample race now) calls copy where
  coherent := h.coherent.recorded sample hrace now
  id_eq := h.id_eq
  holds := h.holds
  memory := by
    rw [← h.memory, hrace]
    rfl
  settled := by simp [Session.recorded]
  flushed := h.flushed
  idle := by
    intro other hother hpaused
    simp only [Session.recorded, Option.some.injEq] at hother
    rw [← hother] at hpaused
    rw [hrunning] at hpaused
    exact absurd hpaused Bool.false_ne_true
  unused := h.unused

/-- Every move keeps the store in step with the session, and what the store holds of the session
stays in order after each of its calls. -/
theorem move (h : Mirrors initial ids bound id issued session calls copy)
    (hdistinct : ∀ i j, i < bound → j < bound → ids i = ids j → i = j) {operation : Operation}
    {further : List Call} {events : List Event} {taken : Nat} {after : Session}
    (hbound : issued + taken ≤ bound)
    (hmove : session.Move (ids issued) operation further events taken after) :
    ∃ copy', initial.Trail id calls further copy' ∧
      Mirrors initial ids bound id (issued + taken) after (calls ++ further) copy' := by
  cases hmove with
  | staysOff => exact ⟨copy, .here h.holds, by rwa [List.append_nil]⟩
  | waitsOnGrid => exact ⟨copy, .here h.holds, by rwa [List.append_nil]⟩
  | closesIdle => exact ⟨copy, .here h.holds, by rwa [List.append_nil]⟩
  | flushes => exact h.flush
  | pauses sample hoff race current hrace hrunning hcurrent =>
      obtain ⟨copy', htrail, hflushed⟩ := h.flush
      obtain ⟨hupdated, hmirrors⟩ := hflushed.setPaused hcurrent rfl true
      rw [List.append_assoc] at hmirrors
      exact ⟨_, .step htrail hupdated, hmirrors⟩
  | closes race ended result hcurrent hends =>
      obtain ⟨copy', htrail, hflushed⟩ := h.flush
      have hcopy := hflushed.copy_eq_of_flushed hcurrent
      rw [hcopy] at htrail hflushed
      have hstored := (hflushed.holds.stored race rfl).1
      have hasked := hflushed.holds.ask race.id result
      have hfinished := hasked.finish hends.sameRace hends.over
      have htrail' := htrail.ask_then hasked hfinished
      refine ⟨none, htrail', .of_settled h.id_eq rfl rfl htrail'.holds (by simp) ?_⟩
      have hsome : ((initial.after (calls ++ session.flushCalls ++
          [.last race.id result])).race? ended.id).isSome = true := by
        rw [Shelf.after_append, hends.sameRace.id_eq]
        exact Option.isSome_of_eq_some hstored
      have hunused := (hflushed.unused.ask race.id result).update hsome
      rw [Nat.add_zero]
      simpa only [List.append_assoc, List.cons_append, List.nil_append] using hunused
  | accepts sample haccepts _ _ _ ready race now hentry hrace =>
      obtain ⟨⟨copy', htrail, hready⟩, hrunning⟩ := h.entry hdistinct haccepts hbound hentry
      exact ⟨copy', htrail, hready.record sample hrace (hrunning race hrace) now⟩

end Mirrors

/-! ## Runs -/

/-- At most one stored race of a session is in progress, and stored samples belong to stored races;
an exception are samples that did not when the store was taken over, and that nobody touched
since. -/
structure Store.Tidy {σ : Type} [Store σ] (initial store : σ) (id : Uuid) : Prop where
  eq_of_inProgress : ∀ first second race race', Store.race? store first = .ok (some race) →
    Store.race? store second = .ok (some race') → race.sessionId = id → race'.sessionId = id →
    race.inProgress = true → race'.inProgress = true → first = second
  race?_of_samples : ∀ other samples, Store.samples store other = .ok samples → samples ≠ [] →
    (∃ race, Store.race? store other = .ok (some race)) ∨
      Store.race? initial other = .ok none ∧ Store.samples initial other = .ok samples

section Runs

variable {σ : Type} [Store σ]

theorem World.issued_le_performAll (operations : List Operation) (session : Session)
    (world : World σ) :
    world.issued ≤ (World.performAll operations (session, world)).2.issued := by
  induction operations generalizing session world with
  | nil => exact Nat.le_refl _
  | cons operation operations ih =>
      obtain ⟨calls, events, taken, -, hextends⟩ := World.exists_move operation session world
      have hrest := ih (World.perform operation (session, world)).1
        (World.perform operation (session, world)).2
      have hissued := hextends.issued_eq
      have hle : world.issued ≤ (World.perform operation (session, world)).2.issued := by omega
      exact Nat.le_trans hle hrest

theorem World.Kept.tidy {reliable : Reliable σ} {store : σ} (hsound : reliable.Sound store)
    {world : World σ} (hkept : world.Kept reliable (reliable.shelf store)) {id : Uuid}
    {copy : Option Race} (h : (reliable.shelf store).Holds id world.calls copy) :
    Store.Tidy store world.store id where
  eq_of_inProgress := by
    intro first second race race' hfirst hsecond
    rw [reliable.race?_eq hkept.sound, hkept.shelf_eq, Except.ok.injEq] at hfirst hsecond
    exact h.eq_of_inProgress hfirst hsecond
  race?_of_samples := by
    intro other samples hsamples hne
    rw [reliable.samples_eq hkept.sound, hkept.shelf_eq, Except.ok.injEq] at hsamples
    rw [reliable.race?_eq hkept.sound, reliable.race?_eq hsound, reliable.samples_eq hsound,
      hkept.shelf_eq]
    rcases h.samples other with hsome | ⟨hnone, hkept'⟩
    · obtain ⟨race, hrace⟩ := Option.isSome_iff_exists.mp hsome
      exact .inl ⟨race, by rw [hrace]⟩
    · exact .inr ⟨by rw [hnone], by rw [← hkept', hsamples]⟩

variable {reliable : Reliable σ} {initial : Shelf} {id : Uuid} {bound : Nat}

/-- A session and its world, with the store in step. -/
structure InStep (reliable : Reliable σ) (initial : Shelf) (ids : Nat → Uuid) (bound : Nat)
    (id : Uuid) (state : Session × World σ) (copy : Option Race) : Prop where
  kept : state.2.Kept reliable initial
  ids_eq : state.2.ids = ids
  mirrors : Mirrors initial ids bound id state.2.issued state.1 state.2.calls copy

theorem InStep.perform {ids : Nat → Uuid} {state : Session × World σ} {copy : Option Race}
    (h : InStep reliable initial ids bound id state copy)
    (hdistinct : ∀ i j, i < bound → j < bound → ids i = ids j → i = j) (operation : Operation)
    (hbound : (World.perform operation state).2.issued ≤ bound) :
    ∃ further copy', (World.perform operation state).2.calls = state.2.calls ++ further ∧
      initial.Trail id state.2.calls further copy' ∧
      InStep reliable initial ids bound id (World.perform operation state) copy' := by
  obtain ⟨further, events, taken, hmove, hextends⟩ := World.exists_move operation state.1 state.2
  have hissued : (World.perform operation state).2.issued = state.2.issued + taken :=
    hextends.issued_eq
  have hcalls : (World.perform operation state).2.calls = state.2.calls ++ further :=
    hextends.calls_eq
  rw [h.ids_eq] at hmove
  rw [hissued] at hbound
  obtain ⟨copy', htrail, hmirrors⟩ := h.mirrors.move hdistinct hbound hmove
  rw [← hissued, ← hcalls] at hmirrors
  exact ⟨further, copy', hcalls, htrail, h.kept.run _, hextends.ids_eq.trans h.ids_eq, hmirrors⟩

theorem InStep.performAll {ids : Nat → Uuid} {state : Session × World σ} {copy : Option Race}
    (h : InStep reliable initial ids bound id state copy)
    (hdistinct : ∀ i j, i < bound → j < bound → ids i = ids j → i = j)
    (operations : List Operation)
    (hbound : (World.performAll operations state).2.issued ≤ bound) :
    ∃ copy', InStep reliable initial ids bound id (World.performAll operations state) copy' := by
  induction operations generalizing state copy with
  | nil => exact ⟨copy, h⟩
  | cons operation operations ih =>
      have hfirst : (World.perform operation state).2.issued ≤ bound :=
        Nat.le_trans (World.issued_le_performAll operations _ _) hbound
      obtain ⟨-, copy', -, -, hnext⟩ := h.perform hdistinct operation hfirst
      exact ih hnext hbound

/-- In every state that an operation passes the store is tidy. -/
theorem InStep.tidy_of_passed {ids : Nat → Uuid} {state : Session × World σ} {copy : Option Race}
    {store : σ} (hsound : reliable.Sound store)
    (h : InStep reliable (reliable.shelf store) ids bound id state copy)
    (hdistinct : ∀ i j, i < bound → j < bound → ids i = ids j → i = j) (operation : Operation)
    (hbound : (World.perform operation state).2.issued ≤ bound) {between : World σ}
    (hbetween : between ∈ (operation.script state.1).passed World.answer state.2) :
    Store.Tidy store between.store id := by
  obtain ⟨further, copy', hcalls, htrail, -⟩ := h.perform hdistinct operation hbound
  obtain ⟨hkept, ⟨part, hpart⟩, hafter⟩ := h.kept.passed _ hbetween
  have hprefix : part <+: further := by
    change between.calls <+: (World.perform operation state).2.calls at hafter
    rw [hcalls, ← hpart] at hafter
    exact (List.prefix_append_right_inj _).mp hafter
  obtain ⟨copy'', hholds⟩ := htrail.holds_of_prefix hprefix
  rw [hpart] at hholds
  exact hkept.tidy hsound hholds

/-- A store that never fails mirrors the session that writes to it. Suppose that the store holds no
race of the session at first, and that the identifiers that are given out are distinct and no races
are stored for them. Then after every run:

* the race that is open is in progress, and the store holds it as it is in memory, except that its
  aggregates are those of the last sample that was flushed for it, or zero if none was;
* every other stored race of the session is over;
* the store is tidy, and it was in every state that an operation passed on the way, so also between
  any two calls to the store. -/
theorem store_mirrors_session (reliable : Reliable σ) (store : σ)
    (hsound : reliable.Sound store) (readings : Nat → Timestamp) (ids : Nat → Uuid) (id : Uuid)
    (capacity : Nat) (operations : List Operation)
    (hsession : ∀ other race, Store.race? store other = .ok (some race) → race.sessionId ≠ id) :
    let run := fun operations => World.performAll operations
      (Session.fresh id capacity, World.fresh store .none readings ids)
    let final := run operations
    (∀ i j, i < final.2.issued → j < final.2.issued → ids i = ids j → i = j) →
    (∀ i, i < final.2.issued → Store.race? store (ids i) = .ok none) →
    (∀ race, final.1.race = some race → race.Running id ∧
      Store.race? final.2.store race.id =
        .ok (some (race.asOf (flushedFor final.2.calls race.id).getLast?))) ∧
    (∀ other race, Store.race? final.2.store other = .ok (some race) → race.sessionId = id →
      (∀ current, final.1.race = some current → current.id ≠ other) → race.Over) ∧
    Store.Tidy store final.2.store id ∧
    (∀ before operation after, operations = before ++ operation :: after →
      ∀ between ∈ (operation.script (run before).1).passed World.answer (run before).2,
        Store.Tidy store between.store id) := by
  intro run final hdistinct hnew
  have hshelf : ∀ other, Store.race? store other = .ok ((reliable.shelf store).race? other) :=
    fun other => reliable.race?_eq hsound other
  have hstart : InStep reliable (reliable.shelf store) ids final.2.issued id
      (Session.fresh id capacity, World.fresh store .none readings ids) none := by
    refine ⟨⟨rfl, hsound, rfl⟩, rfl, .of_settled rfl rfl rfl ?_ (by simp) ?_⟩
    · refine ⟨by simp, ?_, ?_, by simp [World.fresh]⟩
      · intro other race hrace hid
        have hstored : Store.race? store other = .ok (some race) := by
          rw [hshelf]
          exact congrArg Except.ok hrace
        exact absurd hid (hsession other race hstored)
      · intro other
        cases hother : (reliable.shelf store).race? other with
        | none => exact .inr ⟨rfl, rfl⟩
        | some race => exact .inl (Option.isSome_of_eq_some hother)
    · intro number _ hbound
      have hnone := hnew number hbound
      rw [hshelf, Except.ok.injEq] at hnone
      exact hnone
  obtain ⟨copy, hfinal⟩ := hstart.performAll hdistinct operations (Nat.le_refl _)
  have hholds := hfinal.mirrors.holds
  have hstored : ∀ other, Store.race? final.2.store other =
      .ok (((reliable.shelf store).after final.2.calls).race? other) := by
    intro other
    rw [reliable.race?_eq hfinal.kept.sound, hfinal.kept.shelf_eq]
  refine ⟨?_, ?_, hfinal.kept.tidy hsound hholds, ?_⟩
  · intro race hrace
    obtain ⟨stored, hcopy, hclock⟩ := hfinal.mirrors.exists_copy hrace
    rw [hcopy] at hholds
    obtain ⟨hfound, hrunning⟩ := hholds.stored stored rfl
    have hflushed := hfinal.mirrors.flushed stored hcopy
    have hsame : race.asOf (flushedFor final.2.calls stored.id).getLast? = stored := by
      rw [hclock, Race.asOf_withClock]
      exact hflushed
    have hid : race.id = stored.id := by rw [hclock]; rfl
    refine ⟨?_, ?_⟩
    · rw [hclock]
      exact ⟨hrunning.sessionId_eq, hrunning.inProgress_eq, hrunning.finishedAt_eq⟩
    · rw [hid, hsame, hstored, hfound]
  · intro other race hrace hid hother
    rw [hstored, Except.ok.injEq] at hrace
    refine hholds.others other race hrace hid ?_
    intro current hcopy heq
    cases hopen : final.1.race with
    | none =>
        rw [hfinal.mirrors.copy_eq_none hopen] at hcopy
        exact absurd hcopy (by simp)
    | some open' =>
        obtain ⟨stored, hcopy', hclock⟩ := hfinal.mirrors.exists_copy hopen
        rw [hcopy, Option.some.injEq] at hcopy'
        refine hother open' hopen ?_
        rw [hclock, ← hcopy']
        exact heq
  · intro before operation after hoperations between hbetween
    have hrest : final = World.performAll after (World.perform operation (run before)) := by
      change World.performAll operations _ = _
      rw [hoperations, World.performAll_append]
      rfl
    have hoperation : (World.perform operation (run before)).2.issued ≤ final.2.issued := by
      rw [hrest]
      exact World.issued_le_performAll after _ _
    have hbefore : (run before).2.issued ≤ final.2.issued := by
      refine Nat.le_trans ?_ hoperation
      exact World.issued_le_performAll [operation] _ _
    obtain ⟨copy', hreached⟩ := hstart.performAll hdistinct before hbefore
    exact hreached.tidy_of_passed hsound hdistinct operation hoperation hbetween

/-- A store that holds a race of another session mirrors a session that pauses its race and is
then at a boundary: the next race is stored with the aggregates that were flushed. -/
theorem store_mirrors_boundary :
    let other : Race := { (default : Race) with id := .ofNat 9, sessionId := .ofNat 9 }
    let store : MemoryStore := ⟨.ofList [other], []⟩
    let final := World.performAll
      [.add (.lapping .one), .add default, .add (.lapping .zero), .checkpoint]
      (Session.fresh (.ofNat 7) 350, World.fresh store .none (fun _ => default) .ofNat)
    ∃ race, final.1.race = some race ∧ race.id = .ofNat 1 ∧
      Store.race? final.2.store race.id =
        .ok (some (race.asOf (flushedFor final.2.calls race.id).getLast?)) := by
  intro other store final
  have hsession : ∀ id race, Store.race? store id = .ok (some race) →
      race.sessionId ≠ Uuid.ofNat 7 := by
    intro id race hrace
    have hfound : (RaceIndex.ofList [other]).find? id = some race := Except.ok.inj hrace
    have hmem : race ∈ [other] := List.mem_of_find?_eq_some hfound
    rw [List.mem_singleton.mp hmem]
    decide
  have hissued : final.2.issued = 2 := by decide +kernel
  have hopened : final.1.race.map Race.id = some (.ofNat 1) := by decide +kernel
  have hmirrors := store_mirrors_session MemoryStore.reliable store
    (RaceIndex.ordered_ofList [other]) (fun _ => default) .ofNat (.ofNat 7) 350
    [.add (.lapping .one), .add default, .add (.lapping .zero), .checkpoint] hsession
  -- the run was evaluated once and for all
  dsimp only [final] at hissued hopened hmirrors ⊢
  generalize World.performAll
    [.add (.lapping .one), .add default, .add (.lapping .zero), .checkpoint]
    (Session.fresh (.ofNat 7) 350, World.fresh store .none (fun _ => default) .ofNat) = final
    at hissued hopened hmirrors ⊢
  rw [hissued] at hmirrors
  have hdistinct : ∀ i j, i < 2 → j < 2 → Uuid.ofNat i = Uuid.ofNat j → i = j :=
    Uuid.distinct_ofNat (by decide)
  have hnew : ∀ i, i < 2 → Store.race? store (Uuid.ofNat i) = .ok none := by
    intro i hi
    have hcases : i = 0 ∨ i = 1 := by omega
    rcases hcases with rfl | rfl <;> rfl
  obtain ⟨hopen, -⟩ := hmirrors hdistinct hnew
  obtain ⟨race, hrace, hid⟩ := Option.map_eq_some_iff.mp hopened
  exact ⟨race, hrace, hid, (hopen race hrace).2⟩

end Runs

end RaceIngest
