import RaceIngest.Proofs.Session.Filing
import RaceIngest.Store.Memory

/-!
# Where one race ends and the next begins

Which race a sample belongs to is decided by the accepted samples and the closes of a session
alone. The `Segmentation` of these *marks* says so without a store, a buffer, a pause or a
checkpoint: it numbers the races in the order in which they begin, and lets an accepted sample
begin a new race when none is open or when it restarts the clock of the sample before it.

A session keeps no previous sample. It compares with the clock of its race, which is written in
three places: a race starts with the clock at zero, a recorded sample overwrites it, and a flush
copies the aggregates of the last buffered sample. The invariant `Segmentation.Follows` says that
this clock is always the one of the last accepted sample of the open race, so that a session tags
its samples as the segmentation numbers them.

## Main results

* `Segmentation.numbers_ne_iff`: when two accepted samples in a row lie in different races.
* `Segmentation.Follows.move`: every move keeps a session in step with its segmentation.
* `races_follow_accepted_samples`: the tags of a session, for all runs.
-/

namespace RaceIngest

open Calendar

/-! ## Marks -/

/-- What the segmentation of a session depends on. -/
inductive Mark where
  | accept (sample : Sample)
  | close
  deriving DecidableEq

/-- The mark that an operation leaves, if it leaves one. -/
def Operation.mark? : Operation → Option Mark
  | .add sample => if Session.accepts sample then some (.accept sample) else none
  | .checkpoint => none
  | .close => some .close

/-- The marks of some operations. -/
def marks (operations : List Operation) : List Mark := operations.filterMap Operation.mark?

theorem marks_append (first second : List Operation) :
    marks (first ++ second) = marks first ++ marks second :=
  List.filterMap_append

theorem marks_cons (operation : Operation) (operations : List Operation) :
    marks (operation :: operations) = operation.mark?.toList ++ marks operations := by
  cases hmark : operation.mark? <;> simp [marks, hmark]

/-- The sample of a mark, if it has one. -/
def Mark.sample? : Mark → Option Sample
  | .accept sample => some sample
  | .close => none

theorem Operation.accepted?_eq_bind_mark? (operation : Operation) :
    operation.accepted? = operation.mark?.bind Mark.sample? := by
  cases operation with
  | add sample =>
      simp only [accepted?, mark?]
      split <;> rfl
  | checkpoint => rfl
  | close => rfl

theorem acceptedSamples_eq_filterMap_marks (operations : List Operation) :
    acceptedSamples operations = (marks operations).filterMap Mark.sample? := by
  unfold acceptedSamples marks
  rw [List.filterMap_filterMap]
  congr 1
  funext operation
  exact operation.accepted?_eq_bind_mark?

/-- Without an accepted sample all marks are closes. -/
theorem eq_close_of_mem_marks {operations : List Operation}
    (hnone : acceptedSamples operations = []) {mark : Mark} (hmark : mark ∈ marks operations) :
    mark = .close := by
  rw [acceptedSamples_eq_filterMap_marks, List.filterMap_eq_nil_iff] at hnone
  cases mark with
  | accept sample => simpa [Mark.sample?] using hnone _ hmark
  | close => rfl

theorem marks_ne_nil_iff {operations : List Operation} (hnone : acceptedSamples operations = []) :
    marks operations ≠ [] ↔ Operation.close ∈ operations := by
  constructor
  · intro hne
    obtain ⟨mark, hmark⟩ := List.exists_mem_of_ne_nil _ hne
    have hclose := eq_close_of_mem_marks hnone hmark
    obtain ⟨operation, hmem, heq⟩ := List.mem_filterMap.mp hmark
    rw [hclose] at heq
    cases operation with
    | add sample =>
        simp only [Operation.mark?] at heq
        split at heq <;> simp at heq
    | checkpoint => simp [Operation.mark?] at heq
    | close => exact hmem
  · intro hmem
    exact List.ne_nil_of_mem (List.mem_filterMap.mpr ⟨.close, hmem, rfl⟩)

/-- Whether a sample restarts the race clock of the accepted sample before it: the clock went back
to near zero and no lap was completed yet. A clock that is not a number restarts nothing. -/
def Sample.restarts (sample previous : Sample) : Bool :=
  sample.currentRaceTime.lt .one && sample.currentRaceTime.lt previous.currentRaceTime &&
    sample.lastLap.isZero

theorem Race.isNewRace_eq_restarts {race : Race} {previous : Sample}
    (hclock : race.raceTime = previous.currentRaceTime) (sample : Sample) :
    race.isNewRace sample = sample.restarts previous := by
  rw [isNewRace, Sample.restarts, hclock]
  rfl

/-! ## Segmentations -/

/-- The accepted samples so far, each with the number of its race, and the race that is open. -/
structure Segmentation where
  numbered : List (Sample × Nat) := []
  /-- The number of the open race and its last sample. -/
  current : Option (Nat × Sample) := none
  /-- How many races began so far. -/
  begun : Nat := 0

namespace Segmentation

/-- The number of the race that an accepted sample belongs to, and how many races began then. -/
def numberOf (seg : Segmentation) (sample : Sample) : Nat × Nat :=
  match seg.current with
  | some (number, previous) =>
    if sample.restarts previous then (seg.begun, seg.begun + 1) else (number, seg.begun)
  | none => (seg.begun, seg.begun + 1)

/-- Takes one mark into account. -/
def step (seg : Segmentation) : Mark → Segmentation
  | .accept sample =>
    { numbered := seg.numbered ++ [(sample, (seg.numberOf sample).1)]
      current := some ((seg.numberOf sample).1, sample)
      begun := (seg.numberOf sample).2 }
  | .close => { seg with current := none }

/-- Takes marks into account, one after the other. -/
def steps (seg : Segmentation) (marks : List Mark) : Segmentation := marks.foldl step seg

theorem steps_append (seg : Segmentation) (first second : List Mark) :
    seg.steps (first ++ second) = (seg.steps first).steps second :=
  List.foldl_append

/-- All numbers given out so far are below the number of races that began. -/
structure Numbered (seg : Segmentation) : Prop where
  numbered_lt : ∀ entry ∈ seg.numbered, entry.2 < seg.begun
  current_lt : ∀ number sample, seg.current = some (number, sample) → number < seg.begun

theorem numbered_empty : Numbered {} where
  numbered_lt := by simp
  current_lt := by simp

theorem Numbered.numberOf_lt {seg : Segmentation} (h : seg.Numbered) (sample : Sample) :
    (seg.numberOf sample).1 < (seg.numberOf sample).2 ∧ seg.begun ≤ (seg.numberOf sample).2 := by
  unfold numberOf
  split
  · rename_i number previous hcurrent
    have hlt := h.current_lt number previous hcurrent
    split
    · exact ⟨Nat.lt_succ_self _, Nat.le_succ _⟩
    · exact ⟨hlt, Nat.le_refl _⟩
  · exact ⟨Nat.lt_succ_self _, Nat.le_succ _⟩

theorem Numbered.step {seg : Segmentation} (h : seg.Numbered) (mark : Mark) :
    (seg.step mark).Numbered := by
  cases mark with
  | close => exact ⟨h.numbered_lt, by simp [Segmentation.step]⟩
  | accept sample =>
      obtain ⟨hlt, hle⟩ := h.numberOf_lt sample
      refine { numbered_lt := ?_, current_lt := ?_ }
      · intro entry hentry
        rcases List.mem_append.mp hentry with hold | hnew
        · exact Nat.lt_of_lt_of_le (h.numbered_lt entry hold) hle
        · rw [List.mem_singleton.mp hnew]
          exact hlt
      · intro number previous hcurrent
        simp only [Segmentation.step, Option.some.injEq, Prod.mk.injEq] at hcurrent
        rw [← hcurrent.1]
        exact hlt

theorem Numbered.steps {seg : Segmentation} (h : seg.Numbered) (marks : List Mark) :
    (seg.steps marks).Numbered := by
  induction marks generalizing seg with
  | nil => exact h
  | cons mark marks ih => exact ih (h.step mark)

/-- Later marks leave the numbers alone that were given out, and number the later samples. -/
theorem exists_numbered_steps (seg : Segmentation) (marks : List Mark) :
    ∃ later, (seg.steps marks).numbered = seg.numbered ++ later ∧
      later.map Prod.fst = marks.filterMap Mark.sample? := by
  induction marks generalizing seg with
  | nil => exact ⟨[], by simp [steps], rfl⟩
  | cons mark marks ih =>
      obtain ⟨later, hlater, hsamples⟩ := ih (seg.step mark)
      cases mark with
      | close => exact ⟨later, hlater, hsamples⟩
      | accept sample =>
          refine ⟨(sample, (seg.numberOf sample).1) :: later, ?_, ?_⟩
          · rw [steps, List.foldl_cons, ← steps, hlater]
            simp [step]
          · simp [Mark.sample?, hsamples]

/-- Closes only leave no race open. -/
theorem steps_closes (seg : Segmentation) {marks : List Mark}
    (hcloses : ∀ mark ∈ marks, mark = .close) :
    seg.steps marks = if marks = [] then seg else { seg with current := none } := by
  induction marks generalizing seg with
  | nil => rfl
  | cons mark marks ih =>
      have hmark : mark = .close := hcloses mark (by simp)
      have hrest := ih (seg.step mark) (fun other hother => hcloses other (by simp [hother]))
      rw [steps, List.foldl_cons, ← steps, hrest, hmark]
      by_cases hmarks : marks = [] <;> simp [hmarks, step]

/-- Two accepted samples in a row lie in different races exactly when a close came between them or
the second restarts the clock of the first. -/
theorem numbers_ne_iff (before between after : List Mark) (first second : Sample)
    (hcloses : ∀ mark ∈ between, mark = .close) :
    ∃ earlier number number' later,
      (Segmentation.steps {}
          (before ++ .accept first :: (between ++ .accept second :: after))).numbered =
          earlier ++ (first, number) :: (second, number') :: later ∧
        earlier.map Prod.fst = before.filterMap Mark.sample? ∧
        later.map Prod.fst = after.filterMap Mark.sample? ∧
        (number' ≠ number ↔ between ≠ [] ∨ second.restarts first = true) := by
  let seg := Segmentation.steps {} before
  let marked := seg.step (.accept first)
  let reached := marked.steps between
  have hreached : reached = if between = [] then marked else { marked with current := none } :=
    steps_closes marked hcloses
  have hlt : (seg.numberOf first).1 < (seg.numberOf first).2 :=
    ((numbered_empty.steps before).numberOf_lt first).1
  obtain ⟨earlier, hearlier, hbefore⟩ := exists_numbered_steps {} before
  obtain ⟨later, hlater, hafter⟩ := exists_numbered_steps (reached.step (.accept second)) after
  have hnumbered : reached.numbered = earlier ++ [(first, (seg.numberOf first).1)] := by
    have hmarked : marked.numbered = earlier ++ [(first, (seg.numberOf first).1)] := by
      simp only [marked, step]
      rw [show seg.numbered = earlier by simpa using hearlier]
    rw [hreached]
    split
    · exact hmarked
    · exact hmarked
  refine ⟨earlier, (seg.numberOf first).1, (reached.numberOf second).1, later, ?_, hbefore,
    hafter, ?_⟩
  · rw [steps_append]
    change (Segmentation.steps marked (between ++ .accept second :: after)).numbered = _
    rw [steps_append]
    change ((reached.step (.accept second)).steps after).numbered = _
    rw [hlater]
    simp [step, hnumbered]
  · rw [hreached]
    by_cases hbetween : between = []
    · rw [if_pos hbetween]
      by_cases hrestarts : second.restarts first = true
      · simp only [numberOf, marked, step, hrestarts, if_true, hbetween]
        simp only [ne_eq, not_true_eq_false, or_true, iff_true]
        exact Nat.ne_of_gt hlt
      · simp [numberOf, marked, step, hrestarts, hbetween]
    · rw [if_neg hbetween]
      simp only [numberOf, marked, step, hbetween, ne_eq, not_false_eq_true, true_or, iff_true]
      exact Nat.ne_of_gt hlt

/-! ## A session follows its segmentation -/

variable {σ : Type}

/-- A session is in step with a segmentation: it tagged its samples as they are numbered, the open
race has the number and, as its clock, the clock of the last sample that the segmentation says, and
as many identifiers were taken as races began. -/
structure Follows (seg : Segmentation) (ids : Nat → Uuid) (state : Session × World σ) : Prop where
  coherent : state.1.Coherent
  ids_eq : state.2.ids = ids
  issued_eq : state.2.issued = seg.begun
  race_eq : (state.1.race.map fun race => (race.id, race.raceTime)) =
    seg.current.map fun (number, previous) => (ids number, previous.currentRaceTime)
  tags_eq : tags state = seg.numbered.map fun (sample, number) => (sample, ids number)

theorem follows_fresh (store : σ) (outage : Outage) (readings : Nat → Timestamp)
    (ids : Nat → Uuid) (id : Uuid) (capacity : Nat) :
    Follows {} ids (Session.fresh id capacity, World.fresh store outage readings ids) :=
  ⟨Session.coherent_fresh id capacity, rfl, rfl, rfl, rfl⟩

/-- The open race of a session has the number that the segmentation says. -/
theorem Follows.exists_current {seg : Segmentation} {ids : Nat → Uuid}
    {state : Session × World σ} (h : seg.Follows ids state) {race : Race}
    (hrace : state.1.race = some race) :
    ∃ number previous, seg.current = some (number, previous) ∧ race.id = ids number ∧
      race.raceTime = previous.currentRaceTime := by
  have heq := h.race_eq
  rw [hrace] at heq
  cases hcurrent : seg.current with
  | none => simp [hcurrent] at heq
  | some entry =>
      simp only [hcurrent, Option.map_some, Option.some.injEq, Prod.mk.injEq] at heq
      exact ⟨entry.1, entry.2, rfl, heq.1, heq.2⟩

/-- An accepted sample finds a race with the number that the segmentation gives it. -/
theorem Follows.entry {seg : Segmentation} {ids : Nat → Uuid} {session ready : Session}
    {world : World σ} (h : seg.Follows ids (session, world)) {sample : Sample}
    {calls : List Call} {events : List Event} {taken : Nat}
    (hentry : session.Entry (ids seg.begun) sample calls events taken ready) :
    (∀ race, ready.race = some race → race.id = ids (seg.numberOf sample).1) ∧
      seg.begun + taken = (seg.numberOf sample).2 := by
  cases hentry with
  | opens now hrace =>
      have hcurrent : seg.current = none := by simpa [hrace] using h.race_eq.symm
      have hnumber : seg.numberOf sample = (seg.begun, seg.begun + 1) := by
        simp [numberOf, hcurrent]
      rw [hnumber]
      exact ⟨fun race heq => by rw [← Option.some.inj heq]; rfl, rfl⟩
  | crosses race current ended result now hrace hnew =>
      obtain ⟨number, previous, hcurrent, -, hclock⟩ := h.exists_current hrace
      rw [Race.isNewRace_eq_restarts hclock] at hnew
      have hnumber : seg.numberOf sample = (seg.begun, seg.begun + 1) := by
        simp [numberOf, hcurrent, hnew]
      rw [hnumber]
      exact ⟨fun race heq => by rw [← Option.some.inj heq]; rfl, rfl⟩
  | resumes race hrace hold =>
      obtain ⟨number, previous, hcurrent, hid, hclock⟩ := h.exists_current hrace
      rw [Race.isNewRace_eq_restarts hclock] at hold
      have hnumber : seg.numberOf sample = (number, seg.begun) := by
        simp [numberOf, hcurrent, hold]
      rw [hnumber]
      exact ⟨fun race heq => by rw [← Option.some.inj heq]; exact hid, rfl⟩
  | continues race hrace hold =>
      obtain ⟨number, previous, hcurrent, hid, hclock⟩ := h.exists_current hrace
      rw [Race.isNewRace_eq_restarts hclock] at hold
      have hnumber : seg.numberOf sample = (number, seg.begun) := by
        simp [numberOf, hcurrent, hold]
      rw [hnumber, hrace]
      exact ⟨fun race heq => by rw [← Option.some.inj heq]; exact hid, rfl⟩

/-- What neither changes the ledger nor takes an identifier keeps a session in step, as long as
its race is the one that is open. -/
theorem Follows.keep {seg seg' : Segmentation} {ids : Nat → Uuid} {session after : Session}
    {world world' : World σ} (h : seg.Follows ids (session, world)) {calls : List Call}
    {events : List Event} (hextends : world.Extends world' calls events 0)
    (hcoherent : after.Coherent) (hledger : handedOver calls ++ after.buffer = session.buffer)
    (hnumbered : seg'.numbered = seg.numbered) (hbegun : seg'.begun = seg.begun)
    (hrace : (after.race.map fun race => (race.id, race.raceTime)) =
      seg'.current.map fun (number, previous) => (ids number, previous.currentRaceTime)) :
    seg'.Follows ids (after, world') where
  coherent := hcoherent
  ids_eq := hextends.ids_eq.trans h.ids_eq
  issued_eq := by rw [hbegun, ← h.issued_eq, hextends.issued_eq, Nat.add_zero]
  race_eq := hrace
  tags_eq := by
    rw [hnumbered, ← h.tags_eq]
    simp only [tags, ledger, hextends.calls_eq, handedOver_append, List.append_assoc, hledger]

/-- Every move keeps a session in step with the segmentation of its marks. -/
theorem Follows.move {seg : Segmentation} {ids : Nat → Uuid} {session after : Session}
    {world world' : World σ} (h : seg.Follows ids (session, world)) {operation : Operation}
    {calls : List Call} {events : List Event} {taken : Nat}
    (hmove : session.Move (ids seg.begun) operation calls events taken after)
    (hextends : world.Extends world' calls events taken) :
    (seg.steps operation.mark?.toList).Follows ids (after, world') := by
  have hcoherent := hmove.coherent h.coherent
  have hflushed := h.coherent.race_flushed.trans h.race_eq
  cases hmove with
  | staysOff sample hoff =>
      have hmark : (Operation.add sample).mark? = none := by
        simp [Operation.mark?, Session.accepts, hoff]
      rw [hmark]
      exact h.keep hextends hcoherent rfl rfl rfl h.race_eq
  | waitsOnGrid sample hon hgrid =>
      have hmark : (Operation.add sample).mark? = none := by
        simp [Operation.mark?, Session.accepts, hgrid]
      rw [hmark]
      exact h.keep hextends hcoherent rfl rfl rfl h.race_eq
  | pauses sample hoff race current hrace hrunning hcurrent =>
      have hmark : (Operation.add sample).mark? = none := by
        simp [Operation.mark?, Session.accepts, hoff]
      rw [hmark]
      rw [hcurrent] at hflushed
      refine h.keep hextends hcoherent ?_ rfl rfl hflushed
      rw [h.coherent.handedOver_flushCalls_append rfl]
      exact List.append_nil _
  | flushes =>
      refine h.keep hextends hcoherent ?_ rfl rfl hflushed
      rw [h.coherent.handedOver_flushCalls]
      exact List.append_nil _
  | closesIdle hrace =>
      refine h.keep hextends hcoherent rfl rfl rfl ?_
      rw [hrace]
      rfl
  | closes =>
      refine h.keep hextends hcoherent ?_ rfl rfl rfl
      rw [h.coherent.handedOver_flushCalls_append rfl]
      exact List.append_nil _
  | accepts sample haccepts _ _ _ ready race now hentry hrace =>
      obtain ⟨htag, hbegun⟩ := h.entry hentry
      have hid : race.id = ids (seg.numberOf sample).1 := htag race hrace
      have hmark : (Operation.add sample).mark? = some (.accept sample) := by
        simp [Operation.mark?, haccepts]
      rw [hmark]
      refine
        { coherent := hcoherent
          ids_eq := hextends.ids_eq.trans h.ids_eq
          issued_eq := ?_
          race_eq := ?_
          tags_eq := ?_ }
      · rw [hextends.issued_eq, h.issued_eq]
        exact hbegun
      · simp [Session.recorded, steps, step, hid]
      · rw [tags_recorded hentry h.coherent hextends race now, h.tags_eq]
        simp [steps, step, hid]

variable [Store σ]

theorem Follows.performAll {seg : Segmentation} {ids : Nat → Uuid} {session : Session}
    {world : World σ} (h : seg.Follows ids (session, world)) (operations : List Operation) :
    (seg.steps (marks operations)).Follows ids (World.performAll operations (session, world)) := by
  induction operations generalizing seg session world with
  | nil => exact h
  | cons operation operations ih =>
      obtain ⟨calls, events, taken, hmove, hextends⟩ := World.exists_move operation session world
      rw [h.ids_eq, h.issued_eq] at hmove
      rw [marks_cons, steps_append]
      exact ih (h.move hmove hextends)

omit [Store σ] in
/-- As long as the identifiers given out are distinct, races differ where their numbers do. -/
theorem Follows.tags_ne_iff {before between after : List Mark} {first second : Sample}
    {ids : Nat → Uuid} {state : Session × World σ}
    (h : (Segmentation.steps {} (before ++ .accept first ::
      (between ++ .accept second :: after))).Follows ids state)
    (hcloses : ∀ mark ∈ between, mark = .close)
    (hdistinct : ∀ i j, i < state.2.issued → j < state.2.issued → ids i = ids j → i = j) :
    ∃ earlier race race' later,
      tags state = earlier ++ (first, race) :: (second, race') :: later ∧
        earlier.map Prod.fst = before.filterMap Mark.sample? ∧
        later.map Prod.fst = after.filterMap Mark.sample? ∧
        (race' ≠ race ↔ between ≠ [] ∨ second.restarts first = true) := by
  obtain ⟨earlier, number, number', later, hnumbered, hbefore, hafter, hiff⟩ :=
    numbers_ne_iff before between after first second hcloses
  have hbound := (numbered_empty.steps (before ++ .accept first ::
    (between ++ .accept second :: after))).numbered_lt
  rw [← h.issued_eq, hnumbered] at hbound
  have hnumber : number < state.2.issued := hbound (first, number) (by simp)
  have hnumber' : number' < state.2.issued := hbound (second, number') (by simp)
  have hsame : ids number' = ids number ↔ number' = number :=
    ⟨hdistinct _ _ hnumber' hnumber, fun heq => by rw [heq]⟩
  refine ⟨earlier.map fun (sample, number) => (sample, ids number), ids number, ids number',
    later.map fun (sample, number) => (sample, ids number), ?_, ?_, ?_, ?_⟩
  · rw [h.tags_eq, hnumbered]
    simp only [List.map_append, List.map_cons]
  · rw [List.map_map, ← hbefore]
    rfl
  · rw [List.map_map, ← hafter]
    rfl
  · rw [ne_eq, hsame]
    exact hiff

end Segmentation

/-! ## The tags of a session -/

section Tags

variable {σ : Type} [Store σ]

/-- An accepted sample finds a race open, or opens one, and is tagged with it. -/
theorem tags_perform_add (session : Session) (world : World σ) {sample : Sample}
    (haccepts : Session.accepts sample = true) (hsession : session.Coherent) :
    ∃ race, (World.perform (.add sample) (session, world)).1.race = some race ∧
      tags (World.perform (.add sample) (session, world)) =
        tags (session, world) ++ [(sample, race.id)] := by
  obtain ⟨calls, events, taken, hmove, hextends⟩ :=
    World.exists_move (.add sample) session world
  generalize World.perform (.add sample) (session, world) = state at hmove hextends
  obtain ⟨after, world'⟩ := state
  cases hmove with
  | staysOff _ hoff => simp [Session.accepts, hoff] at haccepts
  | pauses _ hoff => simp [Session.accepts, hoff] at haccepts
  | waitsOnGrid _ _ hgrid => simp [Session.accepts, hgrid] at haccepts
  | accepts _ _ _ _ _ ready race now hentry hrace =>
      exact ⟨_, rfl, tags_recorded hentry hsession hextends race now⟩

/-- The races of a session follow its accepted samples and its closes. Whatever the store answers
and whichever of its calls fail:

* every accepted sample is tagged, in the order of receipt, and the tag that it gets is the race
  that is then open;
* as long as the identifiers given out are distinct, two accepted samples in a row have different
  tags exactly when the session was closed between them or the second restarts the clock of the
  first;
* runs with the same accepted samples and closes have the same tags. Samples off the track or on
  the grid, checkpoints, pauses, resumes and failures make no difference wherever they occur. -/
theorem races_follow_accepted_samples (store : σ) (outage : Outage) (readings : Nat → Timestamp)
    (ids : Nat → Uuid) (id : Uuid) (capacity : Nat) :
    let run := fun operations => World.performAll operations
      (Session.fresh id capacity, World.fresh store outage readings ids)
    (∀ operations, (tags (run operations)).map Prod.fst = acceptedSamples operations) ∧
      (∀ operations sample, Session.accepts sample = true →
        ∃ race, (run (operations ++ [.add sample])).1.race = some race ∧
          tags (run (operations ++ [.add sample])) =
            tags (run operations) ++ [(sample, race.id)]) ∧
      (∀ before first between second after,
        Session.accepts first = true → Session.accepts second = true →
        acceptedSamples between = [] →
        let final := run (before ++ .add first :: (between ++ .add second :: after))
        (∀ i j, i < final.2.issued → j < final.2.issued → ids i = ids j → i = j) →
        ∃ earlier race race' later,
          tags final = earlier ++ (first, race) :: (second, race') :: later ∧
            earlier.map Prod.fst = acceptedSamples before ∧
            later.map Prod.fst = acceptedSamples after ∧
            (race' ≠ race ↔ .close ∈ between ∨ second.restarts first = true)) ∧
      (∀ (τ : Type) [Store τ] (store' : τ) (outage' : Outage) (readings' : Nat → Timestamp)
        (id' : Uuid) (capacity' : Nat) (operations operations' : List Operation),
        marks operations = marks operations' →
        tags (World.performAll operations'
            (Session.fresh id' capacity', World.fresh store' outage' readings' ids)) =
          tags (run operations)) := by
  intro run
  have hfollows := fun operations => (Segmentation.follows_fresh store outage readings ids id
    capacity).performAll operations
  refine ⟨?_, ?_, ?_, ?_⟩
  · intro operations
    obtain ⟨-, -, filed, hledger, hsamples⟩ := performAll_filing operations
      (Session.fresh id capacity) (World.fresh store outage readings ids)
      (Session.coherent_fresh id capacity) (by simp [World.fresh])
    rw [← hsamples, tags, List.map_map]
    change (ledger _).map Recorded.sample = _
    rw [hledger]
    rfl
  · intro operations sample haccepts
    have hrun : run (operations ++ [.add sample]) = World.perform (.add sample) (run operations) :=
      World.performAll_append operations [.add sample] _
    rw [hrun]
    exact tags_perform_add _ _ haccepts (hfollows operations).coherent
  · intro before first between second after hfirst hsecond hbetween final hdistinct
    have hmarks : marks (before ++ .add first :: (between ++ .add second :: after)) =
        marks before ++ .accept first :: (marks between ++ .accept second :: marks after) := by
      simp [marks_append, marks_cons, Operation.mark?, hfirst, hsecond]
    have hcloses : ∀ mark ∈ marks between, mark = .close :=
      fun mark hmark => eq_close_of_mem_marks hbetween hmark
    have hfinal := hfollows (before ++ .add first :: (between ++ .add second :: after))
    rw [hmarks] at hfinal
    obtain ⟨earlier, race, race', later, htags, hbefore, hafter, hiff⟩ :=
      hfinal.tags_ne_iff hcloses hdistinct
    refine ⟨earlier, race, race', later, htags, ?_, ?_, ?_⟩
    · rw [hbefore, acceptedSamples_eq_filterMap_marks]
    · rw [hafter, acceptedSamples_eq_filterMap_marks]
    · rw [hiff, marks_ne_nil_iff hbetween]
  · intro τ _ store' outage' readings' id' capacity' operations operations' hmarks
    have hother := (Segmentation.follows_fresh store' outage' readings' ids id'
      capacity').performAll operations'
    rw [hother.tags_eq, ← hmarks]
    exact (hfollows operations).tags_eq.symm

/-- A race clock that goes back to zero begins a race, although a checkpoint came between and no
race could be stored. -/
theorem tags_of_restarted_clock :
    ∃ race race', race' ≠ race ∧
      tags (World.performAll [.add (.lapping .one), .checkpoint, .add (.lapping .zero)]
          (Session.fresh (.ofNat 0) 350, World.fresh MemoryStore.empty
            (.ofMethods [.upsertRaces]) (fun _ => default) .ofNat)) =
        [(.lapping .one, race), (.lapping .zero, race')] := by
  have hdistinct : ∀ i j, i < 2 → j < 2 → Uuid.ofNat i = Uuid.ofNat j → i = j :=
    Uuid.distinct_ofNat (by decide)
  obtain ⟨-, -, hboundaries, -⟩ := races_follow_accepted_samples MemoryStore.empty
    (.ofMethods [.upsertRaces]) (fun _ => default) .ofNat (.ofNat 0) 350
  obtain ⟨earlier, race, race', later, htags, hbefore, hafter, hiff⟩ :=
    hboundaries [] (.lapping .one) [.checkpoint] (.lapping .zero) [] (by decide) (by decide) rfl
      hdistinct
  refine ⟨race, race', hiff.mpr (.inr (by decide)), ?_⟩
  rw [List.map_eq_nil_iff.mp hbefore, List.map_eq_nil_iff.mp hafter] at htags
  exact htags

end Tags

end RaceIngest
