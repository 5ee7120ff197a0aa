import RaceIngest.Proofs.Session.Detours
import RaceIngest.Proofs.Session.Dossiers
import RaceIngest.Proofs.Session.Receipts
import RaceIngest.Proofs.Session.Segmentation

/-!
# What a session is between its operations

The fields of a session are not independent. Samples wait only for a race that is open and runs; all
of them were accepted and carry that race; and the open race is the first sample that was tagged with
it, for its car and its track, and the last one, for its clock.

While an operation is at work parts of this are broken: a flush empties the buffer before the pause
flag is set, a race that starts has its clock at zero although the sample that started it has
another, and at a boundary there is for a while no race at all. So the invariant is one of whole
moves. Two of its parts are known from elsewhere: `Session.Coherent` says that the buffer belongs to
the open race, and `Segmentation.Follows` that the samples are tagged as the segmentation numbers
them. What is added here is `Segmentation.Founds`, that the open race is the one that the first
sample with its number started, as it is while it is open. Its last sample is the one that the
segmentation keeps anyway.

## Main definitions

* `samplesTagged`: the samples tagged with a race.
* `Session.Invariant`: what holds of a session between its operations.

## Main results

* `Segmentation.Founds.move`: every move keeps the race in step with its first sample.
* `Segmentation.Founds.exists_first_last`: the samples tagged with the open race.
* `invariant_of_performAll`: every run, whichever calls of the store fail, leads to a session with
  the invariant, and such a session takes no detour.
-/

namespace RaceIngest

open Calendar

/-! ## Races while they are open -/

namespace Race

theorem openAs_start (sample : Sample) (sessionId id : Uuid) (now : Timestamp) :
    (start sample sessionId id now).OpenAs (start sample sessionId id now) :=
  ⟨.refl _, rfl, rfl⟩

variable {race first : Race}

theorem OpenAs.refreshed (h : race.OpenAs first) (session : Session) :
    (session.refreshed race).OpenAs first := by
  unfold Session.refreshed
  cases session.buffer.getLast? with
  | none => exact h
  | some last =>
      exact ⟨(race.sameRace_update last.sample).trans h.toSameRace, h.inProgress, h.finishedAt⟩

theorem OpenAs.setPaused (h : race.OpenAs first) (paused : Bool) :
    ({ race with paused } : Race).OpenAs first :=
  ⟨(race.sameRace_setPaused paused).trans h.toSameRace, h.inProgress, h.finishedAt⟩

theorem OpenAs.setClock (h : race.OpenAs first) (clock : Single) :
    ({ race with raceTime := clock } : Race).OpenAs first :=
  ⟨(race.continues_setClock clock).toSameRace.trans h.toSameRace, h.inProgress, h.finishedAt⟩

end Race

/-- The race that is open after a flush was open before. -/
theorem Session.exists_refreshed {session : Session} {current : Race}
    (hcurrent : session.flushed.race = some current) :
    ∃ race, session.race = some race ∧ current = session.refreshed race := by
  obtain ⟨race, hrace, hrefreshed⟩ := Option.map_eq_some_iff.mp hcurrent
  exact ⟨race, hrace, hrefreshed.symm⟩

theorem Session.Entry.id_eq {id : Uuid} {sample : Sample} {session ready : Session}
    {calls : List Call} {events : List Event} {taken : Nat}
    (h : session.Entry id sample calls events taken ready) : ready.id = session.id := by
  cases h <;> rfl

/-! ## The samples of a race -/

/-- The samples that a session tagged with a race so far, in the order of their receipt. -/
def samplesTagged {σ : Type} (state : Session × World σ) (race : Uuid) : List Sample :=
  ((tags state).filter fun tag => tag.2 = race).map Prod.fst

namespace Segmentation

/-- The accepted samples with a number, in the order of their receipt. -/
def samplesOf (seg : Segmentation) (number : Nat) : List Sample :=
  (seg.numbered.filter fun entry => entry.2 = number).map Prod.fst

/-- A number that was not given out yet has no samples. -/
theorem Numbered.samplesOf_begun {seg : Segmentation} (h : seg.Numbered) :
    seg.samplesOf seg.begun = [] := by
  have hnone : (seg.numbered.filter fun entry => entry.2 = seg.begun) = [] := by
    rw [List.filter_eq_nil_iff]
    intro entry hentry
    have hlt := h.numbered_lt entry hentry
    simp only [decide_eq_true_eq]
    omega
  rw [samplesOf, hnone, List.map_nil]

/-- An accepted sample is the last of its number. -/
theorem samplesOf_accept (seg : Segmentation) (sample : Sample) :
    (seg.step (.accept sample)).samplesOf (seg.numberOf sample).1 =
      seg.samplesOf (seg.numberOf sample).1 ++ [sample] := by
  simp [samplesOf, step]

/-- A sample with which a race begins gets the next number. -/
theorem numberOf_of_begins {seg : Segmentation} {sample : Sample}
    (hbegins : (seg.numberOf sample).2 = seg.begun + 1) :
    (seg.numberOf sample).1 = seg.begun := by
  unfold numberOf at hbegins ⊢
  split at hbegins
  · rename_i number previous hcurrent
    split at hbegins
    · rename_i hrestarts
      simp only [hrestarts, if_true]
    · exact absurd hbegins (Nat.ne_of_lt (Nat.lt_succ_self _))
  · rfl

/-- A sample with which no race begins belongs to the race that is open. -/
theorem numberOf_of_goes_on {seg : Segmentation} {sample : Sample}
    (hgoes : (seg.numberOf sample).2 = seg.begun) :
    ∃ previous, seg.current = some ((seg.numberOf sample).1, previous) := by
  unfold numberOf at hgoes ⊢
  split at hgoes
  · rename_i number previous hcurrent
    split at hgoes
    · exact absurd hgoes (Nat.succ_ne_self _)
    · rename_i hstays
      refine ⟨previous, ?_⟩
      rw [if_neg hstays]
      exact hcurrent
  · exact absurd hgoes (Nat.succ_ne_self _)

/-- As long as the identifiers given out are distinct, a race has the samples with its number. -/
theorem Follows.samplesTagged_eq {σ : Type} {seg : Segmentation} {ids : Nat → Uuid}
    {state : Session × World σ} (h : seg.Follows ids state) (hnumbered : seg.Numbered)
    (hdistinct : ∀ i j, i < state.2.issued → j < state.2.issued → ids i = ids j → i = j)
    {number : Nat} (hnumber : number < seg.begun) :
    samplesTagged state (ids number) = seg.samplesOf number := by
  have hsame : ∀ entry ∈ seg.numbered,
      decide (ids entry.2 = ids number) = decide (entry.2 = number) := by
    intro entry hentry
    have hlt := hnumbered.numbered_lt entry hentry
    rw [← h.issued_eq] at hlt hnumber
    have hiff : ids entry.2 = ids number ↔ entry.2 = number :=
      ⟨hdistinct _ _ hlt hnumber, fun heq => by rw [heq]⟩
    simp only [hiff]
  unfold samplesTagged samplesOf
  rw [h.tags_eq, List.filter_map, List.map_map, ← List.filter_congr hsame]
  rfl

/-! ## The first sample of a race -/

/-- The open race of a session is the one that the first sample with its number started, as it is
while it is open, and a segmentation keeps the last sample with the number. -/
structure Founds (seg : Segmentation) (ids : Nat → Uuid) (id : Uuid) (session : Session) : Prop where
  id_eq : session.id = id
  numbered : seg.Numbered
  quiet : session.Quiet
  last_eq : ∀ number previous, seg.current = some (number, previous) →
    (seg.samplesOf number).getLast? = some previous
  first_eq : ∀ race, session.race = some race → ∃ number previous first now,
    seg.current = some (number, previous) ∧ (seg.samplesOf number).head? = some first ∧
      race.OpenAs (.start first id (ids number) now)

theorem founds_fresh (ids : Nat → Uuid) (id : Uuid) (capacity : Nat) :
    Founds {} ids id (Session.fresh id capacity) where
  id_eq := rfl
  numbered := numbered_empty
  quiet := Session.quiet_fresh id capacity
  last_eq := by simp
  first_eq := by simp [Session.fresh]

variable {seg : Segmentation} {ids : Nat → Uuid} {id : Uuid} {session ready after : Session}

/-- What neither accepts a sample nor ends the race may change the race in no way that matters. -/
theorem Founds.keep (h : seg.Founds ids id session) (hid : after.id = session.id)
    (hquiet : after.Quiet)
    (hrace : ∀ race, after.race = some race → ∃ before, session.race = some before ∧
      ∀ first, before.OpenAs first → race.OpenAs first) :
    seg.Founds ids id after where
  id_eq := hid.trans h.id_eq
  numbered := h.numbered
  quiet := hquiet
  last_eq := h.last_eq
  first_eq := by
    intro race hafter
    obtain ⟨before, hbefore, hopen⟩ := hrace race hafter
    obtain ⟨number, previous, first, now, hcurrent, hfirst, hstart⟩ := h.first_eq before hbefore
    exact ⟨number, previous, first, now, hcurrent, hfirst, hopen _ hstart⟩

/-- Without a race nothing is said of one. -/
theorem Founds.close (h : seg.Founds ids id session) (hid : after.id = session.id)
    (hrace : after.race = none) : (seg.step .close).Founds ids id after where
  id_eq := hid.trans h.id_eq
  numbered := h.numbered.step .close
  quiet := by simp [Session.Quiet, hrace]
  last_eq := by simp [step]
  first_eq := by simp [hrace]

/-- The race that an accepted sample finds was started by the first sample of its number, which is
the accepted one when the race begins with it. -/
theorem Founds.entry {σ : Type} {world : World σ} (h : seg.Founds ids id session)
    (hfollows : seg.Follows ids (session, world)) {sample : Sample} {calls : List Call}
    {events : List Event} {taken : Nat}
    (hentry : session.Entry (ids seg.begun) sample calls events taken ready) {race : Race}
    (hrace : ready.race = some race) :
    ∃ first now, (seg.samplesOf (seg.numberOf sample).1 ++ [sample]).head? = some first ∧
      race.OpenAs (.start first id (ids (seg.numberOf sample).1) now) := by
  -- the number of identifiers taken tells whether a race begins with the sample
  obtain ⟨-, hbegun⟩ := hfollows.entry hentry
  have hstays : ∀ before, session.race = some before → taken = 0 → ∃ first now,
      (seg.samplesOf (seg.numberOf sample).1 ++ [sample]).head? = some first ∧
        before.OpenAs (.start first id (ids (seg.numberOf sample).1) now) := by
    intro before hbefore htaken
    rw [htaken] at hbegun
    obtain ⟨previous, hcurrent⟩ := numberOf_of_goes_on hbegun.symm
    obtain ⟨number, previous', first, now, hcurrent', hfirst, hopen⟩ := h.first_eq before hbefore
    rw [hcurrent, Option.some.injEq, Prod.mk.injEq] at hcurrent'
    rw [hcurrent'.1]
    exact ⟨first, now, by simp [hfirst], hopen⟩
  cases hentry with
  | opens now | crosses _ _ _ _ now =>
      rw [numberOf_of_begins hbegun.symm, h.numbered.samplesOf_begun, ← Option.some.inj hrace, h.id_eq]
      exact ⟨sample, now, rfl, Race.openAs_start sample id _ now⟩
  | resumes before hbefore =>
      obtain ⟨first, now, hfirst, hopen⟩ := hstays before hbefore rfl
      rw [← Option.some.inj hrace]
      exact ⟨first, now, hfirst, hopen.setPaused false⟩
  | continues => exact hstays race hrace rfl

/-- Every move keeps the open race in step with its first sample. -/
theorem Founds.move {σ : Type} {world : World σ} (h : seg.Founds ids id session)
    (hfollows : seg.Follows ids (session, world)) {operation : Operation} {calls : List Call}
    {events : List Event} {taken : Nat}
    (hmove : session.Move (ids seg.begun) operation calls events taken after) :
    (seg.steps operation.mark?.toList).Founds ids id after := by
  have hquiet := hmove.quiet h.quiet
  cases hmove with
  | staysOff sample hoff =>
      have hmark : (Operation.add sample).mark? = none := by
        simp [Operation.mark?, Session.accepts, hoff]
      rw [hmark]
      exact h
  | waitsOnGrid sample hon hgrid =>
      have hmark : (Operation.add sample).mark? = none := by
        simp [Operation.mark?, Session.accepts, hgrid]
      rw [hmark]
      exact h
  | pauses sample hoff race current hrace hrunning hcurrent =>
      have hmark : (Operation.add sample).mark? = none := by
        simp [Operation.mark?, Session.accepts, hoff]
      rw [hmark]
      obtain ⟨before, hbefore, hrefreshed⟩ := Session.exists_refreshed hcurrent
      refine h.keep rfl hquiet fun other hother => ⟨before, hbefore, fun first hopen => ?_⟩
      rw [← Option.some.inj hother, hrefreshed]
      exact (hopen.refreshed session).setPaused true
  | flushes =>
      refine h.keep rfl hquiet fun current hcurrent => ?_
      obtain ⟨before, hbefore, hrefreshed⟩ := Session.exists_refreshed hcurrent
      refine ⟨before, hbefore, fun first hopen => ?_⟩
      rw [hrefreshed]
      exact hopen.refreshed session
  | closesIdle hrace => exact h.close rfl hrace
  | closes => exact h.close rfl rfl
  | accepts sample haccepts _ _ _ ready race now hentry hrace =>
      obtain ⟨first, started, hfirst, hopen⟩ := h.entry hfollows hentry hrace
      have hmark : (Operation.add sample).mark? = some (.accept sample) := by
        simp [Operation.mark?, haccepts]
      rw [hmark]
      change (seg.step (.accept sample)).Founds ids id _
      refine
        { id_eq := hentry.id_eq.trans h.id_eq
          numbered := h.numbered.step _
          quiet := hquiet
          last_eq := ?_
          first_eq := ?_ }
      · intro number previous hcurrent
        obtain ⟨rfl, rfl⟩ := Prod.mk.inj (Option.some.inj hcurrent)
        rw [samplesOf_accept, List.getLast?_concat]
      · intro other hother
        rw [← Option.some.inj hother]
        refine ⟨_, sample, first, started, rfl, ?_, hopen.setClock sample.currentRaceTime⟩
        rw [samplesOf_accept, hfirst]

theorem Founds.performAll {σ : Type} [Store σ] {world : World σ} (h : seg.Founds ids id session)
    (hfollows : seg.Follows ids (session, world)) (operations : List Operation) :
    (seg.steps (marks operations)).Founds ids id
      (World.performAll operations (session, world)).1 := by
  induction operations generalizing seg session world with
  | nil => exact h
  | cons operation operations ih =>
      obtain ⟨calls, events, taken, hmove, hextends⟩ := World.exists_move operation session world
      rw [hfollows.ids_eq, hfollows.issued_eq] at hmove
      rw [marks_cons, steps_append]
      exact ih (h.move hfollows hmove) (hfollows.move hmove hextends)

/-- The samples tagged with the open race begin with the one that started it, and end with the one
that its clock is from. -/
theorem Founds.exists_first_last {σ : Type} {state : Session × World σ}
    (h : seg.Founds ids id state.1) (hfollows : seg.Follows ids state)
    (hdistinct : ∀ i j, i < state.2.issued → j < state.2.issued → ids i = ids j → i = j)
    {race : Race} (hrace : state.1.race = some race) :
    ∃ first last now, (samplesTagged state race.id).head? = some first ∧
      (samplesTagged state race.id).getLast? = some last ∧
      race.OpenAs (.start first id race.id now) ∧ race.raceTime = last.currentRaceTime := by
  obtain ⟨number, previous, first, now, hcurrent, hfirst, hopen⟩ := h.first_eq race hrace
  obtain ⟨number', previous', hcurrent', hid, hclock⟩ := hfollows.exists_current hrace
  rw [hcurrent, Option.some.injEq, Prod.mk.injEq] at hcurrent'
  obtain ⟨rfl, rfl⟩ := hcurrent'
  have htagged := hfollows.samplesTagged_eq h.numbered hdistinct
    (h.numbered.current_lt number previous hcurrent)
  rw [hid, htagged]
  exact ⟨first, previous, now, hfirst, h.last_eq number previous hcurrent, hopen, hclock⟩

end Segmentation

/-! ## The invariant -/

/-- A sample that waits was accepted, as all samples in the ledger were. -/
theorem accepts_of_mem_buffer {σ : Type} {state : Session × World σ} {operations : List Operation}
    (hsamples : (ledger state).map Recorded.sample = acceptedSamples operations)
    {recorded : Recorded} (hmem : recorded ∈ state.1.buffer) :
    Session.accepts recorded.sample = true := by
  have haccepted : recorded.sample ∈ acceptedSamples operations := by
    rw [← hsamples]
    exact List.mem_map_of_mem (List.mem_append_right _ hmem)
  obtain ⟨operation, -, hoperation⟩ := List.mem_filterMap.mp haccepted
  exact (Operation.eq_add_of_accepted? hoperation).2

/-- What holds of a session with the identifier `id` between its operations. -/
structure Session.Invariant {σ : Type} (ids : Nat → Uuid) (id : Uuid)
    (state : Session × World σ) : Prop where
  id_eq : state.1.id = id
  /-- Samples wait only for a race that is open and runs. -/
  running : state.1.buffer ≠ [] → ∃ race, state.1.race = some race ∧ race.paused = false
  /-- They were received on a track, with the lap clock running, and carry the open race. -/
  waiting : ∀ recorded ∈ state.1.buffer, recorded.sample.onTrack = true ∧
    recorded.sample.currentLap.isZero = false ∧
      ∃ race, state.1.race = some race ∧ recorded.race = race.id
  /-- Nothing waits for a paused race. -/
  quiet : ∀ race, state.1.race = some race → race.paused = true → state.1.buffer = []
  /-- An open race belongs to the session and did not end. -/
  unfinished : ∀ race, state.1.race = some race →
    race.inProgress = true ∧ race.finishedAt = none ∧ race.sessionId = id
  /-- As long as the identifiers given out are distinct, the first sample tagged with an open race
  gave it its car and its track, and the last one its clock. -/
  tagged : (∀ i j, i < state.2.issued → j < state.2.issued → ids i = ids j → i = j) →
    ∀ race, state.1.race = some race → ∃ first last,
      (samplesTagged state race.id).head? = some first ∧
      (samplesTagged state race.id).getLast? = some last ∧
      race.car = first.carOrdinal ∧ race.carClass = first.carClass ∧
      race.carPerformanceIndex = first.carPerformanceIndex ∧ race.track = first.trackOrdinal ∧
      race.raceTime = last.currentRaceTime

section Runs

variable {σ : Type} [Store σ]

/-- **The invariant of a session.** Whatever the store answers and whichever of its calls fail, it
holds after every run of operations, in any order, also of those after a close. The tagged samples
are the accepted ones. And the next operation, whichever it is, takes none of the branches that are
there for a race that is missing: it is the same with anything else in their place. -/
theorem invariant_of_performAll (store : σ) (outage : Outage) (readings : Nat → Timestamp)
    (ids : Nat → Uuid) (id : Uuid) (capacity : Nat) (operations : List Operation) :
    let final := World.performAll operations
      (Session.fresh id capacity, World.fresh store outage readings ids)
    Session.Invariant ids id final ∧
      (tags final).map Prod.fst = acceptedSamples operations ∧
      ∀ operation : Operation,
        (∀ session : Session, operation.scriptVia .asWritten session = operation.script session) ∧
          ∀ detours : Session.Detours,
            operation.scriptVia detours final.1 = operation.script final.1 := by
  intro final
  have hfollows := (Segmentation.follows_fresh store outage readings ids id capacity).performAll
    operations
  have hfounds := (Segmentation.founds_fresh ids id capacity).performAll
    (Segmentation.follows_fresh store outage readings ids id capacity) operations
  have hcoherent : final.1.Coherent := hfollows.coherent
  obtain ⟨-, -, filed, hledger, hsamples⟩ :=
    performAll_filing operations (Session.fresh id capacity)
      (World.fresh store outage readings ids) (Session.coherent_fresh id capacity)
      (by simp [World.fresh])
  have hledgered : (ledger final).map Recorded.sample = acceptedSamples operations := by
    rw [← hsamples]
    exact congrArg _ hledger
  refine ⟨?_, ?_, fun operation => ⟨operation.scriptVia_asWritten, fun detours => ?_⟩⟩
  · refine
      { id_eq := hfounds.id_eq
        running := ?_
        waiting := ?_
        quiet := hfounds.quiet
        unfinished := ?_
        tagged := ?_ }
    · intro hbuffer
      cases hrace : final.1.race with
      | none => exact absurd (hcoherent.buffer_eq_nil hrace) hbuffer
      | some race =>
          refine ⟨race, rfl, Bool.eq_false_iff.mpr fun hpaused => ?_⟩
          exact hbuffer (hfounds.quiet race hrace hpaused)
    · intro recorded hrecorded
      have haccepts := accepts_of_mem_buffer hledgered hrecorded
      obtain ⟨honTrack, hlap⟩ := Session.accepts_eq_true_iff.mp haccepts
      refine ⟨honTrack, hlap, ?_⟩
      cases hrace : final.1.race with
      | none => simp [hcoherent.buffer_eq_nil hrace] at hrecorded
      | some race => exact ⟨race, rfl, hcoherent.tag_eq race hrace recorded hrecorded⟩
    · intro race hrace
      obtain ⟨number, previous, first, now, -, -, hopen⟩ := hfounds.first_eq race hrace
      exact ⟨hopen.inProgress, hopen.finishedAt, hopen.sessionId_eq⟩
    · intro hdistinct race hrace
      obtain ⟨first, last, now, hfirst, hlast, hopen, hclock⟩ :=
        hfounds.exists_first_last hfollows hdistinct hrace
      exact ⟨first, last, hfirst, hlast, hopen.car_eq, hopen.carClass_eq,
        hopen.carPerformanceIndex_eq, hopen.track_eq, hclock⟩
  · rw [← hledgered, tags, List.map_map]
    rfl
  · exact hcoherent.scriptVia_eq detours operation

/-- A session that goes on after a close, while the store takes neither races nor samples: one sample
waits for the second race, whose first sample was thrown away, and the race still has its car. -/
theorem invariant_after_close :
    let final := World.performAll
      [.add (.lapping .zero), .close, .add (.lapping .zero), .checkpoint, .add (.lapping .one)]
      (Session.fresh (.ofNat 7) 350, World.fresh MemoryStore.empty
        (.ofMethods [.upsertRaces, .insertSamples]) (fun _ => default) .ofNat)
    final.1.buffer.length = 1 ∧
      ∃ race, final.1.race = some race ∧ race.paused = false ∧ race.sessionId = .ofNat 7 ∧
        ∃ first last, (samplesTagged final race.id).head? = some first ∧
          (samplesTagged final race.id).getLast? = some last ∧
          race.car = first.carOrdinal ∧ race.raceTime = last.currentRaceTime := by
  intro final
  have hissued : final.2.issued = 2 := rfl
  have hdistinct : ∀ i j, i < final.2.issued → j < final.2.issued →
      Uuid.ofNat i = Uuid.ofNat j → i = j := by
    rw [hissued]
    exact Uuid.distinct_ofNat (by decide)
  have hlength : final.1.buffer.length = 1 := rfl
  obtain ⟨hinvariant, -, -⟩ := invariant_of_performAll MemoryStore.empty
    (.ofMethods [.upsertRaces, .insertSamples]) (fun _ => default) .ofNat (.ofNat 7) 350
    [.add (.lapping .zero), .close, .add (.lapping .zero), .checkpoint, .add (.lapping .one)]
  obtain ⟨race, hrace, hpaused⟩ := hinvariant.running (List.ne_nil_of_length_pos (by
    rw [hlength]
    exact Nat.one_pos))
  obtain ⟨first, last, hfirst, hlast, hcar, -, -, -, hclock⟩ :=
    hinvariant.tagged hdistinct race hrace
  exact ⟨hlength, race, hrace, hpaused, (hinvariant.unfinished race hrace).2.2,
    first, last, hfirst, hlast, hcar, hclock⟩

end Runs

end RaceIngest
