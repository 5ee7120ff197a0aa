import RaceIngest.Proofs.Race.Identity
import RaceIngest.Proofs.Session.Filing
import RaceIngest.Store.Memory
import Mathlib.Data.List.Nodup

/-!
# What subscribers are told of a race

The events of a session come in *chapters*, one for every race, in the order in which the races
begin. A chapter opens with the start of its race, goes on with pauses and resumes in turn, a pause
first, and ends with the finish. A race can end while it is paused, so a finish may follow a pause
as well as a resume or the start.

Events are published from five places, and none of them knows what was published before. What
carries the induction is `Narrated`: the last chapter is open exactly while a race is open, it is
about that race, and the pause flag of the race is the parity of the turns that were told. The rest
of the session, its buffer and its store, plays no part.

## Main results

* `Narrated.begins`, `Narrated.turns`, `Narrated.ends`: the three ways to go on with the story.
* `Narrated.move`: every move of a session goes on with the story.
* `events_in_chapters`: the events of every run, whichever calls of the store fail.
-/

namespace RaceIngest

/-! ## The race that an event is about -/

namespace Race

theorem Ends.sameRace {race ended : Race} {result : Except StorageError Recorded}
    (h : race.Ends result ended) : ended.SameRace race := by
  cases h <;> exact ⟨rfl, rfl, rfl, rfl, rfl, rfl, rfl⟩

/-- A later state of a race that is paused, and in progress, as it was before. -/
structure Continues (race before : Race) : Prop extends race.SameRace before where
  inProgress_eq : race.inProgress = before.inProgress
  paused_eq : race.paused = before.paused

theorem continues_refreshed (session : Session) (race : Race) :
    (session.refreshed race).Continues race := by
  unfold Session.refreshed
  cases session.buffer.getLast? with
  | none => exact ⟨.refl race, rfl, rfl⟩
  | some last => exact ⟨sameRace_update race last.sample, rfl, rfl⟩

theorem continues_setClock (race : Race) (clock : Single) :
    ({ race with raceTime := clock } : Race).Continues race :=
  ⟨⟨rfl, rfl, rfl, rfl, rfl, rfl, rfl⟩, rfl, rfl⟩

end Race

/-- The state that a race is in when an event of a kind is published about it. -/
def EventKind.Fits : EventKind → Race → Prop
  | .started, race =>
    race.inProgress = true ∧ race.paused = false ∧ race.finishedAt = none ∧
      race.bestLap = .zero ∧ race.raceTime = .zero ∧ race.position = 0 ∧
      race.distanceTraveled = .zero
  | .paused, race => race.inProgress = true ∧ race.paused = true
  | .resumed, race => race.inProgress = true ∧ race.paused = false
  | .finished, race => race.inProgress = false ∧ race.finishedAt.isSome = true

theorem Race.Ends.fits {race ended : Race} {result : Except StorageError Recorded}
    (h : race.Ends result ended) : EventKind.finished.Fits ended := by
  cases h <;> exact ⟨rfl, rfl⟩

theorem fits_start {sample : Sample} (haccepts : Session.accepts sample = true)
    (sessionId id : Uuid) (now : Calendar.Timestamp) :
    EventKind.started.Fits (Race.start sample sessionId id now) := by
  have hon : sample.onTrack = true := by
    simp only [Session.accepts, Bool.and_eq_true] at haccepts
    exact haccepts.1
  refine ⟨rfl, ?_, rfl, rfl, rfl, rfl, rfl⟩
  simp [Race.start, hon]

/-! ## Chapters -/

/-- What is told of one race: the race as it started, as it was at every pause and resume, and as
it finished, once it did. -/
structure Chapter where
  start : Race
  turns : List Race
  finish : Option Race

/-- Pauses and resumes come in turn, a pause first. -/
def turnKind (number : Nat) : EventKind := if number % 2 = 0 then .paused else .resumed

namespace Chapter

/-- The chapter of a race that just started. -/
def opening (race : Race) : Chapter := ⟨race, [], none⟩

/-- The chapter after one more pause or resume. -/
def turned (chapter : Chapter) (race : Race) : Chapter :=
  { chapter with turns := chapter.turns ++ [race] }

/-- The chapter with its finish. -/
def ended (chapter : Chapter) (race : Race) : Chapter := { chapter with finish := some race }

/-- The events of a chapter: the start, the pauses and resumes in turn, the finish. -/
def events (chapter : Chapter) : List Event :=
  ⟨.started, chapter.start⟩ :: (chapter.turns.mapIdx fun number race => ⟨turnKind number, race⟩) ++
    (chapter.finish.map fun race => ⟨.finished, race⟩).toList

/-- All events of a chapter are about one race, which is in the state that the event tells of. -/
structure WellFormed (chapter : Chapter) : Prop where
  sameRace : ∀ event ∈ chapter.events, event.race.SameRace chapter.start
  fits : ∀ event ∈ chapter.events, event.kind.Fits event.race

@[simp] theorem events_opening (race : Race) : (opening race).events = [⟨.started, race⟩] := rfl

theorem events_turned {chapter : Chapter} (hopen : chapter.finish = none) (race : Race) :
    (chapter.turned race).events =
      chapter.events ++ [⟨turnKind chapter.turns.length, race⟩] := by
  simp [events, turned, hopen, List.mapIdx_concat]

theorem events_ended {chapter : Chapter} (hopen : chapter.finish = none) (race : Race) :
    (chapter.ended race).events = chapter.events ++ [⟨.finished, race⟩] := by
  simp [events, ended, hopen]

theorem wellFormed_opening {race : Race} (hfits : EventKind.started.Fits race) :
    (opening race).WellFormed where
  sameRace := by
    intro event hevent
    rw [events_opening, List.mem_singleton] at hevent
    rw [hevent]
    exact .refl race
  fits := by
    intro event hevent
    rw [events_opening, List.mem_singleton] at hevent
    rw [hevent]
    exact hfits

/-- A chapter stays well-formed when an event is added that is about its race. -/
theorem WellFormed.concat {chapter chapter' : Chapter} (h : chapter.WellFormed) {event : Event}
    (hevents : chapter'.events = chapter.events ++ [event])
    (hstart : chapter'.start = chapter.start) (hsame : event.race.SameRace chapter.start)
    (hfits : event.kind.Fits event.race) : chapter'.WellFormed where
  sameRace := by
    intro other hother
    rw [hevents] at hother
    rw [hstart]
    rcases List.mem_append.mp hother with hold | hnew
    · exact h.sameRace other hold
    · rw [List.mem_singleton.mp hnew]
      exact hsame
  fits := by
    intro other hother
    rw [hevents] at hother
    rcases List.mem_append.mp hother with hold | hnew
    · exact h.fits other hold
    · rw [List.mem_singleton.mp hnew]
      exact hfits

end Chapter

/-! ## The story so far -/

/-- Every chapter but the last has its finish. The last has it too when no race is open; otherwise
it is about the open race, which is paused when the last turn was a pause. -/
inductive Told : List Chapter → Option Race → Prop where
  | idle {chapters : List Chapter} (hover : ∀ chapter ∈ chapters, chapter.finish.isSome = true) :
      Told chapters none
  | running {earlier : List Chapter} {last : Chapter} {race : Race}
      (hover : ∀ chapter ∈ earlier, chapter.finish.isSome = true) (hopen : last.finish = none)
      (hsame : race.SameRace last.start) (hprogress : race.inProgress = true)
      (hpaused : race.paused = decide (last.turns.length % 2 = 1)) :
      Told (earlier ++ [last]) (some race)

theorem Told.finish_of_mem_dropLast {chapters : List Chapter} {race : Option Race}
    (h : Told chapters race) :
    ∀ chapter ∈ chapters.dropLast, chapter.finish.isSome = true := by
  cases h with
  | idle hover => exact fun chapter hchapter => hover chapter (List.dropLast_subset _ hchapter)
  | running hover =>
      rw [List.dropLast_concat]
      exact hover

/-- Some events tell the story of a session in chapters. The races of the chapters carry the first
identifiers of the supply, in their order. -/
structure Story (ids : Nat → Uuid) (issued : Nat) (events : List Event) (race : Option Race)
    (chapters : List Chapter) : Prop where
  events_eq : events = chapters.flatMap Chapter.events
  wellFormed : ∀ chapter ∈ chapters, chapter.WellFormed
  ids_eq : (chapters.map fun chapter => chapter.start.id) = (List.range issued).map ids
  told : Told chapters race

/-- A chapter that goes on by one event goes on with the story. -/
theorem Story.concat {ids : Nat → Uuid} {issued : Nat} {events : List Event}
    {race race' : Option Race} {earlier : List Chapter} {last last' : Chapter}
    (h : Story ids issued events race (earlier ++ [last])) {event : Event}
    (hevents : last'.events = last.events ++ [event]) (hstart : last'.start = last.start)
    (hsame : event.race.SameRace last.start) (hfits : event.kind.Fits event.race)
    (htold : Told (earlier ++ [last']) race') :
    Story ids issued (events ++ [event]) race' (earlier ++ [last']) where
  events_eq := by
    rw [h.events_eq]
    simp [hevents]
  wellFormed := by
    intro chapter hchapter
    rcases List.mem_append.mp hchapter with hold | hnew
    · exact h.wellFormed chapter (List.mem_append_left _ hold)
    · rw [List.mem_singleton.mp hnew]
      exact (h.wellFormed last (by simp)).concat hevents hstart hsame hfits
  ids_eq := by
    rw [← h.ids_eq]
    simp [hstart]
  told := htold

/-- The events of a session tell a story, and it is about the race that is open. -/
def Narrated (ids : Nat → Uuid) (issued : Nat) (events : List Event) (race : Option Race) : Prop :=
  ∃ chapters, Story ids issued events race chapters

namespace Narrated

variable {ids : Nat → Uuid} {issued : Nat} {events : List Event} {race : Race}

theorem nothing (ids : Nat → Uuid) : Narrated ids 0 [] none :=
  ⟨[], rfl, by simp, rfl, .idle (by simp)⟩

/-- What does not touch whether the race is paused or in progress leaves the story as it is. -/
theorem keeps (h : Narrated ids issued events (some race)) {race' : Race}
    (hrace : race'.Continues race) : Narrated ids issued events (some race') := by
  obtain ⟨chapters, hevents, hwell, hids, htold⟩ := h
  refine ⟨chapters, hevents, hwell, hids, ?_⟩
  cases htold with
  | running hover hopen hsame hprogress hpaused =>
      have hsame' := hrace.toSameRace.trans hsame
      exact .running hover hopen hsame' (hrace.inProgress_eq.trans hprogress)
        (hrace.paused_eq.trans hpaused)

/-- The start of a race begins a chapter. -/
theorem begins (h : Narrated ids issued events none) (hid : race.id = ids issued)
    (hfits : EventKind.started.Fits race) :
    Narrated ids (issued + 1) (events ++ [⟨.started, race⟩]) (some race) := by
  obtain ⟨chapters, hevents, hwell, hids, htold⟩ := h
  refine ⟨chapters ++ [.opening race], ?_, ?_, ?_, ?_⟩
  · rw [hevents, List.flatMap_append]
    simp
  · intro chapter hchapter
    rcases List.mem_append.mp hchapter with hold | hnew
    · exact hwell chapter hold
    · rw [List.mem_singleton.mp hnew]
      exact Chapter.wellFormed_opening hfits
  · rw [List.map_append, hids, List.range_succ, List.map_append]
    simp [Chapter.opening, hid]
  · cases htold with
    | idle hover =>
        refine .running hover rfl (.refl race) hfits.1 ?_
        rw [hfits.2.1]
        rfl

/-- A pause of a race that runs, or a resume of one that is paused, is the next turn. -/
theorem turns (h : Narrated ids issued events (some race)) {race' : Race}
    (hsame : race'.SameRace race) (hprogress : race'.inProgress = race.inProgress)
    (hturned : race'.paused = !race.paused) :
    Narrated ids issued
      (events ++ [⟨if race'.paused then .paused else .resumed, race'⟩]) (some race') := by
  obtain ⟨chapters, hstory⟩ := h
  cases hstory.told with
  | @running earlier last _ hover hopen hrace hrunning hpaused =>
      have hkind : (if race'.paused then EventKind.paused else EventKind.resumed) =
          turnKind last.turns.length := by
        rw [hturned, hpaused, turnKind]
        rcases Nat.mod_two_eq_zero_or_one last.turns.length with heven | hodd
        · simp [heven]
        · simp [hodd]
      have hfits : (turnKind last.turns.length).Fits race' := by
        rw [← hkind]
        cases hflag : race'.paused
        · exact ⟨hprogress.trans hrunning, hflag⟩
        · exact ⟨hprogress.trans hrunning, hflag⟩
      have hparity : race'.paused = decide ((last.turned race').turns.length % 2 = 1) := by
        rw [hturned, hpaused]
        simp only [Chapter.turned, List.length_append, List.length_cons, List.length_nil]
        rcases Nat.mod_two_eq_zero_or_one last.turns.length with heven | hodd
        · simp [heven, Nat.add_mod]
        · simp [hodd, Nat.add_mod]
      rw [hkind]
      refine ⟨earlier ++ [last.turned race'], ?_⟩
      refine hstory.concat
        (Chapter.events_turned hopen race') rfl (hsame.trans hrace) hfits ?_
      exact .running hover hopen (hsame.trans hrace) (hprogress.trans hrunning) hparity

/-- The finish of a race completes its chapter, whether the race is paused or not. -/
theorem ends (h : Narrated ids issued events (some race)) {race' : Race}
    (hsame : race'.SameRace race) (hfits : EventKind.finished.Fits race') :
    Narrated ids issued (events ++ [⟨.finished, race'⟩]) none := by
  obtain ⟨chapters, hstory⟩ := h
  cases hstory.told with
  | @running earlier last _ hover hopen hrace hrunning hpaused =>
      refine ⟨earlier ++ [last.ended race'], ?_⟩
      refine hstory.concat
        (Chapter.events_ended hopen race') rfl (hsame.trans hrace) hfits ?_
      refine .idle ?_
      intro chapter hchapter
      rcases List.mem_append.mp hchapter with hold | hnew
      · exact hover chapter hold
      · rw [List.mem_singleton.mp hnew]
        rfl

/-! ## Every move goes on with the story -/

/-- A flush leaves the story as it is. -/
theorem flushed {session : Session} (h : Narrated ids issued events session.race) :
    Narrated ids issued events session.flushed.race := by
  unfold Session.flushed
  cases hrace : session.race with
  | none =>
      rw [hrace] at h
      exact h
  | some race =>
      rw [hrace] at h
      exact h.keeps (Race.continues_refreshed session race)

theorem entry {session ready : Session} {sample : Sample} {calls : List Call}
    {events' : List Event} {taken : Nat} (h : Narrated ids issued events session.race)
    (haccepts : Session.accepts sample = true)
    (hentry : session.Entry (ids issued) sample calls events' taken ready) :
    Narrated ids (issued + taken) (events ++ events') ready.race := by
  cases hentry with
  | opens now hrace =>
      rw [hrace] at h
      exact h.begins rfl (fits_start haccepts _ _ now)
  | crosses race current ended result now hrace hnew hcurrent hends =>
      have hflushed := h.flushed
      rw [hcurrent] at hflushed
      have hfinished := hflushed.ends hends.sameRace hends.fits
      have hstarted := hfinished.begins rfl (fits_start haccepts session.id (ids issued) now)
      rw [List.append_assoc] at hstarted
      exact hstarted
  | resumes race hrace hold hpaused =>
      rw [hrace] at h
      have hturned : ({ race with paused := false } : Race).paused = !race.paused := by
        rw [hpaused]
        rfl
      exact h.turns (race.sameRace_setPaused false) rfl hturned
  | continues =>
      rw [List.append_nil]
      exact h

/-- Every move of a session goes on with the story. -/
theorem move {session after : Session} {operation : Operation} {calls : List Call}
    {events' : List Event} {taken : Nat} (h : Narrated ids issued events session.race)
    (hmove : session.Move (ids issued) operation calls events' taken after) :
    Narrated ids (issued + taken) (events ++ events') after.race := by
  cases hmove with
  | staysOff => rwa [List.append_nil]
  | waitsOnGrid => rwa [List.append_nil]
  | closesIdle => rwa [List.append_nil]
  | flushes =>
      rw [List.append_nil]
      exact h.flushed
  | pauses sample hoff race current hrace hrunning hcurrent =>
      have hflag : current.paused = false := by
        have heq : session.refreshed race = current := by
          simpa [Session.flushed, hrace] using hcurrent
        rw [← heq, (Race.continues_refreshed session race).paused_eq]
        exact hrunning
      have hflushed := h.flushed
      rw [hcurrent] at hflushed
      have hturned : ({ current with paused := true } : Race).paused = !current.paused := by
        rw [hflag]
        rfl
      exact hflushed.turns (current.sameRace_setPaused true) rfl hturned
  | closes race ended result hcurrent hends =>
      have hflushed := h.flushed
      rw [hcurrent] at hflushed
      exact hflushed.ends hends.sameRace hends.fits
  | accepts sample haccepts calls events' taken ready race now hentry hrace =>
      have hready := h.entry haccepts hentry
      rw [hrace] at hready
      exact hready.keeps (race.continues_setClock sample.currentRaceTime)

end Narrated

/-! ## Runs -/

section Runs

variable {σ : Type} [Store σ]

theorem performAll_narrated (operations : List Operation) (session : Session) (world : World σ)
    (h : Narrated world.ids world.issued world.events session.race) :
    let final := World.performAll operations (session, world)
    final.2.ids = world.ids ∧
      Narrated world.ids final.2.issued final.2.events final.1.race := by
  induction operations generalizing session world with
  | nil => exact ⟨rfl, h⟩
  | cons operation operations ih =>
      obtain ⟨calls, events, taken, hmove, hextends⟩ :=
        World.exists_move operation session world
      have hstep := h.move hmove
      rw [← hextends.events_eq, ← hextends.issued_eq, ← hextends.ids_eq] at hstep
      obtain ⟨hids, hrest⟩ := ih _ (World.perform operation (session, world)).2 hstep
      rw [hextends.ids_eq] at hids hrest
      exact ⟨hids, hrest⟩

/-- The events of a session come in chapters, one for every race, whichever calls of the store
fail. A chapter is a start, pauses and resumes in turn, a pause first, and a finish; all its events
are about one race, which is in the state that the event tells of. Only the last chapter can lack
its finish, and it does exactly when a race is open; the chapter is about that race then. As long
as the identifiers given out are distinct, so are the races of the chapters. -/
theorem events_in_chapters (store : σ) (outage : Outage) (readings : Nat → Calendar.Timestamp)
    (ids : Nat → Uuid) (id : Uuid) (capacity : Nat) (operations : List Operation) :
    let final := World.performAll operations
      (Session.fresh id capacity, World.fresh store outage readings ids)
    ∃ chapters : List Chapter,
      final.2.events = chapters.flatMap Chapter.events ∧
      (∀ chapter ∈ chapters, chapter.WellFormed) ∧
      (∀ chapter ∈ chapters.dropLast, chapter.finish.isSome = true) ∧
      (∀ race, final.1.race = some race →
        ∃ last, chapters.getLast? = some last ∧ last.finish = none ∧
          race.SameRace last.start) ∧
      (final.1.race = none → ∀ chapter ∈ chapters, chapter.finish.isSome = true) ∧
      ((∀ i j, i < final.2.issued → j < final.2.issued → ids i = ids j → i = j) →
        (chapters.map fun chapter => chapter.start.id).Nodup) := by
  intro final
  obtain ⟨-, chapters, hevents, hwell, hids, htold⟩ := performAll_narrated operations
    (Session.fresh id capacity) (World.fresh store outage readings ids) (.nothing ids)
  change Told chapters final.1.race at htold
  refine ⟨chapters, hevents, hwell, htold.finish_of_mem_dropLast, ?_, ?_, ?_⟩
  · intro race hrace
    rw [hrace] at htold
    cases htold with
    | running hover hopen hsame => exact ⟨_, List.getLast?_concat, hopen, hsame⟩
  · intro hrace
    rw [hrace] at htold
    cases htold with
    | idle hover => exact hover
  · intro hdistinct
    rw [hids]
    refine List.Nodup.map_on ?_ List.nodup_range
    intro i hi j hj heq
    exact hdistinct i j (List.mem_range.mp hi) (List.mem_range.mp hj) heq

/-- A race that is closed while it is paused has its finish right after its pause, and the race
after it has a chapter of its own. -/
theorem chapters_of_race_closed_while_paused :
    let final := World.performAll
      [.add (.lapping .one), .add default, .close, .add (.lapping .one)]
      (Session.fresh (.ofNat 0) 350, World.fresh MemoryStore.empty
        (.ofMethods [.upsertRaces]) (fun _ => default) .ofNat)
    final.2.events.map Event.kind = [.started, .paused, .finished, .started] ∧
      ∃ chapters : List Chapter, final.2.events = chapters.flatMap Chapter.events ∧
        (chapters.map fun chapter => chapter.start.id).Nodup := by
  intro final
  have hissued : final.2.issued = 2 := rfl
  have hdistinct : ∀ i j, i < final.2.issued → j < final.2.issued →
      Uuid.ofNat i = Uuid.ofNat j → i = j := by
    rw [hissued]
    exact Uuid.distinct_ofNat (by decide)
  obtain ⟨chapters, hevents, -, -, -, -, hnodup⟩ := events_in_chapters MemoryStore.empty
    (.ofMethods [.upsertRaces]) (fun _ => default) .ofNat (.ofNat 0) 350
    [.add (.lapping .one), .add default, .close, .add (.lapping .one)]
  exact ⟨rfl, chapters, hevents, hnodup hdistinct⟩

end Runs

end RaceIngest
