import RaceIngest.Proofs.Race.Lap
import RaceIngest.Proofs.Race.Readback
import RaceIngest.Proofs.Session.Filing
import RaceIngest.Proofs.Store.Settled

/-!
# The races of sessions are dated

A clock shows regular times, and so do recorded samples that are read from a directory. So whatever
samples a session takes, and whichever calls of its store fail, all races that it puts into a
directory are dated: they have regular timestamps. What other words the races hold is up to the
samples.

So nothing but their aggregates can keep the races on file from being read, and whether the directory
of a session can be opened again is a matter of these alone.

## Main definitions

* `Script.Dates`: a script puts dated races only, however it is answered in time.

## Main statements

* `Session.dates_operation`: every operation on a session puts dated races only,
* `World.dated_performAll`: the races of a directory stay dated under every row of operations,
* `World.openAt_performAll`: opening the directory of a session again.
-/

namespace RaceIngest

open Calendar

namespace Race

theorem dated_start (sample : Sample) (sessionId id : Uuid) {now : Timestamp}
    (hregular : now.Regular) : (start sample sessionId id now).Dated := by
  refine ⟨hregular, fun t hfinish => ?_⟩
  have hopen : (none : Option Timestamp) = some t := hfinish
  cases hopen

theorem Dated.update {race : Race} (hdated : race.Dated) (sample : Sample) :
    (race.update sample).Dated :=
  ⟨hdated.started, hdated.finished⟩

theorem Dated.finishAt {race : Race} (hdated : race.Dated) {now : Timestamp}
    (hregular : now.Regular) : (race.finishAt now).Dated := by
  refine ⟨hdated.started, fun t hfinish => ?_⟩
  have hclosed : some now = some t := hfinish
  cases hclosed
  exact hregular

theorem Dated.finish {race : Race} (hdated : race.Dated) {last : Recorded}
    (hregular : last.createdAt.Regular) : (race.finish last).Dated :=
  (hdated.update last.sample).finishAt hregular

theorem Dated.setPaused {race : Race} (hdated : race.Dated) (paused : Bool) :
    { race with paused }.Dated :=
  ⟨hdated.started, hdated.finished⟩

theorem Dated.setClock {race : Race} (hdated : race.Dated) (raceTime : Single) :
    { race with raceTime }.Dated :=
  ⟨hdated.started, hdated.finished⟩

end Race

/-! ## Scripts -/

/-- The races that are put into the store are dated. -/
def Request.Dated : Request → Prop
  | .upsert races => ∀ race ∈ races, race.Dated
  | _ => True

/-- Answers that tell a time tell a regular one. -/
def Request.Timely : (request : Request) → request.Answer → Prop
  | .last _, answer => ∀ last, answer = .ok last → last.createdAt.Regular
  | .clock, now => now.Regular
  | _, _ => True

namespace Script

variable {α β : Type} {holds : α → Prop}

/-- However it is answered in time, the script puts dated races only and ends as described. -/
def Dates (holds : α → Prop) : Script α → Prop
  | .done a => holds a
  | .ask request next => request.Dated ∧ ∀ answer, request.Timely answer → (next answer).Dates holds

theorem Dates.bind {after : β → Prop} {script : Script α} {next : α → Script β}
    (hfirst : script.Dates holds) (hsecond : ∀ a, holds a → (next a).Dates after) :
    (script >>= next).Dates after := by
  induction script with
  | done a => exact hsecond a hfirst
  | ask request rest ih =>
      exact ⟨hfirst.1, fun answer htimely => ih answer (hfirst.2 answer htimely)⟩

theorem dates_upsert {races : List Race} (hdated : ∀ race ∈ races, race.Dated) :
    (upsert races).Dates fun _ => True :=
  ⟨hdated, fun _ _ => trivial⟩

theorem dates_insert (race : Race) (samples : List Recorded) :
    (insert race samples).Dates fun _ => True :=
  ⟨trivial, fun _ _ => trivial⟩

theorem dates_publish (event : Event) : (publish event).Dates fun _ => True :=
  ⟨trivial, fun _ _ => trivial⟩

theorem dates_clock : clock.Dates Timestamp.Regular :=
  ⟨trivial, fun _ htimely => htimely⟩

end Script

/-! ## Sessions -/

namespace Session

/-- The open race is dated. -/
def Dated (session : Session) : Prop := ∀ race ∈ session.race, race.Dated

theorem dates_finished {race : Race} (hdated : race.Dated) : (finished race).Dates Race.Dated := by
  refine ⟨trivial, fun answer htimely => ?_⟩
  cases answer with
  | ok last => exact hdated.finish (htimely last rfl)
  | error failure => exact Script.dates_clock.bind fun now hregular => hdated.finishAt hregular

theorem dates_startRace (session : Session) (sample : Sample) :
    (session.startRace sample).Dates Race.Dated :=
  ⟨trivial, fun id _ => Script.dates_clock.bind fun _ hregular =>
    Race.dated_start sample session.id id hregular⟩

theorem dated_of_race {session : Session} {race : Race} (hdated : race.Dated)
    (hopen : session.race = some race) : session.Dated := by
  intro other hmem
  have hsame : session.race = some other := hmem
  rw [hopen] at hsame
  cases hsame
  exact hdated

theorem dated_of_closed {session : Session} (hclosed : session.race = none) : session.Dated := by
  intro race hmem
  have hopen : session.race = some race := hmem
  rw [hclosed] at hopen
  cases hopen

theorem dates_checkpoint {session : Session} (hdated : session.Dated) :
    session.checkpoint.Dates Dated := by
  unfold checkpoint
  split
  · exact hdated
  · rename_i hmissing
    intro race hmem
    exact hdated race hmem
  · rename_i last race _ hcurrent
    have hupdated : (race.update last.sample).Dated := (hdated race hcurrent).update last.sample
    refine (Script.dates_upsert (List.forall_mem_singleton.mpr hupdated)).bind fun _ _ => ?_
    exact (Script.dates_insert _ _).bind fun _ _ => dated_of_race hupdated rfl

theorem dates_openRace (session : Session) (sample : Sample) :
    (session.openRace sample).Dates Dated := by
  refine (session.dates_startRace sample).bind fun race hdated => ?_
  refine (Script.dates_upsert (List.forall_mem_singleton.mpr hdated)).bind fun _ _ => ?_
  exact (Script.dates_publish _).bind fun _ _ => dated_of_race hdated rfl

theorem dates_nextRace {session : Session} (hdated : session.Dated) (sample : Sample) :
    (session.nextRace sample).Dates Dated := by
  refine (dates_checkpoint hdated).bind fun flushed hdated => ?_
  split
  · exact hdated
  · rename_i current hopen
    refine (dates_finished (hdated current hopen)).bind fun ended hclosed => ?_
    refine (flushed.dates_startRace sample).bind fun next hstarted => ?_
    have hboth : ∀ race ∈ [ended, next], race.Dated :=
      List.forall_mem_cons.mpr ⟨hclosed, List.forall_mem_singleton.mpr hstarted⟩
    refine (Script.dates_upsert hboth).bind fun _ _ => ?_
    refine (Script.dates_publish _).bind fun _ _ => ?_
    exact (Script.dates_publish _).bind fun _ _ => dated_of_race hstarted rfl

theorem dates_pause {session : Session} (hdated : session.Dated) : session.pause.Dates Dated := by
  unfold pause
  split
  · exact hdated
  · split
    · exact hdated
    · refine (dates_checkpoint hdated).bind fun flushed hdated => ?_
      split
      · exact hdated
      · rename_i race hopen
        have hpaused := (hdated race hopen).setPaused true
        refine (Script.dates_upsert (List.forall_mem_singleton.mpr hpaused)).bind fun _ _ => ?_
        exact (Script.dates_publish _).bind fun _ _ => dated_of_race hpaused rfl

theorem dates_resume {session : Session} (hdated : session.Dated) : session.resume.Dates Dated := by
  unfold resume
  split
  · exact hdated
  · rename_i race hopen
    have hresumed := (hdated race hopen).setPaused false
    refine (Script.dates_upsert (List.forall_mem_singleton.mpr hresumed)).bind fun _ _ => ?_
    exact (Script.dates_publish _).bind fun _ _ => dated_of_race hresumed rfl

theorem dates_record {session : Session} (hdated : session.Dated) (sample : Sample) :
    (session.record sample).Dates Dated := by
  unfold record
  split
  · exact hdated
  · rename_i race hopen
    refine Script.dates_clock.bind fun now _ => ?_
    exact dated_of_race ((hdated race hopen).setClock sample.currentRaceTime) rfl

theorem dates_add {session : Session} (hdated : session.Dated) (sample : Sample) :
    (session.add sample).Dates Dated := by
  have hentered : (session.enter sample).Dates Dated := by
    unfold enter
    split
    · exact session.dates_openRace sample
    · split
      · exact dates_nextRace hdated sample
      · split
        · exact dates_resume hdated
        · exact hdated
  unfold add
  split
  · exact dates_pause hdated
  · split
    · exact hdated
    · exact hentered.bind fun _ hdated => dates_record hdated sample

theorem dates_close {session : Session} (hdated : session.Dated) : session.close.Dates Dated := by
  unfold close
  split
  · exact hdated
  · refine (dates_checkpoint hdated).bind fun flushed hdated => ?_
    split
    · exact hdated
    · rename_i race hopen
      refine (dates_finished (hdated race hopen)).bind fun ended hclosed => ?_
      refine (Script.dates_upsert (List.forall_mem_singleton.mpr hclosed)).bind fun _ _ => ?_
      exact (Script.dates_publish _).bind fun _ _ => dated_of_closed rfl

/-- **Every operation on a session puts dated races only.** -/
theorem dates_operation {session : Session} (hdated : session.Dated) (operation : Operation) :
    (operation.script session).Dates Dated := by
  cases operation with
  | add sample => exact dates_add hdated sample
  | checkpoint => exact dates_checkpoint hdated
  | close => exact dates_close hdated

end Session

/-! ## Samples of a directory -/

/-- The samples of a directory were received at regular times. -/
theorem DirectoryStore.regular_of_readSamples {store : DirectoryStore} {id : Uuid}
    {samples : List Recorded} (hread : store.readSamples id = .ok samples) :
    ∀ recorded ∈ samples, recorded.createdAt.Regular := by
  intro recorded hmem
  simp only [readSamples] at hread
  split at hread
  · cases hread
    cases hmem
  · cases hread
  · split at hread
    · cases hread
    · split at hread
      · rename_i hall
        cases hread
        obtain ⟨line, -, hhere⟩ := Json.exists_of_mem_mapM hall hmem
        obtain ⟨document, -, hparsed⟩ := Option.bind_eq_some_iff.mp hhere
        exact Recorded.regular_of_ofJson? hparsed
      · cases hread

theorem DirectoryStore.regular_of_lastSample {store : DirectoryStore} {id : Uuid} {last : Recorded}
    (hanswer : Store.lastSample store id = .ok last) : last.createdAt.Regular := by
  have hsteps : (store.readSamples id >>= lastOf id) = .ok last := hanswer
  cases hread : store.readSamples id with
  | error failure =>
      rw [hread] at hsteps
      cases hsteps
  | ok samples =>
      rw [hread] at hsteps
      have hfound : lastOf id samples = .ok last := hsteps
      unfold lastOf at hfound
      split at hfound
      · rename_i sample hlatest
        cases hfound
        exact regular_of_readSamples hread _ (isLatest_of_latest? hlatest).mem
      · cases hfound

/-! ## Worlds over a directory -/

namespace World

/-- The clock shows regular times, the races that the directory holds are dated, and no call is under
way in it. -/
structure Dated (first : DirectoryStore) (world : World DirectoryStore) : Prop where
  readings : ∀ n, (world.readings n).Regular
  index : world.store.index.Dated
  settled : first.Settled world.store

variable {first : DirectoryStore} {world : World DirectoryStore}

/-- A request that puts dated races only is answered in time, and keeps the world dated. -/
theorem Dated.answer (hdated : world.Dated first) {request : Request} (hputs : request.Dated) :
    request.Timely (world.answer request).1 ∧ (world.answer request).2.Dated first := by
  have hreadings : ∀ n, ((world.answer request).2.readings n).Regular := by
    rw [(world.reads_answer request).readings_eq]
    exact hdated.readings
  cases request with
  | insert race samples =>
      refine ⟨trivial, hreadings, ?_, ?_⟩
      all_goals
        rw [world.store_insert]
        split
      · exact hdated.index
      · exact (world.store.index_insert race samples).symm ▸ hdated.index
      · exact hdated.settled
      · exact hdated.settled.insert race samples
  | upsert races =>
      refine ⟨trivial, hreadings, ?_, ?_⟩
      all_goals
        rw [world.store_upsert]
        split
      · exact hdated.index
      · rcases world.store.index_upsert races with hindex | hindex
        · exact hindex.symm ▸ hdated.index
        · exact hindex.symm ▸ RaceIndex.dated_putAll hdated.index hputs
      · exact hdated.settled
      · exact hdated.settled.upsert races
  | last race =>
      refine ⟨fun last hanswered => ?_, hreadings, hdated.index, hdated.settled⟩
      by_cases hfails : world.fails (.last race) = true
      · simp [World.answer, call, act, hfails] at hanswered
      · have hasked : Store.lastSample world.store race = .ok last := by
          simpa [World.answer, call, act, hfails, note] using hanswered
        exact DirectoryStore.regular_of_lastSample hasked
  | publish event => exact ⟨trivial, hreadings, hdated.index, hdated.settled⟩
  | clock => exact ⟨hdated.readings _, hreadings, hdated.index, hdated.settled⟩
  | freshId => exact ⟨trivial, hreadings, hdated.index, hdated.settled⟩

theorem Dated.run {α : Type} {holds : α → Prop} (hdated : world.Dated first) {script : Script α}
    (hdates : script.Dates holds) :
    holds (script.run World.answer world).1 ∧ (script.run World.answer world).2.Dated first := by
  induction script generalizing world with
  | done a => exact ⟨hdates, hdated⟩
  | ask request next ih =>
      obtain ⟨htimely, hafter⟩ := hdated.answer hdates.1
      exact ih _ hafter (hdates.2 _ htimely)

/-- **Whatever a session does over a directory, the races in it stay dated.** -/
theorem dated_performAll {session : Session} (hsession : session.Dated) (hdated : world.Dated first)
    (operations : List Operation) :
    (performAll operations (session, world)).1.Dated ∧
      (performAll operations (session, world)).2.Dated first := by
  induction operations generalizing session world with
  | nil => exact ⟨hsession, hdated⟩
  | cons operation operations ih =>
      obtain ⟨hafter, hlater⟩ := hdated.run (Session.dates_operation hsession operation)
      exact ih hafter hlater

/-- **When the directory of a session can be opened again.** Whatever a session does over a directory
that was opened, and whichever calls of the store and steps on files fail, opening the directory again
gives the store as the session left it, if nothing of the session was put on file or all held races
have finite aggregates; otherwise the directory cannot be opened any more. -/
theorem openAt_performAll {root : String} {files opened : Files.Tree} {store : DirectoryStore}
    (hopening : DirectoryStore.openAt root files = (.ok store, opened)) (outage : Outage)
    {readings : Nat → Timestamp} (hreadings : ∀ n, (readings n).Regular) (ids : Nat → Uuid)
    (id : Uuid) (capacity : Nat) (operations : List Operation) :
    let last := (performAll operations
      (Session.fresh id capacity, World.fresh store outage readings ids)).2.store
    DirectoryStore.openAt root last.files =
      (if last.racesOnFile = store.racesOnFile ∨ last.index.hasFiniteAggregates then .ok last
        else .error (.serialization (DirectoryStore.racesPath root)), last.files) := by
  intro last
  have hfound := (DirectoryStore.opened_of_openAt hopening).2
  have hstart : (World.fresh store outage readings ids).Dated store :=
    ⟨hreadings, DirectoryStore.dated_of_openAt hopening,
      DirectoryStore.settled_of_housed (DirectoryStore.housed_of_openAt hopening).2⟩
  have hsession : (Session.fresh id capacity).Dated := Session.dated_of_closed rfl
  have hfinal := (dated_performAll hsession hstart operations).2
  exact hfinal.settled.openAt_eq hfound hfinal.index

end World

end RaceIngest
