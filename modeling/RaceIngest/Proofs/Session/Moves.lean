import RaceIngest.Session.World

/-!
# What an operation on a session does

A session consults its surroundings while it works, but little of what they answer matters to it.
This module states once, for every operation, which calls it makes to the store, which events it
publishes, how many identifiers it takes, and which session it leaves behind. Everything else that
is proved about sessions is read off these statements; no later proof opens a script again.

The store, the outage and the clock stay arbitrary throughout, so a statement about all moves holds
for every pattern of failures and for every content of the store.

## Main results

* `Session.run_checkpoint`: a flush leaves `Session.flushed` behind and calls the store as
  `Session.flushCalls` says, whatever the store answers.
* `Session.Move`: the moves of a session, one constructor for each thing an operation can do.
* `Session.yields_operation`: every operation is one of the moves.
-/

namespace RaceIngest

open Calendar

/-! ## What a world records -/

/-- How often a request reads the clock. -/
def Request.reads : Request → Nat
  | .clock => 1
  | _ => 0

namespace World

variable {σ : Type}

/-- What was added to a world between two of its states: calls to the store, events, and
identifiers taken from the supply, which itself stays the same. -/
structure Extends (before after : World σ) (calls : List Call) (events : List Event)
    (taken : Nat) : Prop where
  calls_eq : after.calls = before.calls ++ calls
  events_eq : after.events = before.events ++ events
  ids_eq : after.ids = before.ids
  issued_eq : after.issued = before.issued + taken

theorem Extends.refl (world : World σ) : world.Extends world [] [] 0 :=
  ⟨by simp, by simp, rfl, rfl⟩

theorem Extends.trans {first second third : World σ} {calls calls' : List Call}
    {events events' : List Event} {taken taken' : Nat}
    (h : first.Extends second calls events taken)
    (h' : second.Extends third calls' events' taken') :
    first.Extends third (calls ++ calls') (events ++ events') (taken + taken') where
  calls_eq := by rw [h'.calls_eq, h.calls_eq, List.append_assoc]
  events_eq := by rw [h'.events_eq, h.events_eq, List.append_assoc]
  ids_eq := h'.ids_eq.trans h.ids_eq
  issued_eq := by rw [h'.issued_eq, h.issued_eq, Nat.add_assoc]

/-- The clock was read some more times; it is the same clock. -/
structure Reads (before after : World σ) (n : Nat) : Prop where
  readings_eq : after.readings = before.readings
  read_eq : after.read = before.read + n

theorem Reads.refl (world : World σ) : world.Reads world 0 := ⟨rfl, rfl⟩

theorem Reads.trans {first second third : World σ} {n m : Nat} (h : first.Reads second n)
    (h' : second.Reads third m) : first.Reads third (n + m) where
  readings_eq := h'.readings_eq.trans h.readings_eq
  read_eq := by rw [h'.read_eq, h.read_eq, Nat.add_assoc]

variable [Store σ]

theorem extends_insert (world : World σ) (race : Race) (samples : List Recorded) :
    world.Extends (world.answer (.insert race samples)).2 [.insert race samples] [] 0 := by
  unfold answer call act
  dsimp only
  split <;> exact ⟨rfl, by simp [note], rfl, rfl⟩

theorem extends_upsert (world : World σ) (races : List Race) :
    world.Extends (world.answer (.upsert races)).2 [.upsert races] [] 0 := by
  unfold answer call act
  dsimp only
  split <;> exact ⟨rfl, by simp [note], rfl, rfl⟩

theorem extends_last (world : World σ) (race : Uuid) :
    world.Extends (world.answer (.last race)).2 [.last race (world.answer (.last race)).1] [] 0 :=
  ⟨rfl, by simp [answer, call, act, note], rfl, rfl⟩

theorem extends_publish (world : World σ) (event : Event) :
    world.Extends (world.answer (.publish event)).2 [] [event] 0 :=
  ⟨by simp [answer, call, act, note], rfl, rfl, rfl⟩

theorem extends_clock (world : World σ) : world.Extends (world.answer .clock).2 [] [] 0 :=
  ⟨by simp [answer, call, act, note], by simp [answer, call, act, note], rfl, rfl⟩

theorem extends_freshId (world : World σ) : world.Extends (world.answer .freshId).2 [] [] 1 :=
  ⟨by simp [answer, call, act, note], by simp [answer, call, act, note], rfl, rfl⟩

theorem reads_answer (world : World σ) (request : Request) :
    world.Reads (world.answer request).2 request.reads := by
  cases request with
  | insert | upsert =>
      unfold answer call act
      dsimp only
      split <;> exact ⟨rfl, rfl⟩
  | last | publish | clock | freshId => exact ⟨rfl, rfl⟩

theorem store_insert (world : World σ) (race : Race) (samples : List Recorded) :
    (world.answer (.insert race samples)).2.store =
      if world.fails (.insert race samples) then world.store
      else (Store.insertSamples world.store race samples).2 := by
  unfold answer call act
  dsimp only
  split <;> rfl

theorem store_upsert (world : World σ) (races : List Race) :
    (world.answer (.upsert races)).2.store =
      if world.fails (.upsert races) then world.store
      else (Store.upsertRaces world.store races).2 := by
  unfold answer call act
  dsimp only
  split <;> rfl

end World

/-! ## Single requests -/

namespace Script

variable {σ : Type} [Store σ]

@[simp] theorem run_upsert (races : List Race) (world : World σ) :
    (upsert races).run World.answer world = world.answer (.upsert races) := rfl

@[simp] theorem run_last (race : Uuid) (world : World σ) :
    (last race).run World.answer world = world.answer (.last race) := rfl

@[simp] theorem run_publish (event : Event) (world : World σ) :
    (publish event).run World.answer world = world.answer (.publish event) := rfl

@[simp] theorem run_clock (world : World σ) :
    clock.run World.answer world = world.answer .clock := rfl

end Script

/-! ## Flushing -/

namespace Session

/-- The race with the aggregates of the last sample in the buffer, if there is one. -/
def refreshed (session : Session) (race : Race) : Race :=
  (session.buffer.getLast?.map fun last => race.update last.sample).getD race

/-- The session that a flush leaves behind. -/
def flushed (session : Session) : Session :=
  { session with race := session.race.map session.refreshed, buffer := [] }

/-- The calls that a flush makes to the store. -/
def flushCalls (session : Session) : List Call :=
  match session.buffer.getLast?, session.race with
  | some _, some race =>
    [.upsert [session.refreshed race], .insert (session.refreshed race) session.buffer]
  | _, _ => []

@[simp] theorem id_refreshed (session : Session) (race : Race) :
    (session.refreshed race).id = race.id := by
  unfold refreshed
  cases session.buffer.getLast? <;> rfl

end Session

/-! ## Moves -/

/-- How a race ends, given what the store answered when it was asked for the last sample. -/
inductive Race.Ends (race : Race) : Except StorageError Recorded → Race → Prop where
  | withLast (last : Recorded) : race.Ends (.ok last) (race.finish last)
  | asItIs (error : StorageError) (now : Timestamp) : race.Ends (.error error) (race.finishAt now)

namespace Session

/-- How a session makes ready for an accepted sample: the calls and events on the way, how many
identifiers are taken, and the session with the race that the sample belongs to. The next
identifier of the supply is `id`. -/
inductive Entry (id : Uuid) (sample : Sample) (session : Session) :
    List Call → List Event → Nat → Session → Prop where
  | opens (now : Timestamp) (hrace : session.race = none) :
      Entry id sample session [.upsert [Race.start sample session.id id now]]
        [⟨.started, Race.start sample session.id id now⟩] 1
        { session with race := some (Race.start sample session.id id now) }
  | crosses (race current ended : Race) (result : Except StorageError Recorded) (now : Timestamp)
      (hrace : session.race = some race) (hnew : race.isNewRace sample = true)
      (hcurrent : session.flushed.race = some current) (hends : current.Ends result ended) :
      Entry id sample session
        (session.flushCalls ++
          [.last current.id result, .upsert [ended, Race.start sample session.id id now]])
        [⟨.finished, ended⟩, ⟨.started, Race.start sample session.id id now⟩] 1
        { session.flushed with race := some (Race.start sample session.id id now) }
  | resumes (race : Race) (hrace : session.race = some race) (hold : race.isNewRace sample = false)
      (hpaused : race.paused = true) :
      Entry id sample session [.upsert [{ race with paused := false }]]
        [⟨.resumed, { race with paused := false }⟩] 0
        { session with race := some { race with paused := false } }
  | continues (race : Race) (hrace : session.race = some race)
      (hold : race.isNewRace sample = false) (hpaused : race.paused = false) :
      Entry id sample session [] [] 0 session

/-- The session once a sample was recorded for its race. -/
def recorded (session : Session) (sample : Sample) (race : Race) (now : Timestamp) : Session :=
  { session with
    buffer := session.buffer ++ [⟨sample, race.id, now⟩]
    race := some { race with raceTime := sample.currentRaceTime }
    grown := session.grown || decide (session.capacity < (session.buffer ++
      [(⟨sample, race.id, now⟩ : Recorded)]).length) }

/-- The moves of a session. The next identifier of the supply is `id`. -/
inductive Move (id : Uuid) (session : Session) :
    Operation → List Call → List Event → Nat → Session → Prop where
  | staysOff (sample : Sample) (hoff : sample.onTrack = false)
      (hidle : ∀ race, session.race = some race → race.paused = true) :
      Move id session (.add sample) [] [] 0 session
  | pauses (sample : Sample) (hoff : sample.onTrack = false) (race current : Race)
      (hrace : session.race = some race) (hrunning : race.paused = false)
      (hcurrent : session.flushed.race = some current) :
      Move id session (.add sample)
        (session.flushCalls ++ [.upsert [{ current with paused := true }]])
        [⟨.paused, { current with paused := true }⟩] 0
        { session.flushed with race := some { current with paused := true } }
  | waitsOnGrid (sample : Sample) (hon : sample.onTrack = true)
      (hgrid : sample.currentLap.isZero = true) :
      Move id session (.add sample) [] [] 0 session
  | accepts (sample : Sample) (haccepts : Session.accepts sample = true) (calls : List Call)
      (events : List Event) (taken : Nat) (ready : Session) (race : Race) (now : Timestamp)
      (hentry : session.Entry id sample calls events taken ready)
      (hrace : ready.race = some race) :
      Move id session (.add sample) calls events taken (ready.recorded sample race now)
  | flushes : Move id session .checkpoint session.flushCalls [] 0 session.flushed
  | closesIdle (hrace : session.race = none) : Move id session .close [] [] 0 session
  | closes (race ended : Race) (result : Except StorageError Recorded)
      (hcurrent : session.flushed.race = some race) (hends : race.Ends result ended) :
      Move id session .close (session.flushCalls ++ [.last race.id result, .upsert [ended]])
        [⟨.finished, ended⟩] 0 { session.flushed with race := none }

end Session

/-- What a script does in a world: the calls and events that the world records meanwhile, the
number of identifiers that are taken, and the result, are related by `P`. -/
def Script.Yields {σ α : Type} [Store σ] (script : Script α) (world : World σ)
    (P : List Call → List Event → Nat → α → Prop) : Prop :=
  ∃ calls events taken, P calls events taken (script.run World.answer world).1 ∧
    world.Extends (script.run World.answer world).2 calls events taken

namespace Session

variable {σ : Type} [Store σ]

/-- A flush makes its calls and leaves the flushed session, whatever the store answers. -/
theorem run_checkpoint (session : Session) (world : World σ) :
    ∃ world', session.checkpoint.run World.answer world = (session.flushed, world') ∧
      world.Extends world' session.flushCalls [] 0 := by
  obtain ⟨id, race, buffer, capacity, grown⟩ := session
  unfold checkpoint flushed flushCalls refreshed
  dsimp only
  cases hlast : buffer.getLast? with
  | none =>
      rw [List.getLast?_eq_none_iff.mp hlast]
      refine ⟨world, ?_, .refl world⟩
      cases race <;> rfl
  | some last =>
      cases race with
      | none => exact ⟨world, rfl, .refl world⟩
      | some race =>
          refine ⟨_, rfl, ?_⟩
          exact (World.extends_upsert world _).trans (World.extends_insert _ _ _)

/-- Ending a race asks for its last sample, and nothing else that is recorded. -/
theorem run_finished (race : Race) (world : World σ) :
    ∃ result ended world', (finished race).run World.answer world = (ended, world') ∧
      race.Ends result ended ∧ world.Extends world' [.last race.id result] [] 0 := by
  have hworld := World.extends_last world race.id
  unfold finished
  simp only [Script.run_bind, Script.run_last]
  cases hresult : (world.answer (.last race.id)).1 with
  | ok last =>
      rw [hresult] at hworld
      exact ⟨.ok last, _, _, rfl, .withLast last, hworld⟩
  | error error =>
      rw [hresult] at hworld
      exact ⟨.error error, _, _, rfl, .asItIs error _, hworld.trans (World.extends_clock _)⟩

/-- A race that starts takes the next identifier of the supply. -/
theorem run_startRace (session : Session) (sample : Sample) (world : World σ) :
    ∃ now world', (session.startRace sample).run World.answer world =
        (Race.start sample session.id (world.ids world.issued) now, world') ∧
      world.Extends world' [] [] 1 :=
  ⟨_, _, rfl, (World.extends_freshId world).trans (World.extends_clock _)⟩

/-! ## Every operation is a move -/

theorem yields_openRace (session : Session) (sample : Sample) (world : World σ)
    (hrace : session.race = none) :
    (session.openRace sample).Yields world (session.Entry (world.ids world.issued) sample) := by
  obtain ⟨now, afterStart, hstart, hstarted⟩ := session.run_startRace sample world
  unfold openRace Script.Yields
  simp only [Script.run_bind, hstart, Script.run_upsert, Script.run_publish]
  refine ⟨_, _, _, .opens now hrace, ?_⟩
  exact hstarted.trans ((World.extends_upsert _ _).trans (World.extends_publish _ _))

theorem yields_nextRace (session : Session) (sample : Sample) (world : World σ) (race : Race)
    (hrace : session.race = some race) (hnew : race.isNewRace sample = true) :
    (session.nextRace sample).Yields world (session.Entry (world.ids world.issued) sample) := by
  have hcurrent : session.flushed.race = some (session.refreshed race) := by
    simp [Session.flushed, hrace]
  obtain ⟨afterFlush, hflush, hflushed⟩ := session.run_checkpoint world
  obtain ⟨result, ended, afterEnd, hask, hends, hasked⟩ :=
    run_finished (session.refreshed race) afterFlush
  obtain ⟨now, afterStart, hstart, hstarted⟩ := session.flushed.run_startRace sample afterEnd
  -- neither the flush nor the question for the last sample takes an identifier
  have hid : afterEnd.ids afterEnd.issued = world.ids world.issued := by
    rw [hasked.ids_eq, hasked.issued_eq, hflushed.ids_eq, hflushed.issued_eq]
    rfl
  unfold nextRace Script.Yields
  simp only [Script.run_bind, hflush, hcurrent, hask, hstart, Script.run_upsert,
    Script.run_publish, hid]
  refine ⟨_, _, _, .crosses race _ ended result now hrace hnew hcurrent hends, ?_⟩
  exact hflushed.trans (hasked.trans (hstarted.trans ((World.extends_upsert _ _).trans
    ((World.extends_publish _ _).trans (World.extends_publish _ _)))))

theorem yields_enter (session : Session) (sample : Sample) (world : World σ) :
    (session.enter sample).Yields world (session.Entry (world.ids world.issued) sample) := by
  unfold enter
  cases hrace : session.race with
  | none => exact session.yields_openRace sample world hrace
  | some race =>
      by_cases hnew : race.isNewRace sample = true
      · simpa only [hnew, if_true] using session.yields_nextRace sample world race hrace hnew
      · have hold : race.isNewRace sample = false := by simpa using hnew
        by_cases hpaused : race.paused = true
        · simp only [hold, hpaused, if_true, Bool.false_eq_true, if_false, resume, hrace]
          refine ⟨_, _, _, .resumes race hrace hold hpaused, ?_⟩
          exact (World.extends_upsert world _).trans (World.extends_publish _ _)
        · simp only [hold, hpaused, Bool.false_eq_true, if_false]
          exact ⟨_, _, _, .continues race hrace hold (by simpa using hpaused), .refl world⟩

/-- An accepted sample always finds a race. -/
theorem Entry.exists_race {id : Uuid} {sample : Sample} {session ready : Session}
    {calls : List Call} {events : List Event} {taken : Nat}
    (h : session.Entry id sample calls events taken ready) : ∃ race, ready.race = some race := by
  cases h with
  | continues race hrace => exact ⟨race, hrace⟩
  | _ => exact ⟨_, rfl⟩

theorem yields_pause (session : Session) (sample : Sample) (world : World σ)
    (hoff : sample.onTrack = false) :
    session.pause.Yields world (session.Move (world.ids world.issued) (.add sample)) := by
  unfold pause
  cases hrace : session.race with
  | none => exact ⟨_, _, _, .staysOff sample hoff (by simp [hrace]), .refl world⟩
  | some race =>
      by_cases hpaused : race.paused = true
      · simp only [hpaused, if_true]
        refine ⟨_, _, _, .staysOff sample hoff ?_, .refl world⟩
        intro other hother
        rw [hrace, Option.some.injEq] at hother
        rw [← hother, hpaused]
      · have hcurrent : session.flushed.race = some (session.refreshed race) := by
          simp [Session.flushed, hrace]
        obtain ⟨afterFlush, hflush, hflushed⟩ := session.run_checkpoint world
        simp only [hpaused, Bool.false_eq_true, if_false]
        unfold Script.Yields
        simp only [Script.run_bind, hflush, hcurrent, Script.run_upsert, Script.run_publish]
        refine ⟨_, _, _, .pauses sample hoff race _ hrace (by simpa using hpaused) hcurrent, ?_⟩
        exact hflushed.trans ((World.extends_upsert _ _).trans (World.extends_publish _ _))

theorem yields_close (session : Session) (world : World σ) :
    session.close.Yields world (session.Move (world.ids world.issued) .close) := by
  unfold close
  cases hrace : session.race with
  | none => exact ⟨_, _, _, .closesIdle hrace, .refl world⟩
  | some race =>
      have hcurrent : session.flushed.race = some (session.refreshed race) := by
        simp [Session.flushed, hrace]
      obtain ⟨afterFlush, hflush, hflushed⟩ := session.run_checkpoint world
      obtain ⟨result, ended, afterEnd, hask, hends, hasked⟩ :=
        run_finished (session.refreshed race) afterFlush
      unfold Script.Yields
      simp only [Script.run_bind, hflush, hcurrent, hask, Script.run_upsert, Script.run_publish]
      refine ⟨_, _, _, .closes _ ended result hcurrent hends, ?_⟩
      exact hflushed.trans (hasked.trans ((World.extends_upsert _ _).trans
        (World.extends_publish _ _)))

/-- Every operation on a session is one of its moves, and the world records what the move says. -/
theorem yields_operation (operation : Operation) (session : Session) (world : World σ) :
    (operation.script session).Yields world (session.Move (world.ids world.issued) operation) := by
  cases operation with
  | checkpoint =>
      obtain ⟨world', hrun, hextends⟩ := session.run_checkpoint world
      unfold Script.Yields
      simp only [Operation.script, hrun]
      exact ⟨_, _, _, .flushes, hextends⟩
  | close => exact session.yields_close world
  | add sample =>
      simp only [Operation.script, add]
      by_cases hon : sample.onTrack = true
      · by_cases hgrid : sample.currentLap.isZero = true
        · simp only [hon, hgrid, Bool.not_true, Bool.false_eq_true, if_false, if_true]
          exact ⟨_, _, _, .waitsOnGrid sample hon hgrid, .refl world⟩
        · have haccepts : accepts sample = true := by simp [accepts, hon, hgrid]
          obtain ⟨calls, events, taken, hentry, hextends⟩ := session.yields_enter sample world
          obtain ⟨race, hrace⟩ := hentry.exists_race
          simp only [hon, hgrid, Bool.not_true, Bool.false_eq_true, if_false]
          unfold Script.Yields
          simp only [Script.run_bind, record, hrace]
          refine ⟨calls, events, taken, ?_, ?_⟩
          · exact .accepts sample haccepts calls events taken _ race _ hentry hrace
          · simpa using hextends.trans (World.extends_clock _)
      · have hoff : sample.onTrack = false := by simpa using hon
        simp only [hoff, Bool.not_false, if_true]
        exact session.yields_pause sample world hoff

end Session

end RaceIngest
