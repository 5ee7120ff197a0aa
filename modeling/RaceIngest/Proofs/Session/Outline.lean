import RaceIngest.Proofs.Session.Filing
import RaceIngest.Store.Memory

/-!
# What storage failures cannot change

A session consults its store for every flush, every change of a race and every finish, and goes on
whatever the answer is. This module compares two runs of the same operations against two stores,
with two patterns of failures and two clocks.

The runs are compared by their *outlines*. The outline of a race drops the moments that were read
from a clock, and keeps whether there is a finish; the outline of a race that is no longer in
progress drops its aggregates too, because those are the one thing that a store is asked for. What
a session holds, what it asks its store for and what it publishes have the same outlines in both
runs. In particular the aggregates of a race that goes on never differ, although a checkpoint
writes them after every failure as well.

That the difference stays confined to finished races needs no invariant: a move finishes a race
only to drop it, and what it keeps is a function of the outline of the session (`outline_flushed`,
`outline_recorded`).

## Main results

* `Session.Move.outline_eq`: moves of sessions with one outline have one outline.
* `outline_performAll`: the same for whole runs.
-/

namespace RaceIngest

open Calendar

/-! ## Outlines -/

/-- A race without the moments that were read from a clock; whether it has a finish stays. -/
def Race.untimed (race : Race) : Race :=
  { race with startedAt := default, finishedAt := race.finishedAt.map fun _ => default }

/-- A race without the moments that were read from a clock and, once it is over, without its
aggregates. -/
def Race.outline (race : Race) : Race :=
  if race.inProgress then race.untimed
  else
    { race.untimed with
      bestLap := .zero
      raceTime := .zero
      position := 0
      distanceTraveled := .zero }

/-- A recorded sample without the moment of its receipt. -/
def Recorded.untimed (recorded : Recorded) : Recorded := { recorded with createdAt := default }

/-- A call to a store without its answer, and with the outlines of its races. -/
def Call.outline : Call → Call
  | .upsert races => .upsert (races.map Race.outline)
  | .insert race samples => .insert race.outline (samples.map Recorded.untimed)
  | .last race _ => .last race (.error (.notFound race))

/-- An event with the outline of its race. -/
def Event.outline (event : Event) : Event := { event with race := event.race.outline }

/-- A session without the moments that were read from a clock. -/
def Session.outline (session : Session) : Session :=
  { session with
    race := session.race.map Race.untimed
    buffer := session.buffer.map Recorded.untimed }

namespace Race

theorem outline_untimed (race : Race) : race.untimed.outline = race.outline := by
  unfold outline untimed
  cases race.finishedAt <;> rfl

theorem outline_eq {race race' : Race} (h : race.untimed = race'.untimed) :
    race.outline = race'.outline := by
  rw [← race.outline_untimed, ← race'.outline_untimed, h]

theorem untimed_eq_iff_id {race race' : Race} (h : race.untimed = race'.untimed) :
    race.id = race'.id :=
  congrArg (·.id) h

theorem untimed_start {sessionId sessionId' : Uuid} (h : sessionId = sessionId') (sample : Sample)
    (id : Uuid) (now now' : Timestamp) :
    (start sample sessionId id now).untimed = (start sample sessionId' id now').untimed := by
  rw [h]
  rfl

theorem untimed_setPaused {race race' : Race} (h : race.untimed = race'.untimed)
    (paused : Bool) :
    ({ race with paused } : Race).untimed = ({ race' with paused } : Race).untimed :=
  congrArg (fun race => { race with paused }) h

/-- A boundary is found by the clock of the race, not by that of the machine. -/
theorem isNewRace_eq {race race' : Race} (h : race.untimed = race'.untimed) (sample : Sample) :
    race.isNewRace sample = race'.isNewRace sample := by
  have hclock : race.raceTime = race'.raceTime := congrArg (·.raceTime) h
  rw [isNewRace, isNewRace, hclock]

/-- However the two stores answer, a race ends in the same outline. -/
theorem Ends.outline_eq {race race' ended ended' : Race} {result result'}
    (h : race.Ends result ended) (h' : race'.Ends result' ended')
    (hrace : race.untimed = race'.untimed) : ended.outline = ended'.outline := by
  obtain ⟨id, sessionId, paused, inProgress, startedAt, finishedAt, car, carClass, index, track,
    bestLap, raceTime, position, distance⟩ := race
  obtain ⟨id', sessionId', paused', inProgress', startedAt', finishedAt', car', carClass', index',
    track', bestLap', raceTime', position', distance'⟩ := race'
  simp only [untimed, mk.injEq] at hrace
  obtain ⟨rfl, rfl, rfl, rfl, -, -, rfl, rfl, rfl, rfl, -, -, -, -⟩ := hrace
  cases h <;> cases h' <;> rfl

end Race

namespace Session

theorem exists_race_of_outline_eq {session session' : Session}
    (h : session.outline = session'.outline) {race : Race} (hrace : session.race = some race) :
    ∃ race', session'.race = some race' ∧ race.untimed = race'.untimed := by
  have hmap : session.race.map Race.untimed = session'.race.map Race.untimed :=
    congrArg Session.race h
  rw [hrace, Option.map_some] at hmap
  obtain ⟨race', hrace', heq⟩ := Option.map_eq_some_iff.mp hmap.symm
  exact ⟨race', hrace', heq.symm⟩

theorem race_eq_none_of_outline_eq {session session' : Session}
    (h : session.outline = session'.outline) (hrace : session.race = none) :
    session'.race = none := by
  have hmap : session.race.map Race.untimed = session'.race.map Race.untimed :=
    congrArg Session.race h
  rw [hrace, Option.map_none] at hmap
  exact Option.map_eq_none_iff.mp hmap.symm

theorem id_eq_of_outline_eq {session session' : Session}
    (h : session.outline = session'.outline) : session.id = session'.id :=
  congrArg (·.id) h

/-! ## What a session keeps is a function of its outline -/

theorem untimed_refreshed (session : Session) (race : Race) :
    (session.refreshed race).untimed = session.outline.refreshed race.untimed := by
  unfold refreshed outline
  rw [List.getLast?_map]
  cases session.buffer.getLast? <;> rfl

theorem outline_flushed (session : Session) :
    session.flushed.outline = session.outline.flushed := by
  unfold flushed outline
  simp only [Option.map_map, List.map_nil]
  congr 2
  funext race
  exact session.untimed_refreshed race

theorem outline_recorded (session : Session) (sample : Sample) (race : Race) (now : Timestamp) :
    (session.recorded sample race now).outline =
      session.outline.recorded sample race.untimed default := by
  simp [recorded, outline, Race.untimed, Recorded.untimed]

/-- The calls of a flush are those of the outline of the session. -/
theorem outline_flushCalls (session : Session) :
    session.flushCalls.map Call.outline = session.outline.flushCalls.map Call.outline := by
  have hlast : session.outline.buffer.getLast? =
      session.buffer.getLast?.map Recorded.untimed := List.getLast?_map
  have huntimed : session.outline.buffer.map Recorded.untimed =
      session.buffer.map Recorded.untimed := by
    simp [outline, Recorded.untimed]
  unfold flushCalls
  rw [hlast]
  cases session.buffer.getLast? with
  | none => rfl
  | some last =>
      cases hrace : session.race with
      | none => simp [outline, hrace]
      | some race =>
          have hrefreshed : (session.outline.refreshed race.untimed).outline =
              (session.refreshed race).outline := by
            rw [← session.untimed_refreshed, Race.outline_untimed]
          have hsome : session.outline.race = some race.untimed := by simp [outline, hrace]
          simp [hsome, Call.outline, hrefreshed, huntimed]

theorem flushed_outline_eq {session session' : Session}
    (h : session.outline = session'.outline) :
    session.flushed.outline = session'.flushed.outline := by
  rw [outline_flushed, outline_flushed, h]

theorem flushCalls_outline_eq {session session' : Session}
    (h : session.outline = session'.outline) :
    session.flushCalls.map Call.outline = session'.flushCalls.map Call.outline := by
  rw [outline_flushCalls, session'.outline_flushCalls, h]

theorem setRace_outline_eq {session session' : Session} (h : session.outline = session'.outline)
    {race race' : Option Race} (hrace : race.map Race.untimed = race'.map Race.untimed) :
    ({ session with race } : Session).outline = ({ session' with race := race' } : Session).outline := by
  have hset := congrArg (fun session : Session => { session with race := race.map Race.untimed }) h
  simp only [outline] at hset ⊢
  rw [hset, hrace]

/-! ## Two moves of one outline -/

/-- Two sessions with one outline make ready for a sample in the same way. -/
theorem Entry.outline_eq {id : Uuid} {sample : Sample} {session session' ready ready' : Session}
    {calls calls' : List Call} {events events' : List Event} {taken taken' : Nat}
    (h : session.Entry id sample calls events taken ready)
    (h' : session'.Entry id sample calls' events' taken' ready')
    (hsession : session.outline = session'.outline) :
    ready.outline = ready'.outline ∧ calls.map Call.outline = calls'.map Call.outline ∧
      events.map Event.outline = events'.map Event.outline ∧ taken = taken' := by
  have hid := id_eq_of_outline_eq hsession
  cases h with
  | opens now hrace =>
      have hrace' := race_eq_none_of_outline_eq hsession hrace
      cases h' with
      | opens now' =>
          have hstart := Race.untimed_start hid sample id now now'
          have houtline := Race.outline_eq hstart
          refine ⟨setRace_outline_eq hsession ?_, ?_, ?_, rfl⟩
          · simp [hstart]
          · simp [Call.outline, houtline]
          · simp [Event.outline, houtline]
      | _ => simp_all
  | crosses race current ended result now hrace hnew hcurrent hends =>
      obtain ⟨race', hrace', huntimed⟩ := exists_race_of_outline_eq hsession hrace
      have hnew' := Race.isNewRace_eq huntimed sample
      cases h' with
      | crosses _ current' ended' result' now' _ _ hcurrent' hends' =>
          have hflushed := flushed_outline_eq hsession
          obtain ⟨found, hfound, hsame⟩ := exists_race_of_outline_eq hflushed hcurrent
          rw [hcurrent', Option.some.injEq] at hfound
          rw [← hfound] at hsame
          have hended := hends.outline_eq hends' hsame
          have hstart := Race.untimed_start hid sample id now now'
          have houtline := Race.outline_eq hstart
          refine ⟨setRace_outline_eq hflushed ?_, ?_, ?_, rfl⟩
          · simp [hstart]
          · rw [List.map_append, List.map_append, flushCalls_outline_eq hsession]
            simp [Call.outline, hended, houtline, Race.untimed_eq_iff_id hsame]
          · simp [Event.outline, hended, houtline]
      | _ => simp_all
  | resumes race hrace hold hpaused =>
      obtain ⟨race', hrace', huntimed⟩ := exists_race_of_outline_eq hsession hrace
      have hnew' := Race.isNewRace_eq huntimed sample
      have hpaused' : race.paused = race'.paused := congrArg (·.paused) huntimed
      cases h' with
      | resumes other hother =>
          rw [hrace', Option.some.injEq] at hother
          rw [← hother]
          have hset := Race.untimed_setPaused huntimed false
          have houtline := Race.outline_eq hset
          refine ⟨setRace_outline_eq hsession ?_, ?_, ?_, rfl⟩
          · simp [hset]
          · simp [Call.outline, houtline]
          · simp [Event.outline, houtline]
      | _ => simp_all
  | continues race hrace hold hpaused =>
      obtain ⟨race', hrace', huntimed⟩ := exists_race_of_outline_eq hsession hrace
      have hnew' := Race.isNewRace_eq huntimed sample
      have hpaused' : race.paused = race'.paused := congrArg (·.paused) huntimed
      cases h' with
      | continues => exact ⟨hsession, rfl, rfl, rfl⟩
      | _ => simp_all

/-- Two sessions with one outline do the same, up to clocks and to the aggregates of races that
end. -/
theorem Move.outline_eq {id : Uuid} {session session' after after' : Session}
    {operation : Operation} {calls calls' : List Call} {events events' : List Event}
    {taken taken' : Nat} (h : session.Move id operation calls events taken after)
    (h' : session'.Move id operation calls' events' taken' after')
    (hsession : session.outline = session'.outline) :
    after.outline = after'.outline ∧ calls.map Call.outline = calls'.map Call.outline ∧
      events.map Event.outline = events'.map Event.outline ∧ taken = taken' := by
  have hflushed := flushed_outline_eq hsession
  have hflushCalls := flushCalls_outline_eq hsession
  cases h with
  | flushes =>
      cases h' with
      | flushes => exact ⟨hflushed, hflushCalls, rfl, rfl⟩
  | closesIdle hrace =>
      have hrace' := race_eq_none_of_outline_eq hsession hrace
      cases h' with
      | closesIdle => exact ⟨hsession, rfl, rfl, rfl⟩
      | closes _ _ _ hcurrent' => simp [flushed, hrace'] at hcurrent'
  | closes race ended result hcurrent hends =>
      obtain ⟨race', hcurrent', huntimed⟩ := exists_race_of_outline_eq hflushed hcurrent
      cases h' with
      | closesIdle hrace' => simp [flushed, hrace'] at hcurrent'
      | closes other ended' result' hother hends' =>
          rw [hcurrent', Option.some.injEq] at hother
          rw [← hother] at hends' ⊢
          have hended := hends.outline_eq hends' huntimed
          refine ⟨setRace_outline_eq hflushed rfl, ?_, ?_, rfl⟩
          · rw [List.map_append, List.map_append, hflushCalls]
            simp [Call.outline, hended, Race.untimed_eq_iff_id huntimed]
          · simp [Event.outline, hended]
  | staysOff sample hoff hidle =>
      cases h' with
      | staysOff => exact ⟨hsession, rfl, rfl, rfl⟩
      | pauses _ _ race' _ hrace' hrunning' =>
          obtain ⟨race, hrace, huntimed⟩ := exists_race_of_outline_eq hsession.symm hrace'
          have hpaused : race'.paused = race.paused := congrArg (·.paused) huntimed
          simp [hidle race hrace, hrunning'] at hpaused
      | _ => simp_all [Session.accepts]
  | pauses sample hoff race current hrace hrunning hcurrent =>
      obtain ⟨race', hrace', huntimed⟩ := exists_race_of_outline_eq hsession hrace
      obtain ⟨found, hfound, hsame⟩ := exists_race_of_outline_eq hflushed hcurrent
      cases h' with
      | staysOff _ _ hidle' =>
          have hpaused : race.paused = race'.paused := congrArg (·.paused) huntimed
          simp [hidle' race' hrace', hrunning] at hpaused
      | pauses _ _ _ current' _ _ hcurrent' =>
          rw [hcurrent', Option.some.injEq] at hfound
          rw [← hfound] at hsame
          have hset := Race.untimed_setPaused hsame true
          have houtline := Race.outline_eq hset
          refine ⟨setRace_outline_eq hflushed ?_, ?_, ?_, rfl⟩
          · simp [hset]
          · rw [List.map_append, List.map_append, hflushCalls]
            simp [Call.outline, houtline]
          · simp [Event.outline, houtline]
      | _ => simp_all [Session.accepts]
  | waitsOnGrid sample hon hgrid =>
      cases h' with
      | waitsOnGrid => exact ⟨hsession, rfl, rfl, rfl⟩
      | _ => simp_all [Session.accepts]
  | accepts sample haccepts _ _ _ ready race now hentry hrace =>
      cases h' with
      | accepts _ _ _ _ _ ready' race' now' hentry' hrace' =>
          obtain ⟨hready, hcalls, hevents, htaken⟩ := hentry.outline_eq hentry' hsession
          obtain ⟨found, hfound, huntimed⟩ := exists_race_of_outline_eq hready hrace
          rw [hrace', Option.some.injEq] at hfound
          rw [← hfound] at huntimed
          refine ⟨?_, hcalls, hevents, htaken⟩
          rw [outline_recorded, outline_recorded, hready, huntimed]
      | _ => simp_all [Session.accepts]

end Session

/-! ## Two runs -/

section Runs

variable {σ τ : Type} [Store σ] [Store τ]

/-- Two runs of the same operations that have one outline so far, with one supply of
identifiers. -/
structure World.Parallel (state : Session × World σ) (state' : Session × World τ) : Prop where
  session_eq : state.1.outline = state'.1.outline
  calls_eq : state.2.calls.map Call.outline = state'.2.calls.map Call.outline
  events_eq : state.2.events.map Event.outline = state'.2.events.map Event.outline
  ids_eq : state.2.ids = state'.2.ids
  issued_eq : state.2.issued = state'.2.issued

theorem World.Parallel.perform {state : Session × World σ} {state' : Session × World τ}
    (h : World.Parallel state state') (operation : Operation) :
    World.Parallel (World.perform operation state) (World.perform operation state') := by
  obtain ⟨calls, events, taken, hmove, hextends⟩ := World.exists_move operation state.1 state.2
  obtain ⟨calls', events', taken', hmove', hextends'⟩ :=
    World.exists_move operation state'.1 state'.2
  rw [← h.ids_eq, ← h.issued_eq] at hmove'
  obtain ⟨hafter, hcalls, hevents, htaken⟩ := hmove.outline_eq hmove' h.session_eq
  refine ⟨hafter, ?_, ?_, ?_, ?_⟩
  · rw [hextends.calls_eq, hextends'.calls_eq, List.map_append, List.map_append, h.calls_eq,
      hcalls]
  · rw [hextends.events_eq, hextends'.events_eq, List.map_append, List.map_append, h.events_eq,
      hevents]
  · rw [hextends.ids_eq, hextends'.ids_eq, h.ids_eq]
  · rw [hextends.issued_eq, hextends'.issued_eq, h.issued_eq, htaken]

theorem World.Parallel.performAll {state : Session × World σ} {state' : Session × World τ}
    (h : World.Parallel state state') (operations : List Operation) :
    World.Parallel (World.performAll operations state) (World.performAll operations state') := by
  induction operations generalizing state state' with
  | nil => exact h
  | cons operation operations ih => exact ih (h.perform operation)

/-- What a session holds, what it asks its store for and what it publishes do not depend on the
store. Two runs of the same operations with the same supply of identifiers, against any two stores,
with any two patterns of failures and any two clocks, agree at every point on the open race and the
buffered samples, on the calls and on the events: up to the moments read from the clocks, the
answers of the stores, and the aggregates of races that were finished, in the calls and events that
finish them. -/
theorem outline_performAll (store : σ) (store' : τ) (outage outage' : Outage)
    (readings readings' : Nat → Timestamp) (ids : Nat → Uuid) (id : Uuid) (capacity : Nat)
    (operations : List Operation) :
    let final := World.performAll operations
      (Session.fresh id capacity, World.fresh store outage readings ids)
    let final' := World.performAll operations
      (Session.fresh id capacity, World.fresh store' outage' readings' ids)
    final.1.outline = final'.1.outline ∧
      final.2.calls.map Call.outline = final'.2.calls.map Call.outline ∧
      final.2.events.map Event.outline = final'.2.events.map Event.outline := by
  intro final final'
  have hstart : World.Parallel (Session.fresh id capacity, World.fresh store outage readings ids)
      (Session.fresh id capacity, World.fresh store' outage' readings' ids) :=
    ⟨rfl, rfl, rfl, rfl, rfl⟩
  have hfinal := hstart.performAll operations
  exact ⟨hfinal.session_eq, hfinal.calls_eq, hfinal.events_eq⟩

end Runs

end RaceIngest
