import RaceIngest.Session.Script

/-!
# Sessions

A `Session` turns the samples of one endpoint into races. It holds the race that is open, if any,
and the samples received since the last flush.

* A sample off the track pauses the open race.
* A sample on the track with a lap clock of zero (grid and formation) changes nothing.
* Any other sample is accepted: it opens a race when none is open, starts the next race when it
  lies beyond a race boundary (`Race.isNewRace`), resumes a paused race, and is then recorded for
  the race that is open.

A `checkpoint` flushes the samples and the aggregates of the race; `close` flushes and finishes the
race. Before a race is paused or finished it is flushed as well.

Whether the store accepted a write never changes what a session does next: a flush empties the
buffer in any case, so memory stays bounded while storage is down, and the race in memory goes on.
The only answer of the store that is used is the last stored sample of a race that ends, which
gives it its final aggregates.
-/

namespace RaceIngest

/-- The state of the sessions of one endpoint. -/
structure Session where
  id : Uuid
  /-- The open race. -/
  race : Option Race := none
  /-- The samples received since the last flush, the last received at the end. -/
  buffer : List Recorded := []
  /-- How many samples the buffer holds without growing. -/
  capacity : Nat := 350
  /-- Whether the buffer ever had to grow. -/
  grown : Bool := false
  deriving DecidableEq, Inhabited

namespace Session

/-- Closes a race with the aggregates of its last stored sample, or as it is when that cannot be
had. -/
def finished (race : Race) : Script Race := do
  match ← Script.last race.id with
  | .ok last => return race.finish last
  | .error _ => return race.finishAt (← Script.clock)

/-- Opens a race from the sample that starts it. -/
def startRace (session : Session) (sample : Sample) : Script Race := do
  let id ← Script.freshId
  let now ← Script.clock
  return Race.start sample session.id id now

/-- Flushes the buffer, and with it the aggregates of the race. -/
def checkpoint (session : Session) : Script Session := do
  match session.buffer.getLast?, session.race with
  | none, _ => return session
  | some _, none => return { session with buffer := [] }
  | some last, some race =>
    let race := race.update last.sample
    let _ ← Script.upsert [race]
    let _ ← Script.insert race session.buffer
    return { session with race := some race, buffer := [] }

/-- Opens the first race of a session, or the first after a close. -/
def openRace (session : Session) (sample : Sample) : Script Session := do
  let race ← session.startRace sample
  let _ ← Script.upsert [race]
  Script.publish ⟨.started, race⟩
  return { session with race := some race }

/-- Finishes the open race and opens the next. -/
def nextRace (session : Session) (sample : Sample) : Script Session := do
  let session ← session.checkpoint
  match session.race with
  | none => return session
  | some current =>
    let ended ← finished current
    let next ← session.startRace sample
    let _ ← Script.upsert [ended, next]
    Script.publish ⟨.finished, ended⟩
    Script.publish ⟨.started, next⟩
    return { session with race := some next }

/-- Pauses the open race. -/
def pause (session : Session) : Script Session := do
  match session.race with
  | none => return session
  | some race =>
    if race.paused then return session
    let session ← session.checkpoint
    match session.race with
    | none => return session
    | some race =>
      let race := { race with paused := true }
      let _ ← Script.upsert [race]
      Script.publish ⟨.paused, race⟩
      return { session with race := some race }

/-- Resumes the open race. -/
def resume (session : Session) : Script Session := do
  match session.race with
  | none => return session
  | some race =>
    let race := { race with paused := false }
    let _ ← Script.upsert [race]
    Script.publish ⟨.resumed, race⟩
    return { session with race := some race }

/-- Records a sample for the open race and moves the race clock to it. -/
def record (session : Session) (sample : Sample) : Script Session := do
  match session.race with
  | none => return session
  | some race =>
    let now ← Script.clock
    let buffer := session.buffer ++ [⟨sample, race.id, now⟩]
    return { session with
      buffer := buffer
      race := some { race with raceTime := sample.currentRaceTime }
      grown := session.grown || decide (session.capacity < buffer.length) }

/-- Opens, replaces or resumes the race that an accepted sample belongs to. -/
def enter (session : Session) (sample : Sample) : Script Session :=
  match session.race with
  | none => session.openRace sample
  | some race =>
    if race.isNewRace sample then session.nextRace sample
    else if race.paused then session.resume
    else return session

/-- Whether a sample is recorded: the car is on a track and the lap clock runs. -/
def accepts (sample : Sample) : Bool := sample.onTrack && !sample.currentLap.isZero

/-- Takes one sample. -/
def add (session : Session) (sample : Sample) : Script Session :=
  if !sample.onTrack then session.pause
  else if sample.currentLap.isZero then return session
  else do
    let session ← session.enter sample
    session.record sample

/-- Flushes and finishes the open race. -/
def close (session : Session) : Script Session := do
  match session.race with
  | none => return session
  | some _ =>
    let session ← session.checkpoint
    match session.race with
    | none => return session
    | some race =>
      let ended ← finished race
      let _ ← Script.upsert [ended]
      Script.publish ⟨.finished, ended⟩
      return { session with race := none }

end Session

end RaceIngest
