import RaceIngest.Proofs.Session.Filing

/-!
# Branches that no session takes

A flush that finds samples but no race throws the samples away, and the three operations that flush
on their way, a race boundary, a pause and a close, return early when no race is left after the
flush. These branches are there because the race is looked up again, not because it could be
missing.

That a branch is never taken is said by putting something else in its place: `Detours` has a script
for every one of them, `Operation.scriptVia` is the script of an operation with those in place of the
branches as they are, and `Session.Coherent.scriptVia_eq` says that in a coherent session nobody
sees the difference, whatever the detours do and whatever the surroundings answer.

## Main results

* `Operation.scriptVia_asWritten`: with the branches as they are, nothing was changed.
* `Session.checkpoint_bind_congr`: a flush of an open race leaves a race that is open.
* `Session.Coherent.scriptVia_eq`: no operation on a coherent session takes a detour.
-/

namespace RaceIngest

namespace Session

/-- What is done when a race is looked up and none is open. -/
structure Detours where
  /-- By a flush that has samples in the buffer. -/
  discard : Session → Script Session
  /-- At a race boundary, after the flush. -/
  boundary : Session → Script Session
  /-- In a pause, after the flush. -/
  pausing : Session → Script Session
  /-- In a close, after the flush. -/
  closing : Session → Script Session

/-- The branches as they are: a flush empties the buffer, and the others return early. -/
def Detours.asWritten : Detours where
  discard session := return { session with buffer := [] }
  boundary session := return session
  pausing session := return session
  closing session := return session

/-- `Session.checkpoint` with a detour. -/
def checkpointVia (detours : Detours) (session : Session) : Script Session := do
  match session.buffer.getLast?, session.race with
  | none, _ => return session
  | some _, none => detours.discard session
  | some last, some race =>
    let race := race.update last.sample
    let _ ← Script.upsert [race]
    let _ ← Script.insert race session.buffer
    return { session with race := some race, buffer := [] }

/-- `Session.nextRace` with detours. -/
def nextRaceVia (detours : Detours) (session : Session) (sample : Sample) : Script Session := do
  let session ← session.checkpointVia detours
  match session.race with
  | none => detours.boundary session
  | some current =>
    let ended ← finished current
    let next ← session.startRace sample
    let _ ← Script.upsert [ended, next]
    Script.publish ⟨.finished, ended⟩
    Script.publish ⟨.started, next⟩
    return { session with race := some next }

/-- `Session.pause` with detours. -/
def pauseVia (detours : Detours) (session : Session) : Script Session := do
  match session.race with
  | none => return session
  | some race =>
    if race.paused then return session
    let session ← session.checkpointVia detours
    match session.race with
    | none => detours.pausing session
    | some race =>
      let race := { race with paused := true }
      let _ ← Script.upsert [race]
      Script.publish ⟨.paused, race⟩
      return { session with race := some race }

/-- `Session.close` with detours. -/
def closeVia (detours : Detours) (session : Session) : Script Session := do
  match session.race with
  | none => return session
  | some _ =>
    let session ← session.checkpointVia detours
    match session.race with
    | none => detours.closing session
    | some race =>
      let ended ← finished race
      let _ ← Script.upsert [ended]
      Script.publish ⟨.finished, ended⟩
      return { session with race := none }

/-- `Session.enter` with detours. -/
def enterVia (detours : Detours) (session : Session) (sample : Sample) : Script Session :=
  match session.race with
  | none => session.openRace sample
  | some race =>
    if race.isNewRace sample then session.nextRaceVia detours sample
    else if race.paused then session.resume
    else return session

/-- `Session.add` with detours. -/
def addVia (detours : Detours) (session : Session) (sample : Sample) : Script Session :=
  if !sample.onTrack then session.pauseVia detours
  else if sample.currentLap.isZero then return session
  else do
    let session ← session.enterVia detours sample
    session.record sample

end Session

/-- The script of an operation with detours. -/
def Operation.scriptVia (detours : Session.Detours) (session : Session) :
    Operation → Script Session
  | .add sample => session.addVia detours sample
  | .checkpoint => session.checkpointVia detours
  | .close => session.closeVia detours

theorem Operation.scriptVia_asWritten (operation : Operation) (session : Session) :
    operation.scriptVia .asWritten session = operation.script session := by
  cases operation <;> rfl

namespace Session

variable {session : Session}

/-- A flush of an open race leaves a race that is open, so what follows the flush is never asked
what to do without one. -/
theorem checkpoint_bind_congr {α : Type} {race : Race} (hrace : session.race = some race)
    {next next' : Session → Script α}
    (hnext : ∀ (after : Session) (current : Race), after.race = some current →
      next after = next' after) :
    (session.checkpoint >>= next) = (session.checkpoint >>= next') := by
  unfold checkpoint
  rw [hrace]
  cases session.buffer.getLast? with
  | none => exact hnext session race hrace
  | some last =>
      -- both go on from the flushed session, after the same two requests
      have hflushed := hnext { session with race := some (race.update last.sample), buffer := [] }
        (race.update last.sample) rfl
      change (Script.ask _ fun _ => Script.ask _ fun _ => next _) =
        (Script.ask _ fun _ => Script.ask _ fun _ => next' _)
      rw [hflushed]

theorem Coherent.checkpointVia_eq (h : session.Coherent) (detours : Detours) :
    session.checkpointVia detours = session.checkpoint := by
  unfold checkpointVia checkpoint
  cases hlast : session.buffer.getLast? with
  | none => rfl
  | some last =>
      cases hrace : session.race with
      | none => simp [h.buffer_eq_nil hrace] at hlast
      | some race => rfl

theorem Coherent.nextRaceVia_eq (h : session.Coherent) (detours : Detours) {race : Race}
    (hrace : session.race = some race) (sample : Sample) :
    session.nextRaceVia detours sample = session.nextRace sample := by
  unfold nextRaceVia nextRace
  rw [h.checkpointVia_eq]
  refine checkpoint_bind_congr hrace fun after current hcurrent => ?_
  simp only [hcurrent]

theorem Coherent.pauseVia_eq (h : session.Coherent) (detours : Detours) :
    session.pauseVia detours = session.pause := by
  unfold pauseVia pause
  cases hrace : session.race with
  | none => rfl
  | some race =>
      rw [h.checkpointVia_eq]
      by_cases hpaused : race.paused = true
      · simp only [hpaused, if_true]
      · simp only [hpaused, Bool.false_eq_true, if_false]
        refine checkpoint_bind_congr hrace fun after current hcurrent => ?_
        simp only [hcurrent]

theorem Coherent.closeVia_eq (h : session.Coherent) (detours : Detours) :
    session.closeVia detours = session.close := by
  unfold closeVia close
  cases hrace : session.race with
  | none => rfl
  | some race =>
      rw [h.checkpointVia_eq]
      refine checkpoint_bind_congr hrace fun after current hcurrent => ?_
      simp only [hcurrent]

theorem Coherent.enterVia_eq (h : session.Coherent) (detours : Detours) (sample : Sample) :
    session.enterVia detours sample = session.enter sample := by
  unfold enterVia enter
  cases hrace : session.race with
  | none => rfl
  | some race => simp only [h.nextRaceVia_eq detours hrace]

/-- No operation on a coherent session takes a detour: with anything else in the place of those
branches, it makes the same requests after the same answers and leaves the same session behind. -/
theorem Coherent.scriptVia_eq (h : session.Coherent) (detours : Detours) (operation : Operation) :
    operation.scriptVia detours session = operation.script session := by
  cases operation with
  | add sample =>
      simp only [Operation.scriptVia, Operation.script, addVia, add, h.pauseVia_eq, h.enterVia_eq]
  | checkpoint => exact h.checkpointVia_eq detours
  | close => exact h.closeVia_eq detours

end Session

end RaceIngest
