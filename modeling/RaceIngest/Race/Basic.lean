import RaceIngest.Calendar.Timestamp
import RaceIngest.Telemetry.Sample
import RaceIngest.Uuid

/-!
# Races

A `Race` is a driving activity bounded by a start and a finish. Its identity, its car and its track
are fixed by the sample that started it; what changes afterwards is whether it is paused, in
progress or finished, and the running aggregates (best lap, race clock, position, distance), which
are always copied from a sample.

A `Recorded` sample is a sample with the race it belongs to and the moment it was received, and an
`Event` tells subscribers that a race started, was paused or resumed, or finished.

## Main definitions

* `Race.start`, `Race.update`, `Race.finish`, `Race.finishAt`,
* `Race.mergeMutable`, what an update of a stored race may change,
* `Race.isNewRace`, the rule that tells a new race from the current one.
-/

namespace RaceIngest

open Calendar

/-- A race and its running aggregates. -/
structure Race where
  id : Uuid
  /-- The session that recorded the race. -/
  sessionId : Uuid
  paused : Bool
  inProgress : Bool
  startedAt : Timestamp
  finishedAt : Option Timestamp
  car : Int32
  carClass : Int32
  carPerformanceIndex : Int32
  track : Int32
  bestLap : Single
  /-- The race clock. -/
  raceTime : Single
  position : UInt8
  distanceTraveled : Single
  deriving DecidableEq, Inhabited

/-- A sample as it is stored: with its race and its receipt time. -/
structure Recorded where
  sample : Sample
  race : Uuid
  createdAt : Timestamp
  deriving DecidableEq, Inhabited

namespace Race

/-- Opens a race from the sample that starts it. -/
def start (sample : Sample) (sessionId id : Uuid) (now : Timestamp) : Race where
  id := id
  sessionId := sessionId
  paused := !sample.onTrack
  inProgress := true
  startedAt := now
  finishedAt := none
  car := sample.carOrdinal
  carClass := sample.carClass
  carPerformanceIndex := sample.carPerformanceIndex
  track := sample.trackOrdinal
  bestLap := .zero
  raceTime := .zero
  position := 0
  distanceTraveled := .zero

/-- Refreshes the running aggregates from a sample. -/
def update (race : Race) (sample : Sample) : Race :=
  { race with
    bestLap := sample.bestLap
    raceTime := sample.currentRaceTime
    position := sample.racePosition
    distanceTraveled := sample.distanceTraveled }

/-- Closes the race at a moment, keeping its aggregates. -/
def finishAt (race : Race) (now : Timestamp) : Race :=
  { race with inProgress := false, finishedAt := some now }

/-- Closes the race with its last stored sample: the aggregates are those of the sample, and the
finish is its receipt. -/
def finish (race : Race) (last : Recorded) : Race :=
  (race.update last.sample).finishAt last.createdAt

/-- Copies what may change of a stored race; its identity, car, track and start stay. -/
def mergeMutable (race other : Race) : Race :=
  { race with
    paused := other.paused
    inProgress := other.inProgress
    finishedAt := other.finishedAt
    bestLap := other.bestLap
    raceTime := other.raceTime
    position := other.position
    distanceTraveled := other.distanceTraveled }

@[simp] theorem id_update (race : Race) (sample : Sample) : (race.update sample).id = race.id := rfl

@[simp] theorem id_finishAt (race : Race) (now : Timestamp) : (race.finishAt now).id = race.id := rfl

@[simp] theorem id_finish (race : Race) (last : Recorded) : (race.finish last).id = race.id := rfl

@[simp] theorem id_mergeMutable (race other : Race) : (race.mergeMutable other).id = race.id := rfl

theorem mergeMutable_mergeMutable (race first second : Race) :
    (race.mergeMutable first).mergeMutable second = race.mergeMutable second := rfl

/-- The race clock, in seconds, below which a regression can mean a new race. -/
def newRaceClockThreshold : Single := .one

/-- Whether a sample starts a new race on top of this one: the race clock went back to near zero
and no lap was completed yet. Rewinds and rejoins also move the clock back, but keep the last
lap. -/
def isNewRace (race : Race) (sample : Sample) : Bool :=
  sample.currentRaceTime.lt newRaceClockThreshold &&
  sample.currentRaceTime.lt race.raceTime &&
  sample.lastLap.isZero

theorem newRaceClockThreshold_isNaN : newRaceClockThreshold.isNaN = false := by decide

end Race

/-! ## Events -/

/-- What happened to a race. -/
inductive EventKind where
  | started
  | paused
  | resumed
  | finished
  deriving DecidableEq, Repr

/-- The name of a kind of event. -/
def EventKind.name : EventKind → String
  | .started => "started"
  | .paused => "paused"
  | .resumed => "resumed"
  | .finished => "finished"

/-- The kind of event with a name. -/
def EventKind.ofName? (name : String) : Option EventKind :=
  [EventKind.started, .paused, .resumed, .finished].find? fun kind => kind.name == name

theorem EventKind.ofName?_name (kind : EventKind) : EventKind.ofName? kind.name = some kind := by
  cases kind <;> decide

/-- A notification about a race, with the race as it was then. -/
structure Event where
  kind : EventKind
  race : Race
  deriving DecidableEq

end RaceIngest
