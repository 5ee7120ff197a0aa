import RaceIngest.Race.Basic

/-!
# Laps

A `Lap` is the last known state of one lap of a race. Laps are not stored: `Lap.collect` derives
them from the recorded samples of a race, keeping for every lap number the sample that was
received last, and among samples received at the same moment the later one in the list.

`latest?` picks the last sample of a whole list by the same rule.
-/

namespace RaceIngest

open Calendar

/-- The last known state of one lap. -/
structure Lap where
  lapNumber : UInt16
  lapTime : Single
  finishedAt : Timestamp
  racePosition : UInt8
  raceTime : Single
  deriving DecidableEq

namespace Lap

/-- The lap that a sample belongs to, as the sample shows it. -/
def ofRecorded (recorded : Recorded) : Lap where
  lapNumber := recorded.sample.lapNumber
  lapTime := recorded.sample.currentLap
  finishedAt := recorded.createdAt
  racePosition := recorded.sample.racePosition
  raceTime := recorded.sample.currentRaceTime

/-- Adds the state of a lap to laps in ascending order of their numbers. A state that is already
known is kept only if it is strictly later. -/
def insert (lap : Lap) : List Lap → List Lap
  | [] => [lap]
  | known :: laps =>
    if lap.lapNumber < known.lapNumber then lap :: known :: laps
    else if lap.lapNumber = known.lapNumber then
      if lap.finishedAt < known.finishedAt then known :: laps else lap :: laps
    else known :: insert lap laps

/-- The laps of recorded samples, in ascending order of their numbers. -/
def collect (samples : List Recorded) : List Lap :=
  samples.foldl (fun laps recorded => (ofRecorded recorded).insert laps) []

@[simp] theorem collect_nil : collect [] = [] := rfl

theorem collect_concat (samples : List Recorded) (recorded : Recorded) :
    collect (samples ++ [recorded]) = (ofRecorded recorded).insert (collect samples) := by
  simp [collect]

end Lap

/-- The sample that was received last, a later entry winning a tie. -/
def latest? (samples : List Recorded) : Option Recorded :=
  samples.foldl
    (fun latest candidate =>
      match latest with
      | some current => if candidate.createdAt < current.createdAt then some current else some candidate
      | none => some candidate)
    none

@[simp] theorem latest?_nil : latest? [] = none := rfl

theorem latest?_eq_none_iff (samples : List Recorded) : latest? samples = none ↔ samples = [] := by
  constructor
  · intro hempty
    rcases samples.eq_nil_or_concat with rfl | ⟨front, last, rfl⟩
    · rfl
    · simp only [latest?, List.concat_eq_append, List.foldl_append, List.foldl_cons,
        List.foldl_nil] at hempty
      split at hempty
      · split at hempty <;> simp at hempty
      · simp at hempty
  · rintro rfl; rfl

end RaceIngest
