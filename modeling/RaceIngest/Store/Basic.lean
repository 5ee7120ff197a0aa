import RaceIngest.Error
import RaceIngest.Race.Lap
import RaceIngest.Store.Index

/-!
# Stores

A `Store` keeps races and their recorded samples. Sessions write to it through three operations:
they insert samples of a race, they insert or update races, and they ask for the last sample of a
race. The other queries serve those who look at the recorded races afterwards.

A write may fail; it then answers with the reason, and the state after it is what is left behind.

## Main definitions

* `Store`, the class of the states of a store,
* `Store.laps`, derived from the samples,
* `Method`, the three operations of sessions.
-/

namespace RaceIngest

/-- The operations of a store with states `σ`. -/
class Store (σ : Type) where
  /-- Appends recorded samples of a race. -/
  insertSamples : σ → Race → List Recorded → Except StorageError Unit × σ
  /-- Inserts races, or updates what may change of races already stored. -/
  upsertRaces : σ → List Race → Except StorageError Unit × σ
  /-- The sample of a race that was received last. -/
  lastSample : σ → Uuid → Except StorageError Recorded
  /-- A race. -/
  race? : σ → Uuid → Except StorageError (Option Race)
  /-- All races, the most recently started first. -/
  races : σ → Except StorageError (List Race)
  /-- The samples of a race in the order of their receipt. -/
  samples : σ → Uuid → Except StorageError (List Recorded)

/-- The last known state of every lap of a race. -/
def Store.laps {σ : Type} [Store σ] (store : σ) (id : Uuid) : Except StorageError (List Lap) :=
  (Store.samples store id).map Lap.collect

/-- The last sample of some samples of a race. -/
def lastOf (id : Uuid) (samples : List Recorded) : Except StorageError Recorded :=
  match latest? samples with
  | some sample => .ok sample
  | none => .error (.notFound id)

/-- The operations that sessions use. -/
inductive Method where
  | insertSamples
  | upsertRaces
  | lastSample
  deriving DecidableEq, Repr

end RaceIngest
