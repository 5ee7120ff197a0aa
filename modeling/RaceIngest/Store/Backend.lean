import RaceIngest.Config.Basic
import RaceIngest.Store.Directory
import RaceIngest.Store.Memory

/-!
# The configured store

A `Backend` is a store of either kind, as the configuration asks for it.
-/

namespace RaceIngest

open Files

/-- A store in memory or in a directory. -/
inductive Backend where
  | memory (store : MemoryStore)
  | directory (store : DirectoryStore)

namespace Backend

/-- Opens the store that a configuration describes. -/
def openFrom (files : Tree) : StorageConfig → Except StorageError Backend × Tree
  | .memory => (.ok (.memory .empty), files)
  | .jsonl dataDir =>
    let (result, files) := DirectoryStore.openAt dataDir files
    (result.map .directory, files)

/-- The files that a store holds, if it holds any. -/
def files? : Backend → Option Tree
  | .memory _ => none
  | .directory store => some store.files

/-- The store among changed files. -/
def withFiles (files : Tree) : Backend → Backend
  | .memory store => .memory store
  | .directory store => .directory { store with files }

instance : Store Backend where
  insertSamples
    | .memory store, race, samples => (Store.insertSamples store race samples).map id .memory
    | .directory store, race, samples => (Store.insertSamples store race samples).map id .directory
  upsertRaces
    | .memory store, races => (Store.upsertRaces store races).map id .memory
    | .directory store, races => (Store.upsertRaces store races).map id .directory
  lastSample
    | .memory store => Store.lastSample store
    | .directory store => Store.lastSample store
  race?
    | .memory store => Store.race? store
    | .directory store => Store.race? store
  races
    | .memory store => Store.races store
    | .directory store => Store.races store
  samples
    | .memory store => Store.samples store
    | .directory store => Store.samples store

end Backend

end RaceIngest
