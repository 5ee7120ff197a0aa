import RaceIngest.Files.Tree
import RaceIngest.Race.Document
import RaceIngest.Store.Basic
import RaceIngest.Text.Blank

/-!
# Stores in a directory

A `DirectoryStore` keeps its documents below a directory:

* `races.json` holds all races as one indented JSON array, the most recently started first. It is
  written anew on every update, through a temporary file that then replaces it, so it always is a
  complete document;
* `samples/<race>.jsonl` holds the samples of one race, a compact JSON document per line, and only
  ever grows.

The races are also held in memory, and what is held changes only when the file did. Samples are
read from their file every time; lines that are blank are skipped.

## Main definitions

* `DirectoryStore`, `DirectoryStore.openAt`,
* `DirectoryStore.writeTemporary` and `DirectoryStore.publish`, the two steps of an update,
* `DirectoryStore.readSamples`.
-/

namespace RaceIngest

open Files Text

/-- A directory that was opened, the races it holds, and the files. -/
structure DirectoryStore where
  root : String
  index : RaceIndex
  files : Tree
  deriving DecidableEq

namespace DirectoryStore

/-- The path of the races below a directory. -/
def racesPath (root : String) : String := joinPath root "races.json"

/-- The path of the file through which the races are written. -/
def temporaryPath (root : String) : String := joinPath root "races.json.tmp"

/-- The path of the directory of samples. -/
def samplesDirectory (root : String) : String := joinPath root "samples"

/-- The path of the samples of a race. -/
def samplesPath (root : String) (id : Uuid) : String :=
  joinPath (samplesDirectory root) (id.text ++ ".jsonl")

/-- The document of an index. -/
def racesDocument (index : RaceIndex) : Json := .array (index.newestFirst.map Race.toJson)

/-- The races of a document. -/
def racesOfDocument? : Json → Option (List Race)
  | .array items => items.mapM Race.ofJson?
  | _ => none

/-- Loads the races below a directory; there are none when the file is missing. -/
def loadRaces (root : String) (files : Tree) : Except StorageError (List Race) :=
  match files.read (racesPath root) with
  | .ok bytes =>
    match (Json.parseBytes? bytes).bind racesOfDocument? with
    | some races => .ok races
    | none => .error (.serialization (racesPath root))
  | .error .notFound => .ok []
  | .error .unusable => .error (.io (racesPath root))

/-- Opens a directory, creating it when it is missing. -/
def openAt (root : String) (files : Tree) : Except StorageError DirectoryStore × Tree :=
  match files.createDirectories (samplesDirectory root) with
  | (.error _, files) => (.error (.io (samplesDirectory root)), files)
  | (.ok (), files) =>
    (do
      let races ← loadRaces root files
      return { root, index := .ofList races, files }, files)

/-! ## Samples -/

/-- The line of a recorded sample. -/
def line (recorded : Recorded) : List Char := recorded.toJson.chars ++ ['\n']

/-- The lines of a text, without the line feeds. -/
def lines (cs : List Char) : List (List Char) := cs.splitOn '\n'

/-- Reads a line as a recorded sample. -/
def readLine? (cs : List Char) : Option Recorded := (Json.parse? cs).bind Recorded.ofJson?

/-- The samples of a race that was written to, if any were. -/
def readSamples (store : DirectoryStore) (id : Uuid) : Except StorageError (List Recorded) :=
  let path := samplesPath store.root id
  match store.files.read path with
  | .error .notFound => .ok []
  | .error .unusable => .error (.io path)
  | .ok bytes =>
    match Utf8.decode? bytes with
    | none => .error (.io path)
    | some cs =>
      match ((lines cs).filter (!isBlank ·)).mapM readLine? with
      | some samples => .ok samples
      | none => .error (.serialization path)

/-- Appends samples to the file of a race. Inserting none does nothing. -/
def insert (store : DirectoryStore) (race : Race) (samples : List Recorded) :
    Except StorageError Unit × DirectoryStore :=
  if samples.isEmpty then (.ok (), store)
  else
    let path := samplesPath store.root race.id
    match store.files.append path (Utf8.encode (samples.flatMap line)) with
    | .ok files => (.ok (), { store with files })
    | .error _ => (.error (.io path), store)

/-! ## Races -/

/-- Writes the document of an index into the temporary file. -/
def writeTemporary (store : DirectoryStore) (index : RaceIndex) :
    Except StorageError DirectoryStore :=
  let path := temporaryPath store.root
  match store.files.write path (Utf8.encode ((racesDocument index).indented 0)) with
  | .ok files => .ok { store with files }
  | .error _ => .error (.io path)

/-- Lets the temporary file replace the races and takes over the index it was written from. -/
def publish (store : DirectoryStore) (index : RaceIndex) : Except StorageError DirectoryStore :=
  let path := racesPath store.root
  match store.files.rename (temporaryPath store.root) path with
  | .ok files => .ok { store with files, index }
  | .error _ => .error (.io path)

/-- Inserts or updates races: in the file first, then in memory. -/
def upsert (store : DirectoryStore) (races : List Race) :
    Except StorageError Unit × DirectoryStore :=
  let index := store.index.putAll races
  match store.writeTemporary index with
  | .error failure => (.error failure, store)
  | .ok written =>
    match written.publish index with
    | .error failure => (.error failure, written)
    | .ok published => (.ok (), published)

instance : Store DirectoryStore where
  insertSamples := insert
  upsertRaces := upsert
  lastSample store id := store.readSamples id >>= lastOf id
  race? store id := .ok (store.index.find? id)
  races store := .ok store.index.newestFirst
  samples := readSamples

end DirectoryStore

end RaceIngest
