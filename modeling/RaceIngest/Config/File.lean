import RaceIngest.Config.Document
import RaceIngest.Yaml.Reader
import RaceIngest.Yaml.Record

/-!
# Configuration files

A configuration file is a YAML document with the settings of an `AppConfig`, all of them optional.
A blank document leaves all settings at their defaults. What was read is checked
(`AppConfig.validate`) before it is used.

The storage is told apart by `kind`, in a mapping or as the first item of a sequence. All that is
written besides has to have a meaning, even where it is skipped, and the directory has to be a text
by its meaning.

## Main definitions

* `AppConfig.ofYaml?`, the settings of a document,
* `AppConfig.parse`, the checked settings of a document, and
* `AppConfig.ofFile`, those of a file.
-/

namespace RaceIngest

open Yaml Text

/-- Reads a duration in milliseconds. -/
def Yaml.Document.millis (d : Document) (node : Node) : Following Duration :=
  return .ofMillis (← d.natural node)

/-- Reads the settings of a server. -/
def ServerConfig.ofNode (d : Document) (node : Node) : Following ServerConfig := do
  let fields ← d.fields fieldNames node
  let defaults : ServerConfig := {}
  let listenAddr ← Document.withDefault fields "listen_addr" defaults.listenAddr d.text
  let checkpointInterval ←
    Document.withDefault fields "checkpoint_interval_ms" defaults.checkpointInterval d.millis
  let queueCapacity ←
    Document.withDefault fields "queue_capacity" defaults.queueCapacity d.natural
  let bufferCapacity ←
    Document.withDefault fields "buffer_capacity" defaults.bufferCapacity d.natural
  return { listenAddr, checkpointInterval, queueCapacity, bufferCapacity }

namespace StorageConfig

/-- How deep the parts of a storage may be nested. -/
def nestingLimit : Nat := 126

/-- What was read of the mapping of a storage: its kind, and the meanings of the other entries. -/
structure Held where
  kind : Option String := none
  others : List (Option Meaning × Option Meaning) := []
  deriving DecidableEq, Repr

/-- Reads an entry of the mapping of a storage. The kind may be given once. -/
def Held.read (d : Document) (held : Held) (entry : Node × Node) : Following Held := do
  let key ← d.meaning nestingLimit entry.1
  if key = some (.text "kind") then
    guard held.kind.isNone
    return { held with kind := some (← d.text entry.2) }
  else
    let value ← d.meaning nestingLimit entry.2
    return { held with others := (key, value) :: held.others }

/-- The directory among entries of a storage: the entry with that name or the number zero. Other
names and natural numbers are skipped. -/
def Held.dataDir? (others : List (Option Meaning × Option Meaning)) : Option String := do
  let found ← others.foldlM (fun (found : Option String) (key, value) =>
    let isDirectory := key = some (.text "data_dir") || key = some (.natural 0)
    match isDirectory, key, value, found with
    | true, _, some (.text directory), none => some (some directory)
    | true, _, _, _ => none
    | false, some (.text _), _, found | false, some (.natural _), _, found => some found
    | false, _, _, _ => none) none
  found

/-- Reads the settings of a storage. -/
def ofNode (d : Document) (node : Node) : Following StorageConfig := do
  let node ← d.follow node
  guard (!node.hasOwnTag)
  match node with
  | .mapping _ entries =>
    let held ← entries.foldlM (Held.read d) {}
    match held.kind with
    | some "memory" => return .memory
    | some "jsonl" => (Held.dataDir? held.others).map .jsonl
    | _ => failure
  | .sequence _ (kind :: rest) =>
    match ← d.text kind, ← rest.mapM (d.meaning nestingLimit) with
    | "memory", [] => return .memory
    | "jsonl", [some (.text directory)] => return .jsonl directory
    | _, _ => failure
  | _ => failure

end StorageConfig

namespace AppConfig

/-- Reads the settings of the program. -/
def ofNode (d : Document) (node : Node) : Following AppConfig := do
  let fields ← d.fields fieldNames node
  let defaults : AppConfig := {}
  let telemetry ←
    Document.withDefault fields "telemetry" defaults.telemetry (ServerConfig.ofNode d)
  let storage ← Document.withDefault fields "storage" defaults.storage (StorageConfig.ofNode d)
  let logLevel ← Document.withDefault fields "log_level" defaults.logLevel d.text
  let shutdownTimeout ←
    Document.withDefault fields "shutdown_timeout_ms" defaults.shutdownTimeout d.millis
  return { telemetry, storage, logLevel, shutdownTimeout }

/-- The settings that a document writes. -/
def ofYaml? (cs : List Char) : Option AppConfig := do
  let d ← Yaml.parse? cs
  match d.root with
  | none => some {}
  | some root => d.run? (ofNode d root)

/-- The error of a document that writes no settings. -/
def unreadable : Error := .config "YAML configuration" "the document does not describe a configuration"

/-- The checked settings of a document. -/
def parse (cs : List Char) : Except Error AppConfig :=
  match ofYaml? cs with
  | none => .error unreadable
  | some config => config.validate.map fun () => config

/-- The checked settings of a file, given its bytes if it can be read. -/
def ofFile (path : String) (content : Option (List UInt8)) : Except Error AppConfig :=
  match content.bind Utf8.decode? with
  | none => .error (.file path)
  | some cs => parse cs

theorem validate_of_parse {cs : List Char} {config : AppConfig} (h : parse cs = .ok config) :
    config.validate = .ok () := by
  unfold parse at h
  split at h
  · simp at h
  · rename_i found _
    cases hv : found.validate with
    | error e => simp [hv, Except.map] at h
    | ok u =>
        simp only [hv, Except.map, Except.ok.injEq] at h
        exact h ▸ hv

end AppConfig

end RaceIngest
