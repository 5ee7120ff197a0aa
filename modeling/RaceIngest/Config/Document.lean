import RaceIngest.Config.Basic
import RaceIngest.Json.Record

/-!
# Configuration documents

Configurations are written as JSON with every setting, durations as whole milliseconds in 64 bits.
They are read with defaults: a missing setting keeps its default, and an array may give the first
settings only.

The storage is told apart by its member `kind`. Since its fields are held back until the kind is
known, a storage has to be a plain value (`Json.isPlain`). For storage in memory all further
members are skipped; for storage in a directory `data_dir` has to name it.
-/

namespace RaceIngest

open Json

-- Powers are those of the core library, also where algebra is imported.
attribute [local instance (high)] instPowNat

namespace Json

/-- A duration in whole milliseconds, modulo `2 ^ 64`. -/
def millis (d : Duration) : Json := .nat (d.millis % 2 ^ (64 : Nat))

/-- Reads a duration in milliseconds. -/
def toMillis? (j : Json) : Option Duration := (j.toNatBelow? (2 ^ (64 : Nat))).map .ofMillis

end Json

namespace ServerConfig

/-- The document of a server configuration. -/
def toJson (config : ServerConfig) : Json := .ofMembers [
  ("listen_addr", .text config.listenAddr),
  ("checkpoint_interval_ms", .millis config.checkpointInterval),
  ("queue_capacity", .nat config.queueCapacity),
  ("buffer_capacity", .nat config.bufferCapacity)]

/-- The names of the settings of a server. -/
def fieldNames : List String :=
  ["listen_addr", "checkpoint_interval_ms", "queue_capacity", "buffer_capacity"]

/-- Reads a server configuration. -/
def ofJson? (j : Json) : Option ServerConfig := do
  let fields ← j.leadingFields? fieldNames
  let defaults : ServerConfig := {}
  let listenAddr ← fields.withDefault "listen_addr" defaults.listenAddr toText?
  let checkpointInterval ←
    fields.withDefault "checkpoint_interval_ms" defaults.checkpointInterval toMillis?
  let queueCapacity ←
    fields.withDefault "queue_capacity" defaults.queueCapacity (toNatBelow? (2 ^ (64 : Nat)))
  let bufferCapacity ←
    fields.withDefault "buffer_capacity" defaults.bufferCapacity (toNatBelow? (2 ^ (64 : Nat)))
  return { listenAddr, checkpointInterval, queueCapacity, bufferCapacity }

end ServerConfig

namespace StorageConfig

/-- The document of a storage configuration. -/
def toJson : StorageConfig → Json
  | .memory => .ofMembers [("kind", .text "memory")]
  | .jsonl dataDir => .ofMembers [("kind", .text "jsonl"), ("data_dir", .text dataDir)]

/-- Reads a storage configuration that stands in a plain document of a remaining depth. -/
def ofJson? (depth : Nat) (j : Json) : Option StorageConfig := do
  guard (j.isPlain depth)
  match j with
  | .object members =>
    let fields ← objectFields? ["kind"] members
    match ← fields.required "kind" toText? with
    | "memory" => some .memory
    | "jsonl" =>
      let fields ← objectFields? ["data_dir"] members
      (fields.required "data_dir" toText?).map .jsonl
    | _ => none
  | .array [.string (some "memory")] => some .memory
  | .array [.string (some "jsonl"), dataDir] => dataDir.toText?.map .jsonl
  | _ => none

end StorageConfig

namespace AppConfig

/-- The document of a configuration. -/
def toJson (config : AppConfig) : Json := .ofMembers [
  ("telemetry", config.telemetry.toJson),
  ("storage", config.storage.toJson),
  ("log_level", .text config.logLevel),
  ("shutdown_timeout_ms", .millis config.shutdownTimeout)]

/-- The names of the settings of the program. -/
def fieldNames : List String := ["telemetry", "storage", "log_level", "shutdown_timeout_ms"]

/-- Reads a configuration. -/
def ofJson? (j : Json) : Option AppConfig := do
  let fields ← j.leadingFields? fieldNames
  let defaults : AppConfig := {}
  let telemetry ← fields.withDefault "telemetry" defaults.telemetry ServerConfig.ofJson?
  let storage ←
    fields.withDefault "storage" defaults.storage (StorageConfig.ofJson? (plainDepth - 1))
  let logLevel ← fields.withDefault "log_level" defaults.logLevel toText?
  let shutdownTimeout ←
    fields.withDefault "shutdown_timeout_ms" defaults.shutdownTimeout toMillis?
  return { telemetry, storage, logLevel, shutdownTimeout }

end AppConfig

end RaceIngest
