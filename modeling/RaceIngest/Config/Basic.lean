import RaceIngest.Error
import RaceIngest.Text.Blank

/-!
# Configuration

A `ServerConfig` describes the listener and its sessions, a `StorageConfig` where races are kept,
and an `AppConfig` the whole program. Every setting has a default.

A configuration is valid when no interval and no capacity is zero. The settings are checked in a
fixed order, so an invalid configuration is always refused for the same reason.

## Main definitions

* `ServerConfig`, `StorageConfig`, `AppConfig` and their defaults,
* `ServerConfig.ofAddress`, `ServerConfig.withAddress`,
* `ServerConfig.validate`, `AppConfig.validate`,
* `AppConfig.override`, which lets a lookup of names replace settings.
-/

namespace RaceIngest

/-- A listen address that is used when none is given. -/
def defaultListenAddr : String := "0.0.0.0:8000"

/-- Listener and session settings. -/
structure ServerConfig where
  listenAddr : String := defaultListenAddr
  /-- The time between two flushes of a session; a session without samples for so long ends. -/
  checkpointInterval : Duration := .ofSeconds 5
  /-- How many samples may wait for a session. -/
  queueCapacity : Nat := 60
  /-- How many samples a session holds between flushes without growing its buffer. -/
  bufferCapacity : Nat := 350
  deriving DecidableEq, Repr

instance : Inhabited ServerConfig := ⟨{}⟩

/-- Where races and samples are kept. -/
inductive StorageConfig where
  | memory
  | jsonl (dataDir : String)
  deriving DecidableEq, Repr, Inhabited

/-- The settings of the whole program. -/
structure AppConfig where
  telemetry : ServerConfig := {}
  storage : StorageConfig := .memory
  logLevel : String := "info"
  shutdownTimeout : Duration := .ofSeconds 10
  deriving DecidableEq, Repr

instance : Inhabited AppConfig := ⟨{}⟩

/-- Whether a setting was left blank. -/
def isBlankSetting (s : String) : Bool := Text.isBlank s.toList

namespace ServerConfig

/-- The configuration with the default address in place of a blank one. -/
def withAddress (config : ServerConfig) : ServerConfig :=
  if isBlankSetting config.listenAddr then { config with listenAddr := defaultListenAddr }
  else config

/-- The configuration that listens on an address with a checkpoint interval. -/
def ofAddress (addr : String) (checkpointInterval : Duration) : ServerConfig :=
  withAddress { listenAddr := addr, checkpointInterval }

/-- Checks the settings. -/
def validate (config : ServerConfig) : Except Error Unit :=
  if config.checkpointInterval.isZero then
    .error (.config "telemetry" "checkpoint interval must be positive")
  else if config.queueCapacity = 0 then
    .error (.config "telemetry" "queue capacity must be positive")
  else if config.bufferCapacity = 0 then
    .error (.config "telemetry" "buffer capacity must be positive")
  else .ok ()

theorem validate_default : validate {} = .ok () := rfl

theorem validate_eq_ok_iff (config : ServerConfig) :
    config.validate = .ok () ↔
      config.checkpointInterval.isZero = false ∧ config.queueCapacity ≠ 0 ∧
        config.bufferCapacity ≠ 0 := by
  unfold validate
  split
  · simp_all
  · split
    · simp_all
    · split <;> simp_all

end ServerConfig

namespace AppConfig

/-- Checks the settings. -/
def validate (config : AppConfig) : Except Error Unit := do
  config.telemetry.validate
  if config.shutdownTimeout.isZero then
    .error (.config "shutdown" "shutdown timeout must be positive")

/-- Replaces settings by those that a lookup knows under `TELEMETRY_ADDR`, `DATA_DIR` and
`LOG_LEVEL`. A blank value counts as absent. -/
def override (config : AppConfig) (lookup : String → Option String) : AppConfig :=
  let given (name : String) : Option String := (lookup name).filter (!isBlankSetting ·)
  { config with
    telemetry := { config.telemetry with
      listenAddr := (given "TELEMETRY_ADDR").getD config.telemetry.listenAddr }
    storage := ((given "DATA_DIR").map .jsonl).getD config.storage
    logLevel := (given "LOG_LEVEL").getD config.logLevel }

theorem override_none (config : AppConfig) : config.override (fun _ => none) = config := rfl

end AppConfig

end RaceIngest
