import RaceIngest.Config.CommandLine
import RaceIngest.Config.File

/-!
# Layers of configuration

The program's configuration is put together from layers, later ones winning: the defaults, the
configuration file if the command line names one, the environment, and the command line itself. The
file is checked on its own, and so is the result.

## Main definitions

* `Arguments.override`, the layer of the command line,
* `LoadError`, and `Arguments.load`.
-/

namespace RaceIngest

/-- Why no configuration was put together. -/
inductive LoadError where
  /-- The configuration file cannot be used. -/
  | file (path : String) (cause : Error)
  /-- The result is not valid. -/
  | settings (cause : Error)
  deriving DecidableEq, Repr

namespace LoadError

/-- The error behind a failure. -/
def cause : LoadError → Error
  | .file _ cause | .settings cause => cause

/-- What went wrong, in a sentence. -/
def message : LoadError → String
  | .file path _ => "loading configuration from " ++ path
  | .settings cause => cause.message

end LoadError

namespace Arguments

/-- Replaces settings by those of the command line. -/
def override (args : Arguments) (config : AppConfig) : AppConfig :=
  { config with
    telemetry := { config.telemetry with
      listenAddr := args.listen.getD config.telemetry.listenAddr
      checkpointInterval :=
        (args.checkpointIntervalMs.map .ofMillis).getD config.telemetry.checkpointInterval }
    storage := (args.dataDir.map .jsonl).getD config.storage }

/-- The configuration below the environment: that of the file, or the defaults. -/
def base (args : Arguments) (read : String → Option (List UInt8)) : Except LoadError AppConfig :=
  match args.config with
  | none => .ok {}
  | some path => (AppConfig.ofFile path (read path)).mapError (.file path)

/-- Puts the configuration together, given how files are read and what the environment knows. -/
def load (args : Arguments) (read : String → Option (List UInt8))
    (env : String → Option String) : Except LoadError AppConfig := do
  let config := args.override ((← args.base read).override env)
  config.validate.mapError .settings
  return config

theorem override_empty (config : AppConfig) : ({} : Arguments).override config = config := rfl

end Arguments

end RaceIngest
