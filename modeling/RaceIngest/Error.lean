import RaceIngest.Duration
import RaceIngest.Uuid
import RaceIngest.Wire.Packet

/-!
# Errors

Two families of errors exist. A `StorageError` is what a store answers: sessions go on after one,
and it reaches the caller only while a store is being opened. An `Error` is what the embedding
program sees: failures of the listener's life cycle, of decoding, of shutting down, of the
configuration, and of storage.

Every error has a message, tells whether trying again may help, and suggests what to do about it.
-/

namespace RaceIngest

/-- Why a store refused. -/
inductive StorageError where
  /-- Nothing was stored for the race yet. -/
  | notFound (race : Uuid)
  /-- A file or directory could not be used. -/
  | io (path : String)
  /-- A document could not be read or written. -/
  | serialization (context : String)
  deriving DecidableEq, Repr

namespace StorageError

/-- Whether the error only means that nothing was stored yet. -/
def isNotFound : StorageError → Bool
  | .notFound _ => true
  | _ => false

/-- What went wrong, in a sentence. -/
def message : StorageError → String
  | .notFound race => "No samples recorded for race " ++ race.text
  | .io path => "Storage I/O error at " ++ path
  | .serialization context => "Failed to serialize or deserialize " ++ context

end StorageError

/-- What the embedding program sees when something goes wrong. -/
inductive Error where
  | alreadyRunning
  | serverClosed
  | bind (addr : String)
  | packetTooShort (expected actual : Nat)
  | outOfBounds (offset : Nat)
  | shutdownTimeout (duration : Duration) (pending : Nat)
  | config (context details : String)
  | file (path : String)
  | storage (cause : StorageError)
  deriving DecidableEq, Repr

namespace Error

/-- What went wrong, in a sentence. -/
def message : Error → String
  | .alreadyRunning => "Telemetry listener already running"
  | .serverClosed => "Telemetry listener closed"
  | .bind addr => "Failed to bind telemetry socket on " ++ addr
  | .packetTooShort expected actual =>
    "Datagram too short: expected at least " ++ toString expected ++ " bytes, got " ++
      toString actual
  | .outOfBounds offset => "Read past end of packet at offset 0x" ++ String.ofList (Text.Hex.ofNat offset)
  | .shutdownTimeout duration pending =>
    "Shutdown timed out after " ++ duration.text ++ " with " ++ toString pending ++
      " session(s) still closing"
  | .config context details => "Configuration error in " ++ context ++ ": " ++ details
  | .file path => "Configuration file error: " ++ path
  | .storage cause => cause.message

/-- Whether trying again may help. -/
def isRetryable : Error → Bool
  | .serverClosed | .bind _ | .storage (.io _) => true
  | _ => false

/-- Whether the error was caused by one of another library: of sockets, files or documents. -/
def hasSource : Error → Bool
  | .bind _ | .file _ | .storage (.io _) | .storage (.serialization _) => true
  | _ => false

/-- What to do about the error. -/
def suggestions : Error → List String
  | .alreadyRunning =>
    ["Shut the running listener down before starting it again",
      "Use a separate server instance per listening address"]
  | .serverClosed =>
    ["Start the listener again if the shutdown was not intended",
      "Check the logs for socket read failures"]
  | .bind _ =>
    ["Check that no other process is bound to the address",
      "Verify the listen address format (host:port)",
      "Use a port above 1024 when running unprivileged"]
  | .packetTooShort _ _ | .outOfBounds _ =>
    ["Set the game's data out packet format to Dash",
      "Verify the sender is a Forza Motorsport client"]
  | .shutdownTimeout _ _ =>
    ["Increase the shutdown timeout", "Check storage latency, sessions flush before closing"]
  | .config _ _ =>
    ["Check the configuration values against the documented defaults",
      "Remove the offending key to fall back to its default"]
  | .file _ => ["Check file exists and is readable", "Check file permissions"]
  | .storage _ =>
    ["Check the data directory exists and is writable", "Check free disk space",
      "Inspect races.json for corruption"]

/-- The error of a datagram that holds no packet. -/
def ofDecodeError : Wire.Packet.DecodeError → Error
  | .tooShort expected actual => .packetTooShort expected actual
  | .outOfBounds offset => .outOfBounds offset

theorem suggestions_ne_nil (e : Error) : e.suggestions ≠ [] := by
  cases e <;> simp [suggestions]

end Error

end RaceIngest
