import RaceIngest.Config.Layers
import RaceIngest.Server.Address
import RaceIngest.Server.Basic
import RaceIngest.Store.Backend
import Std.Async.Signal
import Std.Async.Timer
import Std.Async.UDP

/-!
# The program

Puts the configuration together, opens the store, listens until it is told to stop, and shuts down.
All decisions are made by the library; this module reads clocks, sockets and files, and hands over
what they give.

The service runs on its own clock, which is set to the time that passed before everything that
happens. A directory of races is kept as a file tree in memory and saved after every step that
called the store. Of the samples of a race only the last is looked at again, so the tree keeps just
that line once it was saved.
-/

namespace RaceIngest.Program

open Calendar Files Std.Async

/-! ## Clocks and identifiers -/

/-- Reads the clock. -/
def readClock : IO Timestamp := do
  let now ← Std.Time.Timestamp.now
  let nanos := now.toNanosecondsSinceUnixEpoch.val.toNat
  return .ofEpoch (nanos / nanosPerSecond) (nanos % nanosPerSecond)

/-- A supply of random identifiers that differ from each other. -/
def randomIds : IO (Nat → Uuid) := do
  let bytes ← IO.getRandomBytes 16
  let seed := bytes.toList.foldl (fun n b => 256 * n + b.toNat) 0
  return fun n => .ofNat (seed + n)

/-! ## Files -/

/-- The path of a place below the working directory or the root. -/
def pathOf (place : Location) : String :=
  match place with
  | [] => "."
  | name :: names => if name = root then root ++ "/".intercalate names else "/".intercalate place

/-- Reads a file, if it can be read. -/
def readFile? (path : String) : IO (Option (List UInt8)) := do
  try
    return some (← IO.FS.readBinFile path).toList
  catch _ => return none

/-- Saves what changed between two trees. What was added to a file is appended; a file that changed
otherwise is replaced at once. -/
def save (before after : Tree) : IO Unit := do
  for (place, entry) in after.entries do
    let path := pathOf place
    match before.find? place, entry with
    | _, .directory => IO.FS.createDirAll path
    | some (.file old), .file new =>
      if old.isPrefixOf new then
        unless old.length = new.length do
          let handle ← IO.FS.Handle.mk path .append
          handle.write ⟨(new.drop old.length).toArray⟩
      else
        IO.FS.writeBinFile (path ++ ".tmp") ⟨new.toArray⟩
        IO.FS.rename (path ++ ".tmp") path
    | _, .file new => IO.FS.writeBinFile path ⟨new.toArray⟩

/-- The last line of a file of lines. -/
def lastLine (bytes : List UInt8) : List UInt8 :=
  let feed : UInt8 := 10
  match bytes.reverse with
  | [] => []
  | last :: rest => (last :: rest.takeWhile (· ≠ feed)).reverse

/-- Forgets the samples that were saved but for the last of every race. -/
def forgetSamples (store : Backend) : Backend :=
  match store with
  | .memory store => .memory store
  | .directory store =>
    let directory := components (DirectoryStore.samplesDirectory store.root)
    let entries := store.files.entries.map fun (place, entry) =>
      match entry with
      | .file bytes =>
        (place, if place.dropLast = directory then Entry.file (lastLine bytes) else entry)
      | .directory => (place, entry)
    .directory { store with files := ⟨entries⟩ }

/-- The races that a directory holds, as a tree. -/
def loadTree (config : StorageConfig) : IO Tree := do
  match config with
  | .memory => return .empty
  | .jsonl dataDir =>
    let path := DirectoryStore.racesPath dataDir
    let tree := (Tree.empty.createDirectories dataDir).2
    match ← readFile? path with
    | some bytes => return (tree.write path bytes).toOption.getD tree
    | none => return tree

/-- Opens the configured store. -/
def openStore (config : StorageConfig) : IO (Except StorageError Backend) := do
  let tree ← loadTree config
  match Backend.openFrom tree config with
  | (.error e, _) => return .error e
  | (.ok store, files) =>
    try
      save tree files
      return .ok store
    catch _ => return .error (.io (pathOf (files.entries.head?.elim [] Prod.fst)))

/-! ## Listening -/

/-- A server at work. -/
structure Running where
  server : Server Backend
  /-- When the clock of the service stood at zero. -/
  started : Nat
  /-- The files as they were saved. -/
  saved : Tree

/-- Applies a change to the world of a server. -/
def onWorld (server : Server Backend) (change : World Backend → World Backend) : Server Backend :=
  let service := server.sessions.service
  { server with sessions := { server.sessions with
      service := { service with world := change service.world } } }

/-- Sets the clocks, lets happen what is due, applies a change, and saves what came of it. -/
def Running.step (r : Running) (change : Server Backend → Server Backend) : IO Running := do
  let reading ← readClock
  let elapsed := (← IO.monoNanosNow) - r.started
  let server := onWorld r.server fun world => { world with readings := fun _ => reading }
  let passed := server.sessions.pass (elapsed - server.sessions.now)
  let server := change { server with sessions := passed.settle }
  let server := { server with sessions := server.sessions.settle }
  let world := server.sessions.service.world
  for event in world.events do
    IO.println s!"race {event.kind.name}: {event.race.id.text}"
  let files := (world.store.files?).getD .empty
  unless world.calls.isEmpty do save r.saved files
  let server := onWorld server fun world =>
    { world with store := forgetSamples world.store, calls := [], kept := [], events := [] }
  return { r with server, saved := (server.sessions.service.world.store.files?).getD .empty }

/-- What happens while a server listens. -/
inductive Happening where
  | datagram (bytes : List UInt8) (endpoint : String)
  | time
  | stop

/-- How long to wait for the next moment at which something is due, in milliseconds. -/
def Running.patience (r : Running) : Nat :=
  match r.server.sessions.nextMoment? with
  | some moment => (moment - r.server.sessions.now) / clockGrain + 1
  | none => 1000

/-- Serves until a signal to stop arrives. -/
partial def serve (socket : UDP.Socket) (signals : List Signal.Waiter) (r : Running) :
    Async Running := do
  let timer ← Selector.sleep (.ofNat r.patience)
  let waits : List (Selectable Happening) :=
    .case (socket.recvSelector (UInt64.ofNat Wire.maxDatagramSize)) (fun (bytes, peer) =>
      return .datagram bytes.toList (peer.elim "" toString)) ::
    .case timer (fun _ => return .time) ::
    signals.map fun signal => .case signal.selector fun _ => return .stop
  match ← Selectable.one waits.toArray with
  | .datagram bytes endpoint => serve socket signals (← r.step (·.receive endpoint bytes))
  | .time => serve socket signals (← r.step id)
  | .stop => return r

/-- The address of a socket. -/
def socketAddress? : ListenAddress → Option Std.Net.SocketAddress
  | .ipv4 host port =>
    let octet (shift : Nat) : UInt8 := UInt8.ofNat (host >>> shift)
    some (.v4 ⟨.ofParts (octet 24) (octet 16) (octet 8) (octet 0), UInt16.ofNat port⟩)
  | .ipv6 host port =>
    let group (n : Nat) : UInt16 := UInt16.ofNat (host >>> (112 - 16 * n))
    some (.v6 ⟨.ofParts (group 0) (group 1) (group 2) (group 3) (group 4) (group 5) (group 6)
      (group 7), UInt16.ofNat port⟩)
  | .named _ _ => none

/-- Binds a socket to an address. -/
def bind? (addr : String) : IO (Option UDP.Socket) := do
  match ((ListenAddress.parse? addr).bind ListenAddress.resolve?).bind socketAddress? with
  | none => return none
  | some address =>
    let socket ← UDP.Socket.mk
    try
      socket.bind address
      return some socket
    catch _ => return none

/-! ## The command line -/

/-- Shows an error and what to do about it. -/
def report (context : String) (e : Error) : IO UInt32 := do
  IO.eprintln (context ++ e.message)
  for suggestion in e.suggestions do
    IO.eprintln ("  " ++ suggestion)
  return 1

/-- The text that explains the command line. -/
def helpText : String := "Ingests racing telemetry and reconstructs races

Usage: raceingest [OPTIONS]

Options:
  -c, --config <CONFIG>      YAML configuration file
  -l, --listen <LISTEN>      UDP address to listen on, e.g. 0.0.0.0:8000
  -d, --data-dir <DATA_DIR>  Persist races and samples under this directory
      --checkpoint-interval-ms <MS>
  -h, --help                 Print help
  -V, --version              Print version"

/-- Explains why a command line gives no arguments. -/
def reportUsage : Usage → IO UInt32
  | .help => do
    IO.println helpText
    return 0
  | .version => do
    IO.println "raceingest 0.1.0"
    return 0
  | .unknownArgument => refuse "unexpected argument"
  | .invalidValue => refuse "a value is missing"
  | .valueValidation => refuse "invalid value"
  | .argumentConflict => refuse "an argument is given twice"
  | .tooManyValues => refuse "unexpected value"
where
  /-- Refuses a command line. -/
  refuse (reason : String) : IO UInt32 := do
    IO.eprintln ("error: " ++ reason ++ "\n\nFor more information, try '--help'.")
    return 2

/-- Runs a server on a store until it is told to stop. -/
def run (config : AppConfig) (store : Backend) : IO UInt32 := do
  let world : World Backend :=
    { store, readings := fun _ => default, ids := ← randomIds }
  let server := (Server.ofConfig config.telemetry world (← randomIds)).listen
  let socket? ← bind? server.config.listenAddr
  let addr? ← socket?.mapM fun socket => return toString (← socket.getSockName)
  let server := server.completeBind 0 addr?
  match socket?, server.calls with
  | some socket, _ =>
    let signals ← [Signal.sigint, .sigterm].mapM fun signal => Signal.Waiter.mk signal false
    let saved := (store.files?).getD .empty
    let r ← (serve socket signals ⟨server, ← IO.monoNanosNow, saved⟩).block
    let (result, server) := r.server.shutdown config.shutdownTimeout
    discard <| { r with server }.step id
    match result with
    | .ok () => return 0
    | .error e => report "" e
  | none, [.returned e] => report "telemetry listener failed: " e
  | none, _ => return 1

/-- The program, given the words of its command line. -/
def main (words : List String) : IO UInt32 := do
  match Arguments.parse words with
  | .error usage => reportUsage usage
  | .ok args =>
    let content ← args.config.elim (return none) readFile?
    let known ← ["TELEMETRY_ADDR", "DATA_DIR", "LOG_LEVEL"].mapM fun name =>
      return (name, ← IO.getEnv name)
    match args.load (fun _ => content) (fun name => (known.lookup name).join) with
    | .error (.file path cause) => report ((LoadError.file path cause).message ++ ": ") cause
    | .error (.settings cause) => report "" cause
    | .ok config =>
      match ← openStore config.storage with
      | .error e => report "opening storage: " (.storage e)
      | .ok store => run config store

end RaceIngest.Program

/-- Runs the program. -/
def main (words : List String) : IO UInt32 := RaceIngest.Program.main words
