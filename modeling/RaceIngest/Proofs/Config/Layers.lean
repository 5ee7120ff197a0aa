import RaceIngest.Config.Layers

/-!
# The precedence of configuration layers

A setting can be given in up to four places: on the command line, in the environment, in the
configuration file, and by its default. The program fills a whole configuration from the defaults
and the file, checks it, overwrites parts of it twice and checks it again, so that what was given
where is not there any more when the result is.

Here a file has settings of its own (`FileSettings`), those that are written in it and no others. They
are read by the same readers, and a configuration is what they are completed to
(`AppConfig.ofYaml?_eq`). Then every setting of the result is the first that was given, and the two
checks come down to one question, since the layers above a file that was checked can spoil one
setting only, the interval, and only by a zero (`validate_override`).

## Main definitions

* `ServerSettings`, `FileSettings`: the settings that a document writes, and how they are read.
* `FileFault`: what can be wrong with a configuration file.
* `Arguments.Finds`: what the layer of the file is where nothing is wrong.

## Main results

* `AppConfig.ofYaml?_eq`: a document gives its settings, and the defaults for all others.
* `Arguments.load_by_precedence`: the first setting given counts.
-/

namespace RaceIngest

open Yaml Text

/-! ## The settings of a document -/

/-- Reads a field that may be missing. -/
def Yaml.Document.optional {α : Type} (found : List (String × Node)) (name : String)
    (read : Node → Following α) : Following (Option α) :=
  match found.lookup name with
  | some node => some <$> read node
  | none => return none

theorem Yaml.Document.withDefault_eq {α : Type} (found : List (String × Node)) (name : String)
    (default : α) (read : Node → Following α) :
    withDefault found name default read = (·.getD default) <$> optional found name read := by
  unfold withDefault optional
  cases found.lookup name with
  | none => simp
  | some node => simp

theorem Yaml.Document.optional_map {α β : Type} (found : List (String × Node)) (name : String)
    (f : α → β) (read : Node → Following α) :
    optional found name (fun node => f <$> read node) = Option.map f <$> optional found name read := by
  unfold optional
  cases found.lookup name with
  | none => simp
  | some node => simp

/-- What a reader makes of a document is mapped with the reader. -/
theorem Yaml.Document.run?_map {α β : Type} (d : Document) (f : α → β) (read : Following α) :
    d.run? (f <$> read) = (d.run? read).map f := by
  unfold run?
  cases hread : read d.referenceLimit with
  | none => simp [Functor.map, StateT.map, hread]
  | some outcome => simp [Functor.map, StateT.map, hread]

/-- The settings of a server that are written in a document. -/
structure ServerSettings where
  listenAddr : Option String := none
  checkpointInterval : Option Duration := none
  queueCapacity : Option Nat := none
  bufferCapacity : Option Nat := none
  deriving DecidableEq

namespace ServerSettings

/-- The settings with the defaults for those that are missing. -/
def complete (settings : ServerSettings) : ServerConfig :=
  let defaults : ServerConfig := {}
  { listenAddr := settings.listenAddr.getD defaults.listenAddr
    checkpointInterval := settings.checkpointInterval.getD defaults.checkpointInterval
    queueCapacity := settings.queueCapacity.getD defaults.queueCapacity
    bufferCapacity := settings.bufferCapacity.getD defaults.bufferCapacity }

/-- Reads the settings that are written. -/
def ofNode (d : Document) (node : Node) : Following ServerSettings := do
  let fields ← d.fields ServerConfig.fieldNames node
  let listenAddr ← Document.optional fields "listen_addr" d.text
  let checkpointInterval ← Document.optional fields "checkpoint_interval_ms" d.millis
  let queueCapacity ← Document.optional fields "queue_capacity" d.natural
  let bufferCapacity ← Document.optional fields "buffer_capacity" d.natural
  return { listenAddr, checkpointInterval, queueCapacity, bufferCapacity }

end ServerSettings

theorem ServerConfig.ofNode_eq (d : Document) (node : Node) :
    ofNode d node = ServerSettings.complete <$> ServerSettings.ofNode d node := by
  unfold ofNode ServerSettings.ofNode
  simp only [Document.withDefault_eq, map_bind, bind_map_left, map_pure]
  rfl

/-- The settings that are written in a configuration file. -/
structure FileSettings where
  telemetry : ServerSettings := {}
  storage : Option StorageConfig := none
  logLevel : Option String := none
  shutdownTimeout : Option Duration := none
  deriving DecidableEq

namespace FileSettings

/-- The settings with the defaults for those that are missing. -/
def complete (settings : FileSettings) : AppConfig :=
  let defaults : AppConfig := {}
  { telemetry := settings.telemetry.complete
    storage := settings.storage.getD defaults.storage
    logLevel := settings.logLevel.getD defaults.logLevel
    shutdownTimeout := settings.shutdownTimeout.getD defaults.shutdownTimeout }

/-- Reads the settings that are written. -/
def ofNode (d : Document) (node : Node) : Following FileSettings := do
  let fields ← d.fields AppConfig.fieldNames node
  let telemetry ← Document.withDefault fields "telemetry" {} (ServerSettings.ofNode d)
  let storage ← Document.optional fields "storage" (StorageConfig.ofNode d)
  let logLevel ← Document.optional fields "log_level" d.text
  let shutdownTimeout ← Document.optional fields "shutdown_timeout_ms" d.millis
  return { telemetry, storage, logLevel, shutdownTimeout }

/-- The settings that a document writes. -/
def ofYaml? (cs : List Char) : Option FileSettings := do
  let d ← Yaml.parse? cs
  match d.root with
  | none => some {}
  | some root => d.run? (ofNode d root)

end FileSettings

namespace AppConfig

theorem ofNode_eq (d : Document) (node : Node) :
    ofNode d node = FileSettings.complete <$> FileSettings.ofNode d node := by
  have htelemetry (fields : List (String × Node)) :
      Document.optional fields "telemetry" (ServerConfig.ofNode d) =
        Option.map ServerSettings.complete <$>
          Document.optional fields "telemetry" (ServerSettings.ofNode d) := by
    rw [← Document.optional_map]
    exact congrArg _ (funext (ServerConfig.ofNode_eq d))
  unfold ofNode FileSettings.ofNode
  simp only [Document.withDefault_eq, htelemetry, map_bind, bind_map_left, map_pure]
  refine bind_congr fun fields => bind_congr fun telemetry => ?_
  cases telemetry with
  | none => rfl
  | some settings => rfl

/-- A document gives its settings, and the defaults for all others. -/
theorem ofYaml?_eq (cs : List Char) :
    ofYaml? cs = (FileSettings.ofYaml? cs).map FileSettings.complete := by
  unfold ofYaml? FileSettings.ofYaml?
  cases Yaml.parse? cs with
  | none => rfl
  | some d =>
      show (match d.root with
        | none => some {}
        | some root => d.run? (ofNode d root)) = Option.map _ (match d.root with
        | none => some {}
        | some root => d.run? (FileSettings.ofNode d root))
      cases d.root with
      | none => rfl
      | some root =>
          simp only [ofNode_eq]
          exact Document.run?_map d _ _

end AppConfig

/-! ## The layer of the file -/

/-- What can be wrong with a configuration file, given its bytes if it can be read. -/
inductive FileFault (path : String) (content : Option (List UInt8)) : Error → Prop
  | unread (hread : content.bind Utf8.decode? = none) : FileFault path content (.file path)
  | unparsed {cs : List Char} (hread : content.bind Utf8.decode? = some cs)
      (hparse : FileSettings.ofYaml? cs = none) : FileFault path content AppConfig.unreadable
  | invalid {cs : List Char} {settings : FileSettings} {cause : Error}
      (hread : content.bind Utf8.decode? = some cs)
      (hparse : FileSettings.ofYaml? cs = some settings)
      (hcheck : settings.complete.validate = .error cause) : FileFault path content cause

/-- The settings of a file with nothing wrong. -/
structure FileGives (content : Option (List UInt8)) (cs : List Char) (settings : FileSettings) :
    Prop where
  read : content.bind Utf8.decode? = some cs
  parse : FileSettings.ofYaml? cs = some settings
  check : settings.complete.validate = .ok ()

theorem fault_or_gives (path : String) (content : Option (List UInt8)) :
    (∃ cause, FileFault path content cause) ∨ ∃ cs settings, FileGives content cs settings := by
  cases hread : content.bind Utf8.decode? with
  | none => exact .inl ⟨_, .unread hread⟩
  | some cs =>
      cases hparse : FileSettings.ofYaml? cs with
      | none => exact .inl ⟨_, .unparsed hread hparse⟩
      | some settings =>
          cases hcheck : settings.complete.validate with
          | error cause => exact .inl ⟨cause, .invalid hread hparse hcheck⟩
          | ok done => exact .inr ⟨cs, settings, hread, hparse, hcheck⟩

theorem ofFile_of_fault {path : String} {content : Option (List UInt8)} {cause : Error}
    (h : FileFault path content cause) : AppConfig.ofFile path content = .error cause := by
  unfold AppConfig.ofFile
  cases h with
  | unread hread => rw [hread]
  | unparsed hread hparse =>
      rw [hread]
      simp only [AppConfig.parse, AppConfig.ofYaml?_eq, hparse, Option.map_none]
  | invalid hread hparse hcheck =>
      rw [hread]
      simp only [AppConfig.parse, AppConfig.ofYaml?_eq, hparse, Option.map_some, hcheck]
      rfl

theorem ofFile_of_gives {path : String} {content : Option (List UInt8)} {cs : List Char}
    {settings : FileSettings} (h : FileGives content cs settings) :
    AppConfig.ofFile path content = .ok settings.complete := by
  unfold AppConfig.ofFile
  rw [h.read]
  simp only [AppConfig.parse, AppConfig.ofYaml?_eq, h.parse, Option.map_some, h.check]
  rfl

theorem FileGives.not_fault {path : String} {content : Option (List UInt8)} {cs : List Char}
    {settings : FileSettings} {cause : Error} (h : FileGives content cs settings) :
    ¬ FileFault path content cause := by
  intro hfault
  have hfailed := ofFile_of_fault hfault
  rw [ofFile_of_gives h] at hfailed
  cases hfailed

/-! ## The layers above the file -/

/-- What the environment gives under a name, unless it is blank. -/
def fromEnvironment (env : String → Option String) (name : String) : Option String :=
  (env name).filter (!isBlankSetting ·)

theorem Duration.isZero_ofMillis (millis : Nat) : (ofMillis millis).isZero = decide (millis = 0) := by
  by_cases hzero : millis = 0
  · simp [isZero, ofMillis, hzero]
  · have hne : millis * 1000000 ≠ 0 := by omega
    rw [decide_eq_false hzero]
    exact beq_false_of_ne hne

theorem AppConfig.validate_eq_ok_iff (config : AppConfig) :
    config.validate = .ok () ↔
      config.telemetry.validate = .ok () ∧ config.shutdownTimeout.isZero = false := by
  unfold validate
  cases config.telemetry.validate with
  | error cause => simp [bind, Except.bind]
  | ok done =>
      by_cases hzero : config.shutdownTimeout.isZero = true
      · simp [bind, Except.bind, hzero]
      · simp [bind, Except.bind, hzero, pure, Except.pure]

/-- The first setting that is given: by the command line, the environment, the file, the defaults. -/
structure ByPrecedence (args : Arguments) (env : String → Option String) (settings : FileSettings)
    (config : AppConfig) : Prop where
  listenAddr_eq : config.telemetry.listenAddr =
    ((args.listen.or (fromEnvironment env "TELEMETRY_ADDR")).or settings.telemetry.listenAddr).getD
      ({} : ServerConfig).listenAddr
  storage_eq : config.storage =
    (((args.dataDir.map .jsonl).or ((fromEnvironment env "DATA_DIR").map .jsonl)).or
      settings.storage).getD ({} : AppConfig).storage
  logLevel_eq : config.logLevel =
    ((fromEnvironment env "LOG_LEVEL").or settings.logLevel).getD ({} : AppConfig).logLevel
  checkpointInterval_eq : config.telemetry.checkpointInterval =
    ((args.checkpointIntervalMs.map .ofMillis).or settings.telemetry.checkpointInterval).getD
      ({} : ServerConfig).checkpointInterval
  queueCapacity_eq : config.telemetry.queueCapacity =
    settings.telemetry.queueCapacity.getD ({} : ServerConfig).queueCapacity
  bufferCapacity_eq : config.telemetry.bufferCapacity =
    settings.telemetry.bufferCapacity.getD ({} : ServerConfig).bufferCapacity
  shutdownTimeout_eq : config.shutdownTimeout =
    settings.shutdownTimeout.getD ({} : AppConfig).shutdownTimeout

namespace Arguments

variable (args : Arguments) (read : String → Option (List UInt8)) (env : String → Option String)

/-- The layer of the file where nothing is wrong: the settings of the file that is named, or none. -/
def Finds (settings : FileSettings) : Prop :=
  (args.config = none ∧ settings = {}) ∨
    ∃ path cs, args.config = some path ∧ FileGives (read path) cs settings

/-- The configuration of all layers. -/
theorem byPrecedence_override (settings : FileSettings) :
    ByPrecedence args env settings (args.override (settings.complete.override env)) where
  listenAddr_eq := by
    show args.listen.getD ((fromEnvironment env "TELEMETRY_ADDR").getD
      (settings.telemetry.listenAddr.getD _)) = _
    rw [Option.getD_or, Option.getD_or]
  storage_eq := by
    show (args.dataDir.map StorageConfig.jsonl).getD
      (((fromEnvironment env "DATA_DIR").map StorageConfig.jsonl).getD
        (settings.storage.getD _)) = _
    rw [Option.getD_or, Option.getD_or]
  logLevel_eq := by
    show (fromEnvironment env "LOG_LEVEL").getD (settings.logLevel.getD _) = _
    rw [Option.getD_or]
  checkpointInterval_eq := by
    show (args.checkpointIntervalMs.map Duration.ofMillis).getD
      (settings.telemetry.checkpointInterval.getD _) = _
    rw [Option.getD_or]
  queueCapacity_eq := rfl
  bufferCapacity_eq := rfl
  shutdownTimeout_eq := rfl

/-- The layers above a valid configuration can spoil nothing but the interval. -/
theorem validate_override {config : AppConfig} (h : config.validate = .ok ()) :
    (args.override (config.override env)).validate =
      if args.checkpointIntervalMs = some 0 then
        .error (.config "telemetry" "checkpoint interval must be positive")
      else .ok () := by
  obtain ⟨htelemetry, htimeout⟩ := (AppConfig.validate_eq_ok_iff config).mp h
  obtain ⟨hinterval, hqueue, hbuffer⟩ := (ServerConfig.validate_eq_ok_iff _).mp htelemetry
  have hgiven : (args.override (config.override env)).telemetry.checkpointInterval =
      (args.checkpointIntervalMs.map .ofMillis).getD config.telemetry.checkpointInterval := rfl
  by_cases hzero : args.checkpointIntervalMs = some 0
  · have hserver : (args.override (config.override env)).telemetry.validate =
        .error (.config "telemetry" "checkpoint interval must be positive") := by
      unfold ServerConfig.validate
      rw [hgiven, hzero]
      rfl
    rw [if_pos hzero]
    unfold AppConfig.validate
    rw [hserver]
    rfl
  · have hpositive : (args.override (config.override env)).telemetry.checkpointInterval.isZero =
        false := by
      rw [hgiven]
      cases hmillis : args.checkpointIntervalMs with
      | none => exact hinterval
      | some millis =>
          have hne : millis ≠ 0 := fun heq => hzero (by rw [hmillis, heq])
          show (Duration.ofMillis millis).isZero = false
          rw [Duration.isZero_ofMillis, decide_eq_false hne]
    rw [if_neg hzero, AppConfig.validate_eq_ok_iff, ServerConfig.validate_eq_ok_iff]
    exact ⟨⟨hpositive, hqueue, hbuffer⟩, htimeout⟩

variable {args read}

theorem base_of_fault {path : String} {cause : Error} (hnamed : args.config = some path)
    (h : FileFault path (read path) cause) : args.base read = .error (.file path cause) := by
  unfold base
  rw [hnamed]
  show (AppConfig.ofFile path (read path)).mapError (LoadError.file path) = _
  rw [ofFile_of_fault h]
  rfl

theorem Finds.base_eq {settings : FileSettings} (h : args.Finds read settings) :
    args.base read = .ok settings.complete := by
  unfold base
  rcases h with ⟨hunnamed, rfl⟩ | ⟨path, cs, hnamed, hgives⟩
  · rw [hunnamed]
    rfl
  · rw [hnamed]
    show (AppConfig.ofFile path (read path)).mapError (LoadError.file path) = _
    rw [ofFile_of_gives hgives]
    rfl

theorem Finds.unique {settings others : FileSettings} (h : args.Finds read settings)
    (h' : args.Finds read others) : settings = others := by
  rcases h with ⟨hunnamed, rfl⟩ | ⟨path, cs, hnamed, hgives⟩
  · rcases h' with ⟨-, rfl⟩ | ⟨path, cs, hnamed, -⟩
    · rfl
    · cases hunnamed.symm.trans hnamed
  · rcases h' with ⟨hunnamed, -⟩ | ⟨path', cs', hnamed', hgives'⟩
    · cases hunnamed.symm.trans hnamed
    · cases hnamed.symm.trans hnamed'
      cases hgives.read.symm.trans hgives'.read
      exact Option.some.inj (hgives.parse.symm.trans hgives'.parse)

/-- The layer of the file is valid together with the defaults. -/
theorem Finds.validate_eq {settings : FileSettings} (h : args.Finds read settings) :
    settings.complete.validate = .ok () := by
  rcases h with ⟨-, rfl⟩ | ⟨path, cs, -, hgives⟩
  · rfl
  · exact hgives.check

theorem exists_finds (h : ∀ path cause, args.config = some path → ¬ FileFault path (read path) cause) :
    ∃ settings, args.Finds read settings := by
  cases hnamed : args.config with
  | none => exact ⟨{}, .inl ⟨hnamed, rfl⟩⟩
  | some path =>
      rcases fault_or_gives path (read path) with ⟨cause, hfault⟩ | ⟨cs, settings, hgives⟩
      · exact absurd hfault (h path cause hnamed)
      · exact ⟨settings, .inr ⟨path, cs, hnamed, hgives⟩⟩

/-- What is put together above a file with nothing wrong. -/
theorem Finds.load_eq {settings : FileSettings} (h : args.Finds read settings) :
    args.load read env =
      if args.checkpointIntervalMs = some 0 then
        .error (.settings (.config "telemetry" "checkpoint interval must be positive"))
      else .ok (args.override (settings.complete.override env)) := by
  unfold load
  rw [h.base_eq]
  simp only [bind, Except.bind, args.validate_override env h.validate_eq]
  by_cases hzero : args.checkpointIntervalMs = some 0
  · rw [if_pos hzero, if_pos hzero]
    rfl
  · rw [if_neg hzero, if_neg hzero]
    rfl

variable (args read)

/-- The first setting given counts. If the file that the command line names cannot be read, cannot
be parsed or is not valid by itself, there is no configuration, whatever else is given, and the
reason is told with the path. Otherwise there is one, unless the command line gives an interval of
zero; and every setting of it is the first of the layers that give it. -/
theorem load_by_precedence :
    (∀ path cause, args.config = some path → FileFault path (read path) cause →
      args.load read env = .error (.file path cause)) ∧
    ((∀ path cause, args.config = some path → ¬ FileFault path (read path) cause) →
      ∃ settings, args.Finds read settings ∧
        ((∃ failure, args.load read env = .error failure) ↔
          args.checkpointIntervalMs = some 0) ∧
        (args.checkpointIntervalMs = some 0 → args.load read env =
          .error (.settings (.config "telemetry" "checkpoint interval must be positive"))) ∧
        (args.checkpointIntervalMs ≠ some 0 → ∃ config,
          args.load read env = .ok config ∧ ByPrecedence args env settings config)) := by
  constructor
  · intro path cause hnamed hfault
    unfold load
    rw [base_of_fault hnamed hfault]
    rfl
  · intro hnone
    obtain ⟨settings, hfinds⟩ := exists_finds hnone
    have hload := hfinds.load_eq env
    refine ⟨settings, hfinds, ?_, ?_, ?_⟩
    · by_cases hzero : args.checkpointIntervalMs = some 0
      · rw [hload, if_pos hzero]
        exact ⟨fun _ => hzero, fun _ => ⟨_, rfl⟩⟩
      · rw [hload, if_neg hzero]
        constructor
        · rintro ⟨failure, hfailed⟩
          cases hfailed
        · intro h
          exact absurd h hzero
    · intro hzero
      rw [hload, if_pos hzero]
    · intro hzero
      rw [hload, if_neg hzero]
      exact ⟨_, rfl, byPrecedence_override args env settings⟩

/-- A file with an address and a level of its own, and nothing else. -/
def noted : List Char := "telemetry:\n  listen_addr: a:1\nlog_level: warn\n".toList

/-- Below a blank address and another level in the environment and a directory on the command line,
the file still gives the address, and the defaults give the interval. An interval of zero is refused,
and so is a file that is no text, even then. -/
theorem loaded_of_noted :
    let read : String → Option (List UInt8) := fun path =>
      if path = "noted" then some (Utf8.encode noted) else some [0xff]
    let env : String → Option String := fun name =>
      if name = "TELEMETRY_ADDR" then some " " else if name = "LOG_LEVEL" then some "debug" else none
    let args : Arguments := { config := some "noted", dataDir := some "d" }
    (∃ config, args.load read env = .ok config ∧ config.telemetry.listenAddr = "a:1" ∧
      config.storage = .jsonl "d" ∧ config.logLevel = "debug" ∧
      config.telemetry.checkpointInterval = .ofSeconds 5) ∧
    ({ args with checkpointIntervalMs := some 0 } : Arguments).load read env =
      .error (.settings (.config "telemetry" "checkpoint interval must be positive")) ∧
    ({ config := some "broken", checkpointIntervalMs := some 0 } : Arguments).load read env =
      .error (.file "broken" (.file "broken")) := by
  intro read env args
  have hgives : FileGives (read "noted") noted
      { telemetry := { listenAddr := some "a:1" }, logLevel := some "warn" } :=
    ⟨by decide +kernel, by decide +kernel, rfl⟩
  have hnone : ∀ path cause, some "noted" = some path → ¬ FileFault path (read path) cause := by
    rintro path cause ⟨⟩
    exact hgives.not_fault
  refine ⟨?_, ?_, ?_⟩
  · obtain ⟨settings, hfinds, -, -, hload⟩ := (load_by_precedence args read env).2 hnone
    obtain rfl := hfinds.unique (.inr ⟨"noted", noted, rfl, hgives⟩)
    obtain ⟨config, hconfig, hprecedence⟩ := hload (by decide)
    refine ⟨config, hconfig, hprecedence.listenAddr_eq.trans ?_, hprecedence.storage_eq,
      hprecedence.logLevel_eq.trans ?_, hprecedence.checkpointInterval_eq⟩
    · decide +kernel
    · decide +kernel
  · obtain ⟨-, -, -, hzero, -⟩ :=
      (load_by_precedence { args with checkpointIntervalMs := some 0 } read env).2 hnone
    exact hzero rfl
  · exact (load_by_precedence _ read env).1 "broken" _ rfl (.unread (by decide +kernel))

end Arguments

end RaceIngest
