import RaceIngest.Proofs.Config.Produced
import RaceIngest.Proofs.Race.Readback

/-!
# Configurations are read back

A written configuration has all its settings, so no default is needed to read it; but a default would
also hide a setting that is written under one name and looked for under another. Every setting is
found under its name and read back as it is, with one exception: a duration is written in whole
milliseconds, whose number is cut to 64 bits, and what is read is the duration of that number
(`Duration.wrapped`). Such a duration is written as it is, so a second reading gives what the first
gave, and a configuration that the program can have is read back unchanged.

A storage is held in memory until its kind is known. Its document is nested once, and holds texts
only.

## Main definitions

* `Duration.wrapped`, `ServerConfig.wrapped`, `AppConfig.wrapped`: what is read of a document.
* `Json.IsReadAs`: both texts of a document are read as a value that has the same texts.

## Main results

* `ServerConfig.ofJson?_toJson`, `StorageConfig.ofJson?_toJson`, `AppConfig.ofJson?_toJson`: what is
  read of a document.
* `configurations_read_back`: the same for texts, and for the configurations of the program.
-/

namespace RaceIngest

open Json

-- Powers are those of the core library, also where algebra is imported.
attribute [local instance (high)] instPowNat

/-! ## Durations -/

namespace Duration

/-- What a document keeps of a duration: its whole milliseconds, modulo `2 ^ 64`. -/
def wrapped (d : Duration) : Duration := .ofMillis (d.millis % 2 ^ (64 : Nat))

theorem IsWhole.wrapped_eq {d : Duration} (h : d.IsWhole) : d.wrapped = d := by
  obtain ⟨n, hn, rfl⟩ := h
  rw [wrapped, millis_ofMillis, Nat.mod_eq_of_lt hn]

end Duration

namespace Json

theorem millis_wrapped (d : Duration) : millis d.wrapped = millis d := by
  rw [millis, Duration.wrapped, Duration.millis_ofMillis, Nat.mod_mod, millis]

theorem toNatBelow?_nat {n : Nat} (hn : n < 2 ^ (64 : Nat)) :
    (nat n).toNatBelow? (2 ^ (64 : Nat)) = some n :=
  Decimal.Numeral.toNatBelow?_ofNat hn (Nat.le_refl _)

theorem toMillis?_millis (d : Duration) : (millis d).toMillis? = some d.wrapped := by
  have hbelow : d.millis % 2 ^ (64 : Nat) < 2 ^ (64 : Nat) := Nat.mod_lt _ (by decide)
  rw [toMillis?, millis, toNatBelow?_nat hbelow, Option.map_some, Duration.wrapped]

theorem legible_millis (d : Duration) : (millis d).Legible := legible_nat _

/-! ## Records with defaults -/

theorem leadingFields?_ofMembers {members : List (String × Json)}
    (hdistinct : (members.map Prod.fst).Nodup) (names : List String) :
    (ofMembers members).leadingFields? names = some fun name => members.lookup name :=
  fields?_ofMembers hdistinct names

/-- A field that was given is read, whatever its default is. -/
theorem withDefault_bind {members : List (String × Json)} {name : String} {α β : Type}
    {value : Json} {a : α} {read : Json → Option α} (hgiven : members.lookup name = some value)
    (hread : read value = some a) (default : α) (next : α → Option β) :
    (Fields.withDefault (fun name => members.lookup name) name default read >>= next) = next a := by
  simp only [Fields.withDefault, hgiven, hread]
  rfl

/-! ## Reading a text -/

/-- Both texts of the document of a value are read as another value, which has the same texts. -/
structure IsReadAs {α : Type} (toJson : α → Json) (ofJson? : Json → Option α) (a b : α) : Prop where
  compact : (parse? (toJson a).chars).bind ofJson? = some b
  indented : (parse? ((toJson a).indented 0)).bind ofJson? = some b
  compact_eq : (toJson b).chars = (toJson a).chars
  indented_eq : (toJson b).indented 0 = (toJson a).indented 0

/-- The text of a legible document is as good as the document. -/
theorem isReadAs_of_legible {α : Type} {toJson : α → Json} {ofJson? : Json → Option α} {a b : α}
    (hlegible : (toJson a).Legible) (hread : ofJson? (toJson a) = some b)
    (hsame : toJson b = toJson a) : IsReadAs toJson ofJson? a b where
  compact := by rw [parse?_chars hlegible, Option.bind_some, hread]
  indented := by rw [parse?_indented hlegible, Option.bind_some, hread]
  compact_eq := by rw [hsame]
  indented_eq := by rw [hsame]

end Json

/-! ## Servers -/

namespace ServerConfig

/-- What a document keeps of the configuration of a server. -/
def wrapped (config : ServerConfig) : ServerConfig :=
  { config with checkpointInterval := config.checkpointInterval.wrapped }

theorem Sized.wrapped_eq {config : ServerConfig} (h : config.Sized) : config.wrapped = config := by
  rw [wrapped, h.checkpointInterval.wrapped_eq]

theorem toJson_wrapped (config : ServerConfig) : config.wrapped.toJson = config.toJson := by
  simp only [toJson, wrapped, millis_wrapped]

/-- The members of the document of a server configuration. -/
def members (config : ServerConfig) : List (String × Json) := [
  ("listen_addr", .text config.listenAddr),
  ("checkpoint_interval_ms", .millis config.checkpointInterval),
  ("queue_capacity", .nat config.queueCapacity),
  ("buffer_capacity", .nat config.bufferCapacity)]

theorem legible_toJson (config : ServerConfig) : config.toJson.Legible := by
  rw [toJson, legible_ofMembers]
  simp [legible_millis]

/-- What is read of the document of a server configuration. -/
theorem ofJson?_toJson {config : ServerConfig} (hqueue : config.queueCapacity < 2 ^ (64 : Nat))
    (hbuffer : config.bufferCapacity < 2 ^ (64 : Nat)) :
    ofJson? config.toJson = some config.wrapped := by
  have hnames : config.members.map Prod.fst = fieldNames := rfl
  have hdistinct : (config.members.map Prod.fst).Nodup := by
    rw [hnames]
    decide
  have hshape : config.toJson = .ofMembers config.members := rfl
  have hgiven (name : String) {value : Json} (hmem : (name, value) ∈ config.members) :
      config.members.lookup name = some value := lookup_of_mem hdistinct hmem
  have hlisten : toText? (.text config.listenAddr) = some config.listenAddr := rfl
  rw [hshape, ofJson?, leadingFields?_ofMembers hdistinct, Option.bind_eq_bind, Option.bind_some]
  dsimp only
  rw [withDefault_bind (hgiven "listen_addr" (by simp [members])) hlisten]
  rw [withDefault_bind (hgiven "checkpoint_interval_ms" (by simp [members]))
    (toMillis?_millis config.checkpointInterval)]
  rw [withDefault_bind (hgiven "queue_capacity" (by simp [members])) (toNatBelow?_nat hqueue)]
  rw [withDefault_bind (hgiven "buffer_capacity" (by simp [members])) (toNatBelow?_nat hbuffer)]
  rfl

end ServerConfig

/-! ## Storages -/

namespace StorageConfig

/-- The members of the document of a storage. -/
def members : StorageConfig → List (String × Json)
  | .memory => [("kind", .text "memory")]
  | .jsonl dataDir => [("kind", .text "jsonl"), ("data_dir", .text dataDir)]

theorem toJson_eq (storage : StorageConfig) : storage.toJson = .ofMembers storage.members := by
  cases storage <;> rfl

theorem legible_toJson (storage : StorageConfig) : storage.toJson.Legible := by
  rw [toJson_eq, legible_ofMembers]
  cases storage <;> simp [members]

/-- The document of a storage can be held. -/
theorem isPlain_toJson (storage : StorageConfig) (depth : Nat) :
    storage.toJson.isPlain (depth + 1) = true := by
  rw [toJson_eq]
  apply isPlain_ofMembers
  cases storage <;> simp [members, isPlain_text]

/-- A storage is read back, wherever it stands. -/
theorem ofJson?_toJson (storage : StorageConfig) (depth : Nat) :
    ofJson? (depth + 1) storage.toJson = some storage := by
  have hplain := storage.isPlain_toJson depth
  have hdistinct : (storage.members.map Prod.fst).Nodup := by
    cases storage <;> simp [members]
  have hfields (names : List String) : objectFields? names
      (storage.members.map fun member => (some member.1, member.2)) =
      some fun name => storage.members.lookup name := fields?_ofMembers hdistinct names
  have hshape : storage.toJson =
      .object (storage.members.map fun member => (some member.1, member.2)) := storage.toJson_eq
  rw [hshape] at hplain ⊢
  simp only [ofJson?, hplain, guard, if_true, hfields, Option.bind_eq_bind, Option.bind_some,
    Option.pure_def]
  cases storage <;> rfl

end StorageConfig

/-! ## Programs -/

namespace AppConfig

/-- What a document keeps of a configuration. -/
def wrapped (config : AppConfig) : AppConfig :=
  { config with
    telemetry := config.telemetry.wrapped
    shutdownTimeout := config.shutdownTimeout.wrapped }

theorem Sized.wrapped_eq {config : AppConfig} (h : config.Sized) : config.wrapped = config := by
  rw [wrapped, h.telemetry.wrapped_eq, h.shutdownTimeout.wrapped_eq]

theorem toJson_wrapped (config : AppConfig) : config.wrapped.toJson = config.toJson := by
  simp only [toJson, wrapped, millis_wrapped, ServerConfig.toJson_wrapped]

/-- The members of the document of a configuration. -/
def members (config : AppConfig) : List (String × Json) := [
  ("telemetry", config.telemetry.toJson),
  ("storage", config.storage.toJson),
  ("log_level", .text config.logLevel),
  ("shutdown_timeout_ms", .millis config.shutdownTimeout)]

theorem legible_toJson (config : AppConfig) : config.toJson.Legible := by
  rw [toJson, legible_ofMembers]
  simp [legible_millis, config.telemetry.legible_toJson, config.storage.legible_toJson]

/-- What is read of the document of a configuration. -/
theorem ofJson?_toJson {config : AppConfig}
    (hqueue : config.telemetry.queueCapacity < 2 ^ (64 : Nat))
    (hbuffer : config.telemetry.bufferCapacity < 2 ^ (64 : Nat)) :
    ofJson? config.toJson = some config.wrapped := by
  have hnames : config.members.map Prod.fst = fieldNames := rfl
  have hdistinct : (config.members.map Prod.fst).Nodup := by
    rw [hnames]
    decide
  have hshape : config.toJson = .ofMembers config.members := rfl
  have hgiven (name : String) {value : Json} (hmem : (name, value) ∈ config.members) :
      config.members.lookup name = some value := lookup_of_mem hdistinct hmem
  have hstorage : StorageConfig.ofJson? (plainDepth - 1) config.storage.toJson =
      some config.storage := config.storage.ofJson?_toJson (plainDepth - 2)
  have hlevel : toText? (.text config.logLevel) = some config.logLevel := rfl
  rw [hshape, ofJson?, leadingFields?_ofMembers hdistinct, Option.bind_eq_bind, Option.bind_some]
  dsimp only
  rw [withDefault_bind (hgiven "telemetry" (by simp [members]))
    (ServerConfig.ofJson?_toJson hqueue hbuffer)]
  rw [withDefault_bind (hgiven "storage" (by simp [members])) hstorage]
  rw [withDefault_bind (hgiven "log_level" (by simp [members])) hlevel]
  rw [withDefault_bind (hgiven "shutdown_timeout_ms" (by simp [members]))
    (toMillis?_millis config.shutdownTimeout)]
  rfl

end AppConfig

/-! ## All configurations -/

/-- **Configurations are read back.** Whatever the texts and the durations of a configuration are,
and whatever capacities of 64 bits it has, both forms of its document are read as the configuration
with every duration in whole milliseconds, whose number is cut to 64 bits; and that is written as the
same text again. So is the configuration of a server, and a storage is read back as it is. Everything
that the program can put together, from documents, the environment and the command line, is read
back unchanged, and what it loads is among this. -/
theorem configurations_read_back :
    (∀ config : ServerConfig, config.queueCapacity < 2 ^ (64 : Nat) →
      config.bufferCapacity < 2 ^ (64 : Nat) →
        IsReadAs ServerConfig.toJson ServerConfig.ofJson? config config.wrapped) ∧
    (∀ storage : StorageConfig,
      IsReadAs StorageConfig.toJson (StorageConfig.ofJson? plainDepth) storage storage) ∧
    (∀ config : AppConfig, config.telemetry.queueCapacity < 2 ^ (64 : Nat) →
      config.telemetry.bufferCapacity < 2 ^ (64 : Nat) →
        IsReadAs AppConfig.toJson AppConfig.ofJson? config config.wrapped) ∧
    (∀ config : AppConfig, config.Produced →
      IsReadBack ServerConfig.toJson ServerConfig.ofJson? config.telemetry ∧
        IsReadBack AppConfig.toJson AppConfig.ofJson? config) ∧
    ∀ (words : List String) (args : Arguments) (read : String → Option (List UInt8))
      (env : String → Option String) (config : AppConfig), Arguments.parse words = .ok args →
        args.load read env = .ok config → IsReadBack AppConfig.toJson AppConfig.ofJson? config := by
  have hproduced : ∀ config : AppConfig, config.Produced →
      IsReadBack ServerConfig.toJson ServerConfig.ofJson? config.telemetry ∧
        IsReadBack AppConfig.toJson AppConfig.ofJson? config := by
    intro config h
    have hsized := h.sized
    have htelemetry := ServerConfig.ofJson?_toJson hsized.telemetry.queueCapacity
      hsized.telemetry.bufferCapacity
    have hconfig := AppConfig.ofJson?_toJson hsized.telemetry.queueCapacity
      hsized.telemetry.bufferCapacity
    rw [hsized.telemetry.wrapped_eq] at htelemetry
    rw [hsized.wrapped_eq] at hconfig
    exact ⟨(isReadBack_iff config.telemetry.legible_toJson).mpr htelemetry,
      (isReadBack_iff config.legible_toJson).mpr hconfig⟩
  refine ⟨?_, ?_, ?_, hproduced, ?_⟩
  · intro config hqueue hbuffer
    exact isReadAs_of_legible config.legible_toJson (ServerConfig.ofJson?_toJson hqueue hbuffer)
      config.toJson_wrapped
  · intro storage
    exact isReadAs_of_legible storage.legible_toJson (storage.ofJson?_toJson (plainDepth - 1)) rfl
  · intro config hqueue hbuffer
    exact isReadAs_of_legible config.legible_toJson (AppConfig.ofJson?_toJson hqueue hbuffer)
      config.toJson_wrapped
  · intro words args read env config hparse hload
    exact (hproduced config (Arguments.produced_of_load hparse hload)).2

/-- An interval of five milliseconds and a fraction beyond `2 ^ 64` of them is read as five, and a
nanosecond as no time at all, while an address of characters that have to be escaped and the greatest
capacity are read as they are. The greatest interval that can be given on the command line is read
back, with a directory that is not ASCII. -/
theorem read_back_of_far_durations :
    let config : AppConfig :=
      { telemetry :=
          { listenAddr := "\"\\\n\x00\t/😀"
            checkpointInterval := ⟨(2 ^ (64 : Nat) + 5) * 1000000 + 999999⟩
            queueCapacity := 2 ^ (64 : Nat) - 1
            bufferCapacity := 0 }
        storage := .jsonl "a \"b\""
        logLevel := ""
        shutdownTimeout := ⟨1⟩ }
    let words := ["--data-dir=données", "--checkpoint-interval-ms", "18446744073709551615"]
    let args : Arguments :=
      { dataDir := some "données", checkpointIntervalMs := some (2 ^ (64 : Nat) - 1) }
    IsReadAs AppConfig.toJson AppConfig.ofJson? config
      { config with
        telemetry := { config.telemetry with checkpointInterval := .ofMillis 5 }
        shutdownTimeout := .ofMillis 0 } ∧
    Arguments.parse words = .ok args ∧
    args.load (fun _ => none) (fun _ => none) = .ok (args.override {}) ∧
    IsReadBack AppConfig.toJson AppConfig.ofJson? (args.override {}) := by
  intro config words args
  obtain ⟨-, -, hreadAs, -, hloaded⟩ := configurations_read_back
  have hparse : Arguments.parse words = .ok args := by decide +kernel
  have hload : args.load (fun _ => none) (fun _ => none) = .ok (args.override {}) := by
    decide +kernel
  have hwrapped : config.wrapped =
      { config with
        telemetry := { config.telemetry with checkpointInterval := .ofMillis 5 }
        shutdownTimeout := .ofMillis 0 } := by decide +kernel
  refine ⟨?_, hparse, hload, hloaded words args _ _ _ hparse hload⟩
  rw [← hwrapped]
  exact hreadAs config (by decide +kernel) (by decide +kernel)

end RaceIngest
