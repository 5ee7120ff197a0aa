import RaceIngest.Config.Layers

/-!
# The configurations that the program can have

A configuration can hold any duration and any capacity. The program never gets one that does. All its
intervals come from a number of milliseconds and all its capacities from a number, read from a
document or from the command line, and both are read in 64 bits; the environment gives texts only. So
what is produced by the defaults, a document, the environment and the command line, in any order and
as often as one likes, is sized (`AppConfig.Sized`).

## Main definitions

* `Duration.IsWhole`: whole milliseconds, whose number has 64 bits.
* `AppConfig.Produced`: the configurations that can be put together.

## Main results

* `AppConfig.Produced.sized`: they are sized.
* `Arguments.produced_of_load`: whatever the program loads is produced.
-/

namespace RaceIngest

-- Powers are those of the core library, also where algebra is imported.
attribute [local instance (high)] instPowNat

/-! ## Sized configurations -/

/-- A duration of whole milliseconds, whose number has 64 bits. -/
def Duration.IsWhole (d : Duration) : Prop := ∃ n, n < 2 ^ (64 : Nat) ∧ d = .ofMillis n

/-- The interval is of whole milliseconds, and all numbers have 64 bits. -/
structure ServerConfig.Sized (config : ServerConfig) : Prop where
  checkpointInterval : config.checkpointInterval.IsWhole
  queueCapacity : config.queueCapacity < 2 ^ (64 : Nat)
  bufferCapacity : config.bufferCapacity < 2 ^ (64 : Nat)

theorem ServerConfig.sized_default : Sized {} where
  checkpointInterval := ⟨5000, by decide, rfl⟩
  queueCapacity := by decide
  bufferCapacity := by decide

/-- All durations are of whole milliseconds, and all numbers have 64 bits. -/
structure AppConfig.Sized (config : AppConfig) : Prop where
  telemetry : config.telemetry.Sized
  shutdownTimeout : config.shutdownTimeout.IsWhole

theorem AppConfig.sized_default : Sized {} where
  telemetry := ServerConfig.sized_default
  shutdownTimeout := ⟨10000, by decide, rfl⟩

/-! ## What is read of a document -/

namespace Yaml

/-- Whatever a reader reads, after however many references, has a property. -/
def Reads {α : Type} (holds : α → Prop) (read : Following α) : Prop :=
  ∀ limit a left, read limit = some (a, left) → holds a

variable {α β : Type} {holds : α → Prop} {after : β → Prop}

theorem reads_any (read : Following α) : Reads (fun _ => True) read := fun _ _ _ _ => trivial

theorem reads_pure {a : α} (h : holds a) : Reads holds (pure a) := by
  intro limit b left hread
  cases hread
  exact h

theorem Reads.bind {read : Following α} (h : Reads holds read) {next : α → Following β}
    (hnext : ∀ a, holds a → Reads after (next a)) : Reads after (read >>= next) := by
  intro limit b left hread
  obtain ⟨⟨a, middle⟩, hfirst, hrest⟩ := Option.bind_eq_some_iff.mp hread
  exact hnext a (h limit a middle hfirst) middle b left hrest

theorem reads_withDefault {read : Node → Following α} (h : ∀ node, Reads holds (read node))
    {default : α} (hdefault : holds default) (found : List (String × Node)) (name : String) :
    Reads holds (Document.withDefault found name default read) := by
  unfold Document.withDefault
  split
  · exact h _
  · exact reads_pure hdefault

/-- A number that is read has 64 bits. -/
theorem reads_natural (d : Document) (node : Node) :
    Reads (· < 2 ^ (64 : Nat)) (d.natural node) := by
  unfold Document.natural
  refine (reads_any _).bind fun scalar _ => ?_
  split
  · refine (reads_any _).bind fun _ _ => ?_
    intro limit n left hread
    obtain ⟨m, hnumber, hsame⟩ := Option.bind_eq_some_iff.mp hread
    cases hsame
    have hbelow := (Option.filter_eq_some_iff.mp hnumber).2
    exact of_decide_eq_true hbelow
  · intro limit n left hread
    cases hread

theorem reads_millis (d : Document) (node : Node) : Reads Duration.IsWhole (d.millis node) :=
  (reads_natural d node).bind fun n hbelow => reads_pure ⟨n, hbelow, rfl⟩

end Yaml

open Yaml

theorem ServerConfig.reads_ofNode (d : Document) (node : Node) : Reads Sized (ofNode d node) := by
  unfold ofNode
  refine (reads_any _).bind fun fields _ => ?_
  refine (reads_any _).bind fun listenAddr _ => ?_
  refine (reads_withDefault (reads_millis d) sized_default.checkpointInterval fields _).bind
    fun checkpointInterval hinterval => ?_
  refine (reads_withDefault (reads_natural d) sized_default.queueCapacity fields _).bind
    fun queueCapacity hqueue => ?_
  refine (reads_withDefault (reads_natural d) sized_default.bufferCapacity fields _).bind
    fun bufferCapacity hbuffer => ?_
  exact reads_pure ⟨hinterval, hqueue, hbuffer⟩

namespace AppConfig

theorem reads_ofNode (d : Document) (node : Node) : Reads Sized (ofNode d node) := by
  unfold ofNode
  refine (reads_any _).bind fun fields _ => ?_
  refine (reads_withDefault (ServerConfig.reads_ofNode d) sized_default.telemetry fields _).bind
    fun telemetry htelemetry => ?_
  refine (reads_any _).bind fun storage _ => ?_
  refine (reads_any _).bind fun logLevel _ => ?_
  refine (reads_withDefault (reads_millis d) sized_default.shutdownTimeout fields _).bind
    fun shutdownTimeout htimeout => ?_
  exact reads_pure ⟨htelemetry, htimeout⟩

theorem sized_of_ofYaml? {cs : List Char} {config : AppConfig} (h : ofYaml? cs = some config) :
    config.Sized := by
  obtain ⟨d, -, hroot⟩ := Option.bind_eq_some_iff.mp h
  cases hd : d.root with
  | none =>
      rw [hd] at hroot
      cases hroot
      exact sized_default
  | some root =>
      rw [hd] at hroot
      obtain ⟨⟨found, left⟩, hread, hsame⟩ := Option.map_eq_some_iff.mp hroot
      cases hsame
      exact reads_ofNode d root _ _ _ hread

theorem sized_of_parse {cs : List Char} {config : AppConfig} (h : parse cs = .ok config) :
    config.Sized := by
  unfold parse at h
  split at h
  · cases h
  · rename_i found hfound
    cases hcheck : found.validate with
    | error cause =>
        rw [hcheck] at h
        cases h
    | ok done =>
        rw [hcheck] at h
        cases h
        exact sized_of_ofYaml? hfound

end AppConfig

/-! ## What is given on the command line -/

/-- An interval that is given has 64 bits. -/
def Arguments.Sized (args : Arguments) : Prop :=
  ∀ millis, args.checkpointIntervalMs = some millis → millis < 2 ^ (64 : Nat)

namespace CommandLine

/-- What is taken from a command line, if anything is, has a property. -/
def Takes {α : Type} (holds : α → Prop) (taken : Except Usage α) : Prop :=
  ∀ a, taken = .ok a → holds a

variable {α β : Type} {holds : α → Prop} {after : β → Prop}

theorem takes_any (taken : Except Usage α) : Takes (fun _ => True) taken := fun _ _ => trivial

theorem takes_error (usage : Usage) : Takes holds (.error usage) := by
  rintro a ⟨⟩

theorem takes_ok {a : α} (h : holds a) : Takes holds (.ok a) := by
  rintro b ⟨⟩
  exact h

theorem Takes.bind {taken : Except Usage α} (h : Takes holds taken) {next : α → Except Usage β}
    (hnext : ∀ a, holds a → Takes after (next a)) : Takes after (taken >>= next) := by
  cases taken with
  | error usage => exact takes_error usage
  | ok a => exact hnext a (h a rfl)

/-- The interval that is given, if one is, has 64 bits. -/
def Progress.Sized (p : Progress) : Prop := p.given.Sized

theorem takes_give {given : Arguments} (h : given.Sized) (s : Setting)
    (value : Option (List Char)) : Takes Arguments.Sized (give given s value) := by
  unfold give
  cases value with
  | none => exact takes_error _
  | some value =>
      dsimp only
      split
      · exact takes_error _
      · cases s with
        | config | dataDir => exact (takes_any _).bind fun _ _ => takes_ok h
        | listen => exact takes_ok h
        | checkpointInterval =>
            dsimp only
            split
            · rename_i millis hmillis
              refine takes_ok fun given hgiven => ?_
              cases hgiven
              exact of_decide_eq_true (Option.filter_eq_some_iff.mp hmillis).2
            · exact takes_error _

theorem takes_settle {p : Progress} (h : p.Sized) : Takes Progress.Sized (settle p) := by
  unfold settle
  split
  · exact takes_ok h
  · exact (takes_give h _ _).bind fun given hgiven => takes_ok hgiven

theorem takes_readName {p : Progress} (h : p.Sized) (name : Option Name)
    (attached : Option (List Char)) : Takes Progress.Sized (readName p name attached) := by
  unfold readName
  split
  · exact takes_error _
  · refine (takes_settle h).bind fun settled hsettled => ?_
    split
    · exact (takes_give hsettled _ _).bind fun given hgiven => takes_ok hgiven
    · exact takes_ok hsettled
  · exact (takes_any _).bind fun _ _ => takes_error _
  · exact (takes_any _).bind fun _ _ => takes_error _

theorem takes_step {p : Progress} (h : p.Sized) (word : Word) :
    Takes Progress.Sized (step p word) := by
  unfold step
  split
  · exact takes_error _
  · cases word with
    | separator => exact takes_ok h
    | long name attached =>
        dsimp only
        split
        · split
          · exact takes_error _
          · exact takes_readName h _ _
        · split
          · exact takes_error _
          · exact takes_readName h _ _
        · exact takes_readName h _ _
    | short letter attached => exact takes_readName h _ _
    | value cs =>
        dsimp only
        split
        · exact takes_ok h
        · exact takes_error _

theorem takes_foldlM {read : Progress → String → Except Usage Progress}
    (hread : ∀ p word, p.Sized → Takes Progress.Sized (read p word)) (words : List String)
    {p : Progress} (h : p.Sized) : Takes Progress.Sized (words.foldlM read p) := by
  induction words generalizing p with
  | nil => exact takes_ok h
  | cons word words ih =>
      rw [List.foldlM_cons]
      exact (hread p word h).bind fun next hnext => ih hnext

end CommandLine

open CommandLine

theorem Arguments.sized_of_parse {words : List String} {args : Arguments}
    (h : parse words = .ok args) : args.Sized := by
  have hstart : Progress.Sized {} := by
    rintro millis ⟨⟩
  have htakes : Takes Arguments.Sized (parse words) := by
    unfold parse
    refine (takes_foldlM (fun p word hp => takes_step hp _) words hstart).bind fun p hp => ?_
    exact (takes_settle hp).bind fun settled hsettled => takes_ok hsettled
  exact htakes args h

/-! ## What the program loads -/

/-- The configurations that can be put together: the defaults, the checked settings of a document,
and these with settings replaced by the environment and by the command line. -/
inductive AppConfig.Produced : AppConfig → Prop where
  | default : Produced {}
  | parsed {cs : List Char} {config : AppConfig} (hparse : parse cs = .ok config) : Produced config
  | overridden {config : AppConfig} (h : config.Produced) (lookup : String → Option String) :
      Produced (config.override lookup)
  | commanded {config : AppConfig} (h : config.Produced) {words : List String} {args : Arguments}
      (hparse : Arguments.parse words = .ok args) : Produced (args.override config)

theorem AppConfig.Produced.sized {config : AppConfig} (h : config.Produced) : config.Sized := by
  induction h with
  | default => exact sized_default
  | parsed hparse => exact sized_of_parse hparse
  | overridden h lookup ih =>
      exact ⟨⟨ih.telemetry.checkpointInterval, ih.telemetry.queueCapacity,
        ih.telemetry.bufferCapacity⟩, ih.shutdownTimeout⟩
  | @commanded config h words args hparse ih =>
      have hargs := Arguments.sized_of_parse hparse
      refine ⟨⟨?_, ih.telemetry.queueCapacity, ih.telemetry.bufferCapacity⟩, ih.shutdownTimeout⟩
      cases hinterval : args.checkpointIntervalMs with
      | none =>
          simp only [Arguments.override, hinterval, Option.map_none, Option.getD_none]
          exact ih.telemetry.checkpointInterval
      | some millis =>
          simp only [Arguments.override, hinterval, Option.map_some, Option.getD_some]
          exact ⟨millis, hargs millis hinterval, rfl⟩

/-- A file gives the checked settings of a document. -/
theorem AppConfig.produced_of_ofFile {path : String} {content : Option (List UInt8)}
    {config : AppConfig} (h : ofFile path content = .ok config) : config.Produced := by
  unfold ofFile at h
  split at h
  · cases h
  · exact .parsed h

theorem Arguments.produced_of_base {args : Arguments} {read : String → Option (List UInt8)}
    {config : AppConfig} (h : args.base read = .ok config) : config.Produced := by
  unfold base at h
  split at h
  · cases h
    exact .default
  · rename_i path hnamed
    cases hfile : AppConfig.ofFile path (read path) with
    | error cause =>
        rw [hfile] at h
        cases h
    | ok found =>
        rw [hfile] at h
        cases h
        exact AppConfig.produced_of_ofFile hfile

/-- Whatever the program loads is produced. -/
theorem Arguments.produced_of_load {words : List String} {args : Arguments}
    (hparse : parse words = .ok args) {read : String → Option (List UInt8)}
    {env : String → Option String} {config : AppConfig} (h : args.load read env = .ok config) :
    config.Produced := by
  unfold load at h
  cases hbase : args.base read with
  | error failure =>
      rw [hbase] at h
      cases h
  | ok lowest =>
      have hproduced : (args.override (lowest.override env)).Produced :=
        .commanded (.overridden (produced_of_base hbase) env) hparse
      rw [hbase] at h
      simp only [bind, Except.bind] at h
      cases hcheck : (args.override (lowest.override env)).validate with
      | error cause =>
          rw [hcheck] at h
          cases h
      | ok done =>
          rw [hcheck] at h
          cases h
          exact hproduced

end RaceIngest
