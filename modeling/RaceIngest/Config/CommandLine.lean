import RaceIngest.Decimal.Digits

/-!
# The command line

The program takes four options, each with one value and at most once, by a long name and most of
them by a letter. A value follows its option as the next word, or is attached to it: `--listen=addr`,
`-laddr`, `-l=addr`. A word that begins with a dash is a value only when it is the dash alone or
attached. There are no other arguments.

Words are read from left to right. The value of an option in a word of its own is looked at only
when the next option is read, or at the end. So of several mistakes the one that is reported is not
always the first: an unknown option is reported before a bad value in front of it.

## Main definitions

* `Arguments`, what the options give,
* `Usage`, the reasons for not taking a command line, and
* `Arguments.parse`.
-/

namespace RaceIngest

open Decimal

-- Powers are those of the core library, also where algebra is imported.
attribute [local instance (high)] instPowNat

/-- What a command line asks for. -/
structure Arguments where
  /-- The configuration file. -/
  config : Option String := none
  /-- The address to listen on. -/
  listen : Option String := none
  /-- The directory for races and samples. -/
  dataDir : Option String := none
  /-- The time between two flushes of a session. -/
  checkpointIntervalMs : Option Nat := none
  deriving DecidableEq, Repr, Inhabited

/-- Why a command line gives no arguments. -/
inductive Usage where
  /-- It asks for the help text. -/
  | help
  /-- It asks for the version. -/
  | version
  | unknownArgument
  /-- A value is missing, or a path is empty. -/
  | invalidValue
  /-- A value is not of the kind the option takes. -/
  | valueValidation
  /-- An option is given twice. -/
  | argumentConflict
  /-- A value is attached to an option that takes none. -/
  | tooManyValues
  deriving DecidableEq, Repr

namespace CommandLine

/-- An option with a value. -/
inductive Setting where
  | config
  | listen
  | dataDir
  | checkpointInterval
  deriving DecidableEq, Repr

/-- What a name on the command line stands for. -/
inductive Name where
  | setting (s : Setting)
  | help
  | version
  deriving DecidableEq, Repr

/-- The option with a long name. -/
def ofLong? (name : List Char) : Option Name :=
  if name = "config".toList then some (.setting .config)
  else if name = "listen".toList then some (.setting .listen)
  else if name = "data-dir".toList then some (.setting .dataDir)
  else if name = "checkpoint-interval-ms".toList then some (.setting .checkpointInterval)
  else if name = "help".toList then some .help
  else if name = "version".toList then some .version
  else none

/-- The option with a letter. -/
def ofLetter? (c : Char) : Option Name :=
  if c = 'c' then some (.setting .config)
  else if c = 'l' then some (.setting .listen)
  else if c = 'd' then some (.setting .dataDir)
  else if c = 'h' then some .help
  else if c = 'V' then some .version
  else none

/-- A word of a command line. -/
inductive Word where
  /-- Two dashes. -/
  | separator
  /-- Two dashes, a name, and a value if there is an equals sign. -/
  | long (name : List Char) (attached : Option (List Char))
  /-- A dash, a letter, and a value if something follows it. -/
  | short (letter : Char) (attached : Option (List Char))
  | value (cs : List Char)
  deriving DecidableEq, Repr

/-- The value attached to a letter, which an equals sign may separate from it. -/
def attachedToLetter : List Char → Option (List Char)
  | [] => none
  | '=' :: value => some value
  | value => some value

/-- The value after the first equals sign. -/
def afterEquals (cs : List Char) : Option (List Char) :=
  match cs.dropWhile (· ≠ '=') with
  | [] => none
  | _ :: value => some value

/-- Reads a word. -/
def Word.ofChars : List Char → Word
  | ['-', '-'] => .separator
  | '-' :: '-' :: cs => .long (cs.takeWhile (· ≠ '=')) (afterEquals cs)
  | '-' :: letter :: cs => .short letter (attachedToLetter cs)
  | cs => .value cs

/-- How far a command line was read. -/
structure Progress where
  given : Arguments := {}
  /-- The last option whose value is in a word of its own, and that word. -/
  pending : Option (Setting × Option (List Char)) := none
  /-- Whether the separator was read, after which no options are left to give. -/
  separated : Bool := false
  deriving DecidableEq, Repr

/-- The text of a value that may not be empty. -/
def path (value : List Char) : Except Usage (Option String) :=
  if value.isEmpty then .error .invalidValue else .ok (some (String.ofList value))

/-- Whether an option was given. -/
def isGiven (given : Arguments) : Setting → Bool
  | .config => given.config.isSome
  | .listen => given.listen.isSome
  | .dataDir => given.dataDir.isSome
  | .checkpointInterval => given.checkpointIntervalMs.isSome

/-- Gives an option its value. -/
def give (given : Arguments) (s : Setting) (value : Option (List Char)) : Except Usage Arguments :=
  match value with
  | none => .error .invalidValue
  | some value =>
    if isGiven given s then .error .argumentConflict
    else
      match s with
      | .config => return { given with config := ← path value }
      | .listen => return { given with listen := some (String.ofList value) }
      | .dataDir => return { given with dataDir := ← path value }
      | .checkpointInterval =>
        match (Digits.unsigned? value).filter (· < 2 ^ (64 : Nat)) with
        | some millis => return { given with checkpointIntervalMs := some millis }
        | none => .error .valueValidation

/-- Gives the pending option its value. -/
def settle (p : Progress) : Except Usage Progress :=
  match p.pending with
  | none => .ok p
  | some (s, value) => return { p with given := ← give p.given s value, pending := none }

/-- Reads an option. -/
def readName (p : Progress) (name : Option Name) (attached : Option (List Char)) :
    Except Usage Progress :=
  match name with
  | none => .error .unknownArgument
  | some (.setting s) => do
    let p ← settle p
    match attached with
    | some value => return { p with given := ← give p.given s (some value) }
    | none => return { p with pending := some (s, none) }
  | some .help => do
    discard (settle p)
    throw .help
  | some .version => do
    discard (settle p)
    throw .version

/-- Reads a word. -/
def step (p : Progress) (word : Word) : Except Usage Progress :=
  if p.separated then .error .unknownArgument
  else
    match word with
    | .separator => .ok { p with separated := true }
    | .long name attached =>
      match ofLong? name with
      | some .help | some .version =>
        if attached.isSome then .error .tooManyValues else readName p (ofLong? name) none
      | named => readName p named attached
    | .short letter attached => readName p (ofLetter? letter) attached
    | .value cs =>
      match p.pending with
      | some (s, none) => .ok { p with pending := some (s, some cs) }
      | _ => .error .unknownArgument

end CommandLine

/-- Reads the words of a command line after the name of the program. -/
def Arguments.parse (words : List String) : Except Usage Arguments := do
  let read (p : CommandLine.Progress) (word : String) : Except Usage CommandLine.Progress :=
    CommandLine.step p (CommandLine.Word.ofChars word.toList)
  let p ← CommandLine.settle (← words.foldlM read {})
  return p.given

theorem Arguments.parse_nil : Arguments.parse [] = .ok {} := rfl

end RaceIngest
