import RaceIngest.Yaml.Property
import RaceIngest.Yaml.Scalar

/-!
# YAML tokens

The lexer cuts a stream into tokens. Besides the text it has to tell two things that no character
announces.

*Nesting.* A block collection begins where something stands right of the collection around it, and
ends where something stands left of it. The lexer keeps the `margins` of the open block
collections: the column right of the one that their parts start in. Within flow collections
indentation means nothing.

*Keys.* That something is a key shows only at the colon after it. The lexer remembers where the
last thing began that may turn out to be one (`KeyStart`), once for the block collections and once
for every open flow collection, and marks the key afterwards, in front of the tokens that came
since (`Lexer.insert`). Such a key stands on one line and has at most `maxKeyLength` bytes.

## Main definitions

* `Token`,
* `Lexer`, the state of the lexer, `Lexer.advance?`, which reads the next tokens, and
* `tokens?`, the tokens of a stream.
-/

namespace RaceIngest.Yaml

/-- A lexical element of a stream. -/
inductive Token where
  | directive (d : Directive)
  | documentStart
  | documentEnd
  | openBlockSequence
  | openBlockMapping
  | closeBlock
  | openSequence
  | closeSequence
  | openMapping
  | closeMapping
  /-- A dash in front of an item of a block sequence. -/
  | item
  /-- A comma in a flow collection. -/
  | comma
  | key
  | value
  | anchor (name : String)
  | reference (name : String)
  | tag (name : TagName)
  | scalar (text : String) (style : ScalarStyle)
  deriving DecidableEq, Repr

/-- Where something began that may turn out to be a key. -/
structure KeyStart where
  /-- Whether nothing but a key may stand there. -/
  required : Bool
  /-- The number of tokens before. -/
  position : Nat
  index : Nat
  line : Nat
  column : Nat
  deriving DecidableEq, Repr

/-- The greatest number of bytes of a key that is not marked beforehand. -/
def maxKeyLength : Nat := 1024

/-- The state of the lexer. -/
structure Lexer where
  cursor : Cursor
  tokens : Array Token := #[]
  /-- The margin of the innermost block collection: one more than its column, zero outside. -/
  margin : Nat := 0
  /-- The margins of the block collections around it, from the inside. -/
  outerMargins : List Nat := []
  /-- The possible key of the innermost flow collection, or of the block collections. -/
  keyStart : Option KeyStart := none
  /-- The possible keys around the open flow collections, from the inside. -/
  outerKeyStarts : List (Option KeyStart) := []
  /-- Whether a key may begin here. -/
  keyAllowed : Bool := true
  deriving DecidableEq, Repr

namespace Lexer

/-- Whether a flow collection is open. -/
def inFlow (l : Lexer) : Bool := !l.outerKeyStarts.isEmpty

/-- Adds a token. -/
def push (l : Lexer) (token : Token) : Lexer := { l with tokens := l.tokens.push token }

/-- Adds tokens in front of those from a position on. -/
def insert (l : Lexer) (position : Nat) (tokens : Array Token) : Lexer :=
  { l with tokens :=
      l.tokens.extract 0 position ++ tokens ++ l.tokens.extract position l.tokens.size }

/-- Moves to another place. -/
def moveTo (l : Lexer) (cursor : Cursor) : Lexer := { l with cursor }

/-- Allows or forbids keys. -/
def allowKey (l : Lexer) (allowed : Bool) : Lexer := { l with keyAllowed := allowed }

/-! ## Nesting -/

/-- Opens a block collection at a column unless one is open there, with its token in front of
those from a position on. -/
def openBlock (l : Lexer) (column position : Nat) (token : Token) : Lexer :=
  if l.inFlow || column < l.margin then l
  else
    { l.insert position #[token] with
      margin := column + 1, outerMargins := l.margin :: l.outerMargins }

/-- Closes the given number of block collections from the inside, as far as their margins lie right
of `bound`. -/
def closeBlocksTo (bound : Nat) : List Nat → Lexer → Lexer
  | [], l => l
  | outer :: outers, l =>
    if bound < l.margin then
      closeBlocksTo bound outers { l.push .closeBlock with margin := outer, outerMargins := outers }
    else l

/-- Closes the block collections whose margins lie right of `bound`. -/
def closeBlocks (l : Lexer) (bound : Nat) : Lexer :=
  if l.inFlow then l else closeBlocksTo bound l.outerMargins l

/-! ## Keys -/

/-- Gives up a possible key, which is an error where nothing else may stand. -/
def dropKey? (l : Lexer) : Option Lexer :=
  if l.keyStart.any (·.required) then none else some { l with keyStart := none }

/-- Remembers the place, if a key may begin there. -/
def saveKey? (l : Lexer) : Option Lexer :=
  if l.keyAllowed then do
    let dropped ← l.dropKey?
    let c := l.cursor
    let required := !l.inFlow && l.margin == c.column + 1
    return { dropped with
      keyStart := some ⟨required, l.tokens.size, c.index, c.line, c.column⟩ }
  else some l

/-- A possible key that began on this line and not too far back; `none` for the error that a
required one did not. -/
def freshKey? (c : Cursor) : Option KeyStart → Option (Option KeyStart)
  | none => some none
  | some start =>
    if start.line < c.line ∨ start.index + maxKeyLength < c.index then
      if start.required then none else some none
    else some (some start)

/-- Gives up the possible keys that began too far back. -/
def dropStaleKeys? (l : Lexer) : Option Lexer := do
  let keyStart ← freshKey? l.cursor l.keyStart
  let outerKeyStarts ← l.outerKeyStarts.mapM (freshKey? l.cursor)
  return { l with keyStart, outerKeyStarts }

/-! ## Between tokens -/

/-- The place of the next token, and whether a line break was passed. A tabulator may stand in
front of a token only where no key may begin. -/
def skipBlanks (inFlow keyAllowed : Bool) (c : Cursor) : Cursor × Bool :=
  let start := if c.column == 0 && c.startsWith '\ufeff' then c.next else c
  let gap (ch : Char) : Bool := ch = ' ' || (inFlow || !keyAllowed) && ch = '\t'
  let gapped := start.skipWhile gap
  let after := if gapped.startsWith '#' then gapped.skipWhile fun ch => !isBreak ch else gapped
  if _h : after.rest.head?.any isBreak = true ∧ after.next.rest.length < c.rest.length then
    skipBlanks inFlow (keyAllowed || !inFlow) after.next
  else (after, keyAllowed)
termination_by c.rest.length
decreasing_by exact _h.2

/-- Moves to the next token: past blanks and comments, out of the block collections that end
there. -/
def prepare? (l : Lexer) : Option Lexer := do
  let (cursor, keyAllowed) := skipBlanks l.inFlow l.keyAllowed l.cursor
  let l ← dropStaleKeys? { l with cursor, keyAllowed }
  return l.closeBlocks (cursor.column + 1)

/-! ## Tokens -/

/-- A token outside all block collections. -/
def readOutside? (l : Lexer) (token : Token) (after : Cursor) : Option Lexer := do
  let l ← (l.closeBlocks 0).dropKey?
  return ((l.allowKey false).push token).moveTo after

/-- The token that opens a flow collection. -/
def readOpening? (l : Lexer) (token : Token) : Option Lexer := do
  let l ← l.saveKey?
  let l := { l with keyStart := none, outerKeyStarts := l.keyStart :: l.outerKeyStarts }
  return ((l.allowKey true).push token).moveTo l.cursor.next

/-- The token that closes a flow collection. -/
def readClosing? (l : Lexer) (token : Token) : Option Lexer := do
  let l ← l.dropKey?
  let l :=
    match l.outerKeyStarts with
    | [] => l
    | keyStart :: outerKeyStarts => { l with keyStart, outerKeyStarts }
  return ((l.allowKey false).push token).moveTo l.cursor.next

/-- The comma in a flow collection. -/
def readComma? (l : Lexer) : Option Lexer := do
  let l ← l.dropKey?
  return ((l.allowKey true).push .comma).moveTo l.cursor.next

/-- The dash in front of an item. -/
def readItem? (l : Lexer) : Option Lexer := do
  guard (l.inFlow || l.keyAllowed)
  let l ← (l.openBlock l.cursor.column l.tokens.size .openBlockSequence).dropKey?
  return ((l.allowKey true).push .item).moveTo l.cursor.next

/-- The question mark in front of a key. -/
def readKey? (l : Lexer) : Option Lexer := do
  guard (l.inFlow || l.keyAllowed)
  let l ← (l.openBlock l.cursor.column l.tokens.size .openBlockMapping).dropKey?
  return ((l.allowKey (!l.inFlow)).push .key).moveTo l.cursor.next

/-- The colon in front of a value. Where a key was possible, it was one. -/
def readValue? (l : Lexer) : Option Lexer := do
  let l ←
    match l.keyStart with
    | some start =>
      let l := { l.insert start.position #[.key] with keyStart := none, keyAllowed := false }
      some (l.openBlock start.column start.position .openBlockMapping)
    | none => do
      guard (l.inFlow || l.keyAllowed)
      some ((l.openBlock l.cursor.column l.tokens.size .openBlockMapping).allowKey (!l.inFlow))
  return (l.push .value).moveTo l.cursor.next

/-- A part of a node that may begin a key and is not followed by one. -/
def readPart? (l : Lexer) (read : Cursor → Option (Token × Cursor)) : Option Lexer := do
  let l ← l.saveKey?
  let (token, after) ← read l.cursor
  return ((l.allowKey false).push token).moveTo after

/-- An anchor or a reference to one. -/
def readName? (l : Lexer) (token : String → Token) : Option Lexer :=
  l.readPart? fun c => (anchorName? c.next).map fun (name, after) => (token name, after)

/-- A tag. -/
def readTag? (l : Lexer) : Option Lexer :=
  l.readPart? fun c => (TagName.read? l.inFlow c).map fun (name, after) => (.tag name, after)

/-- A quoted scalar. -/
def readQuoted? (l : Lexer) (quote : Char) : Option Lexer :=
  l.readPart? fun c => (quoted? quote c.next).map fun (text, after) =>
    (.scalar (String.ofList text) .quoted, after)

/-- A plain scalar. Where it reached another line, a key may follow. -/
def readPlain? (l : Lexer) : Option Lexer := do
  let l ← l.saveKey?
  let scalar ← plain? l.inFlow l.margin l.cursor
  let l := l.push (.scalar (String.ofList scalar.text) .plain)
  return (l.allowKey scalar.endsLine).moveTo scalar.after

/-- A block scalar. -/
def readBlock? (l : Lexer) (folded : Bool) : Option Lexer := do
  let l ← l.dropKey?
  let (text, after) ← block? folded l.margin l.cursor.next
  let style : ScalarStyle := if folded then .folded else .literal
  return ((l.allowKey true).push (.scalar (String.ofList text) style)).moveTo after

/-- Whether a plain scalar may begin with a character, given what follows it. -/
def beginsPlain (inFlow : Bool) (ch : Char) (rest : List Char) : Bool :=
  if ch = '-' then !rest.head?.any isGap
  else if ch = '?' || ch = ':' then !inFlow && !startsBlank rest
  else
    !(isGap ch || isBreak ch || isFlowIndicator ch ||
      ['#', '&', '*', '!', '|', '>', '\'', '"', '%', '@', '\x60'].contains ch)

/-- Reads the token that begins with a character. -/
def readToken? (l : Lexer) (ch : Char) (rest : List Char) : Option Lexer :=
  if l.cursor.column = 0 ∧ ch = '%' then do
    let (directive, after) ← Directive.read? l.cursor.next
    l.readOutside? (.directive directive) after
  else if l.cursor.startsMarker '-' then l.readOutside? .documentStart (l.cursor.skip 3)
  else if l.cursor.startsMarker '.' then l.readOutside? .documentEnd (l.cursor.skip 3)
  else if ch = '[' then l.readOpening? .openSequence
  else if ch = '\x7b' then l.readOpening? .openMapping
  else if ch = ']' then l.readClosing? .closeSequence
  else if ch = '\x7d' then l.readClosing? .closeMapping
  else if ch = ',' then l.readComma?
  else if ch = '-' ∧ startsBlank rest then l.readItem?
  else if ch = '?' ∧ (l.inFlow ∨ startsBlank rest) then l.readKey?
  else if ch = ':' ∧ (l.inFlow ∨ startsBlank rest) then l.readValue?
  else if ch = '*' then l.readName? .reference
  else if ch = '&' then l.readName? .anchor
  else if ch = '!' then l.readTag?
  else if ch = '|' ∧ ¬l.inFlow then l.readBlock? false
  else if ch = '>' ∧ ¬l.inFlow then l.readBlock? true
  else if ch = '\'' ∨ ch = '"' then l.readQuoted? ch
  else if beginsPlain l.inFlow ch rest then l.readPlain?
  else none

/-- Ends the stream: closes the block collections. -/
def finish? (l : Lexer) : Option (Array Token) := do
  let l ← (l.closeBlocks 0).dropKey?
  return l.tokens

/-- Reads tokens up to the end of the stream. Every token takes at least one character. -/
def run? (l : Lexer) : Option (Array Token) :=
  match l.prepare? with
  | none => none
  | some here =>
    match here.cursor.rest with
    | [] => here.finish?
    | ch :: rest =>
      match here.readToken? ch rest with
      | none => none
      | some after =>
        if _h : after.cursor.rest.length < l.cursor.rest.length then after.run? else none
termination_by l.cursor.rest.length

end Lexer

/-- The tokens of a stream. -/
def tokens? (cs : List Char) : Option (Array Token) :=
  if cs.all isAllowed then Lexer.run? { cursor := { rest := unifyBreaks cs } } else none

end RaceIngest.Yaml
