import RaceIngest.Json.Printer

/-!
# JSON tokens

The lexer reads a document one symbol at a time. Its state is a `Mode`: between tokens, inside a
quoted literal, or inside a numeral or a word, which end at the first character that cannot go on
with them. Every symbol moves the lexer to the next mode and completes at most two tokens, so
reading is one pass over the document.

Inside a quoted literal raw control characters and unknown escapes are errors. An escape may name
half of a surrogate pair; two matching halves in a row make one character, and a half without its
other half leaves a literal that denotes no text. Malformed bytes are tolerated only inside quoted
literals, which then denote no text either.
-/

namespace RaceIngest.Json

open Decimal Text

/-- The part of a quoted literal that was read: its characters in reverse, `none` once it cannot
denote a text, and the first half of a surrogate pair that waits for the second. -/
structure Quoted where
  reversed : Option (List Char)
  half : Option Nat
  deriving DecidableEq, Repr

namespace Quoted

/-- Nothing read yet. -/
def empty : Quoted := ⟨some [], none⟩

/-- A literal that denotes no text. -/
def undecodable : Quoted := ⟨none, none⟩

/-- Adds a character. -/
def push (q : Quoted) (c : Char) : Quoted :=
  match q.half with
  | none => { q with reversed := q.reversed.map (c :: ·) }
  | some _ => undecodable

/-- Adds a code unit given by an escape. -/
def pushUnit (q : Quoted) (unit : Nat) : Quoted :=
  match q.half with
  | none =>
    if 0xd800 ≤ unit ∧ unit < 0xdc00 then { q with half := some unit }
    else if 0xdc00 ≤ unit ∧ unit < 0xe000 then undecodable
    else q.push (Char.ofNat unit)
  | some lead =>
    if 0xdc00 ≤ unit ∧ unit < 0xe000 then
      let c := Char.ofNat (0x10000 + (lead - 0xd800) * 1024 + (unit - 0xdc00))
      ⟨q.reversed.map (c :: ·), none⟩
    else undecodable

/-- The text of a complete literal. -/
def text? (q : Quoted) : Option String :=
  match q.half with
  | none => q.reversed.map fun cs => String.ofList cs.reverse
  | some _ => none

end Quoted

/-- Where the lexer is. -/
inductive Mode where
  | between
  | quoted (q : Quoted)
  | escape (q : Quoted)
  | unit (q : Quoted) (left value : Nat)
  | numeral (reversed : List Char)
  | word (reversed : List Char)
  deriving DecidableEq, Repr

/-- Whether a character separates tokens. -/
def isSpace (c : Char) : Bool := c = ' ' || c = '\t' || c = '\n' || c = '\r'

/-- Whether a character can go on with a numeral. -/
def isNumeralChar (c : Char) : Bool :=
  c.isDigit || c = '-' || c = '+' || c = '.' || c = 'e' || c = 'E'

/-- Whether a character can go on with a word. -/
def isWordChar (c : Char) : Bool := 'a' ≤ c && c ≤ 'z'

/-- The token of a complete word. -/
def wordToken? (cs : List Char) : Option Token :=
  if cs = ['n', 'u', 'l', 'l'] then some .null
  else if cs = ['t', 'r', 'u', 'e'] then some (.bool true)
  else if cs = ['f', 'a', 'l', 's', 'e'] then some (.bool false)
  else none

/-- Reads a character between tokens: the tokens it completes and the mode after it. -/
def begin? (c : Char) : Option (List Token × Mode) :=
  if isSpace c then some ([], .between)
  else if c = '[' then some ([.openArray], .between)
  else if c = ']' then some ([.closeArray], .between)
  else if c = '\x7b' then some ([.openObject], .between)
  else if c = '\x7d' then some ([.closeObject], .between)
  else if c = ',' then some ([.comma], .between)
  else if c = ':' then some ([.colon], .between)
  else if c = '"' then some ([], .quoted .empty)
  else if c = '-' ∨ c.isDigit then some ([], .numeral [c])
  else if isWordChar c then some ([], .word [c])
  else none

/-- The character that an escape by letter stands for. -/
def escaped? (c : Char) : Option Char :=
  if c = '"' ∨ c = '\\' ∨ c = '/' then some c
  else if c = 'b' then some '\x08'
  else if c = 'f' then some '\x0c'
  else if c = 'n' then some '\n'
  else if c = 'r' then some '\r'
  else if c = 't' then some '\t'
  else none

/-- Reads a character: the tokens it completes and the mode after it. -/
def readChar? (mode : Mode) (c : Char) : Option (List Token × Mode) :=
  match mode with
  | .between => begin? c
  | .quoted q =>
    if c = '"' then some ([.string q.text?], .between)
    else if c = '\\' then some ([], .escape q)
    else if c.toNat < 0x20 then none
    else some ([], .quoted (q.push c))
  | .escape q =>
    if c = 'u' then some ([], .unit q 4 0)
    else (escaped? c).map fun c => ([], .quoted (q.push c))
  | .unit q left value =>
    (Hex.digitValue? c).map fun d =>
      let value := 16 * value + d
      ([], if left ≤ 1 then .quoted (q.pushUnit value) else .unit q (left - 1) value)
  | .numeral reversed =>
    if isNumeralChar c then some ([], .numeral (c :: reversed))
    else do
      let literal ← Numeral.parse? reversed.reverse
      let (started, mode) ← begin? c
      some (.number literal :: started, mode)
  | .word reversed =>
    if isWordChar c then some ([], .word (c :: reversed))
    else do
      let token ← wordToken? reversed.reverse
      let (started, mode) ← begin? c
      some (token :: started, mode)

/-- Reads a symbol. A malformed byte is tolerated inside a quoted literal only. -/
def readSymbol? (mode : Mode) : Symbol → Option (List Token × Mode)
  | .char c => readChar? mode c
  | .malformed =>
    match mode with
    | .quoted _ => some ([], .quoted .undecodable)
    | _ => none

/-- The tokens that the end of the document completes. -/
def finish? : Mode → Option (List Token)
  | .between => some []
  | .numeral reversed => (Numeral.parse? reversed.reverse).map fun literal => [.number literal]
  | .word reversed => (wordToken? reversed.reverse).map fun token => [token]
  | _ => none

/-- The state of a pass over a document: the tokens that were completed, in reverse, and the
mode. -/
structure Pass where
  reversed : List Token
  mode : Mode
  deriving DecidableEq, Repr

/-- Takes one symbol. -/
def Pass.step? (pass : Pass) (s : Symbol) : Option Pass :=
  (readSymbol? pass.mode s).map fun (completed, mode) => ⟨completed.reverse ++ pass.reversed, mode⟩

/-- The tokens of a document that ends here. -/
def Pass.finish? (pass : Pass) : Option (List Token) :=
  (Json.finish? pass.mode).map fun completed => pass.reversed.reverse ++ completed

/-- The tokens of a document. -/
def lex? (ss : List Symbol) : Option (List Token) :=
  (ss.foldlM Pass.step? ⟨[], .between⟩).bind Pass.finish?

end RaceIngest.Json
