import RaceIngest.Json.Lexer

/-!
# Reading JSON

The tokens of a document are put together by a machine with a stack: the arrays and objects that
are still open, outermost last, and what has to come next. Every token is one step, so documents
of any depth are read in one pass. A document is complete when one value was read and nothing is
open.
-/

namespace RaceIngest.Json

open Text

/-- An array or object that is still open, with what was read of it in reverse. -/
inductive Frame where
  | items (reversed : List Json)
  | members (reversed : List (Option String × Json)) (key : Option String)
  deriving Repr

/-- What has to come next, inside the frames of a stack. -/
inductive Pending where
  /-- A value. -/
  | value (stack : List Frame)
  /-- The first item of an array, or its end. -/
  | firstItem (stack : List Frame)
  /-- The first name of an object, or its end. -/
  | firstKey (stack : List Frame)
  /-- The next name of an object. -/
  | key (reversed : List (Option String × Json)) (stack : List Frame)
  /-- The colon after a name. -/
  | colon (reversed : List (Option String × Json)) (key : Option String) (stack : List Frame)
  /-- A comma or a closing bracket after a value, or the end of the document. -/
  | next (stack : List Frame) (value : Json)
  deriving Repr

/-- Begins a value. -/
def beginValue? (stack : List Frame) : Token → Option Pending
  | .openArray => some (.firstItem stack)
  | .openObject => some (.firstKey stack)
  | .null => some (.next stack .null)
  | .bool b => some (.next stack (.bool b))
  | .number literal => some (.next stack (.number literal))
  | .string text => some (.next stack (.string text))
  | _ => none

/-- Takes one token. -/
def step? : Pending → Token → Option Pending
  | .value stack, token => beginValue? stack token
  | .firstItem stack, .closeArray => some (.next stack (.array []))
  | .firstItem stack, token => beginValue? (.items [] :: stack) token
  | .firstKey stack, .closeObject => some (.next stack (.object []))
  | .firstKey stack, .string key => some (.colon [] key stack)
  | .firstKey _, _ => none
  | .key reversed stack, .string key => some (.colon reversed key stack)
  | .key _ _, _ => none
  | .colon reversed key stack, .colon => some (.value (.members reversed key :: stack))
  | .colon _ _ _, _ => none
  | .next (.items reversed :: stack) v, .comma => some (.value (.items (v :: reversed) :: stack))
  | .next (.items reversed :: stack) v, .closeArray =>
    some (.next stack (.array (v :: reversed).reverse))
  | .next (.members reversed key :: stack) v, .comma => some (.key ((key, v) :: reversed) stack)
  | .next (.members reversed key :: stack) v, .closeObject =>
    some (.next stack (.object ((key, v) :: reversed).reverse))
  | .next _ _, _ => none

/-- The value that a row of tokens writes. -/
def ofTokens? (tokens : List Token) : Option Json :=
  match tokens.foldlM step? (.value []) with
  | some (.next [] v) => some v
  | _ => none

/-- Reads a document given as symbols. -/
def parseSymbols? (ss : List Symbol) : Option Json := (lex? ss).bind ofTokens?

/-- Reads a document given as text. -/
def parse? (cs : List Char) : Option Json := parseSymbols? (cs.map .char)

/-- Reads a document given as bytes. -/
def parseBytes? (bytes : List UInt8) : Option Json := parseSymbols? (Utf8.symbols bytes)

end RaceIngest.Json
