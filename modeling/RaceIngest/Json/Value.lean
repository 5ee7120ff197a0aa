import RaceIngest.Decimal.Shortest
import RaceIngest.Text.Utf8

/-!
# JSON documents

A document is a tree of `Json` values. Objects keep their members in order, repeated names
included, and numbers keep their literal, so the reader of a field sees what was written.

A quoted literal need not denote a text: its escapes may name half of a surrogate pair, or its
bytes may be malformed. Such a literal is the string `none`. It can be skipped, but nothing can be
read from it.

## Main definitions

* `Json`, with `Json.text`, `Json.nat`, `Json.int`, `Json.single` for values to be written,
* `Token`, the lexical elements, and `Json.tokens`, the tokens of a document,
* `Json.isPlain`, the documents that can be held in memory before their fields are told apart.
-/

namespace RaceIngest

open Decimal

/-- A JSON value. -/
inductive Json where
  | null
  | bool (b : Bool)
  | number (literal : Numeral)
  | string (text : Option String)
  | array (items : List Json)
  | object (members : List (Option String × Json))
  deriving Repr, Inhabited

namespace Json

/-- A string value. -/
def text (s : String) : Json := .string (some s)

/-- A natural number as a value. -/
def nat (n : Nat) : Json := .number (Numeral.ofNat n)

/-- An integer as a value. -/
def int (i : Int) : Json := .number (Numeral.ofInt i)

/-- A 32-bit word as a value: its shortest decimal, or null when it is no finite number. -/
def single (x : Single) : Json :=
  match x.toNumeral? with
  | some literal => .number literal
  | none => .null

/-- An object with the given named members. -/
def ofMembers (members : List (String × Json)) : Json :=
  .object (members.map fun (name, value) => (some name, value))

/-- An optional value, null when it is absent. -/
def ofOption (value : Option Json) : Json := value.getD .null

/-! ## Tokens -/

/-- A lexical element of a document. -/
inductive Token where
  | openArray
  | closeArray
  | openObject
  | closeObject
  | comma
  | colon
  | null
  | bool (b : Bool)
  | number (literal : Numeral)
  | string (text : Option String)
  deriving DecidableEq, Repr

mutual

/-- The tokens of a value. -/
def tokens : Json → List Token
  | .null => [.null]
  | .bool b => [.bool b]
  | .number literal => [.number literal]
  | .string text => [.string text]
  | .array [] => [.openArray, .closeArray]
  | .array (item :: items) => .openArray :: (tokens item ++ (itemTokens items ++ [.closeArray]))
  | .object [] => [.openObject, .closeObject]
  | .object ((key, value) :: members) =>
    .openObject :: .string key :: .colon ::
      (tokens value ++ (memberTokens members ++ [.closeObject]))

/-- The tokens of the items of an array after the first. -/
def itemTokens : List Json → List Token
  | [] => []
  | item :: items => .comma :: (tokens item ++ itemTokens items)

/-- The tokens of the members of an object after the first. -/
def memberTokens : List (Option String × Json) → List Token
  | [] => []
  | (key, value) :: members =>
    .comma :: .string key :: .colon :: (tokens value ++ memberTokens members)

end

/-! ## Plain documents -/

mutual

/-- Whether a value is nested at most `depth` deep, all its strings denote texts and all its
numbers lie within the 64-bit range. -/
def isPlain (depth : Nat) : Json → Bool
  | .null | .bool _ => true
  | .number literal => literal.toInteger?.isSome || literal.toDouble?.isSome
  | .string text => text.isSome
  | .array items =>
    match depth with
    | 0 => false
    | depth + 1 => arePlainItems depth items
  | .object members =>
    match depth with
    | 0 => false
    | depth + 1 => arePlainMembers depth members

/-- Whether all items of an array are plain. -/
def arePlainItems (depth : Nat) : List Json → Bool
  | [] => true
  | item :: items => isPlain depth item && arePlainItems depth items

/-- Whether all members of an object are plain. -/
def arePlainMembers (depth : Nat) : List (Option String × Json) → Bool
  | [] => true
  | (key, value) :: members => key.isSome && isPlain depth value && arePlainMembers depth members

end

/-- How deep a plain document may be nested. -/
def plainDepth : Nat := 127

end Json

end RaceIngest
