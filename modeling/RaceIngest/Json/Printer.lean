import RaceIngest.Json.Value
import RaceIngest.Text.Hex

/-!
# Writing JSON

The compact form of a document is the characters of its tokens, with nothing between them. The
indented form puts every item and every member on a line of its own, indented by two spaces per
level, with a space after each colon; an empty array or object stays on one line.

Strings escape the quotation mark, the backslash and the control characters below the space:
five of them by letter, the others as four hexadecimal digits.
-/

namespace RaceIngest.Json

open Decimal

/-- The characters that stand for one character inside a quoted string. -/
def escapeChar (c : Char) : List Char :=
  if c = '"' then ['\\', '"']
  else if c = '\\' then ['\\', '\\']
  else if c = '\n' then ['\\', 'n']
  else if c = '\r' then ['\\', 'r']
  else if c = '\t' then ['\\', 't']
  else if c.toNat = 8 then ['\\', 'b']
  else if c.toNat = 12 then ['\\', 'f']
  else if c.toNat < 0x20 then
    ['\\', 'u', '0', '0', Text.Hex.digitChar (c.toNat / 16), Text.Hex.digitChar (c.toNat % 16)]
  else [c]

/-- A text between quotation marks. -/
def quote (cs : List Char) : List Char := '"' :: (cs.flatMap escapeChar ++ ['"'])

/-- The characters of a token. -/
def Token.chars : Token → List Char
  | .openArray => ['[']
  | .closeArray => [']']
  | .openObject => ['\x7b']
  | .closeObject => ['\x7d']
  | .comma => [',']
  | .colon => [':']
  | .null => ['n', 'u', 'l', 'l']
  | .bool true => ['t', 'r', 'u', 'e']
  | .bool false => ['f', 'a', 'l', 's', 'e']
  | .number literal => literal.chars
  | .string text => quote (text.getD "").toList

/-- The compact form of a document. -/
def chars (j : Json) : List Char := j.tokens.flatMap Token.chars

/-- The compact form of a document as text. -/
def render (j : Json) : String := String.ofList j.chars

/-- A line break and the indentation of a level. -/
def lineBreak (level : Nat) : List Char := '\n' :: List.replicate (2 * level) ' '

mutual

/-- The indented form of a value that stands at a level. -/
def indented (level : Nat) : Json → List Char
  | .array (item :: items) =>
    '[' :: (lineBreak (level + 1) ++ indented (level + 1) item ++ indentedItems (level + 1) items ++
      lineBreak level ++ [']'])
  | .object ((key, value) :: members) =>
    '\x7b' :: (lineBreak (level + 1) ++ Token.chars (.string key) ++ ':' :: ' ' ::
      indented (level + 1) value ++ indentedMembers (level + 1) members ++
      lineBreak level ++ ['\x7d'])
  | .array [] => ['[', ']']
  | .object [] => ['\x7b', '\x7d']
  | .null => Token.chars .null
  | .bool b => Token.chars (.bool b)
  | .number literal => literal.chars
  | .string text => Token.chars (.string text)

/-- The indented form of the items after the first. -/
def indentedItems (level : Nat) : List Json → List Char
  | [] => []
  | item :: items => ',' :: (lineBreak level ++ indented level item ++ indentedItems level items)

/-- The indented form of the members after the first. -/
def indentedMembers (level : Nat) : List (Option String × Json) → List Char
  | [] => []
  | (key, value) :: members =>
    ',' :: (lineBreak level ++ Token.chars (.string key) ++ ':' :: ' ' ::
      indented level value ++ indentedMembers level members)

end

end RaceIngest.Json
