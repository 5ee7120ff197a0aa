import RaceIngest.Decimal.Digits
import RaceIngest.Text.Hex
import RaceIngest.Yaml.Cursor

/-!
# Anchors, tags and directives

A node may have an anchor, by which others refer to it, and a tag, which tells what it is. Tags
are written in short, as a handle and a suffix; directives in front of a document say what the
handles stand for, and which version of the format the document is written in.

A tag is a row of bytes, since its percent escapes name bytes. A zero byte ends it: what is written
after one says nothing.

## Main definitions

* `anchorName?`, `TagName.read?`, `Directive.read?`, which read one of them and answer the place
  after it.
-/

namespace RaceIngest.Yaml

open Decimal Text

/-- Reads the name of an anchor. -/
def anchorName? (c : Cursor) : Option (String × Cursor) := do
  let name := c.run isNameChar
  let after := c.skip name.length
  let ended := startsBlank after.rest ||
    after.rest.head?.any fun ch => ['?', ':', ',', ']', '\x7d', '%', '@', '\x60'].contains ch
  guard (!name.isEmpty && ended)
  return (String.ofList name, after)

/-! ## Tags -/

/-- A tag in its short form. -/
structure TagName where
  handle : String
  suffix : List UInt8
  deriving DecidableEq, Repr

/-- Whether a character may stand in a tag. Between angle brackets and in directives some of the
characters of flow collections are allowed. -/
def isTagChar (enclosed : Bool) (ch : Char) : Bool :=
  isNameChar ch ||
  [';', '/', '?', ':', '@', '&', '=', '+', '$', '.', '%', '!', '~', '*', '\'', '(', ')'].contains
    ch ||
  enclosed && [',', '[', ']'].contains ch

/-- The number of bytes of the character that starts with a byte. -/
def sequenceLength? (b : Nat) : Option Nat :=
  if b < 0x80 then some 1
  else if 0xc0 ≤ b ∧ b < 0xe0 then some 2
  else if 0xe0 ≤ b ∧ b < 0xf0 then some 3
  else if 0xf0 ≤ b ∧ b < 0xf8 then some 4
  else none

/-- The bytes of a part of a tag, and the number of its characters. After a percent escape that
starts a character of several bytes the given number of further escapes is due. -/
def tagBytes? (enclosed : Bool) : Nat → List Char → Option (List UInt8 × Nat)
  | due, '%' :: a :: b :: rest => do
    let high ← Hex.digitValue? a
    let low ← Hex.digitValue? b
    let byte := 16 * high + low
    let due ←
      match due with
      | 0 => (sequenceLength? byte).map (· - 1)
      | due + 1 => if 0x80 ≤ byte ∧ byte < 0xc0 then some due else none
    let (bytes, count) ← tagBytes? enclosed due rest
    return (UInt8.ofNat byte :: bytes, count + 3)
  | 0, ch :: rest =>
    if ch = '%' then none
    else if isTagChar enclosed ch then do
      let (bytes, count) ← tagBytes? enclosed 0 rest
      return (Utf8.encodeChar ch ++ bytes, count + 1)
    else some ([], 0)
  | 0, [] => some ([], 0)
  | _ + 1, _ => none

/-- The bytes of a part of a tag that count: those before a zero byte. -/
def effective (bytes : List UInt8) : List UInt8 := bytes.takeWhile (· ≠ 0)

/-- The handle of a tag or directive: an exclamation mark, and a name with another one if they
follow. The name alone belongs to the suffix of a tag. -/
def tagHandle? (c : Cursor) : Option (List Char) :=
  if c.startsWith '!' then
    let name := c.next.run isNameChar
    let marked := '!' :: name
    some (if (c.skip marked.length).startsWith '!' then marked ++ ['!'] else marked)
  else none

/-- Reads a tag. The tag that is an exclamation mark alone has an empty handle. -/
def TagName.read? (inFlow : Bool) (c : Cursor) : Option (TagName × Cursor) := do
  let (name, after) ←
    if c.next.startsWith '<' then do
      let start := c.skip 2
      let (suffix, count) ← tagBytes? true 0 start.rest
      let close := start.skip count
      guard (count ≠ 0 && close.startsWith '>')
      some (TagName.mk "" (effective suffix), close.next)
    else do
      let handle ← tagHandle? c
      if 1 < handle.length ∧ handle.getLast? = some '!' then
        let start := c.skip handle.length
        let (suffix, count) ← tagBytes? false 0 start.rest
        guard (count ≠ 0)
        some (TagName.mk (String.ofList handle) (effective suffix), start.skip count)
      else
        let start := c.skip handle.length
        let (suffix, count) ← tagBytes? false 0 start.rest
        let suffix := effective (Utf8.encode handle.tail ++ suffix)
        let name := if suffix.isEmpty then TagName.mk "" (Utf8.encode ['!']) else TagName.mk "!" suffix
        some (name, start.skip count)
  guard (startsBlank after.rest || inFlow && after.startsWith ',')
  return (name, after)

/-! ## Directives -/

/-- A line in front of a document. -/
inductive Directive where
  /-- The version of the format. -/
  | version (major minor : Nat)
  /-- What a handle stands for. -/
  | handle (name : String) (bytes : List UInt8)
  deriving DecidableEq, Repr

/-- The greatest number of digits of a version. -/
def maxVersionDigits : Nat := 9

/-- Reads a part of a version. -/
def versionPart? (c : Cursor) : Option (Nat × Cursor) := do
  let digits := (Digits.takeChars c.rest).1
  guard (!digits.isEmpty && digits.length ≤ maxVersionDigits)
  return (Digits.value digits, c.skip digits.length)

/-- Reads a directive after its first character, up to the next line. -/
def Directive.read? (c : Cursor) : Option (Directive × Cursor) := do
  let name := c.run isNameChar
  let named := c.skip name.length
  guard (!name.isEmpty && startsBlank named.rest)
  let value := named.skipWhile isGap
  let (directive, after) ←
    if name = ['Y', 'A', 'M', 'L'] then do
      let (major, point) ← versionPart? value
      guard (point.startsWith '.')
      let (minor, after) ← versionPart? point.next
      some (Directive.version major minor, after)
    else if name = ['T', 'A', 'G'] then do
      let handle ← tagHandle? value
      guard (handle = ['!'] || handle.getLast? = some '!')
      let handled := value.skip handle.length
      guard (handled.rest.head?.any isGap)
      let start := handled.skipWhile isGap
      let (bytes, count) ← tagBytes? true 0 start.rest
      let after := start.skip count
      guard (count ≠ 0 && startsBlank after.rest)
      some (Directive.handle (String.ofList handle) (effective bytes), after)
    else none
  let after ← after.endLine?
  return (directive, after)

end RaceIngest.Yaml
