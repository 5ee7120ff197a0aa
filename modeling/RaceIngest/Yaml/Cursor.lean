import RaceIngest.Text.Utf8

/-!
# Places in a YAML stream

A `Cursor` is what is left of a stream together with the place that was reached: line and column
decide what is nested in what, and the number of bytes before the place bounds the length of keys.

Streams are read with their line breaks unified (`unifyBreaks`): a carriage return, alone or
before a line feed, and a next-line character all read as a line feed. The line and paragraph
separators also end lines, but stay what they are where text is kept.

## Main results

* `length_next`, `length_skipWhile_le`: moving on never leaves more to read.
-/

namespace RaceIngest.Yaml

/-- Whether a stream may hold a character. -/
def isAllowed (c : Char) : Bool :=
  let n := c.toNat
  n == 0x09 || n == 0x0a || n == 0x0d || (0x20 ≤ n && n ≤ 0x7e) || n == 0x85 ||
  (0xa0 ≤ n && n ≤ 0xd7ff) || (0xe000 ≤ n && n ≤ 0xfffd) || 0x10000 ≤ n

/-- A stream with every line break that reads as a line feed written as one. -/
def unifyBreaks : List Char → List Char
  | '\r' :: '\n' :: rest => '\n' :: unifyBreaks rest
  | c :: rest => (if c = '\r' ∨ c = '\u0085' then '\n' else c) :: unifyBreaks rest
  | [] => []

/-- Whether a character of a unified stream ends a line. -/
def isBreak (c : Char) : Bool := c = '\n' || c = '\u2028' || c = '\u2029'

/-- Whether a character is a space or a tabulator. -/
def isGap (c : Char) : Bool := c = ' ' || c = '\t'

/-- Whether nothing but space follows at the start of a row of characters: a gap, a line break or
the end. -/
def startsBlank : List Char → Bool
  | [] => true
  | c :: _ => isGap c || isBreak c

/-- Whether a character may stand in a name. -/
def isNameChar (c : Char) : Bool := c.isAlphanum || c = '_' || c = '-'

/-- Whether a character separates or encloses the parts of a flow collection. -/
def isFlowIndicator (c : Char) : Bool :=
  c = ',' || c = '[' || c = ']' || c = '\x7b' || c = '\x7d'

/-- What is left of a stream, and where it starts. -/
structure Cursor where
  rest : List Char
  /-- The number of bytes before. -/
  index : Nat := 0
  /-- The number of line breaks before. -/
  line : Nat := 0
  /-- The number of characters before on the line. -/
  column : Nat := 0
  deriving DecidableEq, Repr

namespace Cursor

/-- The place after the next character. -/
def next (c : Cursor) : Cursor :=
  match c.rest with
  | [] => c
  | ch :: rest =>
    let index := c.index + ch.utf8Size
    if isBreak ch then { rest, index, line := c.line + 1, column := 0 }
    else { c with rest, index, column := c.column + 1 }

/-- The place some characters further on. -/
def skip : Nat → Cursor → Cursor
  | 0, c => c
  | n + 1, c => skip n c.next

/-- The next characters of a kind. -/
def run (p : Char → Bool) (c : Cursor) : List Char := c.rest.takeWhile p

/-- The place after the next characters of a kind. -/
def skipWhile (p : Char → Bool) (c : Cursor) : Cursor := c.skip (c.run p).length

/-- Whether the next character is the given one. -/
def startsWith (c : Cursor) (ch : Char) : Bool := c.rest.head? == some ch

/-- Whether the line is used up. -/
def atLineEnd (c : Cursor) : Bool :=
  match c.rest with
  | [] => true
  | ch :: _ => isBreak ch

/-- Whether a marker of a document stands here: three times its character at the start of a line,
followed by a gap, a line break or the end. -/
def startsMarker (c : Cursor) (ch : Char) : Bool :=
  match c.rest with
  | x :: y :: z :: rest => c.column == 0 && x = ch && y = ch && z = ch && startsBlank rest
  | _ => false

/-- Whether a document starts or ends here. -/
def atDocumentMarker (c : Cursor) : Bool := c.startsMarker '-' || c.startsMarker '.'

/-- The place after gaps and a comment. -/
def skipComment (c : Cursor) : Cursor :=
  let c := c.skipWhile isGap
  if c.startsWith '#' then c.skipWhile fun ch => !isBreak ch else c

/-- The place on the next line, when nothing but gaps and a comment is left of this one. -/
def endLine? (c : Cursor) : Option Cursor :=
  let c := c.skipComment
  if c.atLineEnd then some c.next else none

@[simp] theorem rest_next (c : Cursor) : c.next.rest = c.rest.tail := by
  unfold next
  split
  · rename_i h; simp [h]
  · rename_i h; split <;> simp [h]

theorem length_next (c : Cursor) : c.next.rest.length = c.rest.length - 1 := by simp

@[simp] theorem rest_skip (n : Nat) (c : Cursor) : (c.skip n).rest = c.rest.drop n := by
  induction n generalizing c with
  | zero => rfl
  | succ n ih => simp [skip, ih, List.drop_tail]

theorem rest_skipWhile (p : Char → Bool) (c : Cursor) :
    (c.skipWhile p).rest = c.rest.dropWhile p := by
  rw [skipWhile, rest_skip, run]
  induction c.rest with
  | nil => rfl
  | cons ch rest ih =>
      by_cases h : p ch = true
      · simpa [h] using ih
      · simp [h]

theorem length_skip_le (n : Nat) (c : Cursor) : (c.skip n).rest.length ≤ c.rest.length := by
  simp

theorem length_skipWhile_le (p : Char → Bool) (c : Cursor) :
    (c.skipWhile p).rest.length ≤ c.rest.length := length_skip_le _ c

end Cursor

end RaceIngest.Yaml
