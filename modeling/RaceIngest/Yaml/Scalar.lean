import RaceIngest.Text.Hex
import RaceIngest.Yaml.Cursor

/-!
# Scalars as they are written

A scalar is written plainly, between quotes, or as a block of lines.

* A plain scalar goes on until something that can only be notation, and over several lines as long
  as they are indented.
* In a quoted scalar only the closing quote ends the text. Between double quotes a backslash
  escapes a character.
* A block scalar consists of the lines that are indented deeper than the collection it stands in.
  A literal one keeps its line breaks; a folded one joins lines of text.

In plain and quoted scalars, and in folded ones, a single line break between words reads as a
space, and of several line breaks in a row the first is left out (`Spacing`).

## Main definitions

* `ScalarStyle`,
* `plain?`, `quoted?`, `block?`, which read a scalar and answer its text and the place after it.
-/

namespace RaceIngest.Yaml

open Text

/-- How a scalar is written. -/
inductive ScalarStyle where
  | plain
  | quoted
  | literal
  | folded
  deriving DecidableEq, Repr

/-! ## Spacing -/

/-- What separates two words of a scalar: gaps within a line, or line breaks with the gaps around
them left out. -/
structure Spacing where
  gaps : List Char := []
  breaks : List Char := []
  deriving DecidableEq, Repr

namespace Spacing

/-- The text of folded line breaks. -/
def fold : List Char → List Char
  | ['\n'] => [' ']
  | '\n' :: breaks => breaks
  | breaks => breaks

/-- What spacing contributes to the text of a scalar. -/
def text (s : Spacing) : List Char := if s.breaks.isEmpty then s.gaps else fold s.breaks

/-- Whether spacing reaches another line. -/
def hasBreak (s : Spacing) : Bool := !s.breaks.isEmpty

/-- Goes on reading spacing. On a line that spacing began, a tabulator may not stand in front of
the margin, and gaps are left out. -/
def read? (margin : Nat) (onNewLine : Bool) (s : Spacing) (c : Cursor) :
    Option (Spacing × Cursor) :=
  match _h : c.rest with
  | [] => some (s, c)
  | ch :: _ =>
    if isGap ch then
      if onNewLine then
        if ch = '\t' ∧ c.column < margin then none else read? margin true s c.next
      else read? margin false { s with gaps := s.gaps ++ [ch] } c.next
    else if isBreak ch then read? margin true { s with breaks := s.breaks ++ [ch] } c.next
    else some (s, c)
termination_by c.rest.length
decreasing_by all_goals simp [_h]

theorem length_read?_le {margin : Nat} {onNewLine : Bool} {s s' : Spacing} {c c' : Cursor}
    (h : read? margin onNewLine s c = some (s', c')) : c'.rest.length ≤ c.rest.length := by
  fun_induction read? margin onNewLine s c <;> simp_all <;> omega

end Spacing

/-! ## Plain scalars -/

/-- The next word of a plain scalar: the characters up to a gap, a line break, or notation. Within
a flow collection a colon right before its notation is an error. -/
def plainWord? (inFlow : Bool) : List Char → Option (List Char)
  | [] => some []
  | ch :: rest =>
    if isGap ch || isBreak ch then some []
    else if inFlow && ch = ':' && (rest.head?.any fun c => c = '?' || isFlowIndicator c) then none
    else if ch = ':' && startsBlank rest || inFlow && isFlowIndicator ch then some []
    else (plainWord? inFlow rest).map (ch :: ·)

/-- A plain scalar that was read. -/
structure Plain where
  text : List Char
  /-- Whether a line break was passed after the last word. -/
  endsLine : Bool
  after : Cursor
  deriving DecidableEq, Repr

/-- Goes on reading a plain scalar after its text so far and the spacing after that. Outside flow
collections its lines are indented to the margin. -/
def plainFrom? (inFlow : Bool) (margin : Nat) (text : List Char) (spacing : Spacing) (c : Cursor) :
    Option Plain :=
  if c.atDocumentMarker || c.startsWith '#' then some ⟨text, spacing.hasBreak, c⟩
  else
    match plainWord? inFlow c.rest with
    | none => none
    | some [] => some ⟨text, spacing.hasBreak, c⟩
    | some (ch :: word) =>
      let text := text ++ spacing.text ++ ch :: word
      let afterWord := c.skip (word.length + 1)
      match _h : Spacing.read? margin false {} afterWord with
      | none => none
      | some (spacing, after) =>
        if after.rest.length = afterWord.rest.length then some ⟨text, false, after⟩
        else if !inFlow && after.column < margin then some ⟨text, spacing.hasBreak, after⟩
        else plainFrom? inFlow margin text spacing after
termination_by c.rest.length
decreasing_by
  have := Spacing.length_read?_le _h
  simp_all [afterWord]
  omega

/-- Reads a plain scalar. -/
def plain? (inFlow : Bool) (margin : Nat) (c : Cursor) : Option Plain :=
  plainFrom? inFlow margin [] {} c

/-! ## Quoted scalars -/

/-- The character of a code point that was given by an escape. -/
def ofCodePoint? (n : Nat) : Option Char :=
  if n.isValidChar then some (Char.ofNat n) else none

/-- The character that an escape stands for, with the number of digits that belong to it, given
the character after the backslash and what follows. -/
def escape? (ch : Char) (rest : List Char) : Option (Char × Nat) :=
  let digits (count : Nat) : Option (Char × Nat) := do
    guard (count ≤ rest.length)
    let n ← Hex.number? 0 (rest.take count)
    let c ← ofCodePoint? n
    return (c, count)
  match ch with
  | '0' => some ('\x00', 0)
  | 'a' => some ('\x07', 0)
  | 'b' => some ('\x08', 0)
  | 't' | '\t' => some ('\t', 0)
  | 'n' => some ('\n', 0)
  | 'v' => some ('\x0b', 0)
  | 'f' => some ('\x0c', 0)
  | 'r' => some ('\r', 0)
  | 'e' => some ('\x1b', 0)
  | ' ' | '"' | '/' | '\\' => some (ch, 0)
  | 'N' => some ('\u0085', 0)
  | '_' => some ('\u00a0', 0)
  | 'L' => some ('\u2028', 0)
  | 'P' => some ('\u2029', 0)
  | 'x' => digits 2
  | 'u' => digits 4
  | 'U' => digits 8
  | _ => none

/-- Goes on reading a quoted scalar, whose text so far is given in reverse. -/
def quotedFrom? (quote : Char) (reversed : List Char) (c : Cursor) : Option (List Char × Cursor) :=
  if c.atDocumentMarker then none
  else
    match _h : c.rest with
    | [] => none
    | ch :: rest =>
      if isGap ch then
        match _hs : Spacing.read? 0 false { gaps := [ch] } c.next with
        | none => none
        | some (spacing, after) => quotedFrom? quote (spacing.text.reverse ++ reversed) after
      else if isBreak ch then
        match _hs : Spacing.read? 0 true { breaks := [ch] } c.next with
        | none => none
        | some (spacing, after) => quotedFrom? quote (spacing.text.reverse ++ reversed) after
      else if ch = quote then
        if quote = '\'' ∧ rest.head? = some '\'' then quotedFrom? quote ('\'' :: reversed) (c.skip 2)
        else some (reversed.reverse, c.next)
      else if quote = '"' ∧ ch = '\\' then
        match rest with
        | [] => none
        | escaped :: digits =>
          if isBreak escaped then
            match _hs : Spacing.read? 0 true {} (c.skip 2) with
            | none => none
            | some (spacing, after) => quotedFrom? quote (spacing.breaks.reverse ++ reversed) after
          else
            match escape? escaped digits with
            | none => none
            | some (e, count) => quotedFrom? quote (e :: reversed) (c.skip (2 + count))
      else quotedFrom? quote (ch :: reversed) c.next
termination_by c.rest.length
decreasing_by
  all_goals try have := Spacing.length_read?_le _hs
  all_goals simp_all
  all_goals omega

/-- Reads a quoted scalar after its opening quote. -/
def quoted? (quote : Char) (c : Cursor) : Option (List Char × Cursor) := quotedFrom? quote [] c

/-! ## Block scalars -/

/-- What becomes of the line breaks at the end of a block scalar: none is kept, the first, or
all. -/
inductive Chomping where
  | strip
  | clip
  | keep
  deriving DecidableEq, Repr

/-- The chomping that an indicator asks for. -/
def Chomping.ofChar? (ch : Char) : Option Chomping :=
  if ch = '-' then some .strip else if ch = '+' then some .keep else none

/-- The indentation that an indicator asks for, beyond that of the collection. -/
def indentationOf? (ch : Char) : Option Nat := if ch.isDigit then some (ch.toNat - 48) else none

/-- The header of a block scalar after its first character: chomping and indentation in either
order, each of them optional, and the place on the next line. An indentation of zero is an
error. -/
def blockHeader? (c : Cursor) : Option (Chomping × Option Nat × Cursor) := do
  let first := c.rest.head?
  let second := c.next.rest.head?
  let (chomping, indentation, after) :=
    match first.bind Chomping.ofChar?, first.bind indentationOf? with
    | some chomping, _ =>
      match second.bind indentationOf? with
      | some n => (chomping, some n, c.skip 2)
      | none => (chomping, none, c.next)
    | none, some n =>
      match second.bind Chomping.ofChar? with
      | some chomping => (chomping, some n, c.skip 2)
      | none => (.clip, some n, c.next)
    | none, none => (.clip, none, c)
  guard (indentation ≠ some 0)
  let after ← after.endLine?
  return (chomping, indentation, after)

/-- The place after the indentation of a line. As long as the indentation is not known, all leading
spaces belong to it. -/
def skipIndentation (indentation : Option Nat) (c : Cursor) : Cursor :=
  let spaces := (c.run (· = ' ')).length
  c.skip (match indentation with
    | none => spaces
    | some column => min spaces (column - c.column))

theorem length_skipIndentation_le (indentation : Option Nat) (c : Cursor) :
    (skipIndentation indentation c).rest.length ≤ c.rest.length := Cursor.length_skip_le _ c

/-- The empty lines in front of a line of a block scalar: their line breaks, the deepest column
that was reached, and the place of the line's text. A tabulator may not stand in the
indentation. -/
def emptyLines? (indentation : Option Nat) (breaks : List Char) (deepest : Nat) (c : Cursor) :
    Option (List Char × Nat × Cursor) :=
  let text := skipIndentation indentation c
  let deepest := max deepest text.column
  if indentation.all (text.column < ·) && text.startsWith '\t' then none
  else
    match _h : text.rest with
    | [] => some (breaks, deepest, text)
    | ch :: _ =>
      if isBreak ch then emptyLines? indentation (breaks ++ [ch]) deepest text.next
      else some (breaks, deepest, text)
termination_by c.rest.length
decreasing_by
  have hshorter : text.next.rest.length < text.rest.length := by simp [_h]
  exact Nat.lt_of_lt_of_le hshorter (length_skipIndentation_le indentation c)

theorem length_emptyLines?_le {indentation : Option Nat} {breaks breaks' : List Char}
    {deepest deepest' : Nat} {c c' : Cursor}
    (h : emptyLines? indentation breaks deepest c = some (breaks', deepest', c')) :
    c'.rest.length ≤ c.rest.length := by
  fun_induction emptyLines? indentation breaks deepest c with
  | case1 => simp at h
  | case2 _ _ c text =>
      obtain ⟨-, -, rfl⟩ := by simpa using h
      exact length_skipIndentation_le indentation c
  | case3 _ _ c text _ _ _ _ he _ ih =>
      have := length_skipIndentation_le indentation c
      have hrest : text.next.rest.length ≤ text.rest.length := by rw [Cursor.length_next]; omega
      exact Nat.le_trans (ih h) (Nat.le_trans hrest this)
  | case4 _ _ c text =>
      obtain ⟨-, -, rfl⟩ := by simpa using h
      exact length_skipIndentation_le indentation c

/-- The lines of a block scalar that were read: their text, the line break after the last of them
and the empty lines after that. -/
structure Lines where
  text : List Char := []
  lastBreak : List Char := []
  /-- Whether the last line starts with a gap, so that it is not joined with others. -/
  indented : Bool := false
  emptyLines : List Char
  deriving DecidableEq, Repr

/-- Adds a line. In a folded scalar the line break in front of it is folded unless one of the two
lines starts with a gap. -/
def Lines.push (lines : Lines) (folded : Bool) (line lastBreak emptyLines : List Char) : Lines :=
  let indented := line.head?.any isGap
  let joint :=
    if folded && lines.lastBreak == ['\n'] && !lines.indented && !indented then
      if lines.emptyLines.isEmpty then [' '] else []
    else lines.lastBreak
  { text := lines.text ++ joint ++ lines.emptyLines ++ line, lastBreak, indented, emptyLines }

/-- The text of a block scalar. -/
def Lines.chomp (lines : Lines) : Chomping → List Char
  | .strip => lines.text
  | .clip => lines.text ++ lines.lastBreak
  | .keep => lines.text ++ lines.lastBreak ++ lines.emptyLines

/-- Goes on reading the lines of a block scalar that start at a column. -/
def blockLines? (folded : Bool) (column : Nat) (lines : Lines) (c : Cursor) :
    Option (Lines × Cursor) :=
  if _inside : c.column = column ∧ c.rest ≠ [] then
    let line := c.run fun ch => !isBreak ch
    let lineEnd := c.skip line.length
    match _h : emptyLines? (some column) [] 0 lineEnd.next with
    | none => none
    | some (emptyLines, _, after) =>
      blockLines? folded column (lines.push folded line lineEnd.rest.head?.toList emptyLines) after
  else some (lines, c)
termination_by c.rest.length
decreasing_by
  have := length_emptyLines?_le _h
  have := List.length_pos_iff.2 _inside.2
  simp_all [lineEnd]
  omega

/-- Reads a block scalar after its first character. Its lines stand at the column its header asks
for, or else where its first line of text stands, but right of the collection it belongs to. -/
def block? (folded : Bool) (margin : Nat) (c : Cursor) : Option (List Char × Cursor) := do
  let (chomping, indentation, start) ← blockHeader? c
  let asked := indentation.map (margin - 1 + ·)
  let (emptyLines, deepest, first) ← emptyLines? asked [] 0 start
  let column := asked.getD (max deepest (max margin 1))
  let (lines, after) ← blockLines? folded column { emptyLines } first
  return (lines.chomp chomping, after)

end RaceIngest.Yaml
