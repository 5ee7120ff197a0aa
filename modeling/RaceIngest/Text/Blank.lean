/-!
# Blank text

White space in the sense of the Unicode property `White_Space`, and the operations on text that
depend on it: skipping leading blanks and asking whether a text is blank. Addresses, overrides,
lines of stored documents and timestamps are all read with this notion of blank.
-/

namespace RaceIngest.Text

/-- The characters with the Unicode property `White_Space`. -/
def isBlankChar (c : Char) : Bool :=
  let n := c.toNat
  (0x09 ≤ n && n ≤ 0x0d) || n == 0x20 || n == 0x85 || n == 0xa0 || n == 0x1680 ||
  (0x2000 ≤ n && n ≤ 0x200a) || n == 0x2028 || n == 0x2029 || n == 0x202f || n == 0x205f ||
  n == 0x3000

/-- A text without its leading blanks. -/
def skipBlanks (cs : List Char) : List Char := cs.dropWhile isBlankChar

/-- Whether a text holds nothing but blanks. -/
def isBlank (cs : List Char) : Bool := cs.all isBlankChar

end RaceIngest.Text
