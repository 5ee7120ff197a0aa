/-!
# UTF-8

Files and datagrams hold bytes, documents are made of characters. `Utf8.encode` writes characters
as bytes, and `Utf8.symbols` reads any bytes at all: a byte that is not part of a well-formed
sequence becomes a `Symbol.malformed`, so a reader can decide where such bytes are tolerated.
`Utf8.decode?` is the reading that tolerates none.

Well-formed sequences are the shortest encodings of the Unicode scalar values: no surrogates, no
overlong forms, nothing beyond `U+10FFFF`.
-/

namespace RaceIngest.Text

/-- A character of a document, or a byte that is not part of any character. -/
inductive Symbol where
  | char (c : Char)
  | malformed
  deriving DecidableEq, Repr

namespace Utf8

/-- The bytes of a character. -/
def encodeChar (c : Char) : List UInt8 :=
  let n := c.toNat
  if n < 0x80 then [UInt8.ofNat n]
  else if n < 0x800 then [UInt8.ofNat (0xc0 + n / 64), UInt8.ofNat (0x80 + n % 64)]
  else if n < 0x10000 then
    [UInt8.ofNat (0xe0 + n / 4096), UInt8.ofNat (0x80 + n / 64 % 64), UInt8.ofNat (0x80 + n % 64)]
  else
    [UInt8.ofNat (0xf0 + n / 262144), UInt8.ofNat (0x80 + n / 4096 % 64),
      UInt8.ofNat (0x80 + n / 64 % 64), UInt8.ofNat (0x80 + n % 64)]

/-- The bytes of a text. -/
def encode (cs : List Char) : List UInt8 := cs.flatMap encodeChar

/-- The payload of a continuation byte. -/
def continuation? (b : UInt8) : Option Nat :=
  if 0x80 ≤ b.toNat ∧ b.toNat < 0xc0 then some (b.toNat - 0x80) else none

/-- The character with a code point that lies in a range and is no surrogate. -/
def scalarFrom? (least n : Nat) : Option Char :=
  if h : least ≤ n ∧ n.isValidChar then some (Char.ofNatAux n h.2) else none

/-- The character that a lead byte and one continuation byte write. -/
def pair? (a b : UInt8) : Option Char := do
  guard (0xc0 ≤ a.toNat ∧ a.toNat < 0xe0)
  let y ← continuation? b
  scalarFrom? 0x80 ((a.toNat - 0xc0) * 64 + y)

/-- The character that a lead byte and two continuation bytes write. -/
def triple? (a b c : UInt8) : Option Char := do
  guard (0xe0 ≤ a.toNat ∧ a.toNat < 0xf0)
  let y ← continuation? b
  let z ← continuation? c
  scalarFrom? 0x800 (((a.toNat - 0xe0) * 64 + y) * 64 + z)

/-- The character that a lead byte and three continuation bytes write. -/
def quadruple? (a b c d : UInt8) : Option Char := do
  guard (0xf0 ≤ a.toNat ∧ a.toNat < 0xf8)
  let x ← continuation? b
  let y ← continuation? c
  let z ← continuation? d
  scalarFrom? 0x10000 ((((a.toNat - 0xf0) * 64 + x) * 64 + y) * 64 + z)

/-- The character at the start of a row of bytes, with the number of its continuation bytes. -/
def leading? : List UInt8 → Option (Char × Nat)
  | [] => none
  | a :: rest =>
    if a.toNat < 0x80 then some (Char.ofNat a.toNat, 0)
    else
      match rest with
      | [] => none
      | b :: rest =>
        match pair? a b, rest with
        | some ch, _ => some (ch, 1)
        | none, [] => none
        | none, c :: rest =>
          match triple? a b c, rest with
          | some ch, _ => some (ch, 2)
          | none, [] => none
          | none, d :: _ => (quadruple? a b c d).map (·, 3)

/-- Goes on reading bytes as symbols: `reversed` holds what was read, and the given number of
continuation bytes of the last character is still to be skipped. -/
def symbolsAfter (reversed : List Symbol) : Nat → List UInt8 → List Symbol
  | _, [] => reversed.reverse
  | skipped + 1, _ :: rest => symbolsAfter reversed skipped rest
  | 0, a :: rest =>
    match leading? (a :: rest) with
    | some (c, continuing) => symbolsAfter (.char c :: reversed) continuing rest
    | none => symbolsAfter (.malformed :: reversed) 0 rest

/-- Reads bytes as characters, marking every byte that belongs to none. -/
def symbols (bytes : List UInt8) : List Symbol := symbolsAfter [] 0 bytes

theorem symbolsAfter_eq_append (reversed : List Symbol) (skipped : Nat) (bytes : List UInt8) :
    symbolsAfter reversed skipped bytes = reversed.reverse ++ symbolsAfter [] skipped bytes := by
  induction bytes generalizing reversed skipped with
  | nil => simp [symbolsAfter]
  | cons a rest ih =>
      cases skipped with
      | succ skipped => simp only [symbolsAfter]; exact ih _ _
      | zero =>
          simp only [symbolsAfter]
          cases leading? (a :: rest) with
          | none => simp only; rw [ih, ih [.malformed]]; simp
          | some found => simp only; rw [ih, ih [.char found.1]]; simp

/-- The characters of a row of symbols without malformed bytes. -/
def text? (ss : List Symbol) : Option (List Char) :=
  ss.mapM fun
    | .char c => some c
    | .malformed => none

/-- Reads bytes as text, refusing malformed ones. -/
def decode? (bytes : List UInt8) : Option (List Char) := text? (symbols bytes)

end Utf8

end RaceIngest.Text
