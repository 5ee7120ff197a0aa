import RaceIngest.Binary.Rounding

/-!
# Single-precision words

Telemetry carries its real quantities as 32-bit floating-point words, and the library never
computes with them: it stores them, compares them and turns them into decimal text. A `Single` is
therefore the word itself, so that payloads of not-a-number words and the sign of zero are kept
and equality of words is decidable.

The two comparisons the program makes, `Single.lt` and `Single.eq`, follow the usual rules: a
not-a-number word is neither below nor equal to anything, and the two zeros are equal.

## Main definitions

* `Single`, with `isNaN`, `isFinite`, `magnitude`,
* `Single.rank`, the order key of a word that is a number,
* `Single.lt` and `Single.eq`,
* `Single.nearest`, the word nearest to a signed ratio.
-/

namespace RaceIngest

/-- A 32-bit floating-point word: sign, eight exponent bits, 23 fraction bits. -/
structure Single where
  bits : UInt32
  deriving DecidableEq, Repr, Hashable

namespace Single

open Binary

-- Powers are those of the core library, also where algebra is imported.
attribute [local instance (high)] instPowNat

instance : Inhabited Single := ⟨⟨0⟩⟩

/-- Positive zero. -/
def zero : Single := ⟨0⟩

/-- The number one. -/
def one : Single := ⟨0x3f800000⟩

/-- The word without its sign bit, as a number. -/
def absBits (x : Single) : Nat := x.bits.toNat % 2 ^ (31 : Nat)

/-- Whether the sign bit is set. -/
def isNegative (x : Single) : Bool := 2 ^ (31 : Nat) ≤ x.bits.toNat

/-- The word of positive infinity without its sign bit. -/
def infinityBits : Nat := 0x7f800000

/-- Whether the word is not a number. -/
def isNaN (x : Single) : Bool := infinityBits < x.absBits

/-- Whether the word is a number other than the infinities. -/
def isFinite (x : Single) : Bool := x.absBits < infinityBits

/-- The place of a number among all numbers: words that are numbers are ordered as their ranks,
and the two zeros share rank `0`. -/
def rank (x : Single) : Int := if x.isNegative then -(x.absBits : Int) else x.absBits

/-- Numeric order. -/
def lt (x y : Single) : Bool := !x.isNaN && !y.isNaN && decide (x.rank < y.rank)

/-- Numeric equality. -/
def eq (x y : Single) : Bool := !x.isNaN && !y.isNaN && decide (x.rank = y.rank)

/-- Whether the word is one of the two zeros. -/
def isZero (x : Single) : Bool := x.eq zero

theorem lt_irrefl (x : Single) : x.lt x = false := by
  simp [lt]

theorem lt_of_isNaN_left {x : Single} (hnan : x.isNaN = true) (y : Single) : x.lt y = false := by
  simp [lt, hnan]

theorem lt_of_isNaN_right {y : Single} (hnan : y.isNaN = true) (x : Single) : x.lt y = false := by
  simp [lt, hnan]

theorem eq_false_of_isNaN {x : Single} (hnan : x.isNaN = true) (y : Single) : x.eq y = false := by
  simp [eq, hnan]

theorem eq_self_iff (x : Single) : x.eq x = true ↔ x.isNaN = false := by
  simp [eq]

/-- The absolute value of a finite word. -/
def magnitude (x : Single) : Magnitude :=
  let exponent : Nat := x.absBits / 2 ^ (23 : Nat)
  let fraction : Nat := x.absBits % 2 ^ (23 : Nat)
  if exponent = 0 then ⟨fraction, -149⟩ else ⟨fraction + 2 ^ (23 : Nat), (exponent : Int) - 150⟩

/-- The word with the given sign and absolute value, where `none` is infinite. The value is one
that the 32-bit format holds. -/
def ofMagnitude (negative : Bool) (value : Option Magnitude) : Single :=
  let word : Nat :=
    match value with
    | none => infinityBits
    | some ⟨0, _⟩ => 0
    | some ⟨mantissa, exponent⟩ => (exponent + 149).toNat * 2 ^ (23 : Nat) + mantissa
  ⟨UInt32.ofNat (if negative then 2 ^ (31 : Nat) + word else word)⟩

/-- The word nearest to the ratio of two natural numbers, with the given sign. -/
def nearest (negative : Bool) (num den : Nat) : Single :=
  ofMagnitude negative (Format.single.round num den)

end Single

end RaceIngest
