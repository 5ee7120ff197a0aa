import RaceIngest.Decimal.Numeral

/-!
# Shortest decimal numerals of words

A finite 32-bit word is written with the fewest significant digits that still round to it, and of
the decimals of that length with the one nearest to its value; an exact tie between two of them
goes to the even last digit.

The search looks at coarser decimal grids first. On every grid it tries the two neighbours of the
value, the nearer first, and stops at the first that rounds to the word: when a point of a grid
rounds to the word, so does one of the two neighbours of the value on that grid.

Where the digits are laid out is a separate decision, kept in one record: numbers from `1e-6` and
below `1e13` are written positionally with at least one digit after the point, all others in
scientific notation.

## Main definitions

* `Decimal.shortest`, the digits,
* `Layout` and `Layout.document`, the layout,
* `Single.toNumeral?`, the two together.
-/

namespace RaceIngest.Decimal

open Binary

-- Powers are those of the core library, also where algebra is imported.
attribute [local instance (high)] instPowNat

/-- The number `significand * 10 ^ exponent`. -/
structure Scaled where
  significand : Nat
  exponent : Int
  deriving DecidableEq, Repr

/-- The scaled number as a ratio of natural numbers. -/
def Scaled.ratio (x : Scaled) : Nat × Nat :=
  (x.significand * 10 ^ x.exponent.toNat, 10 ^ (-x.exponent).toNat)

/-- The greatest `k` with `10 ^ k ≤ num / den`, for positive numbers: an estimate from the
binary logarithm, at most one too small, is corrected by one comparison. -/
def floorLog10 (num den : Nat) : Int :=
  let guess : Int := floorLog2 num den * 1233 / 4096
  let next := guess + 1
  if den * 10 ^ next.toNat ≤ num * 10 ^ (-next).toNat then next else guess

/-- The two neighbours of a value on the grid of multiples of `10 ^ exponent`, the nearer first and
an even one first on a tie. -/
def neighbours (value : Nat × Nat) (exponent : Int) : Scaled × Scaled :=
  let num := value.1 * 10 ^ (-exponent).toNat
  let den := value.2 * 10 ^ exponent.toNat
  let nearer := divHalfEven num den
  let farther := if nearer = num / den then nearer + 1 else num / den
  (⟨nearer, exponent⟩, ⟨farther, exponent⟩)

/-- Searches `count` grids from the one of `10 ^ exponent` downwards for a neighbour of the value
that `reads` accepts. When none is found the nearest point of the last grid is taken. -/
def searchGrids (reads : Scaled → Bool) (value : Nat × Nat) : Nat → Int → Scaled
  | 0, exponent => (neighbours value exponent).1
  | count + 1, exponent =>
    let (nearer, farther) := neighbours value exponent
    if reads nearer then nearer
    else if reads farther then farther
    else searchGrids reads value count (exponent - 1)

/-- The most significant digits that a 32-bit word needs. -/
def digitsOfSingle : Nat := 9

/-- The shortest decimal that rounds to a finite positive word. -/
def shortest (x : Single) : Scaled :=
  let value := x.magnitude.ratio
  let reads (d : Scaled) : Bool := Single.nearest false d.ratio.1 d.ratio.2 = ⟨x.bits &&& 0x7fffffff⟩
  searchGrids reads value digitsOfSingle (floorLog10 value.1 value.2 + 1)

/-! ## Layout -/

/-- How the digits of a number are laid out: positionally when the exponent of the first digit is
at least `plainFrom` and below `plainBelow`, in scientific notation otherwise. -/
structure Layout where
  plainFrom : Int
  plainBelow : Int
  deriving DecidableEq, Repr

/-- The layout of numbers in documents. -/
def Layout.document : Layout := ⟨-6, 13⟩

/-- The numeral that writes a positive scaled number. A positional numeral has at least one digit
after the point. -/
def Layout.numeral (layout : Layout) (negative : Bool) (x : Scaled) : Numeral :=
  let digits := Digits.ofNat x.significand
  let leading : Int := (digits.length : Int) - 1 + x.exponent
  if layout.plainFrom ≤ leading ∧ leading < layout.plainBelow then
    if 0 ≤ leading then
      let before := leading.toNat + 1
      let whole := (digits ++ List.replicate (before - digits.length) 0).take before
      let fraction := digits.drop before
      { negative, whole, fraction := if fraction.isEmpty then [0] else fraction }
    else
      { negative, whole := [0]
        fraction := List.replicate ((-leading).toNat - 1) 0 ++ digits }
  else
    { negative, whole := digits.take 1, fraction := digits.drop 1
      exponent := some ⟨decide (leading < 0), Digits.ofNat leading.natAbs⟩ }

end RaceIngest.Decimal

namespace RaceIngest.Single

open Decimal

/-- The numeral that writes a word; a word that is infinite or not a number has none. -/
def toNumeral? (x : Single) : Option Numeral :=
  if x.isFinite then
    if x.absBits = 0 then some { negative := x.isNegative, whole := [0], fraction := [0] }
    else some (Layout.document.numeral x.isNegative (Decimal.shortest x))
  else none

theorem toNumeral?_isSome (x : Single) : x.toNumeral?.isSome = x.isFinite := by
  unfold toNumeral?
  cases x.isFinite <;> simp
  split <;> rfl

end RaceIngest.Single
