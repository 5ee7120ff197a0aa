/-!
# Rounding a ratio to a binary format

Numbers reach the library as exact ratios of natural numbers: a decimal literal, a product of two
stored values, a candidate on a decimal grid. This module rounds such a ratio to the nearest value
of a binary floating-point format, ties going to the even mantissa, in exact natural arithmetic.

A format is described by its precision and by the range of the exponent of its last mantissa bit.
Every finite non-negative value of it is `mantissa * 2 ^ exponent`, and `none` stands for a
magnitude beyond the greatest finite value.

## Main definitions

* `Format` with the two instances `single` and `double`,
* `divHalfEven`, the quotient rounded to nearest, ties to even,
* `Format.round`, the nearest value of a format to a ratio.
-/

namespace RaceIngest.Binary

-- Powers are those of the core library, also where algebra is imported.
attribute [local instance (high)] instPowNat

/-- A binary floating-point format: the number of mantissa bits, and the least and the greatest
exponent of the last of them. -/
structure Format where
  precision : Nat
  minExponent : Int
  maxExponent : Int
  deriving DecidableEq, Repr

/-- The 32-bit format. -/
def Format.single : Format := ⟨24, -149, 104⟩

/-- The 64-bit format. -/
def Format.double : Format := ⟨53, -1074, 971⟩

/-- The finite non-negative number `mantissa * 2 ^ exponent`. -/
structure Magnitude where
  mantissa : Nat
  exponent : Int
  deriving DecidableEq, Repr, Inhabited

/-- The magnitude as a ratio of natural numbers: numerator and denominator. -/
def Magnitude.ratio (x : Magnitude) : Nat × Nat :=
  (x.mantissa * 2 ^ x.exponent.toNat, 2 ^ (-x.exponent).toNat)

/-- Zero in any format. -/
def Magnitude.zero : Magnitude := ⟨0, 0⟩

/-- The quotient of two natural numbers rounded to the nearest integer, a tie going to the even
one. -/
def divHalfEven (num den : Nat) : Nat :=
  let quotient := num / den
  let remainder := num % den
  if 2 * remainder < den then quotient
  else if den < 2 * remainder then quotient + 1
  else quotient + quotient % 2

/-- The greatest `e` with `2 ^ e ≤ num / den`, for positive numbers. -/
def floorLog2 (num den : Nat) : Int :=
  let guess : Int := (num.log2 : Int) - (den.log2 : Int)
  if den * 2 ^ guess.toNat ≤ num * 2 ^ (-guess).toNat then guess else guess - 1

namespace Format

/-- The value of the format nearest to `num / den`, ties to the even mantissa; `none` beyond the
greatest finite value. The denominator is positive. -/
def round (format : Format) (num den : Nat) : Option Magnitude :=
  if num = 0 then some .zero
  else
    let exponent := max format.minExponent (floorLog2 num den - (format.precision - 1 : Nat))
    let mantissa := divHalfEven (num * 2 ^ (-exponent).toNat) (den * 2 ^ exponent.toNat)
    let rounded : Magnitude :=
      if mantissa = 2 ^ format.precision then ⟨2 ^ (format.precision - 1), exponent + 1⟩
      else ⟨mantissa, exponent⟩
    if rounded.exponent ≤ format.maxExponent then some rounded else none

@[simp] theorem round_zero (format : Format) (den : Nat) : format.round 0 den = some .zero := rfl

/-- The product of a magnitude and another, rounded to the format. -/
def mul (format : Format) (x y : Magnitude) : Option Magnitude :=
  format.round (x.ratio.1 * y.ratio.1) (x.ratio.2 * y.ratio.2)

/-- The quotient of a magnitude by a positive one, rounded to the format. -/
def div (format : Format) (x y : Magnitude) : Option Magnitude :=
  format.round (x.ratio.1 * y.ratio.2) (x.ratio.2 * y.ratio.1)

end Format

end RaceIngest.Binary
