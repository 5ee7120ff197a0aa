import RaceIngest.Binary.Single
import RaceIngest.Decimal.Digits

/-!
# Decimal numerals

A `Numeral` is a number as a document writes it: sign, whole digits, fraction digits and an
optional power of ten. Documents keep their numbers in this form, so an integer can be told from a
number that merely has an integral value (`4` and `4.0`), and nothing is lost before the reader of
a field decides what the number is for.

A numeral is read as

* an integer (`Numeral.toInteger?`): only a literal without fraction and exponent, between
  `-2 ^ 63` and `2 ^ 64 - 1`, counts, and a negative zero is not an integer;
* a 64-bit number (`Numeral.toDouble?`): the leading digits that fit 64 bits are taken as an
  integer and scaled by a power of ten, each of the two steps rounding to nearest. A number beyond
  the 64-bit range is refused;
* a 32-bit word (`Numeral.toSingle?`): an integer is rounded once, anything else is rounded to the
  64-bit format first. A number beyond the 32-bit range becomes infinite.
-/

namespace RaceIngest.Decimal

open Binary

-- Powers are those of the core library, also where algebra is imported.
attribute [local instance (high)] instPowNat

/-- The power of ten after the `e` of a numeral. -/
structure Exponent where
  negative : Bool
  digits : Digits
  deriving DecidableEq, Repr

/-- A number as it is written. `whole` has at least one digit and no leading zero unless it is the
digit zero alone; an empty `fraction` means that no point is written. -/
structure Numeral where
  negative : Bool
  whole : Digits
  fraction : Digits := []
  exponent : Option Exponent := none
  deriving DecidableEq, Repr

namespace Numeral

/-- The literal of a natural number. -/
def ofNat (n : Nat) : Numeral := { negative := false, whole := Digits.ofNat n }

/-- The literal of an integer. -/
def ofInt (i : Int) : Numeral := { negative := decide (i < 0), whole := Digits.ofNat i.natAbs }

/-- The characters of a numeral. -/
def chars (n : Numeral) : List Char :=
  (if n.negative then ['-'] else []) ++ Digits.chars n.whole ++
  (if n.fraction.isEmpty then [] else '.' :: Digits.chars n.fraction) ++
  (match n.exponent with
    | none => []
    | some e => 'e' :: (if e.negative then '-' else '+') :: Digits.chars e.digits)

/-- The exponent part of a numeral, which has to use up its characters. -/
def parseExponent? (whole fraction : Digits) (negative : Bool) : List Char → Option Numeral
  | [] => some { negative, whole, fraction }
  | mark :: rest =>
    if mark = 'e' ∨ mark = 'E' then
      let (minus, cs) :=
        match rest with
        | '-' :: cs => (true, cs)
        | '+' :: cs => (false, cs)
        | cs => (false, cs)
      match Digits.ofChars? cs with
      | some (d :: ds) =>
        some { negative, whole, fraction, exponent := some ⟨minus, d :: ds⟩ }
      | _ => none
    else none

/-- Reads a whole row of characters as a numeral: an optional minus sign, digits without a
superfluous leading zero, an optional fraction and an optional exponent. -/
def parse? (cs : List Char) : Option Numeral :=
  let (negative, unsigned) :=
    match cs with
    | '-' :: rest => (true, rest)
    | _ => (false, cs)
  let (whole, rest) := Digits.takeChars unsigned
  let canonical :=
    match whole with
    | [] => false
    | d :: ds => d ≠ 0 ∨ ds = []
  if canonical then
    match rest with
    | '.' :: rest =>
      let (fraction, rest) := Digits.takeChars rest
      if fraction.isEmpty then none else parseExponent? whole fraction negative rest
    | rest => parseExponent? whole [] negative rest
  else none

/-- Whether neither a fraction nor an exponent is written. -/
def isInteger (n : Numeral) : Bool := n.fraction.isEmpty && n.exponent.isNone

/-- The integer that a numeral writes as an integer literal in the range of 64-bit numbers. A
negative zero is no integer. -/
def toInteger? (n : Numeral) : Option Int :=
  if n.isInteger then
    let value := Digits.value n.whole
    if n.negative then
      if 0 < value ∧ value ≤ 2 ^ (63 : Nat) then some (-(value : Int)) else none
    else if value < 2 ^ (64 : Nat) then some value else none
  else none

/-- The integer literal of a natural number below `bound`. -/
def toNatBelow? (bound : Nat) (n : Numeral) : Option Nat :=
  match n.toInteger? with
  | some (.ofNat value) => if value < bound then some value else none
  | _ => none

/-- The integer literal of an integer in the range of signed words of `width` bits. -/
def toSigned? (width : Nat) (n : Numeral) : Option Int :=
  match n.toInteger? with
  | some value =>
    if -(2 ^ (width - 1) : Int) ≤ value ∧ value < 2 ^ (width - 1) then some value else none
  | none => none

/-! ## Reading a 64-bit number -/

/-- The leading digits of a numeral as one number below `2 ^ 64`, with the power of ten that is
left over. -/
structure Significand where
  value : Nat
  exponent : Int
  deriving DecidableEq, Repr

/-- Whether a further digit keeps the significand within 64 bits. -/
def Significand.admits (s : Significand) (d : Digit) : Bool := 10 * s.value + d.val < 2 ^ (64 : Nat)

/-- The significand after whole digits: once a digit does not fit, it and all whole digits after it
only raise the exponent. -/
def Significand.whole (s : Significand) : Digits → Significand
  | [] => s
  | d :: ds =>
    if s.admits d then whole { s with value := 10 * s.value + d.val } ds
    else { s with exponent := s.exponent + ((d :: ds).length : Nat) }

/-- The significand after fraction digits: the first that does not fit ends the significand. -/
def Significand.fraction (s : Significand) : Digits → Significand
  | [] => s
  | d :: ds =>
    if s.admits d then fraction ⟨10 * s.value + d.val, s.exponent - 1⟩ ds else s

/-- The significand of a numeral, without its written exponent. -/
def significand (n : Numeral) : Significand :=
  (Significand.whole ⟨0, 0⟩ n.whole).fraction n.fraction

/-- The greatest signed 32-bit number, at which exponents saturate. -/
def exponentLimit : Int := 2 ^ (31 : Nat) - 1

/-- The power of ten in the 64-bit format. -/
def powerOfTen (k : Nat) : Magnitude := (Format.double.round (10 ^ k) 1).getD .zero

/-- The greatest power of ten of the 64-bit format. -/
def greatestPower : Nat := 308

/-- Divides by the greatest power of ten up to `steps` times, stopping at zero. -/
def shrink : Nat → Magnitude → Magnitude
  | 0, x => x
  | steps + 1, x =>
    if x.mantissa = 0 then x
    else shrink steps ((Format.double.div x (powerOfTen greatestPower)).getD .zero)

/-- A 64-bit number times a power of ten: a product or a quotient with one power, each rounded,
after as many divisions by the greatest power as a very small exponent needs. -/
def scale (x : Magnitude) (exponent : Int) : Option Magnitude :=
  if 0 ≤ exponent then
    if exponent ≤ greatestPower then Format.double.mul x (powerOfTen exponent.toNat)
    else if x.mantissa = 0 then some x else none
  else
    let deficit := (-exponent).toNat - greatestPower
    let steps := (deficit + greatestPower - 1) / greatestPower
    let small := shrink steps x
    Format.double.div small (powerOfTen ((-exponent).toNat - steps * greatestPower))

/-- The absolute value of a numeral as a 64-bit number; `none` beyond the greatest of them. -/
def toDouble? (n : Numeral) : Option Magnitude :=
  let s := n.significand
  let x := (Format.double.round s.value 1).getD .zero
  match n.exponent with
  | none => scale x s.exponent
  | some e =>
    let written : Int := Digits.value e.digits
    if exponentLimit < written then
      if s.value ≠ 0 ∧ ¬e.negative then none else some .zero
    else
      let total := if e.negative then s.exponent - written else s.exponent + written
      scale x (max (-exponentLimit - 1) (min exponentLimit total))

/-- The 32-bit word that a numeral denotes; `none` beyond the 64-bit range. -/
def toSingle? (n : Numeral) : Option Single :=
  match n.toInteger? with
  | some value => some (Single.nearest n.negative value.natAbs 1)
  | none => n.toDouble?.map fun x => Single.nearest n.negative x.ratio.1 x.ratio.2

end Numeral

end RaceIngest.Decimal
