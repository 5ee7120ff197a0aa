import RaceIngest.Decimal.Digits

/-!
# Durations

A `Duration` is a length of time in nanoseconds. Its text names the largest of the units second,
millisecond, microsecond and nanosecond that gives a whole part other than zero, followed by the
exact fraction without trailing zeros: `1.5s`, `250ms`, `2.5µs`, and `0ns` for no time at all.
-/

namespace RaceIngest

open Decimal

-- Powers are those of the core library, also where algebra is imported.
attribute [local instance (high)] instPowNat

/-- A length of time. -/
structure Duration where
  nanoseconds : Nat
  deriving DecidableEq, Repr, Inhabited

namespace Duration

/-- The duration of some seconds and nanoseconds. -/
def ofParts (seconds nanos : Nat) : Duration := ⟨seconds * 1000000000 + nanos⟩

/-- The duration of some seconds. -/
def ofSeconds (seconds : Nat) : Duration := ofParts seconds 0

/-- The duration of some milliseconds. -/
def ofMillis (millis : Nat) : Duration := ⟨millis * 1000000⟩

/-- The whole seconds of a duration. -/
def seconds (d : Duration) : Nat := d.nanoseconds / 1000000000

/-- The nanoseconds beyond the whole seconds. -/
def subsecNanos (d : Duration) : Nat := d.nanoseconds % 1000000000

/-- The whole milliseconds of a duration. -/
def millis (d : Duration) : Nat := d.nanoseconds / 1000000

/-- Whether no time passes. -/
def isZero (d : Duration) : Bool := d.nanoseconds == 0

@[simp] theorem millis_ofMillis (n : Nat) : (ofMillis n).millis = n := by
  simp [ofMillis, millis]

theorem seconds_subsecNanos (d : Duration) : ofParts d.seconds d.subsecNanos = d := by
  cases d; simp [ofParts, seconds, subsecNanos]; omega

/-- The digits of a fraction without trailing zeros, after a point. -/
def fractionChars (width fraction : Nat) : List Char :=
  let cs := ((Digits.padded width fraction).reverse.dropWhile (· = '0')).reverse
  if cs.isEmpty then [] else '.' :: cs

/-- A number of nanoseconds in a unit of `10 ^ width` of them. -/
def inUnit (width : Nat) (unit : List Char) (nanoseconds : Nat) : List Char :=
  Digits.chars (Digits.ofNat (nanoseconds / 10 ^ width)) ++
    fractionChars width (nanoseconds % 10 ^ width) ++ unit

/-- The text of a duration. -/
def text (d : Duration) : String :=
  let n := d.nanoseconds
  String.ofList <|
    if 10 ^ (9 : Nat) ≤ n then inUnit 9 ['s'] n
    else if 10 ^ (6 : Nat) ≤ n then inUnit 6 ['m', 's'] n
    else if 10 ^ (3 : Nat) ≤ n then inUnit 3 ['µ', 's'] n
    else Digits.chars (Digits.ofNat n) ++ ['n', 's']

end Duration

end RaceIngest
