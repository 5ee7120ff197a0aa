import RaceIngest.Calendar.Timestamp

/-!
# The text form of timestamps

Timestamps are written in one form, `2024-05-06T07:08:09.123Z`: always in universal time, the year
with at least four digits and with a sign outside 0 to 9999, and the fraction with the fewest of
zero, three, six or nine digits that lose nothing. A leap second is written as second 60.

They are read leniently. The parts are separated as above, with blanks allowed before each part
and before the hyphens and colons; `t` or a space may stand for `T`; the numbers except the year
have one or two digits; any number of fraction digits is cut to nanoseconds; and the zone is `Z`,
`UTC` or an offset of hours and minutes with an optional separator. The result is the moment in
universal time.

## Main definitions

* `Timestamp.chars`, `Timestamp.text`,
* `Timestamp.parse?`.
-/

namespace RaceIngest.Calendar

open Decimal Text

namespace Timestamp

/-! ## Writing -/

/-- The year of a timestamp: four digits, or a sign and at least four digits. -/
def yearChars (year : Int) : List Char :=
  if 0 ≤ year ∧ year ≤ 9999 then Digits.padded 4 year.toNat
  else (if year < 0 then '-' else '+') :: Digits.padded 4 year.natAbs

/-- The fraction of a second, with the fewest of 0, 3, 6 and 9 digits that lose nothing. -/
def fractionChars (nano : Nat) : List Char :=
  if nano = 0 then []
  else if nano % 1000000 = 0 then '.' :: Digits.padded 3 (nano / 1000000)
  else if nano % 1000 = 0 then '.' :: Digits.padded 6 (nano / 1000)
  else '.' :: Digits.padded 9 nano

/-- The characters of a timestamp. -/
def chars (t : Timestamp) : List Char :=
  let second := t.second.val
  let leap := if nanosPerSecond ≤ t.nano.val then 1 else 0
  yearChars t.date.year ++ '-' :: Digits.padded 2 t.date.month ++ '-' :: Digits.padded 2 t.date.day ++
  'T' :: Digits.padded 2 (second / 3600) ++ ':' :: Digits.padded 2 (second / 60 % 60) ++
  ':' :: Digits.padded 2 (second % 60 + leap) ++ fractionChars (t.nano.val % nanosPerSecond) ++ ['Z']

/-- The text of a timestamp. -/
def text (t : Timestamp) : String := String.ofList t.chars

/-! ## Reading -/

/-- Reads between one and `most` digits after skipping blanks. -/
def takeNumber? (most : Nat) (cs : List Char) : Option (Nat × List Char) :=
  let (ds, _) := Digits.takeChars ((skipBlanks cs).take most)
  if ds.isEmpty then none
  else some (Digits.value ds, (skipBlanks cs).drop ds.length)

/-- Reads a year: up to four digits, or a sign and any number of digits. -/
def takeYear? (cs : List Char) : Option (Int × List Char) :=
  let signed (rest : List Char) : Option (Int × List Char) :=
    let (ds, after) := Digits.takeChars rest
    if ds.isEmpty then none else some (Digits.value ds, after)
  match skipBlanks cs with
  | '-' :: rest => (signed rest).map fun (year, after) => (-year, after)
  | '+' :: rest => signed rest
  | _ => (takeNumber? 4 cs).map fun (year, after) => ((year : Int), after)

/-- Reads one given character after skipping blanks. -/
def takeMark? (mark : Char) (cs : List Char) : Option (List Char) :=
  match skipBlanks cs with
  | c :: rest => if c = mark then some rest else none
  | [] => none

/-- Reads an optional fraction of a second as nanoseconds. A point needs at least one digit after
it, and digits beyond the ninth are dropped. -/
def takeFraction? (cs : List Char) : Option (Nat × List Char) :=
  match cs with
  | '.' :: rest =>
    let (ds, after) := Digits.takeChars rest
    if ds.isEmpty then none
    else some (Digits.value ((ds ++ List.replicate 9 0).take 9), after)
  | _ => some (0, cs)

/-- The value of exactly two digits. -/
def twoDigits? : List Char → Option Nat
  | c :: d :: _ => do
    let tens ← Digit.ofChar? c
    let units ← Digit.ofChar? d
    some (10 * tens.val + units.val)
  | _ => none

/-- Reads an offset after its sign: two digits of hours, any run of colons and blanks, two digits
of minutes below sixty. -/
def takeOffset? (cs : List Char) : Option (Nat × List Char) := do
  let hours ← twoDigits? cs
  let rest := (cs.drop 2).dropWhile fun c => c = ':' || isBlankChar c
  let minutes ← twoDigits? rest
  guard (minutes < 60)
  let offset := hours * 3600 + minutes * 60
  guard (offset < secondsPerDay)
  some (offset, rest.drop 2)

/-- Reads a zone as its offset from universal time in seconds. -/
def takeZone? (cs : List Char) : Option (Int × List Char) :=
  if (cs.take 3).map Char.toLower = ['u', 't', 'c'] then some (0, cs.drop 3)
  else
    match cs with
    | [] => none
    | c :: rest =>
      if c = 'Z' ∨ c = 'z' then some (0, rest)
      else if c = '+' then (takeOffset? rest).map fun (offset, after) => ((offset : Int), after)
      else if c = '-' ∨ c = '−' then
        (takeOffset? rest).map fun (offset, after) => (-(offset : Int), after)
      else none

/-- Reads a whole text as a timestamp. -/
def parse? (cs : List Char) : Option Timestamp := do
  let (year, cs) ← takeYear? cs
  let cs ← takeMark? '-' cs
  let (month, cs) ← takeNumber? 2 cs
  let cs ← takeMark? '-' cs
  let (day, cs) ← takeNumber? 2 cs
  let cs ←
    match cs with
    | c :: rest => if c = 'T' ∨ c = 't' ∨ c = ' ' then some rest else none
    | [] => none
  let (hour, cs) ← takeNumber? 2 cs
  let cs ← takeMark? ':' cs
  let (minute, cs) ← takeNumber? 2 cs
  let cs ← takeMark? ':' cs
  let (second, cs) ← takeNumber? 2 cs
  let (nano, cs) ← takeFraction? cs
  let (offset, cs) ← takeZone? (skipBlanks cs)
  guard (isBlank cs)
  let date ← Date.ofCivil? year month day
  guard (hour < 24 ∧ minute < 60 ∧ second ≤ 60)
  let leap := second = 60
  let ofDay := hour * 3600 + minute * 60 + (if leap then 59 else second)
  let subsecond := if leap then nanosPerSecond + nano else nano
  let shown : Timestamp := ⟨date, Fin.ofNat 86400 ofDay, Fin.ofNat 2000000000 subsecond⟩
  shown.shift? offset

end Timestamp

end RaceIngest.Calendar
