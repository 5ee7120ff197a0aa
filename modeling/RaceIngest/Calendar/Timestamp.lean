import RaceIngest.Text.Blank
import RaceIngest.Decimal.Digits

/-!
# Dates and timestamps

A `Date` is a day of the proleptic Gregorian calendar in the years -262143 to 262142, and a
`Timestamp` is a moment in coordinated universal time: a date, a second of the day and a count of
nanoseconds. Nanoseconds from one thousand million on stand for the inside of a leap second, which
follows the second it is attached to.

Moments are compared by `Timestamp.rank`, a number that orders them by date, second and
nanosecond.

## Main definitions

* `Date`, `Date.ofCivil?`, `Date.ofEpochDays`, `Date.next?`, `Date.previous?`,
* `Timestamp`, `Timestamp.rank` and the order it induces,
* `Timestamp.shift?`, the moment a local time stands for in a zone with a given offset.
-/

namespace RaceIngest.Calendar

/-- Whether a year has a 29th of February. -/
def isLeapYear (year : Int) : Bool := year % 4 == 0 && (year % 100 != 0 || year % 400 == 0)

/-- The number of days of a month, from 1 to 12. -/
def monthLength (year : Int) (month : Nat) : Nat :=
  if month = 2 then (if isLeapYear year then 29 else 28)
  else if month = 4 ∨ month = 6 ∨ month = 9 ∨ month = 11 then 30
  else 31

/-- The first and the last year of the calendar. -/
def firstYear : Int := -262143

@[inherit_doc firstYear]
def lastYear : Int := 262142

/-- Whether three numbers name a day of the calendar. -/
def IsDate (year : Int) (month day : Nat) : Prop :=
  firstYear ≤ year ∧ year ≤ lastYear ∧ 1 ≤ month ∧ month ≤ 12 ∧
  1 ≤ day ∧ day ≤ monthLength year month

instance (year : Int) (month day : Nat) : Decidable (IsDate year month day) := by
  unfold IsDate; infer_instance

/-- A day of the calendar. -/
structure Date where
  year : Int
  month : Nat
  day : Nat
  valid : IsDate year month day
  deriving DecidableEq

namespace Date

instance : Inhabited Date := ⟨⟨1970, 1, 1, by decide⟩⟩

/-- The day with the given year, month and day of the month, if there is one. -/
def ofCivil? (year : Int) (month day : Nat) : Option Date :=
  if hvalid : IsDate year month day then some ⟨year, month, day, hvalid⟩ else none

/-- The following day, except after the last day of the calendar. -/
def next? (d : Date) : Option Date :=
  if d.day < monthLength d.year d.month then ofCivil? d.year d.month (d.day + 1)
  else if d.month < 12 then ofCivil? d.year (d.month + 1) 1
  else ofCivil? (d.year + 1) 1 1

/-- The day before, except before the first day of the calendar. -/
def previous? (d : Date) : Option Date :=
  if 1 < d.day then ofCivil? d.year d.month (d.day - 1)
  else if 1 < d.month then ofCivil? d.year (d.month - 1) (monthLength d.year (d.month - 1))
  else ofCivil? (d.year - 1) 12 31

/-- The day some days after the first of January 1970. Counted in years that begin in March, the leap
day is the last of its year, and every four hundred years have the same number of days. -/
def ofEpochDays (days : Nat) : Date :=
  let shifted := days + 719468
  let cycle := shifted / 146097
  let inCycle := shifted % 146097
  let inYears := inCycle - inCycle / 1460 + inCycle / 36524 - inCycle / 146096
  let marchYear := inYears / 365
  let inYear := inCycle - (365 * marchYear + marchYear / 4 - marchYear / 100)
  let marchMonth := (5 * inYear + 2) / 153
  let day := inYear - (153 * marchMonth + 2) / 5 + 1
  let month := if marchMonth < 10 then marchMonth + 3 else marchMonth - 9
  let year := cycle * 400 + marchYear + if month ≤ 2 then 1 else 0
  (ofCivil? year month day).getD default

/-- The place of a day among all days. -/
def rank (d : Date) : Int := (d.year * 16 + d.month) * 32 + d.day

theorem monthLength_le (year : Int) (month : Nat) : monthLength year month ≤ 31 := by
  unfold monthLength
  split
  · split <;> omega
  · split <;> omega

theorem rank_inj {a b : Date} : a.rank = b.rank ↔ a = b := by
  constructor
  · intro hsame
    have hleft : a.month ≤ 12 ∧ a.day ≤ monthLength a.year a.month :=
      ⟨a.valid.2.2.2.1, a.valid.2.2.2.2.2⟩
    have hright : b.month ≤ 12 ∧ b.day ≤ monthLength b.year b.month :=
      ⟨b.valid.2.2.2.1, b.valid.2.2.2.2.2⟩
    have hleftLength := monthLength_le a.year a.month
    have hrightLength := monthLength_le b.year b.month
    simp only [rank] at hsame
    cases a; cases b
    simp only [Date.mk.injEq]
    simp only at *
    omega
  · rintro rfl; rfl

end Date

/-- Seconds of a day. -/
def secondsPerDay : Nat := 86400

/-- Nanoseconds of a second. -/
def nanosPerSecond : Nat := 1000000000

/-- A moment: a day, a second of it, and nanoseconds, which reach two thousand million inside a
leap second. -/
structure Timestamp where
  date : Date
  second : Fin 86400
  nano : Fin 2000000000
  deriving DecidableEq

namespace Timestamp

instance instNeZeroSecond : @NeZero Nat Zero.ofOfNat0 86400 := ⟨by decide⟩

instance instNeZeroNano : @NeZero Nat Zero.ofOfNat0 2000000000 := ⟨by decide⟩

instance : Inhabited Timestamp := ⟨⟨default, 0, 0⟩⟩

/-- The place of a moment among all moments. -/
def rank (t : Timestamp) : Int :=
  (t.date.rank * 86400 + t.second.val) * 2000000000 + t.nano.val

theorem rank_inj {a b : Timestamp} : a.rank = b.rank ↔ a = b := by
  constructor
  · intro hsame
    obtain ⟨d, s, n⟩ := a
    obtain ⟨d', s', n'⟩ := b
    simp only [rank] at hsame
    have hdates : d.rank = d'.rank := by omega
    have hseconds : s.val = s'.val := by omega
    have hnanos : n.val = n'.val := by omega
    simp only [Timestamp.mk.injEq]
    exact ⟨Date.rank_inj.mp hdates, Fin.ext hseconds, Fin.ext hnanos⟩
  · rintro rfl; rfl

instance : LT Timestamp := ⟨fun a b => a.rank < b.rank⟩
instance : LE Timestamp := ⟨fun a b => a.rank ≤ b.rank⟩
instance (a b : Timestamp) : Decidable (a < b) := inferInstanceAs (Decidable (a.rank < b.rank))
instance (a b : Timestamp) : Decidable (a ≤ b) := inferInstanceAs (Decidable (a.rank ≤ b.rank))

theorem lt_iff {a b : Timestamp} : a < b ↔ a.rank < b.rank := Iff.rfl
theorem le_iff {a b : Timestamp} : a ≤ b ↔ a.rank ≤ b.rank := Iff.rfl

theorem not_lt {a b : Timestamp} : ¬a < b ↔ b ≤ a := Int.not_lt

theorem le_of_lt {a b : Timestamp} : a < b → a ≤ b := Int.le_of_lt

theorem le_trans {a b c : Timestamp} : a ≤ b → b ≤ c → a ≤ c := Int.le_trans

/-- The moment some seconds and nanoseconds after the beginning of the year 1970. -/
def ofEpoch (seconds nanos : Nat) : Timestamp :=
  ⟨Date.ofEpochDays (seconds / secondsPerDay), Fin.ofNat 86400 (seconds % secondsPerDay),
    Fin.ofNat 2000000000 (nanos % nanosPerSecond)⟩

/-- The moment at which a clock that is `offset` seconds ahead of universal time, by less than a
day, shows a local time. Only the ends of the calendar have none. -/
def shift? (t : Timestamp) (offset : Int) : Option Timestamp :=
  let second := (t.second.val : Int) - offset
  if second < 0 then
    t.date.previous?.map fun date => { t with date, second := Fin.ofNat 86400 (second + 86400).toNat }
  else if 86400 ≤ second then
    t.date.next?.map fun date => { t with date, second := Fin.ofNat 86400 (second - 86400).toNat }
  else some { t with second := Fin.ofNat 86400 second.toNat }

end Timestamp

end RaceIngest.Calendar
