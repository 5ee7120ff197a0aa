import Mathlib.Control.Basic
import RaceIngest.Calendar.Format
import RaceIngest.Proofs.Decimal.Literal

/-!
# Written timestamps are read back

A leap second is the last second of a minute, and only there can it be written and read. The
timestamps that keep to this are regular: every reading of a clock is, everything that is read is,
and a regular timestamp is read back from its text.

## Main statements

* `Timestamp.Regular`, `Timestamp.regular_ofEpoch`, `Timestamp.regular_of_parse?`,
* `Timestamp.parse?_chars`: a regular timestamp is read back.
-/

namespace RaceIngest.Decimal.Digits

/-- The digits of a number with zeros in front of them. -/
def filled (width n : ℕ) : Digits := List.replicate (width - (ofNat n).length) 0 ++ ofNat n

theorem padded_eq (width n : ℕ) : padded width n = chars (filled width n) := by
  simp [padded, filled, chars, Digit.toChar]

@[simp] theorem value_filled (width n : ℕ) : value (filled width n) = n := by
  rw [filled, value_append_digits, value_replicate_zero, value_ofNat, Nat.zero_mul, Nat.zero_add]

theorem filled_ne_nil (width n : ℕ) : filled width n ≠ [] :=
  List.append_ne_nil_of_right_ne_nil _ (ofNat_ne_nil n)

theorem length_filled {width n : ℕ} (hpositive : 0 < width) (hsmall : n < 10 ^ width) :
    (filled width n).length = width := by
  have hfits : (ofNat n).length ≤ width := by
    rcases Nat.eq_zero_or_pos n with rfl | hnonzero
    · rw [ofNat]
      exact hpositive
    · have hpower := (pow_le_of_length_ofNat hnonzero).trans_lt hsmall
      have hexponent := (Nat.pow_lt_pow_iff_right (by decide)).mp hpower
      omega
  rw [filled, List.length_append, List.length_replicate]
  omega

theorem isBlankChar_toChar (d : Digit) : Text.isBlankChar d.toChar = false := by
  revert d
  decide

/-- No blanks stand before digits. -/
theorem skipBlanks_chars {ds : Digits} (hnonempty : ds ≠ []) (rest : List Char) :
    Text.skipBlanks (chars ds ++ rest) = chars ds ++ rest := by
  obtain ⟨d, ds, rfl⟩ := List.exists_cons_of_ne_nil hnonempty
  have hfirst : chars (d :: ds) ++ rest = d.toChar :: (chars ds ++ rest) := rfl
  rw [hfirst, Text.skipBlanks, List.dropWhile_cons_of_neg (by simp [isBlankChar_toChar])]

theorem takeChars_eq (ds : Digits) : takeChars (chars ds) = (ds, []) := by
  have hall : takeChars (chars ds ++ []) = (ds, []) := takeChars_chars ds rfl
  rwa [List.append_nil] at hall

end RaceIngest.Decimal.Digits

namespace RaceIngest.Calendar.Timestamp

open Decimal Text

/-! ## The parts of a timestamp -/

section Parts

variable {rest : List Char}

theorem takeNumber?_chars {most : ℕ} {ds : Digits} (hnonempty : ds ≠ [])
    (hlength : ds.length = most) :
    takeNumber? most (Digits.chars ds ++ rest) = some (Digits.value ds, rest) := by
  have hwritten : (Digits.chars ds).length = most := by rw [Digits.chars, List.length_map, hlength]
  rw [takeNumber?, Digits.skipBlanks_chars hnonempty, List.take_left' hwritten, Digits.takeChars_eq]
  simp [hnonempty, hlength, List.drop_left' hwritten]

/-- A number padded to the most digits that are read. -/
theorem takeNumber?_padded {width n : ℕ} (hpositive : 0 < width) (hsmall : n < 10 ^ width) :
    takeNumber? width (Digits.padded width n ++ rest) = some (n, rest) := by
  rw [Digits.padded_eq, takeNumber?_chars (Digits.filled_ne_nil _ _)
    (Digits.length_filled hpositive hsmall), Digits.value_filled]

theorem takeNumber?_two {n : ℕ} (hsmall : n < 100) :
    takeNumber? 2 (Digits.padded 2 n ++ rest) = some (n, rest) :=
  takeNumber?_padded (by decide) hsmall

theorem takeMark?_cons {mark : Char} (hvisible : isBlankChar mark = false) :
    takeMark? mark (mark :: rest) = some rest := by
  rw [takeMark?, skipBlanks, List.dropWhile_cons_of_neg (by simp [hvisible])]
  exact if_pos rfl

/-- The digits of a year after its sign. -/
theorem takeChars_padded (width n : ℕ) (rest : List Char) :
    Digits.takeChars (Digits.padded width n ++ '-' :: rest) = (Digits.filled width n, '-' :: rest) := by
  rw [Digits.padded_eq, Digits.takeChars_chars _ rfl]

theorem toChar_ne_sign (d : Digit) : d.toChar ≠ '-' ∧ d.toChar ≠ '+' := by
  revert d
  decide

/-- A year that begins with a digit. -/
theorem takeYear?_unsigned {ds : Digits} (hlength : ds.length = 4) :
    takeYear? (Digits.chars ds ++ rest) = some ((Digits.value ds : ℤ), rest) := by
  have hnonempty : ds ≠ [] := by
    rintro rfl
    cases hlength
  have hnumber : takeNumber? 4 (Digits.chars ds ++ rest) = some (Digits.value ds, rest) :=
    takeNumber?_chars hnonempty hlength
  rw [takeYear?, Digits.skipBlanks_chars hnonempty]
  obtain ⟨d, ds, rfl⟩ := List.exists_cons_of_ne_nil hnonempty
  obtain ⟨hminus, hplus⟩ := toChar_ne_sign d
  have hfirst : Digits.chars (d :: ds) ++ rest = d.toChar :: (Digits.chars ds ++ rest) := rfl
  rw [hfirst] at hnumber ⊢
  split
  · rename_i hsame
    exact absurd (List.cons.inj hsame).1 hminus
  · rename_i hsame
    exact absurd (List.cons.inj hsame).1 hplus
  · rw [hnumber]
    rfl

/-- A year is read back. -/
theorem takeYear?_chars (year : ℤ) :
    takeYear? (yearChars year ++ '-' :: rest) = some (year, '-' :: rest) := by
  unfold yearChars
  split
  · rename_i hrange
    have hsmall : year.toNat < 10 ^ 4 := by omega
    rw [Digits.padded_eq, takeYear?_unsigned (Digits.length_filled (by decide) hsmall),
      Digits.value_filled]
    congr 2
    omega
  · have hdigits : Digits.filled 4 year.natAbs ≠ [] := Digits.filled_ne_nil _ _
    split
    · have hshown := takeChars_padded 4 year.natAbs rest
      rw [List.cons_append]
      simp only [takeYear?, skipBlanks, List.dropWhile,
        show isBlankChar '-' = false from rfl, hshown, List.isEmpty_iff, hdigits, if_false,
        Option.map_some, Digits.value_filled]
      congr 2
      omega
    · have hshown := takeChars_padded 4 year.natAbs rest
      rw [List.cons_append]
      simp only [takeYear?, skipBlanks, List.dropWhile,
        show isBlankChar '+' = false from rfl, hshown, List.isEmpty_iff, hdigits, if_false,
        Digits.value_filled]
      congr 2
      omega

/-- A fraction of up to nine digits. -/
theorem takeFraction?_padded {width n : ℕ} (hpositive : 0 < width) (hmost : width ≤ 9)
    (hsmall : n < 10 ^ width) :
    takeFraction? ('.' :: Digits.padded width n ++ ['Z']) = some (n * 10 ^ (9 - width), ['Z']) := by
  have hlength := Digits.length_filled hpositive hsmall
  have hdigits : Digits.filled width n ≠ [] := Digits.filled_ne_nil _ _
  have hshown : Digits.takeChars (Digits.padded width n ++ ['Z']) =
      (Digits.filled width n, ['Z']) := by
    rw [Digits.padded_eq, Digits.takeChars_chars _ rfl]
  have hnine : (Digits.filled width n ++ List.replicate 9 0).take 9 =
      Digits.filled width n ++ List.replicate (9 - width) 0 := by
    rw [List.take_append, hlength, List.take_of_length_le (by omega), List.take_replicate,
      Nat.min_eq_left (by omega)]
  rw [List.cons_append]
  simp only [takeFraction?, hshown, List.isEmpty_iff, hdigits, if_false, hnine,
    Digits.value_append_digits, Digits.value_filled, Digits.value_replicate_zero,
    List.length_replicate, Nat.add_zero]

/-- A fraction of a second is read back. -/
theorem takeFraction?_chars {nano : ℕ} (hsmall : nano < nanosPerSecond) :
    takeFraction? (fractionChars nano ++ ['Z']) = some (nano, ['Z']) := by
  unfold nanosPerSecond at hsmall
  unfold fractionChars
  split
  · rename_i hzero
    rw [hzero]
    rfl
  -- With milliseconds, microseconds or nanoseconds the digits are filled up to nine again.
  repeat' split
  all_goals
    rw [takeFraction?_padded (by decide) (by decide) (by omega)]
    congr 2
    omega

end Parts

/-! ## Regular timestamps -/

/-- The inside of a leap second belongs to the last second of a minute. -/
def Regular (t : Timestamp) : Prop := t.nano.val < nanosPerSecond ∨ t.second.val % 60 = 59

instance (t : Timestamp) : Decidable t.Regular := by
  unfold Regular
  infer_instance

/-- Every reading of a clock is regular. -/
theorem regular_ofEpoch (seconds nanos : ℕ) : (ofEpoch seconds nanos).Regular := by
  have hsmall : nanos % nanosPerSecond < nanosPerSecond := Nat.mod_lt _ (by decide)
  refine .inl ?_
  show nanos % nanosPerSecond % 2000000000 < nanosPerSecond
  exact (Nat.mod_le _ _).trans_lt hsmall

/-- A fraction is less than a second. -/
theorem nano_lt_of_takeFraction? {cs rest : List Char} {nano : ℕ}
    (hread : takeFraction? cs = some (nano, rest)) : nano < nanosPerSecond := by
  unfold takeFraction? at hread
  split at hread
  · rename_i after
    generalize Digits.takeChars after = taken at hread
    obtain ⟨ds, others⟩ := taken
    simp only at hread
    split at hread
    · cases hread
    · cases hread
      have hshort : ((ds ++ List.replicate 9 0).take 9).length ≤ 9 := List.length_take_le _ _
      exact (Digits.value_lt _).trans_le (Nat.pow_le_pow_right (by decide) hshort)
  · cases hread
    decide

theorem offset_of_takeOffset? {cs rest : List Char} {offset : ℕ}
    (hread : takeOffset? cs = some (offset, rest)) : offset % 60 = 0 ∧ offset < secondsPerDay := by
  simp only [takeOffset?, Option.bind_eq_bind, Option.bind_eq_some_iff, Option.some.injEq,
    Prod.mk.injEq] at hread
  obtain ⟨hours, -, minutes, -, -, -, _, hsmall, rfl, -⟩ := hread
  exact ⟨by omega, (Option.guard_eq_some' _).mp hsmall⟩

/-- Zones differ from universal time by whole minutes, and by less than a day. -/
theorem offset_of_takeZone? {cs rest : List Char} {offset : ℤ}
    (hread : takeZone? cs = some (offset, rest)) :
    offset % 60 = 0 ∧ -86400 < offset ∧ offset < 86400 := by
  have hsigned {row : List Char} {sign : ℤ → ℤ} (hside : ∀ i, sign i = i ∨ sign i = -i)
      (hshifted : (takeOffset? row).map (fun found => (sign (found.1 : ℤ), found.2)) =
        some (offset, rest)) : offset % 60 = 0 ∧ -86400 < offset ∧ offset < 86400 := by
    obtain ⟨⟨minutes, after⟩, htaken, hshown⟩ := Option.map_eq_some_iff.mp hshifted
    obtain ⟨hwhole, hsmall⟩ := offset_of_takeOffset? htaken
    cases hshown
    unfold secondsPerDay at hsmall
    simp only
    rcases hside minutes with hsame | hsame <;> omega
  unfold takeZone? at hread
  split at hread
  · cases hread
    decide
  split at hread
  · cases hread
  split at hread
  · cases hread
    decide
  split at hread
  · exact hsigned (fun i => .inl rfl) hread
  split at hread
  · exact hsigned (fun i => .inr rfl) hread
  · cases hread

/-- A shift by whole minutes keeps the second of the minute. -/
theorem Regular.shift {t shifted : Timestamp} {offset : ℤ} (hregular : t.Regular)
    (hwhole : offset % 60 = 0) (hleast : -86400 < offset) (hmost : offset < 86400)
    (hmoved : t.shift? offset = some shifted) : shifted.Regular := by
  have hsame : shifted.nano = t.nano ∧ shifted.second.val % 60 = t.second.val % 60 := by
    have hbound := t.second.isLt
    simp only [shift?] at hmoved
    split at hmoved
    · obtain ⟨date, -, rfl⟩ := Option.map_eq_some_iff.mp hmoved
      refine ⟨rfl, ?_⟩
      simp only [Fin.val_ofNat]
      omega
    · split at hmoved
      · obtain ⟨date, -, rfl⟩ := Option.map_eq_some_iff.mp hmoved
        refine ⟨rfl, ?_⟩
        simp only [Fin.val_ofNat]
        omega
      · cases hmoved
        refine ⟨rfl, ?_⟩
        simp only [Fin.val_ofNat]
        omega
  rwa [Regular, hsame.1, hsame.2]

theorem shift?_zero (t : Timestamp) : t.shift? 0 = some t := by
  have hbound := t.second.isLt
  have hlow : ¬((t.second.val : ℤ) - 0 < 0) := by omega
  have hhigh : ¬((86400 : ℤ) ≤ (t.second.val : ℤ) - 0) := by omega
  have hsame : Fin.ofNat 86400 ((t.second.val : ℤ) - 0).toNat = t.second := by
    apply Fin.ext
    simp only [Fin.val_ofNat]
    omega
  simp only [shift?, if_neg hlow, if_neg hhigh, hsame]

/-! ## The reader in parts -/

/-- Reads what stands between a date and a time. -/
def takeSeparator? : List Char → Option (List Char)
  | c :: rest => if c = 'T' ∨ c = 't' ∨ c = ' ' then some rest else none
  | [] => none

/-- The moment that a date, a time and an offset stand for. -/
def moment? (date : Date) (hour minute second nano : ℕ) (offset : ℤ) : Option Timestamp := do
  guard (hour < 24 ∧ minute < 60 ∧ second ≤ 60)
  shift? ⟨date, Fin.ofNat 86400 (hour * 3600 + minute * 60 + (if second = 60 then 59 else second)),
    Fin.ofNat 2000000000 (if second = 60 then nanosPerSecond + nano else nano)⟩ offset

/-- Reads a time and a zone on a day. -/
def takeTime? (year : ℤ) (month day : ℕ) (cs : List Char) : Option Timestamp := do
  let (hour, cs) ← takeNumber? 2 cs
  let cs ← takeMark? ':' cs
  let (minute, cs) ← takeNumber? 2 cs
  let cs ← takeMark? ':' cs
  let (second, cs) ← takeNumber? 2 cs
  let (nano, cs) ← takeFraction? cs
  let (offset, cs) ← takeZone? (skipBlanks cs)
  guard (isBlank cs)
  let date ← Date.ofCivil? year month day
  moment? date hour minute second nano offset

theorem parse?_eq (cs : List Char) : parse? cs = (do
    let (year, cs) ← takeYear? cs
    let cs ← takeMark? '-' cs
    let (month, cs) ← takeNumber? 2 cs
    let cs ← takeMark? '-' cs
    let (day, cs) ← takeNumber? 2 cs
    let cs ← takeSeparator? cs
    takeTime? year month day cs) := by
  unfold parse?
  refine Option.bind_congr fun ⟨year, cs⟩ _ => ?_
  refine Option.bind_congr fun cs _ => ?_
  refine Option.bind_congr fun ⟨month, cs⟩ _ => ?_
  refine Option.bind_congr fun cs _ => ?_
  refine Option.bind_congr fun ⟨day, cs⟩ _ => ?_
  cases cs with
  | nil => rfl
  | cons c rest =>
      by_cases hmark : c = 'T' ∨ c = 't' ∨ c = ' '
      · simp only [takeSeparator?, if_pos hmark]
        rfl
      · simp only [takeSeparator?, if_neg hmark]
        rfl

/-- What stands for a leap second is one. -/
theorem regular_of_moment? {date : Date} {hour minute second nano : ℕ} {offset : ℤ} {t : Timestamp}
    (hshort : nano < nanosPerSecond) (hwhole : offset % 60 = 0) (hleast : -86400 < offset)
    (hmost : offset < 86400) (hread : moment? date hour minute second nano offset = some t) :
    t.Regular := by
  obtain ⟨_, hrange, hmoved⟩ := Option.bind_eq_some_iff.mp hread
  obtain ⟨hhours, hminutes, -⟩ := (Option.guard_eq_some' _).mp hrange
  refine Regular.shift ?_ hwhole hleast hmost hmoved
  unfold nanosPerSecond at hshort
  simp only [Regular, nanosPerSecond, Fin.val_ofNat]
  split
  · exact .inr (by omega)
  · exact .inl (by omega)

theorem regular_of_takeTime? {year : ℤ} {month day : ℕ} {cs : List Char} {t : Timestamp}
    (hread : takeTime? year month day cs = some t) : t.Regular := by
  unfold takeTime? at hread
  simp only [Option.bind_eq_bind, Option.bind_eq_some_iff, Prod.exists] at hread
  obtain ⟨hour, _, -, _, -, minute, _, -, _, -, second, _, -, nano, _, hfraction, offset, _,
    hzone, _, -, date, -, hmoment⟩ := hread
  obtain ⟨hwhole, hleast, hmost⟩ := offset_of_takeZone? hzone
  exact regular_of_moment? (nano_lt_of_takeFraction? hfraction) hwhole hleast hmost hmoment

/-- **Everything that is read is regular.** -/
theorem regular_of_parse? {cs : List Char} {t : Timestamp} (hread : parse? cs = some t) :
    t.Regular := by
  rw [parse?_eq] at hread
  simp only [Option.bind_eq_bind, Option.bind_eq_some_iff, Prod.exists] at hread
  obtain ⟨year, _, -, _, -, month, _, -, _, -, day, _, -, _, -, htime⟩ := hread
  exact regular_of_takeTime? htime

/-! ## Reading what was written -/

theorem moment?_zero {date : Date} {hour minute second nano : ℕ}
    (hrange : hour < 24 ∧ minute < 60 ∧ second ≤ 60) : moment? date hour minute second nano 0 =
      some ⟨date, Fin.ofNat 86400 (hour * 3600 + minute * 60 + (if second = 60 then 59 else second)),
        Fin.ofNat 2000000000 (if second = 60 then nanosPerSecond + nano else nano)⟩ := by
  rw [moment?, guard, if_pos hrange]
  exact shift?_zero _

/-- The clock of a timestamp as it is written: hour, minute, second and nanoseconds. -/
theorem moment?_self {t : Timestamp} (hregular : t.Regular) :
    moment? t.date (t.second.val / 3600) (t.second.val / 60 % 60)
      (t.second.val % 60 + if nanosPerSecond ≤ t.nano.val then 1 else 0)
      (t.nano.val % nanosPerSecond) 0 = some t := by
  obtain ⟨date, second, nano⟩ := t
  have hbound := second.isLt
  have hnanos := nano.isLt
  have hunit : nanosPerSecond = 1000000000 := rfl
  dsimp only [Regular] at hregular ⊢
  -- Second 60 is written inside a leap second only, and that follows second 59.
  by_cases hleap : nanosPerSecond ≤ nano.val
  · have hlast : second.val % 60 = 59 := by omega
    rw [if_pos hleap, moment?_zero (by omega), hlast, if_pos rfl, if_pos rfl]
    congr 2
    · apply Fin.ext
      simp only [Fin.val_ofNat]
      omega
    · apply Fin.ext
      rw [Fin.val_ofNat, hunit]
      omega
  · have hplain : ¬(second.val % 60 + 0 = 60) := by omega
    rw [if_neg hleap, moment?_zero (by omega), if_neg hplain, if_neg hplain]
    congr 2
    · apply Fin.ext
      simp only [Fin.val_ofNat]
      omega
    · apply Fin.ext
      rw [Fin.val_ofNat, hunit]
      omega

/-- The time of a regular timestamp is read back on its day. -/
theorem takeTime?_chars {t : Timestamp} (hregular : t.Regular) :
    takeTime? t.date.year t.date.month t.date.day
      (Digits.padded 2 (t.second.val / 3600) ++ ':' :: (Digits.padded 2 (t.second.val / 60 % 60) ++
        ':' :: (Digits.padded 2 (t.second.val % 60 + if nanosPerSecond ≤ t.nano.val then 1 else 0) ++
          (fractionChars (t.nano.val % nanosPerSecond) ++ ['Z'])))) = some t := by
  have hbound := t.second.isLt
  have hdate : Date.ofCivil? t.date.year t.date.month t.date.day = some t.date :=
    dif_pos t.date.valid
  have hleap : (if nanosPerSecond ≤ t.nano.val then 1 else 0) ≤ 1 := by split <;> decide
  have hfraction : t.nano.val % nanosPerSecond < nanosPerSecond := Nat.mod_lt _ (by decide)
  have hzone : takeZone? (skipBlanks ['Z']) = some (0, []) := rfl
  unfold takeTime?
  simp only [Option.bind_eq_bind]
  rw [takeNumber?_two (by omega), Option.bind_some]
  simp only
  rw [takeMark?_cons rfl, Option.bind_some, takeNumber?_two (by omega), Option.bind_some]
  simp only
  rw [takeMark?_cons rfl, Option.bind_some, takeNumber?_two (by omega), Option.bind_some]
  simp only
  rw [takeFraction?_chars hfraction, Option.bind_some]
  simp only [hzone, Option.bind_some, isBlank, List.all_nil, guard, if_true, pure, hdate]
  exact moment?_self hregular

/-- **A regular timestamp is read back.** -/
theorem parse?_chars {t : Timestamp} (hregular : t.Regular) : parse? t.chars = some t := by
  obtain ⟨-, -, -, hmonths, -, hdays⟩ := t.date.valid
  have hlength := Date.monthLength_le t.date.year t.date.month
  rw [parse?_eq]
  unfold chars
  simp only [List.append_assoc, List.cons_append]
  rw [takeYear?_chars]
  simp only [Option.bind_eq_bind, Option.bind_some]
  rw [takeMark?_cons rfl, Option.bind_some, takeNumber?_two (by omega), Option.bind_some]
  simp only
  rw [takeMark?_cons rfl, Option.bind_some, takeNumber?_two (by omega), Option.bind_some]
  simp only [takeSeparator?, true_or, if_true, Option.bind_some]
  exact takeTime?_chars hregular

end RaceIngest.Calendar.Timestamp
