import Mathlib.Tactic.Ring
import RaceIngest.Decimal.Shortest
import RaceIngest.Proofs.Decimal.Shortest

/-!
# What a laid out numeral is read as

A numeral whose digits fit 64 bits is read as one integer, its significand, times a power of ten.
For a numeral that `Layout.numeral` wrote the two give the scaled number back: either they are its
parts, or, when the number is an integer written positionally, the significand is that integer with
the zero after the point.

## Main statements

* `Digits.value_append_digits`, `Digits.value_lt`: the number of a row of digits,
* `Numeral.significand_eq`: the significand of a numeral,
* `Layout.exists_regained`: a laid out numeral is read as the number it writes.
-/

namespace RaceIngest.Decimal

namespace Digits

theorem extend_eq (start : ℕ) (ds : Digits) :
    extend start ds = start * 10 ^ ds.length + value ds := by
  induction ds generalizing start with
  | nil => simp [extend, value]
  | cons d ds ih =>
      have hhead : value (d :: ds) = extend d.val ds := by simp [value, extend]
      have hnext : extend start (d :: ds) = extend (10 * start + d.val) ds := rfl
      rw [hnext, hhead, ih, ih d.val, List.length_cons, pow_succ]
      ring

theorem value_append_digits (ds es : Digits) :
    value (ds ++ es) = value ds * 10 ^ es.length + value es := by
  rw [value_append, extend_eq]

theorem value_cons (d : Digit) (ds : Digits) :
    value (d :: ds) = d.val * 10 ^ ds.length + value ds := by
  rw [← List.singleton_append, value_append_digits]
  simp [value]

theorem value_lt (ds : Digits) : value ds < 10 ^ ds.length := by
  induction ds with
  | nil => simp [value]
  | cons d ds ih =>
      have hdigit : d.val + 1 ≤ 10 := d.isLt
      rw [value_cons, List.length_cons, pow_succ]
      calc d.val * 10 ^ ds.length + value ds < d.val * 10 ^ ds.length + 10 ^ ds.length := by omega
        _ = (d.val + 1) * 10 ^ ds.length := by ring
        _ ≤ 10 * 10 ^ ds.length := Nat.mul_le_mul_right _ hdigit
        _ = 10 ^ ds.length * 10 := Nat.mul_comm _ _

@[simp] theorem value_replicate_zero (n : ℕ) : value (List.replicate n 0) = 0 := by
  induction n with
  | zero => rfl
  | succ n ih => rw [List.replicate_succ, value_cons, ih]; simp

/-- The first digit of a positive number is not zero. -/
theorem ofNat_eq_cons {n : ℕ} (hpositive : 0 < n) : ∃ d ds, ofNat n = d :: ds ∧ d ≠ 0 := by
  induction n using Nat.strongRecOn with
  | ind n ih =>
      unfold ofNat
      split
      · rename_i hsmall
        refine ⟨Fin.ofNat 10 n, [], rfl, ?_⟩
        intro hzero
        have := congrArg Fin.val hzero
        simp only [Fin.ofNat, Fin.val_zero] at this
        omega
      · rename_i hbig
        obtain ⟨d, ds, hshape, hnonzero⟩ := ih (n / 10) (by omega) (by omega)
        exact ⟨d, ds ++ [Fin.ofNat 10 n], by rw [hshape]; rfl, hnonzero⟩

/-- A number has as many digits as its size asks for. -/
theorem pow_le_of_length_ofNat {n : ℕ} (hpositive : 0 < n) : 10 ^ ((ofNat n).length - 1) ≤ n := by
  obtain ⟨d, ds, hshape, hnonzero⟩ := ofNat_eq_cons hpositive
  have hvalue := value_ofNat n
  have hfirst : 1 ≤ d.val := by
    by_contra hzero
    exact hnonzero (Fin.ext (by omega))
  rw [hshape, value_cons] at hvalue
  rw [hshape, List.length_cons, Nat.add_sub_cancel]
  calc 10 ^ ds.length = 1 * 10 ^ ds.length := (Nat.one_mul _).symm
    _ ≤ d.val * 10 ^ ds.length := Nat.mul_le_mul_right _ hfirst
    _ ≤ n := by omega

end Digits

namespace Numeral

open Digits

theorem whole_eq (ds : Digits) (v : ℕ) (k : ℤ) (hfits : extend v ds < 2 ^ 64) :
    Significand.whole ⟨v, k⟩ ds = ⟨extend v ds, k⟩ := by
  induction ds generalizing v with
  | nil => rfl
  | cons d ds ih =>
      have hnext : extend v (d :: ds) = extend (10 * v + d.val) ds := rfl
      have hadmitted : 10 * v + d.val < 2 ^ 64 := by
        rw [hnext, extend_eq] at hfits
        have : 1 ≤ 10 ^ ds.length := Nat.one_le_pow _ _ (by norm_num)
        have := Nat.mul_le_mul_left (10 * v + d.val) this
        omega
      rw [hnext] at hfits ⊢
      rw [Significand.whole, if_pos (by simpa [Significand.admits] using hadmitted), ih _ hfits]

theorem fraction_eq (ds : Digits) (v : ℕ) (k : ℤ) (hfits : extend v ds < 2 ^ 64) :
    Significand.fraction ⟨v, k⟩ ds = ⟨extend v ds, k - ds.length⟩ := by
  induction ds generalizing v k with
  | nil => simp [Significand.fraction, extend]
  | cons d ds ih =>
      have hnext : extend v (d :: ds) = extend (10 * v + d.val) ds := rfl
      have hadmitted : 10 * v + d.val < 2 ^ 64 := by
        rw [hnext, extend_eq] at hfits
        have : 1 ≤ 10 ^ ds.length := Nat.one_le_pow _ _ (by norm_num)
        have := Nat.mul_le_mul_left (10 * v + d.val) this
        omega
      rw [hnext] at hfits ⊢
      rw [Significand.fraction, if_pos (by simpa [Significand.admits] using hadmitted),
        ih _ _ hfits]
      simp only [Significand.mk.injEq, true_and, List.length_cons]
      omega

/-- Digits that fit 64 bits are all taken into the significand. -/
theorem significand_eq (n : Numeral) (hfits : value (n.whole ++ n.fraction) < 2 ^ 64) :
    n.significand = ⟨value (n.whole ++ n.fraction), -n.fraction.length⟩ := by
  have hwhole : extend 0 n.whole = value n.whole := rfl
  have hboth : extend (value n.whole) n.fraction = value (n.whole ++ n.fraction) :=
    (value_append _ _).symm
  have hprefixFits : value n.whole < 2 ^ 64 := by
    rw [value_append_digits] at hfits
    have : 1 ≤ 10 ^ n.fraction.length := Nat.one_le_pow _ _ (by norm_num)
    have := Nat.mul_le_mul_left (value n.whole) this
    omega
  rw [significand, whole_eq _ _ _ (by rwa [hwhole]), hwhole,
    fraction_eq _ _ _ (by rwa [hboth]), hboth]
  simp

/-- A numeral that is read as a significand times a power of ten, and not as an integer. -/
structure Reading (n : Numeral) (significand : ℕ) (exponent : ℤ) : Prop where
  notInteger : n.toInteger? = none
  toDouble : n.toDouble? =
    scale ((Binary.Format.double.round significand 1).getD .zero) exponent

/-- A positional numeral with a fraction is read as its digits, scaled by the number of digits after
the point. -/
theorem reading_of_plain (negative : Bool) (whole : Digits) {fraction : Digits}
    (hsome : fraction ≠ []) (hfits : value (whole ++ fraction) < 2 ^ 64) :
    Reading { negative, whole, fraction } (value (whole ++ fraction)) (-fraction.length) := by
  constructor
  · simp [toInteger?, isInteger, hsome]
  · simp only [toDouble?, significand_eq { negative, whole, fraction } hfits]

/-- A numeral in scientific notation is read as its digits, scaled by the written exponent less the
number of digits after the point. -/
theorem reading_of_scientific (negative : Bool) (whole fraction : Digits) (written : ℤ)
    (hfits : value (whole ++ fraction) < 2 ^ 64) (hbound : |written| ≤ 1000)
    (hshort : fraction.length ≤ 1000) :
    Reading { negative, whole, fraction,
              exponent := some ⟨decide (written < 0), Digits.ofNat written.natAbs⟩ }
      (value (whole ++ fraction)) (written - fraction.length) := by
  have hbounds := abs_le.mp hbound
  constructor
  · simp [toInteger?, isInteger]
  · simp only [toDouble?, significand_eq ⟨negative, whole, fraction, _⟩ hfits, value_ofNat,
      decide_eq_true_eq]
    have hlimit : ¬exponentLimit < (written.natAbs : ℤ) := by
      simp only [exponentLimit]
      omega
    rw [if_neg hlimit]
    congr 1
    simp only [exponentLimit]
    split <;> omega

end Numeral

/-! ## The layout -/

namespace Layout

open Digits Numeral

/-- What a laid out numeral is read as: a significand and an exponent that give the number back,
both small, and with an exact power of ten when the number is an integer. -/
structure Regained (n : Numeral) (x : Scaled) (significand : ℕ) (exponent : ℤ) : Prop where
  reading : Reading n significand exponent
  positive : 0 < significand
  small : significand < 2 ^ 53
  low : -53 ≤ exponent
  high : exponent ≤ 39
  value : (significand : ℚ) * 10 ^ exponent = x.toRat
  integral : 0 ≤ x.exponent → -1 ≤ exponent ∧ exponent ≤ max x.exponent (-1)

variable {x : Scaled}

/-- The digits of a significand with at most ten of them. -/
theorem row_facts (hpositive : 0 < x.significand) (hdigits : x.significand ≤ 10 ^ 9) :
    Digits.value (Digits.ofNat x.significand) = x.significand ∧
      0 < (Digits.ofNat x.significand).length ∧ (Digits.ofNat x.significand).length ≤ 10 := by
  refine ⟨value_ofNat _, List.length_pos_iff.mpr (ofNat_ne_nil _), ?_⟩
  by_contra hlong
  have hbound := pow_le_of_length_ofNat hpositive
  have : 10 ^ 10 ≤ 10 ^ ((Digits.ofNat x.significand).length - 1) :=
    Nat.pow_le_pow_right (by norm_num) (by omega)
  omega

/-- The digits themselves are the significand. -/
theorem regained_self {n : Numeral} (hpositive : 0 < x.significand)
    (hdigits : x.significand ≤ 10 ^ 9) (hlow : -53 ≤ x.exponent) (hhigh : x.exponent ≤ 39)
    (hreading : Reading n x.significand x.exponent) :
    Regained n x x.significand x.exponent :=
  ⟨hreading, hpositive, by omega, hlow, hhigh, rfl, fun _ => by omega⟩

/-- A positional numeral of an integer has a zero after the point. -/
theorem regained_integer (negative : Bool) (hpositive : 0 < x.significand)
    (hdigits : x.significand ≤ 10 ^ 9) (k : ℕ) (hexponent : x.exponent = k)
    (hplain : ((Digits.ofNat x.significand).length : ℤ) - 1 + x.exponent < 13) :
    Regained { negative, whole := Digits.ofNat x.significand ++ List.replicate k 0, fraction := [0] } x
      (x.significand * 10 ^ (k + 1)) (-1) := by
  obtain ⟨hvalue, hsome, -⟩ := row_facts hpositive hdigits
  have hrowLt := value_lt (Digits.ofNat x.significand)
  have hall : Digits.value ((Digits.ofNat x.significand ++ List.replicate k 0) ++ [0]) =
      x.significand * 10 ^ (k + 1) := by
    rw [value_concat, value_append_digits, hvalue, value_replicate_zero, List.length_replicate,
      pow_succ]
    simp only [Fin.val_zero]
    ring
  have hsmall : x.significand * 10 ^ (k + 1) < 2 ^ 53 := by
    calc x.significand * 10 ^ (k + 1)
        < 10 ^ (Digits.ofNat x.significand).length * 10 ^ (k + 1) := by
          rw [hvalue] at hrowLt
          exact Nat.mul_lt_mul_of_pos_right hrowLt (by positivity)
      _ = 10 ^ ((Digits.ofNat x.significand).length + (k + 1)) := (pow_add _ _ _).symm
      _ ≤ 10 ^ 14 := Nat.pow_le_pow_right (by norm_num) (by omega)
      _ < 2 ^ 53 := by norm_num
  have hread := reading_of_plain negative (Digits.ofNat x.significand ++ List.replicate k 0)
    (List.cons_ne_nil 0 []) (by rw [hall]; omega)
  rw [hall] at hread
  refine ⟨hread, by positivity, hsmall, by norm_num, by norm_num, ?_, fun _ => by omega⟩
  rw [Scaled.toRat, hexponent, zpow_natCast, zpow_neg_one]
  push_cast
  rw [pow_succ]
  field_simp

/-- In a positional numeral the point can stand between two of the digits. -/
theorem regained_between (negative : Bool) (hpositive : 0 < x.significand)
    (hdigits : x.significand ≤ 10 ^ 9) (hlow : -53 ≤ x.exponent) (before : ℕ)
    (hinside : before < (Digits.ofNat x.significand).length)
    (hexponent : x.exponent = before - (Digits.ofNat x.significand).length) :
    Regained
      { negative
        whole := (Digits.ofNat x.significand).take before
        fraction := (Digits.ofNat x.significand).drop before } x x.significand x.exponent := by
  obtain ⟨hvalue, -, -⟩ := row_facts hpositive hdigits
  have hself := fun n => regained_self (n := n) hpositive hdigits hlow (by omega)
  generalize Digits.ofNat x.significand = row at *
  have hfraction : row.drop before ≠ [] := by
    rw [← List.length_pos_iff, List.length_drop]
    omega
  have hread := reading_of_plain negative (row.take before) hfraction
    (by rw [List.take_append_drop, hvalue]; omega)
  rw [List.take_append_drop, hvalue, List.length_drop,
    show -((row.length - before : ℕ) : ℤ) = x.exponent by omega] at hread
  exact hself _ hread

/-- In a positional numeral zeros can stand between the point and the digits. -/
theorem regained_after (negative : Bool) (hpositive : 0 < x.significand)
    (hdigits : x.significand ≤ 10 ^ 9) (hlow : -53 ≤ x.exponent) (zeros : ℕ)
    (hexponent : x.exponent = -(zeros + (Digits.ofNat x.significand).length : ℕ)) :
    Regained
      { negative, whole := [0], fraction := List.replicate zeros 0 ++ Digits.ofNat x.significand }
      x x.significand x.exponent := by
  obtain ⟨hvalue, hsome, -⟩ := row_facts hpositive hdigits
  have hself := fun n => regained_self (n := n) hpositive hdigits hlow (by omega)
  generalize Digits.ofNat x.significand = row at *
  have htotal : Digits.value ([0] ++ (List.replicate zeros 0 ++ row)) = x.significand := by
    rw [value_append_digits, value_append_digits, value_replicate_zero, hvalue]
    simp [Digits.value]
  have hnonempty : List.replicate zeros 0 ++ row ≠ [] :=
    List.append_ne_nil_of_right_ne_nil _ (List.length_pos_iff.mp hsome)
  have hread := reading_of_plain negative [0] hnonempty (by rw [htotal]; omega)
  rw [htotal, List.length_append, List.length_replicate, ← hexponent] at hread
  exact hself _ hread

/-- In scientific notation the point stands after the first digit. -/
theorem regained_scientific (negative : Bool) (hpositive : 0 < x.significand)
    (hdigits : x.significand ≤ 10 ^ 9) (hlow : -53 ≤ x.exponent) (hhigh : x.exponent ≤ 39)
    (leading : ℤ) (hfirst : ((Digits.ofNat x.significand).length : ℤ) - 1 + x.exponent = leading) :
    Regained
      { negative
        whole := (Digits.ofNat x.significand).take 1
        fraction := (Digits.ofNat x.significand).drop 1
        exponent := some ⟨decide (leading < 0), Digits.ofNat leading.natAbs⟩ }
      x x.significand x.exponent := by
  obtain ⟨hvalue, hsome, hfew⟩ := row_facts hpositive hdigits
  have hself := fun n => regained_self (n := n) hpositive hdigits hlow hhigh
  generalize Digits.ofNat x.significand = row at *
  have hread := reading_of_scientific negative (row.take 1) (row.drop 1) leading
    (by rw [List.take_append_drop, hvalue]; omega) (by rw [abs_le]; omega)
    (by rw [List.length_drop]; omega)
  rw [List.take_append_drop, hvalue, List.length_drop,
    show leading - ((row.length - 1 : ℕ) : ℤ) = x.exponent by omega] at hread
  exact hself _ hread

/-- A laid out numeral is read as the scaled number it writes. -/
theorem exists_regained (negative : Bool) (hpositive : 0 < x.significand)
    (hdigits : x.significand ≤ 10 ^ 9) (hlow : -53 ≤ x.exponent) (hhigh : x.exponent ≤ 39) :
    ∃ significand exponent,
      Regained (Layout.document.numeral negative x) x significand exponent := by
  obtain ⟨-, hsome, hfew⟩ := row_facts hpositive hdigits
  have hinteger := regained_integer negative hpositive hdigits
  have hbetween := regained_between negative hpositive hdigits hlow
  have hafter := regained_after negative hpositive hdigits hlow
  have hscientific := regained_scientific negative hpositive hdigits hlow hhigh
  unfold numeral
  generalize Digits.ofNat x.significand = row at *
  simp only [Layout.document]
  obtain ⟨leading, hfirst⟩ : ∃ leading, (row.length : ℤ) - 1 + x.exponent = leading := ⟨_, rfl⟩
  rw [hfirst]
  by_cases hplain : -6 ≤ leading ∧ leading < 13
  · rw [if_pos hplain]
    by_cases hnatural : 0 ≤ leading
    · rw [if_pos hnatural]
      by_cases hintegral : 0 ≤ x.exponent
      · obtain ⟨k, hexponent⟩ := Int.eq_ofNat_of_zero_le hintegral
        have hlength : leading.toNat + 1 = row.length + k := by omega
        rw [hlength, Nat.add_sub_cancel_left, List.take_of_length_le (by simp),
          List.drop_of_length_le (by omega)]
        exact ⟨_, _, hinteger k hexponent (by omega)⟩
      · have hinside : leading.toNat + 1 < row.length := by omega
        have hfraction : row.drop (leading.toNat + 1) ≠ [] := by
          rw [← List.length_pos_iff, List.length_drop]
          omega
        rw [List.take_append_of_le_length hinside.le, if_neg (by simpa using hfraction)]
        exact ⟨_, _, hbetween _ hinside (by push_cast; omega)⟩
    · rw [if_neg hnatural]
      exact ⟨_, _, hafter _ (by omega)⟩
  · rw [if_neg hplain]
    exact ⟨_, _, hscientific _ hfirst⟩

/-- A laid out numeral has the sign it was given. -/
theorem negative_numeral (layout : Layout) (negative : Bool) (x : Scaled) :
    (layout.numeral negative x).negative = negative := by
  unfold numeral
  simp only
  split
  · split <;> rfl
  · rfl

end Layout

end RaceIngest.Decimal
