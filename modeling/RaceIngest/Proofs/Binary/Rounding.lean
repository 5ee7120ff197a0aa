import Mathlib.Algebra.Order.Field.Power
import Mathlib.Data.Rat.Cast.Order
import Mathlib.Tactic.FieldSimp
import Mathlib.Tactic.Linarith
import Mathlib.Tactic.Positivity
import Mathlib.Tactic.Ring
import RaceIngest.Binary.Rounding

/-!
# What rounding a ratio means

The rounding of `Binary/Rounding` works on numerators and denominators. Here its steps are read as
statements about rational numbers: the estimate of the binary logarithm brackets the ratio between
two powers of two, the quotient rounded to nearest is at most one half away and exact on integers,
and rounding to a format is rounding to nearest in steps of `Format.step`, the distance of
neighbouring numbers of the format around the ratio.

## Main statements

* `floorLog2_le`, `lt_floorLog2`: the bracket of a ratio,
* `abs_divHalfEven_sub_le`, `divHalfEven_eq`: the quotient rounded to nearest,
* `Format.toRat_rounded`: a rounded value is a whole number of steps,
* `Format.abs_sub_le_of_round`, `Format.abs_sub_le_mul_of_round`: the error of rounding, in steps and
  relative to the ratio; `Format.toRat_of_round_exact`: there is none for numbers of the format,
* `Format.exists_round`: below the greatest power of two of a format nothing overflows,
* `Format.round_of_between`, `Format.between_of_round`: the ratios that are rounded to a number of
  the format lie between its halfway points, and all strictly between are.
-/

namespace RaceIngest.Binary

/-- A power with an integer exponent is a ratio of two powers, one of which is one. -/
theorem zpow_eq_div (base : ℚ) (z : ℤ) : base ^ z = base ^ z.toNat / base ^ (-z).toNat := by
  rcases Int.le_total 0 z with hnonneg | hnonpos
  · obtain ⟨n, rfl⟩ := Int.eq_ofNat_of_zero_le hnonneg
    simp
  · obtain ⟨n, rfl⟩ := Int.exists_eq_neg_ofNat hnonpos
    simp

/-- Comparing cross products compares a power with a ratio. -/
theorem pow_mul_le_iff (base : ℕ) (hpositive : 0 < base) (z : ℤ) (num : ℕ) {den : ℕ}
    (hbelow : 0 < den) :
    den * base ^ z.toNat ≤ num * base ^ (-z).toNat ↔ (base : ℚ) ^ z ≤ (num : ℚ) / den := by
  have hbottom : (0 : ℚ) < (base : ℚ) ^ (-z).toNat := by positivity
  have hdenominator : (0 : ℚ) < den := by exact_mod_cast hbelow
  rw [zpow_eq_div, div_le_div_iff₀ hbottom hdenominator, ← Nat.cast_le (α := ℚ)]
  push_cast
  rw [mul_comm (den : ℚ)]

/-! ## The binary logarithm -/

/-- A ratio lies between the powers of two around the difference of two logarithms. -/
private theorem log2_bracket {num den : ℕ} (htop : 0 < num) (hbelow : 0 < den) :
    (2 : ℚ) ^ ((num.log2 : ℤ) - den.log2 - 1) ≤ (num : ℚ) / den ∧
      (num : ℚ) / den < 2 ^ ((num.log2 : ℤ) - den.log2 + 1) := by
  have hnumLower : (2 : ℚ) ^ num.log2 ≤ num := by exact_mod_cast Nat.log2_self_le htop.ne'
  have hnumUpper : (num : ℚ) < 2 ^ (num.log2 + 1) := by exact_mod_cast Nat.lt_log2_self
  have hdenLower : (2 : ℚ) ^ den.log2 ≤ den := by exact_mod_cast Nat.log2_self_le hbelow.ne'
  have hdenUpper : (den : ℚ) < 2 ^ (den.log2 + 1) := by exact_mod_cast Nat.lt_log2_self
  have hdenPositive : (0 : ℚ) < den := by exact_mod_cast hbelow
  constructor
  · have split : (2 : ℚ) ^ ((num.log2 : ℤ) - den.log2 - 1) = 2 ^ num.log2 / 2 ^ (den.log2 + 1) := by
      rw [sub_sub, zpow_sub₀ (by norm_num)]
      norm_cast
    rw [split]
    gcongr
  · have split : (2 : ℚ) ^ ((num.log2 : ℤ) - den.log2 + 1) = 2 ^ (num.log2 + 1) / 2 ^ den.log2 := by
      rw [sub_add_eq_add_sub, zpow_sub₀ (by norm_num)]
      norm_cast
    rw [split]
    gcongr

theorem floorLog2_le {num den : ℕ} (htop : 0 < num) (hbelow : 0 < den) :
    (2 : ℚ) ^ floorLog2 num den ≤ (num : ℚ) / den := by
  simp only [floorLog2]
  split
  · rename_i hfits
    exact (pow_mul_le_iff 2 (by norm_num) _ num hbelow).mp hfits
  · exact (log2_bracket htop hbelow).1

theorem lt_floorLog2 {num den : ℕ} (htop : 0 < num) (hbelow : 0 < den) :
    (num : ℚ) / den < 2 ^ (floorLog2 num den + 1) := by
  simp only [floorLog2]
  split
  · exact (log2_bracket htop hbelow).2
  · rename_i hgreater
    rw [pow_mul_le_iff 2 (by norm_num) _ num hbelow, not_le] at hgreater
    simpa using hgreater

/-- The logarithm is the only exponent that brackets the ratio. -/
theorem floorLog2_lt_of_lt {num den : ℕ} (htop : 0 < num) (hbelow : 0 < den) {z : ℤ}
    (hbound : (num : ℚ) / den < 2 ^ z) : floorLog2 num den < z := by
  have hlower := (floorLog2_le htop hbelow).trans_lt hbound
  exact (zpow_lt_zpow_iff_right₀ (by norm_num)).mp hlower

theorem le_floorLog2_of_le {num den : ℕ} (htop : 0 < num) (hbelow : 0 < den) {z : ℤ}
    (hbound : (2 : ℚ) ^ z ≤ (num : ℚ) / den) : z ≤ floorLog2 num den := by
  have hupper := hbound.trans_lt (lt_floorLog2 htop hbelow)
  have := (zpow_lt_zpow_iff_right₀ (by norm_num)).mp hupper
  omega

/-! ## The quotient rounded to nearest -/

/-- The quotient rounded to nearest is at most one half away from the ratio. -/
theorem abs_divHalfEven_sub_le (num : ℕ) {den : ℕ} (hbelow : 0 < den) :
    |(divHalfEven num den : ℚ) - num / den| ≤ 1 / 2 := by
  have hdenominator : (0 : ℚ) < den := by exact_mod_cast hbelow
  have hclose : 2 * num ≤ (2 * divHalfEven num den + 1) * den ∧
      2 * divHalfEven num den * den ≤ 2 * num + den := by
    have hparts := Nat.div_add_mod num den
    have hsmall := Nat.mod_lt num hbelow
    have hparity := Nat.mod_two_eq_zero_or_one (num / den)
    unfold divHalfEven
    generalize num / den = quotient at hparts hparity ⊢
    generalize num % den = remainder at hparts hsmall ⊢
    simp only
    split
    · constructor <;> nlinarith
    · split
      · constructor <;> nlinarith
      · rcases hparity with heven | hodd
        · rw [heven]; constructor <;> nlinarith
        · rw [hodd]; constructor <;> nlinarith
  have hupper : (2 : ℚ) * num ≤ (2 * divHalfEven num den + 1) * den := by exact_mod_cast hclose.1
  have hlower : (2 : ℚ) * divHalfEven num den * den ≤ 2 * num + den := by exact_mod_cast hclose.2
  rw [abs_le]
  constructor
  · rw [neg_le_sub_iff_le_add, div_le_iff₀ hdenominator]
    linarith
  · rw [sub_le_iff_le_add, ← sub_le_iff_le_add', le_div_iff₀ hdenominator]
    linarith

/-- An integer less than one half away from the ratio is the quotient rounded to nearest. -/
theorem divHalfEven_eq {num den : ℕ} (hbelow : 0 < den) {m : ℕ}
    (hnear : |(m : ℚ) - num / den| < 1 / 2) : divHalfEven num den = m := by
  have hrounded := abs_divHalfEven_sub_le num hbelow
  have hapart : |(divHalfEven num den : ℚ) - m| < 1 := by
    calc |(divHalfEven num den : ℚ) - m|
        = |((divHalfEven num den : ℚ) - num / den) - (m - num / den)| := by ring_nf
      _ ≤ |(divHalfEven num den : ℚ) - num / den| + |(m : ℚ) - num / den| := abs_sub _ _
      _ < 1 := by linarith
  have hwhole : |(divHalfEven num den : ℤ) - m| < 1 := by exact_mod_cast hapart
  have := Int.abs_lt_one_iff.mp hwhole
  omega

/-- The quotient rounded to nearest depends on the ratio only. -/
theorem divHalfEven_mul (num : ℕ) {den factor : ℕ} (hpositive : 0 < factor) :
    divHalfEven (num * factor) (den * factor) = divHalfEven num den := by
  simp only [divHalfEven, Nat.mul_div_mul_right _ _ hpositive, Nat.mul_mod_mul_right]
  have hsmall : 2 * (num % den * factor) < den * factor ↔ 2 * (num % den) < den := by
    rw [← Nat.mul_assoc, Nat.mul_lt_mul_right hpositive]
  have hlarge : den * factor < 2 * (num % den * factor) ↔ den < 2 * (num % den) := by
    rw [← Nat.mul_assoc, Nat.mul_lt_mul_right hpositive]
  simp only [hsmall, hlarge]

theorem divHalfEven_congr {num den num' den' : ℕ} (hbelow : 0 < den) (hbelow' : 0 < den')
    (hsame : num * den' = num' * den) : divHalfEven num den = divHalfEven num' den' := by
  rw [← divHalfEven_mul num hbelow', ← divHalfEven_mul num' hbelow, hsame, Nat.mul_comm den]

/-! ## Magnitudes -/

namespace Magnitude

/-- The number that a magnitude stands for. -/
def toRat (x : Magnitude) : ℚ := x.mantissa * 2 ^ x.exponent

theorem ratio_pos (x : Magnitude) : 0 < x.ratio.2 := by
  simp [ratio]

theorem ratio_eq (x : Magnitude) : (x.ratio.1 : ℚ) / x.ratio.2 = x.toRat := by
  simp only [ratio, toRat]
  push_cast
  rw [zpow_eq_div, mul_div_assoc]

theorem numerator_pos {x : Magnitude} (hpositive : 0 < x.toRat) : 0 < x.ratio.1 := by
  rw [← ratio_eq] at hpositive
  by_contra hzero
  rw [show x.ratio.1 = 0 by omega, Nat.cast_zero, zero_div] at hpositive
  exact lt_irrefl _ hpositive

end Magnitude

/-! ## Formats -/

namespace Format

variable (format : Format) {num den : ℕ}

theorem pow_precision (hwide : 0 < format.precision) :
    (2 : ℚ) ^ format.precision = 2 * 2 ^ (format.precision - 1) := by
  rw [← pow_succ']
  congr 1
  omega

/-- The exponent of the last mantissa bit around a ratio. -/
def lastBit (num den : ℕ) : ℤ :=
  max format.minExponent (floorLog2 num den - (format.precision - 1 : ℕ))

/-- The distance of neighbouring numbers of the format around a ratio. -/
def step (num den : ℕ) : ℚ := 2 ^ format.lastBit num den

theorem step_pos (num den : ℕ) : 0 < format.step num den := by
  unfold step
  positivity

/-- The mantissa of a rounded ratio, before a carry into the next power of two. -/
def steps (num den : ℕ) : ℕ :=
  divHalfEven (num * 2 ^ (-format.lastBit num den).toNat) (den * 2 ^ (format.lastBit num den).toNat)

/-- The mantissa is the ratio in steps, rounded to nearest. -/
theorem scaled_ratio (num den : ℕ) :
    ((num * 2 ^ (-format.lastBit num den).toNat : ℕ) : ℚ) /
      (den * 2 ^ (format.lastBit num den).toNat : ℕ) = num / den / format.step num den := by
  unfold step
  rw [zpow_eq_div 2 (format.lastBit num den)]
  push_cast
  field_simp

theorem abs_steps_sub_le (num : ℕ) (hbelow : 0 < den) :
    |(format.steps num den : ℚ) - num / den / format.step num den| ≤ 1 / 2 := by
  rw [← scaled_ratio]
  exact abs_divHalfEven_sub_le _ (by positivity)

/-- The ratio is at most half a step away from its mantissa. -/
theorem steps_sub_half_le (num : ℕ) (hbelow : 0 < den) :
    ((format.steps num den : ℚ) - 1 / 2) * format.step num den ≤ num / den := by
  have hclose := (abs_le.mp (format.abs_steps_sub_le num hbelow)).2
  rw [← le_div_iff₀ (format.step_pos num den)]
  linarith

theorem le_steps_add_half (num : ℕ) (hbelow : 0 < den) :
    (num : ℚ) / den ≤ (format.steps num den + 1 / 2) * format.step num den := by
  have hclose := (abs_le.mp (format.abs_steps_sub_le num hbelow)).1
  rw [← div_le_iff₀ (format.step_pos num den)]
  linarith

/-- The ratio is below the power of two that a carry leads to. -/
theorem ratio_lt (hwide : 0 < format.precision) (htop : 0 < num) (hbelow : 0 < den) :
    (num : ℚ) / den < 2 ^ format.precision * format.step num den := by
  have hexponent : floorLog2 num den + 1 ≤ format.precision + format.lastBit num den := by
    unfold lastBit
    omega
  calc (num : ℚ) / den < 2 ^ (floorLog2 num den + 1) := lt_floorLog2 htop hbelow
    _ ≤ 2 ^ ((format.precision : ℤ) + format.lastBit num den) :=
        zpow_le_zpow_right₀ (by norm_num) hexponent
    _ = 2 ^ format.precision * format.step num den := by
        rw [zpow_add₀ (by norm_num), zpow_natCast, step]

/-- Above the least exponent of the format the ratio fills all bits of the mantissa. -/
theorem le_ratio (htop : 0 < num) (hbelow : 0 < den)
    (habove : format.minExponent < format.lastBit num den) :
    (2 : ℚ) ^ (format.precision - 1) * format.step num den ≤ num / den := by
  have hbracket := floorLog2_le htop hbelow
  have hbit : floorLog2 num den = (format.precision - 1 : ℕ) + format.lastBit num den := by
    unfold lastBit at habove ⊢
    omega
  rw [hbit, zpow_add₀ (by norm_num), zpow_natCast] at hbracket
  exact hbracket

theorem steps_le (hwide : 0 < format.precision) (htop : 0 < num) (hbelow : 0 < den) :
    format.steps num den ≤ 2 ^ format.precision := by
  have hless : ((format.steps num den : ℚ) - 1 / 2) * format.step num den <
      2 ^ format.precision * format.step num den :=
    (format.steps_sub_half_le num hbelow).trans_lt (format.ratio_lt hwide htop hbelow)
  have hfew := lt_of_mul_lt_mul_right hless (format.step_pos num den).le
  have hwhole : (format.steps num den : ℚ) < 2 ^ format.precision + 1 := by linarith
  have : format.steps num den < 2 ^ format.precision + 1 := by exact_mod_cast hwhole
  omega

theorem le_steps (htop : 0 < num) (hbelow : 0 < den)
    (habove : format.minExponent < format.lastBit num den) :
    2 ^ (format.precision - 1) ≤ format.steps num den := by
  have hless : (2 : ℚ) ^ (format.precision - 1) * format.step num den ≤
      (format.steps num den + 1 / 2) * format.step num den :=
    (format.le_ratio htop hbelow habove).trans (format.le_steps_add_half num hbelow)
  have hmany := le_of_mul_le_mul_right hless (format.step_pos num den)
  have hwhole : (2 : ℚ) ^ (format.precision - 1) < format.steps num den + 1 := by linarith
  have : 2 ^ (format.precision - 1) < format.steps num den + 1 := by exact_mod_cast hwhole
  omega

theorem steps_eq (hbelow : 0 < den) {m : ℕ}
    (hnear : |(m : ℚ) - num / den / format.step num den| < 1 / 2) : format.steps num den = m := by
  rw [← scaled_ratio] at hnear
  exact divHalfEven_eq (by positivity) hnear

/-- The rounded ratio, where a carry moves on to the next power of two. -/
def rounded (num den : ℕ) : Magnitude :=
  if format.steps num den = 2 ^ format.precision then
    ⟨2 ^ (format.precision - 1), format.lastBit num den + 1⟩
  else ⟨format.steps num den, format.lastBit num den⟩

/-- Rounding, with its parts named. -/
theorem round_eq (htop : 0 < num) :
    format.round num den =
      if (format.rounded num den).exponent ≤ format.maxExponent then some (format.rounded num den)
      else none := by
  simp only [round, htop.ne', if_false]
  rfl

theorem eq_rounded_of_round (htop : 0 < num) {x : Magnitude}
    (hresult : format.round num den = some x) :
    x = format.rounded num den ∧ x.exponent ≤ format.maxExponent := by
  rw [round_eq format htop] at hresult
  split at hresult
  · rename_i hfits
    cases hresult
    exact ⟨rfl, hfits⟩
  · cases hresult

theorem toRat_rounded (hwide : 0 < format.precision) (num den : ℕ) :
    (format.rounded num den).toRat = format.steps num den * format.step num den := by
  unfold rounded step
  split
  · rename_i hcarry
    rw [hcarry, Magnitude.toRat]
    have hone : format.precision = (format.precision - 1) + 1 := by omega
    rw [zpow_add₀ (by norm_num)]
    conv_rhs => rw [hone]
    push_cast
    ring
  · rfl

/-- Rounding depends on the ratio only. -/
theorem round_congr {num' den' : ℕ} (htop : 0 < num) (hbelow : 0 < den) (htop' : 0 < num')
    (hbelow' : 0 < den') (hsame : (num : ℚ) / den = num' / den') :
    format.round num den = format.round num' den' := by
  have hlogarithm : floorLog2 num den = floorLog2 num' den' := by
    apply le_antisymm
    · exact le_floorLog2_of_le htop' hbelow' (hsame ▸ floorLog2_le htop hbelow)
    · exact le_floorLog2_of_le htop hbelow (hsame ▸ floorLog2_le htop' hbelow')
  have hbit : format.lastBit num den = format.lastBit num' den' := by
    rw [lastBit, lastBit, hlogarithm]
  have hcross : num * den' = num' * den := by
    rw [div_eq_div_iff (by positivity) (by positivity)] at hsame
    exact_mod_cast hsame
  have hsteps : format.steps num den = format.steps num' den' := by
    rw [steps, steps, hbit]
    apply divHalfEven_congr (by positivity) (by positivity)
    calc num * 2 ^ (-format.lastBit num' den').toNat * (den' * 2 ^ (format.lastBit num' den').toNat)
        = num * den' * 2 ^ (-format.lastBit num' den').toNat *
            2 ^ (format.lastBit num' den').toNat := by ring
      _ = num' * 2 ^ (-format.lastBit num' den').toNat *
            (den * 2 ^ (format.lastBit num' den').toNat) := by
          rw [hcross]
          ring
  rw [round_eq format htop, round_eq format htop', rounded, rounded, hbit, hsteps]

/-! ### Errors -/

/-- A rounded value is at most half a step away. -/
theorem abs_sub_le_of_round (hwide : 0 < format.precision) (htop : 0 < num) (hbelow : 0 < den)
    {x : Magnitude} (hresult : format.round num den = some x) :
    |x.toRat - num / den| ≤ format.step num den / 2 := by
  have hpositive := format.step_pos num den
  have hclose := format.abs_steps_sub_le num hbelow
  obtain ⟨rfl, -⟩ := format.eq_rounded_of_round htop hresult
  rw [toRat_rounded format hwide]
  have hscaled : format.steps num den * format.step num den - (num : ℚ) / den =
      (format.steps num den - num / den / format.step num den) * format.step num den := by
    field_simp
  rw [hscaled, abs_mul, abs_of_pos hpositive]
  calc |(format.steps num den : ℚ) - num / den / format.step num den| * format.step num den
      ≤ 1 / 2 * format.step num den := by gcongr
    _ = format.step num den / 2 := by ring

/-- Away from the least numbers of the format the error of rounding is relative. -/
theorem abs_sub_le_mul_of_round (hwide : 0 < format.precision) (htop : 0 < num) (hbelow : 0 < den)
    (hnormal : (2 : ℚ) ^ (format.minExponent + (format.precision - 1 : ℕ)) ≤ (num : ℚ) / den)
    {x : Magnitude} (hresult : format.round num den = some x) :
    |x.toRat - num / den| ≤ num / den / 2 ^ format.precision := by
  have herror := format.abs_sub_le_of_round hwide htop hbelow hresult
  have hlowest := le_floorLog2_of_le htop hbelow hnormal
  have hbit : format.lastBit num den = floorLog2 num den - (format.precision - 1 : ℕ) := by
    unfold lastBit
    omega
  have hbracket := floorLog2_le htop hbelow
  have split : format.step num den * 2 ^ (format.precision - 1) = 2 ^ floorLog2 num den := by
    rw [step, hbit, zpow_sub₀ (by norm_num), zpow_natCast]
    field_simp
  rw [format.pow_precision hwide]
  calc |x.toRat - num / den| ≤ format.step num den / 2 := herror
    _ = 2 ^ floorLog2 num den / (2 * 2 ^ (format.precision - 1)) := by
        rw [← split]
        field_simp
    _ ≤ num / den / (2 * 2 ^ (format.precision - 1)) := by gcongr

/-- A number of the format is rounded to itself. -/
theorem toRat_of_round_exact (hwide : 0 < format.precision) (htop : 0 < num) (hbelow : 0 < den)
    {m : ℕ} {z : ℤ} (hsmall : m < 2 ^ format.precision) (hcoarse : format.minExponent ≤ z)
    (hexact : (num : ℚ) / den = m * 2 ^ z) {x : Magnitude}
    (hresult : format.round num den = some x) : x.toRat = num / den := by
  have hbound : (num : ℚ) / den < 2 ^ ((format.precision : ℤ) + z) := by
    rw [hexact, zpow_add₀ (by norm_num), zpow_natCast]
    have : (m : ℚ) < 2 ^ format.precision := by exact_mod_cast hsmall
    gcongr
  have hfine : format.lastBit num den ≤ z := by
    have := floorLog2_lt_of_lt htop hbelow hbound
    unfold lastBit
    omega
  obtain ⟨k, rfl⟩ : ∃ k : ℕ, z = format.lastBit num den + k :=
    ⟨(z - format.lastBit num den).toNat, by omega⟩
  have hwhole : (num : ℚ) / den / format.step num den = (m * 2 ^ k : ℕ) := by
    rw [hexact, step, zpow_add₀ (by norm_num), zpow_natCast]
    push_cast
    field_simp
  have hsteps : format.steps num den = m * 2 ^ k := by
    apply format.steps_eq hbelow
    rw [hwhole, sub_self, abs_zero]
    norm_num
  obtain ⟨rfl, -⟩ := format.eq_rounded_of_round htop hresult
  rw [toRat_rounded format hwide, hsteps, ← hwhole]
  have hpositive := format.step_pos num den
  field_simp

/-- Below the greatest power of two of the format nothing overflows. -/
theorem exists_round (htop : 0 < num) (hbelow : 0 < den)
    (hbound : (num : ℚ) / den < 2 ^ (format.maxExponent + (format.precision - 1 : ℕ)))
    (hrange : format.minExponent < format.maxExponent) :
    ∃ x, format.round num den = some x := by
  have hlogarithm := floorLog2_lt_of_lt htop hbelow hbound
  have hbit : format.lastBit num den < format.maxExponent := by
    unfold lastBit
    omega
  have hfits : (format.rounded num den).exponent ≤ format.maxExponent := by
    unfold rounded
    split
    · show format.lastBit num den + 1 ≤ format.maxExponent
      omega
    · exact hbit.le
  exact ⟨format.rounded num den, by rw [round_eq format htop, if_pos hfits]⟩

/-! ### The numbers that round to a magnitude -/

/-- Whether a magnitude is written with all bits of the format, or with its least exponent. -/
structure Normal (x : Magnitude) : Prop where
  mantissa_lt : x.mantissa < 2 ^ format.precision
  minExponent_le : format.minExponent ≤ x.exponent
  le_maxExponent : x.exponent ≤ format.maxExponent
  full : 2 ^ (format.precision - 1) ≤ x.mantissa ∨ x.exponent = format.minExponent

/-- Halfway from a magnitude to the next number of the format. -/
def halfwayAbove (x : Magnitude) : Magnitude := ⟨2 * x.mantissa + 1, x.exponent - 1⟩

/-- Halfway from a magnitude to the number of the format before it, which is closer below a power
of two. -/
def halfwayBelow (x : Magnitude) : Magnitude :=
  if x.mantissa = 2 ^ (format.precision - 1) ∧ format.minExponent < x.exponent then
    ⟨4 * x.mantissa - 1, x.exponent - 2⟩
  else ⟨2 * x.mantissa - 1, x.exponent - 1⟩

theorem toRat_halfwayAbove (x : Magnitude) :
    (halfwayAbove x).toRat = (x.mantissa + 1 / 2) * 2 ^ x.exponent := by
  rw [halfwayAbove, Magnitude.toRat, zpow_sub_one₀ (by norm_num)]
  push_cast
  ring

theorem toRat_halfwayBelow {x : Magnitude} (hpositive : 0 < x.mantissa) :
    (format.halfwayBelow x).toRat =
      (if x.mantissa = 2 ^ (format.precision - 1) ∧ format.minExponent < x.exponent then
        (x.mantissa : ℚ) - 1 / 4 else (x.mantissa : ℚ) - 1 / 2) * 2 ^ x.exponent := by
  unfold halfwayBelow
  split
  · rw [Magnitude.toRat, zpow_sub₀ (by norm_num), Nat.cast_sub (by omega)]
    push_cast
    ring
  · rw [Magnitude.toRat, zpow_sub_one₀ (by norm_num), Nat.cast_sub (by omega)]
    push_cast
    ring

/-- The bit of a ratio is the exponent of a magnitude when it lies between two powers of two. -/
private theorem lastBit_eq (hwide : 0 < format.precision) (htop : 0 < num) (hbelow : 0 < den)
    {z : ℤ} (hleast : format.minExponent ≤ z)
    (hlower : z = format.minExponent ∨ (2 : ℚ) ^ (format.precision - 1) * 2 ^ z ≤ (num : ℚ) / den)
    (hupper : (num : ℚ) / den < 2 ^ format.precision * 2 ^ z) : format.lastBit num den = z := by
  rw [← zpow_natCast, ← zpow_add₀ (by norm_num)] at hupper
  have hhigh := floorLog2_lt_of_lt htop hbelow hupper
  rcases hlower with hbottom | hlower
  · unfold lastBit
    omega
  · rw [← zpow_natCast, ← zpow_add₀ (by norm_num)] at hlower
    have hlow := le_floorLog2_of_le htop hbelow hlower
    unfold lastBit
    omega

section Between

variable {x : Magnitude}

/-- A ratio with the exponent of a magnitude, less than half a step away, is rounded to it. -/
private theorem round_of_near (htop : 0 < num) (hbelow : 0 < den) (hnormal : format.Normal x)
    (hbit : format.lastBit num den = x.exponent)
    (hlower : ((x.mantissa : ℚ) - 1 / 2) * 2 ^ x.exponent < num / den)
    (hupper : (num : ℚ) / den < (x.mantissa + 1 / 2) * 2 ^ x.exponent) :
    format.round num den = some x := by
  have hunit : (0 : ℚ) < 2 ^ x.exponent := by positivity
  have hsteps : format.steps num den = x.mantissa := by
    apply format.steps_eq hbelow
    rw [step, hbit, abs_lt, lt_sub_comm, sub_lt_comm]
    constructor
    · rw [sub_neg_eq_add, div_lt_iff₀ hunit]
      exact hupper
    · rw [lt_div_iff₀ hunit]
      exact hlower
  rw [round_eq format htop, rounded, hsteps, hbit, if_neg hnormal.mantissa_lt.ne]
  simp [hnormal.le_maxExponent]

/-- Below a power of two the numbers of the format are twice as dense. A ratio less than half of
their distance away is rounded up to the power, and the carry gives its magnitude. -/
private theorem round_of_carry (hwide : 0 < format.precision) (htop : 0 < num) (hbelow : 0 < den)
    (hfull : x.mantissa = 2 ^ (format.precision - 1)) (habove : format.minExponent < x.exponent)
    (hhighest : x.exponent ≤ format.maxExponent)
    (hlower : ((2 : ℚ) ^ (format.precision - 1) - 1 / 4) * 2 ^ x.exponent < num / den)
    (hless : (num : ℚ) / den < 2 ^ (format.precision - 1) * 2 ^ x.exponent) :
    format.round num den = some x := by
  have hunit : (0 : ℚ) < 2 ^ x.exponent := by positivity
  have htwice := format.pow_precision hwide
  have hone : (1 : ℚ) ≤ 2 ^ (format.precision - 1) := one_le_pow₀ (by norm_num)
  have hhalf : (2 : ℚ) ^ (x.exponent - 1) = 2 ^ x.exponent / 2 := by
    rw [zpow_sub_one₀ (by norm_num)]
    ring
  have hbit : format.lastBit num den = x.exponent - 1 := by
    apply format.lastBit_eq hwide htop hbelow (by omega)
    · right
      rw [hhalf]
      nlinarith
    · rw [hhalf, htwice]
      linarith
  have hsteps : format.steps num den = 2 ^ format.precision := by
    apply format.steps_eq hbelow
    rw [step, hbit, hhalf, abs_lt, lt_sub_comm, sub_lt_comm]
    push_cast
    constructor
    · rw [sub_neg_eq_add, div_lt_iff₀ (by positivity), htwice]
      nlinarith
    · rw [lt_div_iff₀ (by positivity), htwice]
      nlinarith
  rw [round_eq format htop, rounded, hsteps, hbit, if_pos rfl, ← hfull]
  simp [hhighest]

/-- A ratio strictly between the two halfway points of a magnitude is rounded to it. -/
theorem round_of_between (hwide : 0 < format.precision) (htop : 0 < num) (hbelow : 0 < den)
    (hnormal : format.Normal x) (hpositive : 0 < x.mantissa)
    (hlower : (format.halfwayBelow x).toRat < num / den)
    (hupper : (num : ℚ) / den < (halfwayAbove x).toRat) : format.round num den = some x := by
  have hunit : (0 : ℚ) < 2 ^ x.exponent := by positivity
  have hmantissa : (x.mantissa : ℚ) + 1 ≤ 2 ^ format.precision := by
    exact_mod_cast hnormal.mantissa_lt
  rw [toRat_halfwayAbove] at hupper
  rw [toRat_halfwayBelow format hpositive] at hlower
  have hfar : ((x.mantissa : ℚ) - 1 / 2) * 2 ^ x.exponent < num / den := by
    refine lt_of_le_of_lt ?_ hlower
    split <;> nlinarith
  by_cases hsame : x.exponent = format.minExponent ∨
      (2 : ℚ) ^ (format.precision - 1) * 2 ^ x.exponent ≤ (num : ℚ) / den
  · have hhigh : (num : ℚ) / den < 2 ^ format.precision * 2 ^ x.exponent := by nlinarith
    have hbit := format.lastBit_eq hwide htop hbelow hnormal.minExponent_le hsame hhigh
    exact format.round_of_near htop hbelow hnormal hbit hfar hupper
  · obtain ⟨hhigher, hless⟩ := not_or.mp hsame
    rw [not_le] at hless
    have habove : format.minExponent < x.exponent := by
      have := hnormal.minExponent_le
      omega
    have hfull : x.mantissa = 2 ^ (format.precision - 1) := by
      have hleast : 2 ^ (format.precision - 1) ≤ x.mantissa := hnormal.full.resolve_right hhigher
      have hfew := lt_of_mul_lt_mul_right (hfar.trans hless) hunit.le
      have hwhole : (x.mantissa : ℚ) < 2 ^ (format.precision - 1) + 1 := by linarith
      have : x.mantissa < 2 ^ (format.precision - 1) + 1 := by exact_mod_cast hwhole
      omega
    rw [if_pos ⟨hfull, habove⟩, hfull] at hlower
    push_cast at hlower
    exact format.round_of_carry hwide htop hbelow hfull habove hnormal.le_maxExponent hlower hless

/-- After a carry the ratio is at most a quarter below the power of two, and at most half a step of
the numbers below it above. -/
private theorem between_of_carry (hwide : 0 < format.precision) (hbelow : 0 < den)
    (hcarry : format.steps num den = 2 ^ format.precision)
    (hfits : format.lastBit num den + 1 ≤ format.maxExponent) :
    let x : Magnitude := ⟨2 ^ (format.precision - 1), format.lastBit num den + 1⟩
    format.Normal x ∧ (format.halfwayBelow x).toRat ≤ num / den ∧
      (num : ℚ) / den ≤ (halfwayAbove x).toRat := by
  intro x
  have hlower := format.steps_sub_half_le num hbelow
  have hupper := format.le_steps_add_half num hbelow
  have hunit := format.step_pos num den
  have hleast : format.minExponent ≤ format.lastBit num den := le_max_left _ _
  have habove : format.minExponent < format.lastBit num den + 1 := by omega
  have hshorter : 2 ^ (format.precision - 1) < 2 ^ format.precision :=
    Nat.pow_lt_pow_right (by norm_num) (by omega)
  have hmantissa : (x.mantissa : ℚ) = 2 ^ (format.precision - 1) := by
    show ((2 ^ (format.precision - 1) : ℕ) : ℚ) = _
    push_cast
    rfl
  rw [hcarry] at hlower hupper
  push_cast at hlower hupper
  rw [format.pow_precision hwide] at hlower hupper
  rw [toRat_halfwayAbove, toRat_halfwayBelow format (by positivity), if_pos ⟨rfl, habove⟩,
    zpow_add_one₀ (by norm_num), ← step, hmantissa]
  refine ⟨⟨hshorter, habove.le, hfits, .inl le_rfl⟩, ?_, ?_⟩
  · linarith
  · linarith

/-- Without a carry the ratio is at most half a step away. -/
private theorem between_of_steps (hwide : 0 < format.precision) (htop : 0 < num) (hbelow : 0 < den)
    (hplain : format.steps num den ≠ 2 ^ format.precision)
    (hfits : format.lastBit num den ≤ format.maxExponent) (hpositive : 0 < format.steps num den) :
    let x : Magnitude := ⟨format.steps num den, format.lastBit num den⟩
    format.Normal x ∧ (format.halfwayBelow x).toRat ≤ num / den ∧
      (num : ℚ) / den ≤ (halfwayAbove x).toRat := by
  intro x
  have hleast : format.minExponent ≤ format.lastBit num den := le_max_left _ _
  have hfull : 2 ^ (format.precision - 1) ≤ format.steps num den ∨
      format.lastBit num den = format.minExponent := by
    rcases hleast.lt_or_eq with habove | hsame
    · exact .inl (format.le_steps htop hbelow habove)
    · exact .inr hsame.symm
  rw [toRat_halfwayAbove, toRat_halfwayBelow format hpositive]
  refine ⟨⟨(format.steps_le hwide htop hbelow).lt_of_ne hplain, hleast, hfits, hfull⟩, ?_,
    format.le_steps_add_half num hbelow⟩
  split
  · rename_i hpower
    -- No ratio with this exponent lies below the power of two.
    have hatLeast := format.le_ratio htop hbelow hpower.2
    have hunit := format.step_pos num den
    have hmantissa : (x.mantissa : ℚ) = 2 ^ (format.precision - 1) := by
      rw [hpower.1]
      push_cast
      rfl
    rw [hmantissa]
    show ((2 : ℚ) ^ (format.precision - 1) - 1 / 4) * format.step num den ≤ num / den
    linarith
  · exact format.steps_sub_half_le num hbelow

/-- A ratio is rounded to a number of the format, whose halfway points enclose it. -/
theorem between_of_round (hwide : 0 < format.precision) (htop : 0 < num) (hbelow : 0 < den)
    (hresult : format.round num den = some x) (hpositive : 0 < x.mantissa) :
    format.Normal x ∧ (format.halfwayBelow x).toRat ≤ num / den ∧
      (num : ℚ) / den ≤ (halfwayAbove x).toRat := by
  obtain ⟨rfl, hfits⟩ := format.eq_rounded_of_round htop hresult
  by_cases hcarry : format.steps num den = 2 ^ format.precision
  · have hshape : format.rounded num den =
        ⟨2 ^ (format.precision - 1), format.lastBit num den + 1⟩ := if_pos hcarry
    rw [hshape] at hfits ⊢
    exact format.between_of_carry hwide hbelow hcarry hfits
  · have hshape : format.rounded num den = ⟨format.steps num den, format.lastBit num den⟩ :=
      if_neg hcarry
    rw [hshape] at hfits hpositive ⊢
    exact format.between_of_steps hwide htop hbelow hcarry hfits hpositive

end Between

end Format

end RaceIngest.Binary
