import RaceIngest.Proofs.Decimal.Layout

/-!
# How exact a numeral is read

A numeral is read in the 64-bit format by one product or quotient of its significand and a power of
ten. The significand is exact, the power is rounded unless it is small, and the result is rounded:
the value read is off by hardly more than two roundings. When the power is exact and the value is a
number of the format, it is read exactly.

## Main statements

* `exists_round_double`: rounding to the 64-bit format far from its ends,
* `exists_scale`: the value that a significand and a power of ten are read as.
-/

namespace RaceIngest.Decimal

open Binary Numeral

/-- In the middle of the 64-bit format rounding has a relative error of half a bit, and numbers of
the format are kept. -/
theorem exists_round_double (num den : ℕ) (htop : 0 < num) (hbelow : 0 < den)
    (hlow : (10 : ℚ) ^ (-60 : ℤ) ≤ (num : ℚ) / den) (hhigh : (num : ℚ) / den ≤ 10 ^ (60 : ℤ)) :
    ∃ y, Format.double.round num den = some y ∧
      |y.toRat - num / den| ≤ num / den / 2 ^ 53 ∧
      ∀ (m : ℕ) (z : ℤ), m < 2 ^ 53 → -1074 ≤ z → (num : ℚ) / den = m * 2 ^ z →
        y.toRat = num / den := by
  have hupper : (num : ℚ) / den <
      2 ^ (Format.double.maxExponent + (Format.double.precision - 1 : ℕ)) := by
    calc (num : ℚ) / den ≤ 10 ^ (60 : ℤ) := hhigh
      _ < 2 ^ (200 : ℤ) := by norm_num
      _ ≤ _ := zpow_le_zpow_right₀ (by norm_num) (by decide)
  have hlower : (2 : ℚ) ^ (Format.double.minExponent + (Format.double.precision - 1 : ℕ)) ≤
      (num : ℚ) / den := by
    calc _ ≤ (2 : ℚ) ^ (-200 : ℤ) := zpow_le_zpow_right₀ (by norm_num) (by decide)
      _ ≤ 10 ^ (-60 : ℤ) := by norm_num
      _ ≤ (num : ℚ) / den := hlow
  obtain ⟨y, hresult⟩ := Format.double.exists_round htop hbelow hupper (by decide)
  refine ⟨y, hresult, ?_, ?_⟩
  · exact Format.double.abs_sub_le_mul_of_round (by decide) htop hbelow hlower hresult
  · intro m z hsmall hleast hexact
    exact Format.double.toRat_of_round_exact (by decide) htop hbelow hsmall hleast hexact hresult

/-- The powers of ten in the 64-bit format, of which the first are exact. -/
theorem powerOfTen_close {k : ℕ} (hsmall : k ≤ 60) :
    |(powerOfTen k).toRat - 10 ^ k| ≤ 10 ^ k / 2 ^ 53 ∧ (k ≤ 22 → (powerOfTen k).toRat = 10 ^ k) := by
  have hratio : ((10 ^ k : ℕ) : ℚ) / (1 : ℕ) = 10 ^ k := by simp
  have hlow : (10 : ℚ) ^ (-60 : ℤ) ≤ 10 ^ k :=
    le_trans (by norm_num) (one_le_pow₀ (by norm_num))
  have hhigh : (10 : ℚ) ^ k ≤ 10 ^ (60 : ℤ) := by
    rw [← zpow_natCast]
    exact zpow_le_zpow_right₀ (by norm_num) (by omega)
  obtain ⟨y, hresult, hclose, hexact⟩ := exists_round_double (10 ^ k) 1 (by positivity)
    one_pos (by rwa [hratio]) (by rwa [hratio])
  have hvalue : powerOfTen k = y := by rw [powerOfTen, hresult]; rfl
  rw [hratio] at hclose hexact
  rw [hvalue]
  refine ⟨hclose, fun hfew => hexact (5 ^ k) k ?_ (by omega) ?_⟩
  · calc 5 ^ k ≤ 5 ^ 22 := Nat.pow_le_pow_right (by norm_num) hfew
      _ < 2 ^ 53 := by norm_num
  · rw [zpow_natCast]
    push_cast
    rw [← mul_pow]
    norm_num

variable {significand : ℕ} {exponent : ℤ}

/-- The significand alone is read exactly. -/
theorem exists_round_significand (hpositive : 0 < significand) (hsmall : significand < 2 ^ 53) :
    ∃ x, (Format.double.round significand 1).getD .zero = x ∧ x.toRat = significand := by
  have hone : (1 : ℚ) ≤ significand := by exact_mod_cast hpositive
  have hbits : (significand : ℚ) < 2 ^ 53 := by exact_mod_cast hsmall
  have hratio : ((significand : ℕ) : ℚ) / (1 : ℕ) = significand := by simp
  obtain ⟨x, hresult, -, hexact⟩ := exists_round_double significand 1 hpositive
    one_pos (by rw [hratio]; exact le_trans (by norm_num) hone)
    (by rw [hratio]; exact le_trans hbits.le (by norm_num))
  refine ⟨x, by rw [hresult]; rfl, ?_⟩
  rw [hexact significand 0 hsmall (by norm_num) (by simp), hratio]

/-- Scaling up rounds the value, up to the rounding of the power of ten. -/
private theorem exists_scaleUp_eq_round {x : Magnitude} (hwhole : x.toRat = significand) {k : ℕ}
    (hhigh : k ≤ 39) : ∃ num den, 0 < den ∧ scale x k = Format.double.round num den ∧
      |(num : ℚ) / den - significand * 10 ^ (k : ℤ)| ≤
        significand * 10 ^ (k : ℤ) * (17 / 2 ^ 57) ∧
      (|(k : ℤ)| ≤ 22 → (num : ℚ) / den = significand * 10 ^ (k : ℤ)) := by
  obtain ⟨hclose, hexact⟩ := powerOfTen_close (show k ≤ 60 by omega)
  have hpower : (0 : ℚ) < 10 ^ k := by positivity
  have hunfolded : scale x (k : ℤ) = Format.double.mul x (powerOfTen k) := by
    rw [scale, if_pos (Int.natCast_nonneg k), if_pos (by simp [greatestPower]; omega),
      Int.toNat_natCast]
  have hratio : ((x.ratio.1 * (powerOfTen k).ratio.1 : ℕ) : ℚ) /
      (x.ratio.2 * (powerOfTen k).ratio.2 : ℕ) = significand * (powerOfTen k).toRat := by
    rw [← hwhole, ← Magnitude.ratio_eq, ← Magnitude.ratio_eq]
    push_cast
    rw [div_mul_div_comm]
  refine ⟨_, _, Nat.mul_pos x.ratio_pos (powerOfTen k).ratio_pos, hunfolded, ?_, ?_⟩
  · rw [hratio, zpow_natCast, ← mul_sub, abs_mul, Nat.abs_cast, mul_assoc]
    refine mul_le_mul_of_nonneg_left (hclose.trans ?_) (Nat.cast_nonneg _)
    linarith
  · intro hfew
    rw [hratio, hexact (by rw [abs_le] at hfew; omega), zpow_natCast]

/-- Scaling down rounds the value, up to the rounding of the power of ten. -/
private theorem exists_scaleDown_eq_round {x : Magnitude} (hwhole : x.toRat = significand) {k : ℕ}
    (hpositive : 0 < k) (hlow : k ≤ 53) :
    ∃ num den, 0 < den ∧ scale x (-k : ℤ) = Format.double.round num den ∧
      |(num : ℚ) / den - significand * 10 ^ (-k : ℤ)| ≤
        significand * 10 ^ (-k : ℤ) * (17 / 2 ^ 57) ∧
      (|(-k : ℤ)| ≤ 22 → (num : ℚ) / den = significand * 10 ^ (-k : ℤ)) := by
  obtain ⟨hclose, hexact⟩ := powerOfTen_close (show k ≤ 60 by omega)
  have hpower : (0 : ℚ) < 10 ^ k := by positivity
  have hunfolded : scale x (-k : ℤ) = Format.double.div x (powerOfTen k) := by
    have hdeficit : k - greatestPower = 0 := by
      simp only [greatestPower]
      omega
    rw [scale, if_neg (by omega), neg_neg, Int.toNat_natCast, hdeficit]
    rfl
  have hratio : ((x.ratio.1 * (powerOfTen k).ratio.2 : ℕ) : ℚ) /
      (x.ratio.2 * (powerOfTen k).ratio.1 : ℕ) = significand / (powerOfTen k).toRat := by
    rw [← hwhole, ← Magnitude.ratio_eq, ← Magnitude.ratio_eq]
    push_cast
    rw [div_div_div_eq]
  have hdivisor : (10 : ℚ) ^ k * (1 - 1 / 2 ^ 53) ≤ (powerOfTen k).toRat := by
    have := (abs_le.mp hclose).1
    linarith
  have hdivisorPositive : 0 < (powerOfTen k).toRat := lt_of_lt_of_le (by positivity) hdivisor
  refine ⟨_, _, Nat.mul_pos x.ratio_pos (Magnitude.numerator_pos hdivisorPositive), hunfolded,
    ?_, ?_⟩
  · rw [hratio, zpow_neg, zpow_natCast, ← div_eq_mul_inv]
    have hdifference : significand / (powerOfTen k).toRat - (significand : ℚ) / 10 ^ k =
        significand / 10 ^ k * ((10 ^ k - (powerOfTen k).toRat) / (powerOfTen k).toRat) := by
      field_simp
    rw [hdifference, abs_mul, abs_of_nonneg (by positivity), abs_div, abs_sub_comm,
      abs_of_pos hdivisorPositive]
    refine mul_le_mul_of_nonneg_left ?_ (by positivity)
    rw [div_le_iff₀ hdivisorPositive]
    calc |(powerOfTen k).toRat - 10 ^ k| ≤ 10 ^ k / 2 ^ 53 := hclose
      _ ≤ 17 / 2 ^ 57 * (10 ^ k * (1 - 1 / 2 ^ 53)) := by linarith
      _ ≤ 17 / 2 ^ 57 * (powerOfTen k).toRat := by gcongr
  · intro hfew
    rw [hratio, hexact (by rw [abs_le] at hfew; omega), zpow_neg, zpow_natCast, ← div_eq_mul_inv]

/-- The ratio that scaling rounds: the value, up to the rounding of the power of ten. -/
theorem exists_scale_eq_round {x : Magnitude} (hwhole : x.toRat = significand)
    (hlow : -53 ≤ exponent) (hhigh : exponent ≤ 39) :
    ∃ num den, 0 < den ∧ scale x exponent = Format.double.round num den ∧
      |(num : ℚ) / den - significand * 10 ^ exponent| ≤
        significand * 10 ^ exponent * (17 / 2 ^ 57) ∧
      (|exponent| ≤ 22 → (num : ℚ) / den = significand * 10 ^ exponent) := by
  by_cases hnatural : 0 ≤ exponent
  · obtain ⟨k, rfl⟩ := Int.eq_ofNat_of_zero_le hnatural
    exact exists_scaleUp_eq_round hwhole (by omega)
  · obtain ⟨k, rfl⟩ : ∃ k : ℕ, exponent = -k := ⟨(-exponent).toNat, by omega⟩
    exact exists_scaleDown_eq_round hwhole (by omega) (by omega)

/-- A significand and a power of ten are far from the ends of the 64-bit format. -/
private theorem scaled_bounds (hpositive : 0 < significand) (hsmall : significand < 2 ^ 53)
    (hlow : -53 ≤ exponent) (hhigh : exponent ≤ 39) :
    (10 : ℚ) ^ (-53 : ℤ) ≤ significand * 10 ^ exponent ∧
      (significand : ℚ) * 10 ^ exponent ≤ 10 ^ (55 : ℤ) := by
  have hone : (1 : ℚ) ≤ significand := by exact_mod_cast hpositive
  have hbits : (significand : ℚ) < 2 ^ 53 := by exact_mod_cast hsmall
  have hpower : (0 : ℚ) < 10 ^ exponent := by positivity
  constructor
  · calc (10 : ℚ) ^ (-53 : ℤ) ≤ 10 ^ exponent := zpow_le_zpow_right₀ (by norm_num) hlow
      _ = 1 * 10 ^ exponent := (one_mul _).symm
      _ ≤ significand * 10 ^ exponent := by gcongr
  · calc (significand : ℚ) * 10 ^ exponent ≤ 2 ^ 53 * 10 ^ (39 : ℤ) :=
          mul_le_mul hbits.le (zpow_le_zpow_right₀ (by norm_num) hhigh) hpower.le (by norm_num)
      _ ≤ 10 ^ (55 : ℤ) := by norm_num

/-- The value that a significand and a power of ten are read as. -/
theorem exists_scale (hpositive : 0 < significand) (hsmall : significand < 2 ^ 53)
    (hlow : -53 ≤ exponent) (hhigh : exponent ≤ 39) :
    ∃ y, scale ((Format.double.round significand 1).getD .zero) exponent = some y ∧
      |y.toRat - significand * 10 ^ exponent| ≤ 9 / 2 ^ 55 * (significand * 10 ^ exponent) ∧
      (|exponent| ≤ 22 → ∀ (m : ℕ) (z : ℤ), m < 2 ^ 53 → -1074 ≤ z →
        (significand : ℚ) * 10 ^ exponent = m * 2 ^ z → y.toRat = significand * 10 ^ exponent) := by
  obtain ⟨x, hread, hwhole⟩ := exists_round_significand hpositive hsmall
  obtain ⟨num, den, hbelow, hunfolded, hnear, hexact⟩ :=
    exists_scale_eq_round hwhole hlow hhigh
  obtain ⟨hleast, hmost⟩ := scaled_bounds hpositive hsmall hlow hhigh
  generalize (significand : ℚ) * 10 ^ exponent = value at *
  obtain ⟨hlower, hupper⟩ := abs_le.mp hnear
  have hvaluePositive : 0 < value := lt_of_lt_of_le (by positivity) hleast
  have hhalf : value / 2 ≤ num / den := by linarith
  have htwice : (num : ℚ) / den ≤ value * 2 := by linarith
  have hlowest : (10 : ℚ) ^ (-60 : ℤ) ≤ (num : ℚ) / den := by
    calc (10 : ℚ) ^ (-60 : ℤ) ≤ 10 ^ (-53 : ℤ) / 2 := by norm_num
      _ ≤ value / 2 := by gcongr
      _ ≤ num / den := hhalf
  have hhighest : (num : ℚ) / den ≤ 10 ^ (60 : ℤ) := by
    calc (num : ℚ) / den ≤ value * 2 := htwice
      _ ≤ 10 ^ (55 : ℤ) * 2 := by gcongr
      _ ≤ 10 ^ (60 : ℤ) := by norm_num
  have htop : 0 < num := by
    by_contra hzero
    rw [show num = 0 by omega, Nat.cast_zero, zero_div] at hlowest
    norm_num at hlowest
  obtain ⟨y, hresult, herror, hkept⟩ := exists_round_double num den htop hbelow hlowest hhighest
  refine ⟨y, by rw [hread, hunfolded, hresult], ?_, ?_⟩
  · obtain ⟨hlower, hupper⟩ := abs_le.mp herror
    rw [abs_le]
    constructor <;> linarith
  · intro hfew m z hfits hbottom hsame
    rw [hexact hfew] at hkept
    exact hkept m z hfits hbottom hsame

end RaceIngest.Decimal
