import Mathlib.Data.Nat.Cast.Order.Field
import RaceIngest.Decimal.Shortest
import RaceIngest.Proofs.Binary.Single

/-!
# What the search for the shortest decimal finds

The search goes from a grid coarser than the value to grids ten times as fine each. On every grid
the candidates are at most one grid step away from the value, and one that is taken rounds to the
word, because this was tested. After nine digits no test is needed: half a step of the last grid is
less than the distance to the halfway points of the word.

## Main statements

* `floorLog10_le`, `lt_floorLog10`: the decimal logarithm brackets the values of words,
* `found_searchGrids`: what is found is at most a step of its grid away,
* `isShortest_shortest`: the shortest decimal of a word rounds to the word.
-/

namespace RaceIngest.Decimal

open Binary

/-! ## Scaled numbers -/

/-- The number that a scaled number stands for. -/
def Scaled.toRat (x : Scaled) : ℚ := x.significand * 10 ^ x.exponent

theorem Scaled.ratio_eq (x : Scaled) : (x.ratio.1 : ℚ) / x.ratio.2 = x.toRat := by
  simp only [ratio, toRat]
  push_cast
  rw [zpow_eq_div, mul_div_assoc]

theorem Scaled.ratio_pos (x : Scaled) : 0 < x.ratio.2 := by
  simp [ratio]

/-! ## The decimal logarithm -/

/-- Whether the estimate of the decimal logarithm from a binary one is at most one too small. -/
def GuessFits (l : ℤ) : Prop :=
  let guess := l * 1233 / 4096
  10 ^ guess.toNat * 2 ^ (-l).toNat ≤ 2 ^ l.toNat * 10 ^ (-guess).toNat ∧
    2 ^ (l + 1).toNat * 10 ^ (-(guess + 2)).toNat ≤ 10 ^ (guess + 2).toNat * 2 ^ (-(l + 1)).toNat

instance (l : ℤ) : Decidable (GuessFits l) := by
  unfold GuessFits
  infer_instance

/-- The estimate fits in the range of the 32-bit format. -/
theorem guessFits_all : ∀ i : Fin 277, GuessFits ((i : ℕ) - 149) := by
  decide +kernel

theorem guess_bracket {l : ℤ} (hlow : -149 ≤ l) (hhigh : l ≤ 127) :
    (10 : ℚ) ^ (l * 1233 / 4096) ≤ 2 ^ l ∧ (2 : ℚ) ^ (l + 1) ≤ 10 ^ (l * 1233 / 4096 + 2) := by
  have hfits := guessFits_all ⟨(l + 149).toNat, by omega⟩
  simp only at hfits
  rw [show (((l + 149).toNat : ℕ) : ℤ) - 149 = l by omega] at hfits
  obtain ⟨hlower, hupper⟩ := hfits
  constructor
  · rw [zpow_eq_div 10, zpow_eq_div 2, div_le_div_iff₀ (by positivity) (by positivity)]
    exact_mod_cast hlower
  · rw [zpow_eq_div 10, zpow_eq_div 2, div_le_div_iff₀ (by positivity) (by positivity)]
    exact_mod_cast hupper

variable {num den : ℕ}

theorem floorLog10_le (htop : 0 < num) (hbelow : 0 < den) (hlow : -149 ≤ floorLog2 num den)
    (hhigh : floorLog2 num den ≤ 127) : (10 : ℚ) ^ floorLog10 num den ≤ num / den := by
  have hbracket := (guess_bracket hlow hhigh).1
  simp only [floorLog10]
  split
  · rename_i hfits
    exact (pow_mul_le_iff 10 (by norm_num) _ num hbelow).mp hfits
  · exact hbracket.trans (floorLog2_le htop hbelow)

theorem lt_floorLog10 (htop : 0 < num) (hbelow : 0 < den) (hlow : -149 ≤ floorLog2 num den)
    (hhigh : floorLog2 num den ≤ 127) : (num : ℚ) / den < 10 ^ (floorLog10 num den + 1) := by
  have hbracket := (guess_bracket hlow hhigh).2
  simp only [floorLog10]
  split
  · rw [add_assoc]
    exact (lt_floorLog2 htop hbelow).trans_le hbracket
  · rename_i hgreater
    rw [pow_mul_le_iff 10 (by norm_num) _ num hbelow, not_le] at hgreater
    exact hgreater

/-! ## The search -/

variable (value : ℕ × ℕ) (k : ℤ)

/-- The value in steps of a grid. -/
theorem gridded_ratio :
    ((value.1 * 10 ^ (-k).toNat : ℕ) : ℚ) / (value.2 * 10 ^ k.toNat : ℕ) =
      value.1 / value.2 / 10 ^ k := by
  rw [zpow_eq_div 10 k]
  push_cast
  field_simp

/-- The nearer neighbour is at most half a step away. -/
theorem abs_nearer_sub_le (hbelow : 0 < value.2) :
    |(neighbours value k).1.toRat - value.1 / value.2| ≤ 10 ^ k / 2 := by
  have hstep : (0 : ℚ) < 10 ^ k := by positivity
  have hclose := abs_divHalfEven_sub_le (value.1 * 10 ^ (-k).toNat)
    (show 0 < value.2 * 10 ^ k.toNat by positivity)
  rw [gridded_ratio] at hclose
  have hscaled : (neighbours value k).1.toRat - (value.1 : ℚ) / value.2 =
      ((divHalfEven (value.1 * 10 ^ (-k).toNat) (value.2 * 10 ^ k.toNat) : ℕ) -
        value.1 / value.2 / 10 ^ k) * 10 ^ k := by
    simp only [neighbours, Scaled.toRat]
    field_simp
  rw [hscaled, abs_mul, abs_of_pos hstep]
  calc _ ≤ 1 / 2 * (10 : ℚ) ^ k := by gcongr
    _ = 10 ^ k / 2 := by ring

/-- The farther neighbour is at most a step away. -/
theorem abs_farther_sub_le (hbelow : 0 < value.2) :
    |(neighbours value k).2.toRat - value.1 / value.2| ≤ 10 ^ k := by
  have hstep : (0 : ℚ) < 10 ^ k := by positivity
  have hdenominator : 0 < value.2 * 10 ^ k.toNat := by positivity
  have hratio := gridded_ratio value k
  have hfloorLe := Nat.cast_div_le (α := ℚ) (m := value.1 * 10 ^ (-k).toNat)
    (n := value.2 * 10 ^ k.toNat)
  have hltFloor := Nat.lt_div_mul_add (a := value.1 * 10 ^ (-k).toNat) hdenominator
  have hltFloor' : ((value.1 * 10 ^ (-k).toNat : ℕ) : ℚ) / (value.2 * 10 ^ k.toNat : ℕ) <
      (value.1 * 10 ^ (-k).toNat / (value.2 * 10 ^ k.toNat) : ℕ) + 1 := by
    rw [div_lt_iff₀ (by exact_mod_cast hdenominator), add_mul, one_mul]
    exact_mod_cast hltFloor
  rw [hratio] at hfloorLe hltFloor'
  simp only [neighbours, Scaled.toRat]
  generalize value.1 * 10 ^ (-k).toNat / (value.2 * 10 ^ k.toNat) = floor at *
  have hunit : |((if divHalfEven (value.1 * 10 ^ (-k).toNat) (value.2 * 10 ^ k.toNat) = floor then
      divHalfEven (value.1 * 10 ^ (-k).toNat) (value.2 * 10 ^ k.toNat) + 1 else floor : ℕ) : ℚ) -
        value.1 / value.2 / 10 ^ k| ≤ 1 := by
    rw [abs_le]
    split
    · rename_i hsame
      rw [hsame]
      push_cast
      constructor <;> linarith
    · constructor <;> linarith
  generalize (if divHalfEven (value.1 * 10 ^ (-k).toNat) (value.2 * 10 ^ k.toNat) = floor then
      divHalfEven (value.1 * 10 ^ (-k).toNat) (value.2 * 10 ^ k.toNat) + 1 else floor : ℕ) = m at *
  have hscaled : (m : ℚ) * 10 ^ k - value.1 / value.2 =
      (m - value.1 / value.2 / 10 ^ k) * 10 ^ k := by
    field_simp
  rw [hscaled, abs_mul, abs_of_pos hstep]
  calc _ ≤ 1 * (10 : ℚ) ^ k := by gcongr
    _ = 10 ^ k := one_mul _

/-- What a search on the grids from `10 ^ most` down to `10 ^ least` finds: a point at most a step of
its grid away, which was accepted or is at most half a step of the last grid away. -/
structure Found (reads : Scaled → Bool) (value : ℕ × ℕ) (least most : ℤ) (d : Scaled) : Prop where
  least_le : least ≤ d.exponent
  le_most : d.exponent ≤ most
  close : |d.toRat - value.1 / value.2| ≤ 10 ^ d.exponent
  accepted : reads d = true ∨ |d.toRat - value.1 / value.2| ≤ 10 ^ least / 2

theorem found_searchGrids (reads : Scaled → Bool) {value : ℕ × ℕ} (hbelow : 0 < value.2) (count : ℕ)
    (k : ℤ) : Found reads value (k - count) k (searchGrids reads value count k) := by
  induction count generalizing k with
  | zero =>
      have hnear := abs_nearer_sub_le value k hbelow
      have hstep : (0 : ℚ) < 10 ^ k := by positivity
      refine ⟨by simp [searchGrids, neighbours], by simp [searchGrids, neighbours], ?_, .inr ?_⟩
      · exact hnear.trans (by show (10 : ℚ) ^ k / 2 ≤ 10 ^ k; linarith)
      · simpa [searchGrids] using hnear
  | succ count ih =>
      have hnearer := abs_nearer_sub_le value k hbelow
      have hfarther := abs_farther_sub_le value k hbelow
      have hstep : (0 : ℚ) < 10 ^ k := by positivity
      have hrange : k - (count + 1 : ℕ) ≤ k := by omega
      simp only [searchGrids]
      split
      · rename_i haccepted
        exact ⟨hrange, le_rfl, hnearer.trans (by show (10 : ℚ) ^ k / 2 ≤ 10 ^ k; linarith),
          .inl haccepted⟩
      · split
        · rename_i haccepted
          exact ⟨hrange, le_rfl, hfarther, .inl haccepted⟩
        · have hfound := ih (k - 1)
          rw [show k - 1 - (count : ℤ) = k - (count + 1 : ℕ) by omega] at hfound
          exact ⟨hfound.least_le, hfound.le_most.trans (by omega), hfound.close, hfound.accepted⟩

end RaceIngest.Decimal

/-! ## The shortest decimal of a word -/

namespace RaceIngest.Decimal

open Binary

variable {x : Single}

/-- The values of words that are not zero. -/
theorem floorLog2_magnitude (hfinite : x.isFinite = true) (hnonzero : x.absBits ≠ 0) :
    0 < x.magnitude.ratio.1 ∧ -149 ≤ floorLog2 x.magnitude.ratio.1 x.magnitude.ratio.2 ∧
      floorLog2 x.magnitude.ratio.1 x.magnitude.ratio.2 ≤ 127 := by
  have hnormal := Single.normal_magnitude hfinite
  have hpositive := Single.magnitude_pos hnonzero
  have htop : 0 < x.magnitude.ratio.1 := by
    simp only [Magnitude.ratio]
    positivity
  have hbelow := x.magnitude.ratio_pos
  have hlow := hnormal.minExponent_le
  have hhigh := hnormal.le_maxExponent
  simp only [Format.single] at hlow hhigh
  have hone : (1 : ℚ) ≤ x.magnitude.mantissa := by exact_mod_cast hpositive
  have hbits : (x.magnitude.mantissa : ℚ) < 2 ^ 24 := by exact_mod_cast hnormal.mantissa_lt
  have hleast : (2 : ℚ) ^ (-149 : ℤ) ≤ (x.magnitude.ratio.1 : ℚ) / x.magnitude.ratio.2 := by
    rw [Magnitude.ratio_eq, Magnitude.toRat]
    calc (2 : ℚ) ^ (-149 : ℤ) ≤ 2 ^ x.magnitude.exponent := zpow_le_zpow_right₀ (by norm_num) hlow
      _ = 1 * 2 ^ x.magnitude.exponent := (one_mul _).symm
      _ ≤ x.magnitude.mantissa * 2 ^ x.magnitude.exponent := by gcongr
  have hmost : (x.magnitude.ratio.1 : ℚ) / x.magnitude.ratio.2 < 2 ^ (128 : ℤ) := by
    rw [Magnitude.ratio_eq, Magnitude.toRat]
    calc x.magnitude.mantissa * (2 : ℚ) ^ x.magnitude.exponent
        ≤ x.magnitude.mantissa * 2 ^ (104 : ℤ) :=
          mul_le_mul_of_nonneg_left (zpow_le_zpow_right₀ (by norm_num) hhigh) (by positivity)
      _ < 2 ^ 24 * 2 ^ (104 : ℤ) := by gcongr
      _ = 2 ^ (128 : ℤ) := by norm_num
  have hupper := floorLog2_lt_of_lt htop hbelow hmost
  exact ⟨htop, le_floorLog2_of_le htop hbelow hleast, by omega⟩

/-- A number that is closer to a word than a two hundred millionth part rounds to it. -/
theorem nearest_of_close (hfinite : x.isFinite = true) (hnonzero : x.absBits ≠ 0) {num den : ℕ}
    (hbelow : 0 < den)
    (hclose : |(num : ℚ) / den - x.magnitude.toRat| ≤ x.magnitude.toRat / (2 * 10 ^ 8)) :
    Single.nearest false num den = x.unsigned := by
  have hnormal := Single.normal_magnitude hfinite
  have hpositive := Single.magnitude_pos hnonzero
  have hunit : (0 : ℚ) < 2 ^ x.magnitude.exponent := by positivity
  have hone : (1 : ℚ) ≤ x.magnitude.mantissa := by exact_mod_cast hpositive
  have hbits : (x.magnitude.mantissa : ℚ) < 2 ^ 24 := by exact_mod_cast hnormal.mantissa_lt
  obtain ⟨hlower, hupper⟩ := abs_le.mp hclose
  have hvalue : x.magnitude.toRat = x.magnitude.mantissa * 2 ^ x.magnitude.exponent := rfl
  rw [hvalue] at hlower hupper
  have htop : 0 < num := by
    by_contra hnone
    have hzero : num = 0 := by omega
    rw [hzero] at hlower
    norm_num at hlower
    nlinarith
  have hresult := Single.nearest_of_between htop hbelow (x := x.unsigned) (by simpa using hfinite)
    (by simpa using hnonzero)
  rw [Single.isNegative_unsigned, Single.magnitude_unsigned] at hresult
  apply hresult
  · rw [Format.toRat_halfwayBelow _ hpositive]
    split
    · rename_i hpower
      have hfull : (x.magnitude.mantissa : ℚ) = 2 ^ 23 := by exact_mod_cast hpower.1
      rw [hfull] at hlower ⊢
      nlinarith
    · nlinarith
  · rw [Format.toRat_halfwayAbove]
    nlinarith

/-- What is known of the shortest decimal of a word. -/
structure IsShortest (x : Single) (d : Scaled) : Prop where
  positive : 0 < d.significand
  digits : d.significand ≤ 10 ^ 9
  least_le : -53 ≤ d.exponent
  le_most : d.exponent ≤ 39
  close : |d.toRat - x.magnitude.toRat| ≤ 10 ^ d.exponent
  reads : Single.nearest false d.ratio.1 d.ratio.2 = x.unsigned

/-- The decimal logarithms of the values of words. -/
theorem floorLog10_magnitude (hfinite : x.isFinite = true) (hnonzero : x.absBits ≠ 0) :
    -46 < floorLog10 x.magnitude.ratio.1 x.magnitude.ratio.2 ∧
      floorLog10 x.magnitude.ratio.1 x.magnitude.ratio.2 < 39 := by
  obtain ⟨htop, hlow, hhigh⟩ := floorLog2_magnitude hfinite hnonzero
  have hbelow := x.magnitude.ratio_pos
  have hlogLe := floorLog10_le htop hbelow hlow hhigh
  have hltLog := lt_floorLog10 htop hbelow hlow hhigh
  have hsmallest := floorLog2_le htop hbelow
  have hlargest := lt_floorLog2 htop hbelow
  generalize floorLog2 x.magnitude.ratio.1 x.magnitude.ratio.2 = b at *
  generalize floorLog10 x.magnitude.ratio.1 x.magnitude.ratio.2 = l at *
  constructor
  · by_contra hless
    have : (10 : ℚ) ^ (l + 1) ≤ 10 ^ (-45 : ℤ) := zpow_le_zpow_right₀ (by norm_num) (by omega)
    have : (2 : ℚ) ^ (-149 : ℤ) ≤ 2 ^ b := zpow_le_zpow_right₀ (by norm_num) hlow
    have : (10 : ℚ) ^ (-45 : ℤ) < 2 ^ (-149 : ℤ) := by norm_num
    linarith
  · by_contra hmore
    have : (10 : ℚ) ^ (39 : ℤ) ≤ 10 ^ l := zpow_le_zpow_right₀ (by norm_num) (by omega)
    have : (2 : ℚ) ^ (b + 1) ≤ 2 ^ (128 : ℤ) := zpow_le_zpow_right₀ (by norm_num) (by omega)
    have : (2 : ℚ) ^ (128 : ℤ) < 10 ^ (39 : ℤ) := by norm_num
    linarith

/-- A point at most a step away from a value, on one of the nine grids from that of its first digit
on, has nine digits. -/
theorem significand_le_of_close {d : Scaled} {v : ℚ} {l : ℤ} (hless : v < 10 ^ (l + 1))
    (hgrid : l - 8 ≤ d.exponent) (hclose : |d.toRat - v| ≤ 10 ^ d.exponent) :
    d.significand ≤ 10 ^ 9 := by
  have hstep : (0 : ℚ) < 10 ^ d.exponent := by positivity
  have hupper := (abs_le.mp hclose).2
  have hgrids : (10 : ℚ) ^ (l + 1) ≤ 10 ^ 9 * 10 ^ d.exponent := by
    rw [← zpow_natCast, ← zpow_add₀ (by norm_num)]
    exact zpow_le_zpow_right₀ (by norm_num) (by push_cast; omega)
  have hproduct : (d.significand : ℚ) * 10 ^ d.exponent < (10 ^ 9 + 1) * 10 ^ d.exponent := by
    have : d.toRat = d.significand * 10 ^ d.exponent := rfl
    linarith
  have hfew : d.significand < 10 ^ 9 + 1 := by
    exact_mod_cast lt_of_mul_lt_mul_right hproduct hstep.le
  omega

/-- A point within half a step of the ninth grid rounds to the word. -/
theorem nearest_of_nine_digits (hfinite : x.isFinite = true) (hnonzero : x.absBits ≠ 0) {d : Scaled}
    {l : ℤ} (hleast : (10 : ℚ) ^ l ≤ x.magnitude.toRat)
    (hnear : |d.toRat - x.magnitude.toRat| ≤ 10 ^ (l - 8) / 2) :
    Single.nearest false d.ratio.1 d.ratio.2 = x.unsigned := by
  refine nearest_of_close hfinite hnonzero d.ratio_pos ?_
  have heighth : (10 : ℚ) ^ (l - 8) = 10 ^ l / 10 ^ 8 := by
    rw [zpow_sub₀ (by norm_num)]
    norm_cast
  have : (0 : ℚ) < 10 ^ 8 := by norm_num
  rw [Scaled.ratio_eq]
  refine hnear.trans ?_
  rw [heighth, div_div, mul_comm (10 ^ 8 : ℚ)]
  gcongr

/-- What rounds to a word that is not zero is not zero. -/
theorem significand_pos_of_nearest (hnonzero : x.absBits ≠ 0) {d : Scaled}
    (hreads : Single.nearest false d.ratio.1 d.ratio.2 = x.unsigned) : 0 < d.significand := by
  by_contra hnone
  have hzero : d.significand = 0 := by omega
  have hbits := congrArg (fun y => y.bits.toNat) hreads
  simp only [Scaled.ratio, hzero, zero_mul, Single.nearest, Format.round_zero,
    Single.toNat_bits_unsigned] at hbits
  exact hnonzero hbits.symm

/-- The shortest decimal of a word rounds to it and is at most a step of its grid away. -/
theorem isShortest_shortest (hfinite : x.isFinite = true) (hnonzero : x.absBits ≠ 0) :
    IsShortest x (shortest x) := by
  obtain ⟨htop, hlow, hhigh⟩ := floorLog2_magnitude hfinite hnonzero
  obtain ⟨hlowest, hgreatest⟩ := floorLog10_magnitude hfinite hnonzero
  have hbelow := x.magnitude.ratio_pos
  have hlogLe := floorLog10_le htop hbelow hlow hhigh
  have hltLog := lt_floorLog10 htop hbelow hlow hhigh
  have hfound := found_searchGrids
    (fun d => decide (Single.nearest false d.ratio.1 d.ratio.2 = x.unsigned)) hbelow digitsOfSingle
    (floorLog10 x.magnitude.ratio.1 x.magnitude.ratio.2 + 1)
  change Found _ _ _ _ (shortest x) at hfound
  generalize shortest x = d at hfound ⊢
  generalize floorLog10 x.magnitude.ratio.1 x.magnitude.ratio.2 = l at *
  obtain ⟨hleastLe, hleMost, hclose, haccepted⟩ := hfound
  rw [Magnitude.ratio_eq] at *
  simp only [digitsOfSingle, decide_eq_true_eq] at hleastLe haccepted
  rw [show l + 1 - (9 : ℕ) = l - 8 by omega] at hleastLe haccepted
  have hreads : Single.nearest false d.ratio.1 d.ratio.2 = x.unsigned :=
    haccepted.elim id (nearest_of_nine_digits hfinite hnonzero hlogLe)
  exact ⟨significand_pos_of_nearest hnonzero hreads, significand_le_of_close hltLog hleastLe hclose,
    by omega, by omega, hclose, hreads⟩

end RaceIngest.Decimal
