import Mathlib.RingTheory.Coprime.Lemmas
import RaceIngest.Proofs.Binary.Rounding

/-!
# Short decimals and halfway points

A decimal `d * 10 ^ k` whose grid is at least as coarse as half the distance of the words around it
has few digits, and a halfway point `n * 2 ^ e` of the 32-bit format has few bits. Two such numbers
are equal or well apart, with three exceptions in the whole range of the format: this is what lets
a decimal be read through a format that is rounded itself.

The two numbers are close when the fraction `n / d` is close to the ratio `10 ^ k / 2 ^ e`. For
every exponent of two there are two neighbouring fractions around that ratio, `low` and `high` with
`high - low = 1 / (low.den * high.den)`, whose denominators add up to more than any `d` that can
occur. No fraction with such a denominator lies strictly between them, and one outside of them is
too far away; so only the two neighbours themselves have to be looked at, one exponent after the
other.

## Main statements

* `eq_of_close`: a fraction close to the ratio beyond an end of the gap is that end,
* `eq_or_mem_closePoints`: a short decimal close to a halfway point is equal to it or one of
  `closePoints`.
-/

namespace RaceIngest.Decimal

/-! ## Neighbouring fractions -/

/-- Two fractions, the lower one first. -/
structure Gap where
  lowNum : ℕ
  lowDen : ℕ
  highNum : ℕ
  highDen : ℕ
  deriving DecidableEq, Repr

namespace Gap

/-- The two integers around a ratio. -/
def around (num den : ℕ) : Gap := ⟨num / den, 1, num / den + 1, 1⟩

/-- Narrows a gap around a ratio as long as the denominators are at most `most`: the end farther
away moves towards the other as many mediants as stay on its side. -/
def narrow (num den most : ℕ) : ℕ → Gap → Gap
  | 0, gap => gap
  | fuel + 1, gap =>
    if most < gap.lowDen + gap.highDen then gap
    else
      let low := gap.lowDen * num - gap.lowNum * den
      let high := gap.highNum * den - gap.highDen * num
      if high ≤ low then
        let room := (most - gap.lowDen) / gap.highDen
        let count := if high = 0 then room else min (low / high) room
        narrow num den most fuel
          { gap with
            lowNum := gap.lowNum + count * gap.highNum
            lowDen := gap.lowDen + count * gap.highDen }
      else
        let room := (most - gap.highDen) / gap.lowDen
        let count := if low = 0 then room else min (high / low) room
        narrow num den most fuel
          { gap with
            highNum := gap.highNum + count * gap.lowNum
            highDen := gap.highDen + count * gap.lowDen }

/-- Two neighbouring fractions with a ratio between them. -/
structure Encloses (gap : Gap) (num den : ℕ) : Prop where
  neighbours : gap.highNum * gap.lowDen = gap.lowNum * gap.highDen + 1
  low_le : gap.lowNum * den ≤ gap.lowDen * num
  le_high : gap.highDen * num ≤ gap.highNum * den

instance (gap : Gap) (num den : ℕ) : Decidable (gap.Encloses num den) :=
  decidable_of_iff (gap.highNum * gap.lowDen = gap.lowNum * gap.highDen + 1 ∧
      gap.lowNum * den ≤ gap.lowDen * num ∧ gap.highDen * num ≤ gap.highNum * den)
    ⟨fun ⟨ha, hb, hc⟩ => ⟨ha, hb, hc⟩, fun ⟨ha, hb, hc⟩ => ⟨ha, hb, hc⟩⟩

variable {gap : Gap} {num den n d : ℕ}

/-- A fraction strictly between two neighbours has at least the sum of their denominators. -/
theorem le_low_or_high_le (hneighbours : gap.highNum * gap.lowDen = gap.lowNum * gap.highDen + 1)
    (hsmall : d < gap.lowDen + gap.highDen) :
    n * gap.lowDen ≤ gap.lowNum * d ∨ gap.highNum * d ≤ n * gap.highDen := by
  by_contra hinside
  obtain ⟨haboveLow, hbelowHigh⟩ := not_or.mp hinside
  rw [not_le] at haboveLow hbelowHigh
  have hfirst : gap.highDen * (gap.lowNum * d + 1) ≤ gap.highDen * (n * gap.lowDen) :=
    Nat.mul_le_mul_left _ haboveLow
  have hsecond : gap.lowDen * (n * gap.highDen + 1) ≤ gap.lowDen * (gap.highNum * d) :=
    Nat.mul_le_mul_left _ hbelowHigh
  have hcombined : d * (gap.highNum * gap.lowDen) = d * (gap.lowNum * gap.highDen) + d := by
    rw [hneighbours]
    ring
  nlinarith

/-- The ends of a gap are in lowest terms. -/
theorem coprime_low (hneighbours : gap.highNum * gap.lowDen = gap.lowNum * gap.highDen + 1) :
    gap.lowNum.Coprime gap.lowDen := by
  have hcast : (gap.highNum * gap.lowDen : ℤ) = gap.lowNum * gap.highDen + 1 := by
    exact_mod_cast hneighbours
  exact Nat.isCoprime_iff_coprime.mp ⟨-gap.highDen, gap.highNum, by linarith⟩

theorem coprime_high (hneighbours : gap.highNum * gap.lowDen = gap.lowNum * gap.highDen + 1) :
    gap.highNum.Coprime gap.highDen := by
  have hcast : (gap.highNum * gap.lowDen : ℤ) = gap.lowNum * gap.highDen + 1 := by
    exact_mod_cast hneighbours
  exact Nat.isCoprime_iff_coprime.mp ⟨gap.lowDen, -gap.lowNum, by linarith⟩

end Gap

/-- A fraction `n / d` close to a ratio that lies beyond a fraction `a / b`, seen from the ratio, is
that fraction, which then is just as close. -/
theorem eq_of_close {a b n d num den : ℕ} (hpositive : 0 < d) (hbits : n < 2 ^ 25)
    (hshort : b < 2 ^ 26) (hbelow : 0 < den)
    (hbetween : (0 ≤ (b * num - a * den : ℤ) ∧ 0 ≤ (a * d - n * b : ℤ)) ∨
      ((b * num - a * den : ℤ) ≤ 0 ∧ (a * d - n * b : ℤ) ≤ 0))
    (hclose : 2 ^ 54 * |(d * num - n * den : ℤ)| ≤ 5 * (n * den)) :
    a * d = n * b ∧ 2 ^ 54 * |(b * num - a * den : ℤ)| ≤ 5 * (a * den) := by
  have hdenominator : (0 : ℤ) < den := by exact_mod_cast hbelow
  have hcount : (0 : ℤ) < d := by exact_mod_cast hpositive
  -- Over common denominators the way from the ratio to the fraction is the sum of its two parts.
  have hsum : (b : ℤ) * |(d * num - n * den : ℤ)| =
      d * |(b * num - a * den : ℤ)| + den * |(a * d - n * b : ℤ)| := by
    have hway : (b : ℤ) * (d * num - n * den) = d * (b * num - a * den) +
        den * (a * d - n * b) := by
      ring
    have hfirst : 0 ≤ (d : ℤ) := hcount.le
    calc (b : ℤ) * |(d * num - n * den : ℤ)| = |(b : ℤ) * (d * num - n * den)| := by
          rw [abs_mul, Nat.abs_cast]
      _ = |d * (b * num - a * den) + den * (a * d - n * b : ℤ)| := by rw [hway]
      _ = |d * (b * num - a * den : ℤ)| + |den * (a * d - n * b : ℤ)| := by
          refine abs_add_eq_add_abs_iff _ _ |>.mpr (hbetween.imp ?_ ?_)
          · exact fun ⟨hoffset, hbeyond⟩ => ⟨by positivity, by positivity⟩
          · exact fun ⟨hoffset, hbeyond⟩ => ⟨mul_nonpos_of_nonneg_of_nonpos hfirst hoffset,
              mul_nonpos_of_nonneg_of_nonpos hdenominator.le hbeyond⟩
      _ = d * |(b * num - a * den : ℤ)| + den * |(a * d - n * b : ℤ)| := by
          rw [abs_mul, abs_mul, Nat.abs_cast, Nat.abs_cast]
  have hscaled : 2 ^ 54 * (b * |(d * num - n * den : ℤ)|) ≤ 5 * (n * b * den) := by
    have := mul_le_mul_of_nonneg_left hclose (Int.natCast_nonneg b)
    linarith
  have hproduct : (n : ℤ) * b ≤ 2 ^ 25 * 2 ^ 26 := by
    exact_mod_cast Nat.mul_le_mul hbits.le hshort.le
  have hnonneg : (0 : ℤ) ≤ d * |(b * num - a * den : ℤ)| := by positivity
  have hsame : (a : ℤ) * d = n * b := by
    by_contra hoff
    have hone : 1 ≤ |(a * d - n * b : ℤ)| := Int.one_le_abs (sub_ne_zero.mpr hoff)
    nlinarith
  refine ⟨by exact_mod_cast hsame, le_of_mul_le_mul_left ?_ hcount⟩
  rw [hsame, sub_self, abs_zero, mul_zero, add_zero] at hsum
  calc (d : ℤ) * (2 ^ 54 * |(b * num - a * den : ℤ)|) =
        2 ^ 54 * ((b : ℤ) * |(d * num - n * den : ℤ)|) := by rw [hsum, mul_left_comm]
    _ ≤ 5 * ((n : ℤ) * b * den) := hscaled
    _ = d * (5 * ((a : ℤ) * den)) := by
        rw [← hsame]
        ring

/-! ## The exponents of the 32-bit format -/

/-- The halfway points, as bits and exponent, that a short decimal comes close to without being
equal to them. -/
def closePoints : List (ℕ × ℤ) := [(22841339, -108), (22841339, -107), (28874659, -50)]

/-- The finest decimal grid that is not finer than a power of two. -/
def coarseGrid (e : ℤ) : ℤ := -(-e * 1233 / 4096)

/-- The ratio of the grid to the power of two. -/
def gridRatio (e : ℤ) : ℕ × ℕ :=
  (10 ^ (coarseGrid e).toNat * 2 ^ (-e).toNat, 10 ^ (-coarseGrid e).toNat * 2 ^ e.toNat)

/-- Two neighbouring fractions around the ratio of the grid to the power of two. -/
def gapAround (e : ℤ) : Gap :=
  let (num, den) := gridRatio e
  Gap.narrow num den ((2 ^ 25 + 1) * den / num) 64 (.around num den)

/-- Whether an end of the gap is the ratio itself, far from it, or one of the exceptions. -/
def EndAllowed (e : ℤ) (num offset : ℕ) : Prop :=
  offset = 0 ∨ 5 * (num * (gridRatio e).2) < 2 ^ 54 * offset ∨
    2 ^ 24 ≤ num ∧ (num, e) ∈ closePoints

instance (e : ℤ) (num offset : ℕ) : Decidable (EndAllowed e num offset) := by
  unfold EndAllowed
  infer_instance

/-- What has to be looked at for an exponent: coarser grids only are in question, the gap encloses
the ratio, its denominators are short and leave no room for a short decimal between them, and its
ends are allowed. -/
def Separates (e : ℤ) : Prop :=
  2 ^ 20 * (10 ^ (coarseGrid e - 1).toNat * 2 ^ (-e).toNat) +
        2 ^ e.toNat * 10 ^ (-(coarseGrid e - 1)).toNat <
      2 ^ 20 * (2 ^ e.toNat * 10 ^ (-(coarseGrid e - 1)).toNat) ∧
    (gapAround e).Encloses (gridRatio e).1 (gridRatio e).2 ∧
    (gapAround e).lowDen < 2 ^ 26 ∧ (gapAround e).highDen < 2 ^ 26 ∧
    (2 ^ 25 + 1) * (gridRatio e).2 ≤
      ((gapAround e).lowDen + (gapAround e).highDen) * (gridRatio e).1 ∧
    EndAllowed e (gapAround e).lowNum
      ((gapAround e).lowDen * (gridRatio e).1 - (gapAround e).lowNum * (gridRatio e).2) ∧
    EndAllowed e (gapAround e).highNum
      ((gapAround e).highNum * (gridRatio e).2 - (gapAround e).highDen * (gridRatio e).1)

instance (e : ℤ) : Decidable (Separates e) := by
  unfold Separates
  infer_instance

/-- The exponents of all halfway points of the 32-bit format were looked at. -/
theorem separates_all : ∀ i : Fin 254, Separates ((i : ℕ) - 150) := by
  decide +kernel

theorem separates {e : ℤ} (hlow : -150 ≤ e) (hhigh : e ≤ 103) : Separates e := by
  have := separates_all ⟨(e + 150).toNat, by omega⟩
  simp only at this
  rwa [show (((e + 150).toNat : ℕ) : ℤ) - 150 = e by omega] at this

/-- A fraction close to the ratio that is an end of the gap is the ratio or one of the exceptions. -/
private theorem eq_or_mem_of_end {e : ℤ} {a b n d num den offset : ℕ} (hden : (gridRatio e).2 = den)
    (hallowed : EndAllowed e a offset) (hdistance : (offset : ℤ) = |(b * num - a * den : ℤ)|)
    (hlowest : a.Coprime b) (hsome : 0 < d) (hpositive : 0 < n) (hbits : n < 2 ^ 25)
    (hsame : a * d = n * b) (hnear : 2 ^ 54 * |(b * num - a * den : ℤ)| ≤ 5 * (a * den)) :
    d * num = n * den ∨ (n, e) ∈ closePoints := by
  rw [← hdistance] at hnear
  rcases hallowed with hexact | hfar | ⟨hlong, hlisted⟩
  · left
    have honRatio : b * num = a * den := by
      rw [hexact, Nat.cast_zero, eq_comm, abs_eq_zero, sub_eq_zero] at hdistance
      exact_mod_cast hdistance
    have hnonzero : 0 < b := by
      by_contra hzero
      obtain rfl : b = 0 := by omega
      rw [Nat.coprime_zero_right] at hlowest
      rw [hlowest, one_mul, mul_zero] at hsame
      omega
    refine Nat.eq_of_mul_eq_mul_left hnonzero ?_
    calc b * (d * num) = d * (b * num) := by ring
      _ = a * d * den := by rw [honRatio]; ring
      _ = b * (n * den) := by rw [hsame]; ring
  · rw [hden] at hfar
    have : 2 ^ 54 * offset ≤ 5 * (a * den) := by exact_mod_cast hnear
    omega
  · -- Twice a listed numerator is too long, so the fraction is the end without a common factor.
    right
    obtain ⟨factor, rfl⟩ : a ∣ n := hlowest.dvd_of_dvd_mul_right ⟨d, hsame.symm⟩
    have hone : factor = 1 := by
      have hlow : factor ≠ 0 := right_ne_zero_of_mul hpositive.ne'
      have hhigh : factor < 2 := by
        by_contra hmore
        have : a * 2 ≤ a * factor := Nat.mul_le_mul_left _ (by omega)
        omega
      omega
    rwa [hone, mul_one]

/-- The grid and the power of two over a common denominator. -/
theorem gridRatio_scaled (e : ℤ) :
    ∃ unit : ℚ, 0 < unit ∧ (10 : ℚ) ^ coarseGrid e * unit = (gridRatio e).1 ∧
      (2 : ℚ) ^ e * unit = (gridRatio e).2 := by
  refine ⟨10 ^ (-coarseGrid e).toNat * 2 ^ (-e).toNat, by positivity, ?_, ?_⟩
  · rw [Binary.zpow_eq_div, gridRatio]
    push_cast
    field_simp
  · rw [Binary.zpow_eq_div, gridRatio]
    push_cast
    field_simp

/-- A decimal on a grid that is hardly finer than a power of two is not on a finer grid than the
coarse one. -/
theorem coarseGrid_le {e k : ℤ} (hlow : -150 ≤ e) (hhigh : e ≤ 103)
    (hcoarse : (1 - 1 / 2 ^ 20) * 2 ^ e ≤ (10 : ℚ) ^ k) : coarseGrid e ≤ k := by
  obtain ⟨hfiner, -⟩ := separates hlow hhigh
  by_contra hless
  have hsmaller : (10 : ℚ) ^ k ≤ 10 ^ (coarseGrid e - 1) :=
    zpow_le_zpow_right₀ (by norm_num) (by omega)
  have hbound := (Nat.cast_lt (α := ℚ)).mpr hfiner
  push_cast at hbound
  have hstrict : (10 : ℚ) ^ (coarseGrid e - 1) < (1 - 1 / 2 ^ 20) * 2 ^ e := by
    rw [Binary.zpow_eq_div 10, Binary.zpow_eq_div 2, ← mul_div_assoc,
      div_lt_div_iff₀ (by positivity) (by positivity)]
    linarith
  linarith

/-- The distance of a short decimal from a halfway point as that of two fractions. -/
private theorem whole_of_close {d n num den : ℕ} {k e : ℤ} {unit : ℚ} (hpositive : 0 < unit)
    (hdecimal : (10 : ℚ) ^ k * unit = num) (hbinary : (2 : ℚ) ^ e * unit = den)
    (hclose : |(d : ℚ) * 10 ^ k - n * 2 ^ e| ≤ 5 / 2 ^ 54 * (n * 2 ^ e)) :
    2 ^ 54 * |(d * num - n * den : ℤ)| ≤ 5 * (n * den) := by
  have hratio : |(d : ℚ) * num - n * den| ≤ 5 / 2 ^ 54 * (n * den) := by
    calc |(d : ℚ) * num - n * den| = |((d : ℚ) * 10 ^ k - n * 2 ^ e) * unit| := by
          rw [← hdecimal, ← hbinary]
          ring_nf
      _ = |(d : ℚ) * 10 ^ k - n * 2 ^ e| * unit := by rw [abs_mul, abs_of_pos hpositive]
      _ ≤ 5 / 2 ^ 54 * (n * 2 ^ e) * unit := by gcongr
      _ = 5 / 2 ^ 54 * (n * den) := by rw [← hbinary]; ring
  have : (2 : ℚ) ^ 54 * |(d : ℚ) * num - n * den| ≤ 5 * (n * den) := by linarith
  exact_mod_cast this

/-- A fraction close to the ratio is not zero. -/
private theorem pos_of_close {d n num den : ℕ} (hpositive : 0 < n) (hbelow : 0 < den)
    (hclose : 2 ^ 54 * |(d * num - n * den : ℤ)| ≤ 5 * (n * den)) : 0 < d := by
  by_contra hnone
  obtain rfl : d = 0 := by omega
  have hproduct : (0 : ℤ) < n * den := by exact_mod_cast Nat.mul_pos hpositive hbelow
  rw [Nat.cast_zero, zero_mul, zero_sub, abs_neg, abs_of_pos hproduct] at hclose
  omega

/-- A fraction close to the ratio has too small a denominator to be inside of a wide gap. -/
private theorem lt_of_close {d n num den most : ℕ} (hbits : n < 2 ^ 25) (hbelow : 0 < den)
    (hwide : (2 ^ 25 + 1) * den ≤ most * num)
    (hclose : 2 ^ 54 * |(d * num - n * den : ℤ)| ≤ 5 * (n * den)) : d < most := by
  have habove : (2 : ℤ) ^ 54 * (d * num - n * den) ≤ 5 * (n * den) :=
    le_trans (by gcongr; exact le_abs_self _) hclose
  have hdenominator : (0 : ℤ) < den := by exact_mod_cast hbelow
  have hshort : (n : ℤ) < 2 ^ 25 := by exact_mod_cast hbits
  have hroom : (2 ^ 25 + 1) * (den : ℤ) ≤ most * num := by exact_mod_cast hwide
  have hless : (d : ℤ) * num < most * num := by nlinarith
  exact_mod_cast lt_of_mul_lt_mul_right hless (Int.natCast_nonneg num)

/-- A fraction with few bits and digits close to the ratio is the ratio or one of the exceptions. -/
private theorem eq_or_mem_of_close {e : ℤ} {d n num den : ℕ} (hchecked : Separates e)
    (hnum : (gridRatio e).1 = num) (hden : (gridRatio e).2 = den) (hbelow : 0 < den)
    (hpositive : 0 < n) (hbits : n < 2 ^ 25)
    (hclose : 2 ^ 54 * |(d * num - n * den : ℤ)| ≤ 5 * (n * den)) :
    d * num = n * den ∨ (n, e) ∈ closePoints := by
  obtain ⟨-, ⟨hneighbours, hlowLe, hleHigh⟩, hlowShort, hhighShort, hwide, hlowAllowed,
    hhighAllowed⟩ := hchecked
  rw [hnum, hden] at hlowLe hleHigh hwide hlowAllowed hhighAllowed
  have hsome := pos_of_close hpositive hbelow hclose
  have hfew := lt_of_close hbits hbelow hwide hclose
  have hlowOffset : (0 : ℤ) ≤ (gapAround e).lowDen * num - (gapAround e).lowNum * den :=
    sub_nonneg.mpr (by exact_mod_cast hlowLe)
  have hhighOffset : ((gapAround e).highDen * num - (gapAround e).highNum * den : ℤ) ≤ 0 :=
    sub_nonpos.mpr (by exact_mod_cast hleHigh)
  rcases Gap.le_low_or_high_le (n := n) hneighbours hfew with hside | hside
  · have hbeyond : (0 : ℤ) ≤ (gapAround e).lowNum * d - n * (gapAround e).lowDen :=
      sub_nonneg.mpr (by exact_mod_cast hside)
    obtain ⟨hsame, hnear⟩ := eq_of_close hsome hbits hlowShort hbelow
      (.inl ⟨hlowOffset, hbeyond⟩) hclose
    refine eq_or_mem_of_end hden hlowAllowed ?_ (Gap.coprime_low hneighbours) hsome hpositive hbits
      hsame hnear
    rw [abs_of_nonneg hlowOffset, Nat.cast_sub hlowLe]
    push_cast
    rfl
  · have hbeyond : ((gapAround e).highNum * d - n * (gapAround e).highDen : ℤ) ≤ 0 :=
      sub_nonpos.mpr (by exact_mod_cast hside)
    obtain ⟨hsame, hnear⟩ := eq_of_close hsome hbits hhighShort hbelow
      (.inr ⟨hhighOffset, hbeyond⟩) hclose
    refine eq_or_mem_of_end hden hhighAllowed ?_ (Gap.coprime_high hneighbours) hsome hpositive
      hbits hsame hnear
    rw [abs_of_nonpos hhighOffset, neg_sub, Nat.cast_sub hleHigh]
    push_cast
    rfl

/-- **Separation.** A decimal on a grid that is hardly finer than half the distance of the words
there and a halfway point of the 32-bit format are equal or well apart, up to the exceptions. -/
theorem eq_or_mem_closePoints {d n : ℕ} {k e : ℤ} (hlow : -150 ≤ e) (hhigh : e ≤ 103)
    (hpositive : 0 < n) (hbits : n < 2 ^ 25) (hcoarse : (1 - 1 / 2 ^ 20) * 2 ^ e ≤ (10 : ℚ) ^ k)
    (hclose : |(d : ℚ) * 10 ^ k - n * 2 ^ e| ≤ 5 / 2 ^ 54 * (n * 2 ^ e)) :
    (d : ℚ) * 10 ^ k = n * 2 ^ e ∨ (n, e) ∈ closePoints := by
  have hgrid := coarseGrid_le hlow hhigh hcoarse
  obtain ⟨unit, hunitPositive, hdecimal, hbinary⟩ := gridRatio_scaled e
  have hbelow : 0 < (gridRatio e).2 := by
    simp only [gridRatio]
    positivity
  -- On the coarse grid the decimal has as many more digits as its own grid is coarser.
  obtain ⟨j, rfl⟩ : ∃ j : ℕ, k = coarseGrid e + j := ⟨(k - coarseGrid e).toNat, by omega⟩
  have hdigits : (d : ℚ) * 10 ^ (coarseGrid e + j) = (d * 10 ^ j : ℕ) * 10 ^ coarseGrid e := by
    rw [zpow_add₀ (by norm_num), zpow_natCast]
    push_cast
    ring
  rw [hdigits] at hclose ⊢
  have hwhole := whole_of_close hunitPositive hdecimal hbinary hclose
  refine (eq_or_mem_of_close (separates hlow hhigh) rfl rfl hbelow hpositive hbits hwhole).imp_left
    fun hexact => ?_
  refine mul_right_cancel₀ hunitPositive.ne' ?_
  rw [mul_assoc, mul_assoc, hdecimal, hbinary]
  exact_mod_cast hexact

end RaceIngest.Decimal
