import Mathlib.Algebra.Ring.Parity
import Mathlib.Algebra.Order.Ring.Nat
import RaceIngest.Proofs.Decimal.Reading
import RaceIngest.Proofs.Decimal.Separation

/-!
# Words survive their decimals

The shortest decimal of a word lies between the halfway points of the word, and it is read with a
relative error of hardly more than two roundings of the 64-bit format. Reading it gives the word
back as long as that error does not carry it over a halfway point. It cannot: the decimal is either
equal to a halfway point, and then so small a multiple of a power of ten that it is read exactly, or
it is well apart from it (`eq_or_mem_closePoints`), or the word is next to one of three halfway
points, and these few words are read back one by one.

## Main statement

* `Single.toSingle?_toNumeral?`: every finite word is read back from the numeral that writes it.
-/

namespace RaceIngest.Decimal

open Binary

/-- A halfway point of a word: an odd number of half or quarter steps, one of these away from the
word. -/
structure Halfway (x : Single) (b : Magnitude) : Prop where
  odd : b.mantissa % 2 = 1
  bits : b.mantissa < 2 ^ 25
  low : -150 ≤ b.exponent
  high : b.exponent ≤ 103
  apart : |b.toRat - x.magnitude.toRat| = 2 ^ b.exponent

variable {x : Single}

theorem halfway_above (hfinite : x.isFinite = true) :
    Halfway x (Format.halfwayAbove x.magnitude) := by
  obtain ⟨hmantissa, hlow, hhigh, -⟩ := Single.normal_magnitude hfinite
  simp only [Format.single] at hmantissa hlow hhigh
  refine ⟨?_, ?_, ?_, ?_, ?_⟩
  · simp only [Format.halfwayAbove]
    omega
  · simp only [Format.halfwayAbove]
    omega
  · simp only [Format.halfwayAbove]
    omega
  · simp only [Format.halfwayAbove]
    omega
  · rw [Format.toRat_halfwayAbove, Magnitude.toRat, Format.halfwayAbove,
      zpow_sub_one₀ (by norm_num), ← sub_mul, add_sub_cancel_left, abs_of_pos (by positivity)]
    ring

theorem halfway_below (hfinite : x.isFinite = true) (hnonzero : x.absBits ≠ 0) :
    Halfway x (Format.single.halfwayBelow x.magnitude) := by
  obtain ⟨hmantissa, hlow, hhigh, -⟩ := Single.normal_magnitude hfinite
  have hpositive := Single.magnitude_pos hnonzero
  have hvalue := Format.toRat_halfwayBelow Format.single hpositive
  simp only [Format.single] at hmantissa hlow hhigh
  by_cases hpower : x.magnitude.mantissa = 2 ^ (Format.single.precision - 1) ∧
      Format.single.minExponent < x.magnitude.exponent
  · have hshape : Format.single.halfwayBelow x.magnitude =
        ⟨4 * x.magnitude.mantissa - 1, x.magnitude.exponent - 2⟩ := if_pos hpower
    have hfull : x.magnitude.mantissa = 2 ^ 23 := hpower.1
    have habove : -149 < x.magnitude.exponent := hpower.2
    rw [if_pos hpower, hshape] at hvalue
    rw [hshape]
    refine ⟨by simp only; omega, by simp only; omega, by simp only; omega, by simp only; omega, ?_⟩
    rw [hvalue, Magnitude.toRat, ← sub_mul, zpow_sub₀ (by norm_num), abs_mul,
      abs_of_pos (show (0 : ℚ) < 2 ^ x.magnitude.exponent by positivity)]
    norm_num
    ring
  · have hshape : Format.single.halfwayBelow x.magnitude =
        ⟨2 * x.magnitude.mantissa - 1, x.magnitude.exponent - 1⟩ := if_neg hpower
    rw [if_neg hpower, hshape] at hvalue
    rw [hshape]
    refine ⟨by simp only; omega, by simp only; omega, by simp only; omega, by simp only; omega, ?_⟩
    rw [hvalue, Magnitude.toRat, ← sub_mul, zpow_sub_one₀ (by norm_num), abs_mul,
      abs_of_pos (show (0 : ℚ) < 2 ^ x.magnitude.exponent by positivity)]
    norm_num
    ring

variable {d : Scaled} {b : Magnitude}

/-- A short decimal is a halfway point of its word, or well apart from it, up to the exceptions. -/
theorem Halfway.eq_or_far (hhalfway : Halfway x b)
    (hclose : |d.toRat - x.magnitude.toRat| ≤ 10 ^ d.exponent) :
    d.toRat = b.toRat ∨ 5 / 2 ^ 54 * b.toRat < |d.toRat - b.toRat| ∨
      (b.mantissa, b.exponent) ∈ closePoints := by
  by_cases hnear : |d.toRat - b.toRat| ≤ 5 / 2 ^ 54 * b.toRat
  · have hunit : (0 : ℚ) < 2 ^ b.exponent := by positivity
    have hbits : (b.mantissa : ℚ) < 2 ^ 25 := by exact_mod_cast hhalfway.bits
    have hcoarse : (1 - 1 / 2 ^ 20) * 2 ^ b.exponent ≤ (10 : ℚ) ^ d.exponent := by
      have htriangle : (2 : ℚ) ^ b.exponent ≤ 10 ^ d.exponent + 5 / 2 ^ 54 * b.toRat := by
        calc (2 : ℚ) ^ b.exponent = |b.toRat - x.magnitude.toRat| := hhalfway.apart.symm
          _ = |(d.toRat - x.magnitude.toRat) - (d.toRat - b.toRat)| := by ring_nf
          _ ≤ |d.toRat - x.magnitude.toRat| + |d.toRat - b.toRat| := abs_sub _ _
          _ ≤ _ := add_le_add hclose hnear
      have hsmall : b.toRat ≤ 2 ^ 25 * 2 ^ b.exponent := by
        rw [Magnitude.toRat]
        gcongr
      linarith
    rcases eq_or_mem_closePoints hhalfway.low hhalfway.high
      (Nat.pos_of_ne_zero fun hzero => by simpa [hzero] using hhalfway.odd)
      hhalfway.bits hcoarse hnear with hsame | hlisted
    · exact .inl hsame
    · exact .inr (.inr hlisted)
  · exact .inr (.inl (not_le.mp hnear))

/-- An odd number of binary fractions that is a decimal fraction has as many places as the decimal at
most. -/
theorem places_le_of_odd {digits n i j : ℕ} (hodd : Odd n) (hcross : digits * 2 ^ i = n * 10 ^ j) :
    i ≤ j := by
  by_contra hmany
  obtain ⟨t, rfl⟩ : ∃ t, i = j + (t + 1) := ⟨i - j - 1, by omega⟩
  have heven : n * 5 ^ j = 2 * (digits * 2 ^ t) := by
    apply Nat.eq_of_mul_eq_mul_right (show 0 < 2 ^ j by positivity)
    calc n * 5 ^ j * 2 ^ j = n * 10 ^ j := by
          rw [show (10 : ℕ) = 5 * 2 by norm_num, mul_pow, mul_assoc]
      _ = digits * 2 ^ (j + (t + 1)) := hcross.symm
      _ = 2 * (digits * 2 ^ t) * 2 ^ j := by ring
  have : Odd (n * 5 ^ j) := hodd.mul (Odd.pow (by decide))
  rw [heven, Nat.odd_iff] at this
  omega

/-- A decimal that is a multiple of a power of ten has the fives of that power. -/
theorem pow_five_le_of_eq {digits n k i j : ℕ} (hpositive : 0 < n)
    (hcross : digits * 10 ^ k * 2 ^ i = n * 2 ^ j) : 5 ^ k ≤ n := by
  have hdivides : 5 ^ k ∣ n * 2 ^ j := by
    refine ⟨digits * 2 ^ k * 2 ^ i, ?_⟩
    rw [← hcross, show (10 : ℕ) = 5 * 2 by norm_num, mul_pow]
    ring
  have hcoprime : Nat.Coprime (5 ^ k) (2 ^ j) := Nat.Coprime.pow _ _ (by decide)
  exact Nat.le_of_dvd hpositive (hcoprime.dvd_of_dvd_mul_right hdivides)

/-- A short decimal that is a halfway point is an integer: with places after the point it has as many
binary places as decimal ones at most, and steps of such a size are coarser than the grid. -/
theorem Halfway.exponent_nonneg (hhalfway : Halfway x b)
    (hclose : |d.toRat - x.magnitude.toRat| ≤ 10 ^ d.exponent) (hsame : d.toRat = b.toRat) :
    0 ≤ d.exponent := by
  have hstep : (2 : ℚ) ^ b.exponent ≤ 10 ^ d.exponent := by
    rw [← hhalfway.apart, ← hsame]
    exact hclose
  simp only [Scaled.toRat, Magnitude.toRat] at hsame
  by_contra hnegative
  obtain ⟨j, hexponent⟩ : ∃ j : ℕ, d.exponent = -(j + 1 : ℕ) := ⟨(-d.exponent - 1).toNat, by omega⟩
  rw [hexponent, zpow_neg, zpow_natCast] at hsame hstep
  have hbelow : b.exponent < 0 := by
    have : (2 : ℚ) ^ b.exponent < 2 ^ (0 : ℤ) := by
      rw [zpow_zero]
      exact hstep.trans_lt (inv_lt_one_of_one_lt₀ (one_lt_pow₀ (by norm_num) (by omega)))
    exact (zpow_lt_zpow_iff_right₀ (by norm_num)).mp this
  obtain ⟨i, hplaces⟩ : ∃ i : ℕ, b.exponent = -i := ⟨(-b.exponent).toNat, by omega⟩
  rw [hplaces, zpow_neg, zpow_natCast] at hsame hstep
  have hfine : (10 : ℕ) ^ (j + 1) ≤ 2 ^ i := by
    rw [inv_le_inv₀ (by positivity) (by positivity)] at hstep
    exact_mod_cast hstep
  have hcross : d.significand * 2 ^ i = b.mantissa * 10 ^ (j + 1) := by
    rw [← div_eq_mul_inv, ← div_eq_mul_inv, div_eq_div_iff (by positivity) (by positivity)] at hsame
    exact_mod_cast hsame
  have hfew : i ≤ j + 1 := places_le_of_odd (Nat.odd_iff.mpr hhalfway.odd) hcross
  have : 2 ^ i ≤ 2 ^ (j + 1) := Nat.pow_le_pow_right (by norm_num) hfew
  have : 2 ^ (j + 1) < 10 ^ (j + 1) := Nat.pow_lt_pow_left (by norm_num) (by omega)
  omega

/-- A short decimal that is a halfway point is an integer times a small power of ten. -/
theorem Halfway.exponent_le (hhalfway : Halfway x b) (hnatural : 0 ≤ d.exponent)
    (hsame : d.toRat = b.toRat) : d.exponent ≤ 10 := by
  simp only [Scaled.toRat, Magnitude.toRat] at hsame
  obtain ⟨k, hexponent⟩ := Int.eq_ofNat_of_zero_le hnatural
  rw [hexponent] at hsame ⊢
  have hcross : d.significand * 10 ^ k * 2 ^ (-b.exponent).toNat =
      b.mantissa * 2 ^ b.exponent.toNat := by
    rw [zpow_natCast, zpow_eq_div, ← mul_div_assoc, eq_div_iff (by positivity)] at hsame
    exact_mod_cast hsame
  have hleast : 5 ^ k ≤ b.mantissa := pow_five_le_of_eq (Nat.odd_iff.mpr hhalfway.odd).pos hcross
  have hbits := hhalfway.bits
  by_contra hmore
  have : 5 ^ 11 ≤ 5 ^ k := Nat.pow_le_pow_right (by norm_num) (by omega)
  omega

theorem Halfway.pos (hhalfway : Halfway x b) : 0 < b.toRat := by
  have : (0 : ℚ) < b.mantissa := by exact_mod_cast (Nat.odd_iff.mpr hhalfway.odd).pos
  rw [Magnitude.toRat]
  positivity

/-! ## Reading a short decimal back -/

/-- A value that is read with a small error stays on its side of a point that is well apart. -/
theorem side_of_far {v y point : ℚ} (hfar : 5 / 2 ^ 54 * point < |v - point|)
    (herror : |y - v| ≤ 9 / 2 ^ 55 * v) : (v < point → y < point) ∧ (point < v → point < y) := by
  obtain ⟨hlower, hupper⟩ := abs_le.mp herror
  constructor
  · intro hless
    rw [abs_of_neg (by linarith)] at hfar
    linarith
  · intro hmore
    rw [abs_of_pos (by linarith)] at hfar
    linarith

theorem Halfway.ne_of_far (hhalfway : Halfway x b) {v : ℚ}
    (hfar : 5 / 2 ^ 54 * b.toRat < |v - b.toRat|) : v ≠ b.toRat := by
  rintro rfl
  have := hhalfway.pos
  rw [sub_self, abs_zero] at hfar
  linarith

/-- What a short decimal is read as: it is close to the decimal, and the decimal itself if that is an
integer with a small power of ten and a number of the 64-bit format. -/
structure Nearby (d : Scaled) (y : Magnitude) : Prop where
  error : |y.toRat - d.toRat| ≤ 9 / 2 ^ 55 * d.toRat
  kept : 0 ≤ d.exponent → d.exponent ≤ 10 → ∀ (m : ℕ) (z : ℤ), m < 2 ^ 53 → -1074 ≤ z →
    d.toRat = m * 2 ^ z → y.toRat = d.toRat

theorem Nearby.pos {y : Magnitude} (hnearby : Nearby d y) (hpositive : 0 < d.significand) :
    0 < y.toRat := by
  have hvalue : 0 < d.toRat := by
    have : (0 : ℚ) < d.significand := by exact_mod_cast hpositive
    rw [Scaled.toRat]
    positivity
  have := (abs_le.mp hnearby.error).1
  linarith

/-- A numeral is read close to the scaled number that it writes. -/
theorem exists_nearby {n : Numeral} {significand : ℕ} {exponent : ℤ}
    (hregained : Layout.Regained n d significand exponent) :
    ∃ y, n.toDouble? = some y ∧ Nearby d y := by
  obtain ⟨hreading, hpositive, hsmall, hlow, hhigh, hvalue, hintegral⟩ := hregained
  obtain ⟨y, hread, herror, hexact⟩ := exists_scale hpositive hsmall hlow hhigh
  rw [hvalue] at herror hexact
  refine ⟨y, by rw [hreading.toDouble, hread], herror, fun hnatural hfew => hexact ?_⟩
  have hbounds := hintegral hnatural
  rw [abs_le]
  omega

variable {y : Magnitude}

/-- A short decimal that is a halfway point is read exactly, so it rounds as it did when it was
chosen. -/
theorem Halfway.nearest_of_eq (hhalfway : Halfway x b) (hshort : IsShortest x d)
    (hnearby : Nearby d y) (hsame : d.toRat = b.toRat) :
    Single.nearest x.isNegative y.ratio.1 y.ratio.2 = x := by
  have hnatural := hhalfway.exponent_nonneg hshort.close hsame
  have hbits := hhalfway.bits
  have hlow := hhalfway.low
  have hkept : y.toRat = d.toRat :=
    hnearby.kept hnatural (hhalfway.exponent_le hnatural hsame) b.mantissa b.exponent (by omega)
      (by omega) hsame
  have htop : 0 < d.ratio.1 := by
    have := hshort.positive
    simp only [Scaled.ratio]
    positivity
  have hrounded : Format.single.round y.ratio.1 y.ratio.2 =
      Format.single.round d.ratio.1 d.ratio.2 := by
    apply Format.single.round_congr (Magnitude.numerator_pos (hnearby.pos hshort.positive))
      y.ratio_pos htop d.ratio_pos
    rw [Magnitude.ratio_eq, Scaled.ratio_eq, hkept]
  apply Single.nearest_of_unsigned
  rw [← hshort.reads, Single.nearest, Single.nearest, hrounded]

/-- A short decimal well apart from both halfway points of its word is read between them. -/
theorem nearest_of_far (hfinite : x.isFinite = true) (hnonzero : x.absBits ≠ 0)
    (hshort : IsShortest x d) (hnearby : Nearby d y)
    (hfarAbove : 5 / 2 ^ 54 * (Format.halfwayAbove x.magnitude).toRat <
      |d.toRat - (Format.halfwayAbove x.magnitude).toRat|)
    (hfarBelow : 5 / 2 ^ 54 * (Format.single.halfwayBelow x.magnitude).toRat <
      |d.toRat - (Format.single.halfwayBelow x.magnitude).toRat|) :
    Single.nearest x.isNegative y.ratio.1 y.ratio.2 = x := by
  have htop : 0 < d.ratio.1 := by
    have := hshort.positive
    simp only [Scaled.ratio]
    positivity
  obtain ⟨hlower, hupper⟩ := Single.between_of_nearest htop d.ratio_pos hfinite hnonzero
    hshort.reads
  rw [Scaled.ratio_eq] at hlower hupper
  have habove : d.toRat < (Format.halfwayAbove x.magnitude).toRat :=
    lt_of_le_of_ne hupper ((halfway_above hfinite).ne_of_far hfarAbove)
  have hbelow : (Format.single.halfwayBelow x.magnitude).toRat < d.toRat :=
    lt_of_le_of_ne hlower ((halfway_below hfinite hnonzero).ne_of_far hfarBelow).symm
  apply Single.nearest_of_between (Magnitude.numerator_pos (hnearby.pos hshort.positive))
    y.ratio_pos hfinite hnonzero
  · rw [Magnitude.ratio_eq]
    exact (side_of_far hfarBelow hnearby.error).2 hbelow
  · rw [Magnitude.ratio_eq]
    exact (side_of_far hfarAbove hnearby.error).1 habove

/-- What a short decimal is read as, rounded to the 32-bit format, is the word, unless the word is
next to an exception. -/
theorem nearest_of_nearby (hfinite : x.isFinite = true) (hnonzero : x.absBits ≠ 0)
    (hshort : IsShortest x d) (hnearby : Nearby d y)
    (haboveUnlisted : ((Format.halfwayAbove x.magnitude).mantissa,
      (Format.halfwayAbove x.magnitude).exponent) ∉ closePoints)
    (hbelowUnlisted : ((Format.single.halfwayBelow x.magnitude).mantissa,
      (Format.single.halfwayBelow x.magnitude).exponent) ∉ closePoints) :
    Single.nearest x.isNegative y.ratio.1 y.ratio.2 = x := by
  have habove := halfway_above hfinite
  have hbelow := halfway_below hfinite hnonzero
  rcases habove.eq_or_far hshort.close with hsame | hfarAbove | hlisted
  · exact habove.nearest_of_eq hshort hnearby hsame
  · rcases hbelow.eq_or_far hshort.close with hsame | hfarBelow | hlisted
    · exact hbelow.nearest_of_eq hshort hnearby hsame
    · exact nearest_of_far hfinite hnonzero hshort hnearby hfarAbove hfarBelow
    · exact absurd hlisted hbelowUnlisted
  · exact absurd hlisted haboveUnlisted

/-! ## The exceptions -/

/-- The words next to the exceptional halfway points, without their signs. -/
def closeWords : List ℕ :=
  closePoints.flatMap fun (n, e) =>
    [(e + 150).toNat * 2 ^ 23 + (n - 1) / 2, (e + 150).toNat * 2 ^ 23 + (n + 1) / 2]

/-- The words next to the exceptional halfway points are read back. -/
theorem read_closeWords : ∀ w ∈ closeWords, ∀ negative : Bool,
    let x : Single := ⟨UInt32.ofNat (if negative then 2 ^ 31 + w else w)⟩
    x.toNumeral?.bind Numeral.toSingle? = some x := by
  decide +kernel

theorem mem_closeWords (hnonzero : x.absBits ≠ 0)
    (hlisted : ((Format.halfwayAbove x.magnitude).mantissa,
        (Format.halfwayAbove x.magnitude).exponent) ∈ closePoints ∨
      ((Format.single.halfwayBelow x.magnitude).mantissa,
        (Format.single.halfwayBelow x.magnitude).exponent) ∈ closePoints) :
    x.absBits ∈ closeWords := by
  have hword := x.wordOf_magnitude
  have hpositive := Single.magnitude_pos hnonzero
  rw [Single.wordOf, if_neg hpositive.ne'] at hword
  rw [← hword]
  have hneighbour : ∃ n e, (n, e) ∈ closePoints ∧ x.magnitude.exponent = e + 1 ∧
      (2 * x.magnitude.mantissa + 1 = n ∨ 2 * x.magnitude.mantissa = n + 1) := by
    rcases hlisted with habove | hbelow
    · exact ⟨_, _, habove, by simp [Format.halfwayAbove], .inl rfl⟩
    · by_cases hpower : x.magnitude.mantissa = 2 ^ (Format.single.precision - 1) ∧
          Format.single.minExponent < x.magnitude.exponent
      · have hshape : Format.single.halfwayBelow x.magnitude =
            ⟨4 * x.magnitude.mantissa - 1, x.magnitude.exponent - 2⟩ := if_pos hpower
        rw [hshape, hpower.1] at hbelow
        have hunlisted : ∀ point ∈ closePoints,
            point.1 ≠ 4 * 2 ^ (Format.single.precision - 1) - 1 := by
          decide
        exact absurd rfl (hunlisted _ hbelow)
      · have hshape : Format.single.halfwayBelow x.magnitude =
            ⟨2 * x.magnitude.mantissa - 1, x.magnitude.exponent - 1⟩ := if_neg hpower
        rw [hshape] at hbelow
        exact ⟨_, _, hbelow, by simp only; omega, .inr (by simp only; omega)⟩
  obtain ⟨n, e, hpoint, hexponent, hmantissa⟩ := hneighbour
  refine List.mem_flatMap.mpr ⟨(n, e), hpoint, ?_⟩
  rw [hexponent, show e + 1 + 149 = e + 150 by omega]
  simp only [List.mem_cons, List.not_mem_nil, or_false]
  omega

end RaceIngest.Decimal

/-! ## All finite words -/

namespace RaceIngest.Single

open Binary Decimal

/-- The numeral of a zero is read as the zero with its sign. -/
theorem toSingle?_zero : ∀ negative : Bool,
    Numeral.toSingle? { negative, whole := [0], fraction := [0] } =
      some ⟨UInt32.ofNat (if negative then 2 ^ 31 else 0)⟩ := by
  decide +kernel

theorem eq_of_absBits {x : Single} {w : ℕ} (hsame : x.absBits = w) :
    x = ⟨UInt32.ofNat (if x.isNegative then 2 ^ 31 + w else w)⟩ := by
  rw [← hsame, ← x.toNat_bits]
  simp

/-- **Every finite word is read back from the numeral that writes it.** -/
theorem toSingle?_toNumeral? {x : Single} (hfinite : x.isFinite = true) :
    x.toNumeral?.bind Numeral.toSingle? = some x := by
  by_cases hzero : x.absBits = 0
  · rw [toNumeral?, if_pos hfinite, if_pos hzero, Option.bind_some, toSingle?_zero]
    exact congrArg some (eq_of_absBits hzero).symm
  by_cases hexceptional : ((Format.halfwayAbove x.magnitude).mantissa,
        (Format.halfwayAbove x.magnitude).exponent) ∈ closePoints ∨
      ((Format.single.halfwayBelow x.magnitude).mantissa,
        (Format.single.halfwayBelow x.magnitude).exponent) ∈ closePoints
  · have hread := read_closeWords _ (mem_closeWords hzero hexceptional) x.isNegative
    rwa [← eq_of_absBits rfl] at hread
  · obtain ⟨haboveUnlisted, hbelowUnlisted⟩ := not_or.mp hexceptional
    have hshort := isShortest_shortest hfinite hzero
    obtain ⟨significand, exponent, hregained⟩ := Layout.exists_regained x.isNegative hshort.positive
      hshort.digits hshort.least_le hshort.le_most
    obtain ⟨y, hread, hnearby⟩ := exists_nearby hregained
    have hnearest := nearest_of_nearby hfinite hzero hshort hnearby haboveUnlisted hbelowUnlisted
    rw [toNumeral?, if_pos hfinite, if_neg hzero, Option.bind_some, Numeral.toSingle?,
      hregained.reading.notInteger]
    simp only [hread, Option.map_some, Layout.negative_numeral, hnearest]

end RaceIngest.Single
