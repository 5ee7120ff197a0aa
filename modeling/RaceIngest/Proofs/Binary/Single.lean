import RaceIngest.Binary.Single
import RaceIngest.Proofs.Binary.Rounding

/-!
# Words and the numbers they round

A finite word is its sign and its magnitude, and every magnitude of the 32-bit format is the
magnitude of one word up to the sign. So a ratio is rounded to a word exactly when it lies between
the halfway points of the word's magnitude, up to the halfway points themselves, whose rounding
depends on the last bit.

## Main statements

* `Single.ofMagnitude_magnitude`: a finite word from its sign and magnitude,
* `Single.nearest_of_between`: strictly between the halfway points a ratio is rounded to the word,
* `Single.between_of_nearest`: a ratio that is rounded to a word lies between its halfway points.
-/

namespace RaceIngest.Single

open Binary

/-- The word without its sign. -/
def unsigned (x : Single) : Single := ⟨x.bits &&& 0x7fffffff⟩

theorem toNat_bits_unsigned (x : Single) : x.unsigned.bits.toNat = x.absBits := by
  simp only [unsigned, absBits, UInt32.toNat_and]
  exact Nat.and_two_pow_sub_one_eq_mod _ 31

@[simp] theorem absBits_unsigned (x : Single) : x.unsigned.absBits = x.absBits := by
  rw [absBits, toNat_bits_unsigned, absBits, Nat.mod_mod]

@[simp] theorem magnitude_unsigned (x : Single) : x.unsigned.magnitude = x.magnitude := by
  simp [magnitude]

@[simp] theorem isFinite_unsigned (x : Single) : x.unsigned.isFinite = x.isFinite := by
  simp [isFinite]

@[simp] theorem isNegative_unsigned (x : Single) : x.unsigned.isNegative = false := by
  have : x.absBits < 2 ^ 31 := Nat.mod_lt _ (by norm_num)
  simp only [isNegative, toNat_bits_unsigned, decide_eq_false_iff_not]
  omega

/-- The bits of a word are its sign and the rest. -/
theorem toNat_bits (x : Single) :
    x.bits.toNat = if x.isNegative then 2 ^ 31 + x.absBits else x.absBits := by
  have := x.bits.toNat_lt
  simp only [isNegative, absBits, decide_eq_true_eq]
  split <;> omega

/-- The word without its sign, from a magnitude. -/
def wordOf (value : Magnitude) : ℕ :=
  if value.mantissa = 0 then 0 else (value.exponent + 149).toNat * 2 ^ 23 + value.mantissa

theorem ofMagnitude_some (negative : Bool) (value : Magnitude) :
    ofMagnitude negative (some value) =
      ⟨UInt32.ofNat (if negative then 2 ^ 31 + wordOf value else wordOf value)⟩ := by
  obtain ⟨mantissa, exponent⟩ := value
  cases mantissa with
  | zero => rfl
  | succ mantissa => rfl

/-- The word of the magnitude of a finite word. -/
theorem wordOf_magnitude (x : Single) : wordOf x.magnitude = x.absBits := by
  have hparts := Nat.div_add_mod x.absBits (2 ^ 23)
  unfold magnitude
  by_cases hsmall : x.absBits / 2 ^ 23 = 0
  · simp only [hsmall, if_true, wordOf]
    split <;> omega
  · simp only [hsmall, if_false, wordOf]
    have hmantissa : x.absBits % 2 ^ 23 + 2 ^ 23 ≠ 0 := by omega
    have hexponent : ((x.absBits / 2 ^ 23 : ℕ) - 150 + 149 : ℤ).toNat = x.absBits / 2 ^ 23 - 1 := by
      omega
    rw [if_neg hmantissa, hexponent]
    omega

/-- A word is its sign and its magnitude. -/
theorem ofMagnitude_magnitude (x : Single) : ofMagnitude x.isNegative (some x.magnitude) = x := by
  have hbits := x.toNat_bits
  rw [ofMagnitude_some, wordOf_magnitude, ← hbits]
  simp

theorem normal_magnitude {x : Single} (hfinite : x.isFinite = true) :
    Format.single.Normal x.magnitude := by
  have hfraction : x.absBits % 2 ^ 23 < 2 ^ 23 := Nat.mod_lt _ (by norm_num)
  have hexponent : x.absBits / 2 ^ 23 < 255 := by
    have : x.absBits < 0x7f800000 := of_decide_eq_true hfinite
    omega
  unfold magnitude
  simp only [Format.single]
  split
  · exact ⟨by simp only; omega, by simp, by simp, .inr rfl⟩
  · exact ⟨by simp only; omega, by simp only; omega, by simp only; omega, .inl (by simp only; omega)⟩

theorem magnitude_pos {x : Single} (hnonzero : x.absBits ≠ 0) : 0 < x.magnitude.mantissa := by
  have hparts := Nat.div_add_mod x.absBits (2 ^ 23)
  unfold magnitude
  simp only
  split
  · show 0 < x.absBits % 2 ^ 23
    omega
  · show 0 < x.absBits % 2 ^ 23 + 2 ^ 23
    omega

/-- A magnitude of the format is given by its word. -/
theorem eq_of_wordOf_eq {a b : Magnitude} (hleft : Format.single.Normal a)
    (hright : Format.single.Normal b) (hleftPositive : 0 < a.mantissa)
    (hrightPositive : 0 < b.mantissa) (hsame : wordOf a = wordOf b) : a = b := by
  obtain ⟨m, q⟩ := a
  obtain ⟨m', q'⟩ := b
  obtain ⟨hmLt, hqLow, hqHigh, hmFull⟩ := hleft
  obtain ⟨hmLt', hqLow', hqHigh', hmFull'⟩ := hright
  simp only [Format.single] at *
  simp only [wordOf, hleftPositive.ne', hrightPositive.ne', if_false] at hsame
  simp only [Magnitude.mk.injEq]
  omega

theorem wordOf_lt {a : Magnitude} (hnormal : Format.single.Normal a) : wordOf a < 2 ^ 31 := by
  obtain ⟨m, q⟩ := a
  obtain ⟨hmLt, hqLow, hqHigh, hmFull⟩ := hnormal
  simp only [Format.single] at *
  show (if m = 0 then 0 else (q + 149).toNat * 2 ^ 23 + m) < 2 ^ 31
  split <;> omega

variable {num den : ℕ}

/-- The sign of a word that is rounded to does not matter. -/
theorem nearest_of_unsigned {x : Single} (hresult : nearest false num den = x.unsigned) :
    nearest x.isNegative num den = x := by
  obtain ⟨word, hshape⟩ : ∃ word : ℕ, ∀ negative, nearest negative num den =
      ⟨UInt32.ofNat (if negative then 2 ^ 31 + word else word)⟩ := ⟨_, fun _ => rfl⟩
  have hbits := congrArg (fun y => y.bits.toNat) hresult
  rw [hshape] at hbits ⊢
  simp only [Bool.false_eq_true, if_false, UInt32.toNat_ofNat', toNat_bits_unsigned] at hbits
  have hparts := x.toNat_bits
  have hsmall : x.absBits < 2 ^ 31 := Nat.mod_lt _ (by norm_num)
  have hsame : UInt32.ofNat (if x.isNegative then 2 ^ 31 + word else word) = x.bits := by
    rw [← UInt32.toNat_inj, UInt32.toNat_ofNat', hparts]
    split <;> omega
  rw [hsame]

/-- Strictly between the halfway points of a word a ratio is rounded to it. -/
theorem nearest_of_between (htop : 0 < num) (hbelow : 0 < den) {x : Single}
    (hfinite : x.isFinite = true) (hnonzero : x.absBits ≠ 0)
    (hlower : (Format.single.halfwayBelow x.magnitude).toRat < num / den)
    (hupper : (num : ℚ) / den < (Format.halfwayAbove x.magnitude).toRat) :
    nearest x.isNegative num den = x := by
  rw [nearest, Format.round_of_between Format.single (by decide) htop hbelow
    (normal_magnitude hfinite) (magnitude_pos hnonzero) hlower hupper, ofMagnitude_magnitude]

/-- A ratio that is rounded to a word lies between its halfway points. -/
theorem between_of_nearest (htop : 0 < num) (hbelow : 0 < den) {x : Single}
    (hfinite : x.isFinite = true) (hnonzero : x.absBits ≠ 0)
    (hresult : nearest false num den = x.unsigned) :
    (Format.single.halfwayBelow x.magnitude).toRat ≤ num / den ∧
      (num : ℚ) / den ≤ (Format.halfwayAbove x.magnitude).toRat := by
  have hbits := congrArg (fun y => y.bits.toNat) hresult
  simp only [toNat_bits_unsigned, nearest] at hbits
  cases hrounded : Format.single.round num den with
  | none =>
      rw [hrounded] at hbits
      have hinfinite : x.absBits = infinityBits := hbits.symm
      simp [isFinite, hinfinite] at hfinite
  | some y =>
      rw [hrounded, ofMagnitude_some] at hbits
      simp only [Bool.false_eq_true, if_false, UInt32.toNat_ofNat'] at hbits
      have hpositive : 0 < y.mantissa := by
        by_contra hzero
        have : wordOf y = 0 := if_pos (by omega)
        rw [this] at hbits
        exact hnonzero hbits.symm
      have hbounds := Format.between_of_round Format.single (by decide) htop hbelow hrounded
        hpositive
      have hsmall := wordOf_lt hbounds.1
      have hsame : y = x.magnitude := by
        apply eq_of_wordOf_eq hbounds.1 (normal_magnitude hfinite) hpositive
          (magnitude_pos hnonzero)
        rw [wordOf_magnitude]
        omega
      rw [← hsame]
      exact hbounds.2

end RaceIngest.Single
