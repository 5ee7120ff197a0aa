import Mathlib.Tactic.Ring
import RaceIngest.Uuid

/-!
# Written identifiers are read back

The hyphens of an identifier stand at fixed places, so taking it apart gives its 32 digits, and
these write its number: it has 128 bits.

## Main statements

* `Hex.number?_digits`: the number that the lowest digits of a number write,
* `Uuid.parse?_chars`: an identifier is read back.
-/

namespace RaceIngest.Text.Hex

theorem number?_append (start : Nat) (first second : List Char) :
    number? start (first ++ second) = (number? start first).bind (number? · second) := by
  induction first generalizing start with
  | nil => rfl
  | cons c first ih =>
      rw [List.cons_append, number?, number?]
      cases digitValue? c with
      | none => rfl
      | some d => exact ih _

/-- The lowest digits of a number write its remainder. -/
theorem number?_digits (count start n : Nat) :
    number? start (digits count n) = some (start * 16 ^ count + n % 16 ^ count) := by
  induction count generalizing n with
  | zero => simp [digits, number?, Nat.mod_one]
  | succ count ih =>
      have hlast := digitValue?_digitChar ⟨n % 16, Nat.mod_lt n (by decide)⟩
      simp only at hlast
      have hsplit : n % 16 ^ (count + 1) = n % 16 + 16 * (n / 16 % 16 ^ count) := by
        rw [Nat.pow_succ, Nat.mul_comm, Nat.mod_mul]
      rw [digits, number?_append, ih, Option.bind_some, number?, hlast, Option.bind_some,
        number?, hsplit, Nat.pow_succ]
      congr 1
      ring

end RaceIngest.Text.Hex

namespace RaceIngest.Uuid

open Text.Hex

/-- Five groups of digits joined by hyphens are taken apart again. -/
theorem unhyphenated?_groups {a b c d e : List Char} (hfirst : a.length = 8)
    (hsecond : b.length = 4) (hthird : c.length = 4) (hfourth : d.length = 4)
    (hfifth : e.length = 12) : unhyphenated? (a ++ '-' :: b ++ '-' :: c ++ '-' :: d ++ '-' :: e) =
      some (a ++ b ++ c ++ d ++ e) := by
  unfold unhyphenated?
  rw [if_pos]
  · simp (disch := omega) [List.drop_append, List.drop_eq_nil_of_le, hfirst, hsecond, hthird,
      hfourth]
  · simp [hfirst, hsecond, hthird, hfourth, hfifth]

/-- The digits of an identifier are found between its hyphens. -/
theorem unhyphenated?_chars (id : Uuid) : unhyphenated? id.chars = some (digits 32 id.toNat) := by
  have hlength := length_digits 32 id.toNat
  unfold chars
  generalize digits 32 id.toNat = cs at hlength ⊢
  have hgroups : cs.take 8 ++ (cs.drop 8).take 4 ++ (cs.drop 12).take 4 ++ (cs.drop 16).take 4 ++
      cs.drop 20 = cs := by
    have hnext (i : Nat) : (cs.drop i).take 4 ++ cs.drop (i + 4) = cs.drop i := by
      rw [← List.drop_drop, List.take_append_drop]
    rw [List.append_assoc, hnext 16, List.append_assoc, hnext 12, List.append_assoc, hnext 8,
      List.take_append_drop]
  rw [unhyphenated?_groups (by simp [hlength]) (by simp [hlength]) (by simp [hlength])
    (by simp [hlength]) (by simp [hlength]), hgroups]

theorem length_chars (id : Uuid) : id.chars.length = 36 := by
  simp [chars, length_digits]

/-- **An identifier is read back.** -/
theorem parse?_chars (id : Uuid) : parse? id.chars = some id := by
  have hform : form? id.chars = some (digits 32 id.toNat) := by
    simp [form?, length_chars, unhyphenated?_chars]
  have hsmall : id.toNat < 16 ^ 32 := id.value.isLt
  rw [parse?, hform, Option.bind_some, number?_digits, Nat.mod_eq_of_lt hsmall]
  simp [ofNat, toNat]

end RaceIngest.Uuid
