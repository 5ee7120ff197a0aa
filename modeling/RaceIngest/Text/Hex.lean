/-!
# Hexadecimal digits

Identifiers, escapes and offsets are written in hexadecimal digits. Digits are written in lower
case and read in either. Numbers to a smaller base use the first of them.
-/

namespace RaceIngest.Text.Hex

/-- The character of a hexadecimal digit, in lower case. -/
def digitChar (n : Nat) : Char := if n < 10 then Char.ofNat (48 + n) else Char.ofNat (87 + n)

/-- The value of a hexadecimal digit of either case. -/
def digitValue? (c : Char) : Option Nat :=
  let n := c.toNat
  if 48 ≤ n ∧ n ≤ 57 then some (n - 48)
  else if 97 ≤ n ∧ n ≤ 102 then some (n - 87)
  else if 65 ≤ n ∧ n ≤ 70 then some (n - 55)
  else none

theorem digitValue?_digitChar (n : Fin 16) : digitValue? (digitChar n) = some n.val := by
  revert n; decide

/-- The lowest `count` hexadecimal digits of a number, most significant first. -/
def digits : Nat → Nat → List Char
  | 0, _ => []
  | count + 1, n => digits count (n / 16) ++ [digitChar (n % 16)]

/-- The number that hexadecimal digits write, going on from a start. -/
def number? (start : Nat) : List Char → Option Nat
  | [] => some start
  | c :: cs => (digitValue? c).bind fun d => number? (16 * start + d) cs

/-- The number that digits to a base up to sixteen write; there has to be one. -/
def based? (base : Nat) (cs : List Char) : Option Nat :=
  if cs.isEmpty then none
  else cs.foldlM (fun n c => do
    let d ← digitValue? c
    guard (d < base)
    return base * n + d) 0

/-- The hexadecimal digits of a number, without leading zeros. -/
def ofNat (n : Nat) : List Char :=
  if n < 16 then [digitChar n] else ofNat (n / 16) ++ [digitChar (n % 16)]
termination_by n
decreasing_by omega

theorem length_digits (count n : Nat) : (digits count n).length = count := by
  induction count generalizing n with
  | zero => rfl
  | succ count ih => simp [digits, ih]

end RaceIngest.Text.Hex
