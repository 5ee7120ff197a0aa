/-!
# Decimal digits

A row of decimal digits, most significant first. Numbers are written through `Digits.ofNat`,
which has no leading zeros and writes zero as one digit, and rows of digits are read through
`Digits.value`.

## Main results

* `value_ofNat`: writing a number and reading the digits gives the number back.
-/

namespace RaceIngest.Decimal

/-- A decimal digit. -/
abbrev Digit := Fin 10

-- The zero is named because algebra, where it is imported, has another one for the numbers.
instance Digit.instNeZero : @NeZero Nat Zero.ofOfNat0 10 := ⟨by decide⟩

/-- A row of decimal digits, the most significant first. -/
abbrev Digits := List Digit

/-- The character that writes a digit. -/
def Digit.toChar (d : Digit) : Char := Char.ofNat (48 + d.val)

/-- The digit a character writes, for the ten characters from zero to nine. -/
def Digit.ofChar? (c : Char) : Option Digit :=
  if h : 48 ≤ c.toNat ∧ c.toNat ≤ 57 then some ⟨c.toNat - 48, by omega⟩ else none

theorem Digit.ofChar?_toChar (d : Digit) : Digit.ofChar? (Digit.toChar d) = some d := by
  revert d; decide

namespace Digits

/-- The number that a row of digits writes. -/
def value (ds : Digits) : Nat := ds.foldl (fun n d => 10 * n + d.val) 0

/-- The number after further digits, given the number that the digits so far write. -/
def extend (start : Nat) (ds : Digits) : Nat := ds.foldl (fun n d => 10 * n + d.val) start

theorem value_append (ds es : Digits) : value (ds ++ es) = extend (value ds) es := by
  simp [value, extend, List.foldl_append]

@[simp] theorem value_concat (ds : Digits) (d : Digit) :
    value (ds ++ [d]) = 10 * value ds + d.val := by
  simp [value_append, extend]

/-- The digits of a number, without leading zeros; zero is one digit. -/
def ofNat (n : Nat) : Digits :=
  if n < 10 then [Fin.ofNat 10 n] else ofNat (n / 10) ++ [Fin.ofNat 10 n]
termination_by n
decreasing_by omega

theorem value_ofNat (n : Nat) : value (ofNat n) = n := by
  induction n using Nat.strongRecOn with
  | ind n ih =>
      unfold ofNat
      split
      · simp [value]; omega
      · rename_i hbig
        rw [value_concat, ih (n / 10) (by omega)]
        simp; omega

theorem ofNat_ne_nil (n : Nat) : ofNat n ≠ [] := by
  unfold ofNat; split <;> simp

/-- The characters of a row of digits. -/
def chars (ds : Digits) : List Char := ds.map Digit.toChar

/-- The digits that a row of characters writes, when all of them are digits. -/
def ofChars? (cs : List Char) : Option Digits := cs.mapM Digit.ofChar?

/-- The leading digits of a row of characters, and what follows them. -/
def takeChars : List Char → Digits × List Char
  | [] => ([], [])
  | c :: rest =>
    match Digit.ofChar? c with
    | some d => let (ds, after) := takeChars rest; (d :: ds, after)
    | none => ([], c :: rest)

/-- The number that a row of at least one digit writes. -/
def number? (cs : List Char) : Option Nat :=
  if cs.isEmpty then none else (ofChars? cs).map value

/-- The number that digits write after an optional plus sign. -/
def unsigned? : List Char → Option Nat
  | '+' :: cs => number? cs
  | cs => number? cs

/-- A number padded on the left with zeros to at least `width` characters. -/
def padded (width n : Nat) : List Char :=
  let cs := chars (ofNat n)
  List.replicate (width - cs.length) '0' ++ cs

end Digits

end RaceIngest.Decimal
