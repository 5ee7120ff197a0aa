import RaceIngest.Text.Hex

/-!
# Universally unique identifiers

Sessions and races are named by 128-bit identifiers. They are written as 32 lower-case hexadecimal
digits in groups of 8, 4, 4, 4 and 12, joined by hyphens. Reading also accepts upper case, the
digits without hyphens, the hyphenated form in braces, and the hyphenated form after the name
space `urn:uuid:`.

Identifiers are ordered as the numbers they write, which is the order of their texts.
-/

namespace RaceIngest

-- Powers are those of the core library, also where algebra is imported.
attribute [local instance (high)] instPowNat

/-- A 128-bit identifier. -/
structure Uuid where
  value : BitVec 128
  deriving DecidableEq, Repr, Hashable

namespace Uuid

open Text.Hex

instance : Inhabited Uuid := ⟨⟨0⟩⟩

/-- The identifier with a given number. -/
def ofNat (n : Nat) : Uuid := ⟨BitVec.ofNat 128 n⟩

/-- The number of an identifier, which orders identifiers. -/
def toNat (id : Uuid) : Nat := id.value.toNat

theorem toNat_inj {a b : Uuid} : a.toNat = b.toNat ↔ a = b := by
  cases a; cases b; simp [toNat, BitVec.toNat_inj]

theorem eq_of_ofNat_eq {m n : Nat} (hm : m < 2 ^ (128 : Nat)) (hn : n < 2 ^ (128 : Nat))
    (heq : ofNat m = ofNat n) : m = n := by
  have hvalue := congrArg toNat heq
  simp only [toNat, ofNat, BitVec.toNat_ofNat] at hvalue
  rwa [Nat.mod_eq_of_lt hm, Nat.mod_eq_of_lt hn] at hvalue

/-- Identifiers that are numbered from zero on are distinct. -/
theorem distinct_ofNat {count : Nat} (hcount : count ≤ 2 ^ (128 : Nat)) :
    ∀ i j, i < count → j < count → ofNat i = ofNat j → i = j := by
  intro i j hi hj
  exact eq_of_ofNat_eq (Nat.lt_of_lt_of_le hi hcount) (Nat.lt_of_lt_of_le hj hcount)

/-- The characters of an identifier: five groups joined by hyphens. -/
def chars (id : Uuid) : List Char :=
  let cs := digits 32 id.toNat
  cs.take 8 ++ '-' :: (cs.drop 8).take 4 ++ '-' :: (cs.drop 12).take 4 ++
    '-' :: (cs.drop 16).take 4 ++ '-' :: cs.drop 20

/-- The text of an identifier. -/
def text (id : Uuid) : String := String.ofList id.chars

/-- The hexadecimal digits of the hyphenated form, whose hyphens stand at fixed places. -/
def unhyphenated? (cs : List Char) : Option (List Char) :=
  if cs.length = 36 ∧ cs[8]? = some '-' ∧ cs[13]? = some '-' ∧ cs[18]? = some '-' ∧
      cs[23]? = some '-' then
    some (cs.take 8 ++ (cs.drop 9).take 4 ++ (cs.drop 14).take 4 ++ (cs.drop 19).take 4 ++
      cs.drop 24)
  else none

/-- The hexadecimal digits of an identifier in any of the accepted forms. -/
def form? (cs : List Char) : Option (List Char) :=
  if cs.length = 32 then some cs
  else if cs.length = 38 then
    match cs with
    | '\x7b' :: rest => if rest.getLast? = some '\x7d' then unhyphenated? rest.dropLast else none
    | _ => none
  else if cs.length = 45 then
    if (cs.take 9).map Char.toLower = ['u', 'r', 'n', ':', 'u', 'u', 'i', 'd', ':'] then
      unhyphenated? (cs.drop 9)
    else none
  else unhyphenated? cs

/-- Reads an identifier. -/
def parse? (cs : List Char) : Option Uuid :=
  (form? cs).bind fun ds => (number? 0 ds).map ofNat

end Uuid

end RaceIngest
