import RaceIngest.Proofs.Json.Roundtrip
import RaceIngest.Text.Blank

/-!
# Compact documents are read back

The compact form of a legible document has the tokens of the document as well, and it stands on one
line: what is written of a token never holds a line feed. The compact form of an object begins with
a brace, so it is not blank.

## Main statements

* `parse?_chars`: a legible document is read back from its compact form,
* `newline_notMem_chars`: the compact form of a document is a single line.
-/

namespace RaceIngest.Json

open Decimal Text

/-! ## Reading -/

mutual

/-- **The compact form of a legible value has the tokens of the value.** -/
theorem reads_chars : (j : Json) → j.Legible → Reads (j.tokens.flatMap Token.chars) j.tokens
  | .null, _ => reads_null
  | .bool b, _ => by simpa [tokens] using reads_bool b
  | .number literal, hlegible => by simpa [tokens, Token.chars] using reads_numeral hlegible
  | .string text, hlegible => by simpa [tokens] using (rests_string hlegible).continues.reads
  | .array [], _ => (rests_openArray.append rests_closeArray).continues.reads
  | .array (item :: items), hlegible => by
    have hwhole := ((rests_openArray.reads (reads_chars item hlegible.1)).append
      (continues_itemChars items hlegible.2)).append rests_closeArray.continues
    simpa [tokens, Token.chars] using hwhole.reads
  | .object [], _ => (rests_openObject.append rests_closeObject).continues.reads
  | .object ((key, value) :: members), hlegible => by
    have hopening := rests_openObject.append ((rests_string hlegible.1).append rests_colon)
    have hwhole := ((hopening.reads (reads_chars value hlegible.2.1)).append
      (continues_memberChars members hlegible.2.2)).append rests_closeObject.continues
    simpa [tokens, Token.chars] using hwhole.reads

/-- The compact form of further items. -/
theorem continues_itemChars : (items : List Json) → LegibleItems items →
    Continues ((itemTokens items).flatMap Token.chars) (itemTokens items)
  | [], _ => fun pass tokens hshown => ⟨pass, rfl, by simpa [itemTokens] using hshown⟩
  | item :: items, hlegible => by
    have hwhole := (rests_comma.reads (reads_chars item hlegible.1)).append
      (continues_itemChars items hlegible.2)
    simpa [itemTokens, Token.chars] using hwhole

/-- The compact form of further members. -/
theorem continues_memberChars : (members : List (Option String × Json)) → LegibleMembers members →
    Continues ((memberTokens members).flatMap Token.chars) (memberTokens members)
  | [], _ => fun pass tokens hshown => ⟨pass, rfl, by simpa [memberTokens] using hshown⟩
  | (key, value) :: members, hlegible => by
    have hopening := rests_comma.append ((rests_string hlegible.1).append rests_colon)
    have hwhole := (hopening.reads (reads_chars value hlegible.2.1)).append
      (continues_memberChars members hlegible.2.2)
    simpa [memberTokens, Token.chars] using hwhole

end

/-- **A legible document is read back from its compact form.** -/
theorem parse?_chars {j : Json} (hlegible : j.Legible) : parse? j.chars = some j :=
  parse?_of_reads (reads_chars j hlegible)

/-- **A legible document is read back from its indented form.** -/
theorem parse?_indented {j : Json} (hlegible : j.Legible) (level : Nat) :
    parse? (j.indented level) = some j :=
  parse?_of_reads (reads_indented level j hlegible)

/-! ## Lines -/

theorem digitChar_ne_newline (n : Fin 16) : Hex.digitChar n ≠ '\n' := by
  revert n
  decide

theorem newline_notMem_escapeChar (c : Char) : '\n' ∉ escapeChar c := by
  unfold escapeChar
  by_cases hnewline : c = '\n'
  · subst hnewline
    decide
  · repeat' split
    · decide
    · decide
    · decide
    · decide
    · decide
    · decide
    · rename_i hcontrol
      have hhigh := digitChar_ne_newline ⟨c.toNat / 16, by omega⟩
      have hlow := digitChar_ne_newline ⟨c.toNat % 16, by omega⟩
      simp [hhigh.symm, hlow.symm]
    · simpa using Ne.symm hnewline

/-- What is written of a token holds no line feed. -/
theorem newline_notMem_token (token : Token) : '\n' ∉ token.chars := by
  cases token with
  | number literal =>
      intro hmem
      have hnumeral : isNumeralChar '\n' = true := isNumeralChar_of_mem_chars hmem
      exact absurd hnumeral (by decide)
  | string text =>
      have hinside : '\n' ∉ (text.getD "").toList.flatMap escapeChar := by
        intro hmem
        obtain ⟨c, -, hescaped⟩ := List.mem_flatMap.mp hmem
        exact newline_notMem_escapeChar c hescaped
      simpa [Token.chars, quote] using hinside
  | bool b => cases b <;> decide
  | _ => decide

/-- **The compact form of a document is a single line.** -/
theorem newline_notMem_chars (j : Json) : '\n' ∉ j.chars := by
  intro hmem
  obtain ⟨token, -, hwritten⟩ := List.mem_flatMap.mp hmem
  exact newline_notMem_token token hwritten

/-- The compact form of an object begins with a brace. -/
theorem exists_chars_ofMembers (members : List (String × Json)) :
    ∃ rest, (ofMembers members).chars = '\x7b' :: rest := by
  cases members with
  | nil => exact ⟨_, rfl⟩
  | cons member members => exact ⟨_, rfl⟩

theorem isBlank_chars_ofMembers (members : List (String × Json)) :
    isBlank (ofMembers members).chars = false := by
  obtain ⟨rest, hshape⟩ := exists_chars_ofMembers members
  rw [hshape]
  rfl

end RaceIngest.Json
