import RaceIngest.Proofs.Json.Lexer
import RaceIngest.Proofs.Json.Tokens
import RaceIngest.Text.Blank

/-!
# Documents that are written after something

What stands in front of a document decides whether it is still read. Spaces in the sense of JSON do
not matter. Every other blank character is an error, and after a complete document there is no place
for another one: the lexer never takes back a token, and once a value is complete and nothing is
open the machine that reads tokens takes no further one.

## Main statements

* `parse?_append_of_space`: a document after spaces,
* `parse?_append_of_blank`: a document after another blank character,
* `parse?_append_of_complete`: an object after a complete document.
-/

namespace RaceIngest.Json

open Text

/-- A document is what the tokens of one pass over it write. -/
theorem parse?_eq (cs : List Char) :
    parse? cs = (run? (.atRest []) cs).bind fun pass => pass.finish?.bind ofTokens? := by
  simp [parse?, parseSymbols?, lex?, run?, Pass.atRest, Option.bind_assoc]

/-! ## After blanks -/

theorem step?_of_isSpace {c : Char} (hspace : isSpace c = true) (tokens : List Token) :
    (Pass.atRest tokens).step? (.char c) = some (.atRest tokens) := by
  simp [Pass.step?, Pass.atRest, readSymbol?, readChar?, begin?, hspace]

theorem run?_of_isSpace {cs : List Char} (hspaces : cs.all isSpace = true) (tokens : List Token) :
    run? (.atRest tokens) cs = some (.atRest tokens) := by
  induction cs with
  | nil => rfl
  | cons c cs ih =>
      rw [List.all_cons, Bool.and_eq_true] at hspaces
      rw [run?_cons, step?_of_isSpace hspaces.1, Option.bind_some, ih hspaces.2]

/-- **Spaces in front of a document** do not matter. -/
theorem parse?_append_of_space {cs : List Char} (hspaces : cs.all isSpace = true)
    (rest : List Char) : parse? (cs ++ rest) = parse? rest := by
  rw [parse?_eq, parse?_eq, run?_append, run?_of_isSpace hspaces, Option.bind_some]

theorem isBlankChar_of_between {c : Char} (hlow : 0x20 < c.toNat) (hhigh : c.toNat < 0x80) :
    isBlankChar c = false := by
  simp only [isBlankChar, Bool.or_eq_false_iff, Bool.and_eq_false_imp, decide_eq_true_eq,
    decide_eq_false_iff_not, beq_eq_false_iff_ne]
  omega

/-- No token begins with a blank character. -/
theorem begin?_of_isBlankChar {c : Char} (hblank : isBlankChar c = true)
    (hvisible : isSpace c = false) : begin? c = none := by
  have hne (other : Char) (hprinted : isBlankChar other = false) : c ≠ other := by
    rintro rfl
    exact absurd hblank (by simp [hprinted])
  have hnoDigit : c.isDigit = false := by
    by_contra hdigit
    simp only [Char.isDigit, Bool.not_eq_false, Bool.and_eq_true, decide_eq_true_eq] at hdigit
    have hnone := isBlankChar_of_between (c := c) (Nat.lt_of_lt_of_le (by decide) hdigit.1)
      (Nat.lt_of_le_of_lt hdigit.2 (by decide))
    exact absurd hblank (by simp [hnone])
  have hnoWord : isWordChar c = false := by
    by_contra hword
    simp only [isWordChar, Bool.not_eq_false, Bool.and_eq_true, decide_eq_true_eq] at hword
    have hnone := isBlankChar_of_between (c := c) (Nat.lt_of_lt_of_le (by decide) hword.1)
      (Nat.lt_of_le_of_lt hword.2 (by decide))
    exact absurd hblank (by simp [hnone])
  simp [begin?, hvisible, hnoDigit, hnoWord, hne '[' rfl, hne ']' rfl, hne '\x7b' rfl,
    hne '\x7d' rfl, hne ',' rfl, hne ':' rfl, hne '"' rfl, hne '-' rfl]

/-- **A blank character in front of a document** that is no space is an error. -/
theorem parse?_append_of_blank {cs : List Char} (hblank : isBlank cs = true)
    (hvisible : cs.all isSpace = false) (rest : List Char) : parse? (cs ++ rest) = none := by
  have hstuck (tokens : List Token) : run? (.atRest tokens) cs = none := by
    induction cs with
    | nil => cases hvisible
    | cons c cs ih =>
        rw [isBlank, List.all_cons, Bool.and_eq_true] at hblank
        rw [run?_cons]
        cases hspace : isSpace c with
        | true =>
            rw [List.all_cons, hspace, Bool.true_and] at hvisible
            rw [step?_of_isSpace hspace, Option.bind_some, ih hblank.2 hvisible]
        | false =>
            have hnothing := begin?_of_isBlankChar hblank.1 hspace
            simp [Pass.step?, Pass.atRest, readSymbol?, readChar?, hnothing]
  rw [parse?_eq, run?_append, hstuck]
  rfl

/-! ## After a document -/

/-- The tokens that were completed stay. -/
theorem exists_of_step? {pass after : Pass} {s : Symbol} (hstepped : pass.step? s = some after) :
    ∃ added, after.reversed.reverse = pass.reversed.reverse ++ added := by
  obtain ⟨⟨completed, mode⟩, -, rfl⟩ := Option.map_eq_some_iff.mp hstepped
  exact ⟨completed, by simp⟩

theorem exists_of_run? {pass after : Pass} {cs : List Char} (hran : run? pass cs = some after) :
    ∃ added, after.reversed.reverse = pass.reversed.reverse ++ added := by
  induction cs generalizing pass with
  | nil =>
      cases hran
      exact ⟨[], (List.append_nil _).symm⟩
  | cons c cs ih =>
      rw [run?_cons] at hran
      obtain ⟨middle, hstepped, hran⟩ := Option.bind_eq_some_iff.mp hran
      obtain ⟨first, hbegun⟩ := exists_of_step? hstepped
      obtain ⟨added, hgone⟩ := ih hran
      exact ⟨first ++ added, by rw [hgone, hbegun, List.append_assoc]⟩

theorem exists_of_finish? {pass : Pass} {tokens : List Token}
    (hshown : pass.finish? = some tokens) : ∃ added, tokens = pass.reversed.reverse ++ added := by
  obtain ⟨completed, -, rfl⟩ := Option.map_eq_some_iff.mp hshown
  exact ⟨completed, rfl⟩

/-- Tokens that write a value write none when the opening of an object follows. -/
theorem ofTokens?_append_openObject {tokens : List Token} {j : Json}
    (hcomplete : ofTokens? tokens = some j) (rest : List Token) :
    ofTokens? (tokens ++ .openObject :: rest) = none := by
  have hreached : steps? (.value []) tokens = some (.next [] j) := by
    unfold ofTokens? at hcomplete
    rw [steps?]
    split at hcomplete
    · rename_i hreached
      rw [hreached, Option.some.inj hcomplete]
    · cases hcomplete
  have hstuck : steps? (.value []) (tokens ++ .openObject :: rest) = none := by
    rw [steps?_append, hreached, Option.bind_some, steps?_cons]
    rfl
  rw [steps?] at hstuck
  rw [ofTokens?, hstuck]

/-- **After a complete document** there is no place for an object. -/
theorem parse?_append_of_complete {cs : List Char} {j : Json} (hcomplete : parse? cs = some j)
    (rest : List Char) : parse? (cs ++ '\x7b' :: rest) = none := by
  rw [parse?_eq] at hcomplete
  obtain ⟨pass, hran, hcomplete⟩ := Option.bind_eq_some_iff.mp hcomplete
  obtain ⟨tokens, hshown, hcomplete⟩ := Option.bind_eq_some_iff.mp hcomplete
  have hopened := rests_openObject pass tokens hshown
  rw [parse?_eq, run?_append, hran, Option.bind_some, ← List.singleton_append, run?_append, hopened,
    Option.bind_some, Option.bind_eq_none_iff]
  intro last hranOn
  rw [Option.bind_eq_none_iff]
  intro all hshownOn
  obtain ⟨added, hgrown⟩ := exists_of_run? hranOn
  obtain ⟨completed, hfinished⟩ := exists_of_finish? hshownOn
  have hshape : all = tokens ++ .openObject :: (added ++ completed) := by
    rw [hfinished, hgrown]
    simp [Pass.atRest]
  rw [hshape, ofTokens?_append_openObject hcomplete]

end RaceIngest.Json
