import RaceIngest.Proofs.Json.Lexer
import RaceIngest.Proofs.Json.Tokens
import RaceIngest.Proofs.Text.Utf8

/-!
# Indented documents are read back

A document is legible when all its strings denote texts and all its numerals are canonical. The
indented form of a legible document has the tokens of the document, line breaks and blanks
notwithstanding, and from these the document is put together again.

## Main statements

* `reads_indented`: the tokens of the indented form,
* `parseBytes?_indented`: a legible document is read back from the bytes of its indented form.
-/

namespace RaceIngest.Json

open Decimal Text

mutual

/-- Whether every string of a value denotes a text and every numeral of it is canonical. -/
def Legible : Json → Prop
  | .null | .bool _ => True
  | .number literal => literal.Canonical
  | .string text => text.isSome
  | .array items => LegibleItems items
  | .object members => LegibleMembers members

/-- Whether all items of an array are legible. -/
def LegibleItems : List Json → Prop
  | [] => True
  | item :: items => item.Legible ∧ LegibleItems items

/-- Whether all members of an object are legible. -/
def LegibleMembers : List (Option String × Json) → Prop
  | [] => True
  | (key, value) :: members => key.isSome ∧ value.Legible ∧ LegibleMembers members

end

/-- A string that denotes a text is read as the text. -/
theorem rests_string {text : Option String} (hsome : text.isSome) :
    Rests (Token.chars (.string text)) [.string text] := by
  obtain ⟨s, rfl⟩ := Option.isSome_iff_exists.mp hsome
  exact rests_quote s

/-- The name of a member, and the colon and the space after it. -/
theorem rests_key {key : Option String} (hsome : key.isSome) :
    Rests (Token.chars (.string key) ++ [':', ' ']) [.string key, .colon] :=
  (rests_string hsome).append (rests_colon.append rests_space)

mutual

/-- **The indented form of a legible value has the tokens of the value.** -/
theorem reads_indented (level : Nat) : (j : Json) → j.Legible → Reads (indented level j) (tokens j)
  | .null, _ => reads_null
  | .bool b, _ => reads_bool b
  | .number _, hlegible => reads_numeral hlegible
  | .string _, hlegible => (rests_string hlegible).continues.reads
  | .array [], _ => (rests_openArray.append rests_closeArray).continues.reads
  | .array (item :: items), hlegible => by
    have hopening := rests_openArray.append (rests_lineBreak (level + 1))
    have hclosing := (rests_lineBreak level).append rests_closeArray
    have hwhole := ((hopening.reads (reads_indented (level + 1) item hlegible.1)).append
      (continues_indentedItems (level + 1) items hlegible.2)).append hclosing.continues
    simpa [indented, tokens] using hwhole.reads
  | .object [], _ => (rests_openObject.append rests_closeObject).continues.reads
  | .object ((key, value) :: members), hlegible => by
    have hopening := (rests_openObject.append (rests_lineBreak (level + 1))).append
      (rests_key hlegible.1)
    have hclosing := (rests_lineBreak level).append rests_closeObject
    have hwhole := ((hopening.reads (reads_indented (level + 1) value hlegible.2.1)).append
      (continues_indentedMembers (level + 1) members hlegible.2.2)).append hclosing.continues
    simpa [indented, tokens] using hwhole.reads

/-- The indented form of further items. -/
theorem continues_indentedItems (level : Nat) : (items : List Json) → LegibleItems items →
    Continues (indentedItems level items) (itemTokens items)
  | [], _ => fun pass tokens hshown => ⟨pass, rfl, by simpa [itemTokens] using hshown⟩
  | item :: items, hlegible => by
    have hopening := rests_comma.append (rests_lineBreak level)
    have hwhole := (hopening.reads (reads_indented level item hlegible.1)).append
      (continues_indentedItems level items hlegible.2)
    simpa [indentedItems, itemTokens] using hwhole

/-- The indented form of further members. -/
theorem continues_indentedMembers (level : Nat) : (members : List (Option String × Json)) →
    LegibleMembers members → Continues (indentedMembers level members) (memberTokens members)
  | [], _ => fun pass tokens hshown => ⟨pass, rfl, by simpa [memberTokens] using hshown⟩
  | (key, value) :: members, hlegible => by
    have hopening := (rests_comma.append (rests_lineBreak level)).append (rests_key hlegible.1)
    have hwhole := (hopening.reads (reads_indented level value hlegible.2.1)).append
      (continues_indentedMembers level members hlegible.2.2)
    simpa [indentedMembers, memberTokens] using hwhole

end

/-- A document is read from characters that have its tokens. -/
theorem parse?_of_reads {cs : List Char} {j : Json} (hreads : Reads cs (tokens j)) :
    parse? cs = some j := by
  obtain ⟨pass, hrun, hfinish⟩ := hreads []
  have htokensRead : lex? (cs.map .char) = some (tokens j) := by
    have hstart : (⟨[], .between⟩ : Pass) = .atRest [] := rfl
    rw [lex?, hstart, ← run?, hrun, Option.bind_some, hfinish, List.nil_append]
  rw [parse?, parseSymbols?, htokensRead, Option.bind_some, ofTokens?_tokens]

/-- **A legible document is read back from the bytes of its indented form.** -/
theorem parseBytes?_indented {j : Json} (hlegible : j.Legible) (level : Nat) :
    parseBytes? (Utf8.encode (j.indented level)) = some j := by
  have hread := parse?_of_reads (reads_indented level j hlegible)
  rwa [parse?, ← Utf8.symbols_encode] at hread

/-! ## Values to be written -/

theorem legibleItems_iff {items : List Json} :
    LegibleItems items ↔ ∀ item ∈ items, item.Legible := by
  induction items with
  | nil => simp [LegibleItems]
  | cons item items ih => simp [LegibleItems, ih]

theorem legibleMembers_iff {members : List (Option String × Json)} :
    LegibleMembers members ↔ ∀ member ∈ members, member.1.isSome ∧ member.2.Legible := by
  induction members with
  | nil => simp [LegibleMembers]
  | cons member members ih => simp [LegibleMembers, ih, and_assoc]

@[simp] theorem legible_text (s : String) : (text s).Legible := rfl

@[simp] theorem legible_int (i : Int) : (int i).Legible := Numeral.canonical_ofInt i

@[simp] theorem legible_nat (n : Nat) : (nat n).Legible := Numeral.canonical_ofNat n

@[simp] theorem legible_single (x : Single) : (single x).Legible := by
  unfold single
  split
  · rename_i literal hwritten
    exact Single.canonical_of_toNumeral? hwritten
  · trivial

/-- An object of named members is legible with its values. -/
theorem legible_ofMembers {members : List (String × Json)} :
    (ofMembers members).Legible ↔ ∀ member ∈ members, member.2.Legible := by
  rw [ofMembers, Legible, legibleMembers_iff, List.forall_mem_map]
  exact ⟨fun hall member hmem => (hall member hmem).2,
    fun hall member hmem => ⟨rfl, hall member hmem⟩⟩

end RaceIngest.Json
