import RaceIngest.Json.Lexer
import RaceIngest.Proofs.Decimal.Literal

/-!
# Written tokens are read back

Numerals and words have no end of their own: the lexer completes them at the first character that
cannot go on with them, or at the end of the document. So what a pass over a document has read is
what it would answer if the document ended there (`Pass.finish?`), and a row of characters is
described by what it adds to that: `Reads` from between two tokens, `Continues` from anywhere a
token may have to be completed first, and `Rests` if it also leaves no token open.

## Main statements

* `Rests.reads`, `Reads.continues`, `Continues.append`: rows of characters put together,
* `rests_quote`, `reads_numeral`, `reads_null`, `reads_bool`: the tokens with characters of their own.
-/

namespace RaceIngest.Json

open Decimal Text

/-- A pass after a row of characters. -/
def run? (pass : Pass) (cs : List Char) : Option Pass := (cs.map Symbol.char).foldlM Pass.step? pass

@[simp] theorem run?_nil (pass : Pass) : run? pass [] = some pass := rfl

theorem run?_cons (pass : Pass) (c : Char) (cs : List Char) :
    run? pass (c :: cs) = (pass.step? (.char c)).bind (run? · cs) := by
  simp [run?, List.foldlM_cons, Option.bind_eq_bind]

theorem run?_append (pass : Pass) (first second : List Char) :
    run? pass (first ++ second) = (run? pass first).bind (run? · second) := by
  simp [run?, List.foldlM_append, Option.bind_eq_bind]

/-- A pass between two tokens. -/
def Pass.atRest (tokens : List Token) : Pass := ⟨tokens.reverse, .between⟩

@[simp] theorem Pass.finish?_atRest (tokens : List Token) :
    (Pass.atRest tokens).finish? = some tokens := by
  simp [Pass.finish?, Pass.atRest, Json.finish?]

/-- Read between two tokens, the characters add these tokens, of which the last may be open. -/
def Reads (cs : List Char) (added : List Token) : Prop :=
  ∀ tokens, ∃ pass, run? (.atRest tokens) cs = some pass ∧ pass.finish? = some (tokens ++ added)

/-- Read after any token, the characters add these tokens, of which the last may be open. -/
def Continues (cs : List Char) (added : List Token) : Prop :=
  ∀ pass tokens, pass.finish? = some tokens →
    ∃ after, run? pass cs = some after ∧ after.finish? = some (tokens ++ added)

/-- Read after any token, the characters add these tokens and leave none open. -/
def Rests (cs : List Char) (added : List Token) : Prop :=
  ∀ pass tokens, pass.finish? = some tokens → run? pass cs = some (.atRest (tokens ++ added))

section Composition

variable {first second : List Char} {before after : List Token}

theorem Rests.continues (hrests : Rests first before) : Continues first before :=
  fun pass tokens hshown => ⟨_, hrests pass tokens hshown, Pass.finish?_atRest _⟩

theorem Continues.append (hleft : Continues first before) (hright : Continues second after) :
    Continues (first ++ second) (before ++ after) := by
  intro pass tokens hshown
  obtain ⟨middle, hrun, hfinish⟩ := hleft pass tokens hshown
  obtain ⟨last, hrunOn, hfinishOn⟩ := hright middle _ hfinish
  refine ⟨last, ?_, by rw [hfinishOn, List.append_assoc]⟩
  rw [run?_append, hrun, Option.bind_some, hrunOn]

theorem Rests.append (hleft : Rests first before) (hright : Rests second after) :
    Rests (first ++ second) (before ++ after) := by
  intro pass tokens hshown
  rw [run?_append, hleft pass tokens hshown, Option.bind_some,
    hright _ _ (Pass.finish?_atRest _), List.append_assoc]

theorem Rests.reads (hleft : Rests first before) (hright : Reads second after) :
    Continues (first ++ second) (before ++ after) := by
  intro pass tokens hshown
  obtain ⟨last, hrun, hfinish⟩ := hright (tokens ++ before)
  refine ⟨last, ?_, by rw [hfinish, List.append_assoc]⟩
  rw [run?_append, hleft pass tokens hshown, Option.bind_some, hrun]

theorem Reads.continues (hleft : Reads first before) (hright : Continues second after) :
    Reads (first ++ second) (before ++ after) := by
  intro tokens
  obtain ⟨middle, hrun, hfinish⟩ := hleft tokens
  obtain ⟨last, hrunOn, hfinishOn⟩ := hright middle _ hfinish
  refine ⟨last, ?_, by rw [hfinishOn, List.append_assoc]⟩
  rw [run?_append, hrun, Option.bind_some, hrunOn]

theorem Continues.reads (hcontinues : Continues first before) : Reads first before :=
  fun tokens => hcontinues _ tokens (Pass.finish?_atRest tokens)

end Composition

/-! ## Single characters -/

/-- A character that goes on with no token completes the open one. -/
theorem step?_of_begin {pass : Pass} {tokens started : List Token} {c : Char} {mode : Mode}
    (hshown : pass.finish? = some tokens) (hnumeral : isNumeralChar c = false)
    (hword : isWordChar c = false) (hbegins : begin? c = some (started, mode)) :
    pass.step? (.char c) = some ⟨(tokens ++ started).reverse, mode⟩ := by
  obtain ⟨reversed, current⟩ := pass
  cases current with
  | between =>
      simp only [Pass.finish?, Json.finish?, Option.map_some, List.append_nil,
        Option.some.injEq] at hshown
      subst hshown
      simp [Pass.step?, readSymbol?, readChar?, hbegins]
  | numeral row =>
      simp only [Pass.finish?, Json.finish?, Option.map_map, Option.map_eq_some_iff,
        Function.comp_apply] at hshown
      obtain ⟨literal, hread, rfl⟩ := hshown
      simp [Pass.step?, readSymbol?, readChar?, hnumeral, hread, hbegins]
  | word row =>
      simp only [Pass.finish?, Json.finish?, Option.map_map, Option.map_eq_some_iff,
        Function.comp_apply] at hshown
      obtain ⟨token, hread, rfl⟩ := hshown
      simp [Pass.step?, readSymbol?, readChar?, hword, hread, hbegins]
  | quoted q => simp [Pass.finish?, Json.finish?] at hshown
  | escape q => simp [Pass.finish?, Json.finish?] at hshown
  | unit q left value => simp [Pass.finish?, Json.finish?] at hshown

theorem rests_of_begin {c : Char} {started : List Token} (hnumeral : isNumeralChar c = false)
    (hword : isWordChar c = false) (hbegins : begin? c = some (started, .between)) :
    Rests [c] started := by
  intro pass tokens hshown
  rw [run?_cons, step?_of_begin hshown hnumeral hword hbegins]
  rfl

theorem rests_openArray : Rests ['['] [.openArray] := rests_of_begin rfl rfl rfl
theorem rests_closeArray : Rests [']'] [.closeArray] := rests_of_begin rfl rfl rfl
theorem rests_openObject : Rests ['\x7b'] [.openObject] := rests_of_begin rfl rfl rfl
theorem rests_closeObject : Rests ['\x7d'] [.closeObject] := rests_of_begin rfl rfl rfl
theorem rests_comma : Rests [','] [.comma] := rests_of_begin rfl rfl rfl
theorem rests_colon : Rests [':'] [.colon] := rests_of_begin rfl rfl rfl
theorem rests_space : Rests [' '] [] := rests_of_begin rfl rfl rfl
theorem rests_newline : Rests ['\n'] [] := rests_of_begin rfl rfl rfl

theorem rests_lineBreak (level : Nat) : Rests (lineBreak level) [] := by
  have hspaces (count : Nat) : ∀ tokens,
      run? (.atRest tokens) (List.replicate count ' ') = some (.atRest tokens) := by
    induction count with
    | zero => exact fun tokens => rfl
    | succ count ih =>
        intro tokens
        have hone := rests_space (.atRest tokens) tokens (Pass.finish?_atRest tokens)
        rw [List.append_nil] at hone
        rw [List.replicate_succ, ← List.singleton_append, run?_append, hone, Option.bind_some, ih]
  intro pass tokens hshown
  rw [lineBreak, ← List.singleton_append, run?_append, rests_newline pass tokens hshown,
    Option.bind_some, List.append_nil, hspaces]

/-! ## Strings -/

/-- A quoted literal with some characters read. -/
def Quoted.holding (reversed : List Char) : Quoted := ⟨some reversed, none⟩

/-- A code unit below the surrogates is a character. -/
theorem Quoted.pushUnit_holding {reversed : List Char} {unit : Nat} (hbelow : unit < 0xd800) :
    Quoted.pushUnit (.holding reversed) unit = .holding (Char.ofNat unit :: reversed) := by
  have hlead : ¬(0xd800 ≤ unit ∧ unit < 0xdc00) := by omega
  have htrail : ¬(0xdc00 ≤ unit ∧ unit < 0xe000) := by omega
  simp only [Quoted.pushUnit, Quoted.holding, if_neg hlead, if_neg htrail, Quoted.push,
    Option.map_some]

/-- An escape of four hexadecimal digits, of which the first two are zero, is its code unit. -/
private theorem run?_unitEscape (tokens : List Token) (reversed : List Char) {unit : Nat}
    (hbyte : unit < 256) :
    run? ⟨tokens, .quoted (.holding reversed)⟩
        ['\\', 'u', '0', '0', Hex.digitChar (unit / 16), Hex.digitChar (unit % 16)] =
      some ⟨tokens, .quoted (.holding (Char.ofNat unit :: reversed))⟩ := by
  have hfirst : run? ⟨tokens, .quoted (.holding reversed)⟩ ['\\', 'u', '0', '0'] =
      some ⟨tokens, .unit (.holding reversed) 2 0⟩ := rfl
  have hthird := Hex.digitValue?_digitChar ⟨unit / 16, by omega⟩
  have hfourth := Hex.digitValue?_digitChar ⟨unit % 16, by omega⟩
  simp only at hthird hfourth
  have hrest : run? ⟨tokens, .unit (.holding reversed) 2 0⟩
      [Hex.digitChar (unit / 16), Hex.digitChar (unit % 16)] =
      some ⟨tokens, .quoted (Quoted.pushUnit (.holding reversed)
        (16 * (16 * 0 + unit / 16) + unit % 16))⟩ := by
    simp only [run?_cons, run?_nil, Pass.step?, readSymbol?, readChar?, hthird, hfourth,
      Option.map_some, Option.bind_some]
    rfl
  have hvalue : 16 * (16 * 0 + unit / 16) + unit % 16 = unit := by omega
  rw [show ['\\', 'u', '0', '0', Hex.digitChar (unit / 16), Hex.digitChar (unit % 16)] =
    ['\\', 'u', '0', '0'] ++ [Hex.digitChar (unit / 16), Hex.digitChar (unit % 16)] from rfl,
    run?_append, hfirst, Option.bind_some, hrest, hvalue, Quoted.pushUnit_holding (by omega)]

/-- What stands for a character inside a quoted string is read as the character. -/
theorem run?_escapeChar (tokens : List Token) (reversed : List Char) (c : Char) :
    run? ⟨tokens, .quoted (.holding reversed)⟩ (escapeChar c) =
      some ⟨tokens, .quoted (.holding (c :: reversed))⟩ := by
  unfold escapeChar
  by_cases hquote : c = '"'
  · subst hquote
    rfl
  by_cases hbackslash : c = '\\'
  · subst hbackslash
    rfl
  by_cases hnewline : c = '\n'
  · subst hnewline
    rfl
  by_cases hcarriage : c = '\r'
  · subst hcarriage
    rfl
  by_cases htab : c = '\t'
  · subst htab
    rfl
  by_cases hbackspace : c.toNat = 8
  · have hsame : c = '\x08' := Char.toNat_inj.mp hbackspace
    subst hsame
    rfl
  by_cases hfeed : c.toNat = 12
  · have hsame : c = '\x0c' := Char.toNat_inj.mp hfeed
    subst hsame
    rfl
  rw [if_neg hquote, if_neg hbackslash, if_neg hnewline, if_neg hcarriage, if_neg htab,
    if_neg hbackspace, if_neg hfeed]
  by_cases hcontrol : c.toNat < 0x20
  · rw [if_pos hcontrol, run?_unitEscape tokens reversed (by omega), Char.ofNat_toNat]
  · rw [if_neg hcontrol]
    simp [run?_cons, Pass.step?, readSymbol?, readChar?, hquote, hbackslash, hcontrol,
      Quoted.holding, Quoted.push]

theorem run?_escaped (tokens : List Token) (reversed cs : List Char) :
    run? ⟨tokens, .quoted (.holding reversed)⟩ (cs.flatMap escapeChar) =
      some ⟨tokens, .quoted (.holding (cs.reverse ++ reversed))⟩ := by
  induction cs generalizing reversed with
  | nil => rfl
  | cons c cs ih =>
      rw [List.flatMap_cons, run?_append, run?_escapeChar, Option.bind_some, ih]
      simp

/-- A quoted text is read as the text. -/
theorem rests_quote (s : String) : Rests (quote s.toList) [.string (some s)] := by
  intro pass tokens hshown
  have hopened : pass.step? (.char '"') = some ⟨tokens.reverse, .quoted (.holding [])⟩ := by
    rw [step?_of_begin hshown rfl rfl rfl, List.append_nil]
    rfl
  have htext : Quoted.text? (.holding s.toList.reverse) = some s := by
    simp [Quoted.text?, Quoted.holding]
  rw [quote, run?_cons, hopened, Option.bind_some, run?_append, run?_escaped, Option.bind_some,
    List.append_nil, run?_cons]
  simp [Pass.step?, readSymbol?, readChar?, htext, Pass.atRest]

/-! ## Numerals and words -/

theorem run?_numeral (tokens : List Token) (row : List Char) {cs : List Char}
    (hall : ∀ c ∈ cs, isNumeralChar c = true) :
    run? ⟨tokens, .numeral row⟩ cs = some ⟨tokens, .numeral (cs.reverse ++ row)⟩ := by
  induction cs generalizing row with
  | nil => rfl
  | cons c cs ih =>
      have hhead := hall c (List.mem_cons_self ..)
      have hstep : Pass.step? ⟨tokens, .numeral row⟩ (.char c) =
          some ⟨tokens, .numeral (c :: row)⟩ := by
        simp [Pass.step?, readSymbol?, readChar?, hhead]
      rw [run?_cons, hstep, Option.bind_some,
        ih _ fun c hmem => hall c (List.mem_cons_of_mem _ hmem)]
      simp

theorem isNumeralChar_toChar (d : Digit) : isNumeralChar d.toChar = true := by
  revert d
  decide

theorem begin?_toChar (d : Digit) : begin? d.toChar = some ([], .numeral [d.toChar]) := by
  revert d
  decide

/-- A numeral consists of characters that can go on with it. -/
theorem isNumeralChar_of_mem_chars {n : Numeral} {c : Char} (hmem : c ∈ n.chars) :
    isNumeralChar c = true := by
  have hdigit (ds : Digits) (hinside : c ∈ Digits.chars ds) : isNumeralChar c = true := by
    obtain ⟨d, -, rfl⟩ := List.mem_map.mp hinside
    exact isNumeralChar_toChar d
  rw [Numeral.chars_eq, Numeral.restChars] at hmem
  simp only [List.mem_append] at hmem
  rcases hmem with hsign | hwhole | hfraction | hexponent
  · split at hsign
    · rw [List.mem_singleton.mp hsign]
      rfl
    · cases hsign
  · exact hdigit _ hwhole
  · split at hfraction
    · cases hfraction
    · rcases List.mem_cons.mp hfraction with rfl | hinside
      · rfl
      · exact hdigit _ hinside
  · cases hwritten : n.exponent with
    | none =>
        rw [hwritten] at hexponent
        cases hexponent
    | some e =>
        rw [hwritten] at hexponent
        rcases List.mem_cons.mp hexponent with rfl | hrest
        · rfl
        · rcases List.mem_cons.mp hrest with rfl | hinside
          · cases e.negative <;> rfl
          · exact hdigit _ hinside

/-- A canonical numeral begins with a sign or a digit. -/
theorem exists_chars_eq_cons {n : Numeral} (hcanonical : n.Canonical) :
    ∃ c cs, n.chars = c :: cs ∧ begin? c = some ([], .numeral [c]) := by
  rw [Numeral.chars_eq]
  cases n.negative with
  | true => exact ⟨'-', _, rfl, rfl⟩
  | false =>
      obtain ⟨d, ds, hwhole, -⟩ := hcanonical.whole
      rw [hwhole]
      exact ⟨d.toChar, _, rfl, begin?_toChar d⟩

/-- A canonical numeral is read as it is. -/
theorem reads_numeral {n : Numeral} (hcanonical : n.Canonical) : Reads n.chars [.number n] := by
  intro tokens
  obtain ⟨c, cs, hshape, hbegins⟩ := exists_chars_eq_cons hcanonical
  have hall : ∀ c ∈ cs, isNumeralChar c = true := fun c hmem =>
    isNumeralChar_of_mem_chars (by rw [hshape]; exact List.mem_cons_of_mem _ hmem)
  have hfirst : Pass.step? (.atRest tokens) (.char c) = some ⟨tokens.reverse, .numeral [c]⟩ := by
    simp [Pass.step?, Pass.atRest, readSymbol?, readChar?, hbegins]
  refine ⟨⟨tokens.reverse, .numeral n.chars.reverse⟩, ?_, ?_⟩
  · rw [hshape, run?_cons, hfirst, Option.bind_some, run?_numeral _ _ hall, List.reverse_cons]
  · simp [Pass.finish?, finish?, Numeral.parse?_chars hcanonical]

/-- The words are read as they are. -/
theorem reads_null : Reads (Token.chars .null) [.null] :=
  fun tokens => ⟨⟨tokens.reverse, .word ['l', 'l', 'u', 'n']⟩, rfl,
    by simp [Pass.finish?, finish?, wordToken?]⟩

theorem reads_bool (b : Bool) : Reads (Token.chars (.bool b)) [.bool b] := by
  cases b with
  | true => exact fun tokens => ⟨⟨tokens.reverse, .word ['e', 'u', 'r', 't']⟩, rfl,
      by simp [Pass.finish?, finish?, wordToken?]⟩
  | false => exact fun tokens => ⟨⟨tokens.reverse, .word ['e', 's', 'l', 'a', 'f']⟩, rfl,
      by simp [Pass.finish?, finish?, wordToken?]⟩

end RaceIngest.Json
