import Mathlib.Control.Basic
import RaceIngest.Text.Utf8

/-!
# Written characters are read back

The encoding of a character is its shortest, so the reader finds the length of a sequence in its
lead byte and takes the character from it; the bytes of a text are read as its characters, none of
them malformed. Whatever bytes were read as a text, they are read alike when more is written after
them.

## Main statements

* `Utf8.leading?_encodeChar`: the character at the start of encoded text,
* `Utf8.symbols_encode`: the symbols of an encoded text,
* `Utf8.decode?_append`: a text goes on with what is written after it.
-/

namespace RaceIngest.Text.Utf8

theorem toNat_ofNat {n : Nat} (hsmall : n < 256) : (UInt8.ofNat n).toNat = n := by
  rw [UInt8.toNat_ofNat']
  exact Nat.mod_eq_of_lt hsmall

theorem continuation?_ofNat {n : Nat} (hsmall : n < 64) :
    continuation? (UInt8.ofNat (0x80 + n)) = some n := by
  have hbyte := toNat_ofNat (show 0x80 + n < 256 by omega)
  unfold continuation?
  rw [hbyte, if_pos (by omega)]
  simp

theorem toNat_lt (c : Char) : c.toNat < 0x110000 := by
  have hvalid : c.toNat.isValidChar := c.valid
  simp only [Nat.isValidChar] at hvalid
  omega

/-- The character with the code point of a character. -/
theorem scalarFrom?_toNat {c : Char} {least n : Nat} (hsame : n = c.toNat)
    (habove : least ≤ c.toNat) : scalarFrom? least n = some c := by
  subst hsame
  have hvalid : c.toNat.isValidChar := c.valid
  rw [scalarFrom?, dif_pos ⟨habove, hvalid⟩]
  rfl

variable {c : Char}

/-! ## Sequences of two, three and four bytes -/

theorem pair?_eq (hlow : 0x80 ≤ c.toNat) (hhigh : c.toNat < 0x800) :
    pair? (UInt8.ofNat (0xc0 + c.toNat / 64)) (UInt8.ofNat (0x80 + c.toNat % 64)) = some c := by
  have hlead := toNat_ofNat (show 0xc0 + c.toNat / 64 < 256 by omega)
  have hnext := continuation?_ofNat (Nat.mod_lt c.toNat (show 0 < 64 by decide))
  have hrange : 0xc0 ≤ 0xc0 + c.toNat / 64 ∧ 0xc0 + c.toNat / 64 < 0xe0 := by omega
  simp only [pair?, hlead, hnext, guard, if_pos hrange]
  exact scalarFrom?_toNat (by omega) hlow

theorem pair?_eq_none {a b : UInt8} (hhigh : 0xe0 ≤ a.toNat) : pair? a b = none := by
  have hrange : ¬(0xc0 ≤ a.toNat ∧ a.toNat < 0xe0) := by omega
  simp only [pair?, guard, if_neg hrange]
  rfl

theorem triple?_eq (hlow : 0x800 ≤ c.toNat) (hhigh : c.toNat < 0x10000) :
    triple? (UInt8.ofNat (0xe0 + c.toNat / 4096)) (UInt8.ofNat (0x80 + c.toNat / 64 % 64))
      (UInt8.ofNat (0x80 + c.toNat % 64)) = some c := by
  have hlead := toNat_ofNat (show 0xe0 + c.toNat / 4096 < 256 by omega)
  have hnext := continuation?_ofNat (Nat.mod_lt (c.toNat / 64) (show 0 < 64 by decide))
  have hlast := continuation?_ofNat (Nat.mod_lt c.toNat (show 0 < 64 by decide))
  have hrange : 0xe0 ≤ 0xe0 + c.toNat / 4096 ∧ 0xe0 + c.toNat / 4096 < 0xf0 := by omega
  simp only [triple?, hlead, hnext, hlast, guard, if_pos hrange]
  exact scalarFrom?_toNat (by omega) hlow

theorem triple?_eq_none {a b d : UInt8} (hhigh : 0xf0 ≤ a.toNat) : triple? a b d = none := by
  have hrange : ¬(0xe0 ≤ a.toNat ∧ a.toNat < 0xf0) := by omega
  simp only [triple?, guard, if_neg hrange]
  rfl

theorem quadruple?_eq (hlow : 0x10000 ≤ c.toNat) :
    quadruple? (UInt8.ofNat (0xf0 + c.toNat / 262144)) (UInt8.ofNat (0x80 + c.toNat / 4096 % 64))
      (UInt8.ofNat (0x80 + c.toNat / 64 % 64)) (UInt8.ofNat (0x80 + c.toNat % 64)) = some c := by
  have hhigh := toNat_lt c
  have hlead := toNat_ofNat (show 0xf0 + c.toNat / 262144 < 256 by omega)
  have hsecond := continuation?_ofNat (Nat.mod_lt (c.toNat / 4096) (show 0 < 64 by decide))
  have hnext := continuation?_ofNat (Nat.mod_lt (c.toNat / 64) (show 0 < 64 by decide))
  have hlast := continuation?_ofNat (Nat.mod_lt c.toNat (show 0 < 64 by decide))
  have hrange : 0xf0 ≤ 0xf0 + c.toNat / 262144 ∧ 0xf0 + c.toNat / 262144 < 0xf8 := by omega
  simp only [quadruple?, hlead, hsecond, hnext, hlast, guard, if_pos hrange]
  exact scalarFrom?_toNat (by omega) hlow

/-! ## Texts -/

/-- The bytes of a character are read as the character, and how many of them follow the lead byte
is known. -/
theorem leading?_encodeChar (c : Char) (rest : List UInt8) :
    ∃ lead continuing, encodeChar c = lead :: continuing ∧
      leading? (encodeChar c ++ rest) = some (c, continuing.length) := by
  have hbound := toNat_lt c
  unfold encodeChar
  simp only
  by_cases hone : c.toNat < 0x80
  · have hlead := toNat_ofNat (show c.toNat < 256 by omega)
    refine ⟨_, [], by rw [if_pos hone], ?_⟩
    simp [leading?, hone, hlead]
  by_cases htwo : c.toNat < 0x800
  · have hlead := toNat_ofNat (show 0xc0 + c.toNat / 64 < 256 by omega)
    refine ⟨_, [_], by rw [if_neg hone, if_pos htwo], ?_⟩
    rw [if_neg hone, if_pos htwo]
    simp only [List.cons_append, List.nil_append, leading?, hlead]
    rw [if_neg (by omega), pair?_eq (by omega) htwo]
    rfl
  by_cases hthree : c.toNat < 0x10000
  · have hlead := toNat_ofNat (show 0xe0 + c.toNat / 4096 < 256 by omega)
    refine ⟨_, [_, _], by rw [if_neg hone, if_neg htwo, if_pos hthree], ?_⟩
    rw [if_neg hone, if_neg htwo, if_pos hthree]
    simp only [List.cons_append, List.nil_append, leading?, hlead]
    rw [if_neg (by omega), pair?_eq_none (by rw [hlead]; omega)]
    simp only [triple?_eq (by omega) hthree]
    rfl
  · have hlead := toNat_ofNat (show 0xf0 + c.toNat / 262144 < 256 by omega)
    refine ⟨_, [_, _, _], by rw [if_neg hone, if_neg htwo, if_neg hthree], ?_⟩
    rw [if_neg hone, if_neg htwo, if_neg hthree]
    simp only [List.cons_append, List.nil_append, leading?, hlead]
    rw [if_neg (by omega), pair?_eq_none (by rw [hlead]; omega)]
    simp only [triple?_eq_none (show 0xf0 ≤ (UInt8.ofNat (0xf0 + c.toNat / 262144)).toNat by omega)]
    rw [quadruple?_eq (by omega)]
    rfl

theorem symbolsAfter_skip (reversed : List Symbol) (skipped rest : List UInt8) :
    symbolsAfter reversed skipped.length (skipped ++ rest) = symbolsAfter reversed 0 rest := by
  induction skipped with
  | nil => rfl
  | cons b skipped ih => exact ih

/-- The bytes of a text are read as its characters. -/
theorem symbols_encode (cs : List Char) : symbols (encode cs) = cs.map .char := by
  induction cs with
  | nil => rfl
  | cons c cs ih =>
      obtain ⟨lead, continuing, hshape, hfound⟩ := leading?_encodeChar c (encode cs)
      have split : encode (c :: cs) = lead :: (continuing ++ encode cs) := by
        rw [← List.cons_append, ← hshape]
        rfl
      rw [hshape, List.cons_append] at hfound
      rw [symbols, split, symbolsAfter, hfound]
      simp only
      rw [symbolsAfter_skip, symbolsAfter_eq_append]
      exact congrArg (Symbol.char c :: ·) ih

/-! ## Bytes that follow a text -/

/-- A character at the start of some bytes is there whatever follows them, and the bytes hold all
that continues it. -/
theorem leading?_append {a : UInt8} {bytes : List UInt8} {c : Char} {continuing : Nat}
    (hfound : leading? (a :: bytes) = some (c, continuing)) (rest : List UInt8) :
    leading? (a :: (bytes ++ rest)) = some (c, continuing) ∧ continuing ≤ bytes.length := by
  by_cases hascii : a.toNat < 0x80
  · simp only [leading?, if_pos hascii, Option.some.injEq, Prod.mk.injEq] at hfound ⊢
    exact ⟨hfound, by omega⟩
  · simp only [leading?, if_neg hascii] at hfound ⊢
    rcases bytes with _ | ⟨b, bytes⟩
    · cases hfound
    cases htwo : pair? a b with
    | some ch =>
        simp only [htwo, List.cons_append, Option.some.injEq, Prod.mk.injEq] at hfound ⊢
        exact ⟨hfound, by simp [← hfound.2]⟩
    | none =>
        simp only [htwo, List.cons_append] at hfound ⊢
        rcases bytes with _ | ⟨d, bytes⟩
        · cases hfound
        cases hthree : triple? a b d with
        | some ch =>
            simp only [hthree, List.cons_append, Option.some.injEq, Prod.mk.injEq] at hfound ⊢
            exact ⟨hfound, by simp [← hfound.2]⟩
        | none =>
            simp only [hthree, List.cons_append] at hfound ⊢
            rcases bytes with _ | ⟨e, bytes⟩
            · cases hfound
            simp only [List.cons_append] at hfound ⊢
            refine ⟨hfound, ?_⟩
            obtain ⟨ch, -, hsame⟩ := Option.map_eq_some_iff.mp hfound
            cases hsame
            simp

theorem text?_cons (s : Symbol) (ss : List Symbol) {cs : List Char}
    (hread : text? (s :: ss) = some cs) :
    ∃ c rest, s = .char c ∧ cs = c :: rest ∧ text? ss = some rest := by
  cases s with
  | malformed => simp [text?] at hread
  | char c =>
      simp only [text?, List.mapM_cons, bind, Option.bind_some, pure, Option.bind_eq_some_iff,
        Option.some.injEq] at hread
      obtain ⟨rest, htail, rfl⟩ := hread
      exact ⟨c, rest, rfl, rfl, htail⟩

/-- Bytes that are a text are read alike whatever follows them, and what follows is read as if
nothing stood before it. -/
theorem symbolsAfter_append {skipped : Nat} {bytes : List UInt8} {cs : List Char}
    (hinside : skipped ≤ bytes.length) (hread : text? (symbolsAfter [] skipped bytes) = some cs)
    (rest : List UInt8) :
    symbolsAfter [] skipped (bytes ++ rest) = cs.map .char ++ symbols rest := by
  induction bytes generalizing skipped cs with
  | nil =>
      obtain rfl : skipped = 0 := by simpa using hinside
      obtain rfl : cs = [] := by simpa [symbolsAfter, text?] using hread.symm
      rfl
  | cons a bytes ih =>
      cases skipped with
      | succ skipped => exact ih (by simpa using hinside) hread
      | zero =>
          cases hfound : leading? (a :: bytes) with
          | none =>
              rw [symbolsAfter, hfound] at hread
              simp only at hread
              rw [symbolsAfter_eq_append] at hread
              obtain ⟨c, -, hmalformed, -⟩ := text?_cons _ _ hread
              cases hmalformed
          | some leading =>
              obtain ⟨c, continuing⟩ := leading
              obtain ⟨hfoundOn, hheld⟩ := leading?_append hfound rest
              rw [symbolsAfter, hfound] at hread
              simp only at hread
              rw [symbolsAfter_eq_append] at hread
              obtain ⟨c, tail, hsame, rfl, hreadOn⟩ := text?_cons _ _ hread
              cases hsame
              rw [List.cons_append, symbolsAfter, hfoundOn]
              simp only
              rw [symbolsAfter_eq_append, ih hheld hreadOn]
              rfl

theorem text?_char (cs : List Char) : text? (cs.map .char) = some cs := by
  induction cs with
  | nil => rfl
  | cons c cs ih =>
      rw [text?] at ih ⊢
      rw [List.map_cons, List.mapM_cons, ih]
      rfl

/-- **A text goes on** with the text of the bytes that follow it. -/
theorem decode?_append {bytes : List UInt8} {cs : List Char} (hread : decode? bytes = some cs)
    (rest : List Char) : decode? (bytes ++ encode rest) = some (cs ++ rest) := by
  have hall : (cs ++ rest).map Symbol.char = cs.map .char ++ symbols (encode rest) := by
    rw [symbols_encode, List.map_append]
  rw [decode?, symbols, symbolsAfter_append (Nat.zero_le _) hread, ← hall, text?_char]

end RaceIngest.Text.Utf8
