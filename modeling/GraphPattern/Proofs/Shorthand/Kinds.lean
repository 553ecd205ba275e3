import GraphPattern.Shorthand
import GraphPattern.Shorthand.Lexeme

/-!
# The forms of tokens

Which tokens a text is cut into does not depend on where it stands, and the limit does not matter
where it is not below the number of characters. So `kinds` has one equation for each step: white space
is skipped (`kinds_cons_of_isWhitespace`), and a token comes before those of the rest
(`kinds_cons_of_scan`).
-/

namespace GraphPattern.Shorthand

open Text

/-- The forms of some tokens, if there are any. -/
def kindsOf (result : Except Fault Tokens) : Option (List TokenKind) :=
  result.toOption.map fun ts => ts.items.map Token.kind

/-- The forms of the tokens of a text, if it can be cut into tokens. -/
def kinds (afterOperand : Bool) (cs : List Char) : Option (List TokenKind) :=
  kindsOf (tokenizeFrom cs.length afterOperand 0 cs)

/-- What is left after a token is shorter. -/
theorem length_rest_lt {afterOperand : Bool} {c : Char} {cs : List Char} {s : Scanned}
    (h : scan afterOperand c cs = .ok s) : s.rest.length < (c :: cs).length := by
  have hlength := congrArg List.length (lexeme_append_rest h)
  have hpos : 0 < s.lexeme.length := List.length_pos_iff.mpr (lexeme_ne_nil h)
  rw [List.length_append] at hlength
  omega

theorem length_dropWhile_le (p : Char → Bool) (cs : List Char) :
    (cs.dropWhile p).length ≤ cs.length :=
  (List.dropWhile_sublist p).length_le

/-- One step, where the text is cut from one limit to the next. -/
theorem kindsOf_tokenizeFrom_succ (limit : Nat) (afterOperand : Bool) (offset : Nat)
    (cs : List Char) :
    kindsOf (tokenizeFrom (limit + 1) afterOperand offset cs) =
      match cs.dropWhile isWhitespace with
      | [] => some []
      | c :: cs' =>
        match scan afterOperand c cs' with
        | .error _ => none
        | .ok s =>
          (kindsOf (tokenizeFrom limit s.kind.endsOperand
            (offset + byteSize (cs.takeWhile isWhitespace) + byteSize s.lexeme) s.rest)).map
              (s.kind :: ·) := by
  rw [tokenizeFrom]
  cases cs.dropWhile isWhitespace with
  | nil => rfl
  | cons c cs' =>
    cases hs : scan afterOperand c cs' with
    | error e => simp [hs, kindsOf, Except.toOption]
    | ok s =>
      simp only [hs]
      cases tokenizeFrom limit s.kind.endsOperand
        (offset + byteSize (cs.takeWhile isWhitespace) + byteSize s.lexeme) s.rest <;> rfl

/-- Neither the offset matters nor the limit, if it is not below the number of characters. -/
theorem kindsOf_tokenizeFrom {limit limit' : Nat} {afterOperand : Bool} {cs : List Char}
    (h : cs.length ≤ limit) (h' : cs.length ≤ limit') (offset offset' : Nat) :
    kindsOf (tokenizeFrom limit afterOperand offset cs) =
      kindsOf (tokenizeFrom limit' afterOperand offset' cs) := by
  have hnil : ∀ limit afterOperand offset,
      kindsOf (tokenizeFrom limit afterOperand offset []) = some [] := by
    intro limit afterOperand offset
    cases limit <;> rfl
  induction limit generalizing limit' afterOperand cs offset offset' with
  | zero =>
    obtain rfl := List.length_eq_zero_iff.mp (Nat.le_zero.mp h)
    rw [hnil, hnil]
  | succ limit ih =>
    cases limit' with
    | zero =>
      obtain rfl := List.length_eq_zero_iff.mp (Nat.le_zero.mp h')
      rw [hnil, hnil]
    | succ limit' =>
      rw [kindsOf_tokenizeFrom_succ, kindsOf_tokenizeFrom_succ]
      cases hd : cs.dropWhile isWhitespace with
      | nil => rfl
      | cons c cs' =>
        cases hs : scan afterOperand c cs' with
        | error e => simp only [hs]
        | ok s =>
          have hle := length_dropWhile_le isWhitespace cs
          have hlt := length_rest_lt hs
          rw [hd] at hle
          simp only [hs]
          rw [ih (by omega) (show s.rest.length ≤ limit' by omega)]

/-! ## Equations -/

theorem kindsOf_tokenizeFrom_eq {limit : Nat} {cs : List Char} (h : cs.length ≤ limit)
    (afterOperand : Bool) (offset : Nat) :
    kindsOf (tokenizeFrom limit afterOperand offset cs) = kinds afterOperand cs :=
  kindsOf_tokenizeFrom h (Nat.le_refl _) offset 0

/-- The first token and those of the rest. -/
theorem kinds_eq (afterOperand : Bool) (cs : List Char) :
    kinds afterOperand cs =
      match cs.dropWhile isWhitespace with
      | [] => some []
      | c :: cs' =>
        match scan afterOperand c cs' with
        | .error _ => none
        | .ok s => (kinds s.kind.endsOperand s.rest).map (s.kind :: ·) := by
  rw [← kindsOf_tokenizeFrom_eq (Nat.le_succ cs.length) afterOperand 0, kindsOf_tokenizeFrom_succ]
  cases hd : cs.dropWhile isWhitespace with
  | nil => rfl
  | cons c cs' =>
    cases hs : scan afterOperand c cs' with
    | error e => simp only [hs]
    | ok s =>
      have hle := length_dropWhile_le isWhitespace cs
      have hlt := length_rest_lt hs
      rw [hd] at hle
      simp only [hs]
      rw [kindsOf_tokenizeFrom_eq (by omega)]

@[simp] theorem kinds_nil (afterOperand : Bool) : kinds afterOperand [] = some [] := rfl

theorem kinds_cons_of_isWhitespace {c : Char} (h : isWhitespace c = true) (afterOperand : Bool)
    (cs : List Char) : kinds afterOperand (c :: cs) = kinds afterOperand cs := by
  rw [kinds_eq, kinds_eq afterOperand cs, List.dropWhile_cons_of_pos h]

variable {c : Char} {cs : List Char} {afterOperand : Bool}

theorem kinds_cons_of_scan {s : Scanned} (hc : isWhitespace c = false)
    (h : scan afterOperand c cs = .ok s) :
    kinds afterOperand (c :: cs) = (kinds s.kind.endsOperand s.rest).map (s.kind :: ·) := by
  rw [kinds_eq, List.dropWhile_cons_of_neg (by simp [hc])]
  simp only [h]

theorem kinds_cons_of_error {e : ScanFault} (hc : isWhitespace c = false)
    (h : scan afterOperand c cs = .error e) : kinds afterOperand (c :: cs) = none := by
  rw [kinds_eq, List.dropWhile_cons_of_neg (by simp [hc])]
  simp only [h]

/-! ## Whole texts -/

theorem tokenize_of_kinds {cs : List Char} {ks : List TokenKind} (h : kinds false cs = some ks) :
    ∃ ts, tokenize cs = .ok ts ∧ ts.items.map Token.kind = ks := by
  obtain ⟨ts, hts, rfl⟩ := Option.map_eq_some_iff.mp h
  refine ⟨ts, ?_, rfl⟩
  cases hc : tokenizeFrom cs.length false 0 cs with
  | error e => rw [hc] at hts; cases hts
  | ok ts' =>
    rw [hc] at hts
    cases hts
    exact hc

theorem tokenize_of_kinds_eq_none {cs : List Char} (h : kinds false cs = none) :
    ∃ e, tokenize cs = .error e := by
  cases hc : tokenizeFrom cs.length false 0 cs with
  | error e => exact ⟨e, hc⟩
  | ok ts =>
    rw [kinds, hc] at h
    cases h

end GraphPattern.Shorthand
