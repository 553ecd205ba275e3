import GraphPattern.Shorthand.Scan

/-!
# Lexemes

What is read of a text and what is left of it are the text again. `lexeme_append_rest` says so of a
token and `lexeme_ne_nil` that a token takes at least one character, so the places of tokens can be
told by adding up the sizes of what was read.
-/

namespace GraphPattern.Shorthand

/-! ## Numbers -/

theorem splitFraction_append (cs : List Char) :
    (splitFraction cs).1 ++ (splitFraction cs).2 = cs := by
  unfold splitFraction
  split
  · split
    · rfl
    · simp
  · rfl

theorem splitSign_append (cs : List Char) : (splitSign cs).1 ++ (splitSign cs).2 = cs := by
  unfold splitSign
  split <;> rfl

theorem splitExponent_append (cs : List Char) :
    (splitExponent cs).1 ++ (splitExponent cs).2 = cs := by
  unfold splitExponent
  split
  · rfl
  · split
    · split
      · rfl
      · simp [splitSign_append]
    · rfl

theorem scanNumber_append (cs : List Char) :
    (scanNumber cs).lexeme ++ (scanNumber cs).rest = cs := by
  simp only [scanNumber, List.append_assoc, splitExponent_append, splitFraction_append,
    List.takeWhile_append_dropWhile]

/-! ## Names -/

theorem trimDots_append (cs : List Char) : ∃ dots, trimDots cs ++ dots = cs := by
  refine ⟨(cs.reverse.takeWhile (· = '.')).reverse, ?_⟩
  rw [trimDots, ← List.reverse_append, List.takeWhile_append_dropWhile, List.reverse_reverse]

theorem scanLocal_append (label cs : List Char) :
    (scanLocal label cs).lexeme ++ (scanLocal label cs).rest = label ++ ':' :: cs := by
  obtain ⟨dots, h⟩ := trimDots_append (cs.takeWhile isLocalChar)
  have hc : trimDots (cs.takeWhile isLocalChar) ++ (dots ++ cs.dropWhile isLocalChar) = cs := by
    rw [← List.append_assoc, h, List.takeWhile_append_dropWhile]
  have hd := congrArg (List.drop (trimDots (cs.takeWhile isLocalChar)).length) hc
  rw [List.drop_left] at hd
  simp only [scanLocal, ← hd, List.append_assoc, List.cons_append, hc]

theorem scanWord_append (cs : List Char) : (scanWord cs).lexeme ++ (scanWord cs).rest = cs := by
  unfold scanWord
  split
  · rename_i rest h
    rw [scanLocal_append, ← h, List.takeWhile_append_dropWhile]
  · exact List.takeWhile_append_dropWhile

theorem scanIri_append {cs : List Char} {s : Scanned} (h : scanIri cs = some s) :
    s.lexeme ++ s.rest = '<' :: cs := by
  unfold scanIri at h
  split at h
  · rename_i rest hr
    cases h
    simp [← hr]
  · cases h

theorem scanVariable_append {sigil : Char} {cs : List Char} {s : Scanned}
    (h : scanVariable sigil cs = some s) : s.lexeme ++ s.rest = sigil :: cs := by
  unfold scanVariable at h
  split at h
  · cases h
  · cases h
    simp

theorem scanLabel_append {cs : List Char} {s : Scanned} (h : scanLabel cs = .ok s) :
    s.lexeme ++ s.rest = '_' :: ':' :: cs := by
  unfold scanLabel at h
  split at h
  · cases h
  · cases h
    simp

theorem scanSign_append {c : Char} {cs : List Char} {s : Scanned} (h : scanSign c cs = some s) :
    s.lexeme ++ s.rest = c :: cs := by
  unfold scanSign at h
  split at h
  · cases h
    exact congrArg (c :: ·) (List.take_append_drop 1 cs)
  · obtain ⟨k, _, rfl⟩ := Option.map_eq_some_iff.mp h
    rfl

/-! ## Strings -/

theorem prepend_eq_ok {read : List Char} {value : Char} {r : Except ScanFault StringBody}
    {body : StringBody} (h : prepend read value r = .ok body) :
    ∃ b, r = .ok b ∧ body = ⟨value :: b.value, read ++ b.lexeme, b.rest⟩ := by
  cases r with
  | error e => cases h
  | ok b => exact ⟨b, rfl, (Except.ok.inj h).symm⟩

theorem scanBody_append {quote : Char} {cs : List Char} {body : StringBody}
    (h : scanBody quote cs = .ok body) : body.lexeme ++ body.rest = cs := by
  fun_induction scanBody quote cs generalizing body with
  | case1 => cases h
  | case2 cs => cases h; rfl
  | case3 => cases h
  | case4 d ds _ _ _ ih =>
    obtain ⟨b, hb, rfl⟩ := prepend_eq_ok h
    simp [ih hb]
  | case5 => cases h
  | case6 c cs _ _ ih =>
    obtain ⟨b, hb, rfl⟩ := prepend_eq_ok h
    simp [ih hb]

theorem scanString_append {quote : Char} {cs : List Char} {s : Scanned}
    (h : scanString quote cs = .ok s) : s.lexeme ++ s.rest = quote :: cs := by
  unfold scanString at h
  split at h
  · cases h
  · rename_i body hb
    have hcs := scanBody_append hb
    dsimp only at h
    split at h
    · rename_i rest hr
      split at h
      · cases h
      · cases h
        simp [← hcs, hr]
    · cases h
      simp [← hcs]

/-! ## Tokens -/

theorem scanOther_append {c : Char} {cs : List Char} {s : Scanned} (h : scanOther c cs = .ok s) :
    s.lexeme ++ s.rest = c :: cs := by
  unfold scanOther at h
  split at h
  · cases h
  · split at h
    · exact scanString_append h
    · split at h
      · rename_i hc
        obtain ⟨rfl, hd⟩ : c = '_' ∧ cs.head? = some ':' := by simpa using hc
        obtain ⟨tail, rfl⟩ := List.head?_eq_some_iff.mp hd
        exact scanLabel_append h
      · split at h
        · rename_i hc
          cases h
          exact hc ▸ scanLocal_append [] cs
        · split at h
          · cases h
            exact scanNumber_append _
          · split at h
            · cases h
              exact scanWord_append _
            · cases h

/-- What was read for a token and what is left are the text. -/
theorem lexeme_append_rest {afterOperand : Bool} {c : Char} {cs : List Char} {s : Scanned}
    (h : scan afterOperand c cs = .ok s) : s.lexeme ++ s.rest = c :: cs := by
  unfold scan at h
  dsimp only at h
  split at h
  · rename_i t ht
    cases h
    rcases Option.or_eq_some_iff.mp ht with hn | ⟨_, hs⟩
    · split at hn
      · exact scanVariable_append hn
      · split at hn
        · rename_i hc
          obtain ⟨rfl, _⟩ : c = '<' ∧ afterOperand = false := by simpa using hc
          exact scanIri_append hn
        · cases hn
    · exact scanSign_append hs
  · split at h
    · cases h
    · exact scanOther_append h

/-! ## Progress -/

theorem scanNumber_ne_nil {c : Char} {cs : List Char} (h : c.isDigit = true) :
    (scanNumber (c :: cs)).lexeme ≠ [] := by
  simp [scanNumber, h]

theorem scanWord_ne_nil {c : Char} {cs : List Char} (h : isNameChar c = true) :
    (scanWord (c :: cs)).lexeme ≠ [] := by
  unfold scanWord
  split
  · simp [scanLocal]
  · simp [h]

theorem scanIri_ne_nil {cs : List Char} {s : Scanned} (h : scanIri cs = some s) :
    s.lexeme ≠ [] := by
  unfold scanIri at h
  split at h
  · cases h
    simp
  · cases h

theorem scanVariable_ne_nil {sigil : Char} {cs : List Char} {s : Scanned}
    (h : scanVariable sigil cs = some s) : s.lexeme ≠ [] := by
  unfold scanVariable at h
  split at h
  · cases h
  · cases h
    simp

theorem scanLabel_ne_nil {cs : List Char} {s : Scanned} (h : scanLabel cs = .ok s) :
    s.lexeme ≠ [] := by
  unfold scanLabel at h
  split at h
  · cases h
  · cases h
    simp

theorem scanSign_ne_nil {c : Char} {cs : List Char} {s : Scanned} (h : scanSign c cs = some s) :
    s.lexeme ≠ [] := by
  unfold scanSign at h
  split at h
  · cases h
    simp
  · obtain ⟨k, _, rfl⟩ := Option.map_eq_some_iff.mp h
    simp

theorem scanString_ne_nil {quote : Char} {cs : List Char} {s : Scanned}
    (h : scanString quote cs = .ok s) : s.lexeme ≠ [] := by
  unfold scanString at h
  split at h
  · cases h
  · dsimp only at h
    split at h
    · split at h
      · cases h
      · cases h
        simp
    · cases h
      simp

theorem scanOther_ne_nil {c : Char} {cs : List Char} {s : Scanned} (h : scanOther c cs = .ok s) :
    s.lexeme ≠ [] := by
  unfold scanOther at h
  split at h
  · cases h
  · split at h
    · exact scanString_ne_nil h
    · split at h
      · exact scanLabel_ne_nil h
      · split at h
        · cases h
          simp [scanLocal]
        · split at h
          · rename_i hc
            cases h
            exact scanNumber_ne_nil hc
          · split at h
            · rename_i hc
              cases h
              exact scanWord_ne_nil hc
            · cases h

/-- A token takes at least one character. -/
theorem lexeme_ne_nil {afterOperand : Bool} {c : Char} {cs : List Char} {s : Scanned}
    (h : scan afterOperand c cs = .ok s) : s.lexeme ≠ [] := by
  unfold scan at h
  dsimp only at h
  split at h
  · rename_i t ht
    cases h
    rcases Option.or_eq_some_iff.mp ht with hn | ⟨_, hs⟩
    · split at hn
      · exact scanVariable_ne_nil hn
      · split at hn
        · exact scanIri_ne_nil hn
        · cases hn
    · exact scanSign_ne_nil hs
  · split at h
    · cases h
    · exact scanOther_ne_nil h

end GraphPattern.Shorthand
