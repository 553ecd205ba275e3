import GraphPattern.Proofs.Shorthand.Kinds

/-!
# How tokens are spelled

One equation for each token that the text of an expression has: what is read first of such a text is
the token. A token that could go on has to be followed by a character that ends it, such as a space
or a parenthesis.
-/

namespace GraphPattern

namespace Text

/-! ## Classes of characters -/

/-- What holds of the first 128 code points holds of all of ASCII. -/
theorem forall_ascii {P : Char → Prop} (h : ∀ n : Fin 128, P (Char.ofNat n)) {c : Char}
    (hc : c.toNat < 128) : P c := by
  have hn := h ⟨c.toNat, hc⟩
  rwa [Char.ofNat_toNat] at hn

/-- Whether each range of one class ends before each of the other starts, or the other way round. -/
def CodeRanges.disjoint (r s : CodeRanges) : Bool :=
  r.toList.all fun x => s.toList.all fun y => x.2 < y.1 || y.2 < x.1

/-- Classes whose ranges lie apart have no character in common. -/
theorem CodeRanges.not_contains_of_disjoint {r s : CodeRanges} (h : r.disjoint s = true) {c : Char}
    (hc : r.contains c = true) : s.contains c = false := by
  obtain ⟨x, hx, hxc⟩ := List.any_eq_true.mp hc
  have hs := List.all_eq_true.mp h x hx
  refine List.any_eq_false.mpr fun y hy hyc => ?_
  have hapart := List.all_eq_true.mp hs y hy
  simp only [Bool.and_eq_true, Bool.or_eq_true, decide_eq_true_eq] at hxc hyc hapart
  omega

theorem alphabeticRanges_disjoint : alphabeticRanges.disjoint whitespaceRanges = true := by
  decide +kernel

theorem numericRanges_disjoint : numericRanges.disjoint whitespaceRanges = true := by
  decide +kernel

theorem not_isWhitespace_of_isAlphanumeric {c : Char} (h : isAlphanumeric c = true) :
    isWhitespace c = false := by
  by_cases hascii : c.toNat < 128
  · exact forall_ascii (P := fun c => isAlphanumeric c = true → isWhitespace c = false)
      (by decide +kernel) hascii h
  · rw [isAlphanumeric, isAlphabetic, isNumeric, if_neg hascii, if_neg hascii,
      Bool.or_eq_true] at h
    rcases h with h | h
    · exact CodeRanges.not_contains_of_disjoint alphabeticRanges_disjoint h
    · exact CodeRanges.not_contains_of_disjoint numericRanges_disjoint h

end Text

namespace Shorthand

open Text

variable {c : Char}

theorem not_isWhitespace_of_isIriChar (h : isIriChar c = true) : isWhitespace c = false := by
  rw [isIriChar, Bool.and_eq_true, Bool.not_eq_true'] at h
  exact h.1

theorem isIriChar_of_isNameChar (h : isNameChar c = true) : isIriChar c = true := by
  by_cases hascii : c.toNat < 128
  · exact forall_ascii (P := fun c => isNameChar c = true → isIriChar c = true)
      (by decide +kernel) hascii h
  · have hne : ∀ d : Char, d.toNat < 128 → c ≠ d := by
      rintro d hd rfl
      exact hascii hd
    have halpha : isAlphanumeric c = true := by
      rw [isNameChar, Bool.or_eq_true, decide_eq_true_eq] at h
      exact h.resolve_right (hne '_' (by decide))
    simp only [isIriChar, not_isWhitespace_of_isAlphanumeric halpha, iriExcluded, Bool.not_false,
      Bool.true_and, Bool.not_eq_true', List.contains_eq_mem, decide_eq_false_iff_not,
      List.mem_cons, List.not_mem_nil, or_false, not_or]
    exact ⟨hne _ (by decide), hne _ (by decide), hne _ (by decide), hne _ (by decide),
      hne _ (by decide), hne _ (by decide), hne _ (by decide), hne _ (by decide), hne _ (by decide)⟩

theorem not_isWhitespace_of_isNameChar (h : isNameChar c = true) : isWhitespace c = false :=
  not_isWhitespace_of_isIriChar (isIriChar_of_isNameChar h)

theorem isIriChar_of_isLocalChar (h : isLocalChar c = true) : isIriChar c = true := by
  rw [isLocalChar, Bool.or_eq_true] at h
  rcases h with h | h
  · exact isIriChar_of_isNameChar h
  · simp only [List.contains_eq_mem, List.mem_cons, List.not_mem_nil, or_false,
      decide_eq_true_eq] at h
    rcases h with rfl | rfl | rfl | rfl <;> decide

theorem isNameChar_of_isAlphanum (h : c.isAlphanum = true) : isNameChar c = true := by
  have hascii : c.toNat < 128 := by
    have hle : ∀ d : Char, c ≤ d → c.toNat ≤ d.toNat := fun d hd => hd
    have h : (c.isUpper || c.isLower || c.isDigit) = true := h
    rw [Bool.or_eq_true, Bool.or_eq_true] at h
    rcases h with (h | h) | h
    · exact Nat.lt_of_le_of_lt (hle 'Z' (of_decide_eq_true h).2) (by decide)
    · have hlast := of_decide_eq_true ((Bool.and_eq_true _ _).mp h).2
      exact Nat.lt_of_le_of_lt (hle 'z' hlast) (by decide)
    · have hlast := of_decide_eq_true ((Bool.and_eq_true _ _).mp h).2
      exact Nat.lt_of_le_of_lt (hle '9' hlast) (by decide)
  rw [isNameChar, isAlphanumeric_of_ascii hascii, h, Bool.true_or]

theorem isNameChar_of_isDigit (h : c.isDigit = true) : isNameChar c = true :=
  isNameChar_of_isAlphanum (by rw [Char.isAlphanum, h, Bool.or_true])

/-! ## Where tokens end -/

/-- The characters that stand between the tokens of an expression or a path where one of them could go
on. -/
def breaks : List Char := [' ', '(', ')', ',', '/']

/-- Whether a token that could go on ends before this text. -/
def Breaks (cs : List Char) : Prop := ∀ c ∈ cs.head?, c ∈ breaks

theorem breaks_nil : Breaks [] := nofun

theorem breaks_cons {cs : List Char} (h : c ∈ breaks) : Breaks (c :: cs) := by
  intro d hd
  cases hd
  exact h

section Spans

variable {p : Char → Bool} {w rest : List Char}

theorem takeWhile_eq_nil_of_head {cs : List Char} (h : ∀ c ∈ cs.head?, p c = false) :
    cs.takeWhile p = [] := by
  cases cs with
  | nil => rfl
  | cons c cs => rw [List.takeWhile_cons_of_neg (by simp [h c rfl])]

theorem dropWhile_eq_self_of_head {cs : List Char} (h : ∀ c ∈ cs.head?, p c = false) :
    cs.dropWhile p = cs := by
  cases cs with
  | nil => rfl
  | cons c cs => rw [List.dropWhile_cons_of_neg (by simp [h c rfl])]

/-- A run of a class of characters is taken up to the first character of another class. -/
theorem takeWhile_append_of_head (hw : ∀ c ∈ w, p c = true) (h : ∀ c ∈ rest.head?, p c = false) :
    (w ++ rest).takeWhile p = w := by
  rw [List.takeWhile_append_of_pos hw, takeWhile_eq_nil_of_head h, List.append_nil]

theorem dropWhile_append_of_head (hw : ∀ c ∈ w, p c = true) (h : ∀ c ∈ rest.head?, p c = false) :
    (w ++ rest).dropWhile p = rest := by
  rw [List.dropWhile_append_of_pos hw, dropWhile_eq_self_of_head h]

theorem Breaks.head {cs : List Char} (h : Breaks cs) (hp : breaks.all (!p ·) = true) :
    ∀ c ∈ cs.head?, p c = false := by
  intro c hc
  simpa using List.all_eq_true.mp hp c (h c hc)

end Spans

/-! ## Signs -/

theorem scanSign_of_isNameChar (h : isNameChar c = true) (cs : List Char) :
    scanSign c cs = none := by
  have hpaired : ∀ d, paired c d = none := by
    intro d
    unfold paired
    split <;> first | rfl | exact absurd h (by decide)
  have hsingle : single c = none := by
    unfold single
    split <;> first | rfl | exact absurd h (by decide)
  unfold scanSign
  cases cs with
  | nil => simp [hsingle]
  | cons d ds => simp [hpaired, hsingle]

variable {cs rest : List Char} {afterOperand : Bool}

/-- A sign of one character that does not form one with the next. -/
theorem kinds_single {k : TokenKind} (hk : single c = some k) (hq : c ≠ '?')
    (hlt : c = '<' → afterOperand = true) (hnext : ∀ d ∈ cs.head?, paired c d = none) :
    kinds afterOperand (c :: cs) = (kinds k.endsOperand cs).map (k :: ·) := by
  have hwhite : isWhitespace c = false := by
    unfold single at hk
    split at hk <;> first | decide | cases hk
  have hdollar : c ≠ '$' := by
    rintro rfl
    cases hk
  refine kinds_cons_of_scan (s := ⟨k, [c], cs⟩) hwhite ?_
  have hsign : scanSign c cs = some ⟨k, [c], cs⟩ := by
    unfold scanSign
    cases cs with
    | nil => simp [hk]
    | cons d ds => simp [hnext d rfl, hk]
  have hname : (c = '<' && !afterOperand) = false := by
    by_cases hc : c = '<'
    · simp [hc, hlt hc]
    · simp [hc]
  simp [scan, hq, hdollar, hname, hsign]

/-- A sign of two characters. -/
theorem kinds_paired {d : Char} {k : TokenKind} (hk : paired c d = some k)
    (hlt : c = '<' → afterOperand = true) :
    kinds afterOperand (c :: d :: cs) = (kinds k.endsOperand cs).map (k :: ·) := by
  have hwhite : isWhitespace c = false ∧ c ≠ '?' ∧ c ≠ '$' := by
    unfold paired at hk
    split at hk <;> first | decide | cases hk
  refine kinds_cons_of_scan (s := ⟨k, [c, d], cs⟩) hwhite.1 ?_
  have hname : (c = '<' && !afterOperand) = false := by
    by_cases hc : c = '<'
    · simp [hc, hlt hc]
    · simp [hc]
  simp [scan, hwhite, hname, scanSign, hk]

/-! ## Names -/

theorem kinds_iri {iri : List Char} (h : ∀ c ∈ iri, isIriChar c = true) (rest : List Char) :
    kinds false ('<' :: (iri ++ '>' :: rest)) =
      (kinds true rest).map (.iriRef (String.ofList iri) :: ·) := by
  have hend : ∀ c ∈ ('>' :: rest).head?, isIriChar c = false := by
    intro c hc
    cases hc
    decide
  have hscan : scanIri (iri ++ '>' :: rest) =
      some ⟨.iriRef (String.ofList iri), '<' :: (iri ++ ['>']), rest⟩ := by
    simp only [scanIri, takeWhile_append_of_head h hend, dropWhile_append_of_head h hend]
  refine kinds_cons_of_scan (s := ⟨_, '<' :: (iri ++ ['>']), rest⟩) (by decide) ?_
  simp [scan, hscan]

theorem kinds_var (afterOperand : Bool) {name : List Char} (hne : name ≠ [])
    (h : ∀ c ∈ name, isNameChar c = true) (hrest : Breaks rest) :
    kinds afterOperand ('?' :: (name ++ rest)) =
      (kinds true rest).map (.var (String.ofList name) :: ·) := by
  have hend := hrest.head (p := isNameChar) (by decide)
  have hscan : scanVariable '?' (name ++ rest) =
      some ⟨.var (String.ofList name), '?' :: name, rest⟩ := by
    unfold scanVariable
    rw [takeWhile_append_of_head h hend, dropWhile_append_of_head h hend]
    cases name with
    | nil => exact absurd rfl hne
    | cons c cs => rfl
  refine kinds_cons_of_scan (s := ⟨_, '?' :: name, rest⟩) (by decide) ?_
  simp [scan, hscan]

theorem kinds_label (afterOperand : Bool) {label : List Char} (hne : label ≠ [])
    (h : ∀ c ∈ label, isNameChar c = true) (hrest : Breaks rest) :
    kinds afterOperand ('_' :: ':' :: (label ++ rest)) =
      (kinds true rest).map (.blankNode (String.ofList label) :: ·) := by
  have hend := hrest.head (p := isNameChar) (by decide)
  have hscan : scanLabel (label ++ rest) =
      .ok ⟨.blankNode (String.ofList label), '_' :: ':' :: label, rest⟩ := by
    unfold scanLabel
    rw [takeWhile_append_of_head h hend, dropWhile_append_of_head h hend]
    cases label with
    | nil => exact absurd rfl hne
    | cons c cs => rfl
  refine kinds_cons_of_scan (s := ⟨_, '_' :: ':' :: label, rest⟩) (by decide) ?_
  simp [scan, scanSign_of_isNameChar (c := '_') (by decide), scanOther, hscan]

/-- A word that does not start like a number. -/
theorem kinds_word (hc : isNameChar c = true) (hdigit : c.isDigit = false)
    (h : ∀ d ∈ cs, isNameChar d = true) (hrest : Breaks rest) :
    kinds afterOperand (c :: (cs ++ rest)) =
      (kinds true rest).map (.word (String.ofList (c :: cs)) :: ·) := by
  have hall : ∀ d ∈ c :: cs, isNameChar d = true := List.forall_mem_cons.mpr ⟨hc, h⟩
  have hend := hrest.head (p := isNameChar) (by decide)
  have hscan : scanWord (c :: cs ++ rest) =
      ⟨.word (String.ofList (c :: cs)), c :: cs, rest⟩ := by
    unfold scanWord
    rw [takeWhile_append_of_head hall hend, dropWhile_append_of_head hall hend]
    cases rest with
    | nil => rfl
    | cons d ds =>
      have hd : d ∈ breaks := hrest d rfl
      split
      · rename_i hcolon
        cases hcolon
        exact absurd hd (by decide)
      · rfl
  have hne : ∀ d, isNameChar d = false → c ≠ d := by
    rintro d hd rfl
    rw [hc] at hd
    cases hd
  -- what follows a single underscore is no colon
  have hlabel : (cs ++ rest).head? ≠ some ':' := by
    intro hhead
    cases cs with
    | nil => exact absurd (hrest ':' hhead) (by decide)
    | cons d ds =>
      cases hhead
      exact absurd (h ':' List.mem_cons_self) (by decide)
  refine kinds_cons_of_scan (s := ⟨_, c :: cs, rest⟩) (not_isWhitespace_of_isNameChar hc) ?_
  rw [List.cons_append] at hscan
  generalize cs ++ rest = tail at hscan hlabel ⊢
  simp [scan, scanSign_of_isNameChar hc, scanOther, hne '?' (by decide), hne '$' (by decide),
    hne '<' (by decide), hne '&' (by decide), hne '"' (by decide), hne '\x27' (by decide),
    hne ':' (by decide), hlabel, hdigit, hc, hscan]

/-! ## Strings -/

section Body

variable {quote : Char} {body : StringBody}

theorem scanBody_cons_quote (quote : Char) (rest : List Char) :
    scanBody quote (quote :: rest) = .ok ⟨[], [quote], rest⟩ := by
  rw [scanBody.eq_def]
  simp

theorem scanBody_cons_escape {d u : Char} (hquote : '\\' ≠ quote) (hd : unescape d = some u)
    (h : scanBody quote cs = .ok body) :
    scanBody quote ('\\' :: d :: cs) =
      .ok ⟨u :: body.value, '\\' :: d :: body.lexeme, body.rest⟩ := by
  rw [scanBody.eq_def]
  simp [hquote, hd, h, prepend]

theorem scanBody_cons_plain (hquote : c ≠ quote) (hslash : c ≠ '\\')
    (h : scanBody quote cs = .ok body) :
    scanBody quote (c :: cs) = .ok ⟨c :: body.value, c :: body.lexeme, body.rest⟩ := by
  rw [scanBody.eq_def]
  simp [hquote, hslash, h, prepend]

end Body

/-- A character is written as it is, or as an escape that stands for it. -/
theorem escape_eq_or (c : Char) :
    (∃ d, Literal.escape c = ['\\', d] ∧ unescape d = some c) ∨
      Literal.escape c = [c] ∧ c ≠ '"' ∧ c ≠ '\\' := by
  by_cases hquote : c = '"'
  · exact .inl ⟨'"', by simp [Literal.escape, hquote], by rw [hquote]; rfl⟩
  by_cases hslash : c = '\\'
  · exact .inl ⟨'\\', by simp [Literal.escape, hslash], by rw [hslash]; rfl⟩
  by_cases hline : c = '\n'
  · exact .inl ⟨'n', by simp [Literal.escape, hline], by rw [hline]; rfl⟩
  by_cases hreturn : c = '\r'
  · exact .inl ⟨'r', by simp [Literal.escape, hreturn], by rw [hreturn]; rfl⟩
  by_cases htab : c = '\t'
  · exact .inl ⟨'t', by simp [Literal.escape, htab], by rw [htab]; rfl⟩
  · refine .inr ⟨?_, hquote, hslash⟩
    simp [Literal.escape, hquote, hslash, hline, hreturn, htab]

/-- An escaped text is read as the text. -/
theorem scanBody_escape (value rest : List Char) :
    ∃ lexeme, scanBody '"' (value.flatMap Literal.escape ++ '"' :: rest) =
      .ok ⟨value, lexeme, rest⟩ := by
  induction value with
  | nil => exact ⟨_, scanBody_cons_quote '"' rest⟩
  | cons c value ih =>
    obtain ⟨lexeme, ih⟩ := ih
    rw [List.flatMap_cons, List.append_assoc]
    rcases escape_eq_or c with ⟨d, hc, hd⟩ | ⟨hc, hquote, hslash⟩
    · rw [hc]
      exact ⟨_, scanBody_cons_escape (by decide) hd ih⟩
    · rw [hc]
      exact ⟨_, scanBody_cons_plain hquote hslash ih⟩

/-- A string after which no language tag follows. -/
theorem kinds_string (afterOperand : Bool) (value : List Char) (hrest : rest.head? ≠ some '@') :
    kinds afterOperand ('"' :: (value.flatMap Literal.escape ++ '"' :: rest)) =
      (kinds true rest).map (.string (String.ofList value) none :: ·) := by
  obtain ⟨lexeme, hbody⟩ := scanBody_escape value rest
  have hscan : scanString '"' (value.flatMap Literal.escape ++ '"' :: rest) =
      .ok ⟨.string (String.ofList value) none, '"' :: lexeme, rest⟩ := by
    unfold scanString
    rw [hbody]
    dsimp only
    split
    · rename_i tail
      exact absurd rfl hrest
    · rfl
  refine kinds_cons_of_scan (s := ⟨_, '"' :: lexeme, rest⟩) (by decide) ?_
  simp [scan, scanSign, paired, single, scanOther, hscan]

theorem kinds_tagged (afterOperand : Bool) (value : List Char) {tag : List Char} (hne : tag ≠ [])
    (hhead : tag.head? ≠ some '-') (h : ∀ c ∈ tag, isTagChar c = true) (hrest : Breaks rest) :
    kinds afterOperand ('"' :: (value.flatMap Literal.escape ++ '"' :: '@' :: (tag ++ rest))) =
      (kinds true rest).map (.string (String.ofList value) (some (String.ofList tag)) :: ·) := by
  obtain ⟨lexeme, hbody⟩ := scanBody_escape value ('@' :: (tag ++ rest))
  have hend := hrest.head (p := isTagChar) (by decide)
  have hscan : scanString '"' (value.flatMap Literal.escape ++ '"' :: '@' :: (tag ++ rest)) =
      .ok ⟨.string (String.ofList value) (some (String.ofList tag)),
        '"' :: (lexeme ++ '@' :: tag), rest⟩ := by
    unfold scanString
    rw [hbody]
    simp [takeWhile_append_of_head h hend, dropWhile_append_of_head h hend, hne, hhead]
  refine kinds_cons_of_scan (s := ⟨_, '"' :: (lexeme ++ '@' :: tag), rest⟩) (by decide) ?_
  simp [scan, scanSign, paired, single, scanOther, hscan]

/-! ## Numbers -/

/-- Whether the text is a point with digits after it, or nothing. -/
def IsFraction (cs : List Char) : Prop :=
  cs = [] ∨ ∃ digits, cs = '.' :: digits ∧ isDigits digits = true

/-- Whether the text is a sign of an exponent, or nothing. -/
def IsSign (sign : List Char) : Prop := sign = [] ∨ sign = ['+'] ∨ sign = ['-']

/-- Whether the text is a letter for the exponent, an optional sign and digits, or nothing. -/
def IsExponent (cs : List Char) : Prop :=
  cs = [] ∨ ∃ mark sign digits, cs = mark :: (sign ++ digits) ∧ isExponentMark mark = true ∧
    (sign = [] ∨ sign = ['+'] ∨ sign = ['-']) ∧ isDigits digits = true

/-- The form of a number with such parts after its whole digits. -/
def numberKind (fraction exponent : List Char) : String → TokenKind :=
  if !exponent.isEmpty then .double else if !fraction.isEmpty then .decimal else .integer

theorem isDigits_iff {cs : List Char} :
    isDigits cs = true ↔ cs ≠ [] ∧ ∀ c ∈ cs, c.isDigit = true := by
  simp [isDigits]

theorem not_isDigit_of_mark (h : isExponentMark c = true) : c.isDigit = false ∧ c ≠ '.' := by
  simp only [isExponentMark, Bool.or_eq_true, decide_eq_true_eq] at h
  rcases h with rfl | rfl <;> decide

/-- Digits end before an exponent and before what follows it. -/
theorem IsExponent.head_append {exponent : List Char} (h : IsExponent exponent)
    (hrest : Breaks rest) : ∀ c ∈ (exponent ++ rest).head?, c.isDigit = false ∧ c ≠ '.' := by
  rcases h with rfl | ⟨mark, sign, digits, rfl, hmark, _, _⟩
  · intro c hc
    have hmem := hrest c hc
    simp only [breaks, List.mem_cons, List.not_mem_nil, or_false] at hmem
    rcases hmem with rfl | rfl | rfl | rfl | rfl <;> decide
  · intro c hc
    cases hc
    exact not_isDigit_of_mark hmark

theorem splitFraction_append_exponent {fraction exponent : List Char} (hf : IsFraction fraction)
    (he : IsExponent exponent) (hrest : Breaks rest) :
    splitFraction (fraction ++ (exponent ++ rest)) = (fraction, exponent ++ rest) := by
  have hhead := he.head_append hrest
  have hend : ∀ c ∈ (exponent ++ rest).head?, c.isDigit = false := fun c hc => (hhead c hc).1
  rcases hf with rfl | ⟨digits, rfl, hdigits⟩
  · rw [List.nil_append]
    unfold splitFraction
    split
    · rename_i tail htail
      exact absurd rfl (hhead '.' (by rw [htail]; rfl)).2
    · rfl
  · obtain ⟨hne, hall⟩ := isDigits_iff.mp hdigits
    rw [List.cons_append, splitFraction, takeWhile_append_of_head hall hend,
      dropWhile_append_of_head hall hend]
    cases digits with
    | nil => exact absurd rfl hne
    | cons d ds => rfl

theorem splitSign_of_isDigit {sign : List Char} (hsign : IsSign sign) {d : Char}
    (hd : d.isDigit = true) (cs : List Char) :
    splitSign (sign ++ d :: cs) = (sign, d :: cs) := by
  rcases hsign with rfl | rfl | rfl
  · rw [List.nil_append]
    unfold splitSign
    split
    · rename_i heq
      cases heq
      exact absurd hd (by decide)
    · rename_i heq
      cases heq
      exact absurd hd (by decide)
    · rfl
  · rfl
  · rfl

theorem splitExponent_append_rest {exponent : List Char} (he : IsExponent exponent)
    (hrest : Breaks rest) : splitExponent (exponent ++ rest) = (exponent, rest) := by
  rcases he with rfl | ⟨mark, sign, digits, rfl, hmark, hsign, hdigits⟩
  · cases rest with
    | nil => rfl
    | cons c cs =>
      have hc : isExponentMark c = false := hrest.head (p := isExponentMark) (by decide) c rfl
      rw [List.nil_append, splitExponent, if_neg (by simp [hc])]
  · obtain ⟨hne, hall⟩ := isDigits_iff.mp hdigits
    have hend : ∀ c ∈ rest.head?, c.isDigit = false := hrest.head (p := Char.isDigit) (by decide)
    cases digits with
    | nil => exact absurd rfl hne
    | cons d ds =>
      have hd := hall d List.mem_cons_self
      rw [List.cons_append, List.append_assoc, splitExponent, if_pos hmark, List.cons_append,
        splitSign_of_isDigit hsign hd]
      dsimp only
      rw [← List.cons_append, takeWhile_append_of_head hall hend,
        dropWhile_append_of_head hall hend]

/-- A digit starts a number. -/
theorem scan_of_isDigit (h : c.isDigit = true) (afterOperand : Bool) (cs : List Char) :
    scan afterOperand c cs = .ok (scanNumber (c :: cs)) := by
  have hother : ∀ d, d.isDigit = false → c ≠ d := by
    rintro d hd rfl
    rw [h] at hd
    cases hd
  simp [scan, scanSign_of_isNameChar (isNameChar_of_isDigit h), scanOther, hother '?' (by decide),
    hother '$' (by decide), hother '<' (by decide), hother '&' (by decide),
    hother '"' (by decide), hother '\x27' (by decide), hother ':' (by decide),
    hother '_' (by decide), h]

theorem endsOperand_numberKind (fraction exponent : List Char) (text : String) :
    (numberKind fraction exponent text).endsOperand = true := by
  unfold numberKind
  repeat' split
  all_goals rfl

/-- A number without a sign. -/
theorem kinds_number {whole fraction exponent : List Char} (hw : isDigits whole = true)
    (hf : IsFraction fraction) (he : IsExponent exponent) (hrest : Breaks rest) :
    kinds afterOperand (whole ++ fraction ++ exponent ++ rest) =
      (kinds true rest).map
        (numberKind fraction exponent (String.ofList (whole ++ fraction ++ exponent)) :: ·) := by
  obtain ⟨hne, hall⟩ := isDigits_iff.mp hw
  have hend : ∀ c ∈ (fraction ++ (exponent ++ rest)).head?, c.isDigit = false := by
    rcases hf with rfl | ⟨digits, rfl, _⟩
    · exact fun c hc => (he.head_append hrest c hc).1
    · intro c hc
      cases hc
      decide
  have hscan : scanNumber (whole ++ fraction ++ exponent ++ rest) =
      ⟨numberKind fraction exponent (String.ofList (whole ++ fraction ++ exponent)),
        whole ++ fraction ++ exponent, rest⟩ := by
    simp only [scanNumber, List.append_assoc]
    rw [takeWhile_append_of_head hall hend, dropWhile_append_of_head hall hend,
      splitFraction_append_exponent hf he hrest, splitExponent_append_rest he hrest]
    rfl
  cases whole with
  | nil => exact absurd rfl hne
  | cons c cs =>
    have hc : c.isDigit = true := hall c List.mem_cons_self
    have hends := endsOperand_numberKind fraction exponent
      (String.ofList (c :: cs ++ fraction ++ exponent))
    simp only [List.cons_append] at hscan hends ⊢
    generalize numberKind fraction exponent _ = kind at hscan hends ⊢
    rw [← hends]
    refine kinds_cons_of_scan (s := ⟨_, c :: (cs ++ fraction ++ exponent), rest⟩)
      (not_isWhitespace_of_isNameChar (isNameChar_of_isDigit hc)) ?_
    rw [scan_of_isDigit hc, hscan]

end Shorthand

end GraphPattern
