import GraphPattern.Proofs.Shorthand.Plain
import GraphPattern.Proofs.Shorthand.Yields
import Mathlib.Data.List.TakeWhile

/-!
# What is read is plain

Tokens are made of the characters of their form (`tokenize_plain`), so all that is read of them is
plain: its names, tags and IRIs can be written in shorthand again. IRIs come from prefixes as well, so
their namespaces have to be made of characters of IRIs (`resolveExpression_plain`).
-/

namespace GraphPattern

/-- Whether IRIs in all namespaces can stand between angle brackets. -/
def Prefixes.IsPlain (p : Prefixes) : Prop :=
  ∀ label ns, p.namespace? label = some ns → Iri.IsPlain ⟨ns⟩

theorem Prefixes.isPlain_empty : Prefixes.empty.IsPlain := by
  intro label ns h
  cases h

namespace Shorthand

open Steps Text

/-- Whether the text of the token is made of the characters of its form. -/
def TokenKind.IsPlain : TokenKind → Prop
  | .iriRef iri => Iri.IsPlain ⟨iri⟩
  | .prefixedName _ name => ∀ c ∈ name.toList, isLocalChar c = true
  | .var name => IsName name
  | .blankNode label => IsName label
  | .string _ language => ∀ tag ∈ language,
      tag.toList ≠ [] ∧ tag.toList.head? ≠ some '-' ∧ ∀ c ∈ tag.toList, isTagChar c = true
  | .word text => IsName text ∧ ∀ c ∈ text.toList.head?, c.isDigit = false
  | _ => True

/-! ## Tokens -/

theorem isName_ofList {cs : List Char} (hne : cs ≠ []) (h : ∀ c ∈ cs, isNameChar c = true) :
    IsName (String.ofList cs) := by
  rw [IsName, String.toList_ofList]
  exact ⟨hne, h⟩

/-- A run of name characters that is not empty is a name. -/
theorem isName_takeWhile {cs : List Char} (hne : cs.takeWhile isNameChar ≠ []) :
    IsName (String.ofList (cs.takeWhile isNameChar)) :=
  isName_ofList hne fun _ hc => List.mem_takeWhile_imp hc

theorem scanIri_plain {cs : List Char} {s : Scanned} (h : scanIri cs = some s) :
    s.kind.IsPlain := by
  unfold scanIri at h
  split at h
  · cases h
    intro c hc
    rw [String.toList_ofList] at hc
    exact List.mem_takeWhile_imp hc
  · cases h

theorem scanVariable_plain {sigil : Char} {cs : List Char} {s : Scanned}
    (h : scanVariable sigil cs = some s) : s.kind.IsPlain := by
  unfold scanVariable at h
  split at h
  · cases h
  · rename_i hne
    cases h
    exact isName_takeWhile hne

theorem scanLocal_plain (label cs : List Char) : (scanLocal label cs).kind.IsPlain := by
  intro c hc
  rw [String.toList_ofList] at hc
  obtain ⟨dots, hdots⟩ := trimDots_append (cs.takeWhile isLocalChar)
  have hmem : c ∈ cs.takeWhile isLocalChar := hdots ▸ List.mem_append_left dots hc
  exact List.mem_takeWhile_imp hmem

theorem scanWord_plain {c : Char} {cs : List Char} (hc : isNameChar c = true)
    (hdigit : c.isDigit = false) : (scanWord (c :: cs)).kind.IsPlain := by
  have hword : (c :: cs).takeWhile isNameChar = c :: cs.takeWhile isNameChar :=
    List.takeWhile_cons_of_pos hc
  unfold scanWord
  split
  · exact scanLocal_plain _ _
  · refine ⟨isName_takeWhile (by simp [hword]), ?_⟩
    rw [String.toList_ofList, hword]
    rintro d ⟨⟩
    exact hdigit

theorem scanLabel_plain {cs : List Char} {s : Scanned} (h : scanLabel cs = .ok s) :
    s.kind.IsPlain := by
  unfold scanLabel at h
  split at h
  · cases h
  · rename_i hne
    cases h
    exact isName_takeWhile hne

theorem scanSign_plain {c : Char} {cs : List Char} {s : Scanned} (h : scanSign c cs = some s) :
    s.kind.IsPlain := by
  have hsign : ∀ k : TokenKind, k.IsPlain ∨ (∀ d, paired c d ≠ some k) ∧ single c ≠ some k := by
    intro k
    cases k with
    | iriRef _ | prefixedName _ _ | var _ | blankNode _ | string _ _ | word _ =>
      refine .inr ⟨fun d hd => ?_, fun hd => ?_⟩
      · unfold paired at hd
        split at hd <;> cases hd
      · unfold single at hd
        split at hd <;> cases hd
    | _ => exact .inl trivial
  unfold scanSign at h
  split at h
  · rename_i k hk
    cases h
    obtain ⟨d, _, hd⟩ := Option.bind_eq_some_iff.mp hk
    exact (hsign k).resolve_right fun hne => hne.1 d hd
  · obtain ⟨k, hk, rfl⟩ := Option.map_eq_some_iff.mp h
    exact (hsign k).resolve_right fun hne => hne.2 hk

theorem scanNumber_plain (cs : List Char) : (scanNumber cs).kind.IsPlain := by
  unfold scanNumber
  dsimp only
  split
  · trivial
  · split <;> trivial

theorem scanString_plain {quote : Char} {cs : List Char} {s : Scanned}
    (h : scanString quote cs = .ok s) : s.kind.IsPlain := by
  unfold scanString at h
  split at h
  · cases h
  · dsimp only at h
    split at h
    · rename_i rest _
      split at h
      · cases h
      · rename_i htag
        rw [Bool.or_eq_true, decide_eq_true_eq, not_or, List.isEmpty_iff] at htag
        cases h
        rintro tag ⟨⟩
        rw [String.toList_ofList]
        exact ⟨htag.1, htag.2, fun c hc => List.mem_takeWhile_imp hc⟩
    · cases h
      nofun

theorem scanOther_plain {c : Char} {cs : List Char} {s : Scanned} (h : scanOther c cs = .ok s) :
    s.kind.IsPlain := by
  unfold scanOther at h
  split at h
  · cases h
  · split at h
    · exact scanString_plain h
    · split at h
      · exact scanLabel_plain h
      · split at h
        · cases h
          exact scanLocal_plain [] cs
        · split at h
          · cases h
            exact scanNumber_plain _
          · rename_i hdigit
            split at h
            · rename_i hname
              cases h
              exact scanWord_plain hname (by simpa using hdigit)
            · cases h

theorem scan_plain {afterOperand : Bool} {c : Char} {cs : List Char} {s : Scanned}
    (h : scan afterOperand c cs = .ok s) : s.kind.IsPlain := by
  unfold scan at h
  dsimp only at h
  split at h
  · rename_i t ht
    cases h
    rcases Option.or_eq_some_iff.mp ht with hn | ⟨_, hs⟩
    · split at hn
      · exact scanVariable_plain hn
      · split at hn
        · exact scanIri_plain hn
        · cases hn
    · exact scanSign_plain hs
  · split at h
    · cases h
    · exact scanOther_plain h

theorem tokenizeFrom_plain {limit : Nat} {afterOperand : Bool} {offset : Nat} {cs : List Char}
    {ts : Tokens} (h : tokenizeFrom limit afterOperand offset cs = .ok ts) :
    AllTokens TokenKind.IsPlain ts.items := by
  induction limit generalizing afterOperand offset cs ts with
  | zero =>
    cases h
    exact List.forall_mem_nil _
  | succ limit ih =>
    rw [tokenizeFrom] at h
    cases hcs : cs.dropWhile isWhitespace with
    | nil =>
      simp only [hcs] at h
      cases h
      exact List.forall_mem_nil _
    | cons c cs' =>
      cases hs : scan afterOperand c cs' with
      | error e => simp [hcs, hs] at h
      | ok s =>
        simp only [hcs, hs] at h
        cases hrest : tokenizeFrom limit s.kind.endsOperand
          (offset + byteSize (cs.takeWhile isWhitespace) + byteSize s.lexeme) s.rest with
        | error e => simp [hrest] at h
        | ok ts' =>
          simp only [hrest] at h
          cases h
          exact List.forall_mem_cons.mpr ⟨scan_plain hs, ih hrest⟩

theorem tokenize_plain {cs : List Char} {ts : Tokens} (h : tokenize cs = .ok ts) :
    AllTokens TokenKind.IsPlain ts.items :=
  tokenizeFrom_plain h

/-! ## Sigils -/

/-- Readers make variables and blank nodes of the names of tokens as they are. There is no sigil left
that would have to be stripped. -/
theorem ofText_of_tokenize {cs : List Char} {ts : Tokens} (h : tokenize cs = .ok ts) :
    ∀ t ∈ ts.items, ∀ name,
      (t.kind = .var name ∨ t.kind = .word name → Variable.ofText name = ⟨name, none⟩) ∧
        (t.kind = .blankNode name → BlankNode.ofText name = ⟨name⟩) := by
  intro t ht name
  have hplain : t.kind.IsPlain := tokenize_plain h t ht
  refine ⟨?_, fun hkind => ?_⟩
  · rintro (hkind | hkind)
    · rw [hkind] at hplain
      exact hplain.variable_ofText
    · rw [hkind] at hplain
      exact hplain.1.variable_ofText
  · rw [hkind] at hplain
    exact hplain.blankNode_ofText

end Shorthand

/-! ## Letters in upper and lower case -/

namespace Text

variable {c : Char}

theorem toUpper_eq_self (h : ¬c.toNat < 128) : c.toUpper = c :=
  dif_neg fun hlower =>
    h (Nat.lt_of_le_of_lt (show c.toNat ≤ 'z'.toNat from hlower.2) (by decide))

theorem toLower_eq_self (h : ¬c.toNat < 128) : c.toLower = c :=
  dif_neg fun hupper =>
    h (Nat.lt_of_le_of_lt (show c.toNat ≤ 'Z'.toNat from hupper.2) (by decide))

theorem isLower_toUpper (c : Char) : c.toUpper.isLower = false := by
  by_cases hascii : c.toNat < 128
  · exact forall_ascii (P := fun c => c.toUpper.isLower = false) (by decide +kernel) hascii
  · rw [toUpper_eq_self hascii]
    refine Bool.eq_false_iff.mpr fun h => hascii ?_
    have hlast : c.toNat ≤ 'z'.toNat := of_decide_eq_true ((Bool.and_eq_true _ _).mp h).2
    exact Nat.lt_of_le_of_lt hlast (by decide)

theorem isUpper_toLower (c : Char) : c.toLower.isUpper = false := by
  by_cases hascii : c.toNat < 128
  · exact forall_ascii (P := fun c => c.toLower.isUpper = false) (by decide +kernel) hascii
  · rw [toLower_eq_self hascii]
    refine Bool.eq_false_iff.mpr fun h => hascii ?_
    have hlast : c.toNat ≤ 'Z'.toNat := (of_decide_eq_true h).2
    exact Nat.lt_of_le_of_lt hlast (by decide)

theorem isDigit_toUpper (h : c.isDigit = false) : c.toUpper.isDigit = false := by
  by_cases hascii : c.toNat < 128
  · exact forall_ascii (P := fun c => c.isDigit = false → c.toUpper.isDigit = false)
      (by decide +kernel) hascii h
  · rw [toUpper_eq_self hascii]
    exact h

end Text

open Shorthand Text

variable {c : Char}

theorem Shorthand.isNameChar_toUpper (h : isNameChar c = true) : isNameChar c.toUpper = true := by
  by_cases hascii : c.toNat < 128
  · exact forall_ascii (P := fun c => isNameChar c = true → isNameChar c.toUpper = true)
      (by decide +kernel) hascii h
  · rw [toUpper_eq_self hascii]
    exact h

theorem Shorthand.isTagChar_toLower (h : isTagChar c = true) : isTagChar c.toLower = true := by
  by_cases hascii : c.toNat < 128
  · exact forall_ascii (P := fun c => isTagChar c = true → isTagChar c.toLower = true)
      (by decide +kernel) hascii h
  · rw [toLower_eq_self hascii]
    exact h

/-- A name in whatever case is one in upper case. -/
theorem Callee.isPlain_ofName {name : String} (h : IsName name)
    (hdigit : ∀ c ∈ name.toList.head?, c.isDigit = false) : (Callee.ofName name).IsPlain := by
  simp only [Callee.ofName, Callee.IsPlain, IsName, String.toList_map, List.head?_map]
  refine ⟨⟨by simpa using h.1, fun c hc => ?_⟩, fun c hc => ?_, fun c hc => ?_⟩
  · obtain ⟨d, hd, rfl⟩ := List.mem_map.mp hc
    exact isNameChar_toUpper (h.2 d hd)
  · obtain ⟨d, _, rfl⟩ := List.mem_map.mp hc
    exact isLower_toUpper d
  · obtain ⟨d, hd, rfl⟩ := Option.map_eq_some_iff.mp hc
    exact isDigit_toUpper (hdigit d hd)

/-- A tag in whatever case is one in lower case. -/
theorem Literal.isPlain_tagged_of_tagChars {tag : String} (hne : tag.toList ≠ [])
    (hhead : tag.toList.head? ≠ some '-') (h : ∀ c ∈ tag.toList, isTagChar c = true)
    (lexical : String) : (Literal.tagged lexical tag).IsPlain := by
  refine isPlain_tagged ?_ lexical
  rw [IsTag, String.toList_map, List.head?_map]
  refine ⟨by simpa using hne, fun hc => ?_, fun c hc => ?_⟩
  · obtain ⟨d, hd, hlower⟩ := Option.map_eq_some_iff.mp hc
    have hd' : isTagChar d = true := h d (List.mem_of_head? hd)
    have hhyphen : d = '-' := by
      by_cases hascii : d.toNat < 128
      · exact forall_ascii (P := fun d => d.toLower = '-' → d = '-') (by decide +kernel) hascii
          hlower
      · rwa [toLower_eq_self hascii] at hlower
    exact hhead (hhyphen ▸ hd)
  · obtain ⟨d, hd, rfl⟩ := List.mem_map.mp hc
    exact ⟨isTagChar_toLower (h d hd), isUpper_toLower d⟩

namespace Shorthand

open Steps

/-! ## Terms -/

namespace Source

variable {s : Source}

theorem expand_plain (hs : s.prefixes.IsPlain) {label name : String} {span : Span} {iri : Iri}
    (hname : ∀ c ∈ name.toList, isLocalChar c = true) (h : s.expand label name span = .ok iri) :
    iri.IsPlain := by
  obtain ⟨ns, hns, rfl⟩ := Option.map_eq_some_iff.mp (expand_eq_ok.mp h)
  intro c hc
  rw [String.toList_append, List.mem_append] at hc
  rcases hc with hc | hc
  · exact hs label ns hns c hc
  · exact isIriChar_of_isLocalChar (hname c hc)

theorem readSuffix_plain (hs : s.prefixes.IsPlain) {value : String} {language : Option String}
    (hlanguage : (TokenKind.string value language).IsPlain) :
    YieldsFrom TokenKind.IsPlain Literal.IsPlain (s.readSuffix value language) := by
  intro ts l rest hts h
  cases language with
  | some tag =>
    cases h
    obtain ⟨hne, hhead, hall⟩ := hlanguage tag rfl
    exact ⟨Literal.isPlain_tagged_of_tagChars hne hhead hall value, hts⟩
  | none =>
    unfold readSuffix at h
    split at h
    · rename_i htag
      cases htag
    · rename_i carets
      split at h
      · rename_i iri span rest'
        cases h
        have hiri := hts ⟨.iriRef iri, span⟩ (by simp)
        exact ⟨Literal.isPlain_typed hiri value, (hts.drop 1).drop 1⟩
      · rename_i label name span rest'
        obtain ⟨iri, hiri, h⟩ := except_bind_eq_ok.mp h
        cases h
        have hname := hts ⟨.prefixedName label name, span⟩ (by simp)
        exact ⟨Literal.isPlain_typed (expand_plain hs hname hiri) value, (hts.drop 1).drop 1⟩
      · cases h
    · cases h
      exact ⟨Literal.isPlain_simple value, hts⟩

theorem readNumber_plain (sign : String) :
    YieldsFrom TokenKind.IsPlain Literal.IsPlain (s.readNumber sign) := by
  intro ts l rest hts h
  unfold readNumber at h
  split at h
  · cases h
    exact ⟨Literal.isPlain_typed (isPlain_datatypes _ (by simp)).1 _, hts.drop 1⟩
  · cases h
    exact ⟨Literal.isPlain_typed (isPlain_datatypes _ (by simp)).1 _, hts.drop 1⟩
  · cases h
    exact ⟨Literal.isPlain_typed (isPlain_datatypes _ (by simp)).1 _, hts.drop 1⟩
  · cases h

theorem wordTerm_plain (word : String) : (wordTerm word).IsPlain := by
  unfold wordTerm
  split
  · exact show Iri.IsPlain ⟨Vocabulary.rdfType⟩ by decide +kernel
  · split
    · exact Literal.isPlain_typed (isPlain_datatypes _ (by simp)).1 _
    · split
      · exact Literal.isPlain_typed (isPlain_datatypes _ (by simp)).1 _
      · exact Literal.isPlain_simple word

theorem readTerm_plain (hs : s.prefixes.IsPlain) :
    YieldsFrom TokenKind.IsPlain Term.IsPlain s.readTerm := by
  intro ts t rest hts h
  -- a literal that a reader of literals has read
  have hliteral : ∀ {r : Reader Literal} {ts' : List Token}, AllTokens TokenKind.IsPlain ts' →
      YieldsFrom TokenKind.IsPlain Literal.IsPlain r → asTerm (r ts') = .ok (t, rest) →
      t.IsPlain ∧ AllTokens TokenKind.IsPlain rest := by
    intro r ts' hts' hr h
    obtain ⟨l, hl, rfl⟩ := asTerm_eq_ok h
    exact hr hts' hl
  cases ts with
  | nil => cases h
  | cons token ts =>
    obtain ⟨kind, span⟩ := token
    have hkind : kind.IsPlain := hts _ List.mem_cons_self
    have hrest : AllTokens TokenKind.IsPlain ts := hts.drop 1
    cases kind with
    | iriRef iri =>
      cases h
      exact ⟨hkind, hrest⟩
    | prefixedName label name =>
      obtain ⟨iri, hiri, h⟩ := except_bind_eq_ok.mp h
      cases h
      exact ⟨expand_plain hs hkind hiri, hrest⟩
    | var name =>
      cases h
      exact ⟨hkind, hrest⟩
    | blankNode label =>
      cases h
      exact ⟨hkind, hrest⟩
    | string value language => exact hliteral hrest (readSuffix_plain hs hkind) h
    | integer text => exact hliteral hts (readNumber_plain "") h
    | decimal text => exact hliteral hts (readNumber_plain "") h
    | double text => exact hliteral hts (readNumber_plain "") h
    | plus => exact hliteral hrest (readNumber_plain "+") h
    | minus => exact hliteral hrest (readNumber_plain "-") h
    | word text =>
      cases h
      exact ⟨wordTerm_plain text, hrest⟩
    | _ => cases h

/-! ## Expressions -/

theorem admits_plain (hs : s.prefixes.IsPlain) :
    Admits s TokenKind.IsPlain Expression.IsPlain where
  term := readTerm_plain hs
  binary hl hr := ⟨trivial, hl, hr⟩
  unary he := ⟨trivial, he⟩
  builtin hname hes :=
    ⟨Callee.isPlain_ofName hname.1 hname.2, Expression.everywhereInAll_iff.mpr hes⟩
  iri hi hes := ⟨hi, Expression.everywhereInAll_iff.mpr hes⟩
  isIn he hes := ⟨trivial, he, Expression.everywhereInAll_iff.mpr hes⟩

end Source

/-- What a text is resolved to can be written in shorthand, if IRIs in all namespaces can. -/
theorem resolveExpression_plain {prefixes : Prefixes} (hp : prefixes.IsPlain) {token : String}
    {e : Expression} (h : resolveExpression prefixes token = .ok e) : e.IsPlain := by
  refine resolveWith_yields (fun text a ha => ?_) h
  obtain ⟨ts, hts, hread⟩ := parse_eq_ok ha
  have hs : (⟨prefixes, ts.finish⟩ : Source).prefixes.IsPlain := hp
  exact (Source.readExpression_yields (Source.admits_plain hs) (tokenize_plain hts) hread).1

end Shorthand

end GraphPattern
