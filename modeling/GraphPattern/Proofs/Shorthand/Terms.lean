import GraphPattern.Proofs.Shorthand.Garbling
import GraphPattern.Proofs.Shorthand.RoundTrip
import GraphPattern.Proofs.Shorthand.Yields

/-!
# Printing and reading a term

The text of a term that is no literal without quotes is resolved to the term
(`Shorthand.resolveTerm_render`). So is that of a literal without quotes, unless it is a number whose
point has no digits on one side (`Shorthand.resolveTerm_render_iff`).
-/

namespace GraphPattern

open Shorthand Text

/-! ## Plain texts -/

section Heads

variable {cs : List Char}

/-- A number starts with a sign, a point or a digit. -/
theorem head_of_number (h : isInteger cs = true ∨ isDecimal cs = true ∨ isDouble cs = true) :
    ∀ c ∈ cs.head?, c.isDigit = true ∨ c ∈ ['+', '-', '.'] := by
  intro c hc
  obtain ⟨cs, rfl⟩ : ∃ ds, cs = c :: ds := by
    cases cs with
    | nil => cases hc
    | cons d ds =>
      cases hc
      exact ⟨ds, rfl⟩
  have hall := (forall_of_number
    (P := fun c => (c.isDigit = true ∨ c ∈ ['+', '-', '.']) ∨ isExponentMark c = true)
    (by simp) (fun c hc => .inl (.inl hc)) (fun c hc => .inr hc) h).2 c List.mem_cons_self
  refine hall.resolve_right fun hmark => ?_
  -- before the exponent there is a number, so the letter does not come first
  obtain ⟨hdigit, hpoint⟩ := not_isDigit_of_mark hmark
  have hdrop : dropSign (c :: cs) = c :: cs := by
    unfold dropSign
    split <;> rename_i heq
    · cases heq
      exact absurd hmark (by decide)
    · cases heq
      exact absurd hmark (by decide)
    · rfl
  rcases h with h | h | h
  · rw [isInteger, hdrop, isDigits_iff] at h
    rw [h.2 c List.mem_cons_self] at hdigit
    cases hdigit
  · obtain ⟨whole, fraction, hcs, hwhole, _⟩ := isDecimal_iff.mp h
    rw [hdrop] at hcs
    cases whole with
    | nil => exact hpoint (List.cons.inj hcs).1
    | cons d whole =>
      rw [(List.cons.inj hcs).1, hwhole d List.mem_cons_self] at hdigit
      cases hdigit
  · have hmantissa : isInteger [] = false ∧ isDecimal [] = false ∧ isPointedInteger [] = false := by
      decide
    simp [isDouble, hmark, hmantissa] at h

theorem not_isAlphabetic_of_ascii {c : Char} (hascii : c.toNat < 128) (h : c.isAlpha = false) :
    isAlphabetic c = false := by
  rw [isAlphabetic_of_ascii hascii, h]

theorem not_isAlphabetic_of_isDigit {c : Char} (h : c.isDigit = true) : isAlphabetic c = false := by
  have hascii : c.toNat < 128 :=
    Nat.lt_of_le_of_lt (of_decide_eq_true ((Bool.and_eq_true _ _).mp h).2 : c.toNat ≤ '9'.toNat)
      (by decide)
  apply not_isAlphabetic_of_ascii hascii
  exact forall_ascii (P := fun c => c.isDigit = true → c.isAlpha = false) (by decide) hascii h

theorem not_isAlphabetic_of_number
    (h : isInteger cs = true ∨ isDecimal cs = true ∨ isDouble cs = true) :
    ∀ c ∈ cs.head?, isAlphabetic c = false := by
  intro c hc
  rcases head_of_number h c hc with hdigit | hsign
  · exact not_isAlphabetic_of_isDigit hdigit
  · simp only [List.mem_cons, List.not_mem_nil, or_false] at hsign
    rcases hsign with rfl | rfl | rfl
    · exact not_isAlphabetic_of_ascii (by decide) (by decide)
    · exact not_isAlphabetic_of_ascii (by decide) (by decide)
    · exact not_isAlphabetic_of_ascii (by decide) (by decide)

end Heads

namespace Shorthand

theorem isPlainText_eq_false {text : String} (h : ∀ c ∈ text.toList.head?, isAlphabetic c = false) :
    isPlainText text = false := by
  rw [isPlainText, Bool.and_eq_false_iff]
  left
  cases hhead : text.toList.head? with
  | none => rfl
  | some c => exact h c hhead

/-- The text of a term is not a plain one, unless it is a truth value. -/
theorem isPlainText_render {t : Term} (ht : t.IsPlain)
    (h : ∀ l, t = .literal l → l.isBare = true → l.lexical ≠ "true" ∧ l.lexical ≠ "false") :
    isPlainText t.render = false := by
  refine isPlainText_eq_false fun c hc => ?_
  cases t with
  | iri i =>
    rw [Term.render, Iri.toList_render] at hc
    cases hc
    exact not_isAlphabetic_of_ascii (by decide) (by decide)
  | free name =>
    rw [Term.render, String.toList_append] at hc
    cases hc
    exact not_isAlphabetic_of_ascii (by decide) (by decide)
  | bound name value => cases ht
  | blank n =>
    rw [Term.render, BlankNode.render, String.toList_append] at hc
    cases hc
    exact not_isAlphabetic_of_ascii (by decide) (by decide)
  | literal l =>
    rw [Term.render, Literal.render] at hc
    split at hc
    · rename_i hbare
      obtain ⟨htrue, hfalse⟩ := h l rfl hbare
      rcases Literal.isBare_iff.mp hbare with ⟨_, h⟩ | ⟨_, h⟩ | ⟨_, h⟩ | ⟨_, h⟩
      · exact not_isAlphabetic_of_number (.inl h) c hc
      · exact not_isAlphabetic_of_number (.inr (.inl h)) c hc
      · exact not_isAlphabetic_of_number (.inr (.inr h)) c hc
      · exact absurd h (not_or.mpr ⟨htrue, hfalse⟩)
    · rw [String.toList_append, Literal.toList_quotedForm] at hc
      cases hc
      exact not_isAlphabetic_of_ascii (by decide) (by decide)

/-! ## Terms -/

variable {prefixes : Prefixes} {t : Term} {text : String} {ks : List TokenKind}

/-- A text with nothing to trim off is read as a term, if it is no plain one. -/
theorem resolveTerm_eq (htight : Tight text.toList) (hplain : isPlainText text = false) :
    resolveTerm prefixes text = (parseTerm prefixes text).mapError (·.within text 0) := by
  rw [resolveTerm, resolveWith, htight.trimmed]
  show Except.mapError _ (if isPlainText text = true then _ else _) = _
  rw [hplain]
  rfl

/-- A text is resolved to the term that its tokens are read as, wherever they are. -/
theorem resolveTerm_of_kinds (htight : Tight text.toList) (hplain : isPlainText text = false)
    (hkinds : kinds false text.toList = some ks)
    (hread : ∀ (s : Source) ts, s.prefixes = prefixes → ts.map Token.kind = ks →
      s.readTerm ts = .ok (t, [])) :
    resolveTerm prefixes text = .ok t := by
  obtain ⟨ts, htokens, hts⟩ := tokenize_of_kinds hkinds
  have hall : read Source.readTerm prefixes text.toList = .ok t := by
    rw [read, htokens]
    show Source.readAll _ _ ts.items = _
    rw [Source.readAll, hread _ _ rfl hts]
    rfl
  rw [resolveTerm_eq htight hplain, parseTerm, parse, hall]
  rfl

theorem resolveTerm_of_spells (ht : t.IsPlain) (hunsigned : t.IsUnsigned)
    (hplain : isPlainText t.render = false) : resolveTerm prefixes t.render = .ok t := by
  have hspells := Term.spells_render ht hunsigned
  refine resolveTerm_of_kinds (Term.tight_render ht) hplain hspells.kinds_eq_some fun s ts _ hts => ?_
  exact (stands_term ht).readTerm hts

/-- The text of a term is resolved to the term: an IRI, a free variable or a blank node that shorthand
can name, or a literal in quotes, with whatever lexical form. -/
theorem resolveTerm_render {t : Term} (ht : t.IsPlain)
    (hquoted : ∀ l, t = .literal l → l.isBare = false) (prefixes : Prefixes) :
    resolveTerm prefixes t.render = .ok t := by
  have hnot : ∀ l, t = .literal l → l.isBare ≠ true := fun l hl => by simp [hquoted l hl]
  refine resolveTerm_of_spells ht ?_ (isPlainText_render ht fun l hl hbare => absurd hbare (hnot l hl))
  cases t with
  | literal l => exact fun hbare => absurd hbare (hnot l rfl)
  | _ => trivial

theorem resolveTerm_render_quoted : ∃ l : Literal,
    (l.IsPlain ∧ l.isBare = false) ∧ l.render = "\"1\\\\\\\"\\n<é\"@en-gb" ∧
      resolveTerm .empty (Term.literal l).render = .ok (.literal l) := by
  have hplain : (Literal.tagged "1\\\"\n<é" "en-GB").IsPlain :=
    Literal.isPlain_tagged (by decide +kernel) _
  refine ⟨.tagged "1\\\"\n<é" "en-GB", ⟨hplain, rfl⟩, by decide +kernel, ?_⟩
  refine resolveTerm_render (t := .literal _) hplain (fun l hl => ?_) .empty
  cases hl
  rfl

/-! ## Literals without quotes -/

variable {l : Literal}

theorem isPlain_of_isBare (hlanguage : l.language = none) (hbare : l.isBare = true) : l.IsPlain where
  language tag htag := by
    rw [hlanguage] at htag
    cases htag
  datatype d hd := by
    rcases Literal.isBare_iff.mp hbare with ⟨h, _⟩ | ⟨h, _⟩ | ⟨h, _⟩ | ⟨h, _⟩
    all_goals
      rw [h] at hd
      cases hd
      exact isPlain_datatypes _ (by simp)

/-- A truth value is a plain text, and a word that stands for it. -/
theorem resolveTerm_boolean (value : Bool) :
    resolveTerm prefixes (Literal.boolean value).render = .ok (.literal (.boolean value)) := by
  have htext : isPlainText (Literal.boolean value).render = true := by
    cases value <;> decide +kernel
  have htight : Tight (Literal.boolean value).render.toList := by
    cases value <;> exact .name (by decide)
  rw [resolveTerm, resolveWith, htight.trimmed]
  show Except.mapError _ (if isPlainText _ = true then _ else _) = _
  rw [if_pos htext]
  cases value <;> rfl

theorem eq_boolean (hlanguage : l.language = none) (hbare : l.isBare = true)
    (h : l.lexical = "true" ∨ l.lexical = "false") : ∃ value, l = .boolean value := by
  obtain ⟨lexical, datatype, _⟩ := l
  obtain rfl := hlanguage
  have hform : ∀ form : List Char → Bool, form "true".toList = false → form "false".toList = false →
      form lexical.toList ≠ true := by
    intro form htrue hfalse
    rcases h with rfl | rfl
    · rw [htrue]
      nofun
    · rw [hfalse]
      nofun
  rcases Literal.isBare_iff.mp hbare with ⟨_, h⟩ | ⟨_, h⟩ | ⟨_, h⟩ | ⟨hd, _⟩
  · exact absurd h (hform isInteger (by decide) (by decide))
  · exact absurd h (hform isDecimal (by decide) (by decide))
  · exact absurd h (hform isDouble (by decide) (by decide))
  · obtain rfl := hd
    rcases h with rfl | rfl
    · exact ⟨true, rfl⟩
    · exact ⟨false, rfl⟩

/-- A sign and the number after it are read as one literal. -/
theorem readTerm_signed {s : Source} {op : UnaryOp} {ts : List Token} (hlanguage : l.language = none)
    (hsign : l.sign? = some op) (hts : ts.map Token.kind = [op.token, l.withoutSign.bareToken]) :
    s.readTerm ts = .ok (.literal l, []) := by
  obtain ⟨hbare, hoperator⟩ := Literal.sign?_eq_some hsign
  obtain ⟨⟨_, span⟩, _, rfl, rfl, hlast⟩ := List.map_eq_cons_iff.mp hts
  obtain ⟨span', rfl⟩ := exists_of_map_eq_singleton hlast
  obtain ⟨lexical, datatype, _⟩ := l
  obtain rfl := hlanguage
  have hlexical : op.symbol ++ String.ofList (dropSign lexical.toList) = lexical := by
    rw [← String.toList_inj, String.toList_append, String.toList_ofList]
    exact (eq_symbol_append_dropSign hoperator).symm
  have hread : s.readNumber op.symbol
      [⟨(Literal.mk lexical datatype none).withoutSign.bareToken, span'⟩] =
        .ok (⟨lexical, datatype, none⟩, []) := by
    rcases Literal.isNumber_of_sign? hsign with ⟨hd, _⟩ | ⟨hd, _⟩ | ⟨hd, _⟩
    all_goals
      obtain rfl := hd
      show Except.ok (Literal.typed (op.symbol ++ String.ofList (dropSign lexical.toList)) _, _) = _
      rw [hlexical]
      exact congrArg (fun l => Except.ok (l, [])) (typed_eq (by decide) lexical)
  cases op with
  | plus => exact congrArg Source.asTerm hread
  | neg => exact congrArg Source.asTerm hread
  | not =>
    unfold signOperator? at hoperator
    split at hoperator <;> cases hoperator

theorem resolveTerm_of_isLegible (hlanguage : l.language = none) (hbare : l.isBare = true)
    (h : l.IsLegible) : resolveTerm prefixes l.render = .ok (.literal l) := by
  have hplain : (Term.literal l).IsPlain := isPlain_of_isBare hlanguage hbare
  by_cases hboolean : l.lexical = "true" ∨ l.lexical = "false"
  · obtain ⟨value, rfl⟩ := eq_boolean hlanguage hbare hboolean
    exact resolveTerm_boolean value
  · have htext : isPlainText (Term.literal l).render = false :=
      isPlainText_render hplain fun l' hl _ => by
        cases hl
        exact not_or.mp hboolean
    cases hsign : l.sign? with
    | none =>
      exact resolveTerm_of_spells (t := .literal l) hplain
        ((Literal.isUnsigned_iff_isLegible hsign).mpr h) htext
    | some op =>
      have hwithout := Literal.isBare_withoutSign hsign
      have hnumber := Literal.tight_lexical hwithout
      have hspells := (Literal.spells_bare ((Literal.isUnsigned_withoutSign_iff hsign).mpr h)
        hwithout).unary hnumber.ne_nil (fun hhead => (hnumber.head '=' hhead).2 rfl) op
      have hrender : l.render.toList = op.symbol.toList ++ l.withoutSign.lexical.toList := by
        rw [Literal.render, if_pos hbare, Literal.toList_withoutSign]
        exact eq_symbol_append_dropSign (Literal.sign?_eq_some hsign).2
      rw [← hrender] at hspells
      exact resolveTerm_of_kinds (Literal.tight_render hplain) htext hspells.kinds_eq_some
        fun s ts _ hts => readTerm_signed hlanguage hsign hts

/-- A number with a bare point cannot be cut into tokens. -/
theorem resolveTerm_of_not_isLegible (hlanguage : l.language = none) (hbare : l.isBare = true)
    (h : ¬l.IsLegible) : ∃ e, resolveTerm prefixes l.render = .error e := by
  have hplain : (Term.literal l).IsPlain := isPlain_of_isBare hlanguage hbare
  have htext : isPlainText (Term.literal l).render = false :=
    isPlainText_render hplain fun l' hl hbare' => by
      cases hl
      exact ⟨fun htrue => h fun _ => .inl htrue, fun hfalse => h fun _ => .inr (.inl hfalse)⟩
  obtain ⟨e, he⟩ := tokenize_of_kinds_eq_none (Literal.garbles_render h).kinds_eq_none
  have hread : read Source.readTerm prefixes l.render.toList = .error e := by
    rw [read, he]
    rfl
  have hresolve : resolveTerm prefixes l.render = _ :=
    resolveTerm_eq (Literal.tight_render hplain) htext
  rw [hresolve, parseTerm, parse, hread]
  exact ⟨_, rfl⟩

/-- The text of a literal without quotes is resolved to the literal if and only if it is a truth value
or a number whose point, if it has one, has digits on both sides. -/
theorem resolveTerm_render_iff {l : Literal} (hlanguage : l.language = none)
    (hbare : l.isBare = true) (prefixes : Prefixes) :
    resolveTerm prefixes l.render = .ok (.literal l) ↔
      l.lexical = "true" ∨ l.lexical = "false" ∨ IsNumber (dropSign l.lexical.toList) := by
  constructor
  · intro h
    by_contra hnot
    obtain ⟨e, he⟩ : ∃ e, resolveTerm prefixes l.render = .error e :=
      resolveTerm_of_not_isLegible hlanguage hbare fun hlegible => hnot (hlegible hbare)
    rw [he] at h
    cases h
  · exact fun h => resolveTerm_of_isLegible hlanguage hbare fun _ => h

theorem resolveTerm_render_iff_decimals :
    resolveTerm .empty "-0.5" = .ok (.literal ⟨"-0.5", some ⟨Vocabulary.xsdDecimal⟩, none⟩) ∧
      ¬resolveTerm .empty ".5" = .ok (.literal ⟨".5", some ⟨Vocabulary.xsdDecimal⟩, none⟩) := by
  constructor
  · exact (resolveTerm_render_iff (l := ⟨"-0.5", some ⟨Vocabulary.xsdDecimal⟩, none⟩) rfl rfl
      .empty).mpr (.inr (.inr ⟨['0'], ['.', '5'], [], rfl, rfl, .inr ⟨['5'], rfl, rfl⟩, .inl rfl⟩))
  · refine (resolveTerm_render_iff (l := ⟨".5", some ⟨Vocabulary.xsdDecimal⟩, none⟩) rfl rfl
      .empty).not.mpr ?_
    rintro (h | h | ⟨whole, fraction, exponent, hcs, hwhole, _⟩)
    · exact absurd h (by decide)
    · exact absurd h (by decide)
    · obtain ⟨hne, hall⟩ := isDigits_iff.mp hwhole
      cases whole with
      | nil => exact hne rfl
      | cons c whole =>
        have hc : '.' = c := (List.cons.inj (show ['.', '5'] = _ from hcs)).1
        exact absurd (hall c List.mem_cons_self) (hc ▸ by decide)

end Shorthand

end GraphPattern
