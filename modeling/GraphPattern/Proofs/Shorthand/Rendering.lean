import GraphPattern.Proofs.Shorthand.Bare

/-!
# The tokens of the text of an expression

The text of a plain and unsigned expression is cut into the tokens of the expression
(`Expression.spells_render`), and there is no white space around it (`Expression.tight_render`).
-/

namespace GraphPattern

open Shorthand Text

/-! ## Texts without white space around them -/

namespace Shorthand

/-- Whether a text starts and ends with other than white space. It does not start like the second
part of an operator either. -/
structure Tight (cs : List Char) : Prop where
  ne_nil : cs ≠ []
  head : ∀ c ∈ cs.head?, isWhitespace c = false ∧ c ≠ '='
  last : ∀ c ∈ cs.getLast?, isWhitespace c = false

namespace Tight

variable {front back cs : List Char}

theorem of_forall (hne : cs ≠ []) (h : ∀ c ∈ cs, isWhitespace c = false ∧ c ≠ '=') : Tight cs where
  ne_nil := hne
  head c hc := h c (List.mem_of_head? hc)
  last c hc := (h c (List.mem_of_getLast? hc)).1

theorem single (c : Char) (h : isWhitespace c = false ∧ c ≠ '=') : Tight [c] :=
  of_forall (by simp) (by simpa using h)

theorem append (hfront : Tight front) (middle : List Char) (hback : Tight back) :
    Tight (front ++ (middle ++ back)) where
  ne_nil h := hfront.ne_nil (List.append_eq_nil_iff.mp h).1
  head c hc := by
    cases front with
    | nil => exact absurd rfl hfront.ne_nil
    | cons d ds => exact hfront.head c hc
  last c hc := by
    rw [← List.append_assoc, List.getLast?_append, List.getLast?_eq_some_getLast hback.ne_nil,
      Option.some_or] at hc
    exact hback.last c (by rw [List.getLast?_eq_some_getLast hback.ne_nil]; exact hc)

theorem name {text : String} (h : IsName text) : Tight text.toList := by
  refine of_forall h.1 fun c hc => ⟨not_isWhitespace_of_isNameChar (h.2 c hc), ?_⟩
  rintro rfl
  exact absurd (h.2 '=' hc) (by decide)

theorem parenthesize {text : String} (h : Tight text.toList) (needed : Bool) :
    Tight (Expression.parenthesize needed text).toList := by
  cases needed with
  | false => exact h
  | true =>
    simp only [Expression.parenthesize, if_true, String.toList_append, List.append_assoc]
    exact (single '(' (by decide)).append text.toList (single ')' (by decide))

end Tight

/-! ## Numbers -/

section Numbers

variable {P : Char → Prop} {cs : List Char}

theorem forall_of_dropSign (hplus : P '+') (hminus : P '-') (h : ∀ c ∈ dropSign cs, P c) :
    ∀ c ∈ cs, P c := by
  unfold dropSign at h
  split at h
  · exact List.forall_mem_cons.mpr ⟨hplus, h⟩
  · exact List.forall_mem_cons.mpr ⟨hminus, h⟩
  · exact h

/-- What holds of signs, points, digits and letters of exponents holds of the characters of a
number. -/
theorem forall_of_number (hsigns : P '+' ∧ P '-' ∧ P '.')
    (hdigit : ∀ c, c.isDigit = true → P c) (hmark : ∀ c, isExponentMark c = true → P c)
    (h : isInteger cs = true ∨ isDecimal cs = true ∨ isDouble cs = true) :
    cs ≠ [] ∧ ∀ c ∈ cs, P c := by
  obtain ⟨hplus, hminus, hpoint⟩ := hsigns
  have hinteger : ∀ {cs}, isInteger cs = true → ∀ c ∈ cs, P c := fun h =>
    forall_of_dropSign hplus hminus fun c hc => hdigit c ((isDigits_iff.mp h).2 c hc)
  have hdecimal : ∀ {cs}, isDecimal cs = true → ∀ c ∈ cs, P c := by
    intro cs h
    obtain ⟨whole, fraction, hcs, hwhole, hfraction⟩ := isDecimal_iff.mp h
    refine forall_of_dropSign hplus hminus ?_
    rw [hcs, List.forall_mem_append, List.forall_mem_cons]
    exact ⟨fun c hc => hdigit c (hwhole c hc), hpoint,
      fun c hc => hdigit c ((isDigits_iff.mp hfraction).2 c hc)⟩
  have hpointed : ∀ {cs}, isPointedInteger cs = true → ∀ c ∈ cs, P c := by
    intro cs h
    obtain ⟨digits, hcs, hdigits⟩ := isPointedInteger_iff.mp h
    refine forall_of_dropSign hplus hminus ?_
    rw [hcs, List.forall_mem_append, List.forall_mem_singleton]
    exact ⟨fun c hc => hdigit c ((isDigits_iff.mp hdigits).2 c hc), hpoint⟩
  constructor
  · rintro rfl
    revert h
    decide
  · rcases h with h | h | h
    · exact hinteger h
    · exact hdecimal h
    · obtain ⟨mantissa, mark, exponent, rfl, _, hm, hmantissa, hexponent⟩ := isDouble_iff.mp h
      rw [List.forall_mem_append, List.forall_mem_cons]
      refine ⟨?_, hmark mark hm, hinteger hexponent⟩
      rcases hmantissa with h | h | h
      · exact hinteger h
      · exact hdecimal h
      · exact hpointed h

end Numbers

end Shorthand

/-! ## Literals -/

namespace Literal

variable {l : Literal}

theorem toList_quotedForm (l : Literal) :
    l.quotedForm.toList = '"' :: (l.lexical.toList.flatMap escape ++ ['"']) :=
  String.toList_ofList

theorem spells_render (hl : l.IsPlain) (hunsigned : l.IsUnsigned) :
    Spells l.render.toList l.tokens := by
  unfold render tokens
  split
  · rename_i hbare
    exact spells_bare hunsigned hbare
  · intro rest hrest
    obtain ⟨lexical, datatype, language⟩ := l
    rw [String.toList_append, toList_quotedForm]
    cases language with
    | some tag =>
      obtain ⟨hne, hhead, hall⟩ := (hl.language tag rfl).1
      have hstring := kinds_tagged false lexical.toList hne hhead
        (fun c hc => (hall c hc).1) hrest
      rw [String.ofList_toList, String.ofList_toList] at hstring
      simp only [suffix, String.toList_append, List.append_assoc, List.cons_append,
        List.nil_append]
      exact hstring
    | none =>
      cases datatype with
      | some d =>
        have hd := (hl.datatype d rfl).1
        let iri := '<' :: (d.text.toList ++ '>' :: rest)
        have hhead : ('^' :: '^' :: iri).head? ≠ some '@' := by simp
        have hcaret : kinds true ('^' :: '^' :: iri) =
            (kinds false iri).map (.doubleCaret :: ·) := kinds_paired rfl nofun
        have hstring := kinds_string false lexical.toList hhead
        rw [hcaret, kinds_iri hd, String.ofList_toList, String.ofList_toList] at hstring
        simp only [suffix, Iri.render, String.toList_append, List.append_assoc, List.cons_append,
          List.nil_append]
        rw [Option.map_map, Option.map_map] at hstring
        exact hstring
      | none =>
        have hat : rest.head? ≠ some '@' := by
          intro h
          exact absurd (hrest '@' h) (by decide)
        have hstring := kinds_string false lexical.toList hat
        rw [String.ofList_toList] at hstring
        simp only [suffix, List.append_assoc, List.cons_append, List.nil_append]
        exact hstring

theorem tight_lexical (h : l.isBare = true) : Tight l.lexical.toList := by
  have hnumber : isInteger l.lexical.toList = true ∨ isDecimal l.lexical.toList = true ∨
      isDouble l.lexical.toList = true → Tight l.lexical.toList := by
    intro hnumber
    have hall := forall_of_number (P := fun c => isWhitespace c = false ∧ c ≠ '=')
      (by decide) ?_ ?_ hnumber
    · exact .of_forall hall.1 hall.2
    · intro c hc
      refine ⟨not_isWhitespace_of_isNameChar (isNameChar_of_isDigit hc), ?_⟩
      rintro rfl
      exact absurd hc (by decide)
    · intro c hc
      simp only [isExponentMark, Bool.or_eq_true, decide_eq_true_eq] at hc
      rcases hc with rfl | rfl <;> decide
  rcases isBare_iff.mp h with ⟨_, h⟩ | ⟨_, h⟩ | ⟨_, h⟩ | ⟨_, h | h⟩
  · exact hnumber (.inl h)
  · exact hnumber (.inr (.inl h))
  · exact hnumber (.inr (.inr h))
  · rw [h]
    exact .name (by decide)
  · rw [h]
    exact .name (by decide)

theorem tight_render (hl : l.IsPlain) : Tight l.render.toList := by
  have hquote : Tight ['"'] := .single '"' (by decide)
  unfold render
  split
  · rename_i hbare
    exact tight_lexical hbare
  · obtain ⟨lexical, datatype, language⟩ := l
    rw [String.toList_append, toList_quotedForm]
    cases language with
    | some tag =>
      have htag := (hl.language tag rfl).1
      have htight : Tight tag.toList := by
        refine .of_forall htag.1 fun c hc => ?_
        have hc := (htag.2.2 c hc).1
        rw [isTagChar, Bool.or_eq_true, decide_eq_true_eq] at hc
        rcases hc with hc | rfl
        · refine ⟨not_isWhitespace_of_isNameChar (isNameChar_of_isAlphanum hc), ?_⟩
          rintro rfl
          exact absurd hc (by decide)
        · decide
      have happend := hquote.append (lexical.toList.flatMap escape ++ ['"', '@']) htight
      simp only [List.append_assoc, List.cons_append, List.nil_append] at happend
      simp only [suffix, String.toList_append, List.append_assoc, List.cons_append,
        List.nil_append]
      exact happend
    | none =>
      cases datatype with
      | some d =>
        have happend := hquote.append
          (lexical.toList.flatMap escape ++ '"' :: '^' :: '^' :: '<' :: d.text.toList)
          (.single '>' (by decide))
        simp only [List.append_assoc, List.cons_append, List.nil_append] at happend
        simp only [suffix, Iri.render, String.toList_append, List.append_assoc, List.cons_append,
          List.nil_append]
        exact happend
      | none =>
        have happend := hquote.append (lexical.toList.flatMap escape) hquote
        simp only [suffix, List.cons_append, List.nil_append] at happend ⊢
        rw [String.toList_empty, List.append_nil]
        exact happend

end Literal

/-! ## Terms -/

namespace Iri

theorem toList_render (i : Iri) : i.render.toList = '<' :: (i.text.toList ++ ['>']) := by
  simp only [render, String.toList_append, List.append_assoc]
  rfl

theorem tight_render (i : Iri) : Tight i.render.toList := by
  rw [toList_render]
  exact (Tight.single '<' (by decide)).append i.text.toList (.single '>' (by decide))

end Iri

namespace Term

/-- Whether the term is no literal, or one that is unsigned. -/
def IsUnsigned : Term → Prop
  | .literal l => l.IsUnsigned
  | _ => True

variable {t : Term}

theorem spells_render (ht : t.IsPlain) (hunsigned : t.IsUnsigned) :
    Spells t.render.toList t.tokens := by
  intro rest hrest
  cases t with
  | iri i =>
    have hiri := kinds_iri ht rest
    rw [String.ofList_toList] at hiri
    simp only [render, Iri.toList_render, List.cons_append, List.append_assoc, List.nil_append]
    exact hiri
  | literal l => exact l.spells_render ht hunsigned rest hrest
  | free name =>
    have hvar := kinds_var false ht.1 ht.2 hrest
    rw [String.ofList_toList] at hvar
    rw [render, String.toList_append]
    exact hvar
  | bound name value => cases ht
  | blank n =>
    have hlabel := kinds_label false ht.1 ht.2 hrest
    rw [String.ofList_toList] at hlabel
    rw [render, BlankNode.render, String.toList_append]
    exact hlabel

theorem tight_render (ht : t.IsPlain) : Tight t.render.toList := by
  cases t with
  | iri i => exact i.tight_render
  | literal l => exact l.tight_render ht
  | free name =>
    rw [render, String.toList_append]
    exact (Tight.single '?' (by decide)).append [] (.name ht)
  | bound name value => cases ht
  | blank n =>
    rw [render, BlankNode.render, String.toList_append]
    exact (Tight.single '_' (by decide)).append [':'] (.name ht)

end Term

/-! ## Expressions -/

theorem UnaryOp.tight_symbol (op : UnaryOp) : Tight op.symbol.toList := by
  cases op with
  | not => exact .single '!' (by decide)
  | neg => exact .single '-' (by decide)
  | plus => exact .single '+' (by decide)

theorem Callee.tight_render {c : Callee} (hc : c.IsPlain) : Tight c.render.toList := by
  cases c with
  | builtin name => exact .name hc.1
  | iri i => exact i.tight_render

namespace Expression

theorem toList_render_binary (op : BinaryOp) (l r : Expression) :
    (binary op l r).render.toList =
      (parenthesize (l.level < op.level) l.render).toList ++ ' ' :: (op.symbol.toList ++
        ' ' :: (parenthesize (r.level ≤ op.level) r.render).toList) := by
  simp only [render, String.toList_append, List.append_assoc]
  rfl

theorem toList_render_unary (op : UnaryOp) (e : Expression) :
    (unary op e).render.toList =
      op.symbol.toList ++ (parenthesize (e.level < 6) e.render).toList := by
  rw [render, String.toList_append]

theorem toList_render_call (c : Callee) (es : List Expression) :
    (call c es).render.toList =
      c.render.toList ++ '(' :: ((renderAll es).toList ++ [')']) := by
  simp only [render, String.toList_append, List.append_assoc]
  rfl

theorem toList_render_isIn (e : Expression) (es : List Expression) (negated : Bool) :
    (isIn e es negated).render.toList =
      (parenthesize (e.level ≤ 3) e.render).toList ++ (membershipText negated ++
        '(' :: ((renderAll es).toList ++ [')'])) := by
  simp only [render, String.toList_append, List.append_assoc]
  cases negated <;> rfl

theorem toList_renderAll_cons (e e' : Expression) (es : List Expression) :
    (renderAll (e :: e' :: es)).toList =
      e.render.toList ++ ',' :: ' ' :: (renderAll (e' :: es)).toList := by
  simp only [renderAll, String.toList_append, List.append_assoc]
  rfl

/-- There is no white space around the text of a plain expression. -/
theorem tight_render : ∀ e : Expression, e.IsPlain → Tight e.render.toList
  | .term t, h => Term.tight_render (t := t) h
  | .binary op l r, h => by
    obtain ⟨_, hl, hr⟩ := h
    rw [toList_render_binary]
    have happend := ((tight_render l hl).parenthesize (l.level < op.level)).append
      (' ' :: (op.symbol.toList ++ [' '])) ((tight_render r hr).parenthesize (r.level ≤ op.level))
    simp only [List.cons_append, List.append_assoc, List.nil_append] at happend
    exact happend
  | .unary op e, h => by
    obtain ⟨_, he⟩ := h
    rw [toList_render_unary]
    exact op.tight_symbol.append [] ((tight_render e he).parenthesize _)
  | .call c es, h => by
    rw [toList_render_call]
    exact (Callee.tight_render h.1).append ('(' :: (renderAll es).toList)
      (.single ')' (by decide))
  | .isIn e es negated, h => by
    rw [toList_render_isIn]
    have happend := ((tight_render e h.2.1).parenthesize (e.level ≤ 3)).append
      (membershipText negated ++ '(' :: (renderAll es).toList) (.single ')' (by decide))
    simp only [List.cons_append, List.append_assoc] at happend
    exact happend

mutual

/-- The text of a plain and unsigned expression is cut into its tokens. -/
theorem spells_render :
    ∀ e : Expression, e.IsPlain → e.IsUnsigned → Spells e.render.toList e.tokens
  | .term t, h, hu => Term.spells_render (t := t) h (by cases t <;> exact hu)
  | .binary op l r, h, hu => by
    obtain ⟨_, hl, hr⟩ := h
    obtain ⟨_, hul, hur⟩ := hu
    rw [toList_render_binary, tokens]
    exact ((spells_render l hl hul).parenthesize _).binary
      ((spells_render r hr hur).parenthesize _) op
  | .unary op e, h, hu => by
    have htight := (tight_render e h.2).parenthesize (e.level < 6)
    rw [toList_render_unary, tokens]
    refine ((spells_render e h.2 hu.2).parenthesize _).unary htight.ne_nil (fun hhead => ?_) op
    exact (htight.head '=' hhead).2 rfl
  | .call c es, h, hu => by
    rw [toList_render_call, tokens]
    exact (spellsAll_renderAll es h.2 hu.2).call h.1
  | .isIn e es negated, h, hu => by
    rw [toList_render_isIn, tokens]
    exact ((spells_render e h.2.1 hu.2.1).parenthesize _).isIn
      (spellsAll_renderAll es h.2.2 hu.2.2) negated

theorem spellsAll_renderAll : ∀ es : List Expression,
    EverywhereInAll (fun
      | .term t => t.IsPlain
      | .call c _ => c.IsPlain
      | _ => True) es →
    EverywhereInAll (fun
      | .term (.literal l) => l.IsUnsigned
      | _ => True) es →
    SpellsAll (renderAll es).toList (tokensOfAll es)
  | [], _, _ => spellsAll_nil
  | [e], h, hu => (spells_render e h.1 hu.1).all
  | e :: e' :: es, h, hu => by
    have hcons := (spells_render e h.1 hu.1).cons (spellsAll_renderAll (e' :: es) h.2 hu.2)
    rw [toList_renderAll_cons, tokensOfAll]
    exact hcons

end

end Expression

end GraphPattern
