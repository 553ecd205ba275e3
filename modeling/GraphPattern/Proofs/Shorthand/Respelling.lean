import GraphPattern.Proofs.Shorthand.Readable

/-!
# What a text is read as

The text of an expression need not be read as the expression: a number without quotes that has a sign
is read as an operator in front of a number without one. `Expression.reread` is the expression that is
read instead. It has the same text (`Expression.render_reread`) and the same properties, but for the
signs (`Expression.isUnsigned_reread`).
-/

namespace GraphPattern

open Shorthand

/-! ## Signs -/

/-- The operator that a sign in front of a text is read as. -/
def signOperator? : List Char → Option UnaryOp
  | '+' :: _ => some .plus
  | '-' :: _ => some .neg
  | _ => none

section Signs

variable {cs : List Char}

theorem eq_symbol_append_dropSign {op : UnaryOp} (h : signOperator? cs = some op) :
    cs = op.symbol.toList ++ dropSign cs := by
  unfold signOperator? at h
  split at h
  · cases h
    rfl
  · cases h
    rfl
  · cases h

theorem dropSign_eq_self (h : signOperator? cs = none) : dropSign cs = cs := by
  unfold dropSign
  split
  · cases h
  · cases h
  · rfl

theorem dropSign_append_of_ne_nil (h : cs ≠ []) (rest : List Char) :
    dropSign (cs ++ rest) = dropSign cs ++ rest := by
  cases cs with
  | nil => exact absurd rfl h
  | cons c cs =>
    rw [List.cons_append]
    by_cases hplus : c = '+'
    · subst hplus
      rfl
    · by_cases hminus : c = '-'
      · subst hminus
        rfl
      · simp [dropSign, hplus, hminus]

theorem dropSign_subset (cs : List Char) : ∀ c ∈ dropSign cs, c ∈ cs := by
  intro c hc
  unfold dropSign at hc
  split at hc
  · exact List.mem_cons_of_mem _ hc
  · exact List.mem_cons_of_mem _ hc
  · exact hc

/-! A number without its sign is one of the same form. -/

theorem isInteger_dropSign (h : isInteger cs = true) : isInteger (dropSign cs) = true := by
  have hdrop := dropSign_append h []
  rw [List.append_nil] at hdrop
  rw [isInteger, hdrop]
  exact h

theorem isDecimal_dropSign (h : isDecimal cs = true) : isDecimal (dropSign cs) = true := by
  obtain ⟨whole, fraction, hcs, hwhole, hfraction⟩ := isDecimal_iff.mp h
  refine isDecimal_iff.mpr ⟨whole, fraction, ?_, hwhole, hfraction⟩
  rw [hcs]
  cases whole with
  | nil => rfl
  | cons c whole => exact dropSign_append (isDigits_iff.mpr ⟨by simp, hwhole⟩) _

theorem isPointedInteger_dropSign (h : isPointedInteger cs = true) :
    isPointedInteger (dropSign cs) = true := by
  obtain ⟨digits, hcs, hdigits⟩ := isPointedInteger_iff.mp h
  refine isPointedInteger_iff.mpr ⟨digits, ?_, hdigits⟩
  rw [hcs, dropSign_append hdigits]

theorem isDouble_dropSign (h : isDouble cs = true) : isDouble (dropSign cs) = true := by
  obtain ⟨mantissa, mark, exponent, rfl, hall, hmark, hmantissa, hexponent⟩ := isDouble_iff.mp h
  have hne : mantissa ≠ [] := by
    rintro rfl
    revert hmantissa
    decide
  refine isDouble_iff.mpr ⟨dropSign mantissa, mark, exponent, dropSign_append_of_ne_nil hne _,
    fun c hc => hall c (dropSign_subset mantissa c hc), hmark, ?_, hexponent⟩
  exact hmantissa.imp isInteger_dropSign (Or.imp isDecimal_dropSign isPointedInteger_dropSign)

end Signs

/-! ## Literals -/

namespace Literal

/-- The operator that the sign of a number without quotes is read as. -/
def sign? (l : Literal) : Option UnaryOp :=
  if l.isBare then signOperator? l.lexical.toList else none

/-- The literal without a sign in front of its lexical form. -/
def withoutSign (l : Literal) : Literal :=
  { l with lexical := String.ofList (dropSign l.lexical.toList) }

/-- What the text of the literal is read as. -/
def reread (l : Literal) : Expression :=
  match l.sign? with
  | some op => .unary op (.term (.literal l.withoutSign))
  | none => .term (.literal l)

/-- Whether the literal is in quotes, or a truth value, or a number whose point has digits on both
sides. -/
def IsLegible (l : Literal) : Prop :=
  l.isBare = true →
    l.lexical = "true" ∨ l.lexical = "false" ∨ IsNumber (dropSign l.lexical.toList)

variable {l : Literal} {op : UnaryOp}

theorem sign?_eq_some (h : l.sign? = some op) :
    l.isBare = true ∧ signOperator? l.lexical.toList = some op := by
  unfold sign? at h
  split at h
  · rename_i hbare
    exact ⟨hbare, h⟩
  · cases h

theorem toList_withoutSign (l : Literal) :
    l.withoutSign.lexical.toList = dropSign l.lexical.toList :=
  String.toList_ofList

/-- A literal with a sign is no truth value. -/
theorem isNumber_of_sign? (h : l.sign? = some op) :
    (l.datatype = some ⟨Vocabulary.xsdInteger⟩ ∧ isInteger l.lexical.toList = true) ∨
    (l.datatype = some ⟨Vocabulary.xsdDecimal⟩ ∧ isDecimal l.lexical.toList = true) ∨
    (l.datatype = some ⟨Vocabulary.xsdDouble⟩ ∧ isDouble l.lexical.toList = true) := by
  obtain ⟨hbare, hsign⟩ := sign?_eq_some h
  rcases isBare_iff.mp hbare with h | h | h | ⟨_, h | h⟩
  · exact .inl h
  · exact .inr (.inl h)
  · exact .inr (.inr h)
  · rw [h] at hsign
    cases hsign
  · rw [h] at hsign
    cases hsign

theorem isBare_withoutSign (h : l.sign? = some op) : l.withoutSign.isBare = true := by
  rw [isBare_iff, toList_withoutSign]
  rcases isNumber_of_sign? h with ⟨hd, h⟩ | ⟨hd, h⟩ | ⟨hd, h⟩
  · exact .inl ⟨hd, isInteger_dropSign h⟩
  · exact .inr (.inl ⟨hd, isDecimal_dropSign h⟩)
  · exact .inr (.inr (.inl ⟨hd, isDouble_dropSign h⟩))

/-- Digits stay when a sign is dropped, and there are none in a truth value. -/
theorem dropSign_ne_boolean (h : l.sign? = some op) :
    l.withoutSign.lexical ≠ "true" ∧ l.withoutSign.lexical ≠ "false" := by
  have hform : ∀ text : List Char, isInteger text = false → isDecimal text = false →
      isDouble text = false → l.withoutSign.lexical.toList ≠ text := by
    intro text hi hd hf heq
    rw [toList_withoutSign] at heq
    rcases isNumber_of_sign? h with ⟨_, h⟩ | ⟨_, h⟩ | ⟨_, h⟩
    · have hfalse := isInteger_dropSign h
      rw [heq, hi] at hfalse
      cases hfalse
    · have hfalse := isDecimal_dropSign h
      rw [heq, hd] at hfalse
      cases hfalse
    · have hfalse := isDouble_dropSign h
      rw [heq, hf] at hfalse
      cases hfalse
  exact ⟨fun heq => hform "true".toList (by decide) (by decide) (by decide) (congrArg _ heq),
    fun heq => hform "false".toList (by decide) (by decide) (by decide) (congrArg _ heq)⟩

theorem render_reread (l : Literal) : l.reread.render = l.render := by
  unfold reread
  split
  · rename_i op hsign
    obtain ⟨hbare, hoperator⟩ := sign?_eq_some hsign
    show op.symbol ++ l.withoutSign.render = l.render
    rw [render, render, if_pos (isBare_withoutSign hsign), if_pos hbare, ← String.toList_inj,
      String.toList_append, toList_withoutSign]
    exact (eq_symbol_append_dropSign hoperator).symm
  · rfl

theorem isUnsigned_iff_isLegible (h : l.sign? = none) : l.IsUnsigned ↔ l.IsLegible := by
  refine imp_congr_right fun hbare => ?_
  rw [sign?, if_pos hbare] at h
  rw [dropSign_eq_self h]

theorem isUnsigned_withoutSign_iff (h : l.sign? = some op) :
    l.withoutSign.IsUnsigned ↔ l.IsLegible := by
  obtain ⟨hbare, hoperator⟩ := sign?_eq_some h
  have hne : l.lexical ≠ "true" ∧ l.lexical ≠ "false" := by
    constructor <;>
    · intro heq
      rw [heq] at hoperator
      cases hoperator
  obtain ⟨htrue, hfalse⟩ := dropSign_ne_boolean h
  simp [IsUnsigned, IsLegible, isBare_withoutSign h, hbare, hne.1, hne.2, htrue, hfalse,
    toList_withoutSign]

end Literal

/-! ## Expressions -/

namespace Expression

mutual

/-- What the text of the expression is read as. -/
def reread : Expression → Expression
  | .term (.literal l) => l.reread
  | .term t => .term t
  | .binary op l r => .binary op (reread l) (reread r)
  | .unary op e => .unary op (reread e)
  | .call c es => .call c (rereadAll es)
  | .isIn e es negated => .isIn (reread e) (rereadAll es) negated

/-- What the texts of expressions are read as. -/
def rereadAll : List Expression → List Expression
  | [] => []
  | e :: es => reread e :: rereadAll es

end

/-- Whether all literals are legible. -/
def IsLegible (e : Expression) : Prop :=
  e.Everywhere fun
    | .term (.literal l) => l.IsLegible
    | _ => True

/-- A sign binds less tightly than a constant, but no level of operators is between them. -/
theorem level_reread_lt_iff (e : Expression) {k : Nat} (hk : k ≤ 6) :
    e.reread.level < k ↔ e.level < k := by
  cases e with
  | term t =>
    cases t with
    | literal l =>
      rw [reread, Literal.reread]
      have h : ¬(6 < k) ∧ ¬(7 < k) := by omega
      split
      · exact iff_of_false h.1 h.2
      · exact Iff.rfl
    | _ => exact Iff.rfl
  | _ => exact Iff.rfl

mutual

/-- The text is that of what is read. -/
theorem render_reread : ∀ e : Expression, e.reread.render = e.render
  | .term (.literal l) => l.render_reread
  | .term (.iri _) | .term (.free _) | .term (.bound _ _) | .term (.blank _) => rfl
  | .binary op l r => by
    have hlevel := op.level_mem
    have hr : r.reread.level ≤ op.level ↔ r.level ≤ op.level := by
      rw [← Nat.lt_succ_iff, ← Nat.lt_succ_iff]
      exact level_reread_lt_iff r (by omega)
    simp only [reread, render, render_reread l, render_reread r,
      level_reread_lt_iff l (Nat.le_succ_of_le hlevel.2), hr]
  | .unary op e => by
    simp only [reread, render, render_reread e, level_reread_lt_iff e (Nat.le_refl 6)]
  | .call c es => by simp only [reread, render, renderAll_reread es]
  | .isIn e es negated => by
    have he : e.reread.level ≤ 3 ↔ e.level ≤ 3 := by
      rw [← Nat.lt_succ_iff, ← Nat.lt_succ_iff]
      exact level_reread_lt_iff e (by omega)
    simp only [reread, render, render_reread e, renderAll_reread es, he]

theorem renderAll_reread : ∀ es : List Expression, renderAll (rereadAll es) = renderAll es
  | [] => rfl
  | [e] => render_reread e
  | e :: e' :: es => by
    have hmore := renderAll_reread (e' :: es)
    rw [rereadAll] at hmore
    rw [rereadAll, rereadAll, renderAll, renderAll, hmore, render_reread e]

end

/-- A property of what is read is one of the expression, form by form. -/
structure Rereads (Q P : Expression → Prop) : Prop where
  term : ∀ t, (Expression.term t).reread.Everywhere Q ↔ P (.term t)
  binary : ∀ op l r, Q (.binary op l.reread r.reread) ↔ P (.binary op l r)
  unary : ∀ op e, Q (.unary op e.reread) ↔ P (.unary op e)
  call : ∀ c es, Q (.call c (rereadAll es)) ↔ P (.call c es)
  isIn : ∀ e es negated, Q (.isIn e.reread (rereadAll es) negated) ↔ P (.isIn e es negated)

section Everywhere

variable {P Q : Expression → Prop}

mutual

theorem Rereads.everywhere (h : Rereads Q P) :
    ∀ e : Expression, e.reread.Everywhere Q ↔ e.Everywhere P
  | .term t => h.term t
  | .binary op l r => by
    rw [reread, Everywhere, Everywhere, h.binary, h.everywhere l, h.everywhere r]
  | .unary op e => by
    rw [reread, Everywhere, Everywhere, h.unary, h.everywhere e]
  | .call c es => by
    rw [reread, Everywhere, Everywhere, h.call, h.everywhereInAll es]
  | .isIn e es negated => by
    rw [reread, Everywhere, Everywhere, h.isIn, h.everywhere e, h.everywhereInAll es]

theorem Rereads.everywhereInAll (h : Rereads Q P) :
    ∀ es : List Expression, EverywhereInAll Q (rereadAll es) ↔ EverywhereInAll P es
  | [] => Iff.rfl
  | e :: es => by
    rw [rereadAll, EverywhereInAll, EverywhereInAll, h.everywhere e, h.everywhereInAll es]

end

end Everywhere

theorem isPlain_reread (e : Expression) : e.reread.IsPlain ↔ e.IsPlain := by
  refine Rereads.everywhere ⟨fun t => ?_, fun _ _ _ => Iff.rfl, fun _ _ => Iff.rfl,
    fun _ _ => Iff.rfl, fun _ _ _ => Iff.rfl⟩ e
  cases t with
  | literal l =>
    rw [reread, Literal.reread]
    have hl : l.withoutSign.IsPlain ↔ l.IsPlain :=
      ⟨fun h => ⟨h.language, h.datatype⟩, fun h => ⟨h.language, h.datatype⟩⟩
    split
    · exact (and_iff_right trivial).trans hl
    · exact Iff.rfl
  | _ => exact Iff.rfl

/-- What is read has no signs in its numbers, and legible ones if those of the expression are. -/
theorem isUnsigned_reread (e : Expression) : e.reread.IsUnsigned ↔ e.IsLegible := by
  refine Rereads.everywhere ⟨fun t => ?_, fun _ _ _ => Iff.rfl, fun _ _ => Iff.rfl,
    fun _ _ => Iff.rfl, fun _ _ _ => Iff.rfl⟩ e
  cases t with
  | literal l =>
    rw [reread, Literal.reread]
    split
    · rename_i hsign
      exact (and_iff_right trivial).trans (Literal.isUnsigned_withoutSign_iff hsign)
    · rename_i hsign
      exact Literal.isUnsigned_iff_isLegible hsign
  | _ => exact Iff.rfl

theorem isUnchained_reread (e : Expression) : e.reread.IsUnchained ↔ e.IsUnchained := by
  refine Rereads.everywhere ⟨fun t => ?_, fun op l r => ?_, fun _ _ => Iff.rfl,
    fun _ _ => Iff.rfl, fun _ _ _ => Iff.rfl⟩ e
  · cases t with
    | literal l =>
      rw [reread, Literal.reread]
      split
      · exact and_iff_right trivial
      · exact Iff.rfl
    | _ => exact Iff.rfl
  · have hthree := level_reread_lt_iff l (show 3 ≤ 6 by decide)
    have hfour := level_reread_lt_iff l (show 4 ≤ 6 by decide)
    have hlevel : l.reread.level = 3 ↔ l.level = 3 := by omega
    exact imp_congr_right fun _ => not_congr hlevel

end Expression

end GraphPattern
