import GraphPattern.Proofs.Shorthand.Rendering
import GraphPattern.Proofs.Shorthand.Respelling

/-!
# Texts that cannot be cut into tokens

A point that has no digits on one side starts no token. The text of an expression with such a number
in it, without quotes, cannot be cut into tokens (`Expression.garbles_render`): what stands before the
number is cut into its tokens, up to the point.
-/

namespace GraphPattern

open Shorthand Text

namespace Shorthand

/-- Where an operand may stand, the text cannot be cut into tokens, whatever follows. -/
def Garbles (text : List Char) : Prop := ∀ rest, Breaks rest → kinds false (text ++ rest) = none

/-- Before a closing parenthesis, the text of a list cannot be cut into tokens. -/
def GarblesAll (text : List Char) : Prop := ∀ rest, kinds false (text ++ ')' :: rest) = none

variable {ks : List TokenKind} {text more : List Char} {c : Char}

/-! ## Numbers -/

theorem kinds_point (afterOperand : Bool) (cs : List Char) :
    kinds afterOperand ('.' :: cs) = none := by
  refine kinds_cons_of_error (e := ⟨.strayCharacter '.', ['.']⟩) (by decide) ?_
  have hsign : scanSign '.' cs = none := by cases cs <;> rfl
  have hname : isNameChar '.' = false := by decide +kernel
  have hdigit : ('.' : Char).isDigit = false := by decide
  simp [scan, hsign, scanOther, hname, hdigit]

theorem garbles_point (cs : List Char) : Garbles ('.' :: cs) :=
  fun rest _ => kinds_point false (cs ++ rest)

/-- Digits are read as a whole number up to a point that an exponent follows. -/
theorem garbles_pointed {digits : List Char} (hdigits : isDigits digits = true)
    (hc : isExponentMark c = true) (cs : List Char) : Garbles (digits ++ '.' :: c :: cs) := by
  intro rest _
  obtain ⟨hne, hall⟩ := isDigits_iff.mp hdigits
  have hend : ∀ d ∈ ('.' :: c :: (cs ++ rest)).head?, d.isDigit = false := by
    rintro d ⟨⟩
    decide
  have hfraction : splitFraction ('.' :: c :: (cs ++ rest)) = ([], '.' :: c :: (cs ++ rest)) := by
    rw [splitFraction, List.takeWhile_cons_of_neg (by simp [(not_isDigit_of_mark hc).1])]
  have hexponent : splitExponent ('.' :: c :: (cs ++ rest)) = ([], '.' :: c :: (cs ++ rest)) := by
    rw [splitExponent, if_neg (by decide)]
  have hscan : scanNumber (digits ++ '.' :: c :: (cs ++ rest)) =
      ⟨.integer (String.ofList digits), digits, '.' :: c :: (cs ++ rest)⟩ := by
    simp only [scanNumber, takeWhile_append_of_head hall hend,
      dropWhile_append_of_head hall hend, hfraction, hexponent, List.append_nil]
    rfl
  rw [List.append_assoc, List.cons_append, List.cons_append]
  cases digits with
  | nil => exact absurd rfl hne
  | cons d ds =>
    have hd : d.isDigit = true := hall d List.mem_cons_self
    rw [List.cons_append] at hscan ⊢
    have hname := isNameChar_of_isDigit hd
    rw [kinds_cons_of_scan (not_isWhitespace_of_isNameChar hname) (scan_of_isDigit hd false _), hscan]
    simp only [kinds_point, Option.map_none]

/-! ## Texts that are put together -/

namespace Garbles

theorem kinds_eq_none (h : Garbles text) : kinds false text = none := by
  have hnil := h [] breaks_nil
  rwa [List.append_nil] at hnil

/-- What follows the text makes no difference. -/
theorem append (h : Garbles text) (hc : c ∈ breaks) (cs : List Char) :
    Garbles (text ++ c :: cs) := by
  intro rest _
  rw [List.append_assoc, List.cons_append]
  exact h _ (breaks_cons hc)

theorem parenthesize {text : String} (h : Garbles text.toList) (needed : Bool) :
    Garbles (Expression.parenthesize needed text).toList := by
  cases needed with
  | false => exact h
  | true =>
    intro rest hrest
    simp only [Expression.parenthesize, if_true, String.toList_append, List.append_assoc]
    show kinds false ('(' :: (text.toList ++ ')' :: rest)) = none
    rw [kinds_leftParen, h _ (breaks_cons (by decide)), Option.map_none]

theorem unary (h : Garbles text) (hne : text ≠ []) (hhead : text.head? ≠ some '=')
    (op : UnaryOp) : Garbles (op.symbol.toList ++ text) := by
  intro rest hrest
  rw [List.append_assoc, kinds_unary_append op hne hhead, h rest hrest, Option.map_none]

theorem all (h : Garbles text) : GarblesAll text :=
  fun rest => h (')' :: rest) (breaks_cons (by decide))

theorem all_append (h : Garbles text) (more : List Char) :
    GarblesAll (text ++ ',' :: more) := by
  intro rest
  rw [List.append_assoc, List.cons_append]
  exact h _ (breaks_cons (by decide))

end Garbles

theorem Spells.binary_garbles (h : Spells text ks) (hmore : Garbles more) (op : BinaryOp) :
    Garbles (text ++ ' ' :: (op.symbol.toList ++ ' ' :: more)) := by
  intro rest hrest
  simp only [List.append_assoc, List.cons_append]
  rw [h _ (breaks_cons (by decide)), kinds_binary, hmore rest hrest]
  rfl

theorem Spells.cons_garbles (h : Spells text ks) (hmore : GarblesAll more) :
    GarblesAll (text ++ ',' :: ' ' :: more) := by
  intro rest
  rw [List.append_assoc, List.cons_append, List.cons_append, h _ (breaks_cons (by decide)),
    kinds_comma, kinds_space, hmore rest]
  rfl

namespace GarblesAll

/-- A list in parentheses. -/
theorem kinds_eq (h : GarblesAll text) (afterOperand : Bool) (rest : List Char) :
    kinds afterOperand ('(' :: (text ++ ')' :: rest)) = none := by
  rw [kinds_leftParen, h rest, Option.map_none]

theorem call (h : GarblesAll text) {c : Callee} (hc : c.IsPlain) :
    Garbles (c.render.toList ++ '(' :: (text ++ [')'])) := by
  intro rest _
  simp only [List.append_assoc, List.cons_append, List.nil_append]
  rw [kinds_callee hc (breaks_cons (by decide)), h.kinds_eq, Option.map_none]

theorem isIn (h : GarblesAll more) (ht : Spells text ks) (negated : Bool) :
    Garbles (text ++ (membershipText negated ++ '(' :: (more ++ [')']))) := by
  intro rest _
  simp only [List.append_assoc, List.cons_append, List.nil_append]
  rw [ht _ (breaks_membershipText negated _), kinds_membership, h.kinds_eq]
  rfl

end GarblesAll

end Shorthand

/-! ## Literals -/

section Numbers

variable {cs exponent : List Char}

theorem isExponent_cons (hc : isExponentMark c = true) (h : isInteger exponent = true) :
    IsExponent (c :: exponent) := by
  refine .inr ?_
  cases hsign : signOperator? exponent with
  | none =>
    rw [isInteger, dropSign_eq_self hsign] at h
    exact ⟨c, [], exponent, rfl, hc, .inl rfl, h⟩
  | some op =>
    refine ⟨c, op.symbol.toList, dropSign exponent, ?_, hc, ?_, h⟩
    · rw [← eq_symbol_append_dropSign hsign]
    · cases op with
      | plus => exact .inr (.inl rfl)
      | neg => exact .inr (.inr rfl)
      | not =>
        unfold signOperator? at hsign
        split at hsign <;> cases hsign

/-- Where digits before the point are missing, the point is what the number starts with. -/
theorem isNumber_or_garbles_of_isDecimal (h : isDecimal cs = true) (he : IsExponent exponent) :
    IsNumber (dropSign cs ++ exponent) ∨ Garbles (dropSign cs ++ exponent) := by
  obtain ⟨whole, fraction, hcs, hwhole, hfraction⟩ := isDecimal_iff.mp h
  rw [hcs]
  cases whole with
  | nil => exact .inr (garbles_point _)
  | cons c whole =>
    exact .inl ⟨c :: whole, '.' :: fraction, exponent, rfl,
      isDigits_iff.mpr ⟨by simp, hwhole⟩, .inr ⟨fraction, rfl, hfraction⟩, he⟩

/-- A number without its sign is read, or it has a point that nothing is read at. -/
theorem isNumber_or_garbles
    (h : isInteger cs = true ∨ isDecimal cs = true ∨ isDouble cs = true) :
    IsNumber (dropSign cs) ∨ Garbles (dropSign cs) := by
  rcases h with h | h | h
  · exact .inl ⟨dropSign cs, [], [], by simp, h, .inl rfl, .inl rfl⟩
  · have hdecimal := isNumber_or_garbles_of_isDecimal h (.inl rfl)
    rwa [List.append_nil] at hdecimal
  · obtain ⟨mantissa, mark, exponent, rfl, _, hmark, hmantissa, hexponent⟩ := isDouble_iff.mp h
    have hne : mantissa ≠ [] := by
      rintro rfl
      revert hmantissa
      decide
    have he := isExponent_cons hmark hexponent
    rw [dropSign_append_of_ne_nil hne]
    rcases hmantissa with h | h | h
    · exact .inl ⟨dropSign mantissa, [], mark :: exponent, by simp, h, .inl rfl, he⟩
    · exact isNumber_or_garbles_of_isDecimal h he
    · obtain ⟨digits, hdigits, hall⟩ := isPointedInteger_iff.mp h
      rw [hdigits, List.append_assoc]
      exact .inr (garbles_pointed hall hmark exponent)

end Numbers

namespace Literal

variable {l : Literal}

theorem garbles_render (h : ¬l.IsLegible) : Garbles l.render.toList := by
  obtain ⟨hbare, h⟩ := Classical.not_imp.mp h
  obtain ⟨htrue, hfalse, hnumber⟩ : l.lexical ≠ "true" ∧ l.lexical ≠ "false" ∧
      ¬IsNumber (dropSign l.lexical.toList) := by simpa only [not_or] using h
  have hgarbles : Garbles (dropSign l.lexical.toList) := by
    rcases isBare_iff.mp hbare with ⟨_, h⟩ | ⟨_, h⟩ | ⟨_, h⟩ | ⟨_, h⟩
    · exact (isNumber_or_garbles (.inl h)).resolve_left hnumber
    · exact (isNumber_or_garbles (.inr (.inl h))).resolve_left hnumber
    · exact (isNumber_or_garbles (.inr (.inr h))).resolve_left hnumber
    · exact absurd h (not_or.mpr ⟨htrue, hfalse⟩)
  rw [render, if_pos hbare]
  cases hsign : signOperator? l.lexical.toList with
  | none => rwa [dropSign_eq_self hsign] at hgarbles
  | some op =>
    have hsome : l.sign? = some op := by rw [sign?, if_pos hbare, hsign]
    have htight := tight_lexical (isBare_withoutSign hsome)
    rw [toList_withoutSign] at htight
    rw [eq_symbol_append_dropSign hsign]
    exact hgarbles.unary htight.ne_nil (fun hhead => (htight.head '=' hhead).2 rfl) op

end Literal

/-! ## Expressions -/

namespace Expression

/-- What stands before the first illegible number is cut into the tokens that it is read as. -/
theorem spells_reread {e : Expression} (hplain : e.IsPlain) (h : e.IsLegible) :
    Spells e.render.toList e.reread.tokens := by
  rw [← render_reread e]
  exact spells_render e.reread ((isPlain_reread e).mpr hplain) ((isUnsigned_reread e).mpr h)

mutual

/-- The text of an expression with an illegible number cannot be cut into tokens. -/
theorem garbles_render : ∀ e : Expression, e.IsPlain → ¬e.IsLegible → Garbles e.render.toList
  | .term t, hplain, h => by
    cases t with
    | literal l => exact l.garbles_render h
    | _ => exact absurd trivial h
  | .binary op l r, hplain, h => by
    obtain ⟨_, hpl, hpr⟩ := hplain
    rw [toList_render_binary]
    by_cases hl : l.IsLegible
    · have hr : ¬r.IsLegible := fun hr => h ⟨trivial, hl, hr⟩
      exact ((spells_reread hpl hl).parenthesize _).binary_garbles
        ((garbles_render r hpr hr).parenthesize _) op
    · exact ((garbles_render l hpl hl).parenthesize _).append (by decide) _
  | .unary op e, hplain, h => by
    have htight := (tight_render e hplain.2).parenthesize (e.level < 6)
    have he : ¬e.IsLegible := fun he => h ⟨trivial, he⟩
    rw [toList_render_unary]
    exact ((garbles_render e hplain.2 he).parenthesize _).unary htight.ne_nil
      (fun hhead => (htight.head '=' hhead).2 rfl) op
  | .call c es, hplain, h => by
    rw [toList_render_call]
    exact (garblesAll_renderAll es hplain.2 fun hes => h ⟨trivial, hes⟩).call hplain.1
  | .isIn e es negated, hplain, h => by
    rw [toList_render_isIn]
    by_cases he : e.IsLegible
    · exact (garblesAll_renderAll es hplain.2.2 fun hes => h ⟨trivial, he, hes⟩).isIn
        ((spells_reread hplain.2.1 he).parenthesize _) negated
    · have hgarbles := (garbles_render e hplain.2.1 he).parenthesize (e.level ≤ 3)
      cases negated <;> exact hgarbles.append (by decide) _

theorem garblesAll_renderAll : ∀ es : List Expression,
    EverywhereInAll (fun
      | .term t => t.IsPlain
      | .call c _ => c.IsPlain
      | _ => True) es →
    ¬EverywhereInAll (fun
      | .term (.literal l) => l.IsLegible
      | _ => True) es →
    GarblesAll (renderAll es).toList
  | [], _, h => absurd trivial h
  | [e], hplain, h => (garbles_render e hplain.1 fun he => h ⟨he, trivial⟩).all
  | e :: e' :: es, hplain, h => by
    rw [toList_renderAll_cons]
    by_cases he : e.IsLegible
    · exact (spells_reread hplain.1 he).cons_garbles
        (garblesAll_renderAll (e' :: es) hplain.2 fun hes => h ⟨he, hes⟩)
    · exact (garbles_render e hplain.1 he).all_append _

end

end Expression

end GraphPattern
