import GraphPattern.Proofs.Shorthand.Readable
import GraphPattern.Proofs.Shorthand.Rendering

/-!
# Printing and reading an expression

The text of an expression is cut into the tokens of the expression, and these are read back as the
expression (`Shorthand.resolveExpression_render`).
-/

namespace GraphPattern.Shorthand

open Steps Text

/-- Nothing is trimmed off a text without white space around it. -/
theorem Tight.trimmed {text : String} (h : Tight text.toList) : trimmed text = .ok (text, 0) := by
  have hhead : text.toList.dropWhile isWhitespace = text.toList ∧
      text.toList.takeWhile isWhitespace = [] := by
    cases hcs : text.toList with
    | nil => exact ⟨rfl, rfl⟩
    | cons c cs =>
      have hc := (h.head c (by rw [hcs]; rfl)).1
      exact ⟨List.dropWhile_cons_of_neg (by simp [hc]), List.takeWhile_cons_of_neg (by simp [hc])⟩
  have hlast : (text.toList.reverse.dropWhile isWhitespace).reverse = text.toList := by
    cases hcs : text.toList.reverse with
    | nil => exact (List.reverse_eq_nil_iff.mp hcs).symm
    | cons c cs =>
      have hc := h.last c (by rw [← List.head?_reverse, hcs]; rfl)
      rw [List.dropWhile_cons_of_neg (by simp [hc]), ← hcs, List.reverse_reverse]
  have hempty : text.toList.isEmpty = false := by simpa using h.ne_nil
  simp only [Shorthand.trimmed, trimStart, trimEnd, hhead.1, hhead.2, hlast, hempty]
  rw [String.ofList_toList]
  rfl

/-- A text with nothing to trim off is resolved to what is read of it. -/
theorem Tight.resolveWith_parse_eq_ok {α : Type} {reader : Source → Reader α} {prefixes : Prefixes}
    {text : String} {a : α} (h : Tight text.toList) :
    resolveWith (parse reader prefixes) text = .ok a ↔
      read reader prefixes text.toList = .ok a := by
  rw [resolveWith, h.trimmed, except_ok_bind]
  exact mapError_eq_ok.trans mapError_eq_ok

theorem read_render {e : Expression} (hplain : e.IsPlain) (hunsigned : e.IsUnsigned)
    (hunchained : e.IsUnchained) (prefixes : Prefixes) :
    read Source.readExpression prefixes e.render.toList = .ok e := by
  obtain ⟨ts, htokens, hkinds⟩ :=
    tokenize_of_kinds (e.spells_render hplain hunsigned).kinds_eq_some
  rw [read, htokens]
  exact readAll_readExpression ⟨hplain, hunchained⟩ hkinds

/-- The text of an expression is read back as the expression: one whose names, tags and IRIs
shorthand can write, whose numbers without quotes have no sign, and in which no left operand of a
comparison is a comparison or an `IN`. -/
theorem resolveExpression_render {e : Expression} (hplain : e.IsPlain) (hunsigned : e.IsUnsigned)
    (hunchained : e.IsUnchained) (prefixes : Prefixes) :
    resolveExpression prefixes e.render = .ok e := by
  rw [resolveExpression, resolveWith, (Expression.tight_render e hplain).trimmed]
  show Except.mapError _ (Except.mapError _ (read _ prefixes e.render.toList)) = _
  rw [read_render hplain hunsigned hunchained]
  rfl

theorem resolveExpression_render_nested : ∃ e : Expression,
    (e.IsPlain ∧ e.IsUnsigned ∧ e.IsUnchained) ∧
      e.render =
        "(?x + 1) * ?y < <p>(2.5e-3) || !BOUND(?z) NOT IN (\"a\\\"b\"@en, !(_:n = true))" ∧
      resolveExpression .empty e.render = .ok e := by
  let left : Expression :=
    .binary .lt
      (.binary .mul (.binary .add (.term (.free "x")) (.term (.literal (.integer 1))))
        (.term (.free "y")))
      (.call (.iri ⟨"p"⟩) [.term (.literal (.typed "2.5e-3" ⟨Vocabulary.xsdDouble⟩))])
  let right : Expression :=
    .isIn (.unary .not (.call (.builtin "BOUND") [.term (.free "z")]))
      [.term (.literal (.tagged "a\"b" "en")),
        .unary .not (.binary .eq (.term (.blank ⟨"n"⟩)) (.term (.literal (.boolean true))))] true
  have hname : IsName "x" ∧ IsName "y" ∧ IsName "z" ∧ IsName "n" := by decide +kernel
  obtain ⟨hx, hy, hz, hn⟩ := hname
  have hbound : (Callee.builtin "BOUND").IsPlain := by decide +kernel
  have hp : Iri.IsPlain ⟨"p"⟩ := by decide +kernel
  have hnumbers : (Literal.integer 1).IsPlain ∧
      (Literal.typed "2.5e-3" ⟨Vocabulary.xsdDouble⟩).IsPlain ∧ (Literal.boolean true).IsPlain :=
    ⟨Literal.isPlain_typed (by decide +kernel) _, Literal.isPlain_typed (by decide +kernel) _,
      Literal.isPlain_typed (by decide +kernel) _⟩
  have htagged : (Literal.tagged "a\"b" "en").IsPlain :=
    Literal.isPlain_tagged (by decide +kernel) _
  have hplain : (Expression.binary .or left right).IsPlain :=
    ⟨trivial,
      ⟨trivial, ⟨trivial, ⟨trivial, hx, hnumbers.1⟩, hy⟩, hp, hnumbers.2.1, trivial⟩,
      trivial, ⟨trivial, hbound, hz, trivial⟩, htagged,
      ⟨trivial, trivial, hn, hnumbers.2.2⟩, trivial⟩
  have hunsigned : (Expression.binary .or left right).IsUnsigned :=
    ⟨trivial,
      ⟨trivial, ⟨trivial, ⟨trivial, trivial,
        fun _ => .inr (.inr ⟨['1'], [], [], rfl, rfl, .inl rfl, .inl rfl⟩)⟩, trivial⟩, trivial,
        fun _ => .inr (.inr ⟨['2'], ['.', '5'], ['e', '-', '3'], by decide, rfl,
          .inr ⟨['5'], rfl, rfl⟩, .inr ⟨'e', ['-'], ['3'], rfl, rfl, .inr (.inr rfl), rfl⟩⟩),
        trivial⟩,
      trivial, ⟨trivial, trivial, trivial, trivial⟩, nofun,
      ⟨trivial, trivial, trivial, fun _ => .inl rfl⟩, trivial⟩
  have hunchained : (Expression.binary .or left right).IsUnchained := by
    simp [Expression.IsUnchained, Expression.Everywhere, Expression.EverywhereInAll, left, right,
      Expression.level, BinaryOp.level]
  exact ⟨.binary .or left right, ⟨hplain, hunsigned, hunchained⟩, by decide +kernel,
    resolveExpression_render hplain hunsigned hunchained .empty⟩

end GraphPattern.Shorthand
