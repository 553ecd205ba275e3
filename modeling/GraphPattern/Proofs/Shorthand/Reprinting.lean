import GraphPattern.Proofs.Shorthand.Garbling
import GraphPattern.Proofs.Shorthand.Jamming
import GraphPattern.Proofs.Shorthand.RoundTrip
import GraphPattern.Proofs.Shorthand.Sound

/-!
# Reading what was read and printed

What a text is resolved to is printed and resolved again. Printing loses two things: the parentheses
around a comparison that is the left operand of another one, and the quotes around a number whose point
has no digits on one side. Without these the printed text is resolved
(`Expression.resolveExpression_reread`), with one of them it is not
(`Shorthand.resolveExpression_render_iff`).
-/

namespace GraphPattern

open Shorthand Steps

namespace Shorthand

variable {prefixes : Prefixes} {text : String} {e : Expression}

theorem Tight.resolveExpression_eq_ok (h : Tight text.toList) :
    resolveExpression prefixes text = .ok e ↔
      read Source.readExpression prefixes text.toList = .ok e :=
  h.resolveWith_parse_eq_ok

/-- Of a text whose tokens are known, the expression is read off tokens of these forms. -/
theorem exists_readAll_of_read {ks : List TokenKind} (hks : kinds false text.toList = some ks)
    (h : read Source.readExpression prefixes text.toList = .ok e) :
    ∃ (s : Source) (ts : List Token), ts.map Token.kind = ks ∧
      s.readAll s.readExpression ts = .ok e := by
  obtain ⟨ts, htokens, hkinds⟩ := tokenize_of_kinds hks
  rw [read, htokens, except_ok_bind] at h
  exact ⟨_, ts.items, hkinds, h⟩

end Shorthand

namespace Expression

variable {e : Expression}

/-- The text of an expression without illegible numbers and chains is resolved, to what it is read
as. -/
theorem resolveExpression_reread (hplain : e.IsPlain) (hlegible : e.IsLegible)
    (hunchained : e.IsUnchained) (prefixes : Prefixes) :
    resolveExpression prefixes e.render = .ok e.reread := by
  rw [(tight_render e hplain).resolveExpression_eq_ok, ← e.render_reread]
  exact read_render ((isPlain_reread e).mpr hplain) ((isUnsigned_reread e).mpr hlegible)
    ((isUnchained_reread e).mpr hunchained) prefixes

/-- A text that is resolved has no illegible number in it. -/
theorem isLegible_of_resolveExpression (hplain : e.IsPlain) {prefixes : Prefixes}
    {e' : Expression} (h : resolveExpression prefixes e.render = .ok e') : e.IsLegible := by
  by_contra hlegible
  obtain ⟨fault, hfault⟩ :=
    tokenize_of_kinds_eq_none (e.garbles_render hplain hlegible).kinds_eq_none
  rw [(tight_render e hplain).resolveExpression_eq_ok, Shorthand.read, hfault] at h
  cases h

/-- A text that is resolved has no chain in it. -/
theorem isUnchained_of_resolveExpression (hplain : e.IsPlain) (hlegible : e.IsLegible)
    {prefixes : Prefixes} {e' : Expression} (h : resolveExpression prefixes e.render = .ok e') :
    e.IsUnchained := by
  by_contra hchained
  rw [(tight_render e hplain).resolveExpression_eq_ok] at h
  have hspells := spells_reread hplain hlegible
  obtain ⟨s, ts, hts, hread⟩ := exists_readAll_of_read hspells.kinds_eq_some h
  exact readAll_readExpression_of_chained ((isPlain_reread e).mpr hplain)
    (fun hunchained => hchained ((isUnchained_reread e).mp hunchained)) hts e' hread

end Expression

namespace Shorthand

/-- What a text is resolved to has a text that is resolved as well, if and only if its numbers without
quotes have digits on both sides of their points, and no left operand of a comparison is a comparison
or an `IN`. -/
theorem resolveExpression_render_iff {prefixes : Prefixes} (hp : prefixes.IsPlain) {text : String}
    {e : Expression} (h : resolveExpression prefixes text = .ok e) :
    (∃ e', resolveExpression prefixes e.render = .ok e') ↔ e.IsLegible ∧ e.IsUnchained := by
  have hplain := resolveExpression_plain hp h
  constructor
  · intro hresolved
    obtain ⟨e', he'⟩ := hresolved
    have hlegible := Expression.isLegible_of_resolveExpression hplain he'
    exact ⟨hlegible, Expression.isUnchained_of_resolveExpression hplain hlegible he'⟩
  · intro hcond
    exact ⟨e.reread, Expression.resolveExpression_reread hplain hcond.1 hcond.2 prefixes⟩

theorem resolveExpression_render_iff_chained : ∃ e : Expression,
    resolveExpression .empty "(?a = ?b) = ?c" = .ok e ∧ e.render = "?a = ?b = ?c" ∧
      ¬∃ e', resolveExpression .empty e.render = .ok e' := by
  let e : Expression :=
    .binary .eq (.binary .eq (.term (.free "a")) (.term (.free "b"))) (.term (.free "c"))
  have h : resolveExpression .empty "(?a = ?b) = ?c" = .ok e := by decide +kernel
  have hchained : ¬e.IsUnchained := fun hunchained => hunchained.1 rfl rfl
  refine ⟨e, h, by decide +kernel, fun hresolved => hchained ?_⟩
  exact ((resolveExpression_render_iff Prefixes.isPlain_empty h).mp hresolved).2

end Shorthand

end GraphPattern
