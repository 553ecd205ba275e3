import GraphPattern.Builder.SelectBuilder
import GraphPattern.Proofs.Builder.Argument
import GraphPattern.Proofs.Pattern.Isomorphism

/-!
# The effective pattern says the same

A replacement of terms by terms with the same text changes no text, neither of a pattern nor of a part
of one (`Group.render_mapSlots`): how operands are put in parentheses and what is left out between
braces does not depend on the terms. So a pattern whose resolved variables are replaced by their
values is written as before (`Group.render_effective`). It is isomorphic to the one before, because
both have one normal form.
-/

namespace GraphPattern

/-! ## Replacements that keep the text -/

section Terms

variable {f : Term → Term}

mutual

theorem Path.render_map (hf : ∀ t, (f t).render = t.render) :
    ∀ p : Path, (p.map f).render = p.render
  | .predicate t => hf t
  | .sequence ps => Path.renderSteps_mapSteps hf ps

theorem Path.renderSteps_mapSteps (hf : ∀ t, (f t).render = t.render) :
    ∀ ps : List Path, Path.renderSteps (Path.mapSteps f ps) = Path.renderSteps ps
  | [] => rfl
  | [p] => Path.render_map hf p
  | p :: q :: ps => by
    have hrest := Path.renderSteps_mapSteps hf (q :: ps)
    simp only [Path.mapSteps, Path.renderSteps] at hrest ⊢
    rw [Path.render_map hf p, hrest]

end

@[simp] theorem Expression.level_map (f : Term → Term) (e : Expression) :
    (e.map f).level = e.level := by
  cases e <;> rfl

mutual

theorem Expression.render_map (hf : ∀ t, (f t).render = t.render) :
    ∀ e : Expression, (e.map f).render = e.render
  | .term t => hf t
  | .binary _ l r => by
    simp only [Expression.map, Expression.render, Expression.level_map,
      Expression.render_map hf l, Expression.render_map hf r]
  | .unary _ e => by
    simp only [Expression.map, Expression.render, Expression.level_map, Expression.render_map hf e]
  | .call _ es => by
    simp only [Expression.map, Expression.render, Expression.renderAll_mapAll hf es]
  | .isIn e es _ => by
    simp only [Expression.map, Expression.render, Expression.level_map,
      Expression.render_map hf e, Expression.renderAll_mapAll hf es]

theorem Expression.renderAll_mapAll (hf : ∀ t, (f t).render = t.render) : ∀ es : List Expression,
    Expression.renderAll (Expression.mapAll f es) = Expression.renderAll es
  | [] => rfl
  | [e] => Expression.render_map hf e
  | e :: e' :: es => by
    have hrest := Expression.renderAll_mapAll hf (e' :: es)
    simp only [Expression.mapAll, Expression.renderAll] at hrest ⊢
    rw [Expression.render_map hf e, hrest]

end

theorem Triple.render_map (hf : ∀ t, (f t).render = t.render) (t : Triple) :
    (t.map f).render = t.render := by
  simp only [Triple.map, Triple.render, hf, Path.render_map hf]

end Terms

@[simp] theorem Group.isVacant_mapSlots (m : SlotMap) (g : Group) :
    isVacant (mapSlots m g) = g.isVacant := by
  induction g with
  | nil => rfl
  | cons e g ih =>
    simp only [isVacant] at ih
    simp only [mapSlots, isVacant, List.all_cons, Element.isEmptyBlock_mapSlots, ih]

@[simp] theorem Layout.scope_mapSlots (l : Layout) (depth : Nat) (m : SlotMap) (g : Group)
    (inside : String) : l.scope depth (Group.mapSlots m g) inside = l.scope depth g inside := by
  rw [scope, Group.isVacant_mapSlots, scope]

/-- Whether the replacement changes nothing about how slots are written. -/
structure SlotMap.KeepsText (m : SlotMap) : Prop where
  term : ∀ t, (m.term t).render = t.render
  projected : ∀ v, (m.projected v).renderProjected = v.renderProjected

section Text

variable {m : SlotMap} (l : Layout)

theorem renderHead_map_projected (hm : m.KeepsText) (distinct : Bool) (vs : List Variable) :
    renderHead distinct (vs.map m.projected) = renderHead distinct vs := by
  have hrender : Variable.renderProjected ∘ m.projected = Variable.renderProjected :=
    funext hm.projected
  rw [renderHead, List.isEmpty_map, List.map_map, hrender, renderHead]

mutual

theorem Element.render_mapSlots (hm : m.KeepsText) (depth : Nat) :
    ∀ e : Element, (e.mapSlots m).render l depth = e.render l depth
  | .block ts => by
    simp only [Element.mapSlots, Element.render, List.map_map, Function.comp_def,
      Triple.render_map hm.term]
  | .optional g => by
    simp only [Element.mapSlots, Element.render, Layout.scope_mapSlots,
      Group.renderInside_mapSlots hm (depth + 1) g]
  | .union gs => by
    simp only [Element.mapSlots, Element.render, Group.renderAlternatives_mapSlotsOfAll hm depth gs]
  | .minus g => by
    simp only [Element.mapSlots, Element.render, Layout.scope_mapSlots,
      Group.renderInside_mapSlots hm (depth + 1) g]
  | .subQuery d vs g _ => by
    simp only [Element.mapSlots, Element.render, Layout.scope_mapSlots,
      renderHead_map_projected hm, Group.renderInside_mapSlots hm (depth + 2) g]
  | .bind e _ => by
    simp only [Element.mapSlots, Element.render, Expression.render_map hm.term]
  | .filter e => by
    simp only [Element.mapSlots, Element.render, Expression.render_map hm.term]

theorem Group.renderInside_mapSlots (hm : m.KeepsText) (depth : Nat) : ∀ g : List Element,
    Group.renderInside l depth (Group.mapSlots m g) = Group.renderInside l depth g
  | [] => rfl
  | e :: g => by
    rw [Group.mapSlots, Group.renderInside, Element.render_mapSlots hm depth e,
      Group.renderInside_mapSlots hm depth g, Group.renderInside]

theorem Group.renderAlternatives_mapSlotsOfAll (hm : m.KeepsText) (depth : Nat) :
    ∀ gs : List (List Element),
      Group.renderAlternatives l depth (Group.mapSlotsOfAll m gs) =
        Group.renderAlternatives l depth gs
  | [] => rfl
  | [g] => by
    simp only [Group.mapSlotsOfAll, Group.renderAlternatives, Layout.scope_mapSlots,
      Group.renderInside_mapSlots hm (depth + 1) g]
  | g :: h :: gs => by
    have hrest := Group.renderAlternatives_mapSlotsOfAll hm depth (h :: gs)
    simp only [Group.mapSlotsOfAll, Group.renderAlternatives, Layout.scope_mapSlots] at hrest ⊢
    rw [Group.renderInside_mapSlots hm (depth + 1) g, hrest]

end

/-- A pattern is written as before if all its slots are. -/
theorem Group.render_mapSlots (hm : m.KeepsText) (depth : Nat) (g : Group) :
    Group.render l depth (mapSlots m g) = g.render l depth := by
  simp only [Group.render, Layout.scope_mapSlots, renderInside_mapSlots l hm (depth + 1) g]

end Text

/-! ## Values in the place of variables -/

theorem SlotMap.keepsText_effective : SlotMap.effective.KeepsText where
  term := Term.render_effective
  projected _ := rfl

namespace Group

theorem render_effective (l : Layout) (depth : Nat) (g : Group) :
    g.effective.render l depth = g.render l depth :=
  render_mapSlots l SlotMap.keepsText_effective depth g

theorem mapLabels_id (g : Group) : g.mapLabels id = g := by
  have hterm : ∀ t : Term, t.mapLabel id = t := fun t => by
    induction t with
    | bound name value ih => rw [Term.mapLabel, ih]
    | _ => rfl
  refine mapSlots_eq_self fun s _ => ?_
  cases s with
  | term t => exact congrArg Slot.term (hterm t)
  | projected v =>
    obtain ⟨name, _ | value⟩ := v
    · rfl
    · exact congrArg (Slot.projected ⟨name, some ·⟩) (hterm value)
  | target v => rfl

theorem isomorphic_effective (g : Group) : g.isomorphic g.effective = true := by
  refine isomorphic_of_mapLabels (Set.injOn_id _) ?_
  rw [mapLabels_id, normal_effective]

theorem isOpen_effective (g : Group) : g.effective.IsOpen := by
  intro t ht
  rw [effective, slots_mapSlots] at ht
  obtain ⟨s, _, hs⟩ := List.mem_map.mp ht
  cases s with
  | term u =>
    cases hs
    exact u.effective_ne_bound
  | projected v => cases hs
  | target v => cases hs

end Group

/-- A select builder takes values for variables and writes what comes of it, a pattern builder writes
the pattern that it has: after the declarations and what is asked for, the texts are the same. -/
theorem SelectBuilder.render_eq_append (b : SelectBuilder) :
    b.render = String.join (b.body.prefixes.toList.map fun e =>
        Query.renderDeclaration e.1 e.2 ++ b.body.layout.lineBreak 0) ++
      renderHead b.distinct b.projection ++ b.body.render := by
  rw [render, build, Query.render, PatternBuilder.build, Group.render_effective, PatternBuilder.render]

/-- To replace resolved variables by their values changes neither the text of a pattern, in whatever
layout, nor what it says, and leaves no resolved variable in a triple, a path or an expression. So the
text of a query ends in what its pattern builder would write. -/
theorem Group.effective_faithful (g : Group) :
    (∀ l depth, g.effective.render l depth = g.render l depth) ∧
      g.isomorphic g.effective = true ∧ g.effective.IsOpen ∧
      ∀ b : SelectBuilder, b.render = String.join (b.body.prefixes.toList.map fun e =>
          Query.renderDeclaration e.1 e.2 ++ b.body.layout.lineBreak 0) ++
        renderHead b.distinct b.projection ++ b.body.render :=
  ⟨fun l depth => render_effective l depth g, isomorphic_effective g, isOpen_effective g,
    SelectBuilder.render_eq_append⟩

end GraphPattern
