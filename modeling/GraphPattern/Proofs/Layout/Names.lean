import GraphPattern.Proofs.Layout.Parts
import GraphPattern.Proofs.Pattern.Shape
import GraphPattern.Query

/-!
# Names in what is written

What is written of a term, a path, an expression or the head of a query holds a newline only if a name
in it does: an IRI, the name of a variable or a function, a label or a tag. The text of a literal may be
anything, since a newline in it is written with a backslash.
-/

namespace GraphPattern

/-- Whether the text has no newline. -/
def Unbroken (s : String) : Prop := '\n' ∉ s.toList

instance (s : String) : Decidable (Unbroken s) := inferInstanceAs (Decidable ('\n' ∉ s.toList))

@[simp] theorem unbroken_append {s t : String} :
    Unbroken (s ++ t) ↔ Unbroken s ∧ Unbroken t := by
  rw [Unbroken, String.toList_append, List.mem_append, not_or]
  rfl

/-- Whether the text starts, and not with a space. -/
def Unspaced (s : String) : Prop := ∃ c ∈ s.toList.head?, c ≠ ' '

theorem Unspaced.append {s : String} (h : Unspaced s) (t : String) : Unspaced (s ++ t) := by
  obtain ⟨c, hc, hne⟩ := h
  obtain ⟨cs, hcs⟩ := List.head?_eq_some_iff.mp hc
  exact ⟨c, by rw [String.toList_append, hcs]; rfl, hne⟩

/-! ## Names -/

/-- The names in a term: IRIs, names of variables, labels and tags. -/
def Term.names : Term → List String
  | .iri i => [i.text]
  | .literal l => l.language.toList ++ (l.datatype.map Iri.text).toList
  | .free name => [name]
  | .bound name value => name :: value.names
  | .blank n => [n.label]

/-- The name of a variable, and the names in its value. -/
def Variable.names (v : Variable) : List String := (Term.ofVariable v).names

/-- The names in a triple. -/
def Triple.names (t : Triple) : List String := t.terms.flatMap Term.names

/-- The name of a function. -/
def Callee.name : Callee → String
  | .builtin name => name
  | .iri i => i.text

mutual

/-- The names in an expression, with those of functions. -/
def Expression.names : Expression → List String
  | .term t => t.names
  | .binary _ l r => names l ++ names r
  | .unary _ e => names e
  | .call c es => c.name :: namesOfAll es
  | .isIn e es _ => names e ++ namesOfAll es

/-- The names in a list of expressions. -/
def Expression.namesOfAll : List Expression → List String
  | [] => []
  | e :: es => names e ++ namesOfAll es

end

/-- The names in an element, without those of the elements below it. -/
def Element.names : Element → List String
  | .block ts => ts.flatMap Triple.names
  | .subQuery _ vs _ _ => vs.flatMap Variable.names
  | .bind e v => e.names ++ v.names
  | .filter e => e.names
  | .optional _ | .union _ | .minus _ => []

/-- Whether no name in the group has a newline, at any depth. -/
def Group.IsUnbroken (g : Group) : Prop :=
  Group.Everywhere (fun e => ∀ name ∈ e.names, Unbroken name) g

/-- Whether no prefix, namespace or other name in the query has a newline. -/
structure Query.IsUnbroken (q : Query) : Prop where
  prefixes : ∀ e ∈ q.prefixes.toList, Unbroken e.1 ∧ Unbroken e.2
  projection : ∀ v ∈ q.projection, ∀ name ∈ v.names, Unbroken name
  pattern : q.pattern.IsUnbroken

/-! ## Texts without newlines -/

theorem Iri.unbroken_render {i : Iri} (h : Unbroken i.text) : Unbroken i.render := by
  rw [render, unbroken_append, unbroken_append]
  exact ⟨⟨by decide, h⟩, by decide⟩

namespace Literal

variable {l : Literal}

theorem newline_not_mem_escape (c : Char) : '\n' ∉ escape c := by
  by_cases hline : c = '\n'
  · rw [hline]
    decide
  · have hself : '\n' ∉ [c] := fun h => hline (List.mem_singleton.mp h).symm
    unfold escape
    repeat' split
    all_goals first | decide | exact hself

theorem unbroken_quotedForm (l : Literal) : Unbroken l.quotedForm := by
  rw [Unbroken, toList_quotedForm, List.mem_cons, List.mem_append, List.mem_flatMap]
  rintro (h | ⟨c, -, hc⟩ | h)
  · exact absurd h (by decide)
  · exact newline_not_mem_escape c hc
  · exact absurd h (by decide)

theorem unbroken_suffix (h : ∀ name ∈ (Term.literal l).names, Unbroken name) :
    Unbroken l.suffix := by
  obtain ⟨lexical, datatype, language⟩ := l
  cases language with
  | some tag =>
    rw [suffix, unbroken_append]
    exact ⟨by decide, h tag List.mem_cons_self⟩
  | none =>
    cases datatype with
    | some d =>
      rw [suffix, unbroken_append]
      exact ⟨by decide, Iri.unbroken_render (h d.text List.mem_cons_self)⟩
    | none => exact (by decide : Unbroken "")

theorem unbroken_render (h : ∀ name ∈ (Term.literal l).names, Unbroken name) :
    Unbroken l.render := by
  unfold render
  split
  · rename_i hbare
    exact fun hmem => absurd ((isBareChar_of_isBare hbare).2 '\n' hmem) (by decide)
  · exact unbroken_append.mpr ⟨l.unbroken_quotedForm, unbroken_suffix h⟩

end Literal

namespace Term

variable {t : Term}

theorem unbroken_render (h : ∀ name ∈ t.names, Unbroken name) : Unbroken t.render := by
  induction t with
  | iri i => exact Iri.unbroken_render (h i.text List.mem_cons_self)
  | literal l => exact Literal.unbroken_render h
  | free name =>
    rw [render, unbroken_append]
    exact ⟨by decide, h name List.mem_cons_self⟩
  | bound name value ih => exact ih fun other hother => h other (List.mem_cons_of_mem name hother)
  | blank n =>
    rw [render, BlankNode.render, unbroken_append]
    exact ⟨by decide, h n.label List.mem_cons_self⟩

theorem unspaced_render (t : Term) : Unspaced t.render := by
  induction t with
  | iri i => exact ⟨'<', by rw [render, i.toList_render]; rfl, by decide⟩
  | literal l =>
    obtain ⟨c, cs, hcs, hc, -⟩ := l.exists_lead
    refine ⟨c, by rw [render, hcs]; rfl, ?_⟩
    rintro rfl
    exact absurd hc (by decide)
  | free name => exact ⟨'?', by rw [render, String.toList_append]; rfl, by decide⟩
  | bound name value ih => exact ih
  | blank n => exact ⟨'_', by rw [render, BlankNode.render, String.toList_append]; rfl, by decide⟩

end Term

mutual

theorem Path.unbroken_render : ∀ p : Path, (∀ t ∈ p.terms, Unbroken t.render) → Unbroken p.render
  | .predicate t, h => h t List.mem_cons_self
  | .sequence ps, h => Path.unbroken_renderSteps ps h

theorem Path.unbroken_renderSteps : ∀ ps : List Path,
    (∀ t ∈ Path.termsOfSteps ps, Unbroken t.render) → Unbroken (Path.renderSteps ps)
  | [], _ => by
    rw [Path.renderSteps]
    decide
  | [p], h => by
    rw [Path.renderSteps]
    exact Path.unbroken_render p fun t ht => h t (List.mem_append_left _ ht)
  | p :: q :: ps, h => by
    rw [Path.renderSteps, unbroken_append, unbroken_append]
    rw [Path.termsOfSteps, List.forall_mem_append] at h
    exact ⟨⟨Path.unbroken_render p h.1, by decide⟩, Path.unbroken_renderSteps (q :: ps) h.2⟩

end

theorem Triple.unbroken_render {t : Triple} (h : ∀ name ∈ t.names, Unbroken name) :
    Unbroken t.render := by
  have hterms : ∀ u ∈ t.terms, Unbroken u.render := fun u hu =>
    Term.unbroken_render fun name hname => h name (List.mem_flatMap.mpr ⟨u, hu, hname⟩)
  obtain ⟨hsubject, hpath, hobject⟩ := forall_mem_terms.mp hterms
  simp only [render, unbroken_append]
  exact ⟨⟨⟨⟨hsubject, by decide⟩, Path.unbroken_render _ hpath⟩, by decide⟩, hobject⟩

theorem BinaryOp.unbroken_symbol : ∀ op : BinaryOp, Unbroken op.symbol := by
  decide

theorem UnaryOp.unbroken_symbol : ∀ op : UnaryOp, Unbroken op.symbol := by
  decide

theorem Callee.unbroken_render {c : Callee} (h : Unbroken c.name) : Unbroken c.render := by
  cases c with
  | builtin name => exact h
  | iri i => exact Iri.unbroken_render h

theorem Triple.unspaced_render (t : Triple) : Unspaced t.render :=
  (((t.subject.unspaced_render.append " ").append _).append " ").append _

namespace Expression

theorem unbroken_parenthesize {text : String} (h : Unbroken text) (needed : Bool) :
    Unbroken (parenthesize needed text) := by
  unfold parenthesize
  split
  · rw [unbroken_append, unbroken_append]
    exact ⟨⟨by decide, h⟩, by decide⟩
  · exact h

mutual

theorem unbroken_render : ∀ e : Expression, (∀ name ∈ e.names, Unbroken name) → Unbroken e.render
  | .term t, h => Term.unbroken_render h
  | .binary op l r, h => by
    rw [names, List.forall_mem_append] at h
    simp only [render, unbroken_append]
    exact ⟨⟨⟨⟨unbroken_parenthesize (unbroken_render l h.1) _, by decide⟩, op.unbroken_symbol⟩,
      by decide⟩, unbroken_parenthesize (unbroken_render r h.2) _⟩
  | .unary op e, h => by
    rw [render, unbroken_append]
    exact ⟨op.unbroken_symbol, unbroken_parenthesize (unbroken_render e h) _⟩
  | .call c es, h => by
    rw [names, List.forall_mem_cons] at h
    simp only [render, unbroken_append]
    exact ⟨⟨⟨Callee.unbroken_render h.1, by decide⟩, unbroken_renderAll es h.2⟩, by decide⟩
  | .isIn e es negated, h => by
    rw [names, List.forall_mem_append] at h
    simp only [render, unbroken_append]
    refine ⟨⟨⟨unbroken_parenthesize (unbroken_render e h.1) _, ?_⟩, unbroken_renderAll es h.2⟩,
      by decide⟩
    cases negated <;> decide

theorem unbroken_renderAll : ∀ es : List Expression,
    (∀ name ∈ namesOfAll es, Unbroken name) → Unbroken (renderAll es)
  | [], _ => by
    rw [renderAll]
    decide
  | [e], h => by
    rw [renderAll]
    exact unbroken_render e fun name hname => h name (List.mem_append_left _ hname)
  | e :: e' :: es, h => by
    rw [renderAll, unbroken_append, unbroken_append]
    rw [namesOfAll, List.forall_mem_append] at h
    exact ⟨⟨unbroken_render e h.1, by decide⟩, unbroken_renderAll (e' :: es) h.2⟩

end

end Expression

namespace Variable

variable {v : Variable}

theorem unbroken_render (h : ∀ name ∈ v.names, Unbroken name) : Unbroken v.render := by
  rw [render, unbroken_append]
  obtain ⟨name, _ | value⟩ := v
  · exact ⟨by decide, h name List.mem_cons_self⟩
  · exact ⟨by decide, h name List.mem_cons_self⟩

theorem unbroken_renderProjected (h : ∀ name ∈ v.names, Unbroken name) :
    Unbroken v.renderProjected := by
  have hname := unbroken_render h
  obtain ⟨name, _ | value⟩ := v
  · exact hname
  · simp only [renderProjected, unbroken_append]
    have hvalue := Term.unbroken_render fun other hother =>
      h other (List.mem_cons_of_mem name hother)
    exact ⟨⟨⟨⟨by decide, hvalue⟩, by decide⟩, hname⟩, by decide⟩

end Variable

theorem unbroken_renderHead {vs : List Variable} (h : ∀ v ∈ vs, ∀ name ∈ v.names, Unbroken name)
    (distinct : Bool) : Unbroken (renderHead distinct vs) := by
  have hprojection : '\n' ∉ projectionText vs := by
    cases vs with
    | nil => decide
    | cons v vs =>
      rw [List.forall_mem_cons] at h
      rw [projectionText, List.mem_append, List.mem_flatMap]
      rintro (hv | ⟨w, hw, hmem⟩)
      · exact Variable.unbroken_renderProjected h.1 hv
      · rcases List.mem_cons.mp hmem with hspace | hmem
        · exact absurd hspace (by decide)
        · exact Variable.unbroken_renderProjected (h.2 w hw) hmem
  rw [Unbroken, toList_renderHead]
  simp only [List.mem_append, not_or]
  refine ⟨by decide, ?_, hprojection, by decide⟩
  cases distinct <;> decide

theorem unspaced_renderHead (distinct : Bool) (vs : List Variable) :
    Unspaced (renderHead distinct vs) :=
  ⟨'S', by rw [toList_renderHead]; rfl, by decide⟩

end GraphPattern
