import GraphPattern.Layout
import GraphPattern.Proofs.Layout.Terms
import GraphPattern.Proofs.Path

/-!
# What the texts of triples and projections tell

A text that starts with a path, a triple or the head of a query tells it and where it ends: their
terms are told one after the other, with slashes or spaces between them (`Path.render_append_inj`,
`Triple.render_append_inj`, `renderHead_append_inj`).
-/

namespace GraphPattern

open Shorthand

variable {r s : List Char}

theorem delimits_space (cs : List Char) : Delimits (' ' :: cs) := delimits_cons (by decide)

theorem delimits_paren (cs : List Char) : Delimits (')' :: cs) := delimits_cons (by decide)

/-! ## Paths -/

namespace Path

variable {p q : Path}

theorem render_append_inj (hp : p.IsFlat) (hq : q.IsFlat) (hpt : ∀ t ∈ p.terms, t.IsClean)
    (hqt : ∀ t ∈ q.terms, t.IsClean)
    (h : p.render.toList ++ ' ' :: r = q.render.toList ++ ' ' :: s) : p = q ∧ r = s := by
  obtain ⟨t, ts, hts, htext⟩ := hp.exists_terms
  obtain ⟨u, us, hus, htext'⟩ := hq.exists_terms
  rw [hts, List.forall_mem_cons] at hpt
  rw [hus, List.forall_mem_cons] at hqt
  rw [htext, htext', List.append_assoc, List.append_assoc] at h
  have hsteps : ∀ (ts : List Term) (rest : List Char),
      Delimits (ts.flatMap (fun u => '/' :: u.render.toList) ++ ' ' :: rest) := by
    intro ts rest
    cases ts with
    | nil => exact delimits_space rest
    | cons t ts => exact delimits_cons (by decide)
  have hend : ∀ rest : List Char, Delimits (' ' :: rest) ∧
      ∀ (t : Term) (x : List Char), t.IsClean → ' ' :: rest ≠ ('/' :: t.render.toList) ++ x :=
    fun rest => ⟨delimits_space rest, nofun⟩
  obtain ⟨rfl, hrest⟩ := Term.render_append_inj hpt.1 hqt.1 (hsteps ts r) (hsteps us s) h
  obtain ⟨rfl, hspace⟩ := flatMap_append_inj (Q := Delimits) hpt.2 hqt.2
    (fun _ _ _ => delimits_cons (by decide))
    (fun a ha b hb x y hx hy hab =>
      Term.render_append_inj (hpt.2 a ha) hb hx hy (List.cons.inj hab).2)
    (hend r) (hend s) hrest
  exact ⟨hp.eq_of_terms hq (hts.trans hus.symm), (List.cons.inj hspace).2⟩

end Path

/-! ## Triples -/

namespace Triple

/-- Whether the triple is made of terms with a property, and its path is flat. -/
structure IsMadeOf (P : Term → Prop) (t : Triple) : Prop where
  terms : ∀ u ∈ t.terms, P u
  path : t.predicate.IsFlat

variable {t u : Triple}

theorem forall_mem_terms {P : Term → Prop} :
    (∀ x ∈ t.terms, P x) ↔ P t.subject ∧ (∀ x ∈ t.predicate.terms, P x) ∧ P t.object := by
  rw [terms, List.forall_mem_cons, List.forall_mem_append, List.forall_mem_singleton]

theorem toList_render (t : Triple) : t.render.toList =
    t.subject.render.toList ++ ' ' :: (t.predicate.render.toList ++ ' ' :: t.object.render.toList) := by
  simp only [render, String.toList_append, List.append_assoc]
  rfl

theorem render_append_inj (ht : t.IsMadeOf Term.IsClean) (hu : u.IsMadeOf Term.IsClean)
    (hr : Delimits r) (hs : Delimits s) (h : t.render.toList ++ r = u.render.toList ++ s) :
    t = u ∧ r = s := by
  obtain ⟨hsubject, hpath, hobject⟩ := forall_mem_terms.mp ht.terms
  obtain ⟨hsubject', hpath', hobject'⟩ := forall_mem_terms.mp hu.terms
  simp only [toList_render, List.append_assoc, List.cons_append] at h
  obtain ⟨hs₁, h⟩ :=
    Term.render_append_inj hsubject hsubject' (delimits_space _) (delimits_space _) h
  obtain ⟨hp, h⟩ := Path.render_append_inj ht.path hu.path hpath hpath' (List.cons.inj h).2
  obtain ⟨ho, hrest⟩ := Term.render_append_inj hobject hobject' hr hs h
  cases t
  cases u
  cases hs₁
  cases hp
  cases ho
  exact ⟨rfl, hrest⟩

/-- A triple starts like a term. -/
theorem exists_lead (ht : t.IsMadeOf Term.IsClean) :
    ∃ c cs, t.render.toList = c :: cs ∧ Term.isLead c = true := by
  obtain ⟨c, cs, hcs, hlead, -⟩ := Term.exists_lead (forall_mem_terms.mp ht.terms).1
  rw [toList_render, hcs]
  exact ⟨c, _, rfl, hlead.isLead⟩

end Triple

/-! ## The head of a query -/

/-- Whether the variable has a name, and a value with a property if it has one. -/
structure Variable.IsMadeOf (P : Term → Prop) (v : Variable) : Prop where
  name : IsName v.name
  value : ∀ t, v.binding = some t → P t

namespace Variable

variable {v w : Variable}

theorem toList_render (v : Variable) : v.render.toList = '?' :: v.name.toList := by
  rw [render, String.toList_append]
  rfl

theorem toList_renderProjected_of_some {t : Term} (h : v.binding = some t) :
    v.renderProjected.toList =
      '(' :: (t.render.toList ++ ' ' :: ("AS ?".toList ++ (v.name.toList ++ [')']))) := by
  simp only [renderProjected, h, String.toList_append, toList_render, List.append_assoc]
  rfl

theorem toList_renderProjected_of_none (h : v.binding = none) :
    v.renderProjected.toList = '?' :: v.name.toList := by
  rw [renderProjected, h]
  exact v.toList_render

theorem renderProjected_append_inj (hv : v.IsMadeOf Term.IsClean) (hw : w.IsMadeOf Term.IsClean)
    (hr : Delimits r) (hs : Delimits s)
    (h : v.renderProjected.toList ++ r = w.renderProjected.toList ++ s) : v = w ∧ r = s := by
  obtain ⟨name, binding⟩ := v
  obtain ⟨name', binding'⟩ := w
  cases binding with
  | none =>
    rw [toList_renderProjected_of_none rfl] at h
    cases binding' with
    | none =>
      rw [toList_renderProjected_of_none rfl] at h
      obtain ⟨rfl, hrest⟩ := name_append_inj hv.name hw.name hr hs (List.cons.inj h).2
      exact ⟨rfl, hrest⟩
    | some u =>
      rw [toList_renderProjected_of_some rfl] at h
      cases h
  | some t =>
    rw [toList_renderProjected_of_some rfl] at h
    cases binding' with
    | none =>
      rw [toList_renderProjected_of_none rfl] at h
      cases h
    | some u =>
      rw [toList_renderProjected_of_some rfl] at h
      simp only [List.cons_append, List.append_assoc] at h
      obtain ⟨rfl, hrest⟩ := Term.render_append_inj (hv.value t rfl) (hw.value u rfl)
        (delimits_space _) (delimits_space _) (List.cons.inj h).2
      obtain ⟨rfl, hend⟩ := name_append_inj hv.name hw.name (delimits_paren _) (delimits_paren _)
        (List.append_cancel_left (List.cons.inj hrest).2)
      exact ⟨rfl, (List.cons.inj hend).2⟩

/-- The characters that entries of a projection start with. -/
theorem exists_lead (v : Variable) :
    ∃ c cs, v.renderProjected.toList = c :: cs ∧ c ∈ ['?', '('] := by
  cases h : v.binding with
  | none => exact ⟨_, _, toList_renderProjected_of_none h, by decide⟩
  | some t => exact ⟨_, _, toList_renderProjected_of_some h, by decide⟩

end Variable

/-- What is asked for in the head of a query. -/
def projectionText : List Variable → List Char
  | [] => ['*']
  | v :: vs => v.renderProjected.toList ++ vs.flatMap fun w => ' ' :: w.renderProjected.toList

theorem toList_renderHead (distinct : Bool) (vs : List Variable) :
    (renderHead distinct vs).toList = "SELECT ".toList ++
      ((if distinct then "DISTINCT " else "").toList ++ (projectionText vs ++ " WHERE ".toList)) := by
  have hentries : ∀ (v : Variable) (vs : List Variable),
      (" ".intercalate ((v :: vs).map Variable.renderProjected)).toList = projectionText (v :: vs) := by
    intro v vs
    induction vs generalizing v with
    | nil =>
      rw [List.map_cons, List.map_nil, String.intercalate_singleton]
      exact (List.append_nil _).symm
    | cons w vs ih =>
      have hrest := ih w
      rw [List.map_cons] at hrest
      rw [List.map_cons, List.map_cons, String.intercalate_cons_cons, String.toList_append,
        String.toList_append, hrest]
      simp only [projectionText, List.flatMap_cons, List.cons_append, List.append_assoc]
      rfl
  rw [renderHead]
  cases vs with
  | nil =>
    simp only [String.toList_append, List.append_assoc]
    rfl
  | cons v vs => simp only [String.toList_append, List.append_assoc, List.isEmpty_cons, hentries,
      Bool.false_eq_true, if_false]

section Heads

variable {vs ws : List Variable}

/-- No projection starts like a word. -/
theorem exists_lead_projectionText (vs : List Variable) :
    ∃ c cs, projectionText vs = c :: cs ∧ (vs = [] ∧ c = '*' ∨ vs ≠ [] ∧ c ∈ ['?', '(']) := by
  cases vs with
  | nil => exact ⟨_, _, rfl, .inl ⟨rfl, rfl⟩⟩
  | cons v vs =>
    obtain ⟨c, cs, hcs, hc⟩ := v.exists_lead
    rw [projectionText, hcs]
    exact ⟨c, _, rfl, .inr ⟨List.cons_ne_nil v vs, hc⟩⟩

theorem projectionText_append_inj (hvs : ∀ v ∈ vs, v.IsMadeOf Term.IsClean)
    (hws : ∀ v ∈ ws, v.IsMadeOf Term.IsClean)
    (h : projectionText vs ++ (" WHERE ".toList ++ r) =
      projectionText ws ++ (" WHERE ".toList ++ s)) : vs = ws ∧ r = s := by
  have hform : vs = [] ↔ ws = [] := by
    obtain ⟨c, cs, hcs, hc⟩ := exists_lead_projectionText vs
    obtain ⟨d, ds, hds, hd⟩ := exists_lead_projectionText ws
    rw [hcs, hds] at h
    obtain rfl := (List.cons.inj h).1
    rcases hc with ⟨hnil, rfl⟩ | ⟨hne, hc⟩
    · rcases hd with ⟨hnil', -⟩ | ⟨-, hd⟩
      · exact iff_of_true hnil hnil'
      · exact absurd hd (by decide)
    · rcases hd with ⟨-, rfl⟩ | ⟨hne', -⟩
      · exact absurd hc (by decide)
      · exact iff_of_false hne hne'
  cases vs with
  | nil =>
    obtain rfl := hform.mp rfl
    exact ⟨rfl, List.append_cancel_left (List.append_cancel_left h)⟩
  | cons v vs =>
    cases ws with
    | nil => cases hform.mpr rfl
    | cons w ws =>
      rw [List.forall_mem_cons] at hvs hws
      rw [projectionText, projectionText, List.append_assoc, List.append_assoc] at h
      have hfollow : ∀ (vs : List Variable) (rest : List Char), Delimits
          (vs.flatMap (fun w => ' ' :: w.renderProjected.toList) ++ (" WHERE ".toList ++ rest)) := by
        intro vs rest
        cases vs with
        | nil => exact delimits_space _
        | cons v vs => exact delimits_space _
      have hend : ∀ rest : List Char, Delimits (" WHERE ".toList ++ rest) ∧
          ∀ (v : Variable) (x : List Char), v.IsMadeOf Term.IsClean →
            " WHERE ".toList ++ rest ≠ (' ' :: v.renderProjected.toList) ++ x := by
        refine fun rest => ⟨delimits_space _, fun v x _ h => ?_⟩
        obtain ⟨c, cs, hcs, hc⟩ := v.exists_lead
        rw [hcs] at h
        obtain rfl : 'W' = c := (List.cons.inj (List.cons.inj h).2).1
        exact absurd hc (by decide)
      obtain ⟨rfl, hrest⟩ :=
        Variable.renderProjected_append_inj hvs.1 hws.1 (hfollow vs r) (hfollow ws s) h
      obtain ⟨rfl, hword⟩ := flatMap_append_inj (Q := Delimits) hvs.2 hws.2
        (fun _ _ _ => delimits_space _)
        (fun a ha b hb x y hx hy hab =>
          Variable.renderProjected_append_inj (hvs.2 a ha) hb hx hy (List.cons.inj hab).2)
        (hend r) (hend s) hrest
      exact ⟨rfl, List.append_cancel_left hword⟩

/-- A text that starts with the head of a query tells what is asked for. -/
theorem renderHead_append_inj {distinct distinct' : Bool} (hvs : ∀ v ∈ vs, v.IsMadeOf Term.IsClean)
    (hws : ∀ v ∈ ws, v.IsMadeOf Term.IsClean)
    (h : (renderHead distinct vs).toList ++ r = (renderHead distinct' ws).toList ++ s) :
    distinct = distinct' ∧ vs = ws ∧ r = s := by
  have hword : ∀ {vs : List Variable} {x y : List Char}, 'D' :: x ≠ projectionText vs ++ y := by
    intro vs x y h
    obtain ⟨c, cs, hcs, hc⟩ := exists_lead_projectionText vs
    rw [hcs] at h
    obtain rfl := (List.cons.inj h).1
    rcases hc with ⟨-, hc⟩ | ⟨-, hc⟩
    · exact absurd hc (by decide)
    · exact absurd hc (by decide)
  rw [toList_renderHead, toList_renderHead] at h
  simp only [List.append_assoc] at h
  have h := List.append_cancel_left h
  cases distinct with
  | true =>
    cases distinct' with
    | true => exact ⟨rfl, projectionText_append_inj hvs hws (List.append_cancel_left h)⟩
    | false => exact absurd h hword
  | false =>
    cases distinct' with
    | true => exact absurd h.symm hword
    | false => exact ⟨rfl, projectionText_append_inj hvs hws h⟩

end Heads

end GraphPattern
