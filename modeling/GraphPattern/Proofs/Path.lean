import GraphPattern.Proofs.Pattern.Shape

/-!
# Paths end to end

A flat path is told by its terms, and its text is theirs with slashes between them (`Path.ofTerms?`,
`Path.IsFlat.exists_terms`). Putting paths end to end keeps all terms in their order, however deep they
stand, but it opens the paths themselves only: what comes out is the path over the terms exactly if no
sequence stands deeper, or a single flat one does (`Path.sequence?_eq_ofTerms?_iff`). Among flat paths it
does not matter which of them are put together first (`Path.sequence?_filterMap_sequence?`).
-/

namespace GraphPattern.Path

/-- The path over some terms, from left to right: one predicate, or a sequence of predicates if there
are more. Without any term there is no path. -/
def ofTerms? : List Term → Option Path
  | [] => none
  | [t] => some (.predicate t)
  | ts => some (.sequence (ts.map .predicate))

variable {p q : Path} {ps : List Path} {ts : List Term}

/-! ## Flat paths -/

theorem exists_map_predicate (h : ∀ p ∈ ps, p.IsPredicate) :
    ∃ ts : List Term, ps = ts.map .predicate := by
  induction ps with
  | nil => exact ⟨[], rfl⟩
  | cons p ps ih =>
    rw [List.forall_mem_cons] at h
    obtain ⟨ts, rfl⟩ := ih h.2
    cases p with
    | predicate t => exact ⟨t :: ts, rfl⟩
    | sequence ps => cases h.1

theorem forall_isPredicate_map (ts : List Term) :
    ∀ p ∈ ts.map Path.predicate, p.IsPredicate :=
  List.forall_mem_map.mpr fun _ _ => trivial

theorem termsOfSteps_eq_flatMap (ps : List Path) : termsOfSteps ps = ps.flatMap terms := by
  induction ps with
  | nil => rfl
  | cons p ps ih => rw [termsOfSteps, ih, List.flatMap_cons]

theorem flatMap_terms_map_predicate (ts : List Term) : (ts.map predicate).flatMap terms = ts := by
  induction ts with
  | nil => rfl
  | cons t ts ih => rw [List.map_cons, List.flatMap_cons, ih, terms, List.singleton_append]

theorem steps_ofTerms? (ts : List Term) : (ofTerms? ts).elim [] steps = ts.map .predicate := by
  match ts with
  | [] | [_] | _ :: _ :: _ => rfl

theorem steps_of_ofTerms? (h : ofTerms? ts = some p) : p.steps = ts.map .predicate := by
  rw [← steps_ofTerms?, h]
  rfl

theorem isFlat_of_ofTerms? (h : ofTerms? ts = some p) : p.IsFlat := by
  match ts, h with
  | [t], h =>
    cases h
    trivial
  | t :: u :: ts, h =>
    cases h
    exact ⟨Nat.le_add_left 2 _, forall_isPredicate_map (t :: u :: ts)⟩

theorem exists_ofTerms?_append (h : ofTerms? ts = some p) (us : List Term) :
    ∃ q, ofTerms? (ts ++ us) = some q := by
  match ts, us with
  | [_], [] | [_], _ :: _ | _ :: _ :: _, _ => exact ⟨_, rfl⟩

/-- A flat path is the one over its terms. -/
theorem IsFlat.ofTerms?_terms (h : p.IsFlat) : ofTerms? p.terms = some p := by
  cases p with
  | predicate t => rfl
  | sequence ps =>
    obtain ⟨ts, rfl⟩ := exists_map_predicate h.2
    rw [terms, termsOfSteps_eq_flatMap, flatMap_terms_map_predicate]
    match ts, h.1 with
    | _ :: _ :: _, _ => rfl

theorem IsFlat.eq_of_terms (hp : p.IsFlat) (hq : q.IsFlat) (h : p.terms = q.terms) : p = q := by
  have hterms := hp.ofTerms?_terms
  rw [h, hq.ofTerms?_terms] at hterms
  exact (Option.some.inj hterms).symm

theorem toList_renderSteps (t : Term) (ts : List Term) :
    (renderSteps ((t :: ts).map .predicate)).toList =
      t.render.toList ++ ts.flatMap fun u => '/' :: u.render.toList := by
  induction ts generalizing t with
  | nil => exact (List.append_nil _).symm
  | cons u ts ih =>
    have hrest := ih u
    simp only [List.map_cons] at hrest ⊢
    rw [renderSteps, String.toList_append, String.toList_append, hrest, List.append_assoc,
      List.flatMap_cons, List.cons_append]
    rfl

/-- A flat path is its terms, with slashes between them. -/
theorem IsFlat.exists_terms (h : p.IsFlat) : ∃ t ts, p.terms = t :: ts ∧
    p.render.toList = t.render.toList ++ ts.flatMap fun u => '/' :: u.render.toList := by
  cases p with
  | predicate t => exact ⟨t, [], rfl, (List.append_nil _).symm⟩
  | sequence ps =>
    obtain ⟨ts, rfl⟩ := exists_map_predicate h.2
    cases ts with
    | nil => exact absurd h.1 (by decide)
    | cons t ts =>
      refine ⟨t, ts, ?_, toList_renderSteps t ts⟩
      rw [terms, termsOfSteps_eq_flatMap, flatMap_terms_map_predicate]

/-! ## Putting paths end to end -/

/-- Opening a path keeps its terms. -/
theorem flatMap_terms_steps (p : Path) : p.steps.flatMap terms = p.terms := by
  cases p with
  | predicate t => rfl
  | sequence ps => exact (termsOfSteps_eq_flatMap ps).symm

theorem flatMap_terms_flatMap_steps (ps : List Path) :
    (ps.flatMap steps).flatMap terms = ps.flatMap terms := by
  rw [List.flatMap_assoc]
  exact congrArg (List.flatMap · ps) (funext flatMap_terms_steps)

theorem sequence?_of_flatMap_steps (h : ps.flatMap steps = ts.map .predicate) :
    sequence? ps = ofTerms? ts := by
  unfold sequence?
  rw [h]
  match ts with
  | [] | [_] | _ :: _ :: _ => rfl

/-- A path over terms, in front of paths over more terms. -/
theorem sequence?_cons (hp : ofTerms? ts = some p) {us : List Term}
    (hps : ps.flatMap steps = us.map .predicate) : sequence? (p :: ps) = ofTerms? (ts ++ us) := by
  apply sequence?_of_flatMap_steps
  rw [List.flatMap_cons, steps_of_ofTerms? hp, hps, List.map_append]

/-- All terms are kept in their order, however deep they stand. -/
theorem terms_sequence? (ps : List Path) : (sequence? ps).elim [] terms = ps.flatMap terms := by
  rw [← flatMap_terms_flatMap_steps]
  unfold sequence?
  split
  · rename_i hnil
    rw [hnil]
    rfl
  · rename_i q hsingle
    rw [hsingle, List.flatMap_singleton]
    rfl
  · exact termsOfSteps_eq_flatMap _

/-- Where no sequence stands inside another, the result has all steps. -/
theorem steps_sequence? (h : ∀ q ∈ ps.flatMap steps, q.IsPredicate) :
    (sequence? ps).elim [] steps = ps.flatMap steps := by
  obtain ⟨ts, hts⟩ := exists_map_predicate h
  rw [sequence?_of_flatMap_steps hts, hts]
  exact steps_ofTerms? ts

theorem sequence?_eq_none_iff (ps : List Path) :
    sequence? ps = none ↔ ∀ p ∈ ps, p.steps = [] := by
  rw [← List.flatMap_eq_nil_iff, sequence?]
  split
  · rename_i hnil
    exact iff_of_true rfl hnil
  · rename_i q hsingle
    exact iff_of_false nofun (by simp [hsingle])
  · rename_i hnil _
    exact iff_of_false nofun hnil

/-- Paths that are put end to end keep all their terms; there is no path exactly if they are empty
sequences; and there is the path over the terms exactly if there is nothing but predicates in the
sequences among them, or nothing but one flat path. -/
theorem sequence?_eq_ofTerms?_iff (ps : List Path) :
    (sequence? ps).elim [] terms = ps.flatMap terms ∧
      (sequence? ps = none ↔ ∀ p ∈ ps, p.steps = []) ∧
      (sequence? ps = ofTerms? (ps.flatMap terms) ↔
        (∀ p ∈ ps, ∀ q ∈ p.steps, q.IsPredicate) ∨
          ∃ q : Path, q.IsFlat ∧ ps.flatMap steps = [q]) := by
  refine ⟨terms_sequence? ps, sequence?_eq_none_iff ps, ?_⟩
  rw [← List.forall_mem_flatMap]
  constructor
  · intro h
    match hsteps : ps.flatMap steps with
    | [] => exact .inl nofun
    | [q] =>
      rw [sequence?, hsteps] at h
      exact .inr ⟨q, isFlat_of_ofTerms? h.symm, rfl⟩
    | q :: r :: qs =>
      rw [sequence?, hsteps] at h
      -- the steps of the result are those of the path over the terms, so they are predicates
      have hpredicates : q :: r :: qs = (ps.flatMap terms).map .predicate :=
        steps_of_ofTerms? h.symm
      rw [hpredicates]
      exact .inl (forall_isPredicate_map _)
  · rintro (hall | ⟨q, hflat, hsingle⟩)
    · obtain ⟨ts, hts⟩ := exists_map_predicate hall
      rw [sequence?_of_flatMap_steps hts, ← flatMap_terms_flatMap_steps, hts,
        flatMap_terms_map_predicate]
    · rw [← flatMap_terms_flatMap_steps, sequence?, hsingle, List.flatMap_singleton,
        hflat.ofTerms?_terms]

/-- A sequence inside a sequence is not opened. -/
example (s t u : Term) :
    let inner : Path := .sequence [.predicate s, .predicate t]
    sequence? [.sequence [inner, .predicate u]] = some (.sequence [inner, .predicate u]) :=
  rfl

/-- Flat paths can be put end to end in groups first. -/
theorem sequence?_filterMap_sequence? {pss : List (List Path)}
    (h : ∀ ps ∈ pss, ∀ p ∈ ps, p.IsFlat) :
    sequence? (pss.filterMap sequence?) = sequence? pss.flatten := by
  have hgroup : ∀ ps ∈ pss, (sequence? ps).toList.flatMap steps = ps.flatMap steps := by
    intro ps hps
    rw [← steps_sequence? (List.forall_mem_flatMap.mpr fun p hp => (h ps hps p hp).steps)]
    cases sequence? ps with
    | none => rfl
    | some p => exact List.flatMap_singleton ..
  have hsteps : (pss.filterMap sequence?).flatMap steps = pss.flatten.flatMap steps := by
    rw [List.filterMap_eq_flatMap_toList, List.flatMap_assoc, List.flatMap_congr hgroup,
      List.flatten_eq_flatMap, List.flatMap_assoc]
    rfl
  rw [sequence?, sequence?, hsteps]

end GraphPattern.Path
