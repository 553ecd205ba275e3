import GraphPattern.Prefixes
import GraphPattern.Proofs.OrderedMap

/-!
# Merging of prefixes

The declarations of a mapping are taken over one after the other. As no label stands twice among them,
what becomes of one does not depend on those before it, so the pass puts those with new labels behind
what there was (`Prefixes.toList_merge`) and tells of those with another namespace
(`Prefixes.conflicts_eq`). Hence it does not matter in which order mappings are merged into one another
(`Prefixes.merge_assoc`).
-/

namespace GraphPattern

namespace Prefixes

variable {p q : Prefixes}

/-- The labels that are declared, in order. -/
def labels (p : Prefixes) : List String := p.toList.map Prod.fst

theorem nodup_labels (p : Prefixes) : p.labels.Nodup := p.map.nodup_keys

theorem eq_of_toList_eq (h : p.toList = q.toList) : p = q := by
  obtain ⟨⟨es, hes⟩⟩ := p
  obtain ⟨⟨fs, hfs⟩⟩ := q
  obtain rfl : es = fs := h
  rfl

theorem namespace?_eq_some_iff {label ns : String} :
    p.namespace? label = some ns ↔ (label, ns) ∈ p.toList :=
  OrderedMap.lookup_eq_some_iff

theorem namespace?_eq_none_iff {label : String} : p.namespace? label = none ↔ label ∉ p.labels :=
  OrderedMap.lookup_eq_none_iff

/-! ## One declaration -/

/-- Whether the label of a declaration is declared with another namespace. -/
def Disputes (p : Prefixes) (e : String × String) : Prop := ∃ d ∈ p.toList, d.1 = e.1 ∧ d.2 ≠ e.2

instance (e : String × String) : Decidable (p.Disputes e) :=
  inferInstanceAs (Decidable (∃ d ∈ p.toList, d.1 = e.1 ∧ d.2 ≠ e.2))

variable {e f : String × String}

/-- A declaration with a new label comes last. -/
theorem absorb_of_not_mem (h : e.1 ∉ p.labels) (disputed : List String) :
    ∃ p', absorb (disputed, p) e = (disputed, p') ∧ p'.toList = p.toList ++ [e] := by
  have hnone := namespace?_eq_none_iff.mpr h
  refine ⟨⟨p.map.insert e.1 e.2⟩, ?_, OrderedMap.entries_insert_of_lookup_eq_none hnone e.2⟩
  rw [absorb, hnone]

/-- A declaration with a known label is told of if it is disputed. -/
theorem absorb_of_mem (h : e.1 ∈ p.labels) (disputed : List String) :
    absorb (disputed, p) e = (disputed ++ if p.Disputes e then [e.1] else [], p) := by
  obtain ⟨⟨label, ns⟩, hmem, rfl⟩ := List.mem_map.mp h
  have hsome := namespace?_eq_some_iff.mpr hmem
  -- a label has one namespace, so there is one declaration that this one can disagree with
  have hdisputes : p.Disputes e ↔ ns ≠ e.2 := by
    constructor
    · rintro ⟨⟨_, other⟩, hother, rfl, hne⟩
      rw [← namespace?_eq_some_iff, hsome, Option.some.injEq] at hother
      exact hother ▸ hne
    · exact fun hne => ⟨_, hmem, rfl, hne⟩
  rw [absorb, hsome]
  by_cases hns : ns = e.2
  · simp [hdisputes, hns]
  · simp [hdisputes, hns]

/-! ## All declarations -/

/-- A declaration behind the others changes nothing for one with another label. -/
theorem disputes_iff_of_append (h : q.toList = p.toList ++ [e]) (hne : f.1 ≠ e.1) :
    q.Disputes f ↔ p.Disputes f := by
  simp only [Disputes, h, List.mem_append, List.mem_singleton]
  constructor
  · rintro ⟨d, hd | rfl, hlabel, hns⟩
    · exact ⟨d, hd, hlabel, hns⟩
    · exact absurd hlabel.symm hne
  · rintro ⟨d, hd, hrest⟩
    exact ⟨d, .inl hd, hrest⟩

theorem mem_labels_iff_of_append (h : q.toList = p.toList ++ [e]) (hne : f.1 ≠ e.1) :
    f.1 ∈ q.labels ↔ f.1 ∈ p.labels := by
  rw [labels, h, List.map_append, List.mem_append, List.map_singleton, List.mem_singleton,
    or_iff_left hne, labels]

/-- Declarations with different labels are judged by what was declared before all of them. -/
theorem foldl_absorb {es : List (String × String)} (h : (es.map Prod.fst).Nodup)
    (disputed : List String) (p : Prefixes) :
    (es.foldl absorb (disputed, p)).1 = disputed ++ (es.filter (p.Disputes ·)).map Prod.fst ∧
      (es.foldl absorb (disputed, p)).2.toList = p.toList ++ es.filter (·.1 ∉ p.labels) := by
  induction es generalizing disputed p with
  | nil => simp
  | cons e es ih =>
    rw [List.map_cons, List.nodup_cons] at h
    have hne : ∀ f ∈ es, f.1 ≠ e.1 := fun f hf heq => h.1 (heq ▸ List.mem_map_of_mem hf)
    by_cases hmem : e.1 ∈ p.labels
    · obtain ⟨hdisputed, hlist⟩ := ih h.2 (disputed ++ if p.Disputes e then [e.1] else []) p
      rw [List.foldl_cons, absorb_of_mem hmem, hdisputed, hlist]
      by_cases hdisputes : p.Disputes e
      · simp [hmem, hdisputes]
      · simp [hmem, hdisputes]
    · obtain ⟨p', habsorb, hp'⟩ := absorb_of_not_mem hmem disputed
      obtain ⟨hdisputed, hlist⟩ := ih h.2 disputed p'
      have hnone : ¬p.Disputes e := by
        rintro ⟨d, hd, hlabel, -⟩
        exact hmem (hlabel ▸ List.mem_map_of_mem hd)
      have hfilter : es.filter (p'.Disputes ·) = es.filter (p.Disputes ·) :=
        List.filter_congr fun f hf => by simp [disputes_iff_of_append hp' (hne f hf)]
      have hfilter' : es.filter (·.1 ∉ p'.labels) = es.filter (·.1 ∉ p.labels) :=
        List.filter_congr fun f hf => by simp [mem_labels_iff_of_append hp' (hne f hf)]
      rw [List.foldl_cons, habsorb, hdisputed, hlist, hfilter, hfilter', hp']
      constructor
      · simp [hnone]
      · simp [hmem]

theorem conflicts_eq (p q : Prefixes) :
    p.conflicts q = (q.toList.filter (p.Disputes ·)).map Prod.fst :=
  (foldl_absorb q.nodup_labels [] p).1

/-- The declarations that are taken over stand behind those there were, in their order. -/
theorem toList_merge (p q : Prefixes) :
    (p.merge q).toList = p.toList ++ q.toList.filter (·.1 ∉ p.labels) :=
  (foldl_absorb q.nodup_labels [] p).2

theorem mem_labels_merge {label : String} :
    label ∈ (p.merge q).labels ↔ label ∈ p.labels ∨ label ∈ q.labels := by
  simp only [labels, toList_merge, List.map_append, List.mem_append, List.mem_map, List.mem_filter,
    decide_eq_true_eq]
  constructor
  · rintro (h | ⟨e, ⟨he, -⟩, rfl⟩)
    · exact .inl h
    · exact .inr ⟨e, he, rfl⟩
  · rintro (h | ⟨e, he, rfl⟩)
    · exact .inl h
    · by_cases hmem : e.1 ∈ p.labels
      · exact .inl (List.mem_map.mp hmem)
      · exact .inr ⟨e, ⟨he, fun h => hmem (List.mem_map.mpr h)⟩, rfl⟩

theorem merge_assoc (p q r : Prefixes) : (p.merge q).merge r = p.merge (q.merge r) := by
  apply eq_of_toList_eq
  simp only [toList_merge, List.filter_append, List.filter_filter, List.append_assoc,
    mem_labels_merge, not_or]
  simp only [Bool.decide_and]

/-- Mappings can be merged in any order of pairs. All that is declared first keeps its namespace and its
place; what is merged in adds the labels that are new, in its order and with its namespaces, and tells
of those that both declare with different namespaces, in its order. -/
theorem merge_first_wins (p q r : Prefixes) :
    (p.merge q).merge r = p.merge (q.merge r) ∧
      (p.merge q).toList = p.toList ++ q.toList.filter (fun e => e.1 ∉ p.labels) ∧
      p.conflicts q =
        (q.toList.filter fun e => ∃ d ∈ p.toList, d.1 = e.1 ∧ d.2 ≠ e.2).map Prod.fst :=
  ⟨merge_assoc p q r, toList_merge p q, conflicts_eq p q⟩

/-- The label `a` keeps its namespace and is told of; the label `b` is new. -/
example :
    let p := ofList [("a", "urn:a:")]
    let q := ofList [("b", "urn:b:"), ("a", "urn:other:")]
    (p.merge q).toList = [("a", "urn:a:"), ("b", "urn:b:")] ∧ p.conflicts q = ["a"] := by
  decide

end Prefixes

end GraphPattern
