import GraphPattern.Collection
import GraphPattern.Proofs.Labels

/-!
# What a collection consists of

The triples of a list that could be made are those of `Collection.link` for one node per member, in
the order of the members.
-/

namespace GraphPattern.Collection

open Steps

/-- As many nodes are made as there are members, and then put beside them. -/
theorem pairUp_eq (a : Allocator) (ts : List Term) (l : Labelling) :
    pairUp a ts l = mapResult (List.zip · ts) id (a.allocateAll ts.length l) := by
  induction ts generalizing l with
  | nil => rfl
  | cons t ts ih =>
    refine bind_mapResult (g := id) (mapResult_id _).symm fun node k _ => ?_
    rw [map_eq_mapResult, mapResult_mapResult]
    show ((fun rest => (node, t) :: rest) <$> pairUp a ts) k = _
    rw [map_eq_mapResult, ih, mapResult_mapResult]
    rfl

theorem pairUp_eq_ok {a : Allocator} {ts : List Term} {l m : Labelling}
    {pairs : List (BlankNode × Term)} (h : pairUp a ts l = .ok pairs m) :
    a.allocateAll ts.length l = .ok (pairs.map Prod.fst) m ∧ pairs.map Prod.snd = ts := by
  rw [pairUp_eq, mapResult_eq_ok] at h
  obtain ⟨nodes, hnodes, rfl⟩ := h
  have hlength : nodes.length = ts.length := Allocator.length_of_allocateAll hnodes
  rw [List.map_fst_zip (Nat.le_of_eq hlength), List.map_snd_zip (Nat.le_of_eq hlength.symm)]
  exact ⟨hnodes, rfl⟩

theorem grows_pairUp (a : Allocator) (ts : List Term) : Grows Labelling.next (pairUp a ts) :=
  (a.grows_allocateAll ts.length).of_mapResult (pairUp_eq a ts)

theorem grows_ofTerms (a : Allocator) (ts : List Term) :
    Grows Labelling.next (ofTerms a ts) := by
  refine (grows_pairUp a ts).bind fun pairs => ?_
  cases pairs with
  | nil => exact grows_throw _
  | cons pair pairs => exact grows_pure _

theorem ofTerms_eq_ok {a : Allocator} {ts : List Term} {l m : Labelling} {c : Collection}
    (h : ofTerms a ts l = .ok c m) :
    ∃ pairs, pairUp a ts l = .ok pairs m ∧ c.triples = link pairs ∧
      pairs.head?.map (fun p => Term.blank p.1) = some c.head := by
  rw [ofTerms, bind_eq_ok] at h
  obtain ⟨pairs, r, hp, h⟩ := h
  match pairs, h with
  | [], h => cases h
  | (node, value) :: rest, h =>
    obtain ⟨rfl, rfl⟩ := pure_eq_ok.mp h
    exact ⟨_, hp, rfl, rfl⟩

/-- A list has a first node, so it has triples. -/
theorem triples_ne_nil {a : Allocator} {ts : List Term} {l m : Labelling} {c : Collection}
    (h : ofTerms a ts l = .ok c m) : c.triples ≠ [] := by
  obtain ⟨pairs, _, hc, hhead⟩ := ofTerms_eq_ok h
  rw [hc]
  cases pairs with
  | nil => cases hhead
  | cons p pairs => exact List.cons_ne_nil _ _

/-- A term of the triples is a member of the list or no variable. -/
theorem mem_terms_link {pairs : List (BlankNode × Term)} {t : Term}
    (h : t ∈ (link pairs).flatMap Triple.terms) :
    t ∈ pairs.map Prod.snd ∨ t.asVariable = none := by
  induction pairs with
  | nil => simp [link] at h
  | cons p pairs ih =>
    obtain ⟨node, value⟩ := p
    simp only [link, List.flatMap_cons, Triple.terms, Path.terms, List.mem_append, List.mem_cons,
      List.not_mem_nil, or_false] at h
    -- two triples for the first member: only the object of the first is no node or property
    rcases h with (rfl | rfl | rfl) | (rfl | rfl | rfl) | h
    · exact .inr rfl
    · exact .inr rfl
    · exact .inl (by simp)
    · exact .inr rfl
    · exact .inr rfl
    · cases pairs <;> exact .inr rfl
    · exact (ih h).imp_left (List.mem_cons_of_mem _)

theorem mem_terms_triples {a : Allocator} {ts : List Term} {l m : Labelling} {c : Collection}
    (h : ofTerms a ts l = .ok c m) {t : Term} (ht : t ∈ c.triples.flatMap Triple.terms) :
    t ∈ ts ∨ t.asVariable = none := by
  obtain ⟨pairs, hp, hc, _⟩ := ofTerms_eq_ok h
  rw [hc] at ht
  rw [← (pairUp_eq_ok hp).2]
  exact mem_terms_link ht

end GraphPattern.Collection
