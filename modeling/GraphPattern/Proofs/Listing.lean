import GraphPattern.Proofs.Collection
import GraphPattern.Proofs.SharedCounter

/-!
# What a collection lists

A collection is read back from its first node: the member is the one `rdf:first` of the node, and the
one `rdf:rest` of it is where reading goes on, up to the empty list (`Collection.Lists`). One allocator
never makes the same node twice, so what was made of some terms is read back as these terms, and as
nothing else (`Collection.lists_ofTerms_iff`).
-/

namespace GraphPattern.Collection

open Steps

/-- What the triples say of a subject with a property. -/
def objectsOf (triples : List Triple) (subject : Term) (property : String) : List Term :=
  (triples.filter fun t =>
    t.subject = subject && t.predicate = .predicate (.iri ⟨property⟩)).map Triple.object

/-- Whether the triples say that these are the nodes and members of the list that starts at a term. -/
inductive Lists (triples : List Triple) : Term → List (BlankNode × Term) → Prop
  | nil : Lists triples (.iri ⟨Vocabulary.rdfNil⟩) []
  | cons {node : BlankNode} {value next : Term} {rest : List (BlankNode × Term)}
    (hfirst : objectsOf triples (.blank node) Vocabulary.rdfFirst = [value])
    (hrest : objectsOf triples (.blank node) Vocabulary.rdfRest = [next])
    (hmore : Lists triples next rest) : Lists triples (.blank node) ((node, value) :: rest)

variable {triples : List Triple} {t : Triple} {subject head : Term} {property : String}
  {pairs : List (BlankNode × Term)}

theorem objectsOf_cons_self (object : Term) :
    objectsOf (⟨subject, .predicate (.iri ⟨property⟩), object⟩ :: triples) subject property =
      object :: objectsOf triples subject property := by
  simp [objectsOf]

theorem objectsOf_cons_of_ne
    (h : t.subject = subject → t.predicate ≠ .predicate (.iri ⟨property⟩)) :
    objectsOf (t :: triples) subject property = objectsOf triples subject property := by
  rw [objectsOf, List.filter_cons_of_neg (by simpa using h), objectsOf]

theorem objectsOf_eq_nil (h : subject ∉ triples.map Triple.subject) :
    objectsOf triples subject property = [] := by
  rw [objectsOf, List.map_eq_nil_iff, List.filter_eq_nil_iff]
  intro t ht hmatch
  obtain ⟨hsubject, _⟩ := Bool.and_eq_true_iff.mp hmatch
  exact h (List.mem_map.mpr ⟨t, ht, of_decide_eq_true hsubject⟩)

/-! ## Reading a list -/

namespace Lists

/-- A triple about something else does not change what is listed. -/
theorem cons_of_ne (h : Lists triples head pairs) (hne : ∀ p ∈ pairs, t.subject ≠ .blank p.1) :
    Lists (t :: triples) head pairs := by
  induction h with
  | nil => exact .nil
  | cons hfirst hrest _ ih =>
    obtain ⟨hnode, hothers⟩ := List.forall_mem_cons.mp hne
    rw [← objectsOf_cons_of_ne fun heq => absurd heq hnode] at hfirst hrest
    exact .cons hfirst hrest (ih hothers)

/-- There is no second way to read a list. -/
theorem unique {others : List (BlankNode × Term)} (h : Lists triples head pairs)
    (h' : Lists triples head others) : others = pairs := by
  induction h generalizing others with
  | nil =>
    cases h'
    rfl
  | cons hfirst hrest _ ih =>
    cases h' with
    | cons hfirst' hrest' hmore' =>
      obtain rfl := List.singleton_inj.mp (hfirst.symm.trans hfirst')
      obtain rfl := List.singleton_inj.mp (hrest.symm.trans hrest')
      rw [ih hmore']

end Lists

/-! ## The triples of given nodes -/

/-- Where reading starts. -/
def start : List (BlankNode × Term) → Term
  | [] => .iri ⟨Vocabulary.rdfNil⟩
  | (node, _) :: _ => .blank node

theorem link_cons (node : BlankNode) (value : Term) (rest : List (BlankNode × Term)) :
    link ((node, value) :: rest) =
      ⟨.blank node, .predicate (.iri ⟨Vocabulary.rdfFirst⟩), value⟩ ::
        ⟨.blank node, .predicate (.iri ⟨Vocabulary.rdfRest⟩), start rest⟩ :: link rest := by
  cases rest <;> rfl

theorem length_link (pairs : List (BlankNode × Term)) : (link pairs).length = 2 * pairs.length := by
  induction pairs with
  | nil => rfl
  | cons p pairs ih =>
    rw [link_cons, List.length_cons, List.length_cons, ih, List.length_cons, Nat.mul_succ]

theorem mem_subjects_link :
    subject ∈ (link pairs).map Triple.subject ↔ subject ∈ pairs.map fun p => .blank p.1 := by
  induction pairs with
  | nil => rfl
  | cons p pairs ih =>
    rw [link_cons, List.map_cons, List.map_cons, List.mem_cons, List.mem_cons, ih, List.map_cons,
      List.mem_cons, or_self_left]

theorem rest_ne_first : Path.predicate (.iri ⟨Vocabulary.rdfRest⟩) ≠
    .predicate (.iri ⟨Vocabulary.rdfFirst⟩) := by
  decide +kernel

/-- Where no node occurs twice, the nodes and their members are what is listed. -/
theorem lists_link (hnodup : (pairs.map Prod.fst).Nodup) : Lists (link pairs) (start pairs) pairs := by
  induction pairs with
  | nil => exact .nil
  | cons p pairs ih =>
    obtain ⟨node, value⟩ := p
    obtain ⟨hnew, hnodup⟩ := List.nodup_cons.mp hnodup
    have hne : ∀ p ∈ pairs, Term.blank node ≠ .blank p.1 := by
      intro p hp heq
      exact hnew (List.mem_map.mpr ⟨p, hp, (Term.blank.inj heq).symm⟩)
    have hnone : ∀ property, objectsOf (link pairs) (.blank node) property = [] := by
      intro property
      refine objectsOf_eq_nil fun hmem => ?_
      obtain ⟨p, hp, heq⟩ := List.mem_map.mp (mem_subjects_link.mp hmem)
      exact hne p hp heq.symm
    rw [link_cons]
    refine .cons ?_ ?_ (((ih hnodup).cons_of_ne hne).cons_of_ne hne)
    · rw [objectsOf_cons_self, objectsOf_cons_of_ne fun _ => rest_ne_first, hnone]
    · rw [objectsOf_cons_of_ne fun _ => rest_ne_first.symm, objectsOf_cons_self, hnone]

/-! ## New nodes -/

variable {a : Allocator} {ts : List Term} {l m : Labelling} {c : Collection}

/-- Whatever the stem and the labels in use, no node is made twice. -/
theorem nodup_of_pairUp (h : pairUp a ts l = .ok pairs m) : (pairs.map Prod.fst).Nodup :=
  List.Nodup.of_map BlankNode.label (Allocator.nodup_of_allocateAll (pairUp_eq_ok h).1)

/-- A collection of terms has two triples for each of them and one node for each of them, which are all
different. Read from its head, it lists these nodes with the terms in their order, and nothing else. -/
theorem lists_ofTerms_iff (h : ofTerms a ts l = .ok c m) :
    ∃ pairs : List (BlankNode × Term), pairs.map Prod.snd = ts ∧ (pairs.map Prod.fst).Nodup ∧
      c.triples.length = 2 * ts.length ∧
      (∀ s, s ∈ c.triples.map Triple.subject ↔ s ∈ pairs.map fun p => .blank p.1) ∧
      ∀ listed, Lists c.triples c.head listed ↔ listed = pairs := by
  obtain ⟨pairs, hpairs, htriples, hhead⟩ := ofTerms_eq_ok h
  have hmembers := (pairUp_eq_ok hpairs).2
  have hnodup := nodup_of_pairUp hpairs
  have hstart : start pairs = c.head := by
    cases pairs with
    | nil => cases hhead
    | cons p pairs => exact Option.some.inj hhead
  have hlists : Lists c.triples c.head pairs := by
    rw [htriples, ← hstart]
    exact lists_link hnodup
  refine ⟨pairs, hmembers, hnodup, ?_, ?_, fun listed => ⟨hlists.unique, ?_⟩⟩
  · rw [htriples, length_link, ← hmembers, List.length_map]
  · rw [htriples]
    exact fun _ => mem_subjects_link
  · rintro rfl
    exact hlists

/-- A member may itself be the node that holds it. -/
theorem lists_ofTerms_iff_member :
    let ts : List Term := [.blank ⟨"b1"⟩, .iri ⟨"x"⟩]
    let c : Collection := ⟨.blank ⟨"b1"⟩, link [(⟨"b1"⟩, .blank ⟨"b1"⟩), (⟨"b2"⟩, .iri ⟨"x"⟩)]⟩
    (∃ m, ofTerms ⟨"_:b", 2⟩ ts ⟨0, LabelSet.empty.insert "_:b0"⟩ = .ok c m) ∧
      ∃ pairs, pairs.map Prod.snd = ts ∧ Lists c.triples c.head pairs := by
  intro ts c
  have hok : ofTerms ⟨"_:b", 2⟩ ts ⟨0, LabelSet.empty.insert "_:b0"⟩ = .ok c _ := rfl
  obtain ⟨pairs, hmembers, _, _, _, hlists⟩ := lists_ofTerms_iff hok
  exact ⟨⟨_, hok⟩, pairs, hmembers, (hlists pairs).mpr rfl⟩

end GraphPattern.Collection
