import GraphPattern.Proofs.Pattern.Isomorphism

/-!
# Renaming apart

A copy that is renamed apart has new labels exactly where its labels were in use, and no two of its
blank nodes become one (`Allocator.renameApart_capture_free`). Which labels it ends up with does not
depend on the order in which the colliding ones are renamed: they are those that the copy or the
numbers tried can give and that were not in use (`Allocator.KeepsApart.image`).
-/

namespace GraphPattern.Allocator

open Steps

variable {a : Allocator} {g copy : Group} {l m : Labelling}

/-- The map gives each label of the group a label that is not in use, none of them twice. Labels that
are not in use stay, and new ones are numbered up to `last`. -/
structure KeepsApart (a : Allocator) (g : Group) (l : Labelling) (last : Nat)
    (f : String → String) : Prop where
  injOn : Set.InjOn f {label | label ∈ g.labels}
  fixed : ∀ label, label ∉ l.inUse → f label = label
  image : ∀ label, (∃ x ∈ g.labels, f x = label) ↔
    label ∉ l.inUse ∧ (label ∈ g.labels ∨ a.Tried l.next last label)

/-- New labels for the colliding ones that are handed out while all labels of the group are in use
keep the group apart. -/
theorem Draws.keepsApart {nodes : List BlankNode} (h : a.Draws nodes (l.reserve g) m)
    {order : List String} (horder : order.Perm (g.collisions l.inUse)) {f : String → String}
    (hnew : order.map f = nodes.map BlankNode.label) (hold : ∀ label, label ∉ order → f label = label) :
    a.KeepsApart g l m.next f := by
  have hmem : ∀ label, label ∈ order ↔ label ∈ g.labels ∧ label ∈ l.inUse := by
    intro label
    rw [horder.mem_iff, Group.mem_collisions]
  -- a label that is replaced becomes one that is new to the group as well
  have hfresh : ∀ label ∈ order,
      f label ∉ g.labels ∧ f label ∉ l.inUse ∧ a.Tried l.next m.next (f label) := by
    intro label hlabel
    have hdrawn : f label ∈ nodes.map BlankNode.label := hnew ▸ List.mem_map_of_mem hlabel
    obtain ⟨hfree, htried⟩ := (h.mem_labels _).mp hdrawn
    rw [Labelling.mem_reserve, not_or] at hfree
    exact ⟨hfree.1, hfree.2, htried⟩
  have hinj : ∀ x ∈ order, ∀ y ∈ order, f x = f y → x = y := by
    have hnodup : (order.map f).Nodup := hnew ▸ h.nodup
    intro x hx y hy
    exact List.inj_on_of_nodup_map hnodup hx hy
  refine ⟨?_, ?_, ?_⟩
  · intro x hx y hy heq
    by_cases hox : x ∈ order <;> by_cases hoy : y ∈ order
    · exact hinj x hox y hoy heq
    · rw [hold y hoy] at heq
      exact absurd (heq ▸ hy) (hfresh x hox).1
    · rw [hold x hox] at heq
      exact absurd (heq ▸ hx) (hfresh y hoy).1
    · rwa [hold x hox, hold y hoy] at heq
  · intro label hlabel
    exact hold label fun ho => hlabel ((hmem label).mp ho).2
  · intro label
    constructor
    · rintro ⟨x, hx, rfl⟩
      by_cases hox : x ∈ order
      · obtain ⟨_, hfree, htried⟩ := hfresh x hox
        exact ⟨hfree, .inr htried⟩
      · rw [hold x hox]
        exact ⟨fun huse => hox ((hmem x).mpr ⟨hx, huse⟩), .inl hx⟩
    · rintro ⟨hfree, hlabel⟩
      by_cases hown : label ∈ g.labels
      · exact ⟨label, hown, hold label fun ho => hfree ((hmem label).mp ho).2⟩
      · -- a number that was tried for nothing the group or the others have was handed out
        have htried : a.Tried l.next m.next label := hlabel.resolve_left hown
        have hdrawn : label ∈ order.map f := by
          rw [hnew, h.mem_labels, Labelling.mem_reserve, not_or]
          exact ⟨⟨hown, hfree⟩, htried⟩
        obtain ⟨x, hx, rfl⟩ := List.mem_map.mp hdrawn
        exact ⟨x, ((hmem x).mp hx).1, rfl⟩

theorem PlainStem.renameApart_keepsApart (hstem : a.PlainStem) {order : List String}
    (horder : order.Perm (g.collisions l.inUse)) {count : Nat}
    (h : a.renameApart order g l = .ok (count, copy) m) :
    count = (g.collisions l.inUse).length ∧
      (∀ label, label ∈ m.inUse ↔ label ∈ l.inUse ∨ label ∈ copy.labels) ∧
      ∃ f, a.KeepsApart g l m.next f ∧ copy = g.mapLabels f := by
  obtain ⟨r, hr, rfl, rfl⟩ := renameApart_eq_ok h
  have hnodup : order.Nodup := horder.nodup_iff.mpr (Group.nodup_collisions g l.inUse)
  obtain ⟨nodes, hdraws, hnew, hothers⟩ := hstem.draws_renameAll hnodup hr
  have hapart : a.KeepsApart g l m.next r.label :=
    hdraws.keepsApart horder hnew fun label hlabel =>
      Renaming.label_of_lookup_eq_none (hothers label hlabel)
  refine ⟨horder.length_eq, fun label => ?_, r.label, hapart, Group.relabel_eq_mapLabels r g⟩
  rw [Group.relabel_eq_mapLabels, Group.mem_labels_mapLabels, hapart.image,
    hdraws.mem_inUse_iff_tried, Labelling.mem_reserve]
  by_cases huse : label ∈ l.inUse
  · simp [huse]
  · simp only [huse, false_or, or_false, not_false_eq_true, true_and]
    rfl

/-! ## What the order decides -/

theorem renameAll_arrange (a : Allocator) (order : LabelOrder) (labels : List String)
    (l : Labelling) :
    a.renameAll (order.arrange labels) .empty l =
      mapResult (Renaming.insertAll .empty (order.arrange labels)) id
        (a.allocateAll labels.length l) := by
  rw [renameAll_eq, (order.perm labels).length_eq]

/-- As many nodes as there are colliding labels are made, and then given out in the order. -/
theorem makeDisjoint_of_allocateAll_eq_ok {nodes : List BlankNode}
    (h : a.allocateAll (g.collisions l.inUse).length (l.reserve g) = .ok nodes m)
    (order : LabelOrder) :
    ∃ f, order.Gives (g.collisions l.inUse) (nodes.map BlankNode.label) f ∧
      a.makeDisjoint g order l = .ok ((g.collisions l.inUse).length, g.mapLabels f) m := by
  have hperm := order.perm (g.collisions l.inUse)
  have hnodup : (order.arrange (g.collisions l.inUse)).Nodup :=
    hperm.nodup_iff.mpr (Group.nodup_collisions g l.inUse)
  have hlength : nodes.length = (order.arrange (g.collisions l.inUse)).length := by
    rw [hperm.length_eq, length_of_allocateAll h]
  refine ⟨_, ⟨Renaming.map_label_insertAll .empty hnodup hlength, fun label hlabel => ?_⟩, ?_⟩
  · refine Renaming.label_of_lookup_eq_none (Renaming.lookup_insertAll .empty fun hmem => ?_)
    exact hlabel (hperm.mem_iff.mp hmem)
  · rw [makeDisjoint, renameApart, renameAll_arrange, h, ← Group.relabel_eq_mapLabels,
      ← hperm.length_eq]
    rfl

theorem makeDisjoint_of_allocateAll_eq_error {e : StructuralError}
    (h : a.allocateAll (g.collisions l.inUse).length (l.reserve g) = .error e m)
    (order : LabelOrder) : a.makeDisjoint g order l = .error e ⟨m.next, l.inUse⟩ := by
  rw [makeDisjoint, renameApart, renameAll_arrange, h]
  rfl

/-! ## Whatever the order -/

/-- In whatever order the colliding labels of a group are renamed, with any numbers and any labels in
use: what succeeds gives each of them another label and changes nothing else; no two labels become
one and none becomes one that was in use; all labels of the copy are in use from then on, and the copy
says what the group said. The copy of a nested query is the query with its labels replaced, those of
its projection included. What fails gives no copy and leaves the labels in use as they were.
So it is with `makeDisjoint`, whatever its order. -/
theorem renameApart_capture_free (a : Allocator) (hstem : a.PlainStem) (g : Group) (l : Labelling)
    (order : List String) (horder : order.Perm (g.collisions l.inUse)) :
    (∀ count copy m, a.renameApart order g l = .ok (count, copy) m →
      count = (g.labels.toList.filter (· ∈ l.inUse)).length ∧
        (∃ f : String → String, Set.InjOn f {label | label ∈ g.labels} ∧
          (∀ label, label ∉ l.inUse → f label = label) ∧
          (∀ label ∈ g.labels, f label ∉ l.inUse) ∧ copy = g.mapLabels f ∧
          ∀ q : SubQuery, g = [q.toElement] → copy = [(q.mapLabels f).toElement]) ∧
        (∀ label, label ∈ m.inUse ↔ label ∈ l.inUse ∨ label ∈ copy.labels) ∧
        g.isomorphic copy = true) ∧
      ∀ e m, a.renameApart order g l = .error e m → m.inUse = l.inUse := by
  constructor
  · intro count copy m h
    obtain ⟨hcount, huse, f, hapart, rfl⟩ := hstem.renameApart_keepsApart horder h
    refine ⟨?_, ⟨f, hapart.injOn, hapart.fixed, ?_, rfl, ?_⟩, huse, ?_⟩
    · rw [hcount, Group.collisions, List.filter_reverse, List.length_reverse]
    · intro label hlabel
      exact ((hapart.image (f label)).mp ⟨label, hlabel, rfl⟩).1
    · rintro q rfl
      exact q.mapLabels_toElement f
    · exact Group.isomorphic_mapLabels hapart.injOn
  · intro e m h
    obtain ⟨k, _, rfl⟩ := renameApart_eq_error h
    rfl

/-- A group with three labels, one of them the value of a variable. -/
def threeLabels (first second third : String) : Group :=
  [.block [⟨.blank ⟨first⟩, .predicate (.iri ⟨"p"⟩), .bound "x" (.blank ⟨second⟩)⟩],
    .filter (.term (.blank ⟨third⟩))]

/-- Two labels that are renamed against reading order, past a number that is in use and one that the
group has itself. -/
theorem renameApart_capture_free_crossed :
    (⟨"b", 8⟩ : Allocator).PlainStem ∧
      ["v", "u"].Perm
        ((threeLabels "u" "v" "b1").collisions (LabelSet.empty.insertAll ["u", "v", "b0"])) ∧
      renameApart ⟨"b", 8⟩ ["v", "u"] (threeLabels "u" "v" "b1")
          ⟨0, LabelSet.empty.insertAll ["u", "v", "b0"]⟩ =
        .ok (2, threeLabels "b3" "b2" "b1")
          ⟨4, LabelSet.empty.insertAll ["u", "v", "b0", "b1", "b2", "b3"]⟩ ∧
      (threeLabels "u" "v" "b1").isomorphic (threeLabels "b3" "b2" "b1") = true := by
  have hstem : (⟨"b", 8⟩ : Allocator).PlainStem := by decide
  have horder : ["v", "u"].Perm
      ((threeLabels "u" "v" "b1").collisions (LabelSet.empty.insertAll ["u", "v", "b0"])) := by
    decide
  have hrun : renameApart ⟨"b", 8⟩ ["v", "u"] (threeLabels "u" "v" "b1")
        ⟨0, LabelSet.empty.insertAll ["u", "v", "b0"]⟩ =
      .ok (2, threeLabels "b3" "b2" "b1")
        ⟨4, LabelSet.empty.insertAll ["u", "v", "b0", "b1", "b2", "b3"]⟩ := by
    rfl
  have hcopy := (renameApart_capture_free ⟨"b", 8⟩ hstem _ _ _ horder).1 _ _ _ hrun
  exact ⟨hstem, horder, hrun, hcopy.2.2.2⟩

end GraphPattern.Allocator
