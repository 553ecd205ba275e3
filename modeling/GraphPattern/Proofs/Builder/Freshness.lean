import GraphPattern.Proofs.Builder.Attachment
import GraphPattern.Proofs.Builder.Resolution

/-!
# New labels in a builder

A copy that is attached shares no blank node with the group it is attached to, and neither do the
cells of a list that is added. The group is all that is asked when new labels are made: a label that
only the value of a resolution has, or only a member of the list, may be given out. So a resolved value
may stand for a blank node of a later copy (`PatternBuilder.attached_labels`), and a member of a list
for a cell of it (`PatternBuilder.list_labels`).
-/

namespace GraphPattern

namespace PatternBuilder

open BuildM Steps

variable {s t : Session PatternBuilder}

/-! ## Copies -/

/-- A call that attaches a pattern puts a copy of it into the group, with new labels first and then with
the resolutions applied. A slot of the copy carries the value of a resolution, or it is one of the
pattern with its label replaced. No two labels become one, none becomes one of the group, and those that
are not in the group stay. So the labels that the copy gets are exactly those of the pattern and those
tried that are not in the group, whether a resolved value has them or not. -/
theorem attached_labels (s t : Session PatternBuilder) (hstem : s.builder.allocator.PlainStem)
    (call : PatternCall) (g : Group) (hg : call.attached? s.builder.prefixes = some g)
    (r : Option Term) (h : perform call s = .ok r t) :
    ∃ (f : String → String) (copy : Group),
      t.builder.group = call.place copy s.builder.group ∧
      copy = s.builder.values.applyToGroup (g.mapLabels f) ∧
      (∀ slot ∈ Group.slots copy,
        (∃ e ∈ s.builder.values.entries, slot.var? = some ⟨e.1, some e.2⟩) ∨
        ∃ origin ∈ Group.slots g, origin.map (.labels f) = slot) ∧
      Set.InjOn f {label | label ∈ g.labels} ∧
      (∀ label, label ∉ s.builder.group.labels → f label = label) ∧
      ∀ label, (∃ x ∈ g.labels, f x = label) ↔ label ∉ s.builder.group.labels ∧
        (label ∈ g.labels ∨ s.builder.allocator.Tried s.nextLabel t.nextLabel label) := by
  obtain ⟨order, count, copy, l, hcopy, hgroup, hnext⟩ := place_of_perform hg h
  obtain ⟨_, _, f, hapart, rfl⟩ := hstem.renameApart_keepsApart (order.perm _) hcopy
  rw [hnext]
  refine ⟨f, _, hgroup, rfl, fun slot hslot => ?_, hapart.injOn, hapart.fixed, hapart.image⟩
  refine (Resolutions.mem_slots_applyToGroup hslot).imp_right fun hslot => ?_
  rw [Group.mapLabels, Group.slots_mapSlots] at hslot
  exact List.mem_map.mp hslot

/-- The triple `s <p> o`. -/
def oneTriple (s o : Term) : Group := [.block [⟨s, .predicate (.iri ⟨"p"⟩), o⟩]]

/-- A builder with the triple `_:u <p> <o>`, in which `?x` is resolved to `_:b0`. -/
def resolvedToNode : PatternBuilder :=
  { new {} with
    group := oneTriple (.blank ⟨"u"⟩) (.iri ⟨"o"⟩)
    values := OrderedMap.empty.insert "x" (.blank ⟨"b0"⟩) }

/-- The subject of a copy of `_:u <p> ?x` has to give up its label and gets the one that the object has
once it is resolved. -/
theorem attached_labels_resolved :
    resolvedToNode.allocator.PlainStem ∧
      perform (.addOptional (.group (oneTriple (.blank ⟨"u"⟩) (.free "x")) .empty))
          ⟨resolvedToNode, 0⟩ =
        .ok none ⟨{ resolvedToNode with
          group := oneTriple (.blank ⟨"u"⟩) (.iri ⟨"o"⟩) ++
            [.optional (oneTriple (.blank ⟨"b0"⟩) (.bound "x" (.blank ⟨"b0"⟩)))] }, 1⟩ ∧
      ∃ f : String → String,
        oneTriple (.blank ⟨"b0"⟩) (.bound "x" (.blank ⟨"b0"⟩)) =
          resolvedToNode.values.applyToGroup
            (Group.mapLabels f (oneTriple (.blank ⟨"u"⟩) (.free "x"))) ∧
        ∃ x ∈ Group.labels (oneTriple (.blank ⟨"u"⟩) (.free "x")), f x = "b0" := by
  have hstem : resolvedToNode.allocator.PlainStem := by decide
  have hrun : perform (.addOptional (.group (oneTriple (.blank ⟨"u"⟩) (.free "x")) .empty))
        ⟨resolvedToNode, 0⟩ =
      .ok none ⟨{ resolvedToNode with
        group := oneTriple (.blank ⟨"u"⟩) (.iri ⟨"o"⟩) ++
          [.optional (oneTriple (.blank ⟨"b0"⟩) (.bound "x" (.blank ⟨"b0"⟩)))] }, 1⟩ := by
    rfl
  obtain ⟨f, copy, hgroup, hcopy, _, _, _, himage⟩ :=
    attached_labels _ _ hstem _ (oneTriple (.blank ⟨"u"⟩) (.free "x")) (by rfl) _ hrun
  cases hgroup
  have htried : resolvedToNode.allocator.Tried 0 1 "b0" := ⟨0, by decide, by decide, by rfl⟩
  exact ⟨hstem, hrun, f, hcopy, (himage "b0").mpr ⟨by decide, .inr htried⟩⟩

/-! ## Lists -/

/-- A call that adds a list puts a cell for each of its members into the group and gives the first. No
two cells have one label. Their labels are those tried that are not in the group, whether a member or
a resolved value has them or not. -/
theorem list_labels (s t : Session PatternBuilder) (hstem : s.builder.allocator.PlainStem)
    (terms : List (Arg Term)) (r : Option Term) (h : perform (.list terms) s = .ok r t) :
    ∃ (members : List Term) (cells : List BlankNode),
      terms.mapM (Arg.term s.builder.prefixes) = .ok members ∧
      cells.length = members.length ∧ r = cells.head?.map Term.blank ∧
      t.builder.group = s.builder.group.pushTriples
        (Collection.link (cells.zip (members.map s.builder.values.applyToTerm))) ∧
      (cells.map BlankNode.label).Nodup ∧
      ∀ label, label ∈ cells.map BlankNode.label ↔ label ∉ s.builder.group.labels ∧
        s.builder.allocator.Tried s.nextLabel t.nextLabel label := by
  rw [perform, map_eq_ok] at h
  obtain ⟨head, h, rfl⟩ := h
  simp only [list, bind_eq_ok, builder_eq_ok, ofExcept_eq_ok, update_eq_ok, pure_eq_ok] at h
  obtain ⟨_, _, ⟨rfl, rfl⟩, members, _, ⟨hm, rfl⟩, c, _, hl, _, _, rfl, rfl, rfl⟩ := h
  obtain ⟨l, hc, rfl⟩ := withLabels_eq_ok hl
  obtain ⟨pairs, hpairs, htriples, hhead⟩ := Collection.ofTerms_eq_ok hc
  obtain ⟨hcells, hmembers⟩ := Collection.pairUp_eq_ok hpairs
  have hdraws := hstem.draws_allocateAll hcells
  refine ⟨members, pairs.map Prod.fst, hm, ?_, ?_, ?_, hdraws.nodup, hdraws.mem_labels⟩
  · have hlength := congrArg List.length hmembers
    rwa [List.length_map, List.length_map, ← List.length_map Prod.fst] at hlength
  · rw [List.head?_map, Option.map_map]
    exact hhead.symm
  · rw [← hmembers, List.zip_map', List.map_id', htriples]

/-- The one cell of a list whose member has the first label tried. -/
theorem list_labels_member :
    (new {}).allocator.PlainStem ∧
      perform (.list [.value (.blank ⟨"b0"⟩)]) ⟨new {}, 0⟩ = .ok (some (.blank ⟨"b0"⟩))
        ⟨{ new {} with
            group := [.block (Collection.link [(⟨"b0"⟩, .blank ⟨"b0"⟩)])] }, 1⟩ ∧
      ∃ cells : List BlankNode, "b0" ∈ cells.map BlankNode.label ∧
        [Element.block (Collection.link [(⟨"b0"⟩, .blank ⟨"b0"⟩)])] =
          Group.pushTriples [] (Collection.link (cells.zip [.blank ⟨"b0"⟩])) := by
  have hstem : (new {}).allocator.PlainStem := by decide
  have hrun : perform (.list [.value (.blank ⟨"b0"⟩)]) ⟨new {}, 0⟩ = .ok (some (.blank ⟨"b0"⟩))
      ⟨{ new {} with group := [.block (Collection.link [(⟨"b0"⟩, .blank ⟨"b0"⟩)])] }, 1⟩ := by
    rfl
  obtain ⟨members, cells, hm, _, _, hgroup, _, hlabels⟩ := list_labels _ _ hstem _ _ hrun
  cases hm
  have hcell : "b0" ∈ cells.map BlankNode.label :=
    (hlabels "b0").mpr ⟨by decide, 0, by decide, by decide, by rfl⟩
  exact ⟨hstem, hrun, cells, hcell, hgroup⟩

end PatternBuilder

end GraphPattern
