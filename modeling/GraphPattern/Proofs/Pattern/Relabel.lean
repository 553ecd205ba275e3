import GraphPattern.Proofs.Labels
import GraphPattern.Proofs.Pattern.Pass

/-!
# Replacing labels

`Group.mapLabels` gives every blank node of a group the image of its label under a map, and a
renaming does the same (`Group.relabel_eq_mapLabels`). The labels are then the images of those
before (`Group.mem_labels_mapLabels`). The pass that renames the blank nodes of a group or of a query
comes to the very places where a walk over the pattern meets them, once to each
(`relabelPass_visits_nodes`).
-/

namespace GraphPattern

/-- The term with another label for its blank node, if it stands for one. -/
def Term.mapLabel (f : String → String) : Term → Term
  | .blank n => .blank ⟨f n.label⟩
  | .bound name value => .bound name (value.mapLabel f)
  | .iri i => .iri i
  | .literal l => .literal l
  | .free name => .free name

/-- Replaces the labels in all slots, the values of variables included. -/
def SlotMap.labels (f : String → String) : SlotMap where
  term := Term.mapLabel f
  projected v := ⟨v.name, v.binding.map (Term.mapLabel f)⟩

/-- The group with every label replaced by its image. The target of a `BIND`, which is always free, has
none. -/
def Group.mapLabels (f : String → String) (g : Group) : Group := mapSlots (.labels f) g

/-- The query with every label replaced by its image, in its projection and in its pattern. -/
def SubQuery.mapLabels (f : String → String) (q : SubQuery) : SubQuery :=
  { q with
    projection := q.projection.map (SlotMap.labels f).projected
    pattern := q.pattern.mapLabels f }

theorem SubQuery.mapLabels_toElement (f : String → String) (q : SubQuery) :
    Group.mapLabels f [q.toElement] = [(q.mapLabels f).toElement] := rfl

/-! ## Renamings -/

theorem Term.relabel_eq_mapLabel (r : Renaming) (t : Term) : t.relabel r = t.mapLabel r.label := by
  induction t with
  | bound name value ih => rw [relabel, mapLabel, ih]
  | _ => rfl

theorem Group.relabel_eq_mapLabels (r : Renaming) (g : Group) :
    g.relabel r = g.mapLabels r.label := by
  have hterm : Term.relabel r = Term.mapLabel r.label := funext (Term.relabel_eq_mapLabel r)
  rw [relabel, mapLabels, SlotMap.relabel, SlotMap.labels, hterm]

/-! ## The labels of what is written -/

theorem Term.node?_mapLabel (f : String → String) (t : Term) :
    (t.mapLabel f).node? = t.node?.map fun n => ⟨f n.label⟩ := by
  induction t with
  | bound name value ih => exact ih
  | _ => rfl

theorem Slot.node?_map_labels (f : String → String) (s : Slot) :
    (s.map (.labels f)).node? = s.node?.map fun n => ⟨f n.label⟩ := by
  cases s with
  | term t => exact Term.node?_mapLabel f t
  | projected v =>
    obtain ⟨name, _ | value⟩ := v
    · rfl
    · exact Term.node?_mapLabel f value
  | target v => rfl

theorem Group.nodes_mapLabels (f : String → String) (g : Group) :
    (g.mapLabels f).nodes = g.nodes.map fun n => ⟨f n.label⟩ := by
  rw [nodes, nodes, mapLabels, slots_mapSlots, List.filterMap_map, List.map_filterMap]
  exact congrArg (List.filterMap · _) (funext (Slot.node?_map_labels f))

theorem Group.mem_labels_mapLabels {f : String → String} {g : Group} {label : String} :
    label ∈ (g.mapLabels f).labels ↔ ∃ x ∈ g.labels, f x = label := by
  simp only [mem_labels, nodes_mapLabels, List.map_map, List.mem_map, Function.comp_apply,
    exists_exists_and_eq_and]

/-! ## The places that a renaming comes to -/

/-- Whether the node gets another node. -/
def Renaming.replaces (r : Renaming) (n : BlankNode) : Bool := (r.lookup n.label).isSome

theorem Term.value_relabelPass (r : Renaming) (t : Term) :
    (t.relabelPass r).value = t.relabel r := by
  induction t with
  | blank n =>
    rw [relabelPass, relabel, Renaming.node]
    cases r.lookup n.label <;> rfl
  | bound name value ih => exact congrArg (Term.bound name) ih
  | _ => rfl

theorem Term.count_relabelPass (r : Renaming) (t : Term) :
    (t.relabelPass r).count = t.node?.toList.countP r.replaces := by
  induction t with
  | blank n =>
    rw [relabelPass, node?, Option.toList_some, List.countP_singleton, Renaming.replaces]
    cases r.lookup n.label <;> rfl
  | bound name value ih => exact ih
  | _ => rfl

theorem Pass.slotMap_relabel (r : Renaming) : (Pass.relabel r).slotMap = .relabel r := by
  have hterm : (Pass.relabel r).slotMap.term = Term.relabel r :=
    funext (Term.value_relabelPass r)
  have hprojected : (Pass.relabel r).slotMap.projected = (SlotMap.relabel r).projected := by
    funext v
    obtain ⟨name, _ | value⟩ := v
    · rfl
    · exact congrArg (Variable.mk name <| some ·) (Term.value_relabelPass r value)
  exact congrArg₂ SlotMap.mk hterm hprojected

theorem Pass.weight_relabel (r : Renaming) (s : Slot) :
    (Pass.relabel r).weight s = s.node?.toList.countP r.replaces := by
  cases s with
  | term t => exact Term.count_relabelPass r t
  | projected v =>
    obtain ⟨name, _ | value⟩ := v
    · rfl
    · exact Term.count_relabelPass r value
  | target v => rfl

/-- The pass makes the group that the renaming makes of all slots. -/
theorem Group.value_relabelPass (r : Renaming) (g : Group) :
    (g.relabelPass r).value = g.relabel r := by
  rw [relabelPass, value_pass, Pass.slotMap_relabel]
  rfl

theorem Group.count_relabelPass (r : Renaming) (g : Group) :
    (g.relabelPass r).count = g.nodes.countP r.replaces := by
  have hid : Counted.IsMeasure fun n : Nat => n := ⟨rfl, fun _ _ => rfl⟩
  rw [relabelPass, measure_pass (Pass.relabel r) hid, nodes]
  show (Pass.relabel r).total (fun n => n) (slots g) + _ * 0 = _
  rw [Nat.mul_zero, Nat.add_zero, List.filterMap_eq_flatMap_toList, List.countP_flatMap]
  exact congrArg List.sum (List.map_congr_left fun s _ => Pass.weight_relabel r s)

theorem Group.nodes_relabel (r : Renaming) (g : Group) :
    (g.relabel r).nodes = g.nodes.map r.node := by
  rw [relabel_eq_mapLabels, nodes_mapLabels]
  rfl

/-- The labels of renamed nodes are the images of the labels. -/
theorem LabelSet.mem_ofNodes_map_node {r : Renaming} {nodes : List BlankNode} {label : String} :
    label ∈ ofNodes (nodes.map r.node) ↔ ∃ x ∈ ofNodes nodes, r.label x = label := by
  simp only [mem_ofNodes, List.map_map, List.mem_map, Function.comp_apply,
    exists_exists_and_eq_and]
  rfl

namespace SubQuery

/-- The blank nodes of a query, one for each place where one stands: first those in the values of its
projection, then those of its pattern. -/
def nodes (q : SubQuery) : List BlankNode :=
  q.projection.filterMap (fun v => v.binding.bind Term.node?) ++ q.pattern.nodes

/-- The labels of the blank nodes of a query. -/
def labels (q : SubQuery) : LabelSet := LabelSet.ofNodes q.nodes

/-- A query has the nodes of the element that it becomes. -/
theorem nodes_toElement (q : SubQuery) : Group.nodes [q.toElement] = q.nodes := by
  simp only [Group.nodes, toElement, Group.slots, Element.slots, List.append_nil,
    List.filterMap_append, List.filterMap_map]
  rfl

/-- The pass over the element that a query becomes is the pass over the query. -/
theorem relabelPass_toElement (r : Renaming) (q : SubQuery) :
    Group.relabelPass r [q.toElement] = (q.relabelPass r).map ([·.toElement]) := rfl

end SubQuery

/-- In a group, and in the projection and the pattern of a query, the pass that renames blank nodes
comes to each node once and gives it the node that stands in the renaming for its label, if there is
one; new nodes are not renamed again. So the labels are the images of those before, and what is
counted are the places whose label the renaming has. -/
theorem relabelPass_visits_nodes (r : Renaming) :
    (∀ g : Group, (g.relabelPass r).value = g.relabel r ∧
      (g.relabelPass r).value.nodes = g.nodes.map r.node ∧
      (∀ label, label ∈ (g.relabelPass r).value.labels ↔ ∃ x ∈ g.labels, r.label x = label) ∧
      (g.relabelPass r).count = g.nodes.countP r.replaces) ∧
    ∀ q : SubQuery, [(q.relabelPass r).value.toElement] = Group.relabel r [q.toElement] ∧
      (q.relabelPass r).value.nodes = q.nodes.map r.node ∧
      (∀ label, label ∈ (q.relabelPass r).value.labels ↔ ∃ x ∈ q.labels, r.label x = label) ∧
      (q.relabelPass r).count = q.nodes.countP r.replaces := by
  constructor
  · intro g
    have hnodes : (g.relabelPass r).value.nodes = g.nodes.map r.node := by
      rw [Group.value_relabelPass, Group.nodes_relabel]
    refine ⟨Group.value_relabelPass r g, hnodes, fun label => ?_, Group.count_relabelPass r g⟩
    rw [Group.labels, hnodes]
    exact LabelSet.mem_ofNodes_map_node
  · intro q
    have hvalue : [(q.relabelPass r).value.toElement] = Group.relabel r [q.toElement] :=
      (congrArg Counted.value (q.relabelPass_toElement r)).symm.trans
        (Group.value_relabelPass r [q.toElement])
    have hnodes : (q.relabelPass r).value.nodes = q.nodes.map r.node := by
      rw [← SubQuery.nodes_toElement, hvalue, Group.nodes_relabel, SubQuery.nodes_toElement]
    refine ⟨hvalue, hnodes, fun label => ?_, ?_⟩
    · rw [SubQuery.labels, hnodes]
      exact LabelSet.mem_ofNodes_map_node
    · rw [← q.nodes_toElement]
      exact (congrArg Counted.count (q.relabelPass_toElement r)).symm.trans
        (Group.count_relabelPass r [q.toElement])

end GraphPattern
