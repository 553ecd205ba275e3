import GraphPattern.Labels
import GraphPattern.Proofs.Steps
import Mathlib.Data.List.Nodup

/-!
# What allocation hands out

Labels are tried in the order of their numbers. Those that are handed out between two states are
exactly the ones that were tried and not in use, each of them once (`Allocator.Draws`). That holds of
one allocation and of one after another, so it holds of the loops that take a node for each of
several labels or members: they take as many nodes as are needed and only then give them out
(`Allocator.renameAll_eq`).
-/

namespace GraphPattern

open Steps

theorem LabelSet.mem_empty {label : String} : ¬ label ∈ empty := List.not_mem_nil

theorem LabelSet.mem_ofNodes {nodes : List BlankNode} {label : String} :
    label ∈ ofNodes nodes ↔ label ∈ nodes.map BlankNode.label := by
  rw [ofNodes, mem_insertAll]
  constructor
  · intro h
    exact h.resolve_right mem_empty
  · exact .inl

theorem Group.mem_labels {g : Group} {label : String} :
    label ∈ g.labels ↔ label ∈ g.nodes.map BlankNode.label :=
  LabelSet.mem_ofNodes

theorem Group.mem_collisions {g : Group} {inUse : LabelSet} {label : String} :
    label ∈ g.collisions inUse ↔ label ∈ g.labels ∧ label ∈ inUse := by
  rw [collisions, List.mem_filter, List.mem_reverse, decide_eq_true_iff]
  rfl

/-- No label is met twice. -/
theorem Group.nodup_collisions (g : Group) (inUse : LabelSet) : (g.collisions inUse).Nodup :=
  (List.nodup_reverse.mpr g.labels.nodup).filter _

theorem Labelling.mem_reserve {l : Labelling} {g : Group} {label : String} :
    label ∈ (l.reserve g).inUse ↔ label ∈ g.labels ∨ label ∈ l.inUse := by
  rw [reserve, LabelSet.mem_insertAll, List.mem_reverse]
  rfl

/-! ## Renamings -/

namespace Renaming

/-- The renaming that gives labels the nodes, one after the other. -/
def insertAll (r : Renaming) : List String → List BlankNode → Renaming
  | label :: labels, node :: nodes => insertAll (r.insert label node) labels nodes
  | _, _ => r

theorem lookup_insertAll (r : Renaming) {labels : List String} {nodes : List BlankNode}
    {label : String} (h : label ∉ labels) :
    (r.insertAll labels nodes).lookup label = r.lookup label := by
  induction labels generalizing r nodes with
  | nil => rfl
  | cons first labels ih =>
    cases nodes with
    | nil => rfl
    | cons node nodes =>
      rw [List.mem_cons, not_or] at h
      rw [insertAll, ih _ h.2, OrderedMap.lookup_insert, if_neg h.1]

theorem map_label_insertAll (r : Renaming) {labels : List String} {nodes : List BlankNode}
    (hnodup : labels.Nodup) (hlength : nodes.length = labels.length) :
    labels.map (r.insertAll labels nodes).label = nodes.map BlankNode.label := by
  induction labels generalizing r nodes with
  | nil => rw [List.eq_nil_of_length_eq_zero hlength, List.map_nil, List.map_nil]
  | cons label labels ih =>
    obtain ⟨hfirst, hnodup⟩ := List.nodup_cons.mp hnodup
    match nodes, hlength with
    | node :: nodes, hlength =>
      have hlookup : (r.insertAll (label :: labels) (node :: nodes)).lookup label = some node := by
        rw [insertAll, lookup_insertAll _ hfirst, OrderedMap.lookup_insert, if_pos rfl]
      rw [List.map_cons, List.map_cons, label_of_lookup_eq_some hlookup, insertAll,
        ih _ hnodup (Nat.succ.inj hlength)]

end Renaming

/-- The map gives the colliding labels the new ones, one after the other in the order, and leaves the
other labels as they are. -/
structure LabelOrder.Gives (order : LabelOrder) (colliding new : List String)
    (f : String → String) : Prop where
  given : (order.arrange colliding).map f = new
  fixed : ∀ label, label ∉ colliding → f label = label

/-- Visited one after the other alike, the colliding labels get the same new ones. -/
theorem LabelOrder.Gives.eq_of_arrange_eq {early late : LabelOrder} {colliding new : List String}
    {f h : String → String} (hf : early.Gives colliding new f) (hh : late.Gives colliding new h)
    (horder : early.arrange colliding = late.arrange colliding) : f = h := by
  funext label
  by_cases hlabel : label ∈ colliding
  · have hmap : (early.arrange colliding).map f = (early.arrange colliding).map h := by
      rw [hf.given, horder, hh.given]
    exact List.map_inj_left.mp hmap label ((early.perm colliding).mem_iff.mpr hlabel)
  · rw [hf.fixed label hlabel, hh.fixed label hlabel]

namespace Allocator

variable {a : Allocator}

/-! ## Candidates -/

/-- Whether the stem does not start with `_:`, which may be written in front of a label but is no part
of it. -/
def PlainStem (a : Allocator) : Prop := ¬ ['_', ':'] <+: a.stem.toList

instance : Decidable a.PlainStem := inferInstanceAs (Decidable (¬ _))

theorem toList_candidate (a : Allocator) (number : Nat) :
    (a.candidate number).toList = a.stem.toList ++ Nat.toDigits 10 number := by
  rw [candidate, String.toList_append, Nat.toString_eq_repr, Nat.toList_repr]

/-- A number starts with no `_` and no colon. -/
theorem head_ne_of_toDigits {number : Nat} {c : Char} {cs : List Char}
    (h : Nat.toDigits 10 number = c :: cs) : c ≠ '_' ∧ c ≠ ':' := by
  have hmem : c ∈ Nat.toDigits 10 number := by
    rw [h]
    exact List.mem_cons_self
  have hdigit : c.isDigit = true := Nat.isDigit_of_mem_toDigits (by decide) (by decide) hmem
  constructor
  · rintro rfl
    exact absurd hdigit (by decide)
  · rintro rfl
    exact absurd hdigit (by decide)

/-- With a plain stem a node has the label that was tried. -/
theorem PlainStem.ofText_candidate (h : a.PlainStem) (number : Nat) :
    BlankNode.ofText (a.candidate number) = ⟨a.candidate number⟩ := by
  unfold BlankNode.ofText
  split
  · rename_i rest hlist
    rw [toList_candidate] at hlist
    -- the two characters would have to come from the stem, as a number has neither of them
    match hstem : a.stem.toList with
    | [] =>
      rw [hstem, List.nil_append] at hlist
      exact absurd rfl (head_ne_of_toDigits hlist).1
    | [c] =>
      rw [hstem, List.singleton_append, List.cons.injEq] at hlist
      exact absurd rfl (head_ne_of_toDigits hlist.2).2
    | c :: d :: cs =>
      rw [hstem, List.cons_append, List.cons_append, List.cons.injEq, List.cons.injEq] at hlist
      obtain ⟨rfl, rfl, _⟩ := hlist
      exact absurd ⟨cs, hstem.symm⟩ h
  · rfl

/-! ## Nodes handed out -/

/-- Whether the label is a candidate with one of the numbers from `first` up to `last`, the last one
left out. -/
def Tried (a : Allocator) (first last : Nat) (label : String) : Prop :=
  ∃ number, first ≤ number ∧ number < last ∧ label = a.candidate number

/-- The nodes are those that were handed out on the way from one state to another: their labels are
those that were tried and not in use, each once, and they are in use from then on. -/
structure Draws (a : Allocator) (nodes : List BlankNode) (l m : Labelling) : Prop where
  next_le : l.next ≤ m.next
  nodup : (nodes.map BlankNode.label).Nodup
  mem_labels : ∀ label, label ∈ nodes.map BlankNode.label ↔
    label ∉ l.inUse ∧ a.Tried l.next m.next label
  mem_inUse : ∀ label, label ∈ m.inUse ↔
    label ∈ l.inUse ∨ label ∈ nodes.map BlankNode.label

theorem draws_nil (l : Labelling) : a.Draws [] l l where
  next_le := Nat.le_refl _
  nodup := List.nodup_nil
  mem_labels label := by
    refine ⟨nofun, fun h => ?_⟩
    obtain ⟨_, number, hle, hlt, _⟩ := h
    omega
  mem_inUse label := by simp

/-- A candidate that is in use is passed over. -/
theorem draws_skip {l : Labelling} (h : a.candidate l.next ∈ l.inUse) :
    a.Draws [] l { l with next := l.next + 1 } where
  next_le := Nat.le_succ _
  nodup := List.nodup_nil
  mem_labels label := by
    refine ⟨nofun, fun hlabel => ?_⟩
    obtain ⟨hfree, number, hle, hlt, rfl⟩ := hlabel
    obtain rfl := Nat.le_antisymm (Nat.le_of_lt_succ hlt) hle
    exact absurd h hfree
  mem_inUse label := by simp

theorem draws_take {l : Labelling} (h : a.candidate l.next ∉ l.inUse) :
    a.Draws [⟨a.candidate l.next⟩] l ⟨l.next + 1, l.inUse.insert (a.candidate l.next)⟩ where
  next_le := Nat.le_succ _
  nodup := List.nodup_singleton _
  mem_labels label := by
    rw [List.map_singleton, List.mem_singleton]
    constructor
    · rintro rfl
      exact ⟨h, l.next, Nat.le_refl _, Nat.lt_succ_self _, rfl⟩
    · rintro ⟨_, number, hle, hlt, rfl⟩
      rw [Nat.le_antisymm (Nat.le_of_lt_succ hlt) hle]
  mem_inUse label := by
    rw [LabelSet.mem_insert, List.map_singleton, List.mem_singleton, or_comm]

/-- What is handed out in two steps is handed out on the whole way. -/
theorem Draws.append {nodes more : List BlankNode} {l m k : Labelling} (h : a.Draws nodes l m)
    (h' : a.Draws more m k) : a.Draws (nodes ++ more) l k where
  next_le := Nat.le_trans h.next_le h'.next_le
  nodup := by
    rw [List.map_append, List.nodup_append]
    refine ⟨h.nodup, h'.nodup, ?_⟩
    rintro label hlabel _ hmore rfl
    exact ((h'.mem_labels label).mp hmore).1 ((h.mem_inUse label).mpr (.inr hlabel))
  mem_labels label := by
    rw [List.map_append, List.mem_append]
    have hle := h.next_le
    have hle' := h'.next_le
    constructor
    · rintro (hlabel | hlabel)
      · obtain ⟨hfree, number, hfirst, hlast, rfl⟩ := (h.mem_labels label).mp hlabel
        exact ⟨hfree, number, hfirst, by omega, rfl⟩
      · obtain ⟨hfree, number, hfirst, hlast, rfl⟩ := (h'.mem_labels label).mp hlabel
        exact ⟨fun hl => hfree ((h.mem_inUse _).mpr (.inl hl)), number, by omega, hlast, rfl⟩
    · rintro ⟨hfree, number, hfirst, hlast, rfl⟩
      by_cases hmiddle : number < m.next
      · exact .inl ((h.mem_labels _).mpr ⟨hfree, number, hfirst, hmiddle, rfl⟩)
      · -- tried in the second step, where it was in use only if the first step took it
        by_cases huse : a.candidate number ∈ m.inUse
        · exact .inl (((h.mem_inUse _).mp huse).resolve_left hfree)
        · exact .inr ((h'.mem_labels _).mpr ⟨huse, number, by omega, hlast, rfl⟩)
  mem_inUse label := by
    rw [h'.mem_inUse, h.mem_inUse, List.map_append, List.mem_append, or_assoc]

/-- In use are the labels that were, and all that were tried. -/
theorem Draws.mem_inUse_iff_tried {nodes : List BlankNode} {l m : Labelling} (h : a.Draws nodes l m)
    (label : String) : label ∈ m.inUse ↔ label ∈ l.inUse ∨ a.Tried l.next m.next label := by
  rw [h.mem_inUse, h.mem_labels]
  by_cases huse : label ∈ l.inUse <;> simp [huse]

/-! ## The allocating loops -/

theorem PlainStem.draws_tryNext (hstem : a.PlainStem) {tries : Nat} {l m : Labelling}
    {node : BlankNode} (h : a.tryNext tries l = .ok node m) : a.Draws [node] l m := by
  induction tries generalizing l with
  | zero => cases h
  | succ tries ih =>
    rw [tryNext] at h
    dsimp only at h
    split at h
    · rename_i huse
      exact (draws_skip huse).append (ih h)
    · rename_i hfree
      cases h
      rw [hstem.ofText_candidate]
      exact draws_take hfree

theorem PlainStem.draws_allocate (hstem : a.PlainStem) {l m : Labelling} {node : BlankNode}
    (h : a.allocate l = .ok node m) : a.Draws [node] l m :=
  hstem.draws_tryNext h

/-! ## Several nodes -/

/-- So many new nodes, one after the other. -/
def allocateAll (a : Allocator) : Nat → LabelM (List BlankNode)
  | 0 => pure []
  | n + 1 => do
    let node ← a.allocate
    List.cons node <$> a.allocateAll n

theorem length_of_allocateAll {n : Nat} {l m : Labelling} {nodes : List BlankNode}
    (h : a.allocateAll n l = .ok nodes m) : nodes.length = n := by
  induction n generalizing nodes l with
  | zero =>
    rw [allocateAll, pure_eq_ok] at h
    rw [← h.1]
    rfl
  | succ n ih =>
    simp only [allocateAll, bind_eq_ok, map_eq_ok] at h
    obtain ⟨_, _, _, _, hrest, rfl⟩ := h
    rw [List.length_cons, ih hrest]

theorem PlainStem.draws_allocateAll (hstem : a.PlainStem) {n : Nat} {l m : Labelling}
    {nodes : List BlankNode} (h : a.allocateAll n l = .ok nodes m) : a.Draws nodes l m := by
  induction n generalizing nodes l with
  | zero =>
    rw [allocateAll, pure_eq_ok] at h
    obtain ⟨rfl, rfl⟩ := h
    exact draws_nil l
  | succ n ih =>
    simp only [allocateAll, bind_eq_ok, map_eq_ok] at h
    obtain ⟨node, k, hnode, rest, hrest, rfl⟩ := h
    exact (hstem.draws_allocate hnode).append (ih hrest)

/-- Which nodes labels get has nothing to do with the labels: as many are made as there are labels,
and then they are given out. -/
theorem renameAll_eq (a : Allocator) (labels : List String) (r : Renaming) (l : Labelling) :
    a.renameAll labels r l =
      mapResult (r.insertAll labels) id (a.allocateAll labels.length l) := by
  induction labels generalizing r l with
  | nil => rfl
  | cons label labels ih =>
    refine bind_mapResult (g := id) (mapResult_id _).symm fun node k _ => ?_
    rw [map_eq_mapResult, mapResult_mapResult]
    exact ih (r.insert label node) k

theorem PlainStem.draws_renameAll (hstem : a.PlainStem) {labels : List String}
    (hnodup : labels.Nodup) {r r' : Renaming} {l m : Labelling}
    (h : a.renameAll labels r l = .ok r' m) :
    ∃ nodes, a.Draws nodes l m ∧ labels.map r'.label = nodes.map BlankNode.label ∧
      ∀ label, label ∉ labels → r'.lookup label = r.lookup label := by
  rw [renameAll_eq, mapResult_eq_ok] at h
  obtain ⟨nodes, hnodes, rfl⟩ := h
  exact ⟨nodes, hstem.draws_allocateAll hnodes,
    r.map_label_insertAll hnodup (length_of_allocateAll hnodes),
    fun _ hlabel => r.lookup_insertAll hlabel⟩

/-! ## Renaming apart -/

theorem renameApart_eq_ok {colliding : List String} {g copy : Group} {l m : Labelling} {count : Nat}
    (h : a.renameApart colliding g l = .ok (count, copy) m) :
    ∃ r, a.renameAll colliding .empty (l.reserve g) = .ok r m ∧ count = colliding.length ∧
      copy = g.relabel r := by
  unfold renameApart at h
  split at h
  · rename_i r k hr
    cases h
    exact ⟨r, hr, rfl, rfl⟩
  · cases h

theorem renameApart_eq_error {colliding : List String} {g : Group} {l m : Labelling}
    {e : StructuralError} (h : a.renameApart colliding g l = .error e m) :
    ∃ k, a.renameAll colliding .empty (l.reserve g) = .error e k ∧ m = ⟨k.next, l.inUse⟩ := by
  unfold renameApart at h
  split at h
  · cases h
  · rename_i k hr
    cases h
    exact ⟨k, hr, rfl⟩

/-! ## The number of the next label -/

theorem grows_tryNext (a : Allocator) (tries : Nat) : Grows Labelling.next (a.tryNext tries) := by
  induction tries with
  | zero => exact grows_throw _
  | succ tries ih =>
    constructor
    · intro s t node h
      rw [tryNext] at h
      dsimp only at h
      split at h
      · exact Nat.le_trans (Nat.le_succ _) (ih.ok h)
      · cases h
        exact Nat.le_succ _
    · intro s t e h
      rw [tryNext] at h
      dsimp only at h
      split at h
      · exact Nat.le_trans (Nat.le_succ _) (ih.error h)
      · cases h

theorem grows_allocateAll (a : Allocator) (n : Nat) : Grows Labelling.next (a.allocateAll n) := by
  induction n with
  | zero => exact grows_pure []
  | succ n ih => exact (a.grows_tryNext _).bind fun node => ih.map (List.cons node)

theorem grows_renameAll (a : Allocator) (labels : List String) (r : Renaming) :
    Grows Labelling.next (a.renameAll labels r) :=
  (a.grows_allocateAll labels.length).of_mapResult (a.renameAll_eq labels r)

theorem grows_renameApart (a : Allocator) (colliding : List String) (g : Group) :
    Grows Labelling.next (a.renameApart colliding g) where
  ok {l m result} h := by
    obtain ⟨r, hr, _⟩ := renameApart_eq_ok h
    have hle : (l.reserve g).next ≤ m.next := (a.grows_renameAll colliding .empty).ok hr
    exact hle
  error {l m e} h := by
    obtain ⟨k, hr, rfl⟩ := renameApart_eq_error h
    have hle : (l.reserve g).next ≤ k.next := (a.grows_renameAll colliding .empty).error hr
    exact hle

theorem grows_makeDisjoint (a : Allocator) (g : Group) (order : LabelOrder) :
    Grows Labelling.next (a.makeDisjoint g order) where
  ok h := (a.grows_renameApart _ g).ok h
  error h := (a.grows_renameApart _ g).error h

end Allocator

end GraphPattern
