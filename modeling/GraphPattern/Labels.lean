import GraphPattern.Error
import GraphPattern.Pattern.Relabel

/-!
# Labels of blank nodes

New labels are a stem followed by a number that counts up over all allocations, whoever makes them.
A label that is in use is passed over. `Allocator.makeDisjoint` gives new labels to those blank
nodes of a pattern whose labels are in use elsewhere. Labels are kept in sets, so which of them gets
its new label first is left open: it is a `LabelOrder`, and may be another one each time.
-/

namespace GraphPattern

/-! ## Sets of labels -/

/-- A finite set of labels. -/
structure LabelSet where
  toList : List String
  nodup : toList.Nodup
deriving DecidableEq

namespace LabelSet

/-- The set without labels. -/
def empty : LabelSet := ⟨[], List.nodup_nil⟩

instance : Inhabited LabelSet := ⟨empty⟩

instance : Membership String LabelSet := ⟨fun s label => label ∈ s.toList⟩

instance (label : String) (s : LabelSet) : Decidable (label ∈ s) :=
  inferInstanceAs (Decidable (label ∈ s.toList))

/-- The number of labels. -/
def size (s : LabelSet) : Nat := s.toList.length

/-- The set with one more label. -/
def insert (s : LabelSet) (label : String) : LabelSet :=
  if h : label ∈ s.toList then s
  else ⟨label :: s.toList, List.nodup_cons.mpr ⟨h, s.nodup⟩⟩

/-- The set with some more labels. -/
def insertAll (s : LabelSet) (labels : List String) : LabelSet := labels.foldl insert s

/-- The set of the labels of some nodes. -/
def ofNodes (nodes : List BlankNode) : LabelSet := empty.insertAll (nodes.map BlankNode.label)

theorem mem_insert {s : LabelSet} {label l : String} :
    l ∈ s.insert label ↔ l = label ∨ l ∈ s := by
  show l ∈ (s.insert label).toList ↔ l = label ∨ l ∈ s.toList
  unfold insert
  split
  · rename_i h
    constructor
    · exact Or.inr
    · rintro (rfl | hl)
      · exact h
      · exact hl
  · exact List.mem_cons

theorem mem_insertAll {s : LabelSet} {labels : List String} {l : String} :
    l ∈ s.insertAll labels ↔ l ∈ labels ∨ l ∈ s := by
  induction labels generalizing s with
  | nil =>
    constructor
    · exact Or.inr
    · rintro (h | h)
      · cases h
      · exact h
  | cons label labels ih =>
    show l ∈ (s.insert label).insertAll labels ↔ _
    rw [ih, mem_insert, List.mem_cons]
    constructor
    · rintro (h | h | h)
      · exact .inl (.inr h)
      · exact .inl (.inl h)
      · exact .inr h
    · rintro ((h | h) | h)
      · exact .inr (.inl h)
      · exact .inl h
      · exact .inr (.inr h)

end LabelSet

/-- The labels of the blank nodes of a group. -/
def Group.labels (g : Group) : LabelSet := LabelSet.ofNodes g.nodes

/-- The labels of a group that are in use elsewhere, in the order in which they are met. -/
def Group.collisions (g : Group) (inUse : LabelSet) : List String :=
  (g.labels).toList.reverse.filter (· ∈ inUse)

/-- An order in which labels can be visited. -/
structure LabelOrder where
  arrange : List String → List String
  perm : ∀ labels, (arrange labels).Perm labels

namespace LabelOrder

/-- The order in which labels are met. -/
def reading : LabelOrder := ⟨id, fun _ => .refl _⟩

/-- The last label met comes first. -/
def reversed : LabelOrder := ⟨List.reverse, List.reverse_perm⟩

end LabelOrder

/-! ## New labels -/

/-- Where the allocation of labels stands: the next number, and the labels in use. The numbers have
no end here. A counter of 64 bits gives the same labels for the first 2⁶⁴ numbers tried, and starts
again at 0 after them. -/
structure Labelling where
  next : Nat
  inUse : LabelSet

/-- All labels of the group in use too. -/
def Labelling.reserve (s : Labelling) (g : Group) : Labelling :=
  { s with inUse := s.inUse.insertAll (g.labels).toList.reverse }

/-- A step that takes new labels. A step that fails keeps the numbers it has used up. -/
abbrev LabelM := EStateM StructuralError Labelling

/-- How new labels are made: what stands before the number, and how many numbers are tried. -/
structure Allocator where
  stem : String := "b"
  attempts : Nat := 64
deriving DecidableEq, Repr, Inhabited

namespace Allocator

/-- The label with a number. -/
def candidate (a : Allocator) (number : Nat) : String := a.stem ++ toString number

/-- Tries so many numbers and takes the first label that is not in use. -/
def tryNext (a : Allocator) : Nat → LabelM BlankNode
  | 0 => throw (.labelsExhausted a.attempts)
  | tries + 1 => fun s =>
    let label := a.candidate s.next
    if label ∈ s.inUse then a.tryNext tries { s with next := s.next + 1 }
    else .ok (.ofText label) ⟨s.next + 1, s.inUse.insert label⟩

/-- A blank node whose label is not in use yet, and is from now on. -/
def allocate (a : Allocator) : LabelM BlankNode := a.tryNext a.attempts

/-- A new node for each of the labels. -/
def renameAll (a : Allocator) : List String → Renaming → LabelM Renaming
  | [], r => pure r
  | label :: labels, r => do
    let node ← a.allocate
    a.renameAll labels (r.insert label node)

/-- Renames the blank nodes of a group that have one of the colliding labels, which get their new
labels one after the other, and takes all labels of the group into use. A new label is neither in use
nor a label of the group. If one cannot be found, the labels in use are those of before. The first
part of the result is the number of labels renamed. -/
def renameApart (a : Allocator) (colliding : List String) (g : Group) : LabelM (Nat × Group) :=
  fun s =>
    match a.renameAll colliding .empty (s.reserve g) with
    | .ok r t => .ok (colliding.length, g.relabel r) t
    | .error e t => .error e ⟨t.next, s.inUse⟩

/-- Renames the blank nodes of a group whose labels are in use, in some order. -/
def makeDisjoint (a : Allocator) (g : Group) (order : LabelOrder := .reading) :
    LabelM (Nat × Group) := fun s =>
  a.renameApart (order.arrange (g.collisions s.inUse)) g s

end Allocator

end GraphPattern
