import GraphPattern.Pattern.Effective
import GraphPattern.Pattern.Relabel
import GraphPattern.Pattern.Substitution
import Mathlib.Data.List.Basic

/-!
# The shape of patterns

A group is well shaped if, at every depth, unions have alternatives, targets of `BIND`s carry no value,
and paths are predicates or flat sequences of them (`Group.IsWellShaped`). Replacing what slots hold
keeps the shape (`Group.IsWellShaped.mapSlots`), and so does removing computed variables
(`Group.IsWellShaped.withoutBinds`), so all passes over a group do.
-/

namespace GraphPattern

/-! ## Properties of all elements -/

mutual

/-- Whether the element and all elements below it have a property. -/
def Element.Everywhere (P : Element → Prop) : Element → Prop
  | .block ts => P (.block ts)
  | .optional g => P (.optional g) ∧ Group.Everywhere P g
  | .union gs => P (.union gs) ∧ Group.EverywhereInAll P gs
  | .minus g => P (.minus g) ∧ Group.Everywhere P g
  | .subQuery d vs g p => P (.subQuery d vs g p) ∧ Group.Everywhere P g
  | .bind e v => P (.bind e v)
  | .filter e => P (.filter e)

/-- Whether all elements of the group have a property, at every depth. -/
def Group.Everywhere (P : Element → Prop) : List Element → Prop
  | [] => True
  | e :: g => Element.Everywhere P e ∧ Group.Everywhere P g

/-- Whether all elements of the groups have a property, at every depth. -/
def Group.EverywhereInAll (P : Element → Prop) : List (List Element) → Prop
  | [] => True
  | g :: gs => Group.Everywhere P g ∧ Group.EverywhereInAll P gs

end

theorem Element.Everywhere.self {P : Element → Prop} {e : Element} (h : e.Everywhere P) : P e := by
  cases e with
  | block ts => exact h
  | bind e v => exact h
  | filter e => exact h
  | _ => exact h.1

namespace Group

variable {P Q : Element → Prop} {g h : Group}

theorem everywhere_iff : Everywhere P g ↔ ∀ e ∈ g, e.Everywhere P := by
  induction g with
  | nil => simp [Everywhere]
  | cons e g ih => rw [Everywhere, ih, List.forall_mem_cons]

theorem everywhereInAll_iff {gs : List (List Element)} :
    EverywhereInAll P gs ↔ ∀ g ∈ gs, Everywhere P g := by
  induction gs with
  | nil => simp [EverywhereInAll]
  | cons g gs ih => rw [EverywhereInAll, ih, List.forall_mem_cons]

@[simp] theorem everywhere_append :
    Everywhere P (g ++ h) ↔ Everywhere P g ∧ Everywhere P h := by
  induction g with
  | nil => simp [Everywhere]
  | cons e g ih => simp [Everywhere, ih, and_assoc]

@[simp] theorem everywhereInAll_append {gs hs : List (List Element)} :
    EverywhereInAll P (gs ++ hs) ↔ EverywhereInAll P gs ∧ EverywhereInAll P hs := by
  induction gs with
  | nil => simp [EverywhereInAll]
  | cons g gs ih => simp [EverywhereInAll, ih, and_assoc]

@[simp] theorem everywhere_singleton {e : Element} : Everywhere P [e] ↔ e.Everywhere P :=
  and_iff_left trivial

/-- An element at the end of a group. -/
theorem everywhere_concat {e : Element} :
    Everywhere P (g ++ [e]) ↔ Everywhere P g ∧ e.Everywhere P := by
  rw [everywhere_append, everywhere_singleton]

theorem everywhere_pushTriple {t : Triple} (hnew : P (.block [t]))
    (hlast : ∀ ts, P (.block ts) → P (.block (ts ++ [t]))) (hg : Everywhere P g) :
    Everywhere P (g.pushTriple t) := by
  unfold pushTriple
  split
  · rename_i ts h
    obtain ⟨front, rfl⟩ := List.getLast?_eq_some_iff.mp h
    rw [List.dropLast_concat]
    rw [everywhere_concat] at hg ⊢
    exact ⟨hg.1, hlast ts hg.2⟩
  · exact everywhere_concat.mpr ⟨hg, hnew⟩

theorem everywhere_pushAlternative (hnew : P (.union [h]))
    (hlast : ∀ gs, P (.union gs) → P (.union (gs ++ [h]))) (hg : Everywhere P g)
    (hh : Everywhere P h) : Everywhere P (g.pushAlternative h) := by
  unfold pushAlternative
  split
  · rename_i gs hunion
    obtain ⟨front, rfl⟩ := List.getLast?_eq_some_iff.mp hunion
    rw [List.dropLast_concat]
    rw [everywhere_concat] at hg ⊢
    exact ⟨hg.1, hlast gs hg.2.1, everywhereInAll_append.mpr ⟨hg.2.2, hh, trivial⟩⟩
  · exact everywhere_concat.mpr ⟨hg, hnew, hh, trivial⟩

end Group

/-! ## Passes that keep a property -/

section Slots

variable {P Q : Element → Prop} {m : SlotMap}

mutual

theorem Element.everywhere_mapSlots (h : ∀ e, P e → Q (e.mapSlots m)) :
    ∀ e : Element, e.Everywhere P → (e.mapSlots m).Everywhere Q
  | .block ts, he => h (.block ts) he
  | .optional g, he => ⟨h (.optional g) he.1, Group.everywhere_mapSlots h g he.2⟩
  | .union gs, he => ⟨h (.union gs) he.1, Group.everywhereInAll_mapSlotsOfAll h gs he.2⟩
  | .minus g, he => ⟨h (.minus g) he.1, Group.everywhere_mapSlots h g he.2⟩
  | .subQuery d vs g p, he => ⟨h (.subQuery d vs g p) he.1, Group.everywhere_mapSlots h g he.2⟩
  | .bind e v, he => h (.bind e v) he
  | .filter e, he => h (.filter e) he

/-- What a replacement makes of single elements, it makes of all elements of a group. -/
theorem Group.everywhere_mapSlots (h : ∀ e, P e → Q (e.mapSlots m)) :
    ∀ g : List Element, Group.Everywhere P g → Group.Everywhere Q (Group.mapSlots m g)
  | [], _ => trivial
  | e :: g, hg => ⟨Element.everywhere_mapSlots h e hg.1, Group.everywhere_mapSlots h g hg.2⟩

theorem Group.everywhereInAll_mapSlotsOfAll (h : ∀ e, P e → Q (e.mapSlots m)) :
    ∀ gs : List (List Element), Group.EverywhereInAll P gs →
      Group.EverywhereInAll Q (Group.mapSlotsOfAll m gs)
  | [], _ => trivial
  | g :: gs, hgs =>
    ⟨Group.everywhere_mapSlots h g hgs.1, Group.everywhereInAll_mapSlotsOfAll h gs hgs.2⟩

end

end Slots

section Computed

variable {P : Element → Prop} {name : String}

/-- Whether a property of elements is one of what is left of them where `BIND`s of a name are removed,
and of the empty block that stands in for what is gone. -/
structure Element.Survives (name : String) (P : Element → Prop) : Prop where
  empty : P (.block [])
  withoutBinds : ∀ e, P e → P (e.withoutBinds name)

theorem Group.everywhere_refill {g h : Group} (hP : Element.Survives name P)
    (hh : Group.Everywhere P h) : Group.Everywhere P (refill g h) := by
  unfold refill
  split
  · exact ⟨hP.empty, trivial⟩
  · exact hh

mutual

theorem Element.everywhere_withoutBinds (hP : Element.Survives name P) :
    ∀ e : Element, e.Everywhere P → (e.withoutBinds name).Everywhere P
  | .block ts, he => hP.withoutBinds (.block ts) he
  | .optional g, he =>
    ⟨hP.withoutBinds (.optional g) he.1,
      Group.everywhere_refill hP (Group.everywhere_otherElements hP g he.2)⟩
  | .union gs, he =>
    ⟨hP.withoutBinds (.union gs) he.1, Group.everywhereInAll_withoutBindsAll hP gs he.2⟩
  | .minus g, he =>
    ⟨hP.withoutBinds (.minus g) he.1,
      Group.everywhere_refill hP (Group.everywhere_otherElements hP g he.2)⟩
  | .subQuery d vs g p, he =>
    ⟨hP.withoutBinds (.subQuery d vs g p) he.1,
      Group.everywhere_refill hP (Group.everywhere_otherElements hP g he.2)⟩
  | .bind e v, he => hP.withoutBinds (.bind e v) he
  | .filter e, he => hP.withoutBinds (.filter e) he

theorem Group.everywhere_otherElements (hP : Element.Survives name P) :
    ∀ g : List Element, Group.Everywhere P g → Group.Everywhere P (Group.otherElements name g)
  | [], _ => trivial
  | e :: g, hg => by
    rw [Group.otherElements]
    split
    · exact Group.everywhere_otherElements hP g hg.2
    · exact ⟨Element.everywhere_withoutBinds hP e hg.1, Group.everywhere_otherElements hP g hg.2⟩

theorem Group.everywhereInAll_withoutBindsAll (hP : Element.Survives name P) :
    ∀ gs : List (List Element), Group.EverywhereInAll P gs →
      Group.EverywhereInAll P (Group.withoutBindsAll name gs)
  | [], _ => trivial
  | g :: gs, hgs =>
    ⟨Group.everywhere_refill hP (Group.everywhere_otherElements hP g hgs.1),
      Group.everywhereInAll_withoutBindsAll hP gs hgs.2⟩

end

/-- What holds of the elements of a group holds of those that are left. -/
theorem Group.everywhere_withoutBinds (hP : Element.Survives name P) {g : Group}
    (hg : Group.Everywhere P g) : Group.Everywhere P (g.withoutBinds name) :=
  everywhere_refill hP (everywhere_otherElements hP g hg)

end Computed

/-! ## Flat paths -/

namespace Path

/-- Whether the path is one predicate. -/
def IsPredicate : Path → Prop
  | .predicate _ => True
  | .sequence _ => False

/-- Whether the path is one predicate or a sequence of at least two predicates. -/
def IsFlat : Path → Prop
  | .predicate _ => True
  | .sequence ps => 2 ≤ ps.length ∧ ∀ p ∈ ps, p.IsPredicate

variable {p : Path} {ps : List Path}

theorem mapSteps_eq_map (f : Term → Term) (ps : List Path) : mapSteps f ps = ps.map (map f) := by
  induction ps with
  | nil => rfl
  | cons p ps ih => rw [mapSteps, ih, List.map_cons]

theorem IsPredicate.map (h : p.IsPredicate) (f : Term → Term) : (p.map f).IsPredicate := by
  cases p with
  | predicate t => trivial
  | sequence ps => cases h

theorem IsFlat.map (h : p.IsFlat) (f : Term → Term) : (p.map f).IsFlat := by
  cases p with
  | predicate t => trivial
  | sequence ps =>
    rw [Path.map, mapSteps_eq_map]
    refine ⟨by rw [List.length_map]; exact h.1, List.forall_mem_map.mpr fun p hp => ?_⟩
    exact (h.2 p hp).map f

/-- The steps of a flat path are predicates. -/
theorem IsFlat.steps (h : p.IsFlat) : ∀ q ∈ p.steps, q.IsPredicate := by
  cases p with
  | predicate t => exact List.forall_mem_singleton.mpr trivial
  | sequence ps => exact h.2

/-- Flat paths that are put end to end are a flat path. -/
theorem isFlat_of_sequence? (h : ∀ q ∈ ps, q.IsFlat) (hp : sequence? ps = some p) : p.IsFlat := by
  have hsteps : ∀ q ∈ ps.flatMap Path.steps, q.IsPredicate := by
    intro q hq
    obtain ⟨r, hr, hq⟩ := List.mem_flatMap.mp hq
    exact (h r hr).steps q hq
  unfold sequence? at hp
  split at hp
  · cases hp
  · rename_i q hflat
    cases hp
    have hq : p.IsPredicate := hsteps _ (by simp [hflat])
    cases p with
    | predicate t => trivial
    | sequence ps => cases hq
  · rename_i hnil hsingle
    cases hp
    refine ⟨?_, hsteps⟩
    match hflat : ps.flatMap Path.steps with
    | [] => exact absurd hflat hnil
    | [q] => exact absurd hflat (hsingle q)
    | _ :: _ :: _ => exact Nat.le_add_left 2 _

end Path

/-! ## Well-shaped groups -/

/-- Whether the element, apart from those below it, has the shape of its form: paths are flat, a union
has an alternative, and the target of a `BIND` carries no value. -/
def Element.IsShaped : Element → Prop
  | .block ts => ∀ t ∈ ts, t.predicate.IsFlat
  | .union gs => gs ≠ []
  | .bind _ v => v.binding = none
  | .optional _ | .minus _ | .subQuery _ _ _ _ | .filter _ => True

theorem Element.IsShaped.mapSlots {e : Element} (h : e.IsShaped) (m : SlotMap) :
    (e.mapSlots m).IsShaped := by
  cases e with
  | block ts => exact List.forall_mem_map.mpr fun t ht => (h t ht).map m.term
  | union gs =>
    cases gs with
    | nil => exact absurd rfl h
    | cons g gs => exact List.cons_ne_nil _ _
  | bind e v => exact h
  | _ => trivial

theorem Element.survives_isShaped (name : String) : Element.Survives name Element.IsShaped where
  empty := nofun
  withoutBinds e h := by
    cases e with
    | union gs =>
      cases gs with
      | nil => exact absurd rfl h
      | cons g gs => exact List.cons_ne_nil _ _
    | _ => exact h

namespace Group

/-- Whether, at every depth, unions have alternatives, targets of `BIND`s carry no value, and paths are
predicates or sequences of at least two predicates. -/
def IsWellShaped (g : Group) : Prop := Group.Everywhere Element.IsShaped g

variable {g h : Group}

theorem IsWellShaped.append (hg : g.IsWellShaped) (hh : h.IsWellShaped) : (g ++ h).IsWellShaped :=
  everywhere_append.mpr ⟨hg, hh⟩

theorem IsWellShaped.concat {e : Element} (hg : g.IsWellShaped) (he : e.Everywhere Element.IsShaped) :
    IsWellShaped (g ++ [e]) :=
  everywhere_concat.mpr ⟨hg, he⟩

theorem IsWellShaped.pushTriple {t : Triple} (hg : g.IsWellShaped) (ht : t.predicate.IsFlat) :
    (g.pushTriple t).IsWellShaped :=
  everywhere_pushTriple (List.forall_mem_singleton.mpr ht)
    (fun _ hts => List.forall_mem_append.mpr ⟨hts, List.forall_mem_singleton.mpr ht⟩) hg

theorem IsWellShaped.pushTriples {ts : List Triple} (hg : g.IsWellShaped)
    (hts : ∀ t ∈ ts, t.predicate.IsFlat) : (g.pushTriples ts).IsWellShaped :=
  List.foldlRecOn ts _ hg fun _ hh t ht => hh.pushTriple (hts t ht)

theorem IsWellShaped.pushAlternative (hg : g.IsWellShaped) (hh : h.IsWellShaped) :
    (g.pushAlternative h).IsWellShaped :=
  everywhere_pushAlternative (List.cons_ne_nil _ _) (fun _ _ => List.append_ne_nil_of_right_ne_nil _
    (List.cons_ne_nil _ _)) hg hh

theorem IsWellShaped.mapSlots (hg : g.IsWellShaped) (m : SlotMap) :
    IsWellShaped (Group.mapSlots m g) :=
  everywhere_mapSlots (fun _ he => he.mapSlots m) g hg

theorem IsWellShaped.withoutBinds (hg : g.IsWellShaped) (name : String) :
    (g.withoutBinds name).IsWellShaped :=
  everywhere_withoutBinds (Element.survives_isShaped name) hg

theorem IsWellShaped.substitute (hg : g.IsWellShaped) (name : String) (value : Option Term) :
    (g.substitute name value).IsWellShaped := by
  cases value with
  | none => exact hg.mapSlots _
  | some value => exact (hg.withoutBinds name).mapSlots _

theorem IsWellShaped.relabel (hg : g.IsWellShaped) (r : Renaming) : (g.relabel r).IsWellShaped :=
  hg.mapSlots _

theorem IsWellShaped.effective (hg : g.IsWellShaped) : g.effective.IsWellShaped :=
  hg.mapSlots _

end Group

end GraphPattern
