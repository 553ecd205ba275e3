import GraphPattern.Proofs.Pattern.SubstitutionCount

/-!
# The value that is found for a variable

`Group.findBinding` reads a group slot by slot and gives the first value that a variable of the name
carries. Where values are no variables, it finds after a substitution what the substitution has
written, if it has written a slot, and for any other variable what it found before
(`Group.findBinding_after_substitute`), unless that stood in a `BIND` that was removed. So each slot is
listed with the `BIND` in which it stands (`Group.sites`).
-/

namespace GraphPattern

/-! ## Searches -/

/-- What is left out of a search does not matter if what is found first is left in. -/
theorem findSome?_filter {α β : Type} {p : α → Bool} {f : α → Option β} {l : List α}
    (h : ∀ a, l.find? (fun a => (f a).isSome) = some a → p a = true) :
    (l.filter p).findSome? f = l.findSome? f := by
  induction l with
  | nil => rfl
  | cons a l ih =>
    cases hf : f a with
    | some b =>
      have hp : p a = true := h a (by simp [hf])
      rw [List.filter_cons_of_pos hp, List.findSome?_cons, List.findSome?_cons, hf]
    | none =>
      have hrest : (l.filter p).findSome? f = l.findSome? f :=
        ih fun b hb => h b (by simpa [hf] using hb)
      rw [List.findSome?_cons, hf, ← hrest]
      cases hp : p a with
      | true => rw [List.filter_cons_of_pos hp, List.findSome?_cons, hf]
      | false => rw [List.filter_cons_of_neg (by simp [hp])]

/-- A search that can only find one value finds it where there is something to find. -/
theorem findSome?_ite {α β : Type} {p : α → Bool} {f : α → Option β} {found : Option β}
    {l : List α} (h : ∀ a ∈ l, f a = if p a then found else none) :
    l.findSome? f = if 0 < l.countP p then found else none := by
  induction l with
  | nil => rfl
  | cons a l ih =>
    obtain ⟨ha, hl⟩ := List.forall_mem_cons.mp h
    rw [List.findSome?_cons, ha, ih hl, List.countP_cons]
    cases p a with
    | true => cases found <;> simp
    | false => simp

/-! ## The value in a slot -/

/-- The value that a variable of the name carries in the slot. -/
def Slot.valueOf (name : String) (s : Slot) : Option Term :=
  s.variables.findSome? fun v => if v.name = name then v.binding else none

theorem Group.findBinding_eq (g : Group) (name : String) :
    g.findBinding name = (slots g).findSome? (Slot.valueOf name) := by
  rw [findBinding]
  induction slots g with
  | nil => rfl
  | cons s ss ih =>
    rw [List.flatMap_cons, List.findSome?_append, ih, List.findSome?_cons, Slot.valueOf]
    cases s.variables.findSome? _ <;> rfl

/-- Whether the variable in a slot carries no value that is or contains a variable, and none at all if
it is the target of a `BIND`. -/
def Slot.IsShallow : Slot → Prop
  | .term t => ∀ v ∈ t.asVariable, ∀ value ∈ v.binding, value.variables = []
  | .projected v => ∀ value ∈ v.binding, value.variables = []
  | .target v => v.binding = none

instance (s : Slot) : Decidable s.IsShallow :=
  match s with
  | .term t =>
    inferInstanceAs (Decidable (∀ v ∈ t.asVariable, ∀ value ∈ v.binding, value.variables = []))
  | .projected v => inferInstanceAs (Decidable (∀ value ∈ v.binding, value.variables = []))
  | .target v => inferInstanceAs (Decidable (v.binding = none))

namespace Slot

variable {name other : String} {value : Option Term} {s : Slot}

/-- In such a slot only the variable itself can be found. -/
theorem IsShallow.valueOf_eq (h : s.IsShallow) (name : String) :
    s.valueOf name = s.var?.bind fun v => if v.name = name then v.binding else none := by
  cases s with
  | term t =>
    cases t with
    | bound n b =>
      have hb : b.variables = [] := h _ rfl _ rfl
      simp [valueOf, Slot.variables, Term.variables, var?, Term.asVariable, hb]
    | _ => simp [valueOf, Slot.variables, Term.variables, var?, Term.asVariable]
  | projected v =>
    obtain ⟨n, _ | b⟩ := v
    · simp [valueOf, Slot.variables, var?]
    · have hb : b.variables = [] := h _ rfl
      simp [valueOf, Slot.variables, var?, hb]
  | target v =>
    have hv : v.binding = none := h
    simp [valueOf, Slot.variables, var?, hv]

/-- What is written is shallow if the new value is no variable. -/
theorem IsShallow.map_resolve (h : s.IsShallow) (hvalue : ∀ t ∈ value, t.variables = [])
    (name : String) : (s.map (.resolve name value)).IsShallow := by
  rcases map_resolve_eq_or name value s with heq | hvar
  · rw [heq]
    exact h
  · -- the variable in the slot carries the new value
    cases s with
    | term t =>
      intro v hv b hb
      obtain rfl : v = ⟨name, value⟩ := Option.some.inj (hv.symm.trans hvar)
      exact hvalue b hb
    | projected v =>
      intro b hb
      have hv : v.resolve name value = ⟨name, value⟩ := Option.some.inj hvar
      have hb' : (v.resolve name value).binding = some b := hb
      rw [hv] at hb'
      exact hvalue b hb'
    | target v => cases hvar

/-- In a slot of the name, the value found is the one that was written. -/
theorem IsShallow.valueOf_map_resolve (h : s.IsShallow) (hvalue : ∀ t ∈ value, t.variables = []) :
    (s.map (.resolve name value)).valueOf name = if s.isOf name then value else none := by
  rw [(h.map_resolve hvalue name).valueOf_eq, var?_map_resolve, isOf_eq]
  cases s.var? with
  | none => rfl
  | some v =>
    by_cases hn : v.name = name
    · simp [Variable.resolve, hn]
    · simp [Variable.resolve, hn]

/-- The value found for another variable stays the same. -/
theorem IsShallow.valueOf_map_resolve_of_ne (h : s.IsShallow)
    (hvalue : ∀ t ∈ value, t.variables = []) (hne : other ≠ name) :
    (s.map (.resolve name value)).valueOf other = s.valueOf other := by
  rw [(h.map_resolve hvalue name).valueOf_eq, h.valueOf_eq, var?_map_resolve]
  cases s.var? with
  | none => rfl
  | some v =>
    by_cases hn : v.name = name
    · simp [Variable.resolve, hn, hne.symm]
    · simp [Variable.resolve, hn]

end Slot

/-! ## Slots that go with a `BIND` -/

/-- A slot, with the name of the variable that is computed where it stands: in a `BIND`, its
expression and its target. -/
structure Site where
  computed : Option String
  slot : Slot
deriving DecidableEq

mutual

/-- The slots of an element, where they stand. -/
def Element.sites : Element → List Site
  | .block ts => ((ts.flatMap Triple.terms).map .term).map (Site.mk none)
  | .optional g => Group.sites g
  | .union gs => Group.sitesOfAll gs
  | .minus g => Group.sites g
  | .subQuery _ vs g _ => (vs.map .projected).map (Site.mk none) ++ Group.sites g
  | .bind e v => (e.terms.map Slot.term ++ [Slot.target v]).map (Site.mk (some v.name))
  | .filter e => (e.terms.map .term).map (Site.mk none)

/-- The slots of a group in reading order, where they stand. -/
def Group.sites : List Element → List Site
  | [] => []
  | e :: g => Element.sites e ++ Group.sites g

/-- The slots of several groups, where they stand. -/
def Group.sitesOfAll : List (List Element) → List Site
  | [] => []
  | g :: gs => Group.sites g ++ Group.sitesOfAll gs

end

theorem Site.map_slot_mk (computed : Option String) (ss : List Slot) :
    (ss.map (Site.mk computed)).map Site.slot = ss := by
  rw [List.map_map]
  exact List.map_id ss

mutual

theorem Element.map_slot_sites : ∀ e : Element, e.sites.map Site.slot = e.slots
  | .block _ => Site.map_slot_mk none _
  | .optional g => Group.map_slot_sites g
  | .union gs => Group.map_slot_sitesOfAll gs
  | .minus g => Group.map_slot_sites g
  | .subQuery _ vs g _ => by
    rw [Element.sites, List.map_append, Site.map_slot_mk, Group.map_slot_sites g, Element.slots]
  | .bind _ v => Site.map_slot_mk (some v.name) _
  | .filter _ => Site.map_slot_mk none _

theorem Group.map_slot_sites : ∀ g : List Element, (Group.sites g).map Site.slot = Group.slots g
  | [] => rfl
  | e :: g => by
    rw [Group.sites, List.map_append, Element.map_slot_sites e, Group.map_slot_sites g,
      Group.slots]

theorem Group.map_slot_sitesOfAll :
    ∀ gs : List (List Element), (Group.sitesOfAll gs).map Site.slot = Group.slotsOfAll gs
  | [] => rfl
  | g :: gs => by
    rw [Group.sitesOfAll, List.map_append, Group.map_slot_sites g, Group.map_slot_sitesOfAll gs,
      Group.slotsOfAll]

end

/-- Whether the slot stays when the `BIND`s of a name are removed. -/
def Site.outside (name : String) (s : Site) : Bool := s.computed ≠ some name

theorem Site.filter_outside_mk {name : String} {computed : Option String}
    (h : computed ≠ some name) (ss : List Slot) :
    (ss.map (Site.mk computed)).filter (outside name) = ss.map (Site.mk computed) := by
  refine List.filter_eq_self.mpr fun s hs => ?_
  obtain ⟨_, _, rfl⟩ := List.mem_map.mp hs
  exact decide_eq_true h

theorem Site.filter_outside_mk_self (name : String) (ss : List Slot) :
    (ss.map (Site.mk (some name))).filter (outside name) = [] := by
  refine List.filter_eq_nil_iff.mpr fun s hs => ?_
  obtain ⟨_, _, rfl⟩ := List.mem_map.mp hs
  simp [outside]

theorem Group.sites_refill (g h : Group) : sites (refill g h) = sites h := by
  cases h with
  | nil => cases g <;> rfl
  | cons e h => rw [refill_cons_right]

section WithoutBinds

variable {name : String}

theorem Element.filter_sites_of_isBindOf {e : Element} (h : e.isBindOf name = true) :
    e.sites.filter (Site.outside name) = [] := by
  cases e with
  | bind x v =>
    obtain rfl : v.name = name := of_decide_eq_true h
    exact Site.filter_outside_mk_self v.name _
  | _ => cases h

mutual

theorem Element.sites_withoutBinds : ∀ e : Element, e.isBindOf name = false →
    (e.withoutBinds name).sites = e.sites.filter (Site.outside name)
  | .block _, _ => (Site.filter_outside_mk (Option.some_ne_none name).symm _).symm
  | .optional g, _ => by
    rw [Element.withoutBinds, Element.sites, Group.sites_refill, Group.sites_otherElements g]
    rfl
  | .union gs, _ => Group.sitesOfAll_withoutBindsAll gs
  | .minus g, _ => by
    rw [Element.withoutBinds, Element.sites, Group.sites_refill, Group.sites_otherElements g]
    rfl
  | .subQuery _ vs g _, _ => by
    rw [Element.withoutBinds, Element.sites, Element.sites, Group.sites_refill,
      Group.sites_otherElements g, List.filter_append,
      Site.filter_outside_mk (Option.some_ne_none name).symm]
  | .bind e v, h => by
    have hv : v.name ≠ name := of_decide_eq_false h
    exact (Site.filter_outside_mk (fun heq => hv (Option.some.inj heq)) _).symm
  | .filter _, _ => (Site.filter_outside_mk (Option.some_ne_none name).symm _).symm

theorem Group.sites_otherElements : ∀ g : List Element,
    Group.sites (Group.otherElements name g) = (Group.sites g).filter (Site.outside name)
  | [] => rfl
  | e :: g => by
    rw [Group.sites, List.filter_append, ← Group.sites_otherElements g]
    cases he : e.isBindOf name with
    | true =>
      rw [Group.otherElements_cons_of_isBindOf he, Element.filter_sites_of_isBindOf he,
        List.nil_append]
    | false =>
      rw [Group.otherElements_cons_of_not_isBindOf he, Group.sites,
        Element.sites_withoutBinds e he]

theorem Group.sitesOfAll_withoutBindsAll : ∀ gs : List (List Element),
    Group.sitesOfAll (Group.withoutBindsAll name gs) =
      (Group.sitesOfAll gs).filter (Site.outside name)
  | [] => rfl
  | g :: gs => by
    rw [Group.withoutBindsAll, Group.sitesOfAll, Group.sites_refill, Group.sites_otherElements g,
      Group.sitesOfAll_withoutBindsAll gs, Group.sitesOfAll, List.filter_append]

end

/-- The slots that are left are those outside the `BIND`s of the name, in the same order. -/
theorem Group.slots_withoutBinds (name : String) (g : Group) :
    slots (withoutBinds name g) = ((sites g).filter (Site.outside name)).map Site.slot := by
  rw [withoutBinds, slots_refill, ← sites_otherElements, map_slot_sites]

end WithoutBinds

/-! ## What is found after a substitution -/

namespace Group

variable {name other : String} {value : Option Term} {g : Group}

/-- The first slot in which a variable of the name carries a value. -/
def firstSite? (name : String) (g : Group) : Option Site :=
  (sites g).find? fun s => (s.slot.valueOf name).isSome

/-- Removing the `BIND`s of a name does not change what is found outside them. -/
theorem findBinding_withoutBinds
    (h : ∀ s, g.firstSite? other = some s → s.outside name = true) :
    (withoutBinds name g).findBinding other = g.findBinding other := by
  have hall : g.findBinding other = (sites g).findSome? fun s => s.slot.valueOf other := by
    rw [findBinding_eq, ← map_slot_sites, List.findSome?_map]
    rfl
  rw [hall, findBinding_eq, slots_withoutBinds, List.findSome?_map]
  exact findSome?_filter h

/-- A replacement after which each slot has the value that it had changes no value found. -/
theorem findBinding_mapSlots {m : SlotMap}
    (h : ∀ s ∈ slots g, (s.map m).valueOf other = s.valueOf other) :
    findBinding (mapSlots m g) other = findBinding g other := by
  rw [findBinding_eq, findBinding_eq, slots_mapSlots, List.findSome?_map,
    ← List.head?_filterMap, ← List.head?_filterMap]
  exact congrArg List.head? (List.filterMap_congr h)

theorem mem_slots_of_collapse {s : Slot} (hs : s ∈ slots (g.collapse name value)) :
    s ∈ slots g := by
  cases value with
  | none => exact hs
  | some t => exact (mem_slots_withoutBinds hs).1

/-- What is found of the variable itself is what was written, if a slot was written. -/
theorem findBinding_substitute_self (hg : ∀ s ∈ slots g, s.IsShallow)
    (hvalue : ∀ t ∈ value, t.variables = []) :
    (g.substitute name value).findBinding name =
      if 0 < (g.substitutionCount name value).written then value else none := by
  have hwritten : (g.substitutionCount name value).written =
      (slots (g.collapse name value)).countP (Slot.isOf name) :=
    (written_substitutionPass name value g).trans (countP_isOf_substitute name value g)
  have hslots : ∀ s ∈ slots (g.collapse name value),
      (s.map (.resolve name value)).valueOf name = if s.isOf name then value else none :=
    fun s hs => (hg s (mem_slots_of_collapse hs)).valueOf_map_resolve hvalue
  rw [hwritten, findBinding_eq, substitute, slots_mapSlots, List.findSome?_map]
  exact findSome?_ite hslots

/-- Another variable has the value that it had, if the first slot where it has one is not removed. -/
theorem findBinding_substitute_of_ne (hg : ∀ s ∈ slots g, s.IsShallow)
    (hvalue : ∀ t ∈ value, t.variables = []) (hne : other ≠ name)
    (hfirst : value.isSome = true → ∀ s, g.firstSite? other = some s → s.outside name = true) :
    (g.substitute name value).findBinding other = g.findBinding other := by
  have hcollapse : (g.collapse name value).findBinding other = g.findBinding other := by
    cases value with
    | none => rfl
    | some t => exact findBinding_withoutBinds (hfirst rfl)
  rw [← hcollapse]
  exact findBinding_mapSlots fun s hs =>
    (hg s (mem_slots_of_collapse hs)).valueOf_map_resolve_of_ne hvalue hne

/-- In a group whose values are no variables and whose computed variables carry none, the search finds
what a substitution has written: the new value, if it is no variable and a slot was written, and
nothing once the variable is freed. Any other variable has the value that it had, unless the first slot
where it carries one stands in a `BIND` that was removed. -/
theorem findBinding_after_substitute (hg : ∀ s ∈ slots g, s.IsShallow) {t : Term}
    (ht : t.asVariable = none) (name : String) :
    (g.substitute name (some t)).findBinding name =
        (if 0 < (g.substitutionCount name (some t)).written then some t else none) ∧
      (g.substitute name none).findBinding name = none ∧
      (∀ other, other ≠ name →
        (∀ s, g.firstSite? other = some s → s.computed ≠ some name) →
          (g.substitute name (some t)).findBinding other = g.findBinding other) ∧
      ∀ other, other ≠ name →
        (g.substitute name none).findBinding other = g.findBinding other := by
  have hvalue : ∀ u ∈ some t, u.variables = [] := by
    rintro _ ⟨⟩
    cases t with
    | free n => cases ht
    | bound n b => cases ht
    | _ => rfl
  have hfree : ∀ u ∈ (none : Option Term), u.variables = [] := nofun
  refine ⟨findBinding_substitute_self hg hvalue, ?_, ?_, ?_⟩
  · rw [findBinding_substitute_self hg hfree, ite_self]
  · intro other hne hfirst
    exact findBinding_substitute_of_ne hg hvalue hne fun _ s hs => decide_eq_true (hfirst s hs)
  · intro other hne
    exact findBinding_substitute_of_ne hg hfree hne nofun

/-- The value of `?y` is found in the block, also after `?x` is set. In the `BIND` of `?x` there is
another value of `?y`, which is removed. -/
theorem findBinding_after_substitute_block :
    let g : Group := [.block [⟨.free "x", .predicate (.iri ⟨"p"⟩), .bound "y" (.blank ⟨"u"⟩)⟩],
      .bind (.term (.bound "y" (.iri ⟨"a"⟩))) ⟨"x", none⟩]
    (∀ s ∈ slots g, s.IsShallow) ∧ (Term.iri ⟨"t"⟩).asVariable = none ∧ "y" ≠ "x" ∧
      (∀ s, g.firstSite? "y" = some s → s.computed ≠ some "x") ∧
      (g.substitute "x" (some (.iri ⟨"t"⟩))).findBinding "x" = some (.iri ⟨"t"⟩) ∧
      (g.substitute "x" none).findBinding "x" = none ∧
      (g.substitute "x" (some (.iri ⟨"t"⟩))).findBinding "y" = some (.blank ⟨"u"⟩) ∧
      (g.substitute "x" none).findBinding "y" = some (.blank ⟨"u"⟩) := by
  intro g
  have hg : ∀ s ∈ slots g, s.IsShallow := by decide
  have hfirst : ∀ s, g.firstSite? "y" = some s → s.computed ≠ some "x" := by
    rintro s ⟨⟩
    decide
  obtain ⟨hset, hfreed, hother, hother'⟩ :=
    findBinding_after_substitute hg (t := .iri ⟨"t"⟩) rfl "x"
  exact ⟨hg, rfl, by decide, hfirst, hset, hfreed, hother "y" (by decide) hfirst,
    hother' "y" (by decide)⟩

end Group

end GraphPattern
