import GraphPattern.Proofs.Pattern.Normal
import Mathlib.Data.Set.Function

/-!
# What a comparison finds

A comparison pairs labels as it meets them and never takes a pair back. It fails only where no
one-to-one renaming makes one pattern the other: a renaming that makes the pairs noted before makes
those noted after it as well, for they are forced (`Decides`). One lemma for each kind of node carries
this through the pass over two patterns, from which `Group.isomorphic_iff_exists_renaming` follows.
-/

namespace GraphPattern

/-! ## Pairs that a renaming makes -/

/-- Whether the renaming of the labels of a set makes all the pairs. -/
def Pairing.Within (p : Pairing) (f : String → String) (S : Set String) : Prop :=
  ∀ left right, p.forward.lookup left = some right → left ∈ S ∧ f left = right

theorem Pairing.within_empty (f : String → String) (S : Set String) : empty.Within f S := nofun

/-- Whether the comparison keeps the pairs that were noted before, and decides whether a condition
holds of a renaming that makes them: it does so exactly if the comparison succeeds and the renaming makes
the pairs that are noted then. -/
structure Decides (f : String → String) (S : Set String) (m : Comparison) (condition : Prop) :
    Prop where
  keeps : ∀ {p q : Pairing}, m p = some ((), q) →
    ∀ left right, p.forward.lookup left = some right → q.forward.lookup left = some right
  decides : ∀ {p : Pairing}, p.Within f S →
    (condition ↔ ∃ q, m p = some ((), q) ∧ q.Within f S)

namespace Decides

variable {f : String → String} {S : Set String} {m n : Comparison} {c d : Prop}

theorem congr (h : Decides f S m c) (hcd : d ↔ c) : Decides f S m d := by
  rw [propext hcd]
  exact h

theorem of_pure : Decides f S (pure ()) True where
  keeps h := by
    cases h
    exact fun _ _ h => h
  decides hp := iff_of_true trivial ⟨_, rfl, hp⟩

theorem of_failure : Decides f S failure False where
  keeps h := nomatch h
  decides _ := iff_of_false not_false fun ⟨_, h, _⟩ => nomatch h

theorem of_guard (c : Prop) [Decidable c] : Decides f S (guard c) c := by
  by_cases h : c
  · simp only [guard, if_pos h]
    exact of_pure.congr (iff_true_intro h)
  · simp only [guard, if_neg h]
    exact of_failure.congr (iff_false_intro h)

/-- One comparison after another. -/
theorem seq (hm : Decides f S m c) (hn : Decides f S n d) :
    Decides f S (m >>= fun _ => n) (c ∧ d) := by
  have hbind : ∀ {p r}, (m >>= fun _ => n) p = some ((), r) ↔
      ∃ q, m p = some ((), q) ∧ n q = some ((), r) := by
    intro p r
    show (m p).bind (fun x => n x.2) = some ((), r) ↔ _
    rw [Option.bind_eq_some_iff]
    constructor
    · rintro ⟨⟨_, q⟩, hq, hr⟩
      exact ⟨q, hq, hr⟩
    · rintro ⟨q, hq, hr⟩
      exact ⟨((), q), hq, hr⟩
  constructor
  · intro p r h left right hlookup
    obtain ⟨q, hq, hr⟩ := hbind.mp h
    exact hn.keeps hr left right (hm.keeps hq left right hlookup)
  · intro p hp
    constructor
    · rintro ⟨hc, hd⟩
      obtain ⟨q, hq, hwithin⟩ := (hm.decides hp).mp hc
      obtain ⟨r, hr, hwithin⟩ := (hn.decides hwithin).mp hd
      exact ⟨r, hbind.mpr ⟨q, hq, hr⟩, hwithin⟩
    · rintro ⟨r, h, hwithin⟩
      obtain ⟨q, hq, hr⟩ := hbind.mp h
      have hmiddle : q.Within f S := fun left right hlookup =>
        hwithin left right (hn.keeps hr left right hlookup)
      exact ⟨(hm.decides hp).mpr ⟨q, hq, hmiddle⟩, (hn.decides hmiddle).mpr ⟨r, hr, hwithin⟩⟩

/-- Two labels can be paired exactly if the renaming makes the pair. Where the first has a partner,
the renaming gives it that one; where only the second has one, the renaming would not be one-to-one. -/
theorem of_labels (hinj : Set.InjOn f S) (left right : String) :
    Decides f S (.labels left right) (left ∈ S ∧ f left = right) := by
  have hsome : ∀ {p q : Pairing}, Comparison.labels left right p = some ((), q) ↔
      p.join left right = some q := by
    intro p q
    simp [Comparison.labels]
  constructor
  · intro p q h l r hlookup
    rw [hsome, Pairing.join] at h
    split at h
    · rename_i hfree
      cases h
      show (p.forward.insert left right).lookup l = some r
      rw [OrderedMap.lookup_insert, if_neg, hlookup]
      rintro rfl
      rw [hfree.1] at hlookup
      cases hlookup
    · split at h
      · cases h
        exact hlookup
      · cases h
  · intro p hp
    simp only [hsome, Pairing.join]
    constructor
    · rintro ⟨hleft, rfl⟩
      split
      · rename_i hfree
        refine ⟨_, rfl, fun l r hlookup => ?_⟩
        replace hlookup : (p.forward.insert left (f left)).lookup l = some r := hlookup
        rw [OrderedMap.lookup_insert] at hlookup
        split at hlookup
        · rename_i heq
          cases hlookup
          rw [heq]
          exact ⟨hleft, rfl⟩
        · exact hp l r hlookup
      · rename_i hpaired
        have hpair : p.forward.lookup left = some (f left) := by
          cases hl : p.forward.lookup left with
          | some r => rw [(hp left r hl).2]
          | none =>
            cases hr : p.backward.lookup (f left) with
            | none => exact absurd ⟨hl, hr⟩ hpaired
            | some l =>
              -- the renaming makes `l` its partner already, so it would give two labels one image
              have hlookup := (p.inverse l (f left)).mpr hr
              obtain ⟨hmem, heq⟩ := hp l (f left) hlookup
              rw [← hinj hmem hleft heq, hlookup] at hl
              cases hl
        rw [if_pos ⟨hpair, (p.inverse _ _).mp hpair⟩]
        exact ⟨p, rfl, hp⟩
    · rintro ⟨q, hq, hwithin⟩
      split at hq
      · cases hq
        refine hwithin left right ?_
        show (p.forward.insert left right).lookup left = some right
        rw [OrderedMap.lookup_insert, if_pos rfl]
      · split at hq
        · rename_i hpair
          exact hp left right hpair.1
        · cases hq

/-- The members of two lists correspond if the lists have the same images, where those of two members
decide whether they correspond. -/
theorem each {α β : Type} {compare : α → α → Comparison} {g h : α → β} {covered : α → Prop}
    (hcompare : ∀ a b, Decides f S (compare a b) (covered a ∧ g a = h b)) (as bs : List α) :
    Decides f S (.each compare as bs) ((∀ a ∈ as, covered a) ∧ as.map g = bs.map h) := by
  induction as generalizing bs with
  | nil =>
    cases bs with
    | nil => exact of_pure.congr (by simp)
    | cons b bs => exact of_failure.congr (by simp)
  | cons a as ih =>
    cases bs with
    | nil => exact of_failure.congr (by simp)
    | cons b bs =>
      refine ((hcompare a b).seq (ih bs)).congr ?_
      simp only [List.forall_mem_cons, List.map_cons, List.cons.injEq]
      exact and_and_and_comm

end Decides

/-! ## Nodes of patterns -/

/-- Whether the label of the blank node in a slot, if there is one, is in the set. -/
def Slot.Covered (S : Set String) (s : Slot) : Prop := ∀ n ∈ s.node?, n.label ∈ S

/-- What a renaming makes of a pattern in its normal form. -/
def SlotMap.renamed (f : String → String) : SlotMap := (SlotMap.labels f).comp .normal

section Nodes

variable {f : String → String} {S : Set String}

theorem Term.decides_correspond (hinj : Set.InjOn f S) (s t : Term) :
    Decides f S (s.correspond t)
      ((Slot.term s).Covered S ∧ (SlotMap.renamed f).term s = t.effective) := by
  show Decides f S (s.correspond t)
    ((∀ n ∈ s.node?, n.label ∈ S) ∧ s.effective.mapLabel f = t.effective)
  rw [correspond, ← node?_effective]
  have hs := s.effective_ne_bound
  have ht := t.effective_ne_bound
  generalize s.effective = s at hs ht ⊢
  generalize t.effective = t at hs ht ⊢
  cases s with
  | bound name value => exact absurd rfl (hs name value)
  | blank n =>
    cases t with
    | blank k =>
      refine (Decides.of_labels hinj n.label k.label).congr ?_
      obtain ⟨label⟩ := n
      obtain ⟨label'⟩ := k
      simp [node?, mapLabel]
    | _ => exact (Decides.of_guard _).congr (by simp [mapLabel])
  | _ => exact (Decides.of_guard _).congr (by simp [node?, mapLabel])

theorem Variable.decides_correspond (hinj : Set.InjOn f S) (v w : Variable) :
    Decides f S (v.correspond w) ((Slot.projected v).Covered S ∧
      (SlotMap.renamed f).projected v = SlotMap.normal.projected w) := by
  obtain ⟨name, value⟩ := v
  obtain ⟨name', value'⟩ := w
  cases value with
  | none =>
    cases value' with
    | none =>
      refine ((Decides.of_guard (name = name')).seq .of_pure).congr ?_
      simp [Slot.Covered, Slot.node?, SlotMap.renamed, SlotMap.comp, SlotMap.labels, SlotMap.normal]
    | some t =>
      refine ((Decides.of_guard (name = name')).seq .of_failure).congr ?_
      simp [SlotMap.renamed, SlotMap.comp, SlotMap.labels, SlotMap.normal]
  | some s =>
    cases value' with
    | none =>
      refine ((Decides.of_guard (name = name')).seq .of_failure).congr ?_
      simp [SlotMap.renamed, SlotMap.comp, SlotMap.labels, SlotMap.normal]
    | some t =>
      refine ((Decides.of_guard (name = name')).seq (Term.decides_correspond hinj s t)).congr ?_
      simp only [Slot.Covered, Slot.node?, SlotMap.renamed, SlotMap.comp, SlotMap.labels,
        SlotMap.normal, Option.map_some, Option.bind_some, Variable.mk.injEq, Option.some.injEq]
      exact and_left_comm

mutual

theorem Path.decides_correspond (hinj : Set.InjOn f S) : ∀ p q : Path,
    Decides f S (p.correspond q) ((∀ t ∈ p.terms, (Slot.term t).Covered S) ∧
      p.map (SlotMap.renamed f).term = q.map Term.effective)
  | .predicate s, .predicate t =>
    (Term.decides_correspond hinj s t).congr (by simp [Path.terms, Path.map])
  | .sequence ps, .sequence qs =>
    (Path.decides_correspondSteps hinj ps qs).congr (by simp [Path.terms, Path.map])
  | .predicate _, .sequence _ => Decides.of_failure.congr (by simp [Path.map])
  | .sequence _, .predicate _ => Decides.of_failure.congr (by simp [Path.map])

theorem Path.decides_correspondSteps (hinj : Set.InjOn f S) : ∀ ps qs : List Path,
    Decides f S (correspondSteps ps qs) ((∀ t ∈ termsOfSteps ps, (Slot.term t).Covered S) ∧
      mapSteps (SlotMap.renamed f).term ps = mapSteps Term.effective qs)
  | [], [] => Decides.of_pure.congr (by simp [Path.termsOfSteps, Path.mapSteps])
  | p :: ps, q :: qs => by
    refine ((Path.decides_correspond hinj p q).seq
      (Path.decides_correspondSteps hinj ps qs)).congr ?_
    rw [Path.termsOfSteps, Path.mapSteps, Path.mapSteps, List.forall_mem_append, List.cons.injEq]
    exact and_and_and_comm
  | [], _ :: _ => Decides.of_failure.congr (by simp [Path.mapSteps])
  | _ :: _, [] => Decides.of_failure.congr (by simp [Path.mapSteps])

end

mutual

theorem Expression.decides_correspond (hinj : Set.InjOn f S) : ∀ e e' : Expression,
    Decides f S (e.correspond e') ((∀ t ∈ e.terms, (Slot.term t).Covered S) ∧
      e.map (SlotMap.renamed f).term = e'.map Term.effective)
  | .term s, e' => by
    cases e' with
    | term t =>
      exact (Term.decides_correspond hinj s t).congr (by simp [Expression.terms, Expression.map])
    | _ => exact Decides.of_failure.congr (by simp [Expression.map])
  | .binary o l r, e' => by
    cases e' with
    | binary o' l' r' =>
      refine ((Decides.of_guard (o = o')).seq ((Expression.decides_correspond hinj l l').seq
        (Expression.decides_correspond hinj r r'))).congr ?_
      simp only [Expression.terms, Expression.map, List.forall_mem_append, Expression.binary.injEq]
      tauto
    | _ => exact Decides.of_failure.congr (by simp [Expression.map])
  | .unary o e, e' => by
    cases e' with
    | unary o' e' =>
      refine ((Decides.of_guard (o = o')).seq
        (Expression.decides_correspond hinj e e')).congr ?_
      simp only [Expression.terms, Expression.map, Expression.unary.injEq]
      exact and_left_comm
    | _ => exact Decides.of_failure.congr (by simp [Expression.map])
  | .call c es, e' => by
    cases e' with
    | call c' es' =>
      refine ((Decides.of_guard (c = c')).seq
        (Expression.decides_correspondAll hinj es es')).congr ?_
      simp only [Expression.terms, Expression.map, Expression.call.injEq]
      exact and_left_comm
    | _ => exact Decides.of_failure.congr (by simp [Expression.map])
  | .isIn e es negated, e' => by
    cases e' with
    | isIn e' es' negated' =>
      refine ((Decides.of_guard (negated = negated')).seq
        ((Expression.decides_correspond hinj e e').seq
          (Expression.decides_correspondAll hinj es es'))).congr ?_
      simp only [Expression.terms, Expression.map, List.forall_mem_append, Expression.isIn.injEq]
      tauto
    | _ => exact Decides.of_failure.congr (by simp [Expression.map])

theorem Expression.decides_correspondAll (hinj : Set.InjOn f S) : ∀ es es' : List Expression,
    Decides f S (correspondAll es es') ((∀ t ∈ termsOfAll es, (Slot.term t).Covered S) ∧
      mapAll (SlotMap.renamed f).term es = mapAll Term.effective es')
  | [], [] => Decides.of_pure.congr (by simp [Expression.termsOfAll, Expression.mapAll])
  | e :: es, e' :: es' => by
    refine ((Expression.decides_correspond hinj e e').seq
      (Expression.decides_correspondAll hinj es es')).congr ?_
    rw [Expression.termsOfAll, Expression.mapAll, Expression.mapAll, List.forall_mem_append,
      List.cons.injEq]
    exact and_and_and_comm
  | [], _ :: _ => Decides.of_failure.congr (by simp [Expression.mapAll])
  | _ :: _, [] => Decides.of_failure.congr (by simp [Expression.mapAll])

end

theorem Triple.decides_correspond (hinj : Set.InjOn f S) (t u : Triple) :
    Decides f S (t.correspond u) ((∀ x ∈ t.terms, (Slot.term x).Covered S) ∧
      t.map (SlotMap.renamed f).term = u.map Term.effective) := by
  refine ((Term.decides_correspond hinj t.subject u.subject).seq
    ((Path.decides_correspond hinj t.predicate u.predicate).seq
      (Term.decides_correspond hinj t.object u.object))).congr ?_
  simp only [terms, map, List.forall_mem_cons, List.forall_mem_append, Triple.mk.injEq]
  tauto

end Nodes

/-! ## Groups -/

theorem Group.strip_eq_nil_iff {g : Group} : strip g = [] ↔ g.isVacant = true := by
  induction g with
  | nil => simp [strip, isVacant]
  | cons e g ih =>
    rw [strip, isVacant, List.all_cons]
    cases he : e.isEmptyBlock with
    | true =>
      rw [if_pos rfl, ih, Bool.true_and]
      rfl
    | false => simp

theorem Group.strip_dropWhile (g : Group) : strip (g.dropWhile Element.isEmptyBlock) = strip g := by
  induction g with
  | nil => rfl
  | cons e g ih =>
    rw [List.dropWhile_cons]
    split
    · rename_i he
      rw [ih, strip, if_pos he]
    · rfl

section Groups

variable {f : String → String} {S : Set String}

mutual

theorem Element.decides_correspond (hinj : Set.InjOn f S) : ∀ e e' : Element,
    Decides f S (e.correspond e') ((∀ s ∈ e.slots, s.Covered S) ∧
      e.strip.mapSlots (.renamed f) = e'.strip.mapSlots .normal)
  | .block ts, e' => by
    cases e' with
    | block us =>
      refine (Decides.each (Triple.decides_correspond hinj) ts us).congr ?_
      simp only [Element.slots, Element.strip, Element.mapSlots, List.forall_mem_map,
        List.forall_mem_flatMap, Element.block.injEq]
      rfl
    | _ => exact Decides.of_failure.congr (by simp [Element.strip, Element.mapSlots])
  | .optional g, e' => by
    cases e' with
    | optional h =>
      refine (Group.decides_correspond hinj g h).congr ?_
      simp only [Element.slots, Element.strip, Element.mapSlots, Element.optional.injEq]
    | _ => exact Decides.of_failure.congr (by simp [Element.strip, Element.mapSlots])
  | .union gs, e' => by
    cases e' with
    | union hs =>
      refine (Group.decides_correspondAll hinj gs hs).congr ?_
      simp only [Element.slots, Element.strip, Element.mapSlots, Element.union.injEq]
    | _ => exact Decides.of_failure.congr (by simp [Element.strip, Element.mapSlots])
  | .minus g, e' => by
    cases e' with
    | minus h =>
      refine (Group.decides_correspond hinj g h).congr ?_
      simp only [Element.slots, Element.strip, Element.mapSlots, Element.minus.injEq]
    | _ => exact Decides.of_failure.congr (by simp [Element.strip, Element.mapSlots])
  | .subQuery d vs g p, e' => by
    cases e' with
    | subQuery d' vs' h q =>
      refine ((Decides.of_guard (d = d')).seq ((Decides.each (Variable.decides_correspond hinj)
        vs vs').seq (Group.decides_correspond hinj g h))).congr ?_
      simp only [Element.slots, Element.strip, Element.mapSlots, List.forall_mem_append,
        List.forall_mem_map, Element.subQuery.injEq]
      tauto
    | _ => exact Decides.of_failure.congr (by simp [Element.strip, Element.mapSlots])
  | .bind e v, e' => by
    cases e' with
    | bind e' v' =>
      refine ((Decides.of_guard (v.name = v'.name)).seq
        (Expression.decides_correspond hinj e e')).congr ?_
      have htarget : (Slot.target v).Covered S := nofun
      simp only [Element.slots, Element.strip, Element.mapSlots, List.forall_mem_append,
        List.forall_mem_map, List.forall_mem_singleton, Element.bind.injEq, Variable.unbound,
        Variable.mk.injEq, htarget, and_true]
      tauto
    | _ => exact Decides.of_failure.congr (by simp [Element.strip, Element.mapSlots])
  | .filter e, e' => by
    cases e' with
    | filter e' =>
      refine (Expression.decides_correspond hinj e e').congr ?_
      simp only [Element.slots, Element.strip, Element.mapSlots, List.forall_mem_map,
        Element.filter.injEq]
      rfl
    | _ => exact Decides.of_failure.congr (by simp [Element.strip, Element.mapSlots])

/-- A comparison of two groups decides whether the renaming has all labels of the first and makes its
normal form that of the second. -/
theorem Group.decides_correspond (hinj : Set.InjOn f S) : ∀ g h : List Element,
    Decides f S (Group.correspond g h) ((∀ s ∈ Group.slots g, s.Covered S) ∧
      Group.mapSlots (.renamed f) (Group.strip g) = Group.mapSlots .normal (Group.strip h))
  | [], h => by
    refine (Decides.of_guard _).congr ?_
    rw [← Group.strip_eq_nil_iff]
    cases hh : Group.strip h <;> simp [Group.slots, Group.strip, Group.mapSlots]
  | e :: g, h => by
    rw [Group.correspond]
    split
    · rename_i he
      have hslots : e.slots = [] := by
        rw [Element.eq_block_nil_of_isEmptyBlock he]
        rfl
      refine (Group.decides_correspond hinj g h).congr ?_
      rw [Group.slots, hslots, List.nil_append, Group.strip, if_pos he]
    · rename_i he
      rw [← Group.strip_dropWhile h, Group.strip, if_neg he]
      split
      · rename_i hd
        rw [hd]
        exact Decides.of_failure.congr (by simp [Group.strip, Group.mapSlots])
      · rename_i e' h' hd
        have he' : ¬e'.isEmptyBlock = true := by
          have hhead := List.head_dropWhile_not Element.isEmptyBlock (l := h) (by simp [hd])
          simpa [hd] using hhead
        rw [hd, Group.strip, if_neg he']
        refine ((Element.decides_correspond hinj e e').seq
          (Group.decides_correspond hinj g h')).congr ?_
        simp only [Group.slots, Group.mapSlots, List.forall_mem_append, List.cons.injEq]
        exact and_and_and_comm

theorem Group.decides_correspondAll (hinj : Set.InjOn f S) : ∀ gs hs : List (List Element),
    Decides f S (Group.correspondAll gs hs) ((∀ s ∈ Group.slotsOfAll gs, s.Covered S) ∧
      Group.mapSlotsOfAll (.renamed f) (Group.stripAll gs) =
        Group.mapSlotsOfAll .normal (Group.stripAll hs))
  | [], [] =>
    Decides.of_pure.congr (by simp [Group.slotsOfAll, Group.stripAll, Group.mapSlotsOfAll])
  | g :: gs, h :: hs => by
    refine ((Group.decides_correspond hinj g h).seq
      (Group.decides_correspondAll hinj gs hs)).congr ?_
    simp only [Group.slotsOfAll, Group.stripAll, Group.mapSlotsOfAll, List.forall_mem_append,
      List.cons.injEq]
    exact and_and_and_comm
  | [], _ :: _ => Decides.of_failure.congr (by simp [Group.stripAll, Group.mapSlotsOfAll])
  | _ :: _, [] => Decides.of_failure.congr (by simp [Group.stripAll, Group.mapSlotsOfAll])

end

end Groups

/-! ## What isomorphic patterns have in common -/

namespace Group

variable {f : String → String} {g h : Group}

theorem mapSlots_renamed (f : String → String) (g : Group) :
    mapSlots (.renamed f) (strip g) = g.normal.mapLabels f := by
  rw [normal, mapLabels, mapSlots_mapSlots, SlotMap.renamed]

theorem covered_iff {S : Set String} :
    (∀ s ∈ slots g, s.Covered S) ↔ ∀ label ∈ g.normal.labels, label ∈ S := by
  have hnodes : (∀ label ∈ g.normal.labels, label ∈ S) ↔ ∀ n ∈ g.nodes, n.label ∈ S := by
    simp only [mem_labels, nodes_normal, List.forall_mem_map]
  rw [hnodes, nodes]
  simp only [List.mem_filterMap, forall_exists_index, and_imp, Slot.Covered, Option.mem_def]
  exact ⟨fun h n s hs hn => h s hs n hn, fun h s hs n hn => h n s hs hn⟩

/-- A one-to-one renaming of the labels that makes one normal form the other is found. -/
theorem isomorphic_of_mapLabels (hinj : Set.InjOn f {label | label ∈ g.normal.labels})
    (hmap : g.normal.mapLabels f = h.normal) : g.isomorphic h = true := by
  have hdecides := (decides_correspond hinj g h).decides (Pairing.within_empty f _)
  rw [mapSlots_renamed, covered_iff] at hdecides
  obtain ⟨q, hq, _⟩ := hdecides.mp ⟨fun _ hlabel => hlabel, hmap⟩
  rw [isomorphic, StateT.run, hq]
  rfl

/-- The pairs that are noted in the end are those of a renaming. -/
theorem exists_renaming_of_isomorphic (hiso : g.isomorphic h = true) :
    ∃ f, Set.InjOn f {label | label ∈ g.normal.labels} ∧ g.normal.mapLabels f = h.normal := by
  obtain ⟨⟨_, q⟩, hq⟩ := Option.isSome_iff_exists.mp hiso
  let S : Set String := {label | (q.forward.lookup label).isSome}
  let f : String → String := fun label => (q.forward.lookup label).getD label
  have hpair : ∀ label ∈ S, q.forward.lookup label = some (f label) := by
    intro label hlabel
    obtain ⟨right, hright⟩ := Option.isSome_iff_exists.mp hlabel
    simp [f, hright]
  have hinj : Set.InjOn f S := by
    intro x hx y hy heq
    have hx' := (q.inverse _ _).mp (hpair x hx)
    have hy' := (q.inverse _ _).mp (hpair y hy)
    rw [heq, hy'] at hx'
    exact (Option.some.inj hx').symm
  have hwithin : q.Within f S := by
    intro left right hlookup
    exact ⟨Option.isSome_of_mem hlookup, by simp [f, hlookup]⟩
  have hdecides := (decides_correspond hinj g h).decides (Pairing.within_empty f S)
  rw [mapSlots_renamed, covered_iff] at hdecides
  obtain ⟨hcovered, hmap⟩ := hdecides.mpr ⟨q, hq, hwithin⟩
  exact ⟨f, hinj.mono hcovered, hmap⟩

/-- If different labels of a pattern have different images, the pattern with the images says the
same. -/
theorem isomorphic_mapLabels (hinj : Set.InjOn f {label | label ∈ g.labels}) :
    g.isomorphic (g.mapLabels f) = true := by
  refine isomorphic_of_mapLabels (hinj.mono fun label hlabel => ?_) (normal_mapLabels f g).symm
  rwa [Set.mem_ofPred_eq, mem_labels, nodes_normal, ← mem_labels] at hlabel

/-- Two patterns are isomorphic exactly if some renaming of the labels that one has in its normal form,
different labels to different ones, makes it the normal form of the other. -/
theorem isomorphic_iff_exists_renaming (g h : Group) :
    g.isomorphic h = true ↔
      ∃ f, Set.InjOn f {label | label ∈ g.normal.labels} ∧ g.normal.mapLabels f = h.normal := by
  constructor
  · exact exists_renaming_of_isomorphic
  · rintro ⟨f, hinj, hmap⟩
    exact isomorphic_of_mapLabels hinj hmap

end Group

end GraphPattern
