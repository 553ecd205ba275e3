import GraphPattern.Proofs.Pattern.Collapse
import GraphPattern.Proofs.Pattern.SlotMap
import Mathlib.Algebra.GroupWithZero.Nat
import Mathlib.Data.List.Basic

/-!
# What a counting pass makes and counts

Without its counts, a pass over a group removes `BIND`s first and replaces the slots that are left
afterwards (`Group.value_pass`). What it counts is the sum over exactly those slots and over the
elements that it removes, in whatever scope of the group they stand (`Group.measure_pass`).
-/

namespace GraphPattern

/-! ## The scopes of a group -/

mutual

/-- The groups that an element opens, at every depth. -/
def Element.scopes : Element → List (List Element)
  | .block _ => []
  | .optional g => g :: Group.innerScopes g
  | .union gs => Group.scopesOfAll gs
  | .minus g => g :: Group.innerScopes g
  | .subQuery _ _ g _ => g :: Group.innerScopes g
  | .bind _ _ => []
  | .filter _ => []

/-- The groups that the elements of a group open, at every depth. -/
def Group.innerScopes : List Element → List (List Element)
  | [] => []
  | e :: g => Element.scopes e ++ Group.innerScopes g

/-- Several groups, and those that their elements open. -/
def Group.scopesOfAll : List (List Element) → List (List Element)
  | [] => []
  | g :: gs => g :: (Group.innerScopes g ++ Group.scopesOfAll gs)

end

namespace Group

/-- A group and all groups below it. -/
def scopes (g : Group) : List Group := g :: innerScopes g

/-- The elements of a group and of all groups below it. -/
def allElements (g : Group) : List Element := g.scopes.flatten

theorem countP_allElements_cons (P : Element → Bool) (e : Element) (g : Group) :
    List.countP P (allElements (e :: g)) =
      (if P e then 1 else 0) + e.scopes.flatten.countP P + g.allElements.countP P := by
  simp only [allElements, scopes, innerScopes, List.flatten_cons, List.flatten_append,
    List.cons_append, List.countP_cons, List.countP_append]
  omega

theorem flatten_scopesOfAll_cons (g : Group) (gs : List Group) :
    (scopesOfAll (g :: gs)).flatten = g.allElements ++ (scopesOfAll gs).flatten := by
  rw [scopesOfAll, ← List.cons_append, List.flatten_append]
  rfl

end Group

/-- A `BIND` opens no group. -/
theorem Element.scopes_eq_nil_of_isBindOf {name : String} {e : Element}
    (h : e.isBindOf name = true) : e.scopes = [] := by
  cases e with
  | bind x v => rfl
  | _ => cases h

/-! ## What is left, and what is counted for it -/

namespace Pass

section Keep

variable {κ : Type} (p : Pass κ)

/-- The element without what is removed below it. -/
def keep (e : Element) : Element := p.removed.elim e (e.withoutBinds ·)

/-- The elements of a group that are not removed, without what is removed below them. -/
def keepInside (g : List Element) : List Element := p.removed.elim g (Group.otherElements · g)

/-- The groups without what is removed from them. -/
def keepAll (gs : List (List Element)) : List (List Element) :=
  p.removed.elim gs (Group.withoutBindsAll · gs)

/-- The group without what is removed from it. -/
def keepGroup (g : Group) : Group := p.removed.elim g (Group.withoutBinds · g)

theorem keepGroup_eq (g : Group) : p.keepGroup g = Group.refill g (p.keepInside g) := by
  unfold keepGroup keepInside
  cases p.removed with
  | none => exact (Group.refill_self g).symm
  | some name => rfl

/-- Below an element the pass removes what it removes from the groups that the element opens. -/
theorem keep_eq (e : Element) : p.keep e =
    match e with
    | .optional g => .optional (p.keepGroup g)
    | .union gs => .union (p.keepAll gs)
    | .minus g => .minus (p.keepGroup g)
    | .subQuery d vs g ps => .subQuery d vs (p.keepGroup g) ps
    | e => e := by
  unfold keep keepAll keepGroup
  cases p.removed with
  | none => cases e <;> rfl
  | some name => cases e <;> rfl

theorem keepInside_nil : p.keepInside [] = [] := by
  unfold keepInside
  cases p.removed <;> rfl

theorem keepInside_cons_of_removes {e : Element} (h : p.removes e = true) (g : List Element) :
    p.keepInside (e :: g) = p.keepInside g := by
  unfold keepInside
  unfold removes at h
  cases hp : p.removed with
  | none =>
    rw [hp] at h
    cases h
  | some name =>
    rw [hp] at h
    exact Group.otherElements_cons_of_isBindOf h g

theorem keepInside_cons_of_not_removes {e : Element} (h : ¬p.removes e = true)
    (g : List Element) : p.keepInside (e :: g) = p.keep e :: p.keepInside g := by
  unfold keepInside keep
  unfold removes at h
  cases hp : p.removed with
  | none => rfl
  | some name =>
    rw [hp] at h
    exact Group.otherElements_cons_of_not_isBindOf (Bool.not_eq_true _ ▸ h) g

theorem keepAll_nil : p.keepAll [] = [] := by
  unfold keepAll
  cases p.removed <;> rfl

theorem keepAll_cons (g : List Element) (gs : List (List Element)) :
    p.keepAll (g :: gs) = p.keepGroup g :: p.keepAll gs := by
  unfold keepAll keepGroup
  cases p.removed <;> rfl

end Keep

variable {κ : Type}

/-- What the pass puts in the slots. -/
def slotMap (p : Pass κ) : SlotMap where
  term t := (p.term t).value
  projected v := (p.projected v).value

/-- What the pass counts for a slot. -/
def weight [OfNat κ 0] (p : Pass κ) : Slot → κ
  | .term t => (p.term t).count
  | .projected v => (p.projected v).count
  | .target _ => 0

theorem slots_keepGroup (p : Pass κ) (g : Group) :
    Group.slots (p.keepGroup g) = Group.slots (p.keepInside g) := by
  rw [keepGroup_eq, Group.slots_refill]

/-- An empty block comes in where nothing is left, whether slots are replaced before or after. -/
theorem mapSlots_keepGroup (p : Pass κ) (m : SlotMap) (g : Group) :
    Group.mapSlots m (p.keepGroup g) = Group.refill g (Group.mapSlots m (p.keepInside g)) := by
  rw [keepGroup_eq, Group.mapSlots_refill]
  cases g <;> rfl

theorem scopes_eq_nil_of_removes {p : Pass κ} {e : Element} (h : p.removes e = true) :
    e.scopes = [] := by
  unfold removes at h
  obtain ⟨name, _, hname⟩ := (Option.any_eq_true _ _).mp h
  exact Element.scopes_eq_nil_of_isBindOf hname

/-! ## Sums over slots -/

section Total

variable [OfNat κ 0] (p : Pass κ) (φ : κ → Nat)

/-- What the pass counts for some slots. -/
def total (slots : List Slot) : Nat := (slots.map fun s => φ (p.weight s)).sum

theorem total_append (slots more : List Slot) :
    p.total φ (slots ++ more) = p.total φ slots + p.total φ more := by
  rw [total, List.map_append, List.sum_append]
  rfl

theorem total_terms (ts : List Term) :
    p.total φ (ts.map .term) = (ts.map fun t => φ (p.term t).count).sum := by
  rw [total, List.map_map]
  rfl

theorem total_projected (vs : List Variable) :
    p.total φ (vs.map .projected) = (vs.map fun v => φ (p.projected v).count).sum := by
  rw [total, List.map_map]
  rfl

theorem total_eq_countP {p : Pass κ} {φ : κ → Nat} {P : Slot → Bool}
    (h : ∀ s, φ (p.weight s) = if P s then 1 else 0) (slots : List Slot) :
    p.total φ slots = slots.countP P := by
  induction slots with
  | nil => rfl
  | cons s slots ih =>
    rw [List.countP_cons, ← ih, ← h, Nat.add_comm]
    rfl

end Total

end Pass

section Counts

variable {κ : Type} [OfNat κ 0] [Add κ]

/-! ## The pattern that is made -/

theorem Counted.value_each {α β : Type} (f : α → Counted κ β) (as : List α) :
    (each f as).value = as.map fun a => (f a).value := by
  induction as with
  | nil => rfl
  | cons a as ih => exact congrArg ((f a).value :: ·) ih

section Values

variable (f : Term → Counted κ Term)

mutual

theorem Path.value_pass : ∀ p : Path, (p.pass f).value = p.map fun t => (f t).value
  | .predicate _ => rfl
  | .sequence ps => congrArg Path.sequence (Path.value_passSteps ps)

theorem Path.value_passSteps : ∀ ps : List Path,
    (Path.passSteps f ps).value = Path.mapSteps (fun t => (f t).value) ps
  | [] => rfl
  | p :: ps => congrArg₂ List.cons (Path.value_pass p) (Path.value_passSteps ps)

end

mutual

theorem Expression.value_pass :
    ∀ e : Expression, (e.pass f).value = e.map fun t => (f t).value
  | .term _ => rfl
  | .binary op l r =>
    congrArg₂ (Expression.binary op) (Expression.value_pass l) (Expression.value_pass r)
  | .unary op e => congrArg (Expression.unary op) (Expression.value_pass e)
  | .call c es => congrArg (Expression.call c) (Expression.value_passAll es)
  | .isIn e es n =>
    congrArg₂ (Expression.isIn · · n) (Expression.value_pass e) (Expression.value_passAll es)

theorem Expression.value_passAll : ∀ es : List Expression,
    (Expression.passAll f es).value = Expression.mapAll (fun t => (f t).value) es
  | [] => rfl
  | e :: es => congrArg₂ List.cons (Expression.value_pass e) (Expression.value_passAll es)

end

theorem Triple.value_pass (t : Triple) : (t.pass f).value = t.map fun t => (f t).value :=
  congrArg (Triple.mk _ · _) (Path.value_pass f t.predicate)

end Values

section Groups

variable (p : Pass κ)

mutual

theorem Element.value_pass : ∀ e : Element, (e.pass p).value = (p.keep e).mapSlots p.slotMap
  | .block ts => by
    rw [p.keep_eq]
    refine congrArg Element.block ((Counted.value_each _ ts).trans ?_)
    exact List.map_congr_left fun t _ => Triple.value_pass p.term t
  | .optional g => by
    rw [p.keep_eq, Element.mapSlots, p.mapSlots_keepGroup, ← Group.value_passInside g]
    rfl
  | .union gs => by
    rw [p.keep_eq, Element.mapSlots, ← Group.value_passAll gs]
    rfl
  | .minus g => by
    rw [p.keep_eq, Element.mapSlots, p.mapSlots_keepGroup, ← Group.value_passInside g]
    rfl
  | .subQuery d vs g ps => by
    rw [p.keep_eq, Element.mapSlots, p.mapSlots_keepGroup, ← Group.value_passInside g]
    exact congrArg (Element.subQuery d · _ ps) (Counted.value_each p.projected vs)
  | .bind e v => by
    rw [p.keep_eq]
    exact congrArg (Element.bind · v) (Expression.value_pass p.term e)
  | .filter e => by
    rw [p.keep_eq]
    exact congrArg Element.filter (Expression.value_pass p.term e)

theorem Group.value_passInside : ∀ g : List Element,
    (Group.passInside p g).value = Group.mapSlots p.slotMap (p.keepInside g)
  | [] => by
    rw [p.keepInside_nil]
    rfl
  | e :: g => by
    rw [Group.passInside]
    split
    · rename_i h
      rw [p.keepInside_cons_of_removes h]
      exact Group.value_passInside g
    · rename_i h
      rw [p.keepInside_cons_of_not_removes h]
      exact congrArg₂ List.cons (Element.value_pass e) (Group.value_passInside g)

theorem Group.value_passAll : ∀ gs : List (List Element),
    (Group.passAll p gs).value = Group.mapSlotsOfAll p.slotMap (p.keepAll gs)
  | [] => by
    rw [p.keepAll_nil]
    rfl
  | g :: gs => by
    rw [p.keepAll_cons, Group.mapSlotsOfAll, p.mapSlots_keepGroup, ← Group.value_passInside g,
      ← Group.value_passAll gs]
    rfl

end

/-- The pass makes what is made by removing first and replacing the slots that are left. -/
theorem Group.value_pass (g : Group) :
    (g.pass p).value = mapSlots p.slotMap (p.keepGroup g) := by
  rw [p.mapSlots_keepGroup, ← value_passInside]
  rfl

end Groups

/-! ## What is counted -/

/-- Whether a number that is read off what was counted adds up with it. -/
structure Counted.IsMeasure (φ : κ → Nat) : Prop where
  zero : φ 0 = 0
  add : ∀ m n, φ (m + n) = φ m + φ n

variable {φ : κ → Nat}

theorem Counted.IsMeasure.both (hφ : IsMeasure φ) {α β γ : Type} (f : α → β → γ)
    (c : Counted κ α) (d : Counted κ β) : φ (both f c d).count = φ c.count + φ d.count :=
  hφ.add c.count d.count

theorem Counted.IsMeasure.each (hφ : IsMeasure φ) {α β : Type} (f : α → Counted κ β)
    (as : List α) : φ (Counted.each f as).count = (as.map fun a => φ (f a).count).sum := by
  induction as with
  | nil => exact hφ.zero
  | cons a as ih => rw [Counted.each, hφ.both, ih, List.map_cons, List.sum_cons]

section Terms

variable (f : Term → Counted κ Term)

mutual

theorem Path.measure_pass (hφ : Counted.IsMeasure φ) :
    ∀ p : Path, φ (p.pass f).count = (p.terms.map fun t => φ (f t).count).sum
  | .predicate t => by simp [Path.pass, Path.terms, Counted.map]
  | .sequence ps => Path.measure_passSteps hφ ps

theorem Path.measure_passSteps (hφ : Counted.IsMeasure φ) : ∀ ps : List Path,
    φ (Path.passSteps f ps).count = ((Path.termsOfSteps ps).map fun t => φ (f t).count).sum
  | [] => hφ.zero
  | p :: ps => by
    rw [Path.passSteps, hφ.both, Path.measure_pass hφ p, Path.measure_passSteps hφ ps,
      Path.termsOfSteps, List.map_append, List.sum_append]

end

mutual

theorem Expression.measure_pass (hφ : Counted.IsMeasure φ) :
    ∀ e : Expression, φ (e.pass f).count = (e.terms.map fun t => φ (f t).count).sum
  | .term t => by simp [Expression.pass, Expression.terms, Counted.map]
  | .binary _ l r => by
    rw [Expression.pass, hφ.both, Expression.measure_pass hφ l, Expression.measure_pass hφ r,
      Expression.terms, List.map_append, List.sum_append]
  | .unary _ e => Expression.measure_pass hφ e
  | .call _ es => Expression.measure_passAll hφ es
  | .isIn e es _ => by
    rw [Expression.pass, hφ.both, Expression.measure_pass hφ e, Expression.measure_passAll hφ es,
      Expression.terms, List.map_append, List.sum_append]

theorem Expression.measure_passAll (hφ : Counted.IsMeasure φ) : ∀ es : List Expression,
    φ (Expression.passAll f es).count =
      ((Expression.termsOfAll es).map fun t => φ (f t).count).sum
  | [] => hφ.zero
  | e :: es => by
    rw [Expression.passAll, hφ.both, Expression.measure_pass hφ e,
      Expression.measure_passAll hφ es, Expression.termsOfAll, List.map_append, List.sum_append]

end

theorem Triple.measure_pass (hφ : Counted.IsMeasure φ) (t : Triple) :
    φ (t.pass f).count = (t.terms.map fun t => φ (f t).count).sum := by
  rw [pass, hφ.both, hφ.both, Path.measure_pass f hφ, terms]
  simp

theorem Triple.measure_each (hφ : Counted.IsMeasure φ) (ts : List Triple) :
    φ (Counted.each (Triple.pass f) ts).count =
      ((ts.flatMap terms).map fun t => φ (f t).count).sum := by
  rw [hφ.each]
  induction ts with
  | nil => rfl
  | cons t ts ih =>
    rw [List.map_cons, List.sum_cons, ih, measure_pass f hφ, List.flatMap_cons, List.map_append,
      List.sum_append]

end Terms

section Groups

variable (p : Pass κ)

mutual

theorem Element.measure_pass (hφ : Counted.IsMeasure φ) : ∀ e : Element,
    φ (e.pass p).count = p.total φ (p.keep e).slots +
      e.scopes.flatten.countP p.removes * φ p.removal
  | .block ts => by
    rw [p.keep_eq, Element.slots, p.total_terms, ← Triple.measure_each p.term hφ]
    simp [Element.pass, Counted.map, Element.scopes]
  | .optional g => by
    rw [p.keep_eq, Element.slots, p.slots_keepGroup]
    exact Group.measure_passInside hφ g
  | .union gs => by
    rw [p.keep_eq, Element.slots]
    exact Group.measure_passAll hφ gs
  | .minus g => by
    rw [p.keep_eq, Element.slots, p.slots_keepGroup]
    exact Group.measure_passInside hφ g
  | .subQuery _ vs g _ => by
    rw [p.keep_eq, Element.slots, p.slots_keepGroup, p.total_append, p.total_projected,
      Element.pass, hφ.both, hφ.each, Group.measure_passInside hφ g, Nat.add_assoc]
    rfl
  | .bind e v => by
    rw [p.keep_eq, Element.slots, p.total_append, p.total_terms,
      ← Expression.measure_pass p.term hφ]
    simp [Element.pass, Counted.map, Element.scopes, Pass.total, Pass.weight, hφ.zero]
  | .filter e => by
    rw [p.keep_eq, Element.slots, p.total_terms, ← Expression.measure_pass p.term hφ]
    simp [Element.pass, Counted.map, Element.scopes]

theorem Group.measure_passInside (hφ : Counted.IsMeasure φ) : ∀ g : List Element,
    φ (Group.passInside p g).count = p.total φ (Group.slots (p.keepInside g)) +
      (Group.allElements g).countP p.removes * φ p.removal
  | [] => by
    rw [p.keepInside_nil, Group.passInside, hφ.zero]
    simp [Group.slots, Group.allElements, Group.scopes, Group.innerScopes, Pass.total]
  | e :: g => by
    rw [Group.passInside, Group.countP_allElements_cons]
    split
    · rename_i h
      rw [p.keepInside_cons_of_removes h, hφ.both, Group.measure_passInside hφ g,
        Pass.scopes_eq_nil_of_removes h, List.flatten_nil, List.countP_nil, Nat.add_zero,
        Nat.add_mul, Nat.one_mul]
      exact Nat.add_left_comm _ _ _
    · rename_i h
      rw [p.keepInside_cons_of_not_removes h, hφ.both, Element.measure_pass hφ e,
        Group.measure_passInside hφ g, Group.slots, p.total_append, Nat.zero_add, Nat.add_mul]
      exact Nat.add_add_add_comm _ _ _ _

theorem Group.measure_passAll (hφ : Counted.IsMeasure φ) : ∀ gs : List (List Element),
    φ (Group.passAll p gs).count = p.total φ (Group.slotsOfAll (p.keepAll gs)) +
      (Group.scopesOfAll gs).flatten.countP p.removes * φ p.removal
  | [] => by
    rw [p.keepAll_nil, Group.passAll, hφ.zero]
    simp [Group.slotsOfAll, Group.scopesOfAll, Pass.total]
  | g :: gs => by
    rw [p.keepAll_cons, Group.slotsOfAll, p.total_append, p.slots_keepGroup, Group.passAll,
      hφ.both, Group.measure_passAll hφ gs, Group.flatten_scopesOfAll_cons, List.countP_append,
      Nat.add_mul, Nat.add_add_add_comm]
    exact congrArg (· + _) (Group.measure_passInside hφ g)

end

/-- The pass counts the slots that are left, and the elements that it removes from the scopes of the
group. -/
theorem Group.measure_pass (hφ : Counted.IsMeasure φ) (g : Group) :
    φ (g.pass p).count = p.total φ (slots (p.keepGroup g)) +
      g.allElements.countP p.removes * φ p.removal := by
  rw [p.slots_keepGroup]
  exact measure_passInside p hφ g

end Groups

end Counts

end GraphPattern
