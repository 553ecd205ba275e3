import GraphPattern.Proofs.Pattern.Normal
import GraphPattern.Proofs.Pattern.Shape

/-!
# How triples are divided into blocks

Two patterns can divide the same triples into blocks in different ways: `Group.joinBlocks` makes one
block of blocks that follow one another, `Group.spread` a block of each triple. What a pattern says,
with its blocks joined, can be found from the spread pattern (`Group.joinBlocks_normal`).
-/

namespace GraphPattern

/-! ## Joined blocks -/

/-- The group with an element before it, as one with the first element if both are blocks. -/
def Group.consJoining : Element → List Element → List Element
  | .block ts, .block us :: g => .block (ts ++ us) :: g
  | e, g => e :: g

mutual

/-- The element with blocks that follow one another below it as one block. -/
def Element.joinBlocks : Element → Element
  | .block ts => .block ts
  | .optional g => .optional (Group.joinBlocks g)
  | .union gs => .union (Group.joinBlocksOfAll gs)
  | .minus g => .minus (Group.joinBlocks g)
  | .subQuery d vs g p => .subQuery d vs (Group.joinBlocks g) p
  | .bind e v => .bind e v
  | .filter e => .filter e

/-- The group with blocks that follow one another as one block, at every depth. -/
def Group.joinBlocks : List Element → List Element
  | [] => []
  | e :: g => Group.consJoining (Element.joinBlocks e) (Group.joinBlocks g)

/-- The groups with blocks that follow one another as one block. -/
def Group.joinBlocksOfAll : List (List Element) → List (List Element)
  | [] => []
  | g :: gs => Group.joinBlocks g :: Group.joinBlocksOfAll gs

end

namespace Group

theorem consJoining_block_block (ts us : List Triple) (g : Group) :
    consJoining (.block ts) (consJoining (.block us) g) = consJoining (.block (ts ++ us)) g := by
  match g with
  | [] => rfl
  | .block vs :: g => simp only [consJoining, List.append_assoc]
  | .optional _ :: _ | .union _ :: _ | .minus _ :: _ | .subQuery _ _ _ _ :: _ | .bind _ _ :: _
  | .filter _ :: _ => rfl

theorem consJoining_mapSlots (m : SlotMap) (e : Element) (g : Group) :
    consJoining (e.mapSlots m) (mapSlots m g) = mapSlots m (consJoining e g) := by
  cases e with
  | block ts =>
    match g with
    | [] => rfl
    | .block us :: g => simp only [mapSlots, Element.mapSlots, consJoining, List.map_append]
    | .optional _ :: _ | .union _ :: _ | .minus _ :: _ | .subQuery _ _ _ _ :: _ | .bind _ _ :: _
    | .filter _ :: _ => rfl
  | _ => rfl

end Group

section Slots

variable (m : SlotMap)

mutual

theorem Element.joinBlocks_mapSlots :
    ∀ e : Element, (e.mapSlots m).joinBlocks = e.joinBlocks.mapSlots m
  | .block _ => rfl
  | .optional g => congrArg Element.optional (Group.joinBlocks_mapSlots g)
  | .union gs => congrArg Element.union (Group.joinBlocksOfAll_mapSlotsOfAll gs)
  | .minus g => congrArg Element.minus (Group.joinBlocks_mapSlots g)
  | .subQuery d vs g p =>
    congrArg (Element.subQuery d (vs.map m.projected) · p) (Group.joinBlocks_mapSlots g)
  | .bind _ _ => rfl
  | .filter _ => rfl

/-- Which blocks are joined does not depend on what the slots hold. -/
theorem Group.joinBlocks_mapSlots : ∀ g : List Element,
    Group.joinBlocks (Group.mapSlots m g) = Group.mapSlots m (Group.joinBlocks g)
  | [] => rfl
  | e :: g => by
    rw [Group.mapSlots, Group.joinBlocks, Group.joinBlocks, Element.joinBlocks_mapSlots e,
      Group.joinBlocks_mapSlots g, Group.consJoining_mapSlots]

theorem Group.joinBlocksOfAll_mapSlotsOfAll : ∀ gs : List (List Element),
    Group.joinBlocksOfAll (Group.mapSlotsOfAll m gs) =
      Group.mapSlotsOfAll m (Group.joinBlocksOfAll gs)
  | [] => rfl
  | g :: gs => by
    rw [Group.mapSlotsOfAll, Group.joinBlocksOfAll, Group.joinBlocksOfAll,
      Group.joinBlocks_mapSlots g, Group.joinBlocksOfAll_mapSlotsOfAll gs, Group.mapSlotsOfAll]

end

end Slots

/-! ## A block for each triple -/

mutual

/-- The element, a block as one block for each triple, without what is stripped for a normal form. -/
def Element.spread : Element → List Element
  | .block ts => ts.map fun t => .block [t]
  | .optional g => [.optional (Group.spread g)]
  | .union gs => [.union (Group.spreadAll gs)]
  | .minus g => [.minus (Group.spread g)]
  | .subQuery d vs g _ => [.subQuery d vs (Group.spread g) .empty]
  | .bind e v => [.bind e v.unbound]
  | .filter e => [.filter e]

/-- The group with a block for each triple, at every depth, without what is stripped for a normal
form. -/
def Group.spread : List Element → List Element
  | [] => []
  | e :: g => Element.spread e ++ Group.spread g

/-- The groups with a block for each triple. -/
def Group.spreadAll : List (List Element) → List (List Element)
  | [] => []
  | g :: gs => Group.spread g :: Group.spreadAll gs

end

mutual

theorem Element.joinBlocks_spread :
    ∀ e : Element, e.isEmptyBlock = false → ∀ g : List Element,
      Group.joinBlocks (e.spread ++ g) = Group.consJoining e.strip.joinBlocks (Group.joinBlocks g)
  | .block [], h, _ => absurd h (by decide)
  | .block (t :: ts), hempty, g => by
    rw [Element.spread, Element.strip, Element.joinBlocks]
    clear hempty
    -- the block of the first triple is joined with what the others have been joined to
    induction ts generalizing t with
    | nil => rfl
    | cons u us ih =>
      rw [List.map_cons, List.cons_append, Group.joinBlocks, ih u, Element.joinBlocks,
        Group.consJoining_block_block]
      rfl
  | .optional g, _, h => by
    rw [Element.spread, List.singleton_append, Group.joinBlocks, Element.joinBlocks,
      Group.joinBlocks_spread g, Element.strip, Element.joinBlocks]
  | .union gs, _, h => by
    rw [Element.spread, List.singleton_append, Group.joinBlocks, Element.joinBlocks,
      Group.joinBlocksOfAll_spreadAll gs, Element.strip, Element.joinBlocks]
  | .minus g, _, h => by
    rw [Element.spread, List.singleton_append, Group.joinBlocks, Element.joinBlocks,
      Group.joinBlocks_spread g, Element.strip, Element.joinBlocks]
  | .subQuery d vs g p, _, h => by
    rw [Element.spread, List.singleton_append, Group.joinBlocks, Element.joinBlocks,
      Group.joinBlocks_spread g, Element.strip, Element.joinBlocks]
  | .bind _ _, _, _ => rfl
  | .filter _, _, _ => rfl

/-- The blocks of a spread group are joined to those of the stripped group. -/
theorem Group.joinBlocks_spread : ∀ g : List Element,
    Group.joinBlocks (Group.spread g) = Group.joinBlocks (Group.strip g)
  | [] => rfl
  | e :: g => by
    rw [Group.spread, Group.strip]
    cases hempty : e.isEmptyBlock with
    | true =>
      rw [Element.eq_block_nil_of_isEmptyBlock hempty, Element.spread, List.map_nil, List.nil_append,
        Group.joinBlocks_spread g, if_pos rfl]
    | false =>
      rw [Element.joinBlocks_spread e hempty, Group.joinBlocks_spread g, if_neg Bool.false_ne_true,
        Group.joinBlocks]

theorem Group.joinBlocksOfAll_spreadAll : ∀ gs : List (List Element),
    Group.joinBlocksOfAll (Group.spreadAll gs) = Group.joinBlocksOfAll (Group.stripAll gs)
  | [] => rfl
  | g :: gs => by
    rw [Group.spreadAll, Group.stripAll, Group.joinBlocksOfAll, Group.joinBlocksOfAll,
      Group.joinBlocks_spread g, Group.joinBlocksOfAll_spreadAll gs]

end

/-- The spread group, with its slots as in the normal form, is the normal form but for the blocks. -/
theorem Group.joinBlocks_normal (g : Group) :
    joinBlocks g.normal = joinBlocks (mapSlots .normal (spread g)) := by
  rw [normal, joinBlocks_mapSlots, joinBlocks_mapSlots, joinBlocks_spread]

/-! ## What spreading keeps -/

section Everywhere

variable {P Q : Element → Prop}

mutual

theorem Element.everywhere_spread (h : ∀ e, P e → ∀ f ∈ e.spread, Q f) :
    ∀ e : Element, e.Everywhere P → Group.Everywhere Q e.spread
  | .block ts, he => by
    have hts : ∀ t ∈ ts, Q (.block [t]) := fun t ht => h _ he _ (List.mem_map_of_mem ht)
    clear he
    induction ts with
    | nil => trivial
    | cons t ts ih =>
      rw [List.forall_mem_cons] at hts
      exact ⟨hts.1, ih hts.2⟩
  | .optional g, he =>
    ⟨⟨h _ he.1 _ (List.mem_singleton_self _), Group.everywhere_spread h g he.2⟩, trivial⟩
  | .union gs, he =>
    ⟨⟨h _ he.1 _ (List.mem_singleton_self _), Group.everywhereInAll_spreadAll h gs he.2⟩, trivial⟩
  | .minus g, he =>
    ⟨⟨h _ he.1 _ (List.mem_singleton_self _), Group.everywhere_spread h g he.2⟩, trivial⟩
  | .subQuery d vs g p, he =>
    ⟨⟨h _ he.1 _ (List.mem_singleton_self _), Group.everywhere_spread h g he.2⟩, trivial⟩
  | .bind e v, he => ⟨h _ he _ (List.mem_singleton_self _), trivial⟩
  | .filter e, he => ⟨h _ he _ (List.mem_singleton_self _), trivial⟩

/-- What spreading makes of single elements, it makes of all elements of a group. -/
theorem Group.everywhere_spread (h : ∀ e, P e → ∀ f ∈ e.spread, Q f) :
    ∀ g : List Element, Group.Everywhere P g → Group.Everywhere Q (Group.spread g)
  | [], _ => trivial
  | e :: g, hg => Group.everywhere_append.mpr
      ⟨Element.everywhere_spread h e hg.1, Group.everywhere_spread h g hg.2⟩

theorem Group.everywhereInAll_spreadAll (h : ∀ e, P e → ∀ f ∈ e.spread, Q f) :
    ∀ gs : List (List Element), Group.EverywhereInAll P gs →
      Group.EverywhereInAll Q (Group.spreadAll gs)
  | [], _ => trivial
  | g :: gs, hgs =>
    ⟨Group.everywhere_spread h g hgs.1, Group.everywhereInAll_spreadAll h gs hgs.2⟩

end

end Everywhere

end GraphPattern
