import Mathlib.Data.List.Induction
import Mathlib.Data.List.SplitBy
import GraphPattern.Proofs.Pattern.Growth

/-!
# Runs of elements

Blocks that follow one another are one block, and unions that follow one another are one union:
`Group.joined` makes one element of each longest run of such elements. A group that is built from its
start by joining each element with the last one, where they join, is joined in this sense
(`Group.joined_concat`). To join loses no triple and no alternative and does not change their order, and
what is done to each element can be done before or after (`Group.joined_map`).
-/

namespace GraphPattern

namespace Element

/-- The alternatives of a union, none of any other element. -/
def alternatives : Element → List Group
  | .union gs => gs
  | _ => []

/-- Whether the element joins one that follows it: both are blocks, or both are unions. -/
def joins : Element → Element → Bool
  | .block _, .block _ => true
  | .union _, .union _ => true
  | _, _ => false

/-- Whether the element is what one call adds: a block has triples, and a union one alternative. -/
def IsOwn : Element → Prop
  | .block ts => ts ≠ []
  | .union gs => gs.length = 1
  | _ => True

/-- Two blocks or two unions as one. -/
def join : Element → Element → Element
  | .block ts, .block us => .block (ts ++ us)
  | .union gs, .union hs => .union (gs ++ hs)
  | e, _ => e

/-- The elements of a run as one. -/
def ofRun : List Element → Element
  | [] => .block []
  | e :: es => es.foldl join e

variable {a b : Element}

theorem joins_iff : a.joins b = true ↔
    (∃ ts us, a = .block ts ∧ b = .block us) ∨ ∃ gs hs, a = .union gs ∧ b = .union hs := by
  cases a <;> cases b <;> simp [joins]

theorem joins_join (h : a.joins b = true) (e : Element) : (a.join b).joins e = b.joins e := by
  obtain ⟨ts, us, rfl, rfl⟩ | ⟨gs, hs, rfl, rfl⟩ := joins_iff.mp h
  · cases e <;> rfl
  · cases e <;> rfl

theorem join_eq_self (h : a.joins b = false) : a.join b = a := by
  cases a <;> cases b <;> first | rfl | cases h

theorem triples_join (h : a.joins b = true) : (a.join b).triples = a.triples ++ b.triples := by
  obtain ⟨ts, us, rfl, rfl⟩ | ⟨gs, hs, rfl, rfl⟩ := joins_iff.mp h
  · rfl
  · rfl

theorem alternatives_join (h : a.joins b = true) :
    (a.join b).alternatives = a.alternatives ++ b.alternatives := by
  obtain ⟨ts, us, rfl, rfl⟩ | ⟨gs, hs, rfl, rfl⟩ := joins_iff.mp h
  · rfl
  · rfl

theorem ofRun_concat {run : List Element} (h : run ≠ []) (e : Element) :
    ofRun (run ++ [e]) = (ofRun run).join e := by
  cases run with
  | nil => exact absurd rfl h
  | cons a es => exact List.foldl_concat _ _ _ _

/-- A run joins what its last element joins. -/
theorem joins_ofRun {run : List Element} (hrun : run.IsChain fun a b => a.joins b = true)
    {last : Element} (hlast : run.getLast? = some last) (e : Element) :
    (ofRun run).joins e = last.joins e := by
  induction run using List.reverseRecOn generalizing last e with
  | nil => cases hlast
  | append_singleton run l ih =>
    obtain rfl : l = last := by simpa using hlast
    rcases List.eq_nil_or_concat' run with rfl | ⟨front, l', rfl⟩
    · rfl
    · obtain ⟨hfront, -, hjoins⟩ := List.isChain_append.mp hrun
      have hl : l'.joins l = true := hjoins l' (by simp) l (by simp)
      have hprev : ∀ e, (ofRun (front ++ [l'])).joins e = l'.joins e := fun e =>
        ih hfront (by simp) e
      rw [ofRun_concat (by simp), joins_join (by rw [hprev, hl])]

end Element

namespace Group

/-- The group with an element at its end, as one with the last element where they join. -/
def pushJoining (g : Group) (e : Element) : Group :=
  match g.getLast? with
  | some last => if last.joins e then g.dropLast ++ [last.join e] else g ++ [e]
  | none => [e]

/-- The elements with each longest run of blocks as one block, and each longest run of unions as one
union. -/
def joined (es : List Element) : Group := (es.splitBy Element.joins).map Element.ofRun

theorem pushJoining_nil (e : Element) : pushJoining [] e = [e] := rfl

theorem pushJoining_concat (g : Group) (last e : Element) :
    pushJoining (g ++ [last]) e =
      if last.joins e then g ++ [last.join e] else g ++ [last] ++ [e] := by
  rw [pushJoining, List.getLast?_concat]
  dsimp only
  rw [List.dropLast_concat]

/-- The runs of a list that grows: the new element belongs to the last run, or it starts one. -/
theorem splitBy_concat {α : Type} {r : α → α → Bool} {es : List α} {front : List (List α)}
    {run : List α} {last : α} (h : es.splitBy r = front ++ [run]) (hlast : run.getLast? = some last)
    (e : α) :
    (es ++ [e]).splitBy r =
      if r last e then front ++ [run ++ [e]] else front ++ [run] ++ [[e]] := by
  obtain ⟨hes, hnil, hchain, hbounds⟩ := List.splitBy_eq_iff.mp h
  rw [List.flatten_append, List.flatten_singleton] at hes
  rw [List.mem_append, List.mem_singleton, not_or] at hnil
  rw [List.forall_mem_append, List.forall_mem_singleton] at hchain
  simp only [List.isChain_append, List.head?_singleton, Option.mem_some_iff, forall_eq'] at hbounds
  obtain ⟨hfront, -, hbound⟩ := hbounds
  split
  · rename_i hr
    have hrun : (run ++ [e]).IsChain fun x y => r x y = true := by
      refine List.isChain_append.mpr ⟨hchain.2, List.isChain_singleton e, fun x hx y hy => ?_⟩
      obtain rfl : last = x := by simpa [hlast] using hx
      obtain rfl : e = y := by simpa using hy
      exact hr
    have hhead : ∀ hne, (run ++ [e]).head hne = run.head (Ne.symm hnil.2) := fun _ =>
      List.head_append_of_ne_nil _
    rw [List.splitBy_eq_iff]
    refine ⟨by simp [hes], by simp [hnil.1], ?_, ?_⟩
    · exact List.forall_mem_append.mpr ⟨hchain.1, by simpa using hrun⟩
    · refine List.isChain_append.mpr ⟨hfront, List.isChain_singleton _, fun m hm y hy => ?_⟩
      obtain rfl : run ++ [e] = y := by simpa using hy
      obtain ⟨hm, hne, hout⟩ := hbound m hm
      exact ⟨hm, by simp, by rw [hhead]; exact hout⟩
  · rename_i hr
    have hend : es.getLast? = some last := by rw [hes, List.getLast?_append, hlast]; rfl
    rw [List.splitBy_append_cons, h]
    · rfl
    · intro x hx
      obtain rfl : last = x := by simpa [hend] using hx
      simpa using hr

/-- To join what is built from its start is to join each element with the last one. -/
theorem joined_concat (es : List Element) (e : Element) :
    joined (es ++ [e]) = (joined es).pushJoining e := by
  rcases List.eq_nil_or_concat' (es.splitBy Element.joins) with hnil | ⟨front, run, hruns⟩
  · rw [List.splitBy_eq_nil] at hnil
    subst hnil
    rfl
  · have hmem : run ∈ es.splitBy Element.joins := by simp [hruns]
    have hne : run ≠ [] := List.ne_nil_of_mem_splitBy hmem
    have hlast := List.getLast?_eq_some_getLast hne
    have hjoins := Element.joins_ofRun (List.isChain_of_mem_splitBy hmem) hlast e
    rw [joined, joined, hruns, splitBy_concat hruns hlast, List.map_append, List.map_singleton,
      pushJoining_concat, hjoins]
    split
    · rw [List.map_append, List.map_singleton, Element.ofRun_concat hne]
    · rw [List.map_append, List.map_append, List.map_singleton, List.map_singleton]
      rfl

/-! ## What is kept -/

/-- What a run has of its elements, the list of all runs has of all elements. -/
theorem flatMap_joined {α : Type} {f : Element → List α}
    (hf : ∀ {a b : Element}, a.joins b = true → f (a.join b) = f a ++ f b) (es : List Element) :
    (joined es).flatMap f = es.flatMap f := by
  induction es using List.reverseRecOn with
  | nil => rfl
  | append_singleton es e ih =>
    rw [joined_concat, List.flatMap_append, ← ih]
    rcases List.eq_nil_or_concat' (joined es) with hnil | ⟨front, last, hlast⟩
    · rw [hnil]
      rfl
    · rw [hlast, pushJoining_concat]
      split
      · rename_i hjoins
        simp [hf hjoins]
      · simp

/-- No triple is lost and none moves. -/
theorem triples_joined (es : List Element) : triples (joined es) = es.flatMap Element.triples :=
  flatMap_joined Element.triples_join es

/-- No alternative is lost and none moves. -/
theorem alternatives_joined (es : List Element) :
    (joined es).flatMap Element.alternatives = es.flatMap Element.alternatives :=
  flatMap_joined Element.alternatives_join es

/-- No element other than blocks and unions is lost, changed or moved. -/
theorem filter_joined (es : List Element) :
    (joined es).filter (fun e => !e.joins e) = es.filter fun e => !e.joins e := by
  have hfilter : ∀ es : List Element, es.filter (fun e => !e.joins e) =
      es.flatMap fun e => [e].filter fun e => !e.joins e := by
    intro es
    induction es with
    | nil => rfl
    | cons e es ih => rw [List.flatMap_cons, ← ih, ← List.filter_append, List.singleton_append]
  rw [hfilter, hfilter]
  refine flatMap_joined (fun {a b} hjoins => ?_) es
  obtain ⟨ts, us, rfl, rfl⟩ | ⟨gs, hs, rfl, rfl⟩ := Element.joins_iff.mp hjoins
  · rfl
  · rfl

/-- What can be done to two elements before or after they are joined can be done to all elements of a
list before or after they are joined. -/
theorem joined_map {f : Element → Element} (hjoins : ∀ a b, (f a).joins (f b) = a.joins b)
    (hjoin : ∀ a b, f (a.join b) = (f a).join (f b)) (es : List Element) :
    joined (es.map f) = (joined es).map f := by
  induction es using List.reverseRecOn with
  | nil => rfl
  | append_singleton es e ih =>
    rw [List.map_append, List.map_singleton, joined_concat, joined_concat, ih]
    rcases List.eq_nil_or_concat' (joined es) with hnil | ⟨front, last, hlast⟩
    · rw [hnil]
      rfl
    · rw [hlast, List.map_append, List.map_singleton, pushJoining_concat, pushJoining_concat, hjoins]
      split
      · rw [List.map_append, List.map_singleton, hjoin]
      · rw [List.map_append, List.map_append, List.map_singleton, List.map_singleton]

/-! ## Groups that grow -/

theorem pushJoining_of_not_joins {e : Element} (h : ∀ last : Element, last.joins e = false)
    (g : Group) : g.pushJoining e = g ++ [e] := by
  rcases List.eq_nil_or_concat' g with rfl | ⟨front, last, rfl⟩
  · rfl
  · rw [pushJoining_concat, h last]
    rfl

theorem pushJoining_pushJoining {a b : Element} (h : a.joins b = true) (g : Group) :
    (g.pushJoining a).pushJoining b = g.pushJoining (a.join b) := by
  rcases List.eq_nil_or_concat' g with rfl | ⟨front, last, rfl⟩
  · rw [pushJoining_nil, pushJoining_nil, ← List.nil_append [a], pushJoining_concat, h]
    rfl
  · obtain ⟨ts, us, rfl, rfl⟩ | ⟨gs, hs, rfl, rfl⟩ := Element.joins_iff.mp h
    · cases last with
      | block rs => simp [pushJoining, Element.joins, Element.join]
      | _ => simp [pushJoining, Element.joins, Element.join]
    · cases last with
      | union rs => simp [pushJoining, Element.joins, Element.join]
      | _ => simp [pushJoining, Element.joins, Element.join]

theorem pushTriple_eq_pushJoining (g : Group) (t : Triple) :
    g.pushTriple t = g.pushJoining (.block [t]) := by
  rcases List.eq_nil_or_concat' g with rfl | ⟨front, last, rfl⟩
  · rfl
  · cases last <;> simp [pushTriple, pushJoining, Element.joins, Element.join]

theorem pushAlternative_eq_pushJoining (g alternative : Group) :
    g.pushAlternative alternative = g.pushJoining (.union [alternative]) := by
  rcases List.eq_nil_or_concat' g with rfl | ⟨front, last, rfl⟩
  · rfl
  · cases last <;> simp [pushAlternative, pushJoining, Element.joins, Element.join]

/-- To put triples at the end one by one is to put them there as one block. -/
theorem pushTriples_eq_pushJoining {ts : List Triple} (h : ts ≠ []) (g : Group) :
    g.pushTriples ts = g.pushJoining (.block ts) := by
  induction ts using List.reverseRecOn with
  | nil => exact absurd rfl h
  | append_singleton ts t ih =>
    rw [pushTriples, List.foldl_concat, pushTriple_eq_pushJoining]
    rcases eq_or_ne ts [] with rfl | hne
    · rfl
    · show (g.pushTriples ts).pushJoining _ = _
      rw [ih hne, pushJoining_pushJoining rfl]
      rfl

end Group

/-! ## Substitution -/

/-- The element with a variable resolved or freed in it. -/
def Element.substitute (name : String) (value : Option Term) (e : Element) : Element :=
  (if value.isSome then e.withoutBinds name else e).mapSlots (.resolve name value)

theorem Element.kind_substitute (name : String) (value : Option Term) (e : Element) :
    (e.substitute name value).kind = e.kind := by
  cases value <;> cases e <;> rfl

theorem Element.IsOwn.substitute {e : Element} (h : e.IsOwn) (name : String)
    (value : Option Term) : (e.substitute name value).IsOwn := by
  cases e with
  | block ts => cases value <;> exact mt List.map_eq_nil_iff.mp h
  | union gs =>
    obtain ⟨g, rfl⟩ := List.length_eq_one_iff.mp h
    cases value <;> rfl
  | _ => cases value <;> trivial

theorem Element.joins_substitute (name : String) (value : Option Term) (a b : Element) :
    (a.substitute name value).joins (b.substitute name value) = a.joins b := by
  cases value <;> cases a <;> cases b <;> rfl

theorem Element.substitute_join (name : String) (value : Option Term) (a b : Element) :
    (a.join b).substitute name value =
      (a.substitute name value).join (b.substitute name value) := by
  cases hjoins : a.joins b with
  | true =>
    obtain ⟨ts, us, rfl, rfl⟩ | ⟨gs, hs, rfl, rfl⟩ := joins_iff.mp hjoins
    · cases value <;> simp [substitute, join, withoutBinds, mapSlots]
    · cases value <;>
        simp [substitute, join, withoutBinds, mapSlots, Group.withoutBindsAll_append]
  | false =>
    rw [join_eq_self hjoins, join_eq_self (by rw [joins_substitute, hjoins])]

theorem Group.otherElements_eq_map {name : String} {g : Group}
    (h : ∀ e ∈ g, e.isBindOf name = false) :
    otherElements name g = g.map (Element.withoutBinds name) := by
  induction g with
  | nil => rfl
  | cons e g ih =>
    obtain ⟨he, hg⟩ := List.forall_mem_cons.mp h
    rw [otherElements_cons_of_not_isBindOf he, ih hg, List.map_cons]

theorem Group.mapSlots_eq_map (m : SlotMap) (g : Group) :
    mapSlots m g = g.map (Element.mapSlots m) := by
  induction g with
  | nil => rfl
  | cons e g ih => rw [mapSlots, ih, List.map_cons]

/-- A substitution does the same to every element, unless it removes some. -/
theorem Group.substitute_eq_map {name : String} {value : Option Term} {g : Group}
    (h : value.isSome = true → ∀ e ∈ g, e.isBindOf name = false) :
    substitute name value g = g.map (Element.substitute name value) := by
  rw [substitute, mapSlots_eq_map]
  cases value with
  | none => rfl
  | some t =>
    have hleft : withoutBinds name g = g.map (Element.withoutBinds name) := by
      rw [withoutBinds, otherElements_eq_map (h rfl)]
      cases g <;> rfl
    show (withoutBinds name g).map _ = _
    rw [hleft, List.map_map]
    rfl

/-- A substitution that removes no element can be made before or after elements are joined. -/
theorem Group.substitute_joined {name : String} {value : Option Term} {es : List Element}
    (h : value.isSome = true → ∀ e ∈ joined es, e.isBindOf name = false) :
    substitute name value (joined es) = joined (es.map (Element.substitute name value)) := by
  rw [substitute_eq_map h, joined_map (Element.joins_substitute name value)
    (Element.substitute_join name value)]

end GraphPattern
