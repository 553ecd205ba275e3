import GraphPattern.Pattern

/-!
# Equality of patterns

Equality of elements can be decided. Two patterns that differ only in the order in which nested
queries declare their prefixes are the `same`, although they are not equal.
-/

namespace GraphPattern

mutual

/-- Whether two elements agree, where `same` compares declarations of prefixes. -/
def Element.agree (same : Prefixes → Prefixes → Bool) : Element → Element → Bool
  | .block ts, .block us => ts = us
  | .optional g, .optional h => Group.agree same g h
  | .union gs, .union hs => Group.agreeAll same gs hs
  | .minus g, .minus h => Group.agree same g h
  | .subQuery d vs g p, .subQuery d' vs' h q =>
    d = d' && vs = vs' && Group.agree same g h && same p q
  | .bind e v, .bind e' v' => e = e' && v = v'
  | .filter e, .filter e' => e = e'
  | _, _ => false

/-- Whether two groups agree element by element. -/
def Group.agree (same : Prefixes → Prefixes → Bool) : List Element → List Element → Bool
  | [], [] => true
  | e :: g, f :: h => Element.agree same e f && Group.agree same g h
  | _, _ => false

/-- Whether two lists of groups agree group by group. -/
def Group.agreeAll (same : Prefixes → Prefixes → Bool) :
    List (List Element) → List (List Element) → Bool
  | [], [] => true
  | g :: gs, h :: hs => Group.agree same g h && Group.agreeAll same gs hs
  | _, _ => false

end

mutual

theorem Element.agree_iff_eq {same : Prefixes → Prefixes → Bool}
    (lawful : ∀ p q, same p q = true ↔ p = q) :
    ∀ e f : Element, Element.agree same e f = true ↔ e = f
  | .block ts, f => by cases f <;> simp [Element.agree]
  | .optional g, f => by
    cases f with
    | optional h => simp [Element.agree, Group.agree_iff_eq lawful g h]
    | _ => simp [Element.agree]
  | .union gs, f => by
    cases f with
    | union hs => simp [Element.agree, Group.agreeAll_iff_eq lawful gs hs]
    | _ => simp [Element.agree]
  | .minus g, f => by
    cases f with
    | minus h => simp [Element.agree, Group.agree_iff_eq lawful g h]
    | _ => simp [Element.agree]
  | .subQuery d vs g p, f => by
    cases f with
    | subQuery d' vs' h q =>
      simp [Element.agree, Group.agree_iff_eq lawful g h, lawful p q, and_assoc]
    | _ => simp [Element.agree]
  | .bind e v, f => by cases f <;> simp [Element.agree]
  | .filter e, f => by cases f <;> simp [Element.agree]

theorem Group.agree_iff_eq {same : Prefixes → Prefixes → Bool}
    (lawful : ∀ p q, same p q = true ↔ p = q) :
    ∀ g h : List Element, Group.agree same g h = true ↔ g = h
  | [], [] => by simp [Group.agree]
  | [], _ :: _ => by simp [Group.agree]
  | _ :: _, [] => by simp [Group.agree]
  | e :: g, f :: h => by
    simp [Group.agree, Element.agree_iff_eq lawful e f, Group.agree_iff_eq lawful g h]

theorem Group.agreeAll_iff_eq {same : Prefixes → Prefixes → Bool}
    (lawful : ∀ p q, same p q = true ↔ p = q) :
    ∀ gs hs : List (List Element), Group.agreeAll same gs hs = true ↔ gs = hs
  | [], [] => by simp [Group.agreeAll]
  | [], _ :: _ => by simp [Group.agreeAll]
  | _ :: _, [] => by simp [Group.agreeAll]
  | g :: gs, h :: hs => by
    simp [Group.agreeAll, Group.agree_iff_eq lawful g h, Group.agreeAll_iff_eq lawful gs hs]

end

instance : DecidableEq Element := fun e f =>
  decidable_of_iff (Element.agree (fun p q => p = q) e f = true)
    (Element.agree_iff_eq (fun _ _ => decide_eq_true_iff) e f)

/-- Whether two groups are equal up to the order in which nested queries declare prefixes. -/
def Group.same (g h : Group) : Bool := Group.agree Prefixes.sameDeclarations g h

end GraphPattern
