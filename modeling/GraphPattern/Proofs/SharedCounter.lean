import GraphPattern.Proofs.Allocation
import Mathlib.Algebra.Group.Nat.Defs
import Mathlib.Data.List.Induction
import Mathlib.Data.Set.Basic

/-!
# One counter for all allocators

All allocations count on one counter, whoever makes them and whatever labels are in use there, so no
number is handed out twice (`Allocation.exists_draws`). A label is a stem with a number right behind
it. Two labels with different numbers can therefore be one label where a stem ends in digits, and
`Allocation.nodup_run_iff` says exactly when: if one stem is another one with a numeral behind it.
-/

namespace GraphPattern

open Steps

/-! ## Numerals -/

/-- What stands before the last digits of a numeral is a numeral. -/
theorem exists_toDigits_of_append {n : Nat} {front back : List Char} (hpos : 0 < n)
    (hfront : front ≠ []) (h : Nat.toDigits 10 n = front ++ back) :
    ∃ number, 0 < number ∧ 10 ^ back.length * number ≤ n ∧ front = Nat.toDigits 10 number := by
  induction back using List.reverseRecOn generalizing n with
  | nil =>
    rw [List.append_nil] at h
    exact ⟨n, hpos, by simp, h.symm⟩
  | append_singleton back c ih =>
    have hne : front ++ back ≠ [] := by simp [hfront]
    rw [← List.append_assoc] at h
    by_cases hlt : n < 10
    · rw [Nat.toDigits_of_lt_base hlt] at h
      have hlength := congrArg List.length h
      rw [List.length_append] at hlength
      exact absurd (List.length_eq_zero_iff.mp (Nat.succ.inj hlength).symm) hne
    · have hge : 10 ≤ n := Nat.le_of_not_lt hlt
      rw [Nat.toDigits_of_base_le (by decide) hge] at h
      obtain ⟨hrest, _⟩ := List.append_inj' h rfl
      obtain ⟨number, hnumber, hle, rfl⟩ := ih (Nat.div_pos hge (by decide)) hrest
      refine ⟨number, hnumber, ?_, rfl⟩
      calc 10 ^ (back ++ [c]).length * number = 10 ^ back.length * number * 10 := by
            rw [List.length_append, List.length_singleton, Nat.pow_succ, Nat.mul_right_comm]
        _ ≤ n / 10 * 10 := Nat.mul_le_mul_right 10 hle
        _ ≤ n := Nat.div_mul_le_self n 10

/-- The numeral of a larger number is not shorter. -/
theorem length_toDigits_le {m n : Nat} (h : m ≤ n) :
    (Nat.toDigits 10 m).length ≤ (Nat.toDigits 10 n).length := by
  have hlt : n < 10 ^ (Nat.toDigits 10 n).length :=
    (Nat.length_toDigits_le_iff (by decide) Nat.length_toDigits_pos).mp (Nat.le_refl _)
  rw [Nat.length_toDigits_le_iff (by decide) Nat.length_toDigits_pos]
  exact Nat.lt_of_le_of_lt h hlt

namespace Allocator

variable {a b : Allocator}

/-! ## Stems and numbers -/

/-- The stem as it stands in a label, without `_:` in front. -/
def labelStem (a : Allocator) : String := (BlankNode.ofText a.stem).label

/-- The label that the allocator makes with a number. -/
def numbered (a : Allocator) (number : Nat) : String := a.labelStem ++ toString number

theorem toList_numbered (a : Allocator) (number : Nat) :
    (a.numbered number).toList = a.labelStem.toList ++ Nat.toDigits 10 number := by
  rw [numbered, String.toList_append, Nat.toString_eq_repr, Nat.toList_repr]

theorem numbered_injective (a : Allocator) : Function.Injective a.numbered := by
  intro m n h
  rw [← String.toList_inj, toList_numbered, toList_numbered] at h
  exact toDigits_injective (List.append_cancel_left h)

/-- A number behind the stem does not change what is stripped in front of it. -/
theorem label_ofText_candidate (a : Allocator) (number : Nat) :
    (BlankNode.ofText (a.candidate number)).label = a.numbered number := by
  by_cases hstem : a.PlainStem
  · have hself : BlankNode.ofText a.stem = ⟨a.stem⟩ := by
      unfold BlankNode.ofText
      split
      · rename_i rest hlist
        exact absurd ⟨rest, hlist.symm⟩ hstem
      · rfl
    rw [hstem.ofText_candidate, numbered, labelStem, hself, candidate]
  · obtain ⟨rest, hrest⟩ := not_not.mp hstem
    have hstrip : ∀ text : String, ∀ cs, text.toList = '_' :: ':' :: cs →
        (BlankNode.ofText text).label = String.ofList cs := by
      intro text cs htext
      simp only [BlankNode.ofText, htext]
    rw [numbered, labelStem, hstrip a.stem rest hrest.symm,
      hstrip (a.candidate number) (rest ++ Nat.toDigits 10 number)
        (by rw [toList_candidate, ← hrest]; rfl),
      ← String.toList_inj]
    simp [Nat.toString_eq_repr, Nat.toList_repr]

/-- A label with a smaller number is a label with a larger one only if its stem holds the difference:
it is the other's stem with a numeral behind it. -/
theorem exists_numeral_of_numbered_eq {m n : Nat} (hlt : m < n) (h : a.numbered m = b.numbered n) :
    ∃ number, 0 < number ∧ 10 * number ≤ n ∧ a.labelStem = b.labelStem ++ toString number := by
  rw [← String.toList_inj, toList_numbered, toList_numbered] at h
  -- the shorter numeral ends the longer one, so the longer stem is the one with the shorter numeral
  have hdigits : ∃ front, a.labelStem.toList = b.labelStem.toList ++ front ∧
      Nat.toDigits 10 n = front ++ Nat.toDigits 10 m := by
    rcases List.append_eq_append_iff.mp h with ⟨front, hstem, hnumeral⟩ | hfront
    · have hlength := congrArg List.length hnumeral
      have hle := length_toDigits_le hlt.le
      rw [List.length_append] at hlength
      obtain rfl := List.length_eq_zero_iff.mp (show front.length = 0 by omega)
      exact ⟨[], by simpa using hstem.symm, by simpa using hnumeral.symm⟩
    · exact hfront
  obtain ⟨front, hstem, hnumeral⟩ := hdigits
  have hfront : front ≠ [] := by
    rintro rfl
    exact hlt.ne' (toDigits_injective hnumeral)
  obtain ⟨number, hpos, hle, rfl⟩ := exists_toDigits_of_append (by omega) hfront hnumeral
  refine ⟨number, hpos, ?_, ?_⟩
  · have hten : 10 ^ 1 ≤ 10 ^ (Nat.toDigits 10 m).length :=
      Nat.pow_le_pow_right (by decide) Nat.length_toDigits_pos
    exact Nat.le_trans (Nat.mul_le_mul_right number hten) hle
  · rw [← String.toList_inj, hstem, String.toList_append, Nat.toString_eq_repr, Nat.toList_repr]

/-- A numeral of the stem and one digit of the number are the next numeral. -/
theorem numbered_zero_eq {number : Nat} (hpos : 0 < number)
    (h : a.labelStem = b.labelStem ++ toString number) :
    a.numbered 0 = b.numbered (10 * number) := by
  have hdigits : Nat.toDigits 10 number ++ Nat.toDigits 10 0 = Nat.toDigits 10 (10 * number) :=
    Nat.toDigits_append_toDigits (by decide) hpos (by decide)
  rw [← String.toList_inj, toList_numbered, toList_numbered, h, String.toList_append,
    Nat.toString_eq_repr, Nat.toList_repr, List.append_assoc, hdigits]

/-! ## One allocation -/

/-- What is handed out has a number that the counter has passed. -/
theorem exists_number_of_tryNext {tries : Nat} {l m : Labelling} {node : BlankNode}
    (h : a.tryNext tries l = .ok node m) :
    ∃ number, l.next ≤ number ∧ number < m.next ∧ node.label = a.numbered number := by
  obtain ⟨skipped, -, -, -, rfl, rfl⟩ := exists_taken_of_tryNext h
  exact ⟨l.next + skipped, Nat.le_add_right _ _, Nat.lt_succ_self _,
    a.label_ofText_candidate (l.next + skipped)⟩

/-- Several nodes are made with numbers that go up. -/
theorem exists_numbers_of_allocateAll {n : Nat} {l m : Labelling} {nodes : List BlankNode}
    (h : a.allocateAll n l = .ok nodes m) :
    ∃ numbers : List Nat, nodes.map BlankNode.label = numbers.map a.numbered ∧
      numbers.Pairwise (· < ·) ∧ ∀ number ∈ numbers, l.next ≤ number := by
  induction n generalizing nodes l with
  | zero =>
    rw [allocateAll, Steps.pure_eq_ok] at h
    obtain ⟨rfl, _⟩ := h
    exact ⟨[], rfl, .nil, List.forall_mem_nil _⟩
  | succ n ih =>
    simp only [allocateAll, Steps.bind_eq_ok, Steps.map_eq_ok] at h
    obtain ⟨node, k, hnode, rest, hrest, rfl⟩ := h
    obtain ⟨number, hle, hlt, hlabel⟩ := exists_number_of_tryNext hnode
    obtain ⟨numbers, hmap, hpairwise, hnumbers⟩ := ih hrest
    refine ⟨number :: numbers, ?_, ?_, ?_⟩
    · rw [List.map_cons, hmap, hlabel, List.map_cons]
    · exact .cons (fun n hn => Nat.lt_of_lt_of_le hlt (hnumbers n hn)) hpairwise
    · exact List.forall_mem_cons.mpr ⟨hle, fun n hn => (hle.trans hlt.le).trans (hnumbers n hn)⟩

/-- Whatever the stem and the labels in use, no label is given to two of them. -/
theorem nodup_of_allocateAll {n : Nat} {l m : Labelling} {nodes : List BlankNode}
    (h : a.allocateAll n l = .ok nodes m) : (nodes.map BlankNode.label).Nodup := by
  obtain ⟨numbers, hmap, hpairwise, _⟩ := exists_numbers_of_allocateAll h
  rw [hmap]
  exact List.Nodup.map a.numbered_injective (hpairwise.imp Nat.ne_of_lt)

theorem attempts_pos_of_allocate {l m : Labelling} {node : BlankNode}
    (h : a.allocate l = .ok node m) : 0 < a.attempts := by
  rw [allocate] at h
  cases hattempts : a.attempts with
  | zero =>
    rw [hattempts] at h
    cases h
  | succ _ => exact Nat.succ_pos _

/-- Where no label is in use, the first one tried is taken. -/
theorem allocate_of_nothing_inUse (h : 0 < a.attempts) (next : Nat) :
    a.allocate ⟨next, .empty⟩ =
      .ok (.ofText (a.candidate next)) ⟨next + 1, LabelSet.empty.insert (a.candidate next)⟩ := by
  obtain ⟨tries, htries⟩ := Nat.exists_eq_add_of_lt h
  rw [allocate, htries, Nat.zero_add, tryNext]
  exact if_neg LabelSet.mem_empty

end Allocator

/-! ## Runs -/

/-- An allocation of a run: who makes it, and which labels are in use there. -/
structure Allocation where
  allocator : Allocator
  inUse : LabelSet

namespace Allocation

/-- Makes allocations one after the other on one counter. The result are the nodes that were handed
out and where the counter stands in the end. -/
def run : List Allocation → Nat → List BlankNode × Nat
  | [], next => ([], next)
  | call :: calls, next =>
    match call.allocator.allocate ⟨next, call.inUse⟩ with
    | .ok node l => (node :: (run calls l.next).1, (run calls l.next).2)
    | .error _ l => run calls l.next

/-- The counter does not go back. -/
theorem le_run (calls : List Allocation) (next : Nat) : next ≤ (run calls next).2 := by
  induction calls generalizing next with
  | nil => exact Nat.le_refl next
  | cons call calls ih =>
    have hgrows := call.allocator.grows_tryNext call.allocator.attempts
    rw [run]
    split
    · rename_i node l hcall
      exact Nat.le_trans (hgrows.ok hcall) (ih l.next)
    · rename_i e l hcall
      exact Nat.le_trans (hgrows.error hcall) (ih l.next)

/-- All labels handed out are made with different numbers, which increase along the run. -/
theorem exists_draws (calls : List Allocation) (next : Nat) :
    ∃ draws : List (Allocator × Nat),
      (run calls next).1.map BlankNode.label = draws.map (fun d => d.1.numbered d.2) ∧
        draws.Pairwise (fun d e => d.2 < e.2) ∧
        ∀ d ∈ draws, next ≤ d.2 ∧ d.2 < (run calls next).2 ∧ 0 < d.1.attempts ∧
          ∃ call ∈ calls, call.allocator = d.1 := by
  induction calls generalizing next with
  | nil => exact ⟨[], rfl, List.Pairwise.nil, List.forall_mem_nil _⟩
  | cons call calls ih =>
    -- what the rest hands out comes from the counter as this call leaves it
    have hlater : ∀ {l : Labelling} {d : Allocator × Nat}, next ≤ l.next →
        (l.next ≤ d.2 ∧ d.2 < (run calls l.next).2 ∧ 0 < d.1.attempts ∧
          ∃ call ∈ calls, call.allocator = d.1) →
        next ≤ d.2 ∧ d.2 < (run calls l.next).2 ∧ 0 < d.1.attempts ∧
          ∃ c ∈ call :: calls, c.allocator = d.1 := by
      rintro l d hle ⟨hnext, hlast, hattempts, c, hc, heq⟩
      exact ⟨Nat.le_trans hle hnext, hlast, hattempts, c, List.mem_cons_of_mem _ hc, heq⟩
    have hgrows := call.allocator.grows_tryNext call.allocator.attempts
    rw [run]
    split
    · rename_i node l hcall
      obtain ⟨number, hle, hlt, hlabel⟩ := Allocator.exists_number_of_tryNext hcall
      obtain ⟨draws, hmap, hpairwise, hdraws⟩ := ih l.next
      refine ⟨(call.allocator, number) :: draws, ?_, ?_, ?_⟩
      · rw [List.map_cons, List.map_cons, hmap, hlabel]
      · refine List.pairwise_cons.mpr ⟨fun d hd => ?_, hpairwise⟩
        exact Nat.lt_of_lt_of_le hlt (hdraws d hd).1
      · refine List.forall_mem_cons.mpr ⟨?_, fun d hd => hlater (hgrows.ok hcall) (hdraws d hd)⟩
        exact ⟨hle, Nat.lt_of_lt_of_le hlt (le_run calls l.next),
          Allocator.attempts_pos_of_allocate hcall, call, List.mem_cons_self, rfl⟩
    · rename_i e l hcall
      obtain ⟨draws, hmap, hpairwise, hdraws⟩ := ih l.next
      exact ⟨draws, hmap, hpairwise, fun d hd => hlater (hgrows.error hcall) (hdraws d hd)⟩

/-- Allocations where nothing is in use take one number each. -/
theorem run_replicate {a : Allocator} (h : 0 < a.attempts) (count next : Nat) :
    run (List.replicate count ⟨a, .empty⟩) next =
      ((List.range' next count).map fun number => .ofText (a.candidate number), next + count) := by
  induction count generalizing next with
  | zero => rfl
  | succ count ih =>
    rw [List.replicate_succ, run, Allocator.allocate_of_nothing_inUse h]
    dsimp only
    rw [ih, List.range'_succ, List.map_cons, Nat.add_right_comm, Nat.add_assoc]

/-! ## Labels that meet -/

/-- Where no stem of a run is one with a numeral behind it, no label is handed out twice: of two equal
labels, the one with the smaller number would have such a stem. -/
theorem nodup_run {calls : List Allocation} {limit : Nat} (hlimit : (run calls 0).2 ≤ limit)
    (hstems : ∀ c ∈ calls, ∀ d ∈ calls, 0 < c.allocator.attempts → 0 < d.allocator.attempts →
      ∀ number, 0 < number → 10 * number < limit →
        c.allocator.labelStem ≠ d.allocator.labelStem ++ toString number) :
    ((run calls 0).1.map BlankNode.label).Nodup := by
  obtain ⟨draws, hmap, hpairwise, hdraws⟩ := exists_draws calls 0
  rw [hmap, List.Nodup, List.pairwise_map]
  refine hpairwise.imp_of_mem fun {d e} hd he hlt heq => ?_
  obtain ⟨number, hpos, hle, hstem⟩ := Allocator.exists_numeral_of_numbered_eq hlt heq
  obtain ⟨_, _, hattempts, c, hc, hcd⟩ := hdraws d hd
  obtain ⟨_, hlast, hattempts', c', hc', hce⟩ := hdraws e he
  rw [← hcd] at hattempts hstem
  rw [← hce] at hattempts' hstem
  exact hstems c hc c' hc' hattempts hattempts' number hpos (by omega) hstem

/-- Where one stem is another with a numeral behind it, the longer one takes the number 0, and the
shorter one goes on to ten times the numeral. -/
theorem exists_run_of_stem {a b : Allocator} (ha : 0 < a.attempts) (hb : 0 < b.attempts)
    {number : Nat} (hpos : 0 < number) (hstem : a.labelStem = b.labelStem ++ toString number) :
    ∃ calls, (∀ call ∈ calls, call.allocator = a ∨ call.allocator = b) ∧
      (run calls 0).2 = 10 * number + 1 ∧ ¬((run calls 0).1.map BlankNode.label).Nodup := by
  have hrun : run (⟨a, .empty⟩ :: List.replicate (10 * number) ⟨b, .empty⟩) 0 =
      (.ofText (a.candidate 0) :: (List.range' 1 (10 * number)).map
        (fun number => .ofText (b.candidate number)), 10 * number + 1) := by
    rw [run, Allocator.allocate_of_nothing_inUse ha]
    dsimp only
    rw [run_replicate hb, Nat.add_comm (10 * number)]
  refine ⟨_, List.forall_mem_cons.mpr ⟨.inl rfl, fun call hcall => ?_⟩, by rw [hrun], ?_⟩
  · obtain rfl := List.eq_of_mem_replicate hcall
    exact .inr rfl
  · rw [hrun, List.map_cons, List.map_map]
    intro hnodup
    refine (List.nodup_cons.mp hnodup).1 (List.mem_map.mpr ⟨10 * number, ?_, ?_⟩)
    · exact List.mem_range'_1.mpr (by omega)
    · rw [Function.comp_apply, Allocator.label_ofText_candidate, Allocator.label_ofText_candidate,
        Allocator.numbered_zero_eq hpos hstem]

/-- Some allocators hand out no label twice, in any run that starts a counter and takes it to at most
a limit, with whatever labels in use at each allocation, exactly if the stem of none is the stem of one
of them with a numeral behind it that a number below the limit can hold. -/
theorem nodup_run_iff (allocators : Set Allocator) (limit : Nat) :
    (∀ calls, (∀ call ∈ calls, call.allocator ∈ allocators) → (run calls 0).2 ≤ limit →
        ((run calls 0).1.map BlankNode.label).Nodup) ↔
      ∀ a ∈ allocators, ∀ b ∈ allocators, 0 < a.attempts → 0 < b.attempts →
        ∀ number, 0 < number → 10 * number < limit →
          a.labelStem ≠ b.labelStem ++ toString number := by
  constructor
  · intro hruns a ha b hb hattempts hattempts' number hpos hlimit hstem
    obtain ⟨calls, hcalls, hlast, htwice⟩ := exists_run_of_stem hattempts hattempts' hpos hstem
    refine htwice (hruns calls (fun call hcall => ?_) (hlast.trans_le hlimit))
    rcases hcalls call hcall with heq | heq
    · exact heq ▸ ha
    · exact heq ▸ hb
  · intro hstems calls hcalls hlimit
    exact nodup_run hlimit fun c hc d hd => hstems _ (hcalls c hc) _ (hcalls d hd)

/-- The stem of the first is that of the second with a numeral behind it, so the labels meet although
no number is taken twice. -/
example :
    let first : Allocation := ⟨⟨"b1", 64⟩, .empty⟩
    let second : Allocation := ⟨⟨"b", 64⟩, .empty⟩
    (run (first :: List.replicate 10 second) 0).1.map BlankNode.label =
      ["b10", "b1", "b2", "b3", "b4", "b5", "b6", "b7", "b8", "b9", "b10"] := by
  decide

end Allocation

end GraphPattern
