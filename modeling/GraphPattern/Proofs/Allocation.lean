import GraphPattern.Proofs.Labels
import Mathlib.Data.List.Perm.Subperm

/-!
# What one allocation takes

An allocation takes the first candidate that is not in use, and records it as it was tried
(`Allocator.exists_taken_of_tryNext`). It fails exactly if all candidates that it may try are in use,
which takes as many labels as there are attempts (`Allocator.allocate_first_free`). The node is made from
the same text, but a `_:` in front of the text is no part of its label, so the label of the node is the
one recorded exactly if the stem is plain (`Allocator.allocate_takes_iff`).
-/

namespace GraphPattern

theorem toDigits_injective {m n : Nat} (h : Nat.toDigits 10 m = Nat.toDigits 10 n) : m = n := by
  rw [← Nat.ofDigitChars_ten_toDigits (n := m), h, Nat.ofDigitChars_ten_toDigits]

/-! ## Labels that are taken -/

/-- Whether the label was not in use, and is in use from then on with the labels that were. -/
def Labelling.Takes (l m : Labelling) (label : String) : Prop :=
  label ∉ l.inUse ∧ ∀ other, other ∈ m.inUse ↔ other ∈ l.inUse ∨ other = label

/-- One label is taken at a time. -/
theorem Labelling.Takes.unique {l m : Labelling} {label other : String} (h : l.Takes m label)
    (h' : l.Takes m other) : label = other :=
  ((h'.2 label).mp ((h.2 label).mpr (.inr rfl))).resolve_left h.1

namespace BlankNode

/-- A node is written like a text with `_:` in front that it is made from. -/
theorem render_ofText {text : String} (h : ['_', ':'] <+: text.toList) :
    (ofText text).render = text := by
  obtain ⟨label, hlabel⟩ := h
  have hlist : text.toList = '_' :: ':' :: label := hlabel.symm
  rw [← String.toList_inj, hlist]
  simp only [render, ofText, hlist, String.toList_append, String.toList_ofList]
  rfl

theorem render_ne_label (node : BlankNode) : node.render ≠ node.label := by
  intro h
  have hlength := congrArg String.length h
  rw [render, String.length_append] at hlength
  have htwo : "_:".length = 2 := rfl
  omega

end BlankNode

namespace Allocator

variable {a : Allocator} {l m : Labelling} {node : BlankNode}

/-! ## The first free candidate -/

/-- What is tried before a label is taken is in use, and the label is not. -/
theorem exists_taken_of_tryNext {tries : Nat} (h : a.tryNext tries l = .ok node m) :
    ∃ skipped < tries, (∀ i < skipped, a.candidate (l.next + i) ∈ l.inUse) ∧
      a.candidate (l.next + skipped) ∉ l.inUse ∧
      node = .ofText (a.candidate (l.next + skipped)) ∧
      m = ⟨l.next + skipped + 1, l.inUse.insert (a.candidate (l.next + skipped))⟩ := by
  induction tries generalizing l with
  | zero => cases h
  | succ tries ih =>
    rw [tryNext] at h
    dsimp only at h
    split at h
    · rename_i huse
      obtain ⟨skipped, hlt, hskipped, hfree, hnode, hm⟩ := ih h
      have hnext : ∀ i, l.next + 1 + i = l.next + (i + 1) := by omega
      dsimp only at hskipped hfree hnode hm
      rw [hnext] at hfree hnode hm
      refine ⟨skipped + 1, by omega, fun i hi => ?_, hfree, hnode, hm⟩
      cases i with
      | zero => exact huse
      | succ i =>
        rw [← hnext]
        exact hskipped i (by omega)
    · rename_i hfree
      cases h
      exact ⟨0, by omega, fun i hi => absurd hi (Nat.not_lt_zero i), hfree, rfl, rfl⟩

/-! ## No free candidate -/

/-- What fails has tried all candidates, found each of them in use, and used up their numbers. -/
theorem tryNext_eq_error {tries : Nat} {e : StructuralError}
    (h : a.tryNext tries l = .error e m) :
    (∀ i < tries, a.candidate (l.next + i) ∈ l.inUse) ∧ e = .labelsExhausted a.attempts ∧
      m = ⟨l.next + tries, l.inUse⟩ := by
  induction tries generalizing l with
  | zero =>
    cases h
    exact ⟨fun i hi => absurd hi (Nat.not_lt_zero i), rfl, rfl⟩
  | succ tries ih =>
    rw [tryNext] at h
    dsimp only at h
    split at h
    · rename_i huse
      obtain ⟨hall, he, hm⟩ := ih h
      have hnext : ∀ i, l.next + 1 + i = l.next + (i + 1) := by omega
      dsimp only at hall hm
      rw [hnext] at hm
      refine ⟨fun i hi => ?_, he, hm⟩
      cases i with
      | zero => exact huse
      | succ i =>
        rw [← hnext]
        exact hall i (by omega)
    · cases h

theorem candidate_injective (a : Allocator) : Function.Injective a.candidate := by
  intro x y h
  rw [← String.toList_inj, toList_candidate, toList_candidate] at h
  exact toDigits_injective (List.append_cancel_left h)

/-- So many candidates in a row are so many labels. -/
theorem le_size_of_candidates {tries : Nat}
    (h : ∀ i < tries, a.candidate (l.next + i) ∈ l.inUse) : tries ≤ l.inUse.size := by
  have hinj : Function.Injective fun i => a.candidate (l.next + i) :=
    fun _ _ heq => Nat.add_left_cancel (a.candidate_injective heq)
  have hnodup : ((List.range tries).map fun i => a.candidate (l.next + i)).Nodup :=
    List.nodup_range.map hinj
  have hsubset : ((List.range tries).map fun i => a.candidate (l.next + i)) ⊆ l.inUse.toList := by
    intro label hlabel
    obtain ⟨i, hi, rfl⟩ := List.mem_map.mp hlabel
    exact h i (List.mem_range.mp hi)
  have hlength := (hnodup.subperm hsubset).length_le
  rwa [List.length_map, List.length_range] at hlength

/-- An allocation fails exactly if all candidates with the next numbers, as many as there are attempts,
are in use. Then it has used up these numbers and leaves the labels in use as they are. Otherwise it
takes the first candidate that is free, and has used up the numbers up to it. So it never fails while
there are fewer labels in use than attempts. -/
theorem allocate_first_free (a : Allocator) (l : Labelling) :
    ((∃ e m, a.allocate l = .error e m) ↔
        ∀ i < a.attempts, a.candidate (l.next + i) ∈ l.inUse) ∧
      (∀ e m, a.allocate l = .error e m →
        e = .labelsExhausted a.attempts ∧ m = ⟨l.next + a.attempts, l.inUse⟩) ∧
      (∀ node m, a.allocate l = .ok node m →
        ∃ skipped < a.attempts, (∀ i < skipped, a.candidate (l.next + i) ∈ l.inUse) ∧
          a.candidate (l.next + skipped) ∉ l.inUse ∧
          node = .ofText (a.candidate (l.next + skipped)) ∧
          m = ⟨l.next + (skipped + 1), l.inUse.insert (a.candidate (l.next + skipped))⟩) ∧
      (l.inUse.size < a.attempts → ∃ node m, a.allocate l = .ok node m) := by
  have hfails : (∃ e m, a.allocate l = .error e m) ↔
      ∀ i < a.attempts, a.candidate (l.next + i) ∈ l.inUse := by
    constructor
    · rintro ⟨e, m, h⟩
      exact (tryNext_eq_error h).1
    · intro hall
      cases h : a.allocate l with
      | error e m => exact ⟨e, m, rfl⟩
      | ok node m =>
        obtain ⟨skipped, hlt, _, hfree, _⟩ := exists_taken_of_tryNext h
        exact absurd (hall skipped hlt) hfree
  refine ⟨hfails, fun e m h => (tryNext_eq_error h).2,
    fun node m h => exists_taken_of_tryNext h, fun hsize => ?_⟩
  cases h : a.allocate l with
  | ok node m => exact ⟨node, m, rfl⟩
  | error e m =>
    exact absurd hsize (Nat.not_lt.mpr (le_size_of_candidates (hfails.mp ⟨e, m, h⟩)))

/-- With three labels in use and four attempts, two of the labels are in the way: the third candidate is
taken. -/
theorem allocate_first_free_third :
    LabelSet.size ⟨["b8", "u", "b7"], by decide⟩ < 4 ∧
      allocate ⟨"b", 4⟩ ⟨7, ⟨["b8", "u", "b7"], by decide⟩⟩ =
        .ok ⟨"b9"⟩ ⟨10, ⟨["b9", "b8", "u", "b7"], by decide⟩⟩ := by
  have hsize : LabelSet.size ⟨["b8", "u", "b7"], by decide⟩ < 4 := by decide
  obtain ⟨-, -, htakes, hsucceeds⟩ :=
    allocate_first_free ⟨"b", 4⟩ ⟨7, ⟨["b8", "u", "b7"], by decide⟩⟩
  obtain ⟨node, m, h⟩ := hsucceeds hsize
  obtain ⟨skipped, _, hused, hfree, rfl, rfl⟩ := htakes node m h
  -- numbers 7 and 8 are in use, and number 9 is not passed over
  obtain rfl : skipped = 2 := by
    refine Nat.le_antisymm (Nat.le_of_not_lt fun hlt => ?_) (Nat.le_of_not_lt fun hlt => ?_)
    · exact absurd (hused 2 hlt) (by decide)
    · obtain rfl | rfl : skipped = 0 ∨ skipped = 1 := by omega
      · exact hfree (by decide)
      · exact hfree (by decide)
  exact ⟨hsize, h⟩

/-! ## The label of the node -/

/-- Without a plain stem, a candidate is the node as it is written. -/
theorem render_ofText_candidate (h : ¬a.PlainStem) (number : Nat) :
    (BlankNode.ofText (a.candidate number)).render = a.candidate number := by
  refine BlankNode.render_ofText ((not_not.mp h).trans ?_)
  rw [toList_candidate]
  exact List.prefix_append _ _

/-- An allocation takes one label into use: that of the node if the stem is plain, else the node as it
is written, with `_:` in front. So the label of the node itself was free and is recorded exactly if the
stem is plain. -/
theorem allocate_takes_iff (h : a.allocate l = .ok node m) :
    l.Takes m (if a.PlainStem then node.label else node.render) ∧
      (l.Takes m node.label ↔ a.PlainStem) := by
  obtain ⟨skipped, -, -, hfree, hnode, rfl⟩ := exists_taken_of_tryNext h
  have htakes : l.Takes ⟨l.next + skipped + 1, l.inUse.insert (a.candidate (l.next + skipped))⟩
      (a.candidate (l.next + skipped)) :=
    ⟨hfree, fun other => LabelSet.mem_insert.trans or_comm⟩
  by_cases hstem : a.PlainStem
  · have hlabel : node.label = a.candidate (l.next + skipped) := by
      rw [hnode, hstem.ofText_candidate]
    rw [if_pos hstem, hlabel]
    exact ⟨htakes, iff_of_true htakes hstem⟩
  · have hrender : node.render = a.candidate (l.next + skipped) := by
      rw [hnode, render_ofText_candidate hstem]
    rw [if_neg hstem, hrender]
    refine ⟨htakes, iff_of_false (fun hlabel => ?_) hstem⟩
    exact node.render_ne_label (hrender.trans (htakes.unique hlabel))

/-- A node whose label is in use: what was found free is the label with `_:` in front. -/
theorem allocate_takes_iff_stripped :
    ∃ m, allocate ⟨"_:b", 64⟩ ⟨0, ⟨["b0"], by decide⟩⟩ = .ok ⟨"b0"⟩ m ∧
      Labelling.Takes ⟨0, ⟨["b0"], by decide⟩⟩ m "_:b0" ∧
      ¬Labelling.Takes ⟨0, ⟨["b0"], by decide⟩⟩ m "b0" := by
  have hcall : allocate ⟨"_:b", 64⟩ ⟨0, ⟨["b0"], by decide⟩⟩ =
      .ok ⟨"b0"⟩ ⟨1, ⟨["_:b0", "b0"], by decide⟩⟩ := by rfl
  have hstem : ¬PlainStem ⟨"_:b", 64⟩ := by decide
  obtain ⟨htakes, hlabel⟩ := allocate_takes_iff hcall
  rw [if_neg hstem] at htakes
  exact ⟨_, hcall, htakes, fun h => hstem (hlabel.mp h)⟩

end Allocator

end GraphPattern
