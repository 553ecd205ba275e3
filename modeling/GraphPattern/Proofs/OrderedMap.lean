import GraphPattern.OrderedMap

/-!
# Entries of ordered maps

No key stands twice, so the entries of a map and its look-ups say the same.
-/

namespace GraphPattern

theorem findEntry_eq_some_iff {α : Type} {es : List (String × α)} (h : (es.map Prod.fst).Nodup)
    {key : String} {value : α} : findEntry key es = some value ↔ (key, value) ∈ es := by
  induction es with
  | nil => simp [findEntry]
  | cons e es ih =>
    simp only [List.map_cons, List.nodup_cons] at h
    by_cases hk : e.1 = key
    · -- the first entry is the only one with its key
      have hout : (key, value) ∉ es := fun hmem => h.1 (hk ▸ List.mem_map_of_mem hmem)
      rw [findEntry, if_pos hk, Option.some.injEq, List.mem_cons]
      constructor
      · intro hv
        exact .inl (Prod.ext hk.symm hv.symm)
      · intro hv
        rcases hv with he | hmem
        · rw [← he]
        · exact absurd hmem hout
    · rw [findEntry, if_neg hk, ih h.2, List.mem_cons]
      constructor
      · exact .inr
      · intro hv
        rcases hv with he | hmem
        · exact absurd (congrArg Prod.fst he).symm hk
        · exact hmem

theorem putEntry_of_findEntry_eq_none {α : Type} {key : String} {es : List (String × α)}
    (h : findEntry key es = none) (value : α) : putEntry key value es = es ++ [(key, value)] := by
  induction es with
  | nil => rfl
  | cons e es ih =>
    by_cases hk : e.1 = key
    · rw [findEntry, if_pos hk] at h
      cases h
    · rw [findEntry, if_neg hk] at h
      rw [putEntry, if_neg hk, ih h, List.cons_append]

namespace OrderedMap

variable {α : Type}

/-- A new key comes last. -/
theorem entries_insert_of_lookup_eq_none {m : OrderedMap α} {key : String}
    (h : m.lookup key = none) (value : α) :
    (m.insert key value).entries = m.entries ++ [(key, value)] :=
  putEntry_of_findEntry_eq_none h value

theorem lookup_eq_some_iff {m : OrderedMap α} {key : String} {value : α} :
    m.lookup key = some value ↔ (key, value) ∈ m.entries :=
  findEntry_eq_some_iff m.nodup_keys

theorem lookup_eq_none_iff {m : OrderedMap α} {key : String} :
    m.lookup key = none ↔ key ∉ m.keys := by
  rw [Option.eq_none_iff_forall_ne_some, keys, List.mem_map]
  simp only [ne_eq, lookup_eq_some_iff]
  constructor
  · rintro h ⟨⟨_, value⟩, hmem, rfl⟩
    exact h value hmem
  · exact fun h value hmem => h ⟨_, hmem, rfl⟩

theorem mem_entries_insert {m : OrderedMap α} {key k : String} {value v : α} :
    (k, v) ∈ (m.insert key value).entries ↔
      k = key ∧ v = value ∨ k ≠ key ∧ (k, v) ∈ m.entries := by
  rw [← lookup_eq_some_iff, lookup_insert, ← lookup_eq_some_iff]
  by_cases h : k = key <;> simp [h, eq_comm]

theorem mem_entries_erase {m : OrderedMap α} {key k : String} {v : α} :
    (k, v) ∈ (m.erase key).entries ↔ k ≠ key ∧ (k, v) ∈ m.entries := by
  rw [← lookup_eq_some_iff, lookup_erase, ← lookup_eq_some_iff]
  by_cases h : k = key <;> simp [h]

end OrderedMap

end GraphPattern
