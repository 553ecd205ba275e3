/-!
# Maps that keep their order

A finite map from strings that remembers the order in which its keys were first given. A new value
for a known key takes the place of the old one. `lookup_insert` and `lookup_erase` say what a look-up
sees of a change, and `keys_putEntry` what the order does.
-/

namespace GraphPattern

/-- Puts a value at its key's place, or at the end if the key is new. -/
def putEntry {α : Type} (key : String) (value : α) : List (String × α) → List (String × α)
  | [] => [(key, value)]
  | e :: es => if e.1 = key then (key, value) :: es else e :: putEntry key value es

/-- The value at the first entry with the key. -/
def findEntry {α : Type} (key : String) : List (String × α) → Option α
  | [] => none
  | e :: es => if e.1 = key then some e.2 else findEntry key es

theorem keys_putEntry {α : Type} (key : String) (value : α) (es : List (String × α)) :
    (putEntry key value es).map Prod.fst =
      if key ∈ es.map Prod.fst then es.map Prod.fst else es.map Prod.fst ++ [key] := by
  induction es with
  | nil => simp [putEntry]
  | cons e es ih =>
    by_cases h : e.1 = key
    · simp [putEntry, h]
    · simp only [putEntry, if_neg h, List.map_cons, ih, List.mem_cons, Ne.symm h, false_or]
      split <;> simp

theorem nodup_keys_putEntry {α : Type} {key : String} {value : α} {es : List (String × α)}
    (h : (es.map Prod.fst).Nodup) : ((putEntry key value es).map Prod.fst).Nodup := by
  rw [keys_putEntry]
  split
  · exact h
  · rename_i hk
    refine List.nodup_append.mpr ⟨h, by simp, ?_⟩
    intro a ha b hb hab
    rw [List.mem_singleton.mp hb] at hab
    exact hk (hab ▸ ha)

theorem findEntry_putEntry {α : Type} (key : String) (value : α) (es : List (String × α))
    (k : String) :
    findEntry k (putEntry key value es) = if k = key then some value else findEntry k es := by
  induction es with
  | nil => simp [putEntry, findEntry, eq_comm]
  | cons e es ih =>
    by_cases h : e.1 = key
    · by_cases hk : k = key
      · simp [putEntry, findEntry, h, hk]
      · simp [putEntry, findEntry, h, hk, Ne.symm hk]
    · by_cases hk : e.1 = k
      · have : ¬ k = key := fun hkk => h (hk.trans hkk)
        simp [putEntry, findEntry, hk, this]
      · simp [putEntry, findEntry, h, hk, ih]

theorem findEntry_filter_ne {α : Type} (key : String) (es : List (String × α)) (k : String) :
    findEntry k (es.filter fun e => e.1 ≠ key) = if k = key then none else findEntry k es := by
  induction es with
  | nil => simp [findEntry]
  | cons e es ih =>
    by_cases h : e.1 = key
    · by_cases hk : k = key
      · simp_all
      · have : ¬ e.1 = k := fun hkk => hk (hkk.symm.trans h)
        simp_all [findEntry]
    · by_cases hk : e.1 = k
      · have : ¬ k = key := fun hkk => h (hk.trans hkk)
        simp [findEntry, hk, this]
      · simp_all [findEntry]

/-- A finite map from strings, in the order in which the keys were first given. -/
structure OrderedMap (α : Type) where
  entries : List (String × α)
  nodup_keys : (entries.map Prod.fst).Nodup
deriving DecidableEq

namespace OrderedMap

variable {α : Type}

/-- The map without keys. -/
def empty : OrderedMap α := ⟨[], List.nodup_nil⟩

instance : Inhabited (OrderedMap α) := ⟨empty⟩

/-- The keys, in order. -/
def keys (m : OrderedMap α) : List String := m.entries.map Prod.fst

/-- The value of a key. -/
def lookup (m : OrderedMap α) (key : String) : Option α := findEntry key m.entries

/-- Gives a key a value: in place for a known key, at the end for a new one. -/
def insert (m : OrderedMap α) (key : String) (value : α) : OrderedMap α where
  entries := putEntry key value m.entries
  nodup_keys := nodup_keys_putEntry m.nodup_keys

/-- Drops a key; the others keep their order. -/
def erase (m : OrderedMap α) (key : String) : OrderedMap α where
  entries := m.entries.filter fun e => e.1 ≠ key
  nodup_keys := (List.filter_sublist.map Prod.fst).nodup m.nodup_keys

/-- Whether two maps have the same keys with the same values, in whatever order. -/
def sameEntries [DecidableEq α] (m n : OrderedMap α) : Bool :=
  m.entries.length = n.entries.length && m.entries.all fun e => n.lookup e.1 = some e.2

@[simp] theorem lookup_empty (key : String) : (empty : OrderedMap α).lookup key = none := rfl

theorem lookup_insert (m : OrderedMap α) (key : String) (value : α) (k : String) :
    (m.insert key value).lookup k = if k = key then some value else m.lookup k :=
  findEntry_putEntry key value m.entries k

theorem lookup_erase (m : OrderedMap α) (key k : String) :
    (m.erase key).lookup k = if k = key then none else m.lookup k :=
  findEntry_filter_ne key m.entries k

end OrderedMap

end GraphPattern
