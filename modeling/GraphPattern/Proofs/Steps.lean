/-!
# Steps that may fail

How a computation that is made of several steps ends: it succeeds if all of them do, each in the
state that the one before it left (`bind_eq_ok`), and it fails at the first that fails
(`bind_eq_error`). The same without a state is `except_bind_eq_ok`. A measure of the state that no step
lowers is not lowered by the whole (`Grows.bind`). Two computations whose steps end alike, up to a map
of the values and one of the states, end alike (`bind_mapResult`).
-/

namespace GraphPattern.Steps

variable {ε σ α γ : Type}

theorem bind_eq_ok {m : EStateM ε σ α} {f : α → EStateM ε σ γ} {s t : σ} {c : γ} :
    (m >>= f) s = .ok c t ↔ ∃ a r, m s = .ok a r ∧ f a r = .ok c t := by
  show EStateM.bind m f s = .ok c t ↔ _
  unfold EStateM.bind
  cases m s with
  | ok a r =>
    constructor
    · intro h
      exact ⟨a, r, rfl, h⟩
    · intro h
      obtain ⟨_, _, hm, h⟩ := h
      cases hm
      exact h
  | error e r => simp

theorem bind_eq_error {m : EStateM ε σ α} {f : α → EStateM ε σ γ} {s t : σ} {e : ε} :
    (m >>= f) s = .error e t ↔ m s = .error e t ∨ ∃ a r, m s = .ok a r ∧ f a r = .error e t := by
  show EStateM.bind m f s = .error e t ↔ _
  unfold EStateM.bind
  cases m s with
  | ok a r =>
    constructor
    · intro h
      exact .inr ⟨a, r, rfl, h⟩
    · intro h
      rcases h with hm | ⟨_, _, hm, h⟩
      · cases hm
      · cases hm
        exact h
  | error e r => simp

theorem bind_of_eq_ok {m : EStateM ε σ α} {f : α → EStateM ε σ γ} {s t : σ} {a : α}
    (h : m s = .ok a t) : (m >>= f) s = f a t := by
  show EStateM.bind m f s = _
  rw [EStateM.bind, h]

theorem bind_of_eq_error {m : EStateM ε σ α} {f : α → EStateM ε σ γ} {s t : σ} {e : ε}
    (h : m s = .error e t) : (m >>= f) s = .error e t := by
  show EStateM.bind m f s = _
  rw [EStateM.bind, h]

@[simp] theorem pure_eq_ok {s t : σ} {a b : α} :
    (pure a : EStateM ε σ α) s = .ok b t ↔ a = b ∧ s = t := by
  show EStateM.Result.ok a s = .ok b t ↔ _
  simp

@[simp] theorem pure_ne_error {s t : σ} {a : α} {e : ε} :
    (pure a : EStateM ε σ α) s ≠ .error e t := nofun

/-! ## Results -/

/-- The result with another value and in another state. -/
def mapResult (f : α → γ) (g : σ → σ) : EStateM.Result ε σ α → EStateM.Result ε σ γ
  | .ok a s => .ok (f a) (g s)
  | .error e s => .error e (g s)

@[simp] theorem mapResult_id (r : EStateM.Result ε σ α) : mapResult id id r = r := by
  cases r <;> rfl

theorem mapResult_mapResult {δ : Type} (f : α → γ) (h : γ → δ) (r : EStateM.Result ε σ α) :
    mapResult h id (mapResult f id r) = mapResult (h ∘ f) id r := by
  cases r <;> rfl

theorem mapResult_eq_ok {f : α → γ} {r : EStateM.Result ε σ α} {c : γ} {t : σ} :
    mapResult f id r = .ok c t ↔ ∃ a, r = .ok a t ∧ f a = c := by
  cases r with
  | ok a s =>
    constructor
    · intro h
      cases h
      exact ⟨a, rfl, rfl⟩
    · intro h
      obtain ⟨_, hr, rfl⟩ := h
      cases hr
      rfl
  | error e s => simp [mapResult]

theorem mapResult_eq_error {f : α → γ} {r : EStateM.Result ε σ α} {e : ε} {t : σ} :
    mapResult f id r = .error e t ↔ r = .error e t := by
  cases r <;> simp [mapResult]

theorem map_eq_mapResult (f : α → γ) (m : EStateM ε σ α) (s : σ) :
    (f <$> m) s = mapResult f id (m s) := by
  show EStateM.map f m s = _
  unfold EStateM.map
  cases m s <;> rfl

theorem map_eq_ok {m : EStateM ε σ α} {f : α → γ} {s t : σ} {c : γ} :
    (f <$> m) s = .ok c t ↔ ∃ a, m s = .ok a t ∧ f a = c := by
  rw [map_eq_mapResult, mapResult_eq_ok]

theorem map_eq_error {m : EStateM ε σ α} {f : α → γ} {s t : σ} {e : ε} :
    (f <$> m) s = .error e t ↔ m s = .error e t := by
  rw [map_eq_mapResult, mapResult_eq_error]

/-! ## Measures of the state -/

/-- However the computation ends, the measure of the state is not lower than before. -/
structure Grows (size : σ → Nat) (m : EStateM ε σ α) : Prop where
  ok : ∀ {s t a}, m s = .ok a t → size s ≤ size t
  error : ∀ {s t e}, m s = .error e t → size s ≤ size t

variable {size : σ → Nat}

theorem grows_pure (a : α) : Grows size (pure a : EStateM ε σ α) where
  ok h := by
    obtain ⟨_, rfl⟩ := pure_eq_ok.mp h
    exact Nat.le_refl _
  error h := absurd h pure_ne_error

theorem grows_throw (e : ε) : Grows size (throw e : EStateM ε σ α) where
  ok h := nomatch h
  error h := by
    cases h
    exact Nat.le_refl _

theorem Grows.bind {m : EStateM ε σ α} {f : α → EStateM ε σ γ} (hm : Grows size m)
    (hf : ∀ a, Grows size (f a)) : Grows size (m >>= f) where
  ok h := by
    obtain ⟨a, r, ha, hr⟩ := bind_eq_ok.mp h
    exact Nat.le_trans (hm.ok ha) ((hf a).ok hr)
  error h := by
    rcases bind_eq_error.mp h with ha | ⟨a, r, ha, hr⟩
    · exact hm.error ha
    · exact Nat.le_trans (hm.ok ha) ((hf a).error hr)

/-- A computation that ends like another one, but for its value. -/
theorem Grows.of_mapResult {m : EStateM ε σ α} {m' : EStateM ε σ γ} {f : α → γ} (hm : Grows size m)
    (h : ∀ s, m' s = mapResult f id (m s)) : Grows size m' where
  ok hok := by
    rw [h] at hok
    obtain ⟨_, ha, _⟩ := mapResult_eq_ok.mp hok
    exact hm.ok ha
  error herror := by
    rw [h] at herror
    exact hm.error (mapResult_eq_error.mp herror)

theorem Grows.map {m : EStateM ε σ α} (hm : Grows size m) (f : α → γ) : Grows size (f <$> m) :=
  hm.of_mapResult (map_eq_mapResult f m)

/-! ## Computations that end alike -/

/-- A computation and one from the mapped state end alike if their first steps do and their rests
do. -/
theorem bind_mapResult {α' γ' : Type} {m : EStateM ε σ α} {m' : EStateM ε σ α'}
    {k : α → EStateM ε σ γ} {k' : α' → EStateM ε σ γ'} {f : α → α'} {h : γ → γ'} {g : σ → σ} {s : σ}
    (hm : m' (g s) = mapResult f g (m s))
    (hk : ∀ a t, m s = .ok a t → k' (f a) (g t) = mapResult h g (k a t)) :
    (m' >>= k') (g s) = mapResult h g ((m >>= k) s) := by
  show EStateM.bind m' k' (g s) = mapResult h g (EStateM.bind m k s)
  unfold EStateM.bind
  rw [hm]
  cases hs : m s with
  | ok a t => exact hk a t hs
  | error e t => rfl

/-! ## Without a state -/

theorem except_ok_bind (a : α) (f : α → Except ε γ) : (.ok a >>= f) = f a := rfl

theorem except_bind_eq_ok {m : Except ε α} {f : α → Except ε γ} {c : γ} :
    (m >>= f) = .ok c ↔ ∃ a, m = .ok a ∧ f a = .ok c := by
  cases m with
  | ok a =>
    constructor
    · intro h
      exact ⟨a, rfl, h⟩
    · intro h
      obtain ⟨_, hm, h⟩ := h
      cases hm
      exact h
  | error e =>
    constructor
    · intro h
      cases h
    · intro h
      obtain ⟨_, hm, _⟩ := h
      cases hm

/-- Only what comes after a step that succeeds counts. -/
theorem except_bind_congr {m : Except ε α} {f g : α → Except ε γ}
    (h : ∀ a, m = .ok a → f a = g a) : (m >>= f) = (m >>= g) := by
  cases m with
  | ok a => exact h a rfl
  | error e => rfl

theorem mapError_eq_ok {ε' : Type} {m : Except ε α} {f : ε → ε'} {a : α} :
    m.mapError f = .ok a ↔ m = .ok a := by
  cases m with
  | ok b =>
    show Except.ok b = .ok a ↔ Except.ok b = .ok a
    rw [Except.ok.injEq, Except.ok.injEq]
  | error e =>
    show Except.error (f e) = .ok a ↔ Except.error e = .ok a
    constructor
    · intro h
      cases h
    · intro h
      cases h

end GraphPattern.Steps
