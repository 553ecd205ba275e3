import GraphPattern.Builder.Call
import GraphPattern.Proofs.Steps

/-!
# Steps of a session

How the steps end that read the builder, change it, bring in a result from outside or give nothing.
-/

namespace GraphPattern.BuildM

variable {β α : Type}

@[simp] theorem builder_eq_ok {s t : Session β} {b : β} :
    builder s = .ok b t ↔ s.builder = b ∧ s = t := by
  simp [builder]

@[simp] theorem builder_ne_error {s t : Session β} {e : Error} : builder s ≠ .error e t := nofun

@[simp] theorem update_eq_ok {f : β → β} {s t : Session β} {u : Unit} :
    update f s = .ok u t ↔ { s with builder := f s.builder } = t := by
  simp [update]

@[simp] theorem update_ne_error {f : β → β} {s t : Session β} {e : Error} :
    update f s ≠ .error e t := nofun

@[simp] theorem ofExcept_eq_ok {x : Except Error α} {s t : Session β} {a : α} :
    ofExcept x s = .ok a t ↔ x = .ok a ∧ s = t := by
  cases x <;> simp [ofExcept]

@[simp] theorem ofExcept_eq_error {x : Except Error α} {s t : Session β} {e : Error} :
    ofExcept x s = .error e t ↔ x = .error e ∧ s = t := by
  cases x <;> simp [ofExcept]

/-- What a call gives, or why it fails. -/
def result (m : BuildM β α) (s : Session β) : Except Error α :=
  match m s with
  | .ok a _ => .ok a
  | .error e _ => .error e

/-- The session that a call leaves, whether it succeeds or fails. -/
def session (m : BuildM β α) (s : Session β) : Session β :=
  match m s with
  | .ok _ t => t
  | .error _ t => t

open Steps

theorem ok_of_void {m : BuildM β Unit} {s t : Session β} {r : Option Term}
    (h : m.void s = .ok r t) : m s = .ok () t := by
  simp only [void, bind_eq_ok, pure_eq_ok] at h
  obtain ⟨_, _, hm, rfl, rfl⟩ := h
  exact hm

theorem void_eq_error {m : BuildM β Unit} {s t : Session β} {e : Error} :
    m.void s = .error e t ↔ m s = .error e t := by
  simp only [void, bind_eq_error, pure_ne_error, and_false, exists_false, or_false]

/-! ## Sessions that are mapped -/

theorem ofExcept_mapResult (x : Except Error α) (g : Session β → Session β) (s : Session β) :
    ofExcept x (g s) = mapResult id g (ofExcept x s) := by
  cases x <;> rfl

theorem void_mapResult {m : BuildM β Unit} {g : Session β → Session β} {s : Session β}
    (h : m (g s) = mapResult id g (m s)) : m.void (g s) = mapResult id g (m.void s) :=
  bind_mapResult h fun _ _ _ => rfl

/-! ## The number of the next label -/

theorem grows_builder : Grows Session.nextLabel (builder (β := β)) where
  ok h := by
    obtain ⟨_, rfl⟩ := builder_eq_ok.mp h
    exact Nat.le_refl _
  error h := absurd h builder_ne_error

theorem grows_update (f : β → β) : Grows Session.nextLabel (update f) where
  ok h := by
    obtain rfl := update_eq_ok.mp h
    exact Nat.le_refl _
  error h := absurd h update_ne_error

theorem grows_ofExcept (x : Except Error α) :
    Grows Session.nextLabel (ofExcept (β := β) x) where
  ok h := by
    obtain ⟨_, rfl⟩ := ofExcept_eq_ok.mp h
    exact Nat.le_refl _
  error h := by
    obtain ⟨_, rfl⟩ := ofExcept_eq_error.mp h
    exact Nat.le_refl _

theorem grows_void {m : BuildM β Unit} (hm : Grows Session.nextLabel m) :
    Grows Session.nextLabel m.void :=
  hm.bind fun _ => grows_pure none

end GraphPattern.BuildM
