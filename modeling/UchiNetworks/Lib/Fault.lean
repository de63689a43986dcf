import Mathlib.Data.Option.Basic

/-!
# Computations that can go wrong

A C function that does not return normally is an `Except` whose error says what
went wrong. `getOr` turns a partial lookup into such a computation, `bind_ok`
peels a successful one apart step by step.
-/

namespace UchiNetworks.Lib

variable {φ α β : Type}

/-- The value, or the fault. -/
def getOr (fault : φ) : Option α → Except φ α
  | none => .error fault
  | some a => .ok a

@[simp] theorem getOr_some (fault : φ) (a : α) : getOr fault (some a) = .ok a := rfl

@[simp] theorem getOr_none (fault : φ) : (getOr fault none : Except φ α) = .error fault := rfl

theorem getOr_ok {fault : φ} {x : Option α} {a : α} : getOr fault x = .ok a ↔ x = some a := by
  cases x with
  | none => simp
  | some b => simp

theorem bind_ok {x : Except φ α} {f : α → Except φ β} {b : β} :
    (x >>= f) = .ok b ↔ ∃ a, x = .ok a ∧ f a = .ok b := by
  cases x with
  | error e => constructor
               · intro h; cases h
               · intro h; obtain ⟨a, ha, -⟩ := h; cases ha
  | ok a => constructor
            · intro h; exact ⟨a, rfl, h⟩
            · intro h; obtain ⟨a', ha, h⟩ := h; cases ha; exact h

@[simp] theorem ok_bind (a : α) (f : α → Except φ β) : ((.ok a : Except φ α) >>= f) = f a := rfl

@[simp] theorem error_bind (e : φ) (f : α → Except φ β) :
    ((.error e : Except φ α) >>= f) = .error e := rfl

/-! ## A fault that does not happen -/

/-- `x` may go wrong, but not with this fault. -/
def Avoids (fault : φ) (x : Except φ α) : Prop := x ≠ .error fault

theorem avoids_ok (fault : φ) (a : α) : Avoids fault (.ok a : Except φ α) := by
  intro h
  cases h

theorem avoids_error {fault fault' : φ} (h : fault' ≠ fault) :
    Avoids fault (.error fault' : Except φ α) := by
  intro heq
  exact h (Except.error.inj heq)

/-- A lookup that would report another fault. -/
theorem avoids_getOr {fault fault' : φ} (h : fault' ≠ fault) (x : Option α) :
    Avoids fault (getOr fault' x) := by
  cases x with
  | none => exact avoids_error h
  | some a => exact avoids_ok fault a

/-- A lookup that succeeds. -/
theorem avoids_getOr_some (fault fault' : φ) {x : Option α} (h : x.isSome) :
    Avoids fault (getOr fault' x) := by
  obtain ⟨a, rfl⟩ := Option.isSome_iff_exists.mp h
  exact avoids_ok fault a

theorem avoids_bind {fault : φ} {x : Except φ α} {f : α → Except φ β} (hx : Avoids fault x)
    (hf : ∀ a, x = .ok a → Avoids fault (f a)) : Avoids fault (x >>= f) := by
  cases x with
  | error e => exact fun h => hx (by rw [error_bind] at h; rw [Except.error.inj h])
  | ok a => exact hf a rfl

/-- One step, and then the next. -/
theorem avoids_bind_iff {fault : φ} {x : Except φ α} {f : α → Except φ β} :
    Avoids fault (x >>= f) ↔ Avoids fault x ∧ ∀ a, x = .ok a → Avoids fault (f a) := by
  cases x with
  | error e =>
    rw [error_bind]
    constructor
    · intro h
      exact ⟨fun heq => h (congrArg Except.error (Except.error.inj heq)), fun a ha => by cases ha⟩
    · intro h heq
      exact h.1 (congrArg Except.error (Except.error.inj heq))
  | ok a =>
    rw [ok_bind]
    constructor
    · intro h
      refine ⟨avoids_ok fault a, fun a' ha => ?_⟩
      rw [← Except.ok.inj ha]
      exact h
    · intro h
      exact h.2 a rfl

/-- A lookup that would report the fault has to succeed. -/
theorem avoids_lookup {fault : φ} {x : Option α} {f : α → Except φ β} :
    Avoids fault (getOr fault x >>= f) ↔ ∃ a, x = some a ∧ Avoids fault (f a) := by
  cases x with
  | none =>
    constructor
    · intro h
      exact absurd rfl h
    · intro h
      obtain ⟨a, ha, -⟩ := h
      cases ha
  | some a =>
    constructor
    · intro h
      exact ⟨a, rfl, h⟩
    · intro h
      obtain ⟨a', ha, h⟩ := h
      obtain rfl := Option.some.inj ha
      exact h

theorem avoids_ite {fault : φ} {c : Prop} [Decidable c] {x y : Except φ α}
    (hx : c → Avoids fault x) (hy : ¬ c → Avoids fault y) :
    Avoids fault (if c then x else y) := by
  by_cases hc : c
  · rw [if_pos hc]
    exact hx hc
  · rw [if_neg hc]
    exact hy hc

end UchiNetworks.Lib
