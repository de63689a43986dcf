import UchiNetworks.Lib.Fault
import UchiNetworks.Lib.Run

/-!
# Two machines in step

A machine that can go wrong, and another one that says the same of simpler
states. `Alike R` relates what the two do: the results are related by `R`, or
both go wrong, and in the same way. It goes through computations step by step
(`Alike.bind`, `alike_same`), and `run_alike` carries it over any sequence of
events.
-/

namespace UchiNetworks.Lib

variable {φ α β γ δ σ τ ε : Type}

/-- The results are related, or it is the same fault. -/
inductive Alike (R : α → β → Prop) : Except φ α → Except φ β → Prop where
  | ok {a : α} {b : β} (h : R a b) : Alike R (.ok a) (.ok b)
  | error (fault : φ) : Alike R (.error fault) (.error fault)

variable {R : α → β → Prop} {S : γ → δ → Prop}

theorem Alike.bind {x : Except φ α} {y : Except φ β} {f : α → Except φ γ} {g : β → Except φ δ}
    (h : Alike R x y) (hf : ∀ a b, R a b → Alike S (f a) (g b)) : Alike S (x >>= f) (y >>= g) := by
  cases h with
  | ok hab => exact hf _ _ hab
  | error fault => exact .error fault

/-- The first one only finishes what both have done. -/
theorem Alike.bind_left {x : Except φ α} {y : Except φ β} {f : α → Except φ γ}
    {S : γ → β → Prop} (h : Alike R x y) (hf : ∀ a b, R a b → Alike S (f a) (.ok b)) :
    Alike S (x >>= f) y := by
  cases h with
  | ok hab => exact hf _ _ hab
  | error fault => exact .error fault

/-- The second one only finishes what both have done. -/
theorem Alike.bind_right {x : Except φ α} {y : Except φ β} {g : β → Except φ δ}
    {S : α → δ → Prop} (h : Alike R x y) (hg : ∀ a b, R a b → Alike S (.ok a) (g b)) :
    Alike S x (y >>= g) := by
  cases h with
  | ok hab => exact hg _ _ hab
  | error fault => exact .error fault

/-- Both begin with the same step. -/
theorem alike_same {x : Except φ α} {f : α → Except φ γ} {g : α → Except φ δ}
    (h : ∀ a, x = .ok a → Alike S (f a) (g a)) : Alike S (x >>= f) (x >>= g) := by
  cases x with
  | error fault => exact .error fault
  | ok a => exact h a rfl

/-- The first one takes a step of its own, which succeeds. -/
theorem alike_step {x : Except φ α} {a : α} {f : α → Except φ γ} {y : Except φ δ} (hx : x = .ok a)
    (h : Alike S (f a) y) : Alike S (x >>= f) y := by
  rw [hx]
  exact h

theorem alike_ite {c : Prop} [Decidable c] {x x' : Except φ α} {y y' : Except φ β}
    (hx : c → Alike R x y) (hy : ¬ c → Alike R x' y') :
    Alike R (if c then x else x') (if c then y else y') := by
  split
  case isTrue hc => exact hx hc
  case isFalse hc => exact hy hc

theorem Alike.toOption {x : Except φ α} {y : Except φ β} (h : Alike R x y) :
    Option.Rel R x.toOption y.toOption := by
  cases h with
  | ok hab => exact .some hab
  | error fault => exact .none

/-- **In step.** Two machines whose steps go alike are in related states after the
same events, or have both stopped. -/
theorem run_alike {f : σ → ε → Except φ σ} {g : τ → ε → Except φ τ} {R : σ → τ → Prop}
    (h : ∀ s t e, R s t → Alike R (f s e) (g t e)) {s : Option σ} {t : Option τ}
    (hst : Option.Rel R s t) (evs : List ε) :
    Option.Rel R (run (fun s e => s.bind fun s => (f s e).toOption) s evs)
      (run (fun t e => t.bind fun t => (g t e).toOption) t evs) := by
  induction evs generalizing s t with
  | nil => exact hst
  | cons e evs ih =>
    rw [run_cons, run_cons]
    apply ih
    cases hst with
    | some hr => exact (h _ _ e hr).toOption
    | none => exact .none

end UchiNetworks.Lib
