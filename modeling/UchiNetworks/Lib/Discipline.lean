import UchiNetworks.Lib.Program

/-!
# Mutex discipline of a program

`Orderly` follows a program alone and asks of each mutex operation that it is
well formed: nothing is locked that is held, nothing is unlocked that is not, and
nothing is held where the thread ends. `Outputs` follows it likewise and asks of
each output that its success or failure is one that `C` allows for the mutexes
held.

`Disciplined C held held'` says that the two come to the same for a program that
starts with `held` and, if it goes on, ends with `held'`, whatever it finds in the
shared state. It is closed under the constructs of programs, with two rules for
what follows a failed output: `checkedOutput`, where no failure is allowed since
what then happens is not orderly, and `bareOutput`, where only failure is.
-/

namespace UchiNetworks.Lib.Prog

variable {σ μ ε φ α β γ : Type} [DecidableEq μ]

/-- Each mutex operation is well formed, no mutex is held at the end of the
thread, and where the program returns `fin` holds. -/
def Orderly (ok : Nat → Bool) :
    Prog σ μ ε φ α → (α → World σ μ ε → Prop) → World σ μ ε → Prop
  | ret a, fin, w => fin a w
  | crash _, _, _ => True
  | exit, _, w => w.held = []
  | lock m k, fin, w => m ∉ w.held ∧ k.Orderly ok fin { w with held := m :: w.held }
  | unlock m k, fin, w => m ∈ w.held ∧ k.Orderly ok fin { w with held := w.held.erase m }
  | emit e k, fin, w => (k (ok w.out.length)).Orderly ok fin { w with out := w.out ++ [e] }
  | read k, fin, w => (k w.state).Orderly ok fin w
  | write f k, fin, w => k.Orderly ok fin { w with state := f w.state }

/-- Each output that is made works, or fails, as `C` allows. -/
def Outputs (ok : Nat → Bool) (C : List μ → ε → Bool → Prop) :
    Prog σ μ ε φ α → (α → World σ μ ε → Prop) → World σ μ ε → Prop
  | ret a, fin, w => fin a w
  | crash _, _, _ => True
  | exit, _, _ => True
  | lock m k, fin, w => m ∉ w.held → k.Outputs ok C fin { w with held := m :: w.held }
  | unlock m k, fin, w => k.Outputs ok C fin { w with held := w.held.erase m }
  | emit e k, fin, w => C w.held e (ok w.out.length) ∧
      (k (ok w.out.length)).Outputs ok C fin { w with out := w.out ++ [e] }
  | read k, fin, w => (k w.state).Outputs ok C fin w
  | write f k, fin, w => k.Outputs ok C fin { w with state := f w.state }

variable {ok : Nat → Bool} {C : List μ → ε → Bool → Prop} {w : World σ μ ε}

theorem orderly_bind {p : Prog σ μ ε φ α} {g : α → Prog σ μ ε φ β} {fin : β → World σ μ ε → Prop} :
    (p >>= g).Orderly ok fin w ↔ p.Orderly ok (fun a w' => (g a).Orderly ok fin w') w := by
  show (p.andThen g).Orderly ok fin w ↔ _
  induction p generalizing w with
  | ret a => exact Iff.rfl
  | crash f => exact Iff.rfl
  | exit => exact Iff.rfl
  | lock m k ih => exact and_congr_right fun _ => ih
  | unlock m k ih => exact and_congr_right fun _ => ih
  | emit e k ih => exact ih _
  | read k ih => exact ih _
  | write f k ih => exact ih

theorem outputs_bind {p : Prog σ μ ε φ α} {g : α → Prog σ μ ε φ β} {fin : β → World σ μ ε → Prop} :
    (p >>= g).Outputs ok C fin w ↔ p.Outputs ok C (fun a w' => (g a).Outputs ok C fin w') w := by
  show (p.andThen g).Outputs ok C fin w ↔ _
  induction p generalizing w with
  | ret a => exact Iff.rfl
  | crash f => exact Iff.rfl
  | exit => exact Iff.rfl
  | lock m k ih => exact imp_congr_right fun _ => ih
  | unlock m k ih => exact ih
  | emit e k ih => exact and_congr_right fun _ => ih _
  | read k ih => exact ih _
  | write f k ih => exact ih

/-- Started with `held`, the program is orderly exactly when its outputs are as `C`
allows; if it returns it holds `held'`. -/
def Disciplined (C : List μ → ε → Bool → Prop) (held held' : List μ) (p : Prog σ μ ε φ α) : Prop :=
  ∀ (ok : Nat → Bool) (s : σ) (out : List ε) (fin fin' : α → World σ μ ε → Prop),
    (∀ a s' out', fin a ⟨s', held', out'⟩ ↔ fin' a ⟨s', held', out'⟩) →
    (p.Orderly ok fin ⟨s, held, out⟩ ↔ p.Outputs ok C fin' ⟨s, held, out⟩)

/-- Started with `held`, the program is never orderly. -/
def Disorderly (held : List μ) (p : Prog σ μ ε φ α) : Prop :=
  ∀ (ok : Nat → Bool) (s : σ) (out : List ε) (fin : α → World σ μ ε → Prop),
    ¬ p.Orderly ok fin ⟨s, held, out⟩

variable {held held' held'' : List μ}

/-! ## Programs that are never orderly -/

theorem Disorderly.of_held {m : μ} (h : m ∈ held) :
    Disorderly held (acquire m : Prog σ μ ε φ Unit) :=
  fun _ _ _ _ horderly => horderly.1 h

theorem Disorderly.of_free {m : μ} (h : m ∉ held) :
    Disorderly held (release m : Prog σ μ ε φ Unit) :=
  fun _ _ _ _ horderly => h horderly.1

theorem Disorderly.bind {p : Prog σ μ ε φ α} {g : α → Prog σ μ ε φ β} (h : Disorderly held p) :
    Disorderly held (p >>= g) :=
  fun ok s out _ horderly => h ok s out _ (orderly_bind.mp horderly)

theorem Disorderly.acquire_bind {m : μ} {g : Unit → Prog σ μ ε φ β}
    (h : Disorderly (m :: held) (g ())) : Disorderly held (acquire m >>= g) :=
  fun ok s out fin horderly => h ok s out fin horderly.2

theorem Disorderly.look_bind {f : σ → α} {g : α → Prog σ μ ε φ β}
    (h : ∀ a, Disorderly held (g a)) : Disorderly held (look f >>= g) :=
  fun ok s out fin horderly => h (f s) ok s out fin horderly

theorem Disorderly.change_bind {f : σ → σ} {g : Unit → Prog σ μ ε φ β}
    (h : Disorderly held (g ())) : Disorderly held (change f >>= g) :=
  fun ok s out fin horderly => h ok (f s) out fin horderly

theorem Disorderly.output_bind {e : ε} {g : Bool → Prog σ μ ε φ β}
    (h : ∀ b, Disorderly held (g b)) : Disorderly held (output e >>= g) :=
  fun ok s out fin horderly => h (ok out.length) ok s (out ++ [e]) fin horderly

/-- No turn of the loop is orderly, and neither is what follows it. -/
theorem Disorderly.forEach_bind {body : α → β → Prog σ μ ε φ β} {g : β → Prog σ μ ε φ γ}
    (hbody : ∀ x b, Disorderly held (body x b)) (hg : ∀ b, Disorderly held (g b)) (xs : List α)
    (b : β) : Disorderly held (forEach (fun _ => true) body xs b >>= g) := by
  cases xs with
  | nil => exact hg b
  | cons x xs => exact (Disorderly.bind (hbody x b)).bind

/-! ## Disciplined programs -/

theorem Disciplined.pure (a : α) : Disciplined C held held (pure a : Prog σ μ ε φ α) :=
  fun _ s out _ _ hfin => hfin a s out

theorem Disciplined.crash (f : φ) : Disciplined C held held' (crash f : Prog σ μ ε φ α) :=
  fun _ _ _ _ _ _ => Iff.rfl

theorem Disciplined.exit : Disciplined C ([] : List μ) held' (exit : Prog σ μ ε φ α) :=
  fun _ _ _ _ _ _ => ⟨fun _ => trivial, fun _ => rfl⟩

theorem Disciplined.bind {p : Prog σ μ ε φ α} {g : α → Prog σ μ ε φ β}
    (hp : Disciplined C held held' p) (hg : ∀ a, Disciplined C held' held'' (g a)) :
    Disciplined C held held'' (p >>= g) := by
  intro ok s out fin fin' hfin
  rw [orderly_bind, outputs_bind]
  exact hp ok s out _ _ fun a s' out' => hg a ok s' out' fin fin' hfin

theorem Disciplined.acquire_bind {m : μ} {g : Unit → Prog σ μ ε φ β} (hm : m ∉ held)
    (h : Disciplined C (m :: held) held' (g ())) : Disciplined C held held' (acquire m >>= g) := by
  intro ok s out fin fin' hfin
  have hrest := h ok s out fin fin' hfin
  exact ⟨fun horderly _ => hrest.mp horderly.2, fun houtputs => ⟨hm, hrest.mpr (houtputs hm)⟩⟩

/-- The mutex taken last is given back. -/
theorem Disciplined.release_bind {m : μ} {g : Unit → Prog σ μ ε φ β}
    (h : Disciplined C held held' (g ())) :
    Disciplined C (m :: held) held' (release m >>= g) := by
  intro ok s out fin fin' hfin
  have hrest := h ok s out fin fin' hfin
  show m ∈ m :: held ∧ (g ()).Orderly ok fin ⟨s, (m :: held).erase m, out⟩ ↔
    (g ()).Outputs ok C fin' ⟨s, (m :: held).erase m, out⟩
  rw [List.erase_cons_head]
  exact ⟨fun horderly => hrest.mp horderly.2,
    fun houtputs => ⟨List.mem_cons_self, hrest.mpr houtputs⟩⟩

theorem Disciplined.acquire {m : μ} (hm : m ∉ held) :
    Disciplined C held (m :: held) (acquire m : Prog σ μ ε φ Unit) :=
  .acquire_bind hm (.pure ())

theorem Disciplined.release (m : μ) :
    Disciplined C (m :: held) held (release m : Prog σ μ ε φ Unit) :=
  .release_bind (.pure ())

/-- What is looked at is a function of some state. -/
theorem Disciplined.look_bind {f : σ → α} {g : α → Prog σ μ ε φ β}
    (h : ∀ s, Disciplined C held held' (g (f s))) : Disciplined C held held' (look f >>= g) :=
  fun ok s out fin fin' hfin => h s ok s out fin fin' hfin

/-- Two looks at the same state. -/
theorem Disciplined.looks_bind {f : σ → α} {f' : σ → γ} {g : α → γ → Prog σ μ ε φ β}
    (h : ∀ s, Disciplined C held held' (g (f s) (f' s))) :
    Disciplined C held held' (look f >>= fun a => look f' >>= fun b => g a b) :=
  fun ok s out fin fin' hfin => h s ok s out fin fin' hfin

theorem Disciplined.change_bind {f : σ → σ} {g : Unit → Prog σ μ ε φ β}
    (h : Disciplined C held held' (g ())) : Disciplined C held held' (change f >>= g) :=
  fun ok s out fin fin' hfin => h ok (f s) out fin fin' hfin

theorem Disciplined.change (f : σ → σ) :
    Disciplined C held held (change f : Prog σ μ ε φ Unit) := .change_bind (.pure ())

theorem Disciplined.deref_bind {f : φ} {x : Option α} {g : α → Prog σ μ ε φ β}
    (h : ∀ a, x = some a → Disciplined C held held' (g a)) :
    Disciplined C held held' (deref f x >>= g) := by
  cases x with
  | none => exact .crash f
  | some a => exact h a rfl

theorem Disciplined.onlyIf {c : Bool} {p : Prog σ μ ε φ Unit}
    (h : c = true → Disciplined C held held p) : Disciplined C held held (onlyIf c p) := by
  cases c with
  | false => exact .pure ()
  | true => exact h rfl

theorem Disciplined.ite {c : Prop} [Decidable c] {p q : Prog σ μ ε φ β}
    (hp : c → Disciplined C held held' p) (hq : ¬ c → Disciplined C held held' q) :
    Disciplined C held held' (if c then p else q) := by
  by_cases hc : c
  · rw [if_pos hc]
    exact hp hc
  · rw [if_neg hc]
    exact hq hc

theorem Disciplined.forEach {go : β → Bool} {body : α → β → Prog σ μ ε φ β}
    (h : ∀ x b, Disciplined C held held (body x b)) :
    ∀ (xs : List α) (b : β), Disciplined C held held (forEach go body xs b) := by
  intro xs
  induction xs with
  | nil => exact fun b => .pure b
  | cons x xs ih =>
    intro b
    unfold Prog.forEach
    exact .ite (fun _ => (h x b).bind ih) fun _ => .pure b

theorem Disciplined.lockedLook_bind {m : μ} {f : σ → α} {g : α → Prog σ μ ε φ β} (hm : m ∉ held)
    (h : ∀ s, Disciplined C held held' (g (f s))) :
    Disciplined C held held'
      (Prog.acquire m >>= fun _ => look f >>= fun a => Prog.release m >>= fun _ => g a) :=
  .acquire_bind hm (.look_bind fun s => .release_bind (h s))

theorem Disciplined.lockedChange_bind {m : μ} {f : σ → σ} {g : Unit → Prog σ μ ε φ β}
    (hm : m ∉ held) (h : Disciplined C held held' (g ())) :
    Disciplined C held held'
      (Prog.acquire m >>= fun _ => Prog.change f >>= fun _ => Prog.release m >>= g) :=
  .acquire_bind hm (.change_bind (.release_bind h))

theorem Disciplined.lockedChange {m : μ} {f : σ → σ} (hm : m ∉ held) :
    Disciplined C held held (Prog.acquire m >>= fun _ => Prog.change f >>= fun _ =>
      Prog.release m : Prog σ μ ε φ Unit) :=
  .acquire_bind hm (.change_bind (.release m))

/-- An output whose result does not matter. -/
theorem Disciplined.output_bind {e : ε} {g : Bool → Prog σ μ ε φ β} (hC : ∀ b, C held e b)
    (h : ∀ b, Disciplined C held held' (g b)) : Disciplined C held held' (output e >>= g) := by
  intro ok s out fin fin' hfin
  have hrest := h (ok out.length) ok s (out ++ [e]) fin fin' hfin
  exact ⟨fun horderly => ⟨hC _, hrest.mp horderly⟩, fun houtputs => hrest.mpr houtputs.2⟩

/-- An output that has to work, since what follows its failure is not orderly. -/
theorem Disciplined.checkedOutput {e : ε} {fail : Prog σ μ ε φ Unit}
    {rest : Unit → Prog σ μ ε φ β} (hC : ∀ b, C held e b ↔ b = true)
    (hfail : Disorderly held fail) (hrest : Disciplined C held held' (rest ())) :
    Disciplined C held held' (output e >>= fun ok => Prog.onlyIf (!ok) fail >>= rest) := by
  intro ok s out fin fin' hfin
  have hgoes := hrest ok s (out ++ [e]) fin fin' hfin
  show (Prog.onlyIf (!ok out.length) fail >>= rest).Orderly ok fin ⟨s, held, out ++ [e]⟩ ↔
    C held e (ok out.length) ∧
      (Prog.onlyIf (!ok out.length) fail >>= rest).Outputs ok C fin' ⟨s, held, out ++ [e]⟩
  rw [hC]
  cases ok out.length with
  | false =>
    refine ⟨fun horderly => absurd horderly ?_, fun houtputs => absurd houtputs.1 (by simp)⟩
    exact hfail.bind ok s (out ++ [e]) fin
  | true => exact ⟨fun horderly => ⟨rfl, hgoes.mp horderly⟩, fun houtputs => hgoes.mpr houtputs.2⟩

/-- An output that has to fail, since what follows its success is not orderly. -/
theorem Disciplined.bareOutput {e : ε} {fail : Prog σ μ ε φ Unit}
    {rest : Unit → Prog σ μ ε φ β} (hC : ∀ b, C held e b ↔ b = false)
    (hfail : Disciplined C held held' (fail >>= rest)) (hrest : Disorderly held (rest ())) :
    Disciplined C held held' (output e >>= fun ok => Prog.onlyIf (!ok) fail >>= rest) := by
  intro ok s out fin fin' hfin
  have hends := hfail ok s (out ++ [e]) fin fin' hfin
  show (Prog.onlyIf (!ok out.length) fail >>= rest).Orderly ok fin ⟨s, held, out ++ [e]⟩ ↔
    C held e (ok out.length) ∧
      (Prog.onlyIf (!ok out.length) fail >>= rest).Outputs ok C fin' ⟨s, held, out ++ [e]⟩
  rw [hC]
  cases ok out.length with
  | false => exact ⟨fun horderly => ⟨rfl, hends.mp horderly⟩, fun houtputs => hends.mpr houtputs.2⟩
  | true =>
    exact ⟨fun horderly => absurd horderly (hrest ok s (out ++ [e]) fin),
      fun houtputs => absurd houtputs.1 (by simp)⟩

/-- The same at the end of a program. -/
theorem Disciplined.checkedOutput_last {e : ε} {fail : Prog σ μ ε φ Unit}
    (hC : ∀ b, C held e b ↔ b = true) (hfail : Disorderly held fail) :
    Disciplined C held held (output e >>= fun ok => Prog.onlyIf (!ok) fail) := by
  have hends : Disciplined C held held
      (output e >>= fun ok => Prog.onlyIf (!ok) fail >>= Prog.ret) :=
    .checkedOutput hC hfail (.pure ())
  have hret : ∀ p : Prog σ μ ε φ Unit, p >>= Prog.ret = p := andThen_ret
  simp only [hret] at hends
  exact hends

end UchiNetworks.Lib.Prog
