import Mathlib.Logic.Relation
import UchiNetworks.Lib.Threads

/-!
# The order in which threads take mutexes

A `Nesting` says which mutex may be taken under which others, and which part of the
state one of them, the guard, protects. `Nests` follows one program, whatever the
others do meanwhile: between its own actions any state may come up, except that the
protected part stays as it is while the program holds the guard. `Neat` is the
form of it that composes.

Any number of threads whose programs are neat stay so (`Nested.act`), and then who
waits for whom is decided by the nesting alone (`Nested.waits`).
-/

namespace UchiNetworks.Lib

variable {τ σ μ ν ε φ α β γ : Type}

/-- `may held m`: under `held`, `m` may be taken. `guard` protects `view`. -/
structure Nesting (σ μ ν : Type) where
  may : List μ → μ → Prop
  guard : μ
  view : σ → ν

/-- The change leaves what the guard protects. -/
def Nesting.Spares (D : Nesting σ μ ν) (f : σ → σ) : Prop := ∀ s, D.view (f s) = D.view s

namespace Prog

variable [DecidableEq μ]

/-- Each mutex is taken where `D` allows it and is not held already, the protected
part is changed under the guard alone, and the guard is given back by who holds it.
`v` is the protected part, as far as the guard is held. The outputs work, and where the
program returns `fin` holds. -/
def Nests (D : Nesting σ μ ν) : Prog σ μ ε φ α → (α → List μ → ν → Prop) → List μ → ν → Prop
  | ret a, fin, held, v => fin a held v
  | crash _, _, _, _ => True
  | exit, _, _, _ => True
  | lock m k, fin, held, v =>
    m ∉ held ∧ D.may held m ∧ ∀ v', (m ≠ D.guard → v' = v) → k.Nests D fin (m :: held) v'
  | unlock m k, fin, held, v => (m = D.guard → m ∈ held) ∧ k.Nests D fin (held.erase m) v
  | emit _ k, fin, held, v => (k true).Nests D fin held v
  | read k, fin, held, v => ∀ s, (D.guard ∈ held → D.view s = v) → (k s).Nests D fin held v
  | write f k, fin, held, v =>
    (D.guard ∈ held ∨ D.Spares f) ∧ ∀ v', (D.Spares f → v' = v) → k.Nests D fin held v'

/-- Started with `held`, the program nests as `D` asks; if it returns it holds `held'`. -/
def Neat (D : Nesting σ μ ν) (held held' : List μ) (p : Prog σ μ ε φ α) : Prop :=
  ∀ (v : ν) (fin : α → List μ → ν → Prop), (∀ a v', fin a held' v') → p.Nests D fin held v

variable {D : Nesting σ μ ν} {held held' held'' : List μ} {fin : β → List μ → ν → Prop} {v : ν}

theorem nests_bind {p : Prog σ μ ε φ α} {g : α → Prog σ μ ε φ β} :
    (p >>= g).Nests D fin held v ↔
      p.Nests D (fun a held' v' => (g a).Nests D fin held' v') held v := by
  show (p.andThen g).Nests D fin held v ↔ _
  induction p generalizing held v with
  | ret a => exact Iff.rfl
  | crash f => exact Iff.rfl
  | exit => exact Iff.rfl
  | lock m k ih =>
    exact and_congr_right fun _ => and_congr_right fun _ => forall_congr' fun _ =>
      imp_congr_right fun _ => ih
  | unlock m k ih => exact and_congr_right fun _ => ih
  | emit e k ih => exact ih true
  | read k ih => exact forall_congr' fun s => imp_congr_right fun _ => ih s
  | write f k ih =>
    exact and_congr_right fun _ => forall_congr' fun _ => imp_congr_right fun _ => ih

/-! ## Neat programs -/

theorem Neat.pure (a : α) : Neat D held held (pure a : Prog σ μ ε φ α) :=
  fun v _ hfin => hfin a v

theorem Neat.crash (f : φ) : Neat D held held' (crash f : Prog σ μ ε φ α) := fun _ _ _ => trivial

theorem Neat.exit : Neat D held held' (exit : Prog σ μ ε φ α) := fun _ _ _ => trivial

theorem Neat.bind {p : Prog σ μ ε φ α} {g : α → Prog σ μ ε φ β} (hp : Neat D held held' p)
    (hg : ∀ a, Neat D held' held'' (g a)) : Neat D held held'' (p >>= g) := by
  intro v fin hfin
  exact nests_bind.mpr (hp v _ fun a v' => hg a v' fin hfin)

theorem Neat.acquire_bind {m : μ} {g : Unit → Prog σ μ ε φ β} (hm : m ∉ held) (hmay : D.may held m)
    (h : Neat D (m :: held) held' (g ())) : Neat D held held' (acquire m >>= g) :=
  fun _ fin hfin => ⟨hm, hmay, fun v' _ => h v' fin hfin⟩

/-- The mutex taken last is given back. -/
theorem Neat.release_bind {m : μ} {g : Unit → Prog σ μ ε φ β} (h : Neat D held held' (g ())) :
    Neat D (m :: held) held' (release m >>= g) := by
  intro v fin hfin
  refine ⟨fun _ => List.mem_cons_self, ?_⟩
  rw [List.erase_cons_head]
  exact h v fin hfin

theorem Neat.release (m : μ) : Neat D (m :: held) held (release m : Prog σ μ ε φ Unit) :=
  .release_bind (.pure ())

/-- A mutex is given back that is not held. -/
theorem Neat.release_free {m : μ} (hm : m ∉ held) (hguard : m ≠ D.guard) :
    Neat D held held (Prog.release m : Prog σ μ ε φ Unit) := by
  intro v fin hfin
  refine ⟨fun h => absurd h hguard, ?_⟩
  rw [List.erase_of_not_mem hm]
  exact hfin () v

theorem Neat.look_bind {f : σ → α} {g : α → Prog σ μ ε φ β}
    (h : ∀ s, Neat D held held' (g (f s))) : Neat D held held' (look f >>= g) :=
  fun v fin hfin s _ => h s v fin hfin

/-- Two looks under the guard see one protected part. -/
theorem Neat.looks_bind {f : σ → α} {f' : σ → γ} {g : α → γ → Prog σ μ ε φ β}
    (hguard : D.guard ∈ held)
    (h : ∀ s s', D.view s = D.view s' → Neat D held held' (g (f s) (f' s'))) :
    Neat D held held' (look f >>= fun a => look f' >>= fun b => g a b) :=
  fun v fin hfin s hs s' hs' => h s s' ((hs hguard).trans (hs' hguard).symm) v fin hfin

theorem Neat.change_bind {f : σ → σ} {g : Unit → Prog σ μ ε φ β}
    (hf : D.guard ∈ held ∨ D.Spares f) (h : Neat D held held' (g ())) :
    Neat D held held' (change f >>= g) :=
  fun _ fin hfin => ⟨hf, fun v' _ => h v' fin hfin⟩

theorem Neat.change {f : σ → σ} (hf : D.guard ∈ held ∨ D.Spares f) :
    Neat D held held (change f : Prog σ μ ε φ Unit) := .change_bind hf (.pure ())

theorem Neat.output_bind {e : ε} {g : Bool → Prog σ μ ε φ β} (h : Neat D held held' (g true)) :
    Neat D held held' (output e >>= g) := h

theorem Neat.deref_bind {f : φ} {x : Option α} {g : α → Prog σ μ ε φ β}
    (h : ∀ a, x = some a → Neat D held held' (g a)) : Neat D held held' (deref f x >>= g) := by
  cases x with
  | none => exact .crash f
  | some a => exact h a rfl

theorem Neat.onlyIf {c : Bool} {p : Prog σ μ ε φ Unit} (h : c = true → Neat D held held p) :
    Neat D held held (onlyIf c p) := by
  cases c with
  | false => exact .pure ()
  | true => exact h rfl

theorem Neat.ite {c : Prop} [Decidable c] {p q : Prog σ μ ε φ β} (hp : c → Neat D held held' p)
    (hq : ¬ c → Neat D held held' q) : Neat D held held' (if c then p else q) := by
  by_cases hc : c
  · rw [if_pos hc]
    exact hp hc
  · rw [if_neg hc]
    exact hq hc

theorem Neat.forEach {go : β → Bool} {body : α → β → Prog σ μ ε φ β}
    (h : ∀ x b, Neat D held held (body x b)) :
    ∀ (xs : List α) (b : β), Neat D held held (forEach go body xs b) := by
  intro xs
  induction xs with
  | nil => exact fun b => .pure b
  | cons x xs ih =>
    intro b
    unfold Prog.forEach
    exact .ite (fun _ => (h x b).bind ih) fun _ => .pure b

theorem Neat.lockedLook_bind {m : μ} {f : σ → α} {g : α → Prog σ μ ε φ β} (hm : m ∉ held)
    (hmay : D.may held m) (h : ∀ s, Neat D held held' (g (f s))) :
    Neat D held held'
      (Prog.acquire m >>= fun _ => look f >>= fun a => Prog.release m >>= fun _ => g a) :=
  .acquire_bind hm hmay (.look_bind fun s => .release_bind (h s))

end Prog

/-! ## Cycles -/

/-- From a thread on a cycle one comes to another. -/
theorem cycle_next {r : τ → τ → Prop} {t : τ} (h : Relation.TransGen r t t) :
    ∃ t', r t t' ∧ Relation.TransGen r t' t' := by
  obtain ⟨t', hstep, hback⟩ := Relation.TransGen.head'_iff.mp h
  exact ⟨t', hstep, Relation.TransGen.tail' hback hstep⟩

/-- And there is one from which one comes to it. -/
theorem cycle_prev {r : τ → τ → Prop} {t : τ} (h : Relation.TransGen r t t) : ∃ t', r t' t := by
  obtain ⟨t', _, hstep⟩ := Relation.TransGen.tail'_iff.mp h
  exact ⟨t', hstep⟩

/-- Where each has one successor, a set that is closed under the relation and meets the cycle
has all of it. -/
theorem cycle_closed {r : τ → τ → Prop} {S : τ → Prop} {t a : τ}
    (hunique : ∀ x y z, r x y → r x z → y = z) (hS : ∀ x y, S x → r x y → S y)
    (hcycle : Relation.TransGen r t t) (hreach : Relation.ReflTransGen r t a) (ha : S a) : S t := by
  have hback : Relation.ReflTransGen r a t := by
    refine Relation.ReflTransGen.head_induction_on
      (motive := fun x _ => Relation.TransGen r x x → Relation.ReflTransGen r a x) hreach
      (fun _ => .refl) (fun {x y} hstep _ ih hx => ?_) hcycle
    obtain ⟨y', hstep', hrest⟩ := Relation.TransGen.head'_iff.mp hx
    obtain rfl := hunique _ _ _ hstep hstep'
    exact (ih (Relation.TransGen.tail' hrest hstep)).trans hrest
  clear hreach hcycle
  induction hback with
  | refl => exact ha
  | tail _ hstep ih => exact hS _ _ ih hstep

/-! ## Threads -/

namespace Threads

/-- The mutex that `t` takes next, if that is its next action. -/
def wants (c : Threads τ σ μ ε φ) (t : τ) : Option μ :=
  match c.todo t with
  | .lock m _ => some m
  | _ => none

/-- `t` waits for a mutex that `t'` has. -/
def Waits (c : Threads τ σ μ ε φ) (t t' : τ) : Prop := ∃ m, c.wants t = some m ∧ c.owner m = some t'

variable {c : Threads τ σ μ ε φ} {t : τ}

theorem wants_some {m : μ} (h : c.wants t = some m) : ∃ k, c.todo t = .lock m k := by
  unfold wants at h
  cases hdo : c.todo t with
  | lock m' k =>
    rw [hdo] at h
    cases h
    exact ⟨k, rfl⟩
  | ret _ | crash _ | exit | unlock _ _ | emit _ _ | read _ | write _ _ => rw [hdo] at h; cases h

/-- A thread waits for one mutex, and that has one owner. -/
theorem waits_unique {t₁ t₂ : τ} (h₁ : c.Waits t t₁) (h₂ : c.Waits t t₂) : t₁ = t₂ := by
  obtain ⟨m₁, hwants₁, howner₁⟩ := h₁
  obtain ⟨m₂, hwants₂, howner₂⟩ := h₂
  obtain rfl := Option.some.inj (hwants₁.symm.trans hwants₂)
  exact Option.some.inj (howner₁.symm.trans howner₂)

section Nested

variable [DecidableEq μ] {D : Nesting σ μ ν} {c' : Threads τ σ μ ε φ}

/-- What is left of each thread nests as `D` asks, given what it holds and what it has
seen of the protected part: it holds what it owns, and who holds the guard owns it and has
seen the state as it is. -/
structure NestedAs (D : Nesting σ μ ν) (c : Threads τ σ μ ε φ) (held : τ → List μ) (seen : τ → ν) :
    Prop where
  nests : ∀ t, (c.todo t).Nests D (fun _ held' _ => held' = []) (held t) (seen t)
  nodup : ∀ t, (held t).Nodup
  owns : ∀ m t, c.owner m = some t → m ∈ held t
  guarded : ∀ t, D.guard ∈ held t → c.owner D.guard = some t ∧ D.view c.state = seen t

def Nested (D : Nesting σ μ ν) (c : Threads τ σ μ ε φ) : Prop :=
  ∃ held seen, NestedAs D c held seen

/-- What a thread wants it does not hold, and may take. -/
theorem NestedAs.wants {held : τ → List μ} {seen : τ → ν} (h : NestedAs D c held seen) {m : μ}
    (hwants : c.wants t = some m) : m ∉ held t ∧ D.may (held t) m := by
  obtain ⟨k, hdo⟩ := wants_some hwants
  have hnests := h.nests t
  rw [hdo] at hnests
  exact ⟨hnests.1, hnests.2.1⟩

/-- A change from outside, while nobody holds the guard. -/
theorem Nested.outside (h : Nested D c) (hfree : c.owner D.guard = none) (s : σ) :
    Nested D { c with state := s } := by
  obtain ⟨held, seen, h⟩ := h
  refine ⟨held, seen, ⟨h.nests, h.nodup, h.owns, fun t hin => ?_⟩⟩
  have howner := (h.guarded t hin).1
  rw [hfree] at howner
  cases howner

variable [DecidableEq τ]

/-- What has to be seen to for a step of `t`, which then holds `l` and has seen `v`. -/
theorem NestedAs.step {held : τ → List μ} {seen : τ → ν} {l : List μ} {v : ν}
    (h : NestedAs D c held seen) (hothers : ∀ t', t' ≠ t → c'.todo t' = c.todo t')
    (hnests : (c'.todo t).Nests D (fun _ held' _ => held' = []) l v) (hnodup : l.Nodup)
    (hself : ∀ m, c'.owner m = some t → m ∈ l)
    (hother : ∀ m t', t' ≠ t → c'.owner m = some t' → c.owner m = some t')
    (hguard : D.guard ∈ l → c'.owner D.guard = some t ∧ D.view c'.state = v)
    (hkept : ∀ t', t' ≠ t → c.owner D.guard = some t' →
      c'.owner D.guard = some t' ∧ D.view c'.state = D.view c.state) :
    NestedAs D c' (Function.update held t l) (Function.update seen t v) where
  nests t' := by
    by_cases ht : t' = t
    · rw [ht, Function.update_self, Function.update_self]
      exact hnests
    · rw [Function.update_of_ne ht, Function.update_of_ne ht, hothers t' ht]
      exact h.nests t'
  nodup t' := by
    by_cases ht : t' = t
    · rw [ht, Function.update_self]
      exact hnodup
    · rw [Function.update_of_ne ht]
      exact h.nodup t'
  owns m t' howner := by
    by_cases ht : t' = t
    · rw [ht] at howner ⊢
      rw [Function.update_self]
      exact hself m howner
    · rw [Function.update_of_ne ht]
      exact h.owns m t' (hother m t' ht howner)
  guarded t' hin := by
    by_cases ht : t' = t
    · rw [ht, Function.update_self] at hin
      rw [ht, Function.update_self]
      exact hguard hin
    · rw [Function.update_of_ne ht] at hin ⊢
      obtain ⟨howner, hview⟩ := h.guarded t' hin
      obtain ⟨howner', hview'⟩ := hkept t' ht howner
      exact ⟨howner', hview'.trans hview⟩

/-- Taking a mutex. -/
theorem NestedAs.lock {held : τ → List μ} {seen : τ → ν} (h : NestedAs D c held seen) {m : μ}
    {k : Prog σ μ ε φ Unit} (hdo : c.todo t = .lock m k) (hfree : c.owner m = none) :
    Nested D ((c.setTodo t k).setOwner m (some t)) := by
  have hnests := h.nests t
  rw [hdo] at hnests
  obtain ⟨hm, -, hrest⟩ := hnests
  have howner_ne : ∀ {m'}, m' ≠ m →
      ((c.setTodo t k).setOwner m (some t)).owner m' = c.owner m' := fun hne => if_neg hne
  have howner_self : ((c.setTodo t k).setOwner m (some t)).owner m = some t := if_pos rfl
  -- with the guard, the thread sees the protected part as it is now
  let v : ν := if m = D.guard then D.view c.state else seen t
  refine ⟨_, _, h.step (t := t) (l := m :: held t) (v := v) (fun t' ht => setTodo_ne _ ht) ?_
    (List.nodup_cons.mpr ⟨hm, h.nodup t⟩) (fun m' hown => ?_) (fun m' t' ht hown => ?_) (fun hin => ?_)
    fun t' ht hown => ?_⟩
  · show ((c.setTodo t k).todo t).Nests D _ _ _
    rw [setTodo_self]
    exact hrest v fun hne => if_neg hne
  · by_cases hmm : m' = m
    · rw [hmm]
      exact List.mem_cons_self
    · rw [howner_ne hmm] at hown
      exact List.mem_cons_of_mem m (h.owns m' t hown)
  · by_cases hmm : m' = m
    · rw [hmm, howner_self] at hown
      exact absurd (Option.some.inj hown).symm ht
    · rw [howner_ne hmm] at hown
      exact hown
  · by_cases hmm : m = D.guard
    · rw [← hmm]
      exact ⟨howner_self, (if_pos hmm).symm⟩
    · obtain heq | hin := List.mem_cons.mp hin
      · exact absurd heq.symm hmm
      · rw [howner_ne (Ne.symm hmm)]
        exact ⟨(h.guarded t hin).1, (h.guarded t hin).2.trans (if_neg hmm).symm⟩
  · have hmm : D.guard ≠ m := by
      intro heq
      rw [heq, hfree] at hown
      cases hown
    rw [howner_ne hmm]
    exact ⟨hown, rfl⟩

/-- Giving a mutex back, whether or not the thread holds it. -/
theorem NestedAs.unlock {held : τ → List μ} {seen : τ → ν} (h : NestedAs D c held seen) {m : μ}
    {k : Prog σ μ ε φ Unit} (hdo : c.todo t = .unlock m k) :
    Nested D ((c.setTodo t k).setOwner m none) := by
  have hnests := h.nests t
  rw [hdo] at hnests
  obtain ⟨hown, hrest⟩ := hnests
  have howner : ∀ {m' t'}, ((c.setTodo t k).setOwner m none).owner m' = some t' →
      m' ≠ m ∧ c.owner m' = some t' := by
    intro m' t' hsome
    have hsome : (if m' = m then none else c.owner m') = some t' := hsome
    split at hsome
    case isTrue => cases hsome
    case isFalse hne => exact ⟨hne, hsome⟩
  have howner_ne : ∀ {m'}, m' ≠ m →
      ((c.setTodo t k).setOwner m none).owner m' = c.owner m' := fun hne => if_neg hne
  refine ⟨_, _, h.step (t := t) (l := (held t).erase m) (v := seen t)
    (fun t' ht => setTodo_ne _ ht) ?_ ((h.nodup t).erase m) (fun m' hsome => ?_)
    (fun m' t' _ hsome => (howner hsome).2) (fun hin => ?_) fun t' ht hsome => ?_⟩
  · show ((c.setTodo t k).todo t).Nests D _ _ _
    rw [setTodo_self]
    exact hrest
  · obtain ⟨hne, hsome⟩ := howner hsome
    exact (List.mem_erase_of_ne hne).mpr (h.owns m' t hsome)
  · obtain ⟨hne, hin⟩ := (h.nodup t).mem_erase_iff.mp hin
    rw [howner_ne hne]
    exact h.guarded t hin
  · have hne : D.guard ≠ m := by
      intro heq
      have hheld := h.guarded t (heq ▸ hown heq.symm)
      exact ht (Option.some.inj (hsome.symm.trans hheld.1))
    rw [howner_ne hne]
    exact ⟨hsome, rfl⟩

/-- Any other action. -/
theorem NestedAs.other {held : τ → List μ} {seen : τ → ν} (h : NestedAs D c held seen)
    (hothers : ∀ t', t' ≠ t → c'.todo t' = c.todo t') (howner : c'.owner = c.owner)
    (hview : D.guard ∈ held t ∨ D.view c'.state = D.view c.state)
    (hnests : (c'.todo t).Nests D (fun _ held' _ => held' = []) (held t)
      (if D.guard ∈ held t then D.view c'.state else seen t)) : Nested D c' := by
  refine ⟨_, _, h.step (t := t) hothers hnests (h.nodup t) (fun m hsome => ?_)
    (fun m t' _ hsome => ?_) (fun hin => ?_) fun t' ht hsome => ?_⟩
  · rw [howner] at hsome
    exact h.owns m t hsome
  · rw [howner] at hsome
    exact hsome
  · rw [howner, if_pos hin]
    exact ⟨(h.guarded t hin).1, rfl⟩
  · rw [howner]
    refine ⟨hsome, ?_⟩
    obtain hin | hsame := hview
    · exact absurd (Option.some.inj (hsome.symm.trans (h.guarded t hin).1)) ht
    · exact hsame

/-- **Any action** of a thread keeps the nesting. -/
theorem Nested.act (h : Nested D c) (hacts : Acts c t true c') : Nested D c' := by
  obtain ⟨held, seen, h⟩ := h
  have hnests := h.nests t
  have hothers : ∀ t', t' ≠ t → c'.todo t' = c.todo t' := fun _ ht => hacts.todo_ne ht
  -- what the thread has seen, where the protected part stays
  have hseen : (if D.guard ∈ held t then D.view c.state else seen t) = seen t := by
    split
    case isTrue hin => exact (h.guarded t hin).2
    case isFalse => rfl
  cases hacts with
  | lock hdo hfree => exact h.lock hdo hfree
  | unlock hdo => exact h.unlock hdo
  | emit hdo =>
    rw [hdo] at hnests
    refine h.other hothers rfl (Or.inr rfl) ?_
    show ((c.setTodo t _).todo t).Nests D _ _ (if D.guard ∈ held t then D.view c.state else _)
    rw [setTodo_self, hseen]
    exact hnests
  | read hdo =>
    rw [hdo] at hnests
    refine h.other hothers rfl (Or.inr rfl) ?_
    show ((c.setTodo t _).todo t).Nests D _ _ (if D.guard ∈ held t then D.view c.state else _)
    rw [setTodo_self, hseen]
    exact hnests c.state fun hin => (h.guarded t hin).2
  | @write f k hdo =>
    rw [hdo] at hnests
    obtain ⟨hguard, hrest⟩ := hnests
    refine h.other hothers rfl (hguard.imp id fun hspares => hspares c.state) ?_
    show ((c.setTodo t k).todo t).Nests D _ _ (if D.guard ∈ held t then D.view (f c.state) else _)
    rw [setTodo_self]
    refine hrest _ fun hspares => ?_
    rw [hspares c.state]
    exact hseen

/-- Another program for a thread that has nothing left to do. -/
theorem Nested.setTodo (h : Nested D c) {p : Prog σ μ ε φ Unit} (hidle : c.todo t = .ret ())
    (hp : Prog.Neat D [] [] p) : Nested D (c.setTodo t p) := by
  obtain ⟨held, seen, h⟩ := h
  have hfree := h.nests t
  rw [hidle] at hfree
  have hfree : held t = [] := hfree
  refine ⟨held, seen, ⟨fun t' => ?_, h.nodup, h.owns, h.guarded⟩⟩
  by_cases ht : t' = t
  · rw [ht, setTodo_self, hfree]
    exact hp (seen t) _ fun _ _ => rfl
  · rw [setTodo_ne _ ht]
    exact h.nests t'

end Nested

end Threads

end UchiNetworks.Lib
