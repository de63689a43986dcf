import Mathlib.Data.List.Basic

/-!
# Programs over a shared state, with mutexes

A thread of a C program is a sequence of small actions: take or give back a
mutex, read or write the shared state, hand something to the outside and look
whether that worked. `Prog` is such a sequence as data. What a program does next
may depend on everything it has read, so a read is followed by a function of the
state it finds, and a program can be run alone (`run`, below) as well as
interleaved with others.

`run` stops where the thread would: at a `crash`, at the end of the thread, or
at a mutex it already holds. `Meets` says what must hold at each kind of end, and
the `meets_*` rules compute it along the program.
-/

namespace UchiNetworks.Lib

/-- Programs with result `α`: shared state `σ`, mutexes `μ`, outputs `ε`, and
faults `φ`. -/
inductive Prog (σ μ ε φ α : Type) : Type
  | ret (a : α)
  | crash (f : φ)
  | exit
  | lock (m : μ) (k : Prog σ μ ε φ α)
  | unlock (m : μ) (k : Prog σ μ ε φ α)
  | emit (e : ε) (k : Bool → Prog σ μ ε φ α)
  | read (k : σ → Prog σ μ ε φ α)
  | write (f : σ → σ) (k : Prog σ μ ε φ α)

namespace Prog

variable {σ μ ε φ α β γ : Type}

/-- First one program, then what its result asks for. -/
def andThen : Prog σ μ ε φ α → (α → Prog σ μ ε φ β) → Prog σ μ ε φ β
  | ret a, g => g a
  | crash f, _ => crash f
  | exit, _ => exit
  | lock m k, g => lock m (k.andThen g)
  | unlock m k, g => unlock m (k.andThen g)
  | emit e k, g => emit e fun b => (k b).andThen g
  | read k, g => read fun s => (k s).andThen g
  | write f k, g => write f (k.andThen g)

theorem andThen_ret (p : Prog σ μ ε φ α) : p.andThen ret = p := by
  induction p with
  | ret a => rfl
  | crash f => rfl
  | exit => rfl
  | lock m k ih => exact congrArg (lock m) ih
  | unlock m k ih => exact congrArg (unlock m) ih
  | emit e k ih => exact congrArg (emit e) (funext ih)
  | read k ih => exact congrArg read (funext ih)
  | write f k ih => exact congrArg (write f) ih

instance : Monad (Prog σ μ ε φ) where
  pure := ret
  bind := andThen

/-! ## The single actions -/

/-- `pthread_mutex_lock` -/
def acquire (m : μ) : Prog σ μ ε φ Unit := lock m (ret ())

/-- `pthread_mutex_unlock` -/
def release (m : μ) : Prog σ μ ε φ Unit := unlock m (ret ())

/-- Hand `e` to the outside; did it work? -/
def output (e : ε) : Prog σ μ ε φ Bool := emit e ret

/-- Look at the shared state. -/
def look (f : σ → α) : Prog σ μ ε φ α := read fun s => ret (f s)

/-- Change the shared state. -/
def change (f : σ → σ) : Prog σ μ ε φ Unit := write f (ret ())

/-- Follow a pointer: the null pointer is the fault `f`. -/
def deref (f : φ) : Option α → Prog σ μ ε φ α
  | none => crash f
  | some a => ret a

/-- `if (c) p;` -/
def onlyIf (c : Bool) (p : Prog σ μ ε φ Unit) : Prog σ μ ε φ Unit := if c then p else ret ()

/-- A loop over `xs` with an accumulator. `go` is tested before each turn. -/
def forEach (go : β → Bool) (body : α → β → Prog σ μ ε φ β) : List α → β → Prog σ μ ε φ β
  | [], b => ret b
  | x :: xs, b => if go b then (body x b).andThen (forEach go body xs) else ret b

/-! ## What a program can hand out -/

/-- Whatever it reads and whatever works, each output of the program satisfies `P`. -/
def Emits (P : ε → Prop) : Prog σ μ ε φ α → Prop
  | ret _ => True
  | crash _ => True
  | exit => True
  | lock _ k => k.Emits P
  | unlock _ k => k.Emits P
  | emit e k => P e ∧ ∀ b, (k b).Emits P
  | read k => ∀ s, (k s).Emits P
  | write _ k => k.Emits P

theorem Emits.bind {P : ε → Prop} {p : Prog σ μ ε φ α} {g : α → Prog σ μ ε φ β} (hp : p.Emits P)
    (hg : ∀ a, (g a).Emits P) : (p >>= g).Emits P := by
  show (p.andThen g).Emits P
  induction p with
  | ret a => exact hg a
  | crash f => exact hp
  | exit => exact hp
  | lock m k ih => exact ih hp
  | unlock m k ih => exact ih hp
  | emit e k ih => exact ⟨hp.1, fun b => ih b (hp.2 b)⟩
  | read k ih => exact fun s => ih s (hp s)
  | write f k ih => exact ih hp

/-! The rule of sequence for each single action. -/

theorem Emits.mono {P P' : ε → Prop} {p : Prog σ μ ε φ α} (h : p.Emits P) (hP : ∀ e, P e → P' e) :
    p.Emits P' := by
  induction p with
  | ret _ => trivial
  | crash _ => trivial
  | exit => trivial
  | lock m k ih => exact ih h
  | unlock m k ih => exact ih h
  | emit e k ih => exact ⟨hP e h.1, fun b => ih b (h.2 b)⟩
  | read k ih => exact fun s => ih s (h s)
  | write f k ih => exact ih h

theorem Emits.look_bind {P : ε → Prop} {f : σ → α} {g : α → Prog σ μ ε φ β}
    (h : ∀ s, (g (f s)).Emits P) : (look f >>= g).Emits P := h

theorem Emits.change_bind {P : ε → Prop} {f : σ → σ} {g : Unit → Prog σ μ ε φ β}
    (h : (g ()).Emits P) : (change f >>= g).Emits P := h

theorem Emits.acquire_bind {P : ε → Prop} {m : μ} {g : Unit → Prog σ μ ε φ β}
    (h : (g ()).Emits P) : (acquire m >>= g).Emits P := h

theorem Emits.release_bind {P : ε → Prop} {m : μ} {g : Unit → Prog σ μ ε φ β}
    (h : (g ()).Emits P) : (release m >>= g).Emits P := h

theorem Emits.output_bind {P : ε → Prop} {e : ε} {g : Bool → Prog σ μ ε φ β} (he : P e)
    (h : ∀ b, (g b).Emits P) : (output e >>= g).Emits P := ⟨he, h⟩

theorem Emits.deref_bind {P : ε → Prop} {f : φ} {x : Option α} {g : α → Prog σ μ ε φ β}
    (h : ∀ a, (g a).Emits P) : (deref f x >>= g).Emits P := by
  cases x with
  | none => trivial
  | some a => exact h a

theorem Emits.ite {P : ε → Prop} {c : Prop} [Decidable c] {p q : Prog σ μ ε φ β}
    (hp : p.Emits P) (hq : q.Emits P) : (if c then p else q).Emits P := by
  by_cases hc : c
  · rw [if_pos hc]
    exact hp
  · rw [if_neg hc]
    exact hq

theorem Emits.onlyIf {P : ε → Prop} {c : Bool} {p : Prog σ μ ε φ Unit} (h : p.Emits P) :
    (onlyIf c p).Emits P := by
  cases c with
  | false => trivial
  | true => exact h

theorem Emits.forEach {P : ε → Prop} {go : β → Bool} {body : α → β → Prog σ μ ε φ β}
    (h : ∀ x b, (body x b).Emits P) : ∀ (xs : List α) (b : β), (forEach go body xs b).Emits P := by
  intro xs
  induction xs with
  | nil => intro b; trivial
  | cons x xs ih =>
    intro b
    unfold Prog.forEach
    by_cases hgo : go b
    · rw [if_pos hgo]
      exact (h x b).bind ih
    · rw [if_neg hgo]
      trivial

/-- Whatever it reads and whatever works, what the program returns satisfies `R`. -/
def Returns (R : α → Prop) : Prog σ μ ε φ α → Prop
  | ret a => R a
  | crash _ => True
  | exit => True
  | lock _ k => k.Returns R
  | unlock _ k => k.Returns R
  | emit _ k => ∀ b, (k b).Returns R
  | read k => ∀ s, (k s).Returns R
  | write _ k => k.Returns R

/-- What follows is given a result that satisfies `R`. -/
theorem Emits.bind_returned {P : ε → Prop} {R : α → Prop} {p : Prog σ μ ε φ α}
    {g : α → Prog σ μ ε φ β} (hp : p.Emits P) (hr : p.Returns R) (hg : ∀ a, R a → (g a).Emits P) :
    (p >>= g).Emits P := by
  show (p.andThen g).Emits P
  induction p with
  | ret a => exact hg a hr
  | crash f => exact hp
  | exit => exact hp
  | lock m k ih => exact ih hp hr
  | unlock m k ih => exact ih hp hr
  | emit e k ih => exact ⟨hp.1, fun b => ih b (hp.2 b) (hr b)⟩
  | read k ih => exact fun s => ih s (hp s) (hr s)
  | write f k ih => exact ih hp hr

theorem Returns.bind {R : α → Prop} {S : β → Prop} {p : Prog σ μ ε φ α} {g : α → Prog σ μ ε φ β}
    (hp : p.Returns R) (hg : ∀ a, R a → (g a).Returns S) : (p >>= g).Returns S := by
  show (p.andThen g).Returns S
  induction p with
  | ret a => exact hg a hp
  | crash f => exact hp
  | exit => exact hp
  | lock m k ih => exact ih hp
  | unlock m k ih => exact ih hp
  | emit e k ih => exact fun b => ih b (hp b)
  | read k ih => exact fun s => ih s (hp s)
  | write f k ih => exact ih hp

/-- What each turn keeps, the loop returns. -/
theorem Returns.forEach {I : β → Prop} {go : β → Bool} {body : α → β → Prog σ μ ε φ β}
    (h : ∀ x b, I b → go b = true → (body x b).Returns I) :
    ∀ (xs : List α) (b : β), I b → (forEach go body xs b).Returns I := by
  intro xs
  induction xs with
  | nil => exact fun b hb => hb
  | cons x xs ih =>
    intro b hb
    unfold Prog.forEach
    by_cases hgo : go b
    · rw [if_pos hgo]
      exact (h x b hb hgo).bind ih
    · rw [if_neg hgo]
      exact hb

/-! ## A program that runs alone -/

/-- What a thread that runs alone has: the state, the mutexes it holds, and what
it has handed out so far. -/
structure World (σ μ ε : Type) where
  state : σ
  held : List μ
  out : List ε

/-- How a program ends. -/
inductive Outcome (σ μ ε φ α : Type) : Type
  | done (a : α) (w : World σ μ ε)
  | exited (w : World σ μ ε)
  | crashed (f : φ) (w : World σ μ ε)
  | stuck (w : World σ μ ε)

section Run

variable [DecidableEq μ]

/-- Run a program alone. `ok n` says whether the `n`-th output works. -/
def run (ok : Nat → Bool) : Prog σ μ ε φ α → World σ μ ε → Outcome σ μ ε φ α
  | ret a, w => .done a w
  | crash f, w => .crashed f w
  | exit, w => .exited w
  | lock m k, w => if m ∈ w.held then .stuck w else k.run ok { w with held := m :: w.held }
  | unlock m k, w => k.run ok { w with held := w.held.erase m }
  | emit e k, w => (k (ok w.out.length)).run ok { w with out := w.out ++ [e] }
  | read k, w => (k w.state).run ok w
  | write f k, w => k.run ok { w with state := f w.state }

/-- What must hold at each kind of end. -/
structure Post (σ μ ε φ α : Type) where
  done : α → World σ μ ε → Prop
  exited : World σ μ ε → Prop
  crashed : φ → Prop
  stuck : Prop

def Outcome.Sat (Q : Post σ μ ε φ α) : Outcome σ μ ε φ α → Prop
  | .done a w => Q.done a w
  | .exited w => Q.exited w
  | .crashed f _ => Q.crashed f
  | .stuck _ => Q.stuck

/-- Run from `w`, the program ends as `Q` asks. -/
def Meets (ok : Nat → Bool) (p : Prog σ μ ε φ α) (Q : Post σ μ ε φ α) (w : World σ μ ε) : Prop :=
  (p.run ok w).Sat Q

variable {ok : Nat → Bool} {Q : Post σ μ ε φ β} {w : World σ μ ε}

theorem meets_lock {m : μ} {k : Prog σ μ ε φ β} :
    (lock m k).Meets ok Q w ↔
      if m ∈ w.held then Q.stuck else k.Meets ok Q { w with held := m :: w.held } := by
  show ((lock m k).run ok w).Sat Q ↔ _
  rw [show (lock m k).run ok w = if m ∈ w.held then .stuck w
    else k.run ok { w with held := m :: w.held } from rfl]
  split <;> exact Iff.rfl

theorem meets_andThen {p : Prog σ μ ε φ α} {g : α → Prog σ μ ε φ β} :
    (p.andThen g).Meets ok Q w ↔
      p.Meets ok { Q with done := fun a w' => (g a).Meets ok Q w' } w := by
  induction p generalizing w with
  | ret a => exact Iff.rfl
  | crash f => exact Iff.rfl
  | exit => exact Iff.rfl
  | lock m k ih =>
    unfold andThen
    rw [meets_lock, meets_lock, ih]
  | unlock m k ih => exact ih
  | emit e k ih => exact ih _
  | read k ih => exact ih _
  | write f k ih => exact ih

/-- The rule of sequence, in `do` notation. -/
@[simp] theorem meets_bind {p : Prog σ μ ε φ α} {g : α → Prog σ μ ε φ β} :
    (p >>= g).Meets ok Q w ↔
      p.Meets ok { Q with done := fun a w' => (g a).Meets ok Q w' } w := meets_andThen

@[simp] theorem meets_pure {b : β} : (pure b : Prog σ μ ε φ β).Meets ok Q w ↔ Q.done b w := Iff.rfl

@[simp] theorem meets_ret {b : β} : (ret b : Prog σ μ ε φ β).Meets ok Q w ↔ Q.done b w := Iff.rfl

@[simp] theorem meets_crash {f : φ} :
    (crash f : Prog σ μ ε φ β).Meets ok Q w ↔ Q.crashed f := Iff.rfl

@[simp] theorem meets_exit : (exit : Prog σ μ ε φ β).Meets ok Q w ↔ Q.exited w := Iff.rfl

@[simp] theorem meets_release {m : μ} {Q : Post σ μ ε φ Unit} :
    (release m).Meets ok Q w ↔ Q.done () { w with held := w.held.erase m } := Iff.rfl

@[simp] theorem meets_output {e : ε} {Q : Post σ μ ε φ Bool} :
    (output e).Meets ok Q w ↔ Q.done (ok w.out.length) { w with out := w.out ++ [e] } := Iff.rfl

@[simp] theorem meets_look {f : σ → β} : (look f).Meets ok Q w ↔ Q.done (f w.state) w := Iff.rfl

@[simp] theorem meets_change {f : σ → σ} {Q : Post σ μ ε φ Unit} :
    (change f).Meets ok Q w ↔ Q.done () { w with state := f w.state } := Iff.rfl

theorem meets_acquire {m : μ} {Q : Post σ μ ε φ Unit} :
    (acquire m).Meets ok Q w ↔
      if m ∈ w.held then Q.stuck else Q.done () { w with held := m :: w.held } := meets_lock

@[simp] theorem meets_acquire_free {m : μ} {Q : Post σ μ ε φ Unit} (h : m ∉ w.held) :
    (acquire m).Meets ok Q w ↔ Q.done () { w with held := m :: w.held } := by
  rw [meets_acquire, if_neg h]

@[simp] theorem meets_acquire_held {m : μ} {Q : Post σ μ ε φ Unit} (h : m ∈ w.held) :
    (acquire m).Meets ok Q w ↔ Q.stuck := by
  rw [meets_acquire, if_pos h]

/-! The rule of sequence for each single action. -/

theorem look_bind {f : σ → α} {g : α → Prog σ μ ε φ β} :
    (look f >>= g).Meets ok Q w ↔ (g (f w.state)).Meets ok Q w := Iff.rfl

theorem change_bind {f : σ → σ} {g : Unit → Prog σ μ ε φ β} :
    (change f >>= g).Meets ok Q w ↔ (g ()).Meets ok Q { w with state := f w.state } := Iff.rfl

theorem output_bind {e : ε} {g : Bool → Prog σ μ ε φ β} :
    (output e >>= g).Meets ok Q w ↔
      (g (ok w.out.length)).Meets ok Q { w with out := w.out ++ [e] } := Iff.rfl

theorem release_bind {m : μ} {g : Unit → Prog σ μ ε φ β} :
    (release m >>= g).Meets ok Q w ↔ (g ()).Meets ok Q { w with held := w.held.erase m } := Iff.rfl

theorem acquire_bind {m : μ} {g : Unit → Prog σ μ ε φ β} (h : m ∉ w.held) :
    (acquire m >>= g).Meets ok Q w ↔ (g ()).Meets ok Q { w with held := m :: w.held } := by
  rw [meets_bind, meets_acquire_free h]

/-- A look under a mutex. -/
theorem lockedLook_bind {m : μ} {f : σ → α} {g : α → Prog σ μ ε φ β} (h : m ∉ w.held) :
    (acquire m >>= fun _ => look f >>= fun a => release m >>= fun _ => g a).Meets ok Q w ↔
      (g (f w.state)).Meets ok Q w := by
  rw [acquire_bind h, look_bind, release_bind, List.erase_cons_head]

/-- A change under a mutex. -/
theorem lockedChange_bind {m : μ} {f : σ → σ} {g : Unit → Prog σ μ ε φ β} (h : m ∉ w.held) :
    (acquire m >>= fun _ => change f >>= fun _ => release m >>= g).Meets ok Q w ↔
      (g ()).Meets ok Q { w with state := f w.state } := by
  rw [acquire_bind h, change_bind, release_bind, List.erase_cons_head]

theorem lockedChange {m : μ} {f : σ → σ} {Q : Post σ μ ε φ Unit} (h : m ∉ w.held) :
    (acquire m >>= fun _ => change f >>= fun _ => release m).Meets ok Q w ↔
      Q.done () { w with state := f w.state } := by
  rw [acquire_bind h, change_bind, meets_release, List.erase_cons_head]

theorem deref_bind {f : φ} {a : α} {g : α → Prog σ μ ε φ β} :
    (deref f (some a) >>= g).Meets ok Q w ↔ (g a).Meets ok Q w := Iff.rfl

theorem deref_null_bind {f : φ} {g : α → Prog σ μ ε φ β} :
    (deref f none >>= g).Meets ok Q w ↔ Q.crashed f := Iff.rfl

theorem meets_ite {c : Prop} [Decidable c] {p q : Prog σ μ ε φ β} :
    (if c then p else q).Meets ok Q w ↔ (c → p.Meets ok Q w) ∧ (¬ c → q.Meets ok Q w) := by
  by_cases hc : c
  · simp [hc]
  · simp [hc]

@[simp] theorem meets_onlyIf {c : Bool} {p : Prog σ μ ε φ Unit} {Q : Post σ μ ε φ Unit} :
    (onlyIf c p).Meets ok Q w ↔ (c = true → p.Meets ok Q w) ∧ (c = false → Q.done () w) := by
  cases c with
  | false => simp [onlyIf]
  | true => simp [onlyIf]

theorem onlyIf_bind {c : Bool} {p : Prog σ μ ε φ Unit} {g : Unit → Prog σ μ ε φ β} :
    (onlyIf c p >>= g).Meets ok Q w ↔
      (c = true → p.Meets ok { Q with done := fun _ w' => (g ()).Meets ok Q w' } w) ∧
      (c = false → (g ()).Meets ok Q w) := by
  rw [meets_bind, meets_onlyIf]

/-- The rule of consequence. -/
theorem Meets.mono {p : Prog σ μ ε φ β} {Q' : Post σ μ ε φ β} (h : p.Meets ok Q w)
    (hdone : ∀ b w', Q.done b w' → Q'.done b w') (hexit : ∀ w', Q.exited w' → Q'.exited w')
    (hcrash : ∀ f, Q.crashed f → Q'.crashed f) (hstuck : Q.stuck → Q'.stuck) :
    p.Meets ok Q' w := by
  unfold Meets at h ⊢
  cases hr : p.run ok w with
  | done b w' => rw [hr] at h; exact hdone b w' h
  | exited w' => rw [hr] at h; exact hexit w' h
  | crashed f w' => rw [hr] at h; exact hcrash f h
  | stuck w' => rw [hr] at h; exact hstuck h

/-- A program ends in one way only. -/
theorem Meets.absurd {p : Prog σ μ ε φ β} {Q' : Post σ μ ε φ β} (h : p.Meets ok Q w)
    (h' : p.Meets ok Q' w) (hdone : ∀ b w', Q.done b w' → Q'.done b w' → False)
    (hexit : ∀ w', Q.exited w' → Q'.exited w' → False)
    (hcrash : ∀ f, Q.crashed f → Q'.crashed f → False) (hstuck : Q.stuck → Q'.stuck → False) :
    False := by
  unfold Meets at h h'
  cases hr : p.run ok w with
  | done b w' => rw [hr] at h h'; exact hdone b w' h h'
  | exited w' => rw [hr] at h h'; exact hexit w' h h'
  | crashed f w' => rw [hr] at h h'; exact hcrash f h h'
  | stuck w' => rw [hr] at h h'; exact hstuck h h'

/-- The rule for loops: `inv` on what is left, the accumulator and the world. -/
theorem meets_forEach {go : β → Bool} {body : α → β → Prog σ μ ε φ β}
    (inv : List α → β → World σ μ ε → Prop)
    (hbody : ∀ x xs b w, inv (x :: xs) b w → go b →
      (body x b).Meets ok { Q with done := fun b' w' => inv xs b' w' } w)
    (hstop : ∀ xs b w, inv xs b w → xs = [] ∨ go b = false → Q.done b w) :
    ∀ (xs : List α) (b : β) (w : World σ μ ε), inv xs b w → (forEach go body xs b).Meets ok Q w := by
  intro xs
  induction xs with
  | nil => intro b w h; exact hstop [] b w h (Or.inl rfl)
  | cons x xs ih =>
    intro b w h
    unfold forEach
    by_cases hgo : go b
    · rw [if_pos hgo, meets_andThen]
      exact (hbody x xs b w h hgo).mono (fun b' w' h' => ih b' w' h') (fun _ h' => h')
        (fun _ h' => h') (fun h' => h')
    · rw [if_neg hgo]
      exact hstop (x :: xs) b w h (Or.inr (by simpa using hgo))

/-! The run of a sequence. -/

/-- The world at the end, however the program ends. -/
def Outcome.world : Outcome σ μ ε φ α → World σ μ ε
  | .done _ w => w
  | .exited w => w
  | .crashed _ w => w
  | .stuck w => w

/-- What is done goes on. -/
theorem run_bind_done {p : Prog σ μ ε φ α} {g : α → Prog σ μ ε φ β} {a : α} {w' : World σ μ ε}
    (h : p.run ok w = .done a w') : (p >>= g).run ok w = (g a).run ok w' := by
  show (p.andThen g).run ok w = _
  induction p generalizing w with
  | ret b => cases h; rfl
  | crash f => cases h
  | exit => cases h
  | lock m k ih =>
    show (if m ∈ w.held then Outcome.stuck w else _) = _
    have h : (if m ∈ w.held then Outcome.stuck w else _) = _ := h
    by_cases hm : m ∈ w.held
    · rw [if_pos hm] at h
      cases h
    · rw [if_neg hm] at h ⊢
      exact ih h
  | unlock m k ih => exact ih h
  | emit e k ih => exact ih _ h
  | read k ih => exact ih _ h
  | write f k ih => exact ih h

/-- What has crashed does not. -/
theorem run_bind_crashed {p : Prog σ μ ε φ α} {g : α → Prog σ μ ε φ β} {f : φ} {w' : World σ μ ε}
    (h : p.run ok w = .crashed f w') : (p >>= g).run ok w = .crashed f w' := by
  show (p.andThen g).run ok w = _
  induction p generalizing w with
  | ret b => cases h
  | crash f => cases h; rfl
  | exit => cases h
  | lock m k ih =>
    show (if m ∈ w.held then Outcome.stuck w else _) = _
    have h : (if m ∈ w.held then Outcome.stuck w else _) = _ := h
    by_cases hm : m ∈ w.held
    · rw [if_pos hm] at h
      cases h
    · rw [if_neg hm] at h ⊢
      exact ih h
  | unlock m k ih => exact ih h
  | emit e k ih => exact ih _ h
  | read k ih => exact ih _ h
  | write f k ih => exact ih h

theorem run_acquire_bind {m : μ} {g : Unit → Prog σ μ ε φ β} (h : m ∉ w.held) :
    (acquire m >>= g).run ok w = (g ()).run ok { w with held := m :: w.held } := if_neg h

theorem run_lockedLook_bind {m : μ} {f : σ → α} {g : α → Prog σ μ ε φ β} (h : m ∉ w.held) :
    (acquire m >>= fun _ => look f >>= fun a => release m >>= fun _ => g a).run ok w
      = (g (f w.state)).run ok w := by
  rw [run_acquire_bind h]
  show (g (f w.state)).run ok { w with held := (m :: w.held).erase m } = _
  rw [List.erase_cons_head]

/-! What is handed out. -/

theorem Emits.run {P : ε → Prop} {p : Prog σ μ ε φ α} (h : p.Emits P) :
    ∃ es, (p.run ok w).world.out = w.out ++ es ∧ ∀ e ∈ es, P e := by
  induction p generalizing w with
  | ret a => exact ⟨[], (List.append_nil _).symm, fun e he => absurd he List.not_mem_nil⟩
  | crash f => exact ⟨[], (List.append_nil _).symm, fun e he => absurd he List.not_mem_nil⟩
  | exit => exact ⟨[], (List.append_nil _).symm, fun e he => absurd he List.not_mem_nil⟩
  | lock m k ih =>
    by_cases hm : m ∈ w.held
    · refine ⟨[], ?_, fun e he => absurd he List.not_mem_nil⟩
      rw [show (lock m k).run ok w = .stuck w from if_pos hm, List.append_nil]
      rfl
    · rw [show (lock m k).run ok w = k.run ok { w with held := m :: w.held } from if_neg hm]
      exact ih h
  | unlock m k ih => exact ih h
  | emit e k ih =>
    obtain ⟨es, hout, hes⟩ := ih (ok w.out.length) (w := { w with out := w.out ++ [e] }) (h.2 _)
    refine ⟨e :: es, by rw [← List.append_cons] at hout; exact hout, fun e' he' => ?_⟩
    rcases List.mem_cons.mp he' with rfl | he'
    · exact h.1
    · exact hes e' he'
  | read k ih => exact ih _ (h _)
  | write f k ih => exact ih h

/-! What a run depends on. -/

theorem run_lock {ok : Nat → Bool} {m : μ} {k : Prog σ μ ε φ α} {w : World σ μ ε} :
    (lock m k).run ok w
      = if m ∈ w.held then .stuck w else k.run ok { w with held := m :: w.held } := rfl

/-- Outputs are not taken back. -/
theorem length_le_of_run {p : Prog σ μ ε φ α} {a : α} {w' : World σ μ ε}
    (h : p.run ok w = .done a w') : w.out.length ≤ w'.out.length := by
  induction p generalizing w with
  | ret b => cases h; exact Nat.le_refl _
  | crash f => cases h
  | exit => cases h
  | lock m k ih =>
    rw [run_lock] at h
    by_cases hm : m ∈ w.held
    · rw [if_pos hm] at h
      cases h
    · rw [if_neg hm] at h
      have hle := ih h
      exact hle
  | unlock m k ih =>
    have hle := ih (w := { w with held := w.held.erase m }) h
    exact hle
  | emit e k ih =>
    have hle := ih _ h
    simp only [List.length_append, List.length_singleton] at hle
    omega
  | read k ih => exact ih _ h
  | write f k ih =>
    have hle := ih (w := { w with state := f w.state }) h
    exact hle

/-- Only the outputs that were made count. -/
theorem run_congr {p : Prog σ μ ε φ α} {a : α} {w' : World σ μ ε} {ok' : Nat → Bool}
    (h : p.run ok w = .done a w') (hsame : ∀ n < w'.out.length, ok' n = ok n) :
    p.run ok' w = .done a w' := by
  induction p generalizing w with
  | ret b => exact h
  | crash f => cases h
  | exit => cases h
  | lock m k ih =>
    rw [run_lock] at h ⊢
    by_cases hm : m ∈ w.held
    · rw [if_pos hm] at h
      cases h
    · rw [if_neg hm] at h
      rw [if_neg hm]
      exact ih h
  | unlock m k ih => exact ih h
  | emit e k ih =>
    have hle := length_le_of_run (p := k (ok w.out.length)) h
    simp only [List.length_append, List.length_singleton] at hle
    show (k (ok' w.out.length)).run ok' _ = _
    rw [hsame w.out.length (by omega)]
    exact ih _ h
  | read k ih => exact ih _ h
  | write f k ih => exact ih h

end Run

end Prog

end UchiNetworks.Lib
