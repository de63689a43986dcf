import UchiNetworks.Lib.Program

/-!
# Threads over a shared state

`Threads` is any number of programs over one state, with the mutexes and who holds
them. `Threads.act` lets one thread take its next action: any order of the threads
is a run. `act_cases` says once what an action can be.

What holds at every moment of every run is proved from what each program can do,
whatever the others do meanwhile. `Writes Q W` is such a property: as long as all
the states that the program reads satisfy `Q`, each of its changes is one that `W`
admits. A check before a write shows in it: with `Q` the states in which the check
fails, the program does not write at all, until it has passed the check.
-/

namespace UchiNetworks.Lib

variable {τ σ μ ε φ α β γ : Type}

namespace Prog

/-! ## What a program can change -/

/-- As long as it reads only states that satisfy `Q`, each change that the program
makes is one that `W` admits. -/
def Writes (Q : σ → Prop) (W : (σ → σ) → Prop) : Prog σ μ ε φ α → Prop
  | ret _ => True
  | crash _ => True
  | exit => True
  | lock _ k => k.Writes Q W
  | unlock _ k => k.Writes Q W
  | emit _ k => ∀ b, (k b).Writes Q W
  | read k => ∀ s, Q s → (k s).Writes Q W
  | write f k => W f ∧ k.Writes Q W

/-- Any state at all. -/
def anyState (_ : σ) : Prop := True

variable {Q Q' : σ → Prop} {W W' : (σ → σ) → Prop}

theorem Writes.mono {p : Prog σ μ ε φ α} (h : p.Writes Q W) (hQ : ∀ s, Q' s → Q s)
    (hW : ∀ f, W f → W' f) : p.Writes Q' W' := by
  induction p with
  | ret a => trivial
  | crash f => trivial
  | exit => trivial
  | lock m k ih => exact ih h
  | unlock m k ih => exact ih h
  | emit e k ih => exact fun b => ih b (h b)
  | read k ih => exact fun s hs => ih s (h s (hQ s hs))
  | write f k ih => exact ⟨hW f h.1, ih h.2⟩

theorem Writes.bind {p : Prog σ μ ε φ α} {g : α → Prog σ μ ε φ β} (hp : p.Writes Q W)
    (hg : ∀ a, (g a).Writes Q W) : (p >>= g).Writes Q W := by
  show (p.andThen g).Writes Q W
  induction p with
  | ret a => exact hg a
  | crash f => trivial
  | exit => trivial
  | lock m k ih => exact ih hp
  | unlock m k ih => exact ih hp
  | emit e k ih => exact fun b => ih b (hp b)
  | read k ih => exact fun s hs => ih s (hp s hs)
  | write f k ih => exact ⟨hp.1, ih hp.2⟩

/-! The rule of sequence for each single action. -/

theorem Writes.look_bind {f : σ → α} {g : α → Prog σ μ ε φ β}
    (h : ∀ s, Q s → (g (f s)).Writes Q W) : (look f >>= g).Writes Q W := h

theorem Writes.change_bind {f : σ → σ} {g : Unit → Prog σ μ ε φ β} (hf : W f)
    (h : (g ()).Writes Q W) : (Prog.change f >>= g).Writes Q W := ⟨hf, h⟩

theorem Writes.acquire_bind {m : μ} {g : Unit → Prog σ μ ε φ β} (h : (g ()).Writes Q W) :
    (acquire m >>= g).Writes Q W := h

theorem Writes.release_bind {m : μ} {g : Unit → Prog σ μ ε φ β} (h : (g ()).Writes Q W) :
    (release m >>= g).Writes Q W := h

theorem Writes.output_bind {e : ε} {g : Bool → Prog σ μ ε φ β} (h : ∀ b, (g b).Writes Q W) :
    (output e >>= g).Writes Q W := h

theorem Writes.change {f : σ → σ} (hf : W f) :
    (Prog.change f : Prog σ μ ε φ Unit).Writes Q W := ⟨hf, trivial⟩

theorem Writes.deref_bind {f : φ} {x : Option α} {g : α → Prog σ μ ε φ β}
    (h : ∀ a, x = some a → (g a).Writes Q W) : (deref f x >>= g).Writes Q W := by
  cases x with
  | none => trivial
  | some a => exact h a rfl

theorem Writes.ite {c : Prop} [Decidable c] {p q : Prog σ μ ε φ β}
    (hp : c → p.Writes Q W) (hq : ¬ c → q.Writes Q W) : (if c then p else q).Writes Q W := by
  by_cases hc : c
  · rw [if_pos hc]
    exact hp hc
  · rw [if_neg hc]
    exact hq hc

theorem Writes.onlyIf {c : Bool} {p : Prog σ μ ε φ Unit} (h : p.Writes Q W) :
    (Prog.onlyIf c p).Writes Q W := by
  cases c with
  | false => trivial
  | true => exact h

theorem Writes.forEach {go : β → Bool} {body : α → β → Prog σ μ ε φ β}
    (h : ∀ x b, (body x b).Writes Q W) :
    ∀ (xs : List α) (b : β), (forEach go body xs b).Writes Q W := by
  intro xs
  induction xs with
  | nil => intro b; trivial
  | cons x xs ih =>
    intro b
    unfold Prog.forEach
    exact .ite (fun _ => (h x b).bind ih) fun _ => trivial

/-- Once it has made a change that `W` does not admit, the program makes no further
one. -/
def Settles (W : (σ → σ) → Prop) : Prog σ μ ε φ α → Prop
  | ret _ => True
  | crash _ => True
  | exit => True
  | lock _ k => k.Settles W
  | unlock _ k => k.Settles W
  | emit _ k => ∀ b, (k b).Settles W
  | read k => ∀ s, (k s).Settles W
  | write f k => (W f → k.Settles W) ∧ (¬ W f → k.Writes anyState W)

theorem Settles.of_writes {p : Prog σ μ ε φ α} (h : p.Writes anyState W) : p.Settles W := by
  induction p with
  | ret a => trivial
  | crash f => trivial
  | exit => trivial
  | lock m k ih => exact ih h
  | unlock m k ih => exact ih h
  | emit e k ih => exact fun b => ih b (h b)
  | read k ih => exact fun s => ih s (h s trivial)
  | write f k ih => exact ⟨fun _ => ih h.2, fun _ => h.2⟩

theorem Settles.ite {c : Prop} [Decidable c] {p q : Prog σ μ ε φ β} (hp : c → p.Settles W)
    (hq : ¬ c → q.Settles W) : (if c then p else q).Settles W := by
  by_cases hc : c
  · rw [if_pos hc]
    exact hp hc
  · rw [if_neg hc]
    exact hq hc

/-- First a program that makes only admitted changes. -/
theorem Settles.bind_of_writes {p : Prog σ μ ε φ α} {g : α → Prog σ μ ε φ β}
    (hp : p.Writes anyState W) (hg : ∀ a, (g a).Settles W) : (p >>= g).Settles W := by
  show (p.andThen g).Settles W
  induction p with
  | ret a => exact hg a
  | crash f => trivial
  | exit => trivial
  | lock m k ih => exact ih hp
  | unlock m k ih => exact ih hp
  | emit e k ih => exact fun b => ih b (hp b)
  | read k ih => exact fun s => ih s (hp s trivial)
  | write f k ih => exact ⟨fun _ => ih hp.2, fun hf => absurd hp.1 hf⟩

/-- Then a program that makes only admitted changes. -/
theorem Settles.bind {p : Prog σ μ ε φ α} {g : α → Prog σ μ ε φ β} (hp : p.Settles W)
    (hg : ∀ a, (g a).Writes anyState W) : (p >>= g).Settles W := by
  show (p.andThen g).Settles W
  induction p with
  | ret a => exact .of_writes (hg a)
  | crash f => trivial
  | exit => trivial
  | lock m k ih => exact ih hp
  | unlock m k ih => exact ih hp
  | emit e k ih => exact fun b => ih b (hp b)
  | read k ih => exact fun s => ih s (hp s)
  | write f k ih => exact ⟨fun hf => ih (hp.1 hf), fun hf => (hp.2 hf).bind hg⟩

/-- After this change only admitted ones. -/
theorem Settles.change_bind {f : σ → σ} {g : Unit → Prog σ μ ε φ β}
    (h : (g ()).Writes anyState W) : (Prog.change f >>= g).Settles W :=
  ⟨fun _ => .of_writes h, fun _ => h⟩

/-! ## What a program hands out -/

/-- As long as it reads only states that satisfy `J` and its outputs work, what the
program returns and has handed out when it returns satisfies `T`. -/
def Tells (J : σ → Prop) : Prog σ μ ε φ α → (α → List ε → Prop) → Prop
  | ret a, T => T a []
  | crash _, _ => True
  | exit, _ => True
  | lock _ k, T => k.Tells J T
  | unlock _ k, T => k.Tells J T
  | emit e k, T => (k true).Tells J fun a es => T a (e :: es)
  | read k, T => ∀ s, J s → (k s).Tells J T
  | write _ k, T => k.Tells J T

variable {J : σ → Prop}

theorem Tells.mono {p : Prog σ μ ε φ α} {T T' : α → List ε → Prop} (h : p.Tells J T)
    (hT : ∀ a es, T a es → T' a es) : p.Tells J T' := by
  induction p generalizing T T' with
  | ret a => exact hT a [] h
  | crash f => trivial
  | exit => trivial
  | lock m k ih => exact ih h hT
  | unlock m k ih => exact ih h hT
  | emit e k ih => exact ih true h fun a es => hT a (e :: es)
  | read k ih => exact fun s hs => ih s (h s hs) hT
  | write f k ih => exact ih h hT

/-- The rule of sequence. -/
theorem Tells.bind {p : Prog σ μ ε φ α} {g : α → Prog σ μ ε φ β} {T : β → List ε → Prop}
    (h : p.Tells J fun a es => (g a).Tells J fun b es' => T b (es ++ es')) :
    (p >>= g).Tells J T := by
  show (p.andThen g).Tells J T
  induction p generalizing T with
  | ret a => exact h
  | crash f => trivial
  | exit => trivial
  | lock m k ih => exact ih h
  | unlock m k ih => exact ih h
  | emit e k ih => exact ih true h
  | read k ih => exact fun s hs => ih s (h s hs)
  | write f k ih => exact ih h

/-! The rule of sequence for each single action. -/

theorem Tells.look_bind {f : σ → α} {g : α → Prog σ μ ε φ β} {T : β → List ε → Prop}
    (h : ∀ s, J s → (g (f s)).Tells J T) : (look f >>= g).Tells J T := h

theorem Tells.acquire_bind {m : μ} {g : Unit → Prog σ μ ε φ β} {T : β → List ε → Prop}
    (h : (g ()).Tells J T) : (acquire m >>= g).Tells J T := h

theorem Tells.release_bind {m : μ} {g : Unit → Prog σ μ ε φ β} {T : β → List ε → Prop}
    (h : (g ()).Tells J T) : (release m >>= g).Tells J T := h

theorem Tells.output_bind {e : ε} {g : Bool → Prog σ μ ε φ β} {T : β → List ε → Prop}
    (h : (g true).Tells J fun b es => T b (e :: es)) : (output e >>= g).Tells J T := h

end Prog

/-! ## Threads -/

/-- The shared state, what each thread has still to do, who holds each mutex, and
what the threads have handed out so far. -/
structure Threads (τ σ μ ε φ : Type) where
  state : σ
  todo : τ → Prog σ μ ε φ Unit
  owner : μ → Option τ
  out : List (τ × ε)

namespace Threads

section Act

variable [DecidableEq τ] {c c' : Threads τ σ μ ε φ} {t t' : τ} {works : Bool}

/-- What `t` has still to do is `p`. -/
def setTodo (c : Threads τ σ μ ε φ) (t : τ) (p : Prog σ μ ε φ Unit) : Threads τ σ μ ε φ :=
  { c with todo := fun t' => if t' = t then p else c.todo t' }

@[simp] theorem setTodo_self (p : Prog σ μ ε φ Unit) : (c.setTodo t p).todo t = p := if_pos rfl

theorem setTodo_ne (p : Prog σ μ ε φ Unit) (h : t' ≠ t) : (c.setTodo t p).todo t' = c.todo t' :=
  if_neg h

variable [DecidableEq μ]

/-- Who holds `m` is `o`. -/
def setOwner (c : Threads τ σ μ ε φ) (m : μ) (o : Option τ) : Threads τ σ μ ε φ :=
  { c with owner := fun m' => if m' = m then o else c.owner m' }

/-- The next action of `t`, if it has one and is not kept waiting for a mutex.
`works` says what becomes of an output. A mutex is free once it has been given back,
whoever does so. -/
def act (c : Threads τ σ μ ε φ) (t : τ) (works : Bool) : Option (Threads τ σ μ ε φ) :=
  match c.todo t with
  | .ret _ => none
  | .crash _ => none
  | .exit => none
  | .lock m k => if c.owner m = none then some ((c.setTodo t k).setOwner m (some t)) else none
  | .unlock m k => some ((c.setTodo t k).setOwner m none)
  | .emit e k => some { c.setTodo t (k works) with out := c.out ++ [(t, e)] }
  | .read k => some (c.setTodo t (k c.state))
  | .write f k => some { c.setTodo t k with state := f c.state }

/-- What an action of `t` can be, and what it does. -/
inductive Acts (c : Threads τ σ μ ε φ) (t : τ) (works : Bool) : Threads τ σ μ ε φ → Prop
  | lock {m : μ} {k : Prog σ μ ε φ Unit} (hdo : c.todo t = .lock m k) (hfree : c.owner m = none) :
      Acts c t works ((c.setTodo t k).setOwner m (some t))
  | unlock {m : μ} {k : Prog σ μ ε φ Unit} (hdo : c.todo t = .unlock m k) :
      Acts c t works ((c.setTodo t k).setOwner m none)
  | emit {e : ε} {k : Bool → Prog σ μ ε φ Unit} (hdo : c.todo t = .emit e k) :
      Acts c t works { c.setTodo t (k works) with out := c.out ++ [(t, e)] }
  | read {k : σ → Prog σ μ ε φ Unit} (hdo : c.todo t = .read k) :
      Acts c t works (c.setTodo t (k c.state))
  | write {f : σ → σ} {k : Prog σ μ ε φ Unit} (hdo : c.todo t = .write f k) :
      Acts c t works { c.setTodo t k with state := f c.state }

theorem act_cases (h : c.act t works = some c') : Acts c t works c' := by
  unfold act at h
  cases hdo : c.todo t with
  | ret a => rw [hdo] at h; cases h
  | crash f => rw [hdo] at h; cases h
  | exit => rw [hdo] at h; cases h
  | lock m k =>
    rw [hdo] at h
    have h : (if c.owner m = none then _ else none) = some c' := h
    by_cases hfree : c.owner m = none
    · rw [if_pos hfree] at h
      cases h
      exact .lock hdo hfree
    · rw [if_neg hfree] at h
      cases h
  | unlock m k =>
    rw [hdo] at h
    cases h
    exact .unlock hdo
  | emit e k =>
    rw [hdo] at h
    cases h
    exact .emit hdo
  | read k =>
    rw [hdo] at h
    cases h
    exact .read hdo
  | write f k =>
    rw [hdo] at h
    cases h
    exact .write hdo

/-- The others go on as before. -/
theorem Acts.todo_ne (h : Acts c t works c') (hne : t' ≠ t) : c'.todo t' = c.todo t' := by
  cases h with
  | lock hdo hfree => exact setTodo_ne _ hne
  | unlock hdo => exact setTodo_ne _ hne
  | emit hdo => exact setTodo_ne _ hne
  | read hdo => exact setTodo_ne _ hne
  | write hdo => exact setTodo_ne _ hne

/-- Who acts has something to do. -/
theorem Acts.todo_ne_ret (h : Acts c t works c') : c.todo t ≠ .ret () := by
  intro hret
  cases h with
  | lock hdo hfree => cases hdo.symm.trans hret
  | unlock hdo => cases hdo.symm.trans hret
  | emit hdo => cases hdo.symm.trans hret
  | read hdo => cases hdo.symm.trans hret
  | write hdo => cases hdo.symm.trans hret

variable {Q : σ → Prop} {W : (σ → σ) → Prop}

/-- What is left of the program is again as `Q` and `W` ask, unless the action reads. -/
theorem Acts.writes_or_read (h : Acts c t works c') (hw : (c.todo t).Writes Q W) :
    (c'.todo t).Writes Q W ∨ ∃ k, c.todo t = .read k ∧ c'.todo t = k c.state := by
  cases h with
  | read hdo => exact Or.inr ⟨_, hdo, setTodo_self _⟩
  | lock hdo hfree =>
    rw [hdo] at hw
    refine Or.inl ?_
    show ((c.setTodo t _).todo t).Writes Q W
    rw [setTodo_self]
    exact hw
  | unlock hdo =>
    rw [hdo] at hw
    refine Or.inl ?_
    show ((c.setTodo t _).todo t).Writes Q W
    rw [setTodo_self]
    exact hw
  | emit hdo =>
    rw [hdo] at hw
    refine Or.inl ?_
    show ((c.setTodo t _).todo t).Writes Q W
    rw [setTodo_self]
    exact hw works
  | write hdo =>
    rw [hdo] at hw
    refine Or.inl ?_
    show ((c.setTodo t _).todo t).Writes Q W
    rw [setTodo_self]
    exact hw.2

/-- A read of a state that satisfies `Q` is none. -/
theorem Acts.writes (h : Acts c t works c') (hw : (c.todo t).Writes Q W) (hQ : Q c.state) :
    (c'.todo t).Writes Q W := by
  obtain hafter | ⟨k, hdo, hto⟩ := h.writes_or_read hw
  · exact hafter
  · rw [hdo] at hw
    rw [hto]
    exact hw c.state hQ

/-- What a program may do only once it has seen that `Q` does not hold, it may do only
where `Q` does not hold, if nobody makes `Q` hold again. -/
theorem Acts.earned (h : Acts c t works c') (hbefore : ¬ (c.todo t).Writes Q W → ¬ Q c.state)
    (hafter : ¬ (c'.todo t).Writes Q W) : ¬ Q c.state := by
  by_cases hw : (c.todo t).Writes Q W
  · exact fun hQ => hafter (h.writes hw hQ)
  · exact hbefore hw

/-- A thread's outputs among those of all. -/
def outputsOf (c : Threads τ σ μ ε φ) (t : τ) : List ε := (c.out.filter (·.1 = t)).map (·.2)

/-- What the thread is still to hand out, where its outputs work. -/
theorem Acts.tells {J : σ → Prop} {T : Unit → List ε → Prop} {now : List ε}
    (h : Acts c t true c') (hJ : J c.state)
    (htells : (c.todo t).Tells J fun a es => T a (now ++ es)) :
    ∃ es, c'.outputsOf t = c.outputsOf t ++ es ∧
      (c'.todo t).Tells J fun a es' => T a (now ++ es ++ es') := by
  cases h with
  | lock hdo hfree =>
    rw [hdo] at htells
    refine ⟨[], (List.append_nil _).symm, ?_⟩
    show ((c.setTodo t _).todo t).Tells J _
    rw [setTodo_self, List.append_nil]
    exact htells
  | unlock hdo =>
    rw [hdo] at htells
    refine ⟨[], (List.append_nil _).symm, ?_⟩
    show ((c.setTodo t _).todo t).Tells J _
    rw [setTodo_self, List.append_nil]
    exact htells
  | @emit e k hdo =>
    rw [hdo] at htells
    refine ⟨[e], ?_, ?_⟩
    · show ((c.out ++ [(t, e)]).filter (·.1 = t)).map (·.2) = _
      rw [List.filter_append, List.map_append]
      simp [outputsOf]
    · show ((c.setTodo t _).todo t).Tells J _
      rw [setTodo_self]
      have htells : (k true).Tells J fun a es => T a (now ++ e :: es) := htells
      exact htells.mono fun a es hT => by rw [List.append_assoc]; exact hT
  | read hdo =>
    rw [hdo] at htells
    refine ⟨[], (List.append_nil _).symm, ?_⟩
    show ((c.setTodo t _).todo t).Tells J _
    rw [setTodo_self, List.append_nil]
    exact htells c.state hJ
  | write hdo =>
    rw [hdo] at htells
    refine ⟨[], (List.append_nil _).symm, ?_⟩
    show ((c.setTodo t _).todo t).Tells J _
    rw [setTodo_self, List.append_nil]
    exact htells

/-- The outputs of the others are not its own. -/
theorem Acts.outputsOf_ne (h : Acts c t works c') (hne : t' ≠ t) :
    c'.outputsOf t' = c.outputsOf t' := by
  cases h with
  | lock hdo hfree => rfl
  | unlock hdo => rfl
  | read hdo => rfl
  | write hdo => rfl
  | @emit e k hdo =>
    show ((c.out ++ [(t, e)]).filter (·.1 = t')).map (·.2) = _
    rw [List.filter_append, List.map_append]
    simp [outputsOf, Ne.symm hne]

theorem Acts.settles (h : Acts c t works c') (hs : (c.todo t).Settles W) :
    (c'.todo t).Settles W := by
  cases h with
  | lock hdo hfree =>
    rw [hdo] at hs
    show ((c.setTodo t _).todo t).Settles W
    rw [setTodo_self]
    exact hs
  | unlock hdo =>
    rw [hdo] at hs
    show ((c.setTodo t _).todo t).Settles W
    rw [setTodo_self]
    exact hs
  | emit hdo =>
    rw [hdo] at hs
    show ((c.setTodo t _).todo t).Settles W
    rw [setTodo_self]
    exact hs works
  | read hdo =>
    rw [hdo] at hs
    show ((c.setTodo t _).todo t).Settles W
    rw [setTodo_self]
    exact hs c.state
  | @write f k hdo =>
    rw [hdo] at hs
    show ((c.setTodo t _).todo t).Settles W
    rw [setTodo_self]
    by_cases hf : W f
    · exact hs.1 hf
    · exact .of_writes (hs.2 hf)

/-- The state changes only as the program's changes do. -/
theorem Acts.state (h : Acts c t works c') (hw : (c.todo t).Writes Q W) :
    c'.state = c.state ∨ ∃ f, W f ∧ c'.state = f c.state := by
  cases h with
  | lock hdo hfree => exact Or.inl rfl
  | unlock hdo => exact Or.inl rfl
  | emit hdo => exact Or.inl rfl
  | read hdo => exact Or.inl rfl
  | write hdo =>
    rw [hdo] at hw
    exact Or.inr ⟨_, hw.1, rfl⟩

end Act

end Threads

end UchiNetworks.Lib
