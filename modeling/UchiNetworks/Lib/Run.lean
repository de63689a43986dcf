import Mathlib.Data.List.Basic

/-!
# Runs of a machine, step by step

The three programs of this repository are event loops: a state, a stream of
events (a packet, a command, a clock tick), and one function that handles one
event. This file is what their proofs share and nothing else: a `run` folds the
handler over the events, `Along` says that a condition on "state before, event"
holds at every step of the run, and `run_invariant` turns a step lemma into a
statement about every state the run reaches.

A statement about *every reachable state* is a statement about the last state
of an arbitrary event list: each prefix of a run is itself a run
(`run_append`, `along_append`).
-/

namespace UchiNetworks.Lib

variable {σ ε : Type}

/-- The state after the handler `step` has taken the events one after another. -/
def run (step : σ → ε → σ) (s : σ) (evs : List ε) : σ :=
  evs.foldl step s

@[simp] theorem run_nil (step : σ → ε → σ) (s : σ) : run step s [] = s := rfl

@[simp] theorem run_cons (step : σ → ε → σ) (s : σ) (e : ε) (evs : List ε) :
    run step s (e :: evs) = run step (step s e) evs := rfl

theorem run_append (step : σ → ε → σ) (s : σ) (xs ys : List ε) :
    run step s (xs ++ ys) = run step (run step s xs) ys :=
  List.foldl_append

/-- `ok` holds of each state of the run and the event handled in it. -/
def Along (step : σ → ε → σ) (ok : σ → ε → Prop) : σ → List ε → Prop
  | _, [] => True
  | s, e :: evs => ok s e ∧ Along step ok (step s e) evs

instance Along.decidable (step : σ → ε → σ) (ok : σ → ε → Prop)
    [∀ s e, Decidable (ok s e)] : ∀ (s : σ) (evs : List ε), Decidable (Along step ok s evs)
  | _, [] => isTrue trivial
  | s, e :: evs =>
    have := Along.decidable step ok (step s e) evs
    inferInstanceAs (Decidable (ok s e ∧ Along step ok (step s e) evs))

@[simp] theorem along_nil (step : σ → ε → σ) (ok : σ → ε → Prop) (s : σ) :
    Along step ok s [] := trivial

@[simp] theorem along_cons (step : σ → ε → σ) (ok : σ → ε → Prop) (s : σ) (e : ε)
    (evs : List ε) :
    Along step ok s (e :: evs) ↔ ok s e ∧ Along step ok (step s e) evs := Iff.rfl

theorem along_append (step : σ → ε → σ) (ok : σ → ε → Prop) (s : σ) (xs ys : List ε) :
    Along step ok s (xs ++ ys) ↔ Along step ok s xs ∧ Along step ok (run step s xs) ys := by
  induction xs generalizing s with
  | nil => simp
  | cons x xs ih => simp [ih, and_assoc]

theorem along_of_forall {step : σ → ε → σ} {ok : σ → ε → Prop} (h : ∀ s e, ok s e) :
    ∀ (s : σ) (evs : List ε), Along step ok s evs
  | _, [] => trivial
  | s, e :: evs => ⟨h s e, along_of_forall h (step s e) evs⟩

/-- A weaker condition holds along the same run. -/
theorem along_mono {step : σ → ε → σ} {ok ok' : σ → ε → Prop}
    (h : ∀ s e, ok s e → ok' s e) :
    ∀ {s : σ} {evs : List ε}, Along step ok s evs → Along step ok' s evs
  | _, [], _ => trivial
  | s, e :: _, ⟨hok, hrest⟩ => ⟨h s e hok, along_mono h hrest⟩

theorem along_and {step : σ → ε → σ} {ok ok' : σ → ε → Prop} {s : σ} {evs : List ε} :
    Along step (fun s e => ok s e ∧ ok' s e) s evs ↔ Along step ok s evs ∧ Along step ok' s evs := by
  induction evs generalizing s with
  | nil => simp
  | cons e evs ih =>
    rw [along_cons, along_cons, along_cons, ih]
    exact and_and_and_comm

/-- A condition on the events alone. -/
theorem along_events {step : σ → ε → σ} {ok : ε → Prop} {s : σ} {evs : List ε} :
    Along step (fun _ e => ok e) s evs ↔ ∀ e ∈ evs, ok e := by
  induction evs generalizing s with
  | nil => simp
  | cons e evs ih => rw [along_cons, ih, List.forall_mem_cons]

/-- **The invariant rule.** What one admissible step preserves, every run of
admissible steps preserves. -/
theorem run_invariant {step : σ → ε → σ} {ok : σ → ε → Prop} (inv : σ → Prop)
    (hstep : ∀ s e, ok s e → inv s → inv (step s e)) {s : σ} {evs : List ε}
    (hal : Along step ok s evs) (hs : inv s) : inv (run step s evs) := by
  induction evs generalizing s with
  | nil => exact hs
  | cons e evs ih => exact ih hal.2 (hstep s e hal.1 hs)

/-- The invariant rule when the invariant also speaks of the events so far. -/
theorem run_history {step : σ → ε → σ} {ok : σ → ε → Prop} (inv : List ε → σ → Prop)
    (hstep : ∀ hist s e, ok s e → inv hist s → inv (hist ++ [e]) (step s e)) {s : σ}
    {evs : List ε} (hal : Along step ok s evs) (hs : inv [] s) : inv evs (run step s evs) := by
  have hgen : ∀ (evs hist : List ε) (s : σ), Along step ok s evs → inv hist s →
      inv (hist ++ evs) (run step s evs) := by
    intro evs
    induction evs with
    | nil => intro hist s _ h; rwa [List.append_nil]
    | cons e evs ih =>
      intro hist s hal h
      have := ih (hist ++ [e]) (step s e) hal.2 (hstep hist s e hal.1 h)
      rwa [List.append_assoc] at this
  exact hgen evs [] s hal hs

/-- The invariant rule for what a step does: a property of single steps that
the invariant gives holds all along the run. -/
theorem along_of_invariant {step : σ → ε → σ} {ok P : σ → ε → Prop} (inv : σ → Prop)
    (hstep : ∀ s e, ok s e → inv s → inv (step s e)) (hP : ∀ s e, ok s e → inv s → P s e)
    {s : σ} {evs : List ε} (hal : Along step ok s evs) (hs : inv s) : Along step P s evs := by
  induction evs generalizing s with
  | nil => trivial
  | cons e evs ih => exact ⟨hP s e hal.1 hs, ih hal.2 (hstep s e hal.1 hs)⟩

/-- Two conditions on single steps that mean the same wherever the invariant
holds, if a step that meets one of them keeps it. -/
theorem along_iff {step : σ → ε → σ} {ok ok' : σ → ε → Prop} (inv : σ → Prop)
    (hiff : ∀ s e, inv s → (ok s e ↔ ok' s e)) (hstep : ∀ s e, inv s → ok s e → inv (step s e))
    {s : σ} {evs : List ε} (hs : inv s) : Along step ok s evs ↔ Along step ok' s evs := by
  induction evs generalizing s with
  | nil => exact Iff.rfl
  | cons e evs ih =>
    rw [along_cons, along_cons, ← hiff s e hs]
    apply and_congr_right
    intro hok
    exact ih (hstep s e hs hok)

/-- A bound that can only be left and never regained: when it holds at the end
of a run, every step of the run ends below it. -/
theorem along_of_last {step : σ → ε → σ} (small : σ → Prop)
    (hback : ∀ s e, small (step s e) → small s) {s : σ} {evs : List ε}
    (hlast : small (run step s evs)) : Along step (fun s e => small (step s e)) s evs := by
  have hkeep : ∀ (evs : List ε) (s : σ), small (run step s evs) → small s := by
    intro evs
    induction evs with
    | nil => intro s h; exact h
    | cons e evs ih => intro s h; exact hback s e (ih (step s e) h)
  induction evs generalizing s with
  | nil => trivial
  | cons e evs ih => exact ⟨hkeep evs _ hlast, ih hlast⟩

/-! ## A step that may fail -/

/-- `step` takes `s₀` to `s` through `evs`, each event being one that `ok` admits
where it comes. -/
inductive Path (step : σ → ε → Option σ) (ok : σ → ε → Prop) (s₀ : σ) : List ε → σ → Prop
  | nil : Path step ok s₀ [] s₀
  | snoc {evs : List ε} {s s' : σ} {e : ε} (h : Path step ok s₀ evs s) (hok : ok s e)
      (hstep : step s e = some s') : Path step ok s₀ (evs ++ [e]) s'

/-- Take the events one after another, as long as `step` can. -/
def follow (step : σ → ε → Option σ) : σ → List ε → Option σ
  | s, [] => some s
  | s, e :: evs => (step s e).bind fun s' => follow step s' evs

theorem follow_append (step : σ → ε → Option σ) (s : σ) (xs ys : List ε) :
    follow step s (xs ++ ys) = (follow step s xs).bind fun s' => follow step s' ys := by
  induction xs generalizing s with
  | nil => rfl
  | cons x xs ih =>
    show (step s x).bind (fun s' => follow step s' (xs ++ ys)) = _
    simp only [ih]
    exact (Option.bind_assoc _ _ _).symm

theorem follow_of_path {step : σ → ε → Option σ} {ok : σ → ε → Prop} {s₀ : σ} {evs : List ε} {s : σ}
    (h : Path step ok s₀ evs s) : follow step s₀ evs = some s := by
  induction h with
  | nil => rfl
  | snoc _ _ hstep ih =>
    rw [follow_append, ih, Option.bind_some]
    show (step _ _).bind _ = _
    rw [hstep]
    rfl

/-- Where `follow` arrives a path leads, if the events are admitted anywhere. -/
theorem path_of_follow {step : σ → ε → Option σ} {ok : σ → ε → Prop} {s₀ : σ} {evs : List ε} {s : σ}
    (hok : ∀ e ∈ evs, ∀ s, ok s e) (hfollow : follow step s₀ evs = some s) :
    Path step ok s₀ evs s := by
  have hgen : ∀ (evs pre : List ε) (t : σ), (∀ e ∈ evs, ∀ s, ok s e) → Path step ok s₀ pre t →
      follow step t evs = some s → Path step ok s₀ (pre ++ evs) s := by
    intro evs
    induction evs with
    | nil =>
      intro pre t _ hpath hfollow
      rw [← Option.some.inj hfollow, List.append_nil]
      exact hpath
    | cons e evs ih =>
      intro pre t hok hpath hfollow
      obtain ⟨t', hstep, hrest⟩ := Option.bind_eq_some_iff.mp hfollow
      have hnext : Path step ok s₀ (pre ++ [e]) t' := .snoc hpath (hok e List.mem_cons_self t) hstep
      have hall := ih (pre ++ [e]) t' (fun e' he' => hok e' (List.mem_cons_of_mem e he')) hnext hrest
      rw [List.append_assoc] at hall
      exact hall
  exact hgen evs [] s₀ hok .nil hfollow

/-- The same with a property of the state, to be computed. -/
theorem exists_of_follow {step : σ → ε → Option σ} {ok : σ → ε → Prop} {s₀ : σ} {evs : List ε}
    {p : σ → Bool} (hok : ∀ e ∈ evs, ∀ s, ok s e) (h : (follow step s₀ evs).any p = true) :
    ∃ s, Path step ok s₀ evs s ∧ p s = true := by
  cases hfollow : follow step s₀ evs with
  | none => rw [hfollow] at h; cases h
  | some s =>
    rw [hfollow] at h
    exact ⟨s, path_of_follow hok hfollow, h⟩

/-- `step`, taking no event that `ok` does not admit. -/
def guarded (step : σ → ε → Option σ) (ok : σ → ε → Prop) [∀ s e, Decidable (ok s e)] (s : σ)
    (e : ε) : Option σ :=
  if ok s e then step s e else none

theorem Path.of_guarded {step : σ → ε → Option σ} {ok any : σ → ε → Prop}
    [∀ s e, Decidable (ok s e)] {s₀ s : σ} {evs : List ε}
    (h : Path (guarded step ok) any s₀ evs s) : Path step ok s₀ evs s := by
  induction h with
  | nil => exact .nil
  | @snoc evs s s' e _ _ hstep ih =>
    have hstep : (if ok s e then step s e else none) = some s' := hstep
    by_cases hok : ok s e
    · rw [if_pos hok] at hstep
      exact .snoc ih hok hstep
    · rw [if_neg hok] at hstep
      cases hstep

/-- How many events of the run are of the kind `p`, each in the state in which it
comes. -/
def tally (step : σ → ε → Option σ) (p : σ → ε → Bool) : σ → List ε → Nat
  | _, [] => 0
  | s, e :: evs => (p s e).toNat + ((step s e).map fun s' => tally step p s' evs).getD 0

theorem tally_concat {step : σ → ε → Option σ} {p : σ → ε → Bool} {evs : List ε} {s₀ s : σ}
    (h : follow step s₀ evs = some s) (e : ε) :
    tally step p s₀ (evs ++ [e]) = tally step p s₀ evs + (p s e).toNat := by
  induction evs generalizing s₀ with
  | nil =>
    cases h
    show (p s e).toNat + ((step s e).map fun _ => 0).getD 0 = 0 + (p s e).toNat
    cases step s e with
    | none => exact Nat.add_comm _ _
    | some s' => exact Nat.add_comm _ _
  | cons e' evs ih =>
    obtain ⟨s₁, hnext, hrest⟩ := Option.bind_eq_some_iff.mp h
    show (p s₀ e').toNat + ((step s₀ e').map fun s' => tally step p s' (evs ++ [e])).getD 0
      = (p s₀ e').toNat + ((step s₀ e').map fun s' => tally step p s' evs).getD 0 + (p s e).toNat
    rw [hnext, Option.map_some, Option.map_some, Option.getD_some, Option.getD_some, ih hrest,
      Nat.add_assoc]

/-- The invariant rule for paths. -/
theorem Path.invariant {step : σ → ε → Option σ} {ok : σ → ε → Prop} {s₀ : σ} (inv : σ → Prop)
    (hs : inv s₀) (hstep : ∀ s e s', ok s e → step s e = some s' → inv s → inv s')
    {evs : List ε} {s : σ} (h : Path step ok s₀ evs s) : inv s := by
  induction h with
  | nil => exact hs
  | snoc _ hok hto ih => exact hstep _ _ _ hok hto ih

/-- The invariant rule for paths when the invariant also speaks of the events so
far. -/
theorem Path.history {step : σ → ε → Option σ} {ok : σ → ε → Prop} {s₀ : σ}
    (inv : List ε → σ → Prop) (hs : inv [] s₀)
    (hstep : ∀ evs s e s', Path step ok s₀ evs s → ok s e → step s e = some s' → inv evs s →
      inv (evs ++ [e]) s')
    {evs : List ε} {s : σ} (h : Path step ok s₀ evs s) : inv evs s := by
  induction h with
  | nil => exact hs
  | snoc hpath hok hto ih => exact hstep _ _ _ _ hpath hok hto ih

end UchiNetworks.Lib
