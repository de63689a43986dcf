import Mathlib.Data.List.Basic

/-!
# Lines in a stream

A stream is cut into lines by a two-symbol terminator `cr lf` of different
symbols. `breakAt` finds the first terminator and gives what stands before and
after it; `frames` gives all complete lines of a stream and the unfinished rest.

A reader that is fed the stream piece by piece keeps the unfinished rest:
`frames_append` says that this is all it has to keep, and `breakAt_append_none`
that the rest can be kept apart from the next piece as long as no terminator
lies across the cut.
-/

namespace UchiNetworks.Lib

variable {α : Type} [DecidableEq α]

/-- What stands before and after the first terminator. -/
def breakAt (cr lf : α) : List α → Option (List α × List α)
  | [] => none
  | [_] => none
  | a :: b :: s =>
    if a = cr ∧ b = lf then some ([], s)
    else (breakAt cr lf (b :: s)).map fun (l, r) => (a :: l, r)

/-- The complete lines of a stream, and what is left of it. -/
def frames (cr lf : α) : List α → List (List α) × List α
  | [] => ([], [])
  | [a] => ([], [a])
  | a :: b :: s =>
    if a = cr ∧ b = lf then ([] :: (frames cr lf s).1, (frames cr lf s).2)
    else
      match frames cr lf (b :: s) with
      | ([], t) => ([], a :: t)
      | (l :: ls, t) => ((a :: l) :: ls, t)

variable {cr lf : α}

theorem breakAt_some {s l r : List α} (h : breakAt cr lf s = some (l, r)) :
    s = l ++ cr :: lf :: r := by
  induction s using breakAt.induct cr lf generalizing l with
  | case1 => cases h
  | case2 a => cases h
  | case3 a b s hab =>
    rw [breakAt, if_pos hab] at h
    obtain ⟨rfl, rfl⟩ := Prod.mk.inj (Option.some.inj h)
    rw [hab.1, hab.2]
    rfl
  | case4 a b s hab ih =>
    rw [breakAt, if_neg hab] at h
    obtain ⟨⟨l', r'⟩, hbr, heq⟩ := Option.map_eq_some_iff.mp h
    obtain ⟨rfl, rfl⟩ := Prod.mk.inj heq
    rw [ih hbr]
    rfl

/-- The lines are found one after another. -/
theorem frames_eq (s : List α) :
    frames cr lf s = match breakAt cr lf s with
      | none => ([], s)
      | some (l, r) => (l :: (frames cr lf r).1, (frames cr lf r).2) := by
  induction s using breakAt.induct cr lf with
  | case1 => rfl
  | case2 a => rfl
  | case3 a b s hab => rw [frames, breakAt, if_pos hab, if_pos hab]
  | case4 a b s hab ih =>
    rw [frames, breakAt, if_neg hab, if_neg hab, ih]
    cases breakAt cr lf (b :: s) with
    | none => rfl
    | some p => rfl

theorem frames_of_none {s : List α} (h : breakAt cr lf s = none) : frames cr lf s = ([], s) := by
  rw [frames_eq, h]

theorem frames_of_some {s l r : List α} (h : breakAt cr lf s = some (l, r)) :
    frames cr lf s = (l :: (frames cr lf r).1, (frames cr lf r).2) := by
  rw [frames_eq, h]

/-- A line found stays found when the stream goes on. -/
theorem breakAt_append_some {x l r : List α} (y : List α) (h : breakAt cr lf x = some (l, r)) :
    breakAt cr lf (x ++ y) = some (l, r ++ y) := by
  induction x using breakAt.induct cr lf generalizing l with
  | case1 => cases h
  | case2 a => cases h
  | case3 a b s hab =>
    rw [breakAt, if_pos hab] at h
    obtain ⟨rfl, rfl⟩ := Prod.mk.inj (Option.some.inj h)
    rw [List.cons_append, List.cons_append, breakAt, if_pos hab]
  | case4 a b s hab ih =>
    rw [breakAt, if_neg hab] at h
    obtain ⟨⟨l', r'⟩, hbr, heq⟩ := Option.map_eq_some_iff.mp h
    obtain ⟨rfl, rfl⟩ := Prod.mk.inj heq
    have := ih hbr
    rw [List.cons_append] at this
    rw [List.cons_append, List.cons_append, breakAt, if_neg hab, this]
    rfl

/-- Without a terminator in `x` or across the cut, the first one is `y`'s. -/
theorem breakAt_append_none {x : List α} (y : List α) (h : breakAt cr lf x = none)
    (hcut : ¬(x.getLast? = some cr ∧ y.head? = some lf)) :
    breakAt cr lf (x ++ y) = (breakAt cr lf y).map fun (l, r) => (x ++ l, r) := by
  induction x using breakAt.induct cr lf with
  | case1 =>
    show breakAt cr lf y = _
    cases breakAt cr lf y <;> rfl
  | case2 a =>
    cases y with
    | nil => rfl
    | cons b s =>
      have hab : ¬(a = cr ∧ b = lf) := by
        intro hab
        exact hcut ⟨by rw [hab.1]; rfl, by rw [hab.2]; rfl⟩
      show breakAt cr lf (a :: b :: s) = _
      rw [breakAt, if_neg hab]
      rfl
  | case3 a b s hab =>
    rw [breakAt, if_pos hab] at h
    cases h
  | case4 a b s hab ih =>
    rw [breakAt, if_neg hab, Option.map_eq_none_iff] at h
    have hcut' : ¬((b :: s).getLast? = some cr ∧ y.head? = some lf) := by
      rwa [List.getLast?_cons_cons] at hcut
    have hrest := ih h hcut'
    rw [List.cons_append] at hrest
    rw [List.cons_append, List.cons_append, breakAt, if_neg hab, hrest]
    cases breakAt cr lf y <;> rfl

/-- A terminator that lies across the cut. -/
theorem breakAt_across {x : List α} (y : List α) (hne : cr ≠ lf)
    (h : breakAt cr lf (x ++ [cr]) = none) :
    breakAt cr lf (x ++ [cr] ++ lf :: y) = some (x, y) := by
  induction x with
  | nil => simp [breakAt]
  | cons a x ih =>
    cases x with
    | nil =>
      have ha : ¬(a = cr ∧ cr = lf) := fun hab => hne hab.2
      simp [breakAt, ha]
    | cons b x =>
      have hab : ¬(a = cr ∧ b = lf) := by
        intro hab
        simp [breakAt, hab] at h
      have h' : breakAt cr lf (b :: x ++ [cr]) = none := by
        simpa [breakAt, hab] using h
      have hrest := ih h'
      simp only [List.cons_append] at hrest ⊢
      rw [breakAt, if_neg hab, hrest]
      rfl

/-- Induction on a stream, line by line. -/
theorem line_induction {P : List α → Prop} (rest : ∀ s, breakAt cr lf s = none → P s)
    (line : ∀ s l r, breakAt cr lf s = some (l, r) → P r → P s) (s : List α) : P s := by
  have hlen : ∀ (n : Nat) (s : List α), s.length ≤ n → P s := by
    intro n
    induction n with
    | zero =>
      intro s hs
      apply rest
      rw [List.eq_nil_of_length_eq_zero (Nat.le_zero.mp hs)]
      rfl
    | succ n ih =>
      intro s hs
      cases hbr : breakAt cr lf s with
      | none => exact rest s hbr
      | some p =>
        obtain ⟨l, r⟩ := p
        have hr := congrArg List.length (breakAt_some hbr)
        simp only [List.length_append, List.length_cons] at hr
        exact line s l r hbr (ih r (by omega))
  exact hlen s.length s (Nat.le_refl _)

/-- **Only the unfinished rest matters** for what comes. -/
theorem frames_append (x y : List α) :
    frames cr lf (x ++ y) =
      ((frames cr lf x).1 ++ (frames cr lf ((frames cr lf x).2 ++ y)).1,
        (frames cr lf ((frames cr lf x).2 ++ y)).2) := by
  induction x using (@line_induction α _ cr lf _) with
  | rest x hbr => rw [frames_of_none hbr]; rfl
  | line x l r hbr ih =>
    rw [frames_of_some hbr, frames_of_some (breakAt_append_some y hbr), ih]
    rfl

/-- The unfinished rest has no terminator. -/
theorem breakAt_rest (x : List α) : breakAt cr lf (frames cr lf x).2 = none := by
  induction x using (@line_induction α _ cr lf _) with
  | rest x hbr => rw [frames_of_none hbr]; exact hbr
  | line x l r hbr ih => rw [frames_of_some hbr]; exact ih

/-- A `cr` at the end of a stream is left over. -/
theorem rest_getLast? (hne : cr ≠ lf) (x : List α) :
    (frames cr lf x).2.getLast? = some cr ↔ x.getLast? = some cr := by
  induction x using (@line_induction α _ cr lf _) with
  | rest x hbr => rw [frames_of_none hbr]
  | line x l r hbr ih =>
    rw [frames_of_some hbr, ih, breakAt_some hbr]
    cases r with
    | nil => simp [hne.symm]
    | cons b r => simp

theorem rest_suffix (x : List α) : (frames cr lf x).2 <:+ x := by
  induction x using (@line_induction α _ cr lf _) with
  | rest x hbr => exact ⟨[], by rw [frames_of_none hbr, List.nil_append]⟩
  | line x l r hbr ih =>
    rw [frames_of_some hbr, breakAt_some hbr]
    exact ih.trans ⟨l ++ [cr, lf], by simp⟩

/-- A line lies in the stream with its terminator. -/
theorem length_of_mem_frames (x : List α) :
    ∀ l ∈ (frames cr lf x).1, l.length + 2 ≤ x.length := by
  induction x using (@line_induction α _ cr lf _) with
  | rest x hbr =>
    rw [frames_of_none hbr]
    intro l hl
    cases hl
  | line x l r hbr ih =>
    have hlen := congrArg List.length (breakAt_some hbr)
    simp only [List.length_append, List.length_cons] at hlen
    rw [frames_of_some hbr]
    intro l' hl'
    rcases List.mem_cons.mp hl' with rfl | hl'
    · omega
    · have := ih l' hl'
      omega

/-- Nothing is left over after a terminator. -/
theorem rest_terminated (hne : cr ≠ lf) (x : List α) : (frames cr lf (x ++ [cr, lf])).2 = [] := by
  have hend : breakAt cr lf ((frames cr lf x).2 ++ [cr, lf]) = some ((frames cr lf x).2, []) := by
    rw [breakAt_append_none _ (breakAt_rest x) (fun h => hne (by simpa using h.2))]
    simp [breakAt]
  rw [frames_append, frames_of_some hend]
  rfl

/-- Two pieces without a terminator: what is complete ends across the cut. -/
theorem length_of_mem_across {x y : List α} (hne : cr ≠ lf) (hx : breakAt cr lf x = none)
    (hy : breakAt cr lf y = none) : ∀ l ∈ (frames cr lf (x ++ y)).1, l.length < x.length := by
  intro l hl
  by_cases hcut : x.getLast? = some cr ∧ y.head? = some lf
  · obtain ⟨x', rfl⟩ := List.getLast?_eq_some_iff.mp hcut.1
    obtain ⟨y', rfl⟩ := List.head?_eq_some_iff.mp hcut.2
    have hy' : breakAt cr lf y' = none := by
      cases y' with
      | nil => rfl
      | cons b s => simpa [breakAt, hne.symm] using hy
    rw [frames_of_some (breakAt_across y' hne hx), frames_of_none hy'] at hl
    obtain rfl := List.mem_singleton.mp hl
    simp
  · rw [frames_of_none (by rw [breakAt_append_none y hx hcut, hy]; rfl)] at hl
    cases hl

end UchiNetworks.Lib
