/-!
# A loop, round by round

The body of a `while` takes the loop's state to the next one or leaves the loop
with a result. `Reaches` is what rounds can do one after another, `Ends` says
that the loop is left. A round that changes nothing is repeated for ever
(`not_ends_of_stuck`), and nothing else is reached from there (`Reaches.of_stuck`).
-/

namespace UchiNetworks.Lib

/-- What one round comes to. -/
inductive Round (σ β : Type) where
  /-- another round, in this state -/
  | again (s : σ)
  /-- the loop is left -/
  | done (b : β)

variable {σ β : Type}

/-- The rounds from `s` on lead to `s'`. -/
inductive Reaches (body : σ → Round σ β) : σ → σ → Prop
  | refl (s : σ) : Reaches body s s
  | next {s mid s' : σ} (h : body s = .again mid) (hrest : Reaches body mid s') : Reaches body s s'

/-- The loop is left with `b`. -/
inductive Ends (body : σ → Round σ β) : σ → β → Prop
  | exit {s : σ} {b : β} (h : body s = .done b) : Ends body s b
  | next {s mid : σ} {b : β} (h : body s = .again mid) (hrest : Ends body mid b) : Ends body s b

theorem ends_of_again {body : σ → Round σ β} {s mid : σ} (h : body s = .again mid) (b : β) :
    Ends body s b ↔ Ends body mid b := by
  constructor
  · intro hends
    cases hends with
    | exit hdone => rw [h] at hdone; cases hdone
    | next hagain hrest =>
      rw [h] at hagain
      obtain rfl := Round.again.inj hagain
      exact hrest
  · exact Ends.next h

/-- A round that changes nothing. -/
theorem not_ends_of_stuck {body : σ → Round σ β} {s : σ} (h : body s = .again s) (b : β) :
    ¬ Ends body s b := by
  -- along a derivation the state would stay the same
  have hgen : ∀ t b, Ends body t b → t ≠ s := by
    intro t b ht
    induction ht with
    | exit hdone =>
      intro heq
      rw [heq, h] at hdone
      cases hdone
    | next hagain _ ih =>
      intro heq
      rw [heq, h] at hagain
      exact ih (Round.again.inj hagain).symm
  exact fun hends => hgen s b hends rfl

/-- Nothing else is reached from there. -/
theorem Reaches.of_stuck {body : σ → Round σ β} {s s' : σ} (h : body s = .again s)
    (hreach : Reaches body s s') : s' = s := by
  induction hreach with
  | refl s => rfl
  | next hagain _ ih =>
    obtain rfl := Round.again.inj (h.symm.trans hagain)
    exact ih h

/-- What a round keeps, the rounds keep. -/
theorem Reaches.invariant {body : σ → Round σ β} (inv : σ → Prop)
    (hround : ∀ s s', body s = .again s' → inv s → inv s') {s s' : σ} (h : Reaches body s s')
    (hs : inv s) : inv s' := by
  induction h with
  | refl s => exact hs
  | next hagain _ ih => exact ih (hround _ _ hagain hs)

/-! ## A loop over a list -/

/-- A loop that gets past the elements with `P` comes to one with `Q`. -/
def ComesTo {α : Type} (P Q : α → Prop) (xs : List α) : Prop :=
  ∃ before x after, xs = before ++ x :: after ∧ (∀ y ∈ before, P y) ∧ Q x

theorem not_comesTo_nil {α : Type} {P Q : α → Prop} : ¬ ComesTo P Q [] := by
  intro h
  obtain ⟨before, x, after, hsplit, -⟩ := h
  exact absurd hsplit.symm (List.append_ne_nil_of_right_ne_nil before (List.cons_ne_nil x after))

theorem comesTo_cons {α : Type} {P Q : α → Prop} {x : α} {xs : List α} :
    ComesTo P Q (x :: xs) ↔ Q x ∨ P x ∧ ComesTo P Q xs := by
  constructor
  · intro h
    obtain ⟨before, y, after, hsplit, hbefore, hy⟩ := h
    cases before with
    | nil =>
      obtain ⟨rfl, -⟩ := List.cons.inj hsplit
      exact Or.inl hy
    | cons z before =>
      obtain ⟨rfl, hrest⟩ := List.cons.inj hsplit
      exact Or.inr ⟨hbefore x List.mem_cons_self, before, y, after, hrest,
        fun w hw => hbefore w (List.mem_cons_of_mem _ hw), hy⟩
  · intro h
    rcases h with hx | ⟨hx, before, y, after, rfl, hbefore, hy⟩
    · exact ⟨[], x, xs, rfl, fun _ hw => (by cases hw), hx⟩
    · exact ⟨x :: before, y, after, rfl, List.forall_mem_cons.mpr ⟨hx, hbefore⟩, hy⟩

end UchiNetworks.Lib
