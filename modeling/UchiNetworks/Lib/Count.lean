import Mathlib.Data.List.Nodup

/-!
# Counting the entries of a list

How `countP` follows a change that concerns one entry of a list without
duplicates: the entry gains or loses the counted property, goes, or comes. Where
the entries are numbers given out in turn, what holds of a list holds with the
next number at its end.
-/

namespace UchiNetworks.Lib

variable {α : Type} {p q : α → Bool} {a : α} {l : List α}

theorem countP_same (h : ∀ x ∈ l, p x = q x) : l.countP p = l.countP q :=
  List.countP_congr fun x hx => by rw [h x hx]

/-- The predicate changes at `a`, from false to true. -/
theorem countP_gain (hl : l.Nodup) (ha : a ∈ l) (hp : p a = false) (hq : q a = true)
    (hsame : ∀ x ∈ l, x ≠ a → p x = q x) : l.countP q = l.countP p + 1 := by
  induction l with
  | nil => cases ha
  | cons x xs ih =>
    have hnodup := List.nodup_cons.mp hl
    cases List.mem_cons.mp ha with
    | inl hhead =>
      have hrest : xs.countP p = xs.countP q := by
        refine countP_same fun y hy => hsame y (List.mem_cons_of_mem x hy) fun heq => ?_
        rw [heq, hhead] at hy
        exact hnodup.1 hy
      rw [← hhead, List.countP_cons_of_pos hq, List.countP_cons_of_neg (by simp [hp]), hrest]
    | inr htail =>
      have hne : x ≠ a := by
        intro heq
        rw [heq] at hnodup
        exact hnodup.1 htail
      have hx := hsame x List.mem_cons_self hne
      have hrest := ih hnodup.2 htail fun y hy => hsame y (List.mem_cons_of_mem x hy)
      rw [List.countP_cons, List.countP_cons, hrest, hx]
      omega

/-- The predicate changes at `a`, from true to false. -/
theorem countP_lose (hl : l.Nodup) (ha : a ∈ l) (hp : p a = true) (hq : q a = false)
    (hsame : ∀ x ∈ l, x ≠ a → p x = q x) : l.countP p = l.countP q + 1 :=
  countP_gain hl ha hq hp fun x hx hne => (hsame x hx hne).symm

/-- One entry goes. -/
theorem countP_erase_found [DecidableEq α] (ha : a ∈ l) :
    l.countP p = (l.eraseP (· = a)).countP p + if p a then 1 else 0 := by
  induction l with
  | nil => cases ha
  | cons x xs ih =>
    by_cases hx : x = a
    · rw [List.eraseP_cons_of_pos (by simp [hx]), List.countP_cons, hx]
    · have htail : a ∈ xs := by simpa [Ne.symm hx] using ha
      rw [List.eraseP_cons_of_neg (by simp [hx]), List.countP_cons, List.countP_cons, ih htail]
      omega

theorem mem_erase_found [DecidableEq α] (hl : l.Nodup) {x : α} :
    x ∈ l.eraseP (· = a) ↔ x ∈ l ∧ x ≠ a := by
  induction l with
  | nil => simp
  | cons y ys ih =>
    have hnodup := List.nodup_cons.mp hl
    by_cases hy : y = a
    · rw [List.eraseP_cons_of_pos (by simp [hy])]
      refine ⟨fun hx => ⟨List.mem_cons_of_mem y hx, fun heq => ?_⟩, fun hx => ?_⟩
      · rw [heq, ← hy] at hx
        exact hnodup.1 hx
      · have htail := hx.1
        rw [hy] at htail
        simpa [hx.2] using htail
    · rw [List.eraseP_cons_of_neg (by simp [hy]), List.mem_cons, List.mem_cons, ih hnodup.2]
      refine ⟨fun hx => ?_, fun hx => ?_⟩
      · cases hx with
        | inl heq => exact ⟨Or.inl heq, by rw [heq]; exact hy⟩
        | inr htail => exact ⟨Or.inr htail.1, htail.2⟩
      · cases hx.1 with
        | inl heq => exact Or.inl heq
        | inr htail => exact Or.inr ⟨htail, hx.2⟩

/-! ## The next number -/

variable {l : List Nat} {n : Nat}

theorem nodup_fresh (hl : l.Nodup) (hold : ∀ u ∈ l, u < n) : (l ++ [n]).Nodup := by
  refine List.nodup_append.mpr ⟨hl, List.nodup_singleton _, ?_⟩
  intro u hu v hv heq
  rw [List.mem_singleton.mp hv] at heq
  exact Nat.ne_of_lt (hold u hu) heq

theorem lt_fresh (hold : ∀ u ∈ l, u < n) : ∀ u ∈ l ++ [n], u < n + 1 := by
  intro u hu
  cases List.mem_append.mp hu with
  | inl hu => exact Nat.lt_succ_of_lt (hold u hu)
  | inr hu =>
    rw [List.mem_singleton.mp hu]
    exact Nat.lt_succ_self _

/-- What tells the entries apart, as far as it `counts`, tells the new one from
the others. -/
theorem inj_fresh {f : Nat → α} (counts : α → Prop)
    (hold : ∀ u ∈ l, ∀ v ∈ l, counts (f u) → f u = f v → u = v)
    (hnew : ∀ u ∈ l, counts (f u) → f u ≠ f n) :
    ∀ u ∈ l ++ [n], ∀ v ∈ l ++ [n], counts (f u) → f u = f v → u = v := by
  intro u hu v hv hc heq
  cases List.mem_append.mp hu with
  | inl hu =>
    cases List.mem_append.mp hv with
    | inl hv => exact hold u hu v hv hc heq
    | inr hv =>
      rw [List.mem_singleton.mp hv] at heq
      exact absurd heq (hnew u hu hc)
  | inr hu =>
    cases List.mem_append.mp hv with
    | inl hv =>
      rw [List.mem_singleton.mp hu] at hc heq
      exact absurd heq.symm (hnew v hv (heq ▸ hc))
    | inr hv => rw [List.mem_singleton.mp hu, List.mem_singleton.mp hv]

end UchiNetworks.Lib
