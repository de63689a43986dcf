import Mathlib.Data.List.MinMax
import Mathlib.Data.BitVec

/-!
# The longest prefix that matches

A routing table picks, among the entries that match an address, the first of
those whose prefix is longest. Two things about this are not particular to any
table.

The first of the best (`FirstBest`): a scan that replaces its candidate only by
a strictly better one ends with it, and where no two elements are equally good
it does not depend on the order (`FirstBest.unique_of_perm`).

Contiguous masks (`Contiguous`): as numbers they are ordered by the number of
their one bits, so comparing masks compares lengths (`Contiguous.lt_iff`).
-/

namespace UchiNetworks.Lib

/-! ## The first of the best -/

section FirstBest

variable {α β : Type} [LinearOrder β] {rank : α → β}

/-- `m` is an element of greatest rank, and every element before it has a smaller
one. -/
def FirstBest (rank : α → β) (l : List α) (m : α) : Prop :=
  ∃ before after, l = before ++ m :: after ∧ (∀ x ∈ before, rank x < rank m) ∧
    ∀ x ∈ after, rank x ≤ rank m

theorem FirstBest.mem {l : List α} {m : α} (h : FirstBest rank l m) : m ∈ l := by
  obtain ⟨before, after, rfl, -, -⟩ := h
  exact List.mem_append_right _ List.mem_cons_self

theorem FirstBest.le {l : List α} {m x : α} (h : FirstBest rank l m) (hx : x ∈ l) :
    rank x ≤ rank m := by
  obtain ⟨before, after, rfl, hbefore, hafter⟩ := h
  rcases List.mem_append.mp hx with hx | hx
  · exact (hbefore x hx).le
  · rcases List.mem_cons.mp hx with rfl | hx
    · exact le_refl _
    · exact hafter x hx

/-- The scan keeps its candidate unless the next element is strictly better. -/
theorem argmax_firstBest {l : List α} {m : α} (h : l.argmax rank = some m) :
    FirstBest rank l m := by
  induction l using List.reverseRecOn generalizing m with
  | nil => cases h
  | append_singleton l x ih =>
    rw [List.argmax_concat] at h
    cases hbest : l.argmax rank with
    | none =>
      rw [hbest] at h
      obtain rfl := Option.some.inj h
      rw [List.argmax_eq_none.mp hbest]
      exact ⟨[], [], rfl, by simp, by simp⟩
    | some best =>
      obtain ⟨before, after, hl, hbefore, hafter⟩ := ih hbest
      have hall : ∀ y ∈ l, rank y ≤ rank best := fun y hy =>
        FirstBest.le ⟨before, after, hl, hbefore, hafter⟩ hy
      simp only [hbest] at h
      split at h
      next hlt =>
        obtain rfl := Option.some.inj h
        exact ⟨l, [], rfl, fun y hy => (hall y hy).trans_lt hlt, by simp⟩
      next hge =>
        obtain rfl := Option.some.inj h
        refine ⟨before, after ++ [x], by rw [hl, List.append_assoc, List.cons_append], hbefore, ?_⟩
        intro y hy
        rcases List.mem_append.mp hy with hy | hy
        · exact hafter y hy
        · rw [List.mem_singleton.mp hy]
          exact not_lt.mp hge

/-- There is only one. -/
theorem FirstBest.unique {l : List α} {m m' : α} (h : FirstBest rank l m)
    (h' : FirstBest rank l m') : m = m' := by
  obtain ⟨before, after, rfl, hbefore, hafter⟩ := h
  have hle := h'.le (List.mem_append_right before (List.mem_cons_self (a := m) (l := after)))
  obtain ⟨before', after', hl, hbefore', hafter'⟩ := h'
  rcases List.append_eq_append_iff.mp hl with ⟨mid, rfl, hmid⟩ | ⟨mid, rfl, hmid⟩
  · cases mid with
    | nil => exact (List.cons.inj hmid).1
    | cons y mid =>
      -- `m` would come before `m'` and be worse
      obtain ⟨rfl, rfl⟩ := List.cons.inj hmid
      exact absurd (hbefore' m (by simp)) (not_lt.mpr (hafter m' (by simp)))
  · cases mid with
    | nil => exact (List.cons.inj hmid).1.symm
    | cons y mid =>
      obtain ⟨rfl, -⟩ := List.cons.inj hmid
      exact absurd (hbefore m' (by simp)) (not_lt.mpr hle)

theorem argmax_eq_some_iff_firstBest {l : List α} {m : α} :
    l.argmax rank = some m ↔ FirstBest rank l m := by
  refine ⟨argmax_firstBest, fun h => ?_⟩
  cases hbest : l.argmax rank with
  | none =>
    rw [List.argmax_eq_none.mp hbest] at h
    cases h.mem
  | some best => rw [(argmax_firstBest hbest).unique h]

/-- Only the order of the ranks matters. -/
theorem FirstBest.congr {γ : Type} [LinearOrder γ] {rank' : α → γ} {l : List α} {m : α}
    (hsame : ∀ x ∈ l, ∀ y ∈ l, rank x < rank y ↔ rank' x < rank' y) (h : FirstBest rank l m) :
    FirstBest rank' l m := by
  have hm := h.mem
  obtain ⟨before, after, hl, hbefore, hafter⟩ := h
  refine ⟨before, after, hl, ?_, ?_⟩
  · intro x hx
    have hxl : x ∈ l := by rw [hl]; exact List.mem_append_left _ hx
    exact (hsame x hxl m hm).mp (hbefore x hx)
  · intro x hx
    have hxl : x ∈ l := by
      rw [hl]
      exact List.mem_append_right _ (List.mem_cons_of_mem _ hx)
    exact not_lt.mp fun hlt => not_lt.mpr (hafter x hx) ((hsame m hm x hxl).mpr hlt)

/-- Where no two elements are equally good the order does not matter. -/
theorem FirstBest.unique_of_perm {l l' : List α} {m m' : α} (hperm : l.Perm l')
    (hdistinct : ∀ x ∈ l, ∀ y ∈ l, rank x = rank y → x = y) (h : FirstBest rank l m)
    (h' : FirstBest rank l' m') : m = m' := by
  have hm' := hperm.mem_iff.mpr h'.mem
  exact hdistinct m h.mem m' hm' (le_antisymm (h'.le (hperm.mem_iff.mp h.mem)) (h.le hm'))

end FirstBest

/-! ## Contiguous masks -/

variable {w : Nat}

/-- One bits and then zero bits. -/
def Contiguous (mask : BitVec w) : Prop :=
  ∃ k n, ∃ h : k + n = w, mask = (BitVec.allOnes k ++ BitVec.zero n).cast h

theorem Contiguous.toNat_eq {mask : BitVec w} (h : Contiguous mask) :
    mask.cpop.toNat ≤ w ∧ mask.toNat = 2 ^ w - 2 ^ (w - mask.cpop.toNat) := by
  obtain ⟨k, n, rfl, rfl⟩ := h
  have hones : (BitVec.allOnes k ++ BitVec.zero n).cpop.toNat = k := by
    rw [BitVec.toNat_cpop_append, BitVec.cpop_allOnes]
    simp
  simp only [BitVec.cast_eq, hones, BitVec.toNat_append]
  refine ⟨Nat.le_add_right k n, ?_⟩
  rw [Nat.add_sub_cancel_left, BitVec.toNat_allOnes, Nat.shiftLeft_eq, Nat.sub_mul, Nat.pow_add]
  simp

/-- The longer of two contiguous masks is the greater number. -/
theorem Contiguous.lt_iff {mask mask' : BitVec w} (h : Contiguous mask) (h' : Contiguous mask') :
    mask < mask' ↔ mask.cpop.toNat < mask'.cpop.toNat := by
  obtain ⟨hle, heq⟩ := h.toNat_eq
  obtain ⟨hle', heq'⟩ := h'.toNat_eq
  generalize mask.cpop.toNat = k at hle heq
  generalize mask'.cpop.toNat = k' at hle' heq'
  have hpow : 2 ^ (w - k) ≤ 2 ^ w := Nat.pow_le_pow_right (by omega) (by omega)
  have hpow' : 2 ^ (w - k') ≤ 2 ^ w := Nat.pow_le_pow_right (by omega) (by omega)
  rw [BitVec.lt_def, heq, heq']
  constructor
  · intro hlt
    by_contra hge
    have := Nat.pow_le_pow_right (show 0 < 2 by omega) (show w - k ≤ w - k' by omega)
    omega
  · intro hlt
    have := Nat.pow_lt_pow_right (show 1 < 2 by omega) (show w - k' < w - k by omega)
    omega

/-- Two contiguous masks of one length are the same. -/
theorem Contiguous.eq_of_cpop {mask mask' : BitVec w} (h : Contiguous mask)
    (h' : Contiguous mask') (hlen : mask.cpop.toNat = mask'.cpop.toNat) : mask = mask' := by
  obtain ⟨-, heq⟩ := h.toNat_eq
  obtain ⟨-, heq'⟩ := h'.toNat_eq
  apply BitVec.eq_of_toNat_eq
  rw [heq, heq', hlen]

end UchiNetworks.Lib
