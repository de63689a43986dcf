import Mathlib.Data.List.Basic
import Mathlib.Data.List.TakeDrop

/-!
# Reassembly windows

A receiver that accepts pieces of a stream in any order keeps a buffer of the
next `size` positions and a flag per cell that says which of them have arrived.
This file is the arithmetic of such a window, over any element type: writing a
piece (`writeAt`, `markAt`), counting the arrived run at the front
(`firstGap`), moving the window on by that run (`slide`).

`Fits T lim pos size buf ind` is the invariant: a marked cell `i` holds the
stream's element at `pos + i`. The bound `lim` leaves room for cells that lie
outside the stream's address space altogether: with wrapping addresses an old
piece can be stored at a position no stream position corresponds to, and all
that has to be known of it is that the position is not below `lim`. As long as
the stream is shorter than `lim` the front run never reaches such a cell
(`firstGap_le`), so what is taken from the front is the stream
(`front_eq_take`).
-/

namespace UchiNetworks.Lib

variable {α : Type}

/-- Copy `xs` into the cells from `off` on. -/
def writeAt (buf : Nat → α) (off : Nat) (xs : List α) : Nat → α :=
  fun i => if off ≤ i then xs.getD (i - off) (buf i) else buf i

/-- Mark the `n` cells from `off` on. -/
def markAt (ind : Nat → Bool) (off n : Nat) : Nat → Bool :=
  fun i => ind i || (decide (off ≤ i) && decide (i < off + n))

/-- Drop the first `n` of `size` cells; the cells that move in are `fill`. -/
def slide (cells : Nat → α) (fill : α) (n size : Nat) : Nat → α :=
  fun i => if i + n < size then cells (i + n) else fill

/-- Position of the first unmarked cell from `i` on, looking at `fuel` cells. -/
def firstGapFrom (ind : Nat → Bool) : Nat → Nat → Nat
  | 0, i => i
  | fuel + 1, i => if ind i then firstGapFrom ind fuel (i + 1) else i

/-- Length of the run of marked cells at the front of a window of `size`. -/
def firstGap (ind : Nat → Bool) (size : Nat) : Nat := firstGapFrom ind size 0

/-- The first `n` cells as a list. -/
def front (buf : Nat → α) (n : Nat) : List α := (List.range n).map buf

@[simp] theorem front_length (buf : Nat → α) (n : Nat) : (front buf n).length = n := by
  simp [front]

theorem firstGapFrom_spec (ind : Nat → Bool) :
    ∀ (fuel i : Nat),
      i ≤ firstGapFrom ind fuel i ∧ firstGapFrom ind fuel i ≤ i + fuel ∧
      (∀ j, i ≤ j → j < firstGapFrom ind fuel i → ind j = true) ∧
      (firstGapFrom ind fuel i < i + fuel → ind (firstGapFrom ind fuel i) = false) := by
  intro fuel
  induction fuel with
  | zero => intro i; simp [firstGapFrom]; omega
  | succ fuel ih =>
    intro i
    unfold firstGapFrom
    split
    next hi =>
      obtain ⟨hlo, hhi, hrun, hstop⟩ := ih (i + 1)
      refine ⟨by omega, by omega, ?_, fun h => hstop (by omega)⟩
      intro j hij hj
      rcases Nat.eq_or_lt_of_le hij with rfl | hlt
      · exact hi
      · exact hrun j hlt hj
    next hi => exact ⟨Nat.le_refl _, by omega, by omega, fun _ => by simpa using hi⟩

theorem firstGap_le_size (ind : Nat → Bool) (size : Nat) : firstGap ind size ≤ size := by
  have := (firstGapFrom_spec ind size 0).2.1
  simpa [firstGap] using this

theorem firstGap_run {ind : Nat → Bool} {size j : Nat} (h : j < firstGap ind size) :
    ind j = true :=
  (firstGapFrom_spec ind size 0).2.2.1 j (Nat.zero_le j) h

theorem firstGap_stop {ind : Nat → Bool} {size : Nat} (h : firstGap ind size < size) :
    ind (firstGap ind size) = false :=
  (firstGapFrom_spec ind size 0).2.2.2 (by simpa [firstGap] using h)

/-- Nothing has arrived at the front exactly when the first cell is unmarked. -/
theorem firstGap_eq_zero {ind : Nat → Bool} {size : Nat} (h : ind 0 = false) :
    firstGap ind size = 0 := by
  by_contra hne
  have := firstGap_run (show 0 < firstGap ind size by omega)
  rw [h] at this
  exact Bool.false_ne_true this

theorem firstGap_pos {ind : Nat → Bool} {size : Nat} (h : ind 0 = true) (hsize : 0 < size) :
    0 < firstGap ind size := by
  by_contra hzero
  have hz : firstGap ind size = 0 := by omega
  have hstop := firstGap_stop (show firstGap ind size < size by omega)
  rw [hz, h] at hstop
  exact Bool.noConfusion hstop

theorem markAt_true {ind : Nat → Bool} {off n i : Nat} :
    markAt ind off n i = true ↔ ind i = true ∨ (off ≤ i ∧ i < off + n) := by
  simp [markAt]

@[simp] theorem markAt_zero (ind : Nat → Bool) (off : Nat) : markAt ind off 0 = ind := by
  funext i
  simp only [markAt, Nat.add_zero]
  cases hi : ind i
  · simp
  · simp

theorem writeAt_inside {buf : Nat → α} {off i : Nat} {xs : List α} (h1 : off ≤ i)
    (h2 : i < off + xs.length) : xs[i - off]? = some (writeAt buf off xs i) := by
  have hlt : i - off < xs.length := by omega
  simp [writeAt, h1, List.getD_eq_getElem?_getD, List.getElem?_eq_getElem hlt]

/-- What was written can be read off the cells. -/
theorem writeAt_inj {buf : Nat → α} {off : Nat} {xs ys : List α} (hlen : xs.length = ys.length) :
    writeAt buf off xs = writeAt buf off ys ↔ xs = ys := by
  constructor
  · intro heq
    refine List.ext_getElem? fun k => ?_
    rcases Nat.lt_or_ge k xs.length with hk | hk
    · have hx := @writeAt_inside _ buf off _ xs (Nat.le_add_right off k) (by omega)
      have hy := @writeAt_inside _ buf off _ ys (Nat.le_add_right off k) (by omega)
      rw [Nat.add_sub_cancel_left] at hx hy
      rw [hx, hy, heq]
    · rw [List.getElem?_eq_none hk, List.getElem?_eq_none (by omega)]
  · intro heq
    rw [heq]

theorem writeAt_outside {buf : Nat → α} {off i : Nat} {xs : List α}
    (h : i < off ∨ off + xs.length ≤ i) : writeAt buf off xs i = buf i := by
  unfold writeAt
  split
  next h1 =>
    rw [List.getD_eq_getElem?_getD, List.getElem?_eq_none (by omega)]
    rfl
  next => rfl

/-- A marked cell of the window at position `pos` holds the stream's element
there, or lies at or beyond `lim`. -/
def Fits (T : List α) (lim pos size : Nat) (buf : Nat → α) (ind : Nat → Bool) : Prop :=
  ∀ i, i < size → ind i = true → T[pos + i]? = some (buf i) ∨ lim ≤ pos + i

theorem fits_empty {T : List α} {lim pos size : Nat} {buf : Nat → α} {ind : Nat → Bool}
    (h : ∀ i, ind i = false) : Fits T lim pos size buf ind := by
  intro i _ hi
  rw [h i] at hi
  exact absurd hi Bool.false_ne_true

/-- The stream may grow. -/
theorem fits_prefix {T T' : List α} {lim pos size : Nat} {buf : Nat → α} {ind : Nat → Bool}
    (hT : T <+: T') (h : Fits T lim pos size buf ind) : Fits T' lim pos size buf ind := by
  intro i hi hind
  rcases h i hi hind with hT' | hfar
  · left
    obtain ⟨rest, rfl⟩ := hT
    have hlt : pos + i < T.length := (List.getElem?_eq_some_iff.mp hT').1
    rw [List.getElem?_append_left hlt]
    exact hT'
  · exact Or.inr hfar

/-- Writing a piece keeps the window, when each of its cells is the stream's
or lies beyond the bound. -/
theorem fits_write {T xs : List α} {lim pos size off : Nat} {buf : Nat → α}
    {ind : Nat → Bool}
    (hxs : ∀ k, k < xs.length → T[pos + (off + k)]? = xs[k]? ∨ lim ≤ pos + (off + k))
    (h : Fits T lim pos size buf ind) :
    Fits T lim pos size (writeAt buf off xs) (markAt ind off xs.length) := by
  intro i hi hind
  by_cases hin : off ≤ i ∧ i < off + xs.length
  · obtain ⟨h1, h2⟩ := hin
    have hk : off + (i - off) = i := by omega
    rcases hxs (i - off) (by omega) with hslice | hfar
    · left
      rw [hk] at hslice
      rw [hslice]
      exact writeAt_inside h1 h2
    · rw [hk] at hfar
      exact Or.inr hfar
  · have hold : ind i = true := (markAt_true.mp hind).resolve_right hin
    rw [writeAt_outside (by omega)]
    exact h i hi hold

/-- The run at the front stays inside the stream. -/
theorem firstGap_le {T : List α} {lim pos size : Nat} {buf : Nat → α} {ind : Nat → Bool}
    (h : Fits T lim pos size buf ind) (hT : T.length < lim) (hpos : pos ≤ T.length) :
    pos + firstGap ind size ≤ T.length := by
  by_contra hover
  -- the cell at the end of the stream would be marked, and it is below `lim`
  have hj : T.length - pos < firstGap ind size := by omega
  have hsz := firstGap_le_size ind size
  rcases h _ (by omega) (firstGap_run hj) with hin | hfar
  · have := (List.getElem?_eq_some_iff.mp hin).1
    omega
  · omega

/-- The run at the front is the next piece of the stream. -/
theorem front_eq_take {T : List α} {lim pos size : Nat} {buf : Nat → α} {ind : Nat → Bool}
    (h : Fits T lim pos size buf ind) (hT : T.length < lim) (hpos : pos ≤ T.length) :
    front buf (firstGap ind size) = (T.drop pos).take (firstGap ind size) := by
  have hle := firstGap_le h hT hpos
  have hsz := firstGap_le_size ind size
  apply List.ext_getElem?
  intro i
  by_cases hi : i < firstGap ind size
  · have hbuf : T[pos + i]? = some (buf i) := by
      rcases h i (by omega) (firstGap_run hi) with hin | hfar
      · exact hin
      · omega
    rw [List.getElem?_take_of_lt hi, List.getElem?_drop, hbuf]
    simp [front, hi]
  · rw [List.getElem?_eq_none (by simpa using hi), List.getElem?_eq_none]
    simp only [List.length_take, List.length_drop]
    omega

/-- Moving on by the front run keeps the window. -/
theorem fits_slide {T : List α} {lim pos size n : Nat} {buf : Nat → α} {ind : Nat → Bool}
    (fill : α) (h : Fits T lim pos size buf ind) :
    Fits T lim (pos + n) size (slide buf fill n size) (slide ind false n size) := by
  intro i _ hind
  unfold slide at hind ⊢
  split at hind
  next hlt =>
    rw [if_pos hlt, show pos + n + i = pos + (i + n) by omega]
    exact h (i + n) hlt hind
  next => exact absurd hind Bool.false_ne_true

/-- After the window has moved on by the whole front run, nothing is in front. -/
theorem slide_front {ind : Nat → Bool} {size : Nat} :
    slide ind false (firstGap ind size) size 0 = false := by
  unfold slide
  split
  next h => simpa using firstGap_stop (by simpa using h)
  next => rfl

end UchiNetworks.Lib
