import Mathlib.Data.List.Basic
import Mathlib.Data.List.TakeWhile

/-!
# Segments end to end

A stream is sent in segments, each with the position of its first element, and
acknowledged up to a position that only grows. `Tiles lo hi` says that the
segments follow one another without gap or overlap from `lo` to `hi`. Of such
segments the ones that end beyond a position `u` are what is left when the front
that ends at `u` or before is dropped (`Tiles.dropWhile_eq`), and they cover the
stretch from `u` on (`Tiles.covers`).
-/

namespace UchiNetworks.Lib

variable {α : Type}

/-- The position after a segment's last element. -/
def segEnd (s : Nat × List α) : Nat := s.1 + s.2.length

/-- Nonempty segments, end to end from `lo` to `hi`. -/
def Tiles : Nat → Nat → List (Nat × List α) → Prop
  | lo, hi, [] => lo = hi
  | lo, hi, s :: rest => s.1 = lo ∧ 0 < s.2.length ∧ Tiles (segEnd s) hi rest

/-- The segments cover the stretch from `u` to `hi`: the first holds `u`. -/
def Covers (u hi : Nat) (segs : List (Nat × List α)) : Prop :=
  (segs = [] ∧ u = hi) ∨
  ∃ s rest, segs = s :: rest ∧ s.1 ≤ u ∧ u < segEnd s ∧ Tiles s.1 hi segs

/-- The segments that end beyond `u`. -/
def beyond (u : Nat) (segs : List (Nat × List α)) : List (Nat × List α) :=
  segs.filter fun s => decide (u < segEnd s)

theorem Tiles.le : ∀ {segs : List (Nat × List α)} {lo hi : Nat}, Tiles lo hi segs → lo ≤ hi
  | [], _, _, h => Nat.le_of_eq h
  | s :: _, lo, _, h => by
    obtain ⟨hlo, -, hrest⟩ := h
    have hle := Tiles.le hrest
    unfold segEnd at hle
    omega

/-- One more segment at the end. -/
theorem Tiles.concat {bs : List α} (hbs : 0 < bs.length) :
    ∀ {segs : List (Nat × List α)} {lo mid : Nat}, Tiles lo mid segs →
      Tiles lo (mid + bs.length) (segs ++ [(mid, bs)])
  | [], _, _, h => ⟨h.symm, hbs, rfl⟩
  | _ :: _, _, _, h => ⟨h.1, h.2.1, h.2.2.concat hbs⟩

/-- Every segment starts at `lo` or later, and ends beyond its start. -/
theorem Tiles.mem {segs : List (Nat × List α)} :
    ∀ {lo hi : Nat}, Tiles lo hi segs → ∀ s ∈ segs, lo ≤ s.1 ∧ lo < segEnd s := by
  induction segs with
  | nil =>
    intro lo hi _ s hs
    cases hs
  | cons x rest ih =>
    intro lo hi h s hs
    obtain ⟨hlo, hpos, hrest⟩ := h
    rcases List.mem_cons.mp hs with heq | hs
    · rw [heq]
      exact ⟨Nat.le_of_eq hlo.symm, by unfold segEnd; omega⟩
    · obtain ⟨hle, hlt⟩ := ih hrest s hs
      unfold segEnd at hle hlt ⊢
      omega

theorem beyond_cons_of_le {u : Nat} {s : Nat × List α} (rest : List (Nat × List α))
    (hend : segEnd s ≤ u) : beyond u (s :: rest) = beyond u rest := by
  unfold beyond
  rw [List.filter_cons, if_neg]
  simp only [decide_eq_true_eq]
  omega

theorem beyond_cons_of_lt {u : Nat} {s : Nat × List α} (rest : List (Nat × List α))
    (hend : u < segEnd s) : beyond u (s :: rest) = s :: beyond u rest := by
  unfold beyond
  rw [List.filter_cons, if_pos]
  simp only [decide_eq_true_eq]
  exact hend

theorem beyond_concat_of_lt {u : Nat} {s : Nat × List α} (segs : List (Nat × List α))
    (hend : u < segEnd s) : beyond u (segs ++ [s]) = beyond u segs ++ [s] := by
  have hlast := beyond_cons_of_lt [] hend
  unfold beyond at hlast ⊢
  rw [List.filter_append, hlast, List.filter_nil]

/-- Dropping the segments that end at `u` or before passes one that does. -/
theorem dropWhile_cons_of_le {u : Nat} {s : Nat × List α} (rest : List (Nat × List α))
    (hend : segEnd s ≤ u) :
    (s :: rest).dropWhile (fun s => decide (segEnd s ≤ u)) =
      rest.dropWhile (fun s => decide (segEnd s ≤ u)) := by
  simp only [List.dropWhile_cons, hend, decide_true, if_true]

/-- It stops at the first that ends beyond `u`. -/
theorem dropWhile_cons_of_lt {u : Nat} {s : Nat × List α} (rest : List (Nat × List α))
    (hend : u < segEnd s) :
    (s :: rest).dropWhile (fun s => decide (segEnd s ≤ u)) = s :: rest := by
  have hnot : ¬ segEnd s ≤ u := Nat.not_le.mpr hend
  simp only [List.dropWhile_cons, hnot, decide_false, Bool.false_eq_true, if_false]

/-- Every segment starts before `hi`. -/
theorem Tiles.lt_of_mem {segs : List (Nat × List α)} :
    ∀ {lo hi : Nat}, Tiles lo hi segs → ∀ s ∈ segs, s.1 < hi := by
  induction segs with
  | nil =>
    intro lo hi _ s hs
    cases hs
  | cons x rest ih =>
    intro lo hi h s hs
    obtain ⟨-, hpos, hrest⟩ := h
    rcases List.mem_cons.mp hs with heq | hs
    · have hle := hrest.le
      rw [heq]
      unfold segEnd at hle
      omega
    · exact ih hrest s hs

/-- Nothing before `lo` has been dropped. -/
theorem Tiles.beyond_eq {segs : List (Nat × List α)} {lo hi u : Nat} (h : Tiles lo hi segs)
    (hu : u ≤ lo) : beyond u segs = segs := by
  unfold beyond
  rw [List.filter_eq_self]
  intro s hs
  have hlt := (h.mem s hs).2
  exact decide_eq_true (by omega)

/-- Dropping the front that ends at `u` or before leaves the segments beyond `u`. -/
theorem Tiles.dropWhile_eq {segs : List (Nat × List α)} (u : Nat) :
    ∀ {lo hi : Nat}, Tiles lo hi segs →
      segs.dropWhile (fun s => decide (segEnd s ≤ u)) = beyond u segs := by
  induction segs with
  | nil =>
    intro lo hi _
    rfl
  | cons s rest ih =>
    intro lo hi h
    obtain ⟨hlo, hpos, hrest⟩ := h
    by_cases hend : segEnd s ≤ u
    · rw [dropWhile_cons_of_le rest hend, beyond_cons_of_le rest hend, ih hrest]
    · -- the rest starts where `s` ends, so all of it ends beyond `u` too
      have hlt : u < segEnd s := Nat.not_le.mp hend
      rw [dropWhile_cons_of_lt rest hlt, beyond_cons_of_lt rest hlt,
        hrest.beyond_eq (Nat.le_of_lt hlt)]

/-- What is dropped at `u` is dropped at a later position as well. -/
theorem Tiles.dropWhile_beyond {segs : List (Nat × List α)} {lo hi u v : Nat}
    (h : Tiles lo hi segs) (huv : u ≤ v) :
    (beyond u segs).dropWhile (fun s => decide (segEnd s ≤ v)) = beyond v segs := by
  rw [← h.dropWhile_eq u, ← h.dropWhile_eq v]
  clear h
  induction segs with
  | nil => rfl
  | cons s rest ih =>
    by_cases hend : segEnd s ≤ u
    · rw [dropWhile_cons_of_le rest hend, ih,
        dropWhile_cons_of_le rest (Nat.le_trans hend huv)]
    · rw [dropWhile_cons_of_lt rest (Nat.not_le.mp hend)]

/-- **The segments beyond `u` cover what comes after it.** -/
theorem Tiles.covers {segs : List (Nat × List α)} :
    ∀ {lo hi u : Nat}, Tiles lo hi segs → lo ≤ u → u ≤ hi → Covers u hi (beyond u segs) := by
  induction segs with
  | nil =>
    intro lo hi u h hlo hhi
    have hlast : lo = hi := h
    exact Or.inl ⟨rfl, by omega⟩
  | cons s rest ih =>
    intro lo hi u h hlo hhi
    obtain ⟨hstart, hpos, hrest⟩ := h
    by_cases hend : segEnd s ≤ u
    · rw [beyond_cons_of_le rest hend]
      exact ih hrest hend hhi
    · have hlt : u < segEnd s := Nat.not_le.mp hend
      rw [beyond_cons_of_lt rest hlt, hrest.beyond_eq (Nat.le_of_lt hlt)]
      exact Or.inr ⟨s, rest, rfl, by omega, hlt, rfl, hpos, hrest⟩

end UchiNetworks.Lib
