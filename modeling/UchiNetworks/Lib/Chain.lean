import Mathlib.Data.List.Basic

/-!
# Taking in a message block by block

A compression function takes in one block of `size` elements at a time. `chain` does
so for a message that is all there; `absorb` takes the elements as they come and keeps
an unfinished block. Both come to the same (`absorb_blocks`), however the message is cut
(`absorb_append`).
-/

namespace UchiNetworks.Lib

/-- A function that takes in blocks of `size` elements. -/
structure Compression (σ α : Type) where
  size : Nat
  pos : 0 < size
  compress : σ → List α → σ

namespace Compression

variable {σ α : Type} (H : Compression σ α) {s : σ} {p xs : List α} {k : Nat}

/-- `k` blocks, one after another. -/
def chain : Nat → σ → List α → σ
  | 0, s, _ => s
  | k + 1, s, xs => chain k (H.compress s (xs.take H.size)) (xs.drop H.size)

/-- One more element for the unfinished block. -/
def feed (st : σ × List α) (x : α) : σ × List α :=
  if st.2.length + 1 = H.size then (H.compress st.1 (st.2 ++ [x]), []) else (st.1, st.2 ++ [x])

/-- One element after another. -/
def absorb (st : σ × List α) (xs : List α) : σ × List α := xs.foldl H.feed st

@[simp] theorem absorb_nil (st : σ × List α) : H.absorb st [] = st := rfl

theorem absorb_cons (st : σ × List α) (x : α) (xs : List α) :
    H.absorb st (x :: xs) = H.absorb (H.feed st x) xs := rfl

theorem absorb_append (st : σ × List α) (xs ys : List α) :
    H.absorb st (xs ++ ys) = H.absorb (H.absorb st xs) ys := List.foldl_append

/-- As long as the block is not full, the elements are kept. -/
theorem absorb_small (h : p.length + xs.length < H.size) : H.absorb (s, p) xs = (s, p ++ xs) := by
  induction xs generalizing p with
  | nil => rw [List.append_nil, absorb_nil]
  | cons x xs ih =>
    rw [List.length_cons] at h
    have hnot : ¬ p.length + 1 = H.size := by omega
    have hrest : (p ++ [x]).length + xs.length < H.size := by
      rw [List.length_append, List.length_singleton]
      omega
    rw [absorb_cons, feed, if_neg hnot, ih hrest, List.append_assoc]
    rfl

/-- When it is full it is taken in. -/
theorem absorb_full (hp : p.length < H.size) (h : p.length + xs.length = H.size) :
    H.absorb (s, p) xs = (H.compress s (p ++ xs), []) := by
  obtain rfl | ⟨ys, x, rfl⟩ := List.eq_nil_or_concat xs
  · rw [List.length_nil] at h
    omega
  · rw [List.concat_eq_append] at h ⊢
    rw [List.length_append, List.length_singleton] at h
    have hsmall : p.length + ys.length < H.size := by omega
    have hlast : (p ++ ys).length + 1 = H.size := by
      rw [List.length_append]
      omega
    rw [absorb_append, H.absorb_small hsmall, absorb_cons, absorb_nil, feed, if_pos hlast,
      List.append_assoc]

/-- What is kept is what is left over of whole blocks. -/
theorem absorb_length {q : σ × List α} (h : q.2.length < H.size) :
    (H.absorb q xs).2.length = (q.2.length + xs.length) % H.size := by
  induction xs generalizing q with
  | nil => rw [absorb_nil, List.length_nil, Nat.add_zero, Nat.mod_eq_of_lt h]
  | cons x xs ih =>
    rw [absorb_cons, List.length_cons]
    unfold feed
    split
    case isTrue hfull =>
      rw [ih (q := (_, [])) H.pos, List.length_nil, Nat.zero_add, Nat.add_comm xs.length 1,
        ← Nat.add_assoc, hfull, Nat.add_mod_left]
    case isFalse hnot =>
      have hlen : (q.2 ++ [x]).length = q.2.length + 1 := by
        rw [List.length_append, List.length_singleton]
      rw [ih (q := (_, q.2 ++ [x])) (by rw [hlen]; omega), hlen, Nat.add_assoc, Nat.add_comm 1]

/-- **Whole blocks**: what comes element by element is chained as it is chained in one
piece. -/
theorem absorb_blocks (hp : p.length < H.size) (h : p.length + xs.length = k * H.size) :
    H.absorb (s, p) xs = (H.chain k s (p ++ xs), []) := by
  induction k generalizing s p xs with
  | zero =>
    rw [Nat.zero_mul] at h
    obtain rfl := List.eq_nil_of_length_eq_zero (by omega : p.length = 0)
    obtain rfl := List.eq_nil_of_length_eq_zero (by omega : xs.length = 0)
    rfl
  | succ k ih =>
    rw [Nat.succ_mul] at h
    -- the elements that fill the block, and the rest
    have hcut : xs.take (H.size - p.length) ++ xs.drop (H.size - p.length) = xs :=
      List.take_append_drop _ _
    have hfill : p.length + (xs.take (H.size - p.length)).length = H.size := by
      rw [List.length_take]
      omega
    have hrest : ([] : List α).length + (xs.drop (H.size - p.length)).length = k * H.size := by
      rw [List.length_drop, List.length_nil]
      omega
    have htake : (p ++ xs).take H.size = p ++ xs.take (H.size - p.length) := by
      rw [List.take_append, List.take_of_length_le (Nat.le_of_lt hp)]
    have hdrop : (p ++ xs).drop H.size = xs.drop (H.size - p.length) := by
      rw [List.drop_append, List.drop_of_length_le (Nat.le_of_lt hp), List.nil_append]
    have hone : H.absorb (s, p) (xs.take (H.size - p.length))
        = (H.compress s ((p ++ xs).take H.size), []) := by
      rw [htake]
      exact H.absorb_full hp hfill
    calc H.absorb (s, p) xs
        = H.absorb (H.absorb (s, p) (xs.take (H.size - p.length)))
            (xs.drop (H.size - p.length)) := by rw [← absorb_append, hcut]
      _ = (H.chain (k + 1) s (p ++ xs), []) := by
        rw [hone, ih (p := []) H.pos hrest, List.nil_append, ← hdrop]
        rfl

/-- After any message, a tail that completes the blocks: it is chained after what has
been kept. -/
theorem chain_append {msg tail : List α} {n : Nat} (hlen : msg.length + tail.length = n * H.size)
    (htail : (H.absorb (s, []) msg).2.length + tail.length = k * H.size) :
    H.chain n s (msg ++ tail) = H.chain k (H.absorb (s, []) msg).1 ((H.absorb (s, []) msg).2 ++ tail) := by
  have hwhole : H.absorb (s, []) (msg ++ tail) = (H.chain n s (msg ++ tail), []) :=
    H.absorb_blocks H.pos (by rw [List.length_append, List.length_nil, Nat.zero_add]; exact hlen)
  have hkept : (H.absorb (s, []) msg).2.length < H.size := by
    rw [H.absorb_length (q := (s, [])) H.pos]
    exact Nat.mod_lt _ H.pos
  have hparts := H.absorb_blocks (s := (H.absorb (s, []) msg).1) hkept htail
  rw [absorb_append] at hwhole
  exact congrArg Prod.fst (hwhole.symm.trans hparts)

end Compression

end UchiNetworks.Lib
