import UchiNetworks.Lib.LinkedList

/-!
# A node that is freed while it is linked

What is done to the list afterwards, as long as it succeeds, would have been done
with the node still there, and freeing it at the end gives the same memory
(`DList.unlink_of_free` and the others). So a list that has lost a node can be
followed on the list that has not, up to the node.
-/

namespace UchiNetworks.Lib

variable {α : Type}

namespace Heap

theorem read_of_free {h h' : Heap α} {v : Nat} (hfree : h.free v = some h') (q : Nat) :
    h'.read q = if q = v then none else h.read q := by
  obtain ⟨x, hx, -⟩ := Option.map_eq_some_iff.mp hfree
  obtain ⟨k, hk, -, hread⟩ := free_spec hx
  obtain rfl := Option.some.inj (hk.symm.trans hfree)
  exact hread q

/-- What can be read without the address can be read with it, and written. -/
theorem set_of_free {h h' : Heap α} {v p : Nat} {y : α} (hfree : h.free v = some h')
    (hy : h'.read p = some y) (x : Option α) :
    h.read p = some y ∧
      (Heap.mk (h.cells.set p x)).free v = some { cells := h'.cells.set p x } := by
  rw [read_of_free hfree] at hy
  have hpv : p ≠ v := by
    intro heq
    rw [if_pos heq] at hy
    cases hy
  rw [if_neg hpv] at hy
  obtain ⟨z, hz, rfl⟩ := Option.map_eq_some_iff.mp hfree
  refine ⟨hy, ?_⟩
  rw [free, read_set h (lt_of_read hy), if_neg (Ne.symm hpv), hz, Option.map_some,
    List.set_comm _ _ hpv]

theorem modify_of_free {h h' k' : Heap α} {v p : Nat} {f : α → α} (hfree : h.free v = some h')
    (hmod : h'.modify p f = some k') : ∃ k, h.modify p f = some k ∧ k.free v = some k' := by
  obtain ⟨y, hy, rfl⟩ := Option.map_eq_some_iff.mp hmod
  obtain ⟨hread, hset⟩ := set_of_free hfree hy (some (f y))
  exact ⟨_, by rw [modify, hread, Option.map_some], hset⟩

theorem free_of_free {h h' k' : Heap α} {v p : Nat} (hfree : h.free v = some h')
    (hfree' : h'.free p = some k') : ∃ k, h.free p = some k ∧ k.free v = some k' := by
  obtain ⟨y, hy, rfl⟩ := Option.map_eq_some_iff.mp hfree'
  obtain ⟨hread, hset⟩ := set_of_free hfree hy none
  exact ⟨_, by rw [free, hread, Option.map_some], hset⟩

end Heap

namespace DList

variable {d d' e' : DList α} {v : Nat}

theorem free_eq {h : Heap (DNode α)} (hfree : d.heap.free v = some h) :
    d.free v = some { d with heap := h } := by
  rw [DList.free, hfree, Option.map_some]

/-- A node that can still be read is another one. -/
theorem read_of_free (hfree : d.free v = some d') {p : Nat} {node : DNode α}
    (hread : d'.heap.read p = some node) : p ≠ v ∧ d.heap.read p = some node := by
  obtain ⟨h, hh, rfl⟩ := Option.map_eq_some_iff.mp hfree
  rw [Heap.read_of_free hh] at hread
  split at hread
  next => cases hread
  next hpv => exact ⟨hpv, hread⟩

theorem setNext_of_free (hfree : d.free v = some d') {x y : Option Nat}
    (hset : d'.setNext x y = some e') : ∃ e, d.setNext x y = some e ∧ e.free v = some e' := by
  obtain ⟨h, hh, rfl⟩ := Option.map_eq_some_iff.mp hfree
  cases x with
  | none =>
    obtain rfl := Option.some.inj hset
    exact ⟨_, rfl, free_eq hh⟩
  | some p =>
    obtain ⟨k', hk', rfl⟩ := Option.map_eq_some_iff.mp hset
    obtain ⟨k, hk, hkfree⟩ := Heap.modify_of_free hh hk'
    exact ⟨{ d with heap := k }, by rw [setNext, hk, Option.map_some], free_eq hkfree⟩

theorem setPrev_of_free (hfree : d.free v = some d') {x y : Option Nat}
    (hset : d'.setPrev x y = some e') : ∃ e, d.setPrev x y = some e ∧ e.free v = some e' := by
  obtain ⟨h, hh, rfl⟩ := Option.map_eq_some_iff.mp hfree
  cases x with
  | none =>
    obtain rfl := Option.some.inj hset
    exact ⟨_, rfl, free_eq hh⟩
  | some p =>
    obtain ⟨k', hk', rfl⟩ := Option.map_eq_some_iff.mp hset
    obtain ⟨k, hk, hkfree⟩ := Heap.modify_of_free hh hk'
    exact ⟨{ d with heap := k }, by rw [setPrev, hk, Option.map_some], free_eq hkfree⟩

theorem setValue_of_free (hfree : d.free v = some d') {p : Nat} {x : α}
    (hset : d'.setValue p x = some e') : ∃ e, d.setValue p x = some e ∧ e.free v = some e' := by
  obtain ⟨h, hh, rfl⟩ := Option.map_eq_some_iff.mp hfree
  obtain ⟨k', hk', rfl⟩ := Option.map_eq_some_iff.mp hset
  obtain ⟨k, hk, hkfree⟩ := Heap.modify_of_free hh hk'
  exact ⟨{ d with heap := k }, by rw [setValue, hk, Option.map_some], free_eq hkfree⟩

theorem free_of_free (hfree : d.free v = some d') {p : Nat} (hfree' : d'.free p = some e') :
    ∃ e, d.free p = some e ∧ e.free v = some e' := by
  obtain ⟨h, hh, rfl⟩ := Option.map_eq_some_iff.mp hfree
  obtain ⟨k', hk', rfl⟩ := Option.map_eq_some_iff.mp hfree'
  obtain ⟨k, hk, hkfree⟩ := Heap.free_of_free hh hk'
  exact ⟨{ d with heap := k }, free_eq hk, free_eq hkfree⟩

theorem unlink_of_free (hfree : d.free v = some d') {p : Nat} (hunlink : d'.unlink p = some e') :
    ∃ e, d.unlink p = some e ∧ e.free v = some e' := by
  obtain ⟨h, hh, rfl⟩ := Option.map_eq_some_iff.mp hfree
  simp only [DList.unlink, Option.bind_eq_bind, Option.bind_eq_some_iff] at hunlink
  obtain ⟨node, hnode, d₁', h₁, h₂⟩ := hunlink
  rw [Heap.read_of_free hh] at hnode
  split at hnode
  · cases hnode
  · obtain ⟨d₁, h₁, hfree₁⟩ := setNext_of_free hfree h₁
    obtain ⟨d₂, h₂, hfree₂⟩ := setPrev_of_free hfree₁ h₂
    exact ⟨d₂, by simp only [DList.unlink, hnode, Option.bind_eq_bind, Option.bind_some, h₁, h₂],
      hfree₂⟩

end DList

end UchiNetworks.Lib
