import UchiNetworks.Lib.Fault
import Mathlib.Data.List.Nodup
import Mathlib.Data.List.Perm.Subperm
import Mathlib.Data.List.Find
import Mathlib.Data.List.Induction

/-!
# Linked lists in memory

A `Heap` hands out addresses; an address that was freed is never handed out
again, so that touching it shows. A `DList` is a doubly linked list in a heap:
two ends, and nodes that point at their neighbours.

The two ends count as one more node, `none`, whose `next` is the first node and
whose `prev` is the last: it is what the outer links of the list point at. Each
of the two link words is then a ring through `none`, and inserting or removing a
node is one edit of each ring (`Leads.insert`, `Leads.remove`). `Linked` says
that both rings run through the same nodes.
-/

namespace UchiNetworks.Lib

variable {φ α : Type}

/-! ## Rings -/

/-- The links run from `none` through `ps` back to `none`: wherever the list is
cut, the last element before the cut points at the first one after it. -/
def Leads (link : Option Nat → Option (Option Nat)) (ps : List Nat) : Prop :=
  ∀ l r, ps = l ++ r → link l.getLast? = some r.head?

theorem leads_nil {link : Option Nat → Option (Option Nat)} :
    Leads link [] ↔ link none = some none := by
  constructor
  · intro h
    exact h [] [] rfl
  · intro h l r hcut
    obtain ⟨rfl, rfl⟩ := List.append_eq_nil_iff.mp hcut.symm
    exact h

theorem leads_singleton {link : Option Nat → Option (Option Nat)} {p : Nat}
    (hfirst : link none = some (some p)) (hlast : link (some p) = some none) : Leads link [p] := by
  intro l r hcut
  cases l with
  | nil =>
    obtain rfl := hcut
    exact hfirst
  | cons q l =>
    obtain ⟨hq, htail⟩ := List.cons.inj hcut
    obtain ⟨rfl, rfl⟩ := List.append_eq_nil_iff.mp htail.symm
    rw [← hq]
    exact hlast

/-- One cut for each place of the list. -/
theorem leads_iff_take {link : Option Nat → Option (Option Nat)} {ps : List Nat} :
    Leads link ps ↔
      ∀ i < ps.length + 1, link (ps.take i).getLast? = some (ps.drop i).head? := by
  constructor
  · intro h i _
    exact h _ _ (List.take_append_drop i ps).symm
  · intro h l r hcut
    have hl := h l.length (by rw [hcut, List.length_append]; omega)
    rwa [hcut, List.take_left, List.drop_left] at hl

theorem Leads.first {link : Option Nat → Option (Option Nat)} {ps : List Nat} (h : Leads link ps) :
    link none = some ps.head? := h [] ps rfl

theorem Leads.next {link : Option Nat → Option (Option Nat)} {l r : List Nat} {p : Nat}
    (h : Leads link (l ++ p :: r)) : link (some p) = some r.head? := by
  have := h (l ++ [p]) r (by simp)
  rwa [List.getLast?_concat] at this

/-- Two cuts of a list without repetitions behind the same element. -/
theorem cut_unique {a b a' b' : List Nat} (hnodup : (a ++ b).Nodup) (h : a ++ b = a' ++ b')
    (hlast : a.getLast? = a'.getLast?) : a = a' := by
  have hkey : ∀ x m y : List Nat, (x ++ (m ++ y)).Nodup → x.getLast? = (x ++ m).getLast? →
      m = [] := by
    intro x m y hnd heq
    cases hm : m.getLast? with
    | none => exact List.getLast?_eq_none_iff.mp hm
    | some z =>
      rw [List.getLast?_append, hm, Option.some_or] at heq
      have hx : z ∈ x := List.mem_of_getLast? heq
      have hz : z ∈ m ++ y := List.mem_append_left _ (List.mem_of_getLast? hm)
      exact absurd rfl ((List.nodup_append.mp hnd).2.2 z hx z hz)
  rcases List.append_eq_append_iff.mp h with ⟨m, rfl, rfl⟩ | ⟨m, rfl, rfl⟩
  · rw [hkey a m b' hnodup hlast, List.append_nil]
  · rw [List.append_assoc] at hnodup
    rw [hkey a' m b hnodup hlast.symm, List.append_nil]

/-- Where a list can be cut that has `p` in it. -/
theorem cut_cases {l r a b : List Nat} {p : Nat} (h : l ++ p :: r = a ++ b) :
    (∃ m, m ≠ [] ∧ l = a ++ m ∧ b = m ++ p :: r) ∨ (a = l ∧ b = p :: r) ∨
      ∃ m, a = l ++ p :: m ∧ r = m ++ b := by
  rcases List.append_eq_append_iff.mp h with ⟨m, ha, hm⟩ | ⟨m, hl, hb⟩
  · cases m with
    | nil => exact Or.inr (Or.inl ⟨by simpa using ha, by simpa using hm.symm⟩)
    | cons x m =>
      obtain ⟨rfl, rfl⟩ := List.cons.inj hm
      exact Or.inr (Or.inr ⟨m, ha, rfl⟩)
  · by_cases hm : m = []
    · subst hm
      exact Or.inr (Or.inl ⟨by simpa using hl.symm, by simpa using hb⟩)
    · exact Or.inl ⟨m, hm, hl, hb⟩

theorem Leads.congr {link link' : Option Nat → Option (Option Nat)} {ps : List Nat}
    (h : Leads link ps) (hnone : link' none = link none)
    (hsame : ∀ p ∈ ps, link' (some p) = link (some p)) : Leads link' ps := by
  intro l r hcut
  rw [← h l r hcut]
  cases hl : l.getLast? with
  | none => exact hnone
  | some p =>
    apply hsame p
    rw [hcut]
    exact List.mem_append_left _ (List.mem_of_getLast? hl)

/-- A node comes in: the node before it points at it, and it points where that
one pointed. -/
theorem Leads.insert {link link' : Option Nat → Option (Option Nat)} {l r : List Nat} {p : Nat}
    (h : Leads link (l ++ r)) (hnodup : (l ++ p :: r).Nodup)
    (hbefore : link' l.getLast? = some (some p)) (hnew : link' (some p) = some r.head?)
    (hsame : ∀ x, x ≠ l.getLast? → x ≠ some p → link' x = link x) : Leads link' (l ++ p :: r) := by
  intro a b hcut
  have hother : a ≠ l → a ≠ l ++ [p] → link' a.getLast? = link a.getLast? := by
    intro hl hlp
    apply hsame
    · intro heq
      exact hl (cut_unique (hcut ▸ hnodup) hcut.symm heq)
    · intro heq
      exact hlp (@cut_unique a b (l ++ [p]) r (hcut ▸ hnodup) (by simpa using hcut.symm)
        (by rw [heq, List.getLast?_concat]))
  rcases cut_cases hcut with ⟨m, hm, rfl, rfl⟩ | ⟨rfl, rfl⟩ | ⟨m, rfl, rfl⟩
  · -- before the node that comes in
    rw [hother (by simpa using hm) (by intro heq; simpa using congrArg List.length heq),
      h a (m ++ r) (List.append_assoc _ _ _), List.head?_append_of_ne_nil _ hm,
      List.head?_append_of_ne_nil _ hm]
  · exact hbefore
  · by_cases hm : m = []
    · subst hm
      rw [List.getLast?_concat, hnew, List.nil_append]
    · -- behind it
      rw [hother (by simp) (by simpa using hm)]
      have hold := h (l ++ m) b (List.append_assoc _ _ _).symm
      rw [List.getLast?_append_of_ne_nil _ hm] at hold
      rw [List.append_cons, List.getLast?_append_of_ne_nil _ hm, hold]

/-- A node goes: the node before it points where it pointed. -/
theorem Leads.remove {link link' : Option Nat → Option (Option Nat)} {l r : List Nat} {p : Nat}
    (h : Leads link (l ++ p :: r)) (hnodup : (l ++ p :: r).Nodup)
    (hbefore : link' l.getLast? = some r.head?)
    (hsame : ∀ x, x ≠ l.getLast? → x ≠ some p → link' x = link x) : Leads link' (l ++ r) := by
  have hnd : (l ++ r).Nodup := hnodup.sublist (by simp)
  intro a b hcut
  have hother : a ≠ l → link' a.getLast? = link a.getLast? := by
    intro hl
    apply hsame
    · intro heq
      exact hl (cut_unique (hcut ▸ hnd) hcut.symm heq)
    · intro heq
      have hmem : p ∈ l ++ r := hcut ▸ List.mem_append_left _ (List.mem_of_getLast? heq)
      rw [List.nodup_middle, List.nodup_cons] at hnodup
      exact hnodup.1 hmem
  rcases List.append_eq_append_iff.mp hcut with ⟨m, rfl, rfl⟩ | ⟨m, rfl, rfl⟩
  · by_cases hm : m = []
    · subst hm
      simpa using hbefore
    · rw [hother (by simpa using hm), List.getLast?_append_of_ne_nil _ hm,
        ← h (l ++ p :: m) b (by simp), List.append_cons, List.getLast?_append_of_ne_nil _ hm]
  · by_cases hm : m = []
    · subst hm
      simpa using hbefore
    · rw [hother (by simpa using hm), h a (m ++ p :: r) (by simp),
        List.head?_append_of_ne_nil _ hm, List.head?_append_of_ne_nil _ hm]

/-- Links that agree up to a node lead to that node. -/
theorem Leads.mem_of_agree {link link' : Option Nat → Option (Option Nat)} {l r ps : List Nat}
    {p : Nat} (h : Leads link (l ++ p :: r)) (h' : Leads link' ps) (hnone : link' none = link none)
    (hsame : ∀ q ∈ l, link' (some q) = link (some q)) : p ∈ ps := by
  have hpre : ∀ a x b, l ++ p :: r = a ++ x :: b → (∀ q ∈ a, link' (some q) = link (some q)) →
      ∃ rest, ps = a ++ x :: rest := by
    intro a
    -- the second list has begun like the first
    induction a using List.reverseRecOn with
    | nil =>
      intro x b hcut _
      have hhead : ps.head? = some x := by
        have hfirst := h'.first
        rw [hnone, h.first, hcut] at hfirst
        exact (Option.some.inj hfirst).symm
      exact List.head?_eq_some_iff.mp hhead
    | append_singleton a y ih =>
      intro x b hcut hsame
      obtain ⟨rest, rfl⟩ := ih y (x :: b) (by simpa using hcut)
        fun q hq => hsame q (List.mem_append_left _ hq)
      have hhead : rest.head? = some x := by
        have hold := h (a ++ [y]) (x :: b) hcut
        rw [List.getLast?_concat, ← hsame y (by simp), h'.next] at hold
        exact Option.some.inj hold
      obtain ⟨rest', rfl⟩ := List.head?_eq_some_iff.mp hhead
      exact ⟨rest', by simp⟩
  obtain ⟨rest, rfl⟩ := hpre l p r rfl hsame
  simp

/-! ## Heaps -/

/-- Memory for values of one type; `none` is what was freed. -/
structure Heap (α : Type) where
  cells : List (Option α)
  deriving DecidableEq

namespace Heap

/-- The next address that is handed out. -/
def fresh (h : Heap α) : Nat := h.cells.length

def read (h : Heap α) (p : Nat) : Option α := h.cells[p]?.join

/-- Put a value at the next address. -/
def alloc (h : Heap α) (v : α) : Heap α := { cells := h.cells ++ [some v] }

def modify (h : Heap α) (p : Nat) (f : α → α) : Option (Heap α) :=
  (h.read p).map fun v => { cells := h.cells.set p (some (f v)) }

def free (h : Heap α) (p : Nat) : Option (Heap α) :=
  (h.read p).map fun _ => { cells := h.cells.set p none }

theorem lt_of_read {h : Heap α} {p : Nat} {v : α} (hp : h.read p = some v) : p < h.fresh := by
  by_cases hlt : p < h.cells.length
  · exact hlt
  · rw [read, List.getElem?_eq_none (Nat.not_lt.mp hlt)] at hp
    cases hp

theorem read_alloc (h : Heap α) (v : α) (q : Nat) :
    (h.alloc v).read q = if q = h.fresh then some v else h.read q := by
  by_cases hq : q = h.fresh
  · subst hq
    rw [if_pos rfl, read, alloc, fresh, List.getElem?_concat_length]
    rfl
  · rw [if_neg hq]
    by_cases hlt : q < h.cells.length
    · rw [read, alloc, List.getElem?_append_left hlt, read]
    · have hgt : h.cells.length < q := Nat.lt_of_le_of_ne (Nat.not_lt.mp hlt) (Ne.symm hq)
      have hlen : (h.cells ++ [some v]).length ≤ q := by
        rw [List.length_append, List.length_singleton]
        exact hgt
      rw [read, read, alloc, List.getElem?_eq_none hlen, List.getElem?_eq_none (Nat.not_lt.mp hlt)]

theorem read_set (h : Heap α) {p : Nat} (hp : p < h.fresh) (x : Option α) (q : Nat) :
    (Heap.mk (h.cells.set p x)).read q = if q = p then x else h.read q := by
  by_cases hq : q = p
  · subst hq
    rw [if_pos rfl, read, List.getElem?_set_self hp]
    rfl
  · rw [if_neg hq, read, List.getElem?_set_ne (Ne.symm hq), read]

theorem modify_spec {h : Heap α} {p : Nat} {v : α} (hp : h.read p = some v) (f : α → α) :
    ∃ h', h.modify p f = some h' ∧ h'.fresh = h.fresh ∧
      ∀ q, h'.read q = if q = p then some (f v) else h.read q := by
  refine ⟨_, by rw [modify, hp, Option.map_some], ?_, ?_⟩
  · exact List.length_set
  · exact h.read_set (lt_of_read hp) _

/-- What a write leaves alone reads the same everywhere. -/
theorem view_of_modify {β : Type} {h h' : Heap α} {p : Nat} {v v' : α} (hp : h.read p = some v)
    (hread : ∀ q, h'.read q = if q = p then some v' else h.read q) (view : α → β)
    (hview : view v' = view v) (q : Nat) : (h'.read q).map view = (h.read q).map view := by
  by_cases hq : q = p
  · rw [hread, if_pos hq, hq, hp, Option.map_some, Option.map_some, hview]
  · rw [hread, if_neg hq]

theorem free_spec {h : Heap α} {p : Nat} {v : α} (hp : h.read p = some v) :
    ∃ h', h.free p = some h' ∧ h'.fresh = h.fresh ∧
      ∀ q, h'.read q = if q = p then none else h.read q := by
  refine ⟨_, by rw [free, hp, Option.map_some], ?_, ?_⟩
  · exact List.length_set
  · exact h.read_set (lt_of_read hp) _

theorem modify_fresh {h h' : Heap α} {p : Nat} {f : α → α} (hmod : h.modify p f = some h') :
    h'.fresh = h.fresh := by
  obtain ⟨v, -, rfl⟩ := Option.map_eq_some_iff.mp hmod
  exact List.length_set

theorem free_fresh {h h' : Heap α} {p : Nat} (hfree : h.free p = some h') :
    h'.fresh = h.fresh := by
  obtain ⟨v, -, rfl⟩ := Option.map_eq_some_iff.mp hfree
  exact List.length_set

/-- Different addresses in use are no more than were handed out. -/
theorem length_le_fresh {h : Heap α} {ps : List Nat} (hnodup : ps.Nodup)
    (hlive : ∀ p ∈ ps, (h.read p).isSome) : ps.length ≤ h.fresh := by
  have hsub : ps ⊆ List.range h.fresh := by
    intro p hp
    obtain ⟨v, hv⟩ := Option.isSome_iff_exists.mp (hlive p hp)
    exact List.mem_range.mpr (lt_of_read hv)
  have := (List.Nodup.subperm hnodup hsub).length_le
  rwa [List.length_range] at this

end Heap

/-! ## Doubly linked lists -/

structure DNode (α : Type) where
  val : α
  prev : Option Nat
  next : Option Nat
  deriving DecidableEq

structure DList (α : Type) where
  heap : Heap (DNode α)
  first : Option Nat
  last : Option Nat
  deriving DecidableEq

namespace DList

variable {d : DList α}

def next (d : DList α) : Option Nat → Option (Option Nat)
  | none => some d.first
  | some p => (d.heap.read p).map DNode.next

def prev (d : DList α) : Option Nat → Option (Option Nat)
  | none => some d.last
  | some p => (d.heap.read p).map DNode.prev

def value (d : DList α) (p : Nat) : Option α := (d.heap.read p).map DNode.val

/-- Write the `next` word of a node, or the first end. -/
def setNext (d : DList α) (x y : Option Nat) : Option (DList α) :=
  match x with
  | none => some { d with first := y }
  | some p => (d.heap.modify p fun n => { n with next := y }).map fun h => { d with heap := h }

/-- Write the `prev` word of a node, or the last end. -/
def setPrev (d : DList α) (x y : Option Nat) : Option (DList α) :=
  match x with
  | none => some { d with last := y }
  | some p => (d.heap.modify p fun n => { n with prev := y }).map fun h => { d with heap := h }

def setValue (d : DList α) (p : Nat) (v : α) : Option (DList α) :=
  (d.heap.modify p fun n => { n with val := v }).map fun h => { d with heap := h }

/-- A node that is not linked yet, at the address `d.heap.fresh`. -/
def alloc (d : DList α) (v : α) : DList α :=
  { d with heap := d.heap.alloc { val := v, prev := none, next := none } }

def free (d : DList α) (p : Nat) : Option (DList α) :=
  (d.heap.free p).map fun h => { d with heap := h }

/-- Make the last node point at `p`, or the first end of an empty list. -/
def attach (d : DList α) (p : Nat) : Option (DList α) :=
  match d.first, d.last with
  | none, _ => d.setNext none (some p)
  | some _, some z => d.setNext (some z) (some p)
  | some _, none => none

/-- Link a node behind the last one. -/
def linkLast (d : DList α) (p : Nat) : Option (DList α) := do
  let d ← d.setNext (some p) none
  let d ← d.setPrev (some p) d.last
  let d ← d.attach p
  d.setPrev none (some p)

/-- Make the neighbours of a node, or the ends, point past it. -/
def unlink (d : DList α) (p : Nat) : Option (DList α) := do
  let node ← d.heap.read p
  let d ← d.setNext node.prev node.next
  d.setPrev node.next node.prev

/-- The nodes `ps`, and no others, are linked both ways from end to end. -/
structure Linked (d : DList α) (ps : List Nat) : Prop where
  nodup : ps.Nodup
  forward : Leads d.next ps
  backward : Leads d.prev ps.reverse

/-! ### What one write does -/

/-- The nodes in memory are the same, but for their links. -/
structure Relinked (d d' : DList α) : Prop where
  value : ∀ p, d'.value p = d.value p
  fresh : d'.heap.fresh = d.heap.fresh

theorem Relinked.trans {d d' d'' : DList α} (h : Relinked d d') (h' : Relinked d' d'') :
    Relinked d d'' :=
  ⟨fun p => (h'.value p).trans (h.value p), h'.fresh.trans h.fresh⟩

theorem exists_node {p : Nat} {v : α} (h : d.value p = some v) :
    ∃ node, d.heap.read p = some node ∧ node.val = v := Option.map_eq_some_iff.mp h

theorem setNext_spec {x : Option Nat} (hx : (d.next x).isSome) (y : Option Nat) :
    ∃ d', d.setNext x y = some d' ∧ Relinked d d' ∧ (∀ z, d'.prev z = d.prev z) ∧
      ∀ z, d'.next z = if z = x then some y else d.next z := by
  cases x with
  | none =>
    refine ⟨{ d with first := y }, rfl, ⟨fun _ => rfl, rfl⟩, ?_, ?_⟩
    · intro z
      cases z with
      | none => rfl
      | some q => rfl
    · intro z
      cases z with
      | none => rfl
      | some q => rfl
  | some p =>
    obtain ⟨node, hnode⟩ := Option.isSome_iff_exists.mp (by simpa [next] using hx)
    obtain ⟨h', hmod, hfresh, hread⟩ := Heap.modify_spec hnode fun n => { n with next := y }
    refine ⟨{ d with heap := h' }, by simp [setNext, hmod], ⟨?_, hfresh⟩, ?_, ?_⟩
    · exact Heap.view_of_modify hnode hread DNode.val rfl
    · intro z
      cases z with
      | none => rfl
      | some q => exact Heap.view_of_modify hnode hread DNode.prev rfl q
    · intro z
      cases z with
      | none => rfl
      | some q =>
        by_cases hq : q = p
        · simp [next, hread, hq]
        · simp [next, hread, hq]

theorem setPrev_spec {x : Option Nat} (hx : (d.prev x).isSome) (y : Option Nat) :
    ∃ d', d.setPrev x y = some d' ∧ Relinked d d' ∧ (∀ z, d'.next z = d.next z) ∧
      ∀ z, d'.prev z = if z = x then some y else d.prev z := by
  cases x with
  | none =>
    refine ⟨{ d with last := y }, rfl, ⟨fun _ => rfl, rfl⟩, ?_, ?_⟩
    · intro z
      cases z with
      | none => rfl
      | some q => rfl
    · intro z
      cases z with
      | none => rfl
      | some q => rfl
  | some p =>
    obtain ⟨node, hnode⟩ := Option.isSome_iff_exists.mp (by simpa [prev] using hx)
    obtain ⟨h', hmod, hfresh, hread⟩ := Heap.modify_spec hnode fun n => { n with prev := y }
    refine ⟨{ d with heap := h' }, by simp [setPrev, hmod], ⟨?_, hfresh⟩, ?_, ?_⟩
    · exact Heap.view_of_modify hnode hread DNode.val rfl
    · intro z
      cases z with
      | none => rfl
      | some q => exact Heap.view_of_modify hnode hread DNode.next rfl q
    · intro z
      cases z with
      | none => rfl
      | some q =>
        by_cases hq : q = p
        · simp [prev, hread, hq]
        · simp [prev, hread, hq]

theorem setValue_spec {p : Nat} {v : α} (hp : d.value p = some v) (v' : α) :
    ∃ d', d.setValue p v' = some d' ∧ d'.heap.fresh = d.heap.fresh ∧
      (∀ z, d'.next z = d.next z) ∧ (∀ z, d'.prev z = d.prev z) ∧
      ∀ q, d'.value q = if q = p then some v' else d.value q := by
  obtain ⟨node, hnode, -⟩ := exists_node hp
  obtain ⟨h', hmod, hfresh, hread⟩ := Heap.modify_spec hnode fun n => { n with val := v' }
  refine ⟨{ d with heap := h' }, by simp [setValue, hmod], hfresh, ?_, ?_, ?_⟩
  · intro z
    cases z with
    | none => rfl
    | some q => exact Heap.view_of_modify hnode hread DNode.next rfl q
  · intro z
    cases z with
    | none => rfl
    | some q => exact Heap.view_of_modify hnode hread DNode.prev rfl q
  · intro q
    by_cases hq : q = p
    · simp [value, hread, hq]
    · simp [value, hread, hq]

theorem free_spec {p : Nat} {v : α} (hp : d.value p = some v) :
    ∃ d', d.free p = some d' ∧ d'.heap.fresh = d.heap.fresh ∧
      (∀ z, z ≠ some p → d'.next z = d.next z) ∧ (∀ z, z ≠ some p → d'.prev z = d.prev z) ∧
      ∀ q, d'.value q = if q = p then none else d.value q := by
  obtain ⟨node, hnode, -⟩ := exists_node hp
  obtain ⟨h', hfree, hfresh, hread⟩ := Heap.free_spec hnode
  refine ⟨{ d with heap := h' }, by simp [free, hfree], hfresh, ?_, ?_, ?_⟩
  · intro z hz
    cases z with
    | none => rfl
    | some q =>
      have hq : q ≠ p := fun heq => hz (congrArg some heq)
      simp [next, hread, hq]
  · intro z hz
    cases z with
    | none => rfl
    | some q =>
      have hq : q ≠ p := fun heq => hz (congrArg some heq)
      simp [prev, hread, hq]
  · intro q
    by_cases hq : q = p
    · simp [value, hread, hq]
    · simp [value, hread, hq]

theorem value_alloc (d : DList α) (v : α) (q : Nat) :
    (d.alloc v).value q = if q = d.heap.fresh then some v else d.value q := by
  by_cases hq : q = d.heap.fresh
  · simp [value, alloc, Heap.read_alloc, hq]
  · simp [value, alloc, Heap.read_alloc, hq]

/-! ### How many addresses were handed out -/

theorem alloc_fresh (d : DList α) (v : α) : (d.alloc v).heap.fresh = d.heap.fresh + 1 :=
  List.length_append

theorem setNext_fresh {d' : DList α} {x y : Option Nat} (h : d.setNext x y = some d') :
    d'.heap.fresh = d.heap.fresh := by
  cases x with
  | none =>
    obtain rfl := Option.some.inj h
    rfl
  | some p =>
    obtain ⟨k, hk, rfl⟩ := Option.map_eq_some_iff.mp h
    exact Heap.modify_fresh hk

theorem setPrev_fresh {d' : DList α} {x y : Option Nat} (h : d.setPrev x y = some d') :
    d'.heap.fresh = d.heap.fresh := by
  cases x with
  | none =>
    obtain rfl := Option.some.inj h
    rfl
  | some p =>
    obtain ⟨k, hk, rfl⟩ := Option.map_eq_some_iff.mp h
    exact Heap.modify_fresh hk

theorem setValue_fresh {d' : DList α} {p : Nat} {v : α} (h : d.setValue p v = some d') :
    d'.heap.fresh = d.heap.fresh := by
  obtain ⟨k, hk, rfl⟩ := Option.map_eq_some_iff.mp h
  exact Heap.modify_fresh hk

theorem free_fresh {d' : DList α} {p : Nat} (h : d.free p = some d') :
    d'.heap.fresh = d.heap.fresh := by
  obtain ⟨k, hk, rfl⟩ := Option.map_eq_some_iff.mp h
  exact Heap.free_fresh hk

theorem unlink_fresh {d' : DList α} {p : Nat} (h : d.unlink p = some d') :
    d'.heap.fresh = d.heap.fresh := by
  simp only [unlink, Option.bind_eq_bind, Option.bind_eq_some_iff] at h
  obtain ⟨node, -, d₁, h₁, h₂⟩ := h
  exact (setPrev_fresh h₂).trans (setNext_fresh h₁)

/-! ### Linked nodes -/

theorem value_of_next {p : Nat} {y : Option Nat} (h : d.next (some p) = some y) :
    ∃ v, d.value p = some v := by
  obtain ⟨node, hnode, -⟩ := Option.map_eq_some_iff.mp h
  exact ⟨node.val, by rw [value, hnode, Option.map_some]⟩

theorem Linked.live {ps : List Nat} (h : Linked d ps) {p : Nat} (hp : p ∈ ps) :
    ∃ v, d.value p = some v := by
  obtain ⟨l, r, rfl⟩ := List.append_of_mem hp
  exact value_of_next h.forward.next

theorem Linked.prev_eq {l r : List Nat} {p : Nat} (h : Linked d (l ++ p :: r)) :
    d.prev (some p) = some l.getLast? := by
  have hback := h.backward
  rw [List.reverse_append, List.reverse_cons, List.append_assoc, List.singleton_append] at hback
  rw [hback.next, List.head?_reverse]

/-- What a node of the list looks like. -/
theorem Linked.node {l r : List Nat} {p : Nat} (h : Linked d (l ++ p :: r)) :
    ∃ node, d.heap.read p = some node ∧ d.value p = some node.val ∧ node.prev = l.getLast? ∧
      node.next = r.head? := by
  obtain ⟨node, hnode, hnext⟩ := Option.map_eq_some_iff.mp h.forward.next
  have hprev := h.prev_eq
  rw [prev, hnode] at hprev
  exact ⟨node, hnode, by rw [value, hnode, Option.map_some], Option.some.inj hprev, hnext⟩

theorem Linked.first_eq {ps : List Nat} (h : Linked d ps) : d.first = ps.head? :=
  Option.some.inj h.forward.first

theorem Linked.last_eq {ps : List Nat} (h : Linked d ps) : d.last = ps.getLast? := by
  have hlast : d.last = ps.reverse.head? := Option.some.inj h.backward.first
  rw [hlast, List.head?_reverse]

theorem Linked.length_le {ps : List Nat} (h : Linked d ps) : ps.length ≤ d.heap.fresh := by
  apply Heap.length_le_fresh h.nodup
  intro p hp
  obtain ⟨v, hv⟩ := h.live hp
  obtain ⟨node, hnode, -⟩ := exists_node hv
  rw [hnode, Option.isSome_some]

/-- The links decide which nodes are in the list. -/
theorem Linked.mem_iff {ps qs : List Nat} (h : Linked d ps) (h' : Linked d qs) (p : Nat) :
    p ∈ ps ↔ p ∈ qs := by
  have hgen : ∀ {as bs : List Nat}, Linked d as → Linked d bs → p ∈ as → p ∈ bs := by
    intro as bs has hbs hp
    obtain ⟨l, r, rfl⟩ := List.append_of_mem hp
    exact has.forward.mem_of_agree hbs.forward rfl fun _ _ => rfl
  exact ⟨hgen h h', hgen h' h⟩

/-- Only the links count. -/
theorem Linked.congr {d' : DList α} {ps : List Nat} (h : Linked d ps)
    (hnext : ∀ z, (∀ p, z = some p → p ∈ ps) → d'.next z = d.next z)
    (hprev : ∀ z, (∀ p, z = some p → p ∈ ps) → d'.prev z = d.prev z) : Linked d' ps := by
  have hnone : ∀ p, none = some p → p ∈ ps := by
    intro p hp
    cases hp
  have hsome : ∀ q ∈ ps, ∀ p, some q = some p → p ∈ ps := by
    intro q hq p hp
    exact Option.some.inj hp ▸ hq
  refine ⟨h.nodup, ?_, ?_⟩
  · exact h.forward.congr (hnext none hnone) fun q hq => hnext _ (hsome q hq)
  · exact h.backward.congr (hprev none hnone) fun q hq =>
      hprev _ (hsome q (List.mem_reverse.mp hq))

theorem Linked.alloc {ps : List Nat} (h : Linked d ps) (v : α) : Linked (d.alloc v) ps := by
  have hold : ∀ z, (∀ p, z = some p → p ∈ ps) → ∀ p, z = some p → p ≠ d.heap.fresh := by
    intro z hz p hp heq
    obtain ⟨u, hu⟩ := h.live (hz p hp)
    obtain ⟨node, hnode, -⟩ := exists_node hu
    exact absurd (Heap.lt_of_read hnode) (heq ▸ Nat.lt_irrefl _)
  apply h.congr
  · intro z hz
    cases z with
    | none => rfl
    | some p => simp [next, DList.alloc, Heap.read_alloc, hold _ hz p rfl]
  · intro z hz
    cases z with
    | none => rfl
    | some p => simp [prev, DList.alloc, Heap.read_alloc, hold _ hz p rfl]

theorem Linked.free {d' : DList α} {ps : List Nat} (h : Linked d ps) {p : Nat} (hp : p ∉ ps)
    (hnext : ∀ z, z ≠ some p → d'.next z = d.next z)
    (hprev : ∀ z, z ≠ some p → d'.prev z = d.prev z) : Linked d' ps := by
  apply h.congr
  · intro z hz
    exact hnext z fun heq => hp (hz p heq)
  · intro z hz
    exact hprev z fun heq => hp (hz p heq)

/-- A node goes out of the list; it stays in memory and keeps its own links. -/
theorem Linked.unlink {l r : List Nat} {p : Nat} (h : Linked d (l ++ p :: r)) :
    ∃ d', d.unlink p = some d' ∧ Relinked d d' ∧ Linked d' (l ++ r) ∧
      d'.next (some p) = some r.head? ∧ d'.prev (some p) = some l.getLast? := by
  obtain ⟨node, hnode, -, hprev, hnext⟩ := h.node
  have hnd := h.nodup
  rw [List.nodup_middle, List.nodup_cons, List.mem_append, not_or] at hnd
  have hbefore : (d.next node.prev).isSome := by
    rw [hprev, h.forward l (p :: r) rfl]
    rfl
  -- first the link into `p` from before, then the one from behind
  obtain ⟨d₁, h₁, hre₁, hprev₁, hnext₁⟩ := setNext_spec hbefore node.next
  have hafter : (d₁.prev node.next).isSome := by
    -- backwards it is the same list read from its end
    have hback := h.backward r.reverse (l ++ [p]).reverse (by simp)
    rw [List.getLast?_reverse] at hback
    rw [hprev₁, hnext, hback]
    rfl
  obtain ⟨d₂, h₂, hre₂, hnext₂, hprev₂⟩ := setPrev_spec hafter node.prev
  have hpl : some p ≠ l.getLast? := fun heq => hnd.1.1 (List.mem_of_getLast? heq.symm)
  have hpr : some p ≠ r.head? := fun heq => hnd.1.2 (List.mem_of_head? heq.symm)
  refine ⟨d₂, ?_, hre₁.trans hre₂, ⟨hnd.2, ?_, ?_⟩, ?_, ?_⟩
  · simp [DList.unlink, hnode, h₁, h₂]
  · apply h.forward.remove h.nodup
    · rw [hnext₂, hnext₁, if_pos hprev.symm, hnext]
    · intro x hx _
      rw [hnext₂, hnext₁, if_neg (by rw [hprev]; exact hx)]
  · have hback := h.backward
    rw [List.reverse_append, List.reverse_cons, List.append_assoc, List.singleton_append] at hback
    rw [List.reverse_append]
    apply hback.remove
    · have hrev := List.nodup_reverse.mpr h.nodup
      rwa [List.reverse_append, List.reverse_cons, List.append_assoc,
        List.singleton_append] at hrev
    · rw [hprev₂, List.getLast?_reverse, if_pos hnext.symm, hprev, List.head?_reverse]
    · intro x hx _
      rw [List.getLast?_reverse] at hx
      rw [hprev₂, if_neg (by rw [hnext]; exact hx), hprev₁]
  · rw [hnext₂, hnext₁, if_neg (by rw [hprev]; exact hpl), h.forward.next]
  · rw [hprev₂, if_neg (by rw [hnext]; exact hpr), hprev₁, h.prev_eq]

/-- A node in memory comes in at the end. -/
theorem Linked.linkLast {ps : List Nat} (h : Linked d ps) {p : Nat} {v : α}
    (hp : d.value p = some v) (hnew : p ∉ ps) :
    ∃ d', d.linkLast p = some d' ∧ Relinked d d' ∧ Linked d' (ps ++ [p]) := by
  obtain ⟨node, hnode, -⟩ := exists_node hp
  obtain ⟨d₁, h₁, hre₁, hprev₁, hnext₁⟩ :=
    @setNext_spec _ d (some p) (by simp [next, hnode]) none
  obtain ⟨d₂, h₂, hre₂, hnext₂, hprev₂⟩ :=
    @setPrev_spec _ d₁ (some p) (by rw [hprev₁]; simp [prev, hnode]) d₁.last
  have hlast : d₁.last = ps.getLast? := by
    rw [← h.last_eq]
    exact Option.some.inj (hprev₁ none)
  have hlast₂ : d₂.last = ps.getLast? := by
    rw [← hlast]
    exact Option.some.inj (hprev₂ none)
  have hfirst₂ : d₂.first = ps.head? := by
    rw [← h.first_eq]
    exact Option.some.inj ((hnext₂ none).trans (hnext₁ none))
  have hne : some p ≠ ps.getLast? := fun heq => hnew (List.mem_of_getLast? heq.symm)
  -- the last node, or the first end of an empty list
  have hend : (d₂.next ps.getLast?).isSome := by
    rw [hnext₂, hnext₁, if_neg (Ne.symm hne), h.forward ps [] (by simp)]
    rfl
  obtain ⟨d₃, h₃, hre₃, hprev₃, hnext₃⟩ := setNext_spec hend (some p)
  obtain ⟨d₄, h₄, hre₄, hnext₄, hprev₄⟩ := @setPrev_spec _ d₃ none rfl (some p)
  have hattach : d₂.attach p = some d₃ := by
    rw [attach, hfirst₂, hlast₂]
    cases ps using List.reverseRecOn with
    | nil => exact h₃
    | append_singleton ps z =>
      cases hhead : (ps ++ [z]).head? with
      | none => simp at hhead
      | some q =>
        rw [List.getLast?_concat] at h₃ ⊢
        exact h₃
  refine ⟨d₄, ?_, ((hre₁.trans hre₂).trans hre₃).trans hre₄, ?_, ?_, ?_⟩
  · simp only [DList.linkLast, h₁, h₂, Option.bind_eq_bind, Option.bind_some, hattach, h₄]
  · rw [List.nodup_append_comm]
    exact List.nodup_cons.mpr ⟨hnew, h.nodup⟩
  · have hfw : Leads d.next (ps ++ []) := by rw [List.append_nil]; exact h.forward
    apply hfw.insert
    · rw [List.nodup_append_comm]
      exact List.nodup_cons.mpr ⟨hnew, h.nodup⟩
    · rw [hnext₄, hnext₃, if_pos rfl]
    · rw [hnext₄, hnext₃, if_neg hne, hnext₂, hnext₁, if_pos rfl, List.head?_nil]
    · intro x hx hxp
      rw [hnext₄, hnext₃, if_neg hx, hnext₂, hnext₁, if_neg hxp]
  · have hbw : Leads d.prev ([] ++ ps.reverse) := h.backward
    rw [List.reverse_append, List.reverse_singleton]
    apply hbw.insert
    · exact List.nodup_cons.mpr ⟨by simpa using hnew, List.nodup_reverse.mpr h.nodup⟩
    · rw [hprev₄, List.getLast?_nil, if_pos rfl]
    · rw [hprev₄, if_neg (by simp), hprev₃, hprev₂, if_pos rfl, hlast, List.head?_reverse]
    · intro x hx hxp
      rw [List.getLast?_nil] at hx
      rw [hprev₄, if_neg hx, hprev₃, hprev₂, if_neg hxp, hprev₁]

/-! ### Searching -/

/-- Follow the `next` links from a node on to the first one that meets the test. -/
def find (dangling endless : φ) (d : DList α) (test : α → Bool) :
    Nat → Option Nat → Except φ (Option Nat)
  | 0, _ => .error endless
  | _ + 1, none => .ok none
  | fuel + 1, some p => do
    let node ← getOr dangling (d.heap.read p)
    if test node.val then .ok (some p) else d.find dangling endless test fuel node.next

theorem Linked.find {l r : List Nat} (h : Linked d (l ++ r)) (dangling endless : φ)
    (test : α → Bool) {fuel : Nat} (hfuel : r.length < fuel) :
    d.find dangling endless test fuel r.head? =
      .ok (r.find? fun p => (d.value p).any test) := by
  induction r generalizing l fuel with
  | nil =>
    obtain ⟨fuel, rfl⟩ := Nat.exists_eq_add_of_lt hfuel
    rfl
  | cons p r ih =>
    obtain ⟨fuel, rfl⟩ : ∃ n, fuel = n + 1 := ⟨fuel - 1, by simp at hfuel; omega⟩
    obtain ⟨node, hnode, hvalue, -, hnext⟩ := h.node
    have hrest := @ih (l ++ [p]) (by simpa using h) fuel (by simpa using hfuel)
    rw [List.head?_cons, DList.find, hnode, getOr_some, ok_bind, hnext]
    by_cases ht : test node.val = true
    · rw [if_pos ht, List.find?_cons_of_pos (by rw [hvalue]; exact ht)]
    · rw [if_neg ht, List.find?_cons_of_neg (by rw [hvalue]; exact ht), hrest]

/-! ### Contents -/

/-- The nodes of the list, from first to last, with what they hold. -/
structure Holds (d : DList α) (cells : List (Nat × α)) : Prop where
  linked : d.Linked (cells.map Prod.fst)
  values : ∀ c ∈ cells, d.value c.1 = some c.2

theorem fst_ne {cells : List (Nat × α)} {p : Nat} (hout : p ∉ cells.map Prod.fst) {c : Nat × α}
    (hc : c ∈ cells) : c.1 ≠ p := by
  intro heq
  exact hout (List.mem_map.mpr ⟨c, hc, heq⟩)

/-- In a list without repetitions every address is in one place. -/
theorem fst_ne_of_nodup {l r : List (Nat × α)} {p : Nat} {v : α}
    (h : ((l ++ (p, v) :: r).map Prod.fst).Nodup) {c : Nat × α} (hc : c ∈ l ++ r) : c.1 ≠ p := by
  rw [List.map_append, List.map_cons, List.nodup_middle, List.nodup_cons, ← List.map_append] at h
  exact fst_ne h.1 hc

/-- A list of one node. -/
theorem holds_singleton {p : Nat} {v : α} (hfirst : d.first = some p) (hlast : d.last = some p)
    (hnode : d.heap.read p = some { val := v, prev := none, next := none }) :
    d.Holds [(p, v)] := by
  refine ⟨⟨List.nodup_singleton _, ?_, ?_⟩, ?_⟩
  · exact leads_singleton (congrArg some hfirst) (by rw [next, hnode]; rfl)
  · exact leads_singleton (congrArg some hlast) (by rw [prev, hnode]; rfl)
  · intro c hc
    obtain rfl := List.mem_singleton.mp hc
    rw [DList.value, hnode]
    rfl

theorem Holds.split {l r : List (Nat × α)} {p : Nat} {v : α} (h : d.Holds (l ++ (p, v) :: r)) :
    d.Linked (l.map Prod.fst ++ p :: r.map Prod.fst) := by
  have := h.linked
  rwa [List.map_append, List.map_cons] at this

theorem Holds.value {l r : List (Nat × α)} {p : Nat} {v : α} (h : d.Holds (l ++ (p, v) :: r)) :
    d.value p = some v := h.values (p, v) (by simp)

/-- What the node at an inner place of the list looks like. -/
theorem Holds.node {l r : List (Nat × α)} {p : Nat} {v : α} (h : d.Holds (l ++ (p, v) :: r)) :
    ∃ node, d.heap.read p = some node ∧ node.val = v ∧ node.prev = (l.map Prod.fst).getLast? ∧
      node.next = (r.map Prod.fst).head? := by
  obtain ⟨node, hnode, hvalue, hprev, hnext⟩ := h.split.node
  exact ⟨node, hnode, Option.some.inj (hvalue.symm.trans h.value), hprev, hnext⟩

theorem Holds.lt_fresh {cells : List (Nat × α)} (h : d.Holds cells) {c : Nat × α}
    (hc : c ∈ cells) : c.1 < d.heap.fresh := by
  obtain ⟨node, hnode, -⟩ := exists_node (h.values c hc)
  exact Heap.lt_of_read hnode

theorem Holds.fresh_not_mem {cells : List (Nat × α)} (h : d.Holds cells) :
    d.heap.fresh ∉ cells.map Prod.fst := by
  intro hmem
  obtain ⟨c, hc, heq⟩ := List.mem_map.mp hmem
  exact absurd (h.lt_fresh hc) (heq ▸ Nat.lt_irrefl _)

theorem Holds.alloc {cells : List (Nat × α)} (h : d.Holds cells) (v : α) :
    (d.alloc v).Holds cells := by
  refine ⟨h.linked.alloc v, ?_⟩
  intro c hc
  rw [value_alloc, if_neg (Nat.ne_of_lt (h.lt_fresh hc))]
  exact h.values c hc

theorem Holds.linkLast {cells : List (Nat × α)} (h : d.Holds cells) {p : Nat} {v : α}
    (hp : d.value p = some v) (hnew : p ∉ cells.map Prod.fst) :
    ∃ d', d.linkLast p = some d' ∧ Relinked d d' ∧ d'.Holds (cells ++ [(p, v)]) := by
  obtain ⟨d', hlink, hre, hlinked⟩ := h.linked.linkLast hp hnew
  refine ⟨d', hlink, hre, ?_, ?_⟩
  · rw [List.map_append]
    exact hlinked
  · intro c hc
    rw [hre.value]
    rcases List.mem_append.mp hc with hc | hc
    · exact h.values c hc
    · obtain rfl := List.mem_singleton.mp hc
      exact hp

theorem Holds.append {cells : List (Nat × α)} (h : d.Holds cells) (v : α) :
    ∃ d', (d.alloc v).linkLast d.heap.fresh = some d' ∧
      d'.Holds (cells ++ [(d.heap.fresh, v)]) := by
  obtain ⟨d', hlink, -, hholds⟩ := (h.alloc v).linkLast
    (by rw [value_alloc, if_pos rfl]) h.fresh_not_mem
  exact ⟨d', hlink, hholds⟩

/-- A node goes out of the list; it can still be read, and be freed. -/
theorem Holds.unlink {l r : List (Nat × α)} {p : Nat} {v : α} (h : d.Holds (l ++ (p, v) :: r)) :
    ∃ d', d.unlink p = some d' ∧ Relinked d d' ∧ d'.Holds (l ++ r) ∧
      d'.next (some p) = some (r.map Prod.fst).head? := by
  obtain ⟨d', hunlink, hre, hlinked, hnext, -⟩ := h.split.unlink
  refine ⟨d', hunlink, hre, ⟨?_, ?_⟩, hnext⟩
  · rw [List.map_append]
    exact hlinked
  · intro c hc
    rw [hre.value]
    apply h.values c
    rcases List.mem_append.mp hc with hc | hc
    · exact List.mem_append_left _ hc
    · exact List.mem_append_right _ (List.mem_cons_of_mem _ hc)

theorem Holds.free {cells : List (Nat × α)} (h : d.Holds cells) {p : Nat} {v : α}
    (hp : d.value p = some v) (hout : p ∉ cells.map Prod.fst) :
    ∃ d', d.free p = some d' ∧ d'.heap.fresh = d.heap.fresh ∧ d'.Holds cells := by
  obtain ⟨d', hfree, hfresh, hnext, hprev, hvalue⟩ := free_spec hp
  refine ⟨d', hfree, hfresh, h.linked.free hout hnext hprev, ?_⟩
  intro c hc
  rw [hvalue, if_neg (fst_ne hout hc)]
  exact h.values c hc

theorem Holds.setValue {l r : List (Nat × α)} {p : Nat} {v : α} (h : d.Holds (l ++ (p, v) :: r))
    (v' : α) :
    ∃ d', d.setValue p v' = some d' ∧ d'.heap.fresh = d.heap.fresh ∧
      d'.Holds (l ++ (p, v') :: r) := by
  obtain ⟨d', hset, hfresh, hnext, hprev, hvalue⟩ := setValue_spec h.value v'
  refine ⟨d', hset, hfresh, ⟨?_, ?_⟩⟩
  · rw [List.map_append, List.map_cons]
    exact h.split.congr (fun z _ => hnext z) fun z _ => hprev z
  · intro c hc
    rw [hvalue]
    rcases List.mem_append.mp hc with hc | hc
    · rw [if_neg (fst_ne_of_nodup h.linked.nodup (List.mem_append_left _ hc))]
      exact h.values c (List.mem_append_left _ hc)
    · rcases List.mem_cons.mp hc with rfl | hc
      · rw [if_pos rfl]
      · rw [if_neg (fst_ne_of_nodup h.linked.nodup (List.mem_append_right _ hc))]
        exact h.values c (List.mem_append_right _ (List.mem_cons_of_mem _ hc))

/-- A node outside the list is written. -/
theorem Holds.setValue_outside {cells : List (Nat × α)} (h : d.Holds cells) {p : Nat} {v : α}
    (hp : d.value p = some v) (hout : p ∉ cells.map Prod.fst) (v' : α) :
    ∃ d', d.setValue p v' = some d' ∧ d'.heap.fresh = d.heap.fresh ∧ d'.value p = some v' ∧
      d'.Holds cells := by
  obtain ⟨d', hset, hfresh, hnext, hprev, hvalue⟩ := setValue_spec hp v'
  refine ⟨d', hset, hfresh, by rw [hvalue, if_pos rfl], ?_, ?_⟩
  · exact h.linked.congr (fun z _ => hnext z) fun z _ => hprev z
  · intro c hc
    rw [hvalue, if_neg (fst_ne hout hc)]
    exact h.values c hc

/-- Searching the whole list. -/
theorem Holds.find {cells : List (Nat × α)} (h : d.Holds cells) (dangling endless : φ)
    (test : α → Bool) :
    d.find dangling endless test (d.heap.fresh + 1) d.first =
      .ok ((cells.find? fun c => test c.2).map Prod.fst) := by
  have hfind := @Linked.find φ α d [] (cells.map Prod.fst) h.linked dangling endless test
    (d.heap.fresh + 1) (Nat.lt_succ_of_le h.linked.length_le)
  rw [h.linked.first_eq, hfind, List.find?_map]
  congr 2
  apply List.find?_congr
  intro c hc
  show (d.value c.1).any test = test c.2
  rw [h.values c hc, Option.any_some]

/-- Searching by key, where no two nodes have the same one. -/
theorem Holds.find_key {κ : Type} [DecidableEq κ] {cells : List (Nat × α)} (h : d.Holds cells)
    {key : α → κ} (hnd : (cells.map fun c => key c.2).Nodup) (dangling endless : φ) (k : κ)
    (p : Nat) :
    d.find dangling endless (fun v => key v == k) (d.heap.fresh + 1) d.first = .ok (some p) ↔
      ∃ v, (p, v) ∈ cells ∧ key v = k := by
  rw [h.find]
  constructor
  · intro hfind
    obtain ⟨c, hc, rfl⟩ := Option.map_eq_some_iff.mp (Except.ok.inj hfind)
    have hkey := List.find?_some hc
    exact ⟨c.2, List.mem_of_find?_eq_some hc, beq_iff_eq.mp hkey⟩
  · intro hcell
    obtain ⟨v, hv, hkey⟩ := hcell
    cases hfind : cells.find? fun c => key c.2 == k with
    | none =>
      have hnone := List.find?_eq_none.mp hfind (p, v) hv
      exact absurd (beq_iff_eq.mpr hkey) hnone
    | some c =>
      have hc := List.find?_some hfind
      have hsame : key c.2 = key v := (beq_iff_eq.mp hc).trans hkey.symm
      rw [List.inj_on_of_nodup_map hnd (List.mem_of_find?_eq_some hfind) hv hsame]
      rfl

end DList

end UchiNetworks.Lib
