import Mathlib.Data.List.Basic

/-!
# chirc: `simclist` lists

A `list_t` has one iteration session built in (`iter_active`, `iter_pos`). While
it is active the list refuses to be changed, and `list_iterator_start` does
nothing; the return codes that say so are looked at nowhere in chirc, so an
operation on a list that is being iterated is silently lost.

Mirroring notes vs the C:
- `iter_curentry` is the entry at `iter_pos`: nothing moves while a session is
  active. `iter` is `iter_pos` when `iter_active` is set.
- The comparator and the seeker are the predicates the operations get.
-/

namespace UchiNetworks.Chirc

variable {α : Type}

/-- `list_t` -/
structure SimList (α : Type) where
  items : List α
  iter : Option Nat
  deriving DecidableEq, Repr

/-- Change the first entry that `found` accepts. -/
def updFirst (found : α → Bool) (f : α → α) : List α → List α
  | [] => []
  | x :: xs => if found x then f x :: xs else x :: updFirst found f xs

namespace SimList

/-- `list_init` -/
def init : SimList α := ⟨[], none⟩

/-- `list_append` -/
def append (l : SimList α) (a : α) : SimList α :=
  if l.iter.isSome then l else { l with items := l.items ++ [a] }

/-- `list_delete`, of the first entry that `same` accepts -/
def delete (l : SimList α) (same : α → Bool) : SimList α :=
  if l.iter.isSome then l else { l with items := l.items.eraseP same }

/-- `list_clear`, which is what is left to see of `list_destroy` -/
def clear (l : SimList α) : SimList α := if l.iter.isSome then l else { l with items := [] }

/-- `list_seek` -/
def seek (l : SimList α) (found : α → Bool) : Option α := l.items.find? found

/-- `list_contains` -/
def contains (l : SimList α) (same : α → Bool) : Bool := l.items.any same

/-- `list_iterator_start` -/
def start (l : SimList α) : SimList α := if l.iter.isSome then l else { l with iter := some 0 }

/-- `list_iterator_hasnext` -/
def hasNext (l : SimList α) : Bool := l.iter.any (· < l.items.length)

/-- The entry `list_iterator_next` returns. -/
def current (l : SimList α) : Option α := l.iter.bind fun pos => l.items[pos]?

/-- The list after `list_iterator_next`. -/
def next (l : SimList α) : SimList α := { l with iter := l.iter.map (· + 1) }

/-- `list_iterator_stop` -/
def stop (l : SimList α) : SimList α := { l with iter := none }

/-- Write through the pointer that `list_seek` returns. -/
def update (l : SimList α) (found : α → Bool) (f : α → α) : SimList α :=
  { l with items := updFirst found f l.items }

/-- The entries the session has still to return. -/
def remaining (l : SimList α) : List α := (l.iter.map fun pos => l.items.drop pos).getD []

theorem start_of_idle {l : SimList α} (h : l.iter = none) : l.start = { l with iter := some 0 } := by
  unfold start
  simp [h]

/-- A session that is active goes on where it is. -/
theorem start_eq (l : SimList α) : l.start = { l with iter := some (l.iter.getD 0) } := by
  cases l with
  | mk items iter =>
    cases iter with
    | none => rfl
    | some i => rfl

theorem append_of_idle {l : SimList α} (h : l.iter = none) (a : α) :
    l.append a = { l with items := l.items ++ [a] } := by
  unfold append
  simp [h]

theorem delete_of_idle {l : SimList α} (h : l.iter = none) (same : α → Bool) :
    l.delete same = { l with items := l.items.eraseP same } := by
  unfold delete
  simp [h]

/-- A session that is over before it began: what was idle is as it was. -/
theorem stop_of_idle {l : SimList α} (h : l.iter = none) : l.stop = l := by
  unfold stop
  rw [← h]

/-- Starting a session on an idle list, all entries are still to come. -/
theorem remaining_start {l : SimList α} (h : l.iter = none) : l.start.remaining = l.items := by
  rw [start_of_idle h]
  simp [remaining]

end SimList

end UchiNetworks.Chirc
