import UchiNetworks.Lib.Sentinels
import UchiNetworks.Lib.Single

/-!
# simclist: lists in memory

`simclist.c` as both chirc and STCP use it: a doubly linked list between two
sentinels, with a pointer to its middle entry, so that no place is more than a
quarter of the list away from a pointer, and up to five spare entries that the
next insertions use up.

Mirroring notes vs the C:
- A function takes the list and returns it, with what it returns in C. The
  entries of a list live in a heap of their own.
- `copy_data` is 0, as it is in every list of chirc and of STCP. The comparator
  and the seeker are the predicates that a function gets.
- `malloc` succeeds. `numels` is a number without a bound.
- `(float)(posstart+1) / l->numels` is rounded twice and divided in between; an
  empty list gives infinity or no number, which is below no threshold.
- The newest spare entry is the first of `spareels`.
- A loop makes one round more than addresses were handed out.
- `list_delete_range`, `list_concat`, `list_sort`, `list_get_min`, `list_hash` and
  the dumps are left out: neither program calls them.
-/

namespace UchiNetworks.Simclist

open UchiNetworks.Lib

/-- What can go wrong: NULL is followed, memory is used that was freed, a loop does
not end. -/
inductive Fault where
  | null
  | freed
  | endless
  deriving DecidableEq

abbrev Res := Except Fault

-- `SIMCLIST_MAX_SPARE_ELEMS`
def maxSpareElems : Nat := 5

variable {α : Type}

/-- `list_t`; the `val` of an entry is its `data` -/
structure ListT (α : Type) where
  heap : Heap (DNode (Option α))
  headSentinel : Nat
  tailSentinel : Nat
  mid : Option Nat
  numels : Nat
  spareels : List Nat
  iterActive : Bool
  iterPos : Nat
  iterCurentry : Option Nat
  deriving DecidableEq

namespace ListT

/-- Follow a pointer to an entry. -/
def entryAt (l : ListT α) (p : Option Nat) : Res (DNode (Option α)) := do
  let p ← getOr .null p
  getOr .freed (l.heap.read p)

/-- `list_init` -/
def listInit : ListT α :=
  { heap := { cells := [some { val := none, prev := none, next := some 1 },
                        some { val := none, prev := some 0, next := none }] }
    headSentinel := 0, tailSentinel := 1, mid := none, numels := 0, spareels := []
    iterActive := false, iterPos := 0, iterCurentry := none }

/-- An `unsigned int` passed as an `int`. -/
def asInt (pos : UInt32) : Int :=
  if pos.toNat < 2 ^ 31 then pos.toNat else (pos.toNat : Int) - 2 ^ 32

/-- The four places from which `list_findpos` walks. -/
inductive Quarter where
  | first
  | second
  | third
  | fourth
  deriving DecidableEq

def quarter (numels : Nat) (posstart : Int) : Quarter :=
  let x := Single.round (Single.round (posstart + 1).toNat / Single.round numels)
  if numels = 0 then .fourth
  else if x ≤ 1 / 4 then .first
  else if x < 1 / 2 then .second
  else if x ≤ 3 / 4 then .third
  else .fourth

/-- `list_findpos` -/
def listFindpos (l : ListT α) (posstart : Int) : Res (Option Nat) :=
  -- 1 slot of overflow, for the sentinels
  if posstart < -1 ∨ posstart > l.numels then .ok none
  else
    let half : Int := ((l.numels - 1) / 2 : Nat)
    match quarter l.numels posstart with
    | .first =>
      Sentinels.walk .freed .null l.heap DNode.next (posstart + 1).toNat l.headSentinel
    | .second => Sentinels.walk .freed .null l.heap DNode.prev (half - posstart).toNat l.mid
    | .third => Sentinels.walk .freed .null l.heap DNode.next (posstart - half).toNat l.mid
    | .fourth =>
      Sentinels.walk .freed .null l.heap DNode.prev (l.numels - posstart).toNat l.tailSentinel

/-- `list_get_at` -/
def listGetAt (l : ListT α) (pos : UInt32) : Res (Option α) := do
  let tmp ← l.listFindpos (asInt pos)
  match tmp with
  | none => .ok none
  | some p =>
    let node ← getOr .freed (l.heap.read p)
    .ok node.val

/-- An entry for a new element: the newest spare one, or one from `malloc`. -/
def newEntry (l : ListT α) : ListT α × Nat :=
  match l.spareels with
  | lent :: rest => ({ l with spareels := rest }, lent)
  | [] =>
    ({ l with heap := l.heap.alloc { val := none, prev := none, next := none } }, l.heap.fresh)

/-- `fix mid pointer` of `list_insert_at`, once `numels` has been counted up -/
def midAfterInsert (l : ListT α) (lent pos : Nat) : Res (Option Nat) :=
  if l.numels = 1 then .ok (some lent)
  else if l.numels % 2 = 1 then
    if pos ≥ (l.numels - 1) / 2 then do
      let node ← l.entryAt l.mid
      .ok node.next
    else .ok l.mid
  else if pos ≤ (l.numels - 1) / 2 then do
    let node ← l.entryAt l.mid
    .ok node.prev
  else .ok l.mid

/-- `list_insert_at` -/
def listInsertAt (l : ListT α) (data : α) (pos : UInt32) : Res (ListT α × Int) :=
  if l.iterActive = true ∨ pos.toNat > l.numels then .ok (l, -1)
  else do
    let (l, lent) := l.newEntry
    let heap ← getOr .freed (l.heap.modify lent fun node => { node with val := some data })
    let l := { l with heap := heap }
    let prec ← l.listFindpos (asInt (pos - 1))
    let prec ← getOr .null prec
    let node ← getOr .freed (l.heap.read prec)
    let succ ← getOr .null node.next
    let heap ← getOr .freed (Sentinels.linkBetween l.heap prec lent succ)
    let l := { l with heap := heap, numels := l.numels + 1 }
    let mid ← l.midAfterInsert lent pos.toNat
    .ok ({ l with mid := mid }, 1)

/-- `list_append` -/
def listAppend (l : ListT α) (data : α) : Res (ListT α × Int) :=
  l.listInsertAt data (UInt32.ofNat l.numels)

/-- `list_prepend` -/
def listPrepend (l : ListT α) (data : α) : Res (ListT α × Int) := l.listInsertAt data 0

/-- `fix mid pointer` of `list_drop_elem`, before anything else is done -/
def midBeforeDrop (l : ListT α) (pos : Nat) : Res (Option Nat) :=
  if l.numels % 2 = 1 then
    if l.numels = 1 then .ok none
    else if pos ≥ l.numels / 2 then do
      let node ← l.entryAt l.mid
      .ok node.prev
    else .ok l.mid
  else if pos < l.numels / 2 then do
    let node ← l.entryAt l.mid
    .ok node.next
  else .ok l.mid

/-- Keep an entry that is no longer used as a spare one, or free it. -/
def spareEntry (l : ListT α) (p : Nat) : Res (ListT α) :=
  if l.spareels.length < maxSpareElems then .ok { l with spareels := p :: l.spareels }
  else do
    let heap ← getOr .freed (l.heap.free p)
    .ok { l with heap := heap }

/-- `list_drop_elem` -/
def listDropElem (l : ListT α) (tmp : Option Nat) (pos : Nat) : Res (ListT α) :=
  match tmp with
  | none => .ok l
  | some tmp => do
    let mid ← l.midBeforeDrop pos
    let heap ← getOr .freed (Sentinels.bypass l.heap tmp)
    { l with mid := mid, heap := heap }.spareEntry tmp

/-- `list_delete_at` -/
def listDeleteAt (l : ListT α) (pos : UInt32) : Res (ListT α × Int) :=
  if l.iterActive = true ∨ pos.toNat ≥ l.numels then .ok (l, -1)
  else do
    let delendo ← l.listFindpos (asInt pos)
    let l ← l.listDropElem delendo pos.toNat
    .ok ({ l with numels := l.numels - 1 }, 0)

/-- `list_extract_at` -/
def listExtractAt (l : ListT α) (pos : UInt32) : Res (ListT α × Option α) :=
  if l.iterActive = true ∨ pos.toNat ≥ l.numels then .ok (l, none)
  else do
    let tmp ← l.listFindpos (asInt pos)
    let p ← getOr .null tmp
    let node ← getOr .freed (l.heap.read p)
    let heap ← getOr .freed (l.heap.modify p fun node => { node with val := none })
    let l ← { l with heap := heap }.listDropElem tmp pos.toNat
    .ok ({ l with numels := l.numels - 1 }, node.val)

/-- `list_fetch` -/
def listFetch (l : ListT α) : Res (ListT α × Option α) := l.listExtractAt 0

/-- The loop of `list_locate` and `list_seek`: the first entry that meets the test,
and where it is. -/
def scanFrom (l : ListT α) (test : α → Bool) : Nat → Option Nat → Nat → Res (Option (Nat × α))
  | 0, _, _ => .error .endless
  | fuel + 1, el, pos =>
    if el = some l.tailSentinel then .ok none
    else do
      let node ← l.entryAt el
      let data ← getOr .null node.val
      if test data then .ok (some (pos, data)) else l.scanFrom test fuel node.next (pos + 1)

def scan (l : ListT α) (test : α → Bool) : Res (Option (Nat × α)) := do
  let head ← getOr .freed (l.heap.read l.headSentinel)
  l.scanFrom test (l.heap.fresh + 1) head.next 0

/-- `list_locate` -/
def listLocate (l : ListT α) (same : α → Bool) : Res Int := do
  let found ← l.scan same
  .ok (match found with
    | none => -1
    | some (pos, _) => pos)

/-- `list_seek` -/
def listSeek (l : ListT α) (found : α → Bool) : Res (Option α) := do
  let found ← l.scan found
  .ok (found.map Prod.snd)

/-- `list_contains` -/
def listContains (l : ListT α) (same : α → Bool) : Res Bool := do
  let pos ← l.listLocate same
  .ok (decide (pos ≥ 0))

/-- `list_delete` -/
def listDelete (l : ListT α) (same : α → Bool) : Res (ListT α × Int) := do
  let pos ← l.listLocate same
  if pos < 0 then .ok (l, -1)
  else
    let (l, r) ← l.listDeleteAt (UInt32.ofNat pos.toNat)
    .ok (l, if r < 0 then -1 else 0)

/-- The first loop of `list_clear`: entries become spare ones as long as there is
room. It stops at the entry that is the next one. -/
def spareLoop : Nat → ListT α → Option Nat → Res (ListT α × Option Nat)
  | 0, _, _ => .error .endless
  | fuel + 1, l, s =>
    if l.spareels.length < maxSpareElems ∧ s ≠ some l.tailSentinel then do
      let p ← getOr .null s
      let node ← getOr .freed (l.heap.read p)
      spareLoop fuel { l with spareels := p :: l.spareels } node.next
    else .ok (l, s)

/-- The second one: the others are freed. -/
def freeLoop : Nat → ListT α → Option Nat → Res (ListT α)
  | 0, _, _ => .error .endless
  | fuel + 1, l, s =>
    if s = some l.tailSentinel then .ok l
    else do
      let node ← l.entryAt s
      let next ← l.entryAt node.next
      let prev ← getOr .null next.prev
      let heap ← getOr .freed (l.heap.free prev)
      freeLoop fuel { l with heap := heap } node.next

/-- `list_clear` -/
def listClear (l : ListT α) : Res (ListT α × Int) :=
  if l.iterActive = true then .ok (l, -1)
  else do
    let head ← getOr .freed (l.heap.read l.headSentinel)
    let (l', s) ← spareLoop (l.heap.fresh + 1) l head.next
    let l' ← freeLoop (l.heap.fresh + 1) l' s
    let heap ← getOr .freed
      (l'.heap.modify l.headSentinel fun node => { node with next := some l.tailSentinel })
    let heap ← getOr .freed
      (heap.modify l.tailSentinel fun node => { node with prev := some l.headSentinel })
    .ok ({ l' with heap := heap, numels := 0, mid := none }, l.numels)

/-- `list_size` -/
def listSize (l : ListT α) : Nat := l.numels

/-- `list_empty` -/
def listEmpty (l : ListT α) : Bool := l.numels == 0

/-- `list_iterator_start` -/
def listIteratorStart (l : ListT α) : Res (ListT α × Int) :=
  if l.iterActive = true then .ok (l, 0)
  else do
    let head ← getOr .freed (l.heap.read l.headSentinel)
    .ok ({ l with iterPos := 0, iterActive := true, iterCurentry := head.next }, 1)

/-- `list_iterator_next` -/
def listIteratorNext (l : ListT α) : Res (ListT α × Option α) :=
  if l.iterActive = false then .ok (l, none)
  else do
    let curentry ← l.entryAt l.iterCurentry
    .ok ({ l with iterCurentry := curentry.next, iterPos := l.iterPos + 1 }, curentry.val)

/-- `list_iterator_hasnext` -/
def listIteratorHasnext (l : ListT α) : Bool := l.iterActive && decide (l.iterPos < l.numels)

/-- `list_iterator_stop` -/
def listIteratorStop (l : ListT α) : ListT α × Int :=
  if l.iterActive = false then (l, 0) else ({ l with iterPos := 0, iterActive := false }, 1)

/-- `list_destroy`: what is left in memory. -/
def listDestroy (l : ListT α) : Res (Heap (DNode (Option α))) := do
  let (l, _) ← l.listClear
  let heap ← l.spareels.foldlM (fun heap p => getOr .freed (Heap.free heap p)) l.heap
  let heap ← getOr .freed (heap.free l.headSentinel)
  getOr .freed (heap.free l.tailSentinel)

end ListT

end UchiNetworks.Simclist
