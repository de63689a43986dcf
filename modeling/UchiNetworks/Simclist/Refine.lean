import UchiNetworks.Lib.Run
import UchiNetworks.Simclist.Represents

/-!
# simclist is a list

What the functions of simclist do to a list without pointers (`onList`), and the proof
that any sequence of calls gives the same replies on the linked entries (`list_refines`)
and that nothing but the entries of a list that is being iterated outlives
`list_destroy` (`destroy_frees`).
-/

namespace UchiNetworks.Simclist

open UchiNetworks.Lib
open UchiNetworks.Lib.Sentinels
open UchiNetworks.Chirc (SimList)

variable {α : Type}

/-! ## The calls -/

/-- A call of a function of simclist. -/
inductive Op (α : Type) where
  | insertAt (data : α) (pos : UInt32)
  | append (data : α)
  | prepend (data : α)
  | deleteAt (pos : UInt32)
  | delete (same : α → Bool)
  | extractAt (pos : UInt32)
  | fetch
  | clear
  | getAt (pos : UInt32)
  | locate (same : α → Bool)
  | contains (same : α → Bool)
  | seek (found : α → Bool)
  | size
  | empty
  | start
  | next
  | hasnext
  | stop

/-- What it returns. -/
inductive Reply (α : Type) where
  | code (r : Int)
  | datum (data : Option α)
  deriving DecidableEq

namespace ListT

def perform (l : ListT α) : Op α → Res (ListT α × Reply α)
  | .insertAt data pos => (l.listInsertAt data pos).map fun x => (x.1, .code x.2)
  | .append data => (l.listAppend data).map fun x => (x.1, .code x.2)
  | .prepend data => (l.listPrepend data).map fun x => (x.1, .code x.2)
  | .deleteAt pos => (l.listDeleteAt pos).map fun x => (x.1, .code x.2)
  | .delete same => (l.listDelete same).map fun x => (x.1, .code x.2)
  | .extractAt pos => (l.listExtractAt pos).map fun x => (x.1, .datum x.2)
  | .fetch => l.listFetch.map fun x => (x.1, .datum x.2)
  | .clear => l.listClear.map fun x => (x.1, .code x.2)
  | .getAt pos => (l.listGetAt pos).map fun x => (l, .datum x)
  | .locate same => (l.listLocate same).map fun x => (l, .code x)
  | .contains same => (l.listContains same).map fun x => (l, .code x.toNat)
  | .seek found => (l.listSeek found).map fun x => (l, .datum x)
  | .size => .ok (l, .code l.listSize)
  | .empty => .ok (l, .code l.listEmpty.toNat)
  | .start => l.listIteratorStart.map fun x => (x.1, .code x.2)
  | .next => l.listIteratorNext.map fun x => (x.1, .datum x.2)
  | .hasnext => .ok (l, .code l.listIteratorHasnext.toNat)
  | .stop => .ok (l.listIteratorStop.1, .code l.listIteratorStop.2)

end ListT

/-- The same call on a list without pointers. -/
def onList (s : SimList α) : Op α → SimList α × Reply α
  | .insertAt data pos =>
    if s.iter.isSome ∨ s.items.length < pos.toNat then (s, .code (-1))
    else ({ s with items := s.items.insertIdx pos.toNat data }, .code 1)
  | .append data => (s.append data, .code (if s.iter.isSome then -1 else 1))
  | .prepend data =>
    if s.iter.isSome then (s, .code (-1)) else ({ s with items := data :: s.items }, .code 1)
  | .deleteAt pos =>
    if s.iter.isSome ∨ s.items.length ≤ pos.toNat then (s, .code (-1))
    else ({ s with items := s.items.eraseIdx pos.toNat }, .code 0)
  | .delete same =>
    (s.delete same, .code (if s.iter.isSome ∨ s.contains same = false then -1 else 0))
  | .extractAt pos =>
    if s.iter.isSome then (s, .datum none)
    else ({ s with items := s.items.eraseIdx pos.toNat }, .datum s.items[pos.toNat]?)
  | .fetch =>
    if s.iter.isSome then (s, .datum none)
    else ({ s with items := s.items.tail }, .datum s.items.head?)
  | .clear => (s.clear, .code (if s.iter.isSome then -1 else s.items.length))
  | .getAt pos => (s, .datum s.items[pos.toNat]?)
  | .locate same => (s, .code (((s.items.findIdx? same).map Int.ofNat).getD (-1)))
  | .contains same => (s, .code (s.contains same).toNat)
  | .seek found => (s, .datum (s.seek found))
  | .size => (s, .code s.items.length)
  | .empty => (s, .code s.items.isEmpty.toNat)
  | .start => (s.start, .code (if s.iter.isSome then 0 else 1))
  | .next => (s.next, .datum s.current)
  | .hasnext => (s, .code s.hasNext.toNat)
  | .stop => (s.stop, .code (if s.iter.isSome then 1 else 0))

/-! ## One call -/

/-- What a caller has to see to: a `float` counts the elements of the list, and behind the last
entry there is only the sentinel. -/
def Admissible (s : SimList α) : Op α → Prop
  | .insertAt _ _ | .append _ | .prepend _ => s.items.length + 1 < 2 ^ 24
  | .next => ∀ pos, s.iter = some pos → pos ≤ s.items.length
  | _ => True

variable {l : ListT α} {s : SimList α} {ps : List Nat}

theorem isSome_iff_ne (s : SimList α) : ¬ s.iter.isSome = true ↔ s.iter = none := by
  rw [Bool.not_eq_true, Option.isSome_eq_false_iff, Option.isNone_iff_eq_none]

theorem Represents.performInsertAt (h : Represents l s ps) (data : α) (pos : UInt32)
    (hroom : s.items.length + 1 < 2 ^ 24) :
    ∃ l' ps', l.perform (.insertAt data pos) = .ok (l', (onList s (.insertAt data pos)).2) ∧
      Represents l' (onList s (.insertAt data pos)).1 ps' := by
  have hnumels : l.numels = s.items.length := h.numels.trans h.length_eq
  rw [ListT.perform, onList]
  by_cases hc : s.iter.isSome = true ∨ s.items.length < pos.toNat
  · rw [if_pos hc, ListT.listInsertAt, if_pos (by rw [h.active, hnumels]; exact hc)]
    exact ⟨l, ps, rfl, h⟩
  · rw [if_neg hc]
    rw [not_or, isSome_iff_ne, Nat.not_lt] at hc
    obtain ⟨l', ps', hinsert, hrep⟩ := h.insertAt hc.1 hc.2 hroom data
    rw [hinsert]
    exact ⟨l', ps', rfl, hrep⟩

theorem Represents.performDeleteAt (h : Represents l s ps) (pos : UInt32) :
    ∃ l' ps', l.perform (.deleteAt pos) = .ok (l', (onList s (.deleteAt pos)).2) ∧
      Represents l' (onList s (.deleteAt pos)).1 ps' := by
  have hnumels : l.numels = s.items.length := h.numels.trans h.length_eq
  rw [ListT.perform, onList]
  by_cases hc : s.iter.isSome = true ∨ s.items.length ≤ pos.toNat
  · rw [if_pos hc, ListT.listDeleteAt, if_pos (by rw [h.active, hnumels]; exact hc)]
    exact ⟨l, ps, rfl, h⟩
  · rw [if_neg hc]
    rw [not_or, isSome_iff_ne, Nat.not_le] at hc
    obtain ⟨l', ps', hdelete, hrep⟩ := h.deleteAt hc.1 hc.2
    rw [hdelete]
    exact ⟨l', ps', rfl, hrep⟩

theorem Represents.performExtractAt (h : Represents l s ps) (pos : UInt32) :
    ∃ l' ps', l.perform (.extractAt pos) = .ok (l', (onList s (.extractAt pos)).2) ∧
      Represents l' (onList s (.extractAt pos)).1 ps' := by
  have hnumels : l.numels = s.items.length := h.numels.trans h.length_eq
  rw [ListT.perform, onList]
  by_cases hactive : s.iter.isSome = true
  · rw [if_pos hactive, ListT.listExtractAt, if_pos (Or.inl (by rw [h.active]; exact hactive))]
    exact ⟨l, ps, rfl, h⟩
  · rw [if_neg hactive]
    by_cases hin : pos.toNat < s.items.length
    · obtain ⟨l', ps', hextract, hrep⟩ := h.extractAt ((isSome_iff_ne s).mp hactive) hin
      rw [hextract]
      exact ⟨l', ps', rfl, hrep⟩
    · have hout : s.items.length ≤ pos.toNat := Nat.not_lt.mp hin
      rw [ListT.listExtractAt, if_pos (Or.inr (by rw [hnumels]; exact hout)),
        List.eraseIdx_of_length_le hout, List.getElem?_eq_none hout]
      exact ⟨l, ps, rfl, h⟩

/-- `list_append` is an insertion behind the last element. -/
theorem Represents.performAppend (h : Represents l s ps) (data : α)
    (hroom : s.items.length + 1 < 2 ^ 24) :
    ∃ l' ps', l.perform (.append data) = .ok (l', (onList s (.append data)).2) ∧
      Represents l' (onList s (.append data)).1 ps' := by
  have hnumels : l.numels = s.items.length := h.numels.trans h.length_eq
  have hpos : (UInt32.ofNat s.items.length).toNat = s.items.length := by
    rw [UInt32.toNat_ofNat', Nat.mod_eq_of_lt (by omega)]
  obtain ⟨l', ps', hinsert, hrep⟩ :=
    h.performInsertAt data (UInt32.ofNat s.items.length) hroom
  have habs : onList s (.insertAt data (UInt32.ofNat s.items.length))
      = onList s (.append data) := by
    rw [onList, onList, hpos, List.insertIdx_length_self, SimList.append]
    by_cases hactive : s.iter.isSome = true
    · rw [if_pos (Or.inl hactive), if_pos hactive, if_pos hactive]
    · rw [if_neg (by simp [hactive]), if_neg hactive, if_neg hactive]
  rw [habs] at hinsert hrep
  refine ⟨l', ps', ?_, hrep⟩
  rw [← hinsert, ListT.perform, ListT.perform, ← hnumels]
  rfl

/-- `list_prepend` is one before the first. -/
theorem Represents.performPrepend (h : Represents l s ps) (data : α)
    (hroom : s.items.length + 1 < 2 ^ 24) :
    ∃ l' ps', l.perform (.prepend data) = .ok (l', (onList s (.prepend data)).2) ∧
      Represents l' (onList s (.prepend data)).1 ps' := by
  obtain ⟨l', ps', hinsert, hrep⟩ := h.performInsertAt data 0 hroom
  have habs : onList s (.insertAt data 0) = onList s (.prepend data) := by
    rw [onList, onList]
    by_cases hactive : s.iter.isSome = true
    · rw [if_pos (Or.inl hactive), if_pos hactive]
    · rw [if_neg (by simp [hactive]), if_neg hactive]
      rfl
  rw [habs] at hinsert hrep
  exact ⟨l', ps', hinsert, hrep⟩

/-- `list_fetch` -/
theorem Represents.performFetch (h : Represents l s ps) :
    ∃ l' ps', l.perform .fetch = .ok (l', (onList s .fetch).2) ∧
      Represents l' (onList s .fetch).1 ps' := by
  obtain ⟨l', ps', hextract, hrep⟩ := h.performExtractAt 0
  have habs : onList s (.extractAt 0) = onList s .fetch := by
    rw [onList, onList, List.head?_eq_getElem?, ← List.eraseIdx_zero]
    rfl
  rw [habs] at hextract hrep
  exact ⟨l', ps', hextract, hrep⟩

/-- `list_delete` deletes what `list_locate` finds. -/
theorem Represents.performDelete (h : Represents l s ps) (same : α → Bool) :
    ∃ l' ps', l.perform (.delete same) = .ok (l', (onList s (.delete same)).2) ∧
      Represents l' (onList s (.delete same)).1 ps' := by
  have hlen := h.length_eq
  have hsmall := h.small
  have hcontains : s.contains same = (s.items.findIdx? same).isSome :=
    List.findIdx?_isSome.symm
  rw [ListT.perform, ListT.listDelete, h.locate, ok_bind, onList, SimList.delete,
    List.eraseP_eq_eraseIdx, hcontains]
  dsimp only
  cases hfind : s.items.findIdx? same with
  | none =>
    refine ⟨l, ps, ?_, ?_⟩
    · rw [Option.isSome_none, if_pos (Or.inr rfl)]
      rfl
    · dsimp only
      split
      · exact h
      · exact h
  | some i =>
    have hi : i < s.items.length := (List.findIdx?_eq_some_iff_getElem.mp hfind).1
    have hpos : (UInt32.ofNat i).toNat = i := by
      rw [UInt32.toNat_ofNat', Nat.mod_eq_of_lt (by omega)]
    rw [Option.map_some, Option.getD_some, Option.isSome_some,
      if_neg (show ¬ Int.ofNat i < 0 from Int.not_lt.mpr (Int.natCast_nonneg i))]
    show ∃ l' ps', Except.map _ (l.listDeleteAt (UInt32.ofNat i) >>= _) = _ ∧ _
    by_cases hactive : s.iter.isSome = true
    · rw [if_pos hactive, if_pos (Or.inl hactive), ListT.listDeleteAt,
        if_pos (Or.inl (by rw [h.active]; exact hactive))]
      exact ⟨l, ps, rfl, h⟩
    · obtain ⟨l', ps', hdelete, hrep⟩ :=
        h.deleteAt ((isSome_iff_ne s).mp hactive) (hpos.symm ▸ hi)
      rw [if_neg hactive, if_neg (by simp [hactive]), hdelete]
      rw [hpos] at hrep
      exact ⟨l', ps', rfl, hrep⟩

/-- `list_clear` -/
theorem Represents.performClear (h : Represents l s ps) :
    ∃ l' ps', l.perform .clear = .ok (l', (onList s .clear).2) ∧
      Represents l' (onList s .clear).1 ps' := by
  rw [ListT.perform, onList, SimList.clear]
  by_cases hactive : s.iter.isSome = true
  · rw [if_pos hactive, if_pos hactive, ListT.listClear, h.active, if_pos hactive]
    exact ⟨l, ps, rfl, h⟩
  · obtain ⟨l', hclear, hrep⟩ := h.clear ((isSome_iff_ne s).mp hactive)
    rw [if_neg hactive, if_neg hactive, hclear]
    exact ⟨l', [], rfl, hrep⟩

/-- **One call** has the same reply, and leaves the list in memory that it leaves without
pointers. -/
theorem Represents.perform (h : Represents l s ps) {op : Op α} (hop : Admissible s op) :
    ∃ l' ps', l.perform op = .ok (l', (onList s op).2) ∧ Represents l' (onList s op).1 ps' := by
  cases op with
  | insertAt data pos => exact h.performInsertAt data pos hop
  | append data => exact h.performAppend data hop
  | prepend data => exact h.performPrepend data hop
  | deleteAt pos => exact h.performDeleteAt pos
  | delete same => exact h.performDelete same
  | extractAt pos => exact h.performExtractAt pos
  | fetch => exact h.performFetch
  | clear => exact h.performClear
  | getAt pos =>
    refine ⟨l, ps, ?_, h⟩
    rw [ListT.perform, h.getAt]
    rfl
  | locate same =>
    refine ⟨l, ps, ?_, h⟩
    rw [ListT.perform, h.locate]
    rfl
  | contains same =>
    refine ⟨l, ps, ?_, h⟩
    rw [ListT.perform, h.contains]
    rfl
  | seek found =>
    refine ⟨l, ps, ?_, h⟩
    rw [ListT.perform, h.seek]
    rfl
  | size =>
    refine ⟨l, ps, ?_, h⟩
    rw [ListT.perform, ListT.listSize, h.numels, h.length_eq]
    rfl
  | empty =>
    refine ⟨l, ps, ?_, h⟩
    rw [ListT.perform, ListT.listEmpty, h.numels, h.length_eq, onList]
    cases s.items with
    | nil => rfl
    | cons a as => rfl
  | start =>
    obtain ⟨l', hstart, hrep⟩ := h.start
    rw [ListT.perform, hstart]
    exact ⟨l', ps, rfl, hrep⟩
  | next =>
    obtain ⟨l', hnext, hrep⟩ := h.next hop
    rw [ListT.perform, hnext]
    exact ⟨l', ps, rfl, hrep⟩
  | hasnext =>
    refine ⟨l, ps, ?_, h⟩
    rw [ListT.perform, h.hasnext]
    rfl
  | stop =>
    obtain ⟨hreply, hrep⟩ := h.stop
    rw [ListT.perform, hreply]
    exact ⟨_, ps, rfl, hrep⟩

/-! ## Any number of calls -/

/-- Call after call, and all that was returned. -/
def ListT.calls (l : ListT α) : List (Op α) → Res (ListT α × List (Reply α))
  | [] => .ok (l, [])
  | op :: ops => do
    let (l, reply) ← l.perform op
    let (l, replies) ← l.calls ops
    .ok (l, reply :: replies)

def onLists (s : SimList α) : List (Op α) → SimList α × List (Reply α)
  | [] => (s, [])
  | op :: ops =>
    let (s, reply) := onList s op
    let (s, replies) := onLists s ops
    (s, reply :: replies)

theorem Represents.calls (h : Represents l s ps) {ops : List (Op α)}
    (hops : Along (fun s op => (onList s op).1) Admissible s ops) :
    ∃ l' ps', l.calls ops = .ok (l', (onLists s ops).2) ∧
      Represents l' (onLists s ops).1 ps' := by
  induction ops generalizing l s ps with
  | nil => exact ⟨l, ps, rfl, h⟩
  | cons op ops ih =>
    rw [along_cons] at hops
    obtain ⟨l₁, ps₁, hperform, hrep₁⟩ := h.perform hops.1
    obtain ⟨l₂, ps₂, hcalls, hrep₂⟩ := ih hrep₁ hops.2
    refine ⟨l₂, ps₂, ?_, hrep₂⟩
    rw [ListT.calls, hperform, ok_bind]
    dsimp only
    rw [hcalls]
    rfl

/-- **simclist is a list.** All calls return what they return for a list without pointers,
and what they leave in memory is that list: no NULL is followed, nothing that was freed
is used, and every loop ends. -/
theorem list_refines {ops : List (Op α)}
    (hops : Along (fun s op => (onList s op).1) Admissible .init ops) :
    ∃ l ps, ListT.listInit.calls ops = .ok (l, (onLists .init ops).2) ∧
      Represents l (onLists .init ops).1 ps :=
  represents_init.calls hops

/-- A session in which a list of three is changed in vain. -/
def lostAppend : List (Op Nat) :=
  [.append 7, .prepend 5, .insertAt 6 1, .start, .next, .append 8, .delete (· == 6), .hasnext, .stop,
    .delete (· == 6), .getAt 1]

theorem list_refines_lostAppend : ∃ (l : ListT Nat) (ps : List Nat),
    ListT.listInit.calls lostAppend = .ok (l, [.code 1, .code 1, .code 1, .code 1, .datum (some 5),
      .code (-1), .code (-1), .code 1, .code 1, .code 0, .datum (some 7)]) ∧
    Represents l ⟨[5, 7], none⟩ ps := by
  refine @list_refines _ lostAppend ?_
  simp [lostAppend, Admissible, onList, SimList.init, SimList.append, SimList.start, SimList.next,
    SimList.delete, SimList.stop]

/-! ## `list_destroy` -/

theorem Stored.freeSpares {heap : Heap (DNode (Option α))} {head tail : Nat} {rest : List Nat}
    {items : List (Option α)} (h : Stored heap head tail ps rest items) :
    ∃ heap', rest.foldlM (fun heap p => getOr Fault.freed (Heap.free heap p)) heap = .ok heap' ∧
      Stored heap' head tail ps [] items := by
  induction rest generalizing heap with
  | nil => exact ⟨heap, rfl, h⟩
  | cons p rest ih =>
    obtain ⟨heap₁, hfree, hstored⟩ := h.free
    obtain ⟨heap', hall, hstored'⟩ := ih hstored
    refine ⟨heap', ?_, hstored'⟩
    rw [List.foldlM_cons, hfree, getOr_some, ok_bind]
    exact hall

theorem Stored.freeSentinels {heap : Heap (DNode (Option α))} {head tail : Nat}
    {items : List (Option α)} (h : Stored heap head tail ps [] items) :
    ∃ heap₁ heap₂, heap.free head = some heap₁ ∧ heap₁.free tail = some heap₂ ∧
      ∀ p, (heap₂.read p).isSome ↔ p ∈ ps := by
  obtain ⟨node, hhead⟩ := Option.isSome_iff_exists.mp ((h.live head).mpr List.mem_cons_self)
  obtain ⟨node', htail⟩ := Option.isSome_iff_exists.mp
    ((h.live tail).mpr (List.mem_cons_of_mem _ List.mem_cons_self))
  obtain ⟨heap₁, hfree₁, -, hread₁⟩ := Heap.free_spec hhead
  obtain ⟨heap₂, hfree₂, -, hread₂⟩ := Heap.free_spec
    (show heap₁.read tail = some node' by rw [hread₁, if_neg (Ne.symm h.links.ne), htail])
  refine ⟨heap₁, heap₂, hfree₁, hfree₂, fun p => ?_⟩
  rw [hread₂, hread₁]
  by_cases htail : p = tail
  · rw [if_pos htail, htail]
    exact ⟨(fun hsome => by cases hsome), fun hmem => absurd hmem h.links.tail_not_mem⟩
  · rw [if_neg htail]
    by_cases hhead : p = head
    · rw [if_pos hhead, hhead]
      exact ⟨(fun hsome => by cases hsome), fun hmem => absurd hmem h.links.head_not_mem⟩
    · rw [if_neg hhead, h.live, List.append_nil]
      exact ⟨fun hmem => (List.mem_of_ne_of_mem htail (List.mem_of_ne_of_mem hhead hmem)),
        fun hmem => List.mem_cons_of_mem _ (List.mem_cons_of_mem _ hmem)⟩

/-- `list_destroy` once `list_clear` has returned. -/
theorem Represents.freeAll (h : Represents l s ps) :
    ∃ heap₁ heap₂ heap₃,
      l.spareels.foldlM (fun heap p => getOr Fault.freed (Heap.free heap p)) l.heap = .ok heap₁ ∧
      heap₁.free l.headSentinel = some heap₂ ∧ heap₂.free l.tailSentinel = some heap₃ ∧
      ∀ p, (heap₃.read p).isSome ↔ p ∈ ps := by
  obtain ⟨heap₁, hspares, hstored⟩ := h.stored.freeSpares
  obtain ⟨heap₂, heap₃, hhead, htail, hlive⟩ := hstored.freeSentinels
  exact ⟨heap₁, heap₂, heap₃, hspares, hhead, htail, hlive⟩

theorem Represents.destroy (h : Represents l s ps) :
    ∃ heap, l.listDestroy = .ok heap ∧
      ∀ p, (heap.read p).isSome ↔ s.iter.isSome = true ∧ p ∈ ps := by
  unfold ListT.listDestroy
  by_cases hactive : s.iter.isSome = true
  · obtain ⟨heap₁, heap₂, heap₃, hspares, hhead, htail, hlive⟩ := h.freeAll
    refine ⟨heap₃, ?_, fun p => (hlive p).trans (and_iff_right hactive).symm⟩
    rw [ListT.listClear, h.active, if_pos hactive, ok_bind]
    dsimp only
    rw [hspares, ok_bind, hhead, getOr_some, ok_bind, htail, getOr_some]
  · obtain ⟨l', hclear, hrep⟩ := h.clear ((isSome_iff_ne s).mp hactive)
    obtain ⟨heap₁, heap₂, heap₃, hspares, hhead, htail, hlive⟩ := hrep.freeAll
    refine ⟨heap₃, ?_, fun p => ?_⟩
    · rw [hclear, ok_bind]
      dsimp only
      rw [hspares, ok_bind, hhead, getOr_some, ok_bind, htail, getOr_some]
    · rw [hlive]
      exact ⟨fun hmem => absurd hmem List.not_mem_nil, fun hboth => absurd hboth.1 hactive⟩

/-- **What `list_destroy` leaves in memory**, after any calls: nothing, unless a session is
active. Then `list_clear` refuses, and exactly the entries of the list are lost. -/
theorem destroy_frees {ops : List (Op α)}
    (hops : Along (fun s op => (onList s op).1) Admissible .init ops) :
    ∃ (l : ListT α) (ps : List Nat) (heap : Heap (DNode (Option α))),
      ListT.listInit.calls ops = .ok (l, (onLists .init ops).2) ∧
      Represents l (onLists .init ops).1 ps ∧ l.listDestroy = .ok heap ∧
      ∀ p, (heap.read p).isSome ↔ (onLists .init ops).1.iter.isSome = true ∧ p ∈ ps := by
  obtain ⟨l, ps, hcalls, hrep⟩ := represents_init.calls hops
  obtain ⟨heap, hdestroy, hlive⟩ := hrep.destroy
  exact ⟨l, ps, heap, hcalls, hrep, hdestroy, hlive⟩

/-- Seven elements, two of them taken out again. -/
def sevenAppended : List (Op Nat) :=
  [.append 0, .append 1, .append 2, .append 3, .append 4, .append 5, .append 6, .fetch,
    .deleteAt 2]

theorem destroy_frees_sevenAppended :
    ∃ (l : ListT Nat) (ps : List Nat) (heap : Heap (DNode (Option Nat))),
    ListT.listInit.calls sevenAppended = .ok (l, (onLists .init sevenAppended).2) ∧
      Represents l ⟨[1, 2, 4, 5, 6], none⟩ ps ∧ l.listDestroy = .ok heap ∧
      ∀ p, (heap.read p).isSome ↔ false = true ∧ p ∈ ps := by
  refine @destroy_frees _ sevenAppended ?_
  simp [sevenAppended, Admissible, onList, SimList.init, SimList.append]

end UchiNetworks.Simclist
