import UchiNetworks.Simclist.ListT

/-!
# simclist: what is in memory

`Stored` says which entries are linked between the sentinels, what they hold, and that
everything else in memory is one of the entries that are not used now. Each of the few
things that simclist does to its memory keeps it: a new entry, an entry written or
freed, an entry that comes into the list or goes out of it.
-/

namespace UchiNetworks.Simclist

open UchiNetworks.Lib
open UchiNetworks.Lib.Sentinels

variable {α : Type}

/-- What an entry holds. -/
def value (heap : Heap (DNode (Option α))) (p : Nat) : Option (Option α) :=
  (heap.read p).map DNode.val

/-- The entries `ps` hold the items, the entries `rest` are not in the list, and there
are no others. -/
structure Stored (heap : Heap (DNode (Option α))) (head tail : Nat) (ps rest : List Nat)
    (items : List (Option α)) : Prop where
  links : Between heap head tail ps
  values : ps.map (value heap) = items.map some
  headValue : value heap head = some none
  tailValue : value heap tail = some none
  distinct : (head :: tail :: (ps ++ rest)).Nodup
  live : ∀ p, (heap.read p).isSome ↔ p ∈ head :: tail :: (ps ++ rest)

variable {heap heap' : Heap (DNode (Option α))} {head tail : Nat} {ps rest l r : List Nat}
  {items as bs : List (Option α)}

theorem Stored.length_eq (h : Stored heap head tail ps rest items) : ps.length = items.length := by
  have hlen := congrArg List.length h.values
  rwa [List.length_map, List.length_map] at hlen

theorem Stored.length_le (h : Stored heap head tail ps rest items) : ps.length ≤ heap.fresh := by
  apply Heap.length_le_fresh h.links.nodup
  intro p hp
  exact (h.live p).mpr (List.mem_cons_of_mem _ (List.mem_cons_of_mem _
    (List.mem_append_left _ hp)))

theorem Stored.rest_ne (h : Stored heap head tail ps rest items) {p : Nat} (hp : p ∈ rest) :
    p ≠ head ∧ p ≠ tail ∧ p ∉ ps := by
  obtain ⟨hhead, hnodup⟩ := List.nodup_cons.mp h.distinct
  obtain ⟨htail, hnodup⟩ := List.nodup_cons.mp hnodup
  refine ⟨fun heq => hhead ?_, fun heq => htail ?_, fun hmem => ?_⟩
  · rw [← heq]
    exact List.mem_cons_of_mem _ (List.mem_append_right _ hp)
  · rw [← heq]
    exact List.mem_append_right _ hp
  · exact (List.nodup_append.mp hnodup).2.2 p hmem p hp rfl

theorem Stored.used_ne (h : Stored heap head tail ps rest items) {p q : Nat} (hp : p ∈ rest)
    (hq : q = head ∨ q = tail ∨ q ∈ ps) : q ≠ p := by
  obtain ⟨hhead, htail, hps⟩ := h.rest_ne hp
  obtain rfl | rfl | hq := hq
  · exact Ne.symm hhead
  · exact Ne.symm htail
  · exact fun heq => hps (heq ▸ hq)

/-- Only what the list does not use has changed. -/
theorem Stored.congr (h : Stored heap head tail ps rest items) {rest' : List Nat}
    (hsame : ∀ q, q = head ∨ q = tail ∨ q ∈ ps → heap'.read q = heap.read q)
    (hdistinct : (head :: tail :: (ps ++ rest')).Nodup)
    (hlive : ∀ p, (heap'.read p).isSome ↔ p ∈ head :: tail :: (ps ++ rest')) :
    Stored heap' head tail ps rest' items := by
  refine ⟨h.links.congr hsame, ?_, ?_, ?_, hdistinct, hlive⟩
  · rw [← h.values]
    apply List.map_congr_left
    intro p hp
    rw [value, hsame p (Or.inr (Or.inr hp)), value]
  · rw [value, hsame head (Or.inl rfl)]
    exact h.headValue
  · rw [value, hsame tail (Or.inr (Or.inl rfl))]
    exact h.tailValue

theorem unused_perm (head tail p : Nat) (ps rest : List Nat) :
    (head :: tail :: (ps ++ p :: rest)).Perm (p :: head :: tail :: (ps ++ rest)) := by
  have hmid : (head :: tail :: (ps ++ p :: rest)).Perm (head :: tail :: p :: (ps ++ rest)) :=
    (List.perm_middle.cons tail).cons head
  exact hmid.trans (((List.Perm.swap _ _ _).cons head).trans (List.Perm.swap _ _ _))

theorem Stored.alloc (h : Stored heap head tail ps rest items) (v : DNode (Option α)) :
    Stored (heap.alloc v) head tail ps (heap.fresh :: rest) items := by
  have hnew : heap.fresh ∉ head :: tail :: (ps ++ rest) := by
    intro hmem
    obtain ⟨node, hnode⟩ := Option.isSome_iff_exists.mp ((h.live _).mpr hmem)
    exact absurd (Heap.lt_of_read hnode) (Nat.lt_irrefl _)
  have hperm := unused_perm head tail heap.fresh ps rest
  apply h.congr
  · intro q hq
    rw [Heap.read_alloc, if_neg]
    intro heq
    apply hnew
    rw [← heq]
    obtain rfl | rfl | hq := hq
    · exact List.mem_cons_self
    · exact List.mem_cons_of_mem _ List.mem_cons_self
    · exact List.mem_cons_of_mem _ (List.mem_cons_of_mem _ (List.mem_append_left _ hq))
  · exact hperm.nodup_iff.mpr (List.nodup_cons.mpr ⟨hnew, h.distinct⟩)
  · intro p
    rw [Heap.read_alloc, hperm.mem_iff, List.mem_cons]
    split
    next heq => simp [heq]
    next hne =>
      rw [h.live p]
      exact ⟨Or.inr, fun hmem => hmem.resolve_left hne⟩

/-- An unused entry is written. -/
theorem Stored.write (h : Stored heap head tail ps rest items) {p : Nat} (hp : p ∈ rest)
    (v : Option α) :
    ∃ heap', heap.modify p (fun node => { node with val := v }) = some heap' ∧
      value heap' p = some v ∧ Stored heap' head tail ps rest items := by
  have hlive : (heap.read p).isSome := (h.live p).mpr
    (List.mem_cons_of_mem _ (List.mem_cons_of_mem _ (List.mem_append_right _ hp)))
  obtain ⟨node, hnode⟩ := Option.isSome_iff_exists.mp hlive
  obtain ⟨heap', hmod, -, hread⟩ := Heap.modify_spec hnode fun node => { node with val := v }
  refine ⟨heap', hmod, ?_, h.congr ?_ h.distinct fun q => ?_⟩
  · rw [value, hread, if_pos rfl]
    rfl
  · intro q hq
    rw [hread, if_neg (h.used_ne hp hq)]
  · rw [← h.live q, hread]
    split
    next heq => rw [heq, hnode]; simp
    next => exact Iff.rfl

/-- An unused entry is freed. -/
theorem Stored.free {p : Nat} (h : Stored heap head tail ps (p :: rest) items) :
    ∃ heap', heap.free p = some heap' ∧ Stored heap' head tail ps rest items := by
  have hlive : (heap.read p).isSome := (h.live p).mpr
    (List.mem_cons_of_mem _ (List.mem_cons_of_mem _ (List.mem_append_right _ List.mem_cons_self)))
  obtain ⟨node, hnode⟩ := Option.isSome_iff_exists.mp hlive
  obtain ⟨heap', hfree, -, hread⟩ := Heap.free_spec hnode
  have hperm := unused_perm head tail p ps rest
  have hnodup := List.nodup_cons.mp (hperm.nodup_iff.mp h.distinct)
  refine ⟨heap', hfree, h.congr ?_ hnodup.2 fun q => ?_⟩
  · intro q hq
    rw [hread, if_neg (h.used_ne List.mem_cons_self hq)]
  · rw [hread]
    split
    next heq =>
      rw [heq]
      simp [hnodup.1]
    next hne =>
      rw [h.live q, hperm.mem_iff, List.mem_cons]
      exact ⟨fun hmem => hmem.resolve_left hne, Or.inr⟩

theorem linked_perm (head tail p : Nat) (l r rest : List Nat) :
    (head :: tail :: ((l ++ p :: r) ++ rest)).Perm (head :: tail :: ((l ++ r) ++ p :: rest)) := by
  apply List.Perm.cons
  apply List.Perm.cons
  rw [List.append_assoc, List.append_assoc, List.cons_append]
  exact List.perm_middle.symm.append_left l

/-- The entries before a cut hold the items before it, and so behind it. -/
theorem Stored.cut (h : Stored heap head tail (l ++ r) rest (as ++ bs)) (hlen : l.length = as.length) :
    l.map (value heap) = as.map some ∧ r.map (value heap) = bs.map some := by
  have hvalues := h.values
  rw [List.map_append, List.map_append] at hvalues
  exact List.append_inj hvalues (by rw [List.length_map, List.length_map, hlen])

/-- An unused entry comes into the list. -/
theorem Stored.link {p : Nat} {a : Option α}
    (h : Stored heap head tail (l ++ r) (p :: rest) (as ++ bs)) (hlen : l.length = as.length)
    (hp : value heap p = some a) :
    ∃ heap', linkBetween heap (l.getLast?.getD head) p (r.head?.getD tail) = some heap' ∧
      Stored heap' head tail (l ++ p :: r) rest (as ++ a :: bs) := by
  obtain ⟨hhead, htail, hout⟩ := h.rest_ne List.mem_cons_self
  have hlive : (heap.read p).isSome := by
    rw [← Option.isSome_map (f := DNode.val)]
    exact Option.isSome_of_mem hp
  obtain ⟨heap', hlink, hsame, hlinks⟩ := h.links.link hlive hout hhead htail
  have hvalue : value heap' = value heap := funext hsame.val
  have hperm := linked_perm head tail p l r rest
  obtain ⟨hl, hr⟩ := h.cut hlen
  refine ⟨heap', hlink, hlinks, ?_, ?_, ?_, hperm.nodup_iff.mpr h.distinct, fun q => ?_⟩
  · rw [hvalue, List.map_append, List.map_append, List.map_cons, List.map_cons, hl, hr, hp]
  · rw [hvalue, h.headValue]
  · rw [hvalue, h.tailValue]
  · rw [hsame.isSome, h.live q, hperm.mem_iff]

/-- An entry goes out of the list. -/
theorem Stored.unlink {p : Nat} {a : Option α}
    (h : Stored heap head tail (l ++ p :: r) rest (as ++ a :: bs)) (hlen : l.length = as.length) :
    ∃ heap', bypass heap p = some heap' ∧
      Stored heap' head tail (l ++ r) (p :: rest) (as ++ bs) := by
  obtain ⟨heap', hbypass, hsame, hlinks⟩ := h.links.unlink
  have hvalue : value heap' = value heap := funext hsame.val
  have hperm := linked_perm head tail p l r rest
  obtain ⟨hl, hr⟩ := h.cut hlen
  obtain ⟨-, hr⟩ := List.cons.inj hr
  refine ⟨heap', hbypass, hlinks, ?_, ?_, ?_, hperm.nodup_iff.mp h.distinct, fun q => ?_⟩
  · rw [hvalue, List.map_append, List.map_append, hl, hr]
  · rw [hvalue, h.headValue]
  · rw [hvalue, h.tailValue]
  · rw [hsame.isSome, h.live q, hperm.mem_iff]

/-- What an entry of the list holds. -/
theorem Stored.value_eq {p : Nat} {a : Option α}
    (h : Stored heap head tail (l ++ p :: r) rest (as ++ a :: bs)) (hlen : l.length = as.length) :
    value heap p = some a := by
  obtain ⟨-, hr⟩ := h.cut hlen
  exact (List.cons.inj hr).1

/-- An entry of the list is written. -/
theorem Stored.writeInner {p : Nat} {a : Option α}
    (h : Stored heap head tail (l ++ p :: r) rest (as ++ a :: bs)) (hlen : l.length = as.length)
    (v : Option α) :
    ∃ node heap', heap.read p = some node ∧ node.val = a ∧
      heap.modify p (fun node => { node with val := v }) = some heap' ∧
      Stored heap' head tail (l ++ p :: r) rest (as ++ v :: bs) := by
  obtain ⟨node, hnode, -, -⟩ := h.links.inner
  obtain ⟨heap', hmod, -, hread⟩ := Heap.modify_spec hnode fun node => { node with val := v }
  have hother : ∀ q, q ≠ p → value heap' q = value heap q := by
    intro q hq
    rw [value, hread, if_neg hq, value]
  obtain ⟨hl, hr⟩ := h.cut hlen
  obtain ⟨hp, hr⟩ := List.cons.inj hr
  rw [value, hnode] at hp
  have hnodup := h.links.nodup
  rw [List.nodup_middle, List.nodup_cons, List.mem_append, not_or] at hnodup
  have hpout := h.links.outside p (by simp)
  refine ⟨node, heap', hnode, Option.some.inj hp, hmod,
    h.links.relinked (Heap.view_of_modify hnode hread DNode.next rfl)
      (Heap.view_of_modify hnode hread DNode.prev rfl), ?_, ?_, ?_, h.distinct, fun q => ?_⟩
  · rw [List.map_append, List.map_append, List.map_cons, List.map_cons, ← hl, ← hr]
    congr 1
    · exact List.map_congr_left fun q hq => hother q fun heq => hnodup.1.1 (heq ▸ hq)
    · congr 1
      · rw [value, hread, if_pos rfl]
        rfl
      · exact List.map_congr_left fun q hq => hother q fun heq => hnodup.1.2 (heq ▸ hq)
  · rw [hother head (Ne.symm hpout.1), h.headValue]
  · rw [hother tail (Ne.symm hpout.2), h.tailValue]
  · rw [← h.live q, hread]
    split
    next heq => rw [heq, hnode]; simp
    next => exact Iff.rfl

/-- Nothing is linked between the sentinels any more: of the entries that were, `r` are freed
and `l` are unused. -/
theorem Stored.cleared (h : Stored heap head tail (l ++ r) rest items)
    (hread : ∀ q, heap'.read q = if q ∈ r then none else heap.read q) :
    ∃ heap₁ heap₂, heap'.modify head (fun node => { node with next := some tail }) = some heap₁ ∧
      heap₁.modify tail (fun node => { node with prev := some head }) = some heap₂ ∧
      Stored heap₂ head tail [] (l.reverse ++ rest) [] := by
  have hperm : (head :: tail :: ((l ++ r) ++ rest)).Perm
      (r ++ head :: tail :: (l.reverse ++ rest)) := by
    have hleft : ((l ++ r) ++ rest).Perm (r ++ (l.reverse ++ rest)) := by
      rw [← List.append_assoc]
      exact (List.perm_append_comm.trans (l.reverse_perm.symm.append_left r)).append_right rest
    have htail := (hleft.cons tail).trans List.perm_middle.symm
    exact (htail.cons head).trans List.perm_middle.symm
  obtain ⟨-, hnodup, hout⟩ := List.nodup_append.mp (hperm.nodup_iff.mp h.distinct)
  have hkept : ∀ q ∈ head :: tail :: (l.reverse ++ rest), heap'.read q = heap.read q := by
    intro q hq
    rw [hread, if_neg fun hr => hout q hr q hq rfl]
  have hhead := hkept head List.mem_cons_self
  have htail := hkept tail (List.mem_cons_of_mem _ List.mem_cons_self)
  have hlive : ∀ q ∈ head :: tail :: ((l ++ r) ++ rest), (heap.read q).isSome :=
    fun q hq => (h.live q).mpr hq
  obtain ⟨heap₁, hw₁, hs₁, hprev₁, hnext₁⟩ := setNext_spec (h := heap') (p := head)
    (by rw [hhead]; exact hlive head List.mem_cons_self) tail
  obtain ⟨heap₂, hw₂, hs₂, hnext₂, hprev₂⟩ := setPrev_spec (h := heap₁) (p := tail)
    (by rw [hs₁.isSome, htail]; exact hlive tail (List.mem_cons_of_mem _ List.mem_cons_self)) head
  have hs := hs₁.trans hs₂
  have hne := h.links.ne
  refine ⟨heap₁, heap₂, hw₁, hw₂, ⟨hne, ?_, List.nodup_nil, leads_nil.mpr ?_, leads_nil.mpr ?_,
    ?_, ?_⟩, rfl, ?_, ?_, hnodup, fun q => ?_⟩
  · intro p hp
    cases hp
  · rw [ring, hop, hnext₂, hnext₁, if_pos rfl, Option.bind_some, Option.map_some, if_pos rfl]
  · rw [ring, hop, hprev₂, if_pos rfl, Option.bind_some, Option.map_some, if_pos rfl]
  · rw [hprev₂, if_neg hne, hprev₁, hhead]
    exact h.links.before
  · rw [hnext₂, hnext₁, if_neg (Ne.symm hne), htail]
    exact h.links.behind
  · rw [value, hs.val, hhead]
    exact h.headValue
  · rw [value, hs.val, htail]
    exact h.tailValue
  · rw [hs.isSome, hread, List.nil_append]
    split
    next hr => exact ⟨(fun hf => by cases hf), fun hq => absurd rfl (hout q hr q hq)⟩
    next hr =>
      rw [h.live, hperm.mem_iff, List.mem_append]
      exact ⟨fun hq => hq.resolve_left hr, Or.inr⟩

end UchiNetworks.Simclist
