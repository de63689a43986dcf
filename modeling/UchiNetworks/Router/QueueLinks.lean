import UchiNetworks.Lib.Dangling
import UchiNetworks.Router.Memory
import UchiNetworks.Router.Outcome

/-!
# The links of the ARP queue

`Formed` is what the queue should look like in memory: entries linked both ways,
none of them freed, each for another destination, and in each a chain of packets
that ends at `last`. `Sound` adds that no packet is in two chains. Each function
on the queue keeps it, with one exception: `destroy_arpq_entry` on an entry that
is still linked (`giveUp_broken`); the next flush ends there.
-/

namespace UchiNetworks.Router.Memory

open UchiNetworks.Lib

/-! ## Packets -/

/-- The `next` words of the packets, and the `first` of their entry. -/
def nextPacket (packets : Heap PacketNode) (arpqPackets : Packetq) :
    Option Nat → Option (Option Nat)
  | none => some arpqPackets.first
  | some p => (packets.read p).map PacketNode.next

/-- The packets `ps`, and no others, are in the chain, and `last` is the last. -/
structure Chained (packets : Heap PacketNode) (arpqPackets : Packetq) (ps : List Nat) : Prop where
  nodup : ps.Nodup
  linked : Leads (nextPacket packets arpqPackets) ps
  last : arpqPackets.last = ps.getLast?

theorem chained_nil (packets : Heap PacketNode) :
    Chained packets { first := none, last := none } [] :=
  ⟨List.nodup_nil, leads_nil.mpr rfl, rfl⟩

theorem Chained.first {packets : Heap PacketNode} {arpqPackets : Packetq} {ps : List Nat}
    (h : Chained packets arpqPackets ps) : arpqPackets.first = ps.head? :=
  Option.some.inj h.linked.first

theorem Chained.live {packets : Heap PacketNode} {arpqPackets : Packetq} {ps : List Nat}
    (h : Chained packets arpqPackets ps) {p : Nat} (hp : p ∈ ps) :
    ∃ node, packets.read p = some node := by
  obtain ⟨l, r, rfl⟩ := List.append_of_mem hp
  obtain ⟨node, hnode, -⟩ := Option.map_eq_some_iff.mp h.linked.next
  exact ⟨node, hnode⟩

theorem Chained.lt_fresh {packets : Heap PacketNode} {arpqPackets : Packetq} {ps : List Nat}
    (h : Chained packets arpqPackets ps) {p : Nat} (hp : p ∈ ps) : p < packets.fresh := by
  obtain ⟨node, hnode⟩ := h.live hp
  exact Heap.lt_of_read hnode

/-- Memory changes elsewhere. -/
theorem Chained.congr {packets packets' : Heap PacketNode} {arpqPackets : Packetq} {ps : List Nat}
    (h : Chained packets arpqPackets ps) (hsame : ∀ p ∈ ps, packets'.read p = packets.read p) :
    Chained packets' arpqPackets ps := by
  refine ⟨h.nodup, h.linked.congr rfl ?_, h.last⟩
  intro p hp
  rw [nextPacket, hsame p hp, nextPacket]

theorem Chained.alloc {packets : Heap PacketNode} {arpqPackets : Packetq} {ps : List Nat}
    (h : Chained packets arpqPackets ps) (node : PacketNode) :
    Chained (packets.alloc node) arpqPackets ps := by
  apply h.congr
  intro p hp
  rw [Heap.read_alloc, if_neg (Nat.ne_of_lt (h.lt_fresh hp))]

/-- The first packet goes. -/
theorem Chained.pop {packets packets' : Heap PacketNode} {arpqPackets : Packetq} {p : Nat}
    {ps : List Nat} {node : PacketNode} (h : Chained packets arpqPackets (p :: ps))
    (hnode : packets.read p = some node)
    (hread : ∀ q, packets'.read q = if q = p then none else packets.read q) :
    node.next = ps.head? ∧
    Chained packets'
      { first := node.next, last := if node.next.isNone then none else arpqPackets.last } ps := by
  have hnext : node.next = ps.head? := by
    have hlink := h.linked.next (l := [])
    rw [nextPacket, hnode] at hlink
    exact Option.some.inj hlink
  have hnd := List.nodup_cons.mp h.nodup
  refine ⟨hnext, hnd.2, ?_, ?_⟩
  · intro l r hcut
    cases hl : l.getLast? with
    | none =>
      obtain rfl := List.getLast?_eq_none_iff.mp hl
      rw [nextPacket, hnext, hcut, List.nil_append]
    | some q =>
      have hq : q ≠ p := by
        intro heq
        apply hnd.1
        rw [hcut, ← heq]
        exact List.mem_append_left _ (List.mem_of_getLast? hl)
      have hold := h.linked (p :: l) r (by rw [hcut, List.cons_append])
      rw [List.getLast?_cons, hl, Option.getD_some] at hold
      rw [nextPacket, hread, if_neg hq]
      exact hold
  · rw [hnext]
    cases ps with
    | nil => rfl
    | cons q qs =>
      rw [h.last, List.getLast?_cons_cons]
      rfl

/-- A packet joins behind the last one. -/
theorem Chained.append {packets packets' : Heap PacketNode} {arpqPackets : Packetq}
    {ps : List Nat} {z new : Nat} {node nodeNew : PacketNode}
    (h : Chained packets arpqPackets ps) (hlast : ps.getLast? = some z)
    (hnew : new ∉ ps) (hnode : packets'.read z = some { node with next := some new })
    (hnodeNew : packets'.read new = some nodeNew) (hend : nodeNew.next = none)
    (hsame : ∀ p, p ≠ z → p ≠ new → packets'.read p = packets.read p) :
    Chained packets' { arpqPackets with last := some new } (ps ++ [new]) := by
  have hnd : (ps ++ new :: []).Nodup := by
    rw [List.nodup_append_comm]
    exact List.nodup_cons.mpr ⟨hnew, h.nodup⟩
  refine ⟨hnd, ?_, by rw [List.getLast?_concat]⟩
  have hlinked : Leads (nextPacket packets arpqPackets) (ps ++ []) := by
    rw [List.append_nil]
    exact h.linked
  apply hlinked.insert hnd
  · rw [hlast, nextPacket, hnode]
    rfl
  · rw [nextPacket, hnodeNew, Option.map_some, hend]
    rfl
  · intro x hx hxnew
    cases x with
    | none => rfl
    | some p =>
      rw [hlast] at hx
      rw [nextPacket, hsame p (fun heq => hx (congrArg some heq))
        (fun heq => hxnew (congrArg some heq)), nextPacket]

/-- What `arpq_add_packet` does to the packets of an entry that has some. -/
theorem Chained.join {packets packets' : Heap PacketNode} {arpqPackets : Packetq} {ps : List Nat}
    {z : Nat} {packet : QueuedPacket} (h : Chained packets arpqPackets ps)
    (hlast : arpqPackets.last = some z)
    (hmodify : (packets.alloc { packet := packet, next := none }).modify z
      (fun node => { node with next := some packets.fresh }) = some packets') :
    z ∈ ps ∧ Chained packets' { arpqPackets with last := some packets.fresh }
      (ps ++ [packets.fresh]) ∧
    ∀ p, p ≠ z → p ≠ packets.fresh → packets'.read p = packets.read p := by
  have hz : ps.getLast? = some z := h.last.symm.trans hlast
  have hmem : z ∈ ps := List.mem_of_getLast? hz
  have hnew : packets.fresh ∉ ps := fun hin => absurd (h.lt_fresh hin) (Nat.lt_irrefl _)
  have hne : z ≠ packets.fresh := fun heq => hnew (heq ▸ hmem)
  obtain ⟨node, hnode⟩ := h.live hmem
  have hnode' : (packets.alloc { packet := packet, next := none }).read z = some node := by
    rw [Heap.read_alloc, if_neg hne, hnode]
  obtain ⟨modified, hmodify', -, hread⟩ := Heap.modify_spec hnode'
    fun node => { node with next := some packets.fresh }
  obtain rfl : packets' = modified := Option.some.inj (hmodify.symm.trans hmodify')
  have hother : ∀ p, p ≠ z → p ≠ packets.fresh → packets'.read p = packets.read p := by
    intro p hpz hpn
    rw [hread, if_neg hpz, Heap.read_alloc, if_neg hpn]
  have hnodeNew : packets'.read packets.fresh = some { packet := packet, next := none } := by
    rw [hread, if_neg (Ne.symm hne), Heap.read_alloc, if_pos rfl]
  exact ⟨hmem, h.append hz hnew (by rw [hread, if_pos rfl]) hnodeNew rfl hother, hother⟩

/-! ## Entries -/

/-- An entry of the queue in memory: where it is, what is in it, and where its
packets are. -/
structure EntryView where
  addr : Nat
  cell : ArpqCell
  packets : List Nat

abbrev EntryView.node (v : EntryView) : Nat × ArpqCell := (v.addr, v.cell)

/-- The entries `vs`, and no others, are linked from `first` to `last`, none of
them freed, for pairwise distinct destinations, and so are the packets of each. -/
structure Formed (queue : ArpQueue) (vs : List EntryView) : Prop where
  entries : queue.list.Holds (vs.map EntryView.node)
  distinct : (vs.map fun v => v.cell.arpqIp).Nodup
  chained : ∀ v ∈ vs, Chained queue.packets v.cell.arpqPackets v.packets

def WellFormed (queue : ArpQueue) : Prop := ∃ vs, Formed queue vs

structure Sound (queue : ArpQueue) (vs : List EntryView) : Prop extends Formed queue vs where
  apart : (vs.flatMap EntryView.packets).Nodup

/-- The entry that `sr_init` makes, at the first address, is for `0.0.0.0`; any other
holds a packet. -/
def EntryView.Proper (v : EntryView) : Prop :=
  (v.addr = 0 → v.cell.arpqIp = 0) ∧ (v.addr ≠ 0 → v.packets ≠ [])

/-- And no later entry can come to be there. -/
structure Placed (queue : ArpQueue) (vs : List EntryView) : Prop where
  fresh : 0 < queue.list.heap.fresh
  proper : ∀ v ∈ vs, v.Proper

/-- In a well-formed queue every lookup comes to an end. -/
theorem Formed.lookup {queue : ArpQueue} {vs : List EntryView} (h : Formed queue vs) (ip : UInt32) :
    arpQueueLookup queue ip =
      .ok (((vs.map EntryView.node).find? fun c => c.2.arpqIp == ip).map Prod.fst) :=
  h.entries.find _ _ _

theorem Sound.split {queue : ArpQueue} {l r : List EntryView} {v : EntryView}
    (h : Sound queue (l ++ v :: r)) :
    queue.list.Holds (l.map EntryView.node ++ (v.addr, v.cell) :: r.map EntryView.node) := by
  have := h.entries
  rwa [List.map_append, List.map_cons] at this

theorem Sound.sublist {queue : ArpQueue} {vs vs' : List EntryView} {list : DList ArpqCell}
    (h : Sound queue vs) (hsub : vs'.Sublist vs) (hlist : list.Holds (vs'.map EntryView.node)) :
    Sound { queue with list := list } vs' := by
  refine ⟨⟨hlist, h.distinct.sublist (hsub.map _), ?_⟩, h.apart.sublist ?_⟩
  · intro v hv
    exact h.chained v (hsub.subset hv)
  · clear hlist h
    induction hsub with
    | slnil => exact List.Sublist.refl _
    | cons v _ ih => exact ih.trans (List.sublist_append_right _ _)
    | cons_cons v _ ih => exact (List.Sublist.refl _).append ih

theorem Sound.chained_around {queue : ArpQueue} {l r : List EntryView} {v : EntryView}
    (h : Sound queue (l ++ v :: r)) :
    ∀ w ∈ l ++ r, Chained queue.packets w.cell.arpqPackets w.packets := by
  intro w hw
  exact h.chained w (((List.Sublist.refl l).append (List.sublist_cons_self v r)).subset hw)

/-- Packets of other entries are other packets. -/
theorem Sound.not_mem {queue : ArpQueue} {l r : List EntryView} {v w : EntryView} {p : Nat}
    (h : Sound queue (l ++ v :: r)) (hp : p ∈ v.packets) (hw : w ∈ l ++ r) : p ∉ w.packets := by
  intro hmem
  have hapart := h.apart
  rw [List.flatMap_append, List.flatMap_cons] at hapart
  have hperm : (l.flatMap EntryView.packets ++ (v.packets ++ r.flatMap EntryView.packets)).Perm
      (v.packets ++ (l.flatMap EntryView.packets ++ r.flatMap EntryView.packets)) := by
    rw [← List.append_assoc, ← List.append_assoc]
    exact List.Perm.append_right _ List.perm_append_comm
  have hnd := hperm.nodup_iff.mp hapart
  rw [← List.flatMap_append] at hnd
  exact (List.nodup_append.mp hnd).2.2 p hp p (List.mem_flatMap.mpr ⟨w, hw, hmem⟩) rfl

theorem Sound.value {queue : ArpQueue} {l r : List EntryView} {v : EntryView}
    (h : Sound queue (l ++ v :: r)) : queue.list.value v.addr = some v.cell := h.split.value

theorem Placed.sublist {queue queue' : ArpQueue} {vs vs' : List EntryView} (h : Placed queue vs)
    (hfresh : queue'.list.heap.fresh = queue.list.heap.fresh) (hsub : vs'.Sublist vs) :
    Placed queue' vs' :=
  ⟨by rw [hfresh]; exact h.fresh, fun v hv => h.proper v (hsub.subset hv)⟩

theorem Placed.replace {queue queue' : ArpQueue} {l r : List EntryView} {v v' : EntryView}
    (h : Placed queue (l ++ v :: r)) (hfresh : queue'.list.heap.fresh = queue.list.heap.fresh)
    (hproper : v.Proper → v'.Proper) : Placed queue' (l ++ v' :: r) := by
  refine ⟨by rw [hfresh]; exact h.fresh, fun w hw => ?_⟩
  rcases List.mem_append.mp hw with hw | hw
  · exact h.proper w (List.mem_append_left _ hw)
  · rcases List.mem_cons.mp hw with rfl | hw
    · exact hproper (h.proper v (by simp))
    · exact h.proper w (List.mem_append_right _ (List.mem_cons_of_mem _ hw))

/-- One entry is written, and its packets, and no others, may change. -/
theorem Sound.replace {queue : ArpQueue} {l r : List EntryView} {v : EntryView}
    (h : Sound queue (l ++ v :: r)) {cell : ArpqCell} {packets : Heap PacketNode} {ps : List Nat}
    (hip : cell.arpqIp = v.cell.arpqIp) (hchain : Chained packets cell.arpqPackets ps)
    (hothers : ∀ w ∈ l ++ r, Chained packets w.cell.arpqPackets w.packets)
    (hapart : ((l ++ { v with cell := cell, packets := ps } :: r).flatMap
      EntryView.packets).Nodup) :
    ∃ list, queue.list.setValue v.addr cell = some list ∧
      Sound { list := list, packets := packets }
        (l ++ { v with cell := cell, packets := ps } :: r) := by
  obtain ⟨list, hset, -, hholds⟩ := h.split.setValue cell
  refine ⟨list, hset, ⟨?_, ?_, ?_⟩, hapart⟩
  · rw [List.map_append, List.map_cons]
    exact hholds
  · have hdistinct := h.distinct
    rw [List.map_append, List.map_cons] at hdistinct ⊢
    rw [show (EntryView.cell { v with cell := cell, packets := ps }).arpqIp = v.cell.arpqIp from hip]
    exact hdistinct
  · intro w hw
    rcases List.mem_append.mp hw with hw | hw
    · exact hothers w (List.mem_append_left _ hw)
    · rcases List.mem_cons.mp hw with rfl | hw
      · exact hchain
      · exact hothers w (List.mem_append_right _ hw)

/-- The entry keeps its packets. -/
theorem Sound.setEntry {queue queue' : ArpQueue} {l r : List EntryView} {v : EntryView}
    (h : Sound queue (l ++ v :: r)) {cell : ArpqCell} (hip : cell.arpqIp = v.cell.arpqIp)
    (hpackets : cell.arpqPackets = v.cell.arpqPackets)
    (hset : setEntry queue v.addr cell = .ok queue') :
    Sound queue' (l ++ { v with cell := cell } :: r) := by
  have hchain := h.chained v (by simp)
  rw [← hpackets] at hchain
  obtain ⟨list, hlist, hsound⟩ := h.replace hip hchain h.chained_around
    (by
      have hapart := h.apart
      rw [List.flatMap_append, List.flatMap_cons] at hapart ⊢
      exact hapart)
  rw [Memory.setEntry, hlist, getOr_some, ok_bind] at hset
  obtain rfl := Except.ok.inj hset
  exact hsound

theorem setEntry_fresh {queue queue' : ArpQueue} {entry : Nat} {cell : ArpqCell}
    (hset : setEntry queue entry cell = .ok queue') :
    queue'.list.heap.fresh = queue.list.heap.fresh := by
  simp only [Memory.setEntry, bind_ok, getOr_ok, Except.ok.injEq] at hset
  obtain ⟨list, hlist, rfl⟩ := hset
  exact DList.setValue_fresh hlist

/-- The entry keeps its packets and its place. -/
theorem Placed.setEntry {queue queue' : ArpQueue} {l r : List EntryView} {v : EntryView}
    (h : Placed queue (l ++ v :: r)) {cell : ArpqCell} (hip : cell.arpqIp = v.cell.arpqIp)
    (hset : setEntry queue v.addr cell = .ok queue') :
    Placed queue' (l ++ { v with cell := cell } :: r) :=
  h.replace (setEntry_fresh hset) fun hproper => ⟨fun haddr => hip.trans (hproper.1 haddr), hproper.2⟩

/-- An entry of the queue goes, its packets stay behind. -/
theorem Sound.remove {queue : ArpQueue} {l r : List EntryView} {v : EntryView}
    (h : Sound queue (l ++ v :: r)) :
    ∃ list, queue.list.unlink v.addr = some list ∧ list.value v.addr = some v.cell ∧
      v.addr ∉ (l ++ r).map EntryView.addr ∧ Sound { queue with list := list } (l ++ r) := by
  obtain ⟨list, hunlink, hre, hholds, -⟩ := h.split.unlink
  rw [← List.map_append] at hholds
  refine ⟨list, hunlink, (hre.value _).trans h.value, ?_, h.sublist (by simp) hholds⟩
  intro hmem
  obtain ⟨w, hw, heq⟩ := List.mem_map.mp hmem
  have hne := DList.fst_ne_of_nodup h.split.linked.nodup (c := w.node)
    (by rw [← List.map_append]; exact List.mem_map_of_mem hw)
  exact hne heq

/-- Memory outside the list is freed. -/
theorem Sound.free {queue : ArpQueue} {vs : List EntryView} (h : Sound queue vs) {p : Nat}
    {cell : ArpqCell} (hp : queue.list.value p = some cell) (hout : p ∉ vs.map EntryView.addr) :
    ∃ list, queue.list.free p = some list ∧ Sound { queue with list := list } vs := by
  have hout' : p ∉ (vs.map EntryView.node).map Prod.fst := by
    rwa [List.map_map]
  obtain ⟨list, hfree, -, hholds⟩ := h.entries.free hp hout'
  exact ⟨list, hfree, h.sublist (List.Sublist.refl _) hholds⟩

/-! ## The flush -/

theorem flushQueueFrom_sound {sr : SrInstance} {clock : Nat → Nat} {fuel : Nat}
    {queue queue' : ArpQueue} {l r : List EntryView} {i i' : Nat} {sent : List Sent}
    (h : Sound queue (l ++ r))
    (hflush : flushQueueFrom sr clock fuel queue (r.map EntryView.addr).head? i =
      .ok (queue', sent, i')) :
    ∃ r', Sound queue' (l ++ r') ∧
      (∀ now, (∀ j, clock j = now) →
        ∀ v ∈ r', ¬ GivenUp now v.cell.arpqLastReq v.cell.arpqNumReqs) ∧
      (Placed queue (l ++ r) → Placed queue' (l ++ r')) := by
  induction r generalizing l fuel queue i sent with
  | nil =>
    cases fuel with
    | zero => cases hflush
    | succ fuel =>
      simp only [List.map_nil, List.head?_nil, flushQueueFrom, Except.ok.injEq,
        Prod.mk.injEq] at hflush
      obtain ⟨rfl, -⟩ := hflush
      exact ⟨[], h, by simp, fun hplaced => hplaced⟩
  | cons v r ih =>
    cases fuel with
    | zero => cases hflush
    | succ fuel =>
      obtain ⟨node, hnode, hval, -, hnext⟩ := h.split.node
      rw [List.map_map] at hnext
      replace hnext : node.next = (r.map EntryView.addr).head? := hnext
      simp only [List.map_cons, List.head?_cons, flushQueueFrom, hnode, getOr_some,
        ok_bind] at hflush
      -- the entry stays, as it is or with another count
      have hstays : ∀ {cell : ArpqCell} {q : ArpQueue} {j : Nat} {more : List Sent},
          Sound q (l ++ { v with cell := cell } :: r) →
          (Placed queue (l ++ v :: r) → Placed q (l ++ { v with cell := cell } :: r)) →
          flushQueueFrom sr clock fuel q node.next j = .ok (queue', more, i') →
          (∀ now, (∀ j, clock j = now) → ¬ GivenUp now cell.arpqLastReq cell.arpqNumReqs) →
          ∃ r', Sound queue' (l ++ r') ∧
            (∀ now, (∀ j, clock j = now) →
              ∀ v ∈ r', ¬ GivenUp now v.cell.arpqLastReq v.cell.arpqNumReqs) ∧
            (Placed queue (l ++ v :: r) → Placed queue' (l ++ r')) := by
        intro cell q j more hsound hplace hrest hcell
        rw [hnext] at hrest
        obtain ⟨r', hsound', hdue, hplaced⟩ := @ih fuel q (l ++ [{ v with cell := cell }]) j more
          (by simpa using hsound) hrest
        refine ⟨{ v with cell := cell } :: r', by simpa using hsound', ?_, fun hold => ?_⟩
        · intro now hnow w hw
          rcases List.mem_cons.mp hw with rfl | hw
          · exact hcell now hnow
          · exact hdue now hnow w hw
        · simpa using hplaced (by simpa using hplace hold)
      split at hflush
      next hlate =>
        split at hflush
        next hmany =>
          -- it is given up: unlinked and freed
          simp only [bind_ok, getOr_ok, Except.ok.injEq, Prod.mk.injEq] at hflush
          obtain ⟨-, -, list, hunlink, list', hfree, ⟨q, more, j⟩, hrest, rfl, -, rfl⟩ := hflush
          obtain ⟨_, hunlink', hvalue, hout, hsound⟩ := h.remove
          obtain rfl := Option.some.inj (hunlink'.symm.trans hunlink)
          obtain ⟨_, hfree', hsound⟩ := hsound.free hvalue hout
          obtain rfl := Option.some.inj (hfree'.symm.trans hfree)
          rw [hnext] at hrest
          obtain ⟨r', hsound', hdue, hplaced⟩ := ih hsound hrest
          refine ⟨r', hsound', hdue, fun hold => hplaced (hold.sublist ?_ (by simp))⟩
          exact (DList.free_fresh hfree).trans (DList.unlink_fresh hunlink)
        next hfew =>
          split at hflush
          next first hfirst =>
            simp only [bind_ok, getOr_ok, Except.ok.injEq, Prod.mk.injEq] at hflush
            obtain ⟨-, -, -, -, -, -, q, hset, ⟨q', more, j⟩, hrest, rfl, -, rfl⟩ := hflush
            rw [hval] at hset
            refine hstays (h.setEntry (by rfl) (by rfl) hset)
              (fun hold => hold.setEntry (by rfl) hset) hrest ?_
            intro now hnow hdue
            have hlate : clock (i + 1) < now - 1 := hdue.1
            rw [hnow] at hlate
            omega
          next hnone =>
            refine hstays h (fun hold => hold) hflush ?_
            intro now _ hdue
            exact hfew (by rw [hval]; exact hdue.2)
      next hearly =>
        refine hstays h (fun hold => hold) hflush ?_
        intro now hnow hdue
        apply hearly
        rw [hnow, hval]
        exact hdue.1

theorem arpQueueFlush_sound {sr : SrInstance} {clock : Nat → Nat} {queue queue' : ArpQueue}
    {vs : List EntryView} {i i' : Nat} {sent : List Sent} (h : Sound queue vs)
    (hflush : arpQueueFlush sr clock queue i = .ok (queue', sent, i')) :
    ∃ vs', Sound queue' vs' ∧
      (∀ now, (∀ j, clock j = now) →
        ∀ v ∈ vs', ¬ GivenUp now v.cell.arpqLastReq v.cell.arpqNumReqs) ∧
      (Placed queue vs → Placed queue' vs') := by
  have hfirst : queue.list.first = (vs.map EntryView.addr).head? := by
    rw [h.entries.linked.first_eq, List.map_map]
    rfl
  rw [arpQueueFlush, hfirst] at hflush
  exact @flushQueueFrom_sound sr clock _ queue queue' [] vs i i' sent h hflush

/-- What a lookup finds is an entry of the queue. -/
theorem Sound.find {queue : ArpQueue} {vs : List EntryView} (h : Sound queue vs)
    (test : ArpqCell → Bool) {entry : Nat}
    (hfind : queue.list.find .freed .endless test (queue.list.heap.fresh + 1) queue.list.first =
      (.ok (some entry) : Res (Option Nat))) :
    ∃ l v r, vs = l ++ v :: r ∧ v.addr = entry ∧ test v.cell = true := by
  rw [h.entries.find, List.find?_map] at hfind
  obtain ⟨c, hc, rfl⟩ := Option.map_eq_some_iff.mp (Except.ok.inj hfind)
  obtain ⟨v, hv, rfl⟩ := Option.map_eq_some_iff.mp hc
  have htest := List.find?_some hv
  obtain ⟨l, r, rfl⟩ := List.append_of_mem (List.mem_of_find?_eq_some hv)
  exact ⟨l, v, r, rfl, rfl, htest⟩

theorem Sound.find_none {queue : ArpQueue} {vs : List EntryView} (h : Sound queue vs)
    (test : ArpqCell → Bool)
    (hfind : queue.list.find .freed .endless test (queue.list.heap.fresh + 1) queue.list.first =
      (.ok none : Res (Option Nat))) : ∀ v ∈ vs, test v.cell ≠ true := by
  rw [h.entries.find, List.find?_map] at hfind
  have hnone := Option.map_eq_none_iff.mp (Option.map_eq_none_iff.mp (Except.ok.inj hfind))
  intro v hv
  exact List.find?_eq_none.mp hnone v hv

/-! ## A reply clears an entry -/

theorem clearPackets_sound {dHa : Mac} {fuel : Nat} {queue queue' : ArpQueue}
    {l r : List EntryView} {v : EntryView} {sent : List Sent} (h : Sound queue (l ++ v :: r))
    (hclear : clearPackets dHa v.addr fuel queue = .ok (queue', sent)) :
    ∃ v', Sound queue' (l ++ v' :: r) ∧ v'.addr = v.addr ∧ v'.cell.arpqPackets.first = none ∧
      queue'.list.heap.fresh = queue.list.heap.fresh := by
  induction fuel generalizing queue v sent with
  | zero => cases hclear
  | succ fuel ih =>
    simp only [clearPackets, entryAt, h.value, getOr_some, ok_bind] at hclear
    split at hclear
    next hnone =>
      simp only [Except.ok.injEq, Prod.mk.injEq] at hclear
      obtain ⟨rfl, -⟩ := hclear
      exact ⟨v, h, rfl, hnone, rfl⟩
    next first hfirst =>
      simp only [bind_ok, getOr_ok, Except.ok.injEq, Prod.mk.injEq] at hclear
      obtain ⟨qpacket, hread, iface, -, outgoing, -, s, -, q, hset, packets, hfree, ⟨q', more⟩,
        hrest, rfl, -⟩ := hclear
      have hchain := h.chained v (by simp)
      obtain ⟨ps, hps⟩ : ∃ ps, v.packets = first :: ps := by
        rw [hchain.first] at hfirst
        exact List.head?_eq_some_iff.mp hfirst
      rw [hps] at hchain
      obtain ⟨packets', hfree', -, hgone⟩ := Heap.free_spec hread
      have hpop := (hchain.pop hread hgone).2
      have hip : ({ v.cell with arpqPackets :=
          { first := qpacket.next
            last := if qpacket.next.isNone then none else v.cell.arpqPackets.last } } :
          ArpqCell).arpqIp = v.cell.arpqIp := rfl
      obtain ⟨list, hlist, hsound⟩ := h.replace hip hpop
        (by
          intro w hw
          apply (h.chained_around w hw).congr
          intro p hp
          rw [hgone, if_neg]
          intro heq
          exact h.not_mem (hps ▸ List.mem_cons_self) hw (heq ▸ hp))
        (by
          have hapart := h.apart
          rw [List.flatMap_append, List.flatMap_cons, hps] at hapart
          rw [List.flatMap_append, List.flatMap_cons]
          exact hapart.sublist ((List.Sublist.refl _).append
            ((List.sublist_cons_self _ _).append (List.Sublist.refl _))))
      rw [Memory.setEntry, hlist, getOr_some, ok_bind] at hset
      obtain rfl := Except.ok.inj hset
      obtain rfl := Option.some.inj (hfree'.symm.trans hfree)
      obtain ⟨v', hsound', haddr, hfirst', hfresh⟩ := ih hsound hrest
      exact ⟨v', hsound', haddr, hfirst', hfresh.trans (DList.setValue_fresh hlist)⟩

theorem arpqEntryClear_sound {dHa : Mac} {queue queue' : ArpQueue} {l r : List EntryView}
    {v : EntryView} {sent : List Sent} (h : Sound queue (l ++ v :: r))
    (hclear : arpqEntryClear queue v.addr dHa = .ok (queue', sent)) :
    Sound queue' (l ++ r) ∧ queue'.list.heap.fresh = queue.list.heap.fresh := by
  simp only [arpqEntryClear, bind_ok, getOr_ok] at hclear
  obtain ⟨⟨q, s⟩, hpackets, node, hnode, list, hunlink, hclear⟩ := hclear
  obtain ⟨v', hsound, haddr, hfirst, hfresh⟩ := clearPackets_sound h hpackets
  obtain ⟨_, hunlink', hvalue, hout, hsound⟩ := hsound.remove
  rw [haddr] at hunlink' hvalue hout
  obtain rfl := Option.some.inj (hunlink'.symm.trans hunlink)
  split at hclear
  · -- `destroy_arpq_entry` finds no packet any more
    simp only [bind_ok, Except.ok.injEq, Prod.mk.injEq] at hclear
    obtain ⟨destroyed, hdestroy, rfl, -⟩ := hclear
    simp only [destroyArpqEntry, entryAt, hvalue, hfirst, getOr_some, ok_bind, freePackets,
      bind_ok, getOr_ok] at hdestroy
    obtain ⟨list', hfree, hdestroy⟩ := hdestroy
    obtain rfl := Except.ok.inj hdestroy
    obtain ⟨_, hfree', hsound⟩ := hsound.free hvalue hout
    obtain rfl := Option.some.inj (hfree'.symm.trans hfree)
    exact ⟨hsound, (DList.free_fresh hfree).trans ((DList.unlink_fresh hunlink).trans hfresh)⟩
  · simp only [Except.ok.injEq, Prod.mk.injEq] at hclear
    obtain ⟨rfl, -⟩ := hclear
    exact ⟨hsound, (DList.unlink_fresh hunlink).trans hfresh⟩

/-! ## A packet joins -/

theorem Sound.fresh_not_mem {queue : ArpQueue} {vs : List EntryView} (h : Sound queue vs) :
    queue.packets.fresh ∉ vs.flatMap EntryView.packets := by
  intro hmem
  obtain ⟨v, hv, hp⟩ := List.mem_flatMap.mp hmem
  exact absurd ((h.chained v hv).lt_fresh hp) (Nat.lt_irrefl _)

theorem arpqAddPacket_sound {queue queue' : ArpQueue} {l r : List EntryView} {v : EntryView}
    {packet : FrameT} {oldMAC : Mac} {oldIface : Option SrIf} {arrival : Arrival}
    (h : Sound queue (l ++ v :: r)) (hsome : v.cell.arpqPackets.first.isSome)
    (hadd : arpqAddPacket queue v.addr packet oldMAC oldIface arrival = .ok queue') :
    ∃ v', Sound queue' (l ++ v' :: r) ∧ (Placed queue (l ++ v :: r) → Placed queue' (l ++ v' :: r)) := by
  simp only [arpqAddPacket, entryAt, h.value, getOr_some, ok_bind] at hadd
  split at hadd
  next first hfirst =>
    simp only [bind_ok, getOr_ok] at hadd
    obtain ⟨z, hlast, packets, hmodify, hadd⟩ := hadd
    obtain ⟨hz, hchain, hother⟩ := (h.chained v (by simp)).join hlast hmodify
    have hip : ({ v.cell with
        arpqNumReqs := v.cell.arpqNumReqs + 1
        arpqPackets := { v.cell.arpqPackets with last := some queue.packets.fresh } } :
        ArpqCell).arpqIp = v.cell.arpqIp := rfl
    obtain ⟨list, hlist, hsound⟩ := h.replace hip hchain
      (by
        intro w hw
        have hwchain := h.chained_around w hw
        apply hwchain.congr
        intro p hp
        apply hother
        · intro heq
          exact h.not_mem hz hw (heq ▸ hp)
        · exact Nat.ne_of_lt (hwchain.lt_fresh hp))
      (by
        have hnd := List.nodup_cons.mpr ⟨h.fresh_not_mem, h.apart⟩
        simp only [List.flatMap_append, List.flatMap_cons, List.append_assoc,
          List.singleton_append] at hnd ⊢
        rw [← List.append_assoc] at hnd ⊢
        exact List.perm_middle.nodup_iff.mpr hnd)
    rw [Memory.setEntry, hlist, getOr_some, ok_bind] at hadd
    obtain rfl := Except.ok.inj hadd
    refine ⟨_, hsound, fun hplaced => hplaced.replace (DList.setValue_fresh hlist) ?_⟩
    exact fun hproper => ⟨hproper.1, fun _ => by simp⟩
  next hnone =>
    rw [hnone] at hsome
    cases hsome

theorem joinEntry_sound {sr : SrInstance} {queue queue' : ArpQueue} {l r : List EntryView}
    {v : EntryView} {arrival : Arrival} {incoming outgoing : FrameT} {sent : List Sent}
    (h : Sound queue (l ++ v :: r))
    (hjoin : joinEntry sr queue v.addr arrival incoming outgoing = .ok (queue', sent)) :
    ∃ vs', Sound queue' vs' ∧ (Placed queue (l ++ v :: r) → Placed queue' vs') := by
  simp only [joinEntry, entryAt, h.value, getOr_some, ok_bind] at hjoin
  split at hjoin
  · cases hjoin
  next hsome =>
    simp only [bind_ok, Except.ok.injEq, Prod.mk.injEq] at hjoin
    obtain ⟨q, hadd, -, -, -, -, rfl, -⟩ := hjoin
    obtain ⟨v', hsound, hplaced⟩ := arpqAddPacket_sound h (by
      cases hf : v.cell.arpqPackets.first with
      | none => simp [hf] at hsome
      | some _ => rfl) hadd
    exact ⟨_, hsound, hplaced⟩

/-- The chain of a new entry. -/
theorem chained_alloc (packets : Heap PacketNode) (packet : QueuedPacket) :
    Chained (packets.alloc { packet := packet, next := none })
      { first := packets.fresh, last := packets.fresh } [packets.fresh] := by
  refine ⟨List.nodup_singleton _, leads_singleton rfl ?_, rfl⟩
  rw [nextPacket, Heap.read_alloc, if_pos rfl]
  rfl

/-- A new entry with its first packet. -/
theorem arpqAddEntry_sound {sr : SrInstance} {queue queue' : ArpQueue} {vs : List EntryView}
    {packet : FrameT} {ip : UInt32} {oldMAC : Mac} {oldIface : Option SrIf} {arrival : Arrival}
    {now entry : Nat} (h : Sound queue vs) (hnew : ∀ v ∈ vs, v.cell.arpqIp ≠ ip)
    (hadd : arpqAddEntry sr queue packet ip oldMAC oldIface arrival now = .ok (queue', entry)) :
    ∃ v, v.addr = entry ∧ Sound queue' (vs ++ [v]) ∧
      (Placed queue vs → Placed queue' (vs ++ [v])) := by
  have hout := h.entries.fresh_not_mem
  simp only [arpqAddEntry, arpqAddPacket, entryAt, DList.value_alloc, if_true, getOr_some,
    ok_bind, Memory.setEntry, bind_ok, getOr_ok, Except.ok.injEq, Prod.mk.injEq] at hadd
  obtain ⟨q₁, ⟨list₁, hset₁, rfl⟩, cell₁, hcell₁, q₂, ⟨list₂, hset₂, rfl⟩, list₃, hlink, rfl,
    rfl⟩ := hadd
  -- the node in memory, not linked yet
  have halloc := h.entries.alloc
    { arpqIp := ip, arpqNextHop := sr.junkHop, arpqPackets := { first := none, last := none },
      arpqLastReq := 0, arpqNumReqs := 0 }
  obtain ⟨_, hset₁', -, hvalue₁, hholds₁⟩ := halloc.setValue_outside
    (by rw [DList.value_alloc, if_pos rfl]) hout
    { arpqIp := ip, arpqNextHop := sr.junkHop,
      arpqPackets := { first := some queue.packets.fresh, last := some queue.packets.fresh },
      arpqLastReq := 0, arpqNumReqs := 0 + 1 }
  obtain rfl := Option.some.inj (hset₁'.symm.trans hset₁)
  obtain rfl := Option.some.inj (hvalue₁.symm.trans hcell₁)
  obtain ⟨_, hset₂', -, hvalue₂, hholds₂⟩ := hholds₁.setValue_outside hvalue₁ hout
    { arpqIp := ip, arpqNextHop := sr.junkHop,
      arpqPackets := { first := some queue.packets.fresh, last := some queue.packets.fresh },
      arpqLastReq := now, arpqNumReqs := 0 }
  obtain rfl := Option.some.inj (hset₂'.symm.trans hset₂)
  obtain ⟨_, hlink', hre, hholds₃⟩ := hholds₂.linkLast hvalue₂ hout
  obtain rfl := Option.some.inj (hlink'.symm.trans hlink)
  refine ⟨{ addr := queue.list.heap.fresh
            cell := { arpqIp := ip, arpqNextHop := sr.junkHop
                      arpqPackets := { first := some queue.packets.fresh
                                       last := some queue.packets.fresh }
                      arpqLastReq := now, arpqNumReqs := 0 }
            packets := [queue.packets.fresh] }, rfl, ⟨⟨?_, ?_, ?_⟩, ?_⟩, fun hplaced => ?_⟩
  · rw [List.map_append]
    exact hholds₃
  · rw [List.map_append, List.nodup_append]
    refine ⟨h.distinct, List.nodup_singleton _, ?_⟩
    intro x hx y hy heq
    obtain ⟨v, hv, rfl⟩ := List.mem_map.mp hx
    exact hnew v hv (heq.trans (List.mem_singleton.mp hy))
  · intro v hv
    rcases List.mem_append.mp hv with hv | hv
    · exact (h.chained v hv).alloc _
    · obtain rfl := List.mem_singleton.mp hv
      exact chained_alloc _ _
  · rw [List.flatMap_append, List.nodup_append_comm]
    exact List.nodup_cons.mpr ⟨h.fresh_not_mem, h.apart⟩
  · have hfresh := hre.fresh
    rw [DList.setValue_fresh hset₂, DList.setValue_fresh hset₁, DList.alloc_fresh] at hfresh
    refine ⟨?_, fun v hv => ?_⟩
    · dsimp only
      rw [hfresh]
      exact Nat.succ_pos _
    · rcases List.mem_append.mp hv with hv | hv
      · exact hplaced.proper v hv
      · obtain rfl := List.mem_singleton.mp hv
        exact ⟨fun hzero => absurd hzero (Nat.ne_of_gt hplaced.fresh), fun _ => by simp⟩

theorem openEntry_sound {sr : SrInstance} {queue queue' : ArpQueue} {vs : List EntryView}
    {arrival : Arrival} {incoming outgoing : FrameT} {now : Nat} {sent : List Sent}
    (h : Sound queue vs) (hnew : ∀ v ∈ vs, v.cell.arpqIp ≠ outgoing.toIp)
    (hopen : openEntry sr queue arrival incoming outgoing now = .ok (queue', sent)) :
    ∃ vs', Sound queue' vs' ∧ (Placed queue vs → Placed queue' vs') := by
  simp only [openEntry, bind_ok, Except.ok.injEq, Prod.mk.injEq] at hopen
  obtain ⟨⟨q, entry⟩, hadd, request, -, cell, hcell, q', hset, -, -, rfl, -⟩ := hopen
  obtain ⟨v, rfl, hsound, hplaced⟩ := arpqAddEntry_sound h hnew hadd
  rw [entryAt, hsound.value, getOr_some] at hcell
  obtain rfl := Except.ok.inj hcell
  exact ⟨_, hsound.setEntry (by rfl) (by rfl) hset,
    fun hold => (hplaced hold).setEntry (by rfl) hset⟩

/-! ## Too many requests -/

/-- An entry was freed that is still linked: the links lead to memory that is gone. -/
def Broken (queue : ArpQueue) : Prop :=
  ∃ (whole : DList ArpqCell) (l : List (Nat × ArpqCell)) (entry : Nat × ArpqCell)
    (r : List (Nat × ArpqCell)),
    whole.Holds (l ++ entry :: r) ∧ whole.free entry.1 = some queue.list

theorem Broken.not_formed {queue : ArpQueue} (h : Broken queue) : ¬ WellFormed queue := by
  intro hwell
  obtain ⟨vs, hformed⟩ := hwell
  obtain ⟨whole, l, entry, r, hholds, hfree⟩ := h
  obtain ⟨list, hfree', -, hnext, -, hvalue⟩ := DList.free_spec hholds.value
  obtain rfl : list = queue.list := Option.some.inj (hfree'.symm.trans hfree)
  have hmem : entry.1 ∈ (vs.map EntryView.node).map Prod.fst := by
    apply hholds.split.forward.mem_of_agree hformed.entries.linked.forward
    · exact hnext none (by simp)
    · intro q hq
      apply hnext
      intro heq
      obtain ⟨c, hc, rfl⟩ := List.mem_map.mp hq
      exact DList.fst_ne_of_nodup hholds.linked.nodup (List.mem_append_left _ hc)
        (Option.some.inj heq)
  obtain ⟨cell, hcell⟩ := hformed.entries.linked.live hmem
  rw [hvalue, if_pos rfl] at hcell
  cases hcell

/-- The flush does not get past the freed entry. -/
theorem flushQueueFrom_broken {sr : SrInstance} {clock : Nat → Nat} {fuel : Nat}
    {queue : ArpQueue} {whole : DList ArpqCell} {l r : List (Nat × ArpqCell)} {v i : Nat}
    {out : ArpQueue × List Sent × Nat} (h : whole.Holds (l ++ r)) (hv : v ∈ r.map Prod.fst)
    (hfree : whole.free v = some queue.list) :
    flushQueueFrom sr clock fuel queue (r.map Prod.fst).head? i ≠ .ok out := by
  induction r generalizing l fuel queue whole i out with
  | nil => cases hv
  | cons c r ih =>
    intro hflush
    cases fuel with
    | zero => cases hflush
    | succ fuel =>
      obtain ⟨p, cell⟩ := c
      simp only [List.map_cons, List.head?_cons, flushQueueFrom, bind_ok, getOr_ok] at hflush
      obtain ⟨node, hread, hflush⟩ := hflush
      obtain ⟨hpv, hread⟩ := DList.read_of_free hfree hread
      replace hv : v ∈ r.map Prod.fst :=
        (List.mem_cons.mp hv).resolve_left fun heq => hpv heq.symm
      obtain ⟨node', hread', -, -, hnext⟩ := h.node
      obtain rfl : node = node' := Option.some.inj (hread.symm.trans hread')
      rw [hnext] at hflush
      -- an entry that stays, with whatever is in it
      have hstays : ∀ {cell' : ArpqCell} {whole' : DList ArpqCell} {q : ArpQueue} {j : Nat}
          {out' : ArpQueue × List Sent × Nat}, whole'.Holds (l ++ (p, cell') :: r) →
          whole'.free v = some q.list →
          flushQueueFrom sr clock fuel q (r.map Prod.fst).head? j ≠ .ok out' := by
        intro cell' whole' q j out' hholds hfree'
        exact @ih fuel q whole' (l ++ [(p, cell')]) j out' (by simpa using hholds) hv hfree'
      split at hflush
      · split at hflush
        · simp only [bind_ok, getOr_ok] at hflush
          obtain ⟨-, -, list, hunlink, list', hgone, _, hrest, -⟩ := hflush
          obtain ⟨whole₁, hunlink₁, hfree₁⟩ := DList.unlink_of_free hfree hunlink
          obtain ⟨whole₂, hgone₂, hfree₂⟩ := DList.free_of_free hfree₁ hgone
          obtain ⟨_, hunlink', hre, hholds, -⟩ := h.unlink
          obtain rfl := Option.some.inj (hunlink'.symm.trans hunlink₁)
          obtain ⟨_, hgone', -, hholds'⟩ := hholds.free ((hre.value _).trans h.value) (by
            intro hmem
            obtain ⟨c, hc, heq⟩ := List.mem_map.mp hmem
            exact DList.fst_ne_of_nodup h.linked.nodup hc heq)
          obtain rfl := Option.some.inj (hgone'.symm.trans hgone₂)
          exact ih hholds' hv hfree₂ hrest
        · split at hflush
          · simp only [bind_ok, getOr_ok, Memory.setEntry, Except.ok.injEq] at hflush
            obtain ⟨-, -, -, -, -, -, _, ⟨list, hset, rfl⟩, _, hrest, -⟩ := hflush
            obtain ⟨whole₁, hset₁, hfree₁⟩ := DList.setValue_of_free hfree hset
            obtain ⟨_, hset', -, hholds⟩ := h.setValue
              { node.val with
                arpqLastReq := clock (i + 1)
                arpqNumReqs := node.val.arpqNumReqs + 1 }
            obtain rfl := Option.some.inj (hset'.symm.trans hset₁)
            exact hstays hholds hfree₁ hrest
          · exact hstays h hfree hflush
      · exact hstays h hfree hflush

theorem Broken.not_flushed {queue : ArpQueue} (h : Broken queue) {sr : SrInstance}
    {clock : Nat → Nat} {i : Nat} {out : ArpQueue × List Sent × Nat} :
    arpQueueFlush sr clock queue i ≠ .ok out := by
  obtain ⟨whole, l, entry, r, hholds, hfree⟩ := h
  have hfirst : queue.list.first = ((l ++ entry :: r).map Prod.fst).head? := by
    obtain ⟨_, -, hlist⟩ := Option.map_eq_some_iff.mp hfree
    rw [← hholds.linked.first_eq, ← hlist]
  rw [arpQueueFlush, hfirst]
  exact @flushQueueFrom_broken sr clock _ queue whole [] _ entry.1 i out hholds (by simp) hfree

theorem giveUp_broken {sr : SrInstance} {queue queue' : ArpQueue} {l r : List EntryView}
    {v : EntryView} {sent : List Sent} (h : Sound queue (l ++ v :: r))
    (hgive : giveUp sr queue v.addr = .ok (queue', sent)) : Broken queue' := by
  simp only [giveUp, destroyArpqEntry, entryAt, h.value, getOr_some, ok_bind, bind_ok, getOr_ok,
    Except.ok.injEq, Prod.mk.injEq] at hgive
  obtain ⟨-, -, -, ⟨packets, -, list, hfree, rfl⟩, rfl, -⟩ := hgive
  have hholds := h.entries
  rw [List.map_append, List.map_cons] at hholds
  exact ⟨_, _, v.node, _, hholds, hfree⟩

/-- The entry the forwarding branch finds is overdue. -/
def FindsOverdue (queue : ArpQueue) (ip : UInt32) (now : Nat) : Prop :=
  ∃ entry cell, arpQueueLookup queue ip = .ok (some entry) ∧
    queue.list.value entry = some cell ∧ GivenUp now cell.arpqLastReq cell.arpqNumReqs

theorem queuePacket_sound {sr : SrInstance} {clock : Nat → Nat} {queue queue' : ArpQueue}
    {vs : List EntryView} {i : Nat} {arrival : Arrival} {incoming outgoing : FrameT}
    {sent : List Sent} (h : Sound queue vs)
    (hfine : ¬ FindsOverdue queue outgoing.toIp (clock i))
    (hqueue : queuePacket sr clock queue i arrival incoming outgoing = .ok (queue', sent)) :
    ∃ vs', Sound queue' vs' ∧ (Placed queue vs → Placed queue' vs') := by
  simp only [queuePacket, bind_ok] at hqueue
  obtain ⟨found, hfind, hqueue⟩ := hqueue
  cases found with
  | none =>
    refine openEntry_sound h ?_ hqueue
    intro v hv heq
    exact h.find_none _ hfind v hv (beq_iff_eq.mpr heq)
  | some entry =>
    obtain ⟨l, v, r, rfl, rfl, -⟩ := h.find _ hfind
    simp only [touchEntry, entryAt, h.value, getOr_some, ok_bind] at hqueue
    split at hqueue
    next hlate =>
      split at hqueue
      next hmany => exact absurd ⟨v.addr, v.cell, hfind, h.value, hlate, hmany⟩ hfine
      next hfew =>
        split at hqueue
        · simp only [bind_ok] at hqueue
          obtain ⟨q, hset, hjoin⟩ := hqueue
          obtain ⟨vs', hsound, hplaced⟩ := joinEntry_sound (h.setEntry (by rfl) (by rfl) hset) hjoin
          exact ⟨vs', hsound, fun hold => hplaced (hold.setEntry (by rfl) hset)⟩
        · exact joinEntry_sound h hqueue
    next hearly => exact joinEntry_sound h hqueue

theorem queuePacket_broken {sr : SrInstance} {clock : Nat → Nat} {queue queue' : ArpQueue}
    {vs : List EntryView} {i : Nat} {arrival : Arrival} {incoming outgoing : FrameT}
    {sent : List Sent} (h : Sound queue vs)
    (hover : FindsOverdue queue outgoing.toIp (clock i))
    (hqueue : queuePacket sr clock queue i arrival incoming outgoing = .ok (queue', sent)) :
    Broken queue' := by
  obtain ⟨entry, cell, hfind, hvalue, hlate, hmany⟩ := hover
  obtain ⟨l, v, r, rfl, rfl, -⟩ := h.find _ hfind
  simp only [queuePacket, hfind, ok_bind, touchEntry, entryAt, hvalue, getOr_some] at hqueue
  rw [if_pos (show clock i - 1 > cell.arpqLastReq from hlate), if_pos hmany] at hqueue
  exact giveUp_broken h hqueue

end UchiNetworks.Router.Memory
