import UchiNetworks.Router.GiveUp
import UchiNetworks.Router.MessageRoom
import UchiNetworks.Router.Routes

/-!
# The entries of `sr_init`

`sr_init` puts one entry into each of the two lists, for `0.0.0.0` and without
packets. From then on they are entries like any other: an ARP packet from
`0.0.0.0` rewrites the one in the cache, which the flush may then remove, and an
ARP packet from the address that happens to be in its `arpq_next_hop` removes the
one in the queue. `Kept` and `Placed` say what stays true of them, and
`unseen_iff` when the forwarding branch comes across one: it looks up `0.0.0.0`
while the entry is still there.
-/

namespace UchiNetworks.Router.Memory

open UchiNetworks.Lib

/-! ## What the forwarding branch looks up -/

/-- The first address of the memory, where `sr_init` has put its entry, is in the list. -/
def PlaceholderIn {α : Type} (d : DList α) : Prop := ∃ ps, d.Linked ps ∧ 0 ∈ ps

/-- The cache has an entry for the address. -/
def Cached (cache : ArpCache) (ip : UInt32) : Prop :=
  ∃ cells, cache.Holds cells ∧ ∃ c ∈ cells, c.2.arpcIp = ip

/-- A datagram to be forwarded does not bring `0.0.0.0` to a list that has its
placeholder: not as next hop to the cache, and not as destination to the queue,
unless its next hop is in the cache. -/
def Clear (sr : SrInstance) (mem : Option RouterMemory) (c : Call) : Prop :=
  ∀ m, mem = some m → ∀ incoming outgoing hop cache queue j,
    Enters sr m c incoming outgoing hop cache queue j →
      (hop = 0 → ¬ PlaceholderIn cache) ∧
      (outgoing.toIp = 0 → PlaceholderIn queue.list → Cached cache hop)

/-- The lookups of the forwarding branch do not return the placeholders, no
assertion of the branch fails, and a datagram that is sent on goes to the MAC of
another entry of the cache. -/
def Unseen (sr : SrInstance) (mem : Option RouterMemory) (c : Call) : Prop :=
  ∀ m, mem = some m → ∀ incoming outgoing hop cache queue j,
    Enters sr m c incoming outgoing hop cache queue j →
      arpCacheLookup cache hop ≠ .ok (some 0) ∧
      (arpCacheLookup cache hop = .ok none → arpQueueLookup queue outgoing.toIp ≠ .ok (some 0)) ∧
      Avoids .assertion
        (forwardPacket sr c.clock cache queue j (c.arrival m.calls) incoming) ∧
      ∀ queue' sent, forwardPacket sr c.clock cache queue j (c.arrival m.calls) incoming =
          .ok (queue', sent) →
        ∀ s ∈ sent, s.forwards.isSome → ∃ entry e, entry ≠ 0 ∧
          arpCacheLookup cache hop = .ok (some entry) ∧ cache.value entry = some e ∧
          readMac s.frame 0 = some e.arpcMac

/-! ## The assertion -/

theorem assertion_entryAt (queue : ArpQueue) (entry : Nat) :
    Avoids Fault.assertion (entryAt queue entry) := avoids_getOr (by simp) _

theorem assertion_setEntry (queue : ArpQueue) (entry : Nat) (cell : ArpqCell) :
    Avoids Fault.assertion (setEntry queue entry cell) := by
  refine avoids_bind (avoids_getOr (by simp) _) fun list hlist => ?_
  exact avoids_ok _ _

theorem assertion_encapsulate (f : FrameT) : Avoids Fault.assertion (encapsulate f) := by
  simp [encapsulate, avoids_bind_iff, avoids_getOr, avoids_ok]

theorem assertion_sendDatagram (f : Option FrameT) (forwards : Option Arrival) :
    Avoids Fault.assertion (sendDatagram f forwards) := by
  cases f with
  | none => exact avoids_ok _ _
  | some f => simp [sendDatagram, sendPacket, avoids_bind_iff, avoids_getOr, avoids_ok]

theorem assertion_arpCreate (sr : SrInstance) (f : FrameT) (iface : Option SrIf) (op : Nat) :
    Avoids Fault.assertion (arpCreate sr f iface op) := by
  refine avoids_bind (avoids_getOr (by simp) _) fun iface _ => ?_
  refine avoids_bind ?_ fun target _ => assertion_encapsulate _
  refine avoids_ite (fun _ => ?_) fun _ => avoids_ok _ _
  exact avoids_bind (avoids_getOr (by simp) _) fun _ _ => avoids_ok _ _

theorem assertion_hostUnreachable (sr : SrInstance) {p : QueuedPacket}
    (h : p.outgoing.ipHeader.isSome) : Avoids Fault.assertion (hostUnreachable sr p) := by
  unfold hostUnreachable
  refine avoids_generateIcmpError (by simp) ?_ rfl rfl _ _ _
  exact h

theorem assertion_icmpsend (sr : SrInstance) (packets : List QueuedPacket) :
    Avoids Fault.assertion (Router.arpqPacketsIcmpsend sr packets) := by
  induction packets with
  | nil => exact avoids_ok _ _
  | cons packet packets ih =>
    refine avoids_bind (avoids_getOr (by simp) _) fun ip hip => ?_
    refine avoids_bind ?_ fun stuck _ => ?_
    · refine avoids_bind (avoids_getOr (by simp) _) fun proto _ => ?_
      refine avoids_ite (fun _ => ?_) fun _ => avoids_ok _ _
      exact avoids_bind (avoids_getOr (by simp) _) fun _ _ => avoids_ok _ _
    · refine avoids_ite (fun _ => avoids_error (by simp)) fun _ => ?_
      have hplace : packet.outgoing.ipHeader.isSome := by
        rw [getOr_ok.mp hip]
        rfl
      refine avoids_bind (assertion_hostUnreachable sr hplace) fun _ _ => ?_
      refine avoids_bind (avoids_getOr (by simp) _) fun iface _ => ?_
      exact avoids_bind ih fun _ _ => avoids_ok _ _

theorem assertion_packetsFrom (packets : Heap PacketNode) (fuel : Nat) (p : Option Nat) :
    Avoids Fault.assertion (packetsFrom packets fuel p) := by
  induction fuel generalizing p with
  | zero => exact avoids_error (by simp)
  | succ fuel ih =>
    cases p with
    | none => exact avoids_ok _ _
    | some p =>
      refine avoids_bind (avoids_getOr (by simp) _) fun node _ => ?_
      exact avoids_bind (ih _) fun _ _ => avoids_ok _ _

theorem assertion_freePackets (fuel : Nat) (packets : Heap PacketNode) (p : Option Nat) :
    Avoids Fault.assertion (freePackets fuel packets p) := by
  induction fuel generalizing packets p with
  | zero => exact avoids_error (by simp)
  | succ fuel ih =>
    cases p with
    | none => exact avoids_ok _ _
    | some p =>
      refine avoids_bind (avoids_getOr (by simp) _) fun node _ => ?_
      exact avoids_bind (avoids_getOr (by simp) _) fun _ _ => ih _ _

theorem assertion_giveUp (sr : SrInstance) (queue : ArpQueue) (entry : Nat) :
    Avoids Fault.assertion (giveUp sr queue entry) := by
  refine avoids_bind (assertion_entryAt _ _) fun cell _ => ?_
  refine avoids_bind ?_ fun sent _ => ?_
  · exact avoids_bind (assertion_packetsFrom _ _ _) fun _ _ => assertion_icmpsend _ _
  · refine avoids_bind ?_ fun _ _ => avoids_ok _ _
    refine avoids_bind (assertion_entryAt _ _) fun _ _ => ?_
    refine avoids_bind (assertion_freePackets _ _ _) fun _ _ => ?_
    exact avoids_bind (avoids_getOr (by simp) _) fun _ _ => avoids_ok _ _

theorem assertion_addPacket (queue : ArpQueue) (entry : Nat) (packet : FrameT) (oldMAC : Mac)
    (oldIface : Option SrIf) (arrival : Arrival) :
    Avoids Fault.assertion (arpqAddPacket queue entry packet oldMAC oldIface arrival) := by
  refine avoids_bind (assertion_entryAt _ _) fun cell _ => ?_
  cases cell.arpqPackets.first with
  | none => exact assertion_setEntry _ _ _
  | some first =>
    refine avoids_bind (avoids_getOr (by simp) _) fun last _ => ?_
    exact avoids_bind (avoids_getOr (by simp) _) fun _ _ => assertion_setEntry _ _ _

theorem assertion_openEntry (sr : SrInstance) (queue : ArpQueue) (arrival : Arrival)
    (incoming outgoing : FrameT) (now : Nat) :
    Avoids Fault.assertion (openEntry sr queue arrival incoming outgoing now) := by
  refine avoids_bind ?_ fun added _ => ?_
  · refine avoids_bind (assertion_addPacket _ _ _ _ _ _) fun _ _ => ?_
    refine avoids_bind (assertion_entryAt _ _) fun cell _ => ?_
    refine avoids_bind (assertion_setEntry _ _ _) fun _ _ => ?_
    exact avoids_bind (avoids_getOr (by simp) _) fun _ _ => avoids_ok _ _
  · refine avoids_bind (assertion_arpCreate _ _ _ _) fun request _ => ?_
    refine avoids_bind (assertion_entryAt _ _) fun cell _ => ?_
    refine avoids_bind (assertion_setEntry _ _ _) fun _ _ => ?_
    exact avoids_bind (assertion_sendDatagram _ _) fun _ _ => avoids_ok _ _

/-- The one assertion of the branch holds if the entry has a packet. -/
theorem assertion_joinEntry {sr : SrInstance} {queue : ArpQueue} {entry : Nat} {cell : ArpqCell}
    {arrival : Arrival} {incoming outgoing : FrameT} (hcell : queue.list.value entry = some cell)
    (hsome : cell.arpqPackets.first.isSome) :
    Avoids Fault.assertion (joinEntry sr queue entry arrival incoming outgoing) := by
  have hnone : cell.arpqPackets.first.isNone = false := by
    rw [← Option.not_isSome, hsome]
    rfl
  simp only [joinEntry, entryAt, hcell, getOr_some, ok_bind, hnone, Bool.false_eq_true, if_false]
  refine avoids_bind (assertion_addPacket _ _ _ _ _ _) fun _ _ => ?_
  refine avoids_bind (assertion_arpCreate _ _ _ _) fun _ _ => ?_
  exact avoids_bind (assertion_sendDatagram _ _) fun _ _ => avoids_ok _ _

theorem assertion_touchEntry {sr : SrInstance} {clock : Nat → Nat} {queue : ArpQueue}
    {l r : List EntryView} {v : EntryView} {i : Nat} {arrival : Arrival}
    {incoming outgoing : FrameT} (h : Sound queue (l ++ v :: r)) (hpackets : v.packets ≠ []) :
    Avoids Fault.assertion (touchEntry sr clock queue i v.addr arrival incoming outgoing) := by
  have hsome : v.cell.arpqPackets.first.isSome := by
    rw [(h.chained v (by simp)).first, List.isSome_head?]
    exact hpackets
  have hjoin : Avoids Fault.assertion (joinEntry sr queue v.addr arrival incoming outgoing) :=
    assertion_joinEntry h.value hsome
  simp only [touchEntry, entryAt, h.value, getOr_some, ok_bind]
  refine avoids_ite (fun _ => ?_) fun _ => hjoin
  refine avoids_ite (fun _ => assertion_giveUp _ _ _) fun _ => ?_
  refine avoids_ite (fun _ => ?_) fun _ => hjoin
  refine avoids_bind (assertion_setEntry _ _ _) fun q hset => ?_
  have hsound := h.setEntry (by rfl) (by rfl) hset
  exact assertion_joinEntry hsound.value hsome

/-! ## The cache -/

/-- The cache is a list with one entry for each address, and the entry at the
first address of its memory is for `0.0.0.0`; no other can come to be there. -/
structure Kept (cache : ArpCache) (cells : List (Nat × ArpcEntry)) : Prop where
  holds : cache.Holds cells
  distinct : (cells.map fun c => c.2.arpcIp).Nodup
  fresh : 0 < cache.heap.fresh
  placeholder : ∀ c ∈ cells, c.1 = 0 → c.2.arpcIp = 0

theorem Kept.placeholderIn {cache : ArpCache} {cells : List (Nat × ArpcEntry)}
    (h : Kept cache cells) : PlaceholderIn cache ↔ ∃ e, (0, e) ∈ cells := by
  constructor
  · intro hin
    obtain ⟨ps, hlinked, hmem⟩ := hin
    obtain ⟨c, hc, hzero⟩ := List.mem_map.mp ((hlinked.mem_iff h.holds.linked 0).mp hmem)
    exact ⟨c.2, hzero ▸ hc⟩
  · intro hin
    obtain ⟨e, he⟩ := hin
    exact ⟨_, h.holds.linked, List.mem_map_of_mem he⟩

theorem Kept.lookup {cache : ArpCache} {cells : List (Nat × ArpcEntry)} (h : Kept cache cells)
    (ip : UInt32) (entry : Nat) :
    arpCacheLookup cache ip = .ok (some entry) ↔ ∃ e, (entry, e) ∈ cells ∧ e.arpcIp = ip :=
  h.holds.find_key h.distinct _ _ _ _

/-- The lookup finds the placeholder under its key, and under no other. -/
theorem Kept.lookup_zero {cache : ArpCache} {cells : List (Nat × ArpcEntry)}
    (h : Kept cache cells) (ip : UInt32) :
    arpCacheLookup cache ip = .ok (some 0) ↔ ip = 0 ∧ PlaceholderIn cache := by
  rw [h.lookup, h.placeholderIn]
  constructor
  · intro hfound
    obtain ⟨e, he, rfl⟩ := hfound
    exact ⟨h.placeholder _ he rfl, e, he⟩
  · intro hfound
    obtain ⟨rfl, e, he⟩ := hfound
    exact ⟨e, he, h.placeholder _ he rfl⟩

theorem Kept.lookup_none {cache : ArpCache} {cells : List (Nat × ArpcEntry)}
    (h : Kept cache cells) (ip : UInt32) :
    arpCacheLookup cache ip = .ok none ↔ ¬ Cached cache ip := by
  have hfound : Cached cache ip ↔ ∃ entry, arpCacheLookup cache ip = .ok (some entry) := by
    simp only [h.lookup]
    constructor
    · intro hcached
      obtain ⟨cells', hholds, c, hc, hip⟩ := hcached
      have hmem := (hholds.linked.mem_iff h.holds.linked c.1).mp (List.mem_map_of_mem hc)
      obtain ⟨c', hc', hsame⟩ := List.mem_map.mp hmem
      have hval : some c'.2 = some c.2 := by
        rw [← h.holds.values c' hc', hsame, hholds.values c hc]
      exact ⟨c'.1, c'.2, hc', by rw [Option.some.inj hval]; exact hip⟩
    · intro hcell
      obtain ⟨entry, e, he, hip⟩ := hcell
      exact ⟨cells, h.holds, _, he, hip⟩
  rw [hfound]
  constructor
  · intro hnone hsome
    obtain ⟨entry, hentry⟩ := hsome
    rw [hnone] at hentry
    cases hentry
  · intro hsome
    rw [arpCacheLookup, h.holds.find] at hsome ⊢
    cases hfind : cells.find? fun c => c.2.arpcIp == ip with
    | none => rfl
    | some c =>
      rw [hfind] at hsome
      exact absurd ⟨c.1, rfl⟩ hsome

/-- Some entries go. -/
theorem Kept.sublist {cache cache' : ArpCache} {cells cells' : List (Nat × ArpcEntry)}
    (h : Kept cache cells) (hsub : cells'.Sublist cells) (hholds : cache'.Holds cells')
    (hfresh : cache'.heap.fresh = cache.heap.fresh) : Kept cache' cells' where
  holds := hholds
  distinct := h.distinct.sublist (hsub.map _)
  fresh := by
    rw [hfresh]
    exact h.fresh
  placeholder c hc := h.placeholder c (hsub.subset hc)

/-- The flush takes entries out, whatever the clock reads. -/
theorem flushCacheFrom_sublist {clock : Nat → Nat} {fuel : Nat} {cache cache' : ArpCache}
    {l r : List (Nat × ArpcEntry)} {i i' : Nat} (h : cache.Holds (l ++ r))
    (hflush : flushCacheFrom clock fuel cache (r.map Prod.fst).head? i = .ok (cache', i')) :
    ∃ r', r'.Sublist r ∧ cache'.Holds (l ++ r') ∧ cache'.heap.fresh = cache.heap.fresh := by
  induction r generalizing l fuel cache i with
  | nil =>
    cases fuel with
    | zero => cases hflush
    | succ fuel =>
      obtain ⟨rfl, -⟩ := Prod.mk.inj (Except.ok.inj hflush)
      exact ⟨[], List.Sublist.refl _, h, rfl⟩
  | cons c r ih =>
    cases fuel with
    | zero => cases hflush
    | succ fuel =>
      obtain ⟨p, e⟩ := c
      obtain ⟨node, hnode, rfl, -, hnext⟩ := h.node
      have hstays : ∀ j, flushCacheFrom clock fuel cache node.next j = .ok (cache', i') →
          ∃ r', r'.Sublist ((p, node.val) :: r) ∧ cache'.Holds (l ++ r') ∧
            cache'.heap.fresh = cache.heap.fresh := by
        intro j hrest
        rw [hnext] at hrest
        obtain ⟨r', hsub, hholds, hfresh⟩ :=
          @ih fuel cache (l ++ [(p, node.val)]) j (by simpa using h) hrest
        exact ⟨(p, node.val) :: r', hsub.cons_cons _, by simpa using hholds, hfresh⟩
      simp only [List.map_cons, List.head?_cons, flushCacheFrom, hnode, getOr_some,
        ok_bind] at hflush
      split at hflush
      · exact hstays i hflush
      · split at hflush
        · -- it is unlinked and freed
          simp only [bind_ok, getOr_ok] at hflush
          obtain ⟨cache₁, hunlink, node₁, hnode₁, cache₂, hfree, hrest⟩ := hflush
          obtain ⟨_, hunlink', hre, hholds₁, hnext₁⟩ := h.unlink
          obtain rfl := Option.some.inj (hunlink'.symm.trans hunlink)
          obtain ⟨_, hfree', hfresh₂, hholds₂⟩ := hholds₁.free ((hre.value p).trans h.value) (by
            intro hmem
            obtain ⟨c, hc, heq⟩ := List.mem_map.mp hmem
            exact DList.fst_ne_of_nodup h.linked.nodup hc heq)
          obtain rfl := Option.some.inj (hfree'.symm.trans hfree)
          have hnext₁' : node₁.next = (r.map Prod.fst).head? := by
            rw [DList.next, hnode₁] at hnext₁
            exact Option.some.inj hnext₁
          rw [hnext₁'] at hrest
          obtain ⟨r', hsub, hholds, hfresh⟩ := ih hholds₂ hrest
          refine ⟨r', hsub.cons _, hholds, ?_⟩
          rw [hfresh, hfresh₂, DList.unlink_fresh hunlink]
        · exact hstays (i + 1) hflush

theorem Kept.flush {cache cache' : ArpCache} {cells : List (Nat × ArpcEntry)}
    (h : Kept cache cells) {clock : Nat → Nat} {i i' : Nat}
    (hflush : arpCacheFlush clock cache i = .ok (cache', i')) : ∃ cells', Kept cache' cells' := by
  rw [arpCacheFlush, h.holds.linked.first_eq] at hflush
  obtain ⟨cells', hsub, hholds, hfresh⟩ :=
    @flushCacheFrom_sublist clock _ cache cache' [] cells i i' h.holds hflush
  exact ⟨cells', h.sublist hsub hholds hfresh⟩

/-- An entry gets another MAC and another time. -/
theorem Kept.update {cache cache' : ArpCache} {cells : List (Nat × ArpcEntry)}
    (h : Kept cache cells) {ip : UInt32} {entry : Nat} {mac : Mac} {now : Nat}
    (hfound : arpCacheLookup cache ip = .ok (some entry))
    (hupdate : arpCacheUpdate cache entry mac now = .ok cache') :
    ∃ cells', Kept cache' cells' := by
  obtain ⟨e, he, -⟩ := (h.lookup ip entry).mp hfound
  obtain ⟨l, r, rfl⟩ := List.append_of_mem he
  obtain ⟨node, hnode, rfl, -, -⟩ := h.holds.node
  simp only [arpCacheUpdate, hnode, getOr_some, ok_bind, getOr_ok] at hupdate
  obtain ⟨_, hset, hfresh, hholds⟩ := h.holds.setValue
    { node.val with arpcMac := mac, arpcTimeout := now + arpCacheTimeout }
  obtain rfl := Option.some.inj (hset.symm.trans hupdate)
  refine ⟨_, hholds, ?_, by rw [hfresh]; exact h.fresh, ?_⟩
  · have hdistinct := h.distinct
    rw [List.map_append, List.map_cons] at hdistinct ⊢
    exact hdistinct
  · intro c hc hzero
    rcases List.mem_append.mp hc with hc | hc
    · exact h.placeholder c (List.mem_append_left _ hc) hzero
    · rcases List.mem_cons.mp hc with rfl | hc
      · exact h.placeholder (entry, node.val) (by simp) hzero
      · exact h.placeholder c (List.mem_append_right _ (List.mem_cons_of_mem _ hc)) hzero

/-- A new entry, for an address that has none. -/
theorem Kept.add {cache cache' : ArpCache} {cells : List (Nat × ArpcEntry)}
    (h : Kept cache cells) {ip : UInt32} {mac : Mac} {now : Nat}
    (hmiss : arpCacheLookup cache ip = .ok none)
    (hadd : arpCacheAdd cache mac ip now = .ok cache') : ∃ cells', Kept cache' cells' := by
  obtain ⟨_, hlink, hholds⟩ := h.holds.append
    { arpcIp := ip, arpcMac := mac, arpcTimeout := now + arpCacheTimeout }
  rw [arpCacheAdd, getOr_ok] at hadd
  obtain rfl := Option.some.inj (hlink.symm.trans hadd)
  refine ⟨_, hholds, ?_, Nat.lt_of_lt_of_le h.fresh ?_, ?_⟩
  · rw [List.map_append, List.nodup_append]
    refine ⟨h.distinct, List.nodup_singleton _, ?_⟩
    intro x hx y hy heq
    obtain ⟨c, hc, rfl⟩ := List.mem_map.mp hx
    have hy : y = ip := List.mem_singleton.mp hy
    exact (h.lookup_none ip).mp hmiss ⟨cells, h.holds, c, hc, heq.trans hy⟩
  · exact Nat.le_of_lt (hholds.lt_fresh (List.mem_append_right _ (List.mem_singleton.mpr rfl)))
  · intro c hc hzero
    rcases List.mem_append.mp hc with hc | hc
    · exact h.placeholder c hc hzero
    · obtain rfl := List.mem_singleton.mp hc
      exact absurd hzero (Nat.ne_of_gt h.fresh)

theorem Kept.handlepacket {sr : SrInstance} {mem mem' : RouterMemory} {c : Call}
    {cells : List (Nat × ArpcEntry)} (h : Kept mem.cache cells)
    (hcall : srHandlepacket sr mem c = .ok mem') : ∃ cells', Kept mem'.cache cells' := by
  rcases handlepacket_cache hcall with ⟨-, hsame⟩ | ⟨cache, i, j, hflush, hout⟩
  · rw [hsame]
    exact ⟨cells, h⟩
  · obtain ⟨cells', hkept⟩ := h.flush hflush
    cases hout with
    | other _ hcache =>
      rw [hcache]
      exact ⟨cells', hkept⟩
    | refreshed info entry _ hhit hupdate => exact hkept.update hhit hupdate
    | overheard info _ _ _ hcache =>
      rw [hcache]
      exact ⟨cells', hkept⟩
    | learned info target _ hmiss _ hadd => exact hkept.add hmiss hadd

/-! ## The queue -/

theorem Sound.lookup {queue : ArpQueue} {vs : List EntryView} (h : Sound queue vs) (ip : UInt32)
    (entry : Nat) :
    arpQueueLookup queue ip = .ok (some entry) ↔
      ∃ v ∈ vs, v.addr = entry ∧ v.cell.arpqIp = ip := by
  have hnd : ((vs.map EntryView.node).map fun c => c.2.arpqIp).Nodup := by
    rw [List.map_map]
    exact h.distinct
  rw [arpQueueLookup, h.entries.find_key hnd]
  constructor
  · intro hcell
    obtain ⟨cell, hcell, hip⟩ := hcell
    obtain ⟨v, hv, heq⟩ := List.mem_map.mp hcell
    obtain ⟨haddr, rfl⟩ := Prod.mk.inj heq
    exact ⟨v, hv, haddr, hip⟩
  · intro hview
    obtain ⟨v, hv, rfl, hip⟩ := hview
    exact ⟨v.cell, List.mem_map_of_mem hv, hip⟩

theorem Sound.placeholderIn {queue : ArpQueue} {vs : List EntryView} (h : Sound queue vs) :
    PlaceholderIn queue.list ↔ ∃ v ∈ vs, v.addr = 0 := by
  constructor
  · intro hin
    obtain ⟨ps, hlinked, hmem⟩ := hin
    have hmem := (hlinked.mem_iff h.entries.linked 0).mp hmem
    rw [List.map_map] at hmem
    exact List.mem_map.mp hmem
  · intro hview
    obtain ⟨v, hv, hzero⟩ := hview
    refine ⟨_, h.entries.linked, ?_⟩
    rw [List.map_map]
    exact List.mem_map.mpr ⟨v, hv, hzero⟩

theorem Placed.lookup_zero {queue : ArpQueue} {vs : List EntryView} (h : Placed queue vs)
    (hsound : Sound queue vs) (ip : UInt32) :
    arpQueueLookup queue ip = .ok (some 0) ↔ ip = 0 ∧ PlaceholderIn queue.list := by
  rw [hsound.lookup, hsound.placeholderIn]
  constructor
  · intro hfound
    obtain ⟨v, hv, hzero, rfl⟩ := hfound
    exact ⟨(h.proper v hv).1 hzero, v, hv, hzero⟩
  · intro hfound
    obtain ⟨rfl, v, hv, hzero⟩ := hfound
    exact ⟨v, hv, hzero, (h.proper v hv).1 hzero⟩

/-- The branch that queues a packet trips over no entry but the placeholder. -/
theorem Placed.assertion {sr : SrInstance} {clock : Nat → Nat} {queue : ArpQueue}
    {vs : List EntryView} {i : Nat} {arrival : Arrival} {incoming outgoing : FrameT}
    (h : Placed queue vs) (hsound : Sound queue vs)
    (hmiss : arpQueueLookup queue outgoing.toIp ≠ .ok (some 0)) :
    Avoids Fault.assertion (queuePacket sr clock queue i arrival incoming outgoing) := by
  have hlookup := hsound.toFormed.lookup outgoing.toIp
  refine avoids_bind (by rw [hlookup]; exact avoids_ok _ _) fun found hfind => ?_
  cases found with
  | none => exact assertion_openEntry _ _ _ _ _ _
  | some entry =>
    obtain ⟨v, hv, rfl, -⟩ := (hsound.lookup _ _).mp hfind
    have hpackets : v.packets ≠ [] := by
      apply (h.proper v hv).2
      intro hzero
      rw [hzero] at hfind
      exact hmiss hfind
    obtain ⟨l, r, rfl⟩ := List.append_of_mem hv
    exact assertion_touchEntry hsound hpackets

/-! ## What is sent on -/

theorem sendDatagram_forwards {f : Option FrameT} {forwards : Option Arrival} {sent : List Sent}
    (h : sendDatagram f forwards = .ok sent) : ∀ s ∈ sent, s.forwards = forwards := by
  intro s hs
  cases f with
  | none =>
    obtain rfl := Except.ok.inj h
    cases hs
  | some f =>
    simp only [sendDatagram, bind_ok, Except.ok.injEq] at h
    obtain ⟨out, hout, rfl⟩ := h
    obtain rfl := List.mem_singleton.mp hs
    exact (sendPacket_eq hout).2.2

theorem giveUp_forwards {sr : SrInstance} {queue queue' : ArpQueue} {entry : Nat}
    {sent : List Sent} (h : giveUp sr queue entry = .ok (queue', sent)) :
    ∀ s ∈ sent, s.forwards = none := by
  simp only [giveUp, arpqPacketsIcmpsend, bind_ok, Except.ok.injEq, Prod.mk.injEq] at h
  obtain ⟨_, -, _, ⟨_, -, hsent⟩, _, -, -, rfl⟩ := h
  exact arpqPacketsIcmpsend_forwards hsent

theorem joinEntry_forwards {sr : SrInstance} {queue queue' : ArpQueue} {entry : Nat}
    {arrival : Arrival} {incoming outgoing : FrameT} {sent : List Sent}
    (h : joinEntry sr queue entry arrival incoming outgoing = .ok (queue', sent)) :
    ∀ s ∈ sent, s.forwards = none := by
  simp only [joinEntry, bind_ok] at h
  obtain ⟨cell, -, h⟩ := h
  split at h
  · cases h
  · simp only [bind_ok, Except.ok.injEq, Prod.mk.injEq] at h
    obtain ⟨_, -, _, -, _, hsent, -, rfl⟩ := h
    exact sendDatagram_forwards hsent

/-- What is sent for a packet that has to wait forwards nothing. -/
theorem queuePacket_forwards {sr : SrInstance} {clock : Nat → Nat} {queue queue' : ArpQueue}
    {i : Nat} {arrival : Arrival} {incoming outgoing : FrameT} {sent : List Sent}
    (h : queuePacket sr clock queue i arrival incoming outgoing = .ok (queue', sent)) :
    ∀ s ∈ sent, s.forwards = none := by
  simp only [queuePacket, bind_ok] at h
  obtain ⟨found, -, h⟩ := h
  cases found with
  | none =>
    simp only [openEntry, bind_ok, Except.ok.injEq, Prod.mk.injEq] at h
    obtain ⟨_, -, _, -, _, -, _, -, _, hsent, -, rfl⟩ := h
    exact sendDatagram_forwards hsent
  | some entry =>
    simp only [touchEntry, bind_ok] at h
    obtain ⟨cell, -, h⟩ := h
    split at h
    · split at h
      · exact giveUp_forwards h
      · split at h
        · simp only [bind_ok] at h
          obtain ⟨q, -, hjoin⟩ := h
          exact joinEntry_forwards hjoin
        · exact joinEntry_forwards h
    · exact joinEntry_forwards h

/-- A datagram that is sent on goes to the MAC of the entry that was found. -/
theorem forwardPacket_mac {sr : SrInstance} {clock : Nat → Nat} {cache : ArpCache}
    {queue queue' : ArpQueue} {i : Nat} {arrival : Arrival} {incoming outgoing : FrameT}
    {hop : UInt32} {sent : List Sent} (hupd : updateIpHdr sr incoming = .ok (outgoing, hop))
    (h : forwardPacket sr clock cache queue i arrival incoming = .ok (queue', sent)) :
    ∀ s ∈ sent, s.forwards.isSome → ∃ entry e, arpCacheLookup cache hop = .ok (some entry) ∧
      cache.value entry = some e ∧ readMac s.frame 0 = some e.arpcMac := by
  intro s hs hforwards
  simp only [forwardPacket, hupd, ok_bind, bind_ok] at h
  obtain ⟨found, hfind, h⟩ := h
  cases found with
  | none =>
    rw [queuePacket_forwards h s hs] at hforwards
    cases hforwards
  | some entry =>
    simp only [bind_ok, getOr_ok, Except.ok.injEq, Prod.mk.injEq, sendDatagram] at h
    obtain ⟨e, he, out, henc, _, ⟨one, hone, rfl⟩, -, rfl⟩ := h
    obtain rfl := List.mem_singleton.mp hs
    obtain ⟨toMAC, frame, hto, rfl, -, hmac, -⟩ := encapsulate_eq henc
    obtain rfl : e.arpcMac = toMAC := Option.some.inj hto
    refine ⟨entry, e, hfind, he, ?_⟩
    rw [(sendPacket_eq hone).2.1]
    exact hmac

/-! ## Runs -/

/-- What holds between two calls. After a call that has given up on an entry while
forwarding the queue is broken, and no call that flushes it returns. -/
structure Tidy (mem : RouterMemory) : Prop where
  cache : ∃ cells, Kept mem.cache cells
  queue : (∃ vs, Sound mem.queue vs ∧ Placed mem.queue vs) ∨ Broken mem.queue

theorem tidy_init (sr : SrInstance) : Tidy (srInit sr) := by
  refine ⟨⟨_, DList.holds_singleton rfl rfl rfl, ?_, ?_, ?_⟩, Or.inl ?_⟩
  · exact List.nodup_singleton _
  · exact Nat.succ_pos _
  · intro c hc _
    rw [List.mem_singleton.mp hc]
  · exact placed_init sr

theorem Tidy.handlepacket {sr : SrInstance} {mem mem' : RouterMemory} {c : Call} (h : Tidy mem)
    (hcall : srHandlepacket sr mem c = .ok mem') : Tidy mem' := by
  obtain ⟨cells, hkept⟩ := h.cache
  refine ⟨hkept.handlepacket hcall, ?_⟩
  rcases h.queue with ⟨vs, hsound, hplaced⟩ | hbroken
  · by_cases hgives : GivesUp sr mem c
    · exact Or.inr (handlepacket_broken hsound hgives hcall)
    · obtain ⟨vs', hsound', hplaced'⟩ := handlepacket_sound hsound hgives hcall
      exact Or.inl ⟨vs', hsound', hplaced' hplaced⟩
  · -- only a frame that is too short to look at gets by
    simp only [srHandlepacket] at hcall
    split at hcall
    · obtain rfl := Except.ok.inj hcall
      exact Or.inr hbroken
    · simp only [bind_ok] at hcall
      obtain ⟨_, -, _, -, _, hflush, -⟩ := hcall
      exact absurd hflush hbroken.not_flushed

/-- The lists as the forwarding branch finds them. -/
theorem Tidy.enters {sr : SrInstance} {mem : RouterMemory} {c : Call} {incoming outgoing : FrameT}
    {hop : UInt32} {cache : ArpCache} {queue : ArpQueue} {j : Nat} (h : Tidy mem)
    (hent : Enters sr mem c incoming outgoing hop cache queue j) :
    (∃ cells, Kept cache cells) ∧ ∃ vs, Sound queue vs ∧ Placed queue vs := by
  obtain ⟨i, sent, hcache, hqueue⟩ := hent.flushed
  obtain ⟨cells, hkept⟩ := h.cache
  refine ⟨hkept.flush hcache, ?_⟩
  rcases h.queue with ⟨vs, hsound, hplaced⟩ | hbroken
  · obtain ⟨vs', hsound', -, hplaced'⟩ := arpQueueFlush_sound hsound hqueue
    exact ⟨vs', hsound', hplaced' hplaced⟩
  · exact absurd hqueue hbroken.not_flushed

theorem Tidy.clear_iff {sr : SrInstance} {mem : Option RouterMemory} {c : Call}
    (h : ∀ m, mem = some m → Tidy m) : Clear sr mem c ↔ Unseen sr mem c := by
  constructor
  · intro hclear m hm incoming outgoing hop cache queue j hent
    obtain ⟨⟨cells, hkept⟩, vs, hsound, hplaced⟩ := (h m hm).enters hent
    obtain ⟨hhop, hip⟩ := hclear m hm incoming outgoing hop cache queue j hent
    have hcache : arpCacheLookup cache hop ≠ .ok (some 0) := by
      intro hzero
      obtain ⟨hhop0, hin⟩ := (hkept.lookup_zero hop).mp hzero
      exact hhop hhop0 hin
    have hqueue : arpCacheLookup cache hop = .ok none →
        arpQueueLookup queue outgoing.toIp ≠ .ok (some 0) := by
      intro hmiss hzero
      obtain ⟨hip0, hin⟩ := (hplaced.lookup_zero hsound outgoing.toIp).mp hzero
      exact (hkept.lookup_none hop).mp hmiss (hip hip0 hin)
    refine ⟨hcache, hqueue, ?_, ?_⟩
    · simp only [forwardPacket, hent.updated, ok_bind]
      refine avoids_bind (by rw [arpCacheLookup, hkept.holds.find]; exact avoids_ok _ _)
        fun found hfind => ?_
      cases found with
      | none => exact hplaced.assertion hsound (hqueue hfind)
      | some entry =>
        refine avoids_bind (avoids_getOr (by simp) _) fun e _ => ?_
        refine avoids_bind (assertion_encapsulate _) fun _ _ => ?_
        exact avoids_bind (assertion_sendDatagram _ _) fun _ _ => avoids_ok _ _
    · intro queue' sent hforward s hs hforwards
      obtain ⟨entry, e, hfind, he, hmac⟩ := forwardPacket_mac hent.updated hforward s hs hforwards
      refine ⟨entry, e, ?_, hfind, he, hmac⟩
      intro hzero
      rw [hzero] at hfind
      exact hcache hfind
  · intro hunseen m hm incoming outgoing hop cache queue j hent
    obtain ⟨⟨cells, hkept⟩, vs, hsound, hplaced⟩ := (h m hm).enters hent
    obtain ⟨hcache, hqueue, -⟩ := hunseen m hm incoming outgoing hop cache queue j hent
    refine ⟨fun hhop hin => hcache ((hkept.lookup_zero hop).mpr ⟨hhop, hin⟩), fun hip hin => ?_⟩
    by_contra hmiss
    exact hqueue ((hkept.lookup_none hop).mpr hmiss)
      ((hplaced.lookup_zero hsound outgoing.toIp).mpr ⟨hip, hin⟩)

theorem tidy_start (sr : SrInstance) : ∀ m, some (srInit sr) = some m → Tidy m := by
  intro m hm
  obtain rfl := Option.some.inj hm
  exact tidy_init sr

theorem tidy_step {sr : SrInstance} {mem : Option RouterMemory} {c : Call}
    (h : ∀ m, mem = some m → Tidy m) : ∀ m, step sr mem c = some m → Tidy m := by
  intro m hm
  obtain ⟨mid, hmid, hcall⟩ := step_eq_some hm
  exact (h mid hmid).handlepacket hcall

/-- **The forwarding branch does not come across the entries of `sr_init` exactly if
no datagram brings `0.0.0.0` to a list that still has its own.** -/
theorem unseen_iff (sr : SrInstance) (calls : List Call) :
    Along (step sr) (Unseen sr) (some (srInit sr)) calls ↔
      Along (step sr) (Clear sr) (some (srInit sr)) calls := by
  exact (along_iff (fun mem => ∀ m, mem = some m → Tidy m) (fun mem c htidy => Tidy.clear_iff htidy)
    (fun mem c htidy _ => tidy_step htidy) (tidy_start sr)).symm

/-! ## Without `0.0.0.0` -/

/-- The keys of a datagram: the gateway of a route, and the address it is for. -/
theorem Enters.keys {sr : SrInstance} {mem : RouterMemory} {c : Call}
    {incoming outgoing : FrameT} {hop : UInt32} {cache : ArpCache} {queue : ArpQueue} {j : Nat}
    (h : Enters sr mem c incoming outgoing hop cache queue j) :
    (∃ rt ∈ sr.routingTable, rt.gw = hop) ∧
      readU32 c.packet (etherSize + 16) = some outgoing.toIp := by
  obtain ⟨created, hcreated, hsome, hcheck⟩ := h.accepted.created
  cases createFrameT_spec hcreated with
  | arp _ _ hip _ => simp [hip] at hsome
  | ip _ _ hip _ hdst =>
    obtain ⟨frame, rfl, -, -, -, hverifies, -⟩ := checkIp_spec hip hcheck
    obtain ⟨hspec, -⟩ := updateIpHdr_spec h.updated hverifies
    obtain ⟨rt, -, hmatch, hgw, -⟩ := hspec.route
    refine ⟨⟨rt, rtMatch_mem hmatch, hgw⟩, ?_⟩
    rw [hspec.toIp]
    exact hdst

/-- With gateways in all routes, datagrams to other addresses never come across the
entries of `sr_init`. -/
theorem unseen_of_nonzero {sr : SrInstance} {calls : List Call}
    (hgw : ∀ rt ∈ sr.routingTable, rt.gw ≠ 0)
    (hdst : ∀ c ∈ calls, readU32 c.packet (etherSize + 16) ≠ some 0) :
    Along (step sr) (Unseen sr) (some (srInit sr)) calls := by
  apply along_of_invariant (fun mem => ∀ m, mem = some m → Tidy m) ?_ ?_
    (along_events.mpr hdst) (tidy_start sr)
  · exact fun mem c _ htidy => tidy_step htidy
  · intro mem c hc htidy
    apply (Tidy.clear_iff htidy).mp
    intro m hm incoming outgoing hop cache queue j hent
    obtain ⟨⟨rt, hrt, rfl⟩, hip⟩ := hent.keys
    refine ⟨fun hzero => absurd hzero (hgw rt hrt), fun hzero => ?_⟩
    rw [hzero] at hip
    exact absurd hip hc

/-- A UDP datagram from `10.0.1.9` to `0.0.0.0`, with its checksum. -/
def datagramToAny : Bytes :=
  [2, 0, 0, 0, 0, 1, 2, 0, 0, 0, 0, 3, 8, 0, 69, 0, 0, 28, 0, 0, 0, 0, 64, 17, 111, 201,
    10, 0, 1, 9, 0, 0, 0, 0, 1, 2, 3, 4, 5, 6, 7, 8]

def callToAny : Call :=
  { packet := datagramToAny, interface := [0x65], clock := fun _ => 100 }

/-- What `create_frame_t` makes of it. -/
def frameToAny : FrameT :=
  { frame := datagramToAny
    ipHeader := some etherSize
    arpHeader := none
    icmpHeader := none
    fromMAC := ⟨[2, 0, 0, 0, 0, 3], rfl⟩
    toMAC := (getInterface gatewayRouter [0x65]).map SrIf.addr
    fromIp := 0x0901000a
    toIp := 0
    iface := getInterface gatewayRouter [0x65]
    ipHl := ipHdrLen
    ipLen := some 28 }

theorem frameToAny_accepted : Accepted gatewayRouter (callToAny.arrival 0) frameToAny where
  long := by decide
  created := ⟨frameToAny, by decide +kernel, rfl, by decide +kernel⟩
  notOurs := by decide +kernel
  ttl := ⟨64, rfl, by decide⟩

/-- The entry of the queue for `0.0.0.0` is found, and has no packet. -/
theorem datagramToAny_asserts :
    ¬ ∀ (sr : SrInstance) (calls : List Call),
      Along (step sr) (Unseen sr) (some (srInit sr)) calls := by
  intro hall
  have hunseen := (hall gatewayRouter [callToAny]).1
  obtain ⟨⟨outgoing, hop⟩, hupdated⟩ : ∃ out, updateIpHdr gatewayRouter frameToAny = .ok out := by
    have hsome : (updateIpHdr gatewayRouter frameToAny).toOption.isSome = true := by
      decide +kernel
    cases hupd : updateIpHdr gatewayRouter frameToAny with
    | error e =>
      rw [hupd] at hsome
      cases hsome
    | ok out => exact ⟨out, rfl⟩
  have hent : Enters gatewayRouter (srInit gatewayRouter) callToAny frameToAny outgoing hop
      (srInit gatewayRouter).cache (srInit gatewayRouter).queue 1 :=
    { accepted := frameToAny_accepted
      updated := hupdated
      flushed := ⟨0, [], by decide +kernel, by decide +kernel⟩ }
  obtain ⟨-, -, hassert, -⟩ := hunseen _ rfl _ _ _ _ _ _ hent
  have hforward : forwardPacket gatewayRouter callToAny.clock (srInit gatewayRouter).cache
      (srInit gatewayRouter).queue 1 (callToAny.arrival 0) frameToAny = .error .assertion := by
    decide +kernel
  exact hassert hforward

end UchiNetworks.Router.Memory
