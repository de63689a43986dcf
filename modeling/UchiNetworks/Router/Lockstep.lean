import UchiNetworks.Lib.Alike
import UchiNetworks.Router.CacheMap
import UchiNetworks.Router.QueueFlush

/-!
# The router in memory is the router of lists

`Router.Handle` has the cache and the queue as lists, `Router.Memory` has them as
nodes that point at each other. `Queues` relates the two queues, as `Stores`
relates the two caches: an entry in memory holds what the entry in the list
holds, and its chain of packets is the list of its packets (`Views`). Every
function on the queue goes alike on both sides, faults included, as long as
`time(NULL)` stands still during a call. The one place where the two could part
is an entry that is destroyed while it is still linked (`giveUp`); with a clock
that stands still the flush has taken such an entry out before.
-/

namespace UchiNetworks.Router.Memory

open UchiNetworks.Lib

/-! ## Entries -/

/-- An entry in memory and the entry of the list. When its requests were sent is
not in memory. -/
structure Views (packets : Heap PacketNode) (v : EntryView) (e : ArpqEntry) : Prop where
  ip : e.arpqIp = v.cell.arpqIp
  nextHop : e.arpqNextHop = v.cell.arpqNextHop
  packets : e.arpqPackets = contents packets v.packets
  lastReq : e.arpqLastReq = v.cell.arpqLastReq
  numReqs : e.arpqNumReqs = v.cell.arpqNumReqs

/-- The packets of these entries are as they were. -/
def Untouched (packets packets' : Heap PacketNode) (vs : List EntryView) : Prop :=
  ∀ v ∈ vs, ∀ p ∈ v.packets, packets'.read p = packets.read p

theorem contents_congr {packets packets' : Heap PacketNode} {ps : List Nat}
    (h : ∀ p ∈ ps, (packets'.read p).map PacketNode.packet
      = (packets.read p).map PacketNode.packet) :
    contents packets' ps = contents packets ps :=
  List.filterMap_congr h

theorem contents_append (packets : Heap PacketNode) (ps qs : List Nat) :
    contents packets (ps ++ qs) = contents packets ps ++ contents packets qs :=
  List.filterMap_append

theorem Views.congr {packets packets' : Heap PacketNode} {v : EntryView} {e : ArpqEntry}
    (h : Views packets v e) (hsame : ∀ p ∈ v.packets, packets'.read p = packets.read p) :
    Views packets' v e :=
  ⟨h.ip, h.nextHop,
    h.packets.trans (contents_congr fun p hp => by rw [hsame p hp]).symm, h.lastReq, h.numReqs⟩

theorem views_congr {packets packets' : Heap PacketNode} {vs : List EntryView}
    {es : List ArpqEntry} (h : List.Forall₂ (Views packets) vs es)
    (hsame : Untouched packets packets' vs) : List.Forall₂ (Views packets') vs es := by
  induction h with
  | nil => exact .nil
  | cons hv _ ih =>
    exact .cons (hv.congr (hsame _ List.mem_cons_self))
      (ih fun w hw => hsame w (List.mem_cons_of_mem _ hw))

/-- The queue in memory is the list `es`. -/
def Queues (queue : ArpQueue) (es : List ArpqEntry) : Prop :=
  ∃ vs, Sound queue vs ∧ List.Forall₂ (Views queue.packets) vs es

/-- A chain with packets in it has a first one. -/
theorem Chained.isEmpty {packets : Heap PacketNode} {arpqPackets : Packetq} {ps : List Nat}
    (h : Chained packets arpqPackets ps) :
    (contents packets ps).isEmpty = arpqPackets.first.isNone := by
  rw [h.first]
  cases ps with
  | nil => rfl
  | cons p ps =>
    obtain ⟨node, hnode⟩ := h.live (p := p) List.mem_cons_self
    rw [contents_cons hnode]
    rfl

/-! ## The flush -/

theorem Chained.icmpsend_eq {queue : ArpQueue} {arpqPackets : Packetq} {ps : List Nat}
    (h : Chained queue.packets arpqPackets ps) (sr : SrInstance) :
    arpqPacketsIcmpsend sr queue arpqPackets
      = Router.arpqPacketsIcmpsend sr (contents queue.packets ps) := by
  have hread := @Chained.packetsFrom queue.packets arpqPackets [] ps h (queue.packets.fresh + 1)
    (Nat.lt_succ_of_le h.length_le)
  rw [Memory.arpqPacketsIcmpsend, h.first, hread, ok_bind]

/-- What the flush leaves on both sides. -/
structure FlushedTo (now : Nat) (packets : Heap PacketNode) (l : List EntryView)
    (x : ArpQueue × List Sent × Nat) (y : List ArpqEntry × List Sent) : Prop where
  sent : x.2.1 = y.2
  kept : x.1.packets = packets
  entries : ∃ vs, Sound x.1 (l ++ vs) ∧ List.Forall₂ (Views packets) vs y.1 ∧
    ∀ v ∈ vs, ¬ GivenUp now v.cell.arpqLastReq v.cell.arpqNumReqs

/-- One more entry that stays. -/
theorem FlushedTo.stays {now : Nat} {packets : Heap PacketNode} {l : List EntryView}
    {v : EntryView} {e : ArpqEntry} {x : ArpQueue × List Sent × Nat}
    {y : List ArpqEntry × List Sent} (h : FlushedTo now packets (l ++ [v]) x y)
    (hv : Views packets v e) (hdue : ¬ GivenUp now v.cell.arpqLastReq v.cell.arpqNumReqs)
    (sent : List Sent) :
    FlushedTo now packets l (x.1, sent ++ x.2.1, x.2.2) (e :: y.1, sent ++ y.2) := by
  obtain ⟨hsent, hkept, vs, hsound, hviews, hnone⟩ := h
  refine ⟨by rw [hsent], hkept, v :: vs, by simpa using hsound, .cons hv hviews, ?_⟩
  intro w hw
  obtain rfl | hw := List.mem_cons.mp hw
  · exact hdue
  · exact hnone w hw

theorem arpQueueFlush_cons (sr : SrInstance) (now : Nat) (entry : ArpqEntry)
    (rest : List ArpqEntry) :
    Router.arpQueueFlush sr now (entry :: rest) = flushEntry sr now entry >>= fun x =>
      Router.arpQueueFlush sr now rest >>= fun y => .ok (x.1.toList ++ y.1, x.2 ++ y.2) := rfl

theorem flushQueueFrom_alike {sr : SrInstance} {clock : Nat → Nat} {now : Nat}
    (hclock : ∀ j, clock j = now) {fuel : Nat} {queue : ArpQueue} {l r : List EntryView}
    {es : List ArpqEntry} {i : Nat} (h : Sound queue (l ++ r))
    (hviews : List.Forall₂ (Views queue.packets) r es) (hfuel : r.length < fuel) :
    Alike (FlushedTo now queue.packets l)
      (flushQueueFrom sr clock fuel queue (r.map EntryView.addr).head? i)
      (Router.arpQueueFlush sr now es) := by
  induction r generalizing l es fuel queue i with
  | nil =>
    obtain ⟨n, rfl⟩ : ∃ n, fuel = n + 1 := ⟨fuel - 1, by simp at hfuel; omega⟩
    cases hviews
    exact .ok ⟨rfl, rfl, [], h, .nil, fun v hv => by cases hv⟩
  | cons v r ih =>
    obtain ⟨n, rfl⟩ : ∃ n, fuel = n + 1 := ⟨fuel - 1, by simp at hfuel; omega⟩
    have hn : r.length < n := by simpa using hfuel
    obtain ⟨node, hnode, hval, -, hnext⟩ := h.split.node
    rw [List.map_map] at hnext
    replace hnext : node.next = (r.map EntryView.addr).head? := hnext
    have hchain := h.chained v (by simp)
    cases hviews with
    | @cons _ e _ es hv hrest =>
      rw [arpQueueFlush_cons]
      simp only [List.map_cons, List.head?_cons, flushQueueFrom, hnode, getOr_some, ok_bind, hval,
        hclock, hnext, flushEntry, hv.lastReq, hv.numReqs, hv.packets]
      -- nothing is done for the entry
      have hquiet : ¬ GivenUp now v.cell.arpqLastReq v.cell.arpqNumReqs →
          Alike (FlushedTo now queue.packets l)
          (flushQueueFrom sr clock n queue (r.map EntryView.addr).head? (i + 1))
          (Router.arpQueueFlush sr now es >>= fun y => .ok (e :: y.1, y.2)) := by
        intro hdue
        apply (@ih n queue (l ++ [v]) es (i + 1) h.stays hrest hn).bind_right
        intro x y hxy
        exact .ok (hxy.stays hv hdue [])
      split
      next hidle =>
        split
        next hmany =>
          -- it is given up: unlinked and freed
          rw [hchain.icmpsend_eq, bind_assoc]
          apply alike_same
          intro sent _
          obtain ⟨list₁, hunlink, hvalue, hout, hsound₁⟩ := h.remove
          obtain ⟨list₂, hfree, hsound₂⟩ := hsound₁.free hvalue hout
          rw [hunlink, getOr_some, ok_bind, hfree, getOr_some, ok_bind, ok_bind]
          apply (@ih n _ l es (i + 1) hsound₂ hrest hn).bind
          intro x y hxy
          exact .ok ⟨by rw [hxy.sent], hxy.kept, hxy.entries⟩
        next hfew =>
          split
          next first hfirst =>
            -- it gets another request, for its first packet
            obtain ⟨ps, hps⟩ : ∃ ps, v.packets = first :: ps := by
              rw [hchain.first] at hfirst
              exact List.head?_eq_some_iff.mp hfirst
            obtain ⟨old, hold⟩ := hchain.live (p := first)
              (by rw [hps]; exact List.mem_cons_self)
            have hcontents : contents queue.packets v.packets
                = old.packet :: contents queue.packets ps := by
              rw [hps, contents_cons hold]
            rw [hold, getOr_some, ok_bind, hcontents, bind_assoc]
            apply alike_same
            intro arpReq _
            rw [bind_assoc]
            apply alike_same
            intro sent _
            let asked : ArpqCell :=
              { v.cell with arpqLastReq := now, arpqNumReqs := v.cell.arpqNumReqs + 1 }
            obtain ⟨list₁, hset, hsound₁⟩ := h.exists_setEntry
              (show asked.arpqIp = v.cell.arpqIp from rfl) rfl
            rw [hset, ok_bind, ok_bind]
            apply (@ih n { queue with list := list₁ } (l ++ [{ v with cell := asked }]) es (i + 2)
              hsound₁.stays hrest hn).bind
            intro x y hxy
            have hviewed : Views queue.packets { v with cell := asked }
                { e with
                  arpqPackets := old.packet :: contents queue.packets ps
                  arpqLastReq := now
                  arpqNumReqs := v.cell.arpqNumReqs + 1
                  requests := now :: e.requests } :=
              ⟨hv.ip, hv.nextHop, hcontents.symm, rfl, rfl⟩
            exact .ok (hxy.stays hviewed
              (fun hdue => Nat.not_lt.mpr (Nat.sub_le now 1) hdue.1) [sent])
          next hnone =>
            have hempty : contents queue.packets v.packets = [] := by
              rw [← List.isEmpty_iff, hchain.isEmpty, hnone]
              rfl
            rw [hempty, ok_bind]
            exact hquiet fun hdue => hfew hdue.2
      next hearly =>
        rw [ok_bind]
        exact hquiet fun hdue => hearly hdue.1

theorem Sound.flush_alike {sr : SrInstance} {clock : Nat → Nat} {now : Nat}
    (hclock : ∀ j, clock j = now) {queue : ArpQueue} {vs : List EntryView} {es : List ArpqEntry}
    (h : Sound queue vs) (hviews : List.Forall₂ (Views queue.packets) vs es) (i : Nat) :
    Alike (FlushedTo now queue.packets []) (arpQueueFlush sr clock queue i)
      (Router.arpQueueFlush sr now es) := by
  have hfirst : queue.list.first = (vs.map EntryView.addr).head? := by
    rw [h.entries.linked.first_eq, List.map_map]
    rfl
  have hlen := h.entries.linked.length_le
  rw [List.length_map, List.length_map] at hlen
  rw [arpQueueFlush, hfirst]
  exact @flushQueueFrom_alike sr clock now hclock _ queue [] vs es i h hviews
    (Nat.lt_succ_of_le hlen)

/-! ## A reply clears an entry -/

/-- The first packet of an entry is taken out. -/
theorem Sound.exists_pop {queue : ArpQueue} {l r : List EntryView} {v : EntryView} {first : Nat}
    {ps : List Nat} {node : PacketNode} (h : Sound queue (l ++ v :: r))
    (hps : v.packets = first :: ps) (hread : queue.packets.read first = some node)
    {cell : ArpqCell} (hcell : cell = { v.cell with
      arpqPackets := { first := node.next
                       last := if node.next.isNone then none else v.cell.arpqPackets.last } }) :
    ∃ list packets, Memory.setEntry queue v.addr cell = .ok { queue with list := list } ∧
      queue.packets.free first = some packets ∧
      (∀ p, packets.read p = if p = first then none else queue.packets.read p) ∧
      Sound { list := list, packets := packets }
        (l ++ { v with cell := cell, packets := ps } :: r) := by
  have hchain := h.chained v (by simp)
  rw [hps] at hchain
  obtain ⟨packets, hfree, -, hgone⟩ := Heap.free_spec hread
  have hpop := (hchain.pop hread hgone).2
  obtain ⟨list, hlist, hsound⟩ := @Sound.replace queue l r v h cell packets ps
    (by rw [hcell]) (by rw [hcell]; exact hpop)
    (by
      intro w hw
      apply (h.chained_around w hw).congr
      intro p hp
      rw [hgone, if_neg]
      intro heq
      exact h.not_mem (hps ▸ List.mem_cons_self) hw (heq ▸ hp))
    (by
      have hapart := h.apart
      rw [List.flatMap_append, List.flatMap_cons, hps] at hapart
      rw [List.flatMap_append, List.flatMap_cons]
      exact hapart.sublist ((List.Sublist.refl _).append
        ((List.sublist_cons_self _ _).append (List.Sublist.refl _))))
  refine ⟨list, packets, ?_, hfree, hgone, hsound⟩
  rw [Memory.setEntry, hlist, getOr_some, ok_bind]

/-- The packets of an entry have been sent, those of the others are as they were. -/
structure Cleared (queue : ArpQueue) (l r : List EntryView) (addr : Nat)
    (x : ArpQueue × List Sent) (y : List Sent) : Prop where
  sent : x.2 = y
  entry : ∃ v, v.addr = addr ∧ v.cell.arpqPackets.first = none ∧ Sound x.1 (l ++ v :: r)
  others : Untouched queue.packets x.1.packets (l ++ r)

theorem clearPackets_alike {dHa : Mac} {fuel : Nat} {queue : ArpQueue} {l r : List EntryView}
    {v : EntryView} (h : Sound queue (l ++ v :: r)) (hfuel : v.packets.length < fuel) :
    Alike (Cleared queue l r v.addr) (clearPackets dHa v.addr fuel queue)
      (Router.arpqEntryClear dHa (contents queue.packets v.packets)) := by
  induction fuel generalizing queue v with
  | zero => exact absurd hfuel (Nat.not_lt_zero _)
  | succ fuel ih =>
    have hchain := h.chained v (by simp)
    simp only [clearPackets, entryAt, h.value, getOr_some, ok_bind]
    split
    next hnone =>
      have hempty : contents queue.packets v.packets = [] := by
        rw [← List.isEmpty_iff, hchain.isEmpty, hnone]
        rfl
      rw [hempty]
      exact .ok ⟨rfl, ⟨v, rfl, hnone, h⟩, fun w _ p _ => rfl⟩
    next first hfirst =>
      obtain ⟨ps, hps⟩ : ∃ ps, v.packets = first :: ps := by
        rw [hchain.first] at hfirst
        exact List.head?_eq_some_iff.mp hfirst
      obtain ⟨node, hread⟩ := hchain.live (p := first) (by rw [hps]; exact List.mem_cons_self)
      have hcontents : contents queue.packets v.packets
          = node.packet :: contents queue.packets ps := by
        rw [hps, contents_cons hread]
      obtain ⟨list, packets, hset, hfree, hgone, hsound⟩ := h.exists_pop hps hread rfl
      have hfirstOut : first ∉ ps := by
        have hnodup := hchain.nodup
        rw [hps] at hnodup
        exact (List.nodup_cons.mp hnodup).1
      have hkept : ∀ p, p ≠ first → packets.read p = queue.packets.read p := by
        intro p hp
        rw [hgone, if_neg hp]
      rw [hread, getOr_some, ok_bind, hcontents, Router.arpqEntryClear]
      apply alike_same
      intro iface _
      apply alike_same
      intro outgoing _
      apply alike_same
      intro sent _
      rw [hset, ok_bind, hfree, getOr_some, ok_bind]
      have hrest := @ih { list := list, packets := packets } _ hsound
        (by rw [hps] at hfuel; simpa using hfuel)
      rw [show contents packets ps = contents queue.packets ps from
        contents_congr fun p hp => by rw [hkept p fun heq => hfirstOut (heq ▸ hp)]] at hrest
      apply hrest.bind
      intro x y hxy
      refine .ok ⟨by rw [hxy.sent], hxy.entry, fun w hw p hp => ?_⟩
      rw [hxy.others w hw p hp]
      apply hkept
      intro heq
      exact h.not_mem (by rw [hps]; exact List.mem_cons_self) hw (heq ▸ hp)

/-- `arpq_entry_clear` takes the entry out, wherever it is in the queue. -/
theorem Sound.entryClear_alike {queue : ArpQueue} {l r : List EntryView} {v : EntryView}
    (h : Sound queue (l ++ v :: r)) (dHa : Mac) :
    Alike (fun x y => x.2 = y ∧ Sound x.1 (l ++ r) ∧ Untouched queue.packets x.1.packets (l ++ r))
      (arpqEntryClear queue v.addr dHa)
      (Router.arpqEntryClear dHa (contents queue.packets v.packets)) := by
  have hlen := (h.chained v (by simp)).length_le
  apply (clearPackets_alike h (Nat.lt_succ_of_le hlen)).bind_left
  intro x y hxy
  obtain ⟨queue', sent⟩ := x
  obtain ⟨v', haddr, hfirst, hsound⟩ := hxy.entry
  obtain ⟨node, hnode, -⟩ := DList.exists_node hsound.value
  obtain ⟨list, hunlink, hvalue, hout, hsound₁⟩ := hsound.remove
  rw [haddr] at hnode hunlink hvalue hout
  simp only [hnode, hunlink, getOr_some, ok_bind]
  split
  · -- `destroy_arpq_entry` finds no packet any more
    obtain ⟨list', hfree, hsound₂⟩ := hsound₁.free hvalue hout
    simp only [destroyArpqEntry, entryAt, hvalue, hfirst, freePackets, hfree, getOr_some, ok_bind]
    exact .ok ⟨hxy.sent, hsound₂, hxy.others⟩
  · exact .ok ⟨hxy.sent, hsound₁, hxy.others⟩

/-! ## A packet joins -/

/-- `arpq_add_packet` on an entry that has packets. -/
theorem Sound.exists_join {queue : ArpQueue} {l r : List EntryView} {v : EntryView}
    (h : Sound queue (l ++ v :: r)) (hsome : v.packets ≠ []) (packet : FrameT) (oldMAC : Mac)
    (oldIface : Option SrIf) (arrival : Arrival) :
    ∃ queue' v', arpqAddPacket queue v.addr packet oldMAC oldIface arrival = .ok queue' ∧
      Sound queue' (l ++ v' :: r) ∧ Untouched queue.packets queue'.packets (l ++ r) ∧
      ∀ e, Views queue.packets v e →
        Views queue'.packets v' (Router.arpqAddPacket e packet oldMAC oldIface arrival) := by
  have hchain := h.chained v (by simp)
  obtain ⟨z, hz⟩ : ∃ z, v.packets.getLast? = some z :=
    ⟨_, List.getLast?_eq_some_getLast hsome⟩
  have hlast : v.cell.arpqPackets.last = some z := hchain.last.trans hz
  obtain ⟨first, hfirst⟩ : ∃ first, v.cell.arpqPackets.first = some first := by
    rw [hchain.first]
    exact Option.isSome_iff_exists.mp (List.isSome_head?.mpr hsome)
  obtain ⟨node, hnode⟩ := hchain.live (List.mem_of_getLast? hz)
  let new : QueuedPacket :=
    { fromMAC := oldMAC, fromIface := oldIface, outgoing := packet, arrival := arrival }
  have hzne : z ≠ queue.packets.fresh := Nat.ne_of_lt (Heap.lt_of_read hnode)
  have hnode' : (queue.packets.alloc { packet := new, next := none }).read z = some node := by
    rw [Heap.read_alloc, if_neg hzne, hnode]
  obtain ⟨packets, hmodify, -, hread⟩ := Heap.modify_spec hnode'
    fun node => { node with next := some queue.packets.fresh }
  obtain ⟨hmem, hjoined, hother⟩ := hchain.join hlast hmodify
  let cell : ArpqCell :=
    { v.cell with
      arpqNumReqs := v.cell.arpqNumReqs + 1
      arpqPackets := { v.cell.arpqPackets with last := some queue.packets.fresh } }
  have hothers : ∀ w ∈ l ++ r, ∀ p ∈ w.packets, packets.read p = queue.packets.read p := by
    intro w hw p hp
    apply hother
    · intro heq
      exact h.not_mem hmem hw (heq ▸ hp)
    · exact Nat.ne_of_lt ((h.chained_around w hw).lt_fresh hp)
  obtain ⟨list, hlist, hsound⟩ := @Sound.replace queue l r v h cell packets _ rfl hjoined
    (fun w hw => (h.chained_around w hw).congr (hothers w hw))
    (by
      have hnd := List.nodup_cons.mpr ⟨h.fresh_not_mem, h.apart⟩
      simp only [List.flatMap_append, List.flatMap_cons, List.append_assoc,
        List.singleton_append] at hnd ⊢
      rw [← List.append_assoc] at hnd ⊢
      exact List.perm_middle.nodup_iff.mpr hnd)
  refine ⟨_, _, ?_, hsound, hothers, fun e he => ⟨he.ip, he.nextHop, ?_, he.lastReq, ?_⟩⟩
  · simp only [arpqAddPacket, entryAt, h.value, getOr_some, ok_bind]
    split
    next =>
      simp only [Memory.setEntry, bind_ok, getOr_ok]
      exact ⟨z, hlast, packets, hmodify, list, hlist, rfl⟩
    next hnone =>
      rw [hfirst] at hnone
      cases hnone
  · have hnew : packets.read queue.packets.fresh = some { packet := new, next := none } := by
      rw [hread, if_neg (Ne.symm hzne), Heap.read_alloc, if_pos rfl]
    have hold : contents packets v.packets = contents queue.packets v.packets := by
      apply contents_congr
      intro p hp
      by_cases hpz : p = z
      · rw [hread, if_pos hpz, hpz, hnode]
        rfl
      · rw [hother p hpz (Nat.ne_of_lt (hchain.lt_fresh hp))]
    show e.arpqPackets ++ [new] = contents packets (v.packets ++ [queue.packets.fresh])
    rw [contents_append, hold, contents_cons hnew, he.packets]
    rfl
  · show e.arpqNumReqs + 1 = v.cell.arpqNumReqs + 1
    rw [he.numReqs]

/-- `arpq_add_entry` for a destination that no entry is for. -/
theorem Sound.exists_add {queue : ArpQueue} {vs : List EntryView} (h : Sound queue vs)
    {ip : UInt32} (hnew : ∀ v ∈ vs, v.cell.arpqIp ≠ ip) (sr : SrInstance) (packet : FrameT)
    (oldMAC : Mac) (oldIface : Option SrIf) (arrival : Arrival) :
    ∃ queue' v, arpqAddEntry sr queue packet ip oldMAC oldIface arrival arrival.now
        = .ok (queue', v.addr) ∧
      Sound queue' (vs ++ [v]) ∧ Untouched queue.packets queue'.packets vs ∧
      Views queue'.packets v (Router.arpqAddEntry sr packet ip oldMAC oldIface arrival) := by
  have hout := h.entries.fresh_not_mem
  let new : QueuedPacket :=
    { fromMAC := oldMAC, fromIface := oldIface, outgoing := packet, arrival := arrival }
  let one : Packetq := { first := some queue.packets.fresh, last := some queue.packets.fresh }
  -- the node in memory, not linked yet
  have halloc := h.entries.alloc
    { arpqIp := ip, arpqNextHop := sr.junkHop, arpqPackets := { first := none, last := none },
      arpqLastReq := 0, arpqNumReqs := 0 }
  obtain ⟨list₁, hset₁, -, hvalue₁, hholds₁⟩ := halloc.setValue_outside
    (by rw [DList.value_alloc, if_pos rfl]) hout
    { arpqIp := ip, arpqNextHop := sr.junkHop, arpqPackets := one, arpqLastReq := 0,
      arpqNumReqs := 0 + 1 }
  obtain ⟨list₂, hset₂, -, hvalue₂, hholds₂⟩ := hholds₁.setValue_outside hvalue₁ hout
    { arpqIp := ip, arpqNextHop := sr.junkHop, arpqPackets := one, arpqLastReq := arrival.now,
      arpqNumReqs := 0 }
  obtain ⟨list₃, hlink, hre, -⟩ := hholds₂.linkLast hvalue₂ hout
  have hadd : arpqAddEntry sr queue packet ip oldMAC oldIface arrival arrival.now
      = .ok ({ list := list₃, packets := queue.packets.alloc { packet := new, next := none } },
        queue.list.heap.fresh) := by
    simp only [arpqAddEntry, arpqAddPacket, entryAt, DList.value_alloc, if_true, getOr_some,
      ok_bind, Memory.setEntry, bind_ok, getOr_ok]
    exact ⟨_, ⟨list₁, hset₁, rfl⟩, _, hvalue₁, _, ⟨list₂, hset₂, rfl⟩, list₃, hlink, rfl⟩
  obtain ⟨v, haddr, hsound, -⟩ := arpqAddEntry_sound h hnew hadd
  have hcell := hsound.value
  rw [haddr, hre.value, hvalue₂] at hcell
  have hcell := Option.some.inj hcell
  have hchain := hsound.chained v (by simp)
  have hfresh : (queue.packets.alloc { packet := new, next := none }).read queue.packets.fresh
      = some { packet := new, next := none } := by
    rw [Heap.read_alloc, if_pos rfl]
  -- the chain has the new packet only
  obtain ⟨ps, hps⟩ : ∃ ps, v.packets = queue.packets.fresh :: ps := by
    have hfirst := hchain.first
    rw [← hcell] at hfirst
    exact List.head?_eq_some_iff.mp hfirst.symm
  have hnone : ps = [] := by
    rw [hps] at hchain
    have hnext := hchain.linked.next (l := [])
    rw [nextPacket, hfresh] at hnext
    exact List.head?_eq_none_iff.mp (Option.some.inj hnext).symm
  refine ⟨_, v, by rw [hadd, haddr], hsound, fun w hw p hp => ?_, ?_⟩
  · show (queue.packets.alloc _).read p = _
    rw [Heap.read_alloc, if_neg (Nat.ne_of_lt ((h.chained w hw).lt_fresh hp))]
  · refine ⟨?_, ?_, ?_, ?_, ?_⟩
    · rw [← hcell]
      rfl
    · rw [← hcell]
      rfl
    · rw [hps, hnone, contents_cons hfresh]
      rfl
    · rw [← hcell]
      rfl
    · rw [← hcell]
      rfl

/-! ## What a lookup finds -/

/-- On both sides the first entry with `ip` in a field. -/
structure FoundAt (packets : Heap PacketNode) (field : ArpqEntry → UInt32) (ip : UInt32)
    (vs : List EntryView) (es : List ArpqEntry) (l : List EntryView) (v : EntryView)
    (r : List EntryView) (as : List ArpqEntry) (e : ArpqEntry) (bs : List ArpqEntry) : Prop where
  memory : vs = l ++ v :: r
  list : es = as ++ e :: bs
  before : List.Forall₂ (Views packets) l as
  here : Views packets v e
  after : List.Forall₂ (Views packets) r bs
  first : ∀ a ∈ as, (field a == ip) = false
  hit : (field e == ip) = true

theorem views_find {packets : Heap PacketNode} {vs : List EntryView} {es : List ArpqEntry}
    (hviews : List.Forall₂ (Views packets) vs es) {cellField : ArpqCell → UInt32}
    {field : ArpqEntry → UInt32} (hfield : ∀ v e, Views packets v e → field e = cellField v.cell)
    (ip : UInt32) :
    (vs.find? fun v => cellField v.cell == ip) = none ∧ (es.find? fun e => field e == ip) = none ∨
    ∃ l v r as e bs, FoundAt packets field ip vs es l v r as e bs ∧
      (vs.find? fun v => cellField v.cell == ip) = some v ∧
      (es.find? fun e => field e == ip) = some e := by
  induction hviews with
  | nil => exact Or.inl ⟨rfl, rfl⟩
  | @cons v e vs es hv hrest ih =>
    cases htest : field e == ip with
    | true =>
      have hmem : (cellField v.cell == ip) = true := by rw [← hfield v e hv, htest]
      refine Or.inr ⟨[], v, vs, [], e, es, ⟨rfl, rfl, .nil, hv, hrest, ?_, htest⟩, ?_, ?_⟩
      · intro a ha
        cases ha
      · rw [List.find?_cons, hmem]
      · rw [List.find?_cons, htest]
    | false =>
      have hmem : (cellField v.cell == ip) = false := by rw [← hfield v e hv, htest]
      rw [List.find?_cons, List.find?_cons, hmem, htest]
      obtain hnone | ⟨l, w, r, as, a, bs, hfound, hw, ha⟩ := ih
      · exact Or.inl hnone
      · refine Or.inr ⟨v :: l, w, r, e :: as, a, bs, ⟨?_, ?_, .cons hv hfound.before, hfound.here,
          hfound.after, ?_, hfound.hit⟩, hw, ha⟩
        · rw [hfound.memory, List.cons_append]
        · rw [hfound.list, List.cons_append]
        · intro b hb
          obtain rfl | hb := List.mem_cons.mp hb
          · exact htest
          · exact hfound.first b hb

theorem Sound.lookup_cases {queue : ArpQueue} {vs : List EntryView} {es : List ArpqEntry}
    (h : Sound queue vs) (hviews : List.Forall₂ (Views queue.packets) vs es)
    {cellField : ArpqCell → UInt32} {field : ArpqEntry → UInt32}
    (hfield : ∀ v e, Views queue.packets v e → field e = cellField v.cell) (ip : UInt32) :
    ((queue.list.find .freed .endless (fun cell => cellField cell == ip)
        (queue.list.heap.fresh + 1) queue.list.first : Res (Option Nat)) = .ok none ∧
      (es.find? fun e => field e == ip) = none ∧ ∀ v ∈ vs, cellField v.cell ≠ ip) ∨
    ∃ l v r as e bs, FoundAt queue.packets field ip vs es l v r as e bs ∧
      (queue.list.find .freed .endless (fun cell => cellField cell == ip)
        (queue.list.heap.fresh + 1) queue.list.first : Res (Option Nat)) = .ok (some v.addr) ∧
      (es.find? fun e => field e == ip) = some e := by
  rw [h.entries.find, List.find?_map]
  obtain ⟨hmem, hlist⟩ | ⟨l, v, r, as, e, bs, hfound, hmem, hlist⟩ := views_find hviews hfield ip
  · refine Or.inl ⟨?_, hlist, fun v hv heq => ?_⟩
    · show Except.ok (Option.map _ (Option.map _ (vs.find? fun v => cellField v.cell == ip))) = _
      rw [hmem]
      rfl
    · exact List.find?_eq_none.mp hmem v hv (beq_iff_eq.mpr heq)
  · refine Or.inr ⟨l, v, r, as, e, bs, hfound, ?_, hlist⟩
    show Except.ok (Option.map _ (Option.map _ (vs.find? fun v => cellField v.cell == ip))) = _
    rw [hmem]
    rfl

/-! ## One branch after another -/

/-- The queue after a branch, and what it has sent. -/
structure Follows (cache : List ArpcEntry) (wire : List Sent) (calls : Nat)
    (x : ArpQueue × List Sent) (st : RouterState) : Prop where
  queue : Queues x.1 st.queue
  wire : st.wire = wire ++ x.2
  cache : st.cache = cache
  calls : st.calls = calls

theorem sendDatagram_alike {queue : ArpQueue} {st : RouterState} (h : Queues queue st.queue)
    (outgoing : Option FrameT) (forwards : Option Arrival) :
    Alike (Follows st.cache st.wire st.calls)
      (sendDatagram outgoing forwards >>= fun sent => .ok (queue, sent))
      (Router.sendDatagram st outgoing forwards) := by
  cases outgoing with
  | none => exact .ok ⟨h, (List.append_nil _).symm, rfl, rfl⟩
  | some outgoing =>
    rw [sendDatagram, Router.sendDatagram, bind_assoc]
    apply alike_same
    intro sent _
    exact .ok ⟨h, rfl, rfl, rfl⟩

/-- What `sr_handlepacket` of the lists does once the entry has been touched. -/
def joinList (sr : SrInstance) (st : RouterState) (arrival : Arrival)
    (incoming outgoing : FrameT) (entry : ArpqEntry) : Res RouterState :=
  if entry.arpqPackets.isEmpty then .error .assertion
  else do
    let entry := Router.arpqAddPacket entry outgoing incoming.fromMAC incoming.iface arrival
    let request ← arpCreate sr outgoing outgoing.iface arpRequest
    let entry := { entry with requests := arrival.now :: entry.requests }
    Router.sendDatagram
      { st with
        queue := replaceFirst (fun e => e.arpqIp == outgoing.toIp) (fun _ => entry) st.queue }
      (some request) none

theorem queuePacket_found {st : RouterState} {outgoing : FrameT} {entry : ArpqEntry}
    (h : Router.arpQueueLookup st.queue outgoing.toIp = some entry) (sr : SrInstance)
    (arrival : Arrival) (incoming : FrameT) :
    Router.queuePacket sr st arrival incoming outgoing
      = Router.touchEntry arrival.now entry >>= joinList sr st arrival incoming outgoing := by
  rw [Router.queuePacket, h]
  rfl

theorem Sound.joinEntry_alike {queue : ArpQueue} {l r : List EntryView} {v : EntryView}
    {as bs : List ArpqEntry} {e : ArpqEntry} {st : RouterState} {outgoing : FrameT}
    (h : Sound queue (l ++ v :: r)) (hbefore : List.Forall₂ (Views queue.packets) l as)
    (he : Views queue.packets v e) (hafter : List.Forall₂ (Views queue.packets) r bs)
    (hreplace : ∀ e', replaceFirst (fun e => e.arpqIp == outgoing.toIp) (fun _ => e') st.queue
      = as ++ e' :: bs) (sr : SrInstance) (arrival : Arrival) (incoming : FrameT) :
    Alike (Follows st.cache st.wire st.calls)
      (joinEntry sr queue v.addr arrival incoming outgoing)
      (joinList sr st arrival incoming outgoing e) := by
  have hempty := (h.chained v (by simp)).isEmpty
  simp only [joinEntry, joinList, entryAt, h.value, getOr_some, ok_bind, he.packets, hempty,
    hreplace]
  apply alike_ite
  · intro _
    exact .error _
  · intro hnot
    have hsome : v.packets ≠ [] := by
      intro hnil
      rw [hnil] at hempty
      exact hnot hempty.symm
    obtain ⟨queue', v', hadd, hsound, hothers, hviews⟩ :=
      h.exists_join hsome outgoing incoming.fromMAC incoming.iface arrival
    rw [hadd, ok_bind]
    apply alike_same
    intro request _
    have hnew := hviews e he
    let entry := Router.arpqAddPacket e outgoing incoming.fromMAC incoming.iface arrival
    have hqueues : Queues queue'
        (as ++ { entry with requests := arrival.now :: entry.requests } :: bs) :=
      ⟨_, hsound, List.rel_append
        (views_congr hbefore fun w hw => hothers w (List.mem_append_left _ hw))
        (.cons ⟨hnew.ip, hnew.nextHop, hnew.packets, hnew.lastReq, hnew.numReqs⟩
          (views_congr hafter fun w hw => hothers w (List.mem_append_right _ hw)))⟩
    exact @sendDatagram_alike _ { st with queue := _ } hqueues (some request) none

theorem FoundAt.replace {packets : Heap PacketNode} {ip : UInt32} {vs l r : List EntryView}
    {v : EntryView} {es as bs : List ArpqEntry} {e : ArpqEntry}
    (h : FoundAt packets ArpqEntry.arpqIp ip vs es l v r as e bs) (e' : ArpqEntry) :
    replaceFirst (fun e => e.arpqIp == ip) (fun _ => e') es = as ++ e' :: bs := by
  rw [h.list]
  exact replaceFirst_append h.first h.hit

/-- The entry that already waits is not overdue, so it is not given up. -/
theorem touchEntry_alike {sr : SrInstance} {clock : Nat → Nat} {arrival : Arrival}
    (hclock : ∀ j, clock j = arrival.now) {queue : ArpQueue} {l r : List EntryView}
    {v : EntryView} {as bs : List ArpqEntry} {e : ArpqEntry} {st : RouterState}
    {outgoing : FrameT} (h : Sound queue (l ++ v :: r))
    (hdue : ¬ GivenUp arrival.now v.cell.arpqLastReq v.cell.arpqNumReqs)
    (hbefore : List.Forall₂ (Views queue.packets) l as) (he : Views queue.packets v e)
    (hafter : List.Forall₂ (Views queue.packets) r bs)
    (hreplace : ∀ e', replaceFirst (fun e => e.arpqIp == outgoing.toIp) (fun _ => e') st.queue
      = as ++ e' :: bs) (incoming : FrameT) (i : Nat) :
    Alike (Follows st.cache st.wire st.calls)
      (touchEntry sr clock queue i v.addr arrival incoming outgoing)
      (Router.touchEntry arrival.now e >>= joinList sr st arrival incoming outgoing) := by
  have hjoin := h.joinEntry_alike hbefore he hafter hreplace sr arrival incoming
  simp only [touchEntry, Router.touchEntry, entryAt, h.value, getOr_some, ok_bind, hclock,
    he.lastReq, he.numReqs]
  split
  next hlate =>
    split
    next hmany => exact absurd ⟨hlate, hmany⟩ hdue
    next hfew =>
      have hempty := (h.chained v (by simp)).isEmpty
      rw [← he.packets] at hempty
      split
      next hsome =>
        -- one more request, and the packet joins
        rw [hempty, if_neg (by
          rw [Option.isNone_eq_false_iff.mpr hsome]
          exact Bool.false_ne_true)]
        let asked : ArpqCell :=
          { v.cell with arpqLastReq := arrival.now, arpqNumReqs := v.cell.arpqNumReqs + 1 }
        obtain ⟨list, hset, hsound⟩ := h.exists_setEntry
          (show asked.arpqIp = v.cell.arpqIp from rfl) rfl
        have hasked : Views queue.packets { v with cell := asked }
            { e with arpqLastReq := arrival.now, arpqNumReqs := v.cell.arpqNumReqs + 1 } :=
          ⟨he.ip, he.nextHop, he.packets, rfl, rfl⟩
        rw [hset, ok_bind, ok_bind]
        exact hsound.joinEntry_alike hbefore hasked hafter hreplace sr arrival incoming
      next hnone =>
        rw [hempty, if_pos (Option.isNone_iff_eq_none.mpr (Option.not_isSome_iff_eq_none.mp hnone)),
          ok_bind]
        exact hjoin
  next hearly =>
    rw [ok_bind]
    exact hjoin

/-- No entry waits for this destination yet. -/
theorem Sound.openEntry_alike {queue : ArpQueue} {vs : List EntryView} {st : RouterState}
    {outgoing : FrameT} (h : Sound queue vs)
    (hviews : List.Forall₂ (Views queue.packets) vs st.queue)
    (hnew : ∀ v ∈ vs, v.cell.arpqIp ≠ outgoing.toIp)
    (hnone : Router.arpQueueLookup st.queue outgoing.toIp = none) (sr : SrInstance)
    (arrival : Arrival) (incoming : FrameT) :
    Alike (Follows st.cache st.wire st.calls)
      (openEntry sr queue arrival incoming outgoing arrival.now)
      (Router.queuePacket sr st arrival incoming outgoing) := by
  obtain ⟨queue', v, hadd, hsound, hothers, hv⟩ :=
    h.exists_add hnew sr outgoing incoming.fromMAC incoming.iface arrival
  rw [openEntry, hadd, ok_bind, Router.queuePacket, hnone]
  apply alike_same
  intro request _
  let cell : ArpqCell := { v.cell with arpqNextHop := request.toIp }
  obtain ⟨list, hset, hsound'⟩ := hsound.exists_setEntry
    (show cell.arpqIp = v.cell.arpqIp from rfl) rfl
  rw [entryAt, hsound.value, getOr_some, ok_bind, hset, ok_bind]
  let entry := Router.arpqAddEntry sr outgoing outgoing.toIp incoming.fromMAC incoming.iface arrival
  have hqueues : Queues { queue' with list := list }
      (st.queue ++ [{ entry with arpqNextHop := request.toIp, requests := [arrival.now] }]) :=
    ⟨_, hsound', List.rel_append (views_congr hviews hothers)
      (.cons ⟨hv.ip, rfl, hv.packets, hv.lastReq, hv.numReqs⟩ .nil)⟩
  exact @sendDatagram_alike _ { st with queue := _ } hqueues (some request) none

theorem queuePacket_alike {sr : SrInstance} {clock : Nat → Nat} {arrival : Arrival}
    (hclock : ∀ j, clock j = arrival.now) {queue : ArpQueue} {vs : List EntryView}
    {st : RouterState} (h : Sound queue vs)
    (hviews : List.Forall₂ (Views queue.packets) vs st.queue)
    (hdue : ∀ v ∈ vs, ¬ GivenUp arrival.now v.cell.arpqLastReq v.cell.arpqNumReqs)
    (incoming outgoing : FrameT) (i : Nat) :
    Alike (Follows st.cache st.wire st.calls)
      (queuePacket sr clock queue i arrival incoming outgoing)
      (Router.queuePacket sr st arrival incoming outgoing) := by
  rw [queuePacket, arpQueueLookup]
  obtain ⟨hmem, hlist, hnew⟩ | ⟨l, v, r, as, e, bs, hfound, hmem, hlist⟩ :=
    h.lookup_cases hviews (fun _ _ hv => Views.ip hv) outgoing.toIp
  · rw [hmem, ok_bind]
    show Alike _ (openEntry sr queue arrival incoming outgoing (clock i)) _
    rw [hclock]
    exact h.openEntry_alike hviews hnew hlist sr arrival incoming
  · rw [hmem, ok_bind, queuePacket_found hlist]
    obtain rfl := hfound.memory
    exact touchEntry_alike hclock h (hdue v (by simp)) hfound.before hfound.here hfound.after
      hfound.replace incoming i

theorem forwardPacket_alike {sr : SrInstance} {clock : Nat → Nat} {arrival : Arrival}
    (hclock : ∀ j, clock j = arrival.now) {cache : ArpCache} {queue : ArpQueue}
    {vs : List EntryView} {st : RouterState} (hcache : Stores cache st.cache) (h : Sound queue vs)
    (hviews : List.Forall₂ (Views queue.packets) vs st.queue)
    (hdue : ∀ v ∈ vs, ¬ GivenUp arrival.now v.cell.arpqLastReq v.cell.arpqNumReqs)
    (incoming : FrameT) (i : Nat) :
    Alike (Follows st.cache st.wire st.calls)
      (forwardPacket sr clock cache queue i arrival incoming)
      (Router.forwardPacket sr st arrival incoming) := by
  apply alike_same
  intro x _
  obtain ⟨outgoing, arpcIp⟩ := x
  obtain ⟨hmem, hlist⟩ | ⟨incache, entry, hmem, hvalue, hlist⟩ := hcache.lookup arpcIp
  · simp only [hmem, hlist, ok_bind]
    exact queuePacket_alike hclock h hviews hdue incoming outgoing i
  · simp only [hmem, hlist, hvalue, getOr_some, ok_bind]
    apply alike_same
    intro outgoing _
    exact sendDatagram_alike ⟨vs, h, hviews⟩ (some outgoing) (some arrival)

theorem handleIp_alike {sr : SrInstance} {clock : Nat → Nat} {arrival : Arrival}
    (hclock : ∀ j, clock j = arrival.now) {cache : ArpCache} {queue : ArpQueue}
    {vs : List EntryView} {st : RouterState} (hcache : Stores cache st.cache) (h : Sound queue vs)
    (hviews : List.Forall₂ (Views queue.packets) vs st.queue)
    (hdue : ∀ v ∈ vs, ¬ GivenUp arrival.now v.cell.arpqLastReq v.cell.arpqNumReqs)
    (incoming : FrameT) (i : Nat) :
    Alike (Follows st.cache st.wire st.calls)
      (handleIp sr clock cache queue i arrival incoming)
      (Router.handleIp sr st arrival incoming) := by
  have hqueues : Queues queue st.queue := ⟨vs, h, hviews⟩
  apply alike_same
  intro checked _
  cases checked with
  | none => exact .ok ⟨hqueues, (List.append_nil _).symm, rfl, rfl⟩
  | some incoming =>
    apply alike_same
    intro ours _
    cases ours with
    | some iface =>
      apply alike_same
      intro outgoing _
      exact sendDatagram_alike hqueues outgoing none
    | none =>
      apply alike_same
      intro ttl _
      apply alike_ite
      · intro _
        apply alike_same
        intro outgoing _
        exact sendDatagram_alike hqueues outgoing none
      · intro _
        exact forwardPacket_alike hclock hcache h hviews hdue incoming i

/-! ## ARP packets -/

/-- Both lists after a branch, and what it has sent. -/
structure FollowsArp (wire : List Sent) (calls : Nat) (x : ArpCache × ArpQueue × List Sent)
    (st : RouterState) : Prop where
  cache : Stores x.1 st.cache
  queue : Queues x.2.1 st.queue
  wire : st.wire = wire ++ x.2.2
  calls : st.calls = calls

theorem answerArp_alike {cache : ArpCache} {queue : ArpQueue} {st : RouterState}
    (hcache : Stores cache st.cache) (hqueue : Queues queue st.queue) {wire released : List Sent}
    (hwire : st.wire = wire ++ released) (sr : SrInstance) (incoming : FrameT) (op : Nat) :
    Alike (FollowsArp wire st.calls)
      (answerArp sr incoming op >>= fun sent => .ok (cache, queue, released ++ sent))
      (Router.answerArp sr st incoming op) := by
  have hall : ∀ sent, st.wire ++ sent = wire ++ (released ++ sent) := by
    intro sent
    rw [hwire, List.append_assoc]
  unfold answerArp Router.answerArp
  split
  · rw [bind_assoc]
    apply alike_same
    intro outgoing _
    rw [sendDatagram, Router.sendDatagram, bind_assoc]
    apply alike_same
    intro sent _
    exact .ok ⟨hcache, hqueue, hall [sent], rfl⟩
  · exact .ok ⟨hcache, hqueue, by rw [hwire, List.append_nil], rfl⟩

theorem learnSender_alike {cache : ArpCache} {queue : ArpQueue} {vs : List EntryView}
    {st : RouterState} (hcache : Stores cache st.cache) (h : Sound queue vs)
    (hviews : List.Forall₂ (Views queue.packets) vs st.queue) (sip : UInt32) (sha : Mac)
    (now : Nat) :
    Alike (FollowsArp st.wire st.calls) (learnSender cache queue sip sha now)
      (Router.learnSender st sip sha now) := by
  obtain ⟨cache', hadd, hcache'⟩ := hcache.add sha sip now
  rw [learnSender, hadd, ok_bind, arpqNextHopLookup, Router.learnSender, Router.arpqNextHopLookup]
  obtain ⟨hmem, hlist, -⟩ | ⟨l, v, r, as, e, bs, hfound, hmem, hlist⟩ :=
    h.lookup_cases hviews (fun _ _ hv => Views.nextHop hv) sip
  · rw [hmem, hlist, ok_bind]
    exact .ok ⟨hcache', ⟨vs, h, hviews⟩, (List.append_nil _).symm, rfl⟩
  · rw [hmem, hlist, ok_bind]
    obtain rfl := hfound.memory
    show Alike _ (arpqEntryClear queue v.addr sha >>= _)
      (Router.arpqEntryClear sha e.arpqPackets >>= _)
    rw [hfound.here.packets]
    apply (h.entryClear_alike sha).bind
    intro x y hxy
    obtain ⟨hsent, hsound, hothers⟩ := hxy
    refine .ok ⟨hcache', ⟨_, hsound, ?_⟩, ?_, rfl⟩
    · show List.Forall₂ _ _ (st.queue.eraseP _)
      rw [hfound.list, List.eraseP_append_right _ fun a ha => ?_, List.eraseP_cons_of_pos ?_]
      · exact List.rel_append
          (views_congr hfound.before fun w hw => hothers w (List.mem_append_left _ hw))
          (views_congr hfound.after fun w hw => hothers w (List.mem_append_right _ hw))
      · exact hfound.hit
      · rw [hfound.first a ha]
        exact Bool.false_ne_true
    · rw [hsent]

theorem handleArp_alike {cache : ArpCache} {queue : ArpQueue} {vs : List EntryView}
    {st : RouterState} (hcache : Stores cache st.cache) (h : Sound queue vs)
    (hviews : List.Forall₂ (Views queue.packets) vs st.queue) (sr : SrInstance)
    (arrival : Arrival) (incoming : FrameT) :
    Alike (FollowsArp st.wire st.calls) (handleArp sr cache queue arrival.now incoming)
      (Router.handleArp sr st arrival incoming) := by
  have hqueue : Queues queue st.queue := ⟨vs, h, hviews⟩
  apply alike_same
  intro sha _
  apply alike_same
  intro sip _
  apply alike_same
  intro tip _
  apply alike_same
  intro op _
  obtain ⟨hmem, hlist⟩ | ⟨entry, e, hmem, -, hlist⟩ := hcache.lookup sip
  · simp only [hmem, hlist, ok_bind]
    apply alike_same
    intro ours _
    cases ours with
    | none => exact .ok ⟨hcache, hqueue, (List.append_nil _).symm, rfl⟩
    | some iface =>
      apply (learnSender_alike hcache h hviews sip sha arrival.now).bind
      intro x st' hx
      rw [← hx.calls]
      exact answerArp_alike hx.cache hx.queue hx.wire sr incoming op
  · obtain ⟨cache', hupdate, hcache'⟩ := hcache.update hmem sha arrival.now
    simp only [hmem, hlist, hupdate, ok_bind]
    apply alike_same
    intro ours _
    cases ours with
    | none => exact .ok ⟨hcache', hqueue, (List.append_nil _).symm, rfl⟩
    | some iface =>
      exact @answerArp_alike _ _ { st with cache := _ } hcache' hqueue _ _
        (List.append_nil _).symm sr incoming op

/-! ## Runs -/

/-- The router in memory and the router of lists. -/
structure Mirrors (mem : RouterMemory) (st : RouterState) : Prop where
  cache : Stores mem.cache st.cache
  queue : Queues mem.queue st.queue
  wire : st.wire = mem.wire
  calls : st.calls = mem.calls

theorem mirrors_init (sr : SrInstance) : Mirrors (srInit sr) (Router.srInit sr) := by
  refine ⟨⟨_, DList.holds_singleton rfl rfl rfl, rfl⟩,
    ⟨[{ addr := 0
        cell := { arpqIp := 0, arpqNextHop := sr.junkHop
                  arpqPackets := { first := none, last := none }
                  arpqLastReq := 0, arpqNumReqs := 0 }
        packets := [] }], ⟨⟨DList.holds_singleton rfl rfl rfl, ?_, ?_⟩, ?_⟩,
      .cons ⟨rfl, rfl, rfl, rfl, rfl⟩ .nil⟩, rfl, rfl⟩
  · exact List.nodup_singleton _
  · intro v hv
    obtain rfl := List.mem_singleton.mp hv
    exact chained_nil _
  · exact List.nodup_nil

theorem handlepacket_alike {mem : RouterMemory} {st : RouterState} (h : Mirrors mem st)
    (sr : SrInstance) (e : Event) :
    Alike Mirrors (srHandlepacket sr mem (steadyCall e))
      (Router.srHandlepacket sr st e.packet e.interface e.now) := by
  have hcalls : { mem with calls := mem.calls + 1 }.calls = st.calls + 1 := by rw [h.calls]
  have harrival : (steadyCall e).arrival mem.calls = e.arrival st.calls := by
    rw [h.calls]
    rfl
  apply alike_ite
  · intro _
    exact .ok ⟨h.cache, h.queue, h.wire, hcalls.symm⟩
  · intro _
    apply alike_same
    intro created _
    obtain ⟨cache, i, hflush, hcache⟩ := h.cache.flush (fun _ => rfl) 0
    obtain ⟨vs, hsound, hviews⟩ := h.queue
    apply alike_step hflush
    apply (hsound.flush_alike (fun _ => rfl) hviews i).bind
    intro x y hxy
    obtain ⟨hsent, hkept, vs', hsound', hviews', hdue⟩ := hxy
    apply alike_same
    intro incoming _
    rw [← hkept] at hviews'
    rw [List.nil_append] at hsound'
    let flushed : RouterState :=
      { cache := Router.arpCacheFlush e.now st.cache, queue := y.1, wire := st.wire ++ y.2
        calls := st.calls + 1 }
    have hwire : flushed.wire = mem.wire ++ x.2.1 := by
      rw [← h.wire, hsent]
    apply alike_ite
    · intro _
      rw [harrival]
      have hip := @handleIp_alike sr (steadyCall e).clock (e.arrival st.calls) (fun _ => rfl) cache
        x.1 vs' flushed hcache hsound' hviews' hdue incoming x.2.2
      refine hip.bind_left fun p st' hp => .ok ⟨?_, hp.queue, ?_, ?_⟩
      · rw [hp.cache]
        exact hcache
      · rw [hp.wire, hwire]
      · rw [hp.calls, hcalls]
    · intro _
      have harp := @handleArp_alike cache x.1 vs' flushed hcache hsound' hviews' sr
        (e.arrival st.calls) incoming
      refine harp.bind_left fun p st' hp => .ok ⟨hp.cache, hp.queue, ?_, ?_⟩
      · rw [hp.wire, hwire]
      · rw [hp.calls, hcalls]

/-- **The lists are what is in memory.** -/
theorem memory_mirrors_lists (sr : SrInstance) (evs : List Event) :
    Option.Rel Mirrors (run (steadyStep sr) (some (srInit sr)) evs)
      (run (Router.step sr) (some (Router.srInit sr)) evs) :=
  run_alike (fun _ _ e h => handlepacket_alike h sr e) (.some (mirrors_init sr)) evs

end UchiNetworks.Router.Memory
