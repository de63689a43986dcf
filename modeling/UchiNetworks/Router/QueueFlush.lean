import UchiNetworks.Router.Icmpsend
import UchiNetworks.Router.QueueLinks

/-!
# What the flush does to the queue

`arp_queue_flush` walks the queue once while it takes entries out of it. For a
queue of sound links `Refreshes` gives the queue it leaves, entry for entry, and what
it sends: which entries it takes out, and where in the queue they are, makes no
difference. Only what those entries hold does (`arpQueueFlush_refreshes_iff`): for each
packet of theirs `generate_icmp_error` makes a message, and it has no room for the IP
options of the packet.
-/

namespace UchiNetworks.Router.Memory

open UchiNetworks.Lib

/-- What is left of an entry after the flush. -/
def afterFlush (now : Nat) (v : EntryView) : Option EntryView :=
  if Idle now v.cell.arpqLastReq then
    if arpMaxReq ≤ v.cell.arpqNumReqs then none
    else if v.packets = [] then some v
    else some { v with
                cell := { v.cell with
                          arpqLastReq := now, arpqNumReqs := v.cell.arpqNumReqs + 1 } }
  else some v

/-- The packets of a chain. -/
def contents (packets : Heap PacketNode) (ps : List Nat) : List QueuedPacket :=
  ps.filterMap fun p => (packets.read p).map PacketNode.packet

/-- The packet goes back to where it came from. -/
def GoesBack (p : QueuedPacket) (s : Sent) : Prop :=
  ∃ iface, p.fromIface = some iface ∧
    s = { frame := p.outgoing.frame, iface := iface, forwards := none }

/-- What is sent for an entry: one ARP request, for the next hop of its first
packet; or all its packets, when it is given up; or nothing. -/
inductive Answered (sr : SrInstance) (packets : Heap PacketNode) (now : Nat) :
    EntryView → List Sent → Prop where
  | quiet {v : EntryView}
      (h : Idle now v.cell.arpqLastReq → v.cell.arpqNumReqs < arpMaxReq ∧ v.packets = []) :
      Answered sr packets now v []
  | asked {v : EntryView} {p : QueuedPacket} {iface : SrIf} {rt : SrRt}
    (hidle : Idle now v.cell.arpqLastReq)
      (hfew : v.cell.arpqNumReqs < arpMaxReq) (hp : (contents packets v.packets).head? = some p)
      (hiface : p.outgoing.iface = some iface) (hrt : rtMatch sr p.outgoing.toIp = some rt) :
      Answered sr packets now v
        [{ frame := arpFrame broadcast iface arpRequest p.outgoing.fromMAC rt.gw
           iface := iface, forwards := none }]
  | givenUp {v : EntryView} {sent : List Sent} (hidle : Idle now v.cell.arpqLastReq)
      (hmany : arpMaxReq ≤ v.cell.arpqNumReqs)
      (h : List.Forall₂ GoesBack (contents packets v.packets) sent) :
      Answered sr packets now v sent

/-- What the flush is to do with a queue: the queue it leaves is sound, and of each
entry there remains, and is sent, what is due. -/
def Refreshes (sr : SrInstance) (clock : Nat → Nat) (now : Nat) (queue : ArpQueue)
    (vs : List EntryView) (i : Nat) : Prop :=
  ∃ list answers i', arpQueueFlush sr clock queue i =
      .ok ({ queue with list := list }, answers.flatten, i') ∧
    Sound { queue with list := list } (vs.filterMap (afterFlush now)) ∧
    List.Forall₂ (Answered sr queue.packets now) vs answers

/-- A queued packet with its header, its interfaces and a route, which is no ICMP
error. -/
structure Answerable (sr : SrInstance) (p : QueuedPacket) : Prop
    extends Complete sr p, Headed p where
  noError : testPacket p = .ok false

/-- No packet of an entry that is given up on has IP options. -/
def NoOptions (packets : Heap PacketNode) (now : Nat) (v : EntryView) : Prop :=
  GivenUp now v.cell.arpqLastReq v.cell.arpqNumReqs →
    ∀ p ∈ contents packets v.packets, p.outgoing.ipHl ≤ ipHdrLen

instance (packets : Heap PacketNode) (now : Nat) (v : EntryView) :
    Decidable (NoOptions packets now v) :=
  inferInstanceAs (Decidable (_ → _))

/-! ## The packets of an entry -/

theorem contents_cons {packets : Heap PacketNode} {p : Nat} {node : PacketNode}
    (h : packets.read p = some node) (ps : List Nat) :
    contents packets (p :: ps) = node.packet :: contents packets ps := by
  rw [contents, List.filterMap_cons_some (b := node.packet) (by rw [h]; rfl)]
  rfl

/-- The loop over a chain reads its packets. -/
theorem Chained.packetsFrom {packets : Heap PacketNode} {arpqPackets : Packetq} {l r : List Nat}
    (h : Chained packets arpqPackets (l ++ r)) {fuel : Nat} (hfuel : r.length < fuel) :
    packetsFrom packets fuel r.head? = .ok (contents packets r) := by
  induction r generalizing l fuel with
  | nil =>
    obtain ⟨n, rfl⟩ : ∃ n, fuel = n + 1 := ⟨fuel - 1, by simp at hfuel; omega⟩
    rfl
  | cons p r ih =>
    obtain ⟨n, rfl⟩ : ∃ n, fuel = n + 1 := ⟨fuel - 1, by simp at hfuel; omega⟩
    obtain ⟨node, hnode⟩ := h.live (p := p) (by simp)
    have hnext : node.next = r.head? := by
      have hlink := h.linked.next
      rw [nextPacket, hnode] at hlink
      exact Option.some.inj hlink
    have hrest := @ih (l ++ [p]) (by simpa using h) n (by simpa using hfuel)
    rw [List.head?_cons, Memory.packetsFrom, hnode, getOr_some, ok_bind, hnext, hrest, ok_bind,
      contents_cons hnode]

theorem Chained.length_le {packets : Heap PacketNode} {arpqPackets : Packetq} {ps : List Nat}
    (h : Chained packets arpqPackets ps) : ps.length ≤ packets.fresh :=
  Heap.length_le_fresh h.nodup fun _ hp => Option.isSome_iff_exists.mpr (h.live hp)

/-- What is sent for the packets of an entry that is given up on. -/
theorem icmpsend_goesBack {sr : SrInstance} {packets : List QueuedPacket} {sent : List Sent}
    (h : Router.arpqPacketsIcmpsend sr packets = .ok sent) :
    List.Forall₂ GoesBack packets sent := by
  induction packets generalizing sent with
  | nil =>
    obtain rfl := Except.ok.inj h
    exact List.Forall₂.nil
  | cons p rest ih =>
    simp only [Router.arpqPacketsIcmpsend, bind_ok] at h
    obtain ⟨ip, -, stuck, -, h⟩ := h
    cases stuck with
    | true => cases h
    | false =>
      simp only [Bool.false_eq_true, if_false, bind_ok, getOr_ok, Except.ok.injEq] at h
      obtain ⟨message, -, iface, hiface, more, hmore, rfl⟩ := h
      exact List.Forall₂.cons ⟨iface, hiface, rfl⟩ (ih hmore)

theorem Answerable.passable_iff {sr : SrInstance} {p : QueuedPacket} (h : Answerable sr p) :
    Passable p ↔ p.outgoing.ipHl ≤ ipHdrLen := by
  have hplain : carriesIcmpError p.outgoing.frame etherSize p.outgoing.ipHl = .ok false := by
    have htest := h.noError
    rwa [testPacket, h.place, getOr_some, ok_bind] at htest
  exact ⟨fun hpass => hpass.2.1, fun hroom => ⟨hplain, hroom, h.fromIface⟩⟩

/-- Packets that are no ICMP errors all go back, unless one of them has options. -/
theorem Chained.icmpsend_iff {sr : SrInstance} {queue : ArpQueue} {arpqPackets : Packetq}
    {ps : List Nat} (h : Chained queue.packets arpqPackets ps)
    (hanswerable : ∀ p ∈ contents queue.packets ps, Answerable sr p) :
    (∃ sent, arpqPacketsIcmpsend sr queue arpqPackets = .ok sent) ↔
      ∀ p ∈ contents queue.packets ps, p.outgoing.ipHl ≤ ipHdrLen := by
  have hread := @Chained.packetsFrom queue.packets arpqPackets [] ps h (queue.packets.fresh + 1)
    (Nat.lt_succ_of_le h.length_le)
  rw [Memory.arpqPacketsIcmpsend, h.first, hread, ok_bind,
    arpqPacketsIcmpsend_returns_iff fun p hp => (hanswerable p hp).toHeaded]
  exact forall₂_congr fun p hp => (hanswerable p hp).passable_iff

theorem Chained.icmpsend_goesBack {sr : SrInstance} {queue : ArpQueue} {arpqPackets : Packetq}
    {ps : List Nat} {sent : List Sent} (h : Chained queue.packets arpqPackets ps)
    (hsent : arpqPacketsIcmpsend sr queue arpqPackets = .ok sent) :
    List.Forall₂ GoesBack (contents queue.packets ps) sent := by
  have hread := @Chained.packetsFrom queue.packets arpqPackets [] ps h (queue.packets.fresh + 1)
    (Nat.lt_succ_of_le h.length_le)
  rw [Memory.arpqPacketsIcmpsend, h.first, hread, ok_bind] at hsent
  exact Memory.icmpsend_goesBack hsent

theorem arpTarget_of {sr : SrInstance} {f : FrameT} {rt : SrRt}
    (hrt : rtMatch sr f.toIp = some rt) : arpTarget sr f arpRequest = .ok (rt.gw, broadcast) := by
  unfold arpTarget
  rw [if_pos rfl, hrt, getOr_some, ok_bind]

/-! ## One entry after another -/

theorem afterFlush_quiet {now : Nat} {v : EntryView}
    (h : Idle now v.cell.arpqLastReq → v.cell.arpqNumReqs < arpMaxReq ∧ v.packets = []) :
    afterFlush now v = some v := by
  unfold afterFlush
  split
  next hidle =>
    obtain ⟨hfew, hnone⟩ := h hidle
    rw [if_neg (UInt8.not_le.mpr hfew), if_pos hnone]
  next => rfl

theorem afterFlush_givenUp {now : Nat} {v : EntryView} (hidle : Idle now v.cell.arpqLastReq)
    (hmany : arpMaxReq ≤ v.cell.arpqNumReqs) : afterFlush now v = none := by
  rw [afterFlush, if_pos hidle, if_pos hmany]

theorem afterFlush_asked {now : Nat} {v : EntryView} (hidle : Idle now v.cell.arpqLastReq)
    (hfew : v.cell.arpqNumReqs < arpMaxReq) (hsome : v.packets ≠ []) :
    afterFlush now v = some { v with
      cell := { v.cell with arpqLastReq := now, arpqNumReqs := v.cell.arpqNumReqs + 1 } } := by
  rw [afterFlush, if_pos hidle, if_neg (UInt8.not_le.mpr hfew), if_neg hsome]

/-- An entry can be written in place. -/
theorem Sound.exists_setEntry {queue : ArpQueue} {l r : List EntryView} {v : EntryView}
    (h : Sound queue (l ++ v :: r)) {cell : ArpqCell} (hip : cell.arpqIp = v.cell.arpqIp)
    (hpackets : cell.arpqPackets = v.cell.arpqPackets) :
    ∃ list, Memory.setEntry queue v.addr cell = .ok { queue with list := list } ∧
      Sound { queue with list := list } (l ++ { v with cell := cell } :: r) := by
  obtain ⟨list, hset, -, -⟩ := h.split.setValue cell
  have hwrite : Memory.setEntry queue v.addr cell = .ok { queue with list := list } := by
    rw [Memory.setEntry, hset, getOr_some, ok_bind]
  exact ⟨list, hwrite, h.setEntry hip hpackets hwrite⟩

theorem Sound.stays {queue : ArpQueue} {l r : List EntryView} {v : EntryView}
    (h : Sound queue (l ++ v :: r)) : Sound queue (l ++ [v] ++ r) := by
  rwa [List.append_assoc, List.singleton_append]

theorem flushQueueFrom_refreshes {sr : SrInstance} {clock : Nat → Nat} {now : Nat}
    (hclock : ∀ j, clock j = now) {fuel : Nat} {queue : ArpQueue} {l r : List EntryView} {i : Nat}
    (h : Sound queue (l ++ r)) (hfuel : r.length < fuel)
    (hanswerable : ∀ v ∈ r, ∀ p ∈ contents queue.packets v.packets, Answerable sr p)
    (hroom : ∀ v ∈ r, NoOptions queue.packets now v) :
    ∃ list answers i', flushQueueFrom sr clock fuel queue (r.map EntryView.addr).head? i =
        .ok ({ queue with list := list }, answers.flatten, i') ∧
      Sound { queue with list := list } (l ++ r.filterMap (afterFlush now)) ∧
      List.Forall₂ (Answered sr queue.packets now) r answers := by
  induction r generalizing l fuel queue i with
  | nil =>
    obtain ⟨n, rfl⟩ : ∃ n, fuel = n + 1 := ⟨fuel - 1, by simp at hfuel; omega⟩
    exact ⟨queue.list, [], i, rfl, h, List.Forall₂.nil⟩
  | cons v r ih =>
    obtain ⟨n, rfl⟩ : ∃ n, fuel = n + 1 := ⟨fuel - 1, by simp at hfuel; omega⟩
    have hn : r.length < n := by simpa using hfuel
    obtain ⟨node, hnode, hval, -, hnext⟩ := h.split.node
    rw [List.map_map] at hnext
    replace hnext : node.next = (r.map EntryView.addr).head? := hnext
    have hchain := h.chained v (by simp)
    have hrest : ∀ w ∈ r, ∀ p ∈ contents queue.packets w.packets, Answerable sr p :=
      fun w hw => hanswerable w (List.mem_cons_of_mem _ hw)
    have hrestRoom : ∀ w ∈ r, NoOptions queue.packets now w :=
      fun w hw => hroom w (List.mem_cons_of_mem _ hw)
    simp only [List.map_cons, List.head?_cons, flushQueueFrom, hnode, getOr_some, ok_bind, hval,
      hclock, hnext]
    -- nothing is done for the entry
    have hquiet : (Idle now v.cell.arpqLastReq → v.cell.arpqNumReqs < arpMaxReq ∧ v.packets = []) →
        ∃ list answers i', flushQueueFrom sr clock n queue (r.map EntryView.addr).head? (i + 1) =
            .ok ({ queue with list := list }, answers.flatten, i') ∧
          Sound { queue with list := list } (l ++ (v :: r).filterMap (afterFlush now)) ∧
          List.Forall₂ (Answered sr queue.packets now) (v :: r) answers := by
      intro hnothing
      obtain ⟨list, answers, i', hflush, hsound, hanswers⟩ :=
        @ih n queue (l ++ [v]) (i + 1) h.stays hn hrest hrestRoom
      refine ⟨list, [] :: answers, i', hflush, ?_, List.Forall₂.cons (.quiet hnothing) hanswers⟩
      rw [List.filterMap_cons_some (afterFlush_quiet hnothing)]
      simpa using hsound
    split
    next hidle =>
      split
      next hmany =>
        -- it is given up: unlinked and freed
        obtain ⟨sent, hsent⟩ := (hchain.icmpsend_iff (hanswerable v List.mem_cons_self)).mpr
          (hroom v List.mem_cons_self ⟨hidle, hmany⟩)
        have hback := hchain.icmpsend_goesBack hsent
        obtain ⟨list₁, hunlink, hvalue, hout, hsound₁⟩ := h.remove
        obtain ⟨list₂, hfree, hsound₂⟩ := hsound₁.free hvalue hout
        obtain ⟨list, answers, i', hflush, hsound, hanswers⟩ :=
          @ih n _ l (i + 1) hsound₂ hn hrest hrestRoom
        refine ⟨list, sent :: answers, i', ?_, ?_,
          List.Forall₂.cons (.givenUp hidle hmany hback) hanswers⟩
        · rw [hsent, ok_bind, hunlink, getOr_some, ok_bind, hfree, getOr_some, ok_bind, hflush,
            ok_bind]
          rfl
        · rw [List.filterMap_cons_none (afterFlush_givenUp hidle hmany)]
          exact hsound
      next hfew =>
        have hfew' : v.cell.arpqNumReqs < arpMaxReq := UInt8.not_le.mp hfew
        split
        next first hfirst =>
          -- it gets another request, for its first packet
          obtain ⟨ps, hps⟩ : ∃ ps, v.packets = first :: ps := by
            rw [hchain.first] at hfirst
            exact List.head?_eq_some_iff.mp hfirst
          obtain ⟨old, hold⟩ := hchain.live (p := first) (by rw [hps]; exact List.mem_cons_self)
          have hcontents : contents queue.packets v.packets
              = old.packet :: contents queue.packets ps := by
            rw [hps, contents_cons hold]
          have hold' := hanswerable v List.mem_cons_self old.packet
            (by rw [hcontents]; exact List.mem_cons_self)
          obtain ⟨iface, hiface⟩ := Option.isSome_iff_exists.mp hold'.iface
          obtain ⟨rt, hrt⟩ := Option.isSome_iff_exists.mp hold'.route
          let asked : ArpqCell :=
            { v.cell with arpqLastReq := now, arpqNumReqs := v.cell.arpqNumReqs + 1 }
          obtain ⟨list₁, hset, hsound₁⟩ := h.exists_setEntry
            (show asked.arpqIp = v.cell.arpqIp from rfl) rfl
          obtain ⟨list, answers, i', hflush, hsound, hanswers⟩ :=
            @ih n { queue with list := list₁ } _ (i + 2) hsound₁.stays hn hrest hrestRoom
          refine ⟨list, _ :: answers, i', ?_, ?_,
            List.Forall₂.cons
              (.asked hidle hfew' (by rw [hcontents]; rfl) hiface hrt) hanswers⟩
          · rw [hold, getOr_some, ok_bind, hiface, arpCreate_of (arpTarget_of hrt), ok_bind,
              sendPacket, getOr_some, ok_bind, ok_bind, hset, ok_bind, hflush, ok_bind]
            rfl
          · rw [List.filterMap_cons_some
              (afterFlush_asked hidle hfew' (by rw [hps]; exact List.cons_ne_nil _ _))]
            simpa using hsound
        next hnone =>
          apply hquiet
          intro _
          refine ⟨hfew', ?_⟩
          rw [hchain.first] at hnone
          exact List.head?_eq_none_iff.mp hnone
    next hearly =>
      apply hquiet
      intro hidle
      exact absurd hidle hearly

/-- A flush that returns has found no options. -/
theorem flushQueueFrom_noOptions {sr : SrInstance} {clock : Nat → Nat} {now : Nat}
    (hclock : ∀ j, clock j = now) {fuel : Nat} {queue : ArpQueue} {l r : List EntryView} {i : Nat}
    {out : ArpQueue × List Sent × Nat} (h : Sound queue (l ++ r))
    (hanswerable : ∀ v ∈ r, ∀ p ∈ contents queue.packets v.packets, Answerable sr p)
    (hflush : flushQueueFrom sr clock fuel queue (r.map EntryView.addr).head? i = .ok out) :
    ∀ v ∈ r, NoOptions queue.packets now v := by
  induction r generalizing l fuel queue i out with
  | nil =>
    intro v hv
    cases hv
  | cons v r ih =>
    cases fuel with
    | zero => cases hflush
    | succ fuel =>
      obtain ⟨node, hnode, hval, -, hnext⟩ := h.split.node
      rw [List.map_map] at hnext
      replace hnext : node.next = (r.map EntryView.addr).head? := hnext
      have hanswerableRest : ∀ w ∈ r, ∀ p ∈ contents queue.packets w.packets, Answerable sr p :=
        fun w hw => hanswerable w (List.mem_cons_of_mem _ hw)
      simp only [List.map_cons, List.head?_cons, flushQueueFrom, hnode, getOr_some, ok_bind, hval,
        hclock, hnext] at hflush
      rw [List.forall_mem_cons]
      split at hflush
      next hidle =>
        split at hflush
        next hmany =>
          -- it is given up: its packets were passed
          simp only [bind_ok, getOr_ok] at hflush
          obtain ⟨sent, hsent, list, hunlink, list', hfree, rest, hrest, -⟩ := hflush
          obtain ⟨_, hunlink', hvalue, hout, hsound⟩ := h.remove
          obtain rfl := Option.some.inj (hunlink'.symm.trans hunlink)
          obtain ⟨_, hfree', hsound⟩ := hsound.free hvalue hout
          obtain rfl := Option.some.inj (hfree'.symm.trans hfree)
          have hmore := ih hsound hanswerableRest hrest
          refine ⟨fun _ => ?_, hmore⟩
          exact ((h.chained v (by simp)).icmpsend_iff
            (hanswerable v List.mem_cons_self)).mp ⟨sent, hsent⟩
        next hfew =>
          have hkept : NoOptions queue.packets now v := fun hgiven => absurd hgiven.2 hfew
          split at hflush
          next first hfirst =>
            simp only [bind_ok] at hflush
            obtain ⟨-, -, -, -, -, -, q, hset, rest, hrest, -⟩ := hflush
            have hsound := h.setEntry (by rfl) (by rfl) hset
            obtain ⟨list, -, rfl⟩ : ∃ list, queue.list.setValue v.addr _ = some list ∧
                { queue with list := list } = q := by
              simpa only [Memory.setEntry, bind_ok, getOr_ok, Except.ok.injEq] using hset
            have hmore := ih hsound.stays hanswerableRest hrest
            exact ⟨hkept, hmore⟩
          next => exact ⟨hkept, ih h.stays hanswerableRest hflush⟩
      next hearly =>
        exact ⟨fun hgiven => absurd hgiven.1 hearly, ih h.stays hanswerableRest hflush⟩

/-- **What the flush does**, wherever in the queue the entries are that it takes out:
what is due, exactly if no entry it gives up on holds a packet with IP options. -/
theorem arpQueueFlush_refreshes_iff {sr : SrInstance} {clock : Nat → Nat} {now : Nat}
    {queue : ArpQueue} {vs : List EntryView} (hclock : ∀ j, clock j = now) (h : Sound queue vs)
    (hanswerable : ∀ v ∈ vs, ∀ p ∈ contents queue.packets v.packets, Answerable sr p) (i : Nat) :
    Refreshes sr clock now queue vs i ↔ ∀ v ∈ vs, NoOptions queue.packets now v := by
  have hfirst : queue.list.first = (vs.map EntryView.addr).head? := by
    rw [h.entries.linked.first_eq, List.map_map]
    rfl
  have hlen : vs.length ≤ queue.list.heap.fresh := by
    have := h.entries.linked.length_le
    rwa [List.length_map, List.length_map] at this
  unfold Refreshes
  rw [arpQueueFlush, hfirst]
  constructor
  · intro hrefreshes
    obtain ⟨list, answers, i', hflush, -⟩ := hrefreshes
    exact @flushQueueFrom_noOptions sr clock now hclock _ queue [] vs i _ h hanswerable hflush
  · intro hroom
    exact @flushQueueFrom_refreshes sr clock now hclock _ queue [] vs i h (Nat.lt_succ_of_le hlen)
      hanswerable hroom

/-- A packet to `10.0.2.5` that waits. -/
def waitingPacket (frame : Bytes) (ipHl : Nat) : QueuedPacket :=
  { fromMAC := plainHeader.fromMAC
    fromIface := gatewayRouter.ifList.head?
    outgoing :=
      { ipFrame frame ipHl 0 with
        toMAC := none, ipLen := none, iface := gatewayRouter.ifList.head? }
    arrival := { packet := [], interface := [0x65], now := 100, number := 0 } }

/-- Behind the placeholder one entry that has had its requests, and one that has
not, with two packets. -/
def waitingEntries : List EntryView :=
  [{ addr := 0
     cell := { arpqIp := 0, arpqNextHop := 0, arpqPackets := { first := none, last := none }
               arpqLastReq := 0, arpqNumReqs := 0 }
     packets := [] },
    { addr := 1
      cell := { arpqIp := 0x0502000a, arpqNextHop := 0x0700000a
                arpqPackets := { first := some 0, last := some 0 }
                arpqLastReq := 100, arpqNumReqs := 5 }
      packets := [0] },
    { addr := 2
      cell := { arpqIp := 0x0602000a, arpqNextHop := 0x0700000a
                arpqPackets := { first := some 1, last := some 2 }
                arpqLastReq := 100, arpqNumReqs := 1 }
      packets := [1, 2] }]

def waitingList : DList ArpqCell :=
  { heap :=
      { cells := waitingEntries.map fun v =>
          some { val := v.cell
                 prev := if v.addr = 0 then none else some (v.addr - 1)
                 next := if v.addr = 2 then none else some (v.addr + 1) } }
    first := some 0, last := some 2 }

/-- The queue of these entries, where `frame` waits for the first of them. -/
def waitingQueue (frame : Bytes) (ipHl : Nat) : ArpQueue :=
  { list := waitingList
    packets :=
      { cells :=
          [some { packet := waitingPacket frame ipHl, next := none },
            some { packet := waitingPacket (datagramTo 5 196) 20, next := some 2 },
            some { packet := waitingPacket (datagramTo 5 196) 20, next := none }] } }

theorem waitingQueue_sound (frame : Bytes) (ipHl : Nat) :
    Sound (waitingQueue frame ipHl) waitingEntries := by
  have hlist : waitingList.Holds (waitingEntries.map EntryView.node) :=
    ⟨⟨by decide, leads_iff_take.mpr (by decide), leads_iff_take.mpr (by decide)⟩, by decide⟩
  refine ⟨⟨hlist, by decide, ?_⟩, by decide⟩
  intro v hv
  simp only [waitingEntries, List.mem_cons, List.not_mem_nil, or_false] at hv
  rcases hv with rfl | rfl | rfl
  · exact chained_nil _
  · refine ⟨by decide, leads_iff_take.mpr fun i hi => ?_, rfl⟩
    match i, hi with
    | 0, _ => rfl
    | 1, _ => rfl
  · refine ⟨by decide, leads_iff_take.mpr fun i hi => ?_, rfl⟩
    match i, hi with
    | 0, _ => rfl
    | 1, _ => rfl
    | 2, _ => rfl

theorem waitingPacket_answerable {frame : Bytes} {ipHl : Nat}
    (hlong : etherHdrLen ≤ frame.length)
    (hplain : testPacket (waitingPacket frame ipHl) = .ok false) :
    Answerable gatewayRouter (waitingPacket frame ipHl) :=
  { ipHeader := rfl, iface := rfl, fromIface := rfl, place := rfl, long := hlong, noError := hplain
    route := show (rtMatch gatewayRouter 0x0502000a).isSome by decide }

theorem waitingQueue_answerable {frame : Bytes} {ipHl : Nat}
    (hanswerable : Answerable gatewayRouter (waitingPacket frame ipHl)) :
    ∀ v ∈ waitingEntries, ∀ p ∈ contents (waitingQueue frame ipHl).packets v.packets,
      Answerable gatewayRouter p := by
  have hother : Answerable gatewayRouter (waitingPacket (datagramTo 5 196) 20) :=
    waitingPacket_answerable (by decide) (by decide)
  intro v hv p hp
  simp only [waitingEntries, List.mem_cons, List.not_mem_nil, or_false] at hv
  rcases hv with rfl | rfl | rfl
  · cases hp
  · obtain rfl := List.mem_singleton.mp hp
    exact hanswerable
  · rcases List.mem_pair.mp hp with rfl | rfl
    · exact hother
    · exact hother

/-- Plain datagrams go back, and the other entry gets another request. -/
theorem waitingQueue_refreshed :
    Refreshes gatewayRouter (fun _ => 200) 200 (waitingQueue (datagramTo 5 196) 20) waitingEntries
      0 := by
  refine (arpQueueFlush_refreshes_iff (fun _ => rfl) (waitingQueue_sound _ _)
    (waitingQueue_answerable (waitingPacket_answerable (by decide) (by decide))) 0).mpr ?_
  decide

/-- A datagram with one word of IP options waits, and the flush does not get past it. -/
theorem optionWaiting_faults :
    Sound (waitingQueue datagramWithOption 24) waitingEntries ∧
      (∀ v ∈ waitingEntries, ∀ p ∈ contents (waitingQueue datagramWithOption 24).packets v.packets,
        Answerable gatewayRouter p) ∧
      ¬ Refreshes gatewayRouter (fun _ => 200) 200 (waitingQueue datagramWithOption 24)
        waitingEntries 0 := by
  refine ⟨waitingQueue_sound _ _,
    waitingQueue_answerable (waitingPacket_answerable (by decide) (by decide)), ?_⟩
  intro h
  obtain ⟨list, answers, i', hflush, -⟩ := h
  have hfault : arpQueueFlush gatewayRouter (fun _ => 200) (waitingQueue datagramWithOption 24) 0 =
      .error .bounds := by
    decide +kernel
  rw [hfault] at hflush
  cases hflush

end UchiNetworks.Router.Memory
