import UchiNetworks.Lib.LinkedList
import UchiNetworks.Router.Handle

/-!
# The router: the two lists in memory

`Router.Arp` and `Router.Handle` have the cache and the queue as lists and give
each call one time. Here they are what `sr_router.c` keeps, nodes linked by
pointers and given back with `free`, and every `time(NULL)` reads the clock
again.

Mirroring notes vs the C:
- A function takes the lists it works on and returns them. The entries of the
  cache, those of the queue and the queued packets live in heaps of their own.
- `clock i` is what the `i`-th `time(NULL)` of a call returns. A function that is
  followed by more readings takes the number of readings so far and returns it.
- The frame of a queued packet is a copy of its own (`arpq_add_packet`) that comes
  and goes with its node, so it is part of the node.
- What `arpq_packets_icmpsend` writes into the packets is left out: they are freed
  or lost right after.
- A loop makes one round more than addresses were handed out. One that needs more
  goes round in a circle.
-/

namespace UchiNetworks.Router.Memory

open UchiNetworks.Lib

/-- `struct arp_cache` -/
abbrev ArpCache := DList ArpcEntry

/-- `struct packetq` -/
structure Packetq where
  first : Option Nat
  last : Option Nat
  deriving DecidableEq

/-- `struct arpq_entry`, without its links and `arpq_if` -/
structure ArpqCell where
  arpqIp : UInt32
  arpqNextHop : UInt32
  arpqPackets : Packetq
  arpqLastReq : Nat
  arpqNumReqs : UInt8
  deriving DecidableEq

/-- `struct queued_packet` -/
structure PacketNode where
  packet : QueuedPacket
  next : Option Nat
  deriving DecidableEq

/-- `struct arp_queue`, and the memory of the queued packets -/
structure ArpQueue where
  list : DList ArpqCell
  packets : Heap PacketNode
  deriving DecidableEq

/-! ## The cache -/

/-- `arp_cache_lookup` -/
def arpCacheLookup (cache : ArpCache) (ip : UInt32) : Res (Option Nat) :=
  cache.find .freed .endless (fun entry => entry.arpcIp == ip) (cache.heap.fresh + 1) cache.first

/-- `arp_cache_update` -/
def arpCacheUpdate (cache : ArpCache) (entry : Nat) (mac : Mac) (now : Nat) : Res ArpCache := do
  let node ← getOr .freed (cache.heap.read entry)
  getOr .freed
    (cache.setValue entry { node.val with arpcMac := mac, arpcTimeout := now + arpCacheTimeout })

/-- `arp_cache_add` -/
def arpCacheAdd (cache : ArpCache) (mac : Mac) (ip : UInt32) (now : Nat) : Res ArpCache :=
  getOr .freed
    ((cache.alloc
      { arpcIp := ip, arpcMac := mac, arpcTimeout := now + arpCacheTimeout }).linkLast
      cache.heap.fresh)

/-- The loop of `arp_cache_flush`, from an entry on. -/
def flushCacheFrom (clock : Nat → Nat) : Nat → ArpCache → Option Nat → Nat → Res (ArpCache × Nat)
  | 0, _, _, _ => .error .endless
  | _ + 1, cache, none, i => .ok (cache, i)
  | fuel + 1, cache, some entry, i => do
    let node ← getOr .freed (cache.heap.read entry)
    if node.val.arpcTimeout = 0 then flushCacheFrom clock fuel cache node.next i
    else if clock i > node.val.arpcTimeout then
      let cache ← getOr .freed (cache.unlink entry)
      -- `entry->next` is read after the neighbours were changed
      let node ← getOr .freed (cache.heap.read entry)
      let cache ← getOr .freed (cache.free entry)
      flushCacheFrom clock fuel cache node.next (i + 1)
    else flushCacheFrom clock fuel cache node.next (i + 1)

/-- `arp_cache_flush` -/
def arpCacheFlush (clock : Nat → Nat) (cache : ArpCache) (i : Nat) : Res (ArpCache × Nat) :=
  flushCacheFrom clock (cache.heap.fresh + 1) cache cache.first i

/-! ## The queue -/

/-- `arp_queue_lookup` -/
def arpQueueLookup (queue : ArpQueue) (ip : UInt32) : Res (Option Nat) :=
  queue.list.find .freed .endless (fun entry => entry.arpqIp == ip) (queue.list.heap.fresh + 1)
    queue.list.first

/-- `arpq_next_hop_lookup` -/
def arpqNextHopLookup (queue : ArpQueue) (ip : UInt32) : Res (Option Nat) :=
  queue.list.find .freed .endless (fun entry => entry.arpqNextHop == ip)
    (queue.list.heap.fresh + 1) queue.list.first

/-- Read an entry of the queue. -/
def entryAt (queue : ArpQueue) (entry : Nat) : Res ArpqCell :=
  getOr .freed (queue.list.value entry)

/-- Write an entry of the queue. -/
def setEntry (queue : ArpQueue) (entry : Nat) (cell : ArpqCell) : Res ArpQueue := do
  let list ← getOr .freed (queue.list.setValue entry cell)
  .ok { queue with list := list }

/-- The queued packets from one on. -/
def packetsFrom (packets : Heap PacketNode) : Nat → Option Nat → Res (List QueuedPacket)
  | 0, _ => .error .endless
  | _ + 1, none => .ok []
  | fuel + 1, some p => do
    let node ← getOr .freed (packets.read p)
    let rest ← packetsFrom packets fuel node.next
    .ok (node.packet :: rest)

/-- `arpq_packets_icmpsend` -/
def arpqPacketsIcmpsend (sr : SrInstance) (queue : ArpQueue) (arpqPackets : Packetq) :
    Res (List Sent) := do
  let packets ← packetsFrom queue.packets (queue.packets.fresh + 1) arpqPackets.first
  Router.arpqPacketsIcmpsend sr packets

/-- The loop of `destroy_arpq_entry`. -/
def freePackets : Nat → Heap PacketNode → Option Nat → Res (Heap PacketNode)
  | 0, _, _ => .error .endless
  | _ + 1, packets, none => .ok packets
  | fuel + 1, packets, some packet => do
    let node ← getOr .freed (packets.read packet)
    let packets ← getOr .freed (packets.free packet)
    freePackets fuel packets node.next

/-- `destroy_arpq_entry` -/
def destroyArpqEntry (queue : ArpQueue) (entry : Nat) : Res ArpQueue := do
  let cell ← entryAt queue entry
  let packets ← freePackets (queue.packets.fresh + 1) queue.packets cell.arpqPackets.first
  let list ← getOr .freed (queue.list.free entry)
  .ok { list := list, packets := packets }

/-- `arpq_add_packet` -/
def arpqAddPacket (queue : ArpQueue) (entry : Nat) (packet : FrameT) (oldMAC : Mac)
    (oldIface : Option SrIf) (arrival : Arrival) : Res ArpQueue := do
  let cell ← entryAt queue entry
  let newPacket := queue.packets.fresh
  let packets := queue.packets.alloc
    { packet := { fromMAC := oldMAC, fromIface := oldIface, outgoing := packet, arrival := arrival }
      next := none }
  match cell.arpqPackets.first with
  | some _ =>
    let last ← getOr .null cell.arpqPackets.last
    let packets ← getOr .freed (packets.modify last fun node => { node with next := newPacket })
    setEntry { queue with packets := packets } entry
      { cell with
        arpqNumReqs := cell.arpqNumReqs + 1
        arpqPackets := { cell.arpqPackets with last := newPacket } }
  | none =>
    setEntry { queue with packets := packets } entry
      { cell with
        arpqNumReqs := cell.arpqNumReqs + 1
        arpqPackets := { first := newPacket, last := newPacket } }

/-- `arpq_add_entry`: the queue, and the new entry. -/
def arpqAddEntry (sr : SrInstance) (queue : ArpQueue) (packet : FrameT) (ip : UInt32)
    (oldMAC : Mac) (oldIface : Option SrIf) (arrival : Arrival) (now : Nat) :
    Res (ArpQueue × Nat) := do
  let newEntry := queue.list.heap.fresh
  let queue := { queue with
                 list := queue.list.alloc
                   { arpqIp := ip, arpqNextHop := sr.junkHop
                     arpqPackets := { first := none, last := none }
                     arpqLastReq := 0, arpqNumReqs := 0 } }
  let queue ← arpqAddPacket queue newEntry packet oldMAC oldIface arrival
  let cell ← entryAt queue newEntry
  let queue ← setEntry queue newEntry { cell with arpqLastReq := now, arpqNumReqs := 0 }
  let list ← getOr .freed (queue.list.linkLast newEntry)
  .ok ({ queue with list := list }, newEntry)

/-- The loop of `arpq_entry_clear`. -/
def clearPackets (dHa : Mac) (entry : Nat) : Nat → ArpQueue → Res (ArpQueue × List Sent)
  | 0, _ => .error .endless
  | fuel + 1, queue => do
    let cell ← entryAt queue entry
    match cell.arpqPackets.first with
    | none => .ok (queue, [])
    | some first =>
      let qpacket ← getOr .freed (queue.packets.read first)
      let iface ← getOr .null qpacket.packet.outgoing.iface
      let outgoing ← encapsulate
        { qpacket.packet.outgoing with fromMAC := iface.addr, toMAC := some dHa }
      let sent ← sendPacket outgoing (some qpacket.packet.arrival)
      let left := { first := qpacket.next
                    last := if qpacket.next.isNone then none else cell.arpqPackets.last }
      let queue ← setEntry queue entry { cell with arpqPackets := left }
      let packets ← getOr .freed (queue.packets.free first)
      let (queue, more) ← clearPackets dHa entry fuel { queue with packets := packets }
      .ok (queue, sent :: more)

/-- `arpq_entry_clear`: an entry at the head of the queue is not freed. -/
def arpqEntryClear (queue : ArpQueue) (entry : Nat) (dHa : Mac) :
    Res (ArpQueue × List Sent) := do
  let (queue, sent) ← clearPackets dHa entry (queue.packets.fresh + 1) queue
  let node ← getOr .freed (queue.list.heap.read entry)
  let list ← getOr .freed (queue.list.unlink entry)
  if node.prev.isSome then
    let queue ← destroyArpqEntry { queue with list := list } entry
    .ok (queue, sent)
  else .ok ({ queue with list := list }, sent)

/-- The loop of `arp_queue_flush`, from an entry on. -/
def flushQueueFrom (sr : SrInstance) (clock : Nat → Nat) :
    Nat → ArpQueue → Option Nat → Nat → Res (ArpQueue × List Sent × Nat)
  | 0, _, _, _ => .error .endless
  | _ + 1, queue, none, i => .ok (queue, [], i)
  | fuel + 1, queue, some entry, i => do
    let node ← getOr .freed (queue.list.heap.read entry)
    let cell := node.val
    if clock i - arpRequestTimeout > cell.arpqLastReq then
      if cell.arpqNumReqs ≥ arpMaxReq then
        let sent ← arpqPacketsIcmpsend sr queue cell.arpqPackets
        let list ← getOr .freed (queue.list.unlink entry)
        let list ← getOr .freed (list.free entry)
        let (queue, more, i) ← flushQueueFrom sr clock fuel { queue with list := list } node.next
          (i + 1)
        .ok (queue, sent ++ more, i)
      else
        match cell.arpqPackets.first with
        | some first =>
          let oldPacket ← getOr .freed (queue.packets.read first)
          let outgoing := oldPacket.packet.outgoing
          let arpReq ← arpCreate sr outgoing outgoing.iface arpRequest
          let sent ← sendPacket arpReq none
          let queue ← setEntry queue entry
            { cell with arpqLastReq := clock (i + 1), arpqNumReqs := cell.arpqNumReqs + 1 }
          let (queue, more, i) ← flushQueueFrom sr clock fuel queue node.next (i + 2)
          .ok (queue, sent :: more, i)
        | none => flushQueueFrom sr clock fuel queue node.next (i + 1)
    else flushQueueFrom sr clock fuel queue node.next (i + 1)

/-- `arp_queue_flush` -/
def arpQueueFlush (sr : SrInstance) (clock : Nat → Nat) (queue : ArpQueue) (i : Nat) :
    Res (ArpQueue × List Sent × Nat) :=
  flushQueueFrom sr clock (queue.list.heap.fresh + 1) queue queue.list.first i

/-! ## `sr_handlepacket` -/

/-- The router between two packets. -/
structure RouterMemory where
  cache : ArpCache
  queue : ArpQueue
  wire : List Sent
  calls : Nat
  deriving DecidableEq

/-- `sr_init` -/
def srInit (sr : SrInstance) : RouterMemory :=
  { cache :=
      { heap :=
          { cells := [some { val := { arpcIp := 0, arpcMac := broadcast, arpcTimeout := 0 }
                             prev := none, next := none }] }
        first := some 0, last := some 0 }
    queue :=
      { list :=
          { heap :=
              { cells := [some { val := { arpqIp := 0, arpqNextHop := sr.junkHop
                                          arpqPackets := { first := none, last := none }
                                          arpqLastReq := 0, arpqNumReqs := 0 }
                                 prev := none, next := none }] }
            first := some 0, last := some 0 }
        packets := { cells := [] } }
    wire := []
    calls := 0 }

/-- The end of `sr_handlepacket`: send the datagram, if there is one. -/
def sendDatagram (outgoing : Option FrameT) (forwards : Option Arrival) : Res (List Sent) :=
  match outgoing with
  | none => .ok []
  | some outgoing => do
    let sent ← sendPacket outgoing forwards
    .ok [sent]

/-- Too many requests: the entry is destroyed and the call is over. -/
def giveUp (sr : SrInstance) (queue : ArpQueue) (entry : Nat) : Res (ArpQueue × List Sent) := do
  let cell ← entryAt queue entry
  let sent ← arpqPacketsIcmpsend sr queue cell.arpqPackets
  let queue ← destroyArpqEntry queue entry
  .ok (queue, sent)

/-- The packet joins the entry, and an ARP request is sent. -/
def joinEntry (sr : SrInstance) (queue : ArpQueue) (entry : Nat) (arrival : Arrival)
    (incoming outgoing : FrameT) : Res (ArpQueue × List Sent) := do
  let cell ← entryAt queue entry
  -- `assert( (entry->arpq_packets).first )`
  if cell.arpqPackets.first.isNone then .error .assertion
  else
    let queue ← arpqAddPacket queue entry outgoing incoming.fromMAC incoming.iface arrival
    let request ← arpCreate sr outgoing outgoing.iface arpRequest
    let sent ← sendDatagram (some request) none
    .ok (queue, sent)

/-- The entry that already waits for this destination. -/
def touchEntry (sr : SrInstance) (clock : Nat → Nat) (queue : ArpQueue) (i entry : Nat)
    (arrival : Arrival) (incoming outgoing : FrameT) : Res (ArpQueue × List Sent) := do
  let cell ← entryAt queue entry
  if clock i - 1 > cell.arpqLastReq then
    if cell.arpqNumReqs ≥ arpMaxReq then giveUp sr queue entry
    else if cell.arpqPackets.first.isSome then
      let queue ← setEntry queue entry
        { cell with arpqLastReq := clock (i + 1), arpqNumReqs := cell.arpqNumReqs + 1 }
      joinEntry sr queue entry arrival incoming outgoing
    else joinEntry sr queue entry arrival incoming outgoing
  else joinEntry sr queue entry arrival incoming outgoing

/-- No entry waits for this destination yet. -/
def openEntry (sr : SrInstance) (queue : ArpQueue) (arrival : Arrival)
    (incoming outgoing : FrameT) (now : Nat) : Res (ArpQueue × List Sent) := do
  let (queue, entry) ← arpqAddEntry sr queue outgoing outgoing.toIp incoming.fromMAC incoming.iface
    arrival now
  let request ← arpCreate sr outgoing outgoing.iface arpRequest
  let cell ← entryAt queue entry
  let queue ← setEntry queue entry { cell with arpqNextHop := request.toIp }
  let sent ← sendDatagram (some request) none
  .ok (queue, sent)

/-- The part of the forwarding branch for a next hop that is not in the cache. -/
def queuePacket (sr : SrInstance) (clock : Nat → Nat) (queue : ArpQueue) (i : Nat)
    (arrival : Arrival) (incoming outgoing : FrameT) : Res (ArpQueue × List Sent) := do
  match ← arpQueueLookup queue outgoing.toIp with
  | some entry => touchEntry sr clock queue i entry arrival incoming outgoing
  | none => openEntry sr queue arrival incoming outgoing (clock i)

/-- The branch of `sr_handlepacket` that forwards a packet or queues it. -/
def forwardPacket (sr : SrInstance) (clock : Nat → Nat) (cache : ArpCache) (queue : ArpQueue)
    (i : Nat) (arrival : Arrival) (incoming : FrameT) : Res (ArpQueue × List Sent) := do
  let (outgoing, arpcIp) ← updateIpHdr sr incoming
  match ← arpCacheLookup cache arpcIp with
  | some incache =>
    let entry ← getOr .freed (cache.value incache)
    let outgoing ← encapsulate { outgoing with toMAC := some entry.arpcMac }
    let sent ← sendDatagram (some outgoing) (some arrival)
    .ok (queue, sent)
  | none => queuePacket sr clock queue i arrival incoming outgoing

/-- The IP branch of `sr_handlepacket`. -/
def handleIp (sr : SrInstance) (clock : Nat → Nat) (cache : ArpCache) (queue : ArpQueue)
    (i : Nat) (arrival : Arrival) (incoming : FrameT) : Res (ArpQueue × List Sent) := do
  match ← checkIp incoming with
  | none => .ok (queue, [])
  | some incoming =>
    match ← ifDstCheck sr incoming.toIp with
    | some _ =>
      let outgoing ← localReply sr incoming
      let sent ← sendDatagram outgoing none
      .ok (queue, sent)
    | none =>
      let ttl ← getOr .bounds incoming.frame[etherSize + 8]?
      if ttl ≤ 0 then
        let outgoing ← ttlReply sr incoming
        let sent ← sendDatagram outgoing none
        .ok (queue, sent)
      else forwardPacket sr clock cache queue i arrival incoming

/-- A sender that was not in the cache: it is added, and the first queue entry
with this next hop is cleared. -/
def learnSender (cache : ArpCache) (queue : ArpQueue) (sip : UInt32) (sha : Mac) (now : Nat) :
    Res (ArpCache × ArpQueue × List Sent) := do
  let cache ← arpCacheAdd cache sha sip now
  match ← arpqNextHopLookup queue sip with
  | some newEnt =>
    let (queue, sent) ← arpqEntryClear queue newEnt sha
    .ok (cache, queue, sent)
  | none => .ok (cache, queue, [])

/-- The answer to an ARP request. -/
def answerArp (sr : SrInstance) (incoming : FrameT) (op : Nat) : Res (List Sent) := do
  if op = arpRequest then
    let outgoing ← arpCreate sr incoming incoming.iface arpReply
    sendDatagram (some outgoing) none
  else .ok []

/-- The ARP branch of `sr_handlepacket`. -/
def handleArp (sr : SrInstance) (cache : ArpCache) (queue : ArpQueue) (now : Nat)
    (incoming : FrameT) : Res (ArpCache × ArpQueue × List Sent) := do
  let sha ← getOr .bounds (readMac incoming.frame (etherSize + 8))
  let sip ← getOr .bounds (readU32 incoming.frame (etherSize + 14))
  let tip ← getOr .bounds (readU32 incoming.frame (etherSize + 24))
  let op ← getOr .bounds (readBe16 incoming.frame (etherSize + 6))
  match ← arpCacheLookup cache sip with
  | some arpcEnt =>
    let cache ← arpCacheUpdate cache arpcEnt sha now
    match ← ifDstCheck sr tip with
    | none => .ok (cache, queue, [])
    | some _ =>
      let sent ← answerArp sr incoming op
      .ok (cache, queue, sent)
  | none =>
    match ← ifDstCheck sr tip with
    | none => .ok (cache, queue, [])
    | some _ =>
      let (cache, queue, released) ← learnSender cache queue sip sha now
      let sent ← answerArp sr incoming op
      .ok (cache, queue, released ++ sent)

/-- A packet comes in; `clock i` is the `i`-th value of `time(NULL)` while it is
handled. -/
structure Call where
  packet : Bytes
  interface : IfName
  clock : Nat → Nat

/-- The call as the ghost fields have it. -/
def Call.arrival (c : Call) (number : Nat) : Arrival :=
  { packet := c.packet, interface := c.interface, now := c.clock 0, number := number }

/-- `sr_handlepacket` -/
def srHandlepacket (sr : SrInstance) (mem : RouterMemory) (c : Call) : Res RouterMemory := do
  if c.packet.length < etherHdrLen then .ok { mem with calls := mem.calls + 1 }
  else
    let created ← createFrameT sr c.packet c.interface
    let (cache, i) ← arpCacheFlush c.clock mem.cache 0
    let (queue, flushed, i) ← arpQueueFlush sr c.clock mem.queue i
    let incoming ← getOr .null created
    if incoming.ipHeader.isSome then
      let (queue, sent) ← handleIp sr c.clock cache queue i (c.arrival mem.calls) incoming
      .ok { cache := cache, queue := queue, wire := mem.wire ++ flushed ++ sent
            calls := mem.calls + 1 }
    else
      let (cache, queue, sent) ← handleArp sr cache queue (c.clock i) incoming
      .ok { cache := cache, queue := queue, wire := mem.wire ++ flushed ++ sent
            calls := mem.calls + 1 }

/-- One call of a run; a router that went down stays down. -/
def step (sr : SrInstance) (mem : Option RouterMemory) (c : Call) : Option RouterMemory :=
  mem.bind fun mem => (srHandlepacket sr mem c).toOption

end UchiNetworks.Router.Memory
