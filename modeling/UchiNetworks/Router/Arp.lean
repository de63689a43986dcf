import UchiNetworks.Router.Icmp

/-!
# The router: the ARP cache and the ARP queue

The two linked lists of `sr_router.c` are lists here, first entry first. A
queue entry is made for a destination address (`arpq_ip`) and released by the
next hop (`arpq_next_hop`).

Mirroring notes vs the C:
- `time(NULL)` gives one value (`now`) during one call of `sr_handlepacket`.
- What goes to `sr_send_packet` is a list of `Sent`; `Sent.goesOut` says whether it
  writes the frame to the server or refuses it.
- Three fields are not of the C and decide nothing: `QueuedPacket.arrival` and
  `Sent.forwards` say which call of `sr_handlepacket` brought the packet, and
  `ArpqEntry.requests` lists the times at which an ARP request was sent for the
  entry, the latest first.
- `arpq_packets_icmpsend` hands the queued frame itself to `sr_send_packet`; the
  ICMP error it builds before is freed unsent, so only its making is kept. For a
  queued ICMP error it never gets past its `continue`.
-/

namespace UchiNetworks.Router

open UchiNetworks.Lib

-- `ARP_MAX_REQ`, `ARP_CACHE_TIMEOUT`, `ARP_REQUEST_TIMEOUT`
def arpMaxReq : UInt8 := 5
def arpCacheTimeout : Nat := 15
def arpRequestTimeout : Nat := 1

/-- A call of `sr_handlepacket`: its arguments, the clock, and its number. -/
structure Arrival where
  packet : Bytes
  interface : IfName
  now : Nat
  number : Nat
  deriving DecidableEq

/-- A call of `sr_send_packet`. -/
structure Sent where
  frame : Bytes
  iface : SrIf
  forwards : Option Arrival
  deriving DecidableEq

/-- `struct arpc_entry` -/
structure ArpcEntry where
  arpcIp : UInt32
  arpcMac : Mac
  arpcTimeout : Nat
  deriving DecidableEq

/-- `struct queued_packet` -/
structure QueuedPacket where
  fromMAC : Mac
  fromIface : Option SrIf
  outgoing : FrameT
  arrival : Arrival
  deriving DecidableEq

/-- `struct arpq_entry`, without `arpq_if`, which is never read -/
structure ArpqEntry where
  arpqIp : UInt32
  arpqNextHop : UInt32
  arpqPackets : List QueuedPacket
  arpqLastReq : Nat
  arpqNumReqs : UInt8
  requests : List Nat
  deriving DecidableEq

/-- Change the first entry that meets the test. -/
def replaceFirst {α : Type} (test : α → Bool) (f : α → α) : List α → List α
  | [] => []
  | x :: xs => if test x then f x :: xs else x :: replaceFirst test f xs

/-- `arp_cache_lookup` -/
def arpCacheLookup (cache : List ArpcEntry) (ip : UInt32) : Option ArpcEntry :=
  cache.find? fun entry => entry.arpcIp == ip

/-- `arp_queue_lookup` -/
def arpQueueLookup (queue : List ArpqEntry) (ip : UInt32) : Option ArpqEntry :=
  queue.find? fun entry => entry.arpqIp == ip

/-- `arpq_next_hop_lookup` -/
def arpqNextHopLookup (queue : List ArpqEntry) (ip : UInt32) : Option ArpqEntry :=
  queue.find? fun entry => entry.arpqNextHop == ip

/-- `arp_cache_update`, on the entry `arp_cache_lookup` finds -/
def arpCacheUpdate (cache : List ArpcEntry) (ip : UInt32) (mac : Mac) (now : Nat) :
    List ArpcEntry :=
  replaceFirst (fun entry => entry.arpcIp == ip)
    (fun entry => { entry with arpcMac := mac, arpcTimeout := now + arpCacheTimeout }) cache

/-- `arp_cache_add` -/
def arpCacheAdd (cache : List ArpcEntry) (mac : Mac) (ip : UInt32) (now : Nat) :
    List ArpcEntry :=
  cache ++ [{ arpcIp := ip, arpcMac := mac, arpcTimeout := now + arpCacheTimeout }]

/-- `arp_cache_flush` -/
def arpCacheFlush (now : Nat) (cache : List ArpcEntry) : List ArpcEntry :=
  cache.filter fun entry => entry.arpcTimeout == 0 || decide (now ≤ entry.arpcTimeout)

/-- The broadcast address. -/
def broadcast : Mac := ⟨List.replicate 6 0xff, rfl⟩

/-- Whom an ARP packet asks for, and where it is sent: a request asks for the
next hop towards the packet's destination, a reply answers the sender. -/
def arpTarget (sr : SrInstance) (incoming : FrameT) (op : Nat) : Res (UInt32 × Mac) := do
  if op = arpRequest then
    let routeEntry ← getOr .null (rtMatch sr incoming.toIp)
    .ok (routeEntry.gw, broadcast)
  else .ok (incoming.fromIp, incoming.fromMAC)

/-- `arp_create` -/
def arpCreate (sr : SrInstance) (incoming : FrameT) (iface : Option SrIf) (op : Nat) :
    Res FrameT := do
  let iface ← getOr .null iface
  let (tip, toMAC) ← arpTarget sr incoming op
  encapsulate
    { frame := (List.range etherSize).map sr.heap ++ be16 1 ++ be16 etherTypeIP ++ [6, 4]
        ++ be16 op ++ iface.addr.val ++ le32 iface.ip ++ incoming.fromMAC.val ++ le32 tip
      ipHeader := none
      arpHeader := some etherSize
      icmpHeader := none
      fromMAC := iface.addr
      toMAC := some toMAC
      fromIp := iface.ip
      toIp := tip
      iface := some iface
      ipHl := 0
      ipLen := some 0 }

/-- `sr_ether_addrs_match_interface`; `sr_get_interface` is `get_interface` once more. -/
def srEtherAddrsMatchInterface (sr : SrInstance) (buf : Bytes) (name : IfName) : Bool :=
  match getInterface sr name with
  | none => false
  | some iface => readMac buf 6 == some iface.addr

/-- `sr_send_packet`: is the frame written to the server? -/
def srSendPacket (sr : SrInstance) (buf : Bytes) (iface : IfName) : Bool :=
  if buf.length < etherSize then false
  else srEtherAddrsMatchInterface sr buf iface

/-- What became of a call of `sr_send_packet`. -/
def Sent.goesOut (sr : SrInstance) (sent : Sent) : Bool :=
  srSendPacket sr sent.frame sent.iface.name

/-- Hand a frame to `sr_send_packet` on its interface. -/
def sendPacket (outgoing : FrameT) (forwards : Option Arrival) : Res Sent := do
  let iface ← getOr .null outgoing.iface
  .ok { frame := outgoing.frame, iface := iface, forwards := forwards }

/-- `arpq_add_packet` -/
def arpqAddPacket (entry : ArpqEntry) (packet : FrameT) (oldMAC : Mac) (oldIface : Option SrIf)
    (arrival : Arrival) : ArpqEntry :=
  { entry with
    arpqNumReqs := entry.arpqNumReqs + 1
    arpqPackets := entry.arpqPackets ++
      [{ fromMAC := oldMAC, fromIface := oldIface, outgoing := packet, arrival := arrival }] }

/-- `arpq_add_entry`: the new entry; its next hop is set by the caller. -/
def arpqAddEntry (sr : SrInstance) (packet : FrameT) (ip : UInt32) (oldMAC : Mac)
    (oldIface : Option SrIf) (arrival : Arrival) : ArpqEntry :=
  let entry := arpqAddPacket
    { arpqIp := ip, arpqNextHop := sr.junkHop, arpqPackets := [], arpqLastReq := 0,
      arpqNumReqs := 0, requests := [] } packet oldMAC oldIface arrival
  { entry with arpqLastReq := arrival.now, arpqNumReqs := 0 }

/-- The loop of `arpq_entry_clear`: every packet of the entry, in order. -/
def arpqEntryClear (dHa : Mac) : List QueuedPacket → Res (List Sent)
  | [] => .ok []
  | qpacket :: rest => do
    let iface ← getOr .null qpacket.outgoing.iface
    let outgoing ← encapsulate
      { qpacket.outgoing with fromMAC := iface.addr, toMAC := some dHa }
    let sent ← sendPacket outgoing (some qpacket.arrival)
    let more ← arpqEntryClear dHa rest
    .ok (sent :: more)

/-- What `malloc` leaves in the `to_MAC` of a `struct frame_t`, at offset 50. -/
def leftMAC (sr : SrInstance) : Mac := ⟨(List.range 6).map fun i => sr.heap (50 + i), rfl⟩

/-- What it leaves in the `ip_len`, at offset 96. -/
def leftLen (sr : SrInstance) : Nat :=
  ((List.range 8).map fun i => sr.heap (96 + i)).foldr (fun b n => b.toNat + 256 * n) 0

/-- The `generate_icmp_error` of `arpq_packets_icmpsend`, on the queued packet with its
old interface and address put back. `update_ip_hdr` has set neither `to_MAC` nor
`ip_len`. -/
def hostUnreachable (sr : SrInstance) (packet : QueuedPacket) : Res FrameT :=
  generateIcmpError sr
    { packet.outgoing with
      iface := packet.fromIface
      fromMAC := packet.fromMAC
      toMAC := some (packet.outgoing.toMAC.getD (leftMAC sr))
      ipLen := some (packet.outgoing.ipLen.getD (leftLen sr)) }
    destUnreach hostUnreach

/-- `arpq_packets_icmpsend` -/
def arpqPacketsIcmpsend (sr : SrInstance) : List QueuedPacket → Res (List Sent)
  | [] => .ok []
  | packet :: rest => do
    let ip ← getOr .null packet.outgoing.ipHeader
    let stuck ← carriesIcmpError packet.outgoing.frame ip packet.outgoing.ipHl
    if stuck then .error .endless
    else
      let _ ← hostUnreachable sr packet
      let iface ← getOr .null packet.fromIface
      let more ← arpqPacketsIcmpsend sr rest
      .ok ({ frame := packet.outgoing.frame, iface := iface, forwards := none } :: more)

/-- What `arp_queue_flush` does with one entry: is it kept, and what is sent. -/
def flushEntry (sr : SrInstance) (now : Nat) (entry : ArpqEntry) :
    Res (Option ArpqEntry × List Sent) := do
  if now - arpRequestTimeout > entry.arpqLastReq then
    if entry.arpqNumReqs ≥ arpMaxReq then
      let sent ← arpqPacketsIcmpsend sr entry.arpqPackets
      .ok (none, sent)
    else
      match entry.arpqPackets with
      | oldPacket :: _ =>
        let arpReq ← arpCreate sr oldPacket.outgoing oldPacket.outgoing.iface arpRequest
        let sent ← sendPacket arpReq none
        .ok (some { entry with
                    arpqLastReq := now
                    arpqNumReqs := entry.arpqNumReqs + 1
                    requests := now :: entry.requests }, [sent])
      | [] => .ok (some entry, [])
  else .ok (some entry, [])

/-- `arp_queue_flush`: the entries that stay, and what was sent. -/
def arpQueueFlush (sr : SrInstance) (now : Nat) :
    List ArpqEntry → Res (List ArpqEntry × List Sent)
  | [] => .ok ([], [])
  | entry :: rest => do
    let (kept, sent) ← flushEntry sr now entry
    let (queue, more) ← arpQueueFlush sr now rest
    .ok (kept.toList ++ queue, sent ++ more)

/-- The last request for an entry is more than `ARP_REQUEST_TIMEOUT` old. -/
def Idle (now lastReq : Nat) : Prop := lastReq < now - arpRequestTimeout

instance (now lastReq : Nat) : Decidable (Idle now lastReq) :=
  inferInstanceAs (Decidable (_ < _))

/-- The entry has had its requests, and the last of them is old: what the flush gives
up on. -/
def GivenUp (now lastReq : Nat) (numReqs : UInt8) : Prop :=
  Idle now lastReq ∧ arpMaxReq ≤ numReqs

instance (now lastReq : Nat) (numReqs : UInt8) : Decidable (GivenUp now lastReq numReqs) :=
  inferInstanceAs (Decidable (_ ∧ _))

end UchiNetworks.Router
