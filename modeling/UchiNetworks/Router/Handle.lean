import UchiNetworks.Lib.Run
import UchiNetworks.Router.Arp

/-!
# The router: `sr_handlepacket`

The entry point, cut at its branches: `handleIp` and `handleArp` are the two
protocols, `forwardPacket` is the branch that forwards or queues.
-/

namespace UchiNetworks.Router

open UchiNetworks.Lib

/-- The router between two packets: the two lists, everything handed to
`sr_send_packet` so far, and the number of calls. -/
structure RouterState where
  cache : List ArpcEntry
  queue : List ArpqEntry
  wire : List Sent
  calls : Nat
  deriving DecidableEq

/-- `sr_init`: one placeholder in each list. -/
def srInit (sr : SrInstance) : RouterState :=
  { cache := [{ arpcIp := 0, arpcMac := broadcast, arpcTimeout := 0 }]
    queue := [{ arpqIp := 0, arpqNextHop := sr.junkHop, arpqPackets := [], arpqLastReq := 0,
                arpqNumReqs := 0, requests := [] }]
    wire := []
    calls := 0 }

/-- The end of `sr_handlepacket`: send the datagram, if there is one. -/
def sendDatagram (st : RouterState) (outgoing : Option FrameT) (forwards : Option Arrival) :
    Res RouterState :=
  match outgoing with
  | none => .ok st
  | some outgoing => do
    let sent ← sendPacket outgoing forwards
    .ok { st with wire := st.wire ++ [sent] }

/-- What happens to the entry that already waits for this destination. One that
has had too many requests is destroyed while it is still linked. -/
def touchEntry (now : Nat) (entry : ArpqEntry) : Res ArpqEntry :=
  if now - 1 > entry.arpqLastReq then
    if entry.arpqNumReqs ≥ arpMaxReq then .error .freed
    else if entry.arpqPackets.isEmpty then .ok entry
    else .ok { entry with arpqLastReq := now, arpqNumReqs := entry.arpqNumReqs + 1 }
  else .ok entry

/-- The part of the forwarding branch for a next hop that is not in the cache:
the packet joins the queue, and an ARP request is sent. -/
def queuePacket (sr : SrInstance) (st : RouterState) (arrival : Arrival)
    (incoming outgoing : FrameT) : Res RouterState := do
  match arpQueueLookup st.queue outgoing.toIp with
  | some entry =>
    let entry ← touchEntry arrival.now entry
    -- `assert( (entry->arpq_packets).first )`
    if entry.arpqPackets.isEmpty then .error .assertion
    else
      let entry := arpqAddPacket entry outgoing incoming.fromMAC incoming.iface arrival
      let request ← arpCreate sr outgoing outgoing.iface arpRequest
      let entry := { entry with requests := arrival.now :: entry.requests }
      sendDatagram
        { st with
          queue := replaceFirst (fun e => e.arpqIp == outgoing.toIp) (fun _ => entry) st.queue }
        (some request) none
  | none =>
    let entry := arpqAddEntry sr outgoing outgoing.toIp incoming.fromMAC incoming.iface arrival
    let request ← arpCreate sr outgoing outgoing.iface arpRequest
    let entry := { entry with arpqNextHop := request.toIp, requests := [arrival.now] }
    sendDatagram { st with queue := st.queue ++ [entry] } (some request) none

/-- The branch of `sr_handlepacket` that forwards a packet or queues it. -/
def forwardPacket (sr : SrInstance) (st : RouterState) (arrival : Arrival) (incoming : FrameT) :
    Res RouterState := do
  let (outgoing, arpcIp) ← updateIpHdr sr incoming
  match arpCacheLookup st.cache arpcIp with
  | some incache =>
    let outgoing ← encapsulate { outgoing with toMAC := some incache.arpcMac }
    sendDatagram st (some outgoing) (some arrival)
  | none => queuePacket sr st arrival incoming outgoing

/-- The datagram that answers a packet for one of our own addresses. -/
def localReply (sr : SrInstance) (incoming : FrameT) : Res (Option FrameT) := do
  match incoming.icmpHeader with
  | some icmp =>
    let incoming ← computeIcmpChecksum incoming
    let icmpType ← getOr .bounds incoming.frame[icmp]?
    let sum ← getOr .bounds (Buffer.read incoming.frame (icmp + 2) 2)
    if icmpType = echoRequest ∧ sum = [0, 0] then
      let outgoing ← generateIcmpEcho incoming
      .ok (some outgoing)
    else .ok none
  | none =>
    let outgoing ← generateIcmpError sr incoming destUnreach portUnreach
    .ok (some outgoing)

/-- The datagram that answers a packet whose TTL is used up. -/
def ttlReply (sr : SrInstance) (incoming : FrameT) : Res (Option FrameT) := do
  let err ← carriesIcmpError incoming.frame etherSize incoming.ipHl
  if err then .ok none
  else
    let outgoing ← generateIcmpError sr incoming timeExceeded timeIntransit
    .ok (some outgoing)

/-- The sanity checks of the IP branch: the frame they let pass, if they do. -/
def checkIp (incoming : FrameT) : Res (Option FrameT) := do
  let vhl ← getOr .bounds incoming.frame[etherSize]?
  if vhl >>> 4 ≠ 4 then .ok none
  else
    let checked ← computeIpChecksum incoming
    let ipSum ← getOr .bounds (Buffer.read checked.frame (etherSize + 10) 2)
    if ipSum ≠ [0, 0] then .ok none
    else
      let incoming ← computeIpChecksum checked
      .ok (some incoming)

/-- The IP branch of `sr_handlepacket`. -/
def handleIp (sr : SrInstance) (st : RouterState) (arrival : Arrival) (incoming : FrameT) :
    Res RouterState := do
  match ← checkIp incoming with
  | none => .ok st
  | some incoming =>
    match ← ifDstCheck sr incoming.toIp with
    | some _ =>
      let outgoing ← localReply sr incoming
      sendDatagram st outgoing none
    | none =>
      let ttl ← getOr .bounds incoming.frame[etherSize + 8]?
      if ttl ≤ 0 then
        let outgoing ← ttlReply sr incoming
        sendDatagram st outgoing none
      else forwardPacket sr st arrival incoming

/-- A sender that was not in the cache: it is added, and the first queue entry
with this next hop is cleared. -/
def learnSender (st : RouterState) (sip : UInt32) (sha : Mac) (now : Nat) :
    Res RouterState :=
  let st := { st with cache := arpCacheAdd st.cache sha sip now }
  match arpqNextHopLookup st.queue sip with
  | some newEnt => do
    let sent ← arpqEntryClear sha newEnt.arpqPackets
    .ok { st with
          queue := st.queue.eraseP fun e => e.arpqNextHop == sip
          wire := st.wire ++ sent }
  | none => .ok st

/-- The answer to an ARP request. -/
def answerArp (sr : SrInstance) (st : RouterState) (incoming : FrameT) (op : Nat) :
    Res RouterState := do
  if op = arpRequest then
    let outgoing ← arpCreate sr incoming incoming.iface arpReply
    sendDatagram st (some outgoing) none
  else .ok st

/-- The ARP branch of `sr_handlepacket`. -/
def handleArp (sr : SrInstance) (st : RouterState) (arrival : Arrival) (incoming : FrameT) :
    Res RouterState := do
  let sha ← getOr .bounds (readMac incoming.frame (etherSize + 8))
  let sip ← getOr .bounds (readU32 incoming.frame (etherSize + 14))
  let tip ← getOr .bounds (readU32 incoming.frame (etherSize + 24))
  let op ← getOr .bounds (readBe16 incoming.frame (etherSize + 6))
  match arpCacheLookup st.cache sip with
  | some _ =>
    let st := { st with cache := arpCacheUpdate st.cache sip sha arrival.now }
    match ← ifDstCheck sr tip with
    | none => .ok st
    | some _ => answerArp sr st incoming op
  | none =>
    match ← ifDstCheck sr tip with
    | none => .ok st
    | some _ =>
      let st ← learnSender st sip sha arrival.now
      answerArp sr st incoming op

-- `ETHER_HDR_LEN` of `sr_router.c`
def etherHdrLen : Nat := 42

/-- `sr_handlepacket` -/
def srHandlepacket (sr : SrInstance) (st : RouterState) (packet : Bytes) (interface : IfName)
    (now : Nat) : Res RouterState := do
  let arrival : Arrival :=
    { packet := packet, interface := interface, now := now, number := st.calls }
  if packet.length < etherHdrLen then .ok { st with calls := st.calls + 1 }
  else
    let created ← createFrameT sr packet interface
    let cache := arpCacheFlush now st.cache
    let (queue, flushed) ← arpQueueFlush sr now st.queue
    let st : RouterState :=
      { cache := cache, queue := queue, wire := st.wire ++ flushed, calls := st.calls + 1 }
    let incoming ← getOr .null created
    if incoming.ipHeader.isSome then handleIp sr st arrival incoming
    else handleArp sr st arrival incoming

/-- A packet comes in, at a time. -/
structure Event where
  packet : Bytes
  interface : IfName
  now : Nat
  deriving DecidableEq

/-- One event of a run; a router that went down stays down. -/
def step (sr : SrInstance) (st : Option RouterState) (e : Event) : Option RouterState :=
  st.bind fun st => (srHandlepacket sr st e.packet e.interface e.now).toOption

end UchiNetworks.Router
