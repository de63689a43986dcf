import UchiNetworks.Router.Frame

/-!
# The router: ICMP frames

The frames the router makes up itself in answer to an IP packet: the echo reply
and the ICMP errors. Offsets are those of `struct ip` and `struct icmp_hdr`.
-/

namespace UchiNetworks.Router

open UchiNetworks.Lib

-- the ICMP types and codes of `sr_router.c`
def echoReply : UInt8 := 0
def echoRequest : UInt8 := 8
def destUnreach : UInt8 := 3
def timeExceeded : UInt8 := 11
def hostUnreach : UInt8 := 1
def portUnreach : UInt8 := 3
def timeIntransit : UInt8 := 0

-- `IP_HDR_LEN`, `ICMP_HDR_LEN`, `INIT_TTL`
def ipHdrLen : Nat := 20
def icmpHdrLen : Nat := 8
def initTtl : UInt8 := 255

/-- The types no error is sent about. -/
def isIcmpError (code : UInt8) : Bool :=
  code == destUnreach || code == timeExceeded || code == 12 || code == 31

/-- Is the datagram at `ip` an ICMP error message itself? -/
def carriesIcmpError (frame : Bytes) (ip ipHl : Nat) : Res Bool := do
  let proto ← getOr .bounds frame[ip + 9]?
  if proto = ipProtoICMP then
    let code ← getOr .bounds frame[ip + ipHl]?
    .ok (isIcmpError code)
  else .ok false

/-- `compute_icmp_checksum`. The length is an `int`: a negative one asks
`calloc` for more than there is, and a zero one is made 1. An odd last byte is
copied and not summed. -/
def computeIcmpChecksum (f : FrameT) : Res FrameT := do
  let icmp ← getOr .null f.icmpHeader
  let ipLen ← getOr .unset f.ipLen
  if ipLen < f.ipHl then .error .bounds
  else
    let len := ipLen - f.ipHl
    let copy ← getOr .bounds (Buffer.read f.frame icmp (if len = 0 then 1 else len))
    let sum := foldSum (words16 (copy.take (2 * (len / 2))))
    let frame ← getOr .bounds (Buffer.write f.frame (icmp + 2) (le16 (65535 - sum)))
    .ok { f with frame := frame }

/-- The bytes `ip_header_create` writes, before the checksum is filled in. -/
def ipHeaderBytes (ipLen : Nat) (src dst : UInt32) : Bytes :=
  [0x45, 0] ++ be16 ipLen ++ [0, 0, 0, 0, initTtl, ipProtoICMP, 0, 0] ++ le32 src ++ le32 dst

@[simp] theorem ipHeaderBytes_length (ipLen : Nat) (src dst : UInt32) :
    (ipHeaderBytes ipLen src dst).length = 20 := rfl

/-- `ip_header_create` -/
def ipHeaderCreate (outgoing : FrameT) : Res FrameT := do
  let ip ← getOr .assertion outgoing.ipHeader
  let ipLen ← getOr .unset outgoing.ipLen
  let frame ← getOr .bounds (Buffer.write outgoing.frame ip
    (ipHeaderBytes ipLen outgoing.fromIp outgoing.toIp))
  computeIpChecksum { outgoing with frame := frame }

/-- `generate_icmp_echo` -/
def generateIcmpEcho (incoming : FrameT) : Res FrameT := do
  let dhost ← getOr .unset incoming.toMAC
  let icmp := etherSize + incoming.ipHl
  let frame ← getOr .bounds (Buffer.write incoming.frame icmp [echoReply])
  let frame ← getOr .bounds (Buffer.write frame (icmp + 2) [0, 0])
  let outgoing ← computeIcmpChecksum
    { frame := frame
      ipHeader := some etherSize
      arpHeader := none
      icmpHeader := some icmp
      fromMAC := dhost
      toMAC := some incoming.fromMAC
      fromIp := incoming.toIp
      toIp := incoming.fromIp
      iface := incoming.iface
      ipHl := incoming.ipHl
      ipLen := incoming.ipLen }
  let outgoing ← ipHeaderCreate outgoing
  encapsulate outgoing

/-- `generate_icmp_error`. The subtraction that decides how much of the packet
is quoted is unsigned, and the ICMP header is placed behind an IP header as long
as the incoming one. -/
def generateIcmpError (sr : SrInstance) (incoming : FrameT) (icmpType icmpCode : UInt8) :
    Res FrameT := do
  let dhost ← getOr .unset incoming.toMAC
  let inLen ← getOr .unset incoming.ipLen
  let ip ← getOr .null incoming.ipHeader
  let dataLen :=
    if incoming.ipHl ≤ inLen ∧ inLen - incoming.ipHl < 8 then inLen else incoming.ipHl + 8
  let len := etherSize + ipHdrLen + icmpHdrLen + dataLen
  let icmp := etherSize + incoming.ipHl
  let frame ← getOr .bounds (Buffer.write ((List.range len).map sr.heap) icmp
    [icmpType, icmpCode, 0, 0, 0, 0, 0, 0])
  let quoted ← getOr .bounds (Buffer.read incoming.frame ip dataLen)
  let frame ← getOr .bounds (Buffer.write frame (icmp + icmpHdrLen) quoted)
  let outgoing ← computeIcmpChecksum
    { frame := frame
      ipHeader := some etherSize
      arpHeader := none
      icmpHeader := some icmp
      fromMAC := dhost
      toMAC := some incoming.fromMAC
      fromIp := incoming.toIp
      toIp := incoming.fromIp
      iface := incoming.iface
      ipHl := ipHdrLen
      ipLen := some (len - etherSize) }
  let outgoing ← ipHeaderCreate outgoing
  encapsulate outgoing

end UchiNetworks.Router
