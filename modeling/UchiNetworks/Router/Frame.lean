import UchiNetworks.Lib.Buffer
import UchiNetworks.Lib.Fault
import UchiNetworks.Lib.OnesComplement

/-!
# The router: frames, headers, `update_ip_hdr`

`stub_sr/sr_router.c` works on `struct frame_t`, a frame together with what has
been read out of its headers. This file embeds that record, the functions that
build and rewrite it on the forwarding path, and the tables they look into.

Mirroring notes vs the C:
- An `error` is a call that does not return normally; `Fault` lists the ways.
  `malloc` succeeds.
- A frame is its bytes. The header pointers of `frame_t` always point into the
  record's own frame (`arpq_add_packet` re-aims them after its deep copy), so
  they are offsets into it; `in_or_out` and `MAC_set` are never read.
- The host is little-endian: a 16-bit word of the checksum and the stored
  addresses are read low byte first. Addresses are compared and masked only, so
  they stay in network order, as in the C.
- What `malloc` leaves in a record is `none` for a field (`toMAC`, `ipLen`) and
  `SrInstance.heap` for bytes.
-/

namespace UchiNetworks.Router

open UchiNetworks.Lib

abbrev Bytes := List UInt8

/-- How a call can go wrong. -/
inductive Fault where
  /-- a NULL pointer is followed -/
  | null
  /-- an `assert` fails -/
  | assertion
  /-- memory outside a frame is touched -/
  | bounds
  /-- a loop never ends -/
  | endless
  /-- memory that was never written is used -/
  | unset
  /-- an entry is freed that is still linked -/
  | freed
  deriving DecidableEq, Repr

abbrev Res := Except Fault

/-- A hardware address, `ETHER_ADDR_LEN` bytes. -/
def Mac := { bytes : Bytes // bytes.length = 6 }

instance : DecidableEq Mac := inferInstanceAs (DecidableEq { bytes : Bytes // bytes.length = 6 })

/-- Interface names; `sr_IFACE_NAMELEN` characters are compared. -/
abbrev IfName := List UInt8

/-- `strncmp(a, b, sr_IFACE_NAMELEN) == 0` -/
def sameName (a b : IfName) : Bool := a.take 32 == b.take 32

/-- `struct sr_if` -/
structure SrIf where
  name : IfName
  addr : Mac
  ip : UInt32
  deriving DecidableEq

/-- `struct sr_rt` -/
structure SrRt where
  dest : UInt32
  gw : UInt32
  mask : UInt32
  interface : IfName
  deriving DecidableEq

/-- `struct sr_instance`; the tables do not change after start-up. The last two
fields are what fresh memory happens to hold. -/
structure SrInstance where
  ifList : List SrIf
  routingTable : List SrRt
  heap : Nat → UInt8
  junkHop : UInt32

/-- `struct frame_t` -/
structure FrameT where
  frame : Bytes
  ipHeader : Option Nat
  arpHeader : Option Nat
  icmpHeader : Option Nat
  fromMAC : Mac
  toMAC : Option Mac
  fromIp : UInt32
  toIp : UInt32
  iface : Option SrIf
  ipHl : Nat
  ipLen : Option Nat
  deriving DecidableEq

-- `sizeof(struct sr_ethernet_hdr)`, the two ethertypes and `IPPROTO_ICMP`
def etherSize : Nat := 14
def etherTypeIP : Nat := 0x0800
def etherTypeARP : Nat := 0x0806
def ipProtoICMP : UInt8 := 1

-- `ARP_REQUEST` and `ARP_REPLY`
def arpRequest : Nat := 1
def arpReply : Nat := 2

/-- Two bytes in network order. -/
def be16 (n : Nat) : Bytes := [UInt8.ofNat (n / 256), UInt8.ofNat n]

/-- Two bytes as a `uint16_t` in memory. -/
def le16 (n : Nat) : Bytes := [UInt8.ofNat n, UInt8.ofNat (n / 256)]

/-- A `uint32_t` in memory. -/
def le32 (x : UInt32) : Bytes :=
  [x.toUInt8, (x >>> 8).toUInt8, (x >>> 16).toUInt8, (x >>> 24).toUInt8]

/-- `ntohl` -/
def ntohl (x : UInt32) : UInt32 :=
  (x <<< 24) ||| ((x &&& (0xff00 : UInt32)) <<< 8) ||| ((x >>> 8) &&& (0xff00 : UInt32)) ||| (x >>> 24)

def readMac (buf : Bytes) (off : Nat) : Option Mac :=
  match h : Buffer.read buf off 6 with
  | some bytes => some ⟨bytes, Buffer.read_length h⟩
  | none => none

/-- `ntohs` of the field at `off`. -/
def readBe16 (buf : Bytes) (off : Nat) : Option Nat := do
  let hi ← buf[off]?
  let lo ← buf[off + 1]?
  some (256 * hi.toNat + lo.toNat)

def readU32 (buf : Bytes) (off : Nat) : Option UInt32 := do
  let a ← buf[off]?
  let b ← buf[off + 1]?
  let c ← buf[off + 2]?
  let d ← buf[off + 3]?
  some (a.toUInt32 ||| (b.toUInt32 <<< 8) ||| (c.toUInt32 <<< 16) ||| (d.toUInt32 <<< 24))

/-- `get_interface` -/
def getInterface (sr : SrInstance) (ifName : IfName) : Option SrIf :=
  sr.ifList.find? fun iface => sameName iface.name ifName

/-- `if_dst_check`: the assertion on `if_list`, then the interface if any. -/
def ifDstCheck (sr : SrInstance) (ip : UInt32) : Res (Option SrIf) :=
  if sr.ifList.isEmpty then .error .assertion
  else .ok (sr.ifList.find? fun iface => iface.ip == ip)

/-- The body of the loop of `rt_match`. -/
def betterRoute (addr : UInt32) (best : Option SrRt) (curr : SrRt) : Option SrRt :=
  if curr.dest &&& curr.mask = addr &&& curr.mask then
    match best with
    | none => some curr
    | some b => if ntohl curr.mask > ntohl b.mask then some curr else best
  else best

/-- `rt_match` -/
def rtMatch (sr : SrInstance) (addr : UInt32) : Option SrRt :=
  sr.routingTable.foldl (betterRoute addr) none

/-- `create_frame_t`: NULL for any other protocol. -/
def createFrameT (sr : SrInstance) (frame : Bytes) (ifName : IfName) : Res (Option FrameT) := do
  let shost ← getOr .bounds (readMac frame 6)
  let dhost ← getOr .bounds (readMac frame 0)
  let etherType ← getOr .bounds (readBe16 frame 12)
  if etherType = etherTypeIP then
    let vhl ← getOr .bounds frame[etherSize]?
    let ipLen ← getOr .bounds (readBe16 frame (etherSize + 2))
    let proto ← getOr .bounds frame[etherSize + 9]?
    let src ← getOr .bounds (readU32 frame (etherSize + 12))
    let dst ← getOr .bounds (readU32 frame (etherSize + 16))
    let ipHl := 4 * (vhl &&& 0x0f).toNat
    .ok (some
      { frame := frame
        ipHeader := some etherSize
        arpHeader := none
        icmpHeader := if proto = ipProtoICMP then some (etherSize + ipHl) else none
        fromMAC := shost
        toMAC := some dhost
        fromIp := src
        toIp := dst
        iface := getInterface sr ifName
        ipHl := ipHl
        ipLen := some ipLen })
  else if etherType = etherTypeARP then
    let sip ← getOr .bounds (readU32 frame (etherSize + 14))
    let tip ← getOr .bounds (readU32 frame (etherSize + 24))
    .ok (some
      { frame := frame
        ipHeader := none
        arpHeader := some etherSize
        icmpHeader := none
        fromMAC := shost
        toMAC := some dhost
        fromIp := sip
        toIp := tip
        iface := getInterface sr ifName
        ipHl := 0
        ipLen := some 0 })
  else .ok none

/-- `encapsulate` -/
def encapsulate (outgoing : FrameT) : Res FrameT := do
  let toMAC ← getOr .unset outgoing.toMAC
  let frame ← getOr .bounds (Buffer.write outgoing.frame 6 outgoing.fromMAC.val)
  let frame ← getOr .bounds (Buffer.write frame 0 toMAC.val)
  let frame ← getOr .bounds (Buffer.write frame 12
    (be16 (if outgoing.ipHeader.isSome then etherTypeIP else etherTypeARP)))
  .ok { outgoing with frame := frame }

/-- The sum `compute_ip_checksum` takes: `2 * ip_hl` words from `ip_header` on. -/
def ipHeaderSum (frame : Bytes) (ip : Nat) : Option Nat := do
  let vhl ← frame[ip]?
  let header ← Buffer.read frame ip (4 * (vhl &&& 0x0f).toNat)
  some (foldSum (words16 header))

/-- `compute_ip_checksum` -/
def computeIpChecksum (f : FrameT) : Res FrameT := do
  let ip ← getOr .null f.ipHeader
  let sum ← getOr .bounds (ipHeaderSum f.frame ip)
  let frame ← getOr .bounds (Buffer.write f.frame (ip + 10) (le16 (65535 - sum)))
  .ok { f with frame := frame }

/-- `update_ip_hdr`: the copy to forward, and the next hop. -/
def updateIpHdr (sr : SrInstance) (incoming : FrameT) : Res (FrameT × UInt32) := do
  let routerEntry ← getOr .null (rtMatch sr incoming.toIp)
  let iface ← getOr .null (getInterface sr routerEntry.interface)
  let frame ← getOr .bounds (Buffer.write incoming.frame (etherSize + 10) [0, 0])
  let ttl ← getOr .bounds frame[etherSize + 8]?
  let frame ← getOr .bounds (Buffer.write frame (etherSize + 8) [ttl - 1])
  let frame ← getOr .bounds (Buffer.write frame (etherSize + 10) [0, 0])
  let outgoing ← computeIpChecksum
    { frame := frame
      ipHeader := some etherSize
      arpHeader := none
      icmpHeader := none
      fromMAC := iface.addr
      toMAC := none
      fromIp := incoming.fromIp
      toIp := incoming.toIp
      iface := some iface
      ipHl := incoming.ipHl
      ipLen := none }
  .ok (outgoing, routerEntry.gw)

/-! ## The bytes of a word -/

theorem byte_cases {i : Nat} (hi : i < 32) :
    i < 8 ∨ (8 ≤ i ∧ i < 16) ∨ (16 ≤ i ∧ i < 24) ∨ 24 ≤ i := by
  omega

theorem getLsbD_secondByte (j : Nat) :
    (UInt32.toBitVec 0xff00).getLsbD j = (decide (8 ≤ j) && decide (j < 16)) := by
  have hmask : UInt32.toBitVec 0xff00 = (BitVec.allOnes 8).setWidth 32 <<< 8 := rfl
  rw [hmask, BitVec.getLsbD_shiftLeft, BitVec.getLsbD_setWidth, BitVec.getLsbD_allOnes,
    Bool.eq_iff_iff]
  simp
  omega

/-- Where bit `i` of the result comes from. -/
theorem ntohl_getLsbD (x : UInt32) {i : Nat} (hi : i < 32) :
    (ntohl x).toBitVec.getLsbD i = x.toBitVec.getLsbD (24 - 8 * (i / 8) + i % 8) := by
  have h8 : (UInt32.toBitVec 8 % 32).toNat = 8 := rfl
  have h24 : (UInt32.toBitVec 24 % 32).toNat = 24 := rfl
  simp only [ntohl, UInt32.toBitVec_or, UInt32.toBitVec_and, UInt32.toBitVec_shiftLeft,
    UInt32.toBitVec_shiftRight, BitVec.getLsbD_or, BitVec.getLsbD_and, BitVec.getLsbD_shiftLeft,
    BitVec.getLsbD_ushiftRight, BitVec.shiftLeft_eq', BitVec.ushiftRight_eq', h8, h24,
    getLsbD_secondByte]
  -- in each byte one of the four terms is left
  rcases byte_cases hi with h | h | h | h <;>
    simp (disch := omega) only [decide_eq_true, decide_eq_false, BitVec.getLsbD_of_ge, Bool.true_and,
      Bool.false_and, Bool.and_false, Bool.or_false, Bool.false_or, Bool.not_true, Bool.not_false,
      Bool.and_true, Bool.and_self] <;>
    congr 1 <;>
    omega

/-- A word read back from its four bytes. -/
theorem join_le32 (x : UInt32) :
    (x.toUInt8.toUInt32 ||| ((x >>> 8).toUInt8.toUInt32 <<< 8) |||
      ((x >>> 16).toUInt8.toUInt32 <<< 16) ||| ((x >>> 24).toUInt8.toUInt32 <<< 24)) = x := by
  apply UInt32.toBitVec_inj.mp
  apply BitVec.eq_of_getLsbD_eq
  intro i hi
  have h8 : (UInt32.toBitVec 8 % 32).toNat = 8 := rfl
  have h16 : (UInt32.toBitVec 16 % 32).toNat = 16 := rfl
  have h24 : (UInt32.toBitVec 24 % 32).toNat = 24 := rfl
  simp only [UInt32.toBitVec_or, UInt32.toBitVec_shiftLeft, UInt32.toBitVec_shiftRight,
    UInt8.toBitVec_toUInt32, UInt32.toBitVec_toUInt8, BitVec.getLsbD_or, BitVec.getLsbD_shiftLeft,
    BitVec.getLsbD_setWidth, BitVec.getLsbD_ushiftRight, BitVec.shiftLeft_eq',
    BitVec.ushiftRight_eq', h8, h16, h24]
  rcases byte_cases hi with h | h | h | h <;>
    simp (disch := omega) only [decide_eq_true, decide_eq_false, Nat.add_sub_of_le, Bool.true_and,
      Bool.false_and, Bool.and_false, Bool.or_false, Bool.false_or, Bool.not_true, Bool.not_false,
      Bool.and_self]

end UchiNetworks.Router
