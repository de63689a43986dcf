import UchiNetworks.Router.IcmpFrames

/-!
# An IP packet on its way through `sr_handlepacket`

`Ipv4` is what a well-formed IP packet looks like in the bytes of a frame. Such
a packet is read as it is (`Ipv4.created`), and when its checksum verifies it
passes the checks (`ParsedIp.checked`). Behind them `sr_handlepacket` is two steps,
the flush of the queue and then `routeIp` (`Passed.call`).
-/

namespace UchiNetworks.Router

open UchiNetworks.Lib

/-- A frame that holds a well-formed IP packet of `total` bytes, `hl` of them its
header. -/
structure Ipv4 (packet : Bytes) (hl total : Nat) : Prop where
  etherType : readBe16 packet 12 = some etherTypeIP
  header : ∃ vhl, packet[etherSize]? = some vhl ∧ vhl >>> 4 = 4 ∧
    hl = 4 * (vhl &&& 0x0f).toNat
  minLen : ipHdrLen ≤ hl
  lenField : readBe16 packet (etherSize + 2) = some total
  fits : hl ≤ total ∧ etherSize + total ≤ packet.length

/-- `f` is what has been read from the packet; its bytes are those of the packet
but for the checksum. -/
structure ParsedIp (sr : SrInstance) (packet : Bytes) (ifName : IfName) (hl total : Nat)
    (f : FrameT) : Prop where
  wellFormed : WellFormed f total
  ipHl : f.ipHl = hl
  iface : f.iface = getInterface sr ifName
  shost : readMac packet 6 = some f.fromMAC
  dhost : readMac packet 0 = f.toMAC
  fromIp : readU32 packet (etherSize + 12) = some f.fromIp
  toIp : readU32 packet (etherSize + 16) = some f.toIp
  icmpHeader : ∃ proto, packet[etherSize + 9]? = some proto ∧
    f.icmpHeader = if proto = ipProtoICMP then some (etherSize + hl) else none
  length : f.frame.length = packet.length
  same : ∀ i, i ≠ 24 → i ≠ 25 → f.frame[i]? = packet[i]?

/-- The frame was sent to the address of the interface it came in on. -/
def ToInterface (sr : SrInstance) (packet : Bytes) (ifName : IfName) : Prop :=
  ∃ iface, getInterface sr ifName = some iface ∧ readMac packet 0 = some iface.addr

/-- An interface is found under its own name as well. -/
theorem getInterface_own {sr : SrInstance} {ifName : IfName} {iface : SrIf}
    (h : getInterface sr ifName = some iface) : getInterface sr iface.name = some iface := by
  unfold getInterface sameName at h ⊢
  have hsame := List.find?_some h
  have hname : iface.name.take 32 = ifName.take 32 := beq_iff_eq.mp hsame
  rwa [hname]

/-- `sr_send_packet` takes a reply exactly if the frame it answers was sent to the
interface: its source is the destination of that frame. -/
theorem goesOut_reply_iff {sr : SrInstance} {ifName : IfName} {iface : SrIf} {packet : Bytes}
    {sent : Sent} (h : getInterface sr ifName = some iface) (hiface : sent.iface = iface)
    (hlong : etherSize ≤ sent.frame.length) (hsrc : readMac sent.frame 6 = readMac packet 0) :
    sent.goesOut sr = true ↔ ToInterface sr packet ifName := by
  unfold Sent.goesOut srSendPacket srEtherAddrsMatchInterface ToInterface
  rw [if_neg (Nat.not_lt.mpr hlong), hiface, getInterface_own h, hsrc]
  dsimp only
  rw [beq_iff_eq]
  constructor
  · intro haddr
    exact ⟨iface, h, haddr⟩
  · intro hto
    obtain ⟨found, hfound, haddr⟩ := hto
    obtain rfl := Option.some.inj (h.symm.trans hfound)
    exact haddr

theorem Ipv4.total_lt {packet : Bytes} {hl total : Nat} (h : Ipv4 packet hl total) :
    total < 65536 := by
  obtain ⟨hi, lo, -, -, rfl⟩ := readBe16_eq h.lenField
  have := hi.toNat_lt
  have := lo.toNat_lt
  omega

/-- `create_frame_t` reads a well-formed packet. -/
theorem Ipv4.created {packet : Bytes} {hl total : Nat} (h : Ipv4 packet hl total)
    (sr : SrInstance) (ifName : IfName) :
    ∃ f, createFrameT sr packet ifName = .ok (some f) ∧ f.frame = packet ∧
      ParsedIp sr packet ifName hl total f := by
  obtain ⟨vhl, hvhl, hversion, hhl⟩ := h.header
  have hmin := h.minLen
  have hfits := h.fits
  unfold ipHdrLen at hmin
  unfold etherSize at hfits
  have hether : etherSize = 14 := rfl
  obtain ⟨shost, hshost⟩ := readMac_of_le (show 6 + 6 ≤ packet.length by omega)
  obtain ⟨dhost, hdhost⟩ := readMac_of_le (show 0 + 6 ≤ packet.length by omega)
  obtain ⟨proto, hproto⟩ := getElem?_of_lt (show etherSize + 9 < packet.length by omega)
  obtain ⟨src, hsrc⟩ := readU32_of_lt (show etherSize + 12 + 3 < packet.length by omega)
  obtain ⟨dst, hdst⟩ := readU32_of_lt (show etherSize + 16 + 3 < packet.length by omega)
  have hcreate : createFrameT sr packet ifName = .ok (some
      { frame := packet
        ipHeader := some etherSize
        arpHeader := none
        icmpHeader := if proto = ipProtoICMP then some (etherSize + hl) else none
        fromMAC := shost
        toMAC := some dhost
        fromIp := src
        toIp := dst
        iface := getInterface sr ifName
        ipHl := hl
        ipLen := some total }) := by
    simp only [createFrameT, hshost, hdhost, h.etherType, getOr_some, ok_bind, if_true, hvhl,
      h.lenField, hproto, hsrc, hdst, ← hhl]
  refine ⟨_, hcreate, rfl, ?_⟩
  exact
    { wellFormed :=
        { place := rfl, header := ⟨vhl, hvhl, hversion, hhl⟩, ipHl := h.minLen, ipLen := rfl,
          lenField := h.lenField, fits := h.fits, dhost := rfl }
      ipHl := rfl
      iface := rfl
      shost := hshost
      dhost := hdhost
      fromIp := hsrc
      toIp := hdst
      icmpHeader := ⟨proto, hproto, rfl⟩
      length := rfl
      same := fun _ _ _ => rfl }

/-- With other checksum bytes it is still read from the packet. -/
theorem ParsedIp.of_frame {sr : SrInstance} {packet : Bytes} {ifName : IfName} {hl total : Nat}
    {f : FrameT} (h : ParsedIp sr packet ifName hl total f) {frame : Bytes}
    (hlen : frame.length = f.frame.length) (hsame : ∀ i, i ≠ 24 → i ≠ 25 → frame[i]? = f.frame[i]?) :
    ParsedIp sr packet ifName hl total { f with frame := frame } := by
  obtain ⟨vhl, hvhl, hrest⟩ := h.wellFormed.header
  have hfits := h.wellFormed.fits
  refine
    { wellFormed :=
        { place := h.wellFormed.place
          header := ⟨vhl, (hsame _ (by decide) (by decide)).trans hvhl, hrest⟩
          ipHl := h.wellFormed.ipHl
          ipLen := h.wellFormed.ipLen
          lenField := ?_
          fits := ⟨hfits.1, by rw [hlen]; exact hfits.2⟩
          dhost := h.wellFormed.dhost }
      ipHl := h.ipHl
      iface := h.iface
      shost := h.shost
      dhost := h.dhost
      fromIp := h.fromIp
      toIp := h.toIp
      icmpHeader := h.icmpHeader
      length := hlen.trans h.length
      same := fun i h24 h25 => (hsame i h24 h25).trans (h.same i h24 h25) }
  have hfield := h.wellFormed.lenField
  unfold readBe16 at hfield ⊢
  rw [hsame _ (by decide) (by decide), hsame _ (by decide) (by decide)]
  exact hfield

/-- The header that the checksum is taken of. -/
theorem ParsedIp.headerAt {sr : SrInstance} {packet : Bytes} {ifName : IfName} {hl total : Nat}
    {f : FrameT} (h : ParsedIp sr packet ifName hl total f) :
    ∃ words header, 5 ≤ words ∧ HeaderAt f etherSize words header := by
  obtain ⟨vhl, hvhl, -, hhl⟩ := h.wellFormed.header
  have hmin := h.wellFormed.ipHl
  have hfits := h.wellFormed.fits
  unfold ipHdrLen at hmin
  exact ⟨(vhl &&& 0x0f).toNat, _, by omega,
    ⟨h.wellFormed.place, ⟨vhl, hvhl, rfl⟩, Buffer.read_of_le (by omega)⟩⟩

/-- A packet whose checksum verifies passes the checks. -/
theorem ParsedIp.checked {sr : SrInstance} {packet : Bytes} {ifName : IfName} {hl total : Nat}
    {f : FrameT} (h : ParsedIp sr packet ifName hl total f) (hv : Verifies f.frame) :
    ∃ g, checkIp f = .ok (some g) ∧ ParsedIp sr packet ifName hl total g ∧ Verifies g.frame := by
  obtain ⟨vhl, hvhl, hversion, -⟩ := h.wellFormed.header
  obtain ⟨words, header, hwords, hat⟩ := h.headerAt
  obtain ⟨checked, header', hchecked, hat', -, hzero⟩ := hat.computeIpChecksum (by omega)
  obtain ⟨again, -, hagain, -, -, -⟩ := hat'.computeIpChecksum (by omega)
  have hfull : SumZero checked etherSize := by
    rw [hzero]
    have hsum := hat.sum
    unfold Verifies at hv
    rw [hv] at hsum
    exact (Option.some.inj hsum).symm
  have hcheck : checkIp f = .ok (some again) := by
    unfold SumZero at hfull
    unfold checkIp
    rw [hvhl, getOr_some, ok_bind, if_neg (not_not.mpr hversion), hchecked, ok_bind, hfull,
      getOr_some, ok_bind, if_neg (not_not.mpr rfl), hagain, ok_bind]
  obtain ⟨frame, rfl, hlen, hsame, -, hv', -⟩ := checkIp_spec h.wellFormed.place hcheck
  exact ⟨_, hcheck, h.of_frame hlen hsame, hv'⟩

/-- A datagram on an interface is sent. -/
theorem sendDatagram_of {out : FrameT} {iface : SrIf} (h : out.iface = some iface)
    (st : RouterState) (forwards : Option Arrival) :
    sendDatagram st (some out) forwards =
      .ok { st with
            wire := st.wire ++ [{ frame := out.frame, iface := iface, forwards := forwards }] } := by
  unfold sendDatagram sendPacket
  dsimp only
  rw [h, getOr_some, ok_bind]
  rfl

/-- The IP branch of `sr_handlepacket` behind the sanity checks. -/
def routeIp (sr : SrInstance) (st : RouterState) (arrival : Arrival) (incoming : FrameT) :
    Res RouterState := do
  match ← ifDstCheck sr incoming.toIp with
  | some _ =>
    let outgoing ← localReply sr incoming
    sendDatagram st outgoing none
  | none =>
    let ttl ← getOr .bounds incoming.frame[etherSize + 8]?
    if ttl ≤ 0 then
      let outgoing ← ttlReply sr incoming
      sendDatagram st outgoing none
    else forwardPacket sr st arrival incoming

/-- The state in which a call handles its packet, once the lists are flushed. -/
def flushedState (st : RouterState) (now : Nat) (queue : List ArpqEntry) (flushed : List Sent) :
    RouterState :=
  { cache := arpCacheFlush now st.cache, queue := queue, wire := st.wire ++ flushed,
    calls := st.calls + 1 }

/-- `incoming` is the IP packet that has passed the sanity checks. -/
structure Passed (sr : SrInstance) (packet : Bytes) (ifName : IfName) (incoming : FrameT) :
    Prop where
  long : etherHdrLen ≤ packet.length
  created : ∃ created, createFrameT sr packet ifName = .ok (some created) ∧
    created.ipHeader.isSome ∧ checkIp created = .ok (some incoming)

theorem Passed.unique {sr : SrInstance} {packet : Bytes} {ifName : IfName} {f f' : FrameT}
    (h : Passed sr packet ifName f) (h' : Passed sr packet ifName f') : f = f' := by
  obtain ⟨c, hc, -, hcheck⟩ := h.created
  obtain ⟨c', hc', -, hcheck'⟩ := h'.created
  obtain rfl : c = c' := Option.some.inj (Except.ok.inj (hc.symm.trans hc'))
  exact Option.some.inj (Except.ok.inj (hcheck.symm.trans hcheck'))

/-- **A packet that passes the checks**: the lists are flushed and it is routed. -/
theorem Passed.call {sr : SrInstance} {packet : Bytes} {ifName : IfName} {incoming : FrameT}
    (h : Passed sr packet ifName incoming) (st : RouterState) (now : Nat) :
    srHandlepacket sr st packet ifName now =
      arpQueueFlush sr now st.queue >>= fun r =>
        routeIp sr (flushedState st now r.1 r.2)
          { packet := packet, interface := ifName, now := now, number := st.calls } incoming := by
  obtain ⟨created, hcreate, hip, hcheck⟩ := h.created
  unfold srHandlepacket
  simp only
  rw [if_neg (Nat.not_lt.mpr h.long), hcreate, ok_bind]
  congr 1
  funext r
  simp only [getOr_some, ok_bind, hip, if_true, handleIp, hcheck]
  rfl

/-- A valid packet passes them. -/
theorem Ipv4.passed {packet : Bytes} {hl total : Nat} (h : Ipv4 packet hl total)
    (hv : Verifies packet) (hlong : etherHdrLen ≤ packet.length) (sr : SrInstance)
    (ifName : IfName) :
    ∃ f, Passed sr packet ifName f ∧ ParsedIp sr packet ifName hl total f := by
  obtain ⟨created, hcreate, hframe, hparsed⟩ := h.created sr ifName
  obtain ⟨f, hcheck, hparsed', -⟩ := hparsed.checked (by rw [hframe]; exact hv)
  refine ⟨f, ⟨hlong, created, hcreate, ?_, hcheck⟩, hparsed'⟩
  rw [hparsed.wellFormed.place]
  rfl

end UchiNetworks.Router
