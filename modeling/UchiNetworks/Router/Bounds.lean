import UchiNetworks.Router.Forward
import UchiNetworks.Router.HostUnreach
import UchiNetworks.Router.Sources

/-!
# Which frames are worked on outside their buffers

The one length that `sr_handlepacket` checks is that of the frame. What the
headers claim, `ip_hl` and `ip_len`, decides how far the checksums read, how much
is copied, and where the ICMP header is put.
-/

namespace UchiNetworks.Router

open UchiNetworks.Lib

/-- The frame holds what calls itself an IPv4 packet of `ipLen` bytes to `dst`, `hl` of
them its header. -/
structure ClaimsIpv4 (packet : Bytes) (hl ipLen : Nat) (dst : UInt32) : Prop where
  etherType : readBe16 packet 12 = some etherTypeIP
  header : ∃ vhl, packet[etherSize]? = some vhl ∧ vhl >>> 4 = 4 ∧
    hl = 4 * (vhl &&& 0x0f).toNat
  lenField : readBe16 packet (etherSize + 2) = some ipLen
  dst : readU32 packet (etherSize + 16) = some dst

/-- The message `arpq_packets_icmpsend` makes about the packet `outgoing` of the queue,
unless that is an ICMP error. `to_MAC` and `ip_len` are what `malloc` left there. -/
def unreachReply (sr : SrInstance) (incoming outgoing : FrameT) (toMAC : Mac) (ipLen : Nat) :
    Res (Option FrameT) := do
  let err ← carriesIcmpError outgoing.frame etherSize outgoing.ipHl
  if err then .ok none
  else
    let made ← generateIcmpError sr
      { outgoing with
        fromMAC := incoming.fromMAC
        iface := incoming.iface
        toMAC := some toMAC
        ipLen := some ipLen }
      destUnreach hostUnreach
    .ok (some made)

/-- Whatever is read and written for the packet of a call lies in a frame: when it is
copied, when it is handled, and when the router gives up on it in the queue. -/
structure InBounds (sr : SrInstance) (a : Arrival) : Prop where
  created : NoStray (createFrameT sr a.packet a.interface)
  handled : ∀ f, createFrameT sr a.packet a.interface = .ok (some f) → f.ipHeader.isSome →
    ∀ st, NoStray (handleIp sr st a f)
  givenUp : ∀ incoming outgoing hop, Accepted sr a incoming →
    updateIpHdr sr incoming = .ok (outgoing, hop) →
    ∀ toMAC ipLen, NoStray (unreachReply sr incoming outgoing toMAC ipLen)

/-- The lengths that an IPv4 packet claims do no harm. Its header lies in the frame.
And if the checksum verifies, an ICMP message to the router lies in the frame, too, and
a packet that may be answered with an ICMP error, at once or when it has waited, has no
options. -/
structure LengthsFit (sr : SrInstance) (packet : Bytes) : Prop where
  header : ∀ hl ipLen dst, ClaimsIpv4 packet hl ipLen dst → etherSize + hl ≤ packet.length
  icmp : ∀ hl ipLen dst iface, ClaimsIpv4 packet hl ipLen dst → Verifies packet →
    ifDstCheck sr dst = .ok (some iface) → packet[etherSize + 9]? = some ipProtoICMP →
    hl ≤ ipLen ∧ etherSize + ipLen ≤ packet.length ∧ etherSize + hl + 4 ≤ packet.length
  other : ∀ hl ipLen dst iface, ClaimsIpv4 packet hl ipLen dst → Verifies packet →
    ifDstCheck sr dst = .ok (some iface) → packet[etherSize + 9]? ≠ some ipProtoICMP →
    hl ≤ ipHdrLen
  transit : ∀ hl ipLen dst, ClaimsIpv4 packet hl ipLen dst → Verifies packet →
    ifDstCheck sr dst = .ok none →
    (ttlOf packet = some 0 ∨
      ∃ rt, rtMatch sr dst = some rt ∧ (getInterface sr rt.interface).isSome) →
    hl ≤ ipHdrLen ∨ HoldsIcmpError packet hl

/-! ## The reply -/

/-- A reply has the lengths of the request. -/
theorem noStray_generateIcmpEcho {f : FrameT} {ipLen : Nat} (hto : f.toMAC.isSome)
    (hlen : f.ipLen = some ipLen) (hlong : etherHdrLen ≤ f.frame.length) (hge : f.ipHl ≤ ipLen)
    (hmsg : etherSize + ipLen ≤ f.frame.length)
    (hheader : etherSize + f.ipHl + 4 ≤ f.frame.length) : NoStray (generateIcmpEcho f) := by
  obtain ⟨dhost, hto⟩ := Option.isSome_iff_exists.mp hto
  have hmac : getOr Fault.unset f.toMAC = .ok dhost := by rw [hto, getOr_some]
  unfold generateIcmpEcho
  rw [hmac, ok_bind]
  dsimp only
  refine Buffer.avoids_write.mpr ⟨?_, fun frame hframe => ?_⟩
  · rw [List.length_singleton]
    omega
  · have hflen := Buffer.write_length hframe
    refine Buffer.avoids_write.mpr ⟨?_, fun frame' hframe' => ?_⟩
    · simp only [List.length_cons, List.length_nil]
      omega
    · have hflen' := Buffer.write_length hframe'
      refine (noStray_finish rfl rfl (by exact hlen) ?_).mpr ?_
      · dsimp only
        omega
      · dsimp only
        omega

/-! ## The answers -/

/-- The answer to an ICMP packet: its message has to lie in the frame. -/
theorem noStray_localReply_icmp {f : FrameT} {ipLen : Nat} (hto : f.toMAC.isSome)
    (hicmp : f.icmpHeader = some (etherSize + f.ipHl)) (hlen : f.ipLen = some ipLen)
    (hlong : etherHdrLen ≤ f.frame.length) (sr : SrInstance) :
    NoStray (localReply sr f) ↔
      f.ipHl ≤ ipLen ∧ etherSize + ipLen ≤ f.frame.length ∧
        etherSize + f.ipHl + 4 ≤ f.frame.length := by
  unfold localReply
  rw [hicmp]
  dsimp only
  rw [noStray_bind_iff, noStray_computeIcmpChecksum hicmp hlen]
  constructor
  · intro h
    obtain ⟨⟨hge, hmsg, hheader⟩, -⟩ := h
    exact ⟨hge, by omega, hheader⟩
  · intro h
    obtain ⟨hge, hmsg, hheader⟩ := h
    refine ⟨⟨hge, by omega, hheader⟩, fun g hg => ?_⟩
    have hglen := computeIcmpChecksum_length hg
    obtain ⟨frame, rfl⟩ := computeIcmpChecksum_eq hg
    dsimp only at hglen ⊢
    obtain ⟨icmpType, htype⟩ := getElem?_of_lt (show etherSize + f.ipHl < frame.length by omega)
    refine avoids_lookup.mpr ⟨icmpType, htype, Buffer.avoids_read.mpr ⟨by omega, fun _ _ => ?_⟩⟩
    refine avoids_ite (fun _ => ?_) fun _ => avoids_ok _ _
    refine avoids_bind ?_ fun _ _ => avoids_ok _ _
    refine noStray_generateIcmpEcho hto hlen ?_ hge ?_ ?_
    · rw [hglen]
      exact hlong
    · rw [hglen]
      exact hmsg
    · rw [hglen]
      exact hheader

/-- An ICMP error as an answer: the packet has no options. -/
theorem noStray_message {f : FrameT} (hip : f.ipHeader = some etherSize) (hto : f.toMAC.isSome)
    (hlen : f.ipLen.isSome) (hlong : etherHdrLen ≤ f.frame.length) (sr : SrInstance)
    (icmpType icmpCode : UInt8) :
    NoStray (generateIcmpError sr f icmpType icmpCode >>= fun out => .ok (some out)) ↔
      f.ipHl ≤ ipHdrLen := by
  rw [noStray_bind_iff, noStray_generateIcmpError hip hto hlen hlong, and_iff_left_iff_imp]
  exact fun _ out _ => avoids_ok _ _

theorem noStray_localReply_other {f : FrameT} (hip : f.ipHeader = some etherSize)
    (hto : f.toMAC.isSome) (hicmp : f.icmpHeader = none) (hlen : f.ipLen.isSome)
    (hlong : etherHdrLen ≤ f.frame.length) (sr : SrInstance) :
    NoStray (localReply sr f) ↔ f.ipHl ≤ ipHdrLen := by
  unfold localReply
  rw [hicmp]
  exact noStray_message hip hto hlen hlong sr _ _

/-- An ICMP error as an answer to all but ICMP errors. -/
theorem noStray_unlessError {f : FrameT} (hip : f.ipHeader = some etherSize)
    (hto : f.toMAC.isSome) (hlen : f.ipLen.isSome) (hlong : etherHdrLen ≤ f.frame.length)
    (sr : SrInstance) (icmpType icmpCode : UInt8) :
    NoStray (carriesIcmpError f.frame etherSize f.ipHl >>= fun err =>
        if err then .ok none
        else generateIcmpError sr f icmpType icmpCode >>= fun out => .ok (some out)) ↔
      f.ipHl ≤ ipHdrLen ∨ HoldsIcmpError f.frame f.ipHl := by
  have hmessage := noStray_message hip hto hlen hlong sr icmpType icmpCode
  by_cases herr : HoldsIcmpError f.frame f.ipHl
  · rw [carriesIcmpError_of_holds herr, ok_bind, if_pos rfl]
    exact ⟨fun _ => Or.inr herr, fun _ => avoids_ok _ _⟩
  · rw [or_iff_left herr]
    cases hcarries : carriesIcmpError f.frame etherSize f.ipHl with
    | ok stuck =>
      rw [ok_bind, if_neg fun htrue => herr ((holds_iff_of_carries hcarries).mp htrue)]
      exact hmessage
    | error fault =>
      -- the type lies behind the frame, and so behind 28 bytes of header
      have hlt : ¬ f.ipHl ≤ ipHdrLen := by
        intro hhl
        unfold etherHdrLen at hlong
        unfold ipHdrLen at hhl
        obtain ⟨stuck, hstuck⟩ := carriesIcmpError_returns
          (show etherSize + 9 < f.frame.length by unfold etherSize; omega)
          (show etherSize + f.ipHl < f.frame.length by unfold etherSize; omega)
        rw [hstuck] at hcarries
        cases hcarries
      obtain rfl := carriesIcmpError_fault hcarries
      rw [error_bind]
      exact ⟨fun h => absurd rfl h, fun h => absurd h hlt⟩

/-! ## The sanity checks -/

/-- What `create_frame_t` makes of an IP packet, with other checksum bytes maybe. -/
structure Claims (packet : Bytes) (vhl : UInt8) (ipLen : Nat) (f : FrameT) : Prop where
  place : f.ipHeader = some etherSize
  first : packet[etherSize]? = some vhl
  lenField : readBe16 packet (etherSize + 2) = some ipLen
  ipHl : f.ipHl = 4 * (vhl &&& 0x0f).toNat
  ipLen : f.ipLen = some ipLen
  dhost : f.toMAC.isSome
  toIp : readU32 packet (etherSize + 16) = some f.toIp
  icmpHeader : ∃ proto, packet[etherSize + 9]? = some proto ∧
    f.icmpHeader = if proto = ipProtoICMP then some (etherSize + f.ipHl) else none
  length : f.frame.length = packet.length
  same : ∀ i, i ≠ 24 → i ≠ 25 → f.frame[i]? = packet[i]?

/-- `create_frame_t` itself reads no further than 42 bytes. -/
theorem noStray_createFrameT {packet : Bytes} (hlong : etherHdrLen ≤ packet.length)
    (sr : SrInstance) (ifName : IfName) : NoStray (createFrameT sr packet ifName) := by
  obtain ⟨created, hcreated⟩ := createFrameT_returns hlong sr ifName
  rw [hcreated]
  exact avoids_ok _ _

theorem claims_of_createFrameT {sr : SrInstance} {packet : Bytes} {ifName : IfName} {f : FrameT}
    (hcreate : createFrameT sr packet ifName = .ok (some f)) (hip : f.ipHeader.isSome) :
    readBe16 packet 12 = some etherTypeIP ∧ f.frame = packet ∧
      ∃ vhl ipLen, Claims packet vhl ipLen f := by
  simp only [createFrameT, bind_ok, getOr_ok] at hcreate
  obtain ⟨shost, -, dhost, -, etherType, htype, hcreate⟩ := hcreate
  by_cases hether : etherType = etherTypeIP
  · rw [if_pos hether] at hcreate
    simp only [bind_ok, getOr_ok, Except.ok.injEq, Option.some.injEq] at hcreate
    obtain ⟨vhl, hvhl, ipLen, hlen, proto, hproto, src, -, dst, hdst, rfl⟩ := hcreate
    refine ⟨by rw [htype, hether], rfl, vhl, ipLen, ?_⟩
    exact
      { place := rfl
        first := hvhl
        lenField := hlen
        ipHl := rfl
        ipLen := rfl
        dhost := rfl
        toIp := hdst
        icmpHeader := ⟨proto, hproto, rfl⟩
        length := rfl
        same := fun _ _ _ => rfl }
  · rw [if_neg hether] at hcreate
    split at hcreate
    · simp only [bind_ok, getOr_ok, Except.ok.injEq, Option.some.injEq] at hcreate
      obtain ⟨sip, -, tip, -, rfl⟩ := hcreate
      cases hip
    · cases hcreate

theorem Claims.of_frame {packet : Bytes} {vhl : UInt8} {ipLen : Nat} {f : FrameT}
    (h : Claims packet vhl ipLen f) {frame : Bytes}
    (hlen : frame.length = f.frame.length)
    (hsame : ∀ i, i ≠ 24 → i ≠ 25 → frame[i]? = f.frame[i]?) :
    Claims packet vhl ipLen { f with frame := frame } :=
  { place := h.place
    first := h.first
    lenField := h.lenField
    ipHl := h.ipHl
    ipLen := h.ipLen
    dhost := h.dhost
    toIp := h.toIp
    icmpHeader := h.icmpHeader
    length := hlen.trans h.length
    same := fun i h24 h25 => (hsame i h24 h25).trans (h.same i h24 h25) }

theorem Claims.first_frame {packet : Bytes} {vhl : UInt8} {ipLen : Nat} {f : FrameT}
    (h : Claims packet vhl ipLen f) :
    f.frame[etherSize]? = some vhl :=
  (h.same _ (by decide) (by decide)).trans h.first

/-- The checks sum the header of what says it is IPv4. -/
theorem Claims.noStray_checkIp {packet : Bytes} {vhl : UInt8} {ipLen : Nat} {f : FrameT}
    (h : Claims packet vhl ipLen f)
    (hlong : etherHdrLen ≤ packet.length) :
    NoStray (checkIp f) ↔
      (vhl >>> 4 = 4 → etherSize + 4 * (vhl &&& 0x0f).toNat ≤ packet.length) := by
  have hlong' : etherHdrLen ≤ f.frame.length := by rw [h.length]; exact hlong
  have hsum := noStray_computeIpChecksum h.place h.first_frame hlong'
  unfold checkIp
  rw [h.first_frame, getOr_some, ok_bind]
  by_cases hversion : vhl >>> 4 = 4
  · rw [if_neg (not_not.mpr hversion), noStray_bind_iff, hsum, h.length]
    constructor
    · exact fun hfits _ => hfits.1
    · intro hfits
      refine ⟨hfits hversion, fun g hg => ?_⟩
      obtain ⟨ip, sum, frame, hip, -, hframe, rfl⟩ := computeIpChecksum_eq hg
      obtain rfl : ip = etherSize := Option.some.inj (hip.symm.trans h.place)
      have hflen := Buffer.write_length hframe
      have hvhl : frame[etherSize]? = some vhl := by
        rw [Buffer.write_outside hframe (Or.inl (by omega)), h.first_frame]
      refine Buffer.avoids_read.mpr ⟨?_, fun sumField _ => ?_⟩
      · dsimp only
        rw [hflen]
        exact Nat.le_trans (by decide) hlong'
      · refine avoids_ite (fun _ => avoids_ok _ _) fun _ => ?_
        refine avoids_bind ?_ fun _ _ => avoids_ok _ _
        refine (noStray_computeIpChecksum (f := { f with frame := frame }) h.place hvhl ?_).mpr ?_
        · dsimp only
          rw [hflen]
          exact hlong'
        · dsimp only
          rw [hflen, h.length]
          exact hfits hversion
  · rw [if_pos hversion]
    exact ⟨fun _ hnot => absurd hnot hversion, fun _ => avoids_ok _ _⟩

/-! ## Behind the checks -/

theorem noStray_sendDatagram (st : RouterState) (out : Option FrameT) (forwards : Option Arrival) :
    NoStray (sendDatagram st out forwards) := by
  cases out with
  | none => exact avoids_ok _ _
  | some f =>
    refine avoids_bind ?_ fun _ _ => avoids_ok _ _
    exact avoids_bind (avoids_getOr (by decide) _) fun _ _ => avoids_ok _ _

theorem noStray_arpCreate (sr : SrInstance) (f : FrameT) (iface : Option SrIf) (op : Nat) :
    NoStray (arpCreate sr f iface op) := by
  refine avoids_bind (avoids_getOr (by decide) _) fun iface _ => ?_
  refine avoids_bind ?_ fun _ _ => noStray_encapsulate ?_
  · refine avoids_ite (fun _ => ?_) fun _ => avoids_ok _ _
    exact avoids_bind (avoids_getOr (by decide) _) fun _ _ => avoids_ok _ _
  · simp only [List.append_assoc]
    rw [List.length_append, List.length_map, List.length_range]
    exact Nat.le_add_right _ _

theorem noStray_queuePacket (sr : SrInstance) (st : RouterState) (a : Arrival)
    (incoming outgoing : FrameT) : NoStray (queuePacket sr st a incoming outgoing) := by
  unfold queuePacket
  cases arpQueueLookup st.queue outgoing.toIp with
  | some entry =>
    refine avoids_bind ?_ fun _ _ => ?_
    · refine avoids_ite (fun _ => ?_) fun _ => avoids_ok _ _
      refine avoids_ite (fun _ => avoids_error (by decide)) fun _ => ?_
      exact avoids_ite (fun _ => avoids_ok _ _) fun _ => avoids_ok _ _
    · refine avoids_ite (fun _ => avoids_error (by decide)) fun _ => ?_
      exact avoids_bind (noStray_arpCreate _ _ _ _) fun _ _ => noStray_sendDatagram _ _ _
  | none => exact avoids_bind (noStray_arpCreate _ _ _ _) fun _ _ => noStray_sendDatagram _ _ _

theorem updateIpHdr_ipHl {sr : SrInstance} {incoming outgoing : FrameT} {hop : UInt32}
    (h : updateIpHdr sr incoming = .ok (outgoing, hop)) : outgoing.ipHl = incoming.ipHl := by
  simp only [updateIpHdr, bind_ok, getOr_ok] at h
  obtain ⟨_, -, _, -, _, -, _, -, _, -, _, -, out, hout, heq⟩ := h
  simp only [Except.ok.injEq, Prod.mk.injEq] at heq
  obtain ⟨rfl, -⟩ := heq
  obtain ⟨_, _, _, -, -, -, rfl⟩ := computeIpChecksum_eq hout
  rfl

/-- A packet that has passed the checks is forwarded inside its frame. -/
theorem noStray_forwardPacket {f : FrameT} (hv : Verifies f.frame)
    (hlong : etherHdrLen ≤ f.frame.length) (sr : SrInstance) (st : RouterState) (a : Arrival) :
    NoStray (forwardPacket sr st a f) := by
  refine avoids_bind ?_ fun r hupd => ?_
  · cases hrt : rtMatch sr f.toIp with
    | none =>
      unfold updateIpHdr
      rw [hrt]
      exact avoids_error (by decide)
    | some rt =>
      cases hiface : getInterface sr rt.interface with
      | none =>
        unfold updateIpHdr
        rw [hrt, getOr_some, ok_bind, hiface]
        exact avoids_error (by decide)
      | some iface =>
        obtain ⟨outgoing, hupd⟩ := updateIpHdr_of_route hrt hiface hv hlong
        rw [hupd]
        exact avoids_ok _ _
  · obtain ⟨outgoing, hop⟩ := r
    have hlen := (updateIpHdr_spec hupd hv).2.length
    dsimp only
    cases arpCacheLookup st.cache hop with
    | some incache =>
      refine avoids_bind (noStray_encapsulate ?_) fun _ _ => noStray_sendDatagram _ _ _
      dsimp only
      rw [hlen]
      exact Nat.le_trans (by decide) hlong
    | none => exact noStray_queuePacket sr st a f outgoing

/-- The rest of the IP branch strays in its answers only. -/
theorem noStray_routeIp {f : FrameT} (hv : Verifies f.frame)
    (hlong : etherHdrLen ≤ f.frame.length) (sr : SrInstance) (st : RouterState) (a : Arrival) :
    NoStray (routeIp sr st a f) ↔
      (∀ iface, ifDstCheck sr f.toIp = .ok (some iface) → NoStray (localReply sr f)) ∧
      (ifDstCheck sr f.toIp = .ok none → ttlOf f.frame = some 0 → NoStray (ttlReply sr f)) := by
  obtain ⟨ttl, httl⟩ := getElem?_of_lt (show etherSize + 8 < f.frame.length by
    exact Nat.lt_of_lt_of_le (by decide) hlong)
  unfold routeIp
  rw [noStray_bind_iff]
  have hcheck : NoStray (ifDstCheck sr f.toIp) :=
    avoids_ite (fun _ => avoids_error (by decide)) fun _ => avoids_ok _ _
  constructor
  · intro h
    refine ⟨fun iface hours => ?_, fun hnot hzero => ?_⟩
    · exact (noStray_bind_iff.mp (h.2 _ hours)).1
    · have hrest := h.2 _ hnot
      unfold ttlOf at hzero
      dsimp only at hrest
      rw [hzero, getOr_some, ok_bind, if_pos (by decide), noStray_bind_iff] at hrest
      exact hrest.1
  · intro h
    refine ⟨hcheck, fun ours hours => ?_⟩
    cases ours with
    | some iface =>
      exact noStray_bind_iff.mpr ⟨h.1 iface hours, fun _ _ => noStray_sendDatagram _ _ _⟩
    | none =>
      dsimp only
      rw [httl, getOr_some, ok_bind]
      refine avoids_ite (fun hle => ?_) fun _ => noStray_forwardPacket hv hlong sr st a
      obtain rfl : ttl = 0 := UInt8.le_zero_iff.mp hle
      exact noStray_bind_iff.mpr ⟨h.2 hours httl, fun _ _ => noStray_sendDatagram _ _ _⟩

theorem noStray_handleIp {sr : SrInstance} {st : RouterState} {a : Arrival} {f : FrameT} :
    NoStray (handleIp sr st a f) ↔
      NoStray (checkIp f) ∧ ∀ g, checkIp f = .ok (some g) → NoStray (routeIp sr st a g) := by
  unfold handleIp
  rw [noStray_bind_iff]
  constructor
  · intro h
    exact ⟨h.1, fun g hg => h.2 (some g) hg⟩
  · intro h
    refine ⟨h.1, fun passed hpassed => ?_⟩
    cases passed with
    | none => exact avoids_ok _ _
    | some g => exact h.2 g hpassed

/-! ## What the packet claims -/

theorem Claims.claimsIpv4 {packet : Bytes} {vhl : UInt8} {ipLen : Nat} {f : FrameT}
    (h : Claims packet vhl ipLen f)
    (htype : readBe16 packet 12 = some etherTypeIP) (hversion : vhl >>> 4 = 4) :
    ClaimsIpv4 packet f.ipHl ipLen f.toIp :=
  ⟨htype, ⟨vhl, h.first, hversion, h.ipHl⟩, h.lenField, h.toIp⟩

/-- What is read from such a frame. -/
theorem ClaimsIpv4.created {packet : Bytes} {hl ipLen : Nat} {dst : UInt32}
    (h : ClaimsIpv4 packet hl ipLen dst) (hlong : etherHdrLen ≤ packet.length) (sr : SrInstance)
    (ifName : IfName) :
    ∃ f vhl, createFrameT sr packet ifName = .ok (some f) ∧ f.ipHeader.isSome ∧
      f.frame = packet ∧ Claims packet vhl ipLen f ∧ vhl >>> 4 = 4 ∧ f.ipHl = hl ∧
      f.toIp = dst := by
  obtain ⟨f, hcreate⟩ := @createFrameT_ip sr packet ifName hlong h.etherType
  have hip : f.ipHeader.isSome := by
    cases createFrameT_spec hcreate with
    | ip hframe htype hip hiface hdst =>
      rw [hip]
      rfl
    | arp hframe htype hip hiface =>
      rw [h.etherType] at htype
      exact absurd (Option.some.inj htype) (by decide)
  obtain ⟨-, hframe, vhl, ipLen', hclaims⟩ := claims_of_createFrameT hcreate hip
  obtain ⟨vhl', hvhl, hversion, rfl⟩ := h.header
  obtain rfl : vhl = vhl' := Option.some.inj (hclaims.first.symm.trans hvhl)
  obtain rfl : ipLen' = ipLen := Option.some.inj (hclaims.lenField.symm.trans h.lenField)
  exact ⟨f, vhl, hcreate, hip, hframe, hclaims, hversion, hclaims.ipHl,
    Option.some.inj (hclaims.toIp.symm.trans h.dst)⟩

/-- What passes the checks claims the same. -/
theorem Claims.passed {packet : Bytes} {vhl : UInt8} {ipLen : Nat} {f g : FrameT}
    (h : Claims packet vhl ipLen f)
    (hcheck : checkIp f = .ok (some g)) :
    Claims packet vhl ipLen g ∧ vhl >>> 4 = 4 ∧ Verifies f.frame ∧ Verifies g.frame ∧
      g.ipHl = f.ipHl ∧ g.toIp = f.toIp := by
  obtain ⟨frame, rfl, hlen, hsame, hv, hv', vhl', hvhl, hversion⟩ := checkIp_spec h.place hcheck
  obtain rfl : vhl = vhl' := Option.some.inj (h.first_frame.symm.trans hvhl)
  exact ⟨h.of_frame hlen hsame, hversion, hv, hv', rfl, rfl⟩

theorem ClaimsIpv4.passed {packet : Bytes} {hl ipLen : Nat} {dst : UInt32}
    (h : ClaimsIpv4 packet hl ipLen dst) (hv : Verifies packet)
    (hlong : etherHdrLen ≤ packet.length) (sr : SrInstance) (ifName : IfName) :
    ∃ f g vhl, createFrameT sr packet ifName = .ok (some f) ∧ f.ipHeader.isSome ∧
      checkIp f = .ok (some g) ∧ Claims packet vhl ipLen g ∧ Verifies g.frame ∧
      g.ipHl = hl ∧ g.toIp = dst := by
  obtain ⟨f, vhl, hcreate, hip, hframe, hclaims, hversion, rfl, rfl⟩ := h.created hlong sr ifName
  rw [← hframe] at hv hlong
  obtain ⟨g, hcheck⟩ := checkIp_of_verifies hclaims.place hlong hv hclaims.first_frame hversion
  obtain ⟨hclaims', -, -, hv', hhl, hto⟩ := hclaims.passed hcheck
  exact ⟨f, g, vhl, hcreate, hip, hcheck, hclaims', hv', hhl, hto⟩

/-- An answer to a packet for the router. -/
theorem Claims.noStray_localReply {packet : Bytes} {vhl : UInt8} {ipLen : Nat} {f : FrameT}
    (h : Claims packet vhl ipLen f) (hlong : etherHdrLen ≤ packet.length)
    (sr : SrInstance) :
    NoStray (localReply sr f) ↔
      (packet[etherSize + 9]? = some ipProtoICMP → f.ipHl ≤ ipLen ∧
        etherSize + ipLen ≤ packet.length ∧ etherSize + f.ipHl + 4 ≤ packet.length) ∧
      (packet[etherSize + 9]? ≠ some ipProtoICMP → f.ipHl ≤ ipHdrLen) := by
  obtain ⟨proto, hproto, hicmp⟩ := h.icmpHeader
  rw [← h.length] at hlong ⊢
  rw [hproto]
  by_cases hp : proto = ipProtoICMP
  · rw [if_pos hp] at hicmp
    rw [noStray_localReply_icmp h.dhost hicmp h.ipLen hlong, hp]
    exact ⟨fun hfits => ⟨fun _ => hfits, fun hnot => absurd rfl hnot⟩, fun hfits => hfits.1 rfl⟩
  · rw [if_neg hp] at hicmp
    have hnot : some proto ≠ some ipProtoICMP := fun heq => hp (Option.some.inj heq)
    rw [noStray_localReply_other h.place h.dhost hicmp (by rw [h.ipLen]; rfl) hlong]
    exact ⟨fun hfits => ⟨fun heq => absurd heq hnot, fun _ => hfits⟩, fun hfits => hfits.2 hnot⟩

/-- And to one whose TTL is used up. -/
theorem Claims.noStray_ttlReply {packet : Bytes} {vhl : UInt8} {ipLen : Nat} {f : FrameT}
    (h : Claims packet vhl ipLen f) (hlong : etherHdrLen ≤ packet.length)
    (sr : SrInstance) :
    NoStray (ttlReply sr f) ↔ f.ipHl ≤ ipHdrLen ∨ HoldsIcmpError packet f.ipHl := by
  have hhl := h.ipHl
  rw [← h.length] at hlong
  refine (noStray_unlessError h.place h.dhost (by rw [h.ipLen]; rfl) hlong sr _ _).trans ?_
  refine or_congr_right (holdsIcmpError_congr (h.same _ (by decide) (by decide)) ?_)
  unfold etherSize
  exact h.same _ (by omega) (by omega)

/-- And the message about one that is given up on. The TTL it has lost lies in a
header without options. -/
theorem Claims.noStray_unreachReply {sr : SrInstance} {packet : Bytes} {vhl : UInt8}
    {ipLen : Nat} {f outgoing : FrameT} {hop : UInt32}
    (h : Claims packet vhl ipLen f) (hv : Verifies f.frame)
    (hlong : etherHdrLen ≤ packet.length) (hupd : updateIpHdr sr f = .ok (outgoing, hop))
    (toMAC : Mac) (ipLen' : Nat) :
    NoStray (unreachReply sr f outgoing toMAC ipLen') ↔
      f.ipHl ≤ ipHdrLen ∨ HoldsIcmpError packet f.ipHl := by
  obtain ⟨hout, htaken⟩ := updateIpHdr_spec hupd hv
  have hhl := updateIpHdr_ipHl hupd
  have hlen : etherHdrLen ≤ outgoing.frame.length := by
    rw [htaken.length, h.length]
    exact hlong
  refine (noStray_unlessError (f := { outgoing with
      fromMAC := f.fromMAC, iface := f.iface, toMAC := some toMAC, ipLen := some ipLen' })
    hout.ipHeader rfl rfl hlen sr _ _).trans ?_
  dsimp only
  rw [hhl]
  refine or_congr_right' fun hlt => ?_
  unfold ipHdrLen at hlt
  refine holdsIcmpError_congr ?_ ?_
  · rw [htaken.other _ (by decide) (by decide) (by decide), h.same _ (by decide) (by decide)]
  · unfold etherSize
    rw [htaken.other _ (by omega) (by omega) (by omega), h.same _ (by omega) (by omega)]

/-! ## The condition -/

theorem InBounds.fit {sr : SrInstance} {a : Arrival} (h : InBounds sr a)
    (hlong : etherHdrLen ≤ a.packet.length) : LengthsFit sr a.packet := by
  have hrouted : ∀ {f g : FrameT}, createFrameT sr a.packet a.interface = .ok (some f) →
      f.ipHeader.isSome → checkIp f = .ok (some g) → NoStray (routeIp sr (srInit sr) a g) :=
    fun hcreate hip hcheck => (noStray_handleIp.mp (h.handled _ hcreate hip _)).2 _ hcheck
  refine ⟨?_, ?_, ?_, ?_⟩
  · intro hl ipLen dst hclaims
    obtain ⟨f, vhl, hcreate, hip, -, hf, hversion, rfl, -⟩ := hclaims.created hlong sr a.interface
    rw [hf.ipHl]
    have hcheck := (noStray_handleIp.mp (h.handled f hcreate hip (srInit sr))).1
    exact (hf.noStray_checkIp hlong).mp hcheck hversion
  · intro hl ipLen dst iface hclaims hv hours hicmp
    obtain ⟨f, g, vhl, hcreate, hip, hcheck, hg, hvg, rfl, rfl⟩ :=
      hclaims.passed hv hlong sr a.interface
    have hroute := (noStray_routeIp hvg (by rw [hg.length]; exact hlong) sr _ a).mp
      (hrouted hcreate hip hcheck)
    exact ((hg.noStray_localReply hlong sr).mp (hroute.1 iface hours)).1 hicmp
  · intro hl ipLen dst iface hclaims hv hours hicmp
    obtain ⟨f, g, vhl, hcreate, hip, hcheck, hg, hvg, rfl, rfl⟩ :=
      hclaims.passed hv hlong sr a.interface
    have hroute := (noStray_routeIp hvg (by rw [hg.length]; exact hlong) sr _ a).mp
      (hrouted hcreate hip hcheck)
    exact ((hg.noStray_localReply hlong sr).mp (hroute.1 iface hours)).2 hicmp
  · intro hl ipLen dst hclaims hv hours hwhy
    obtain ⟨f, g, vhl, hcreate, hip, hcheck, hg, hvg, rfl, rfl⟩ :=
      hclaims.passed hv hlong sr a.interface
    have hglong : etherHdrLen ≤ g.frame.length := by
      rw [hg.length]
      exact hlong
    have hroute := (noStray_routeIp hvg hglong sr _ a).mp (hrouted hcreate hip hcheck)
    have hsame : g.frame[etherSize + 8]? = a.packet[etherSize + 8]? :=
      hg.same _ (by decide) (by decide)
    obtain ⟨ttl, httl⟩ := getElem?_of_lt (show etherSize + 8 < g.frame.length by
      exact Nat.lt_of_lt_of_le (by decide) hglong)
    by_cases hzero : ttl = 0
    · rw [hzero] at httl
      exact (hg.noStray_ttlReply hlong sr).mp (hroute.2 hours httl)
    · rcases hwhy with hspent | ⟨rt, hrt, hiface⟩
      · unfold ttlOf at hspent
        rw [← hsame, httl] at hspent
        exact absurd (Option.some.inj hspent) hzero
      · -- it may have to wait, and be given up on
        obtain ⟨iface, hiface⟩ := Option.isSome_iff_exists.mp hiface
        obtain ⟨outgoing, hupd⟩ := updateIpHdr_of_route hrt hiface hvg hglong
        have hacc : Accepted sr a g :=
          { long := hlong
            created := ⟨f, hcreate, hip, hcheck⟩
            notOurs := hours
            ttl := ⟨ttl, httl, UInt8.pos_iff_ne_zero.mpr hzero⟩ }
        exact (hg.noStray_unreachReply hvg hlong hupd broadcast 0).mp
          (h.givenUp g outgoing _ hacc hupd broadcast 0)

theorem LengthsFit.inBounds {sr : SrInstance} {a : Arrival} (h : LengthsFit sr a.packet)
    (hlong : etherHdrLen ≤ a.packet.length) : InBounds sr a := by
  refine ⟨noStray_createFrameT hlong sr a.interface, ?_, ?_⟩
  · intro f hcreate hip st
    obtain ⟨htype, hframe, vhl, ipLen, hf⟩ := claims_of_createFrameT hcreate hip
    refine noStray_handleIp.mpr ⟨(hf.noStray_checkIp hlong).mpr ?_, fun g hcheck => ?_⟩
    · intro hversion
      rw [← hf.ipHl]
      exact h.header _ _ _ (hf.claimsIpv4 htype hversion)
    · obtain ⟨hg, hversion, hv, hvg, hhl, hto⟩ := hf.passed hcheck
      rw [hframe] at hv
      have hclaims := hg.claimsIpv4 htype hversion
      refine (noStray_routeIp hvg (by rw [hg.length]; exact hlong) sr st a).mpr ⟨?_, ?_⟩
      · intro iface hours
        exact (hg.noStray_localReply hlong sr).mpr
          ⟨h.icmp _ _ _ iface hclaims hv hours, h.other _ _ _ iface hclaims hv hours⟩
      · intro hours hspent
        refine (hg.noStray_ttlReply hlong sr).mpr (h.transit _ _ _ hclaims hv hours (Or.inl ?_))
        rw [← hspent]
        exact (hg.same _ (by decide) (by decide)).symm
  · intro incoming outgoing hop hacc hupd toMAC ipLen'
    obtain ⟨f, hcreate, hip, hcheck⟩ := hacc.created
    obtain ⟨htype, hframe, vhl, ipLen, hf⟩ := claims_of_createFrameT hcreate hip
    obtain ⟨hg, hversion, hv, hvg, hhl, hto⟩ := hf.passed hcheck
    rw [hframe] at hv
    obtain ⟨rt, iface, hrt, -, hiface, -⟩ := (updateIpHdr_spec hupd hvg).1.route
    refine (hg.noStray_unreachReply hvg hlong hupd toMAC ipLen').mpr ?_
    exact h.transit _ _ _ (hg.claimsIpv4 htype hversion) hv hacc.notOurs
      (Or.inr ⟨rt, hrt, by rw [hiface]; rfl⟩)

/-- **The buffers a frame is worked on in are enough** exactly if the lengths its
headers claim fit. -/
theorem inBounds_iff {sr : SrInstance} {a : Arrival} (hlong : etherHdrLen ≤ a.packet.length) :
    InBounds sr a ↔ LengthsFit sr a.packet :=
  ⟨fun h => h.fit hlong, fun h => h.inBounds hlong⟩

/-- The datagram has no options, so all of it fits. -/
theorem lastHopDatagram_inBounds :
    InBounds gatewayRouter
      { packet := lastHopDatagram, interface := [0x65], now := 100, number := 0 } := by
  have hplain : ∀ {hl ipLen : Nat} {dst : UInt32}, ClaimsIpv4 lastHopDatagram hl ipLen dst →
      hl = ipHdrLen := by
    intro hl ipLen dst hclaims
    obtain ⟨vhl, hvhl, -, rfl⟩ := hclaims.header
    obtain rfl : (0x45 : UInt8) = vhl := Option.some.inj hvhl
    rfl
  refine (inBounds_iff (by decide)).mpr ⟨?_, ?_, ?_, ?_⟩
  · intro hl ipLen dst hclaims
    rw [hplain hclaims]
    decide
  · intro hl ipLen dst iface _ _ _ hicmp
    exact absurd (Option.some.inj hicmp) (by decide)
  · intro hl ipLen dst iface hclaims _ _ _
    exact Nat.le_of_eq (hplain hclaims)
  · intro hl ipLen dst hclaims _ _ _
    exact Or.inl (Nat.le_of_eq (hplain hclaims))

/-- The same with an `ip_hl` of 15, in a frame of 42 bytes. -/
def longHeader : Bytes := lastHopDatagram.set etherSize 0x4f

/-- Its checksum is taken of 32 bytes behind the frame. -/
theorem longHeader_strays :
    ¬ InBounds gatewayRouter
      { packet := longHeader, interface := [0x65], now := 100, number := 0 } := by
  intro h
  have hclaims : ClaimsIpv4 longHeader 60 28 0x0502000a :=
    ⟨by decide, ⟨0x4f, rfl, by decide, rfl⟩, by decide, by decide⟩
  exact absurd ((h.fit (by decide)).header 60 28 _ hclaims) (by decide)

end UchiNetworks.Router
