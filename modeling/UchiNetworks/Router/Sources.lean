import UchiNetworks.Router.Ttl

/-!
# Whose addresses the router's own frames carry

`generate_icmp_echo` and `generate_icmp_error` swap the addresses of the frame
they answer, `arp_create` takes those of the interface. What is swapped is an
address of the router only if the frame was for the router, and it is the
hardware address of the interface only if the frame was for that one
(`sources_run`).
-/

namespace UchiNetworks.Router

open UchiNetworks.Lib

/-- The frame holds an ARP packet. -/
def IsArp (frame : Bytes) : Prop := readBe16 frame 12 = some etherTypeARP

instance (frame : Bytes) : Decidable (IsArp frame) := inferInstanceAs (Decidable (_ = _))

/-- The source address of an IP packet, the sender's of an ARP packet. -/
def sourceIp (frame : Bytes) : Option UInt32 :=
  if IsArp frame then readU32 frame (etherSize + 14) else readU32 frame (etherSize + 12)

/-- The frame carries the address of an interface, and the hardware address of the
one it is sent on. -/
structure FromRouter (sr : SrInstance) (s : Sent) : Prop where
  ip : ∃ iface ∈ sr.ifList, sourceIp s.frame = some iface.ip
  mac : readMac s.frame 6 = some s.iface.addr

/-- Every frame that the call has made up itself is from the router: the ARP
requests of the flush, and what it sends for its packet and forwards nothing. An
IP frame of the flush is a packet from the queue. -/
def SourcesOwn (sr : SrInstance) (st : Option RouterState) (e : Event) : Prop :=
  ∀ s s' queue flushed new, st = some s →
    srHandlepacket sr s e.packet e.interface e.now = .ok s' →
    arpQueueFlush sr e.now s.queue = .ok (queue, flushed) →
    s'.wire = s.wire ++ flushed ++ new →
    (∀ x ∈ flushed, IsArp x.frame → FromRouter sr x) ∧
      ∀ x ∈ new, x.forwards = none → FromRouter sr x

/-- The test of `sr_handlepacket` for an echo request. -/
def IsEcho (incoming : FrameT) : Prop :=
  ∃ icmp checked, incoming.icmpHeader = some icmp ∧ computeIcmpChecksum incoming = .ok checked ∧
    checked.frame[icmp]? = some echoRequest ∧
    Buffer.read checked.frame (icmp + 2) 2 = some [0, 0]

/-- A packet for the router that is answered was sent to the hardware address of
the interface it came in on, and a packet in transit that has expired is an ICMP
error. -/
def SourcesHandled (sr : SrInstance) (e : Event) : Prop :=
  ∀ incoming, Passed sr e.packet e.interface incoming →
    (∀ target, ifDstCheck sr incoming.toIp = .ok (some target) →
      incoming.icmpHeader = none ∨ IsEcho incoming →
      readMac e.packet 0 = (getInterface sr e.interface).map SrIf.addr) ∧
    (ifDstCheck sr incoming.toIp = .ok none → ttlOf e.packet = some 0 →
      carriesIcmpError incoming.frame etherSize incoming.ipHl = .ok true)

/-! ## ARP frames -/

theorem arpFrame_reads (dst : Mac) (iface : SrIf) (op : Nat) (tha : Mac) (tip : UInt32) :
    IsArp (arpFrame dst iface op tha tip) ∧
      readMac (arpFrame dst iface op tha tip) 6 = some iface.addr ∧
      readU32 (arpFrame dst iface op tha tip) (etherSize + 14) = some iface.ip := by
  have hmacs : (dst.val ++ iface.addr.val).length = 12 := by
    rw [List.length_append, dst.property, iface.addr.property]
  have hsha : (dst.val ++ iface.addr.val ++ be16 etherTypeARP ++
      (be16 1 ++ be16 etherTypeIP ++ [6, 4] ++ be16 op ++ iface.addr.val)).length
        = etherSize + 14 := by
    simp only [List.length_append, dst.property, iface.addr.property, be16_length,
      List.length_cons, List.length_nil]
    rfl
  refine ⟨?_, ?_, ?_⟩
  · have hget : ∀ i < 2, (arpFrame dst iface op tha tip)[12 + i]? = (be16 etherTypeARP)[i]? := by
      intro i hi
      rw [arpFrame, List.append_assoc (dst.val ++ iface.addr.val),
        List.getElem?_append_right (by omega), hmacs, Nat.add_sub_cancel_left,
        List.getElem?_append_left (by rw [be16_length]; exact hi)]
    exact readBe16_of_getElem? (by decide) (hget 0 (by omega)) (hget 1 (by omega))
  · have hread : Buffer.read (arpFrame dst iface op tha tip) 6 6 = some iface.addr.val := by
      rw [arpFrame, List.append_assoc, List.append_assoc]
      exact Buffer.read_append _ _ _ dst.property.symm iface.addr.property.symm
    exact readMac_of_read hread
  · refine readU32_of_getElem? fun i hi => ?_
    have hassoc : arpFrame dst iface op tha tip = (dst.val ++ iface.addr.val ++ be16 etherTypeARP ++
        (be16 1 ++ be16 etherTypeIP ++ [6, 4] ++ be16 op ++ iface.addr.val)) ++
          (le32 iface.ip ++ (tha.val ++ le32 tip)) := by
      simp only [arpFrame, List.append_assoc]
    rw [hassoc, List.getElem?_append_right (by omega), hsha, Nat.add_sub_cancel_left,
      List.getElem?_append_left (show i < (le32 iface.ip).length from hi)]

/-- An ARP packet is from the router: `arp_create` fills in the interface. -/
theorem arpCreate_fromRouter {sr : SrInstance} {f out : FrameT} {op : Nat} {iface : SrIf}
    (hmem : iface ∈ sr.ifList) (h : arpCreate sr f (some iface) op = .ok out) {s : Sent}
    {forwards : Option Arrival} (hsend : sendPacket out forwards = .ok s) : FromRouter sr s := by
  have htarget : ∃ r, arpTarget sr f op = .ok r := by
    unfold arpCreate at h
    rw [getOr_some, ok_bind, bind_ok] at h
    obtain ⟨r, hr, -⟩ := h
    exact ⟨r, hr⟩
  obtain ⟨⟨tip, dst⟩, htarget⟩ := htarget
  rw [arpCreate_of htarget] at h
  obtain rfl := Except.ok.inj h
  obtain ⟨hiface, hframe, -⟩ := sendPacket_eq hsend
  dsimp only at hframe
  obtain rfl : iface = s.iface := Option.some.inj hiface
  obtain ⟨harp, hmac, hip⟩ := arpFrame_reads dst s.iface op f.fromMAC tip
  rw [← hframe] at harp hmac hip
  exact ⟨⟨s.iface, hmem, by rw [sourceIp, if_pos harp, hip]⟩, hmac⟩

/-! ## IP frames -/

/-- `out` answers the packet in `f`: what was the destination is the source. -/
structure Answers (f out : FrameT) : Prop where
  iface : out.iface = f.iface
  etherType : readBe16 out.frame 12 = some etherTypeIP
  ip : readU32 out.frame (etherSize + 12) = some f.toIp
  mac : ∃ dhost, f.toMAC = some dhost ∧ readMac out.frame 6 = some dhost

/-- The last two steps of a generator. -/
theorem headers_spec {f mid out : FrameT} (hip : f.ipHeader = some etherSize)
    (hcreate : ipHeaderCreate f = .ok mid) (henc : encapsulate mid = .ok out) :
    out.iface = f.iface ∧ readBe16 out.frame 12 = some etherTypeIP ∧
      readU32 out.frame (etherSize + 12) = some f.fromIp ∧
      readMac out.frame 6 = some f.fromMAC := by
  simp only [ipHeaderCreate, bind_ok, getOr_ok] at hcreate
  obtain ⟨ip, hip', ipLen, -, g, hg, hsum⟩ := hcreate
  obtain rfl : ip = etherSize := Option.some.inj (hip'.symm.trans hip)
  obtain ⟨ip, sum, g', hip'', -, hg', rfl⟩ := computeIpChecksum_eq hsum
  obtain rfl : ip = etherSize := Option.some.inj (hip''.symm.trans hip)
  obtain ⟨-, frame, -, rfl, -, -, hmac, hother, htype⟩ := encapsulate_eq henc
  dsimp only at hg' hmac hother htype ⊢
  refine ⟨rfl, ?_, ?_, hmac⟩
  · rw [hip, Option.isSome_some, if_pos rfl] at htype
    have hget : ∀ i < 2, frame[12 + i]? = (be16 etherTypeIP)[i]? := fun i hi =>
      (Buffer.read_getElem? htype hi).symm
    exact readBe16_of_getElem? (by decide) (hget 0 (by omega)) (hget 1 (by omega))
  · -- behind the checksum
    refine readU32_of_getElem? fun i hi => ?_
    rw [hother _ (by unfold etherSize; omega) (by unfold etherSize; omega)
        (by unfold etherSize; omega),
      Buffer.write_outside hg' (by rw [le16_length]; omega),
      Buffer.write_inside hg (by omega) (by simp; omega),
      show etherSize + 12 + i - etherSize = 12 + i by omega]
    obtain rfl | rfl | rfl | rfl : i = 0 ∨ i = 1 ∨ i = 2 ∨ i = 3 := by omega
    all_goals rfl

theorem generateIcmpError_answers {sr : SrInstance} {f out : FrameT} {icmpType icmpCode : UInt8}
    (h : generateIcmpError sr f icmpType icmpCode = .ok out) : Answers f out := by
  simp only [generateIcmpError, bind_ok, getOr_ok] at h
  obtain ⟨dhost, hto, _, -, _, -, _, -, _, -, _, -, mid, hsum, filled, hcreate, henc⟩ := h
  obtain ⟨frame, rfl⟩ := computeIcmpChecksum_eq hsum
  obtain ⟨hiface, htype, hip, hmac⟩ := headers_spec rfl hcreate henc
  exact ⟨hiface, htype, hip, dhost, hto, hmac⟩

theorem generateIcmpEcho_answers {f out : FrameT} (h : generateIcmpEcho f = .ok out) :
    Answers f out := by
  simp only [generateIcmpEcho, bind_ok, getOr_ok] at h
  obtain ⟨dhost, hto, _, -, _, -, mid, hsum, filled, hcreate, henc⟩ := h
  obtain ⟨frame, rfl⟩ := computeIcmpChecksum_eq hsum
  obtain ⟨hiface, htype, hip, hmac⟩ := headers_spec rfl hcreate henc
  exact ⟨hiface, htype, hip, dhost, hto, hmac⟩

/-- A packet for the router is answered if it is no ICMP message, or an echo
request. -/
theorem localReply_answers {sr : SrInstance} {f : FrameT} {reply : Option FrameT}
    (h : localReply sr f = .ok reply) :
    (∀ out, reply = some out → Answers f out) ∧
      (f.icmpHeader = none ∨ IsEcho f ↔ ∃ out, reply = some out) := by
  unfold localReply at h
  cases hicmp : f.icmpHeader with
  | none =>
    simp only [hicmp, bind_ok, Except.ok.injEq] at h
    obtain ⟨out, hout, rfl⟩ := h
    refine ⟨fun out' hout' => ?_, iff_of_true (Or.inl rfl) ⟨out, rfl⟩⟩
    obtain rfl := Option.some.inj hout'
    exact generateIcmpError_answers hout
  | some icmp =>
    simp only [hicmp, bind_ok, getOr_ok] at h
    obtain ⟨checked, hsum, icmpType, htype, field, hfield, h⟩ := h
    -- the test is the same one
    have hecho : IsEcho f ↔ icmpType = echoRequest ∧ field = [0, 0] := by
      constructor
      · intro hecho
        obtain ⟨icmp', checked', hicmp', hsum', htype', hfield'⟩ := hecho
        obtain rfl : icmp = icmp' := Option.some.inj (hicmp.symm.trans hicmp')
        obtain rfl : checked = checked' := Except.ok.inj (hsum.symm.trans hsum')
        exact ⟨Option.some.inj (htype.symm.trans htype'), Option.some.inj (hfield.symm.trans hfield')⟩
      · intro htest
        obtain ⟨rfl, rfl⟩ := htest
        exact ⟨icmp, checked, hicmp, hsum, htype, hfield⟩
    obtain ⟨frame, rfl⟩ := computeIcmpChecksum_eq hsum
    by_cases htest : icmpType = echoRequest ∧ field = [0, 0]
    · rw [if_pos htest, bind_ok] at h
      obtain ⟨out, hout, h⟩ := h
      obtain rfl := Except.ok.inj h
      refine ⟨fun out' hout' => ?_, iff_of_true (Or.inr (hecho.mpr htest)) ⟨out, rfl⟩⟩
      obtain rfl := Option.some.inj hout'
      have hans := generateIcmpEcho_answers hout
      exact ⟨hans.iface, hans.etherType, hans.ip, hans.mac⟩
    · rw [if_neg htest] at h
      obtain rfl := Except.ok.inj h
      constructor
      · intro out hout
        cases hout
      · constructor
        · intro hor
          rcases hor with hnone | hecho'
          · cases hnone
          · exact absurd (hecho.mp hecho') htest
        · intro hout
          obtain ⟨out, hout⟩ := hout
          cases hout

/-- An expired packet is answered unless it is an ICMP error. -/
theorem ttlReply_answers {sr : SrInstance} {f : FrameT} {reply : Option FrameT}
    (h : ttlReply sr f = .ok reply) :
    (∀ out, reply = some out → Answers f out) ∧
      (carriesIcmpError f.frame etherSize f.ipHl = .ok true ↔ reply = none) := by
  unfold ttlReply at h
  rw [bind_ok] at h
  obtain ⟨stuck, hstuck, h⟩ := h
  rw [hstuck]
  cases stuck with
  | true =>
    obtain rfl := Except.ok.inj h
    constructor
    · intro out hout
      cases hout
    · exact iff_of_true rfl rfl
  | false =>
    rw [if_neg (by decide), bind_ok] at h
    obtain ⟨out, hout, h⟩ := h
    obtain rfl := Except.ok.inj h
    refine ⟨fun out' hout' => ?_, iff_of_false (fun heq => ?_) (fun heq => by cases heq)⟩
    · obtain rfl := Option.some.inj hout'
      exact generateIcmpError_answers hout
    · cases Except.ok.inj heq

/-- Whether an answer is from the router. -/
theorem Answers.fromRouter_iff {sr : SrInstance} {f out : FrameT} (h : Answers f out) {s : Sent}
    (hframe : s.frame = out.frame) :
    FromRouter sr s ↔
      (∃ iface ∈ sr.ifList, iface.ip = f.toIp) ∧ f.toMAC = some s.iface.addr := by
  obtain ⟨dhost, hto, hmac⟩ := h.mac
  have harp : ¬ IsArp s.frame := by
    unfold IsArp
    rw [hframe, h.etherType]
    decide
  have hip : sourceIp s.frame = some f.toIp := by
    rw [sourceIp, if_neg harp, hframe, h.ip]
  rw [← hframe] at hmac
  constructor
  · intro hs
    obtain ⟨⟨iface, hmem, hsrc⟩, hsrcMac⟩ := hs
    rw [hip, Option.some.injEq] at hsrc
    rw [hmac] at hsrcMac
    exact ⟨⟨iface, hmem, hsrc.symm⟩, hto.trans hsrcMac⟩
  · intro hs
    obtain ⟨⟨iface, hmem, hsrc⟩, hmac'⟩ := hs
    exact ⟨⟨iface, hmem, by rw [hip, hsrc]⟩, by rw [hmac, ← hto, hmac']⟩

/-- `if_dst_check` finds the interface with the address. -/
theorem ifDstCheck_some {sr : SrInstance} {ip : UInt32} {target : SrIf}
    (h : ifDstCheck sr ip = .ok (some target)) : ∃ iface ∈ sr.ifList, iface.ip = ip := by
  unfold ifDstCheck at h
  split at h
  · cases h
  · have hfind := Except.ok.inj h
    have hip := List.find?_some hfind
    exact ⟨target, List.mem_of_find?_eq_some hfind, beq_iff_eq.mp hip⟩

theorem ifDstCheck_none {sr : SrInstance} {ip : UInt32} (h : ifDstCheck sr ip = .ok none) :
    ¬ ∃ iface ∈ sr.ifList, iface.ip = ip := by
  unfold ifDstCheck at h
  split at h
  · cases h
  · intro hex
    obtain ⟨iface, hmem, hip⟩ := hex
    exact List.find?_eq_none.mp (Except.ok.inj h) iface hmem (beq_iff_eq.mpr hip)

/-! ## A call -/

/-- What has been sent since, and forwards nothing, is from the router. -/
def OwnSends (sr : SrInstance) (st st' : RouterState) : Prop :=
  ∃ new, st'.wire = st.wire ++ new ∧ ∀ x ∈ new, x.forwards = none → FromRouter sr x

theorem ownSends_refl {sr : SrInstance} {st st' : RouterState} (h : st'.wire = st.wire) :
    OwnSends sr st st' := by
  refine ⟨[], by rw [h, List.append_nil], ?_⟩
  intro x hx
  cases hx

/-- A datagram that is from the router, or forwards a packet. -/
theorem ownSends_datagram {sr : SrInstance} {st st' : RouterState} {reply : Option FrameT}
    {forwards : Option Arrival} (h : sendDatagram st reply forwards = .ok st')
    (hown : ∀ out s, reply = some out → sendPacket out forwards = .ok s → forwards = none →
      FromRouter sr s) : OwnSends sr st st' := by
  rcases sendDatagram_eq h with ⟨-, rfl⟩ | ⟨out, s, hout, hsend, rfl⟩
  · exact ownSends_refl rfl
  · refine ⟨[s], rfl, fun x hx hnone => ?_⟩
    obtain rfl := List.mem_singleton.mp hx
    exact hown out x hout hsend ((sendPacket_eq hsend).2.2.symm.trans hnone)

theorem OwnSends.trans {sr : SrInstance} {st mid st' : RouterState} (h : OwnSends sr st mid)
    (h' : OwnSends sr mid st') : OwnSends sr st st' := by
  obtain ⟨new, hwire, hnew⟩ := h
  obtain ⟨new', hwire', hnew'⟩ := h'
  refine ⟨new ++ new', by rw [hwire', hwire, List.append_assoc], fun x hx => ?_⟩
  rcases List.mem_append.mp hx with hx | hx
  · exact hnew x hx
  · exact hnew' x hx

/-- A frame that forwards or asks for a next hop. -/
theorem forwardPacket_ownSends {sr : SrInstance} {st st' : RouterState} {a : Arrival}
    {incoming : FrameT} (h : forwardPacket sr st a incoming = .ok st') : OwnSends sr st st' := by
  simp only [forwardPacket, bind_ok] at h
  obtain ⟨⟨outgoing, hop⟩, hupd, h⟩ := h
  cases hhit : arpCacheLookup st.cache hop with
  | some incache =>
    simp only [hhit, bind_ok] at h
    obtain ⟨out, -, h⟩ := h
    exact ownSends_datagram h fun _ _ _ _ hnone => by cases hnone
  | none =>
    simp only [hhit] at h
    -- the request goes out on the interface of the route
    obtain ⟨iface, hmem, hiface⟩ : ∃ iface ∈ sr.ifList, outgoing.iface = some iface := by
      simp only [updateIpHdr, bind_ok, getOr_ok] at hupd
      obtain ⟨rt, -, iface, hfound, g1, -, ttl, -, g2, -, g3, -, out, hsum, heq⟩ := hupd
      simp only [Except.ok.injEq, Prod.mk.injEq] at heq
      obtain ⟨rfl, -⟩ := heq
      obtain ⟨ip, sum, final, -, -, -, rfl⟩ := computeIpChecksum_eq hsum
      exact ⟨iface, getInterface_mem hfound, rfl⟩
    have hrequest : ∀ {mid : RouterState} {request : FrameT},
        arpCreate sr outgoing outgoing.iface arpRequest = .ok request →
        sendDatagram mid (some request) none = .ok st' → mid.wire = st.wire →
        OwnSends sr st st' := by
      intro mid request hreq hsend hwire
      rw [hiface] at hreq
      refine (ownSends_refl hwire).trans (ownSends_datagram hsend fun out s hout hs _ => ?_)
      obtain rfl := Option.some.inj hout
      exact arpCreate_fromRouter hmem hreq hs
    simp only [queuePacket] at h
    split at h
    next entry hfind =>
      simp only [bind_ok] at h
      obtain ⟨touched, -, h⟩ := h
      split at h
      · cases h
      · simp only [bind_ok] at h
        obtain ⟨request, hreq, h⟩ := h
        exact hrequest hreq h rfl
    next hfind =>
      simp only [bind_ok] at h
      obtain ⟨request, hreq, h⟩ := h
      exact hrequest hreq h rfl

/-- An answer to an ARP packet, and what is released before it. -/
theorem handleArp_ownSends {sr : SrInstance} {st st' : RouterState} {a : Arrival}
    {incoming : FrameT} (hiface : ∀ iface, incoming.iface = some iface → iface ∈ sr.ifList)
    (h : handleArp sr st a incoming = .ok st') : OwnSends sr st st' := by
  have hanswer : ∀ {mid : RouterState} {op : Nat}, answerArp sr mid incoming op = .ok st' →
      OwnSends sr mid st' := by
    intro mid op h
    simp only [answerArp] at h
    split at h
    · simp only [bind_ok] at h
      obtain ⟨reply, hreply, h⟩ := h
      refine ownSends_datagram h fun out s hout hs _ => ?_
      obtain rfl := Option.some.inj hout
      cases hfound : incoming.iface with
      | none =>
        rw [hfound] at hreply
        cases hreply
      | some iface =>
        rw [hfound] at hreply
        exact arpCreate_fromRouter (hiface iface hfound) hreply hs
    · obtain rfl := Except.ok.inj h
      exact ownSends_refl rfl
  simp only [handleArp, bind_ok] at h
  obtain ⟨sha, -, sip, -, tip, -, op, -, h⟩ := h
  cases hhit : arpCacheLookup st.cache sip with
  | some entry =>
    simp only [hhit, bind_ok] at h
    obtain ⟨target, -, h⟩ := h
    cases target with
    | none =>
      obtain rfl := Except.ok.inj h
      exact ownSends_refl rfl
    | some target =>
      have hsent := hanswer h
      exact (ownSends_refl rfl).trans hsent
  | none =>
    simp only [hhit, bind_ok] at h
    obtain ⟨target, -, h⟩ := h
    cases target with
    | none =>
      obtain rfl := Except.ok.inj h
      exact ownSends_refl rfl
    | some target =>
      simp only [bind_ok] at h
      obtain ⟨mid, hmid, h⟩ := h
      obtain ⟨sent, hsent, rfl⟩ := learnSender_spec hmid
      refine OwnSends.trans ⟨sent, rfl, fun x hx hnone => ?_⟩ (hanswer h)
      -- a released packet is forwarded
      obtain ⟨p, -, hrel⟩ := forall₂_mem_right hsent x hx
      rw [hrel.forwards] at hnone
      cases hnone

theorem createFrameT_toMAC {sr : SrInstance} {packet : Bytes} {ifName : IfName} {f : FrameT}
    (h : createFrameT sr packet ifName = .ok (some f)) : f.toMAC = readMac packet 0 := by
  simp only [createFrameT, bind_ok, getOr_ok] at h
  obtain ⟨shost, -, dhost, hdhost, etherType, -, h⟩ := h
  split at h
  · simp only [bind_ok, Except.ok.injEq, Option.some.injEq] at h
    obtain ⟨_, -, _, -, _, -, _, -, _, -, rfl⟩ := h
    exact hdhost.symm
  · split at h
    · simp only [bind_ok, Except.ok.injEq, Option.some.injEq] at h
      obtain ⟨_, -, _, -, rfl⟩ := h
      exact hdhost.symm
    · cases h

/-- What has passed the checks is the packet. -/
theorem Passed.spec {sr : SrInstance} {packet : Bytes} {ifName : IfName} {incoming : FrameT}
    (h : Passed sr packet ifName incoming) :
    incoming.toMAC = readMac packet 0 ∧ incoming.iface = getInterface sr ifName ∧
      incoming.frame[etherSize + 8]? = ttlOf packet := by
  obtain ⟨created, hcreate, hsome, hcheck⟩ := h.created
  have hmac := createFrameT_toMAC hcreate
  cases createFrameT_spec hcreate with
  | ip hframe htype hip hiface hdst =>
    obtain ⟨frame, rfl, -, hother, -⟩ := checkIp_spec hip hcheck
    refine ⟨hmac, hiface, ?_⟩
    rw [ttlOf, ← hframe]
    exact hother _ (by decide) (by decide)
  | arp hframe htype hip hiface =>
    rw [hip] at hsome
    cases hsome

theorem ownSends_single_iff {sr : SrInstance} {st st' : RouterState} {s : Sent}
    (hwire : st'.wire = st.wire ++ [s]) (hnone : s.forwards = none) :
    OwnSends sr st st' ↔ FromRouter sr s := by
  constructor
  · intro h
    obtain ⟨new, hnew, hown⟩ := h
    rw [hwire, List.append_cancel_left_eq] at hnew
    exact hown s (by rw [← hnew]; exact List.mem_singleton_self s) hnone
  · intro h
    refine ⟨[s], hwire, fun x hx _ => ?_⟩
    obtain rfl := List.mem_singleton.mp hx
    exact h

/-- The IP branch sends for itself only what is from the router, exactly if the
packet is not one of the two kinds. -/
theorem routeIp_ownSends_iff {sr : SrInstance} {mid st' : RouterState} {a : Arrival}
    {packet : Bytes} {ifName : IfName} {incoming : FrameT}
    (hpassed : Passed sr packet ifName incoming) (h : routeIp sr mid a incoming = .ok st') :
    OwnSends sr mid st' ↔
      (∀ target, ifDstCheck sr incoming.toIp = .ok (some target) →
        incoming.icmpHeader = none ∨ IsEcho incoming →
        readMac packet 0 = (getInterface sr ifName).map SrIf.addr) ∧
      (ifDstCheck sr incoming.toIp = .ok none → ttlOf packet = some 0 →
        carriesIcmpError incoming.frame etherSize incoming.ipHl = .ok true) := by
  obtain ⟨hmac, hiface, httl⟩ := hpassed.spec
  -- the frame of an answer, and when it is from the router
  have hsent : ∀ {out}, Answers incoming out → sendDatagram mid (some out) none = .ok st' →
      ∃ iface, getInterface sr ifName = some iface ∧
        (OwnSends sr mid st' ↔ (∃ own ∈ sr.ifList, own.ip = incoming.toIp) ∧
          readMac packet 0 = some iface.addr) := by
    intro out hans hsend
    rcases sendDatagram_eq hsend with ⟨hnone, -⟩ | ⟨out', s, hout, hs, rfl⟩
    · cases hnone
    · obtain rfl := Option.some.inj hout
      obtain ⟨hfrom, hframe, hfor⟩ := sendPacket_eq hs
      refine ⟨s.iface, by rw [← hiface, ← hans.iface, hfrom], ?_⟩
      rw [ownSends_single_iff rfl hfor, hans.fromRouter_iff hframe, hmac]
  unfold routeIp at h
  rw [bind_ok] at h
  obtain ⟨ours, hours, h⟩ := h
  rw [hours]
  cases ours with
  | some target =>
    rw [bind_ok] at h
    obtain ⟨reply, hreply, h⟩ := h
    obtain ⟨hans, hanswered⟩ := localReply_answers hreply
    rw [hanswered]
    cases reply with
    | none =>
      obtain rfl := Except.ok.inj h
      refine iff_of_true (ownSends_refl rfl) ⟨fun _ _ hout => ?_, fun hne => by cases hne⟩
      obtain ⟨out, hout⟩ := hout
      cases hout
    | some out =>
      obtain ⟨iface, hfound, hown⟩ := hsent (hans out rfl) h
      rw [hown, hfound, Option.map_some]
      constructor
      · intro hboth
        exact ⟨fun _ _ _ => hboth.2, fun hne => by cases hne⟩
      · intro hcond
        exact ⟨ifDstCheck_some hours, hcond.1 target rfl ⟨out, rfl⟩⟩
  | none =>
    simp only [bind_ok, getOr_ok] at h
    obtain ⟨ttl, httl', h⟩ := h
    rw [← httl, httl', Option.some.injEq]
    by_cases hzero : ttl ≤ 0
    · have hz : ttl = 0 := UInt8.le_antisymm hzero (UInt8.zero_le)
      rw [if_pos hzero, bind_ok] at h
      obtain ⟨reply, hreply, h⟩ := h
      obtain ⟨hans, herror⟩ := ttlReply_answers hreply
      rw [herror]
      cases reply with
      | none =>
        obtain rfl := Except.ok.inj h
        exact iff_of_true (ownSends_refl rfl) ⟨fun _ hne => (by cases hne), fun _ _ => rfl⟩
      | some out =>
        -- the address it carries is the destination's
        obtain ⟨iface, -, hown⟩ := hsent (hans out rfl) h
        rw [hown]
        refine iff_of_false (fun hboth => ifDstCheck_none hours hboth.1) (fun hcond => ?_)
        cases hcond.2 rfl hz
    · rw [if_neg hzero] at h
      refine iff_of_true (forwardPacket_ownSends h) ⟨fun _ hne => (by cases hne), fun _ hz => ?_⟩
      rw [hz] at hzero
      exact absurd (UInt8.le_refl 0) hzero

/-! ## The flush -/

/-- A packet that waits is an IP packet. -/
theorem Waits.not_arp {sr : SrInstance} {hist : List Event} {ip hop : UInt32} {p : QueuedPacket}
    (h : Waits sr hist ip hop p) : ¬ IsArp p.outgoing.frame := by
  obtain ⟨incoming, hacc, hupd, -⟩ := h.accepted
  obtain ⟨htype, -, -, hother, -, hv, -⟩ := hacc.spec
  obtain ⟨-, htaken⟩ := updateIpHdr_spec hupd hv
  have hsame : readBe16 p.outgoing.frame 12 = readBe16 p.arrival.packet 12 := by
    unfold readBe16
    rw [htaken.other 12 (by omega) (by omega) (by omega), hother 12 (by omega) (by omega),
      htaken.other 13 (by omega) (by omega) (by omega), hother 13 (by omega) (by omega)]
  unfold IsArp
  rw [hsame, htype]
  decide

/-- What `arpq_packets_icmpsend` sends are the frames that waited. -/
theorem arpqPacketsIcmpsend_frames {sr : SrInstance} {packets : List QueuedPacket}
    {sent : List Sent} (h : arpqPacketsIcmpsend sr packets = .ok sent) :
    ∀ x ∈ sent, ∃ p ∈ packets, x.frame = p.outgoing.frame := by
  induction packets generalizing sent with
  | nil =>
    obtain rfl := Except.ok.inj h
    intro x hx
    cases hx
  | cons p rest ih =>
    simp only [arpqPacketsIcmpsend, bind_ok] at h
    obtain ⟨ip, -, stuck, -, h⟩ := h
    cases stuck with
    | true => cases h
    | false =>
      simp only [Bool.false_eq_true, if_false, bind_ok, Except.ok.injEq] at h
      obtain ⟨-, -, iface, -, more, hmore, rfl⟩ := h
      intro x hx
      rcases List.mem_cons.mp hx with rfl | hx
      · exact ⟨p, List.mem_cons_self, rfl⟩
      · obtain ⟨q, hq, hframe⟩ := ih hmore x hx
        exact ⟨q, List.mem_cons_of_mem _ hq, hframe⟩

/-- The ARP requests of a flush are from the router. -/
theorem flushEntry_fromRouter {sr : SrInstance} {now : Nat} {entry : ArpqEntry}
    {r : Option ArpqEntry × List Sent} (hready : ∀ p ∈ entry.arpqPackets, Ready sr p)
    (hip : ∀ p ∈ entry.arpqPackets, ¬ IsArp p.outgoing.frame)
    (h : flushEntry sr now entry = .ok r) : ∀ x ∈ r.2, IsArp x.frame → FromRouter sr x := by
  unfold flushEntry at h
  split at h
  · split at h
    · rw [bind_ok] at h
      obtain ⟨sent, hsent, h⟩ := h
      obtain rfl := Except.ok.inj h
      intro x hx harp
      obtain ⟨p, hp, hframe⟩ := arpqPacketsIcmpsend_frames hsent x hx
      rw [hframe] at harp
      exact absurd harp (hip p hp)
    · split at h
      next p rest hpackets =>
        simp only [bind_ok] at h
        obtain ⟨request, hreq, sent, hsend, h⟩ := h
        obtain rfl := Except.ok.inj h
        have hp := hready p (by rw [hpackets]; exact List.mem_cons_self)
        obtain ⟨iface, hmem, hiface⟩ := hp.iface
        rw [hiface] at hreq
        intro x hx _
        obtain rfl := List.mem_singleton.mp hx
        exact arpCreate_fromRouter hmem hreq hsend
      next hpackets =>
        obtain rfl := Except.ok.inj h
        intro x hx
        cases hx
  · obtain rfl := Except.ok.inj h
    intro x hx
    cases hx

theorem arpQueueFlush_fromRouter {sr : SrInstance} {now : Nat} {queue : List ArpqEntry}
    {r : List ArpqEntry × List Sent}
    (hready : ∀ entry ∈ queue, ∀ p ∈ entry.arpqPackets, Ready sr p)
    (hip : ∀ entry ∈ queue, ∀ p ∈ entry.arpqPackets, ¬ IsArp p.outgoing.frame)
    (h : arpQueueFlush sr now queue = .ok r) : ∀ x ∈ r.2, IsArp x.frame → FromRouter sr x := by
  induction queue generalizing r with
  | nil =>
    obtain rfl := Except.ok.inj h
    intro x hx
    cases hx
  | cons entry rest ih =>
    simp only [arpQueueFlush, bind_ok] at h
    obtain ⟨r1, h1, r2, h2, h⟩ := h
    obtain rfl := Except.ok.inj h
    intro x hx harp
    rcases List.mem_append.mp hx with hx | hx
    · exact flushEntry_fromRouter (hready entry List.mem_cons_self) (hip entry List.mem_cons_self)
        h1 x hx harp
    · exact ih (fun e he => hready e (List.mem_cons_of_mem _ he))
        (fun e he => hip e (List.mem_cons_of_mem _ he)) h2 x hx harp

/-! ## A run -/

/-- A call that returns: the packet has passed the checks and is routed, or what is
sent for it is from the router anyway. -/
theorem handlepacket_passed {sr : SrInstance} {st st' : RouterState} {packet : Bytes}
    {ifName : IfName} {now : Nat} (h : srHandlepacket sr st packet ifName now = .ok st') :
    packet.length < etherHdrLen ∧ st' = { st with calls := st.calls + 1 } ∨
    etherHdrLen ≤ packet.length ∧
    ∃ queue flushed, arpQueueFlush sr now st.queue = .ok (queue, flushed) ∧
      ((∃ incoming a, Passed sr packet ifName incoming ∧
          routeIp sr (flushedState st now queue flushed) a incoming = .ok st') ∨
        (∀ incoming, ¬ Passed sr packet ifName incoming) ∧
          OwnSends sr (flushedState st now queue flushed) st') := by
  by_cases hpassed : ∃ incoming, Passed sr packet ifName incoming
  · obtain ⟨incoming, hin⟩ := hpassed
    rw [hin.call, bind_ok] at h
    obtain ⟨⟨queue, flushed⟩, hflush, h⟩ := h
    exact Or.inr ⟨hin.long, queue, flushed, hflush, Or.inl ⟨incoming, _, hin, h⟩⟩
  · have hnot := not_exists.mp hpassed
    simp only [srHandlepacket] at h
    by_cases hshort : packet.length < etherHdrLen
    · rw [if_pos hshort] at h
      exact Or.inl ⟨hshort, (Except.ok.inj h).symm⟩
    · rw [if_neg hshort] at h
      simp only [bind_ok, getOr_ok] at h
      obtain ⟨created, hcreated, ⟨queue, flushed⟩, hflush, incoming, rfl, h⟩ := h
      refine Or.inr ⟨Nat.not_lt.mp hshort, queue, flushed, hflush, Or.inr ⟨hnot, ?_⟩⟩
      by_cases hip : incoming.ipHeader.isSome
      · rw [if_pos hip] at h
        simp only [handleIp, bind_ok] at h
        obtain ⟨checked, hcheck, h⟩ := h
        cases checked with
        | none =>
          obtain rfl := Except.ok.inj h
          exact ownSends_refl rfl
        | some f => exact absurd ⟨Nat.not_lt.mp hshort, incoming, hcreated, hip, hcheck⟩ (hnot f)
      · rw [if_neg hip] at h
        refine handleArp_ownSends (fun iface hiface => ?_) h
        have hfound : incoming.iface = getInterface sr ifName := by
          cases createFrameT_spec hcreated with
          | ip _ _ _ hiface' _ => exact hiface'
          | arp _ _ _ hiface' => exact hiface'
        exact getInterface_mem (hfound.symm.trans hiface)

/-- The wire only grows. -/
theorem handlepacket_wire {sr : SrInstance} {st st' : RouterState} {e : Event}
    {queue : List ArpqEntry} {flushed : List Sent} (hlong : etherHdrLen ≤ e.packet.length)
    (hflush : arpQueueFlush sr e.now st.queue = .ok (queue, flushed))
    (hcall : srHandlepacket sr st e.packet e.interface e.now = .ok st') :
    ∃ new, st'.wire = st.wire ++ flushed ++ new := by
  rcases handlepacket_cases hcall with ⟨hshort, -⟩ | ⟨-, queue', flushed', hflush', hout⟩
  · exact absurd hlong (Nat.not_le.mpr hshort)
  · obtain ⟨rfl, rfl⟩ := Prod.mk.inj (Except.ok.inj (hflush.symm.trans hflush'))
    cases hout with
    | answered extra _ _ _ => exact ⟨extra, rfl⟩
    | direct incoming outgoing sent hop incache iface _ _ _ _ _ => exact ⟨_, rfl⟩
    | queued incoming outgoing hop queue' request _ _ _ _ _ => exact ⟨_, rfl⟩
    | refreshed info entry extra _ _ _ => exact ⟨extra, rfl⟩
    | overheard info _ _ _ => exact ⟨[], (List.append_nil _).symm⟩
    | learned info target sent extra _ _ _ _ _ => exact ⟨_, List.append_assoc _ _ _⟩

/-- A call that returns, from a state that can be reached. -/
theorem sourcesOwn_iff {sr : SrInstance} {hist : List Event} {st st' : RouterState} {e : Event}
    (hinv : Inv sr hist st) (hcall : srHandlepacket sr st e.packet e.interface e.now = .ok st') :
    SourcesOwn sr (some st) e ↔ SourcesHandled sr e := by
  rcases handlepacket_passed hcall with ⟨hshort, rfl⟩ | ⟨hlong, queue, flushed, hflush, hout⟩
  · -- nothing is sent
    refine iff_of_true ?_ fun incoming hpassed => absurd hpassed.long (Nat.not_le.mpr hshort)
    intro s s' queue flushed new hs hcall' _ hwire
    obtain rfl := Option.some.inj hs
    obtain rfl := Except.ok.inj (hcall.symm.trans hcall')
    have hnothing : flushed ++ new = [] := by
      rw [List.append_assoc] at hwire
      exact List.self_eq_append_right.mp hwire
    obtain ⟨rfl, rfl⟩ := List.append_eq_nil_iff.mp hnothing
    simp only [List.not_mem_nil, false_implies, implies_true, and_self]
  · have hown : SourcesOwn sr (some st) e ↔ OwnSends sr (flushedState st e.now queue flushed) st' := by
      constructor
      · intro h
        obtain ⟨new, hnew⟩ := handlepacket_wire hlong hflush hcall
        exact ⟨new, hnew, (h st st' queue flushed new rfl hcall hflush hnew).2⟩
      · intro h s s' queue' flushed' new hs hcall' hflush' hwire
        obtain rfl := Option.some.inj hs
        obtain rfl := Except.ok.inj (hcall.symm.trans hcall')
        obtain ⟨rfl, rfl⟩ := Prod.mk.inj (Except.ok.inj (hflush.symm.trans hflush'))
        obtain ⟨new', hwire', hnew⟩ := h
        have hsame : new = new' := List.append_cancel_left (hwire.symm.trans hwire')
        rw [hsame]
        refine ⟨?_, hnew⟩
        exact arpQueueFlush_fromRouter hinv.queue.ready (fun entry hentry p hp =>
          (hinv.queue.waits _ (List.mem_map_of_mem hentry) p hp).not_arp) hflush
    rw [hown]
    rcases hout with ⟨incoming, a, hpassed, hroute⟩ | ⟨hnot, hsends⟩
    · rw [routeIp_ownSends_iff hpassed hroute]
      constructor
      · intro hcond f hf
        obtain rfl := hf.unique hpassed
        exact hcond
      · intro hcond
        exact hcond incoming hpassed
    · exact iff_of_true hsends fun f hf => absurd hf (hnot f)

/-- **The frames the router makes up carry its addresses** in every run whose frames
meet the condition, and in no other run that returns. -/
theorem sources_run (sr : SrInstance) (evs : List Event) :
    ((∀ e ∈ evs, SourcesHandled sr e) →
      Along (step sr) (SourcesOwn sr) (some (srInit sr)) evs) ∧
    ((run (step sr) (some (srInit sr)) evs).isSome →
      Along (step sr) (SourcesOwn sr) (some (srInit sr)) evs →
      ∀ e ∈ evs, SourcesHandled sr e) := by
  constructor
  · intro h
    refine along_of_invariant (Reached sr) (fun st e _ hinv => hinv.step e) ?_
      (along_events.mpr h) (reached_init sr)
    intro st e hok hinv s s' queue flushed new hs hcall
    obtain ⟨hist, hhist⟩ := hinv s hs
    exact (sourcesOwn_iff hhist hcall).mpr hok s s' queue flushed new rfl hcall
  · intro hup h
    refine along_events.mp (?_ : Along (step sr) _ (some (srInit sr)) evs)
    refine along_of_invariant (Reached sr) (fun st e _ hinv => hinv.step e) ?_
      (along_and.mpr ⟨h, along_up hup⟩) (reached_init sr)
    intro st e hok hinv
    obtain ⟨hown, hup⟩ := hok
    obtain ⟨s', hs'⟩ := Option.isSome_iff_exists.mp hup
    obtain ⟨s, rfl, hcall⟩ := step_eq_some hs'
    obtain ⟨hist, hhist⟩ := hinv s rfl
    exact (sourcesOwn_iff hhist hcall).mp hown

/-- A UDP datagram from `10.0.1.9` to `10.0.2.5` with a TTL of 0. -/
def spentDatagram : Bytes :=
  [2, 0, 0, 0, 0, 1, 2, 0, 0, 0, 0, 9, 8, 0, 69, 0, 0, 28, 0, 0, 0, 0, 0, 17, 163, 196,
    10, 0, 1, 9, 10, 0, 2, 5, 1, 2, 3, 4, 5, 6, 7, 8]

/-- The answer to it pretends to be from `10.0.2.5`. -/
theorem spentDatagram_source :
    ¬ Along (step gatewayRouter) (SourcesOwn gatewayRouter) (some (srInit gatewayRouter))
      [{ packet := spentDatagram, interface := [0x65], now := 100 }] := by
  intro h
  have hsent : (srHandlepacket gatewayRouter (srInit gatewayRouter) spentDatagram [0x65]
      100).toOption.any (fun s => s.wire.any fun x =>
        x.forwards == none && sourceIp x.frame == some 0x0502000a) = true := by
    decide +kernel
  obtain ⟨s', hs', hany⟩ := (Option.any_eq_true _ _).mp hsent
  obtain ⟨x, hx, hboth⟩ := List.any_eq_true.mp hany
  rw [Bool.and_eq_true, beq_iff_eq, beq_iff_eq] at hboth
  cases hcall : srHandlepacket gatewayRouter (srInit gatewayRouter) spentDatagram [0x65] 100 with
  | error fault =>
    rw [hcall] at hs'
    cases hs'
  | ok s =>
    rw [hcall] at hs'
    obtain rfl := Option.some.inj hs'
    obtain ⟨iface, hmem, hip⟩ := ((h.1 _ s _ [] s.wire rfl hcall rfl rfl).2 x hx hboth.1).ip
    obtain rfl := List.mem_singleton.mp hmem
    rw [hboth.2] at hip
    exact absurd hip (by decide)

end UchiNetworks.Router
