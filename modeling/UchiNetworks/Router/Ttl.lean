import UchiNetworks.Router.Flush
import UchiNetworks.Router.Incoming

/-!
# The time to live of forwarded packets

`sr_handlepacket` looks at the TTL and then has `update_ip_hdr` take one off it,
so a packet that comes in with 1 leaves with 0. `ttl_run` says what else is
between the router and a TTL that is respected in every run: the message that
answers an expired packet has to be made, and `sr_send_packet` has to take it.
-/

namespace UchiNetworks.Router

open UchiNetworks.Lib

/-- The TTL of the IP packet in a frame. -/
def ttlOf (frame : Bytes) : Option UInt8 := frame[etherSize + 8]?

/-- No frame that forwards a packet has a TTL of 0, and no packet that waits. -/
structure NoSpentTtl (st : RouterState) : Prop where
  wire : ∀ s ∈ st.wire, s.forwards.isSome → ttlOf s.frame ≠ some 0
  queue : ∀ entry ∈ st.queue, ∀ p ∈ entry.arpqPackets, ttlOf p.outgoing.frame ≠ some 0

/-- The frame holds a valid IP packet that is not for the router. -/
structure Transit (sr : SrInstance) (packet : Bytes) (hl total : Nat) : Prop where
  ip : Ipv4 packet hl total
  verifies : Verifies packet
  notOurs : ∃ dst, readU32 packet (etherSize + 16) = some dst ∧ ifDstCheck sr dst = .ok none

/-- The packet is an ICMP error itself. -/
def HoldsIcmpError (packet : Bytes) (hl : Nat) : Prop :=
  packet[etherSize + 9]? = some ipProtoICMP ∧
    ∃ icmpType, packet[etherSize + hl]? = some icmpType ∧ isIcmpError icmpType

/-- The frame tells the sender of `packet` that its time was exceeded. -/
structure TimeExceededTo (packet : Bytes) (sent : Sent) : Prop where
  own : sent.forwards = none
  toMAC : readMac sent.frame 0 = readMac packet 6
  toIp : readU32 sent.frame (etherSize + 16) = readU32 packet (etherSize + 12)
  ip : readBe16 sent.frame 12 = some etherTypeIP ∧ sent.frame[etherSize]? = some 0x45 ∧
    sent.frame[etherSize + 9]? = some ipProtoICMP
  icmp : sent.frame[etherSize + ipHdrLen]? = some timeExceeded ∧
    sent.frame[etherSize + ipHdrLen + 1]? = some timeIntransit

/-- The call returns and has sent `new` for its packet, and queued nothing. What
the flush does before that is not for the packet. -/
def SendsOnly (sr : SrInstance) (st : RouterState) (e : Event) (new : List Sent) : Prop :=
  ∃ st' queue flushed, srHandlepacket sr st e.packet e.interface e.now = .ok st' ∧
    (e.packet.length < etherHdrLen ∧ queue = st.queue ∧ flushed = [] ∨
      arpQueueFlush sr e.now st.queue = .ok (queue, flushed)) ∧
    st'.queue = queue ∧ st'.wire = st.wire ++ flushed ++ new

/-- The TTL is respected in a call: nothing is forwarded or queued with 0, and a
packet with 0 or 1 is answered, or dropped if it is an ICMP error. -/
def TtlRespected (sr : SrInstance) (st : Option RouterState) (e : Event) : Prop :=
  ∀ s, st = some s →
    (∀ s', step sr st e = some s' → NoSpentTtl s') ∧
    ∀ hl total ttl, Transit sr e.packet hl total → ttlOf e.packet = some ttl → ttl ≤ 1 →
      (HoldsIcmpError e.packet hl → SendsOnly sr s e []) ∧
      (¬ HoldsIcmpError e.packet hl →
        ∃ sent, TimeExceededTo e.packet sent ∧ sent.goesOut sr ∧ SendsOnly sr s e [sent])

/-- No packet to forward has a TTL of 1. One that has expired is an ICMP error,
if its frame is short; else the flush returns, and the packet is an ICMP error or
has no IP options and was sent to the interface it came in on. -/
def TtlHandled (sr : SrInstance) (st : Option RouterState) (e : Event) : Prop :=
  ∀ s, st = some s →
    (∀ incoming, Accepted sr (e.arrival s.calls) incoming → ttlOf e.packet ≠ some 1) ∧
    ∀ hl total ttl, Transit sr e.packet hl total → ttlOf e.packet = some ttl → ttl ≤ 1 →
      (e.packet.length < etherHdrLen → HoldsIcmpError e.packet hl) ∧
      (etherHdrLen ≤ e.packet.length → Flushable e.now s.queue ∧
        (HoldsIcmpError e.packet hl ∨ hl = ipHdrLen ∧ ToInterface sr e.packet e.interface))

/-! ## What is forwarded -/

/-- An entry of the later queue holds the packets of an entry of the earlier. -/
theorem mem_of_cores {queue queue' : List ArpqEntry}
    (h : (queue'.map ArpqEntry.core).Sublist (queue.map ArpqEntry.core)) {entry' : ArpqEntry}
    (hentry : entry' ∈ queue') : ∃ entry ∈ queue, entry.arpqPackets = entry'.arpqPackets := by
  obtain ⟨entry, hmem, hcore⟩ := List.mem_map.mp (h.subset (List.mem_map_of_mem hentry))
  exact ⟨entry, hmem, congrArg (fun c => c.2.2) hcore⟩

/-- A packet of the queue was there before, or has just joined it. -/
theorem Enqueued.mem {now : Nat} {ip hop : UInt32} {p : QueuedPacket}
    {queue queue' : List ArpqEntry} (h : Enqueued now ip hop p queue queue') :
    ∀ entry ∈ queue', ∀ q ∈ entry.arpqPackets,
      q = p ∨ ∃ old ∈ queue, q ∈ old.arpqPackets := by
  intro entry hentry q hq
  cases h with
  | joined before after e lastReq numReqs hip hsome htouch =>
    rcases List.mem_append.mp hentry with hb | hentry
    · exact Or.inr ⟨entry, List.mem_append_left _ hb, hq⟩
    · rcases List.mem_cons.mp hentry with rfl | ha
      · rcases List.mem_append.mp hq with hq | hq
        · exact Or.inr ⟨e, List.mem_append_right _ List.mem_cons_self, hq⟩
        · exact Or.inl (List.mem_singleton.mp hq)
      · exact Or.inr ⟨entry, List.mem_append_right _ (List.mem_cons_of_mem _ ha), hq⟩
  | opened _ hnew =>
    rcases List.mem_append.mp hentry with hold | hentry
    · exact Or.inr ⟨entry, hold, hq⟩
    · obtain rfl := List.mem_singleton.mp hentry
      exact Or.inl (List.mem_singleton.mp hq)

/-- And the packet is in it. -/
theorem Enqueued.joins {now : Nat} {ip hop : UInt32} {p : QueuedPacket}
    {queue queue' : List ArpqEntry} (h : Enqueued now ip hop p queue queue') :
    ∃ entry ∈ queue', p ∈ entry.arpqPackets := by
  cases h with
  | joined before after e lastReq numReqs hip hsome htouch =>
    exact ⟨_, List.mem_append_right _ List.mem_cons_self,
      List.mem_append_right _ (List.mem_singleton_self _)⟩
  | opened _ hnew =>
    exact ⟨_, List.mem_append_right _ (List.mem_singleton_self _), List.mem_singleton_self _⟩

/-- The TTL that an accepted packet is forwarded with. -/
theorem Accepted.outgoing_ttl {sr : SrInstance} {a : Arrival} {incoming outgoing : FrameT}
    {hop : UInt32} (h : Accepted sr a incoming)
    (hupd : updateIpHdr sr incoming = .ok (outgoing, hop)) :
    ∃ ttl, ttlOf a.packet = some ttl ∧ 0 < ttl ∧ ttlOf outgoing.frame = some (ttl - 1) := by
  obtain ⟨-, -, -, hother, -, hv, -⟩ := h.spec
  obtain ⟨-, htaken⟩ := updateIpHdr_spec hupd hv
  obtain ⟨ttl, httl, hpos⟩ := h.ttl
  obtain ⟨t, ht, ht'⟩ := htaken.ttl
  obtain rfl : ttl = t := Option.some.inj (httl.symm.trans ht)
  exact ⟨ttl, (hother 22 (by omega) (by omega)).symm.trans httl, hpos, ht'⟩

/-- It is 0 for a packet that came in with 1, and for no other. -/
theorem Accepted.spent_iff {sr : SrInstance} {a : Arrival} {incoming outgoing : FrameT}
    {hop : UInt32} (h : Accepted sr a incoming)
    (hupd : updateIpHdr sr incoming = .ok (outgoing, hop)) :
    ttlOf outgoing.frame = some 0 ↔ ttlOf a.packet = some 1 := by
  obtain ⟨ttl, httl, -, hout⟩ := h.outgoing_ttl hupd
  rw [httl, hout, Option.some.injEq, Option.some.injEq]
  constructor
  · intro hzero
    have hback := UInt8.sub_add_cancel ttl 1
    rw [hzero] at hback
    exact hback.symm
  · intro hone
    rw [hone]
    rfl

theorem encapsulate_ttl {f f' : FrameT} (h : encapsulate f = .ok f') :
    ttlOf f'.frame = ttlOf f.frame := by
  obtain ⟨-, frame, -, rfl, -, -, -, hother, -⟩ := encapsulate_eq h
  exact hother (etherSize + 8) (by decide) (by decide) (by decide)

/-- A released packet has the TTL it waited with. -/
theorem Released.ttl {dHa : Mac} {p : QueuedPacket} {s : Sent} (h : Released dHa p s) :
    ttlOf s.frame = ttlOf p.outgoing.frame := by
  obtain ⟨out, -, henc, hframe⟩ := h.encapsulated
  have hsame := encapsulate_ttl henc
  rw [hframe]
  exact hsame

theorem forall₂_mem_right {α β : Type} {R : α → β → Prop} {xs : List α} {ys : List β}
    (h : List.Forall₂ R xs ys) : ∀ y ∈ ys, ∃ x ∈ xs, R x y := by
  induction h with
  | nil => intro y hy; cases hy
  | cons hhead _ ih =>
    intro y hy
    rcases List.mem_cons.mp hy with rfl | hy
    · exact ⟨_, List.mem_cons_self, hhead⟩
    · obtain ⟨x, hx, hR⟩ := ih y hy
      exact ⟨x, List.mem_cons_of_mem _ hx, hR⟩

/-- Frames that forward nothing do not matter. -/
theorem NoSpentTtl.append {st : RouterState} (h : NoSpentTtl st) {new : List Sent}
    (hnew : ∀ s ∈ new, s.forwards.isSome → ttlOf s.frame ≠ some 0) {cache : List ArpcEntry}
    {queue : List ArpqEntry} {calls : Nat}
    (hqueue : ∀ entry ∈ queue, ∀ p ∈ entry.arpqPackets, ttlOf p.outgoing.frame ≠ some 0) :
    NoSpentTtl { cache := cache, queue := queue, wire := st.wire ++ new, calls := calls } := by
  refine ⟨?_, hqueue⟩
  intro s hs
  rcases List.mem_append.mp hs with hs | hs
  · exact h.wire s hs
  · exact hnew s hs

theorem forwards_none {s : Sent} (h : s.forwards = none) {P : Prop} :
    s.forwards.isSome → P := by
  intro hsome
  rw [h] at hsome
  cases hsome

/-- **A call keeps it up**, unless it forwards or queues a packet whose TTL is 1. -/
theorem NoSpentTtl.step {sr : SrInstance} {st st' : RouterState} {e : Event} (h : NoSpentTtl st)
    (hone : ∀ incoming, Accepted sr (e.arrival st.calls) incoming → ttlOf e.packet ≠ some 1)
    (hcall : srHandlepacket sr st e.packet e.interface e.now = .ok st') : NoSpentTtl st' := by
  rcases handlepacket_cases hcall with ⟨-, rfl⟩ | ⟨-, queue, flushed, hflush, hout⟩
  · exact ⟨h.wire, h.queue⟩
  · have hflushed := arpQueueFlush_spec hflush
    have hkept : ∀ entry ∈ queue, ∀ p ∈ entry.arpqPackets, ttlOf p.outgoing.frame ≠ some 0 := by
      intro entry hentry p hp
      obtain ⟨old, hold, hpackets⟩ := mem_of_cores hflushed.sublist hentry
      exact h.queue old hold p (by rw [hpackets]; exact hp)
    have hmid : NoSpentTtl (flushedState st e.now queue flushed) :=
      h.append (fun s hs => forwards_none (hflushed.forwards s hs)) hkept
    cases hout with
    | answered extra hip hnot hextra =>
      exact hmid.append (fun s hs => forwards_none (hextra s hs)) hkept
    | direct incoming outgoing sent hop incache iface hacc hupd hhit henc hiface =>
      refine hmid.append (fun s hs _ => ?_) hkept
      obtain rfl := List.mem_singleton.mp hs
      rw [encapsulate_ttl henc]
      exact fun hzero => hone incoming hacc ((hacc.spent_iff hupd).mp hzero)
    | queued incoming outgoing hop queue' request hacc hupd hmiss hreq henq =>
      refine hmid.append (fun s hs => ?_) ?_
      · rw [List.mem_singleton.mp hs]
        exact forwards_none hreq
      · intro entry hentry p hp
        rcases henq.mem entry hentry p hp with rfl | ⟨old, hold, hp⟩
        · exact fun hzero => hone incoming hacc ((hacc.spent_iff hupd).mp hzero)
        · exact hkept old hold p hp
    | refreshed info entry extra hinfo hhit hextra =>
      exact hmid.append (fun s hs => forwards_none (hextra s hs)) hkept
    | overheard info hinfo hmiss htarget => exact hmid
    | learned info target sent extra hinfo hmiss htarget hsent hextra =>
      have hrest : ∀ entry ∈ queue.eraseP fun x => x.arpqNextHop == info.sip,
          ∀ p ∈ entry.arpqPackets, ttlOf p.outgoing.frame ≠ some 0 :=
        fun entry hentry => hkept entry (List.mem_of_mem_eraseP hentry)
      -- what is released was in the entry that is cleared
      have hreleased : ∀ s ∈ sent, s.forwards.isSome → ttlOf s.frame ≠ some 0 := by
        intro s hs _
        obtain ⟨p, hp, hrel⟩ := forall₂_mem_right hsent s hs
        rw [hrel.ttl]
        cases hfind : arpqNextHopLookup queue info.sip with
        | none =>
          rw [hfind] at hp
          cases hp
        | some entry =>
          rw [hfind] at hp
          exact hkept entry (List.mem_of_find?_eq_some hfind) p hp
      have hwire : NoSpentTtl { flushedState st e.now queue flushed with
          wire := st.wire ++ flushed ++ sent } := hmid.append hreleased hkept
      exact hwire.append (fun s hs => forwards_none (hextra s hs)) hrest

/-! ## What is answered -/

theorem carriesIcmpError_of_holds {frame : Bytes} {hl : Nat} (h : HoldsIcmpError frame hl) :
    carriesIcmpError frame etherSize hl = .ok true := by
  obtain ⟨hicmp, icmpType, hcode, herr⟩ := h
  unfold carriesIcmpError
  rw [hicmp, getOr_some, ok_bind, if_pos rfl, hcode, getOr_some, ok_bind, herr]

/-- The test returns if the type can be read. -/
theorem carriesIcmpError_returns {frame : Bytes} {hl : Nat} (hproto : etherSize + 9 < frame.length)
    (htype : etherSize + hl < frame.length) :
    ∃ stuck, carriesIcmpError frame etherSize hl = .ok stuck := by
  obtain ⟨proto, hproto⟩ := getElem?_of_lt hproto
  obtain ⟨icmpType, htype⟩ := getElem?_of_lt htype
  unfold carriesIcmpError
  rw [hproto, getOr_some, ok_bind, htype, getOr_some, ok_bind]
  split
  · exact ⟨_, rfl⟩
  · exact ⟨_, rfl⟩

theorem carriesIcmpError_fault {frame : Bytes} {ip hl : Nat} {fault : Fault}
    (h : carriesIcmpError frame ip hl = .error fault) : fault = .bounds := by
  unfold carriesIcmpError at h
  cases hproto : frame[ip + 9]? with
  | none =>
    rw [hproto] at h
    exact (Except.error.inj h).symm
  | some proto =>
    rw [hproto, getOr_some, ok_bind] at h
    by_cases hicmp : proto = ipProtoICMP
    · rw [if_pos hicmp] at h
      cases htype : frame[ip + hl]? with
      | none =>
        rw [htype] at h
        exact (Except.error.inj h).symm
      | some icmpType =>
        rw [htype, getOr_some, ok_bind] at h
        cases h
    · rw [if_neg hicmp] at h
      cases h

/-- What the test of the type finds out. -/
theorem holds_iff_of_carries {frame : Bytes} {hl : Nat} {stuck : Bool}
    (h : carriesIcmpError frame etherSize hl = .ok stuck) :
    stuck = true ↔ HoldsIcmpError frame hl := by
  simp only [carriesIcmpError, bind_ok, getOr_ok] at h
  obtain ⟨proto, hproto, h⟩ := h
  unfold HoldsIcmpError
  rw [hproto]
  by_cases hicmp : proto = ipProtoICMP
  · rw [if_pos hicmp] at h
    simp only [bind_ok, getOr_ok, Except.ok.injEq] at h
    obtain ⟨icmpType, hcode, rfl⟩ := h
    rw [hcode, hicmp]
    simp only [true_and, Option.some.injEq, exists_eq_left']
  · rw [if_neg hicmp] at h
    obtain rfl := Except.ok.inj h
    simp only [Bool.false_eq_true, Option.some.injEq, hicmp, false_and]

/-- Two bytes decide it. -/
theorem holdsIcmpError_congr {frame packet : Bytes} {hl : Nat}
    (hproto : frame[etherSize + 9]? = packet[etherSize + 9]?)
    (htype : frame[etherSize + hl]? = packet[etherSize + hl]?) :
    HoldsIcmpError frame hl ↔ HoldsIcmpError packet hl := by
  unfold HoldsIcmpError
  rw [hproto, htype]

/-- The test of the type, on the bytes that came in. -/
theorem ParsedIp.carries {sr : SrInstance} {packet : Bytes} {ifName : IfName} {hl total : Nat}
    {f : FrameT} (h : ParsedIp sr packet ifName hl total f) :
    (HoldsIcmpError packet hl → carriesIcmpError f.frame etherSize f.ipHl = .ok true) ∧
      ∀ stuck, carriesIcmpError f.frame etherSize f.ipHl = .ok stuck →
        (stuck = true ↔ HoldsIcmpError packet hl) := by
  have hmin := h.wellFormed.ipHl
  rw [h.ipHl] at hmin ⊢
  have hsame : HoldsIcmpError f.frame hl ↔ HoldsIcmpError packet hl := by
    refine holdsIcmpError_congr (h.same _ (by decide) (by decide)) ?_
    unfold etherSize ipHdrLen at *
    exact h.same _ (by omega) (by omega)
  exact ⟨fun hholds => carriesIcmpError_of_holds (hsame.mpr hholds),
    fun _ hstuck => (holds_iff_of_carries hstuck).trans hsame⟩

/-- The message is no shorter than an Ethernet header. -/
theorem TimeExceededTo.long {packet : Bytes} {sent : Sent} (h : TimeExceededTo packet sent) :
    etherSize ≤ sent.frame.length := by
  obtain ⟨hlt, -⟩ := List.getElem?_eq_some_iff.mp h.ip.2.1
  exact hlt.le

/-- The answer to a packet whose TTL is used up: none to an ICMP error. -/
theorem ParsedIp.ttlReply_error {sr : SrInstance} {packet : Bytes} {ifName : IfName}
    {hl total : Nat} {f : FrameT} (h : ParsedIp sr packet ifName hl total f)
    (herr : HoldsIcmpError packet hl) : ttlReply sr f = .ok none := by
  unfold ttlReply
  rw [h.carries.1 herr, ok_bind, if_pos rfl]

/-- To another packet without options, the message that its time was exceeded. -/
theorem ParsedIp.ttlReply_plain {sr : SrInstance} {packet : Bytes} {ifName : IfName}
    {hl total : Nat} {f : FrameT} (h : ParsedIp sr packet ifName hl total f)
    (hnot : ¬ HoldsIcmpError packet hl) (hplain : hl = ipHdrLen)
    (hlong : etherHdrLen ≤ packet.length) {iface : SrIf}
    (hiface : getInterface sr ifName = some iface) :
    ∃ out, ttlReply sr f = .ok (some out) ∧ out.iface = some iface ∧
      readMac out.frame 6 = readMac packet 0 ∧
      TimeExceededTo packet { frame := out.frame, iface := iface, forwards := none } := by
  have hipHl := h.ipHl.trans hplain
  have hlen := h.length
  unfold etherHdrLen at hlong
  obtain ⟨dhost, hto⟩ := Option.isSome_iff_exists.mp h.wellFormed.dhost
  -- the type can be read: the frame is long enough
  have hcarries : carriesIcmpError f.frame etherSize f.ipHl = .ok false := by
    obtain ⟨stuck, hstuck⟩ := carriesIcmpError_returns
      (show etherSize + 9 < f.frame.length by unfold etherSize; omega)
      (show etherSize + f.ipHl < f.frame.length by rw [hipHl]; unfold etherSize ipHdrLen; omega)
    cases stuck with
    | true => exact absurd ((h.carries.2 true hstuck).mp rfl) hnot
    | false => exact hstuck
  have hreply : ttlReply sr f = generateIcmpError sr f timeExceeded timeIntransit >>= fun out =>
      .ok (some out) := by
    unfold ttlReply
    rw [hcarries, ok_bind, if_neg (by decide)]
  rw [generateIcmpError_of h.wellFormed hipHl hto, ok_bind] at hreply
  have hown := ownFrame_of f.fromMAC dhost (ipHdrLen + icmpHdrLen + (quoted f total).length)
    f.toIp f.fromIp (icmpFilled timeExceeded timeIntransit ([0, 0, 0, 0] ++ quoted f total))
  exact ⟨_, hreply, h.iface.trans hiface, hown.macs.2.trans (h.dhost.trans hto).symm,
    { own := rfl
      toMAC := hown.macs.1.trans h.shost.symm
      toIp := hown.ips.2.trans h.fromIp.symm
      ip := ⟨hown.etherType, hown.header⟩
      icmp := icmpErrorBytes_icmp }⟩

/-- A packet that is not an ICMP error has to have no options to be answered. -/
theorem ParsedIp.plain_of_ttlReply {sr : SrInstance} {packet : Bytes} {ifName : IfName}
    {hl total : Nat} {f : FrameT} (h : ParsedIp sr packet ifName hl total f)
    (hnot : ¬ HoldsIcmpError packet hl) {reply : Option FrameT}
    (hreply : ttlReply sr f = .ok reply) :
    hl = ipHdrLen ∧ ∃ out, reply = some out ∧ out.iface = getInterface sr ifName ∧
      readMac out.frame 6 = readMac packet 0 := by
  unfold ttlReply at hreply
  rw [bind_ok] at hreply
  obtain ⟨stuck, hstuck, hreply⟩ := hreply
  cases stuck with
  | true => exact absurd ((h.carries.2 true hstuck).mp rfl) hnot
  | false =>
    rw [if_neg (by decide), bind_ok] at hreply
    obtain ⟨out, hout, hreply⟩ := hreply
    obtain ⟨dhost, hto⟩ := Option.isSome_iff_exists.mp h.wellFormed.dhost
    have hplain : f.ipHl = ipHdrLen := by
      rcases Nat.lt_or_eq_of_le h.wellFormed.ipHl with hlt | heq
      · rw [generateIcmpError_options h.wellFormed hlt] at hout
        cases hout
      · exact heq.symm
    rw [generateIcmpError_of h.wellFormed hplain hto] at hout
    obtain rfl := Except.ok.inj hout
    have hown := ownFrame_of f.fromMAC dhost (ipHdrLen + icmpHdrLen + (quoted f total).length)
      f.toIp f.fromIp (icmpFilled timeExceeded timeIntransit ([0, 0, 0, 0] ++ quoted f total))
    exact ⟨h.ipHl.symm.trans hplain, _, (Except.ok.inj hreply).symm, h.iface,
      hown.macs.2.trans (h.dhost.trans hto).symm⟩

/-! ## A packet in transit -/

/-- The forwarding branch gets to see a packet whose TTL is not 0. -/
theorem Transit.accepted {sr : SrInstance} {a : Arrival} {hl total : Nat} {ttl : UInt8}
    (h : Transit sr a.packet hl total) (hlong : etherHdrLen ≤ a.packet.length)
    (httl : ttlOf a.packet = some ttl) (hpos : 0 < ttl) : ∃ incoming, Accepted sr a incoming := by
  obtain ⟨f, hpassed, hparsed⟩ := h.ip.passed h.verifies hlong sr a.interface
  obtain ⟨dst, hdst, hours⟩ := h.notOurs
  obtain rfl : dst = f.toIp := Option.some.inj (hdst.symm.trans hparsed.toIp)
  refine ⟨f, hlong, hpassed.created, hours, ttl, ?_, hpos⟩
  rw [← httl]
  exact hparsed.same _ (by decide) (by decide)

/-- One whose TTL is 0 is answered. -/
theorem Transit.expired {sr : SrInstance} {packet : Bytes} {hl total : Nat}
    (h : Transit sr packet hl total) (hlong : etherHdrLen ≤ packet.length)
    (httl : ttlOf packet = some 0) (st : RouterState) (ifName : IfName) (now : Nat) :
    ∃ f, ParsedIp sr packet ifName hl total f ∧
      srHandlepacket sr st packet ifName now =
        arpQueueFlush sr now st.queue >>= fun r => ttlReply sr f >>= fun reply =>
          sendDatagram (flushedState st now r.1 r.2) reply none := by
  obtain ⟨f, hpassed, hparsed⟩ := h.ip.passed h.verifies hlong sr ifName
  obtain ⟨dst, hdst, hours⟩ := h.notOurs
  obtain rfl : dst = f.toIp := Option.some.inj (hdst.symm.trans hparsed.toIp)
  have hzero : f.frame[etherSize + 8]? = some 0 :=
    (hparsed.same _ (by decide) (by decide)).trans httl
  refine ⟨f, hparsed, ?_⟩
  rw [hpassed.call]
  congr 1
  funext r
  unfold routeIp
  rw [hours, ok_bind]
  dsimp only
  rw [hzero, getOr_some, ok_bind, if_pos (by decide)]

theorem srHandlepacket_short {packet : Bytes} (h : packet.length < etherHdrLen) (sr : SrInstance)
    (st : RouterState) (ifName : IfName) (now : Nat) :
    srHandlepacket sr st packet ifName now = .ok { st with calls := st.calls + 1 } := by
  unfold srHandlepacket
  simp only
  rw [if_pos h]

theorem ttl_le_one {ttl : UInt8} (h : ttl ≤ 1) (hne : ttl ≠ 1) : ttl = 0 := by
  rw [UInt8.le_iff_toNat_le] at h
  rw [← UInt8.toNat_inj]
  have hne' : ttl.toNat ≠ 1 := fun heq => hne (UInt8.toNat_inj.mp heq)
  have hone : (1 : UInt8).toNat = 1 := rfl
  have hzero : (0 : UInt8).toNat = 0 := rfl
  omega

/-! ## A call, and a run -/

/-- What is true of a router that is up. -/
def TtlInv (sr : SrInstance) (st : Option RouterState) : Prop :=
  Reached sr st ∧ ∀ s, st = some s → NoSpentTtl s

theorem TtlRespected.inv {sr : SrInstance} {st : Option RouterState} {e : Event}
    (h : TtlRespected sr st e) (hinv : TtlInv sr st) : TtlInv sr (step sr st e) := by
  refine ⟨hinv.1.step e, fun s' hs' => ?_⟩
  obtain ⟨s, rfl, -⟩ := step_eq_some hs'
  exact (h s rfl).1 s' hs'

/-- The condition is enough for a call. -/
theorem TtlHandled.respected {sr : SrInstance} {st : Option RouterState} {e : Event}
    (h : TtlHandled sr st e) (hinv : TtlInv sr st) : TtlRespected sr st e := by
  intro s hs
  obtain ⟨hist, hhist⟩ := hinv.1 s hs
  have hspent := hinv.2 s hs
  obtain ⟨hone, hexpired⟩ := h s hs
  constructor
  · intro s' hs'
    obtain ⟨mid, hmid, hcall⟩ := step_eq_some hs'
    obtain rfl : s = mid := Option.some.inj (hs.symm.trans hmid)
    exact hspent.step hone hcall
  · intro hl total ttl htransit httl hle
    obtain ⟨hshort, hlong⟩ := hexpired hl total ttl htransit httl hle
    rcases Nat.lt_or_ge e.packet.length etherHdrLen with hlen | hlen
    · have hcall := srHandlepacket_short hlen sr s e.interface e.now
      exact ⟨fun _ => ⟨_, _, _, hcall, Or.inl ⟨hlen, rfl, rfl⟩, rfl, by simp⟩,
        fun hnot => absurd (hshort hlen) hnot⟩
    · obtain ⟨hflush, hanswer⟩ := hlong hlen
      -- with 1 it would be forwarded
      have hzero : ttl = 0 := by
        refine ttl_le_one hle fun htwo => ?_
        rw [htwo] at httl
        obtain ⟨incoming, hacc⟩ := Transit.accepted (a := e.arrival s.calls) htransit hlen httl
          (by decide)
        exact hone incoming hacc httl
      rw [hzero] at httl
      obtain ⟨f, hparsed, hcall⟩ := htransit.expired hlen httl s e.interface e.now
      obtain ⟨⟨queue, flushed⟩, hq⟩ := (hhist.flush_returns_iff e.now).mpr hflush
      rw [hq, ok_bind] at hcall
      constructor
      · intro herr
        rw [hparsed.ttlReply_error herr, ok_bind] at hcall
        exact ⟨_, queue, flushed, hcall, Or.inr hq, rfl, by simp [flushedState]⟩
      · intro hnot
        rcases hanswer with herr | ⟨hplain, hto⟩
        · exact absurd herr hnot
        · obtain ⟨iface, hiface, -⟩ := id hto
          obtain ⟨out, hreply, hout, hsrc, hexceeded⟩ :=
            hparsed.ttlReply_plain hnot hplain hlen hiface
          rw [hreply, ok_bind, sendDatagram_of hout] at hcall
          have hgoes := (goesOut_reply_iff hiface rfl hexceeded.long hsrc).mpr hto
          exact ⟨_, hexceeded, hgoes, _, queue, flushed, hcall, Or.inr hq, rfl, rfl⟩

/-- An accepted packet whose TTL is 1 leaves a 0 behind, on the wire or in the
queue. -/
theorem Accepted.spends {sr : SrInstance} {st st' : RouterState} {e : Event} {incoming : FrameT}
    (hacc : Accepted sr (e.arrival st.calls) incoming) (hone : ttlOf e.packet = some 1)
    (hcall : srHandlepacket sr st e.packet e.interface e.now = .ok st') : ¬ NoSpentTtl st' := by
  intro hspent
  have hip : arpInfo (e.arrival st.calls).packet = none := arpInfo_of_ip hacc.spec.1
  rcases handlepacket_cases hcall with ⟨hshort, -⟩ | ⟨-, queue, flushed, -, hout⟩
  · exact absurd hacc.long (Nat.not_le.mpr hshort)
  · cases hout with
    | answered extra _ hnot hextra => exact hnot incoming hacc
    | direct f outgoing sent hop incache iface hacc' hupd hhit henc hiface =>
      refine hspent.wire _ (List.mem_append_right _ (List.mem_singleton_self _)) rfl ?_
      rw [encapsulate_ttl henc]
      exact (hacc'.spent_iff hupd).mpr hone
    | queued f outgoing hop queue' request hacc' hupd hmiss hreq henq =>
      obtain ⟨entry, hentry, hp⟩ := henq.joins
      exact hspent.queue entry hentry _ hp ((hacc'.spent_iff hupd).mpr hone)
    | refreshed info entry extra hinfo hhit hextra =>
      rw [hip] at hinfo
      cases hinfo
    | overheard info hinfo hmiss htarget =>
      rw [hip] at hinfo
      cases hinfo
    | learned info target sent extra hinfo hmiss htarget hsent hextra =>
      rw [hip] at hinfo
      cases hinfo

/-- And needed, for a call that returns. -/
theorem TtlRespected.handled {sr : SrInstance} {st : Option RouterState} {e : Event}
    (h : TtlRespected sr st e) (hup : (step sr st e).isSome) (hinv : TtlInv sr st) :
    TtlHandled sr st e := by
  intro s hs
  obtain ⟨hist, hhist⟩ := hinv.1 s hs
  obtain ⟨s', hs'⟩ := Option.isSome_iff_exists.mp hup
  obtain ⟨mid, hmid, hcall⟩ := step_eq_some hs'
  obtain rfl : s = mid := Option.some.inj (hs.symm.trans hmid)
  obtain ⟨hspent, hexpired⟩ := h s hs
  have hone : ∀ incoming, Accepted sr (e.arrival s.calls) incoming → ttlOf e.packet ≠ some 1 :=
    fun incoming hacc hone => hacc.spends hone hcall (hspent s' hs')
  refine ⟨hone, fun hl total ttl htransit httl hle => ⟨fun hshort => ?_, fun hlong => ?_⟩⟩
  · by_contra hnot
    -- nothing is sent about a short frame
    obtain ⟨sent, -, -, st', queue, flushed, hcall', -, -, hwire⟩ :=
      (hexpired hl total ttl htransit httl hle).2 hnot
    rw [srHandlepacket_short hshort] at hcall'
    obtain rfl := Except.ok.inj hcall'
    have hlen := congrArg List.length hwire
    simp only [List.length_append, List.length_singleton] at hlen
    omega
  · have hzero : ttl = 0 := by
      refine ttl_le_one hle fun htwo => ?_
      rw [htwo] at httl
      obtain ⟨incoming, hacc⟩ := Transit.accepted (a := e.arrival s.calls) htransit hlong httl
        (by decide)
      exact hone incoming hacc httl
    rw [hzero] at httl
    obtain ⟨f, hparsed, hcall'⟩ := htransit.expired hlong httl s e.interface e.now
    have hreturned := hcall
    rw [hcall', bind_ok] at hcall
    obtain ⟨⟨queue, flushed⟩, hq, hcall⟩ := hcall
    rw [bind_ok] at hcall
    obtain ⟨reply, hreply, hcall⟩ := hcall
    refine ⟨(hhist.flush_returns_iff e.now).mp ⟨_, hq⟩, ?_⟩
    by_cases herr : HoldsIcmpError e.packet hl
    · exact Or.inl herr
    · obtain ⟨hplain, out, rfl, hiface, hsrc⟩ := hparsed.plain_of_ttlReply herr hreply
      rcases sendDatagram_eq hcall with ⟨hnone, -⟩ | ⟨out', sent, hout, hsend, rfl⟩
      · cases hnone
      · obtain rfl := Option.some.inj hout
        obtain ⟨hfrom, hframe, -⟩ := sendPacket_eq hsend
        rw [hfrom] at hiface
        -- what was sent is the answer, and `sr_send_packet` has taken it
        obtain ⟨answer, hexceeded, hgoes, st', queue', flushed', hret, hflush', -, hwire⟩ :=
          (hexpired hl total 0 htransit httl (by decide)).2 herr
        obtain rfl := Except.ok.inj (hreturned.symm.trans hret)
        rcases hflush' with ⟨hshort, -⟩ | hflush'
        · exact absurd hshort (Nat.not_lt.mpr hlong)
        · obtain ⟨-, rfl⟩ := Prod.mk.inj (Except.ok.inj (hq.symm.trans hflush'))
          obtain rfl : sent = answer := (List.cons.inj (List.append_cancel_left hwire)).1
          rw [← hframe] at hsrc
          exact Or.inr ⟨hplain, (goesOut_reply_iff hiface.symm rfl hexceeded.long hsrc).mp hgoes⟩

theorem ttlInv_init (sr : SrInstance) : TtlInv sr (some (srInit sr)) := by
  refine ⟨reached_init sr, fun s hs => ?_⟩
  obtain rfl := Option.some.inj hs
  refine ⟨?_, ?_⟩
  · intro x hx
    cases hx
  · intro entry hentry p hp
    rw [List.mem_singleton.mp hentry] at hp
    cases hp

/-- **The TTL is respected in every run whose calls meet the condition, and in no
other run that returns.** -/
theorem ttl_run (sr : SrInstance) (evs : List Event) :
    (Along (step sr) (TtlHandled sr) (some (srInit sr)) evs →
      Along (step sr) (TtlRespected sr) (some (srInit sr)) evs) ∧
    ((run (step sr) (some (srInit sr)) evs).isSome →
      Along (step sr) (TtlRespected sr) (some (srInit sr)) evs →
      Along (step sr) (TtlHandled sr) (some (srInit sr)) evs) := by
  constructor
  · exact fun h => along_of_invariant (TtlInv sr)
      (fun st e hok hinv => (hok.respected hinv).inv hinv) (fun st e hok hinv => hok.respected hinv)
      h (ttlInv_init sr)
  · intro hup h
    exact along_of_invariant (TtlInv sr) (fun st e hok hinv => hok.1.inv hinv)
      (fun st e hok hinv => hok.1.handled hok.2 hinv) (along_and.mpr ⟨h, along_up hup⟩)
      (ttlInv_init sr)

/-- A UDP datagram from `10.0.1.9` to `10.0.2.5` with a TTL of 1. -/
def lastHopDatagram : Bytes :=
  [2, 0, 0, 0, 0, 1, 2, 0, 0, 0, 0, 9, 8, 0, 69, 0, 0, 28, 0, 0, 0, 0, 1, 17, 162, 196,
    10, 0, 1, 9, 10, 0, 2, 5, 1, 2, 3, 4, 5, 6, 7, 8]

/-- It is queued for the gateway with a TTL of 0. -/
theorem lastHop_queued :
    ¬ Along (step gatewayRouter) (TtlRespected gatewayRouter) (some (srInit gatewayRouter))
      [{ packet := lastHopDatagram, interface := [0x65], now := 100 }] := by
  intro h
  have hqueued : (step gatewayRouter (some (srInit gatewayRouter))
      { packet := lastHopDatagram, interface := [0x65], now := 100 }).any (fun s =>
        s.queue.any fun entry => entry.arpqPackets.any fun p =>
          ttlOf p.outgoing.frame == some 0) = true := by
    decide +kernel
  obtain ⟨s', hs', hany⟩ := (Option.any_eq_true _ _).mp hqueued
  obtain ⟨entry, hentry, hany⟩ := List.any_eq_true.mp hany
  obtain ⟨p, hp, hzero⟩ := List.any_eq_true.mp hany
  exact ((h.1 _ rfl).1 s' hs').queue entry hentry p hp (beq_iff_eq.mp hzero)

end UchiNetworks.Router
