import UchiNetworks.Router.Invariant

/-!
# Forwarding: directly and through the queue

A packet is sent at once when its next hop is in the cache, and otherwise copied
into the queue and sent by `arpq_entry_clear` when the next hop answers.
`Faithful` says what either way has to hand to `sr_send_packet`; `directFrame`
is the frame of the first way, so that both ways give the same bytes. The one
packet that does not get there is in `forwardsFaithfully_iff`: `sr_init` leaves a
placeholder for `0.0.0.0` in the cache, and a route through `0.0.0.0` finds it.
-/

namespace UchiNetworks.Router

open UchiNetworks.Lib

/-- The packet of `a` is one to forward, by the route `rt` on `iface`. -/
structure Forwardable (sr : SrInstance) (a : Arrival) (rt : SrRt) (iface : SrIf) : Prop where
  long : etherHdrLen ≤ a.packet.length
  etherType : readBe16 a.packet 12 = some etherTypeIP
  version : ∃ vhl, a.packet[etherSize]? = some vhl ∧ vhl >>> 4 = 4
  verifies : Verifies a.packet
  ttl : ∃ ttl, a.packet[etherSize + 8]? = some ttl ∧ 0 < ttl
  route : ∃ dst, readU32 a.packet (etherSize + 16) = some dst ∧ ifDstCheck sr dst = .ok none ∧
    rtMatch sr dst = some rt
  interface : getInterface sr rt.interface = some iface

/-- The frame of the direct path, for a next hop with the address `mac`. -/
def directFrame (sr : SrInstance) (a : Arrival) (mac : Mac) : Res (Option Bytes) := do
  match ← createFrameT sr a.packet a.interface with
  | none => .ok none
  | some created =>
    match ← checkIp created with
    | none => .ok none
    | some incoming =>
      let (outgoing, _) ← updateIpHdr sr incoming
      let sent ← encapsulate { outgoing with toMAC := some mac }
      .ok (some sent.frame)

/-- `s` forwards the packet of `a` as it should: on the interface of the route,
to the address its next hop announced last, with the bytes that came in except
for the hardware addresses, the TTL and the checksum. -/
structure Faithful (sr : SrInstance) (hist : List Event) (a : Arrival) (s : Sent) : Prop where
  arrived : Arrived hist a
  forwarded : ∃ rt mac, Forwardable sr a rt s.iface ∧ heard hist rt.gw = some mac ∧
    Forwarded s.iface.addr mac a.packet s.frame ∧ directFrame sr a mac = .ok (some s.frame)

/-- What a call that takes `st` to `st'` must have done about forwarding. -/
structure ForwardsFaithfully (sr : SrInstance) (hist : List Event) (e : Event)
    (st st' : RouterState) : Prop where
  /-- what was handed to `sr_send_packet`, in order -/
  sent : ∃ new, st'.wire = st.wire ++ new ∧
    (∀ s ∈ new, ∀ a, s.forwards = some a → Faithful sr (hist ++ [e]) a s) ∧
    ((forwardedBy new).map Arrival.number).Pairwise (· < ·) ∧
    ∀ queue flushed, arpQueueFlush sr e.now st.queue = .ok (queue, flushed) →
      -- either nothing, or this packet, or one whole entry
      (forwardedBy new = [] ∨ forwardedBy new = [e.arrival hist.length] ∨
        ∃ entry ∈ queue, forwardedBy new = entry.arpqPackets.map QueuedPacket.arrival) ∧
      -- and nothing that waited is lost
      ∀ a ∈ waitingIn (queue.map ArpqEntry.core), a ∈ forwardedBy new ∨ a ∈ waitingIn st'.cores
  /-- no packet is sent twice, nor sent and still waiting -/
  once : (forwardedBy st'.wire ++ waitingIn st'.cores).Nodup
  /-- a packet to forward is sent or waits -/
  taken : ∀ rt iface, Forwardable sr (e.arrival hist.length) rt iface →
    e.arrival hist.length ∈ forwardedBy st'.wire ++ waitingIn st'.cores

/-- A packet whose next hop is `0.0.0.0` comes only after an ARP packet from
`0.0.0.0`. -/
def NextHopHeard (sr : SrInstance) (hist : List Event) (e : Event) : Prop :=
  ∀ rt iface, Forwardable sr (e.arrival hist.length) rt iface → rt.gw = 0 → (heard hist 0).isSome

/-! ## Which packets are forwarded -/

theorem checkIp_version {f f' : FrameT} (h : checkIp f = .ok (some f')) :
    ∃ vhl, f.frame[etherSize]? = some vhl ∧ vhl >>> 4 = 4 := by
  simp only [checkIp, bind_ok, getOr_ok] at h
  obtain ⟨vhl, hvhl, h⟩ := h
  by_cases hversion : vhl >>> 4 = 4
  · exact ⟨vhl, hvhl, hversion⟩
  · rw [if_pos hversion] at h
    cases h

theorem Accepted.forwardable {sr : SrInstance} {a : Arrival} {incoming outgoing : FrameT}
    {hop : UInt32} (h : Accepted sr a incoming)
    (hupd : updateIpHdr sr incoming = .ok (outgoing, hop)) :
    ∃ rt iface, Forwardable sr a rt iface ∧ rt.gw = hop ∧ outgoing.iface = some iface ∧
      outgoing.fromMAC = iface.addr := by
  obtain ⟨htype, -, -, hother, hv, hv', hdst, -⟩ := h.spec
  obtain ⟨hout, -⟩ := updateIpHdr_spec hupd hv'
  obtain ⟨rt, iface, hrt, hgw, hiface, hifc, hmac⟩ := hout.route
  obtain ⟨ttl, httl, hpos⟩ := h.ttl
  obtain ⟨created, hcreated, -, hcheck⟩ := h.created
  have hversion := checkIp_version hcheck
  have hframe : created.frame = a.packet := by
    cases createFrameT_spec hcreated with
    | ip hframe htype hip hiface hdst => exact hframe
    | arp hframe htype hip hiface => exact hframe
  rw [hframe] at hversion
  rw [hother _ (by decide) (by decide)] at httl
  exact ⟨rt, iface,
    { long := h.long, etherType := htype, version := hversion, verifies := hv,
      ttl := ⟨ttl, httl, hpos⟩, route := ⟨incoming.toIp, hdst, h.notOurs, hrt⟩,
      interface := hiface }, hgw, hifc, hmac⟩

theorem Forwardable.unique {sr : SrInstance} {a : Arrival} {rt rt' : SrRt} {iface iface' : SrIf}
    (h : Forwardable sr a rt iface) (h' : Forwardable sr a rt' iface') : rt = rt' := by
  obtain ⟨dst, hdst, -, hrt⟩ := h.route
  obtain ⟨dst', hdst', -, hrt'⟩ := h'.route
  obtain rfl : dst = dst' := Option.some.inj (hdst.symm.trans hdst')
  exact Option.some.inj (hrt.symm.trans hrt')

/-- A long frame of a known protocol makes a `frame_t`. -/
theorem createFrameT_ip {sr : SrInstance} {packet : Bytes} {ifName : IfName}
    (hlong : etherHdrLen ≤ packet.length) (htype : readBe16 packet 12 = some etherTypeIP) :
    ∃ created, createFrameT sr packet ifName = .ok (some created) := by
  obtain ⟨created, hcreated⟩ := createFrameT_returns hlong sr ifName
  cases created with
  | none => exact absurd htype (createFrameT_none hcreated).1
  | some f => exact ⟨f, hcreated⟩

/-- A header whose first byte and extent lie in the frame has a sum. -/
theorem ipHeaderSum_of_same {f g : Bytes} {ip sum : Nat} {vhl : UInt8} (hf : f[ip]? = some vhl)
    (hsum : ipHeaderSum f ip = some sum) (hg : g[ip]? = some vhl) (hlen : g.length = f.length) :
    ∃ sum', ipHeaderSum g ip = some sum' := by
  obtain ⟨vhl', header, hvhl', hheader, -⟩ := ipHeaderSum_eq hsum
  obtain rfl : vhl = vhl' := Option.some.inj (hf.symm.trans hvhl')
  have hle := (Buffer.read_eq hheader).1
  simp only [ipHeaderSum, hg, Option.bind_eq_bind, Option.bind_some]
  rw [Buffer.read_of_le (by omega)]
  exact ⟨_, rfl⟩

theorem checkIp_of_verifies {f : FrameT} (hip : f.ipHeader = some etherSize)
    (hlong : etherHdrLen ≤ f.frame.length) (hv : Verifies f.frame) {vhl : UInt8}
    (hvhl : f.frame[etherSize]? = some vhl) (hversion : vhl >>> 4 = 4) :
    ∃ f', checkIp f = .ok (some f') := by
  obtain ⟨g, hg, hwrite⟩ := computeIpChecksum_of_sum hip hv hlong
  have hlen := Buffer.write_length hwrite
  have hvhl' : g[etherSize]? = some vhl := by
    rw [Buffer.write_outside hwrite (by simp [etherSize]), hvhl]
  obtain ⟨sum', hsum'⟩ := ipHeaderSum_of_same hvhl hv hvhl' hlen
  obtain ⟨g', hg', -⟩ := computeIpChecksum_of_sum (f := { f with frame := g }) hip hsum'
    (by simp only [hlen]; exact hlong)
  have hfield := Buffer.read_write_same hwrite
  simp only [checkIp, hvhl, getOr_some, ok_bind, hversion, ne_eq, not_true_eq_false, if_false, hg]
  rw [le16_length] at hfield
  rw [hfield]
  simp only [getOr_some, ok_bind, hg']
  exact ⟨_, rfl⟩

theorem updateIpHdr_of_route {sr : SrInstance} {incoming : FrameT} {rt : SrRt} {iface : SrIf}
    (hrt : rtMatch sr incoming.toIp = some rt)
    (hiface : getInterface sr rt.interface = some iface) (hv : Verifies incoming.frame)
    (hlong : etherHdrLen ≤ incoming.frame.length) :
    ∃ outgoing, updateIpHdr sr incoming = .ok (outgoing, rt.gw) := by
  have h42 : 42 ≤ incoming.frame.length := hlong
  have h14 : etherSize = 14 := rfl
  obtain ⟨g1, hg1⟩ := @Buffer.write_of_le _ incoming.frame [0, 0] (etherSize + 10)
    (by simp [etherSize]; omega)
  have hlen1 := Buffer.write_length hg1
  obtain ⟨ttl, httl⟩ := getElem?_of_lt (show etherSize + 8 < g1.length by omega)
  obtain ⟨g2, hg2⟩ := @Buffer.write_of_le _ g1 [ttl - 1] (etherSize + 8)
    (by simp [etherSize]; omega)
  have hlen2 := Buffer.write_length hg2
  obtain ⟨g3, hg3⟩ := @Buffer.write_of_le _ g2 [0, 0] (etherSize + 10)
    (by simp [etherSize]; omega)
  have hlen3 := Buffer.write_length hg3
  obtain ⟨vhl, header, hvhl, -, -⟩ := ipHeaderSum_eq hv
  have hvhl3 : g3[etherSize]? = some vhl := by
    rw [Buffer.write_outside hg3 (by omega), Buffer.write_outside hg2 (by omega),
      Buffer.write_outside hg1 (by omega), hvhl]
  obtain ⟨sum, hsum⟩ := ipHeaderSum_of_same hvhl hv hvhl3 (by omega)
  simp only [updateIpHdr, hrt, hiface, getOr_some, ok_bind, hg1, httl, hg2, hg3]
  obtain ⟨g4, hg4, -⟩ := computeIpChecksum_of_sum
    (f := { frame := g3, ipHeader := some etherSize, arpHeader := none, icmpHeader := none,
            fromMAC := iface.addr, toMAC := none, fromIp := incoming.fromIp,
            toIp := incoming.toIp, iface := some iface, ipHl := incoming.ipHl, ipLen := none })
    rfl hsum (by simp only [hlen3, hlen2, hlen1]; exact hlong)
  rw [hg4]
  exact ⟨_, rfl⟩

theorem Forwardable.accepted {sr : SrInstance} {a : Arrival} {rt : SrRt} {iface : SrIf}
    (h : Forwardable sr a rt iface) :
    ∃ incoming outgoing, Accepted sr a incoming ∧
      updateIpHdr sr incoming = .ok (outgoing, rt.gw) := by
  obtain ⟨created, hcreated⟩ := @createFrameT_ip sr _ a.interface h.long
    h.etherType
  obtain ⟨vhl, hvhl, hversion⟩ := h.version
  obtain ⟨dst, hdst, hnot, hrt⟩ := h.route
  obtain ⟨ttl, httl, hpos⟩ := h.ttl
  cases createFrameT_spec hcreated with
  | arp hframe htype hip hiface =>
    rw [h.etherType] at htype
    exact absurd (Option.some.inj htype) (by decide)
  | ip hframe htype hip hiface hdst' =>
    obtain rfl : dst = created.toIp := Option.some.inj (hdst.symm.trans hdst')
    obtain ⟨incoming, hcheck⟩ := checkIp_of_verifies hip (by rw [hframe]; exact h.long)
      (by rw [hframe]; exact h.verifies) (by rw [hframe]; exact hvhl) hversion
    obtain ⟨frame, rfl, hlen, hother, -, hv, -⟩ := checkIp_spec hip hcheck
    rw [hframe] at hlen hother
    have hacc : Accepted sr a { created with frame := frame } :=
      { long := h.long
        created := ⟨created, hcreated, by simp [hip], hcheck⟩
        notOurs := hnot
        ttl := ⟨ttl, by rw [← httl]; exact hother _ (by decide) (by decide), hpos⟩ }
    obtain ⟨outgoing, hupd⟩ := @updateIpHdr_of_route sr
      { created with frame := frame } _ _ hrt h.interface hv
      (by simp only [hlen]; exact h.long)
    exact ⟨_, outgoing, hacc, hupd⟩

/-! ## What is sent for one -/

/-- The two ways write the same frame. -/
theorem frame_of_encapsulate {sr : SrInstance} {a : Arrival} {incoming outgoing sent : FrameT}
    {hop : UInt32} {iface : SrIf} {mac : Mac} (hacc : Accepted sr a incoming)
    (hupd : updateIpHdr sr incoming = .ok (outgoing, hop)) (hiface : outgoing.iface = some iface)
    (henc : encapsulate { outgoing with fromMAC := iface.addr, toMAC := some mac } = .ok sent) :
    ∃ rt, Forwardable sr a rt iface ∧ rt.gw = hop ∧
      Forwarded iface.addr mac a.packet sent.frame ∧
      directFrame sr a mac = .ok (some sent.frame) := by
  obtain ⟨htype, hip, hlen, hother, -, hv, -⟩ := hacc.spec
  obtain ⟨hout, httl⟩ := updateIpHdr_spec hupd hv
  obtain ⟨rt, iface', hfwd, hgw, hiface', hmac⟩ := hacc.forwardable hupd
  obtain rfl : iface' = iface := Option.some.inj (hiface'.symm.trans hiface)
  have htype' : readBe16 incoming.frame 12 = some etherTypeIP := by
    simp only [readBe16, hother 12 (by decide) (by decide), hother 13 (by decide) (by decide)]
    exact htype
  have hf := forwarded_of_update htype' httl hout.ipHeader henc
  refine ⟨rt, hfwd, hgw, ?_, ?_⟩
  · obtain ⟨t, ht, ht'⟩ := hf.ttl
    exact
      { length := hf.length.trans hlen
        other := fun i h12 h22 h24 h25 => by
          rw [hf.other i h12 h22 h24 h25, hother i h24 h25]
        dhost := hf.dhost
        shost := hf.shost
        ttl := ⟨t, by rw [← ht, hother 22 (by decide) (by decide)], ht'⟩
        verifies := hf.verifies }
  · obtain ⟨created, hcreated, -, hcheck⟩ := hacc.created
    rw [← hmac] at henc
    have henc : encapsulate { outgoing with toMAC := some mac } = .ok sent := henc
    simp only [directFrame, hcreated, hcheck, hupd, henc, ok_bind]

theorem faithful_released {sr : SrInstance} {hist : List Event} {e : Event} {ip : UInt32}
    {info : ArpInfo} (hinfo : arpInfo e.packet = some info) {p : QueuedPacket} {s : Sent}
    (hwait : Waits sr hist ip info.sip p) (hrel : Released info.sha p s) :
    Faithful sr (hist ++ [e]) p.arrival s := by
  obtain ⟨incoming, hacc, hupd, -⟩ := hwait.accepted
  obtain ⟨sent, hiface, henc, hframe⟩ := hrel.encapsulated
  obtain ⟨rt, hfwd, hgw, hf, hdirect⟩ := frame_of_encapsulate hacc hupd hiface henc
  refine ⟨hwait.arrived.append e, rt, info.sha, hfwd, ?_, ?_, ?_⟩
  · rw [heard_append_arp hinfo, hgw, if_pos rfl]
  · rw [hframe]
    exact hf
  · rw [hframe]
    exact hdirect

theorem released_faithful {sr : SrInstance} {hist : List Event} {e : Event} {ip : UInt32}
    {info : ArpInfo} (hinfo : arpInfo e.packet = some info) {packets : List QueuedPacket}
    {sent : List Sent} (hwaits : ∀ p ∈ packets, Waits sr hist ip info.sip p)
    (hsent : List.Forall₂ (Released info.sha) packets sent) :
    ∀ s ∈ sent, ∀ a, s.forwards = some a → Faithful sr (hist ++ [e]) a s := by
  induction hsent with
  | nil => simp
  | @cons p s packets sent hrel _ ih =>
    intro s' hs' a ha
    rcases List.mem_cons.mp hs' with rfl | hs'
    · rw [hrel.forwards] at ha
      obtain rfl := Option.some.inj ha
      exact faithful_released hinfo (hwaits p List.mem_cons_self) hrel
    · exact ih (fun q hq => hwaits q (List.mem_cons_of_mem _ hq)) s' hs' a ha

/-- Sends that forward nothing. -/
theorem forwards_nothing {sr : SrInstance} {hist : List Event} {new : List Sent}
    (h : ∀ s ∈ new, s.forwards = none) :
    (∀ s ∈ new, ∀ a, s.forwards = some a → Faithful sr hist a s) ∧ forwardedBy new = [] := by
  refine ⟨fun s hs a ha => ?_, forwardedBy_own h⟩
  rw [h s hs] at ha
  cases ha

/-- The entry that is released, with its packets in order. -/
theorem lookup_released {sr : SrInstance} {hist : List Event} {queue : List ArpqEntry}
    (hq : QueueInv sr hist (queue.map ArpqEntry.core)) (hop : UInt32) :
    (∃ ip, ∀ p ∈ (arpqNextHopLookup queue hop).elim [] ArpqEntry.arpqPackets,
        Waits sr hist ip hop p) ∧
      ((((arpqNextHopLookup queue hop).elim [] ArpqEntry.arpqPackets).map
        QueuedPacket.arrival).map Arrival.number).Pairwise (· < ·) ∧
      (((arpqNextHopLookup queue hop).elim [] ArpqEntry.arpqPackets).map
          QueuedPacket.arrival = [] ∨
        ∃ entry ∈ queue, ((arpqNextHopLookup queue hop).elim [] ArpqEntry.arpqPackets).map
          QueuedPacket.arrival = entry.arpqPackets.map QueuedPacket.arrival) := by
  cases hfind : arpqNextHopLookup queue hop with
  | none => simp
  | some entry =>
    have hmem : entry ∈ queue := List.mem_of_find?_eq_some hfind
    have hhop : entry.arpqNextHop = hop := by simpa using List.find?_some hfind
    refine ⟨⟨entry.arpqIp, ?_⟩, ?_, Or.inr ⟨entry, hmem, rfl⟩⟩
    · intro p hp
      have := hq.waits entry.core (List.mem_map_of_mem hmem) p hp
      rw [← hhop]
      exact this
    · have := hq.order entry.core (List.mem_map_of_mem hmem)
      rw [List.map_map]
      exact this

theorem not_forwardable_of_arp {sr : SrInstance} {e : Event} {n : Nat} {info : ArpInfo}
    (hinfo : arpInfo e.packet = some info) {rt : SrRt} {iface : SrIf} :
    ¬ Forwardable sr (e.arrival n) rt iface := by
  intro h
  have hnone : arpInfo e.packet = none := arpInfo_of_ip h.etherType
  rw [hinfo] at hnone
  cases hnone

/-- A call that forwards nothing and releases nothing. -/
theorem sent_nothing {sr : SrInstance} {hist : List Event} {e : Event} {st : RouterState}
    {queue' : List ArpqEntry} {flushed extra : List Sent} {queue : List ArpqEntry}
    (hflush : arpQueueFlush sr e.now st.queue = .ok (queue, flushed))
    (hextra : ∀ s ∈ extra, s.forwards = none)
    (hkept : ∀ a ∈ waitingIn (queue.map ArpqEntry.core),
      a ∈ waitingIn (queue'.map ArpqEntry.core)) :
    ∃ new, st.wire ++ flushed ++ extra = st.wire ++ new ∧
      (∀ s ∈ new, ∀ a, s.forwards = some a → Faithful sr (hist ++ [e]) a s) ∧
      ((forwardedBy new).map Arrival.number).Pairwise (· < ·) ∧
      ∀ q f, arpQueueFlush sr e.now st.queue = .ok (q, f) →
        (forwardedBy new = [] ∨ forwardedBy new = [e.arrival hist.length] ∨
          ∃ entry ∈ q, forwardedBy new = entry.arpqPackets.map QueuedPacket.arrival) ∧
        ∀ a ∈ waitingIn (q.map ArpqEntry.core),
          a ∈ forwardedBy new ∨ a ∈ waitingIn (queue'.map ArpqEntry.core) := by
  have hnone : ∀ s ∈ flushed ++ extra, s.forwards = none := by
    intro s hs
    rcases List.mem_append.mp hs with hs | hs
    · exact (arpQueueFlush_spec hflush).forwards s hs
    · exact hextra s hs
  obtain ⟨hall, hnil⟩ := @forwards_nothing sr (hist ++ [e]) _ hnone
  refine ⟨flushed ++ extra, by rw [List.append_assoc], hall, by rw [hnil]; simp, ?_⟩
  intro q f hq
  rw [hflush] at hq
  obtain ⟨rfl, rfl⟩ := Prod.mk.inj (Except.ok.inj hq)
  exact ⟨Or.inl hnil, fun a ha => Or.inr (hkept a ha)⟩

theorem forwardsFaithfully_of_heard {sr : SrInstance} {hist : List Event} {st st' : RouterState}
    {e : Event} (hinv : Inv sr hist st)
    (hstep : srHandlepacket sr st e.packet e.interface e.now = .ok st')
    (hheard : NextHopHeard sr hist e) : ForwardsFaithfully sr hist e st st' := by
  have hinv' := inv_step hinv hstep
  rcases handlepacket_cases hstep with ⟨hshort, rfl⟩ | ⟨-, queue, flushed, hflush, hout⟩
  · refine ⟨⟨[], by simp, by simp, by simp [forwardedBy], ?_⟩, hinv'.wire.once, ?_⟩
    · intro q f hq
      refine ⟨Or.inl rfl, fun a ha => Or.inr ?_⟩
      exact (waitingIn_sublist (arpQueueFlush_spec hq).sublist).subset ha
    · intro rt iface hfwd
      have hlong : etherHdrLen ≤ e.packet.length := hfwd.long
      omega
  · obtain ⟨hq, hc, hw⟩ := hinv.flush (arpQueueFlush_spec hflush)
    have hqueue : ∀ {q f}, arpQueueFlush sr e.now st.queue = .ok (q, f) → q = queue := by
      intro q f hqf
      rw [hflush] at hqf
      exact (Prod.mk.inj (Except.ok.inj hqf)).1.symm
    rw [hinv.calls] at hout
    cases hout with
    | answered extra hip hnot hextra =>
      -- the router answers itself or says nothing, and forwards nothing
      refine ⟨sent_nothing hflush hextra fun a ha => ha, hinv'.wire.once, ?_⟩
      intro rt iface hfwd
      obtain ⟨incoming, -, hacc, -⟩ := hfwd.accepted
      exact absurd hacc (hnot incoming)
    | direct incoming outgoing sent hop incache iface hacc hupd hhit henc hiface =>
      have harp : arpInfo e.packet = none := arpInfo_of_ip hacc.spec.1
      obtain ⟨rt₀, iface₀, hfwd₀, hgw₀, hiface₀, hmac₀⟩ := hacc.forwardable hupd
      obtain rfl : iface₀ = iface := Option.some.inj (hiface₀.symm.trans hiface)
      have henc : encapsulate { outgoing with
          fromMAC := iface₀.addr, toMAC := some incache.arpcMac } = .ok sent := by
        rw [← hmac₀]
        exact henc
      obtain ⟨rt, hfwd, hgw, hf, hdirect⟩ := frame_of_encapsulate hacc hupd hiface henc
      have hip : incache.arpcIp = hop := by simpa using List.find?_some hhit
      -- the cache holds what the next hop said last, unless it is the placeholder
      have hlast : heard (hist ++ [e]) rt.gw = some incache.arpcMac := by
        rw [heard_append_other harp, hgw, ← hip]
        rcases hc.cached incache (List.mem_of_find?_eq_some hhit) with hcached | ⟨hzero, hnone, -⟩
        · exact hcached
        · have := hheard rt iface₀ hfwd (by rw [hgw, ← hip, hzero])
          rw [hnone] at this
          cases this
      have hnew : forwardedBy (flushed ++
          [⟨sent.frame, iface₀, some (e.arrival hist.length)⟩]) = [e.arrival hist.length] := by
        rw [forwardedBy_append, forwardedBy_own (arpQueueFlush_spec hflush).forwards]
        simp [forwardedBy]
      refine ⟨⟨_, List.append_assoc _ _ _, ?_, ?_, ?_⟩, hinv'.wire.once, ?_⟩
      · intro s hs a ha
        rcases List.mem_append.mp hs with hs | hs
        · rw [(arpQueueFlush_spec hflush).forwards s hs] at ha
          cases ha
        · obtain rfl := List.mem_singleton.mp hs
          obtain rfl := Option.some.inj ha
          exact ⟨arrived_last hist e, rt, incache.arpcMac, hfwd, hlast, hf, hdirect⟩
      · rw [hnew]
        exact List.pairwise_singleton _ _
      · intro q f hqf
        rw [hqueue hqf, hnew]
        exact ⟨Or.inr (Or.inl rfl), fun a ha => Or.inr ha⟩
      · intro rt' iface' _
        rw [forwardedBy_append]
        exact List.mem_append_left _ (List.mem_append_right _ (by simp [forwardedBy]))
    | queued incoming outgoing hop queue' request hacc hupd hmiss hreq henq =>
      -- the packet waits behind those that wait already
      refine ⟨sent_nothing hflush (by simpa using hreq) fun a ha => ?_, hinv'.wire.once, ?_⟩
      · exact (waitingIn_enqueue henq).mem_iff.mpr (List.mem_cons_of_mem _ ha)
      · intro rt iface hfwd
        exact List.mem_append_right _
          ((waitingIn_enqueue henq).mem_iff.mpr List.mem_cons_self)
    | refreshed info entry extra hinfo hhit hextra =>
      refine ⟨sent_nothing hflush hextra fun a ha => ha, hinv'.wire.once, ?_⟩
      exact fun rt iface hfwd => absurd hfwd (not_forwardable_of_arp hinfo)
    | overheard info hinfo hmiss htarget =>
      refine ⟨?_, hinv'.wire.once, ?_⟩
      · have := @sent_nothing sr hist e st queue flushed [] queue hflush (by simp) fun a ha => ha
        rwa [List.append_nil] at this
      · exact fun rt iface hfwd => absurd hfwd (not_forwardable_of_arp hinfo)
    | learned info target sent extra hinfo hmiss htarget hsent hextra =>
      -- a whole list goes out, in the order in which it came
      obtain ⟨⟨ip, hwaits⟩, horder, hwhole⟩ := lookup_released hq info.sip
      have hfor := forwardedBy_released hsent
      have hnew : forwardedBy (flushed ++ (sent ++ extra)) =
          ((arpqNextHopLookup queue info.sip).elim [] ArpqEntry.arpqPackets).map
            QueuedPacket.arrival := by
        rw [forwardedBy_append, forwardedBy_own (arpQueueFlush_spec hflush).forwards,
          forwardedBy_append, hfor, forwardedBy_own hextra, List.append_nil, List.nil_append]
      refine ⟨⟨flushed ++ (sent ++ extra), ?_, ?_, ?_, ?_⟩, hinv'.wire.once, ?_⟩
      · simp only [List.append_assoc]
      · intro s hs a ha
        rcases List.mem_append.mp hs with hs | hs
        · rw [(arpQueueFlush_spec hflush).forwards s hs] at ha
          cases ha
        · rcases List.mem_append.mp hs with hs | hs
          · exact released_faithful hinfo hwaits hsent s hs a ha
          · rw [hextra s hs] at ha
            cases ha
      · rw [hnew]
        exact horder
      · intro q f hqf
        rw [hqueue hqf, hnew]
        refine ⟨hwhole.imp_right Or.inr, ?_⟩
        intro a ha
        exact List.mem_append.mp ((waitingIn_erase queue info.sip).mem_iff.mp ha)
      · exact fun rt iface hfwd => absurd hfwd (not_forwardable_of_arp hinfo)

/-- The other direction: with the placeholder in the way the packet goes out to
an address that nobody announced. -/
theorem heard_of_forwardsFaithfully {sr : SrInstance} {hist : List Event}
    {st st' : RouterState} {e : Event} (hinv : Inv sr hist st)
    (hstep : srHandlepacket sr st e.packet e.interface e.now = .ok st')
    (hfaith : ForwardsFaithfully sr hist e st st') : NextHopHeard sr hist e := by
  intro rt iface hfwd hzero
  by_contra hsome
  have hnone : heard hist 0 = none := Option.not_isSome_iff_eq_none.mp hsome
  rcases handlepacket_cases hstep with ⟨hshort, rfl⟩ | ⟨-, queue, flushed, hflush, hout⟩
  · have hlong : etherHdrLen ≤ e.packet.length := hfwd.long
    omega
  · obtain ⟨hq, hc, hw⟩ := hinv.flush (arpQueueFlush_spec hflush)
    obtain ⟨placeholder, hmem, hip, -⟩ := hc.placeholder hnone
    rw [hinv.calls] at hout
    have harp : arpInfo e.packet = none := arpInfo_of_ip hfwd.etherType
    have hhop : ∀ {incoming outgoing hop}, Accepted sr (e.arrival hist.length) incoming →
        updateIpHdr sr incoming = .ok (outgoing, hop) → hop = 0 := by
      intro incoming outgoing hop hacc hupd
      obtain ⟨rt', iface', hfwd', hgw, -⟩ := hacc.forwardable hupd
      rw [← hgw, hfwd'.unique hfwd, hzero]
    cases hout with
    | answered extra hip hnot hextra =>
      obtain ⟨incoming, -, hacc, -⟩ := hfwd.accepted
      exact hnot incoming hacc
    | direct incoming outgoing sent hop incache iface' hacc hupd hhit henc hiface =>
      -- the frame has the address of the placeholder, which nobody announced
      obtain ⟨new, hnew, hall, -⟩ := hfaith.sent
      have hsent : { frame := sent.frame, iface := iface',
                     forwards := some (e.arrival hist.length) } ∈ new := by
        have : flushed ++ [{ frame := sent.frame, iface := iface',
                             forwards := some (e.arrival hist.length) }] = new := by
          rw [List.append_assoc] at hnew
          exact List.append_cancel_left hnew
        rw [← this]
        exact List.mem_append_right _ (List.mem_singleton_self _)
      obtain ⟨rt', mac, hfwd', hmac, -⟩ := (hall _ hsent _ rfl).forwarded
      rw [hfwd'.unique hfwd, hzero, heard_append_other harp, hnone] at hmac
      cases hmac
    | queued incoming outgoing hop queue' request hacc hupd hmiss hreq henq =>
      -- the lookup cannot miss the placeholder
      have := List.find?_eq_none.mp hmiss placeholder hmem
      rw [hhop hacc hupd, hip] at this
      exact this rfl
    | refreshed info entry extra hinfo hhit hextra =>
      exact not_forwardable_of_arp hinfo hfwd
    | overheard info hinfo hmiss htarget =>
      exact not_forwardable_of_arp hinfo hfwd
    | learned info target sent extra hinfo hmiss htarget hsent hextra =>
      exact not_forwardable_of_arp hinfo hfwd

/-- **Both ways forward faithfully, at every call after every run, exactly when
the packet's next hop is not the unannounced `0.0.0.0`.** -/
theorem forwardsFaithfully_iff {sr : SrInstance} {hist : List Event} {e : Event}
    {st st' : RouterState} (hrun : run (step sr) (some (srInit sr)) hist = some st)
    (hstep : step sr (some st) e = some st') :
    ForwardsFaithfully sr hist e st st' ↔ NextHopHeard sr hist e := by
  obtain ⟨mid, hmid, hres⟩ := step_eq_some hstep
  obtain rfl := Option.some.inj hmid
  have hinv := inv_run hrun
  exact ⟨heard_of_forwardsFaithfully hinv hres, forwardsFaithfully_of_heard hinv hres⟩

/-- A datagram waits for the gateway and is released by its reply. -/
theorem waiting_forwardsFaithfully :
    ∃ st st', run (step gatewayRouter) (some (srInit gatewayRouter))
        [{ packet := datagramTo 5 196, interface := [0x65], now := 100 }] = some st ∧
      step gatewayRouter (some st) { packet := gatewayReply, interface := [0x65], now := 101 }
        = some st' ∧
      (forwardedBy st'.wire).length = 1 ∧
      ForwardsFaithfully gatewayRouter
        [{ packet := datagramTo 5 196, interface := [0x65], now := 100 }]
        { packet := gatewayReply, interface := [0x65], now := 101 } st st' := by
  have hone : ((run (step gatewayRouter) (some (srInit gatewayRouter))
      [{ packet := datagramTo 5 196, interface := [0x65], now := 100 },
       { packet := gatewayReply, interface := [0x65], now := 101 }]).map
        fun st => (forwardedBy st.wire).length) = some 1 := by decide +kernel
  obtain ⟨st', hst', hlen⟩ := Option.map_eq_some_iff.mp hone
  simp only [run_cons, run_nil] at hst'
  obtain ⟨st, hst, -⟩ := step_eq_some hst'
  rw [hst] at hst'
  have hinfo : arpInfo gatewayReply =
      some { sip := 0x0700000a, sha := ⟨[2, 0, 0, 0, 0, 7], rfl⟩, tip := 0x0100000a } := by rfl
  have hrun : run (step gatewayRouter) (some (srInit gatewayRouter))
      [{ packet := datagramTo 5 196, interface := [0x65], now := 100 }] = some st := hst
  refine ⟨st, st', hrun, hst', hlen, (forwardsFaithfully_iff hrun hst').mpr ?_⟩
  exact fun rt iface hfwd => absurd hfwd (not_forwardable_of_arp hinfo)

/-- The router of before, with its route through `0.0.0.0`. -/
def nowhereRouter : SrInstance :=
  { gatewayRouter with
    routingTable := [{ dest := 0, gw := 0, mask := 0, interface := [0x65] }] }

/-- The first datagram goes out at once, to the broadcast address. -/
theorem nowhere_broadcasts :
    ∃ st', step nowhereRouter (some (srInit nowhereRouter))
        { packet := datagramTo 5 196, interface := [0x65], now := 100 } = some st' ∧
      (st'.wire.map fun s => s.frame.take 6) = [broadcast.val] ∧
      ¬ ForwardsFaithfully nowhereRouter []
        { packet := datagramTo 5 196, interface := [0x65], now := 100 }
        (srInit nowhereRouter) st' := by
  have hone : ((step nowhereRouter (some (srInit nowhereRouter))
      { packet := datagramTo 5 196, interface := [0x65], now := 100 }).map
        fun st => st.wire.map fun s => s.frame.take 6) = some [broadcast.val] := by
    decide +kernel
  obtain ⟨st', hst', hframe⟩ := Option.map_eq_some_iff.mp hone
  refine ⟨st', hst', hframe, fun hfaith => ?_⟩
  obtain ⟨mid, hmid, hres⟩ := step_eq_some hst'
  obtain rfl := Option.some.inj hmid
  have hfwd : Forwardable nowhereRouter
      (Event.arrival { packet := datagramTo 5 196, interface := [0x65], now := 100 } 0)
      { dest := 0, gw := 0, mask := 0, interface := [0x65] }
      { name := [0x65], addr := ⟨[2, 0, 0, 0, 0, 1], rfl⟩, ip := 0x0100000a } :=
    { long := by decide
      etherType := by decide
      version := ⟨69, by decide, by decide⟩
      verifies := by decide +kernel
      ttl := ⟨64, by decide, by decide⟩
      route := ⟨0x0502000a, by decide +kernel, by rfl, by decide +kernel⟩
      interface := by decide +kernel }
  have := heard_of_forwardsFaithfully (inv_init nowhereRouter) hres hfaith _ _ hfwd rfl
  cases this

end UchiNetworks.Router
