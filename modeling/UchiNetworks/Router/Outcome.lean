import UchiNetworks.Router.Header
import UchiNetworks.Router.Handle

/-!
# What one call of `sr_handlepacket` can do

`handlepacket_cases` is the inversion lemma the proofs about runs start from: a
call that returns has flushed both lists and then done one of the six things
listed in `Outcome`. Everything the later files need of the parsing, the sending
and the list surgery is said here once.
-/

namespace UchiNetworks.Router

open UchiNetworks.Lib

/-! ## The pieces -/

/-- What identifies an entry and what waits in it; the flush changes neither. -/
def ArpqEntry.core (e : ArpqEntry) : UInt32 × UInt32 × List QueuedPacket :=
  (e.arpqIp, e.arpqNextHop, e.arpqPackets)

theorem arpqPacketsIcmpsend_forwards {sr : SrInstance} {packets : List QueuedPacket}
    {sent : List Sent} (h : arpqPacketsIcmpsend sr packets = .ok sent) :
    ∀ s ∈ sent, s.forwards = none := by
  induction packets generalizing sent with
  | nil =>
    simp only [arpqPacketsIcmpsend, Except.ok.injEq] at h
    subst h
    simp
  | cons packet rest ih =>
    simp only [arpqPacketsIcmpsend, bind_ok] at h
    obtain ⟨ip, -, stuck, -, h⟩ := h
    cases stuck with
    | true => cases h
    | false =>
      simp only [Bool.false_eq_true, if_false, bind_ok, Except.ok.injEq] at h
      obtain ⟨-, -, iface, -, more, hmore, rfl⟩ := h
      intro s hs
      rcases List.mem_cons.mp hs with rfl | hs
      · rfl
      · exact ih hmore s hs

theorem computeIpChecksum_of_sum {f : FrameT} {sum : Nat} (hip : f.ipHeader = some etherSize)
    (hsum : ipHeaderSum f.frame etherSize = some sum)
    (hlong : etherHdrLen ≤ f.frame.length) :
    ∃ frame, computeIpChecksum f = .ok { f with frame := frame } ∧
      Buffer.write f.frame (etherSize + 10) (le16 (65535 - sum)) = some frame := by
  obtain ⟨frame, hframe⟩ := Buffer.write_of_le
    (show etherSize + 10 + (le16 (65535 - sum)).length ≤ f.frame.length by
      rw [le16_length]
      have : etherHdrLen = 42 := rfl
      have : etherSize = 14 := rfl
      omega)
  simp only [computeIpChecksum, hip, getOr_some, ok_bind, hsum, hframe]
  exact ⟨frame, rfl, rfl⟩

theorem sendPacket_eq {outgoing : FrameT} {forwards : Option Arrival} {sent : Sent}
    (h : sendPacket outgoing forwards = .ok sent) :
    outgoing.iface = some sent.iface ∧ sent.frame = outgoing.frame ∧
      sent.forwards = forwards := by
  simp only [sendPacket, bind_ok, getOr_ok, Except.ok.injEq] at h
  obtain ⟨iface, hiface, rfl⟩ := h
  exact ⟨hiface, rfl, rfl⟩

/-- The three things a flush does with an entry. -/
inductive Flushed (now : Nat) (e : ArpqEntry) : Option ArpqEntry → List Sent → Prop
  | kept (hidle : e.arpqPackets ≠ [] → now - 1 ≤ e.arpqLastReq) : Flushed now e (some e) []
  | asked (sent : Sent) (hpackets : e.arpqPackets ≠ []) (hlate : e.arpqLastReq < now - 1)
      (hfew : e.arpqNumReqs < arpMaxReq) (hsent : sent.forwards = none) :
      Flushed now e
        (some { e with
                arpqLastReq := now
                arpqNumReqs := e.arpqNumReqs + 1
                requests := now :: e.requests }) [sent]
  | givenUp (sent : List Sent) (hlate : e.arpqLastReq < now - 1)
      (hmany : arpMaxReq ≤ e.arpqNumReqs) (hsent : ∀ s ∈ sent, s.forwards = none) :
      Flushed now e none sent

theorem flushEntry_spec {sr : SrInstance} {now : Nat} {e : ArpqEntry}
    {kept : Option ArpqEntry} {sent : List Sent} (h : flushEntry sr now e = .ok (kept, sent)) :
    Flushed now e kept sent := by
  simp only [flushEntry] at h
  by_cases hlate : now - arpRequestTimeout > e.arpqLastReq
  · rw [if_pos hlate] at h
    by_cases hmany : e.arpqNumReqs ≥ arpMaxReq
    · simp only [hmany, if_true, bind_ok] at h
      obtain ⟨out, hout, h⟩ := h
      simp only [Except.ok.injEq, Prod.mk.injEq] at h
      obtain ⟨rfl, rfl⟩ := h
      exact Flushed.givenUp out hlate hmany (arpqPacketsIcmpsend_forwards hout)
    · simp only [hmany, if_false] at h
      split at h
      next oldPacket rest hpackets =>
        simp only [bind_ok] at h
        obtain ⟨req, -, s, hs, h⟩ := h
        simp only [Except.ok.injEq, Prod.mk.injEq] at h
        obtain ⟨rfl, rfl⟩ := h
        exact Flushed.asked s (by rw [hpackets]; simp) hlate (UInt8.not_le.mp hmany)
          (sendPacket_eq hs).2.2
      next hpackets =>
        simp only [Except.ok.injEq, Prod.mk.injEq] at h
        obtain ⟨rfl, rfl⟩ := h
        exact Flushed.kept fun hne => absurd hpackets hne
  · rw [if_neg hlate] at h
    simp only [Except.ok.injEq, Prod.mk.injEq] at h
    obtain ⟨rfl, rfl⟩ := h
    exact Flushed.kept fun _ => Nat.not_lt.mp hlate

/-- One entry after another. -/
inductive FlushedAll (now : Nat) : List ArpqEntry → List ArpqEntry → List Sent → Prop
  | nil : FlushedAll now [] [] []
  | cons {e : ArpqEntry} {kept : Option ArpqEntry} {sent : List Sent}
      {rest queue : List ArpqEntry} {more : List Sent} (hhead : Flushed now e kept sent)
      (hrest : FlushedAll now rest queue more) :
      FlushedAll now (e :: rest) (kept.toList ++ queue) (sent ++ more)

theorem arpQueueFlush_spec {sr : SrInstance} {now : Nat} {queue queue' : List ArpqEntry}
    {sent : List Sent} (h : arpQueueFlush sr now queue = .ok (queue', sent)) :
    FlushedAll now queue queue' sent := by
  induction queue generalizing queue' sent with
  | nil =>
    simp only [arpQueueFlush, Except.ok.injEq, Prod.mk.injEq] at h
    obtain ⟨rfl, rfl⟩ := h
    exact FlushedAll.nil
  | cons e rest ih =>
    simp only [arpQueueFlush, bind_ok] at h
    obtain ⟨⟨kept, s⟩, hhead, ⟨q, more⟩, hrest, h⟩ := h
    simp only [Except.ok.injEq, Prod.mk.injEq] at h
    obtain ⟨rfl, rfl⟩ := h
    exact FlushedAll.cons (flushEntry_spec hhead) (ih hrest)

/-- Entries leave in a flush, none comes, none is reordered, and what waits in
them stays. -/
theorem FlushedAll.sublist {now : Nat} {queue queue' : List ArpqEntry} {sent : List Sent}
    (h : FlushedAll now queue queue' sent) :
    (queue'.map ArpqEntry.core).Sublist (queue.map ArpqEntry.core) := by
  induction h with
  | nil => exact List.Sublist.slnil
  | cons hhead hrest ih =>
    cases hhead with
    | kept _ => exact ih.cons_cons _
    | asked _ _ _ _ _ => exact ih.cons_cons _
    | givenUp _ _ _ _ => exact ih.cons _

/-- Nothing that is sent in a flush forwards a packet. -/
theorem FlushedAll.forwards {now : Nat} {queue queue' : List ArpqEntry} {sent : List Sent}
    (h : FlushedAll now queue queue' sent) : ∀ s ∈ sent, s.forwards = none := by
  induction h with
  | nil => simp
  | cons hhead hrest ih =>
    intro s hs
    rcases List.mem_append.mp hs with hs | hs
    · cases hhead with
      | kept _ => cases hs
      | asked _ _ _ _ hsent =>
        obtain rfl := List.mem_singleton.mp hs
        exact hsent
      | givenUp _ _ _ hsent => exact hsent s hs
    · exact ih s hs

/-- `s` is what `arpq_entry_clear` sends for the packet `p`. -/
structure Released (dHa : Mac) (p : QueuedPacket) (s : Sent) : Prop where
  forwards : s.forwards = some p.arrival
  encapsulated : ∃ sent, p.outgoing.iface = some s.iface ∧
    encapsulate { p.outgoing with fromMAC := s.iface.addr, toMAC := some dHa } = .ok sent ∧
    s.frame = sent.frame

theorem encapsulate_iface {f f' : FrameT} (h : encapsulate f = .ok f') : f'.iface = f.iface := by
  obtain ⟨-, frame, -, rfl, -⟩ := encapsulate_eq h
  rfl

/-- Every packet of the entry is sent, in order, once. -/
theorem arpqEntryClear_spec {dHa : Mac} {packets : List QueuedPacket} {sent : List Sent}
    (h : arpqEntryClear dHa packets = .ok sent) : List.Forall₂ (Released dHa) packets sent := by
  induction packets generalizing sent with
  | nil =>
    simp only [arpqEntryClear, Except.ok.injEq] at h
    subst h
    exact List.Forall₂.nil
  | cons p rest ih =>
    simp only [arpqEntryClear, bind_ok, getOr_ok, Except.ok.injEq] at h
    obtain ⟨iface, hiface, out, henc, s, hs, more, hmore, rfl⟩ := h
    obtain ⟨hsi, hsf, hsa⟩ := sendPacket_eq hs
    have hout := encapsulate_iface henc
    have hsame : s.iface = iface := by
      rw [hsi] at hout
      exact Option.some.inj (hout.trans hiface)
    refine List.Forall₂.cons ⟨hsa, out, ?_, ?_, hsf⟩ (ih hmore)
    · rw [hsame]
      exact hiface
    · rw [hsame]
      exact henc

/-- `p` has joined the queue for destination `ip` through `hop`: behind the
packets of the entry for `ip`, or in a new entry at the end. Either way a
request was sent for the entry. -/
inductive Enqueued (now : Nat) (ip hop : UInt32) (p : QueuedPacket) :
    List ArpqEntry → List ArpqEntry → Prop
  | joined (before after : List ArpqEntry) (e : ArpqEntry) (lastReq : Nat) (numReqs : UInt8)
      (hip : e.arpqIp = ip) (hsome : e.arpqPackets ≠ [])
      (htouch : lastReq = e.arpqLastReq ∧ numReqs = e.arpqNumReqs + 1 ∨
        e.arpqLastReq < now - 1 ∧ e.arpqNumReqs < arpMaxReq ∧ lastReq = now ∧
          numReqs = e.arpqNumReqs + 1 + 1) :
      Enqueued now ip hop p (before ++ e :: after)
        (before ++ { e with
                     arpqPackets := e.arpqPackets ++ [p]
                     arpqLastReq := lastReq
                     arpqNumReqs := numReqs
                     requests := now :: e.requests } :: after)
  | opened (queue : List ArpqEntry) (hnew : ∀ e ∈ queue, e.arpqIp ≠ ip) :
      Enqueued now ip hop p queue
        (queue ++ [{ arpqIp := ip, arpqNextHop := hop, arpqPackets := [p], arpqLastReq := now,
                     arpqNumReqs := 0, requests := [now] }])

theorem replaceFirst_split {α : Type} {test : α → Bool} {x : α} {f : α → α} {xs : List α}
    (h : xs.find? test = some x) :
    ∃ before after, xs = before ++ x :: after ∧
      replaceFirst test f xs = before ++ f x :: after := by
  induction xs with
  | nil => cases h
  | cons y ys ih =>
    rw [List.find?_cons] at h
    cases hy : test y with
    | true =>
      rw [hy] at h
      obtain rfl := Option.some.inj h
      exact ⟨[], ys, rfl, by simp [replaceFirst, hy]⟩
    | false =>
      rw [hy] at h
      obtain ⟨before, after, rfl, hrep⟩ := ih h
      exact ⟨y :: before, after, rfl, by simp [replaceFirst, hy, hrep]⟩

theorem arpCreate_toIp {sr : SrInstance} {f req : FrameT} {iface : Option SrIf}
    (h : arpCreate sr f iface arpRequest = .ok req) :
    ∃ rt, rtMatch sr f.toIp = some rt ∧ req.toIp = rt.gw := by
  simp only [arpCreate, arpTarget, if_true, bind_ok, getOr_ok] at h
  obtain ⟨iface, -, ⟨tip, mac⟩, ⟨rt, hrt, htip⟩, henc⟩ := h
  simp only [Except.ok.injEq, Prod.mk.injEq] at htip
  obtain ⟨rfl, rfl⟩ := htip
  obtain ⟨-, frame, -, rfl, -⟩ := encapsulate_eq henc
  exact ⟨rt, hrt, rfl⟩

theorem sendDatagram_eq {st st' : RouterState} {outgoing : Option FrameT}
    {forwards : Option Arrival} (h : sendDatagram st outgoing forwards = .ok st') :
    outgoing = none ∧ st' = st ∨ ∃ out sent, outgoing = some out ∧
      sendPacket out forwards = .ok sent ∧ st' = { st with wire := st.wire ++ [sent] } := by
  cases outgoing with
  | none =>
    simp only [sendDatagram, Except.ok.injEq] at h
    exact Or.inl ⟨rfl, h.symm⟩
  | some out =>
    simp only [sendDatagram, bind_ok, Except.ok.injEq] at h
    obtain ⟨sent, hsent, rfl⟩ := h
    exact Or.inr ⟨out, sent, rfl, hsent, rfl⟩

/-- An answer of our own forwards nothing. -/
theorem sendDatagram_own {st st' : RouterState} {outgoing : Option FrameT}
    (h : sendDatagram st outgoing none = .ok st') :
    ∃ extra, (∀ s ∈ extra, s.forwards = none) ∧ st' = { st with wire := st.wire ++ extra } := by
  rcases sendDatagram_eq h with ⟨-, rfl⟩ | ⟨out, sent, -, hsent, rfl⟩
  · exact ⟨[], by simp, by simp⟩
  · refine ⟨[sent], fun s hs => ?_, rfl⟩
    obtain rfl := List.mem_singleton.mp hs
    exact (sendPacket_eq hsent).2.2

theorem touchEntry_spec {now : Nat} {e e' : ArpqEntry} (h : touchEntry now e = .ok e') :
    e' = e ∨ e.arpqLastReq < now - 1 ∧ e.arpqNumReqs < arpMaxReq ∧
      e' = { e with arpqLastReq := now, arpqNumReqs := e.arpqNumReqs + 1 } := by
  simp only [touchEntry] at h
  split at h
  next hlate =>
    split at h
    · cases h
    next hfew =>
      split at h
      · exact Or.inl (Except.ok.inj h).symm
      · exact Or.inr ⟨hlate, UInt8.not_le.mp hfew, (Except.ok.inj h).symm⟩
  next => exact Or.inl (Except.ok.inj h).symm

theorem queuePacket_spec {sr : SrInstance} {st st' : RouterState} {a : Arrival}
    {incoming outgoing : FrameT} {hop : UInt32}
    (hhop : ∃ rt, rtMatch sr outgoing.toIp = some rt ∧ rt.gw = hop)
    (h : queuePacket sr st a incoming outgoing = .ok st') :
    ∃ queue' request, request.forwards = none ∧
      st' = { st with queue := queue', wire := st.wire ++ [request] } ∧
      Enqueued a.now outgoing.toIp hop
        { fromMAC := incoming.fromMAC, fromIface := incoming.iface, outgoing := outgoing,
          arrival := a } st.queue queue' := by
  simp only [queuePacket] at h
  split at h
  next entry hfind =>
    simp only [bind_ok] at h
    obtain ⟨touched, htouch, h⟩ := h
    split at h
    · cases h
    next hpackets =>
      simp only [bind_ok] at h
      obtain ⟨request, -, h⟩ := h
      rcases sendDatagram_eq h with ⟨hne, -⟩ | ⟨out, sent, hout, hsent, rfl⟩
      · cases hne
      · have hip : entry.arpqIp = outgoing.toIp := by
          have := List.find?_some hfind
          simpa using this
        have hsome : entry.arpqPackets ≠ [] := by
          rcases touchEntry_spec htouch with rfl | ⟨-, -, rfl⟩
          · simpa using hpackets
          · simpa using hpackets
        refine ⟨_, sent, (sendPacket_eq hsent).2.2, rfl, ?_⟩
        obtain ⟨before, after, hq, hrep⟩ := replaceFirst_split hfind
        rw [hrep]
        clear hrep
        generalize st.queue = queue at hq
        subst hq
        rcases touchEntry_spec htouch with rfl | ⟨hlate, hfew, rfl⟩
        · exact Enqueued.joined before after touched touched.arpqLastReq
            (touched.arpqNumReqs + 1) hip hsome (Or.inl ⟨rfl, rfl⟩)
        · exact Enqueued.joined before after entry a.now (entry.arpqNumReqs + 1 + 1) hip hsome
            (Or.inr ⟨hlate, hfew, rfl, rfl⟩)
  next hfind =>
    simp only [bind_ok] at h
    obtain ⟨request, hreq, h⟩ := h
    rcases sendDatagram_eq h with ⟨hne, -⟩ | ⟨out, sent, hout, hsent, rfl⟩
    · cases hne
    · refine ⟨_, sent, (sendPacket_eq hsent).2.2, rfl, ?_⟩
      obtain ⟨rt, hrt, hgw⟩ := hhop
      obtain ⟨rt', hrt', hgw'⟩ := arpCreate_toIp hreq
      rw [hrt] at hrt'
      obtain rfl := Option.some.inj hrt'
      -- a new entry, for a destination that had none
      have hnew : ∀ e ∈ st.queue, e.arpqIp ≠ outgoing.toIp := by
        intro e he heq
        have := List.find?_eq_none.mp hfind e he
        simp [heq] at this
      rw [hgw', hgw]
      exact Enqueued.opened st.queue hnew

/-! ## Which branch a packet takes -/

/-- What an ARP packet says: the sender's two addresses and the target. -/
structure ArpInfo where
  sip : UInt32
  sha : Mac
  tip : UInt32

/-- The ARP packet in a frame, if it is one. -/
def arpInfo (packet : Bytes) : Option ArpInfo := do
  let etherType ← readBe16 packet 12
  if packet.length < etherHdrLen ∨ etherType ≠ etherTypeARP then none
  else
    let sha ← readMac packet (etherSize + 8)
    let sip ← readU32 packet (etherSize + 14)
    let tip ← readU32 packet (etherSize + 24)
    some { sip := sip, sha := sha, tip := tip }

/-- `incoming` is what the forwarding branch gets to see of the call `a`. -/
structure Accepted (sr : SrInstance) (a : Arrival) (incoming : FrameT) : Prop where
  long : etherHdrLen ≤ a.packet.length
  created : ∃ created, createFrameT sr a.packet a.interface = .ok (some created) ∧
    created.ipHeader.isSome ∧ checkIp created = .ok (some incoming)
  notOurs : ifDstCheck sr incoming.toIp = .ok none
  ttl : ∃ ttl, incoming.frame[etherSize + 8]? = some ttl ∧ 0 < ttl

theorem Accepted.unique {sr : SrInstance} {a : Arrival} {f f' : FrameT} (h : Accepted sr a f)
    (h' : Accepted sr a f') : f = f' := by
  obtain ⟨c, hc, -, hcheck⟩ := h.created
  obtain ⟨c', hc', -, hcheck'⟩ := h'.created
  obtain rfl : c = c' := Option.some.inj (Except.ok.inj (hc.symm.trans hc'))
  exact Option.some.inj (Except.ok.inj (hcheck.symm.trans hcheck'))

/-- `create_frame_t` on a protocol it knows. -/
inductive Created (sr : SrInstance) (packet : Bytes) (ifName : IfName) (f : FrameT) : Prop
  | ip (hframe : f.frame = packet) (htype : readBe16 packet 12 = some etherTypeIP)
      (hip : f.ipHeader = some etherSize) (hiface : f.iface = getInterface sr ifName)
      (hdst : readU32 packet (etherSize + 16) = some f.toIp)
  | arp (hframe : f.frame = packet) (htype : readBe16 packet 12 = some etherTypeARP)
      (hip : f.ipHeader = none) (hiface : f.iface = getInterface sr ifName)

theorem createFrameT_spec {sr : SrInstance} {packet : Bytes} {ifName : IfName} {f : FrameT}
    (h : createFrameT sr packet ifName = .ok (some f)) : Created sr packet ifName f := by
  simp only [createFrameT, bind_ok, getOr_ok] at h
  obtain ⟨shost, -, dhost, -, etherType, htype, h⟩ := h
  by_cases hip : etherType = etherTypeIP
  · rw [if_pos hip] at h
    simp only [bind_ok, getOr_ok, Except.ok.injEq, Option.some.injEq] at h
    obtain ⟨vhl, -, ipLen, -, proto, -, src, -, dst, hdst, rfl⟩ := h
    exact Created.ip rfl (hip ▸ htype) rfl rfl hdst
  · rw [if_neg hip] at h
    by_cases harp : etherType = etherTypeARP
    · rw [if_pos harp] at h
      simp only [bind_ok, getOr_ok, Except.ok.injEq, Option.some.injEq] at h
      obtain ⟨sip, -, tip, -, rfl⟩ := h
      exact Created.arp rfl (harp ▸ htype) rfl rfl
    · rw [if_neg harp] at h
      cases h

/-- It is NULL for the other protocols only. -/
theorem createFrameT_none {sr : SrInstance} {packet : Bytes} {ifName : IfName}
    (h : createFrameT sr packet ifName = .ok none) :
    readBe16 packet 12 ≠ some etherTypeIP ∧ readBe16 packet 12 ≠ some etherTypeARP := by
  simp only [createFrameT, bind_ok, getOr_ok] at h
  obtain ⟨shost, -, dhost, -, etherType, htype, h⟩ := h
  rw [htype, ne_eq, ne_eq, Option.some.injEq, Option.some.injEq]
  by_cases hip : etherType = etherTypeIP
  · rw [if_pos hip] at h
    simp only [bind_ok, Except.ok.injEq] at h
    obtain ⟨_, _, _, _, _, _, _, _, _, _, h⟩ := h
    cases h
  · rw [if_neg hip] at h
    refine ⟨hip, fun harp => ?_⟩
    rw [if_pos harp] at h
    simp only [bind_ok, Except.ok.injEq] at h
    obtain ⟨_, _, _, _, h⟩ := h
    cases h

/-- A frame that is long enough is read. -/
theorem createFrameT_returns {packet : Bytes} (hlong : etherHdrLen ≤ packet.length)
    (sr : SrInstance) (ifName : IfName) : ∃ created, createFrameT sr packet ifName = .ok created := by
  have hlen : etherHdrLen = 42 ∧ etherSize = 14 := ⟨rfl, rfl⟩
  obtain ⟨shost, hs⟩ := readMac_of_le (show 6 + 6 ≤ packet.length by omega)
  obtain ⟨dhost, hd⟩ := readMac_of_le (show 0 + 6 ≤ packet.length by omega)
  obtain ⟨etherType, htype⟩ := readBe16_of_lt (show 12 + 1 < packet.length by omega)
  obtain ⟨vhl, hv⟩ := getElem?_of_lt (show etherSize < packet.length by omega)
  obtain ⟨len, hl⟩ := readBe16_of_lt (show etherSize + 2 + 1 < packet.length by omega)
  obtain ⟨proto, hp⟩ := getElem?_of_lt (show etherSize + 9 < packet.length by omega)
  obtain ⟨src, hsrc⟩ := readU32_of_lt (show etherSize + 12 + 3 < packet.length by omega)
  obtain ⟨dst, hdst⟩ := readU32_of_lt (show etherSize + 16 + 3 < packet.length by omega)
  obtain ⟨sip, hsip⟩ := readU32_of_lt (show etherSize + 14 + 3 < packet.length by omega)
  obtain ⟨tip, htip⟩ := readU32_of_lt (show etherSize + 24 + 3 < packet.length by omega)
  simp only [createFrameT, hs, hd, htype, hv, hl, hp, hsrc, hdst, hsip, htip, getOr_some, ok_bind]
  split
  · exact ⟨_, rfl⟩
  · split
    · exact ⟨_, rfl⟩
    · exact ⟨_, rfl⟩

theorem arpInfo_eq {packet : Bytes} {info : ArpInfo} (h : arpInfo packet = some info) :
    etherHdrLen ≤ packet.length ∧ readBe16 packet 12 = some etherTypeARP ∧
      readMac packet (etherSize + 8) = some info.sha ∧
      readU32 packet (etherSize + 14) = some info.sip ∧
      readU32 packet (etherSize + 24) = some info.tip := by
  simp only [arpInfo, Option.bind_eq_bind, Option.bind_eq_some_iff] at h
  obtain ⟨etherType, htype, h⟩ := h
  split at h
  · cases h
  next hnot =>
    simp only [Option.bind_eq_some_iff, Option.some.injEq] at h
    obtain ⟨sha, hsha, sip, hsip, tip, htip, rfl⟩ := h
    rw [not_or, Nat.not_lt, not_not] at hnot
    exact ⟨hnot.1, hnot.2 ▸ htype, hsha, hsip, htip⟩

theorem arpInfo_of_short {packet : Bytes} (h : packet.length < etherHdrLen) :
    arpInfo packet = none := by
  cases hinfo : arpInfo packet with
  | none => rfl
  | some info => exact absurd (arpInfo_eq hinfo).1 (Nat.not_le.mpr h)

theorem arpInfo_of_ip {packet : Bytes} (h : readBe16 packet 12 = some etherTypeIP) :
    arpInfo packet = none := by
  cases hinfo : arpInfo packet with
  | none => rfl
  | some info =>
    have := (arpInfo_eq hinfo).2.1
    rw [h] at this
    exact absurd (Option.some.inj this) (by decide)

/-- The six things a call can do once the lists are flushed. -/
inductive Outcome (sr : SrInstance) (a : Arrival) (st : RouterState) : RouterState → Prop
  /-- an IP packet that is dropped or answered -/
  | answered (extra : List Sent) (hip : readBe16 a.packet 12 = some etherTypeIP)
      (hnot : ∀ incoming, ¬ Accepted sr a incoming) (hextra : ∀ s ∈ extra, s.forwards = none) :
      Outcome sr a st { st with wire := st.wire ++ extra }
  /-- an IP packet whose next hop is in the cache -/
  | direct (incoming outgoing sent : FrameT) (hop : UInt32) (incache : ArpcEntry) (iface : SrIf)
      (hacc : Accepted sr a incoming) (hupd : updateIpHdr sr incoming = .ok (outgoing, hop))
      (hhit : arpCacheLookup st.cache hop = some incache)
      (henc : encapsulate { outgoing with toMAC := some incache.arpcMac } = .ok sent)
      (hiface : outgoing.iface = some iface) :
      Outcome sr a st
        { st with
          wire := st.wire ++ [{ frame := sent.frame, iface := iface, forwards := some a }] }
  /-- an IP packet that has to wait -/
  | queued (incoming outgoing : FrameT) (hop : UInt32) (queue : List ArpqEntry) (request : Sent)
      (hacc : Accepted sr a incoming) (hupd : updateIpHdr sr incoming = .ok (outgoing, hop))
      (hmiss : arpCacheLookup st.cache hop = none) (hreq : request.forwards = none)
      (hqueue : Enqueued a.now outgoing.toIp hop
        { fromMAC := incoming.fromMAC, fromIface := incoming.iface, outgoing := outgoing,
          arrival := a } st.queue queue) :
      Outcome sr a st { st with queue := queue, wire := st.wire ++ [request] }
  /-- an ARP packet from a sender in the cache -/
  | refreshed (info : ArpInfo) (entry : ArpcEntry) (extra : List Sent)
      (hinfo : arpInfo a.packet = some info)
      (hhit : arpCacheLookup st.cache info.sip = some entry)
      (hextra : ∀ s ∈ extra, s.forwards = none) :
      Outcome sr a st
        { st with
          cache := arpCacheUpdate st.cache info.sip info.sha a.now
          wire := st.wire ++ extra }
  /-- an ARP packet from a new sender to somebody else -/
  | overheard (info : ArpInfo) (hinfo : arpInfo a.packet = some info)
      (hmiss : arpCacheLookup st.cache info.sip = none)
      (htarget : ifDstCheck sr info.tip = .ok none) :
      Outcome sr a st st
  /-- an ARP packet from a new sender to us -/
  | learned (info : ArpInfo) (target : SrIf) (sent extra : List Sent)
      (hinfo : arpInfo a.packet = some info)
      (hmiss : arpCacheLookup st.cache info.sip = none)
      (htarget : ifDstCheck sr info.tip = .ok (some target))
      (hsent : List.Forall₂ (Released info.sha)
        ((arpqNextHopLookup st.queue info.sip).elim [] ArpqEntry.arpqPackets) sent)
      (hextra : ∀ s ∈ extra, s.forwards = none) :
      Outcome sr a st
        { st with
          cache := arpCacheAdd st.cache info.sha info.sip a.now
          queue := st.queue.eraseP fun e => e.arpqNextHop == info.sip
          wire := st.wire ++ sent ++ extra }

theorem forwardPacket_outcome {sr : SrInstance} {st st' : RouterState} {a : Arrival}
    {incoming : FrameT} (hacc : Accepted sr a incoming) (hv : Verifies incoming.frame)
    (h : forwardPacket sr st a incoming = .ok st') : Outcome sr a st st' := by
  simp only [forwardPacket, bind_ok] at h
  obtain ⟨⟨outgoing, hop⟩, hupd, h⟩ := h
  obtain ⟨hout, -⟩ := updateIpHdr_spec hupd hv
  cases hhit : arpCacheLookup st.cache hop with
  | some incache =>
    simp only [hhit, bind_ok] at h
    obtain ⟨sent, henc, h⟩ := h
    rcases sendDatagram_eq h with ⟨hne, -⟩ | ⟨out, s, hs, hsend, rfl⟩
    · cases hne
    · obtain rfl := Option.some.inj hs
      obtain ⟨hiface, hframe, hfor⟩ := sendPacket_eq hsend
      rw [encapsulate_iface henc] at hiface
      have := @Outcome.direct _ _ st incoming outgoing sent hop incache s.iface hacc hupd hhit
        henc hiface
      rwa [← hframe, ← hfor] at this
  | none =>
    simp only [hhit] at h
    obtain ⟨rt, iface, hrt, hgw, -⟩ := hout.route
    rw [← hout.toIp] at hrt
    obtain ⟨queue, request, hreq, rfl, hq⟩ := queuePacket_spec ⟨rt, hrt, hgw⟩ h
    exact Outcome.queued incoming outgoing hop queue request hacc hupd hhit hreq hq

/-- `checkIp` lets a packet pass whose checksum verifies, and gives its bytes
back but for another checksum that verifies. -/
theorem checkIp_spec {f f' : FrameT} (hip : f.ipHeader = some etherSize)
    (h : checkIp f = .ok (some f')) :
    ∃ frame, f' = { f with frame := frame } ∧ frame.length = f.frame.length ∧
      (∀ i, i ≠ 24 → i ≠ 25 → frame[i]? = f.frame[i]?) ∧ Verifies f.frame ∧ Verifies frame ∧
      ∃ vhl, f.frame[etherSize]? = some vhl ∧ vhl >>> 4 = 4 := by
  simp only [checkIp, bind_ok, getOr_ok] at h
  obtain ⟨vhl, hvhl, h⟩ := h
  by_cases hversion : vhl >>> 4 = 4
  · rw [if_neg (not_not.mpr hversion)] at h
    simp only [bind_ok, getOr_ok] at h
    obtain ⟨checked, hchecked, sumField, hfield, h⟩ := h
    by_cases hzero : sumField = [0, 0]
    · rw [if_neg (not_not.mpr hzero)] at h
      simp only [bind_ok, Except.ok.injEq, Option.some.injEq] at h
      obtain ⟨out, hout, rfl⟩ := h
      obtain ⟨ip, sum, g, hip', hsum, hg, rfl⟩ := computeIpChecksum_eq hchecked
      obtain rfl : ip = etherSize := Option.some.inj (hip'.symm.trans hip)
      obtain ⟨ip, sum', g', hip', hsum', hg', rfl⟩ := computeIpChecksum_eq hout
      obtain rfl : ip = etherSize := Option.some.inj (hip'.symm.trans hip)
      simp only at hsum' hg' hfield
      subst hzero
      -- the sum was 0xffff: the field is its complement
      have hread := Buffer.read_write_same hg
      rw [le16_length, hfield, Option.some.injEq] at hread
      have hle := ipHeaderSum_le hsum
      have hfull : sum = 65535 := by
        simp only [le16, List.cons.injEq, and_true] at hread
        have h0 := congrArg UInt8.toNat hread.1
        have h1 := congrArg UInt8.toNat hread.2
        rw [UInt8.toNat_ofNat'] at h0 h1
        simp only [UInt8.toNat_ofNat] at h0 h1
        omega
      have hv : Verifies f.frame := by
        show ipHeaderSum f.frame etherSize = some 65535
        rw [hsum, hfull]
      have hother : ∀ i, i ≠ 24 → i ≠ 25 → g'[i]? = f.frame[i]? := by
        intro i h24 h25
        rw [Buffer.write_outside hg' (by simp [etherSize]; omega),
          Buffer.write_outside hg (by simp [etherSize]; omega)]
      have hlen : g'.length = f.frame.length := by
        rw [Buffer.write_length hg', Buffer.write_length hg]
      refine ⟨g', rfl, hlen, hother, hv, ?_, vhl, hvhl, hversion⟩
      have hvhl' : g[etherSize]? = some vhl := by
        rw [Buffer.write_outside hg (by simp [etherSize]), hvhl]
      -- the second sum verifies because the field was zero before it
      by_cases hin : 3 ≤ (vhl &&& 0x0f).toNat
      · have h0 : g[etherSize + 10]? = some 0 := by
          have := Buffer.read_getElem? hfield (show 0 < 2 by omega)
          simpa using this.symm
        have h1 : g[etherSize + 11]? = some 0 := by
          have := Buffer.read_getElem? hfield (show 1 < 2 by omega)
          simpa using this.symm
        exact ipHeaderSum_complement h0 h1 hsum' hvhl' hin hg'
      · apply ipHeaderSum_congr hvhl hv hlen
        intro i hlo hhi
        have : etherSize = 14 := rfl
        exact hother i (by omega) (by omega)
    · rw [if_pos hzero] at h
      cases h
  · rw [if_pos hversion] at h
    cases h

/-- What the forwarding branch sees is the packet, but for the checksum. -/
theorem Accepted.spec {sr : SrInstance} {a : Arrival} {incoming : FrameT}
    (h : Accepted sr a incoming) :
    readBe16 a.packet 12 = some etherTypeIP ∧ incoming.ipHeader = some etherSize ∧
      incoming.frame.length = a.packet.length ∧
      (∀ i, i ≠ 24 → i ≠ 25 → incoming.frame[i]? = a.packet[i]?) ∧
      Verifies a.packet ∧ Verifies incoming.frame ∧
      readU32 a.packet (etherSize + 16) = some incoming.toIp ∧
      incoming.iface = getInterface sr a.interface := by
  obtain ⟨created, hcreated, hsome, hcheck⟩ := h.created
  cases createFrameT_spec hcreated with
  | ip hframe htype hip hiface hdst =>
    obtain ⟨frame, rfl, hlen, hother, hv, hv', -⟩ := checkIp_spec hip hcheck
    rw [hframe] at hlen hother hv
    exact ⟨htype, hip, hlen, hother, hv, hv', hdst, hiface⟩
  | arp hframe htype hip hiface => simp [hip] at hsome

theorem answerArp_spec {sr : SrInstance} {st st' : RouterState} {incoming : FrameT} {op : Nat}
    (h : answerArp sr st incoming op = .ok st') :
    ∃ extra, (∀ s ∈ extra, s.forwards = none) ∧ st' = { st with wire := st.wire ++ extra } := by
  simp only [answerArp] at h
  split at h
  · simp only [bind_ok] at h
    obtain ⟨out, -, h⟩ := h
    exact sendDatagram_own h
  · exact ⟨[], by simp, by simpa using (Except.ok.inj h).symm⟩

theorem learnSender_spec {st st' : RouterState} {sip : UInt32} {sha : Mac} {now : Nat}
    (h : learnSender st sip sha now = .ok st') :
    ∃ sent, List.Forall₂ (Released sha)
        ((arpqNextHopLookup st.queue sip).elim [] ArpqEntry.arpqPackets) sent ∧
      st' = { st with
              cache := arpCacheAdd st.cache sha sip now
              queue := st.queue.eraseP fun e => e.arpqNextHop == sip
              wire := st.wire ++ sent } := by
  simp only [learnSender] at h
  cases hfind : arpqNextHopLookup st.queue sip with
  | some newEnt =>
    simp only [hfind, bind_ok, Except.ok.injEq] at h
    obtain ⟨sent, hsent, rfl⟩ := h
    exact ⟨sent, arpqEntryClear_spec hsent, rfl⟩
  | none =>
    simp only [hfind, Except.ok.injEq] at h
    have herase : st.queue.eraseP (fun e => e.arpqNextHop == sip) = st.queue :=
      List.eraseP_of_forall_not fun e he => List.find?_eq_none.mp hfind e he
    refine ⟨[], List.Forall₂.nil, ?_⟩
    rw [herase, List.append_nil]
    exact h.symm

theorem handleArp_outcome {sr : SrInstance} {st st' : RouterState} {a : Arrival}
    {incoming : FrameT} (hlen : etherHdrLen ≤ a.packet.length)
    (hframe : incoming.frame = a.packet) (htype : readBe16 a.packet 12 = some etherTypeARP)
    (h : handleArp sr st a incoming = .ok st') : Outcome sr a st st' := by
  simp only [handleArp, hframe, bind_ok, getOr_ok] at h
  obtain ⟨sha, hsha, sip, hsip, tip, htip, op, -, h⟩ := h
  have hinfo : arpInfo a.packet = some { sip := sip, sha := sha, tip := tip } := by
    simp only [arpInfo, htype, hsha, hsip, htip, Option.bind_eq_bind, Option.bind_some]
    rw [if_neg (by simp; omega)]
  cases hhit : arpCacheLookup st.cache sip with
  | some entry =>
    simp only [hhit, bind_ok] at h
    obtain ⟨target, htarget, h⟩ := h
    have hrefresh : ∃ extra, (∀ s ∈ extra, s.forwards = none) ∧
        st' = { st with
                cache := arpCacheUpdate st.cache sip sha a.now
                wire := st.wire ++ extra } := by
      cases target with
      | none => exact ⟨[], by simp, by simpa using (Except.ok.inj h).symm⟩
      | some target => exact answerArp_spec h
    obtain ⟨extra, hextra, rfl⟩ := hrefresh
    exact Outcome.refreshed _ entry extra hinfo hhit hextra
  | none =>
    simp only [hhit, bind_ok] at h
    obtain ⟨target, htarget, h⟩ := h
    cases target with
    | none =>
      obtain rfl := Except.ok.inj h
      exact Outcome.overheard _ hinfo hhit htarget
    | some target =>
      simp only [bind_ok] at h
      obtain ⟨mid, hmid, h⟩ := h
      obtain ⟨sent, hsent, rfl⟩ := learnSender_spec hmid
      obtain ⟨extra, hextra, rfl⟩ := answerArp_spec h
      exact Outcome.learned _ target sent extra hinfo hhit htarget hsent hextra

theorem handleIp_outcome {sr : SrInstance} {st st' : RouterState} {a : Arrival}
    {created : FrameT} (hlen : etherHdrLen ≤ a.packet.length)
    (hcreated : createFrameT sr a.packet a.interface = .ok (some created))
    (hsome : created.ipHeader.isSome) (h : handleIp sr st a created = .ok st') :
    Outcome sr a st st' := by
  have hunique : ∀ {incoming}, Accepted sr a incoming → checkIp created = .ok (some incoming) := by
    intro incoming hacc
    obtain ⟨c, hc, -, hcheck⟩ := hacc.created
    obtain rfl : c = created := Option.some.inj (Except.ok.inj (hc.symm.trans hcreated))
    exact hcheck
  cases createFrameT_spec hcreated with
  | arp hframe htype hip hiface => simp [hip] at hsome
  | ip hframe htype hip hiface hdst =>
    simp only [handleIp, bind_ok] at h
    obtain ⟨checked, hcheck, h⟩ := h
    cases checked with
    | none =>
      obtain rfl := Except.ok.inj h
      have := @Outcome.answered sr a st [] htype
        (fun incoming hacc => by
          have := hunique hacc
          rw [hcheck] at this
          cases this) (by simp)
      simpa using this
    | some incoming =>
      have hsame : ∀ {f}, Accepted sr a f → f = incoming := fun hacc =>
        Option.some.inj (Except.ok.inj ((hunique hacc).symm.trans hcheck))
      simp only [bind_ok] at h
      obtain ⟨ours, hours, h⟩ := h
      cases ours with
      | some target =>
        simp only [bind_ok] at h
        obtain ⟨outgoing, -, h⟩ := h
        obtain ⟨extra, hextra, rfl⟩ := sendDatagram_own h
        refine Outcome.answered extra htype (fun f hacc => ?_) hextra
        -- a packet for the router itself is not to be forwarded
        have hnot := hacc.notOurs
        rw [hsame hacc, hours] at hnot
        cases hnot
      | none =>
        simp only [bind_ok, getOr_ok] at h
        obtain ⟨ttl, httl, h⟩ := h
        by_cases hzero : ttl ≤ 0
        · rw [if_pos hzero] at h
          simp only [bind_ok] at h
          obtain ⟨outgoing, -, h⟩ := h
          obtain ⟨extra, hextra, rfl⟩ := sendDatagram_own h
          refine Outcome.answered extra htype (fun f hacc => ?_) hextra
          -- nor is one whose TTL has run out
          obtain ⟨ttl', httl', hpos⟩ := hacc.ttl
          rw [hsame hacc, httl] at httl'
          rw [← Option.some.inj httl'] at hpos
          exact absurd hpos (UInt8.not_lt.mpr hzero)
        · rw [if_neg hzero] at h
          have hacc : Accepted sr a incoming :=
            { long := hlen
              created := ⟨created, hcreated, hsome, hcheck⟩
              notOurs := hours
              ttl := ⟨ttl, httl, UInt8.not_le.mp hzero⟩ }
          obtain ⟨-, -, -, -, -, hv, -⟩ := hacc.spec
          exact forwardPacket_outcome hacc hv h

/-- The arrival a call is. -/
def Event.arrival (e : Event) (number : Nat) : Arrival :=
  { packet := e.packet, interface := e.interface, now := e.now, number := number }

/-- **What a call of `sr_handlepacket` that returns has done**: nothing, for a
packet that is too short; else it flushed both lists and then did one of the six
things of `Outcome`. -/
theorem handlepacket_cases {sr : SrInstance} {st st' : RouterState} {e : Event}
    (h : srHandlepacket sr st e.packet e.interface e.now = .ok st') :
    e.packet.length < etherHdrLen ∧ st' = { st with calls := st.calls + 1 } ∨
    etherHdrLen ≤ e.packet.length ∧
    ∃ queue flushed, arpQueueFlush sr e.now st.queue = .ok (queue, flushed) ∧
      Outcome sr (e.arrival st.calls)
        { cache := arpCacheFlush e.now st.cache, queue := queue, wire := st.wire ++ flushed,
          calls := st.calls + 1 } st' := by
  simp only [srHandlepacket] at h
  by_cases hshort : e.packet.length < etherHdrLen
  · rw [if_pos hshort] at h
    exact Or.inl ⟨hshort, (Except.ok.inj h).symm⟩
  · rw [if_neg hshort] at h
    simp only [bind_ok, getOr_ok] at h
    obtain ⟨created, hcreated, ⟨queue, flushed⟩, hflush, incoming, hsome, h⟩ := h
    refine Or.inr ⟨Nat.not_lt.mp hshort, queue, flushed, hflush, ?_⟩
    subst hsome
    by_cases hip : incoming.ipHeader.isSome
    · rw [if_pos hip] at h
      exact handleIp_outcome (Nat.not_lt.mp hshort) hcreated hip h
    · rw [if_neg hip] at h
      cases createFrameT_spec hcreated with
      | ip hframe htype hipH hiface hdst => simp [hipH] at hip
      | arp hframe htype hipH hiface =>
        exact handleArp_outcome (Nat.not_lt.mp hshort) hframe htype h

end UchiNetworks.Router
