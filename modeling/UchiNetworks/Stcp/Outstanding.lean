import UchiNetworks.Lib.Tiling
import UchiNetworks.Stcp.Sender

/-!
# STCP: the list of outstanding segments

Until a close, `unackd_packets` is an account of what is in flight: the segments
sent and not yet fully acknowledged, end to end, from the one that holds
`send_unack` to the one that ends at `send_next` (`Accounts`). New data is only
sent within the peer's window (`SendsInWindow`).

The invariant (`BufferInv`) keeps all segments ever sent as a ghost value; the
list is the part of them beyond `send_unack`, whatever the order of sends,
acknowledgments and timeouts (`outstanding_listed`).
-/

namespace UchiNetworks.Stcp

open UchiNetworks.Lib

/-- The numbers a packet carries, with their bytes. -/
def Packet.segment (p : Packet) : Nat × List UInt8 := (p.header.thSeq.toNat, p.data)

/-- The listed segments. -/
def Endpoint.outstanding (ep : Endpoint) : List (Nat × List UInt8) :=
  ep.ctx.unackdPackets.map fun q => q.packet.segment

/-- The peer acknowledges what has been sent, and no more. -/
def AcksSent (ep : Endpoint) : Event → Prop
  | .networkData (some p) => p.header.has TH.ack = true → p.header.thAck ≤ ep.ctx.sendNext
  | _ => True

instance AcksSent.decidable (ep : Endpoint) : ∀ ev, Decidable (AcksSent ep ev)
  | .networkData (some p) =>
    inferInstanceAs (Decidable (p.header.has TH.ack = true → p.header.thAck ≤ ep.ctx.sendNext))
  | .networkData none => isTrue trivial
  | .appData _ => isTrue trivial
  | .appCloseRequested => isTrue trivial
  | .timeout => isTrue trivial

/-- The step sends `p`, whose data has not been sent before. -/
def SendsNew (ep : Endpoint) (ev : Event) (p : Packet) : Prop :=
  ∃ new, (ep.step ev).calls = ep.calls ++ new ∧ .networkSend p ∈ new ∧
    ep.ctx.sendNext ≤ p.header.thSeq ∧ (p.data ≠ [] ∨ ∃ queued, ev = .appData queued)

/-- New data is sent in packets of the right size, and within the window. -/
def SendsInWindow (ep : Endpoint) (ev : Event) : Prop :=
  ∀ p, SendsNew ep ev p → 1 ≤ p.data.length ∧ p.data.length ≤ maxLen ∧
    ((ep.step ev).ctx.sendNext - (ep.step ev).ctx.sendUnack).toNat
      ≤ (ep.step ev).ctx.sendWind.toNat ∧
    (ep.step ev).ctx.sendWind.toNat ≤ winLen

/-- What the list says about the segments in flight. -/
structure Accounts (ep : Endpoint) : Prop where
  exact : ∀ s, s ∈ ep.outstanding ↔
    (∃ p ∈ ep.sent, p.data ≠ [] ∧ p.segment = s) ∧ ep.ctx.sendUnack.toNat < segEnd s
  covers : Covers ep.ctx.sendUnack.toNat ep.ctx.sendNext.toNat ep.outstanding
  nonempty : ep.ctx.sendUnack < ep.ctx.sendNext → ep.ctx.unackdPackets ≠ []
  resends : (sentOf (handleEvent ep.ctx .timeout).2.2).map Packet.segment = ep.outstanding

/-- In the loop, with the segments sent so far. -/
structure BufferInv (first : Nat) (segs : List (Nat × List UInt8)) (ep : Endpoint) : Prop where
  next : ep.ctx.sendNext.toNat = first + ep.taken.length
  lower : first ≤ ep.ctx.sendUnack.toNat
  upper : ep.ctx.sendUnack.toNat ≤ ep.ctx.sendNext.toNat
  room : ep.ctx.sendNext.toNat ≤ ep.ctx.sendUnack.toNat + winLen
  wind : ep.ctx.sendWind.toNat ≤ winLen
  tiles : Tiles first ep.ctx.sendNext.toNat segs
  sent : ∀ s, s ∈ segs ↔ ∃ p ∈ ep.sent, p.data ≠ [] ∧ p.segment = s
  listed : ep.outstanding = beyond ep.ctx.sendUnack.toNat segs
  seqNum : ∀ q ∈ ep.ctx.unackdPackets, q.seqNum = q.packet.header.thSeq

/-! ## What the list says -/

theorem sent_timeout (ctx : Context) :
    sentOf (handleEvent ctx .timeout).2.2
      = ctx.unackdPackets.map fun q => (q.resend ctx.recvNext).packet := by
  simp only [handleEvent, handleTimeout, sentOf, List.filterMap_map, List.map_map]
  rw [← List.filterMap_eq_map]
  rfl

theorem BufferInv.accounts {first : Nat} {segs : List (Nat × List UInt8)} {ep : Endpoint}
    (h : BufferInv first segs ep) : Accounts ep := by
  have hcovers : Covers ep.ctx.sendUnack.toNat ep.ctx.sendNext.toNat ep.outstanding := by
    rw [h.listed]
    exact h.tiles.covers h.lower h.upper
  refine ⟨?_, hcovers, ?_, ?_⟩
  · intro s
    rw [h.listed, beyond, List.mem_filter, h.sent, decide_eq_true_eq]
  · intro hlt hnil
    rcases hcovers with ⟨-, heq⟩ | ⟨s, rest, heq, -⟩
    · exact absurd hlt (BitVec.not_lt.mpr (Nat.le_of_eq heq.symm))
    · rw [Endpoint.outstanding, hnil] at heq
      cases heq
  · rw [sent_timeout, List.map_map]
    rfl

/-! ## One event in the loop -/

/-- The network branch sends packets without data. -/
theorem handleEvent_network_bare {ctx : Context} {packet : Option Packet} {p : Packet}
    (hp : p ∈ sentOf (handleEvent ctx (.networkData packet)).2.2) : p.data = [] := by
  obtain ⟨s, a, rfl⟩ := mem_handleEvent hp
  rfl

/-- Packets without data add no segment. -/
theorem sent_bare {segs : List (Nat × List UInt8)} {calls new : List Call}
    (h : ∀ s, s ∈ segs ↔ ∃ p ∈ sentOf calls, p.data ≠ [] ∧ p.segment = s)
    (hnew : ∀ p ∈ sentOf new, p.data ≠ [] → ∃ p' ∈ sentOf calls, p'.data ≠ [] ∧
      p'.segment = p.segment) (s : Nat × List UInt8) :
    s ∈ segs ↔ ∃ p ∈ sentOf (calls ++ new), p.data ≠ [] ∧ p.segment = s := by
  rw [h, sentOf_append]
  constructor
  · intro hmem
    obtain ⟨p, hp, hdata, hs⟩ := hmem
    exact ⟨p, List.mem_append_left _ hp, hdata, hs⟩
  · intro hmem
    obtain ⟨p, hp, hdata, hs⟩ := hmem
    rcases List.mem_append.mp hp with hold | hp
    · exact ⟨p, hold, hdata, hs⟩
    · obtain ⟨p', hp', hdata', hs'⟩ := hnew p hp hdata
      exact ⟨p', hp', hdata', hs'.trans hs⟩

/-- What may be sent fits in the window. -/
theorem BufferInv.fits {first n : Nat} {segs : List (Nat × List UInt8)} {ep : Endpoint}
    (h : BufferInv first segs ep) (hpos : 0 < n)
    (hn : (n : Int) ≤ (ep.ctx.sendWind - (ep.ctx.sendNext - ep.ctx.sendUnack)).toInt) :
    ep.ctx.sendNext.toNat + n ≤ ep.ctx.sendUnack.toNat + ep.ctx.sendWind.toNat := by
  have hupper := h.upper
  have hroom := h.room
  have hwind := h.wind
  have hflight : (ep.ctx.sendNext - ep.ctx.sendUnack).toNat
      = ep.ctx.sendNext.toNat - ep.ctx.sendUnack.toNat := by
    rw [BitVec.toNat_sub]
    omega
  unfold winLen at hroom hwind
  -- the difference is negative when more is in flight than the window lets
  rcases Nat.lt_or_ge ep.ctx.sendWind.toNat (ep.ctx.sendNext - ep.ctx.sendUnack).toNat with hlt | hge
  · rw [toInt_sub_behind hlt (by omega)] at hn
    omega
  · rw [toInt_sub_ahead hge (by omega)] at hn
    omega

/-- **The data branch**: the next segment, or nothing. -/
theorem BufferInv.appData {first : Nat} {segs : List (Nat × List UInt8)} {ep : Endpoint}
    (queued : List UInt8) (h : BufferInv first segs ep)
    (hwrap : first + (ep.after (.appData queued)).taken.length < 4294967296) :
    (∃ segs', BufferInv first segs' (ep.after (.appData queued))) ∧
    ∀ p, .networkSend p ∈ (handleEvent ep.ctx (.appData queued)).2.2 →
      1 ≤ p.data.length ∧ p.data.length ≤ maxLen ∧
      ((ep.after (.appData queued)).ctx.sendNext
        - (ep.after (.appData queued)).ctx.sendUnack).toNat
          ≤ (ep.after (.appData queued)).ctx.sendWind.toNat := by
  rcases handleAppData_cases ep.ctx queued with heq | ⟨buffer, hpos, hmax, hwin, heq⟩
  · have hafter : ep.after (.appData queued) = ⟨ep.ctx, .running, ep.calls⟩ := by
      simp only [Endpoint.after, handleEvent, heq, List.append_nil]
    rw [hafter]
    refine ⟨⟨segs, h.next, h.lower, h.upper, h.room, h.wind, h.tiles, h.sent, h.listed,
      h.seqNum⟩, ?_⟩
    intro p hp
    simp only [handleEvent, heq] at hp
    cases hp
  · have hfits := h.fits hpos hwin
    have hnext := h.next
    have hupper := h.upper
    have hwind := h.wind
    obtain ⟨packet, hpacket⟩ : ∃ packet, packet =
      makeStcpPacket TH.ack ep.ctx.sendNext ep.ctx.recvNext buffer := ⟨_, rfl⟩
    rw [← hpacket] at heq
    have hseg : packet.segment = (ep.ctx.sendNext.toNat, buffer) := by rw [hpacket]; rfl
    have hdata : packet.data = buffer := by rw [hpacket]; rfl
    have hseq : packet.header.thSeq = ep.ctx.sendNext := by rw [hpacket]; rfl
    have hafter : ep.after (.appData queued) =
        ⟨{ packetTCreate ep.ctx packet with
            sendNext := ep.ctx.sendNext + BitVec.ofNat 32 buffer.length }, .running,
          ep.calls ++ [.appRecv buffer, .networkSend packet]⟩ := by
      simp only [Endpoint.after, handleEvent, heq]
    have hlen : first + (ep.taken.length + buffer.length) < 4294967296 := by
      rw [hafter, Endpoint.taken, takenOf_sends, List.length_append] at hwrap
      exact hwrap
    have hadd : (ep.ctx.sendNext + BitVec.ofNat 32 buffer.length).toNat
        = ep.ctx.sendNext.toNat + buffer.length := by
      simp only [BitVec.toNat_add, BitVec.toNat_ofNat]
      omega
    rw [hafter]
    refine ⟨⟨segs ++ [(ep.ctx.sendNext.toNat, buffer)], ?_, h.lower, ?_, ?_, h.wind, ?_, ?_, ?_,
      ?_⟩, ?_⟩
    · show (ep.ctx.sendNext + BitVec.ofNat 32 buffer.length).toNat = first + (takenOf _).length
      rw [hadd, takenOf_sends, List.length_append, hnext, Nat.add_assoc]
    · show ep.ctx.sendUnack.toNat ≤ (ep.ctx.sendNext + BitVec.ofNat 32 buffer.length).toNat
      omega
    · show (ep.ctx.sendNext + BitVec.ofNat 32 buffer.length).toNat
        ≤ ep.ctx.sendUnack.toNat + winLen
      omega
    · show Tiles first (ep.ctx.sendNext + BitVec.ofNat 32 buffer.length).toNat _
      rw [hadd]
      exact h.tiles.concat hpos
    · intro s
      show _ ↔ ∃ p ∈ sentOf (ep.calls ++ [.appRecv buffer, .networkSend packet]), _
      rw [sentOf_sends, List.mem_append, h.sent]
      constructor
      · intro hs
        rcases hs with ⟨p, hp, hne, hs⟩ | hs
        · exact ⟨p, List.mem_append_left _ hp, hne, hs⟩
        · refine ⟨packet, List.mem_append_right _ (List.mem_singleton.mpr rfl), ?_, ?_⟩
          · rw [hdata]
            exact List.length_pos_iff.mp hpos
          · rw [hseg, List.mem_singleton.mp hs]
      · intro hmem
        obtain ⟨p, hp, hne, hs⟩ := hmem
        rcases List.mem_append.mp hp with hold | hp
        · exact Or.inl ⟨p, hold, hne, hs⟩
        · rw [List.mem_singleton.mp hp, hseg] at hs
          exact Or.inr (List.mem_singleton.mpr hs.symm)
    · -- the new segment starts at `send_next`, so it is beyond `send_unack`
      have hout : Endpoint.outstanding ⟨{ packetTCreate ep.ctx packet with
            sendNext := ep.ctx.sendNext + BitVec.ofNat 32 buffer.length }, .running,
          ep.calls ++ [.appRecv buffer, .networkSend packet]⟩
            = ep.outstanding ++ [(ep.ctx.sendNext.toNat, buffer)] := by
        rw [← hseg]
        exact List.map_append
      have hend : ep.ctx.sendUnack.toNat < segEnd (ep.ctx.sendNext.toNat, buffer) := by
        show ep.ctx.sendUnack.toNat < ep.ctx.sendNext.toNat + buffer.length
        omega
      rw [hout, h.listed]
      exact (beyond_concat_of_lt segs hend).symm
    · intro q hq
      rcases List.mem_append.mp (show q ∈ ep.ctx.unackdPackets ++ [_] from hq) with hold | hq
      · exact h.seqNum q hold
      · rw [List.mem_singleton.mp hq]
        exact hseq.symm
    · intro p hp
      simp only [handleEvent, heq] at hp
      have hp' : p = packet := by
        rcases List.mem_cons.mp hp with hp | hp
        · cases hp
        · exact Call.networkSend.inj (List.mem_singleton.mp hp)
      rw [hp', hdata]
      refine ⟨hpos, hmax, ?_⟩
      show (ep.ctx.sendNext + BitVec.ofNat 32 buffer.length - ep.ctx.sendUnack).toNat
        ≤ ep.ctx.sendWind.toNat
      rw [BitVec.toNat_sub, hadd]
      omega

/-- `packet_t_remove` looks at the segments only. -/
theorem segments_dropWhile {una : TcpSeq} {l : List PacketT}
    (hl : ∀ q ∈ l, q.seqNum = q.packet.header.thSeq) :
    (l.dropWhile (PacketT.acked una)).map (fun q => q.packet.segment)
      = (l.map fun q => q.packet.segment).dropWhile (fun s => decide (segEnd s ≤ una.toNat)) := by
  induction l with
  | nil => rfl
  | cons q rest ih =>
    have hq : q.acked una = decide (segEnd q.packet.segment ≤ una.toNat) := by
      rw [PacketT.acked, hl q List.mem_cons_self]
      rfl
    rw [List.map_cons, List.dropWhile_cons, List.dropWhile_cons, hq,
      ← ih fun q hq => hl q (List.mem_cons_of_mem _ hq)]
    split <;> rfl

/-- With the send side as it was, the account stands. -/
theorem BufferInv.frame {first : Nat} {segs : List (Nat × List UInt8)} {ep ep' : Endpoint}
    (h : BufferInv first segs ep) (hside : ep'.ctx.sendSide = ep.ctx.sendSide)
    (htaken : ep'.taken = ep.taken)
    (hsent : ∀ s, s ∈ segs ↔ ∃ p ∈ ep'.sent, p.data ≠ [] ∧ p.segment = s) :
    BufferInv first segs ep' := by
  have hunack : ep'.ctx.sendUnack = ep.ctx.sendUnack := congrArg SendSide.unack hside
  have hnext : ep'.ctx.sendNext = ep.ctx.sendNext := congrArg SendSide.next hside
  have hwind : ep'.ctx.sendWind = ep.ctx.sendWind := congrArg SendSide.wind hside
  have hlist : ep'.ctx.unackdPackets = ep.ctx.unackdPackets := congrArg SendSide.listed hside
  refine ⟨?_, ?_, ?_, ?_, ?_, ?_, hsent, ?_, ?_⟩
  · rw [hnext, htaken]
    exact h.next
  · rw [hunack]
    exact h.lower
  · rw [hunack, hnext]
    exact h.upper
  · rw [hunack, hnext]
    exact h.room
  · rw [hwind]
    exact h.wind
  · rw [hnext]
    exact h.tiles
  · rw [Endpoint.outstanding, hlist, hunack]
    exact h.listed
  · rw [hlist]
    exact h.seqNum

/-- **A packet is looked at**: what it acknowledges is dropped. -/
theorem BufferInv.hear {first : Nat} {segs : List (Nat × List UInt8)} {ep ep' : Endpoint}
    {p : Packet} (h : BufferInv first segs ep)
    (hok : p.header.has TH.ack = true → p.header.thAck ≤ ep.ctx.sendNext)
    (hside : ep'.ctx.sendSide = ep.ctx.sendSide.hear p.header)
    (htaken : ep'.taken = ep.taken)
    (hsent : ∀ s, s ∈ segs ↔ ∃ p ∈ ep'.sent, p.data ≠ [] ∧ p.segment = s) :
    BufferInv first segs ep' := by
  have hup : ep.ctx.sendUnack.toNat ≤ (ackPoint ep.ctx.sendUnack p.header).toNat :=
    unack_le_ackPoint ep.ctx.sendUnack p.header
  have hback : (ackPoint ep.ctx.sendUnack p.header).toNat ≤ ep.ctx.sendNext.toNat := by
    rcases ackPoint_cases ep.ctx.sendUnack p.header with hsame | ⟨hack, hnew⟩
    · rw [hsame]
      exact h.upper
    · rw [hnew]
      exact hok hack
  have hunack : ep'.ctx.sendUnack = ackPoint ep.ctx.sendUnack p.header :=
    congrArg SendSide.unack hside
  have hnext : ep'.ctx.sendNext = ep.ctx.sendNext := congrArg SendSide.next hside
  have hlist : ep'.ctx.unackdPackets = ep.ctx.unackdPackets.dropWhile
      (PacketT.acked (ackPoint ep.ctx.sendUnack p.header)) := congrArg SendSide.listed hside
  have hwind : ep'.ctx.sendWind = (ep.ctx.sendSide.hear p.header).wind :=
    congrArg SendSide.wind hside
  refine ⟨?_, ?_, ?_, ?_, ?_, ?_, hsent, ?_, ?_⟩
  · rw [hnext, htaken]
    exact h.next
  · rw [hunack]
    exact Nat.le_trans h.lower hup
  · rw [hunack, hnext]
    exact hback
  · rw [hunack, hnext]
    exact Nat.le_trans h.room (Nat.add_le_add_right hup _)
  · rw [hwind]
    exact ep.ctx.sendSide.hear_wind p.header
  · rw [hnext]
    exact h.tiles
  · rw [Endpoint.outstanding, hlist, segments_dropWhile h.seqNum, hunack]
    have hold : ep.ctx.unackdPackets.map (fun q => q.packet.segment)
        = beyond ep.ctx.sendUnack.toNat segs := h.listed
    rw [hold]
    exact h.tiles.dropWhile_beyond hup
  · intro q hq
    rw [hlist] at hq
    exact h.seqNum q ((List.dropWhile_sublist _).mem hq)

/-- **One event in the loop.** -/
theorem BufferInv.event {first : Nat} {segs : List (Nat × List UInt8)} {ep : Endpoint}
    {ev : Event} (h : BufferInv first segs ep) (hok : AcksSent ep ev)
    (hopen : ev ≠ .appCloseRequested)
    (hwrap : first + (ep.after ev).taken.length < 4294967296) :
    ∃ segs', BufferInv first segs' (ep.after ev) := by
  cases ev with
  | appData queued => exact (h.appData queued hwrap).1
  | networkData packet =>
    refine ⟨segs, ?_⟩
    have htaken : (ep.after (.networkData packet)).taken = ep.taken := by
      show takenOf (ep.calls ++ (handleEvent ep.ctx (.networkData packet)).2.2) = takenOf ep.calls
      simp
    have hsent : ∀ s, s ∈ segs ↔
        ∃ p ∈ (ep.after (.networkData packet)).sent, p.data ≠ [] ∧ p.segment = s :=
      sent_bare h.sent fun p hp hdata => absurd (handleEvent_network_bare hp) hdata
    cases packet with
    | none =>
      have hside := congrArg (fun r => r.1.sendSide) (handleEvent_none ep.ctx)
      exact h.frame hside htaken hsent
    | some p =>
      rcases handleEvent_sendSide_eq ep.ctx p with hside | ⟨-, hside⟩
      · exact h.frame hside htaken hsent
      · exact h.hear hok hside htaken hsent
  | appCloseRequested => exact absurd rfl hopen
  | timeout =>
    refine ⟨segs, ?_⟩
    have htaken : (ep.after .timeout).taken = ep.taken := by
      show takenOf (ep.calls ++ (handleTimeout ep.ctx).2.2) = takenOf ep.calls
      simp
    refine ⟨?_, h.lower, h.upper, h.room, h.wind, h.tiles, ?_, ?_, ?_⟩
    · rw [htaken]
      exact h.next
    · -- what is sent again has been sent before
      refine sent_bare h.sent ?_
      intro p hp hdata
      obtain ⟨q, hq, rfl⟩ := mem_handleTimeout hp
      have hmem : q.packet.segment ∈ ep.outstanding := List.mem_map_of_mem hq
      rw [h.listed, beyond, List.mem_filter] at hmem
      exact (h.sent _).mp hmem.1
    · show (ep.ctx.unackdPackets.map (PacketT.resend ep.ctx.recvNext)).map _ = _
      rw [List.map_map]
      exact h.listed
    · intro q' hq'
      obtain ⟨q, hq, rfl⟩ := List.mem_map.mp hq'
      exact h.seqNum q hq

/-- New data is sent by the data branch alone. -/
theorem BufferInv.sendsInWindow {first : Nat} {segs : List (Nat × List UInt8)} {ep : Endpoint}
    {ev : Event} (h : BufferInv first segs ep) (hopen : ev ≠ .appCloseRequested)
    (hwrap : first + (ep.after ev).taken.length < 4294967296) (hstep : ep.step ev = ep.after ev) :
    SendsInWindow ep ev := by
  intro p hsends
  obtain ⟨new, hcalls, hp, hseq, hnew⟩ := hsends
  rw [hstep] at hcalls ⊢
  have hcalls' : new = (handleEvent ep.ctx ev).2.2 := (List.append_cancel_left hcalls).symm
  rw [hcalls'] at hp
  have hwind : ∀ ctx : Context, ctx.sendWind = ep.ctx.sendWind → ctx.sendWind.toNat ≤ winLen := by
    intro ctx hctx
    rw [hctx]
    exact h.wind
  cases ev with
  | appData queued =>
    obtain ⟨hpos, hmax, hfit⟩ := (h.appData queued hwrap).2 p hp
    refine ⟨hpos, hmax, hfit, hwind _ ?_⟩
    rcases handleAppData_cases ep.ctx queued with heq | ⟨buffer, -, -, -, heq⟩
    · simp only [handleEvent, heq]
    · simp only [handleEvent, heq, packetTCreate]
  | networkData packet =>
    rcases hnew with hdata | ⟨queued, hev⟩
    · exact absurd (handleEvent_network_bare (List.mem_filterMap.mpr ⟨_, hp, rfl⟩)) hdata
    · cases hev
  | appCloseRequested => exact absurd rfl hopen
  | timeout =>
    -- the listed packets are all before `send_next`
    obtain ⟨q, hq, rfl⟩ := mem_handleTimeout (List.mem_filterMap.mpr ⟨_, hp, rfl⟩)
    have hmem : q.packet.segment ∈ ep.outstanding := List.mem_map_of_mem hq
    rw [h.listed, beyond, List.mem_filter] at hmem
    have hlt := h.tiles.lt_of_mem _ hmem.1
    have hle : ep.ctx.sendNext.toNat ≤ q.packet.header.thSeq.toNat := hseq
    exact absurd hlt (Nat.not_lt.mpr hle)

/-! ## The handshake -/

/-- In `transport_init` nothing but the SYN is sent, and the peer has acknowledged
no more than that. -/
structure OpenInv (iss : TcpSeq) (ep : Endpoint) : Prop where
  greeting : Greeting iss (fun a => a ≤ iss + 1) ep
  next : ep.ctx.sendNext ≤ iss + 1
  bare : ∀ p ∈ ep.sent, p.data = []

structure OutstandingInv (iss : TcpSeq) (ep : Endpoint) : Prop where
  opening : ep.status = .opening → OpenInv iss ep
  running : ep.status = .running → ∃ segs, BufferInv (iss.toNat + 1) segs ep

/-- `transport_init` sends packets without data. -/
theorem openNetworkData_bare {ctx : Context} {packet : Option Packet} {p : Packet}
    (hp : p ∈ sentOf (openNetworkData ctx packet).2.2) : p.data = [] := by
  unfold openNetworkData at hp
  split at hp
  next => cases hp
  split at hp
  next =>
    split at hp
    next => cases hp
    next =>
      rcases awaitSynAck_cases ctx packet with heq | ⟨-, -, -, -, heq⟩
      · rw [heq] at hp
        cases hp
      · rw [heq] at hp
        rw [List.mem_singleton.mp (show p ∈ [_] from hp)]
        rfl
  next =>
    rcases awaitSyn_cases ctx packet with heq | ⟨-, -, heq⟩
    · rw [heq] at hp
      cases hp
    · rw [heq] at hp
      rw [List.mem_singleton.mp (show p ∈ [_] from hp)]
      rfl
  next =>
    split at hp
    next => cases hp
    next =>
      rcases awaitAck_cases ctx packet with heq | ⟨-, -, -, heq⟩
      · rw [heq] at hp
        cases hp
      · rw [heq] at hp
        cases hp
  next => cases hp

/-- Before a SYN has come, the server's next number is its first. -/
theorem openNetworkData_closed {ctx : Context} {packet : Option Packet}
    (hst : (openNetworkData ctx packet).1.connectionState = .closed) :
    (openNetworkData ctx packet).1.sendNext = ctx.sendNext ∨
      (openNetworkData ctx packet).1.sendNext = ctx.initialSequenceNum := by
  obtain ⟨-, -, hnext, -⟩ := recvPacket_frame ctx packet
  unfold openNetworkData at hst ⊢
  split at hst
  next hover =>
    rw [if_pos hover]
    exact Or.inl rfl
  next hover =>
  rw [if_neg hover]
  split
  next =>
    split
    next => exact Or.inl rfl
    next =>
      rcases awaitSynAck_cases ctx packet with heq | ⟨-, -, -, -, heq⟩
      · rw [heq]
        exact Or.inl hnext
      · rw [heq]
        exact Or.inl hnext
  next hclosed =>
    rw [hclosed] at hst
    rcases awaitSyn_cases ctx packet with heq | ⟨-, -, heq⟩
    · rw [heq]
      exact Or.inr (recvPacket_frame ctx.rewind packet).2.2.1
    · rw [heq] at hst
      cases hst
  next =>
    split
    next => exact Or.inl rfl
    next =>
      rcases awaitAck_cases ctx packet with heq | ⟨-, -, -, heq⟩
      · rw [heq]
        exact Or.inl hnext
      · rw [heq]
        exact Or.inl hnext
  next => exact Or.inl rfl

/-- The first state of the loop. -/
theorem Greeted.bufferInv {iss : TcpSeq} {acked : TcpSeq → Prop} {ep : Endpoint}
    (hwrap : iss.toNat + 1 < 4294967296) (hacked : ∀ a, acked a → a ≤ iss + 1)
    (hbare : ∀ p ∈ ep.sent, p.data = []) (h : Greeted iss acked ep) :
    BufferInv (iss.toNat + 1) [] ep := by
  have hval : (iss + 1).toNat = iss.toNat + 1 := by
    rw [BitVec.toNat_add]
    exact Nat.mod_eq_of_lt hwrap
  have hnext : ep.ctx.sendNext.toNat = iss.toNat + 1 := by rw [h.next, hval]
  have hunack : ep.ctx.sendUnack.toNat = iss.toNat + 1 := by
    rw [← hval]
    exact Nat.le_antisymm (hacked _ h.acked) h.unack
  refine ⟨?_, Nat.le_of_eq hunack.symm, ?_, ?_, h.wind, hnext.symm, ?_, ?_, ?_⟩
  · rw [hnext, Endpoint.taken, takenOf_of_noRecv h.noRecv]
    exact (Nat.add_zero _).symm
  · rw [hunack, hnext]
  · rw [hunack, hnext]
    exact Nat.le_add_right _ _
  · intro s
    refine ⟨fun hs => absurd hs List.not_mem_nil, ?_⟩
    intro hmem
    obtain ⟨p, hp, hdata, -⟩ := hmem
    exact absurd (hbare p hp) hdata
  · rw [Endpoint.outstanding, h.listed]
    rfl
  · intro q hq
    rw [h.listed] at hq
    exact absurd hq List.not_mem_nil

/-- **One packet in the handshake.** -/
theorem OpenInv.network {iss : TcpSeq} {ep : Endpoint} {packet : Option Packet}
    (hwrap : iss.toNat + 1 < 4294967296) (h : OpenInv iss ep)
    (hok : AcksSent ep (.networkData packet)) :
    OutstandingInv iss ⟨(openNetworkData ep.ctx packet).1, (openNetworkData ep.ctx packet).2.1,
      ep.calls ++ (openNetworkData ep.ctx packet).2.2⟩ := by
  have hacked : ∀ a, AckedWith (fun a => a ≤ iss + 1) packet a → a ≤ iss + 1 := by
    intro a ha
    rcases ha with hold | ⟨p, rfl, hack, rfl⟩
    · exact hold
    · exact BitVec.le_trans (hok hack) h.next
  -- nothing the handshake sends carries data
  have hbare : ∀ p ∈ sentOf (ep.calls ++ (openNetworkData ep.ctx packet).2.2), p.data = [] := by
    intro p hp
    rw [sentOf_append] at hp
    rcases List.mem_append.mp hp with hold | hp
    · exact h.bare p hold
    · exact openNetworkData_bare hp
  rcases h.greeting.network hwrap packet with ⟨hst, hnew⟩ | hst | ⟨hst, hnew⟩
  · refine ⟨fun _ => ⟨hnew.mono hacked, ?_, hbare⟩, elsewhere (by decide) hst⟩
    rcases hnew.state with ⟨hclosed, -⟩ | ⟨-, hnext, -⟩
    · -- the server still waits for a SYN
      rcases openNetworkData_closed hclosed with hsame | hfirst
      · show (openNetworkData ep.ctx packet).1.sendNext ≤ iss + 1
        rw [hsame]
        exact h.next
      · show (openNetworkData ep.ctx packet).1.sendNext ≤ iss + 1
        rw [hfirst, h.greeting.initial]
        show iss.toNat ≤ (iss + 1).toNat
        rw [BitVec.toNat_add]
        show iss.toNat ≤ (iss.toNat + 1) % 4294967296
        rw [Nat.mod_eq_of_lt hwrap]
        exact Nat.le_succ _
    · exact BitVec.le_of_eq hnext
  · exact ⟨elsewhere (by decide) hst, elsewhere (by decide) hst⟩
  · exact ⟨elsewhere (by decide) hst,
      fun _ => ⟨[], hnew.bufferInv hwrap hacked hbare⟩⟩

/-! ## Runs -/

theorem transportInit_outstandingInv (isActive : Bool) {iss : TcpSeq} (rto : Nat → UInt8)
    (hwrap : iss.toNat + 1 < 4294967296) :
    OutstandingInv iss (transportInit isActive iss rto) := by
  obtain ⟨hst, hgreet⟩ := transportInit_greeting isActive iss rto (fun a => a ≤ iss + 1)
  have hval : (iss + 1).toNat = iss.toNat + 1 := by
    rw [BitVec.toNat_add]
    exact Nat.mod_eq_of_lt hwrap
  refine ⟨fun _ => ⟨hgreet, ?_, ?_⟩, elsewhere (by decide) hst⟩
  · cases isActive with
    | true => exact BitVec.le_refl _
    | false =>
      show iss.toNat ≤ (iss + 1).toNat
      rw [hval]
      exact Nat.le_succ _
  · intro p hp
    cases isActive with
    | true =>
      rw [List.mem_singleton.mp (show p ∈ [_] from hp)]
      rfl
    | false => cases hp

/-- What may happen in the runs of this file. -/
structure OpenStep (first : Nat) (ep : Endpoint) (ev : Event) : Prop where
  acks : AcksSent ep ev
  noClose : ev ≠ .appCloseRequested
  small : first + (ep.step ev).taken.length < 4294967296

/-- **One step**, in the handshake or in the loop. -/
theorem OutstandingInv.step {iss : TcpSeq} {ep : Endpoint} {ev : Event}
    (hok : OpenStep (iss.toNat + 1) ep ev) (h : OutstandingInv iss ep) :
    OutstandingInv iss (ep.step ev) ∧ SendsInWindow ep ev := by
  have hsmall := hok.small
  by_cases hopen : ep.status = .opening
  · have hinv := h.opening hopen
    rcases ep.step_opening hopen ev with ⟨heq, -⟩ | ⟨packet, rfl, heq⟩
    · refine ⟨by rw [heq]; exact h, ?_⟩
      intro p hsends
      obtain ⟨new, hcalls, hp, -⟩ := hsends
      rw [heq] at hcalls
      rw [show new = [] from List.self_eq_append_right.mp hcalls] at hp
      exact absurd hp List.not_mem_nil
    · refine ⟨by rw [heq]; exact hinv.network (by omega) hok.acks, ?_⟩
      intro p hsends
      obtain ⟨new, hcalls, hp, -, hnew⟩ := hsends
      rw [heq] at hcalls
      have hcalls' : new = (openNetworkData ep.ctx packet).2.2 :=
        (List.append_cancel_left hcalls).symm
      rw [hcalls'] at hp
      rcases hnew with hdata | ⟨queued, hev⟩
      · exact absurd (openNetworkData_bare (List.mem_filterMap.mpr ⟨_, hp, rfl⟩)) hdata
      · cases hev
  · have hnot := ep.step_not_opening hopen ev
    rcases Endpoint.step_cases hopen ev with ⟨-, hctx, hcalls, hst⟩ | ⟨hrun, -, heq⟩
    · refine ⟨⟨fun hop => absurd hop hnot, fun hrun => ?_⟩, ?_⟩
      · rcases hst with hsame | hcrash
        · rw [hsame] at hrun ⊢
          exact h.running hrun
        · exact elsewhere (by decide) hcrash hrun
      · intro p hsends
        obtain ⟨new, hnew, hp, -⟩ := hsends
        rw [hcalls] at hnew
        rw [show new = [] from List.self_eq_append_right.mp hnew] at hp
        exact absurd hp List.not_mem_nil
    · obtain ⟨segs, hinv⟩ := h.running hrun
      rw [heq] at hsmall
      refine ⟨⟨fun hop => absurd hop hnot, fun _ => ?_⟩,
        hinv.sendsInWindow hok.noClose hsmall heq⟩
      rw [heq]
      exact hinv.event hok.acks hok.noClose hsmall

/-- **New data is sent within the window, and `unackd_packets` accounts for all
that is in flight**, in every run without a close whose packets acknowledge only
what has been sent, as long as the numbers do not wrap. -/
theorem outstanding_listed {isActive : Bool} {iss : TcpSeq} {rto : Nat → UInt8}
    {evs : List Event}
    (hwrap : iss.toNat + 1
      + (run Endpoint.step (transportInit isActive iss rto) evs).taken.length < 4294967296)
    (hal : Along Endpoint.step AcksSent (transportInit isActive iss rto) evs)
    (hopen : .appCloseRequested ∉ evs) :
    Along Endpoint.step SendsInWindow (transportInit isActive iss rto) evs ∧
    ((run Endpoint.step (transportInit isActive iss rto) evs).status = .running →
      Accounts (run Endpoint.step (transportInit isActive iss rto) evs)) := by
  have hsmall := along_of_last
    (fun ep : Endpoint => iss.toNat + 1 + ep.taken.length < 4294967296)
    (fun ep ev h => by
      obtain ⟨new, hnew⟩ := ep.step_calls ev
      have hgrow : ep.taken.length ≤ (ep.step ev).taken.length := by
        rw [Endpoint.taken, Endpoint.taken, hnew, takenOf_append, List.length_append]
        exact Nat.le_add_right _ _
      omega) hwrap
  have hok : Along Endpoint.step (OpenStep (iss.toNat + 1)) (transportInit isActive iss rto)
      evs := by
    have hclose : ∀ (evs : List Event) (ep : Endpoint), .appCloseRequested ∉ evs →
        Along Endpoint.step (fun _ ev => ev ≠ .appCloseRequested) ep evs := by
      intro evs
      induction evs with
      | nil => intro ep _; trivial
      | cons ev evs ih =>
        intro ep hnot
        exact ⟨fun heq => hnot (heq ▸ List.mem_cons_self),
          ih _ fun hmem => hnot (List.mem_cons_of_mem _ hmem)⟩
    refine along_mono (fun ep ev h => ?_)
      (along_and.mpr ⟨hal, along_and.mpr ⟨hclose evs _ hopen, hsmall⟩⟩)
    exact ⟨h.1, h.2.1, h.2.2⟩
  have hstart :=
    transportInit_outstandingInv isActive rto (show iss.toNat + 1 < 4294967296 by omega)
  have hstep : ∀ ep ev, OpenStep (iss.toNat + 1) ep ev → OutstandingInv iss ep →
      OutstandingInv iss (ep.step ev) := fun ep ev hok h => (h.step hok).1
  refine ⟨along_of_invariant _ hstep (fun ep ev hok h => (h.step hok).2) hok hstart, ?_⟩
  intro hrun
  obtain ⟨segs, hinv⟩ := (run_invariant _ hstep hok hstart).running hrun
  exact hinv.accounts

/-- Three segments, a partial acknowledgment, one that is stale, and a timeout. -/
def sendsThree : List Event :=
  [ .networkData (some (makeStcpPacket (TH.syn ||| TH.ack) 101 2 [])),
    .appData [97, 98],
    .appData [99],
    .networkData (some (makeStcpPacket TH.ack 102 3 [])),
    .appData [100, 101],
    .networkData (some (makeStcpPacket TH.ack 102 2 [])),
    .timeout ]

theorem outstanding_listed_sendsThree :
    Along Endpoint.step SendsInWindow (transportInit true 1 (fun _ => 0)) sendsThree ∧
    ((run Endpoint.step (transportInit true 1 (fun _ => 0)) sendsThree).status = .running →
      Accounts (run Endpoint.step (transportInit true 1 (fun _ => 0)) sendsThree)) :=
  outstanding_listed (by decide +kernel) (by decide +kernel) (by decide)

end UchiNetworks.Stcp
