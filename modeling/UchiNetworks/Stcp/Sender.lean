import Mathlib.Data.List.TakeWhile
import UchiNetworks.Stcp.Delivery
import UchiNetworks.Stcp.Shift

/-!
# STCP: the send side by itself

Four fields of the context are the sender's: `send_unack`, `send_next`,
`send_wind` and the list of unacknowledged packets. What an event does to them
depends on nothing else (`handleNetworkData_sendSide_eq`, `handleEvent_sendSide_eq`,
and the branches of the other events), so the send side is a small machine of its own,
and the handshake ends with it in one known state (`Greeting.network`).
-/

namespace UchiNetworks.Stcp

open UchiNetworks.Lib

/-- The sender's fields of `context_t`. -/
structure SendSide where
  unack : TcpSeq
  next : TcpSeq
  wind : TcpSeq
  listed : List PacketT

def Context.sendSide (ctx : Context) : SendSide :=
  ⟨ctx.sendUnack, ctx.sendNext, ctx.sendWind, ctx.unackdPackets⟩

/-- A header is looked at. -/
def SendSide.hear (s : SendSide) (h : STCPHeader) : SendSide where
  unack := ackPoint s.unack h
  next := s.next
  wind := if h.thWin.toNat ≤ winLen then h.thWin.setWidth 32 else BitVec.ofNat 32 winLen
  listed := s.listed.dropWhile (PacketT.acked (ackPoint s.unack h))

theorem SendSide.hear_wind (s : SendSide) (h : STCPHeader) : (s.hear h).wind.toNat ≤ winLen := by
  unfold hear
  split
  next hw =>
    have hmod : h.thWin.toNat % 4294967296 ≤ h.thWin.toNat := Nat.mod_le _ _
    rw [BitVec.toNat_setWidth]
    exact Nat.le_trans hmod hw
  next => exact (show (BitVec.ofNat 32 winLen).toNat ≤ winLen by decide)

/-! ## What the branches do to it -/

theorem recvPayload_sendSide {ctx ctx' : Context} {p : Packet} {n : Int}
    (h : recvPayload ctx p = some (ctx', n)) : ctx'.sendSide = ctx.sendSide := by
  unfold recvPayload at h
  split at h
  next => rw [(Prod.mk.inj (Option.some.inj h)).1]
  next =>
    obtain ⟨c, -, hc⟩ := Option.map_eq_some_iff.mp h
    rw [← (Prod.mk.inj hc).1]
    rfl

theorem recvHeader_sendSide (ctx : Context) (h : STCPHeader) :
    (recvHeader ctx h).sendSide = ctx.sendSide.hear h := by
  rw [recvHeader_eq]
  rfl

/-- A datagram beyond the window is not looked at any further. -/
theorem recvPacket_beyond {ctx : Context} {p : Packet} (h : Beyond ctx p) :
    recvPacket ctx (some p) = (ctx, p.header, -1) :=
  recvPacket_dropped (recvPayload_eq_none.mpr h)

theorem recvPacket_sendSide {ctx : Context} {p : Packet} (h : ¬ Beyond ctx p) :
    (recvPacket ctx (some p)).1.sendSide = ctx.sendSide.hear p.header := by
  cases hpay : recvPayload ctx p with
  | none => exact absurd (recvPayload_eq_none.mp hpay) h
  | some r =>
    obtain ⟨ctx', n⟩ := r
    rw [recvPacket_taken hpay, recvHeader_sendSide, recvPayload_sendSide hpay]

theorem deliver_sendSide (ctx : Context) (n : Int) : (deliver ctx n).1.sendSide = ctx.sendSide := by
  unfold deliver
  split
  next => rfl
  next => rfl

theorem teardown_sendSide_eq (ctx : Context) (h : STCPHeader) :
    (teardown ctx h).1.sendSide = ctx.sendSide := by
  unfold teardown teardownAck teardownFin
  cases h.has TH.ack <;> cases h.has TH.fin <;>
    cases hst : ctx.connectionState <;> simp [hst, Context.sendSide]

/-- **Network data** moves the send side by the packet's header alone, and not at
all if the packet is beyond the window. -/
theorem handleNetworkData_sendSide_eq (ctx : Context) (p : Packet) :
    (Beyond ctx p ∧ (handleNetworkData ctx (some p)).1.sendSide = ctx.sendSide) ∨
    (¬ Beyond ctx p ∧
      (handleNetworkData ctx (some p)).1.sendSide = ctx.sendSide.hear p.header) := by
  rw [handleNetworkData_eq, teardown_sendSide_eq, deliver_sendSide]
  by_cases h : Beyond ctx p
  · rw [recvPacket_beyond h]
    exact Or.inl ⟨h, rfl⟩
  · exact Or.inr ⟨h, recvPacket_sendSide h⟩

/-- The same when the packet is not handled to the end, or not at all. -/
theorem handleEvent_sendSide_eq (ctx : Context) (p : Packet) :
    (handleEvent ctx (.networkData (some p))).1.sendSide = ctx.sendSide ∨
    (¬ Beyond ctx p ∧
      (handleEvent ctx (.networkData (some p))).1.sendSide = ctx.sendSide.hear p.header) := by
  rcases handleEvent_network ctx (some p) with heq | heq | heq
  · rw [heq]
    exact Or.inl rfl
  · rw [heq]
    by_cases h : Beyond ctx p
    · simp only [cutShort, deliver_sendSide, recvPacket_beyond h]
      exact Or.inl trivial
    · simp only [cutShort, deliver_sendSide]
      exact Or.inr ⟨h, recvPacket_sendSide h⟩
  · rw [heq]
    rcases handleNetworkData_sendSide_eq ctx p with ⟨-, hside⟩ | hside
    · exact Or.inl hside
    · exact Or.inr hside

/-- New data and a close request are added to the list. -/
theorem listed_handleEvent {ctx : Context} {ev : Event} {q : PacketT}
    (hev : (∃ queued, ev = .appData queued) ∨ ev = .appCloseRequested)
    (hq : q ∈ ctx.unackdPackets) : q ∈ (handleEvent ctx ev).1.unackdPackets := by
  rcases hev with ⟨queued, rfl⟩ | rfl
  · rcases handleAppData_cases ctx queued with heq | ⟨buffer, -, -, -, heq⟩
    · simp only [handleEvent, heq]
      exact hq
    · simp only [handleEvent, heq]
      exact List.mem_append_left _ hq
  · simp only [handleEvent, handleClose]
    split
    next => exact List.mem_append_left _ hq
    next => exact List.mem_append_left _ hq
    next => exact hq

theorem takenOf_of_noRecv {calls : List Call} (h : ∀ bs, .appRecv bs ∉ calls) :
    takenOf calls = [] := by
  unfold takenOf
  rw [List.flatMap_eq_nil_iff]
  intro c hc
  cases c with
  | appRecv bs => exact absurd hc (h bs)
  | networkSend p => rfl
  | appSend bs => rfl
  | finReceived => rfl

/-! ## The handshake -/

-- `MAX_INIT_SEQ`
def maxInitSeq : Nat := 256

theorem succ_lt_of_iss {iss : TcpSeq} (h : iss.toNat < maxInitSeq) :
    iss.toNat + 1 < 4294967296 := by
  unfold maxInitSeq at h
  omega

/-- An endpoint in `transport_init`: the only packets listed are its own SYN or
SYN/ACK, and `send_unack` is the first number or one that the peer has
acknowledged (`acked`). -/
structure Greeting (iss : TcpSeq) (acked : TcpSeq → Prop) (ep : Endpoint) : Prop where
  initial : ep.ctx.initialSequenceNum = iss
  noRecv : ∀ bs, .appRecv bs ∉ ep.calls
  state : (ep.ctx.connectionState = .closed ∧ ep.ctx.unackdPackets = []) ∨
    ((ep.ctx.connectionState = .synSent ∨ ep.ctx.connectionState = .synReceived) ∧
      ep.ctx.sendNext = iss + 1 ∧ (ep.ctx.sendUnack = iss ∨ acked ep.ctx.sendUnack))
  listed : ∀ q ∈ ep.ctx.unackdPackets, q.seqNum = iss ∧ q.packet.data = []

/-- How `control_loop` finds the send side: the SYN is acknowledged, and nothing
is listed. -/
structure Greeted (iss : TcpSeq) (acked : TcpSeq → Prop) (ep : Endpoint) : Prop where
  state : ep.ctx.connectionState = .established
  noRecv : ∀ bs, .appRecv bs ∉ ep.calls
  next : ep.ctx.sendNext = iss + 1
  unack : iss + 1 ≤ ep.ctx.sendUnack
  acked : acked ep.ctx.sendUnack
  wind : ep.ctx.sendWind.toNat ≤ winLen
  listed : ep.ctx.unackdPackets = []

/-- What the peer has acknowledged, with one more event. -/
def AckedWith (acked : TcpSeq → Prop) (packet : Option Packet) (a : TcpSeq) : Prop :=
  acked a ∨ ∃ p, packet = some p ∧ p.header.has TH.ack = true ∧ p.header.thAck = a

/-- `send_unack` after `recv_packet` is what it was, or acknowledged by the packet. -/
theorem recvPacket_acked (ctx : Context) (packet : Option Packet) :
    (recvPacket ctx packet).1.sendUnack = ctx.sendUnack ∨
      ∃ p, packet = some p ∧ p.header.has TH.ack = true ∧
        p.header.thAck = (recvPacket ctx packet).1.sendUnack := by
  cases packet with
  | none => exact Or.inl rfl
  | some p =>
    by_cases hbeyond : Beyond ctx p
    · rw [recvPacket_beyond hbeyond]
      exact Or.inl rfl
    · have hunack := congrArg SendSide.unack (recvPacket_sendSide hbeyond)
      rcases ackPoint_cases ctx.sendUnack p.header with hsame | ⟨hack, hnew⟩
      · exact Or.inl (hunack.trans hsame)
      · exact Or.inr ⟨p, rfl, hack, (hunack.trans hnew).symm⟩

/-- What completes the handshake acknowledges the SYN. -/
theorem greeted_of_ack {iss : TcpSeq} {acked : TcpSeq → Prop} {ep : Endpoint} {p : Packet}
    {new : List Call} (hwrap : iss.toNat + 1 < 4294967296) (h : Greeting iss acked ep)
    (hnext : ep.ctx.sendNext = iss + 1)
    (hunack : ep.ctx.sendUnack = iss ∨ acked ep.ctx.sendUnack)
    (htaken : 0 ≤ (recvPacket ep.ctx (some p)).2.2) (hack : p.header.has TH.ack = true)
    (hnum : p.header.thAck = (recvPacket ep.ctx (some p)).1.sendNext)
    (hnew : ∀ bs, .appRecv bs ∉ new) :
    Greeted iss (AckedWith acked (some p))
      ⟨{ (recvPacket ep.ctx (some p)).1 with connectionState := .established }, .running,
        ep.calls ++ new⟩ := by
  -- it has been taken, so it lies in the window
  have hin : ¬ Beyond ep.ctx p := by
    intro hbeyond
    rw [recvPacket_beyond hbeyond] at htaken
    exact absurd (show (0 : Int) ≤ -1 from htaken) (by decide)
  have hside := recvPacket_sendSide hin
  have hnext' : (recvPacket ep.ctx (some p)).1.sendNext = iss + 1 :=
    (congrArg SendSide.next hside).trans hnext
  have hpoint := congrArg SendSide.unack hside
  have hthAck : p.header.thAck = iss + 1 := hnum.trans hnext'
  have hup : iss + 1 ≤ (recvPacket ep.ctx (some p)).1.sendUnack := by
    have hle := thAck_le_ackPoint ep.ctx.sendUnack hack
    rw [hthAck] at hle
    rw [show (recvPacket ep.ctx (some p)).1.sendUnack = _ from hpoint]
    exact hle
  have hval : (iss + 1).toNat = iss.toNat + 1 := by
    rw [BitVec.toNat_add]
    exact Nat.mod_eq_of_lt hwrap
  have hupNat : iss.toNat + 1 ≤ (recvPacket ep.ctx (some p)).1.sendUnack.toNat := by
    rw [← hval]
    exact hup
  refine ⟨rfl, ?_, hnext', hup, ?_, ?_, ?_⟩
  · intro bs hmem
    rcases List.mem_append.mp hmem with hold | hmem'
    · exact h.noRecv bs hold
    · exact hnew bs hmem'
  · rcases recvPacket_acked ep.ctx (some p) with hsame | hnew'
    · rcases hunack with hfirst | hseen
      · -- the number cannot have stayed at the first one
        rw [hsame, hfirst] at hupNat
        omega
      · exact Or.inl (by rw [show (recvPacket ep.ctx (some p)).1.sendUnack = _ from hsame]; exact hseen)
    · exact Or.inr hnew'
  · have hwind := congrArg SendSide.wind hside
    rw [show (recvPacket ep.ctx (some p)).1.sendWind = _ from hwind]
    exact ep.ctx.sendSide.hear_wind p.header
  · have hlist := congrArg SendSide.listed hside
    rw [show (recvPacket ep.ctx (some p)).1.unackdPackets = _ from hlist]
    show ep.ctx.unackdPackets.dropWhile _ = []
    rw [List.dropWhile_eq_nil_iff]
    intro q hq
    obtain ⟨hseq, hdata⟩ := h.listed q hq
    -- the SYN is the only packet listed, with the first number
    rw [PacketT.acked, hseq, hdata, decide_eq_true_eq]
    have hpointNat : iss.toNat + 1 ≤ (ackPoint ep.ctx.sendUnack p.header).toNat := by
      rw [show (recvPacket ep.ctx (some p)).1.sendUnack = _ from hpoint] at hupNat
      exact hupNat
    show iss.toNat + 0 ≤ (ackPoint ep.ctx.sendUnack p.header).toNat
    omega

/-- The counters as the server sets them before it waits for a SYN. -/
def Context.rewind (ctx : Context) : Context :=
  { ctx with sendUnack := ctx.initialSequenceNum, sendNext := ctx.initialSequenceNum }

theorem not_appRecv_append {old new : List Call} (hold : ∀ bs, Call.appRecv bs ∉ old)
    (hnew : ∀ bs, Call.appRecv bs ∉ new) (bs : List UInt8) : .appRecv bs ∉ old ++ new := by
  intro hmem
  rcases List.mem_append.mp hmem with hmem | hmem
  · exact hold bs hmem
  · exact hnew bs hmem

theorem not_appRecv_send (p : Packet) (bs : List UInt8) : Call.appRecv bs ∉ [.networkSend p] := by
  intro hmem
  cases List.mem_singleton.mp hmem

/-- The server waits for a SYN. -/
theorem Greeting.awaitSyn {iss : TcpSeq} {acked : TcpSeq → Prop} {ep : Endpoint}
    (h : Greeting iss acked ep) (hst : ep.ctx.connectionState = .closed)
    (hempty : ep.ctx.unackdPackets = []) (packet : Option Packet) :
    (awaitSyn ep.ctx packet).2.1 = .opening ∧
    Greeting iss (AckedWith acked packet) ⟨(Stcp.awaitSyn ep.ctx packet).1,
      (Stcp.awaitSyn ep.ctx packet).2.1, ep.calls ++ (Stcp.awaitSyn ep.ctx packet).2.2⟩ := by
  obtain ⟨hstate, hinit, hnext, hlist⟩ := recvPacket_frame ep.ctx.rewind packet
  have hnone : (recvPacket ep.ctx.rewind packet).1.unackdPackets = [] := by
    apply List.eq_nil_iff_forall_not_mem.mpr
    intro q hq
    have hold : q ∈ ep.ctx.unackdPackets := hlist q hq
    rw [hempty] at hold
    exact absurd hold List.not_mem_nil
  rcases awaitSyn_cases ep.ctx packet with heq | ⟨hok, hflags, heq⟩
  · rw [heq]
    refine ⟨rfl, hinit.trans h.initial, not_appRecv_append h.noRecv (fun _ => List.not_mem_nil),
      Or.inl ⟨hstate.trans hst, hnone⟩, ?_⟩
    intro q hq
    have hq' : q ∈ (recvPacket ep.ctx.rewind packet).1.unackdPackets := hq
    rw [hnone] at hq'
    exact absurd hq' List.not_mem_nil
  · rw [heq]
    -- the SYN is answered; the answer is listed twice over
    refine ⟨rfl, hinit.trans h.initial, not_appRecv_append h.noRecv (not_appRecv_send _),
      Or.inr ⟨Or.inr rfl, ?_, ?_⟩, ?_⟩
    · show (recvPacket ep.ctx.rewind packet).1.sendNext + 1 = iss + 1
      rw [hnext]
      exact congrArg (· + 1) h.initial
    · rcases recvPacket_acked ep.ctx.rewind packet with hsame | hnew
      · exact Or.inl (hsame.trans h.initial)
      · exact Or.inr (Or.inr hnew)
    · intro q hq
      have hq' : q ∈ (recvPacket ep.ctx.rewind packet).1.unackdPackets ++ [_] ++ [_] := hq
      rw [hnone] at hq'
      have hseq : (recvPacket ep.ctx.rewind packet).1.sendNext = iss := hnext.trans h.initial
      rcases List.mem_cons.mp hq' with hq' | hq'
      · rw [hq']
        exact ⟨hseq, rfl⟩
      · rw [List.mem_singleton.mp hq']
        exact ⟨hseq, rfl⟩

/-- `recv_packet` in the two loops that wait for an acknowledgment, when it does
not complete the handshake. -/
theorem Greeting.wait {iss : TcpSeq} {acked : TcpSeq → Prop} {ep : Endpoint}
    (h : Greeting iss acked ep)
    (hst : ep.ctx.connectionState = .synSent ∨ ep.ctx.connectionState = .synReceived)
    (hnext : ep.ctx.sendNext = iss + 1)
    (hunack : ep.ctx.sendUnack = iss ∨ acked ep.ctx.sendUnack) (packet : Option Packet) :
    Greeting iss (AckedWith acked packet)
      ⟨(recvPacket ep.ctx packet).1, .opening, ep.calls ++ []⟩ := by
  obtain ⟨hstate, hinit, hnext', hlist⟩ := recvPacket_frame ep.ctx packet
  refine ⟨hinit.trans h.initial, not_appRecv_append h.noRecv (fun _ => List.not_mem_nil),
    Or.inr ⟨by rw [hstate]; exact hst, hnext'.trans hnext, ?_⟩,
    fun q hq => h.listed q (hlist q hq)⟩
  rcases recvPacket_acked ep.ctx packet with hsame | hnew
  · rcases hunack with hfirst | hseen
    · exact Or.inl (hsame.trans hfirst)
    · exact Or.inr (Or.inl (by rw [hsame]; exact hseen))
  · exact Or.inr (Or.inr hnew)

/-- **One packet in the handshake**: the endpoint goes on waiting, faults, or is
established. -/
theorem Greeting.network {iss : TcpSeq} {acked : TcpSeq → Prop} {ep : Endpoint}
    (hwrap : iss.toNat + 1 < 4294967296) (h : Greeting iss acked ep) (packet : Option Packet) :
    let ep' : Endpoint := ⟨(openNetworkData ep.ctx packet).1, (openNetworkData ep.ctx packet).2.1,
      ep.calls ++ (openNetworkData ep.ctx packet).2.2⟩
    (ep'.status = .opening ∧ Greeting iss (AckedWith acked packet) ep') ∨
      ep'.status = .crashed ∨
      (ep'.status = .running ∧ Greeted iss (AckedWith acked packet) ep') := by
  by_cases hover : recvOverruns ep.ctx packet = true
  · refine Or.inr (Or.inl ?_)
    unfold openNetworkData
    rw [if_pos hover]
  rcases h.state with ⟨hst, hempty⟩ | ⟨hst, hnext, hunack⟩
  · have hopen : openNetworkData ep.ctx packet = Stcp.awaitSyn ep.ctx packet := by
      unfold openNetworkData
      rw [if_neg hover, hst]
    rw [hopen]
    exact Or.inl (h.awaitSyn hst hempty packet)
  · have hwait := h.wait hst hnext hunack packet
    unfold openNetworkData
    rw [if_neg hover]
    rcases hst with hst | hst
    · -- the client waits for the SYN/ACK
      rw [hst]
      simp only
      split
      next => exact Or.inr (Or.inl rfl)
      next =>
        rcases awaitSynAck_cases ep.ctx packet with heq | ⟨hok, -, hack, hnum, heq⟩
        · rw [heq]
          exact Or.inl ⟨rfl, hwait⟩
        · rw [heq]
          refine Or.inr (Or.inr ⟨rfl, ?_⟩)
          cases packet with
          | none => exact absurd (show (0 : Int) ≤ -1 from hok) (by decide)
          | some p =>
            rw [recvPacket_header] at hack hnum
            exact greeted_of_ack hwrap h hnext hunack hok hack hnum (not_appRecv_send _)
    · -- the server waits for the ACK
      rw [hst]
      simp only
      split
      next => exact Or.inr (Or.inl rfl)
      next =>
        rcases awaitAck_cases ep.ctx packet with heq | ⟨hok, hack, hnum, heq⟩
        · rw [heq]
          exact Or.inl ⟨rfl, hwait⟩
        · rw [heq]
          refine Or.inr (Or.inr ⟨rfl, ?_⟩)
          cases packet with
          | none => exact absurd (show (0 : Int) ≤ -1 from hok) (by decide)
          | some p =>
            rw [recvPacket_header] at hack hnum
            exact greeted_of_ack hwrap h hnext hunack hok hack hnum (fun _ => List.not_mem_nil)

theorem Greeting.mono {iss : TcpSeq} {acked acked' : TcpSeq → Prop} {ep : Endpoint}
    (h : Greeting iss acked ep) (hmono : ∀ a, acked a → acked' a) : Greeting iss acked' ep := by
  refine ⟨h.initial, h.noRecv, ?_, h.listed⟩
  rcases h.state with hst | ⟨hst, hnext, hunack⟩
  · exact Or.inl hst
  · exact Or.inr ⟨hst, hnext, hunack.imp_right (hmono _)⟩

theorem transportInit_greeting (isActive : Bool) (iss : TcpSeq) (rto : Nat → UInt8)
    (acked : TcpSeq → Prop) :
    (transportInit isActive iss rto).status = .opening ∧
    Greeting iss acked (transportInit isActive iss rto) := by
  cases isActive with
  | true =>
    refine ⟨rfl, rfl, ?_, Or.inr ⟨Or.inl rfl, rfl, Or.inl rfl⟩, ?_⟩
    · intro bs hmem
      cases List.mem_singleton.mp hmem
    · intro q hq
      rw [List.mem_singleton.mp (show q ∈ [_] from hq)]
      exact ⟨rfl, rfl⟩
  | false =>
    refine ⟨rfl, rfl, fun _ => List.not_mem_nil, Or.inl ⟨rfl, rfl⟩, ?_⟩
    intro q hq
    cases hq

end UchiNetworks.Stcp
