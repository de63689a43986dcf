import UchiNetworks.Stcp.Send

/-!
# STCP: reliable delivery

`Flow b S R` is everything that ties a sending endpoint `S` to a receiving one
`R`: the two halves of `Send` and `Receive`, and the two facts about
acknowledgments that join them. No number `R` has ever put into an
acknowledgment is past its `recv_next`, so `S`'s `send_unack` is not past it
either.

Every event keeps it, at either end (`Flow.sender_event`, `Flow.receiver_event`),
as long as both stay in `CSTATE_ESTABLISHED` and no packet carries more than the
ACK flag. Two flows, one in each direction, give the delivery theorem for a
connection over a network that loses, repeats and reorders packets.
-/

namespace UchiNetworks.Stcp

open UchiNetworks.Lib

/-! ## One packet at an established endpoint -/

/-- What `handleNetworkData` has done when the teardown part starts. -/
theorem handleNetworkData_eq (ctx : Context) (packet : Option Packet) :
    handleNetworkData ctx packet =
      ((teardown (deliver (recvPacket ctx packet).1 (recvPacket ctx packet).2.2).1
          (recvPacket ctx packet).2.1).1,
       (teardown (deliver (recvPacket ctx packet).1 (recvPacket ctx packet).2.2).1
          (recvPacket ctx packet).2.1).2.1,
       ackCalls (recvPacket ctx packet).1 (recvPacket ctx packet).2.2
        ++ (deliver (recvPacket ctx packet).1 (recvPacket ctx packet).2.2).2
        ++ (teardown (deliver (recvPacket ctx packet).1 (recvPacket ctx packet).2.2).1
          (recvPacket ctx packet).2.1).2.2) := rfl

/-- Delivery writes the receive window only. -/
theorem deliver_frame (ctx : Context) (n : Int) :
    (deliver ctx n).1.connectionState = ctx.connectionState ∧
    (deliver ctx n).1.sendUnack = ctx.sendUnack ∧ (deliver ctx n).1.sendNext = ctx.sendNext ∧
    (deliver ctx n).1.sendWind = ctx.sendWind ∧ (deliver ctx n).1.recvNext = ctx.recvNext ∧
    (deliver ctx n).1.unackdPackets = ctx.unackdPackets := by
  unfold deliver
  split
  next => exact ⟨rfl, rfl, rfl, rfl, rfl, rfl⟩
  next => exact ⟨rfl, rfl, rfl, rfl, rfl, rfl⟩

theorem recvPacket_header (ctx : Context) (p : Packet) :
    (recvPacket ctx (some p)).2.1 = p.header := by
  cases h : recvPayload ctx p with
  | none => rw [recvPacket_dropped h]
  | some r => rw [recvPacket_taken h]

/-- The receive path sends nothing but pure acknowledgments. -/
theorem mem_ackCalls {ctx : Context} {n : Int} {p : Packet}
    (hp : p ∈ sentOf (ackCalls ctx n)) :
    p = makeStcpPacket TH.ack ctx.sendNext ctx.recvNext [] := by
  unfold ackCalls at hp
  split at hp
  next => simpa [sentOf] using hp
  next => simp [sentOf] at hp

@[simp] theorem takenOf_ackCalls (ctx : Context) (n : Int) : takenOf (ackCalls ctx n) = [] := by
  unfold ackCalls
  split <;> rfl

@[simp] theorem deliveredOf_ackCalls (ctx : Context) (n : Int) :
    deliveredOf (ackCalls ctx n) = [] := by
  unfold ackCalls
  split <;> rfl

@[simp] theorem takenOf_deliver (ctx : Context) (n : Int) : takenOf (deliver ctx n).2 = [] := by
  unfold deliver
  split <;> rfl

@[simp] theorem sentOf_deliver (ctx : Context) (n : Int) : sentOf (deliver ctx n).2 = [] := by
  unfold deliver
  split <;> rfl

/-- What `recv_packet` never writes, whatever it gets; of the list it may only
drop packets. -/
theorem recvPacket_frame (ctx : Context) (packet : Option Packet) :
    (recvPacket ctx packet).1.connectionState = ctx.connectionState ∧
    (recvPacket ctx packet).1.initialSequenceNum = ctx.initialSequenceNum ∧
    (recvPacket ctx packet).1.sendNext = ctx.sendNext ∧
    ∀ q ∈ (recvPacket ctx packet).1.unackdPackets, q ∈ ctx.unackdPackets := by
  cases packet with
  | none => exact ⟨rfl, rfl, rfl, fun q hq => hq⟩
  | some p =>
    cases hpay : recvPayload ctx p with
    | none =>
      rw [recvPacket_dropped hpay]
      exact ⟨rfl, rfl, rfl, fun q hq => hq⟩
    | some r =>
      obtain ⟨ctx', n⟩ := r
      rw [recvPacket_taken hpay]
      obtain ⟨hstate, hinit, -, hnext, hlist⟩ := recvPayload_frame hpay
      obtain ⟨hstate', hinit', hnext', -, -⟩ := recvHeader_frame ctx' p.header
      refine ⟨hstate'.trans hstate, hinit'.trans hinit, hnext'.trans hnext, ?_⟩
      intro q hq
      rw [← hlist]
      exact mem_recvHeader_unackd hq

theorem teardownAck_frame (ctx : Context) :
    (teardownAck ctx).1.sendNext = ctx.sendNext ∧
      (teardownAck ctx).1.unackdPackets = ctx.unackdPackets := by
  unfold teardownAck
  split <;> exact ⟨rfl, rfl⟩

theorem teardownFin_frame (ctx : Context) :
    (teardownFin ctx).1.sendNext = ctx.sendNext ∧
      (teardownFin ctx).1.unackdPackets = ctx.unackdPackets ∧
      takenOf (teardownFin ctx).2.2 = [] ∧
      ∀ p ∈ sentOf (teardownFin ctx).2.2, ∃ s a, p = makeStcpPacket TH.ack s a [] := by
  have hack : ∀ p ∈ [makeStcpPacket TH.ack ctx.sendNext (ctx.recvNext + 1) []],
      ∃ s a, p = makeStcpPacket TH.ack s a [] := fun p hp => ⟨_, _, List.mem_singleton.mp hp⟩
  unfold teardownFin
  dsimp only
  split <;> exact ⟨rfl, rfl, rfl, hack⟩

/-- Teardown keeps the list and sends nothing but acknowledgments. -/
theorem teardown_frame (ctx : Context) (h : STCPHeader) :
    (teardown ctx h).1.sendNext = ctx.sendNext ∧
    (teardown ctx h).1.unackdPackets = ctx.unackdPackets ∧
    takenOf (teardown ctx h).2.2 = [] ∧
    ∀ p ∈ sentOf (teardown ctx h).2.2, ∃ s a, p = makeStcpPacket TH.ack s a [] := by
  have hnone : ∀ p ∈ sentOf [], ∃ s a, p = makeStcpPacket TH.ack s a [] := fun p hp => by cases hp
  obtain ⟨acked, stop, hacked, hnext, hlist⟩ : ∃ acked stop,
      (if h.has TH.ack then teardownAck ctx else (ctx, false)) = (acked, stop) ∧
        acked.sendNext = ctx.sendNext ∧ acked.unackdPackets = ctx.unackdPackets := by
    split
    · exact ⟨_, _, rfl, teardownAck_frame ctx⟩
    · exact ⟨_, _, rfl, rfl, rfl⟩
  unfold teardown
  rw [hacked]
  dsimp only
  split
  · exact ⟨hnext, hlist, rfl, hnone⟩
  · split
    · obtain ⟨hnext', hlist', htaken, hsent⟩ := teardownFin_frame acked
      exact ⟨hnext'.trans hnext, hlist'.trans hlist, htaken, hsent⟩
    · exact ⟨hnext, hlist, rfl, hnone⟩

/-- The network branch sends nothing but pure acknowledgments. -/
theorem mem_handleNetworkData {ctx : Context} {packet : Option Packet} {p : Packet}
    (hp : p ∈ sentOf (handleNetworkData ctx packet).2.2) :
    ∃ s a, p = makeStcpPacket TH.ack s a [] := by
  rw [handleNetworkData_eq, sentOf_append, sentOf_append, sentOf_deliver, List.append_nil] at hp
  rcases List.mem_append.mp hp with hack | hend
  · exact ⟨_, _, mem_ackCalls hack⟩
  · obtain ⟨-, -, -, hsent⟩ := teardown_frame _ _
    exact hsent p hend

/-- What it leaves listed was listed before. -/
theorem handleNetworkData_listed {ctx : Context} {packet : Option Packet} {q : PacketT}
    (hq : q ∈ (handleNetworkData ctx packet).1.unackdPackets) : q ∈ ctx.unackdPackets := by
  obtain ⟨-, -, -, hlist⟩ := recvPacket_frame ctx packet
  obtain ⟨-, -, -, -, -, hlist'⟩ :=
    deliver_frame (recvPacket ctx packet).1 (recvPacket ctx packet).2.2
  obtain ⟨-, hlist'', -, -⟩ := teardown_frame
    (deliver (recvPacket ctx packet).1 (recvPacket ctx packet).2.2).1 (recvPacket ctx packet).2.1
  rw [handleNetworkData_eq] at hq
  simp only [hlist'', hlist'] at hq
  exact hlist q hq

/-- It takes no data from the application. -/
@[simp] theorem takenOf_handleNetworkData (ctx : Context) (packet : Option Packet) :
    takenOf (handleNetworkData ctx packet).2.2 = [] := by
  obtain ⟨-, -, htk, -⟩ := teardown_frame
    (deliver (recvPacket ctx packet).1 (recvPacket ctx packet).2.2).1 (recvPacket ctx packet).2.1
  rw [handleNetworkData_eq, takenOf_append, takenOf_append, takenOf_ackCalls, takenOf_deliver, htk]
  rfl

/-! The same of a packet that is not handled to the end. -/

theorem mem_handleEvent {ctx : Context} {packet : Option Packet} {p : Packet}
    (hp : p ∈ sentOf (handleEvent ctx (.networkData packet)).2.2) :
    ∃ s a, p = makeStcpPacket TH.ack s a [] := by
  rcases handleEvent_network ctx packet with heq | heq | heq
  · rw [heq] at hp
    cases hp
  · rw [heq] at hp
    simp only [cutShort, sentOf_append, sentOf_deliver, List.append_nil] at hp
    exact ⟨_, _, mem_ackCalls hp⟩
  · rw [heq] at hp
    exact mem_handleNetworkData hp

theorem handleEvent_listed {ctx : Context} {packet : Option Packet} {q : PacketT}
    (hq : q ∈ (handleEvent ctx (.networkData packet)).1.unackdPackets) :
    q ∈ ctx.unackdPackets := by
  rcases handleEvent_network ctx packet with heq | heq | heq
  · rw [heq] at hq
    exact hq
  · obtain ⟨-, -, -, hlist⟩ := recvPacket_frame ctx packet
    obtain ⟨-, -, -, -, -, hlist'⟩ :=
      deliver_frame (recvPacket ctx packet).1 (recvPacket ctx packet).2.2
    rw [heq] at hq
    simp only [cutShort, hlist'] at hq
    exact hlist q hq
  · rw [heq] at hq
    exact handleNetworkData_listed hq

@[simp] theorem takenOf_handleEvent_network (ctx : Context) (packet : Option Packet) :
    takenOf (handleEvent ctx (.networkData packet)).2.2 = [] := by
  rcases handleEvent_network ctx packet with heq | heq | heq
  · rw [heq]
    rfl
  · rw [heq]
    simp [cutShort]
  · rw [heq]
    exact takenOf_handleNetworkData ctx packet

/-- `send_unack` stays or takes the packet's number. -/
theorem recvPacket_sendUnack (ctx : Context) (p : Packet) :
    (recvPacket ctx (some p)).1.sendUnack = ctx.sendUnack ∨
      (recvPacket ctx (some p)).1.sendUnack = p.header.thAck := by
  cases hpay : recvPayload ctx p with
  | none =>
    rw [recvPacket_dropped hpay]
    exact Or.inl rfl
  | some r =>
    obtain ⟨ctx', n⟩ := r
    rw [recvPacket_taken hpay]
    obtain ⟨-, -, hunack, -, -⟩ := recvPayload_frame hpay
    rw [recvHeader_sendUnack]
    rcases ackPoint_cases ctx'.sendUnack p.header with hsame | ⟨-, hnew⟩
    · exact Or.inl (hsame.trans hunack)
    · exact Or.inr hnew

/-- `recv_packet` keeps the sender's half, whatever arrives. -/
theorem recvPacket_sendInv {b : Nat} {ctx : Context} {calls : List Call} (p : Packet)
    (hS : SendInv b ctx calls) : SendInv b (recvPacket ctx (some p)).1 calls := by
  cases hpay : recvPayload ctx p with
  | none =>
    rw [recvPacket_dropped hpay]
    exact hS
  | some r =>
    obtain ⟨ctx', n⟩ := r
    rw [recvPacket_taken hpay]
    obtain ⟨-, -, hunack, hnext, hlist⟩ := recvPayload_frame hpay
    have hwind : ctx'.sendWind = ctx.sendWind := by
      unfold recvPayload at hpay
      split at hpay
      next => rw [← (Prod.mk.inj (Option.some.inj hpay)).1]
      next =>
        obtain ⟨c, -, hc⟩ := Option.map_eq_some_iff.mp hpay
        rw [← (Prod.mk.inj hc).1]
    have hS' : SendInv b ctx' calls :=
      ⟨by rw [hnext]; exact hS.next, by rw [hnext, hunack]; exact hS.inflight,
        by rw [hwind, hunack, hnext]; exact hS.wind, hS.sent, by rw [hlist]; exact hS.listed⟩
    exact recvHeader_sendInv hS'

/-- `recv_packet` and delivery keep the receiver's half when a piece of the
stream arrives. -/
theorem recvPacket_recvInv {b : Nat} {T D : List UInt8} {ctx : Context} {p : Packet}
    (hR : RecvInv b T D ctx) (hp : Piece b T p) (hsyn : p.header.has TH.syn = false)
    (hsmall : b + T.length < 2 ^ 32)
    (hnear : p.data ≠ [] → p.header.thSeq.toNat < ctx.recvNext.toNat + 2 ^ 31) :
    RecvInv b T
      (D ++ deliveredOf
        (deliver (recvPacket ctx (some p)).1 (recvPacket ctx (some p)).2.2).2)
      (deliver (recvPacket ctx (some p)).1 (recvPacket ctx (some p)).2.2).1 := by
  cases hpay : recvPayload ctx p with
  | none =>
    -- beyond the window: nothing is stored and nothing passed up
    rw [recvPacket_dropped hpay]
    simpa [deliver, deliveredOf] using hR
  | some r =>
    obtain ⟨ctx', n⟩ := r
    rw [recvPacket_taken hpay]
    have hA := (recvPayload_inv hR hp hsmall hnear hpay).recvHeader hsyn
    exact deliver_inv hA hsmall

/-- A packet without a FIN does nothing to an established endpoint beyond the
receive path. -/
theorem teardown_established {ctx : Context} {h : STCPHeader}
    (hstate : ctx.connectionState = .established) (hfin : h.has TH.fin = false) :
    teardown ctx h = (ctx, false, []) := by
  cases hack : h.has TH.ack <;> simp [teardown, teardownAck, hack, hfin, hstate]

/-! ## The two ends of one direction -/

/-- An endpoint in the middle of the connection: established, and about to
resend nothing but plain segments. -/
structure Steady (ep : Endpoint) : Prop where
  state : ep.ctx.connectionState = .established
  listed : ∀ q ∈ ep.ctx.unackdPackets, q.packet.header.thFlags = TH.ack

/-- One direction of a connection, `b` being the number of the first byte. -/
structure Flow (b : Nat) (S R : Endpoint) : Prop where
  send : SendInv b S.ctx S.calls
  recv : RecvInv b S.taken R.delivered R.ctx
  unack : S.ctx.sendUnack.toNat ≤ R.ctx.recvNext.toNat
  acks : ∀ p ∈ R.sent, p.header.thAck.toNat ≤ R.ctx.recvNext.toNat

/-- A SYN carries neither data nor options nor a FIN. -/
def BareSyn (p : Packet) : Prop :=
  p.header.has TH.syn = true →
    p.data = [] ∧ p.header.thOff = offset ∧ p.header.has TH.fin = false

/-- A packet of a connection that nobody closes. -/
structure OpenPacket (p : Packet) : Prop where
  noFin : p.header.has TH.fin = false
  bare : BareSyn p

theorem not_syn_of_ack {p : Packet} (h : p.header.thFlags = TH.ack) :
    p.header.has TH.syn = false := by
  rw [STCPHeader.has, h]
  decide

/-- The ACK flag alone. -/
theorem OpenPacket.plain {p : Packet} (h : p.header.thFlags = TH.ack) : OpenPacket p := by
  refine ⟨?_, fun hsyn => ?_⟩
  · rw [STCPHeader.has, h]
    decide
  · rw [not_syn_of_ack h] at hsyn
    cases hsyn

/-- Is the event handled in `control_loop`? -/
def Endpoint.looping (ep : Endpoint) : Prop := ep.status = .running ∧ ep.ctx.timerFaults = false

instance (ep : Endpoint) : Decidable ep.looping := inferInstanceAs (Decidable (_ ∧ _))

/-- What may happen at the endpoint `ep` whose peer is `peer`: no close, and no
packet but what the peer has sent, a SYN only while the number after it is still
the next one expected. -/
def Plain (ep peer : Endpoint) (ev : Event) : Prop :=
  ev ≠ .appCloseRequested ∧
  ∀ packet, ev = .networkData packet →
    ∃ p, packet = some p ∧ p ∈ peer.sent ∧ OpenPacket p ∧
      (p.header.has TH.syn = true → ep.looping → ep.ctx.recvNext = p.header.thSeq + 1)

theorem RecvInv.mono {b : Nat} {T T' D : List UInt8} {ctx : Context}
    (h : RecvInv b T D ctx) (hT : T <+: T') : RecvInv b T' D ctx :=
  ⟨h.next, h.pre.trans hT, fits_prefix hT h.fits, h.gap⟩

theorem Flow.unack_le_next {b : Nat} {S R : Endpoint} (h : Flow b S R) :
    S.ctx.sendUnack.toNat ≤ S.ctx.sendNext.toNat := by
  have hpre := h.recv.pre.length_le
  have hunack := h.unack
  rw [h.recv.next] at hunack
  rw [h.send.next]
  exact hunack.trans (Nat.add_le_add_left hpre b)

theorem Flow.near {b : Nat} {S R : Endpoint} (h : Flow b S R) :
    S.ctx.sendNext.toNat < R.ctx.recvNext.toNat + 2 ^ 31 := by
  have hflight := h.send.inflight
  have hunack := h.unack
  omega

/-- A packet without a FIN at an established endpoint: receive it, acknowledge what
it brought, pass up what has arrived. Whether the thread goes on is open, and
whether it has got that far. -/
theorem handleEvent_plain {ctx : Context} {p : Packet}
    (hstate : ctx.connectionState = .established) (hfin : p.header.has TH.fin = false) :
    handleEvent ctx (.networkData (some p)) = (ctx, .crashed, []) ∨
    ∃ st, handleEvent ctx (.networkData (some p)) =
      ((deliver (recvPacket ctx (some p)).1 (recvPacket ctx (some p)).2.2).1, st,
        ackCalls (recvPacket ctx (some p)).1 (recvPacket ctx (some p)).2.2
          ++ (deliver (recvPacket ctx (some p)).1 (recvPacket ctx (some p)).2.2).2) := by
  rcases handleEvent_network ctx (some p) with heq | heq | heq
  · exact Or.inl heq
  · exact Or.inr ⟨_, heq⟩
  · obtain ⟨hst, -, -, -⟩ := recvPacket_frame ctx (some p)
    obtain ⟨hst', -, -, -, -, -⟩ :=
      deliver_frame (recvPacket ctx (some p)).1 (recvPacket ctx (some p)).2.2
    have htear := @teardown_established _ (recvPacket ctx (some p)).2.1
      (hst'.trans (hst.trans hstate)) (by rw [recvPacket_header]; exact hfin)
    rw [handleNetworkData_eq] at heq
    simp only [htear, List.append_nil] at heq
    exact Or.inr ⟨_, heq⟩

/-- Every packet an established endpoint sends while it handles an event
carries its `recv_next` after the event. -/
theorem handleEvent_sent_ack {ep peer : Endpoint} {ev : Event} {p : Packet}
    (hstate : ep.ctx.connectionState = .established) (hev : Plain ep peer ev)
    (hp : p ∈ sentOf (handleEvent ep.ctx ev).2.2) :
    p.header.thAck = (handleEvent ep.ctx ev).1.recvNext := by
  cases ev with
  | appData queued =>
    simp only [handleEvent] at hp ⊢
    rcases handleAppData_cases ep.ctx queued with heq | ⟨buffer, -, -, -, heq⟩
    · rw [heq] at hp
      simp [sentOf] at hp
    · rw [heq] at hp ⊢
      have hp' : p = makeStcpPacket TH.ack ep.ctx.sendNext ep.ctx.recvNext buffer := by
        simpa [sentOf] using hp
      rw [hp']
      rfl
  | networkData packet =>
    obtain ⟨q, rfl, -, hopen, -⟩ := hev.2 packet rfl
    rcases handleEvent_plain hstate hopen.noFin with heq | ⟨st, heq⟩
    · rw [heq] at hp
      cases hp
    · obtain ⟨-, -, -, -, hnext, -⟩ :=
        deliver_frame (recvPacket ep.ctx (some q)).1 (recvPacket ep.ctx (some q)).2.2
      rw [heq] at hp ⊢
      simp only [sentOf_append, sentOf_deliver, List.append_nil] at hp
      rw [mem_ackCalls hp, hnext]
      rfl
  | appCloseRequested => exact absurd rfl hev.1
  | timeout =>
    obtain ⟨q, -, rfl⟩ := mem_handleTimeout hp
    rfl

/-- **The sender takes a step.** -/
theorem Flow.sender_event {b : Nat} {S R : Endpoint} {ev : Event} (h : Flow b S R)
    (hS : Steady S) (hev : Plain S R ev) {st : Status}
    (hsmall : b + (takenOf (S.calls ++ (handleEvent S.ctx ev).2.2)).length < 2 ^ 32) :
    Flow b ⟨(handleEvent S.ctx ev).1, st, S.calls ++ (handleEvent S.ctx ev).2.2⟩ R := by
  cases ev with
  | appData queued =>
    have hsend := handleAppData_inv queued h.send h.unack_le_next hsmall
    have hunack : (handleAppData S.ctx queued).1.sendUnack = S.ctx.sendUnack := by
      rcases handleAppData_cases S.ctx queued with heq | ⟨buffer, -, -, -, heq⟩
      · rw [heq]
      · rw [heq]
        rfl
    refine ⟨hsend, h.recv.mono ?_, ?_, h.acks⟩
    · show takenOf S.calls <+: takenOf (S.calls ++ _)
      rw [takenOf_append]
      exact List.prefix_append _ _
    · show (handleAppData S.ctx queued).1.sendUnack.toNat ≤ _
      rw [hunack]
      exact h.unack
  | networkData packet =>
    obtain ⟨p, rfl, hsent, hopen, -⟩ := hev.2 packet rfl
    rcases handleEvent_plain hS.state hopen.noFin with heq | ⟨st', heq⟩
    · rw [heq, List.append_nil]
      exact ⟨h.send, h.recv, h.unack, h.acks⟩
    rw [heq]
    -- a packet of the receiver: an acknowledgment of what it has
    have hun := recvPacket_sendUnack S.ctx p
    obtain ⟨-, hun', hnext', hwind', -, hlist'⟩ :=
      deliver_frame (recvPacket S.ctx (some p)).1 (recvPacket S.ctx (some p)).2.2
    have hrecv := recvPacket_sendInv p h.send
    have htk : takenOf (S.calls ++ (ackCalls (recvPacket S.ctx (some p)).1
        (recvPacket S.ctx (some p)).2.2 ++
          (deliver (recvPacket S.ctx (some p)).1 (recvPacket S.ctx (some p)).2.2).2))
        = takenOf S.calls := by simp
    refine ⟨⟨?_, ?_, ?_, ?_, ?_⟩, ?_, ?_, h.acks⟩
    · rw [htk, hnext']
      exact hrecv.next
    · rw [hnext', hun']
      exact hrecv.inflight
    · rw [hwind', hun', hnext']
      exact hrecv.wind
    · rw [htk]
      intro q hq hsyn
      simp only [sentOf_append, sentOf_deliver, List.append_nil] at hq
      rcases List.mem_append.mp hq with hold | hnew
      · exact h.send.sent q hold hsyn
      · rw [mem_ackCalls hnew]
        exact hrecv.piece_nil TH.ack _
    · rw [htk, hlist']
      exact hrecv.listed
    · show RecvInv b (takenOf _) _ _
      rw [htk]
      exact h.recv
    · show (deliver _ _).1.sendUnack.toNat ≤ _
      rw [hun']
      rcases hun with heq | heq
      · rw [heq]
        exact h.unack
      · rw [heq]
        exact h.acks p hsent
  | appCloseRequested => exact absurd rfl hev.1
  | timeout =>
    have htk : takenOf (S.calls ++ (handleTimeout S.ctx).2.2) = takenOf S.calls := by simp
    -- what is sent again is in the account already
    refine ⟨handleTimeout_inv h.send, ?_, h.unack, h.acks⟩
    show RecvInv b (takenOf (S.calls ++ (handleTimeout S.ctx).2.2)) _ _
    rw [htk]
    exact h.recv

/-- A SYN whose number is the one before `recv_next` changes nothing there. -/
theorem RecvInv.syn {b : Nat} {T D : List UInt8} {ctx : Context} {p : Packet}
    (h : RecvInv b T D ctx) (hdata : p.data = []) (hoff : p.header.thOff = offset)
    (hsyn : p.header.has TH.syn = true) (hfirst : ctx.recvNext = p.header.thSeq + 1) :
    RecvInv b T
      (D ++ deliveredOf
        (deliver (recvPacket ctx (some p)).1 (recvPacket ctx (some p)).2.2).2)
      (deliver (recvPacket ctx (some p)).1 (recvPacket ctx (some p)).2.2).1 := by
  obtain ⟨-, -, -, hbuf, hind⟩ := recvHeader_frame ctx p.header
  have hnext : (recvHeader ctx p.header).recvNext = ctx.recvNext := by
    rw [recvHeader_recvNext, if_pos hsyn, hfirst]
  rw [recvPacket_taken (recvPayload_bare hoff hdata)]
  simpa [deliver, deliveredOf] using h.of_eq hnext hbuf hind

/-- **The receiver takes a step.** -/
theorem Flow.receiver_event {b : Nat} {S R : Endpoint} {ev : Event} (h : Flow b S R)
    (hR : Steady R) (hloop : R.looping) (hev : Plain R S ev) {st : Status}
    (hsmall : b + S.taken.length < 2 ^ 32) :
    Flow b S ⟨(handleEvent R.ctx ev).1, st, R.calls ++ (handleEvent R.ctx ev).2.2⟩ := by
  -- the receive half of the connection after the event
  have hrecv : RecvInv b S.taken (deliveredOf (R.calls ++ (handleEvent R.ctx ev).2.2))
      (handleEvent R.ctx ev).1 := by
    rw [deliveredOf_append]
    by_cases hown : ∀ packet, ev ≠ .networkData packet
    · obtain ⟨hnext, hbuf, hind, hdel, -⟩ := handleEvent_own hown
      rw [hdel, List.append_nil]
      exact h.recv.of_eq hnext hbuf hind
    · obtain ⟨packet, rfl⟩ : ∃ packet, ev = .networkData packet := by
        by_contra hno
        exact hown fun packet heq => hno ⟨packet, heq⟩
      obtain ⟨p, rfl, hsent, hopen, hfirst⟩ := hev.2 packet rfl
      rcases handleEvent_plain hR.state hopen.noFin with heq | ⟨st', heq⟩
      · rw [heq]
        simpa [deliveredOf] using h.recv
      rw [heq, deliveredOf_append, deliveredOf_ackCalls, List.nil_append]
      cases hsyn : p.header.has TH.syn with
      | true => exact h.recv.syn (hopen.bare hsyn).1 (hopen.bare hsyn).2.1 hsyn (hfirst hsyn hloop)
      | false =>
        have hpiece := h.send.sent p hsent hsyn
        have hnear := h.near
        have hhi := hpiece.hi
        have hlo := hpiece.lo
        have hnext := h.send.next
        exact recvPacket_recvInv h.recv hpiece hsyn hsmall fun _ => by omega
  -- `recv_next` has not gone back
  have hup : R.ctx.recvNext.toNat ≤ (handleEvent R.ctx ev).1.recvNext.toNat := by
    rw [h.recv.next, hrecv.next, deliveredOf_append, List.length_append]
    exact Nat.add_le_add_left (Nat.le_add_right _ _) b
  refine ⟨h.send, hrecv, h.unack.trans hup, ?_⟩
  intro p hp
  have hp' : p ∈ sentOf R.calls ++ sentOf (handleEvent R.ctx ev).2.2 := by
    rw [← sentOf_append]
    exact hp
  rcases List.mem_append.mp hp' with hold | hnew
  · exact (h.acks p hold).trans hup
  · rw [handleEvent_sent_ack hR.state hev hnew]

/-- An established endpoint stays so, and sends plain packets only. -/
theorem Steady.event {ep peer : Endpoint} {ev : Event} (h : Steady ep) (hev : Plain ep peer ev)
    (st : Status) (calls : List Call) :
    Steady ⟨(handleEvent ep.ctx ev).1, st, calls⟩ ∧
    ∀ p ∈ sentOf (handleEvent ep.ctx ev).2.2, p.header.thFlags = TH.ack := by
  cases ev with
  | appData queued =>
    simp only [handleEvent]
    rcases handleAppData_cases ep.ctx queued with heq | ⟨buffer, -, -, -, heq⟩
    · rw [heq]
      exact ⟨h.casesOn fun hst hl => ⟨hst, hl⟩, by simp [sentOf]⟩
    · rw [heq]
      refine ⟨⟨h.state, ?_⟩, ?_⟩
      · intro q hq
        rcases List.mem_append.mp hq with hold | hnew
        · exact h.listed q hold
        · rw [List.mem_singleton.mp hnew]
          rfl
      · intro p hp
        have hp' : p = makeStcpPacket TH.ack ep.ctx.sendNext ep.ctx.recvNext buffer := by
          simpa [sentOf] using hp
        rw [hp']
        rfl
  | networkData packet =>
    obtain ⟨p, rfl, -, hopen, -⟩ := hev.2 packet rfl
    rcases handleEvent_plain h.state hopen.noFin with heq | ⟨st', heq⟩
    · rw [heq]
      exact ⟨⟨h.state, h.listed⟩, fun q hq => by cases hq⟩
    rw [heq]
    obtain ⟨hst, -, -, hlist⟩ := recvPacket_frame ep.ctx (some p)
    obtain ⟨hst', -, -, -, -, hlist'⟩ :=
      deliver_frame (recvPacket ep.ctx (some p)).1 (recvPacket ep.ctx (some p)).2.2
    refine ⟨⟨hst'.trans (hst.trans h.state), ?_⟩, ?_⟩
    · intro q hq
      simp only [hlist'] at hq
      exact h.listed q (hlist q hq)
    · intro q hq
      simp only [sentOf_append, sentOf_deliver, List.append_nil] at hq
      rw [mem_ackCalls hq]
      rfl
  | appCloseRequested => exact absurd rfl hev.1
  | timeout =>
    refine ⟨⟨h.state, ?_⟩, ?_⟩
    · intro q' hq'
      obtain ⟨q, hq, rfl⟩ := List.mem_map.mp hq'
      exact h.listed q hq
    · intro p hp
      obtain ⟨q, hq, rfl⟩ := mem_handleTimeout hp
      exact h.listed q hq

/-! ## A connection -/

/-- Both ends are past the handshake, and data flows both ways. -/
structure Connected (b : Side → Nat) (s : System) : Prop where
  status : ∀ i, (s i).status ≠ .opening
  steady : ∀ i, Steady (s i)
  flow : ∀ i, Flow (b i) (s i) (s i.other)

theorem Flow.of_eq {b : Nat} {S S' R R' : Endpoint} (h : Flow b S R) (hS : S'.ctx = S.ctx)
    (hSc : S'.calls = S.calls) (hR : R'.ctx = R.ctx) (hRc : R'.calls = R.calls) :
    Flow b S' R' := by
  obtain ⟨hsend, hrecv, hunack, hacks⟩ := h
  refine ⟨by rw [hS, hSc]; exact hsend, ?_, by rw [hS, hR]; exact hunack, ?_⟩
  · show RecvInv b (takenOf S'.calls) (deliveredOf R'.calls) R'.ctx
    rw [hSc, hRc, hR]
    exact hrecv
  · show ∀ p ∈ sentOf R'.calls, _
    rw [hRc, hR]
    exact hacks

/-- **One event at an established endpoint** keeps both directions. -/
theorem Flow.pair_step {bS bR : Nat} {S R : Endpoint} {ev : Event} (hopen : S.status ≠ .opening)
    (hsteady : Steady S) (hsend : Flow bS S R) (hrecv : Flow bR R S) (hev : Plain S R ev)
    (hS : bS + (S.step ev).taken.length < 2 ^ 32) (hR : bR + R.taken.length < 2 ^ 32) :
    Steady (S.step ev) ∧ Flow bS (S.step ev) R ∧ Flow bR R (S.step ev) := by
  rcases Endpoint.step_cases hopen ev with ⟨-, hctx, hcalls, -⟩ | ⟨hrun, htimer, heq⟩
  · exact ⟨⟨by rw [hctx]; exact hsteady.state, by rw [hctx]; exact hsteady.listed⟩,
      hsend.of_eq hctx hcalls rfl rfl, hrecv.of_eq rfl rfl hctx hcalls⟩
  · rw [heq] at hS ⊢
    exact ⟨(hsteady.event hev _ _).1, hsend.sender_event hsteady hev hS,
      hrecv.receiver_event hsteady ⟨hrun, htimer⟩ hev hR⟩

/-- What such an endpoint sends: plain packets with its `recv_next`. -/
theorem Steady.step_sent {S R : Endpoint} {ev : Event} (hopen : S.status ≠ .opening)
    (hsteady : Steady S) (hev : Plain S R ev) :
    ∃ new, (S.step ev).calls = S.calls ++ new ∧ ∀ p ∈ sentOf new,
      p.header.thFlags = TH.ack ∧ p.header.thAck = (S.step ev).ctx.recvNext := by
  rcases Endpoint.step_cases hopen ev with ⟨-, -, hcalls, -⟩ | ⟨-, -, heq⟩
  · exact ⟨[], by rw [hcalls, List.append_nil], by simp [sentOf]⟩
  · rw [heq]
    exact ⟨_, rfl, fun p hp => ⟨(hsteady.event hev .running []).2 p hp,
      handleEvent_sent_ack hsteady.state hev hp⟩⟩

/-- **One event keeps the connection.** -/
theorem Connected.step {b : Side → Nat} {s : System} {i : Side} {ev : Event}
    (h : Connected b s) (hev : Plain (s i) (s i.other) ev)
    (hsmall : ∀ j, b j + (s.step (i, ev) j).taken.length < 2 ^ 32) :
    Connected b (s.step (i, ev)) := by
  have hsame : s.step (i, ev) i = (s i).step ev := s.step_same i ev
  have hother : s.step (i, ev) i.other = s i.other := s.step_other i ev
  have hi := hsmall i
  have ho := hsmall i.other
  rw [hsame] at hi
  rw [hother] at ho
  have hback := h.flow i.other
  rw [Side.other_other] at hback
  obtain ⟨hsteady, hsend, hrecv⟩ :=
    (h.flow i).pair_step (h.status i) (h.steady i) hback hev hi ho
  refine ⟨?_, ?_, ?_⟩
  · intro j
    rcases Side.eq_or_other i j with rfl | rfl
    · rw [hsame]; exact Endpoint.step_not_opening (h.status _) ev
    · rw [hother]; exact h.status _
  · intro j
    rcases Side.eq_or_other i j with rfl | rfl
    · rw [hsame]; exact hsteady
    · rw [hother]; exact h.steady _
  · intro j
    rcases Side.eq_or_other i j with rfl | rfl
    · rw [hsame, hother]; exact hsend
    · rw [hother, Side.other_other, hsame]; exact hrecv

/-- Neither application closes; the network delivers what was sent. -/
def Unclosed (s : System) (ev : Side × Event) : Prop :=
  ev.2 ≠ .appCloseRequested ∧ Deliverable s ev

instance (s : System) (ev : Side × Event) : Decidable (Unclosed s ev) :=
  inferInstanceAs (Decidable (_ ∧ _))

/-- A SYN or SYN/ACK reaches `control_loop` only while the number after it is
still the next one expected. -/
def NothingSince (s : System) (ev : Side × Event) : Prop :=
  ∀ p, ev.2 = .networkData (some p) → p.header.has TH.syn = true → (s ev.1).looping →
    (s ev.1).ctx.recvNext = p.header.thSeq + 1

instance NothingSince.decidable (s : System) : ∀ ev, Decidable (NothingSince s ev)
  | (i, .networkData (some p)) =>
    decidable_of_iff (p.header.has TH.syn = true → (s i).looping →
        (s i).ctx.recvNext = p.header.thSeq + 1)
      ⟨fun h _ hp => (by cases hp; exact h), fun h => h p rfl⟩
  | (_, .networkData none) => isTrue fun _ hp => by cases hp
  | (_, .appData _) => isTrue fun _ hp => by cases hp
  | (_, .appCloseRequested) => isTrue fun _ hp => by cases hp
  | (_, .timeout) => isTrue fun _ hp => by cases hp

/-- An event keeps the connection, and puts no FIN on the way. -/
theorem Connected.step_open {b : Side → Nat} {s : System} {ev : Side × Event}
    (hok : Unclosed s ev) (hsyn : NothingSince s ev)
    (hsmall : ∀ j, b j + (s.step ev j).taken.length < 2 ^ 32)
    (h : Connected b s ∧ ∀ j, ∀ p ∈ (s j).sent, OpenPacket p) :
    Connected b (s.step ev) ∧ ∀ j, ∀ p ∈ (s.step ev j).sent, OpenPacket p := by
  obtain ⟨hcon, hall⟩ := h
  obtain ⟨i, e⟩ := ev
  have hev : Plain (s i) (s i.other) e := by
    refine ⟨hok.1, ?_⟩
    rintro packet rfl
    obtain ⟨p, hp, rfl⟩ := hok.2
    exact ⟨p, rfl, hp, hall i.other p hp, hsyn p rfl⟩
  refine ⟨hcon.step hev hsmall, ?_⟩
  intro j p hp
  rcases Side.eq_or_other i j with rfl | rfl
  · obtain ⟨new, hcalls, hnew⟩ := (hcon.steady j).step_sent (hcon.status j) hev
    rw [System.step_same, Endpoint.sent, hcalls, sentOf_append] at hp
    rcases List.mem_append.mp hp with hold | hp
    · exact hall j p hold
    · exact OpenPacket.plain (hnew p hp).1
  · rw [System.step_other] at hp
    exact hall _ p hp

/-- What the handshake may have sent, and the network may still have: the SYN or
SYN/ACK with the number before the first byte, and ACKs with the current numbers. -/
def HandshakePacket (ctx : Context) (p : Packet) : Prop :=
  p = makeStcpPacket TH.syn (ctx.sendNext - 1) 0 [] ∨
  p = makeStcpPacket (TH.syn ||| TH.ack) (ctx.sendNext - 1) ctx.recvNext [] ∨
  p = makeStcpPacket TH.ack ctx.sendNext ctx.recvNext []

/-- Two endpoints that have just entered the loop with agreeing numbers. -/
structure Agreeing (s : System) : Prop where
  running : ∀ i, (s i).status = .running
  state : ∀ i, (s i).ctx.connectionState = .established
  sendUnack : ∀ i, (s i).ctx.sendUnack = (s i).ctx.sendNext
  recvNext : ∀ i, (s i.other).ctx.recvNext = (s i).ctx.sendNext
  window : ∀ i k, (s i).ctx.recvIndicator k = false
  listed : ∀ i, (s i).ctx.unackdPackets = []
  taken : ∀ i, (s i).taken = []
  delivered : ∀ i, (s i).delivered = []
  wire : ∀ i, ∀ p ∈ (s i).sent, HandshakePacket (s i).ctx p
  /-- the scan for the end of what has arrived stops at `winLen` -/
  stops : ∀ i n, (s i).ctx.rto n = 0

theorem HandshakePacket.open {ctx : Context} {p : Packet} (h : HandshakePacket ctx p) :
    OpenPacket p := by
  rcases h with rfl | rfl | rfl
  · have hfin : (TH.syn &&& TH.fin != 0) = false := by decide
    exact ⟨hfin, fun _ => ⟨rfl, rfl, hfin⟩⟩
  · have hfin : ((TH.syn ||| TH.ack) &&& TH.fin != 0) = false := by decide
    exact ⟨hfin, fun _ => ⟨rfl, rfl, hfin⟩⟩
  · exact OpenPacket.plain rfl

/-- None of them acknowledges more than has been received. -/
theorem HandshakePacket.thAck_le {ctx : Context} {p : Packet} (h : HandshakePacket ctx p) :
    p.header.thAck.toNat ≤ ctx.recvNext.toNat := by
  rcases h with rfl | rfl | rfl
  · exact Nat.zero_le _
  · exact Nat.le_refl _
  · exact Nat.le_refl _

theorem HandshakePacket.piece {ctx : Context} {p : Packet} (h : HandshakePacket ctx p)
    (hsyn : p.header.has TH.syn = false) : Piece ctx.sendNext.toNat [] p := by
  rcases h with rfl | rfl | rfl
  · exact absurd (makeStcpPacket_has .. ▸ hsyn) (by decide)
  · exact absurd (makeStcpPacket_has .. ▸ hsyn) (by decide)
  · exact ⟨rfl, by simp, Nat.le_refl _, by simp, by simp⟩

theorem Agreeing.connected {s : System} (h : Agreeing s) :
    Connected (fun i => (s i).ctx.sendNext.toNat) s := by
  refine ⟨fun i => by rw [h.running i]; decide, ?_, ?_⟩
  · intro i
    refine ⟨h.state i, ?_⟩
    rw [h.listed i]
    intro q hq
    cases hq
  · intro i
    have htk : takenOf (s i).calls = [] := h.taken i
    have hnext : (s i).ctx.sendNext.toNat
        = (s i).ctx.sendNext.toNat + (takenOf (s i).calls).length := by
      rw [htk]
      rfl
    refine ⟨⟨hnext, by rw [h.sendUnack i]; omega, Or.inr (h.sendUnack i), ?_, ?_⟩,
      ⟨?_, ?_, fits_empty (h.window i.other), h.window i.other 0⟩, ?_, ?_⟩
    · intro p hp hsyn
      rw [htk]
      exact (h.wire i p hp).piece hsyn
    · rw [h.listed i]
      intro q hq
      cases hq
    · rw [h.recvNext i, h.delivered i.other]
      rfl
    · rw [h.delivered i.other]
      exact List.nil_prefix
    · rw [h.recvNext i, h.sendUnack i]
    · exact fun p hp => (h.wire i.other p hp).thAck_le

/-- **Reliable delivery.** Whatever else the network does with the packets it is
given, as long as no SYN comes back once something has been received after it: the
receiving application has a prefix of what the sending one wrote, and no byte counts
as acknowledged before it has been passed up. -/
theorem delivery_in_order {s₀ : System} {evs : List (Side × Event)} (hstart : Agreeing s₀)
    (hrun : Along System.step Unclosed s₀ evs) (hsyn : Along System.step NothingSince s₀ evs)
    (hwrap : ∀ i, (s₀ i).ctx.sendNext.toNat + (run System.step s₀ evs i).taken.length < 2 ^ 32)
    (i : Side) :
    (run System.step s₀ evs i.other).delivered <+: (run System.step s₀ evs i).taken ∧
    ∀ k, (s₀ i).ctx.sendNext.toNat + k < (run System.step s₀ evs i).ctx.sendUnack.toNat →
      k < (run System.step s₀ evs i.other).delivered.length := by
  have hsmall : Along System.step (fun s ev => ∀ j,
      (s₀ j).ctx.sendNext.toNat + (s.step ev j).taken.length < 2 ^ 32) s₀ evs := by
    refine along_of_last
      (fun s : System => ∀ j, (s₀ j).ctx.sendNext.toNat + (s j).taken.length < 2 ^ 32) ?_ hwrap
    intro s ev hs j
    exact Nat.lt_of_le_of_lt (Nat.add_le_add_left (s.taken_step_le ev j) _) (hs j)
  -- the connection and, with it, that no FIN is ever under way
  have hinv : Connected (fun j => (s₀ j).ctx.sendNext.toNat) (run System.step s₀ evs) ∧
      ∀ j, ∀ p ∈ (run System.step s₀ evs j).sent, OpenPacket p := by
    refine run_invariant (fun s => Connected (fun j => (s₀ j).ctx.sendNext.toNat) s ∧
        ∀ j, ∀ p ∈ (s j).sent, OpenPacket p) ?_ (along_and.mpr ⟨along_and.mpr ⟨hrun, hsyn⟩, hsmall⟩)
        ⟨hstart.connected, fun j p hp => (hstart.wire j p hp).open⟩
    rintro s ev ⟨⟨hok, hfirst⟩, hle⟩ hs
    exact Connected.step_open hok hfirst hle hs
  have hflow := hinv.1.flow i
  refine ⟨hflow.recv.pre, ?_⟩
  intro k hk
  have hunack := hflow.unack
  rw [hflow.recv.next] at hunack
  omega

/-- An endpoint that has just been greeted by its peer. -/
def greeted (mine theirs : TcpSeq) : Endpoint :=
  { ctx := { Context.init mine (fun _ => 0) with
      connectionState := .established, sendUnack := mine, sendNext := mine,
      sendWind := BitVec.ofNat 32 winLen, recvNext := theirs }
    status := .running
    calls := [] }

/-- The left side connects. -/
def greeting : List (Side × Event) :=
  [ (.right, .networkData (some (makeStcpPacket TH.syn 1 0 []))),
    (.left, .networkData (some (makeStcpPacket (TH.syn ||| TH.ack) 101 2 []))),
    (.right, .networkData (some (makeStcpPacket TH.ack 2 102 []))) ]

def greetedPair : System :=
  run System.step (opening leftActive firstNumbers underASecond) greeting

theorem greetedPair_agreeing : Agreeing greetedPair := by
  constructor
  case window => rintro (_ | _) k <;> rfl
  case stops => rintro (_ | _) n <;> rfl
  case wire =>
    rintro (_ | _) p hp
    · rcases List.mem_pair.mp (show p ∈ [_, _] from hp) with rfl | rfl
      · exact Or.inl rfl
      · exact Or.inr (Or.inr rfl)
    · rw [List.mem_singleton.mp (show p ∈ [_] from hp)]
      exact Or.inr (Or.inl rfl)
  all_goals rintro (_ | _) <;> rfl

/-- Two segments, the second of which overtakes the first; then the second
again, the SYN/ACK again, and an acknowledgment. -/
def overtaking : List (Side × Event) :=
  [ (.left, .appData [104, 105]), (.left, .appData [33]),
    (.right, .networkData (some (makeStcpPacket TH.ack 4 102 [33]))),
    (.right, .networkData (some (makeStcpPacket TH.ack 2 102 [104, 105]))),
    (.right, .networkData (some (makeStcpPacket TH.ack 4 102 [33]))),
    (.left, .networkData (some (makeStcpPacket (TH.syn ||| TH.ack) 101 2 []))),
    (.left, .networkData (some (makeStcpPacket TH.ack 102 5 []))) ]

theorem delivery_in_order_overtaking :
    (run System.step greetedPair overtaking .right).delivered
        <+: (run System.step greetedPair overtaking .left).taken ∧
    ∀ k, 2 + k < (run System.step greetedPair overtaking .left).ctx.sendUnack.toNat →
      k < (run System.step greetedPair overtaking .right).delivered.length :=
  delivery_in_order greetedPair_agreeing (by decide +kernel) (by decide +kernel)
    (by rintro (_ | _) <;> decide +kernel) .left

/-- The right side sends a byte; the SYN/ACK comes again after it, and so does the
byte. -/
def rewound : List (Side × Event) :=
  [ (.right, .appData [97]),
    (.left, .networkData (some (makeStcpPacket TH.ack 102 2 [97]))),
    (.left, .networkData (some (makeStcpPacket (TH.syn ||| TH.ack) 101 2 []))),
    (.left, .networkData (some (makeStcpPacket TH.ack 102 2 [97]))) ]

/-- The byte is passed up twice. -/
theorem byte_delivered_twice :
    Agreeing greetedPair ∧ Along System.step Unclosed greetedPair rewound ∧
    (∀ i, (greetedPair i).ctx.sendNext.toNat
      + (run System.step greetedPair rewound i).taken.length < 2 ^ 32) ∧
    ¬ (run System.step greetedPair rewound .left).delivered
      <+: (run System.step greetedPair rewound .right).taken :=
  ⟨greetedPair_agreeing, by decide +kernel, by rintro (_ | _) <;> decide +kernel,
    by decide +kernel⟩

end UchiNetworks.Stcp
