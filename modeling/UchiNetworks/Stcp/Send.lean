import UchiNetworks.Stcp.Receive

/-!
# STCP: what the sender knows

`SendInv b ctx calls` is the sender's half: `send_next` is the number after the
last byte taken from the application, everything ever sent and everything still
listed for retransmission is a piece of the bytes taken, and less than half the
number space is in flight. The last point needs no bound on the window the
connection starts with: a window of `2 ^ 31` or more makes `open_window`
negative as long as nothing is in flight, and nothing is sent until the peer
has advertised a smaller one (`SendInv.wind`).

SYN packets are no pieces of the stream, so they are left out here.
-/

namespace UchiNetworks.Stcp

open UchiNetworks.Lib

structure SendInv (b : Nat) (ctx : Context) (calls : List Call) : Prop where
  next : ctx.sendNext.toNat = b + (takenOf calls).length
  inflight : ctx.sendNext.toNat < ctx.sendUnack.toNat + 2 ^ 31
  wind : ctx.sendWind.toNat < 2 ^ 31 ∨ ctx.sendUnack = ctx.sendNext
  sent : ∀ p ∈ sentOf calls, p.header.has TH.syn = false → Piece b (takenOf calls) p
  listed : ∀ q ∈ ctx.unackdPackets, q.packet.header.has TH.syn = false →
    Piece b (takenOf calls) q.packet

/-- A packet without payload at `send_next` is a (trivial) piece. -/
theorem SendInv.piece_nil {b : Nat} {ctx : Context} {calls : List Call}
    (h : SendInv b ctx calls) (f : BitVec 8) (a : TcpSeq) :
    Piece b (takenOf calls) (makeStcpPacket f ctx.sendNext a []) := by
  have hnext := h.next
  refine ⟨rfl, by simp, ?_, ?_, ?_⟩
  · simp only [makeStcpPacket_thSeq]
    omega
  · simp only [makeStcpPacket_thSeq, makeStcpPacket_data, List.length_nil]
    omega
  · simp

/-- The window arithmetic: what is sent next keeps less than half the number
space in flight. -/
theorem SendInv.room {b n : Nat} {ctx : Context} {calls : List Call} (h : SendInv b ctx calls)
    (hle : ctx.sendUnack.toNat ≤ ctx.sendNext.toNat) (hpos : 0 < n)
    (hn : (n : Int) ≤ (ctx.sendWind - (ctx.sendNext - ctx.sendUnack)).toInt) :
    ctx.sendWind.toNat < 2 ^ 31 ∧
      ctx.sendNext.toNat + n ≤ ctx.sendUnack.toNat + ctx.sendWind.toNat := by
  have hflight := h.inflight
  have hu := ctx.sendNext.isLt
  have hw := ctx.sendWind.isLt
  have hf : (ctx.sendNext - ctx.sendUnack).toNat
      = ctx.sendNext.toNat - ctx.sendUnack.toNat := by
    rw [BitVec.toNat_sub]
    omega
  have hwind : ctx.sendWind.toNat < 2 ^ 31 := by
    rcases h.wind with hlt | heq
    · exact hlt
    · -- nothing in flight: a window of half the space or more reads as negative
      rw [heq, BitVec.sub_self, BitVec.sub_zero, BitVec.toInt_eq_toNat_cond] at hn
      split at hn
      next hlt => omega
      next => omega
  refine ⟨hwind, ?_⟩
  rcases Nat.lt_or_ge ctx.sendWind.toNat (ctx.sendNext - ctx.sendUnack).toNat with hlt | hge
  · rw [toInt_sub_behind hlt (by omega)] at hn
    omega
  · rw [toInt_sub_ahead hge (by omega)] at hn
    omega

/-- **Sending** keeps the sender's half. -/
theorem handleAppData_inv {b : Nat} {ctx : Context} {calls : List Call} (queued : List UInt8)
    (h : SendInv b ctx calls) (hle : ctx.sendUnack.toNat ≤ ctx.sendNext.toNat)
    (hsmall : b + (takenOf (calls ++ (handleAppData ctx queued).2)).length < 2 ^ 32) :
    SendInv b (handleAppData ctx queued).1 (calls ++ (handleAppData ctx queued).2) := by
  rcases handleAppData_cases ctx queued with heq | ⟨buffer, hpos, hmax, hwin, heq⟩
  · rw [heq, List.append_nil]
    exact h
  · obtain ⟨hwind, hroom⟩ := h.room hle hpos hwin
    have hnext := h.next
    rw [heq] at hsmall ⊢
    have htk := takenOf_sends calls buffer
      (makeStcpPacket TH.ack ctx.sendNext ctx.recvNext buffer)
    have hst := sentOf_sends calls buffer
      (makeStcpPacket TH.ack ctx.sendNext ctx.recvNext buffer)
    rw [htk, List.length_append] at hsmall
    -- the new packet carries exactly the bytes just taken
    have hpiece : Piece b (takenOf calls ++ buffer)
        (makeStcpPacket TH.ack ctx.sendNext ctx.recvNext buffer) := by
      have hseq : ctx.sendNext.toNat - b = (takenOf calls).length := by omega
      refine ⟨rfl, hmax, by simp only [makeStcpPacket_thSeq]; omega, ?_, ?_⟩
      · simp only [makeStcpPacket_thSeq, makeStcpPacket_data, List.length_append]
        omega
      · simp only [makeStcpPacket_thSeq, makeStcpPacket_data, hseq]
        rw [List.drop_left, List.take_length]
    have hgrow : takenOf calls <+: takenOf calls ++ buffer := List.prefix_append _ _
    refine ⟨?_, ?_, Or.inl hwind, ?_, ?_⟩
    · rw [htk, List.length_append]
      simp only [BitVec.toNat_add, BitVec.toNat_ofNat]
      omega
    · simp only [packetTCreate, BitVec.toNat_add, BitVec.toNat_ofNat]
      omega
    · rw [htk, hst]
      intro p hp hsyn
      rcases List.mem_append.mp hp with hold | hnew
      · exact (h.sent p hold hsyn).mono hgrow
      · rw [List.mem_singleton.mp hnew]
        exact hpiece
    · rw [htk]
      intro q hq hsyn
      rcases List.mem_append.mp hq with hold | hnew
      · exact (h.listed q hold hsyn).mono hgrow
      · rw [List.mem_singleton.mp hnew]
        exact hpiece

/-- Sending again: the list keeps its pieces, only acknowledgment numbers and
retry counts change. -/
theorem Piece.resend {b : Nat} {T : List UInt8} {q : PacketT} (r : TcpSeq)
    (h : Piece b T q.packet) : Piece b T (q.resend r).packet :=
  ⟨h.off, h.len, h.lo, h.hi, h.slice⟩

theorem mem_handleTimeout {ctx : Context} {p : Packet}
    (hp : p ∈ sentOf (handleTimeout ctx).2.2) :
    ∃ q ∈ ctx.unackdPackets, p = (q.resend ctx.recvNext).packet := by
  obtain ⟨c, hc, hcp⟩ := List.mem_filterMap.mp hp
  obtain ⟨q', hq', rfl⟩ := List.mem_map.mp hc
  obtain ⟨q, hq, rfl⟩ := List.mem_map.mp hq'
  exact ⟨q, hq, (Option.some.inj hcp).symm⟩

@[simp] theorem takenOf_handleTimeout (ctx : Context) : takenOf (handleTimeout ctx).2.2 = [] := by
  simp [handleTimeout, takenOf, List.flatMap_eq_nil_iff]

theorem handleTimeout_inv {b : Nat} {ctx : Context} {calls : List Call}
    (h : SendInv b ctx calls) :
    SendInv b (handleTimeout ctx).1 (calls ++ (handleTimeout ctx).2.2) := by
  have htk : takenOf (calls ++ (handleTimeout ctx).2.2) = takenOf calls := by simp
  refine ⟨by rw [htk]; exact h.next, h.inflight, h.wind, ?_, ?_⟩
  · rw [htk, sentOf_append]
    intro p hp hsyn
    rcases List.mem_append.mp hp with hold | hnew
    · exact h.sent p hold hsyn
    · obtain ⟨q, hq, rfl⟩ := mem_handleTimeout hnew
      exact (h.listed q hq hsyn).resend _
  · rw [htk]
    intro q' hq' hsyn
    obtain ⟨q, hq, rfl⟩ := List.mem_map.mp hq'
    exact (h.listed q hq hsyn).resend _

/-- A received header only moves `send_unack` up and shortens the list; what it
says of the window is below half the number space. -/
theorem recvHeader_sendInv {b : Nat} {ctx : Context} {calls : List Call} {h : STCPHeader}
    (hS : SendInv b ctx calls) : SendInv b (recvHeader ctx h) calls := by
  obtain ⟨-, -, hnext, -, -⟩ := recvHeader_frame ctx h
  have hup : ctx.sendUnack.toNat ≤ (recvHeader ctx h).sendUnack.toNat :=
    recvHeader_sendUnack_ge ctx h
  have hflight := hS.inflight
  refine ⟨by rw [hnext]; exact hS.next, by rw [hnext]; omega, Or.inl ?_, hS.sent, ?_⟩
  · unfold recvHeader updateSendWind
    simp only
    split
    next hw =>
      rw [BitVec.toNat_setWidth, Nat.mod_eq_of_lt (by unfold winLen at hw; omega)]
      unfold winLen at hw
      omega
    next => decide
  · intro q hq hsyn
    exact hS.listed q (mem_recvHeader_unackd hq) hsyn

end UchiNetworks.Stcp
