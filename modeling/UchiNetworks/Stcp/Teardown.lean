import UchiNetworks.Stcp.Delivery

/-!
# STCP: closing

An endpoint that has sent its FIN waits for the acknowledgment of it before it
goes on (`FIN_WAIT1` to `FIN_WAIT2`) or ends (`CLOSING` and `LAST_ACK` to
`CLOSED`). `control_loop` takes any packet with the ACK flag for that
acknowledgment, and every data segment and every acknowledgment of older data
has the flag.

So the endings are right in exactly the runs in which no other packet with the
flag arrives in those three states (`OnlyFinAcks`). The invariant is the
history of the FIN: what number it has, and that an acknowledgment of it has
been seen by the time the endpoint relies on one.
-/

namespace UchiNetworks.Stcp

open UchiNetworks.Lib

/-- The states in which a FIN waits for its acknowledgment. -/
def CState.awaitsFinAck (st : CState) : Prop := st = .finWait1 ∨ st = .closing ∨ st = .lastAck

/-- The states between sending the FIN and the end. -/
def CState.finSent (st : CState) : Prop := st.awaitsFinAck ∨ st = .finWait2

instance (st : CState) : Decidable st.awaitsFinAck := inferInstanceAs (Decidable (_ ∨ _ ∨ _))

instance (st : CState) : Decidable st.finSent := inferInstanceAs (Decidable (_ ∨ _))

/-- `p` acknowledges the endpoint's own FIN. -/
def Endpoint.finAcked (ep : Endpoint) (p : Packet) : Prop :=
  ∃ f ∈ ep.sent, f.header.has TH.fin = true ∧ p.header.thAck = f.header.thSeq + 1

instance (ep : Endpoint) (p : Packet) : Decidable (ep.finAcked p) :=
  inferInstanceAs (Decidable (∃ f ∈ ep.sent, _))

/-- `stcp_wait_for_event` passes the close request on after the last data, so
there is no application data once the FIN is out. -/
def DataBeforeClose (s : System) (ev : Side × Event) : Prop :=
  ∀ queued, ev.2 = .appData queued → ¬(s ev.1).ctx.connectionState.finSent

/-- A step leaves a waiting state, other than for another one, only on the
acknowledgment of the FIN. -/
def MovesOnFinAck (s : System) (ev : Side × Event) : Prop :=
  (s ev.1).ctx.connectionState.awaitsFinAck →
  ((s.step ev) ev.1).ctx.connectionState = .finWait2 ∨
    ((s.step ev) ev.1).ctx.connectionState = .closed →
  ∃ p, ev.2 = .networkData (some p) ∧ (s ev.1).finAcked p

/-- Does an endpoint get as far as looking at the flags of `p`? -/
def Endpoint.comesToFlags (ep : Endpoint) (p : Packet) : Prop :=
  ep.status = .running ∧ ep.ctx.timerFaults = false ∧
    recvOverruns ep.ctx (some p) = false ∧ slideOverruns ep.ctx (some p) = false

instance (ep : Endpoint) (p : Packet) : Decidable (ep.comesToFlags p) :=
  inferInstanceAs (Decidable (_ ∧ _ ∧ _ ∧ _))

/-- No packet with the ACK flag but acknowledgments of the FIN arrives at an
endpoint that waits for one. -/
def OnlyFinAcks (s : System) (ev : Side × Event) : Prop :=
  ∀ p, ev.2 = .networkData (some p) → p.header.has TH.ack = true → (s ev.1).comesToFlags p →
    (s ev.1).ctx.connectionState.awaitsFinAck → (s ev.1).finAcked p

/-- `p` acknowledges all that the endpoint has sent, when its first byte had the
number `first`: the FIN comes right after the bytes taken from the application,
and `p` acknowledges the FIN. -/
def Endpoint.allAcked (first : TcpSeq) (ep : Endpoint) (p : Packet) : Prop :=
  p.header.has TH.ack = true ∧ ep.finAcked p ∧
  ∀ f ∈ ep.sent, f.header.has TH.fin = true →
    f.header.thSeq = first + BitVec.ofNat 32 ep.taken.length

/-! ## What teardown does -/

/-- The part of the state diagram that teardown runs: the next state, and
whether the loop ends, for a packet with or without `TH_ACK` and `TH_FIN`. -/
def tearTable : CState → Bool → Bool → CState × Bool
  | .finWait1, true, true => (.closed, true)
  | .finWait1, true, false => (.finWait2, false)
  | .finWait1, false, true => (.closing, false)
  | .finWait2, _, true => (.closed, true)
  | .lastAck, true, _ => (.closed, true)
  | .closing, true, _ => (.closed, true)
  | .established, _, true => (.closeWait, false)
  | st, _, _ => (st, false)

theorem tearTable_ack {st : CState} (h : st.awaitsFinAck) (fin : Bool) :
    (tearTable st true fin).1 = .finWait2 ∨ (tearTable st true fin).1 = .closed := by
  rcases h with rfl | rfl | rfl <;> cases fin <;> decide

theorem tearTable_noAck {st : CState} (h : st.awaitsFinAck) (fin : Bool) :
    (tearTable st false fin).1 ≠ .finWait2 ∧ (tearTable st false fin).1 ≠ .closed := by
  rcases h with rfl | rfl | rfl <;> cases fin <;> decide

/-- After the FIN the loop goes on in such a state, or it ends. `FIN_WAIT2` and
the end both mean that an acknowledgment is there or has been. -/
theorem tearTable_finSent {st : CState} (h : st.finSent) (ack fin : Bool) :
    ((tearTable st ack fin).1.finSent ∧ (tearTable st ack fin).2 = false ∧
      ((tearTable st ack fin).1 = .finWait2 → st = .finWait2 ∨ ack = true ∧ st.awaitsFinAck)) ∨
    (tearTable st ack fin).2 = true ∧ (st = .finWait2 ∨ ack = true ∧ st.awaitsFinAck) := by
  unfold CState.finSent CState.awaitsFinAck at *
  rcases h with (rfl | rfl | rfl) | rfl <;> cases ack <;> cases fin <;> simp [tearTable]

theorem teardown_state (ctx : Context) (h : STCPHeader) :
    ((teardown ctx h).1.connectionState, (teardown ctx h).2.1) =
      tearTable ctx.connectionState (h.has TH.ack) (h.has TH.fin) := by
  unfold teardown teardownAck teardownFin
  cases h.has TH.ack <;> cases h.has TH.fin <;>
    cases hst : ctx.connectionState <;> simp [hst, tearTable]

/-- The sender's side over a whole network event. -/
theorem handleNetworkData_sendSide (ctx : Context) (p : Packet) :
    (handleNetworkData ctx (some p)).1.sendNext = ctx.sendNext ∧
    (∀ q ∈ (handleNetworkData ctx (some p)).1.unackdPackets, q ∈ ctx.unackdPackets) ∧
    takenOf (handleNetworkData ctx (some p)).2.2 = [] ∧
    (∀ q ∈ sentOf (handleNetworkData ctx (some p)).2.2, q.header.thFlags = TH.ack) ∧
    ((handleNetworkData ctx (some p)).1.connectionState, (handleNetworkData ctx (some p)).2.1) =
      tearTable ctx.connectionState (p.header.has TH.ack) (p.header.has TH.fin) := by
  obtain ⟨hst, -, hnext, -⟩ := recvPacket_frame ctx (some p)
  obtain ⟨hst', -, hnext', -⟩ :=
    deliver_frame (recvPacket ctx (some p)).1 (recvPacket ctx (some p)).2.2
  obtain ⟨hnext'', -⟩ := teardown_frame
    (deliver (recvPacket ctx (some p)).1 (recvPacket ctx (some p)).2.2).1 p.header
  have htable := teardown_state
    (deliver (recvPacket ctx (some p)).1 (recvPacket ctx (some p)).2.2).1 p.header
  rw [hst', hst] at htable
  refine ⟨?_, fun q => handleNetworkData_listed, takenOf_handleNetworkData _ _, ?_, ?_⟩
  · rw [handleNetworkData_eq, recvPacket_header]
    exact hnext''.trans (hnext'.trans hnext)
  · intro q hq
    obtain ⟨s, a, rfl⟩ := mem_handleNetworkData hq
    rfl
  · rw [handleNetworkData_eq, recvPacket_header]
    exact htable

/-- A packet gets as far as the flags, or the thread dies in the state it was in. -/
theorem handleEvent_flags (ctx : Context) (packet : Option Packet) :
    ((handleEvent ctx (.networkData packet)).2.1 = .crashed ∧
      (handleEvent ctx (.networkData packet)).1.connectionState = ctx.connectionState) ∨
    (recvOverruns ctx packet = false ∧ slideOverruns ctx packet = false) := by
  by_cases hrecv : recvOverruns ctx packet = true
  · left
    simp [handleEvent, hrecv]
  by_cases hslide : slideOverruns ctx packet = true
  · left
    obtain ⟨hst, -⟩ := recvPacket_frame ctx packet
    obtain ⟨hst', -⟩ := deliver_frame (recvPacket ctx packet).1 (recvPacket ctx packet).2.2
    simp only [handleEvent, hrecv, hslide, Bool.false_eq_true, if_false, if_true, cutShort]
    exact ⟨trivial, hst'.trans hst⟩
  · exact Or.inr ⟨Bool.not_eq_true _ ▸ hrecv, Bool.not_eq_true _ ▸ hslide⟩

/-! ## The history of a FIN -/

/-- No FIN is out. -/
structure NoFin (ep : Endpoint) : Prop where
  sent : ∀ p ∈ ep.sent, p.header.has TH.fin = false
  listed : ∀ q ∈ ep.ctx.unackdPackets, q.packet.header.has TH.fin = false

/-- A FIN is out, with the number after the last byte taken. -/
structure FinOut (first : TcpSeq) (ep : Endpoint) : Prop where
  fin : ∃ f ∈ ep.sent, f.header.has TH.fin = true
  sent : ∀ f ∈ ep.sent, f.header.has TH.fin = true →
    f.header.thSeq = first + BitVec.ofNat 32 ep.taken.length
  listed : ∀ q ∈ ep.ctx.unackdPackets, q.packet.header.has TH.fin = true →
    q.packet.header.thSeq = first + BitVec.ofNat 32 ep.taken.length

/-- During the handshake. -/
structure BeforeData (first : TcpSeq) (ep : Endpoint) : Prop where
  initial : ep.ctx.initialSequenceNum + 1 = first
  taken : ep.taken = []
  noFin : NoFin ep
  state : ep.ctx.connectionState = .closed ∨
    (ep.ctx.connectionState = .synSent ∨ ep.ctx.connectionState = .synReceived) ∧
      ep.ctx.sendNext = first

/-- Before the application has closed. -/
structure BeforeFin (first : TcpSeq) (ep : Endpoint) : Prop where
  state : ep.ctx.connectionState = .established ∨ ep.ctx.connectionState = .closeWait
  next : ep.ctx.sendNext = first + BitVec.ofNat 32 ep.taken.length
  noFin : NoFin ep

/-- Between sending the FIN and the end, with the packets `seen` received. -/
structure AfterFin (first : TcpSeq) (seen : Packet → Prop) (ep : Endpoint) : Prop where
  state : ep.ctx.connectionState.finSent
  out : FinOut first ep
  acked : ep.ctx.connectionState = .finWait2 →
    ∃ p, seen p ∧ p.header.has TH.ack = true ∧ ep.finAcked p

/-- The invariant, by where the thread is. -/
structure TearInv (first : TcpSeq) (seen : Packet → Prop) (ep : Endpoint) : Prop where
  opening : ep.status = .opening → BeforeData first ep
  running : ep.status = .running → BeforeFin first ep ∨ AfterFin first seen ep
  closed : ep.status = .closed → ∃ p, seen p ∧ ep.allAcked first p

theorem has_fin_of_ack {p : Packet} (h : p.header.thFlags = TH.ack) :
    p.header.has TH.fin = false := by
  rw [STCPHeader.has, h]
  decide

/-- An event that takes nothing from the application and sends no FIN but
listed ones keeps what is known of the FIN. -/
theorem NoFin.grow {ep : Endpoint} {ctx : Context} {st : Status} {new : List Call} (h : NoFin ep)
    (hsent : ∀ p ∈ sentOf new, p.header.has TH.fin = false)
    (hlist : ∀ q ∈ ctx.unackdPackets, q.packet.header.has TH.fin = false) :
    NoFin ⟨ctx, st, ep.calls ++ new⟩ := by
  refine ⟨?_, hlist⟩
  intro p hp
  rw [Endpoint.sent, sentOf_append] at hp
  rcases List.mem_append.mp hp with hold | hnew
  · exact h.sent p hold
  · exact hsent p hnew

theorem FinOut.grow {first : TcpSeq} {ep : Endpoint} {ctx : Context} {st : Status}
    {new : List Call} (h : FinOut first ep) (htk : takenOf new = [])
    (hsent : ∀ p ∈ sentOf new, p.header.has TH.fin = true →
      p.header.thSeq = first + BitVec.ofNat 32 ep.taken.length)
    (hlist : ∀ q ∈ ctx.unackdPackets, q.packet.header.has TH.fin = true →
      q.packet.header.thSeq = first + BitVec.ofNat 32 ep.taken.length) :
    FinOut first ⟨ctx, st, ep.calls ++ new⟩ := by
  have htaken : (⟨ctx, st, ep.calls ++ new⟩ : Endpoint).taken = ep.taken := by
    rw [Endpoint.taken, takenOf_append, htk, List.append_nil]
  refine ⟨?_, ?_, by rw [htaken]; exact hlist⟩
  · obtain ⟨f, hf, hfin⟩ := h.fin
    exact ⟨f, by rw [Endpoint.sent, sentOf_append]; exact List.mem_append_left _ hf, hfin⟩
  · intro f hf hfin
    rw [htaken]
    rw [Endpoint.sent, sentOf_append] at hf
    rcases List.mem_append.mp hf with hold | hnew
    · exact h.sent f hold hfin
    · exact hsent f hnew hfin

theorem Endpoint.finAcked.grow {ep : Endpoint} {ctx : Context} {st : Status} {new : List Call}
    {p : Packet} (h : ep.finAcked p) : (⟨ctx, st, ep.calls ++ new⟩ : Endpoint).finAcked p := by
  obtain ⟨f, hf, hfin, hack⟩ := h
  exact ⟨f, by rw [Endpoint.sent, sentOf_append]; exact List.mem_append_left _ hf, hfin, hack⟩

/-- Sending again sends what is listed. -/
theorem resent_fin {ctx : Context} {p : Packet} (hp : p ∈ sentOf (handleTimeout ctx).2.2) :
    ∃ q ∈ ctx.unackdPackets, p.header.has TH.fin = q.packet.header.has TH.fin ∧
      p.header.thSeq = q.packet.header.thSeq := by
  obtain ⟨q, hq, rfl⟩ := mem_handleTimeout hp
  exact ⟨q, hq, rfl, rfl⟩

/-- The data branch before the FIN: `send_next` moves with the bytes taken. -/
theorem BeforeFin.appData {first : TcpSeq} {ep : Endpoint} (h : BeforeFin first ep)
    (queued : List UInt8) : BeforeFin first (ep.after (.appData queued)) := by
  rcases handleAppData_cases ep.ctx queued with heq | ⟨buffer, -, -, -, heq⟩
  · refine ⟨?_, ?_, ?_⟩
    · simp only [handleEvent, heq]
      exact h.state
    · simp only [handleEvent, heq, Endpoint.taken, List.append_nil]
      exact h.next
    · refine h.noFin.grow ?_ ?_
      · simp [handleEvent, heq, sentOf]
      · simp only [handleEvent, heq]
        exact h.noFin.listed
  · refine ⟨?_, ?_, ?_⟩
    · simp only [handleEvent, heq]
      exact h.state
    · simp only [handleEvent, heq, Endpoint.taken, takenOf_append, List.length_append]
      have htk : takenOf [.appRecv buffer,
          .networkSend (makeStcpPacket TH.ack ep.ctx.sendNext ep.ctx.recvNext buffer)]
          = buffer := by simp [takenOf]
      rw [htk, h.next, BitVec.ofNat_add, BitVec.add_assoc]
    · refine h.noFin.grow ?_ ?_
      · intro p hp
        have hp' : p = makeStcpPacket TH.ack ep.ctx.sendNext ep.ctx.recvNext buffer := by
          simpa [handleEvent, heq, sentOf] using hp
        rw [hp']
        exact has_fin_of_ack rfl
      · intro q hq
        simp only [handleEvent, heq, packetTCreate] at hq
        rcases List.mem_append.mp hq with hold | hnew
        · exact h.noFin.listed q hold
        · rw [List.mem_singleton.mp hnew]
          exact has_fin_of_ack rfl

/-- The FIN takes the number `send_next`, right after the bytes taken. -/
theorem BeforeFin.sendsFin {first : TcpSeq} {ep : Endpoint} (h : BeforeFin first ep)
    {ctx : Context} {st : Status} (hlist : ctx.unackdPackets = ep.ctx.unackdPackets ++
      [⟨0, ep.ctx.sendNext, makeStcpPacket TH.fin ep.ctx.sendNext ep.ctx.recvNext []⟩]) :
    FinOut first ⟨ctx, st, ep.calls ++
      [.networkSend (makeStcpPacket TH.fin ep.ctx.sendNext ep.ctx.recvNext [])]⟩ := by
  have hfin : (makeStcpPacket TH.fin ep.ctx.sendNext ep.ctx.recvNext []).header.has TH.fin
      = true := by
    rw [STCPHeader.has, makeStcpPacket_thFlags]
    decide
  have hst : sentOf [.networkSend (makeStcpPacket TH.fin ep.ctx.sendNext ep.ctx.recvNext [])]
      = [makeStcpPacket TH.fin ep.ctx.sendNext ep.ctx.recvNext []] := rfl
  have htk : takenOf (ep.calls ++ [.networkSend
      (makeStcpPacket TH.fin ep.ctx.sendNext ep.ctx.recvNext [])]) = takenOf ep.calls := by
    simp [takenOf]
  refine ⟨?_, ?_, ?_⟩
  · refine ⟨_, ?_, hfin⟩
    rw [Endpoint.sent, sentOf_append, hst]
    exact List.mem_append_right _ (List.mem_singleton.mpr rfl)
  · -- no packet before it had the flag
    intro f hf hffin
    rw [Endpoint.sent, sentOf_append, hst] at hf
    rw [Endpoint.taken, htk]
    rcases List.mem_append.mp hf with hold | hnew
    · rw [h.noFin.sent f hold] at hffin
      cases hffin
    · rw [List.mem_singleton.mp hnew]
      exact h.next
  · intro q hq hqfin
    rw [Endpoint.taken, htk]
    rw [hlist] at hq
    rcases List.mem_append.mp hq with hold | hnew
    · rw [h.noFin.listed q hold] at hqfin
      cases hqfin
    · rw [List.mem_singleton.mp hnew]
      exact h.next

/-- **Before the FIN**, an event leaves things so or sends the FIN. -/
theorem BeforeFin.event {first : TcpSeq} {seen : Packet → Prop} {ep : Endpoint}
    (h : BeforeFin first ep) (ev : Event) :
    (ep.after ev).status ≠ .closed ∧ ((ep.after ev).status = .running →
      BeforeFin first (ep.after ev) ∨ AfterFin first seen (ep.after ev)) := by
  cases ev with
  | appData queued => exact ⟨by simp [handleEvent], fun _ => Or.inl (h.appData queued)⟩
  | networkData packet =>
    rcases handleEvent_flags ep.ctx packet with ⟨hcrash, -⟩ | ⟨hrecv, hslide⟩
    · exact ⟨elsewhere (by decide) hcrash, elsewhere (by decide) hcrash⟩
    have hwhole := handleEvent_whole hrecv hslide
    cases packet with
    | none =>
      simp only [Endpoint.after, handleEvent_none, List.append_nil]
      exact ⟨by decide, fun _ => Or.inl ⟨h.state, h.next, ⟨h.noFin.sent, h.noFin.listed⟩⟩⟩
    | some p =>
      obtain ⟨hnext, hlist, htk, hsent, htable⟩ := handleNetworkData_sendSide ep.ctx p
      have hgo : ((handleNetworkData ep.ctx (some p)).1.connectionState = .established ∨
          (handleNetworkData ep.ctx (some p)).1.connectionState = .closeWait) ∧
          (handleNetworkData ep.ctx (some p)).2.1 = false := by
        rw [Prod.mk.injEq] at htable
        rw [htable.1, htable.2]
        rcases h.state with hst | hst <;> rw [hst] <;>
          cases p.header.has TH.ack <;> cases p.header.has TH.fin <;> simp [tearTable]
      rw [Endpoint.after, hwhole]
      refine ⟨by simp [hgo.2], fun _ => Or.inl ⟨hgo.1, ?_, ?_⟩⟩
      · simp only [Endpoint.taken, takenOf_append, htk, List.append_nil]
        rw [hnext]
        exact h.next
      · exact h.noFin.grow (fun q hq => has_fin_of_ack (hsent q hq))
          (fun q hq => h.noFin.listed q (hlist q hq))
  | appCloseRequested =>
    refine ⟨by simp [handleEvent], fun _ => Or.inr ?_⟩
    rcases h.state with hst | hst
    · simp only [Endpoint.after, handleEvent, handleClose, hst]
      exact ⟨Or.inl (Or.inl rfl), h.sendsFin rfl, fun h2 => by cases h2⟩
    · simp only [Endpoint.after, handleEvent, handleClose, hst]
      exact ⟨Or.inl (Or.inr (Or.inr rfl)), h.sendsFin rfl, fun h2 => by cases h2⟩
  | timeout =>
    refine ⟨by simp only [handleEvent]; split <;> decide, fun _ => Or.inl ⟨h.state, ?_, ?_⟩⟩
    · simp only [handleEvent, Endpoint.taken, takenOf_append, takenOf_handleTimeout,
        List.append_nil]
      exact h.next
    · refine h.noFin.grow ?_ ?_
      · intro p hp
        obtain ⟨q, hq, heq, -⟩ := resent_fin hp
        rw [heq]
        exact h.noFin.listed q hq
      · intro q' hq'
        obtain ⟨q, hq, rfl⟩ := List.mem_map.mp hq'
        exact h.noFin.listed q hq

/-- A close request after the FIN is ignored. -/
theorem handleClose_finSent {ctx : Context} (h : ctx.connectionState.finSent) :
    handleClose ctx = (ctx, []) := by
  unfold handleClose
  rcases h with (hst | hst | hst) | hst <;> rw [hst]

/-- **After the FIN**: what an event leaves, when nothing but an acknowledgment
of the FIN is taken for one. -/
theorem AfterFin.event {first : TcpSeq} {seen seen' : Packet → Prop} {ep : Endpoint} {ev : Event}
    (h : AfterFin first seen ep) (hmono : ∀ p, seen p → seen' p)
    (hseen : ∀ p, ev = .networkData (some p) → seen' p)
    (hdata : ∀ queued, ev ≠ .appData queued)
    (hack : ∀ p, ev = .networkData (some p) → p.header.has TH.ack = true →
      recvOverruns ep.ctx (some p) = false → slideOverruns ep.ctx (some p) = false →
      ep.ctx.connectionState.awaitsFinAck → ep.finAcked p) :
    ((ep.after ev).status = .running → AfterFin first seen' (ep.after ev)) ∧
    ((ep.after ev).status = .closed → ∃ p, seen' p ∧ (ep.after ev).allAcked first p) := by
  have hacked : ∀ {ep' : Endpoint}, (∃ p, seen p ∧ p.header.has TH.ack = true ∧ ep.finAcked p) →
      (∀ p, ep.finAcked p → ep'.finAcked p) →
      ∃ p, seen' p ∧ p.header.has TH.ack = true ∧ ep'.finAcked p := by
    rintro ep' ⟨p, hp, hpack, hpfin⟩ hgrow
    exact ⟨p, hmono p hp, hpack, hgrow p hpfin⟩
  cases ev with
  | appData queued => exact absurd rfl (hdata queued)
  | networkData packet =>
    rcases handleEvent_flags ep.ctx packet with ⟨hcrash, -⟩ | ⟨hrecv, hslide⟩
    · exact ⟨elsewhere (by decide) hcrash, elsewhere (by decide) hcrash⟩
    have hwhole := handleEvent_whole hrecv hslide
    cases packet with
    | none =>
      simp only [Endpoint.after, handleEvent_none, List.append_nil]
      refine ⟨fun _ => ⟨h.state, ⟨h.out.fin, h.out.sent, h.out.listed⟩, fun h2 => ?_⟩, by simp⟩
      exact hacked (h.acked h2) fun _ hp => hp
    | some p =>
      obtain ⟨-, hlist, htk, hsent, htable⟩ := handleNetworkData_sendSide ep.ctx p
      -- no acknowledgment has the FIN flag, so the FIN stays the one there was
      have hout : FinOut first (ep.after (.networkData (some p))) := by
        rw [Endpoint.after, hwhole]
        refine h.out.grow htk ?_ fun q hq => h.out.listed q (hlist q hq)
        intro q hq hfin
        rw [has_fin_of_ack (hsent q hq)] at hfin
        cases hfin
      have hgrow : ∀ p', ep.finAcked p' → (ep.after (.networkData (some p))).finAcked p' :=
        fun _ hp => hp.grow
      have hknown : ep.ctx.connectionState = .finWait2 ∨
          p.header.has TH.ack = true ∧ ep.ctx.connectionState.awaitsFinAck →
          ∃ p', seen' p' ∧ p'.header.has TH.ack = true ∧
            (ep.after (.networkData (some p))).finAcked p' := by
        intro hwhy
        rcases hwhy with hst | ⟨hpack, hst⟩
        · exact hacked (h.acked hst) hgrow
        · exact ⟨p, hseen p rfl, hpack, hgrow p (hack p rfl hpack hrecv hslide hst)⟩
      have hst' : (handleNetworkData ep.ctx (some p)).1.connectionState = _ := congrArg Prod.fst htable
      have hstop' : (handleNetworkData ep.ctx (some p)).2.1 = _ := congrArg Prod.snd htable
      rw [Endpoint.after, hwhole] at hout hknown ⊢
      -- the loop goes on, in `FIN_WAIT2` with the acknowledgment, or it ends with it
      rcases tearTable_finSent h.state (p.header.has TH.ack) (p.header.has TH.fin) with
        ⟨hsent', hstop, hwhy⟩ | ⟨hstop, hwhy⟩
      · rw [← hst'] at hsent' hwhy
        rw [← hstop'] at hstop
        exact ⟨fun _ => ⟨hsent', hout, fun h2 => hknown (hwhy h2)⟩, by simp [hstop]⟩
      · rw [← hstop'] at hstop
        obtain ⟨p', hp', hpack, hpfin⟩ := hknown hwhy
        exact ⟨by simp [hstop], fun _ => ⟨p', hp', hpack, hpfin, hout.sent⟩⟩
  | appCloseRequested =>
    simp only [Endpoint.after, handleEvent, handleClose_finSent h.state, List.append_nil]
    refine ⟨fun _ => ⟨h.state, ⟨h.out.fin, h.out.sent, h.out.listed⟩, fun h2 => ?_⟩, by simp⟩
    exact hacked (h.acked h2) fun _ hp => hp
  | timeout =>
    refine ⟨fun _ => ⟨h.state, ?_, fun h2 => ?_⟩, ?_⟩
    · refine h.out.grow (takenOf_handleTimeout _) ?_ ?_
      · intro p hp hfin
        obtain ⟨q, hq, hqfin, hseq⟩ := resent_fin hp
        rw [hseq]
        exact h.out.listed q hq (hqfin ▸ hfin)
      · intro q' hq' hfin
        obtain ⟨q, hq, rfl⟩ := List.mem_map.mp hq'
        exact h.out.listed q hq hfin
    · exact hacked (h.acked h2) fun _ hp => hp.grow
    · simp only [handleEvent]
      split <;> simp

theorem NoFin.of_frame {ep : Endpoint} {ctx : Context} {st : Status} {new : List Call}
    (h : NoFin ep) (hsent : ∀ p ∈ sentOf new, p.header.has TH.fin = false)
    (hlist : ∀ q ∈ ctx.unackdPackets, q ∈ ep.ctx.unackdPackets) :
    NoFin ⟨ctx, st, ep.calls ++ new⟩ :=
  h.grow hsent fun q hq => h.listed q (hlist q hq)

/-- What the handshake's waiting loops can leave behind: a thread that still
waits, one that has faulted, or an established connection. -/
theorem BeforeData.network {first : TcpSeq} {ep : Endpoint} (h : BeforeData first ep)
    (packet : Option Packet) :
    let ep' : Endpoint := ⟨(openNetworkData ep.ctx packet).1, (openNetworkData ep.ctx packet).2.1,
      ep.calls ++ (openNetworkData ep.ctx packet).2.2⟩
    (ep'.status = .opening ∧ BeforeData first ep') ∨ ep'.status = .crashed ∨
      (ep'.status = .running ∧ BeforeFin first ep') := by
  have hzero : first = first + BitVec.ofNat 32 ep.taken.length := by
    rw [h.taken]
    exact (BitVec.add_zero first).symm
  by_cases hover : recvOverruns ep.ctx packet = true
  · refine Or.inr (Or.inl ?_)
    unfold openNetworkData
    rw [if_pos hover]
  rcases h.state with hst | ⟨hst, hnext⟩
  · -- the server, before the SYN
    have hopen : openNetworkData ep.ctx packet = awaitSyn ep.ctx packet := by
      unfold openNetworkData
      rw [if_neg hover, hst]
    rw [hopen]
    obtain ⟨hstate, hinit, hnext, hlist⟩ := recvPacket_frame { ep.ctx with
      sendUnack := ep.ctx.initialSequenceNum, sendNext := ep.ctx.initialSequenceNum } packet
    left
    rcases awaitSyn_cases ep.ctx packet with heq | ⟨-, -, heq⟩
    · rw [heq]
      exact ⟨rfl, by rw [hinit]; exact h.initial, by simpa [Endpoint.taken] using h.taken,
        h.noFin.of_frame (by simp [sentOf]) hlist, Or.inl (hstate.trans hst)⟩
    · rw [heq]
      have hplain : ∀ (s a : TcpSeq), (makeStcpPacket (TH.syn ||| TH.ack) s a []).header.has TH.fin
          = false := by
        intro s a
        rw [STCPHeader.has, makeStcpPacket_thFlags]
        decide
      refine ⟨rfl, by rw [← h.initial]; exact congrArg (· + 1) hinit,
        by simpa [Endpoint.taken, takenOf] using h.taken, h.noFin.grow ?_ ?_,
        Or.inr ⟨Or.inr rfl, ?_⟩⟩
      · intro p hp
        have hp' := List.mem_singleton.mp (show p ∈ [_] from hp)
        rw [hp']
        exact hplain _ _
      · intro q hq
        rcases List.mem_append.mp hq with hq | hq
        · rcases List.mem_append.mp hq with hq | hq
          · exact h.noFin.listed q (hlist q hq)
          · rw [List.mem_singleton.mp hq]
            exact hplain _ _
        · rw [List.mem_singleton.mp hq]
          exact hplain _ _
      · rw [← h.initial]
        exact congrArg (· + 1) hnext
  · obtain ⟨hstate, hinit, hnext', hlist⟩ := recvPacket_frame ep.ctx packet
    have hwait : BeforeData first ⟨(recvPacket ep.ctx packet).1, .opening, ep.calls ++ []⟩ :=
      ⟨by rw [hinit]; exact h.initial, by simpa [Endpoint.taken] using h.taken,
        h.noFin.of_frame (by simp [sentOf]) hlist,
        Or.inr ⟨by rw [hstate]; exact hst, hnext'.trans hnext⟩⟩
    have hdone : ∀ new : List Call, takenOf new = [] →
        (∀ p ∈ sentOf new, p.header.has TH.fin = false) →
        BeforeFin first ⟨{ (recvPacket ep.ctx packet).1 with connectionState := .established },
          .running, ep.calls ++ new⟩ := by
      intro new htk hsent
      refine ⟨Or.inl rfl, ?_, h.noFin.of_frame hsent hlist⟩
      rw [Endpoint.taken, takenOf_append, htk, List.append_nil]
      exact (hnext'.trans hnext).trans hzero
    unfold openNetworkData
    rw [if_neg hover]
    rcases hst with hst | hst
    · -- the client
      rw [hst]
      simp only
      split
      next => exact Or.inr (Or.inl rfl)
      next =>
        rcases awaitSynAck_cases ep.ctx packet with heq | ⟨-, -, -, -, heq⟩
        · rw [heq]
          exact Or.inl ⟨rfl, hwait⟩
        · rw [heq]
          refine Or.inr (Or.inr ⟨rfl, hdone _ rfl ?_⟩)
          intro p hp
          rw [List.mem_singleton.mp (show p ∈ [_] from hp)]
          exact has_fin_of_ack rfl
    · -- the server, before the ACK
      rw [hst]
      simp only
      split
      next => exact Or.inr (Or.inl rfl)
      next =>
        rcases awaitAck_cases ep.ctx packet with heq | ⟨-, -, -, heq⟩
        · rw [heq]
          exact Or.inl ⟨rfl, hwait⟩
        · rw [heq]
          exact Or.inr (Or.inr ⟨rfl, hdone [] rfl (by simp [sentOf])⟩)

/-- **During the handshake** nothing is closed, and data starts at `first`. -/
theorem BeforeData.step {first : TcpSeq} {seen : Packet → Prop} {ep : Endpoint}
    (hst : ep.status = .opening) (h : BeforeData first ep) (ev : Event) :
    TearInv first seen (ep.step ev) := by
  rcases ep.step_opening hst ev with ⟨heq, -⟩ | ⟨packet, -, heq⟩
  · rw [heq]
    exact ⟨fun _ => h, elsewhere (by decide) hst, elsewhere (by decide) hst⟩
  · rw [heq]
    rcases h.network packet with ⟨hst', h'⟩ | hst' | ⟨hst', h'⟩
    · exact ⟨fun _ => h', elsewhere (by decide) hst', elsewhere (by decide) hst'⟩
    · exact ⟨elsewhere (by decide) hst', elsewhere (by decide) hst', elsewhere (by decide) hst'⟩
    · exact ⟨elsewhere (by decide) hst', fun _ => Or.inl h', elsewhere (by decide) hst'⟩

theorem TearInv.mono {first : TcpSeq} {seen seen' : Packet → Prop} {ep : Endpoint}
    (h : TearInv first seen ep) (hmono : ∀ p, seen p → seen' p) : TearInv first seen' ep := by
  refine ⟨h.opening, fun hrun => ?_, fun hcl => ?_⟩
  · rcases h.running hrun with hb | ha
    · exact Or.inl hb
    · refine Or.inr ⟨ha.state, ha.out, fun h2 => ?_⟩
      obtain ⟨p, hp, hrest⟩ := ha.acked h2
      exact ⟨p, hmono p hp, hrest⟩
  · obtain ⟨p, hp, hrest⟩ := h.closed hcl
    exact ⟨p, hmono p hp, hrest⟩

/-- **One event at an endpoint.** -/
theorem TearInv.step {first : TcpSeq} {seen seen' : Packet → Prop} {ep : Endpoint} {ev : Event}
    (h : TearInv first seen ep) (hmono : ∀ p, seen p → seen' p)
    (hseen : ∀ p, ev = .networkData (some p) → seen' p)
    (hdata : ∀ queued, ev = .appData queued → ¬ep.ctx.connectionState.finSent)
    (hack : ∀ p, ev = .networkData (some p) → p.header.has TH.ack = true → ep.comesToFlags p →
      ep.ctx.connectionState.awaitsFinAck → ep.finAcked p) :
    TearInv first seen' (ep.step ev) := by
  by_cases hopen : ep.status = .opening
  · exact (h.opening hopen).step hopen ev
  rcases Endpoint.step_cases hopen ev with ⟨-, -, -, hst⟩ | ⟨hrun, hfault, heq⟩
  · -- the loop is over, or faults here
    rcases hst with hst | hst
    · rw [hst]
      exact h.mono hmono
    · exact ⟨elsewhere (by decide) hst, elsewhere (by decide) hst, elsewhere (by decide) hst⟩
  · have hnot := handleEvent_status ep.ctx ev
    rw [heq]
    rcases h.running hrun with hb | ha
    · obtain ⟨hncl, hkeep⟩ := hb.event ev
      exact ⟨fun hop => absurd hop hnot, hkeep, fun hcl => absurd hcl hncl⟩
    · obtain ⟨hkeep, hend⟩ := ha.event hmono hseen
        (fun queued hev => hdata queued hev ha.state)
        (fun p hev hpack hrecv hslide => hack p hev hpack ⟨hrun, hfault, hrecv, hslide⟩)
      exact ⟨fun hop => absurd hop hnot, fun hrun' => Or.inr (hkeep hrun'), hend⟩

theorem transportInit_beforeData (isActive : Bool) (iss : TcpSeq) (rto : Nat → UInt8) :
    (transportInit isActive iss rto).status = .opening ∧
    BeforeData (iss + 1) (transportInit isActive iss rto) := by
  cases isActive with
  | true =>
    refine ⟨rfl, rfl, rfl, ⟨?_, ?_⟩, Or.inr ⟨Or.inl rfl, rfl⟩⟩
    · intro p hp
      rw [List.mem_singleton.mp (show p ∈ [_] from hp), STCPHeader.has, makeStcpPacket_thFlags]
      decide
    · intro q hq
      rw [List.mem_singleton.mp (show q ∈ [_] from hq), STCPHeader.has, makeStcpPacket_thFlags]
      decide
  | false =>
    refine ⟨rfl, rfl, rfl, ⟨?_, ?_⟩, Or.inl rfl⟩
    · intro p hp
      cases hp
    · intro q hq
      cases hq

/-! ## Moving on -/

theorem movesOnFinAck_of {s : System} {ev : Side × Event} (h : OnlyFinAcks s ev) :
    MovesOnFinAck s ev := by
  obtain ⟨i, e⟩ := ev
  intro hwait hmoved
  simp only [System.step_same] at hmoved hwait ⊢
  -- nothing but a packet with the ACK flag leaves the waiting states this way
  have hstay : ∀ ctx' : Context, ctx'.connectionState = (s i).ctx.connectionState →
      ¬(ctx'.connectionState = .finWait2 ∨ ctx'.connectionState = .closed) := by
    intro ctx' hsame
    rw [hsame]
    rcases hwait with hst | hst | hst <;> rw [hst] <;> decide
  by_cases hopen : (s i).status = .opening
  · rcases (s i).step_opening hopen e with ⟨heq, -⟩ | ⟨packet, -, heq⟩
    · rw [heq] at hmoved
      exact absurd hmoved (hstay _ rfl)
    · have hsame : (openNetworkData (s i).ctx packet).1 = (s i).ctx := by
        unfold openNetworkData
        split
        next => rfl
        next => rcases hwait with hst | hst | hst <;> rw [hst]
      rw [heq, hsame] at hmoved
      exact absurd hmoved (hstay _ rfl)
  rcases Endpoint.step_cases hopen e with ⟨-, hctx, -, -⟩ | ⟨hrun, hfault, heq⟩
  · rw [hctx] at hmoved
    exact absurd hmoved (hstay _ rfl)
  rw [heq] at hmoved
  cases e with
  | appData queued =>
    refine absurd hmoved (hstay _ ?_)
    rcases handleAppData_cases (s i).ctx queued with hq | ⟨buffer, -, -, -, hq⟩
    · simp only [handleEvent, hq]
    · simp only [handleEvent, hq]
      rfl
  | networkData packet =>
    rcases handleEvent_flags (s i).ctx packet with ⟨-, hsame⟩ | ⟨hrecv, hslide⟩
    · exact absurd hmoved (hstay _ hsame)
    cases packet with
    | none =>
      refine absurd hmoved (hstay _ ?_)
      simp only [handleEvent_none]
    | some p =>
      obtain ⟨-, -, -, -, htable⟩ := handleNetworkData_sendSide (s i).ctx p
      have hst' := (Prod.mk.inj htable).1
      cases hpack : p.header.has TH.ack with
      | true => exact ⟨p, rfl, h p rfl hpack ⟨hrun, hfault, hrecv, hslide⟩ hwait⟩
      | false =>
        rw [hpack] at hst'
        simp only [handleEvent_whole hrecv hslide, hst'] at hmoved
        exact absurd hmoved (not_or.mpr (tearTable_noAck hwait _))
  | appCloseRequested =>
    refine absurd hmoved (hstay _ ?_)
    simp only [handleEvent, handleClose_finSent (Or.inl hwait)]
  | timeout => exact absurd hmoved (hstay _ rfl)

theorem onlyFinAcks_of {s : System} {ev : Side × Event} (h : MovesOnFinAck s ev) :
    OnlyFinAcks s ev := by
  obtain ⟨i, e⟩ := ev
  rintro p rfl hpack ⟨hrun, hfault, hrecv, hslide⟩ hwait
  obtain ⟨-, -, -, -, htable⟩ := handleNetworkData_sendSide (s i).ctx p
  have hopen : (s i).status ≠ .opening := elsewhere (by decide) hrun
  have hmoved : ((s.step (i, .networkData (some p))) i).ctx.connectionState = .finWait2 ∨
      ((s.step (i, .networkData (some p))) i).ctx.connectionState = .closed := by
    rw [System.step_same]
    rcases Endpoint.step_cases hopen (.networkData (some p)) with ⟨hidle, -⟩ | ⟨-, -, heq⟩
    · exact absurd ⟨hrun, hfault⟩ hidle
    · rw [heq]
      simp only [handleEvent_whole hrecv hslide, (Prod.mk.inj htable).1, hpack]
      exact tearTable_ack hwait _
  obtain ⟨p', hp', hfin⟩ := h hwait hmoved
  cases hp'
  exact hfin

/-- **A connection closes on the acknowledgment of its FIN in exactly the runs
where no other packet with the ACK flag reaches an endpoint that waits for it.**
Then an endpoint whose loop has ended through `CLOSED` has seen a packet that
acknowledges all it ever sent. -/
theorem closes_on_finAck_iff (active : Side → Bool) (iss : Side → TcpSeq)
    (rto : Side → Nat → UInt8)
    (evs : List (Side × Event))
    (hdata : Along System.step DataBeforeClose (opening active iss rto) evs) :
    (Along System.step MovesOnFinAck (opening active iss rto) evs ∧
      ∀ pre, pre <+: evs → ∀ i, (run System.step (opening active iss rto) pre i).status = .closed →
        ∃ p, (i, Event.networkData (some p)) ∈ pre ∧
          (run System.step (opening active iss rto) pre i).allAcked (iss i + 1) p) ↔
    Along System.step OnlyFinAcks (opening active iss rto) evs := by
  constructor
  · rintro ⟨hmoves, -⟩
    exact along_mono (fun s ev => onlyFinAcks_of) hmoves
  · intro honly
    refine ⟨along_mono (fun s ev => movesOnFinAck_of) honly, ?_⟩
    rintro pre ⟨rest, rfl⟩ i hcl
    have hpre := (along_append _ _ _ _ _).mp (along_and.mpr ⟨hdata, honly⟩)
    have hinv := run_history
      (fun hist s => ∀ j, TearInv (iss j + 1) (fun p => (j, Event.networkData (some p)) ∈ hist) (s j))
      ?_ hpre.1 ?_
    · exact (hinv i).closed hcl
    · rintro hist s ⟨j, e⟩ ⟨hdata', honly'⟩ hs k
      rcases Side.eq_or_other j k with rfl | rfl
      · rw [System.step_same]
        exact (hs k).step (fun p hp => List.mem_append_left _ hp)
          (fun p hev => List.mem_append_right _ (by rw [hev]; exact List.mem_singleton.mpr rfl))
          hdata' honly'
      · rw [System.step_other]
        exact (hs j.other).mono fun p hp => List.mem_append_left _ hp
    · intro j
      obtain ⟨hst, hbefore⟩ := transportInit_beforeData (active j) (iss j) (rto j)
      exact ⟨fun _ => hbefore, elsewhere (by decide) hst, elsewhere (by decide) hst⟩

/-- The left side connects to the right one and sends two bytes. -/
def twoBytes : List (Side × Event) :=
  [ (.right, .networkData (some (makeStcpPacket TH.syn 1 0 []))),
    (.left, .networkData (some (makeStcpPacket (TH.syn ||| TH.ack) 101 2 []))),
    (.right, .networkData (some (makeStcpPacket TH.ack 2 102 []))),
    (.left, .appData [104, 105]),
    (.right, .networkData (some (makeStcpPacket TH.ack 2 102 [104, 105]))) ]

/-- Then both close, each acknowledgment arriving before the next thing happens. -/
def orderlyClose : List (Side × Event) :=
  twoBytes ++
  [ (.left, .networkData (some (makeStcpPacket TH.ack 102 4 []))),
    (.left, .appCloseRequested),
    (.right, .networkData (some (makeStcpPacket TH.fin 4 102 []))),
    (.left, .networkData (some (makeStcpPacket TH.ack 102 5 []))),
    (.right, .appCloseRequested),
    (.left, .networkData (some (makeStcpPacket TH.fin 102 5 []))),
    (.right, .networkData (some (makeStcpPacket TH.ack 4 103 []))) ]

theorem orderlyClose_closes :
    (run System.step (opening leftActive firstNumbers underASecond) orderlyClose .left).status
      = .closed ∧
    ∃ p, (Side.left, Event.networkData (some p)) ∈ orderlyClose ∧
      (run System.step (opening leftActive firstNumbers underASecond) orderlyClose .left).allAcked
        2 p := by
  have hclosed :
      (run System.step (opening leftActive firstNumbers underASecond) orderlyClose .left).status
        = .closed := by decide +kernel
  refine ⟨hclosed, ?_⟩
  refine ((closes_on_finAck_iff leftActive firstNumbers underASecond orderlyClose ?_).mpr ?_).2
    orderlyClose (List.prefix_refl _) .left hclosed
  · refine ⟨?_, ?_, ?_, ?_, ?_, ?_, ?_, ?_, ?_, ?_, ?_, ?_, trivial⟩ <;> rintro queued ⟨⟩
    decide +kernel
  · refine ⟨?_, ?_, ?_, ?_, ?_, ?_, ?_, ?_, ?_, ?_, ?_, ?_, trivial⟩ <;>
      rintro p ⟨⟩ <;> decide +kernel

/-- The acknowledgment of the two bytes arrives after the close, and is taken
for that of the FIN. -/
def hastyClose : List (Side × Event) :=
  twoBytes ++
  [ (.left, .appCloseRequested),
    (.left, .networkData (some (makeStcpPacket TH.ack 102 4 []))) ]

theorem hastyClose_unacked :
    Along System.step Deliverable (opening leftActive firstNumbers underASecond) hastyClose ∧
    ¬Along System.step MovesOnFinAck (opening leftActive firstNumbers underASecond) hastyClose := by
  refine ⟨by decide +kernel, ?_⟩
  rintro ⟨-, -, -, -, -, -, hlast, -⟩
  obtain ⟨p, hp, hfin⟩ := hlast (by decide +kernel) (by decide +kernel)
  cases hp
  exact absurd hfin (by decide +kernel)

end UchiNetworks.Stcp
