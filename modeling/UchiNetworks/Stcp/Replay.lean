import Mathlib.Data.BitVec
import UchiNetworks.Stcp.Fin

/-!
# STCP: handshake packets that come back

The network keeps packets and delivers them again, so a SYN or a SYN/ACK can
reach `control_loop` at any later time. `recv_packet` treats it there as it does
in the handshake: `recv_next` becomes the number after the SYN. That is where it
stands as long as nothing has been received, and nowhere else
(`syn_harmless_iff`).

The direction of the other steps is that of serial numbers: `recv_next` moves
forward by less than half the number space, at the wrap point too.
-/

namespace UchiNetworks.Stcp

open UchiNetworks.Lib

/-- `y` is `x` or less than half the number space ahead of it. -/
def NotBefore (x y : TcpSeq) : Prop := (y - x).toNat < 0x80000000

instance (x y : TcpSeq) : Decidable (NotBefore x y) := inferInstanceAs (Decidable (_ < _))

/-- A SYN or SYN/ACK that reaches `control_loop` leaves the receive side as it is. -/
def SynHarmless (s : System) (ev : Side × Event) : Prop :=
  ∀ p, ev.2 = .networkData (some p) → p.header.has TH.syn = true → (s ev.1).looping →
    ((s.step ev) ev.1).ctx.recvNext = (s ev.1).ctx.recvNext ∧
    ((s.step ev) ev.1).ctx.recvBuffer = (s ev.1).ctx.recvBuffer ∧
    ((s.step ev) ev.1).ctx.recvIndicator = (s ev.1).ctx.recvIndicator

/-- `recv_next` does not go back. -/
def NoRewind (s : System) (ev : Side × Event) : Prop :=
  (s ev.1).looping → NotBefore (s ev.1).ctx.recvNext ((s.step ev) ev.1).ctx.recvNext

/-! ## The packets an endpoint makes -/

/-- The flags `make_stcp_packet` is called with; only a pure ACK carries data. -/
def Made (flags : BitVec 8) (data : List UInt8) : Prop :=
  (flags = TH.ack ∧ data.length ≤ maxLen) ∨
    (data = [] ∧ (flags = TH.fin ∨ flags = TH.syn ∨ flags = TH.syn ||| TH.ack))

/-- A property of packets that holds of all that an endpoint has sent or listed. -/
structure Endpoint.AllPackets (P : Packet → Prop) (ep : Endpoint) : Prop where
  sent : ∀ p ∈ ep.sent, P p
  listed : ∀ q ∈ ep.ctx.unackdPackets, P q.packet

/-- A property of every packet made that a new acknowledgment number does not
change. -/
structure OfMade (P : Packet → Prop) : Prop where
  made : ∀ f s a d, Made f d → P (makeStcpPacket f s a d)
  resent : ∀ p a, P p → P { p with header := { p.header with thAck := a } }

theorem Endpoint.AllPackets.grow {P : Packet → Prop} {ep : Endpoint} {ctx : Context} {st : Status}
    {new : List Call} (h : ep.AllPackets P) (hsent : ∀ p ∈ sentOf new, P p)
    (hlist : ∀ q ∈ ctx.unackdPackets, q ∈ ep.ctx.unackdPackets ∨ P q.packet) :
    AllPackets P ⟨ctx, st, ep.calls ++ new⟩ := by
  refine ⟨?_, ?_⟩
  · intro p hp
    rw [Endpoint.sent, sentOf_append] at hp
    rcases List.mem_append.mp hp with hold | hnew
    · exact h.sent p hold
    · exact hsent p hnew
  · intro q hq
    rcases hlist q hq with hold | hnew
    · exact h.listed q hold
    · exact hnew

theorem OfMade.segment {P : Packet → Prop} (h : OfMade P) (s a : TcpSeq) {d : List UInt8}
    (hlen : d.length ≤ maxLen) : P (makeStcpPacket TH.ack s a d) :=
  h.made _ s a d (Or.inl ⟨rfl, hlen⟩)

theorem OfMade.ack {P : Packet → Prop} (h : OfMade P) (s a : TcpSeq) :
    P (makeStcpPacket TH.ack s a []) := h.segment s a (Nat.zero_le _)

theorem OfMade.fin {P : Packet → Prop} (h : OfMade P) (s a : TcpSeq) :
    P (makeStcpPacket TH.fin s a []) := h.made _ s a [] (Or.inr ⟨rfl, Or.inl rfl⟩)

theorem OfMade.synAck {P : Packet → Prop} (h : OfMade P) (s a : TcpSeq) :
    P (makeStcpPacket (TH.syn ||| TH.ack) s a []) :=
  h.made _ s a [] (Or.inr ⟨rfl, Or.inr (Or.inr rfl)⟩)

/-- One event in the loop. -/
theorem OfMade.event {P : Packet → Prop} (hP : OfMade P) {ep : Endpoint} (h : ep.AllPackets P)
    (ev : Event) : (ep.after ev).AllPackets P := by
  have hone : ∀ (p q : Packet), q ∈ sentOf [Call.networkSend p] → q = p := by
    intro p q hq
    exact List.mem_singleton.mp hq
  cases ev with
  | appData queued =>
    refine h.grow ?_ ?_
    · intro p hp
      rcases handleAppData_cases ep.ctx queued with heq | ⟨buffer, -, hlen, -, heq⟩
      · simp only [handleEvent, heq] at hp
        cases hp
      · simp only [handleEvent, heq] at hp
        rw [hone _ p hp]
        exact hP.segment _ _ hlen
    · intro q hq
      rcases handleAppData_cases ep.ctx queued with heq | ⟨buffer, -, hlen, -, heq⟩
      · simp only [handleEvent, heq] at hq
        exact Or.inl hq
      · simp only [handleEvent, heq, packetTCreate] at hq
        rcases List.mem_append.mp hq with hold | hnew
        · exact Or.inl hold
        · rw [List.mem_singleton.mp hnew]
          exact Or.inr (hP.segment _ _ hlen)
  | networkData packet =>
    refine h.grow ?_ fun q hq => Or.inl (handleEvent_listed hq)
    intro p hp
    obtain ⟨s, a, rfl⟩ := mem_handleEvent hp
    exact hP.ack _ _
  | appCloseRequested =>
    refine h.grow ?_ ?_
    · intro p hp
      simp only [handleEvent, handleClose] at hp
      split at hp
      next =>
        rw [hone _ p hp]
        exact hP.fin _ _
      next =>
        rw [hone _ p hp]
        exact hP.fin _ _
      next => cases hp
    · intro q hq
      simp only [handleEvent, handleClose, packetTCreate] at hq
      split at hq
      next =>
        rcases List.mem_append.mp hq with hold | hnew
        · exact Or.inl hold
        · rw [List.mem_singleton.mp hnew]
          exact Or.inr (hP.fin _ _)
      next =>
        rcases List.mem_append.mp hq with hold | hnew
        · exact Or.inl hold
        · rw [List.mem_singleton.mp hnew]
          exact Or.inr (hP.fin _ _)
      next => exact Or.inl hq
  | timeout =>
    refine h.grow ?_ ?_
    · intro p hp
      obtain ⟨c, hc, hcp⟩ := List.mem_filterMap.mp hp
      obtain ⟨q', hq', rfl⟩ := List.mem_map.mp hc
      obtain ⟨q, hq, rfl⟩ := List.mem_map.mp hq'
      rw [← Option.some.inj hcp]
      exact hP.resent _ _ (h.listed q hq)
    · intro q' hq'
      obtain ⟨q, hq, rfl⟩ := List.mem_map.mp hq'
      exact Or.inr (hP.resent _ _ (h.listed q hq))

/-- One packet in the handshake. -/
theorem OfMade.opening {P : Packet → Prop} (hP : OfMade P) {ep : Endpoint} (h : ep.AllPackets P)
    (packet : Option Packet) :
    Endpoint.AllPackets P ⟨(openNetworkData ep.ctx packet).1, (openNetworkData ep.ctx packet).2.1,
      ep.calls ++ (openNetworkData ep.ctx packet).2.2⟩ := by
  have hnone : ∀ p ∈ sentOf [], P p := by
    intro p hp
    cases hp
  unfold openNetworkData
  split
  next => exact h.grow hnone fun q hq => Or.inl hq
  split
  next =>
    split
    next => exact h.grow hnone fun q hq => Or.inl hq
    next =>
      obtain ⟨-, -, -, hlist⟩ := recvPacket_frame ep.ctx packet
      rcases awaitSynAck_cases ep.ctx packet with heq | ⟨-, -, -, -, heq⟩
      · rw [heq]
        exact h.grow hnone fun q hq => Or.inl (hlist q hq)
      · rw [heq]
        refine h.grow ?_ fun q hq => Or.inl (hlist q hq)
        intro p hp
        rw [List.mem_singleton.mp (show p ∈ [_] from hp)]
        exact hP.ack _ _
  next =>
    obtain ⟨-, -, -, hlist⟩ := recvPacket_frame { ep.ctx with
      sendUnack := ep.ctx.initialSequenceNum, sendNext := ep.ctx.initialSequenceNum } packet
    rcases awaitSyn_cases ep.ctx packet with heq | ⟨-, -, heq⟩
    · rw [heq]
      exact h.grow hnone fun q hq => Or.inl (hlist q hq)
    · rw [heq]
      refine h.grow ?_ ?_
      · intro p hp
        rw [List.mem_singleton.mp (show p ∈ [_] from hp)]
        exact hP.synAck _ _
      · intro q hq
        rcases List.mem_append.mp hq with hq | hq
        · rcases List.mem_append.mp hq with hq | hq
          · exact Or.inl (hlist q hq)
          · rw [List.mem_singleton.mp hq]
            exact Or.inr (hP.synAck _ _)
        · rw [List.mem_singleton.mp hq]
          exact Or.inr (hP.synAck _ _)
  next =>
    split
    next => exact h.grow hnone fun q hq => Or.inl hq
    next =>
      obtain ⟨-, -, -, hlist⟩ := recvPacket_frame ep.ctx packet
      rcases awaitAck_cases ep.ctx packet with heq | ⟨-, -, -, heq⟩
      · rw [heq]
        exact h.grow hnone fun q hq => Or.inl (hlist q hq)
      · rw [heq]
        exact h.grow hnone fun q hq => Or.inl (hlist q hq)
  next => exact h.grow hnone fun q hq => Or.inl hq

/-- **The packets of a run** have every property of the packets made. -/
theorem OfMade.step {P : Packet → Prop} (hP : OfMade P) {ep : Endpoint} (h : ep.AllPackets P)
    (ev : Event) : (ep.step ev).AllPackets P := by
  by_cases hopen : ep.status = .opening
  · rcases ep.step_opening hopen ev with ⟨heq, -⟩ | ⟨packet, -, heq⟩
    · rw [heq]
      exact h
    · rw [heq]
      exact hP.opening h packet
  · rcases Endpoint.step_cases hopen ev with ⟨-, hctx, hcalls, -⟩ | ⟨-, -, heq⟩
    · refine ⟨?_, by rw [hctx]; exact h.listed⟩
      rw [Endpoint.sent, hcalls]
      exact h.sent
    · rw [heq]
      exact hP.event h ev

theorem OfMade.start {P : Packet → Prop} (hP : OfMade P) (isActive : Bool) (iss : TcpSeq)
    (rto : Nat → UInt8) :
    (transportInit isActive iss rto).AllPackets P := by
  have hsyn : ∀ s a : TcpSeq, P (makeStcpPacket TH.syn s a []) :=
    fun s a => hP.made _ s a [] (Or.inr ⟨rfl, Or.inr (Or.inl rfl)⟩)
  cases isActive with
  | true =>
    refine ⟨?_, ?_⟩
    · intro p hp
      rw [List.mem_singleton.mp (show p ∈ [_] from hp)]
      exact hsyn _ _
    · intro q hq
      rw [List.mem_singleton.mp (show q ∈ [_] from hq)]
      exact hsyn _ _
  | false =>
    refine ⟨?_, ?_⟩
    · intro p hp
      cases hp
    · intro q hq
      cases hq

theorem bareSyn_ofMade : OfMade BareSyn := by
  refine ⟨?_, fun p a h => h⟩
  intro f s a d hmade hsyn
  unfold STCPHeader.has at hsyn ⊢
  rw [makeStcpPacket_thFlags] at hsyn ⊢
  rcases hmade with ⟨rfl, -⟩ | ⟨hd, rfl | rfl | rfl⟩
  · exact absurd hsyn (by decide)
  · exact absurd hsyn (by decide)
  · exact ⟨hd, rfl, by decide⟩
  · exact ⟨hd, rfl, by decide⟩

/-! ## One step -/

/-- What a SYN does in the loop. -/
theorem handleNetworkData_syn {ctx : Context} {p : Packet} (hbare : BareSyn p)
    (hsyn : p.header.has TH.syn = true) :
    (handleNetworkData ctx (some p)).1.recvNext = p.header.thSeq + 1 ∧
    (handleNetworkData ctx (some p)).1.recvBuffer = ctx.recvBuffer ∧
    (handleNetworkData ctx (some p)).1.recvIndicator = ctx.recvIndicator := by
  obtain ⟨hdata, hoff, hfin⟩ := hbare hsyn
  have hrecv : recvPacket ctx (some p) = (recvHeader ctx p.header, p.header, 0) :=
    recvPacket_taken (recvPayload_bare hoff hdata)
  obtain ⟨-, -, -, hbuf, hind⟩ := recvHeader_frame ctx p.header
  have hdel : deliver (recvHeader ctx p.header) 0 = (recvHeader ctx p.header, []) := rfl
  obtain ⟨hbuf', hind', -⟩ := teardown_window (recvHeader ctx p.header) p.header
  have hno : ¬(p.header.has TH.fin = true ∧ (recvHeader ctx p.header).looksAtFin p.header) := by
    intro h
    rw [hfin] at h
    exact absurd h.1 Bool.false_ne_true
  have hnext := (teardown_noFin hno).1
  rw [handleNetworkData_eq, hrecv]
  simp only [hdel]
  refine ⟨?_, hbuf'.trans hbuf, hind'.trans hind⟩
  rw [hnext, recvHeader_recvNext, if_pos hsyn]

theorem notBefore_refl (x : TcpSeq) : NotBefore x x := by
  unfold NotBefore
  rw [BitVec.sub_self]
  decide

theorem notBefore_add {x : TcpSeq} {n : Nat} (h : n < 0x80000000) :
    NotBefore x (x + BitVec.ofNat 32 n) := by
  have hsub : x + BitVec.ofNat 32 n - x = BitVec.ofNat 32 n := add_sub_cancel_left x _
  unfold NotBefore
  rw [hsub, BitVec.toNat_ofNat, Nat.mod_eq_of_lt (by omega)]
  exact h

/-- Any other packet moves `recv_next` on by what has arrived. -/
theorem cutShort_forward {ctx : Context} {p : Packet} (hsyn : p.header.has TH.syn = false) :
    ∃ n, n ≤ winLen ∧ (cutShort ctx (some p)).1.recvNext = ctx.recvNext + BitVec.ofNat 32 n := by
  obtain ⟨n, hn, hrecv⟩ : ∃ n, n ≤ winLen ∧
      (recvPacket ctx (some p)).1.recvNext = ctx.recvNext + BitVec.ofNat 32 n := by
    cases hpay : recvPayload ctx p with
    | none =>
      rw [recvPacket_dropped hpay]
      exact ⟨0, Nat.zero_le _, (BitVec.add_zero _).symm⟩
    | some r =>
      obtain ⟨ctx', k⟩ := r
      rw [recvPacket_taken hpay]
      simp only [recvHeader_recvNext, hsyn, Bool.false_eq_true, if_false]
      unfold recvPayload at hpay
      split at hpay
      next =>
        rw [← (Prod.mk.inj (Option.some.inj hpay)).1]
        exact ⟨0, Nat.zero_le _, (BitVec.add_zero _).symm⟩
      next =>
        obtain ⟨c, -, hc⟩ := Option.map_eq_some_iff.mp hpay
        rw [← (Prod.mk.inj hc).1]
        exact ⟨_, firstGap_le_size _ _, rfl⟩
  exact ⟨n, hn, (deliver_frame _ _).2.2.2.2.1.trans hrecv⟩

/-- And by one for a FIN. -/
theorem handleNetworkData_forward {ctx : Context} {p : Packet}
    (hsyn : p.header.has TH.syn = false) :
    NotBefore ctx.recvNext (handleNetworkData ctx (some p)).1.recvNext := by
  obtain ⟨n, hn, hdel⟩ := @cutShort_forward ctx p hsyn
  simp only [cutShort] at hdel
  unfold winLen at hn
  rw [handleNetworkData_eq]
  by_cases hfin : (recvPacket ctx (some p)).2.1.has TH.fin = true ∧
      (deliver (recvPacket ctx (some p)).1 (recvPacket ctx (some p)).2.2).1.looksAtFin
        (recvPacket ctx (some p)).2.1
  · have hstep : ctx.recvNext + BitVec.ofNat 32 n + 1 = ctx.recvNext + BitVec.ofNat 32 (n + 1) := by
      rw [add_assoc, BitVec.ofNat_add]
      rfl
    simp only [teardown_fin hfin.1 hfin.2, hdel, hstep]
    exact notBefore_add (by omega)
  · simp only [(teardown_noFin hfin).1, hdel]
    exact notBefore_add (by omega)

/-- Where the window is after one event in the loop. -/
theorem step_forward {s : System} {ev : Side × Event} (hloop : (s ev.1).looping)
    (hother : ∀ p, ev.2 = .networkData (some p) → p.header.has TH.syn = false) :
    NotBefore (s ev.1).ctx.recvNext ((s.step ev) ev.1).ctx.recvNext := by
  obtain ⟨i, e⟩ := ev
  obtain ⟨hrun, hfault⟩ := hloop
  have hopen : (s i).status ≠ .opening := by
    intro hop
    exact elsewhere (by decide) hrun hop
  rw [System.step_same]
  rcases Endpoint.step_cases hopen e with ⟨hidle, -⟩ | ⟨-, -, heq⟩
  · exact absurd ⟨hrun, hfault⟩ hidle
  rw [heq]
  by_cases hnet : ∃ packet, e = .networkData packet
  · obtain ⟨packet, rfl⟩ := hnet
    cases packet with
    | none =>
      simp only [handleEvent_none]
      exact notBefore_refl _
    | some p =>
      rcases handleEvent_network (s i).ctx (some p) with hev | hev | hev
      · rw [hev]
        exact notBefore_refl _
      · obtain ⟨n, hn, hnext⟩ := @cutShort_forward (s i).ctx p (hother p rfl)
        unfold winLen at hn
        rw [hev]
        simp only [hnext]
        exact notBefore_add (by omega)
      · rw [hev]
        exact handleNetworkData_forward (hother p rfl)
  · have hown : ∀ packet, e ≠ .networkData packet := fun packet hev => hnet ⟨packet, hev⟩
    have hnext : (handleEvent (s i).ctx e).1.recvNext = (s i).ctx.recvNext := (handleEvent_own hown).1
    simp only [hnext]
    exact notBefore_refl _

/-- A SYN in the loop is harmless exactly when nothing has been received since. -/
theorem synHarmless_iff {s : System} {ev : Side × Event}
    (hbare : ∀ p, ev.2 = .networkData (some p) → BareSyn p) :
    (SynHarmless s ev ∧ NoRewind s ev) ↔ NothingSince s ev := by
  obtain ⟨i, e⟩ := ev
  have hsynStep : ∀ p, e = .networkData (some p) → p.header.has TH.syn = true → (s i).looping →
      ((s.step (i, e)) i).ctx.recvNext = p.header.thSeq + 1 ∧
      ((s.step (i, e)) i).ctx.recvBuffer = (s i).ctx.recvBuffer ∧
      ((s.step (i, e)) i).ctx.recvIndicator = (s i).ctx.recvIndicator := by
    intro p he hsyn hloop
    have hopen : (s i).status ≠ .opening := by
      intro hop
      exact elsewhere (by decide) hloop.1 hop
    rw [System.step_same]
    rcases Endpoint.step_cases hopen e with ⟨hidle, -⟩ | ⟨-, -, heq⟩
    · exact absurd hloop hidle
    · rw [heq, he, handleEvent_bare (hbare p he hsyn).2.1 (hbare p he hsyn).1]
      exact handleNetworkData_syn (hbare p he) hsyn
  constructor
  · intro h p he hsyn hloop
    obtain ⟨hnext, -⟩ := h.1 p he hsyn hloop
    obtain ⟨hto, -⟩ := hsynStep p he hsyn hloop
    exact hnext.symm.trans hto
  · intro h
    constructor
    · intro p he hsyn hloop
      obtain ⟨hto, hbuf, hind⟩ := hsynStep p he hsyn hloop
      exact ⟨hto.trans (h p he hsyn hloop).symm, hbuf, hind⟩
    · intro hloop
      by_cases hsyn : ∃ p, e = .networkData (some p) ∧ p.header.has TH.syn = true
      · obtain ⟨p, he, hsyn⟩ := hsyn
        obtain ⟨hto, -⟩ := hsynStep p he hsyn hloop
        rw [hto, ← h p he hsyn hloop]
        exact notBefore_refl _
      · refine step_forward hloop fun p he => ?_
        by_contra hne
        exact hsyn ⟨p, he, by simpa using hne⟩

/-! ## A run -/

/-- What the network delivers are packets that an endpoint has made. -/
theorem delivered_ofMade {P : Packet → Prop} (hP : OfMade P) {active : Side → Bool}
    {iss : Side → TcpSeq} {rto : Side → Nat → UInt8} {evs : List (Side × Event)}
    (hdel : Along System.step Deliverable (opening active iss rto) evs) :
    Along System.step (fun _ ev => ∀ p, ev.2 = .networkData (some p) → P p)
      (opening active iss rto) evs := by
  refine along_of_invariant (fun s : System => ∀ i, (s i).AllPackets P) ?_ ?_ hdel ?_
  · intro s ev _ hall j
    obtain ⟨i, e⟩ := ev
    rcases Side.eq_or_other i j with rfl | rfl
    · rw [System.step_same]
      exact hP.step (hall j) e
    · rw [System.step_other]
      exact hall _
  · intro s ev hok hall p hp
    obtain ⟨i, e⟩ := ev
    obtain rfl : e = .networkData (some p) := hp
    obtain ⟨p', hp', heq⟩ := hok
    rw [Option.some.inj heq]
    exact (hall i.other).sent p' hp'
  · intro i
    exact hP.start _ _ _

/-- **Replayed handshake packets are harmless, and `recv_next` never goes back, in
exactly the runs where a SYN reaches `control_loop` only while nothing has been
received after it.** -/
theorem syn_harmless_iff (active : Side → Bool) (iss : Side → TcpSeq) (rto : Side → Nat → UInt8)
    (evs : List (Side × Event))
    (hdel : Along System.step Deliverable (opening active iss rto) evs) :
    Along System.step (fun s ev => SynHarmless s ev ∧ NoRewind s ev) (opening active iss rto) evs ↔
    Along System.step NothingSince (opening active iss rto) evs := by
  have hbare := delivered_ofMade bareSyn_ofMade hdel
  constructor
  · intro h
    exact along_mono (fun s ev hok => (synHarmless_iff hok.1).mp hok.2) (along_and.mpr ⟨hbare, h⟩)
  · intro h
    exact along_mono (fun s ev hok => (synHarmless_iff hok.1).mpr hok.2) (along_and.mpr ⟨hbare, h⟩)

/-- The left side connects, and the SYN/ACK comes twice. -/
def twice : List (Side × Event) :=
  [ (.right, .networkData (some (makeStcpPacket TH.syn 1 0 []))),
    (.left, .networkData (some (makeStcpPacket (TH.syn ||| TH.ack) 101 2 []))),
    (.left, .networkData (some (makeStcpPacket (TH.syn ||| TH.ack) 101 2 []))) ]

theorem syn_harmless_twice :
    Along System.step (fun s ev => SynHarmless s ev ∧ NoRewind s ev)
      (opening leftActive firstNumbers underASecond) twice := by
  refine (syn_harmless_iff leftActive firstNumbers underASecond twice (by decide +kernel)).mpr ?_
  refine ⟨?_, ?_, ?_, trivial⟩
  · intro p hp _ hloop
    exact absurd hloop (by decide +kernel)
  · intro p hp _ hloop
    exact absurd hloop (by decide +kernel)
  · intro p hp _ _
    cases hp
    decide +kernel

/-- The right side is connected and has sent a byte when the SYN/ACK comes again. -/
def late : List (Side × Event) :=
  [ (.right, .networkData (some (makeStcpPacket TH.syn 1 0 []))),
    (.left, .networkData (some (makeStcpPacket (TH.syn ||| TH.ack) 101 2 []))),
    (.right, .networkData (some (makeStcpPacket TH.ack 2 102 []))),
    (.right, .appData [97]),
    (.left, .networkData (some (makeStcpPacket TH.ack 102 2 [97]))),
    (.left, .networkData (some (makeStcpPacket (TH.syn ||| TH.ack) 101 2 []))) ]

theorem syn_rewinds :
    Along System.step Deliverable (opening leftActive firstNumbers underASecond) late ∧
    ¬ Along System.step (fun s ev => SynHarmless s ev ∧ NoRewind s ev)
      (opening leftActive firstNumbers underASecond) late := by
  have hdel : Along System.step Deliverable (opening leftActive firstNumbers underASecond)
      late := by
    decide +kernel
  refine ⟨hdel, ?_⟩
  intro h
  obtain ⟨-, -, -, -, -, hlast, -⟩ := h
  obtain ⟨hnext, -⟩ := hlast.1 _ rfl (by decide +kernel) (by decide +kernel)
  exact absurd hnext (by decide +kernel)

end UchiNetworks.Stcp
