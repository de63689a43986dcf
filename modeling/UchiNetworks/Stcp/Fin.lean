import UchiNetworks.Stcp.Delivery

/-!
# STCP: the peer's FIN

The FIN takes the sequence number after the last byte, `b + T.length` for a
stream `T` that starts at `b`, and `recv_next` is to move past it once, when
everything before it has arrived. `control_loop` does not look at the number of
a FIN: every FIN it comes to moves `recv_next` on.

So the receiver counts right exactly as long as each FIN it takes is the next
thing it expects (`FinNext`); a FIN that overtakes data, or comes a second time,
breaks it. Past its FIN a stream is treated as one byte longer, which is how the
window invariant of `Receive` covers the time after the FIN too.
-/

namespace UchiNetworks.Stcp

open UchiNetworks.Lib

/-- Teardown looks at the FIN flag unless the ACK flag has ended the loop. -/
def Context.looksAtFin (ctx : Context) (h : STCPHeader) : Prop :=
  ¬(h.has TH.ack = true ∧ (ctx.connectionState = .lastAck ∨ ctx.connectionState = .closing))

/-- Does an endpoint get as far as looking at the FIN flag of `p`? -/
def Endpoint.takesFin (ep : Endpoint) (p : Packet) : Prop :=
  ep.status = .running ∧ ep.ctx.timerFaults = false ∧ ep.ctx.looksAtFin p.header

instance (ctx : Context) (h : STCPHeader) : Decidable (ctx.looksAtFin h) :=
  inferInstanceAs (Decidable (¬_))

instance (ep : Endpoint) (p : Packet) : Decidable (ep.takesFin p) :=
  inferInstanceAs (Decidable (_ ∧ _ ∧ _))

/-- What may arrive from a peer whose stream `T` is numbered from `b`: pieces of
the stream, and its FIN with the number after it. A peer that keeps to the
window is never half the number space ahead. -/
structure PeerPacket (b : Nat) (T : List UInt8) (ctx : Context) (p : Packet) : Prop where
  piece : Piece b T p
  plain : p.header.has TH.syn = false
  near : p.header.thSeq.toNat < ctx.recvNext.toNat + 2 ^ 31
  fin : p.header.has TH.fin = true → p.data = [] ∧ p.header.thSeq.toNat = b + T.length

/-- The application, the clock and the network do as they like, but the packets
are the peer's. -/
def FromPeer (b : Nat) (T : List UInt8) (ep : Endpoint) (ev : Event) : Prop :=
  ∀ p, ev = .networkData (some p) → PeerPacket b T ep.ctx p

/-- Every FIN the loop takes is the next thing it expects. -/
def FinNext (ep : Endpoint) (ev : Event) : Prop :=
  ∀ p, ev = .networkData (some p) → p.header.has TH.fin = true → ep.takesFin p →
    p.header.thSeq = ep.ctx.recvNext

/-- A step that treats the FIN right. -/
structure FinCounted (b : Nat) (T : List UInt8) (ep : Endpoint) (ev : Event) : Prop where
  /-- the bytes passed up are counted one by one, and the FIN at most once -/
  once : (ep.step ev).ctx.recvNext.toNat = b + (ep.step ev).delivered.length ∨
    (ep.step ev).delivered = T ∧ (ep.step ev).ctx.recvNext.toNat = b + T.length + 1
  pre : (ep.step ev).delivered <+: T
  /-- a FIN in order is counted, an early or repeated one is not -/
  order : ∀ p, ev = .networkData (some p) → p.header.has TH.fin = true →
    (ep.step ev).ctx.recvNext
      = if ep.takesFin p ∧ p.header.thSeq = ep.ctx.recvNext then ep.ctx.recvNext + 1
        else ep.ctx.recvNext
  /-- the application hears of the FIN after all the bytes before it -/
  told : .finReceived ∈ (ep.step ev).calls → (ep.step ev).delivered = T

/-! ## Teardown and the receive side -/

/-- Teardown never writes the window. -/
theorem teardown_window (ctx : Context) (h : STCPHeader) :
    (teardown ctx h).1.recvBuffer = ctx.recvBuffer ∧
    (teardown ctx h).1.recvIndicator = ctx.recvIndicator ∧
    deliveredOf (teardown ctx h).2.2 = [] := by
  unfold teardown teardownAck teardownFin
  cases h.has TH.ack <;> cases h.has TH.fin <;>
    cases hst : ctx.connectionState <;> simp [hst, deliveredOf]

theorem teardown_fin {ctx : Context} {h : STCPHeader} (hfin : h.has TH.fin = true)
    (hlook : ctx.looksAtFin h) : (teardown ctx h).1.recvNext = ctx.recvNext + 1 := by
  unfold Context.looksAtFin at hlook
  unfold teardown teardownAck teardownFin
  cases hack : h.has TH.ack <;> cases hst : ctx.connectionState <;>
    simp [hst, hfin, hack] at hlook ⊢

theorem teardown_noFin {ctx : Context} {h : STCPHeader}
    (hno : ¬(h.has TH.fin = true ∧ ctx.looksAtFin h)) :
    (teardown ctx h).1.recvNext = ctx.recvNext ∧ (teardown ctx h).2.2 = [] := by
  unfold Context.looksAtFin at hno
  unfold teardown teardownAck
  cases hack : h.has TH.ack <;> cases hfin : h.has TH.fin <;> cases hst : ctx.connectionState <;>
    simp [hst, hfin, hack] at hno ⊢

/-- What a network event leaves of the receive side, with or without a FIN. -/
theorem handleNetworkData_recvInv {b : Nat} {T D : List UInt8} {ctx : Context} {p : Packet}
    (hR : RecvInv b T D ctx) (hp : Piece b T p) (hsyn : p.header.has TH.syn = false)
    (hsmall : b + T.length < 2 ^ 32)
    (hnear : p.header.thSeq.toNat < ctx.recvNext.toNat + 2 ^ 31) :
    ∃ ctx', RecvInv b T (D ++ deliveredOf (handleNetworkData ctx (some p)).2.2) ctx' ∧
      ctx'.connectionState = ctx.connectionState ∧
      handleNetworkData ctx (some p) =
        ((teardown ctx' p.header).1, (teardown ctx' p.header).2.1,
          (ackCalls (recvPacket ctx (some p)).1 (recvPacket ctx (some p)).2.2
            ++ (deliver (recvPacket ctx (some p)).1 (recvPacket ctx (some p)).2.2).2)
            ++ (teardown ctx' p.header).2.2) := by
  refine ⟨(deliver (recvPacket ctx (some p)).1 (recvPacket ctx (some p)).2.2).1, ?_, ?_, ?_⟩
  · have hrecv := recvPacket_recvInv hR hp hsyn hsmall fun _ => hnear
    obtain ⟨-, -, hdel⟩ := teardown_window
      (deliver (recvPacket ctx (some p)).1 (recvPacket ctx (some p)).2.2).1
      (recvPacket ctx (some p)).2.1
    rw [handleNetworkData_eq, deliveredOf_append, deliveredOf_append, deliveredOf_ackCalls, hdel,
      List.nil_append, List.append_nil]
    exact hrecv
  · exact (deliver_frame _ _).1.trans (recvPacket_frame ctx (some p)).1
  · rw [handleNetworkData_eq, recvPacket_header]

/-! ## The receiver through the FIN -/

/-- Before its FIN the peer's stream is `T`; after it, one byte longer. -/
def FinInv (b : Nat) (T : List UInt8) (ep : Endpoint) : Prop :=
  ep.status ≠ .opening ∧
  ((RecvInv b T ep.delivered ep.ctx ∧ .finReceived ∉ ep.calls) ∨
    (RecvInv b (T ++ [0]) (T ++ [0]) ep.ctx ∧ ep.delivered = T))

/-- Counting a FIN at the end of the stream. -/
theorem RecvInv.count_fin {b : Nat} {T : List UInt8} {ctx ctx' : Context}
    (h : RecvInv b T T ctx) (hsmall : b + T.length + 1 < 2 ^ 32)
    (hnext : ctx'.recvNext = ctx.recvNext + 1)
    (hind : ctx'.recvIndicator = ctx.recvIndicator) :
    RecvInv b (T ++ [0]) (T ++ [0]) ctx' := by
  have hold := h.next
  refine ⟨?_, List.prefix_refl _, ?_, by rw [hind]; exact h.gap⟩
  · have hone : (1 : TcpSeq).toNat = 1 := by decide
    rw [hnext, BitVec.toNat_add, hone, List.length_append, List.length_singleton]
    omega
  · -- a marked cell past the end of the stream lies past the number space
    intro i hi hmark
    rw [hind] at hmark
    rcases h.fits i hi hmark with hin | hfar
    · have := (List.getElem?_eq_some_iff.mp hin).1
      omega
    · right
      rw [List.length_append]
      omega

/-- A stopped endpoint or one that does not look at the packet keeps its count. -/
theorem FinInv.of_eq {b : Nat} {T : List UInt8} {ep ep' : Endpoint} (h : FinInv b T ep)
    (hst : ep'.status ≠ .opening) (hctx : ep'.ctx = ep.ctx) (hcalls : ep'.calls = ep.calls) :
    FinInv b T ep' := by
  refine ⟨hst, ?_⟩
  simp only [Endpoint.delivered, hctx, hcalls]
  exact h.2

/-- The receive path does not tell the application of a FIN. -/
theorem finReceived_not_mem (ctx : Context) (n : Int) :
    .finReceived ∉ ackCalls ctx n ++ (deliver ctx n).2 := by
  unfold ackCalls deliver
  split <;> split <;> simp

/-- **A packet of the peer.** -/
theorem FinInv.network {b : Nat} {T : List UInt8} {ep : Endpoint} {p : Packet}
    (hsmall : b + T.length + 1 < 2 ^ 32) (hp : PeerPacket b T ep.ctx p)
    (hfin : p.header.has TH.fin = true → ep.ctx.looksAtFin p.header →
      p.header.thSeq = ep.ctx.recvNext)
    (h : FinInv b T ep) {st : Status} (hst : st ≠ .opening) :
    FinInv b T ⟨(handleNetworkData ep.ctx (some p)).1, st,
      ep.calls ++ (handleNetworkData ep.ctx (some p)).2.2⟩ := by
  refine ⟨hst, ?_⟩
  simp only [Endpoint.delivered, deliveredOf_append]
  rcases h.2 with ⟨hR, htold⟩ | ⟨hR, hall⟩
  · obtain ⟨ctx', hR', hstate, heq⟩ :=
      handleNetworkData_recvInv hR hp.piece hp.plain (by omega) hp.near
    obtain ⟨hbuf, hind, -⟩ := teardown_window ctx' p.header
    by_cases htake : p.header.has TH.fin = true ∧ ctx'.looksAtFin p.header
    · -- the FIN is next, so the stream is complete
      right
      have hlook : ep.ctx.looksAtFin p.header := by
        unfold Context.looksAtFin at htake ⊢
        rw [← hstate]
        exact htake.2
      have hseq := hfin htake.1 hlook
      obtain ⟨-, hend⟩ := hp.fin htake.1
      have hnext := hR.next
      rw [← hseq, hend] at hnext
      have hD : ep.delivered = T := hR.pre.eq_of_length (by omega)
      have hD' : ep.delivered ++ deliveredOf (handleNetworkData ep.ctx (some p)).2.2 = T := by
        refine hR'.pre.eq_of_length_le ?_
        rw [List.length_append, hD]
        exact Nat.le_add_right _ _
      rw [hD'] at hR'
      refine ⟨?_, hD'⟩
      rw [heq]
      exact hR'.count_fin hsmall (teardown_fin htake.1 htake.2) hind
    · left
      obtain ⟨hnext, hcalls⟩ := teardown_noFin htake
      refine ⟨by rw [heq] at hR' ⊢; exact hR'.of_eq hnext hbuf hind, ?_⟩
      rw [heq, hcalls, List.append_nil]
      -- nothing is delivered as a FIN by the data part
      intro hmem
      rcases List.mem_append.mp hmem with hmem | hmem
      · exact htold hmem
      · exact finReceived_not_mem _ _ hmem
  · -- after the FIN everything is old
    right
    obtain ⟨ctx', hR', hstate, heq⟩ :=
      handleNetworkData_recvInv hR (hp.piece.mono (List.prefix_append _ _)) hp.plain
        (by rw [List.length_append, List.length_singleton]; omega) hp.near
    obtain ⟨hbuf, hind, -⟩ := teardown_window ctx' p.header
    have hnew : deliveredOf (handleNetworkData ep.ctx (some p)).2.2 = [] := by
      have hlen := hR'.pre.length_le
      rw [List.length_append] at hlen
      exact List.eq_nil_of_length_eq_zero (by omega)
    -- a second FIN would have to be next again
    have hno : ¬(p.header.has TH.fin = true ∧ ctx'.looksAtFin p.header) := by
      rintro ⟨hf, hlook'⟩
      have hlook : ep.ctx.looksAtFin p.header := by
        unfold Context.looksAtFin at hlook' ⊢
        rw [← hstate]
        exact hlook'
      have hnext := hR.next
      rw [← hfin hf hlook, (hp.fin hf).2, List.length_append, List.length_singleton] at hnext
      omega
    rw [hnew, List.append_nil] at hR'
    refine ⟨?_, by rw [hnew, List.append_nil]; exact hall⟩
    rw [heq]
    exact hR'.of_eq (teardown_noFin hno).1 hbuf hind

/-- A packet that is not handled to the end is received and passed up all the same. -/
theorem FinInv.cutShort {b : Nat} {T : List UInt8} {ep : Endpoint} {p : Packet}
    (hsmall : b + T.length + 1 < 2 ^ 32) (hp : PeerPacket b T ep.ctx p)
    (h : FinInv b T ep) {st : Status} (hst : st ≠ .opening) :
    FinInv b T ⟨(Stcp.cutShort ep.ctx (some p)).1, st,
      ep.calls ++ (Stcp.cutShort ep.ctx (some p)).2⟩ := by
  refine ⟨hst, ?_⟩
  simp only [Endpoint.delivered, deliveredOf_append]
  rcases h.2 with ⟨hR, htold⟩ | ⟨hR, hall⟩
  · left
    refine ⟨?_, ?_⟩
    · rw [Stcp.cutShort, deliveredOf_append, deliveredOf_ackCalls, List.nil_append]
      exact recvPacket_recvInv hR hp.piece hp.plain (by omega) fun _ => hp.near
    · intro hmem
      rcases List.mem_append.mp hmem with hmem | hmem
      · exact htold hmem
      · exact finReceived_not_mem _ _ hmem
  · -- after the FIN everything is old
    right
    have hR' := recvPacket_recvInv hR (hp.piece.mono (List.prefix_append _ _)) hp.plain
      (by rw [List.length_append, List.length_singleton]; omega) fun _ => hp.near
    have hnew : deliveredOf
        (deliver (recvPacket ep.ctx (some p)).1 (recvPacket ep.ctx (some p)).2.2).2 = [] := by
      have hlen := hR'.pre.length_le
      rw [List.length_append] at hlen
      exact List.eq_nil_of_length_eq_zero (by omega)
    rw [hnew, List.append_nil] at hR'
    rw [Stcp.cutShort, deliveredOf_append, deliveredOf_ackCalls, hnew, List.append_nil,
      List.append_nil]
    exact ⟨hR', hall⟩

/-- **One step of the receiver.** -/
theorem FinInv.step {b : Nat} {T : List UInt8} {ep : Endpoint} {ev : Event}
    (hsmall : b + T.length + 1 < 2 ^ 32) (henv : FromPeer b T ep ev) (hfin : FinNext ep ev)
    (h : FinInv b T ep) : FinInv b T (ep.step ev) := by
  rcases Endpoint.step_cases h.1 ev with ⟨-, hctx, hcalls, -⟩ | ⟨hrun, hfault, heq⟩
  · exact h.of_eq (Endpoint.step_not_opening h.1 ev) hctx hcalls
  rw [heq]
  by_cases hown : ∀ packet, ev ≠ .networkData packet
  · -- the endpoint's own side
    obtain ⟨hnext, hbuf, hind, hdel, hno⟩ := @handleEvent_own ep.ctx ev hown
    refine ⟨handleEvent_status _ _, ?_⟩
    simp only [Endpoint.delivered, deliveredOf_append, hdel, List.append_nil, List.mem_append]
    rcases h.2 with ⟨hR, htold⟩ | ⟨hR, hall⟩
    · exact Or.inl ⟨hR.of_eq hnext hbuf hind, by simp [htold, hno]⟩
    · exact Or.inr ⟨hR.of_eq hnext hbuf hind, hall⟩
  · obtain ⟨packet, rfl⟩ : ∃ packet, ev = .networkData packet := by
      by_contra hno
      exact hown fun packet heq => hno ⟨packet, heq⟩
    cases packet with
    | none =>
      -- too short: `recv_packet` leaves a zero header
      refine h.of_eq (handleEvent_status _ _) ?_ ?_ <;>
        simp [handleEvent_none]
    | some p =>
      have hst := handleEvent_status ep.ctx (.networkData (some p))
      rcases handleEvent_network ep.ctx (some p) with hev | hev | hev
      · rw [hev] at hst ⊢
        exact h.of_eq hst rfl (List.append_nil _)
      · rw [hev] at hst ⊢
        exact h.cutShort hsmall (henv p rfl) hst
      · rw [hev] at hst ⊢
        exact h.network hsmall (henv p rfl) (fun hf hlook => hfin p rfl hf ⟨hrun, hfault, hlook⟩)
          hst

/-- A bare FIN moves `recv_next` on by one, whatever its number. -/
theorem fin_recvNext {ep : Endpoint} {p : Packet} (hopen : ep.status ≠ .opening)
    (hfin : p.header.has TH.fin = true) (hsyn : p.header.has TH.syn = false)
    (hoff : p.header.thOff = offset) (hdata : p.data = []) :
    (ep.step (.networkData (some p))).ctx.recvNext
      = if ep.takesFin p then ep.ctx.recvNext + 1 else ep.ctx.recvNext := by
  rcases Endpoint.step_cases hopen (.networkData (some p)) with
    ⟨hidle, hctx, -, -⟩ | ⟨hrun, hfault, heq⟩
  · rw [hctx, if_neg fun htake => hidle ⟨htake.1, htake.2.1⟩]
  · -- without a payload `recv_packet` gets to the header at once
    have hrecv : recvPacket ep.ctx (some p) = (recvHeader ep.ctx p.header, p.header, 0) :=
      recvPacket_taken (recvPayload_bare hoff hdata)
    have hnext : (recvHeader ep.ctx p.header).recvNext = ep.ctx.recvNext := by
      rw [recvHeader_recvNext, hsyn]
      rfl
    have hstate : (recvHeader ep.ctx p.header).connectionState = ep.ctx.connectionState :=
      (recvHeader_frame ep.ctx p.header).1
    have hctx : (ep.step (.networkData (some p))).ctx
        = (teardown (recvHeader ep.ctx p.header) p.header).1 := by
      rw [heq, handleEvent_bare hoff hdata, handleNetworkData_eq, hrecv]
      rfl
    have hlook : (recvHeader ep.ctx p.header).looksAtFin p.header ↔ ep.ctx.looksAtFin p.header := by
      unfold Context.looksAtFin
      rw [hstate]
    rw [hctx]
    by_cases htake : ep.takesFin p
    · rw [if_pos htake, teardown_fin hfin (hlook.mpr htake.2.2), hnext]
    · rw [if_neg htake, (teardown_noFin fun hboth => htake
        ⟨hrun, hfault, hlook.mp hboth.2⟩).1, hnext]

/-- A step from a state that counts right counts the FIN right. -/
theorem FinInv.counted {b : Nat} {T : List UInt8} {ep : Endpoint} {ev : Event}
    (hsmall : b + T.length + 1 < 2 ^ 32) (henv : FromPeer b T ep ev) (hfin : FinNext ep ev)
    (h : FinInv b T ep) : FinCounted b T ep ev := by
  have hafter := h.step hsmall henv hfin
  refine ⟨?_, ?_, ?_, ?_⟩
  · rcases hafter.2 with ⟨hR, -⟩ | ⟨hR, hall⟩
    · exact Or.inl hR.next
    · refine Or.inr ⟨hall, ?_⟩
      rw [hR.next, List.length_append, List.length_singleton, Nat.add_assoc]
  · rcases hafter.2 with ⟨hR, -⟩ | ⟨-, hall⟩
    · exact hR.pre
    · exact ⟨[], by rw [List.append_nil, hall]⟩
  · intro p hev hf
    subst hev
    have hp := henv p rfl
    rw [fin_recvNext h.1 hf hp.plain hp.piece.off (hp.fin hf).1]
    by_cases htake : ep.takesFin p
    · rw [if_pos htake, if_pos ⟨htake, hfin p rfl hf htake⟩]
    · rw [if_neg htake, if_neg fun hboth => htake hboth.1]
  · intro htold
    rcases hafter.2 with ⟨-, hno⟩ | ⟨-, hall⟩
    · exact absurd htold hno
    · exact hall

/-- An established receiver that has had nothing from its peer yet, whose next
byte has the number `b`. -/
structure Receiving (b : Nat) (ep : Endpoint) : Prop where
  running : ep.status = .running
  state : ep.ctx.connectionState = .established
  recvNext : ep.ctx.recvNext.toNat = b
  window : ∀ k, ep.ctx.recvIndicator k = false
  delivered : ep.delivered = []
  untold : .finReceived ∉ ep.calls

theorem Receiving.finInv {b : Nat} {ep : Endpoint} (h : Receiving b ep) (T : List UInt8) :
    FinInv b T ep := by
  refine ⟨by rw [h.running]; decide, Or.inl ⟨⟨?_, ?_, fits_empty h.window, h.window 0⟩, h.untold⟩⟩
  · rw [h.delivered]
    exact h.recvNext
  · rw [h.delivered]
    exact List.nil_prefix

/-- **The FIN is counted right in exactly the runs where every FIN that is
looked at comes in order.** -/
theorem fin_counted_iff_in_order {b : Nat} {T : List UInt8} {ep₀ : Endpoint} {evs : List Event}
    (hstart : Receiving b ep₀) (hsmall : b + T.length + 1 < 2 ^ 32)
    (henv : Along Endpoint.step (FromPeer b T) ep₀ evs) :
    Along Endpoint.step (FinCounted b T) ep₀ evs ↔ Along Endpoint.step FinNext ep₀ evs := by
  have hopen : Along Endpoint.step (fun ep _ => ep.status ≠ .opening) ep₀ evs :=
    along_of_invariant (fun ep => ep.status ≠ .opening)
      (fun ep ev _ hst => Endpoint.step_not_opening hst ev) (fun _ _ _ hst => hst) henv
      (by rw [hstart.running]; decide)
  constructor
  · intro hcount
    refine along_mono ?_ (along_and.mpr ⟨along_and.mpr ⟨henv, hcount⟩, hopen⟩)
    rintro ep ev ⟨⟨henv', hcount'⟩, hopen'⟩ p rfl hf htake
    -- a FIN the loop takes moves `recv_next`, and a right count only does for one in order
    have hp := henv' p rfl
    have horder := hcount'.order p rfl hf
    rw [fin_recvNext hopen' hf hp.plain hp.piece.off (hp.fin hf).1, if_pos htake] at horder
    by_contra hne
    rw [if_neg fun hboth => hne hboth.2] at horder
    have := congrArg BitVec.toNat horder
    exact absurd this (by bv_omega)
  · intro hnext
    refine along_of_invariant (FinInv b T) ?_ ?_ (along_and.mpr ⟨henv, hnext⟩)
      (hstart.finInv T)
    · rintro ep ev ⟨henv', hnext'⟩ hinv
      exact hinv.step hsmall henv' hnext'
    · rintro ep ev ⟨henv', hnext'⟩ hinv
      exact hinv.counted hsmall henv' hnext'

theorem greeted_receiving (mine theirs : TcpSeq) :
    Receiving theirs.toNat (greeted mine theirs) :=
  ⟨rfl, rfl, rfl, fun _ => rfl, rfl, by simp [greeted]⟩

/-- The peer's only byte and its FIN, sent from number 2 on. -/
def lastByte : Packet := makeStcpPacket TH.ack 2 1001 [97]
def lastFin : Packet := makeStcpPacket TH.fin 3 1001 []

theorem lastByte_peer {ctx : Context} : PeerPacket 2 [97] ctx lastByte :=
  ⟨⟨rfl, by decide, by decide, by decide, by decide⟩, by decide,
    by have : lastByte.header.thSeq.toNat = 2 := by decide
       omega,
    fun h => absurd h (by decide)⟩

theorem lastFin_peer {ctx : Context} : PeerPacket 2 [97] ctx lastFin :=
  ⟨⟨rfl, by decide, by decide, by decide, by decide⟩, by decide,
    by have : lastFin.header.thSeq.toNat = 3 := by decide
       omega,
    fun _ => ⟨rfl, by decide⟩⟩

/-- In order, and the byte once more after the FIN. -/
def orderlyEnd : List Event :=
  [.networkData (some lastByte), .networkData (some lastFin), .networkData (some lastByte)]

theorem orderlyEnd_counted :
    Along Endpoint.step (FinCounted 2 [97]) (greeted 1001 2) orderlyEnd := by
  refine (fin_counted_iff_in_order (greeted_receiving 1001 2) (by decide) ?_).mpr ?_
  · refine ⟨?_, ?_, ?_, trivial⟩
    · rintro p ⟨⟩
      exact lastByte_peer
    · rintro p ⟨⟩
      exact lastFin_peer
    · rintro p ⟨⟩
      exact lastByte_peer
  · refine ⟨?_, ?_, ?_, trivial⟩ <;> rintro p ⟨⟩ <;> decide +kernel

/-- The FIN overtakes the byte: it is counted at once, with the byte missing. -/
theorem earlyFin_miscounted :
    Receiving 2 (greeted 1001 2) ∧
    Along Endpoint.step (FromPeer 2 [97]) (greeted 1001 2) [.networkData (some lastFin)] ∧
    ¬Along Endpoint.step (FinCounted 2 [97]) (greeted 1001 2) [.networkData (some lastFin)] := by
  refine ⟨greeted_receiving 1001 2, ⟨?_, trivial⟩, ?_⟩
  · rintro p ⟨⟩
    exact lastFin_peer
  · rintro ⟨hcount, -⟩
    exact absurd (hcount.order lastFin rfl (by decide)) (by decide +kernel)

end UchiNetworks.Stcp
