import UchiNetworks.Stcp.Sender

/-!
# STCP: the FIN's sequence number

`APP_CLOSE_REQUESTED` has two branches. Both send a FIN numbered `send_next` and
list it; then the one for `CLOSE_WAIT` adds one to `send_next`, for the FIN
counts as a byte, and the one for `ESTABLISHED` adds one to `send_unack`. That
is one byte acknowledged which nobody has acknowledged (`close_uncounted`), and
`packet_t_remove` believes it.

`close_counts_iff` has the two sides of it: which close requests are right, and
what follows for a run in which they all are.
-/

namespace UchiNetworks.Stcp

open UchiNetworks.Lib

/-- A close request sends one FIN at `send_next`, lists it, and counts it there. -/
structure ClosesRight (ctx : Context) : Prop where
  sent : (handleEvent ctx .appCloseRequested).2.2
    = [.networkSend (makeStcpPacket TH.fin ctx.sendNext ctx.recvNext [])]
  listed : (handleEvent ctx .appCloseRequested).1.unackdPackets
    = ctx.unackdPackets ++ [⟨0, ctx.sendNext, makeStcpPacket TH.fin ctx.sendNext ctx.recvNext []⟩]
  next : (handleEvent ctx .appCloseRequested).1.sendNext = ctx.sendNext + 1
  unack : (handleEvent ctx .appCloseRequested).1.sendUnack = ctx.sendUnack

/-- Every close request that `control_loop` handles comes outside of `ESTABLISHED`. -/
def NoActiveClose (ep : Endpoint) (ev : Event) : Prop :=
  ev = .appCloseRequested → ep.status = .running → ep.ctx.connectionState ≠ .established

instance (ep : Endpoint) (ev : Event) : Decidable (NoActiveClose ep ev) :=
  inferInstanceAs (Decidable (ev = .appCloseRequested → ep.status = .running →
    ep.ctx.connectionState ≠ .established))

/-- One of the events acknowledges the number `a`. -/
def AckedIn (hist : List Event) (a : TcpSeq) : Prop :=
  ∃ p, .networkData (some p) ∈ hist ∧ p.header.has TH.ack = true ∧ p.header.thAck = a

/-- One of the events acknowledges the last byte of a listed packet. -/
def Covered (hist : List Event) (q : PacketT) : Prop :=
  ∃ a, AckedIn hist a ∧ q.seqNum.toNat + q.packet.data.length ≤ a.toNat

/-- The data segments that `ep` lists are still listed by `ep'`, but for those
whose last byte is acknowledged. -/
def KeepsData (hist : List Event) (ep ep' : Endpoint) : Prop :=
  ∀ q ∈ ep.ctx.unackdPackets, q.packet.data ≠ [] →
    (∃ q' ∈ ep'.ctx.unackdPackets, q'.seqNum = q.seqNum ∧ q'.packet.data = q.packet.data) ∨
      Covered hist q

/-! ## One close request -/

theorem closesRight_iff {ctx : Context}
    (hst : ctx.connectionState = .established ∨ ctx.connectionState = .closeWait) :
    ClosesRight ctx ↔ ctx.connectionState = .closeWait := by
  constructor
  · intro h
    rcases hst with hest | hwait
    · -- `send_next` has stayed where it was
      have hsame : (handleEvent ctx .appCloseRequested).1.sendNext = ctx.sendNext := by
        simp only [handleEvent, handleClose, hest]
        rfl
      have hone : ctx.sendNext + 0 = ctx.sendNext + 1 := by
        rw [add_zero]
        exact hsame.symm.trans h.next
      exact absurd (add_left_cancel hone) (by decide)
    · exact hwait
  · intro hwait
    have hrun : handleEvent ctx .appCloseRequested =
        ({ packetTCreate ctx (makeStcpPacket TH.fin ctx.sendNext ctx.recvNext []) with
            sendNext := ctx.sendNext + 1, connectionState := .lastAck }, .running,
          [.networkSend (makeStcpPacket TH.fin ctx.sendNext ctx.recvNext [])]) := by
      simp only [handleEvent, handleClose, hwait]
    exact ⟨by rw [hrun], by rw [hrun]; rfl, by rw [hrun], by rw [hrun]; rfl⟩

/-! ## A run -/

/-- Where `send_unack` comes from: in the handshake it may still be the first
number, after it the peer has acknowledged it. -/
structure AckInv (iss : TcpSeq) (hist : List Event) (ep : Endpoint) : Prop where
  opening : ep.status = .opening → Greeting iss (AckedIn hist) ep
  running : ep.status = .running → AckedIn hist ep.ctx.sendUnack

theorem AckedIn.mono {hist : List Event} {a : TcpSeq} (h : AckedIn hist a) (ev : Event) :
    AckedIn (hist ++ [ev]) a := by
  obtain ⟨p, hp, hrest⟩ := h
  exact ⟨p, List.mem_append_left _ hp, hrest⟩

theorem ackedIn_of_with {hist : List Event} {packet : Option Packet} {a : TcpSeq}
    (h : AckedWith (AckedIn hist) packet a) : AckedIn (hist ++ [.networkData packet]) a := by
  rcases h with hold | ⟨p, rfl, hack, hnum⟩
  · exact hold.mono _
  · exact ⟨p, List.mem_append_right _ (List.mem_singleton.mpr rfl), hack, hnum⟩

theorem KeepsData.of_sublist {hist : List Event} {ep ep' : Endpoint}
    (h : ∀ q ∈ ep.ctx.unackdPackets, q ∈ ep'.ctx.unackdPackets) : KeepsData hist ep ep' :=
  fun q hq _ => Or.inl ⟨q, h q hq, rfl, rfl⟩

/-- What `packet_t_remove` drops is acknowledged. -/
theorem keepsData_hear {hist : List Event} {ep ep' : Endpoint} {h : STCPHeader}
    (hlist : ep'.ctx.sendSide = ep.ctx.sendSide.hear h) (hack : AckedIn hist ep'.ctx.sendUnack) :
    KeepsData hist ep ep' := by
  intro q hq _
  have hunack := congrArg SendSide.unack hlist
  have hlisted : ep'.ctx.unackdPackets
      = ep.ctx.unackdPackets.dropWhile (PacketT.acked ep'.ctx.sendUnack) := by
    rw [show ep'.ctx.sendUnack = _ from hunack]
    exact congrArg SendSide.listed hlist
  rw [← List.takeWhile_append_dropWhile (p := PacketT.acked ep'.ctx.sendUnack)
    (l := ep.ctx.unackdPackets)] at hq
  rcases List.mem_append.mp hq with hgone | hkept
  · have hdrop := List.mem_takeWhile_imp hgone
    rw [PacketT.acked, decide_eq_true_eq] at hdrop
    exact Or.inr ⟨_, hack, hdrop⟩
  · rw [← hlisted] at hkept
    exact Or.inl ⟨q, hkept, rfl, rfl⟩

/-- One event in `control_loop`. -/
theorem ackedIn_event {hist : List Event} {ep : Endpoint} {ev : Event}
    (hrun : ep.status = .running) (hok : NoActiveClose ep ev) (h : AckedIn hist ep.ctx.sendUnack) :
    AckedIn (hist ++ [ev]) (handleEvent ep.ctx ev).1.sendUnack ∧
    KeepsData (hist ++ [ev]) ep (ep.after ev) := by
  cases ev with
  | appData queued =>
    refine ⟨?_, KeepsData.of_sublist fun q hq => listed_handleEvent (Or.inl ⟨queued, rfl⟩) hq⟩
    rcases handleAppData_cases ep.ctx queued with heq | ⟨buffer, -, -, -, heq⟩
    · simp only [handleEvent, heq]
      exact h.mono _
    · simp only [handleEvent, heq]
      exact h.mono _
  | networkData packet =>
    cases packet with
    | none =>
      refine ⟨?_, KeepsData.of_sublist ?_⟩
      · rw [handleEvent_none]
        exact h.mono _
      · rw [show (ep.after (.networkData none)).ctx = ep.ctx from
          congrArg Prod.fst (handleEvent_none _)]
        exact fun q hq => hq
    | some p =>
      rcases handleEvent_sendSide_eq ep.ctx p with hside | ⟨-, hside⟩
      · refine ⟨?_, KeepsData.of_sublist ?_⟩
        · rw [show (handleEvent ep.ctx (.networkData (some p))).1.sendUnack = ep.ctx.sendUnack from
            congrArg SendSide.unack hside]
          exact h.mono _
        · rw [show (ep.after (.networkData (some p))).ctx.unackdPackets = ep.ctx.unackdPackets from
            congrArg SendSide.listed hside]
          exact fun q hq => hq
      · have hack : AckedIn (hist ++ [.networkData (some p)])
            (handleEvent ep.ctx (.networkData (some p))).1.sendUnack := by
          rw [show (handleEvent ep.ctx (.networkData (some p))).1.sendUnack = _ from
            congrArg SendSide.unack hside]
          rcases ackPoint_cases ep.ctx.sendUnack p.header with hsame | ⟨hflag, hnew⟩
          · rw [show (ep.ctx.sendSide.hear p.header).unack = _ from hsame]
            exact h.mono _
          · exact ⟨p, List.mem_append_right _ (List.mem_singleton.mpr rfl), hflag, hnew.symm⟩
        exact ⟨hack, keepsData_hear hside hack⟩
  | appCloseRequested =>
    have hne := hok rfl hrun
    refine ⟨?_, KeepsData.of_sublist fun q hq => listed_handleEvent (Or.inr rfl) hq⟩
    -- only a close in `ESTABLISHED` moves `send_unack`
    have hsame : (handleEvent ep.ctx .appCloseRequested).1.sendUnack = ep.ctx.sendUnack := by
      simp only [handleEvent, handleClose]
      split
      next hest => exact absurd hest hne
      next => rfl
      next => rfl
    rw [hsame]
    exact h.mono _
  | timeout =>
    refine ⟨h.mono _, ?_⟩
    intro q hq _
    exact Or.inl ⟨q.resend ep.ctx.recvNext, List.mem_map_of_mem hq, rfl, rfl⟩

/-- **One step**: data segments stay listed until their last byte is acknowledged. -/
theorem AckInv.step {iss : TcpSeq} {hist : List Event} {ep : Endpoint} {ev : Event}
    (hwrap : iss.toNat + 1 < 4294967296) (hok : NoActiveClose ep ev) (h : AckInv iss hist ep) :
    AckInv iss (hist ++ [ev]) (ep.step ev) ∧ KeepsData (hist ++ [ev]) ep (ep.step ev) := by
  by_cases hopen : ep.status = .opening
  · have hgreet := h.opening hopen
    have hbare : ∀ ep' : Endpoint, KeepsData (hist ++ [ev]) ep ep' :=
      fun ep' q hq hdata => absurd (hgreet.listed q hq).2 hdata
    refine ⟨?_, hbare _⟩
    rcases ep.step_opening hopen ev with ⟨heq, -⟩ | ⟨packet, rfl, heq⟩
    · rw [heq]
      exact ⟨fun _ => hgreet.mono fun a ha => ha.mono ev, elsewhere (by decide) hopen⟩
    · rw [heq]
      rcases hgreet.network hwrap packet with ⟨hst, hnew⟩ | hst | ⟨hst, hnew⟩
      · exact ⟨fun _ => hnew.mono fun a => ackedIn_of_with, elsewhere (by decide) hst⟩
      · exact ⟨elsewhere (by decide) hst, elsewhere (by decide) hst⟩
      · exact ⟨elsewhere (by decide) hst,
          fun _ => ackedIn_of_with hnew.acked⟩
  · rcases Endpoint.step_cases hopen ev with ⟨hidle, hctx, -, hst⟩ | ⟨hrun, -, heq⟩
    · have hunack : (ep.step ev).ctx.sendUnack = ep.ctx.sendUnack := by rw [hctx]
      refine ⟨⟨?_, ?_⟩, KeepsData.of_sublist (by rw [hctx]; exact fun q hq => hq)⟩
      · intro hop
        exact absurd hop (ep.step_not_opening hopen ev)
      · intro hrun
        rcases hst with hsame | hcrash
        · rw [hunack]
          exact (h.running (by rw [← hsame]; exact hrun)).mono ev
        · exact elsewhere (by decide) hcrash hrun
    · obtain ⟨hack, hkeep⟩ := ackedIn_event hrun hok (h.running hrun)
      rw [heq]
      exact ⟨⟨fun hop => absurd hop (handleEvent_status _ _), fun _ => hack⟩, hkeep⟩

/-- **A close request accounts for its FIN exactly in `CLOSE_WAIT`.** In a run in
which none comes in `ESTABLISHED`, no data segment leaves the list before its
last byte is acknowledged. -/
theorem close_counts_iff (isActive : Bool) (iss : TcpSeq) (rto : Nat → UInt8) (evs : List Event)
    (hiss : iss.toNat < maxInitSeq) :
    (∀ ctx : Context, ctx.connectionState = .established ∨ ctx.connectionState = .closeWait →
      (ClosesRight ctx ↔ ctx.connectionState = .closeWait)) ∧
    (Along Endpoint.step NoActiveClose (transportInit isActive iss rto) evs →
      ∀ (pre : List Event) (ev : Event), pre ++ [ev] <+: evs →
        KeepsData (pre ++ [ev]) (run Endpoint.step (transportInit isActive iss rto) pre)
          (run Endpoint.step (transportInit isActive iss rto) (pre ++ [ev]))) := by
  refine ⟨fun ctx hst => closesRight_iff hst, ?_⟩
  intro hal pre ev hpre
  have hwrap := succ_lt_of_iss hiss
  obtain ⟨rest, rfl⟩ := hpre
  obtain ⟨hpre, -⟩ := (along_append _ _ _ _ _).mp hal
  obtain ⟨hpre, hlast, -⟩ := (along_append _ _ _ _ _).mp hpre
  have hinv : AckInv iss pre (run Endpoint.step (transportInit isActive iss rto) pre) := by
    refine run_history (AckInv iss) (fun hist ep e hok h => (h.step hwrap hok).1) hpre ?_
    obtain ⟨hst, hgreet⟩ := transportInit_greeting isActive iss rto (AckedIn [])
    exact ⟨fun _ => hgreet, elsewhere (by decide) hst⟩
  rw [run_append]
  exact (hinv.step hwrap hlast).2

/-- A server that has sent two bytes when its peer closes. -/
def peerCloses : List Event :=
  [ .networkData (some (makeStcpPacket TH.syn 1 0 [])),
    .networkData (some (makeStcpPacket TH.ack 2 102 [])),
    .appData [104, 105],
    .networkData (some (makeStcpPacket TH.fin 2 102 [])) ]

/-- Then it closes too, and its two bytes are acknowledged. -/
def closesSecond : List Event := peerCloses ++ [.appCloseRequested]

def bytesAcked : Event := .networkData (some (makeStcpPacket TH.ack 3 104 []))

theorem close_counts_second :
    ClosesRight (run Endpoint.step (transportInit false 101 (fun _ => 0)) peerCloses).ctx ∧
    KeepsData (closesSecond ++ [bytesAcked])
      (run Endpoint.step (transportInit false 101 (fun _ => 0)) closesSecond)
      (run Endpoint.step (transportInit false 101 (fun _ => 0))
        (closesSecond ++ [bytesAcked])) := by
  have hcounts := close_counts_iff false 101 (fun _ => 0) (closesSecond ++ [bytesAcked]) (by decide)
  constructor
  · exact (hcounts.1 _ (Or.inr (by decide +kernel))).mpr (by decide +kernel)
  · exact hcounts.2 (by decide +kernel) closesSecond bytesAcked (List.prefix_refl _)

/-- A client that has sent one byte and closes, and then hears an acknowledgment
that it has heard before. -/
def closesFirst : List Event :=
  [ .networkData (some (makeStcpPacket (TH.syn ||| TH.ack) 101 2 [])), .appData [97] ]

def oldAck : Packet := makeStcpPacket TH.ack 102 2 []

theorem close_uncounted :
    (run Endpoint.step (transportInit true 1 (fun _ => 0)) closesFirst).ctx.connectionState
      = .established ∧
    ¬ ClosesRight (run Endpoint.step (transportInit true 1 (fun _ => 0)) closesFirst).ctx ∧
    ¬ KeepsData (closesFirst ++ [.appCloseRequested, .networkData (some oldAck)])
      (run Endpoint.step (transportInit true 1 (fun _ => 0)) (closesFirst ++ [.appCloseRequested]))
      (run Endpoint.step (transportInit true 1 (fun _ => 0))
        (closesFirst ++ [.appCloseRequested, .networkData (some oldAck)])) := by
  have hest :
      (run Endpoint.step (transportInit true 1 (fun _ => 0)) closesFirst).ctx.connectionState
        = .established := by decide +kernel
  refine ⟨hest, ?_, ?_⟩
  · intro hright
    exact absurd ((closesRight_iff (Or.inl hest)).mp hright) (by rw [hest]; decide)
  · intro hkeep
    rcases hkeep ⟨0, 2, makeStcpPacket TH.ack 2 102 [97]⟩ (by decide +kernel) (by decide)
      with ⟨q, hq, -⟩ | ⟨a, ⟨p, hp, -, rfl⟩, hle⟩
    · rw [show (run Endpoint.step (transportInit true 1 (fun _ => 0)) (closesFirst ++
        [.appCloseRequested, .networkData (some oldAck)])).ctx.unackdPackets = [] by
          decide +kernel] at hq
      exact absurd hq List.not_mem_nil
    · -- both acknowledgments are for the number 2
      have hnum : p.header.thAck = 2 := by
        rcases List.mem_cons.mp hp with hp | hp
        · cases hp
          rfl
        rcases List.mem_cons.mp hp with hp | hp
        · cases hp
        rcases List.mem_cons.mp hp with hp | hp
        · cases hp
        · cases List.mem_singleton.mp hp
          rfl
      rw [hnum] at hle
      exact absurd hle (by decide)

end UchiNetworks.Stcp
