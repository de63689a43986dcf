import UchiNetworks.Stcp.Sender

/-!
# STCP: packets without data on the list

A SYN and a FIN count as one byte, but their entries on `unackd_packets` carry
none, and `packet_t_remove` drops an entry as soon as `send_unack` has reached
the end of its data. For them that is their own number, so any packet that leaves
everything before them acknowledged removes them: a second SYN empties the list
of a server that still waits for its ACK (`synAck_dropped`), and the loop goes on
to read the first entry of an empty list.

`lists_until_acked` is about the runs in which this does not happen: whatever
gets as far as the removal acknowledges the SYN or FIN itself.
-/

namespace UchiNetworks.Stcp

open UchiNetworks.Lib

/-- The endpoint waits for its SYN or SYN/ACK to be acknowledged. -/
def Endpoint.awaiting (ep : Endpoint) : Prop :=
  ep.status = .opening ∧
    (ep.ctx.connectionState = .synSent ∨ ep.ctx.connectionState = .synReceived)

instance (ep : Endpoint) : Decidable ep.awaiting := inferInstanceAs (Decidable (_ ∧ (_ ∨ _)))

/-- Where the next iteration sets a timeout, there is a packet to read the time of. -/
structure FindsPacket (ep : Endpoint) : Prop where
  opening : ep.awaiting → ep.ctx.unackdPackets ≠ []
  running : ep.status = .running → ep.ctx.timerFaults = false

/-- `p` acknowledges the number of the listed packet. -/
def Acknowledges (p : Packet) (q : PacketT) : Prop :=
  p.header.has TH.ack = true ∧ q.seqNum < p.header.thAck

/-- A SYN, SYN/ACK or FIN stays on the list until its number is acknowledged. -/
def KeepsControl (ep : Endpoint) (ev : Event) : Prop :=
  ∀ q ∈ ep.ctx.unackdPackets, q.packet.data = [] →
    (∃ q' ∈ (ep.step ev).ctx.unackdPackets, q'.seqNum = q.seqNum ∧ q'.packet.data = [] ∧
      q'.packet.header.thFlags = q.packet.header.thFlags) ∨
    ∃ p, ev = .networkData (some p) ∧ Acknowledges p q

/-- With `p`, everything before the number of `q` is acknowledged. -/
def Reaches (ctx : Context) (p : Packet) (q : PacketT) : Prop :=
  q.seqNum ≤ ctx.sendUnack ∨ (p.header.has TH.ack = true ∧ q.seqNum ≤ p.header.thAck)

/-- What an endpoint that waits is to get: the acknowledgment of its SYN, a
SYN/ACK if it is the client, and not with old data only. -/
structure Completing (ctx : Context) (p : Packet) : Prop where
  ack : p.header.has TH.ack = true
  number : p.header.thAck = ctx.sendNext
  syn : ctx.connectionState = .synSent → p.header.has TH.syn = true
  fresh : Behind ctx p → ¬ AllOld ctx.recvNext p

/-- Every packet that is not beyond the window, and gets as far as a SYN, SYN/ACK
or FIN on the list, acknowledges it; the one that does so in the handshake
completes it. -/
def AcksControl (ep : Endpoint) : Event → Prop
  | .networkData (some p) => ¬ Beyond ep.ctx p →
    (ep.awaiting → Completing ep.ctx p) ∧
    (ep.status = .running → ∀ q ∈ ep.ctx.unackdPackets, q.packet.data = [] →
      Reaches ep.ctx p q → Acknowledges p q)
  | _ => True

instance (ctx : Context) (p : Packet) : Decidable (Beyond ctx p) :=
  inferInstanceAs (Decidable (_ ∧ _))

instance (ctx : Context) (p : Packet) : Decidable (Behind ctx p) :=
  inferInstanceAs (Decidable (_ ∧ _))

instance (recvNext : TcpSeq) (p : Packet) : Decidable (AllOld recvNext p) :=
  inferInstanceAs (Decidable (_ ≤ _))

instance (p : Packet) (q : PacketT) : Decidable (Acknowledges p q) :=
  inferInstanceAs (Decidable (_ ∧ _))

instance (ctx : Context) (p : Packet) (q : PacketT) : Decidable (Reaches ctx p q) :=
  inferInstanceAs (Decidable (_ ∨ (_ ∧ _)))

instance (ctx : Context) (p : Packet) : Decidable (Completing ctx p) :=
  decidable_of_iff
    (p.header.has TH.ack = true ∧ p.header.thAck = ctx.sendNext ∧
      (ctx.connectionState = .synSent → p.header.has TH.syn = true) ∧
      (Behind ctx p → ¬ AllOld ctx.recvNext p))
    ⟨fun h => ⟨h.1, h.2.1, h.2.2.1, h.2.2.2⟩, fun h => ⟨h.ack, h.number, h.syn, h.fresh⟩⟩

instance AcksControl.decidable (ep : Endpoint) : ∀ ev, Decidable (AcksControl ep ev)
  | .networkData (some p) => inferInstanceAs (Decidable (¬ Beyond ep.ctx p →
      (ep.awaiting → Completing ep.ctx p) ∧
      (ep.status = .running → ∀ q ∈ ep.ctx.unackdPackets, q.packet.data = [] →
        Reaches ep.ctx p q → Acknowledges p q)))
  | .networkData none => isTrue trivial
  | .appData _ => isTrue trivial
  | .appCloseRequested => isTrue trivial
  | .timeout => isTrue trivial

/-! ## The handshake -/

theorem recvPacket_count {ctx : Context} {p : Packet} (hin : ¬ Beyond ctx p)
    (hfresh : Behind ctx p → ¬ AllOld ctx.recvNext p) : 0 ≤ (recvPacket ctx (some p)).2.2 := by
  cases hpay : recvPayload ctx p with
  | none => exact absurd (recvPayload_eq_none.mp hpay) hin
  | some r =>
    obtain ⟨ctx', n⟩ := r
    rw [recvPacket_taken hpay]
    show 0 ≤ n
    -- `-2` is returned when all of the payload is old
    have hold : n = -2 → Behind ctx p ∧ AllOld ctx.recvNext p := by
      intro hn
      unfold recvPayload at hpay
      split at hpay
      next =>
        rw [← (Prod.mk.inj (Option.some.inj hpay)).2] at hn
        exact absurd hn (by decide)
      next hlen =>
        obtain ⟨c, hc, hstore⟩ := Option.map_eq_some_iff.mp hpay
        have hcold : c.old = true := by
          rw [← storeClip_old ctx p c, hstore]
          exact hn
        have hneg : (p.header.thSeq - ctx.recvNext).toInt < 0 := by
          by_contra hpos
          unfold clipPayload at hc
          rw [if_neg hpos] at hc
          split at hc
          next => cases hc
          next =>
            rw [← Option.some.inj hc] at hcold
            exact Bool.false_ne_true hcold
        obtain ⟨c', hc', hiff⟩ := clipPayload_behind hneg
        rw [hc] at hc'
        rw [← Option.some.inj hc'] at hiff
        exact ⟨⟨hlen, hneg⟩, hiff.mp hcold⟩
    -- everything else counts bytes put into the window
    have hcases : n = -2 ∨ 0 ≤ n := by
      unfold recvPayload at hpay
      split at hpay
      next =>
        rw [← (Prod.mk.inj (Option.some.inj hpay)).2]
        exact Or.inr (Int.le_refl 0)
      next =>
        obtain ⟨c, -, hstore⟩ := Option.map_eq_some_iff.mp hpay
        rw [show n = (storeClip ctx p c).2 from (congrArg Prod.snd hstore).symm]
        unfold storeClip
        cases c.old with
        | false => exact Or.inr (Int.natCast_nonneg _)
        | true => exact Or.inl rfl
    rcases hcases with hn | hn
    · obtain ⟨hbehind, hall⟩ := hold hn
      exact absurd hall (hfresh hbehind)
    · exact hn

/-- A completing packet that is not beyond the window completes the handshake. -/
theorem completes {ep : Endpoint} {p : Packet} (hwait : ep.awaiting)
    (hlist : ep.ctx.unackdPackets ≠ []) (hscan : recvOverruns ep.ctx (some p) = false)
    (hin : ¬ Beyond ep.ctx p) (h : Completing ep.ctx p) :
    (openNetworkData ep.ctx (some p)).2.1 = .running := by
  have hcount := recvPacket_count hin h.fresh
  have hnext : (recvPacket ep.ctx (some p)).1.sendNext = ep.ctx.sendNext :=
    (recvPacket_frame ep.ctx (some p)).2.2.1
  have hempty : ep.ctx.unackdPackets.isEmpty = false := by
    rw [List.isEmpty_eq_false_iff]
    exact hlist
  unfold openNetworkData
  rcases hwait.2 with hst | hst
  · rw [hst]
    simp only [hscan, hempty, Bool.false_eq_true, if_false, awaitSynAck, recvPacket_header]
    rw [if_neg (by
      rw [not_or, not_not]
      exact ⟨Int.not_lt.mpr hcount, h.syn hst, h.ack⟩), if_pos (h.number.trans hnext.symm)]
  · rw [hst]
    simp only [hscan, hempty, Bool.false_eq_true, if_false, awaitAck, recvPacket_header]
    rw [if_neg (by
      rw [not_or, not_not]
      exact ⟨Int.not_lt.mpr hcount, h.ack⟩), if_pos (h.number.trans hnext.symm)]

/-- What is not taken leaves an endpoint waiting as it was. -/
theorem openNetworkData_idle {ep : Endpoint} {packet : Option Packet} (hwait : ep.awaiting)
    (hlist : ep.ctx.unackdPackets ≠ []) (hscan : recvOverruns ep.ctx packet = false)
    (hout : ∀ p, packet = some p → Beyond ep.ctx p) :
    openNetworkData ep.ctx packet = (ep.ctx, .opening, []) := by
  have hempty : ep.ctx.unackdPackets.isEmpty = false := by
    rw [List.isEmpty_eq_false_iff]
    exact hlist
  have hrecv : (recvPacket ep.ctx packet).1 = ep.ctx ∧ (recvPacket ep.ctx packet).2.2 = -1 := by
    cases packet with
    | none => exact ⟨rfl, rfl⟩
    | some p =>
      rw [recvPacket_beyond (hout p rfl)]
      exact ⟨rfl, rfl⟩
  unfold openNetworkData
  rcases hwait.2 with hst | hst
  · rw [hst]
    simp only [hscan, hempty, Bool.false_eq_true, if_false, awaitSynAck, hrecv.1, hrecv.2]
    rfl
  · rw [hst]
    simp only [hscan, hempty, Bool.false_eq_true, if_false, awaitAck, hrecv.1, hrecv.2]
    rfl

/-! ## The invariant -/

/-- In the loop: an empty list means that nothing is unacknowledged, and the last
entry ends where `send_next` stands, the FIN counted or not. -/
structure EndsAt (s : SendSide) : Prop where
  empty : s.listed = [] → s.next ≤ s.unack
  last : ∀ q, s.listed.getLast? = some q →
    s.next.toNat ≤ q.seqNum.toNat + max 1 q.packet.data.length

structure ListInv (iss : TcpSeq) (ep : Endpoint) : Prop where
  opening : ep.status = .opening → Greeting iss (fun _ => True) ep
  waiting : ep.awaiting → ep.ctx.unackdPackets ≠ []
  running : ep.status = .running → EndsAt ep.ctx.sendSide

theorem EndsAt.finds {ctx : Context} (h : EndsAt ctx.sendSide) : ctx.timerFaults = false := by
  unfold Context.timerFaults
  cases hlist : ctx.unackdPackets with
  | nil =>
    have hle : ctx.sendNext ≤ ctx.sendUnack := h.empty hlist
    rw [decide_eq_false (BitVec.not_lt.mpr hle)]
    rfl
  | cons q rest => rw [List.isEmpty_cons, Bool.and_false]

/-- A packet is put on the list. -/
theorem EndsAt.append {s : SendSide} {unack next wind : TcpSeq} {q : PacketT}
    (hend : next.toNat ≤ q.seqNum.toNat + max 1 q.packet.data.length) :
    EndsAt ⟨unack, next, wind, s.listed ++ [q]⟩ := by
  refine ⟨fun h => absurd h (by simp), ?_⟩
  intro q' hq'
  rw [List.getLast?_concat] at hq'
  rw [← Option.some.inj hq']
  exact hend

theorem reaches_of_acked {ctx : Context} {p : Packet} {q : PacketT} (hdata : q.packet.data = [])
    (h : q.acked (ackPoint ctx.sendUnack p.header) = true) : Reaches ctx p q := by
  rw [PacketT.acked, decide_eq_true_eq, hdata] at h
  have hle : q.seqNum ≤ ackPoint ctx.sendUnack p.header := h
  rcases ackPoint_cases ctx.sendUnack p.header with hsame | ⟨hack, hnew⟩
  · rw [hsame] at hle
    exact Or.inl hle
  · rw [hnew] at hle
    exact Or.inr ⟨hack, hle⟩

/-- A packet is looked at. -/
theorem EndsAt.hear {ctx : Context} {p : Packet} (h : EndsAt ctx.sendSide)
    (hok : ∀ q ∈ ctx.unackdPackets, q.packet.data = [] → Reaches ctx p q → Acknowledges p q) :
    EndsAt (ctx.sendSide.hear p.header) := by
  have hup := unack_le_ackPoint ctx.sendUnack p.header
  constructor
  · intro hnil
    have hall : ∀ q ∈ ctx.unackdPackets, q.acked (ackPoint ctx.sendUnack p.header) = true :=
      List.dropWhile_eq_nil_iff.mp hnil
    cases hlast : ctx.unackdPackets.getLast? with
    | none => exact BitVec.le_trans (h.empty (List.getLast?_eq_none_iff.mp hlast)) hup
    | some q =>
      have hmem := List.mem_of_getLast? hlast
      have hend := h.last q hlast
      have hacked := hall q hmem
      by_cases hdata : q.packet.data = []
      · -- a FIN: acknowledged by `p` itself
        obtain ⟨hack, hlt⟩ := hok q hmem hdata (reaches_of_acked hdata hacked)
        have hle := thAck_le_ackPoint ctx.sendUnack hack
        rw [hdata, List.length_nil] at hend
        show ctx.sendSide.next.toNat ≤ (ackPoint ctx.sendUnack p.header).toNat
        have hlt' : q.seqNum.toNat < p.header.thAck.toNat := hlt
        have hle' : p.header.thAck.toNat ≤ (ackPoint ctx.sendUnack p.header).toNat := hle
        omega
      · have hpos := List.length_pos_iff.mpr hdata
        rw [PacketT.acked, decide_eq_true_eq] at hacked
        show ctx.sendSide.next.toNat ≤ (ackPoint ctx.sendUnack p.header).toNat
        omega
  · intro q hq
    -- what is left ends as the list did
    refine h.last q ?_
    obtain ⟨front, hfront⟩ := List.dropWhile_suffix (l := ctx.unackdPackets)
      (PacketT.acked (ackPoint ctx.sendUnack p.header))
    show ctx.unackdPackets.getLast? = some q
    rw [← hfront]
    exact List.mem_getLast?_append_of_mem_getLast? hq

/-- **One event in the loop.** -/
theorem EndsAt.event {ep : Endpoint} {ev : Event} (hrun : ep.status = .running)
    (hok : AcksControl ep ev) (h : EndsAt ep.ctx.sendSide) :
    EndsAt (handleEvent ep.ctx ev).1.sendSide := by
  cases ev with
  | appData queued =>
    rcases handleAppData_cases ep.ctx queued with heq | ⟨buffer, hpos, -, -, heq⟩
    · simp only [handleEvent, heq]
      exact h
    · simp only [handleEvent, heq]
      refine EndsAt.append (s := ep.ctx.sendSide) ?_
      -- `send_next` may wrap; the bound holds all the same
      have hadd : (ep.ctx.sendNext + BitVec.ofNat 32 buffer.length).toNat
          ≤ ep.ctx.sendNext.toNat + buffer.length := by
        rw [BitVec.toNat_add, BitVec.toNat_ofNat]
        omega
      have hmax : buffer.length ≤ max 1 buffer.length := Nat.le_max_right _ _
      exact Nat.le_trans hadd (Nat.add_le_add_left hmax _)
  | networkData packet =>
    cases packet with
    | none =>
      rw [handleEvent_none]
      exact h
    | some p =>
      rcases handleEvent_sendSide_eq ep.ctx p with hside | ⟨hin, hside⟩
      · rw [hside]
        exact h
      · rw [hside]
        exact h.hear ((hok hin).2 hrun)
  | appCloseRequested =>
    simp only [handleEvent, handleClose]
    split
    -- in `ESTABLISHED` the FIN is listed and `send_next` stays
    next => exact EndsAt.append (s := ep.ctx.sendSide) (Nat.le_add_right _ _)
    next =>
      refine EndsAt.append (s := ep.ctx.sendSide) ?_
      show (ep.ctx.sendNext + 1).toNat ≤ ep.ctx.sendNext.toNat + 1
      rw [BitVec.toNat_add]
      exact Nat.mod_le _ _
    next => exact h
  | timeout =>
    refine ⟨fun hnil => h.empty (List.map_eq_nil_iff.mp hnil), ?_⟩
    intro q' hq'
    have hlast : (ep.ctx.unackdPackets.map (PacketT.resend ep.ctx.recvNext)).getLast? = some q' := hq'
    rw [List.getLast?_map] at hlast
    obtain ⟨q, hq, rfl⟩ := Option.map_eq_some_iff.mp hlast
    exact h.last q hq

/-- What is dropped in the loop is acknowledged. -/
theorem keepsControl_event {ep : Endpoint} {ev : Event} (hrun : ep.status = .running)
    (hok : AcksControl ep ev) (hstep : ep.step ev = ep.after ev) : KeepsControl ep ev := by
  intro q hq hdata
  rw [hstep]
  have hsame : ∀ l : List PacketT, (∀ q ∈ ep.ctx.unackdPackets, q ∈ l) →
      (ep.after ev).ctx.unackdPackets = l → (∃ q' ∈ (ep.after ev).ctx.unackdPackets,
        q'.seqNum = q.seqNum ∧ q'.packet.data = [] ∧
        q'.packet.header.thFlags = q.packet.header.thFlags) := by
    intro l hsub hl
    rw [hl]
    exact ⟨q, hsub q hq, rfl, hdata, rfl⟩
  cases ev with
  | appData queued =>
    exact Or.inl (hsame _ (fun q hq => listed_handleEvent (Or.inl ⟨queued, rfl⟩) hq) rfl)
  | networkData packet =>
    cases packet with
    | none =>
      refine Or.inl (hsame _ (fun q hq => hq) ?_)
      exact congrArg (fun r => r.1.unackdPackets) (handleEvent_none ep.ctx)
    | some p =>
      rcases handleEvent_sendSide_eq ep.ctx p with hside | ⟨hin, hside⟩
      · exact Or.inl (hsame _ (fun q hq => hq) (congrArg SendSide.listed hside))
      · have hlist : (ep.after (.networkData (some p))).ctx.unackdPackets
            = ep.ctx.unackdPackets.dropWhile
                (PacketT.acked (ackPoint ep.ctx.sendUnack p.header)) :=
          congrArg SendSide.listed hside
        -- what is dropped is acknowledged by `p`, the rest is still listed
        rw [← List.takeWhile_append_dropWhile
          (p := PacketT.acked (ackPoint ep.ctx.sendUnack p.header))
          (l := ep.ctx.unackdPackets)] at hq
        rcases List.mem_append.mp hq with hgone | hkept
        · have hmem := (List.takeWhile_prefix _).subset hgone
          exact Or.inr ⟨p, rfl, (hok hin).2 hrun q hmem hdata
            (reaches_of_acked hdata (List.mem_takeWhile_imp hgone))⟩
        · rw [← hlist] at hkept
          exact Or.inl ⟨q, hkept, rfl, hdata, rfl⟩
  | appCloseRequested =>
    exact Or.inl (hsame _ (fun q hq => listed_handleEvent (Or.inr rfl) hq) rfl)
  | timeout =>
    exact Or.inl ⟨q.resend ep.ctx.recvNext, List.mem_map_of_mem hq, rfl, hdata, rfl⟩

/-- The handshake: the endpoint waits with its packet listed, or is established
by the acknowledgment of it. -/
theorem ListInv.open_step {iss : TcpSeq} {ep : Endpoint} {ev : Event}
    (hwrap : iss.toNat + 1 < 4294967296) (hopen : ep.status = .opening)
    (hok : AcksControl ep ev) (h : ListInv iss ep) :
    ListInv iss (ep.step ev) ∧ KeepsControl ep ev := by
  have hgreet := h.opening hopen
  rcases ep.step_opening hopen ev with ⟨heq, -⟩ | ⟨packet, rfl, heq⟩
  · refine ⟨by rw [heq]; exact h, ?_⟩
    intro q hq hdata
    rw [heq]
    exact Or.inl ⟨q, hq, rfl, hdata, rfl⟩
  by_cases hover : recvOverruns ep.ctx packet = true
  · -- the scan runs out of the window, and nothing else happens
    have hcrash : openNetworkData ep.ctx packet = (ep.ctx, .crashed, []) := by
      unfold openNetworkData
      rw [if_pos hover]
    rw [hcrash] at heq
    have hst : (ep.step (.networkData packet)).status = .crashed := by rw [heq]
    refine ⟨⟨elsewhere (by decide) hst, fun hw => elsewhere (by decide) hst hw.1,
      elsewhere (by decide) hst⟩, ?_⟩
    intro q hq hdata
    rw [heq]
    exact Or.inl ⟨q, hq, rfl, hdata, rfl⟩
  have hscan : recvOverruns ep.ctx packet = false := Bool.not_eq_true _ ▸ hover
  have htrue : ∀ {ep' : Endpoint}, Greeting iss (AckedWith (fun _ => True) packet) ep' →
      Greeting iss (fun _ => True) ep' := fun hg => hg.mono fun _ _ => trivial
  by_cases hwait : ep.awaiting
  · have hlist := h.waiting hwait
    by_cases hin : ∃ p, packet = some p ∧ ¬ Beyond ep.ctx p
    · -- a packet is taken: it completes the handshake
      obtain ⟨p, rfl, hin⟩ := hin
      have hcomp := (hok hin).1 hwait
      have hdone := completes hwait hlist hscan hin hcomp
      refine ⟨?_, ?_⟩
      · rw [heq]
        rcases hgreet.network hwrap (some p) with ⟨hst, -⟩ | hst | ⟨hst, hnew⟩
        · exact elsewhere (by decide) hdone hst
        · exact elsewhere (by decide) hdone hst
        · refine ⟨elsewhere (by decide) hst, fun hw => elsewhere (by decide) hst hw.1, fun _ => ⟨fun _ => ?_, ?_⟩⟩
          · show _ ≤ _
            rw [show (Context.sendSide _).next = iss + 1 from hnew.next]
            exact hnew.unack
          · intro q hq
            rw [show (Context.sendSide _).listed = [] from hnew.listed] at hq
            cases hq
      · intro q hq _
        obtain ⟨hseq, -⟩ := hgreet.listed q hq
        refine Or.inr ⟨p, rfl, hcomp.ack, ?_⟩
        have hnext : ep.ctx.sendNext = iss + 1 := by
          rcases hgreet.state with ⟨hst, -⟩ | ⟨-, hnext, -⟩
          · rcases hwait.2 with hw | hw
            · exact elsewhere (by decide) hst hw
            · exact elsewhere (by decide) hst hw
          · exact hnext
        rw [hseq, hcomp.number, hnext]
        show iss.toNat < (iss + 1).toNat
        rw [BitVec.toNat_add]
        show iss.toNat < (iss.toNat + 1) % 4294967296
        rw [Nat.mod_eq_of_lt hwrap]
        exact Nat.lt_succ_self _
    · have hout : ∀ p, packet = some p → Beyond ep.ctx p := by
        intro p hp
        by_contra hne
        exact hin ⟨p, hp, hne⟩
      have hidle := openNetworkData_idle hwait hlist hscan hout
      have hctx : (ep.step (.networkData packet)).ctx = ep.ctx := by rw [heq, hidle]
      have hst : (ep.step (.networkData packet)).status = .opening := by rw [heq, hidle]
      refine ⟨⟨fun _ => ?_, fun _ => by rw [hctx]; exact hlist, elsewhere (by decide) hst⟩, ?_⟩
      · refine ⟨by rw [hctx]; exact hgreet.initial, ?_, by rw [hctx]; exact hgreet.state,
          by rw [hctx]; exact hgreet.listed⟩
        rw [heq, hidle, List.append_nil]
        exact hgreet.noRecv
      · intro q hq hdata
        rw [hctx]
        exact Or.inl ⟨q, hq, rfl, hdata, rfl⟩
  · -- the server, before the SYN: nothing is listed
    rcases hgreet.state with ⟨hst, hempty⟩ | ⟨hst, -, -⟩
    · refine ⟨?_, ?_⟩
      · rw [heq]
        have hopen' : openNetworkData ep.ctx packet = awaitSyn ep.ctx packet := by
          unfold openNetworkData
          rw [if_neg hover, hst]
        rw [hopen']
        obtain ⟨hop, hnew⟩ := hgreet.awaitSyn hst hempty packet
        refine ⟨fun _ => htrue hnew, ?_, elsewhere (by decide) hop⟩
        intro hw
        rcases awaitSyn_cases ep.ctx packet with hcase | ⟨-, -, hcase⟩
        · -- it goes on waiting for the SYN
          obtain ⟨hstate, -⟩ := recvPacket_frame ep.ctx.rewind packet
          rw [hcase] at hw
          have hclosed : (recvPacket ep.ctx.rewind packet).1.connectionState = .closed :=
            hstate.trans hst
          rcases hw.2 with hw' | hw'
          · exact elsewhere (by decide) hclosed hw'
          · exact elsewhere (by decide) hclosed hw'
        · rw [hcase]
          simp [packetTCreate]
      · intro q hq
        rw [hempty] at hq
        exact absurd hq List.not_mem_nil
    · exact absurd ⟨hopen, hst⟩ hwait

/-- **One step**, in the handshake or in the loop. -/
theorem ListInv.step {iss : TcpSeq} {ep : Endpoint} {ev : Event}
    (hwrap : iss.toNat + 1 < 4294967296) (hok : AcksControl ep ev) (h : ListInv iss ep) :
    ListInv iss (ep.step ev) ∧ KeepsControl ep ev := by
  by_cases hopen : ep.status = .opening
  · exact h.open_step hwrap hopen hok
  have hnot := ep.step_not_opening hopen ev
  rcases Endpoint.step_cases hopen ev with ⟨hidle, hctx, -, hst⟩ | ⟨hrun, -, heq⟩
  · refine ⟨⟨fun hop => absurd hop hnot, fun hw => absurd hw.1 hnot, fun hrun => ?_⟩, ?_⟩
    · rcases hst with hsame | hcrash
      · rw [hctx]
        exact h.running (by rw [← hsame]; exact hrun)
      · exact elsewhere (by decide) hcrash hrun
    · intro q hq hdata
      rw [hctx]
      exact Or.inl ⟨q, hq, rfl, hdata, rfl⟩
  · refine ⟨⟨fun hop => absurd hop hnot, fun hw => absurd hw.1 hnot, fun _ => ?_⟩,
      keepsControl_event hrun hok heq⟩
    rw [heq]
    exact (h.running hrun).event hrun hok

theorem ListInv.finds {iss : TcpSeq} {ep : Endpoint} (h : ListInv iss ep) : FindsPacket ep :=
  ⟨h.waiting, fun hrun => (h.running hrun).finds⟩

theorem transportInit_listInv (isActive : Bool) (iss : TcpSeq) (rto : Nat → UInt8) :
    ListInv iss (transportInit isActive iss rto) := by
  obtain ⟨hst, hgreet⟩ := transportInit_greeting isActive iss rto (fun _ => True)
  refine ⟨fun _ => hgreet, ?_, elsewhere (by decide) hst⟩
  intro hw
  cases isActive with
  | true => simp [transportInit, packetTCreate]
  | false =>
    rcases hw.2 with hw' | hw'
    · cases hw'
    · cases hw'

/-- **A SYN, SYN/ACK or FIN stays listed until its own number is acknowledged, and
no empty list is read**, in every run whose packets acknowledge what they reach. -/
theorem lists_until_acked {isActive : Bool} {iss : TcpSeq} {rto : Nat → UInt8} {evs : List Event}
    (hiss : iss.toNat < maxInitSeq)
    (hal : Along Endpoint.step AcksControl (transportInit isActive iss rto) evs) :
    (∀ pre, pre <+: evs → FindsPacket (run Endpoint.step (transportInit isActive iss rto) pre)) ∧
    Along Endpoint.step KeepsControl (transportInit isActive iss rto) evs := by
  have hwrap := succ_lt_of_iss hiss
  have hstart := transportInit_listInv isActive iss rto
  constructor
  · intro pre hpre
    obtain ⟨rest, rfl⟩ := hpre
    obtain ⟨hpre, -⟩ := (along_append _ _ _ _ _).mp hal
    exact (run_invariant (ListInv iss) (fun ep ev hok h => (h.step hwrap hok).1) hpre hstart).finds
  · exact along_of_invariant (ListInv iss) (fun ep ev hok h => (h.step hwrap hok).1)
      (fun ep ev hok h => (h.step hwrap hok).2) hal hstart

/-- A client that sends a byte and closes; each acknowledgment covers all there is. -/
def sendsOne : List Event :=
  [ .networkData (some (makeStcpPacket (TH.syn ||| TH.ack) 101 2 [])),
    .appData [97],
    .networkData (some (makeStcpPacket TH.ack 102 3 [])),
    .appCloseRequested,
    .timeout,
    .networkData (some (makeStcpPacket TH.ack 102 4 [])) ]

theorem lists_until_acked_sendsOne :
    (∀ pre, pre <+: sendsOne →
      FindsPacket (run Endpoint.step (transportInit true 1 (fun _ => 0)) pre)) ∧
    Along Endpoint.step KeepsControl (transportInit true 1 (fun _ => 0)) sendsOne :=
  lists_until_acked (by decide) (by decide +kernel)

/-- The SYN comes a second time. -/
def synTwice : List (Side × Event) :=
  [ (.right, .networkData (some (makeStcpPacket TH.syn 1 0 []))),
    (.right, .networkData (some (makeStcpPacket TH.syn 1 0 []))) ]

theorem synAck_dropped :
    Along System.step Deliverable (opening leftActive firstNumbers underASecond) synTwice ∧
    ¬ FindsPacket
      (run System.step (opening leftActive firstNumbers underASecond) synTwice .right) := by
  refine ⟨by decide +kernel, ?_⟩
  intro h
  exact h.opening (by decide +kernel) (by decide +kernel)

end UchiNetworks.Stcp
