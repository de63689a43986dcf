import UchiNetworks.Lib.Loop
import UchiNetworks.Router.Ttl

/-!
# The loop of `arpq_packets_icmpsend`

For an ICMP error the loop goes on with `continue`, before `current_packet` has
moved to the next packet: the same packet is tested again, for ever
(`icmpsend_terminates_iff`). Another packet is handed to `sr_send_packet` itself.

Here the loop is a round on the packets that are left and what has been sent.
The message that is built is freed unsent; it changes neither, but if the packet has
IP options it does not fit what is allocated for it.
-/

namespace UchiNetworks.Router

open UchiNetworks.Lib

/-- The test for an ICMP error, on a packet that waits. -/
def testPacket (p : QueuedPacket) : Res Bool := do
  let ip ← getOr .null p.outgoing.ipHeader
  carriesIcmpError p.outgoing.frame ip p.outgoing.ipHl

/-- Where the loop stands: `current_packet` with the packets behind it, and what
has been sent. -/
structure IcmpsendState where
  current : List QueuedPacket
  sent : List Sent

/-- One round of the loop. -/
def icmpsendRound (sr : SrInstance) (s : IcmpsendState) : Round IcmpsendState (Res (List Sent)) :=
  match s.current with
  | [] => .done (.ok s.sent)
  | packet :: rest =>
    match testPacket packet with
    | .error fault => .done (.error fault)
    -- `continue`: `current_packet` is still this one
    | .ok true => .again s
    | .ok false =>
      match hostUnreachable sr packet with
      | .error fault => .done (.error fault)
      | .ok _ =>
        match packet.fromIface with
        | none => .done (.error .null)
        | some iface =>
          .again
            { current := rest
              sent := s.sent ++
                [{ frame := packet.outgoing.frame, iface := iface, forwards := none }] }

/-- The loop starts with the first packet. -/
def icmpsendStart (packets : List QueuedPacket) : IcmpsendState := { current := packets, sent := [] }

/-- The loop gets past the packet. -/
def Passes (sr : SrInstance) (p : QueuedPacket) : Prop :=
  testPacket p = .ok false ∧ (∃ out, hostUnreachable sr p = .ok out) ∧ p.fromIface.isSome

/-- The loop comes to an ICMP error. -/
def Blocked (sr : SrInstance) (packets : List QueuedPacket) : Prop :=
  ComesTo (Passes sr) (fun p => testPacket p = .ok true) packets

/-- The flush comes to an entry that it gives up on and in which the loop comes to
an ICMP error. -/
def FlushBlocked (sr : SrInstance) (now : Nat) (queue : List ArpqEntry) : Prop :=
  ComesTo (fun entry => ∃ r, flushEntry sr now entry = .ok r)
    (fun entry => GivenUp now entry.arpqLastReq entry.arpqNumReqs ∧
      Blocked sr entry.arpqPackets) queue

/-! ## Making a message ends -/

variable {α : Type}

abbrev NoLoop (x : Res α) : Prop := Avoids Fault.endless x

/-- A lookup, whatever its fault says, is no loop. -/
theorem noLoop_access {β : Type} {fault : Fault} {x : Option α} {f : α → Res β}
    (hfault : fault ≠ .endless) (h : ∀ a, NoLoop (f a)) :
    NoLoop (getOr fault x >>= f) :=
  avoids_bind (avoids_getOr hfault x) fun a _ => h a

theorem noLoop_encapsulate (f : FrameT) : NoLoop (encapsulate f) := by
  refine noLoop_access (by decide) fun _ => ?_
  refine noLoop_access (by decide) fun _ => ?_
  refine noLoop_access (by decide) fun _ => ?_
  exact noLoop_access (by decide) fun _ => avoids_ok _ _

theorem noLoop_computeIpChecksum (f : FrameT) : NoLoop (computeIpChecksum f) := by
  refine noLoop_access (by decide) fun _ => ?_
  refine noLoop_access (by decide) fun _ => ?_
  exact noLoop_access (by decide) fun _ => avoids_ok _ _

theorem noLoop_computeIcmpChecksum (f : FrameT) : NoLoop (computeIcmpChecksum f) := by
  refine noLoop_access (by decide) fun _ => ?_
  refine noLoop_access (by decide) fun _ => ?_
  refine avoids_ite (fun _ => avoids_error (by decide)) fun _ => ?_
  refine noLoop_access (by decide) fun _ => ?_
  exact noLoop_access (by decide) fun _ => avoids_ok _ _

theorem noLoop_ipHeaderCreate (f : FrameT) : NoLoop (ipHeaderCreate f) := by
  refine noLoop_access (by decide) fun _ => ?_
  refine noLoop_access (by decide) fun _ => ?_
  exact noLoop_access (by decide) fun _ => noLoop_computeIpChecksum _

theorem noLoop_generateIcmpEcho (f : FrameT) : NoLoop (generateIcmpEcho f) := by
  refine noLoop_access (by decide) fun _ => ?_
  refine noLoop_access (by decide) fun _ => ?_
  refine noLoop_access (by decide) fun _ => ?_
  refine avoids_bind (noLoop_computeIcmpChecksum _) fun _ _ => ?_
  exact avoids_bind (noLoop_ipHeaderCreate _) fun _ _ => noLoop_encapsulate _

theorem noLoop_generateIcmpError (sr : SrInstance) (f : FrameT) (icmpType icmpCode : UInt8) :
    NoLoop (generateIcmpError sr f icmpType icmpCode) := by
  refine noLoop_access (by decide) fun _ => ?_
  refine noLoop_access (by decide) fun _ => ?_
  refine noLoop_access (by decide) fun _ => ?_
  refine noLoop_access (by decide) fun _ => ?_
  refine noLoop_access (by decide) fun _ => ?_
  refine noLoop_access (by decide) fun _ => ?_
  refine avoids_bind (noLoop_computeIcmpChecksum _) fun _ _ => ?_
  exact avoids_bind (noLoop_ipHeaderCreate _) fun _ _ => noLoop_encapsulate _

theorem avoids_carriesIcmpError (frame : Bytes) (ip ipHl : Nat) :
    Avoids Fault.endless (carriesIcmpError frame ip ipHl) := by
  refine avoids_bind (avoids_getOr (by decide) _) fun _ _ => ?_
  refine avoids_ite (fun _ => ?_) fun _ => avoids_ok _ _
  exact avoids_bind (avoids_getOr (by decide) _) fun _ _ => avoids_ok _ _

/-- The test is no loop. -/
theorem testPacket_fault {p : QueuedPacket} {fault : Fault} (h : testPacket p = .error fault) :
    fault ≠ .endless := by
  have havoids : Avoids Fault.endless (testPacket p) :=
    avoids_bind (avoids_getOr (by decide) _) fun _ _ => avoids_carriesIcmpError _ _ _
  intro heq
  rw [heq] at h
  exact havoids h

/-- Neither is the making of the message. -/
theorem hostUnreachable_fault {sr : SrInstance} {p : QueuedPacket} {fault : Fault}
    (h : hostUnreachable sr p = .error fault) : fault ≠ .endless := by
  intro heq
  rw [heq] at h
  exact noLoop_generateIcmpError _ _ _ _ h

/-! ## The rounds -/

theorem icmpsendRound_passes {sr : SrInstance} {p : QueuedPacket} {rest : List QueuedPacket}
    {sent : List Sent} {message : FrameT} {iface : SrIf} (htest : testPacket p = .ok false)
    (hmessage : hostUnreachable sr p = .ok message) (hfrom : p.fromIface = some iface) :
    icmpsendRound sr { current := p :: rest, sent := sent } =
      .again
        { current := rest
          sent := sent ++ [{ frame := p.outgoing.frame, iface := iface, forwards := none }] } := by
  simp only [icmpsendRound, htest, hmessage, hfrom]

theorem icmpsendRound_stuck {sr : SrInstance} {p : QueuedPacket} {rest : List QueuedPacket}
    {sent : List Sent} (htest : testPacket p = .ok true) :
    icmpsendRound sr { current := p :: rest, sent := sent } =
      .again { current := p :: rest, sent := sent } := by
  simp only [icmpsendRound, htest]

/-- `arpq_packets_icmpsend` with the test named. -/
theorem arpqPacketsIcmpsend_cons (sr : SrInstance) (p : QueuedPacket)
    (rest : List QueuedPacket) :
    arpqPacketsIcmpsend sr (p :: rest) = testPacket p >>= fun stuck =>
      if stuck then .error .endless
      else hostUnreachable sr p >>= fun _ => getOr .null p.fromIface >>= fun iface =>
        arpqPacketsIcmpsend sr rest >>= fun more =>
          .ok ({ frame := p.outgoing.frame, iface := iface, forwards := none } :: more) := by
  simp only [arpqPacketsIcmpsend, testPacket]
  cases getOr Fault.null p.outgoing.ipHeader with
  | error fault => rfl
  | ok ip => rfl

/-- The loop is left with what the function returns, unless it is endless: then
the loop is not left. -/
theorem icmpsend_loop (sr : SrInstance) (packets : List QueuedPacket) :
    ∀ sent, (arpqPacketsIcmpsend sr packets = .error .endless →
        ∀ r, ¬ Ends (icmpsendRound sr) { current := packets, sent := sent } r) ∧
      (arpqPacketsIcmpsend sr packets ≠ .error .endless →
        Ends (icmpsendRound sr) { current := packets, sent := sent }
          ((arpqPacketsIcmpsend sr packets).map (sent ++ ·))) := by
  induction packets with
  | nil =>
    intro sent
    refine ⟨fun h => (by cases h), fun _ => Ends.exit ?_⟩
    simp only [icmpsendRound, arpqPacketsIcmpsend, Except.map, List.append_nil]
  | cons p rest ih =>
    intro sent
    rw [arpqPacketsIcmpsend_cons]
    cases htest : testPacket p with
    | error fault =>
      rw [error_bind]
      refine ⟨fun h => absurd (Except.error.inj h) (testPacket_fault htest), fun _ => Ends.exit ?_⟩
      simp only [icmpsendRound, htest, Except.map]
    | ok stuck =>
      cases stuck with
      | true =>
        exact ⟨fun _ => not_ends_of_stuck (icmpsendRound_stuck htest), fun h => absurd rfl h⟩
      | false =>
        rw [ok_bind, if_neg (by decide)]
        cases hmessage : hostUnreachable sr p with
        | error fault =>
          rw [error_bind]
          refine ⟨fun h => absurd (Except.error.inj h) (hostUnreachable_fault hmessage),
            fun _ => ?_⟩
          apply Ends.exit
          simp only [icmpsendRound, htest, hmessage, Except.map]
        | ok message =>
          rw [ok_bind]
          cases hfrom : p.fromIface with
          | none =>
            refine ⟨fun h => (by cases h), fun _ => Ends.exit ?_⟩
            simp only [icmpsendRound, htest, hmessage, hfrom]
            rfl
          | some iface =>
            have hround := @icmpsendRound_passes sr p rest sent message iface htest hmessage hfrom
            obtain ⟨hnever, hends⟩ :=
              ih (sent ++ [{ frame := p.outgoing.frame, iface := iface, forwards := none }])
            rw [getOr_some, ok_bind]
            simp only [ends_of_again hround]
            cases hrest : arpqPacketsIcmpsend sr rest with
            | error fault =>
              rw [hrest] at hnever hends
              exact ⟨hnever, hends⟩
            | ok more =>
              rw [hrest] at hends
              refine ⟨fun h => (by cases h), fun _ => ?_⟩
              have h := hends (by intro h; cases h)
              simpa only [Except.map, ok_bind, List.append_assoc, List.cons_append,
                List.nil_append] using h

theorem arpqPacketsIcmpsend_endless_iff (sr : SrInstance) (packets : List QueuedPacket) :
    arpqPacketsIcmpsend sr packets = .error .endless ↔ Blocked sr packets := by
  induction packets with
  | nil => exact iff_of_false (fun h => by cases h) not_comesTo_nil
  | cons p rest ih =>
    unfold Blocked at ih ⊢
    rw [comesTo_cons, ← ih, arpqPacketsIcmpsend_cons, Passes]
    cases htest : testPacket p with
    | error fault =>
      rw [error_bind]
      refine iff_of_false (fun h => testPacket_fault htest (Except.error.inj h)) (fun h => ?_)
      rcases h with h | h
      · cases h
      · cases h.1.1
    | ok stuck =>
      cases stuck with
      | true => exact iff_of_true rfl (Or.inl rfl)
      | false =>
        rw [ok_bind, if_neg (by decide)]
        cases hmessage : hostUnreachable sr p with
        | error fault =>
          rw [error_bind]
          refine iff_of_false (fun h => hostUnreachable_fault hmessage (Except.error.inj h))
            (fun h => ?_)
          rcases h with h | h
          · cases h
          · obtain ⟨⟨-, ⟨out, hout⟩, -⟩, -⟩ := h
            cases hout
        | ok message =>
          rw [ok_bind]
          cases hfrom : p.fromIface with
          | none =>
            refine iff_of_false (fun h => by cases h) (fun h => ?_)
            rcases h with h | h
            · cases h
            · cases h.1.2.2
          | some iface =>
            rw [getOr_some, ok_bind]
            constructor
            · intro h
              cases hrest : arpqPacketsIcmpsend sr rest with
              | error fault =>
                rw [hrest] at h
                exact Or.inr ⟨⟨rfl, ⟨message, rfl⟩, rfl⟩, h⟩
              | ok more =>
                rw [hrest] at h
                cases h
            · intro h
              rcases h with h | h
              · cases h
              · rw [h.2]
                rfl

/-- **The loop is left** unless it comes to an ICMP error. -/
theorem icmpsend_ends_iff (sr : SrInstance) (packets : List QueuedPacket) :
    (∃ r, Ends (icmpsendRound sr) (icmpsendStart packets) r) ↔ ¬ Blocked sr packets := by
  obtain ⟨hnever, hends⟩ := icmpsend_loop sr packets []
  rw [← arpqPacketsIcmpsend_endless_iff sr]
  constructor
  · intro h hendless
    obtain ⟨r, hr⟩ := h
    exact hnever hendless r hr
  · intro h
    exact ⟨_, hends h⟩

/-! ## Everything else ends -/

theorem noLoop_sendPacket (f : FrameT) (forwards : Option Arrival) :
    NoLoop (sendPacket f forwards) := noLoop_access (by decide) fun _ => avoids_ok _ _

theorem noLoop_sendDatagram (st : RouterState) (out : Option FrameT) (forwards : Option Arrival) :
    NoLoop (sendDatagram st out forwards) := by
  cases out with
  | none => exact avoids_ok _ _
  | some f => exact avoids_bind (noLoop_sendPacket f _) fun _ _ => avoids_ok _ _

theorem noLoop_arpCreate (sr : SrInstance) (f : FrameT) (iface : Option SrIf) (op : Nat) :
    NoLoop (arpCreate sr f iface op) := by
  refine noLoop_access (by decide) fun _ => ?_
  refine avoids_bind ?_ fun _ _ => noLoop_encapsulate _
  exact avoids_ite (fun _ => noLoop_access (by decide) fun _ => avoids_ok _ _) fun _ => avoids_ok _ _

theorem noLoop_localReply (sr : SrInstance) (f : FrameT) : NoLoop (localReply sr f) := by
  unfold localReply
  cases f.icmpHeader with
  | none => exact avoids_bind (noLoop_generateIcmpError sr f _ _) fun _ _ => avoids_ok _ _
  | some icmp =>
    refine avoids_bind (noLoop_computeIcmpChecksum f) fun _ _ => ?_
    refine noLoop_access (by decide) fun _ => ?_
    refine noLoop_access (by decide) fun _ => ?_
    refine avoids_ite (fun _ => ?_) fun _ => avoids_ok _ _
    exact avoids_bind (noLoop_generateIcmpEcho _) fun _ _ => avoids_ok _ _

theorem noLoop_ttlReply (sr : SrInstance) (f : FrameT) : NoLoop (ttlReply sr f) := by
  refine avoids_bind (avoids_carriesIcmpError _ _ _) fun _ _ => ?_
  refine avoids_ite (fun _ => avoids_ok _ _) fun _ => ?_
  exact avoids_bind (noLoop_generateIcmpError sr f _ _) fun _ _ => avoids_ok _ _

theorem noLoop_updateIpHdr (sr : SrInstance) (f : FrameT) : NoLoop (updateIpHdr sr f) := by
  refine noLoop_access (by decide) fun _ => ?_
  refine noLoop_access (by decide) fun _ => ?_
  refine noLoop_access (by decide) fun _ => ?_
  refine noLoop_access (by decide) fun _ => ?_
  refine noLoop_access (by decide) fun _ => ?_
  refine noLoop_access (by decide) fun _ => ?_
  exact avoids_bind (noLoop_computeIpChecksum _) fun _ _ => avoids_ok _ _

theorem noLoop_queuePacket (sr : SrInstance) (st : RouterState) (a : Arrival)
    (incoming outgoing : FrameT) : NoLoop (queuePacket sr st a incoming outgoing) := by
  unfold queuePacket
  cases arpQueueLookup st.queue outgoing.toIp with
  | some entry =>
    refine avoids_bind ?_ fun _ _ => ?_
    · refine avoids_ite (fun _ => ?_) fun _ => avoids_ok _ _
      refine avoids_ite (fun _ => avoids_error (by decide)) fun _ => ?_
      exact avoids_ite (fun _ => avoids_ok _ _) fun _ => avoids_ok _ _
    · refine avoids_ite (fun _ => avoids_error (by decide)) fun _ => ?_
      exact avoids_bind (noLoop_arpCreate _ _ _ _) fun _ _ => noLoop_sendDatagram _ _ _
  | none => exact avoids_bind (noLoop_arpCreate _ _ _ _) fun _ _ => noLoop_sendDatagram _ _ _

theorem noLoop_forwardPacket (sr : SrInstance) (st : RouterState) (a : Arrival) (f : FrameT) :
    NoLoop (forwardPacket sr st a f) := by
  refine avoids_bind (noLoop_updateIpHdr sr f) fun r _ => ?_
  obtain ⟨outgoing, hop⟩ := r
  dsimp only
  cases arpCacheLookup st.cache hop with
  | some incache =>
    exact avoids_bind (noLoop_encapsulate _) fun _ _ => noLoop_sendDatagram _ _ _
  | none => exact noLoop_queuePacket sr st a f outgoing

theorem noLoop_ifDstCheck (sr : SrInstance) (ip : UInt32) : NoLoop (ifDstCheck sr ip) :=
  avoids_ite (fun _ => avoids_error (by decide)) fun _ => avoids_ok _ _

theorem noLoop_handleIp (sr : SrInstance) (st : RouterState) (a : Arrival) (f : FrameT) :
    NoLoop (handleIp sr st a f) := by
  refine avoids_bind ?_ fun checked _ => ?_
  · refine noLoop_access (by decide) fun _ => ?_
    refine avoids_ite (fun _ => avoids_ok _ _) fun _ => ?_
    refine avoids_bind (noLoop_computeIpChecksum f) fun _ _ => ?_
    refine noLoop_access (by decide) fun _ => ?_
    refine avoids_ite (fun _ => avoids_ok _ _) fun _ => ?_
    exact avoids_bind (noLoop_computeIpChecksum _) fun _ _ => avoids_ok _ _
  · cases checked with
    | none => exact avoids_ok _ _
    | some incoming =>
      refine avoids_bind (noLoop_ifDstCheck sr _) fun ours _ => ?_
      cases ours with
      | some target =>
        exact avoids_bind (noLoop_localReply sr incoming) fun _ _ => noLoop_sendDatagram _ _ _
      | none =>
        refine noLoop_access (by decide) fun _ => ?_
        refine avoids_ite (fun _ => ?_) fun _ => noLoop_forwardPacket sr st a incoming
        exact avoids_bind (noLoop_ttlReply sr incoming) fun _ _ => noLoop_sendDatagram _ _ _

theorem noLoop_arpqEntryClear (dHa : Mac) (packets : List QueuedPacket) :
    NoLoop (arpqEntryClear dHa packets) := by
  induction packets with
  | nil => exact avoids_ok _ _
  | cons p rest ih =>
    refine noLoop_access (by decide) fun _ => ?_
    refine avoids_bind (noLoop_encapsulate _) fun _ _ => ?_
    refine avoids_bind (noLoop_sendPacket _ _) fun _ _ => ?_
    exact avoids_bind ih fun _ _ => avoids_ok _ _

theorem noLoop_answerArp (sr : SrInstance) (st : RouterState) (f : FrameT) (op : Nat) :
    NoLoop (answerArp sr st f op) := by
  refine avoids_ite (fun _ => ?_) fun _ => avoids_ok _ _
  exact avoids_bind (noLoop_arpCreate _ _ _ _) fun _ _ => noLoop_sendDatagram _ _ _

theorem noLoop_learnSender (st : RouterState) (sip : UInt32) (sha : Mac) (now : Nat) :
    NoLoop (learnSender st sip sha now) := by
  unfold learnSender
  dsimp only
  cases arpqNextHopLookup st.queue sip with
  | none => exact avoids_ok _ _
  | some entry => exact avoids_bind (noLoop_arpqEntryClear sha _) fun _ _ => avoids_ok _ _

theorem noLoop_handleArp (sr : SrInstance) (st : RouterState) (a : Arrival) (f : FrameT) :
    NoLoop (handleArp sr st a f) := by
  refine noLoop_access (by decide) fun _ => ?_
  refine noLoop_access (by decide) fun sip => ?_
  refine noLoop_access (by decide) fun _ => ?_
  refine noLoop_access (by decide) fun _ => ?_
  cases arpCacheLookup st.cache sip with
  | some entry =>
    refine avoids_bind (noLoop_ifDstCheck sr _) fun target _ => ?_
    cases target with
    | none => exact avoids_ok _ _
    | some target => exact noLoop_answerArp sr _ f _
  | none =>
    refine avoids_bind (noLoop_ifDstCheck sr _) fun target _ => ?_
    cases target with
    | none => exact avoids_ok _ _
    | some target =>
      exact avoids_bind (noLoop_learnSender st _ _ _) fun _ _ => noLoop_answerArp sr _ f _

/-! ## The flush and the call -/

theorem flushEntry_endless_iff (sr : SrInstance) (now : Nat) (entry : ArpqEntry) :
    flushEntry sr now entry = .error .endless ↔
      GivenUp now entry.arpqLastReq entry.arpqNumReqs ∧ Blocked sr entry.arpqPackets := by
  unfold flushEntry GivenUp Idle
  rw [← arpqPacketsIcmpsend_endless_iff sr]
  by_cases hlate : now - arpRequestTimeout > entry.arpqLastReq
  · rw [if_pos hlate]
    by_cases hmany : entry.arpqNumReqs ≥ arpMaxReq
    · rw [if_pos hmany]
      cases hsend : arpqPacketsIcmpsend sr entry.arpqPackets with
      | error fault =>
        constructor
        · intro h
          exact ⟨⟨hlate, hmany⟩, by rw [Except.error.inj h]⟩
        · intro h
          rw [Except.error.inj h.2]
          rfl
      | ok sent => exact iff_of_false (fun h => by cases h) (fun h => by cases h.2)
    · rw [if_neg hmany]
      refine iff_of_false ?_ fun h => hmany h.1.2
      have hrequest : NoLoop (flushEntry sr now entry) := by
        unfold flushEntry
        rw [if_pos hlate, if_neg hmany]
        cases entry.arpqPackets with
        | nil => exact avoids_ok _ _
        | cons p rest =>
          refine avoids_bind (noLoop_arpCreate _ _ _ _) fun _ _ => ?_
          exact avoids_bind (noLoop_sendPacket _ _) fun _ _ => avoids_ok _ _
      unfold NoLoop Avoids flushEntry at hrequest
      rw [if_pos hlate, if_neg hmany] at hrequest
      exact hrequest
  · rw [if_neg hlate]
    exact iff_of_false (fun h => by cases h) (fun h => hlate h.1.1)

/-- **The flush** ends unless it comes to an entry like that. -/
theorem arpQueueFlush_endless_iff (sr : SrInstance) (now : Nat) (queue : List ArpqEntry) :
    arpQueueFlush sr now queue = .error .endless ↔ FlushBlocked sr now queue := by
  induction queue with
  | nil => exact iff_of_false (fun h => by cases h) not_comesTo_nil
  | cons entry rest ih =>
    unfold FlushBlocked at ih ⊢
    rw [comesTo_cons, ← ih, ← flushEntry_endless_iff sr]
    simp only [arpQueueFlush]
    cases hentry : flushEntry sr now entry with
    | error fault =>
      rw [error_bind]
      constructor
      · intro h
        exact Or.inl (by rw [Except.error.inj h])
      · intro h
        rcases h with h | h
        · rw [Except.error.inj h]
        · obtain ⟨⟨r, hr⟩, -⟩ := h
          cases hr
    | ok r =>
      obtain ⟨kept, sent⟩ := r
      rw [ok_bind]
      dsimp only
      cases hrest : arpQueueFlush sr now rest with
      | error fault =>
        rw [error_bind]
        constructor
        · intro h
          exact Or.inr ⟨⟨_, rfl⟩, by rw [Except.error.inj h]⟩
        · intro h
          rcases h with h | h
          · cases h
          · rw [Except.error.inj h.2]
      | ok r => exact iff_of_false (fun h => by cases h) (fun h => by
          rcases h with h | h
          · cases h
          · cases h.2)

/-- **A call** ends unless its flush does not. -/
theorem srHandlepacket_endless_iff (sr : SrInstance) (st : RouterState) (packet : Bytes)
    (ifName : IfName) (now : Nat) :
    srHandlepacket sr st packet ifName now = .error .endless ↔
      etherHdrLen ≤ packet.length ∧ FlushBlocked sr now st.queue := by
  rcases Nat.lt_or_ge packet.length etherHdrLen with hshort | hlong
  · rw [srHandlepacket_short hshort]
    exact iff_of_false (fun h => by cases h) fun h => absurd h.1 (Nat.not_le.mpr hshort)
  · obtain ⟨created, hcreated⟩ := createFrameT_returns hlong sr ifName
    rw [← arpQueueFlush_endless_iff]
    unfold srHandlepacket
    dsimp only
    rw [if_neg (Nat.not_lt.mpr hlong), hcreated, ok_bind]
    cases hflush : arpQueueFlush sr now st.queue with
    | error fault =>
      rw [error_bind]
      constructor
      · intro h
        exact ⟨hlong, by rw [Except.error.inj h]⟩
      · intro h
        rw [Except.error.inj h.2]
    | ok r =>
      refine iff_of_false ?_ fun h => by cases h.2
      rw [ok_bind]
      refine noLoop_access (by decide) fun incoming => ?_
      exact avoids_ite (fun _ => noLoop_handleIp _ _ _ _) fun _ => noLoop_handleArp _ _ _ _

/-- **What ends**: the loop of `arpq_packets_icmpsend` for every list of packets, the
flush for every queue and the call in every state, exactly if none of them comes to
an ICMP error. -/
theorem icmpsend_terminates_iff (sr : SrInstance) :
    (∀ packets, (∃ r, Ends (icmpsendRound sr) (icmpsendStart packets) r) ↔
      ¬ Blocked sr packets) ∧
    (∀ now queue, arpQueueFlush sr now queue ≠ .error .endless ↔ ¬ FlushBlocked sr now queue) ∧
    (∀ st packet ifName now, srHandlepacket sr st packet ifName now ≠ .error .endless ↔
      ¬ (etherHdrLen ≤ packet.length ∧ FlushBlocked sr now st.queue)) := by
  refine ⟨icmpsend_ends_iff sr, fun now queue => ?_, fun st packet ifName now => ?_⟩
  · exact not_congr (arpQueueFlush_endless_iff sr now queue)
  · exact not_congr (srHandlepacket_endless_iff sr st packet ifName now)

/-- No entry that a flush leaves is one to give up on: while the clock stands still
the forwarding branch, which makes the same test, does not come to the loop. -/
theorem flush_spares {sr : SrInstance} {now : Nat} {queue queue' : List ArpqEntry}
    {sent : List Sent} (h : arpQueueFlush sr now queue = .ok (queue', sent)) :
    ∀ entry ∈ queue', ¬ GivenUp now entry.arpqLastReq entry.arpqNumReqs := by
  induction queue generalizing queue' sent with
  | nil =>
    obtain ⟨rfl, -⟩ := Prod.mk.inj (Except.ok.inj h)
    intro entry hentry
    cases hentry
  | cons e rest ih =>
    simp only [arpQueueFlush, bind_ok] at h
    obtain ⟨⟨kept, s⟩, hhead, ⟨q, more⟩, hrest, h⟩ := h
    obtain ⟨rfl, -⟩ := Prod.mk.inj (Except.ok.inj h)
    intro entry hentry hgiven
    rcases List.mem_append.mp hentry with hkept | hq
    · obtain rfl := Option.mem_toList.mp hkept
      cases flushEntry_spec hhead with
      | kept hidle =>
        -- an entry without packets is given up on as well
        unfold flushEntry at hhead
        have hlate : now - arpRequestTimeout > e.arpqLastReq := hgiven.1
        rw [if_pos hlate, if_pos hgiven.2, bind_ok] at hhead
        obtain ⟨out, -, hhead⟩ := hhead
        cases hhead
      | asked x hpackets hlate hfew hx =>
        unfold GivenUp Idle arpRequestTimeout at hgiven
        dsimp only at hgiven
        omega
    · exact ih hrest entry hq hgiven

/-- A packet from `10.0.1.9` to `10.0.2.5` that says that a host is unreachable. -/
def unreachableDatagram : Bytes :=
  [2, 0, 0, 0, 0, 1, 2, 0, 0, 0, 0, 9, 8, 0, 69, 0, 0, 28, 0, 0, 0, 0, 64, 1, 99, 212,
    10, 0, 1, 9, 10, 0, 2, 5, 3, 1, 0, 0, 0, 0, 0, 0]

/-- It comes six times in a second, and waits. -/
def sixUnreachables : List Event :=
  List.replicate 6 { packet := unreachableDatagram, interface := [0x65], now := 100 }

/-- When the router gives up on the entry, two seconds later, the loop does not
end. -/
theorem sixUnreachables_endless :
    ∃ st, run (step gatewayRouter) (some (srInit gatewayRouter)) sixUnreachables = some st ∧
      (∃ entry ∈ st.queue,
        ¬ ∃ r, Ends (icmpsendRound gatewayRouter) (icmpsendStart entry.arpqPackets) r) ∧
      srHandlepacket gatewayRouter st unreachableDatagram [0x65] 102 = .error .endless := by
  have hrun : (run (step gatewayRouter) (some (srInit gatewayRouter)) sixUnreachables).any
      (fun st => (st.queue.any fun entry => entry.arpqPackets.head?.any fun p =>
          decide (testPacket p = .ok true)) &&
        decide (srHandlepacket gatewayRouter st unreachableDatagram [0x65] 102
          = .error .endless)) = true := by
    decide +kernel
  obtain ⟨st, hst, hboth⟩ := (Option.any_eq_true _ _).mp hrun
  rw [Bool.and_eq_true, decide_eq_true_iff] at hboth
  obtain ⟨hqueue, hcall⟩ := hboth
  obtain ⟨entry, hentry, hhead⟩ := List.any_eq_true.mp hqueue
  refine ⟨st, hst, ⟨entry, hentry, ?_⟩, hcall⟩
  obtain ⟨p, hp, htest⟩ := (Option.any_eq_true _ _).mp hhead
  obtain ⟨rest, hpackets⟩ := List.head?_eq_some_iff.mp hp
  intro hends
  obtain ⟨r, hr⟩ := hends
  rw [icmpsendStart, hpackets] at hr
  exact not_ends_of_stuck (icmpsendRound_stuck (of_decide_eq_true htest)) r hr

end UchiNetworks.Router
