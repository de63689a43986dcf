import UchiNetworks.Router.Icmpsend

/-!
# Who hears that a host is unreachable

For every packet of an entry it gives up on `arpq_packets_icmpsend` has
`generate_icmp_error` build the message that the host is unreachable. What it
hands to `sr_send_packet` next is `current_packet->outgoing`, the packet, and the
message is destroyed. So the senders are told as they should be only where there
is nobody to tell (`hostUnreachables_iff`).
-/

namespace UchiNetworks.Router

open UchiNetworks.Lib

/-- The frame tells the sender of the packet `p`, on the interface that it came in
on, that the host is unreachable. -/
structure HostUnreachableTo (p : QueuedPacket) (x : Sent) : Prop where
  own : x.forwards = none
  iface : p.fromIface = some x.iface
  toMAC : readMac x.frame 0 = some p.fromMAC
  toIp : readU32 x.frame (etherSize + 16) = some p.outgoing.fromIp
  ip : readBe16 x.frame 12 = some etherTypeIP ∧ x.frame[etherSize]? = some 0x45 ∧
    x.frame[etherSize + 9]? = some ipProtoICMP
  icmp : x.frame[etherSize + ipHdrLen]? = some destUnreach ∧
    x.frame[etherSize + ipHdrLen + 1]? = some hostUnreach

/-- The packets that are no ICMP errors. -/
def toAnswer (packets : List QueuedPacket) : List QueuedPacket :=
  packets.filter fun p => decide (testPacket p ≠ .ok true)

/-- The loop has handed over `sent` at some point, and nothing more after it. -/
def HandedOver (sr : SrInstance) (packets : List QueuedPacket) (sent : List Sent) : Prop :=
  ∃ s, Reaches (icmpsendRound sr) (icmpsendStart packets) s ∧ s.sent = sent ∧
    ∀ s', Reaches (icmpsendRound sr) s s' → s'.sent = sent

/-- One message for every packet that is no ICMP error, in some order, and no such
packet itself. -/
def AnswersEach (packets : List QueuedPacket) (sent : List Sent) : Prop :=
  (∃ answers, answers.Perm sent ∧ List.Forall₂ HostUnreachableTo (toAnswer packets) answers) ∧
    ∀ x ∈ sent, ∀ p ∈ toAnswer packets, x.frame ≠ p.outgoing.frame

theorem mem_toAnswer {packets : List QueuedPacket} {p : QueuedPacket} :
    p ∈ toAnswer packets ↔ p ∈ packets ∧ testPacket p ≠ .ok true := by
  rw [toAnswer, List.mem_filter, decide_eq_true_iff]

/-- What is handed over are packets. -/
theorem handed_packets {sr : SrInstance} {packets : List QueuedPacket} {s : IcmpsendState}
    (h : Reaches (icmpsendRound sr) (icmpsendStart packets) s) :
    ∀ x ∈ s.sent, ∃ p ∈ toAnswer packets, x.frame = p.outgoing.frame := by
  have hinv : (∀ p ∈ s.current, p ∈ packets) ∧
      ∀ x ∈ s.sent, ∃ p ∈ toAnswer packets, x.frame = p.outgoing.frame := by
    refine h.invariant (fun s => (∀ p ∈ s.current, p ∈ packets) ∧
      ∀ x ∈ s.sent, ∃ p ∈ toAnswer packets, x.frame = p.outgoing.frame) ?_ ?_
    · intro s s' hround hs
      obtain ⟨current, sent⟩ := s
      obtain ⟨hcurrent, hsent⟩ := hs
      dsimp only at hcurrent hsent
      cases current with
      | nil => cases hround
      | cons p rest =>
        cases htest : testPacket p with
        | error fault =>
          simp only [icmpsendRound, htest] at hround
          cases hround
        | ok stuck =>
          cases stuck with
          | true =>
            obtain rfl := Round.again.inj ((icmpsendRound_stuck htest).symm.trans hround)
            exact ⟨hcurrent, hsent⟩
          | false =>
            cases hmessage : hostUnreachable sr p with
            | error fault =>
              simp only [icmpsendRound, htest, hmessage] at hround
              cases hround
            | ok message =>
              cases hfrom : p.fromIface with
              | none =>
                simp only [icmpsendRound, htest, hmessage, hfrom] at hround
                cases hround
              | some iface =>
                have hpasses :=
                  @icmpsendRound_passes sr p rest sent message iface htest hmessage hfrom
                obtain rfl := Round.again.inj (hpasses.symm.trans hround)
                refine ⟨fun q hq => hcurrent q (List.mem_cons_of_mem _ hq), fun x hx => ?_⟩
                rcases List.mem_append.mp hx with hx | hx
                · exact hsent x hx
                · obtain rfl := List.mem_singleton.mp hx
                  refine ⟨p, mem_toAnswer.mpr ⟨hcurrent p List.mem_cons_self, ?_⟩, rfl⟩
                  rw [htest]
                  intro h
                  cases h
    · exact ⟨fun p hp => hp, fun x hx => by cases hx⟩
  exact hinv.2

/-- A packet that ought to be answered spoils it. -/
theorem not_answersEach {sr : SrInstance} {packets : List QueuedPacket} {sent : List Sent}
    {p : QueuedPacket} (hp : p ∈ toAnswer packets) (hsent : HandedOver sr packets sent) :
    ¬ AnswersEach packets sent := by
  intro h
  obtain ⟨⟨answers, hperm, hall⟩, hnone⟩ := h
  obtain ⟨s, hreach, rfl, -⟩ := hsent
  -- there is an answer, so something has been handed over
  cases hanswers : answers with
  | nil =>
    rw [hanswers, List.forall₂_nil_right_iff] at hall
    rw [hall] at hp
    cases hp
  | cons x rest =>
    have hx : x ∈ s.sent := hperm.subset (by rw [hanswers]; exact List.mem_cons_self)
    obtain ⟨q, hq, hframe⟩ := handed_packets hreach x hx
    exact hnone x hx q hq hframe

/-- Without one nothing is handed over. -/
theorem handedOver_nothing {sr : SrInstance} {packets : List QueuedPacket}
    (h : ∀ p ∈ packets, testPacket p = .ok true) : HandedOver sr packets [] := by
  refine ⟨_, Reaches.refl _, rfl, fun s' hreach => ?_⟩
  cases packets with
  | nil =>
    cases hreach with
    | refl => rfl
    | next hround _ => cases hround
  | cons p rest =>
    rw [Reaches.of_stuck (icmpsendRound_stuck (h p List.mem_cons_self)) hreach]

/-- **The senders of the packets are told that the host is unreachable**, one message
each and nothing else, exactly if every packet is an ICMP error. -/
theorem hostUnreachables_iff (sr : SrInstance) (packets : List QueuedPacket) :
    (∃ sent, HandedOver sr packets sent ∧ AnswersEach packets sent) ↔
      ∀ p ∈ packets, testPacket p = .ok true := by
  constructor
  · intro h p hp
    obtain ⟨sent, hsent, hanswers⟩ := h
    by_contra htest
    exact not_answersEach (mem_toAnswer.mpr ⟨hp, htest⟩) hsent hanswers
  · intro h
    have hnobody : toAnswer packets = [] := by
      rw [List.eq_nil_iff_forall_not_mem]
      intro p hp
      obtain ⟨hmem, htest⟩ := mem_toAnswer.mp hp
      exact htest (h p hmem)
    refine ⟨[], handedOver_nothing h, ⟨[], List.Perm.refl _, ?_⟩, fun x hx => by cases hx⟩
    rw [hnobody]
    exact List.Forall₂.nil

/-- A datagram to `10.0.2.5` comes six times in a second, and waits. -/
def sixWaiting : List Event :=
  List.replicate 6 { packet := datagramTo 5 196, interface := [0x65], now := 100 }

/-- The router gives up on the entry two seconds later, and its senders are not
told. -/
theorem sixWaiting_untold :
    ∃ st, run (step gatewayRouter) (some (srInit gatewayRouter)) sixWaiting = some st ∧
      ∃ entry ∈ st.queue, GivenUp 102 entry.arpqLastReq entry.arpqNumReqs ∧
        ¬ ∃ sent, HandedOver gatewayRouter entry.arpqPackets sent ∧
          AnswersEach entry.arpqPackets sent := by
  have hrun : (run (step gatewayRouter) (some (srInit gatewayRouter)) sixWaiting).any
      (fun st => st.queue.any fun entry =>
        decide (GivenUp 102 entry.arpqLastReq entry.arpqNumReqs) &&
        entry.arpqPackets.any fun p => decide (testPacket p ≠ .ok true)) = true := by
    decide +kernel
  obtain ⟨st, hst, hqueue⟩ := (Option.any_eq_true _ _).mp hrun
  obtain ⟨entry, hentry, hboth⟩ := List.any_eq_true.mp hqueue
  rw [Bool.and_eq_true, decide_eq_true_iff] at hboth
  obtain ⟨p, hp, htest⟩ := List.any_eq_true.mp hboth.2
  refine ⟨st, hst, entry, hentry, hboth.1, ?_⟩
  intro h
  obtain ⟨sent, hsent, hanswers⟩ := h
  exact not_answersEach (mem_toAnswer.mpr ⟨hp, of_decide_eq_true htest⟩) hsent hanswers

end UchiNetworks.Router
