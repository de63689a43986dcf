import UchiNetworks.Router.MessageRoom

/-!
# When the flush of the queue returns

`sr_handlepacket` begins with `arp_queue_flush`, so what a call does for its own
packet it does only if the flush returns. For the packets that wait between two
calls one thing can stop it: an entry that is given up on with a packet in it
that `arpq_packets_icmpsend` does not get past (`Inv.flush_returns_iff`).
-/

namespace UchiNetworks.Router

open UchiNetworks.Lib

/-- The packet is no ICMP error and has no IP options, and the interface it came in on
is known. -/
def Passable (p : QueuedPacket) : Prop :=
  carriesIcmpError p.outgoing.frame etherSize p.outgoing.ipHl = .ok false ∧
    p.outgoing.ipHl ≤ ipHdrLen ∧ p.fromIface.isSome

/-- Every packet of an entry that is given up on can be passed. -/
def Flushable (now : Nat) (queue : List ArpqEntry) : Prop :=
  ∀ entry ∈ queue, GivenUp now entry.arpqLastReq entry.arpqNumReqs →
    ∀ p ∈ entry.arpqPackets, Passable p

/-- The IP header is where `update_ip_hdr` has put it, and in the frame. -/
structure Headed (p : QueuedPacket) : Prop where
  place : p.outgoing.ipHeader = some etherSize
  long : etherHdrLen ≤ p.outgoing.frame.length

/-- What `update_ip_hdr` has found for a packet that waits. -/
structure Ready (sr : SrInstance) (p : QueuedPacket) : Prop extends Headed p where
  iface : ∃ iface ∈ sr.ifList, p.outgoing.iface = some iface
  route : (rtMatch sr p.outgoing.toIp).isSome

/-! ## ARP frames -/

/-- The frame of an ARP packet. -/
def arpFrame (dst : Mac) (iface : SrIf) (op : Nat) (tha : Mac) (tip : UInt32) : Bytes :=
  dst.val ++ iface.addr.val ++ be16 etherTypeARP ++
    (be16 1 ++ be16 etherTypeIP ++ [6, 4] ++ be16 op ++ iface.addr.val ++ le32 iface.ip ++
      tha.val ++ le32 tip)

/-- `arp_create` on an interface. -/
theorem arpCreate_of {sr : SrInstance} {f : FrameT} {op : Nat} {tip : UInt32} {dst : Mac}
    (htarget : arpTarget sr f op = .ok (tip, dst)) (iface : SrIf) :
    arpCreate sr f (some iface) op =
      .ok { frame := arpFrame dst iface op f.fromMAC tip
            ipHeader := none
            arpHeader := some etherSize
            icmpHeader := none
            fromMAC := iface.addr
            toMAC := some dst
            fromIp := iface.ip
            toIp := tip
            iface := some iface
            ipHl := 0
            ipLen := some 0 } := by
  unfold arpCreate
  rw [getOr_some, ok_bind, htarget, ok_bind]
  dsimp only
  simp only [List.append_assoc]
  rw [encapsulate_of rfl (by rw [List.length_map, List.length_range]) rfl]
  simp only [arpFrame, List.append_assoc, Option.isSome_none, Bool.false_eq_true, if_false]

/-- A request can be made wherever the packet has a route. -/
theorem arpTarget_request {sr : SrInstance} {f : FrameT} (h : (rtMatch sr f.toIp).isSome) :
    ∃ tip, arpTarget sr f arpRequest = .ok (tip, broadcast) := by
  obtain ⟨rt, hrt⟩ := Option.isSome_iff_exists.mp h
  refine ⟨rt.gw, ?_⟩
  unfold arpTarget
  rw [if_pos rfl, hrt, getOr_some, ok_bind]

/-! ## One entry after another -/

theorem arpqPacketsIcmpsend_returns_iff {sr : SrInstance} {packets : List QueuedPacket}
    (h : ∀ p ∈ packets, Headed p) :
    (∃ sent, arpqPacketsIcmpsend sr packets = .ok sent) ↔ ∀ p ∈ packets, Passable p := by
  induction packets with
  | nil =>
    constructor
    · intro _ p hp
      cases hp
    · intro _
      exact ⟨[], rfl⟩
  | cons p rest ih =>
    have ih := ih fun q hq => h q (List.mem_cons_of_mem _ hq)
    have hp := h p List.mem_cons_self
    have hplace : getOr Fault.null p.outgoing.ipHeader = .ok etherSize := by
      rw [hp.place, getOr_some]
    rw [List.forall_mem_cons, ← ih]
    simp only [arpqPacketsIcmpsend, hplace, ok_bind, bind_ok, Passable,
      ← hostUnreachable_returns_iff hp.place hp.long sr]
    constructor
    · intro hsent
      obtain ⟨sent, stuck, hstuck, hsent⟩ := hsent
      cases stuck with
      | true => cases hsent
      | false =>
        simp only [Bool.false_eq_true, if_false, bind_ok, getOr_ok] at hsent
        obtain ⟨message, hmessage, iface, hiface, more, hmore, -⟩ := hsent
        exact ⟨⟨hstuck, ⟨message, hmessage⟩, by rw [hiface]; rfl⟩, more, hmore⟩
    · intro hpass
      obtain ⟨⟨hstuck, ⟨message, hmessage⟩, hfrom⟩, more, hmore⟩ := hpass
      obtain ⟨iface, hiface⟩ := Option.isSome_iff_exists.mp hfrom
      refine ⟨{ frame := p.outgoing.frame, iface := iface, forwards := none } :: more, false,
        hstuck, ?_⟩
      rw [if_neg (by decide), hmessage, ok_bind, hiface, getOr_some, ok_bind, hmore, ok_bind]

theorem flushEntry_returns_iff {sr : SrInstance} {now : Nat} {entry : ArpqEntry}
    (h : ∀ p ∈ entry.arpqPackets, Ready sr p) :
    (∃ r, flushEntry sr now entry = .ok r) ↔
      (GivenUp now entry.arpqLastReq entry.arpqNumReqs →
        ∀ p ∈ entry.arpqPackets, Passable p) := by
  have hsend := @arpqPacketsIcmpsend_returns_iff sr _ fun p hp => (h p hp).toHeaded
  unfold flushEntry GivenUp Idle
  by_cases hlate : now - arpRequestTimeout > entry.arpqLastReq
  · rw [if_pos hlate]
    by_cases hmany : entry.arpqNumReqs ≥ arpMaxReq
    · rw [if_pos hmany, ← hsend]
      simp only [bind_ok]
      constructor
      · intro hr _
        obtain ⟨r, sent, hsent, -⟩ := hr
        exact ⟨sent, hsent⟩
      · intro hr
        obtain ⟨sent, hsent⟩ := hr ⟨hlate, hmany⟩
        exact ⟨_, sent, hsent, rfl⟩
    · -- another request is sent, for the first packet
      rw [if_neg hmany]
      refine iff_of_true ?_ fun hgiven => absurd hgiven.2 hmany
      cases hpackets : entry.arpqPackets with
      | nil => exact ⟨_, rfl⟩
      | cons p rest =>
        have hp := h p (by rw [hpackets]; exact List.mem_cons_self)
        obtain ⟨iface, -, hiface⟩ := hp.iface
        obtain ⟨tip, htarget⟩ := arpTarget_request hp.route
        dsimp only
        rw [hiface, arpCreate_of htarget, ok_bind, sendPacket, getOr_some, ok_bind]
        exact ⟨_, rfl⟩
  · rw [if_neg hlate]
    exact iff_of_true ⟨_, rfl⟩ fun hgiven => absurd hgiven.1 hlate

theorem arpQueueFlush_returns_iff {sr : SrInstance} {now : Nat} {queue : List ArpqEntry}
    (h : ∀ entry ∈ queue, ∀ p ∈ entry.arpqPackets, Ready sr p) :
    (∃ r, arpQueueFlush sr now queue = .ok r) ↔ Flushable now queue := by
  unfold Flushable
  induction queue with
  | nil =>
    constructor
    · intro _ entry hentry
      cases hentry
    · intro _
      exact ⟨_, rfl⟩
  | cons entry rest ih =>
    have ih := ih fun e he => h e (List.mem_cons_of_mem _ he)
    rw [List.forall_mem_cons, ← flushEntry_returns_iff (h entry List.mem_cons_self), ← ih]
    simp only [arpQueueFlush, bind_ok]
    constructor
    · intro hr
      obtain ⟨r, r1, h1, r2, h2, -⟩ := hr
      exact ⟨⟨r1, h1⟩, r2, h2⟩
    · intro hr
      obtain ⟨⟨r1, h1⟩, r2, h2⟩ := hr
      exact ⟨_, r1, h1, r2, h2, rfl⟩

/-! ## Between two calls -/

theorem getInterface_mem {sr : SrInstance} {ifName : IfName} {iface : SrIf}
    (h : getInterface sr ifName = some iface) : iface ∈ sr.ifList := List.mem_of_find?_eq_some h

theorem Waits.ready {sr : SrInstance} {hist : List Event} {ip hop : UInt32} {p : QueuedPacket}
    (h : Waits sr hist ip hop p) : Ready sr p := by
  obtain ⟨incoming, hacc, hupd, -⟩ := h.accepted
  obtain ⟨-, -, hlen, -, -, hv, -⟩ := hacc.spec
  obtain ⟨hout, htaken⟩ := updateIpHdr_spec hupd hv
  obtain ⟨rt, iface, hrt, -, hfound, hiface, -⟩ := hout.route
  exact
    { place := hout.ipHeader
      long := by rw [htaken.length, hlen]; exact hacc.long
      iface := ⟨iface, getInterface_mem hfound, hiface⟩
      route := by rw [hout.toIp, hrt]; rfl }

theorem QueueInv.ready {sr : SrInstance} {hist : List Event} {queue : List ArpqEntry}
    (h : QueueInv sr hist (queue.map ArpqEntry.core)) :
    ∀ entry ∈ queue, ∀ p ∈ entry.arpqPackets, Ready sr p := by
  intro entry hentry p hp
  exact (h.waits _ (List.mem_map_of_mem hentry) p hp).ready

/-- **The flush returns** exactly if it can pass every packet of every entry it
gives up on. -/
theorem Inv.flush_returns_iff {sr : SrInstance} {hist : List Event} {st : RouterState}
    (h : Inv sr hist st) (now : Nat) :
    (∃ r, arpQueueFlush sr now st.queue = .ok r) ↔ Flushable now st.queue :=
  arpQueueFlush_returns_iff h.queue.ready

/-- A router that is up is in a state that a run reaches. -/
def Reached (sr : SrInstance) (st : Option RouterState) : Prop :=
  ∀ s, st = some s → ∃ hist, Inv sr hist s

theorem reached_init (sr : SrInstance) : Reached sr (some (srInit sr)) := by
  intro s hs
  obtain rfl := Option.some.inj hs
  exact ⟨[], inv_init sr⟩

theorem Reached.step {sr : SrInstance} {st : Option RouterState} (h : Reached sr st) (e : Event) :
    Reached sr (step sr st e) := by
  intro s' hs'
  obtain ⟨s, hs, hcall⟩ := step_eq_some hs'
  obtain ⟨hist, hinv⟩ := h s hs
  exact ⟨_, inv_step hinv hcall⟩

/-- A router that is up at the end of a run was up after each step. -/
theorem along_up {sr : SrInstance} {st : Option RouterState} {evs : List Event}
    (h : (run (Router.step sr) st evs).isSome) :
    Along (Router.step sr) (fun st e => (Router.step sr st e).isSome) st evs := by
  refine along_of_last (fun st : Option RouterState => st.isSome = true) (fun st e hup => ?_) h
  obtain ⟨s', hs'⟩ := Option.isSome_iff_exists.mp hup
  obtain ⟨s, rfl, -⟩ := step_eq_some hs'
  rfl

end UchiNetworks.Router
