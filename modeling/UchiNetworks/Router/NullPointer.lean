import UchiNetworks.Router.Invariant
import UchiNetworks.Router.Routes

/-!
# Which frames make the router follow a NULL pointer

`create_frame_t`, `rt_match` and `get_interface` report failure with NULL and
`sr_handlepacket` uses what they return several calls later. With interfaces
that exist, two kinds of frames are left (`null_avoided_iff`): a frame of
another protocol, since `incoming` is used before it is looked at, and a packet
to forward for which the table has no route. Everything else the code follows
has been found: what a queued packet needs was found when it was queued, which
`Waits` remembers.
-/

namespace UchiNetworks.Router

open UchiNetworks.Lib

abbrev NoNull {α : Type} (x : Res α) : Prop := Avoids Fault.null x

/-- The frame is IP or ARP, and if it is a packet to forward the table has a
route; or the call does not get beyond the flush of the queue. -/
def Supported (sr : SrInstance) (st : RouterState) (e : Event) : Prop :=
  ∀ queue flushed, arpQueueFlush sr e.now st.queue = .ok (queue, flushed) →
    (readBe16 e.packet 12 = some etherTypeIP ∨ readBe16 e.packet 12 = some etherTypeARP) ∧
    ∀ incoming, Accepted sr (e.arrival st.calls) incoming → (rtMatch sr incoming.toIp).isSome

/-! ## One function after another -/

variable {α β : Type}

/-- A lookup whose failure is a fault of another kind. -/
theorem noNull_access {fault : Fault} {x : Option α} {f : α → Res β}
    (hfault : fault ≠ .null) (h : ∀ a, x = some a → NoNull (f a)) :
    NoNull (getOr fault x >>= f) :=
  avoids_bind (avoids_getOr hfault x) fun a ha => h a (getOr_ok.mp ha)

/-- A test whose other branch is a fault of another kind. -/
theorem noNull_guard {c : Prop} [Decidable c] {fault : Fault} {x : Res α}
    (hfault : fault ≠ .null) (h : ¬ c → NoNull x) :
    NoNull (if c then .error fault else x) :=
  avoids_ite (fun _ => avoids_error hfault) h

theorem noNull_encapsulate (f : FrameT) : NoNull (encapsulate f) := by
  refine noNull_access (by decide) fun _ _ => ?_
  refine noNull_access (by decide) fun _ _ => ?_
  refine noNull_access (by decide) fun _ _ => ?_
  exact noNull_access (by decide) fun _ _ => avoids_ok _ _

theorem noNull_computeIpChecksum {f : FrameT} (h : f.ipHeader.isSome) :
    NoNull (computeIpChecksum f) := by
  refine avoids_bind (avoids_getOr_some _ _ h) fun _ _ => ?_
  refine noNull_access (by decide) fun _ _ => ?_
  exact noNull_access (by decide) fun _ _ => avoids_ok _ _

theorem noNull_computeIcmpChecksum {f : FrameT} (h : f.icmpHeader.isSome) :
    NoNull (computeIcmpChecksum f) := by
  refine avoids_bind (avoids_getOr_some _ _ h) fun _ _ => ?_
  refine noNull_access (by decide) fun _ _ => ?_
  refine noNull_guard (by decide) fun _ => ?_
  refine noNull_access (by decide) fun _ _ => ?_
  exact noNull_access (by decide) fun _ _ => avoids_ok _ _

theorem noNull_ipHeaderCreate (f : FrameT) : NoNull (ipHeaderCreate f) := by
  refine noNull_access (by decide) fun ip hip => ?_
  refine noNull_access (by decide) fun _ _ => ?_
  refine noNull_access (by decide) fun _ _ => ?_
  refine noNull_computeIpChecksum ?_
  show f.ipHeader.isSome
  rw [hip]
  rfl

theorem noNull_generateIcmpEcho (f : FrameT) : NoNull (generateIcmpEcho f) := by
  refine noNull_access (by decide) fun _ _ => ?_
  refine noNull_access (by decide) fun _ _ => ?_
  refine noNull_access (by decide) fun _ _ => ?_
  refine avoids_bind (noNull_computeIcmpChecksum rfl) fun _ _ => ?_
  exact avoids_bind (noNull_ipHeaderCreate _) fun _ _ => noNull_encapsulate _

theorem noNull_generateIcmpError {sr : SrInstance} {f : FrameT} (h : f.ipHeader.isSome)
    (icmpType icmpCode : UInt8) : NoNull (generateIcmpError sr f icmpType icmpCode) := by
  refine noNull_access (by decide) fun _ _ => ?_
  refine noNull_access (by decide) fun _ _ => ?_
  refine avoids_bind (avoids_getOr_some _ _ h) fun _ _ => ?_
  refine noNull_access (by decide) fun _ _ => ?_
  refine noNull_access (by decide) fun _ _ => ?_
  refine noNull_access (by decide) fun _ _ => ?_
  refine avoids_bind (noNull_computeIcmpChecksum rfl) fun _ _ => ?_
  exact avoids_bind (noNull_ipHeaderCreate _) fun _ _ => noNull_encapsulate _

theorem noNull_carriesIcmpError (frame : Bytes) (ip ipHl : Nat) :
    NoNull (carriesIcmpError frame ip ipHl) := by
  refine noNull_access (by decide) fun _ _ => ?_
  refine avoids_ite (fun _ => ?_) fun _ => avoids_ok _ _
  exact noNull_access (by decide) fun _ _ => avoids_ok _ _

theorem noNull_sendPacket {f : FrameT} (h : f.iface.isSome) (forwards : Option Arrival) :
    NoNull (sendPacket f forwards) :=
  avoids_bind (avoids_getOr_some _ _ h) fun _ _ => avoids_ok _ _

theorem noNull_sendDatagram {st : RouterState} {out : Option FrameT}
    (h : ∀ f, out = some f → f.iface.isSome) (forwards : Option Arrival) :
    NoNull (sendDatagram st out forwards) := by
  cases out with
  | none => exact avoids_ok _ _
  | some f => exact avoids_bind (noNull_sendPacket (h f rfl) _) fun _ _ => avoids_ok _ _

theorem noNull_arpCreate {sr : SrInstance} {f : FrameT} {iface : Option SrIf} {op : Nat}
    (hiface : iface.isSome) (hroute : op = arpRequest → (rtMatch sr f.toIp).isSome) :
    NoNull (arpCreate sr f iface op) := by
  refine avoids_bind (avoids_getOr_some _ _ hiface) fun _ _ => ?_
  refine avoids_bind ?_ fun _ _ => noNull_encapsulate _
  refine avoids_ite (fun hop => ?_) fun _ => avoids_ok _ _
  exact avoids_bind (avoids_getOr_some _ _ (hroute hop)) fun _ _ => avoids_ok _ _

theorem arpCreate_iface {sr : SrInstance} {f req : FrameT} {iface : Option SrIf} {op : Nat}
    (h : arpCreate sr f iface op = .ok req) : req.iface.isSome := by
  simp only [arpCreate, bind_ok, getOr_ok] at h
  obtain ⟨i, _, _, _, henc⟩ := h
  rw [encapsulate_iface henc]
  rfl

/-! ## What a queued packet needs was found -/

theorem Waits.complete {sr : SrInstance} {hist : List Event} {ip hop : UInt32}
    {p : QueuedPacket} (h : Waits sr hist ip hop p)
    (hknown : ∀ e ∈ hist, (getInterface sr e.interface).isSome) : Complete sr p := by
  obtain ⟨incoming, hacc, hupd, hfrom⟩ := h.accepted
  obtain ⟨-, -, -, -, -, hv, -, hiface⟩ := hacc.spec
  obtain ⟨hout, -⟩ := updateIpHdr_spec hupd hv
  obtain ⟨rt, iface, hrt, -, -, hifc, -⟩ := hout.route
  have hmem := List.mem_of_getElem? h.arrived
  exact
    { ipHeader := by rw [hout.ipHeader]; rfl
      iface := by rw [hifc]; rfl
      route := by rw [hout.toIp, hrt]; rfl
      fromIface := by rw [hfrom, hiface]; exact hknown _ hmem }

theorem noNull_arpqEntryClear {sr : SrInstance} {dHa : Mac} {packets : List QueuedPacket}
    (h : ∀ p ∈ packets, Complete sr p) : NoNull (arpqEntryClear dHa packets) := by
  induction packets with
  | nil => exact avoids_ok _ _
  | cons p rest ih =>
    have hp := h p List.mem_cons_self
    refine avoids_bind (avoids_getOr_some _ _ hp.iface) fun _ _ => ?_
    refine avoids_bind (noNull_encapsulate _) fun out hout => ?_
    refine avoids_bind (noNull_sendPacket ?_ _) fun _ _ => ?_
    · rw [encapsulate_iface hout]
      exact hp.iface
    · exact avoids_bind (ih fun q hq => h q (List.mem_cons_of_mem _ hq)) fun _ _ => avoids_ok _ _

theorem noNull_hostUnreachable {sr : SrInstance} {p : QueuedPacket}
    (h : p.outgoing.ipHeader.isSome) : NoNull (hostUnreachable sr p) := by
  unfold hostUnreachable
  refine noNull_generateIcmpError ?_ _ _
  exact h

theorem noNull_arpqPacketsIcmpsend {sr : SrInstance} {packets : List QueuedPacket}
    (h : ∀ p ∈ packets, Complete sr p) : NoNull (arpqPacketsIcmpsend sr packets) := by
  induction packets with
  | nil => exact avoids_ok _ _
  | cons p rest ih =>
    have hp := h p List.mem_cons_self
    refine avoids_bind (avoids_getOr_some _ _ hp.ipHeader) fun _ _ => ?_
    refine avoids_bind (noNull_carriesIcmpError _ _ _) fun _ _ => ?_
    refine noNull_guard (by decide) fun _ => ?_
    refine avoids_bind (noNull_hostUnreachable hp.ipHeader) fun _ _ => ?_
    refine avoids_bind (avoids_getOr_some _ _ hp.fromIface) fun _ _ => ?_
    exact avoids_bind (ih fun q hq => h q (List.mem_cons_of_mem _ hq)) fun _ _ => avoids_ok _ _

theorem noNull_flushEntry {sr : SrInstance} {now : Nat} {entry : ArpqEntry}
    (h : ∀ p ∈ entry.arpqPackets, Complete sr p) : NoNull (flushEntry sr now entry) := by
  refine avoids_ite (fun _ => ?_) fun _ => avoids_ok _ _
  refine avoids_ite (fun _ => ?_) fun _ => ?_
  · exact avoids_bind (noNull_arpqPacketsIcmpsend h) fun _ _ => avoids_ok _ _
  · cases hpackets : entry.arpqPackets with
    | nil => exact avoids_ok _ _
    | cons p rest =>
      have hp := h p (by rw [hpackets]; exact List.mem_cons_self)
      refine avoids_bind (noNull_arpCreate hp.iface fun _ => hp.route) fun req hreq => ?_
      exact avoids_bind (noNull_sendPacket (arpCreate_iface hreq) _) fun _ _ => avoids_ok _ _

theorem noNull_arpQueueFlush {sr : SrInstance} {now : Nat} {queue : List ArpqEntry}
    (h : ∀ entry ∈ queue, ∀ p ∈ entry.arpqPackets, Complete sr p) :
    NoNull (arpQueueFlush sr now queue) := by
  induction queue with
  | nil => exact avoids_ok _ _
  | cons entry rest ih =>
    refine avoids_bind (noNull_flushEntry (h entry List.mem_cons_self)) fun _ _ => ?_
    refine avoids_bind (ih fun e he => h e (List.mem_cons_of_mem _ he)) fun _ _ => ?_
    exact avoids_ok _ _

/-! ## The branches -/

theorem noNull_createFrameT (sr : SrInstance) (packet : Bytes) (ifName : IfName) :
    NoNull (createFrameT sr packet ifName) := by
  refine noNull_access (by decide) fun _ _ => ?_
  refine noNull_access (by decide) fun _ _ => ?_
  refine noNull_access (by decide) fun _ _ => ?_
  refine avoids_ite (fun _ => ?_) fun _ => avoids_ite (fun _ => ?_) fun _ => avoids_ok _ _
  · refine noNull_access (by decide) fun _ _ => ?_
    refine noNull_access (by decide) fun _ _ => ?_
    refine noNull_access (by decide) fun _ _ => ?_
    refine noNull_access (by decide) fun _ _ => ?_
    exact noNull_access (by decide) fun _ _ => avoids_ok _ _
  · refine noNull_access (by decide) fun _ _ => ?_
    exact noNull_access (by decide) fun _ _ => avoids_ok _ _

theorem noNull_checkIp {f : FrameT} (h : f.ipHeader.isSome) : NoNull (checkIp f) := by
  refine noNull_access (by decide) fun _ _ => ?_
  refine avoids_ite (fun _ => avoids_ok _ _) fun _ => ?_
  refine avoids_bind (noNull_computeIpChecksum h) fun checked hchecked => ?_
  refine noNull_access (by decide) fun _ _ => ?_
  refine avoids_ite (fun _ => avoids_ok _ _) fun _ => ?_
  refine avoids_bind (noNull_computeIpChecksum ?_) fun _ _ => avoids_ok _ _
  obtain ⟨ip, sum, g, hip, -, -, rfl⟩ := computeIpChecksum_eq hchecked
  exact h

theorem noNull_ifDstCheck (sr : SrInstance) (ip : UInt32) : NoNull (ifDstCheck sr ip) :=
  noNull_guard (by decide) fun _ => avoids_ok _ _

theorem computeIcmpChecksum_iface {f f' : FrameT} (h : computeIcmpChecksum f = .ok f') :
    f'.iface = f.iface := by
  simp only [computeIcmpChecksum, bind_ok, getOr_ok] at h
  obtain ⟨_, _, len, _, h⟩ := h
  split at h
  · cases h
  · simp only [bind_ok, getOr_ok, Except.ok.injEq] at h
    obtain ⟨_, _, _, _, rfl⟩ := h
    rfl

theorem ipHeaderCreate_iface {f f' : FrameT} (h : ipHeaderCreate f = .ok f') :
    f'.iface = f.iface := by
  simp only [ipHeaderCreate, bind_ok, getOr_ok] at h
  obtain ⟨_, _, _, _, _, _, h⟩ := h
  obtain ⟨_, _, _, _, _, _, rfl⟩ := computeIpChecksum_eq h
  rfl

/-- An answer of our own goes out where the packet came in. -/
theorem generateIcmpError_iface {sr : SrInstance} {f f' : FrameT} {t c : UInt8}
    (h : generateIcmpError sr f t c = .ok f') : f'.iface = f.iface := by
  simp only [generateIcmpError, bind_ok, getOr_ok] at h
  obtain ⟨_, _, _, _, _, _, _, _, _, _, _, _, g1, h1, g2, h2, henc⟩ := h
  rw [encapsulate_iface henc, ipHeaderCreate_iface h2, computeIcmpChecksum_iface h1]

theorem generateIcmpEcho_iface {f f' : FrameT} (h : generateIcmpEcho f = .ok f') :
    f'.iface = f.iface := by
  simp only [generateIcmpEcho, bind_ok, getOr_ok] at h
  obtain ⟨_, _, _, _, _, _, g1, h1, g2, h2, henc⟩ := h
  rw [encapsulate_iface henc, ipHeaderCreate_iface h2, computeIcmpChecksum_iface h1]

theorem noNull_localReply {sr : SrInstance} {f : FrameT} (h : f.ipHeader.isSome) :
    NoNull (localReply sr f) := by
  simp only [localReply]
  cases hicmp : f.icmpHeader with
  | none =>
    refine avoids_bind (noNull_generateIcmpError h _ _) fun _ _ => avoids_ok _ _
  | some icmp =>
    refine avoids_bind (noNull_computeIcmpChecksum (by rw [hicmp]; rfl)) fun _ _ => ?_
    refine noNull_access (by decide) fun _ _ => ?_
    refine noNull_access (by decide) fun _ _ => ?_
    refine avoids_ite (fun _ => ?_) fun _ => avoids_ok _ _
    exact avoids_bind (noNull_generateIcmpEcho _) fun _ _ => avoids_ok _ _

theorem localReply_iface {sr : SrInstance} {f out : FrameT}
    (h : localReply sr f = .ok (some out)) : out.iface = f.iface := by
  simp only [localReply] at h
  cases hicmp : f.icmpHeader with
  | none =>
    simp only [hicmp, bind_ok, Except.ok.injEq, Option.some.injEq] at h
    obtain ⟨f', hf', rfl⟩ := h
    exact generateIcmpError_iface hf'
  | some icmp =>
    simp only [hicmp, bind_ok, getOr_ok] at h
    obtain ⟨f1, h1, t, _, sum, _, h⟩ := h
    split at h
    · simp only [bind_ok, Except.ok.injEq, Option.some.injEq] at h
      obtain ⟨f', hf', rfl⟩ := h
      rw [generateIcmpEcho_iface hf', computeIcmpChecksum_iface h1]
    · cases h

theorem noNull_ttlReply {sr : SrInstance} {f : FrameT} (h : f.ipHeader.isSome) :
    NoNull (ttlReply sr f) := by
  refine avoids_bind (noNull_carriesIcmpError _ _ _) fun _ _ => ?_
  refine avoids_ite (fun _ => avoids_ok _ _) fun _ => ?_
  exact avoids_bind (noNull_generateIcmpError h _ _) fun _ _ => avoids_ok _ _

theorem ttlReply_iface {sr : SrInstance} {f out : FrameT}
    (h : ttlReply sr f = .ok (some out)) : out.iface = f.iface := by
  simp only [ttlReply, bind_ok] at h
  obtain ⟨err, -, h⟩ := h
  cases err with
  | true => cases h
  | false =>
    simp only [Bool.false_eq_true, if_false, bind_ok, Except.ok.injEq, Option.some.injEq] at h
    obtain ⟨f', hf', rfl⟩ := h
    exact generateIcmpError_iface hf'

theorem noNull_queuePacket {sr : SrInstance} {st : RouterState} {a : Arrival}
    {incoming outgoing : FrameT} (hiface : outgoing.iface.isSome)
    (hroute : (rtMatch sr outgoing.toIp).isSome) :
    NoNull (queuePacket sr st a incoming outgoing) := by
  have htouch : ∀ entry, NoNull (touchEntry a.now entry) := fun entry =>
    avoids_ite (fun _ => noNull_guard (by decide) fun _ =>
      avoids_ite (fun _ => avoids_ok _ _) fun _ => avoids_ok _ _) fun _ => avoids_ok _ _
  have hsend : ∀ (s : RouterState) (req : FrameT),
      arpCreate sr outgoing outgoing.iface arpRequest = .ok req →
      NoNull (sendDatagram s (some req) none) := fun s req hreq =>
    noNull_sendDatagram (fun f hf => Option.some.inj hf ▸ arpCreate_iface hreq) _
  simp only [queuePacket]
  cases arpQueueLookup st.queue outgoing.toIp with
  | some entry =>
    refine avoids_bind (htouch entry) fun _ _ => ?_
    refine noNull_guard (by decide) fun _ => ?_
    exact avoids_bind (noNull_arpCreate hiface fun _ => hroute) fun req hreq => hsend _ req hreq
  | none =>
    exact avoids_bind (noNull_arpCreate hiface fun _ => hroute) fun req hreq => hsend _ req hreq

theorem noNull_updateIpHdr {sr : SrInstance} {f : FrameT} (hroute : (rtMatch sr f.toIp).isSome)
    (hexist : ∀ rt ∈ sr.routingTable, (getInterface sr rt.interface).isSome) :
    NoNull (updateIpHdr sr f) := by
  refine avoids_bind (avoids_getOr_some _ _ hroute) fun rt hrt => ?_
  refine avoids_bind (avoids_getOr_some _ _ (hexist rt ?_)) fun _ _ => ?_
  · exact rtMatch_mem (getOr_ok.mp hrt)
  refine noNull_access (by decide) fun _ _ => ?_
  refine noNull_access (by decide) fun _ _ => ?_
  refine noNull_access (by decide) fun _ _ => ?_
  refine noNull_access (by decide) fun _ _ => ?_
  exact avoids_bind (noNull_computeIpChecksum rfl) fun _ _ => avoids_ok _ _

theorem noNull_forwardPacket {sr : SrInstance} {st : RouterState} {a : Arrival} {f : FrameT}
    (hv : Verifies f.frame) (hroute : (rtMatch sr f.toIp).isSome)
    (hexist : ∀ rt ∈ sr.routingTable, (getInterface sr rt.interface).isSome) :
    NoNull (forwardPacket sr st a f) := by
  refine avoids_bind (noNull_updateIpHdr hroute hexist) fun out hout => ?_
  obtain ⟨outgoing, hop⟩ := out
  obtain ⟨hspec, -⟩ := updateIpHdr_spec hout hv
  obtain ⟨rt, iface, hrt, -, -, hiface, -⟩ := hspec.route
  have hsome : outgoing.iface.isSome := by rw [hiface]; rfl
  have hroute' : (rtMatch sr outgoing.toIp).isSome := by rw [hspec.toIp]; exact hroute
  simp only
  cases arpCacheLookup st.cache hop with
  | some incache =>
    refine avoids_bind (noNull_encapsulate _) fun sent hsent => ?_
    refine noNull_sendDatagram (fun f' hf' => ?_) _
    rw [← Option.some.inj hf', encapsulate_iface hsent]
    exact hsome
  | none => exact noNull_queuePacket hsome hroute'

theorem noNull_handleIp {sr : SrInstance} {st : RouterState} {a : Arrival} {created : FrameT}
    (hlong : etherHdrLen ≤ a.packet.length)
    (hcreated : createFrameT sr a.packet a.interface = .ok (some created))
    (hsome : created.ipHeader.isSome) (hknown : (getInterface sr a.interface).isSome)
    (hexist : ∀ rt ∈ sr.routingTable, (getInterface sr rt.interface).isSome)
    (hroute : ∀ incoming, Accepted sr a incoming → (rtMatch sr incoming.toIp).isSome) :
    NoNull (handleIp sr st a created) := by
  cases createFrameT_spec hcreated with
  | arp hframe htype hip hiface => simp [hip] at hsome
  | ip hframe htype hip hiface hdst =>
    refine avoids_bind (noNull_checkIp hsome) fun checked hchecked => ?_
    cases checked with
    | none => exact avoids_ok _ _
    | some incoming =>
      obtain ⟨frame, rfl, -, -, -, hv, -⟩ := checkIp_spec hip hchecked
      have hin : created.iface.isSome := by rw [hiface]; exact hknown
      refine avoids_bind (noNull_ifDstCheck _ _) fun ours hours => ?_
      cases ours with
      | some target =>
        refine avoids_bind (noNull_localReply hsome) fun out hout => ?_
        refine noNull_sendDatagram (fun f hf => ?_) _
        subst hf
        rw [localReply_iface hout]
        exact hin
      | none =>
        refine noNull_access (by decide) fun ttl httl => ?_
        refine avoids_ite (fun _ => ?_) fun hpos => ?_
        · refine avoids_bind (noNull_ttlReply hsome) fun out hout => ?_
          refine noNull_sendDatagram (fun f hf => ?_) _
          subst hf
          rw [ttlReply_iface hout]
          exact hin
        · refine noNull_forwardPacket hv (hroute _ ?_) hexist
          exact
            { long := hlong
              created := ⟨created, hcreated, hsome, hchecked⟩
              notOurs := hours
              ttl := ⟨ttl, httl, UInt8.not_le.mp hpos⟩ }

theorem noNull_answerArp {sr : SrInstance} {st : RouterState} {f : FrameT} {op : Nat}
    (hiface : f.iface.isSome) : NoNull (answerArp sr st f op) := by
  refine avoids_ite (fun _ => ?_) fun _ => avoids_ok _ _
  refine avoids_bind (noNull_arpCreate hiface fun h => absurd h (by decide)) fun req hreq => ?_
  exact noNull_sendDatagram (fun f' hf' => Option.some.inj hf' ▸ arpCreate_iface hreq) _

theorem noNull_handleArp {sr : SrInstance} {st : RouterState} {a : Arrival} {f : FrameT}
    (hiface : f.iface.isSome)
    (hcomplete : ∀ entry ∈ st.queue, ∀ p ∈ entry.arpqPackets, Complete sr p) :
    NoNull (handleArp sr st a f) := by
  refine noNull_access (by decide) fun sha _ => ?_
  refine noNull_access (by decide) fun sip _ => ?_
  refine noNull_access (by decide) fun tip _ => ?_
  refine noNull_access (by decide) fun op _ => ?_
  cases arpCacheLookup st.cache sip with
  | some known =>
    refine avoids_bind (noNull_ifDstCheck _ _) fun target _ => ?_
    cases target with
    | none => exact avoids_ok _ _
    | some target => exact noNull_answerArp hiface
  | none =>
    refine avoids_bind (noNull_ifDstCheck _ _) fun target _ => ?_
    cases target with
    | none => exact avoids_ok _ _
    | some target =>
      refine avoids_bind ?_ fun _ _ => noNull_answerArp hiface
      simp only [learnSender]
      cases hfind : arpqNextHopLookup st.queue sip with
      | none => exact avoids_ok _ _
      | some entry =>
        have hentry := hcomplete entry (List.mem_of_find?_eq_some hfind)
        exact avoids_bind (noNull_arpqEntryClear hentry) fun _ _ => avoids_ok _ _

/-! ## The whole call -/

theorem mem_cores {queue : List ArpqEntry} {entry : ArpqEntry} (h : entry ∈ queue) :
    (entry.arpqIp, entry.arpqNextHop, entry.arpqPackets) ∈ queue.map ArpqEntry.core :=
  List.mem_map_of_mem (f := ArpqEntry.core) h

theorem Inv.complete {sr : SrInstance} {hist : List Event} {st : RouterState}
    (h : Inv sr hist st) (hknown : ∀ e ∈ hist, (getInterface sr e.interface).isSome) :
    ∀ entry ∈ st.queue, ∀ p ∈ entry.arpqPackets, Complete sr p := fun _ hmem p hp =>
  (h.queue.waits _ (mem_cores hmem) p hp).complete hknown

theorem noNull_of_supported {sr : SrInstance} {hist : List Event} {st : RouterState} {e : Event}
    (hinv : Inv sr hist st) (hlong : etherHdrLen ≤ e.packet.length)
    (hknown : ∀ e' ∈ hist ++ [e], (getInterface sr e'.interface).isSome)
    (hexist : ∀ rt ∈ sr.routingTable, (getInterface sr rt.interface).isSome)
    (hsup : Supported sr st e) : NoNull (srHandlepacket sr st e.packet e.interface e.now) := by
  have hhist : ∀ e' ∈ hist, (getInterface sr e'.interface).isSome := fun e' he' =>
    hknown e' (List.mem_append_left _ he')
  have hlast : (getInterface sr e.interface).isSome :=
    hknown e (List.mem_append_right _ (List.mem_singleton_self e))
  refine avoids_ite (fun _ => avoids_ok _ _) fun _ => ?_
  refine avoids_bind (noNull_createFrameT _ _ _) fun created hcreated => ?_
  refine avoids_bind (noNull_arpQueueFlush (hinv.complete hhist)) fun flush hflush => ?_
  obtain ⟨queue, flushed⟩ := flush
  obtain ⟨htype, hroute⟩ := hsup queue flushed hflush
  have hcomplete : ∀ entry ∈ queue, ∀ p ∈ entry.arpqPackets, Complete sr p := by
    intro entry hmem p hp
    obtain ⟨hq, -, -⟩ := hinv.flush (arpQueueFlush_spec hflush)
    exact (hq.waits _ (mem_cores hmem) p hp).complete hhist
  cases created with
  | none =>
    -- `create_frame_t` knows the protocol
    obtain ⟨hip, harp⟩ := createFrameT_none hcreated
    rcases htype with htype | htype
    · exact absurd htype hip
    · exact absurd htype harp
  | some incoming =>
    refine avoids_bind (avoids_ok _ _) fun f hf => ?_
    obtain rfl := Except.ok.inj hf
    refine avoids_ite (fun hip => ?_) fun _ => ?_
    · exact noNull_handleIp hlong hcreated hip hlast hexist hroute
    · refine noNull_handleArp ?_ hcomplete
      cases createFrameT_spec hcreated with
      | ip hframe htype hip hiface hdst => rw [hiface]; exact hlast
      | arp hframe htype hip hiface => rw [hiface]; exact hlast

theorem supported_of_noNull {sr : SrInstance} {st : RouterState} {e : Event}
    (hlong : etherHdrLen ≤ e.packet.length)
    (h : NoNull (srHandlepacket sr st e.packet e.interface e.now)) : Supported sr st e := by
  intro queue flushed hflush
  have hnot : ¬ e.packet.length < etherHdrLen := Nat.not_lt.mpr hlong
  constructor
  · by_contra hunknown
    rw [not_or] at hunknown
    have hnull : createFrameT sr e.packet e.interface = .ok none := by
      obtain ⟨created, hcreated⟩ := createFrameT_returns hlong sr e.interface
      cases created with
      | none => exact hcreated
      | some f =>
        cases createFrameT_spec hcreated with
        | ip hframe htype hip hiface hdst => exact absurd htype hunknown.1
        | arp hframe htype hip hiface => exact absurd htype hunknown.2
    apply h
    simp only [srHandlepacket, hnot, if_false, hnull, hflush, ok_bind, getOr_none, error_bind]
  · intro incoming hacc
    by_contra hroute
    have hnone : rtMatch sr incoming.toIp = none := Option.not_isSome_iff_eq_none.mp hroute
    obtain ⟨created, hcreated, hip, hcheck⟩ := hacc.created
    obtain ⟨ttl, httl, hpos⟩ := hacc.ttl
    have hcreated : createFrameT sr e.packet e.interface = .ok (some created) := hcreated
    apply h
    simp only [srHandlepacket, hnot, if_false, hcreated, hflush, ok_bind, getOr_some, hip, if_true,
      handleIp, hcheck, hacc.notOurs, httl]
    rw [if_neg (UInt8.not_le.mpr hpos)]
    simp only [forwardPacket, updateIpHdr, hnone, getOr_none, error_bind]

/-- **A call follows no NULL pointer exactly when the frame is of a known
protocol and, if it is to be forwarded, has a route.** -/
theorem null_avoided_iff {sr : SrInstance} {hist : List Event} {e : Event} {st : RouterState}
    (hrun : run (step sr) (some (srInit sr)) hist = some st)
    (hlong : etherHdrLen ≤ e.packet.length)
    (hknown : ∀ e' ∈ hist ++ [e], (getInterface sr e'.interface).isSome)
    (hexist : ∀ rt ∈ sr.routingTable, (getInterface sr rt.interface).isSome) :
    Avoids Fault.null (srHandlepacket sr st e.packet e.interface e.now) ↔ Supported sr st e :=
  ⟨supported_of_noNull hlong, noNull_of_supported (inv_run hrun) hlong hknown hexist⟩

/-- The gateway's reply, to a router that has just started. -/
theorem gatewayReply_follows_no_null :
    Avoids Fault.null
      (srHandlepacket gatewayRouter (srInit gatewayRouter) gatewayReply [0x65] 100) := by
  have hexist : ∀ rt ∈ gatewayRouter.routingTable,
      (getInterface gatewayRouter rt.interface).isSome := by decide
  have hknown : ∀ e' ∈ ([] : List Event) ++
      [{ packet := gatewayReply, interface := [0x65], now := 100 }],
      (getInterface gatewayRouter e'.interface).isSome := by decide
  refine (null_avoided_iff (e := { packet := gatewayReply, interface := [0x65], now := 100 })
    (run_nil _ _) (by decide) hknown hexist).mpr ?_
  intro queue flushed _
  refine ⟨Or.inr (by rfl), fun incoming hacc => ?_⟩
  have hip := hacc.spec.1
  exact absurd hip (by decide)

/-- An IPv6 frame: `create_frame_t` returns NULL, and the router follows it. -/
def ipv6Frame : Bytes :=
  [2, 0, 0, 0, 0, 1, 2, 0, 0, 0, 0, 9, 0x86, 0xdd] ++ List.replicate 40 0

theorem ipv6Frame_follows_null :
    etherHdrLen ≤ ipv6Frame.length ∧
    (∀ rt ∈ gatewayRouter.routingTable, (getInterface gatewayRouter rt.interface).isSome) ∧
    (getInterface gatewayRouter [0x65]).isSome ∧
    ¬ Avoids Fault.null
      (srHandlepacket gatewayRouter (srInit gatewayRouter) ipv6Frame [0x65] 100) := by
  refine ⟨by decide, by decide, by decide, ?_⟩
  intro h
  exact h (by rfl)

end UchiNetworks.Router
