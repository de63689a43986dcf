import UchiNetworks.Router.Outcome
import Mathlib.Data.List.Nodup
import Mathlib.Data.List.Perm.Basic

/-!
# What holds between two calls of `sr_handlepacket`

`Inv` relates the two lists to the calls so far (`hist`): every waiting packet
is one that came in and was rewritten by `update_ip_hdr`, each waits or was sent
once and not twice, an entry holds its packets in the order of arrival, and the
cache holds what each sender said last. `inv_run` is the invariant rule applied
to it: it holds after every run.
-/

namespace UchiNetworks.Router

open UchiNetworks.Lib

/-- The call `a` is one of the history. -/
def Arrived (hist : List Event) (a : Arrival) : Prop :=
  hist[a.number]? = some { packet := a.packet, interface := a.interface, now := a.now }

/-- The hardware address the host `ip` announced last. -/
def heard (hist : List Event) (ip : UInt32) : Option Mac :=
  hist.foldl
    (fun mac e =>
      match arpInfo e.packet with
      | some info => if info.sip = ip then some info.sha else mac
      | none => mac)
    none

/-- `p` waits for destination `ip`, which is behind the next hop `hop`. -/
structure Waits (sr : SrInstance) (hist : List Event) (ip hop : UInt32) (p : QueuedPacket) :
    Prop where
  arrived : Arrived hist p.arrival
  accepted : ∃ incoming, Accepted sr p.arrival incoming ∧
    updateIpHdr sr incoming = .ok (p.outgoing, hop) ∧ p.fromIface = incoming.iface
  toIp : p.outgoing.toIp = ip

/-- The pointers that are followed for a packet that waits. -/
structure Complete (sr : SrInstance) (p : QueuedPacket) : Prop where
  ipHeader : p.outgoing.ipHeader.isSome
  iface : p.outgoing.iface.isSome
  route : (rtMatch sr p.outgoing.toIp).isSome
  fromIface : p.fromIface.isSome

abbrev Core := UInt32 × UInt32 × List QueuedPacket

/-- The arrivals among what has been sent. -/
def forwardedBy (wire : List Sent) : List Arrival := wire.filterMap Sent.forwards

/-- The arrivals that wait. -/
def waitingIn (cores : List Core) : List Arrival :=
  cores.flatMap fun c => c.2.2.map QueuedPacket.arrival

def RouterState.cores (st : RouterState) : List Core := st.queue.map ArpqEntry.core

structure QueueInv (sr : SrInstance) (hist : List Event) (cores : List Core) : Prop where
  waits : ∀ c ∈ cores, ∀ p ∈ c.2.2, Waits sr hist c.1 c.2.1 p
  order : ∀ c ∈ cores, (c.2.2.map fun p => p.arrival.number).Pairwise (· < ·)
  filled : cores.Pairwise fun _ c => c.2.2 ≠ []

structure CacheInv (hist : List Event) (cache : List ArpcEntry) : Prop where
  distinct : (cache.map ArpcEntry.arpcIp).Nodup
  cached : ∀ c ∈ cache, heard hist c.arpcIp = some c.arpcMac ∨
    c.arpcIp = 0 ∧ heard hist 0 = none ∧ c.arpcMac = broadcast
  placeholder : heard hist 0 = none → ∃ c ∈ cache, c.arpcIp = 0 ∧ c.arpcTimeout = 0

structure WireInv (hist : List Event) (wire : List Sent) (cores : List Core) : Prop where
  sent : ∀ a ∈ forwardedBy wire, Arrived hist a
  once : (forwardedBy wire ++ waitingIn cores).Nodup

structure Inv (sr : SrInstance) (hist : List Event) (st : RouterState) : Prop where
  calls : st.calls = hist.length
  queue : QueueInv sr hist st.cores
  cache : CacheInv hist st.cache
  wire : WireInv hist st.wire st.cores

/-! ## The history grows -/

theorem Arrived.append {hist : List Event} {a : Arrival} (h : Arrived hist a) (e : Event) :
    Arrived (hist ++ [e]) a := by
  have hlt : a.number < hist.length := (List.getElem?_eq_some_iff.mp h).1
  simp only [Arrived] at h ⊢
  rw [List.getElem?_append_left hlt, h]

theorem arrived_last (hist : List Event) (e : Event) :
    Arrived (hist ++ [e]) (e.arrival hist.length) := by
  simp [Arrived, Event.arrival]

/-- A call of the history is not the next one. -/
theorem Arrived.ne_next {hist : List Event} {a : Arrival} (h : Arrived hist a) (e : Event) :
    a ≠ e.arrival hist.length := by
  intro heq
  have hlt : a.number < hist.length := (List.getElem?_eq_some_iff.mp h).1
  rw [heq] at hlt
  exact absurd hlt (Nat.lt_irrefl _)

theorem Waits.append {sr : SrInstance} {hist : List Event} {ip hop : UInt32} {p : QueuedPacket}
    (h : Waits sr hist ip hop p) (e : Event) : Waits sr (hist ++ [e]) ip hop p :=
  { arrived := h.arrived.append e, accepted := h.accepted, toIp := h.toIp }

theorem QueueInv.append {sr : SrInstance} {hist : List Event} {cores : List Core}
    (h : QueueInv sr hist cores) (e : Event) : QueueInv sr (hist ++ [e]) cores :=
  { waits := fun c hc p hp => (h.waits c hc p hp).append e, order := h.order, filled := h.filled }

theorem heard_append (hist : List Event) (e : Event) (ip : UInt32) :
    heard (hist ++ [e]) ip =
      match arpInfo e.packet with
      | some info => if info.sip = ip then some info.sha else heard hist ip
      | none => heard hist ip := by
  simp only [heard, List.foldl_append, List.foldl_cons, List.foldl_nil]

theorem heard_append_other {hist : List Event} {e : Event} (h : arpInfo e.packet = none)
    (ip : UInt32) : heard (hist ++ [e]) ip = heard hist ip := by
  rw [heard_append, h]

theorem heard_append_arp {hist : List Event} {e : Event} {info : ArpInfo}
    (h : arpInfo e.packet = some info) (ip : UInt32) :
    heard (hist ++ [e]) ip = if info.sip = ip then some info.sha else heard hist ip := by
  rw [heard_append, h]

theorem CacheInv.append {hist : List Event} {cache : List ArpcEntry} (h : CacheInv hist cache)
    {e : Event} (hnone : arpInfo e.packet = none) : CacheInv (hist ++ [e]) cache := by
  constructor
  · exact h.distinct
  · intro c hc
    rw [heard_append_other hnone, heard_append_other hnone]
    exact h.cached c hc
  · rw [heard_append_other hnone]
    exact h.placeholder

/-! ## The queue -/

theorem QueueInv.sublist {sr : SrInstance} {hist : List Event} {cores cores' : List Core}
    (h : QueueInv sr hist cores) (hsub : cores'.Sublist cores) : QueueInv sr hist cores' :=
  { waits := fun c hc => h.waits c (hsub.subset hc)
    order := fun c hc => h.order c (hsub.subset hc)
    filled := h.filled.sublist hsub }

theorem waitingIn_sublist {cores cores' : List Core} (h : cores'.Sublist cores) :
    (waitingIn cores').Sublist (waitingIn cores) := by
  induction h with
  | slnil => exact List.Sublist.refl _
  | cons c _ ih => exact ih.trans (List.sublist_append_right _ _)
  | cons_cons c _ ih => exact (List.Sublist.refl _).append ih

/-- Joining the queue, seen through the cores. -/
theorem Enqueued.cores {now : Nat} {ip hop : UInt32} {p : QueuedPacket}
    {queue queue' : List ArpqEntry} (h : Enqueued now ip hop p queue queue') :
    (∃ before after hop' packets, packets ≠ [] ∧
      queue.map ArpqEntry.core = before ++ (ip, hop', packets) :: after ∧
      queue'.map ArpqEntry.core = before ++ (ip, hop', packets ++ [p]) :: after) ∨
    queue'.map ArpqEntry.core = queue.map ArpqEntry.core ++ [(ip, hop, [p])] := by
  cases h with
  | joined before after e lastReq numReqs hip hsome htouch =>
    refine Or.inl ⟨before.map ArpqEntry.core, after.map ArpqEntry.core, e.arpqNextHop,
      e.arpqPackets, hsome, ?_, ?_⟩
    · simp [ArpqEntry.core, hip]
    · simp [ArpqEntry.core, hip]
  | opened _ hnew => exact Or.inr (by simp [ArpqEntry.core])

/-- The entry for a destination already has the destination's next hop. -/
theorem QueueInv.hop {sr : SrInstance} {hist : List Event} {cores : List Core}
    (h : QueueInv sr hist cores) {ip hop hop' : UInt32} {packets : List QueuedPacket}
    (hmem : (ip, hop', packets) ∈ cores) (hsome : packets ≠ []) {incoming outgoing : FrameT}
    (hacc : ∃ a, Accepted sr a incoming)
    (hupd : updateIpHdr sr incoming = .ok (outgoing, hop)) (hip : outgoing.toIp = ip) :
    hop' = hop := by
  obtain ⟨p, rest, rfl⟩ := List.exists_cons_of_ne_nil hsome
  have hw := h.waits _ hmem p List.mem_cons_self
  obtain ⟨inc, hacc', hupd', -⟩ := hw.accepted
  obtain ⟨a, hacc⟩ := hacc
  obtain ⟨-, -, -, -, -, hv, -⟩ := hacc.spec
  obtain ⟨-, -, -, -, -, hv', -⟩ := hacc'.spec
  obtain ⟨hout, -⟩ := updateIpHdr_spec hupd hv
  obtain ⟨hout', -⟩ := updateIpHdr_spec hupd' hv'
  obtain ⟨rt, iface, hrt, hgw, -⟩ := hout.route
  obtain ⟨rt', iface', hrt', hgw', -⟩ := hout'.route
  rw [← hout.toIp, hip] at hrt
  rw [← hout'.toIp, hw.toIp, hrt] at hrt'
  obtain rfl := Option.some.inj hrt'
  exact hgw'.symm.trans hgw

theorem QueueInv.enqueue {sr : SrInstance} {hist : List Event} {queue queue' : List ArpqEntry}
    (h : QueueInv sr hist (queue.map ArpqEntry.core)) {e : Event} {hop : UInt32}
    {incoming outgoing : FrameT} {p : QueuedPacket}
    (henq : Enqueued e.now outgoing.toIp hop p queue queue')
    (hp : p.arrival = e.arrival hist.length) (hout : p.outgoing = outgoing)
    (hiface : p.fromIface = incoming.iface) (hacc : Accepted sr p.arrival incoming)
    (hupd : updateIpHdr sr incoming = .ok (outgoing, hop)) :
    QueueInv sr (hist ++ [e]) (queue'.map ArpqEntry.core) := by
  have hnew : Waits sr (hist ++ [e]) outgoing.toIp hop p :=
    { arrived := by rw [hp]; exact arrived_last hist e
      accepted := ⟨incoming, hacc, by rw [hout]; exact hupd, hiface⟩
      toIp := by rw [hout] }
  have hlast : ∀ c ∈ queue.map ArpqEntry.core, ∀ q ∈ c.2.2, q.arrival.number < p.arrival.number := by
    intro c hc q hq
    have := (List.getElem?_eq_some_iff.mp (h.waits c hc q hq).arrived).1
    rw [hp]
    exact this
  -- the packet goes to the end of a list, or begins a new one
  rcases henq.cores with ⟨before, after, hop', packets, hsome, hold, hnew'⟩ | hnew'
  · rw [hold] at h hlast
    have hmem : (outgoing.toIp, hop', packets) ∈ before ++ (outgoing.toIp, hop', packets) :: after :=
      List.mem_append_right _ List.mem_cons_self
    -- one destination has one next hop
    obtain rfl := h.hop hmem hsome ⟨_, hacc⟩ hupd rfl
    rw [hnew']
    constructor
    · intro c hc q hq
      rcases List.mem_append.mp hc with hc | hc
      · exact (h.waits c (List.mem_append_left _ hc) q hq).append e
      · rcases List.mem_cons.mp hc with rfl | hc
        · rcases List.mem_append.mp hq with hq | hq
          · exact (h.waits _ hmem q hq).append e
          · obtain rfl := List.mem_singleton.mp hq
            exact hnew
        · exact (h.waits c (List.mem_append_right _ (List.mem_cons_of_mem _ hc)) q hq).append e
    · intro c hc
      rcases List.mem_append.mp hc with hc | hc
      · exact h.order c (List.mem_append_left _ hc)
      · rcases List.mem_cons.mp hc with rfl | hc
        · rw [List.map_append, List.pairwise_append]
          refine ⟨h.order _ hmem, List.pairwise_singleton _ _, ?_⟩
          intro x hx y hy
          obtain ⟨q, hq, rfl⟩ := List.mem_map.mp hx
          obtain rfl := List.mem_singleton.mp hy
          exact hlast _ hmem q hq
        · exact h.order c (List.mem_append_right _ (List.mem_cons_of_mem _ hc))
    · have hf := h.filled
      rw [List.pairwise_append, List.pairwise_cons] at hf ⊢
      obtain ⟨hb, ⟨hafter, haa⟩, hcross⟩ := hf
      refine ⟨hb, ⟨hafter, haa⟩, ?_⟩
      intro c hc c' hc'
      rcases List.mem_cons.mp hc' with rfl | hc'
      · simp
      · exact hcross c hc c' (List.mem_cons_of_mem _ hc')
  · rw [hnew']
    constructor
    · intro c hc q hq
      rcases List.mem_append.mp hc with hc | hc
      · exact (h.waits c hc q hq).append e
      · obtain rfl := List.mem_singleton.mp hc
        obtain rfl := List.mem_singleton.mp hq
        exact hnew
    · intro c hc
      rcases List.mem_append.mp hc with hc | hc
      · exact h.order c hc
      · obtain rfl := List.mem_singleton.mp hc
        exact List.pairwise_singleton _ _
    · rw [List.pairwise_append]
      refine ⟨h.filled, List.pairwise_singleton _ _, ?_⟩
      intro c _ c' hc'
      obtain rfl := List.mem_singleton.mp hc'
      simp

theorem waitingIn_enqueue {now : Nat} {ip hop : UInt32} {p : QueuedPacket}
    {queue queue' : List ArpqEntry} (h : Enqueued now ip hop p queue queue') :
    (waitingIn (queue'.map ArpqEntry.core)).Perm
      (p.arrival :: waitingIn (queue.map ArpqEntry.core)) := by
  rcases h.cores with ⟨before, after, hop', packets, -, hold, hnew⟩ | hnew
  · rw [hold, hnew]
    simp only [waitingIn, List.flatMap_append, List.flatMap_cons, List.map_append, List.map_cons,
      List.map_nil]
    have : ∀ (w x y : List Arrival) (a : Arrival),
        (w ++ ((x ++ [a]) ++ y)).Perm (a :: (w ++ (x ++ y))) := by
      intro w x y a
      have := @List.perm_middle _ a (w ++ x) y
      simpa using this
    exact this _ _ _ _
  · rw [hnew]
    simp only [waitingIn, List.flatMap_append, List.flatMap_cons, List.flatMap_nil, List.map_cons,
      List.map_nil, List.append_nil]
    exact List.perm_append_singleton _ _

/-- What waits is what is released and what goes on waiting. -/
theorem waitingIn_erase (queue : List ArpqEntry) (hop : UInt32) :
    (waitingIn (queue.map ArpqEntry.core)).Perm
      (((arpqNextHopLookup queue hop).elim [] ArpqEntry.arpqPackets).map QueuedPacket.arrival ++
        waitingIn ((queue.eraseP fun e => e.arpqNextHop == hop).map ArpqEntry.core)) := by
  induction queue with
  | nil => simp [waitingIn, arpqNextHopLookup]
  | cons e rest ih =>
    simp only [arpqNextHopLookup] at ih ⊢
    by_cases he : e.arpqNextHop = hop
    · rw [List.find?_cons_of_pos (by simpa using he), List.eraseP_cons_of_pos (by simpa using he)]
      simp [waitingIn, ArpqEntry.core]
    · rw [List.find?_cons_of_neg (by simpa using he), List.eraseP_cons_of_neg (by simpa using he)]
      simp only [waitingIn, List.map_cons, List.flatMap_cons] at ih ⊢
      refine (List.Perm.append_left _ ih).trans ?_
      rw [← List.append_assoc, ← List.append_assoc]
      exact List.Perm.append_right _ List.perm_append_comm

/-! ## The cache -/

theorem arpCacheFlush_sublist (now : Nat) (cache : List ArpcEntry) :
    (arpCacheFlush now cache).Sublist cache := List.filter_sublist

theorem CacheInv.flush {hist : List Event} {cache : List ArpcEntry} (h : CacheInv hist cache)
    (now : Nat) : CacheInv hist (arpCacheFlush now cache) := by
  constructor
  · exact h.distinct.sublist ((arpCacheFlush_sublist now cache).map _)
  · intro c hc
    exact h.cached c ((arpCacheFlush_sublist now cache).subset hc)
  · intro hnone
    obtain ⟨c, hc, hip, ht⟩ := h.placeholder hnone
    exact ⟨c, List.mem_filter.mpr ⟨hc, by simp [ht]⟩, hip, ht⟩

theorem replaceFirst_map_ip {cache : List ArpcEntry} {test : ArpcEntry → Bool}
    {f : ArpcEntry → ArpcEntry} (hf : ∀ c, (f c).arpcIp = c.arpcIp) :
    (replaceFirst test f cache).map ArpcEntry.arpcIp = cache.map ArpcEntry.arpcIp := by
  induction cache with
  | nil => rfl
  | cons c rest ih =>
    simp only [replaceFirst]
    split
    · simp [hf]
    · simp [ih]

theorem CacheInv.update {hist : List Event} {cache : List ArpcEntry} (h : CacheInv hist cache)
    {e : Event} {info : ArpInfo} (hinfo : arpInfo e.packet = some info) {entry : ArpcEntry}
    (hhit : arpCacheLookup cache info.sip = some entry) :
    CacheInv (hist ++ [e]) (arpCacheUpdate cache info.sip info.sha e.now) := by
  obtain ⟨before, after, hsplit, hrep⟩ := replaceFirst_split hhit
    (f := fun c => { c with arpcMac := info.sha, arpcTimeout := e.now + arpCacheTimeout })
  have hip : entry.arpcIp = info.sip := by simpa using List.find?_some hhit
  have hheard : ∀ ip, heard (hist ++ [e]) ip =
      if info.sip = ip then some info.sha else heard hist ip := heard_append_arp hinfo
  have hdistinct := h.distinct
  rw [hsplit, List.map_append, List.map_cons, List.nodup_append, List.nodup_cons] at hdistinct
  obtain ⟨-, ⟨hafter, -⟩, hcross⟩ := hdistinct
  -- the other entries are other hosts'
  have hother : ∀ c ∈ before ++ after, info.sip ≠ c.arpcIp := by
    intro c hc heq
    rcases List.mem_append.mp hc with hc | hc
    · exact hcross _ (List.mem_map_of_mem hc) _ List.mem_cons_self (by rw [hip, heq])
    · rw [hip, heq] at hafter
      exact hafter (List.mem_map_of_mem hc)
  constructor
  · have hips := @replaceFirst_map_ip cache (fun c => c.arpcIp == info.sip)
      (fun c => { c with arpcMac := info.sha, arpcTimeout := e.now + arpCacheTimeout })
      (fun _ => rfl)
    rw [arpCacheUpdate, hips]
    exact h.distinct
  · intro c hc
    have hkeep : c ∈ before ++ after → heard (hist ++ [e]) c.arpcIp = some c.arpcMac ∨
        c.arpcIp = 0 ∧ heard (hist ++ [e]) 0 = none ∧ c.arpcMac = broadcast := by
      intro hmem
      have hne := hother c hmem
      have hc : c ∈ cache := by
        rw [hsplit]
        rcases List.mem_append.mp hmem with hm | hm
        · exact List.mem_append_left _ hm
        · exact List.mem_append_right _ (List.mem_cons_of_mem _ hm)
      rw [hheard, hheard, if_neg hne]
      rcases h.cached c hc with hcached | ⟨hzero, hnone, hmac⟩
      · exact Or.inl hcached
      · rw [hzero] at hne
        exact Or.inr ⟨hzero, by rw [if_neg hne]; exact hnone, hmac⟩
    rw [arpCacheUpdate, hrep] at hc
    rcases List.mem_append.mp hc with hc | hc
    · exact hkeep (List.mem_append_left _ hc)
    · rcases List.mem_cons.mp hc with rfl | hc
      · left
        rw [hheard, if_pos hip.symm]
      · exact hkeep (List.mem_append_right _ hc)
  · intro hnone
    rw [hheard] at hnone
    split at hnone
    · cases hnone
    next hne =>
      obtain ⟨c, hc, hzero, ht⟩ := h.placeholder hnone
      refine ⟨c, ?_, hzero, ht⟩
      rw [arpCacheUpdate, hrep]
      rw [hsplit] at hc
      rcases List.mem_append.mp hc with hc | hc
      · exact List.mem_append_left _ hc
      · rcases List.mem_cons.mp hc with rfl | hc
        · exact absurd (hip.symm.trans hzero) hne
        · exact List.mem_append_right _ (List.mem_cons_of_mem _ hc)

/-- A sender that is not in the cache changes nothing about those that are. -/
theorem CacheInv.miss {hist : List Event} {cache : List ArpcEntry} (h : CacheInv hist cache)
    {e : Event} {info : ArpInfo} (hinfo : arpInfo e.packet = some info)
    (hmiss : arpCacheLookup cache info.sip = none) : CacheInv (hist ++ [e]) cache := by
  have hne : ∀ c ∈ cache, info.sip ≠ c.arpcIp := by
    intro c hc heq
    have := List.find?_eq_none.mp hmiss c hc
    simp [heq] at this
  have hheard : ∀ ip, info.sip ≠ ip → heard (hist ++ [e]) ip = heard hist ip := by
    intro ip hip
    rw [heard_append_arp hinfo, if_neg hip]
  constructor
  · exact h.distinct
  · intro c hc
    rw [hheard _ (hne c hc)]
    rcases h.cached c hc with hcached | ⟨hzero, hnone, hmac⟩
    · exact Or.inl hcached
    · have := hne c hc
      rw [hzero] at this
      exact Or.inr ⟨hzero, by rw [hheard _ this]; exact hnone, hmac⟩
  · intro hnone
    by_cases hzero : info.sip = 0
    · rw [heard_append_arp hinfo, if_pos hzero] at hnone
      cases hnone
    · rw [hheard _ hzero] at hnone
      exact h.placeholder hnone

theorem CacheInv.add {hist : List Event} {cache : List ArpcEntry} (h : CacheInv hist cache)
    {e : Event} {info : ArpInfo} (hinfo : arpInfo e.packet = some info)
    (hmiss : arpCacheLookup cache info.sip = none) (now : Nat) :
    CacheInv (hist ++ [e]) (arpCacheAdd cache info.sha info.sip now) := by
  have hold := h.miss hinfo hmiss
  constructor
  · rw [arpCacheAdd, List.map_append, List.nodup_append]
    refine ⟨hold.distinct, List.nodup_singleton _, ?_⟩
    intro ip hip ip' hip' heq
    obtain ⟨c, hc, rfl⟩ := List.mem_map.mp hip
    obtain rfl := List.mem_singleton.mp hip'
    have := List.find?_eq_none.mp hmiss c hc
    simp [heq] at this
  · intro c hc
    rcases List.mem_append.mp hc with hc | hc
    · exact hold.cached c hc
    · obtain rfl := List.mem_singleton.mp hc
      left
      rw [heard_append_arp hinfo, if_pos rfl]
  · intro hnone
    obtain ⟨c, hc, hzero, ht⟩ := hold.placeholder hnone
    exact ⟨c, List.mem_append_left _ hc, hzero, ht⟩

/-! ## The wire -/

theorem forwardedBy_append (w w' : List Sent) :
    forwardedBy (w ++ w') = forwardedBy w ++ forwardedBy w' := List.filterMap_append

theorem forwardedBy_own {extra : List Sent} (h : ∀ s ∈ extra, s.forwards = none) :
    forwardedBy extra = [] := by
  rw [forwardedBy, List.filterMap_eq_nil_iff]
  exact h

theorem forwardedBy_released {dHa : Mac} {packets : List QueuedPacket} {sent : List Sent}
    (h : List.Forall₂ (Released dHa) packets sent) :
    forwardedBy sent = packets.map QueuedPacket.arrival := by
  induction h with
  | nil => rfl
  | cons hhead _ ih =>
    rw [forwardedBy, List.filterMap_cons, hhead.forwards, List.map_cons]
    exact congrArg _ ih

/-! ## A call, and a run -/

theorem inv_init (sr : SrInstance) : Inv sr [] (srInit sr) := by
  refine ⟨rfl, ⟨?_, ?_, ?_⟩, ⟨?_, ?_, ?_⟩, ⟨?_, ?_⟩⟩
  · simp [srInit, RouterState.cores, ArpqEntry.core]
  · simp [srInit, RouterState.cores, ArpqEntry.core]
  · simp [srInit, RouterState.cores]
  · simp [srInit]
  · intro c hc
    simp only [srInit, List.mem_singleton] at hc
    subst hc
    exact Or.inr ⟨rfl, rfl, rfl⟩
  · intro _
    exact ⟨_, List.mem_singleton_self _, rfl, rfl⟩
  · simp [srInit, forwardedBy]
  · simp [srInit, forwardedBy, waitingIn, RouterState.cores, ArpqEntry.core]

/-- What the flushes do to the invariant. -/
theorem Inv.flush {sr : SrInstance} {hist : List Event} {st : RouterState} (h : Inv sr hist st)
    {now : Nat} {queue : List ArpqEntry} {flushed : List Sent}
    (hflush : FlushedAll now st.queue queue flushed) :
    QueueInv sr hist (queue.map ArpqEntry.core) ∧
      CacheInv hist (arpCacheFlush now st.cache) ∧
      WireInv hist (st.wire ++ flushed) (queue.map ArpqEntry.core) := by
  refine ⟨h.queue.sublist hflush.sublist, h.cache.flush now, ?_, ?_⟩
  · rw [forwardedBy_append, forwardedBy_own hflush.forwards, List.append_nil]
    exact h.wire.sent
  · rw [forwardedBy_append, forwardedBy_own hflush.forwards, List.append_nil]
    exact h.wire.once.sublist ((List.Sublist.refl _).append (waitingIn_sublist hflush.sublist))

theorem WireInv.append {hist : List Event} {wire : List Sent} {cores : List Core}
    (h : WireInv hist wire cores) (e : Event) {extra : List Sent}
    (hextra : ∀ s ∈ extra, s.forwards = none) : WireInv (hist ++ [e]) (wire ++ extra) cores := by
  constructor
  · intro a ha
    rw [forwardedBy_append, forwardedBy_own hextra, List.append_nil] at ha
    exact (h.sent a ha).append e
  · rw [forwardedBy_append, forwardedBy_own hextra, List.append_nil]
    exact h.once

/-- The call that is being handled is neither on the wire nor waiting. -/
theorem fresh_arrival {sr : SrInstance} {hist : List Event} {wire : List Sent}
    {cores : List Core} (hw : WireInv hist wire cores) (hq : QueueInv sr hist cores) (e : Event) :
    e.arrival hist.length ∉ forwardedBy wire ++ waitingIn cores := by
  intro hmem
  rcases List.mem_append.mp hmem with hmem | hmem
  · exact (hw.sent _ hmem).ne_next e rfl
  · obtain ⟨c, hc, hmem⟩ := List.mem_flatMap.mp hmem
    obtain ⟨p, hp, heq⟩ := List.mem_map.mp hmem
    exact (hq.waits c hc p hp).arrived.ne_next e heq

theorem inv_step {sr : SrInstance} {hist : List Event} {st st' : RouterState} {e : Event}
    (h : Inv sr hist st) (hstep : srHandlepacket sr st e.packet e.interface e.now = .ok st') :
    Inv sr (hist ++ [e]) st' := by
  have hcalls : hist.length + 1 = (hist ++ [e]).length := by simp
  rcases handlepacket_cases hstep with ⟨hshort, rfl⟩ | ⟨-, queue, flushed, hflush, hout⟩
  · refine ⟨by rw [← hcalls, ← h.calls], h.queue.append e,
      h.cache.append (arpInfo_of_short hshort), ?_⟩
    have := @WireInv.append _ _ _ h.wire e [] (by simp)
    rwa [List.append_nil] at this
  · obtain ⟨hq, hc, hw⟩ := h.flush (arpQueueFlush_spec hflush)
    rw [h.calls] at hout
    cases hout with
    | answered extra hip hnot hextra =>
      exact ⟨hcalls, hq.append e, hc.append (arpInfo_of_ip hip), hw.append e hextra⟩
    | direct incoming outgoing sent hop incache iface hacc hupd hhit henc hiface =>
      have hfresh := fresh_arrival hw hq e
      refine ⟨hcalls, hq.append e, hc.append (arpInfo_of_ip hacc.spec.1), ?_, ?_⟩
      · intro a ha
        rw [forwardedBy_append] at ha
        rcases List.mem_append.mp ha with ha | ha
        · exact (hw.sent a ha).append e
        · obtain rfl : a = e.arrival hist.length := by simpa [forwardedBy] using ha
          exact arrived_last hist e
      · -- it is new on the wire and waits nowhere
        have hperm : (forwardedBy (st.wire ++ flushed ++
              [{ frame := sent.frame, iface := iface, forwards := some (e.arrival hist.length) }])
              ++ waitingIn (queue.map ArpqEntry.core)).Perm
            (e.arrival hist.length ::
              (forwardedBy (st.wire ++ flushed) ++ waitingIn (queue.map ArpqEntry.core))) := by
          rw [forwardedBy_append (st.wire ++ flushed)]
          have := @List.perm_middle _ (e.arrival hist.length) (forwardedBy (st.wire ++ flushed))
            (waitingIn (queue.map ArpqEntry.core))
          simpa [forwardedBy] using this
        exact hperm.nodup_iff.mpr (List.nodup_cons.mpr ⟨hfresh, hw.once⟩)
    | queued incoming outgoing hop queue' request hacc hupd hmiss hreq henq =>
      have hfresh := fresh_arrival hw hq e
      refine ⟨hcalls, hq.enqueue henq rfl rfl rfl hacc hupd,
        hc.append (arpInfo_of_ip hacc.spec.1), ?_, ?_⟩
      · have := (@WireInv.append _ _ _ hw e [request] (by simpa using hreq)).sent
        exact this
      · rw [forwardedBy_append (st.wire ++ flushed), @forwardedBy_own [request]
          (by simpa using hreq), List.append_nil]
        have hperm := (List.Perm.append_left (forwardedBy (st.wire ++ flushed))
          (waitingIn_enqueue henq)).trans List.perm_middle
        exact hperm.nodup_iff.mpr (List.nodup_cons.mpr ⟨hfresh, hw.once⟩)
    | refreshed info entry extra hinfo hhit hextra =>
      exact ⟨hcalls, hq.append e, hc.update hinfo hhit, hw.append e hextra⟩
    | overheard info hinfo hmiss htarget =>
      refine ⟨hcalls, hq.append e, hc.miss hinfo hmiss, ?_⟩
      have := @WireInv.append _ _ _ hw e [] (by simp)
      rwa [List.append_nil] at this
    | learned info target sent extra hinfo hmiss htarget hsent hextra =>
      -- the list moves from the queue to the wire
      have herase : ((queue.eraseP fun x => x.arpqNextHop == info.sip).map
          ArpqEntry.core).Sublist (queue.map ArpqEntry.core) := (List.eraseP_sublist).map _
      have hfor := forwardedBy_released hsent
      have hperm := waitingIn_erase queue info.sip
      refine ⟨hcalls, (hq.sublist herase).append e, hc.add hinfo hmiss e.now, ?_, ?_⟩
      · intro a ha
        rw [forwardedBy_append, forwardedBy_append, forwardedBy_own hextra, List.append_nil,
          hfor] at ha
        rcases List.mem_append.mp ha with ha | ha
        · exact (hw.sent a ha).append e
        · have hmem := hperm.mem_iff.mpr (List.mem_append_left _ ha)
          obtain ⟨c, hcore, hmem⟩ := List.mem_flatMap.mp hmem
          obtain ⟨p, hp, rfl⟩ := List.mem_map.mp hmem
          exact (hq.waits c hcore p hp).arrived.append e
      · rw [forwardedBy_append (st.wire ++ flushed ++ sent), forwardedBy_own hextra,
          List.append_nil, forwardedBy_append (st.wire ++ flushed), hfor, List.append_assoc]
        exact (List.Perm.append_left _ hperm).nodup_iff.mp hw.once

/-- A step of a run that is still up came from a state that was. -/
theorem step_eq_some {sr : SrInstance} {st : Option RouterState} {e : Event} {st' : RouterState}
    (h : step sr st e = some st') :
    ∃ mid, st = some mid ∧ srHandlepacket sr mid e.packet e.interface e.now = .ok st' := by
  cases st with
  | none => cases h
  | some mid =>
    refine ⟨mid, rfl, ?_⟩
    simp only [step, Option.bind_some] at h
    cases hres : srHandlepacket sr mid e.packet e.interface e.now with
    | error f => rw [hres] at h; cases h
    | ok s => rw [hres] at h; exact congrArg _ (Option.some.inj h)

/-- **The invariant holds after every run.** -/
theorem inv_run {sr : SrInstance} {evs : List Event} {st : RouterState}
    (h : run (step sr) (some (srInit sr)) evs = some st) : Inv sr evs st := by
  have hinv : ∀ st, run (step sr) (some (srInit sr)) evs = some st → Inv sr evs st := by
    apply @run_history _ _ _ (fun _ _ => True)
      (fun hist (s : Option RouterState) => ∀ st, s = some st → Inv sr hist st)
    · intro hist s e _ hs st hst
      obtain ⟨mid, hmid, hstep⟩ := step_eq_some hst
      exact inv_step (hs mid hmid) hstep
    · exact along_of_forall (fun _ _ => trivial) _ _
    · intro st hst
      obtain rfl := Option.some.inj hst
      exact inv_init sr
  exact hinv st h

/-! ## A small network, for the concrete runs -/

/-- A router with one interface, `10.0.0.1`, and the gateway `10.0.0.7`. -/
def gatewayRouter : SrInstance :=
  { ifList := [{ name := [0x65], addr := ⟨[2, 0, 0, 0, 0, 1], rfl⟩, ip := 0x0100000a }]
    routingTable := [{ dest := 0, gw := 0x0700000a, mask := 0, interface := [0x65] }]
    heap := fun _ => 0
    junkHop := 0 }

/-- A UDP datagram from `10.0.1.9` to `10.0.2.host`, with its checksum. -/
def datagramTo (host sum : UInt8) : Bytes :=
  [2, 0, 0, 0, 0, 1, 2, 0, 0, 0, 0, 9, 8, 0, 69, 0, 0, 28, 0, 0, 0, 0, 64, 17, 99, sum,
    10, 0, 1, 9, 10, 0, 2, host, 1, 2, 3, 4, 5, 6, 7, 8]

/-- The ARP reply of `10.0.0.7` to the router. -/
def gatewayReply : Bytes :=
  [2, 0, 0, 0, 0, 1, 2, 0, 0, 0, 0, 7, 8, 6, 0, 1, 8, 0, 6, 4, 0, 2, 2, 0, 0, 0, 0, 7,
    10, 0, 0, 7, 2, 0, 0, 0, 0, 1, 10, 0, 0, 1]

end UchiNetworks.Router
