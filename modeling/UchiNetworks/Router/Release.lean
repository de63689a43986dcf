import UchiNetworks.Router.Invariant

/-!
# Does an ARP reply release everybody who waits for it?

Entries of the queue are made per destination and released per next hop, and
`arpq_next_hop_lookup` finds one entry. So a reply releases everybody exactly
when no second entry waits for the same next hop (`releasesAll_iff`): with two
destinations behind one gateway the second entry stays, and since its next hop
is in the cache from then on, no later reply looks for it.
-/

namespace UchiNetworks.Router

open UchiNetworks.Lib

/-- The packet of `e` is an ARP packet from `h` to one of our addresses. -/
def ArpForUs (sr : SrInstance) (e : Event) (h : UInt32) : Prop :=
  ∃ info target, arpInfo e.packet = some info ∧ info.sip = h ∧
    ifDstCheck sr info.tip = .ok (some target)

/-- The packets that wait for the next hop `h`. -/
def waitingFor (queue : List ArpqEntry) (h : UInt32) : List QueuedPacket :=
  (queue.filter fun entry => entry.arpqNextHop == h).flatMap ArpqEntry.arpqPackets

/-- Nobody waits for a next hop that is in the cache. -/
def Separate (cache : List ArpcEntry) (cores : List Core) : Prop :=
  ∀ c ∈ cores, c.2.2 ≠ [] → ∀ known ∈ cache, known.arpcIp ≠ c.2.1

/-- A call that returns leaves nobody waiting for the sender of an ARP packet
for us, has sent what waited for it exactly once, and leaves nobody waiting for
a next hop in the cache. -/
def ReleasesAll (sr : SrInstance) (st : Option RouterState) (e : Event) : Prop :=
  ∀ s s', st = some s → step sr st e = some s' →
    Separate s'.cache s'.cores ∧
    ∀ h, ArpForUs sr e h →
      waitingFor s'.queue h = [] ∧
      ∀ queue sent, arpQueueFlush sr e.now s.queue = .ok (queue, sent) →
        ∀ p ∈ waitingFor queue h, (forwardedBy s'.wire).count p.arrival = 1

/-- When an ARP packet for us comes from a sender that is not in the cache, at
most one entry of the queue has the sender as its next hop. -/
def OneEntry (sr : SrInstance) (st : Option RouterState) (e : Event) : Prop :=
  ∀ s, st = some s → (step sr st e).isSome →
    ∀ h, ArpForUs sr e h → arpCacheLookup (arpCacheFlush e.now s.cache) h = none →
      ∀ queue sent, arpQueueFlush sr e.now s.queue = .ok (queue, sent) →
        (queue.filter fun entry => entry.arpqNextHop == h).length ≤ 1

theorem not_arpForUs_of_none {sr : SrInstance} {e : Event} {h : UInt32}
    (hnone : arpInfo e.packet = none) : ¬ ArpForUs sr e h := by
  intro harp
  obtain ⟨info, target, hinfo, -⟩ := harp
  rw [hnone] at hinfo
  cases hinfo

theorem not_arpForUs_of_ip {sr : SrInstance} {e : Event} {h : UInt32}
    (hip : readBe16 e.packet 12 = some etherTypeIP) : ¬ ArpForUs sr e h :=
  not_arpForUs_of_none (arpInfo_of_ip hip)

theorem mem_waitingFor {queue : List ArpqEntry} {h : UInt32} {p : QueuedPacket} :
    p ∈ waitingFor queue h ↔ ∃ entry ∈ queue, entry.arpqNextHop = h ∧ p ∈ entry.arpqPackets := by
  simp [waitingFor, and_assoc]

/-! ## One entry or two -/

theorem eraseP_of_one {queue : List ArpqEntry} {h : UInt32}
    (hone : (queue.filter fun entry => entry.arpqNextHop == h).length ≤ 1) :
    ∀ entry ∈ queue.eraseP fun entry => entry.arpqNextHop == h, entry.arpqNextHop ≠ h := by
  induction queue with
  | nil => simp
  | cons x rest ih =>
    by_cases hx : x.arpqNextHop = h
    · rw [List.eraseP_cons_of_pos (by simpa using hx)]
      rw [List.filter_cons_of_pos (by simpa using hx), List.length_cons] at hone
      intro entry hmem heq
      have : entry ∈ rest.filter fun entry => entry.arpqNextHop == h :=
        List.mem_filter.mpr ⟨hmem, by simpa using heq⟩
      have := List.length_pos_of_mem this
      omega
    · rw [List.eraseP_cons_of_neg (by simpa using hx)]
      rw [List.filter_cons_of_neg (by simpa using hx)] at hone
      intro entry hmem
      rcases List.mem_cons.mp hmem with rfl | hmem
      · exact hx
      · exact ih hone entry hmem

/-- Of two entries for one next hop the second stays, and it holds a packet. -/
theorem eraseP_of_two {queue : List ArpqEntry} {h : UInt32}
    (hfilled : (queue.map ArpqEntry.core).Pairwise fun _ c => c.2.2 ≠ [])
    (htwo : 1 < (queue.filter fun entry => entry.arpqNextHop == h).length) :
    waitingFor (queue.eraseP fun entry => entry.arpqNextHop == h) h ≠ [] := by
  induction queue with
  | nil => simp at htwo
  | cons x rest ih =>
    rw [List.map_cons, List.pairwise_cons] at hfilled
    by_cases hx : x.arpqNextHop = h
    · rw [List.eraseP_cons_of_pos (by simpa using hx)]
      rw [List.filter_cons_of_pos (by simpa using hx), List.length_cons] at htwo
      obtain ⟨y, hy⟩ := List.exists_mem_of_length_pos
        (show 0 < (rest.filter fun entry => entry.arpqNextHop == h).length by omega)
      obtain ⟨hmem, hhop⟩ := List.mem_filter.mp hy
      obtain ⟨p, hp⟩ := List.exists_mem_of_ne_nil _
        (hfilled.1 y.core (List.mem_map_of_mem hmem))
      apply List.ne_nil_of_mem (a := p)
      exact mem_waitingFor.mpr ⟨y, hmem, by simpa using hhop, hp⟩
    · rw [List.eraseP_cons_of_neg (by simpa using hx)]
      rw [List.filter_cons_of_neg (by simpa using hx)] at htwo
      obtain ⟨p, hp⟩ := List.exists_mem_of_ne_nil _ (ih hfilled.2 htwo)
      obtain ⟨y, hmem, hhop, hp⟩ := mem_waitingFor.mp hp
      apply List.ne_nil_of_mem (a := p)
      exact mem_waitingFor.mpr ⟨y, List.mem_cons_of_mem _ hmem, hhop, hp⟩

/-! ## The steps -/

theorem Separate.sublist {cache cache' : List ArpcEntry} {cores cores' : List Core}
    (h : Separate cache cores) (hcache : cache'.Sublist cache) (hcores : cores'.Sublist cores) :
    Separate cache' cores' := fun c hc hsome known hknown =>
  h c (hcores.subset hc) hsome known (hcache.subset hknown)

/-- Only the addresses in the cache matter. -/
theorem Separate.congr {cache cache' : List ArpcEntry} {cores : List Core}
    (h : Separate cache cores)
    (hips : cache'.map ArpcEntry.arpcIp = cache.map ArpcEntry.arpcIp) :
    Separate cache' cores := by
  intro c hc hsome known hknown heq
  have hmem : known.arpcIp ∈ cache.map ArpcEntry.arpcIp := by
    rw [← hips]
    exact List.mem_map_of_mem hknown
  obtain ⟨known', hknown', hsame⟩ := List.mem_map.mp hmem
  exact h c hc hsome known' hknown' (hsame.trans heq)

/-- A packet queued on a miss waits for nobody in the cache. -/
theorem Separate.enqueue {cache : List ArpcEntry}
    {queue queue' : List ArpqEntry} (h : Separate cache (queue.map ArpqEntry.core))
    {now : Nat} {ip hop : UInt32} {p : QueuedPacket}
    (hmiss : arpCacheLookup cache hop = none) (henq : Enqueued now ip hop p queue queue') :
    Separate cache (queue'.map ArpqEntry.core) := by
  rcases henq.cores with ⟨before, after, hop', packets, hsome, hold, hnew⟩ | hnew
  · rw [hold] at h
    rw [hnew]
    intro c hc hne known hknown
    rcases List.mem_append.mp hc with hc | hc
    · exact h c (List.mem_append_left _ hc) hne known hknown
    · rcases List.mem_cons.mp hc with rfl | hc
      · exact h _ (List.mem_append_right _ List.mem_cons_self) hsome known hknown
      · exact h c (List.mem_append_right _ (List.mem_cons_of_mem _ hc)) hne known hknown
  · rw [hnew]
    intro c hc hne known hknown
    rcases List.mem_append.mp hc with hc | hc
    · exact h c hc hne known hknown
    · obtain rfl := List.mem_singleton.mp hc
      intro heq
      have := List.find?_eq_none.mp hmiss known hknown
      simp [heq] at this

theorem waitingFor_of_separate {cache : List ArpcEntry} {queue : List ArpqEntry}
    (h : Separate cache (queue.map ArpqEntry.core)) {ip : UInt32} {known : ArpcEntry}
    (hhit : arpCacheLookup cache ip = some known) : waitingFor queue ip = [] := by
  rw [List.eq_nil_iff_forall_not_mem]
  intro p hp
  obtain ⟨entry, hmem, hhop, hp⟩ := mem_waitingFor.mp hp
  have hip : known.arpcIp = ip := by simpa using List.find?_some hhit
  exact h entry.core (List.mem_map_of_mem hmem) (List.ne_nil_of_mem hp) known
    (List.mem_of_find?_eq_some hhit) (hip.trans hhop.symm)

/-- The packets of the one entry for `h` are those that wait for `h`. -/
theorem waitingFor_of_one {queue : List ArpqEntry} {h : UInt32}
    (hone : (queue.filter fun entry => entry.arpqNextHop == h).length ≤ 1) :
    waitingFor queue h = (arpqNextHopLookup queue h).elim [] ArpqEntry.arpqPackets := by
  rw [arpqNextHopLookup, ← List.head?_filter, waitingFor]
  generalize queue.filter (fun entry => entry.arpqNextHop == h) = found at hone ⊢
  cases found with
  | nil => rfl
  | cons x rest =>
    cases rest with
    | nil => simp
    | cons y rest =>
      simp only [List.length_cons] at hone
      omega

theorem releasesAll_step {sr : SrInstance} {hist : List Event} {s s' : RouterState} {e : Event}
    (hinv : Inv sr hist s) (hsep : Separate s.cache s.cores) (hone : OneEntry sr (some s) e)
    (hstep : step sr (some s) e = some s') :
    Separate s'.cache s'.cores ∧
    ∀ h, ArpForUs sr e h →
      waitingFor s'.queue h = [] ∧
      ∀ queue sent, arpQueueFlush sr e.now s.queue = .ok (queue, sent) →
        ∀ p ∈ waitingFor queue h, (forwardedBy s'.wire).count p.arrival = 1 := by
  obtain ⟨mid, hmid, hres⟩ := step_eq_some hstep
  obtain rfl := Option.some.inj hmid
  have hinv' := inv_step hinv hres
  rcases handlepacket_cases hres with ⟨hshort, rfl⟩ | ⟨-, queue, flushed, hflush, hout⟩
  · refine ⟨hsep, ?_⟩
    exact fun h harp => absurd harp (not_arpForUs_of_none (arpInfo_of_short hshort))
  · have hsep' : Separate (arpCacheFlush e.now s.cache) (queue.map ArpqEntry.core) :=
      hsep.sublist (arpCacheFlush_sublist _ _) (arpQueueFlush_spec hflush).sublist
    have hqueue : ∀ {q sent}, arpQueueFlush sr e.now s.queue = .ok (q, sent) → q = queue := by
      intro q sent hq
      rw [hflush] at hq
      exact (Prod.mk.inj (Except.ok.inj hq)).1.symm
    cases hout with
    | answered extra hip hnot hextra =>
      refine ⟨hsep', ?_⟩
      exact fun h harp => absurd harp (not_arpForUs_of_ip hip)
    | direct incoming outgoing sent hop incache iface hacc hupd hhit henc hiface =>
      refine ⟨hsep', ?_⟩
      exact fun h harp => absurd harp (not_arpForUs_of_ip hacc.spec.1)
    | queued incoming outgoing hop queue' request hacc hupd hmiss hreq henq =>
      refine ⟨hsep'.enqueue hmiss henq, ?_⟩
      exact fun h harp => absurd harp (not_arpForUs_of_ip hacc.spec.1)
    | refreshed info entry extra hinfo hhit hextra =>
      have hips := @replaceFirst_map_ip (arpCacheFlush e.now s.cache)
        (fun c => c.arpcIp == info.sip)
        (fun c => { c with arpcMac := info.sha, arpcTimeout := e.now + arpCacheTimeout })
        (fun _ => rfl)
      refine ⟨hsep'.congr hips, ?_⟩
      intro h harp
      obtain ⟨info', target, hinfo', hsip, -⟩ := harp
      obtain rfl : info = info' := Option.some.inj (hinfo.symm.trans hinfo')
      subst hsip
      -- whose address is in the cache has nobody waiting for it
      have hnone := waitingFor_of_separate hsep' hhit
      refine ⟨hnone, ?_⟩
      intro q sent hq p hp
      rw [hqueue hq, hnone] at hp
      cases hp
    | overheard info hinfo hmiss htarget =>
      refine ⟨hsep', ?_⟩
      intro h harp
      obtain ⟨info', target, hinfo', hsip, htarget'⟩ := harp
      obtain rfl : info = info' := Option.some.inj (hinfo.symm.trans hinfo')
      rw [htarget] at htarget'
      cases htarget'
    | learned info target sent extra hinfo hmiss htarget hsent hextra =>
      -- the one entry that waits is the one that is cleared
      have hlen := hone s rfl (by rw [hstep]; rfl) info.sip ⟨info, target, hinfo, rfl, htarget⟩
        hmiss queue flushed hflush
      have hleft := eraseP_of_one hlen
      constructor
      · intro c hc hsome known hknown
        obtain ⟨entry, hmem, rfl⟩ := List.mem_map.mp hc
        rcases List.mem_append.mp hknown with hknown | hknown
        · exact hsep' _ (List.mem_map_of_mem (List.mem_of_mem_eraseP hmem)) hsome known hknown
        · obtain rfl := List.mem_singleton.mp hknown
          exact fun heq => hleft entry hmem heq.symm
      · intro h harp
        obtain ⟨info', target', hinfo', hsip, -⟩ := harp
        obtain rfl : info = info' := Option.some.inj (hinfo.symm.trans hinfo')
        subst hsip
        refine ⟨?_, ?_⟩
        · rw [List.eq_nil_iff_forall_not_mem]
          intro p hp
          obtain ⟨entry, hmem, hhop, -⟩ := mem_waitingFor.mp hp
          exact hleft entry hmem hhop
        · intro q sent' hq p hp
          rw [hqueue hq, waitingFor_of_one hlen] at hp
          apply List.count_eq_one_of_mem
          · exact (List.nodup_append.mp hinv'.wire.once).1
          · simp only [forwardedBy_append, forwardedBy_released hsent]
            exact List.mem_append_left _ (List.mem_append_right _ (List.mem_map_of_mem hp))

theorem oneEntry_of_releasesAll {sr : SrInstance} {hist : List Event} {s : RouterState}
    {e : Event} (hinv : Inv sr hist s) (hrel : ReleasesAll sr (some s) e) :
    OneEntry sr (some s) e := by
  intro s₀ hs hsome h harp hmiss queue sent hflush
  obtain rfl := Option.some.inj hs
  obtain ⟨s', hs'⟩ := Option.isSome_iff_exists.mp hsome
  have hnone := ((hrel s s' rfl hs').2 h harp).1
  obtain ⟨mid, hmid, hres⟩ := step_eq_some hs'
  obtain rfl := Option.some.inj hmid
  by_contra htwo
  have hfilled := (hinv.queue.sublist (arpQueueFlush_spec hflush).sublist).filled
  -- only the first of two entries would be taken out
  apply eraseP_of_two hfilled (Nat.not_le.mp htwo)
  rcases handlepacket_cases hres with ⟨hshort, rfl⟩ | ⟨-, queue', flushed, hflush', hout⟩
  · exact absurd harp (not_arpForUs_of_none (arpInfo_of_short hshort))
  · rw [hflush] at hflush'
    obtain ⟨rfl, rfl⟩ := Prod.mk.inj (Except.ok.inj hflush')
    cases hout with
    | answered extra hip hnot hextra =>
      exact absurd harp (not_arpForUs_of_ip hip)
    | direct incoming outgoing sent' hop incache iface hacc hupd hhit henc hiface =>
      exact absurd harp (not_arpForUs_of_ip hacc.spec.1)
    | queued incoming outgoing hop queue' request hacc hupd hmiss' hreq henq =>
      exact absurd harp (not_arpForUs_of_ip hacc.spec.1)
    | refreshed info' entry extra hinfo' hhit hextra =>
      obtain ⟨info, target, hinfo, rfl, htarget⟩ := harp
      obtain rfl : info = info' := Option.some.inj (hinfo.symm.trans hinfo')
      rw [hmiss] at hhit
      cases hhit
    | overheard info' hinfo' hmiss' htarget' =>
      obtain ⟨info, target, hinfo, rfl, htarget⟩ := harp
      obtain rfl : info = info' := Option.some.inj (hinfo.symm.trans hinfo')
      rw [htarget] at htarget'
      cases htarget'
    | learned info' target' sent' extra hinfo' hmiss' htarget' hsent hextra =>
      obtain ⟨info, target, hinfo, rfl, htarget⟩ := harp
      obtain rfl : info = info' := Option.some.inj (hinfo.symm.trans hinfo')
      exact hnone

/-! ## Runs -/

/-- **Every ARP packet releases everybody who waits for its sender, in exactly
the runs in which never two entries wait for it.** -/
theorem releasesAll_iff (sr : SrInstance) (evs : List Event) :
    Along (step sr) (ReleasesAll sr) (some (srInit sr)) evs ↔
      Along (step sr) (OneEntry sr) (some (srInit sr)) evs := by
  have hinit : ∀ s, some (srInit sr) = some s → (∃ hist, Inv sr hist s) ∧
      Separate s.cache s.cores := by
    intro s hs
    obtain rfl := Option.some.inj hs
    refine ⟨⟨[], inv_init sr⟩, ?_⟩
    intro c hc hsome
    obtain rfl := List.mem_singleton.mp hc
    exact absurd rfl hsome
  constructor
  · intro hrel
    apply along_of_invariant (fun st => ∀ s, st = some s → ∃ hist, Inv sr hist s) ?_ ?_ hrel (fun s hs => (hinit s hs).1)
    · intro st e _ hst s' hs'
      obtain ⟨s, hs, hres⟩ := step_eq_some hs'
      obtain ⟨hist, hinv⟩ := hst s hs
      exact ⟨hist ++ [e], inv_step hinv hres⟩
    · intro st e hrel hst
      cases st with
      | none => intro s hs; cases hs
      | some s =>
        obtain ⟨hist, hinv⟩ := hst s rfl
        exact oneEntry_of_releasesAll hinv hrel
  · intro hone
    apply along_of_invariant
      (fun st => ∀ s, st = some s → (∃ hist, Inv sr hist s) ∧ Separate s.cache s.cores) ?_ ?_ hone hinit
    · intro st e hok hst s' hs'
      obtain ⟨s, rfl, hres⟩ := step_eq_some hs'
      obtain ⟨⟨hist, hinv⟩, hsep⟩ := hst s rfl
      exact ⟨⟨hist ++ [e], inv_step hinv hres⟩, (releasesAll_step hinv hsep hok hs').1⟩
    · intro st e hok hst s s' hs hs'
      subst hs
      obtain ⟨⟨hist, hinv⟩, hsep⟩ := hst s rfl
      exact releasesAll_step hinv hsep hok hs'

/-- Two datagrams for two hosts behind the gateway, then the gateway's reply. -/
def twoBehindGateway : List Event :=
  [{ packet := datagramTo 5 196, interface := [0x65], now := 100 },
   { packet := datagramTo 6 195, interface := [0x65], now := 100 },
   { packet := gatewayReply, interface := [0x65], now := 100 }]

/-- The second datagram goes on waiting for a gateway that is in the cache. -/
theorem twoBehindGateway_strands :
    ((run (step gatewayRouter) (some (srInit gatewayRouter)) twoBehindGateway).map fun st =>
      (waitingFor st.queue 0x0700000a).length) = some 1 ∧
    ¬ Along (step gatewayRouter) (ReleasesAll gatewayRouter) (some (srInit gatewayRouter))
      twoBehindGateway := by
  have hone : ((run (step gatewayRouter) (some (srInit gatewayRouter)) twoBehindGateway).map
      fun st => (waitingFor st.queue 0x0700000a).length) = some 1 := by decide +kernel
  refine ⟨hone, ?_⟩
  intro hal
  obtain ⟨-, -, hlast, -⟩ := hal
  obtain ⟨s', hs', hlen⟩ := Option.map_eq_some_iff.mp hone
  simp only [twoBehindGateway, run_cons, run_nil] at hs'
  obtain ⟨s, hs, -⟩ := step_eq_some hs'
  have harp : ArpForUs gatewayRouter
      { packet := gatewayReply, interface := [0x65], now := 100 } 0x0700000a :=
    ⟨{ sip := 0x0700000a, sha := ⟨[2, 0, 0, 0, 0, 7], rfl⟩, tip := 0x0100000a },
      { name := [0x65], addr := ⟨[2, 0, 0, 0, 0, 1], rfl⟩, ip := 0x0100000a },
      by rfl, rfl, by rfl⟩
  have hnone := ((hlast s s' hs hs').2 _ harp).1
  rw [hnone] at hlen
  cases hlen

end UchiNetworks.Router
