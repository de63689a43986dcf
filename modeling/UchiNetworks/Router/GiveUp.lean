import UchiNetworks.Router.CacheMap
import UchiNetworks.Router.QueueLinks

/-!
# When the clock moves inside a call

`arp_queue_flush` gives up on an entry by unlinking and freeing it; the
forwarding branch makes the same test and gives up with `destroy_arpq_entry`
alone, which leaves the freed entry in the queue. The flush comes first in every
call, so the branch finds an overdue entry only if the clock has moved in
between. `queue_formed_iff` says that nothing else breaks the links, and
`queue_formed_steady` that a clock which is read once per packet never does.
-/

namespace UchiNetworks.Router.Memory

open UchiNetworks.Lib

/-- The call forwards `incoming` as `outgoing` by way of `hop`, with the two lists
as the flushes have left them and the clock read `j` times. -/
structure Enters (sr : SrInstance) (mem : RouterMemory) (c : Call) (incoming outgoing : FrameT)
    (hop : UInt32) (cache : ArpCache) (queue : ArpQueue) (j : Nat) : Prop where
  accepted : Accepted sr (c.arrival mem.calls) incoming
  updated : updateIpHdr sr incoming = .ok (outgoing, hop)
  flushed : ∃ i sent, arpCacheFlush c.clock mem.cache 0 = .ok (cache, i) ∧
    arpQueueFlush sr c.clock mem.queue i = .ok (queue, sent, j)

/-- The call forwards a packet whose next hop is not in the cache, and the entry
that waits for its destination, as the flush has left it, is overdue at the next
reading of the clock. -/
def GivesUp (sr : SrInstance) (mem : RouterMemory) (c : Call) : Prop :=
  ∃ incoming outgoing hop cache i queue flushed j,
    Accepted sr (c.arrival mem.calls) incoming ∧ updateIpHdr sr incoming = .ok (outgoing, hop) ∧
    arpCacheFlush c.clock mem.cache 0 = .ok (cache, i) ∧ arpCacheLookup cache hop = .ok none ∧
    arpQueueFlush sr c.clock mem.queue i = .ok (queue, flushed, j) ∧
    FindsOverdue queue outgoing.toIp (c.clock j)

/-- When the call returns the queue is well formed. -/
def FormedAfter (sr : SrInstance) (mem : Option RouterMemory) (c : Call) : Prop :=
  ∀ mem', step sr mem c = some mem' → WellFormed mem'.queue

/-- A call that returns does not give up on an entry while forwarding. -/
def Spared (sr : SrInstance) (mem : Option RouterMemory) (c : Call) : Prop :=
  ∀ m, mem = some m → (step sr mem c).isSome → ¬ GivesUp sr m c

/-! ## One call -/

theorem forwardPacket_sound {sr : SrInstance} {clock : Nat → Nat} {cache : ArpCache}
    {queue queue' : ArpQueue} {vs : List EntryView} {i : Nat} {arrival : Arrival}
    {incoming : FrameT} {sent : List Sent} (h : Sound queue vs)
    (hfine : ∀ outgoing hop, updateIpHdr sr incoming = .ok (outgoing, hop) →
      arpCacheLookup cache hop = .ok none → ¬ FindsOverdue queue outgoing.toIp (clock i))
    (hforward : forwardPacket sr clock cache queue i arrival incoming = .ok (queue', sent)) :
    ∃ vs', Sound queue' vs' ∧ (Placed queue vs → Placed queue' vs') := by
  simp only [forwardPacket, bind_ok] at hforward
  obtain ⟨⟨outgoing, hop⟩, hupd, found, hfind, hforward⟩ := hforward
  cases found with
  | some incache =>
    simp only [bind_ok, Except.ok.injEq, Prod.mk.injEq] at hforward
    obtain ⟨-, -, -, -, -, -, rfl, -⟩ := hforward
    exact ⟨vs, h, fun hplaced => hplaced⟩
  | none => exact queuePacket_sound h (hfine outgoing hop hupd hfind) hforward

theorem handleIp_sound {sr : SrInstance} {clock : Nat → Nat} {cache : ArpCache}
    {queue queue' : ArpQueue} {vs : List EntryView} {i : Nat} {arrival : Arrival}
    {created : FrameT} {sent : List Sent} (h : Sound queue vs)
    (hlen : etherHdrLen ≤ arrival.packet.length)
    (hcreated : createFrameT sr arrival.packet arrival.interface = .ok (some created))
    (hsome : created.ipHeader.isSome)
    (hfine : ∀ incoming outgoing hop, Accepted sr arrival incoming →
      updateIpHdr sr incoming = .ok (outgoing, hop) → arpCacheLookup cache hop = .ok none →
      ¬ FindsOverdue queue outgoing.toIp (clock i))
    (hip : handleIp sr clock cache queue i arrival created = .ok (queue', sent)) :
    ∃ vs', Sound queue' vs' ∧ (Placed queue vs → Placed queue' vs') := by
  simp only [handleIp, bind_ok] at hip
  obtain ⟨checked, hcheck, hip⟩ := hip
  cases checked with
  | none =>
    simp only [Except.ok.injEq, Prod.mk.injEq] at hip
    obtain ⟨rfl, -⟩ := hip
    exact ⟨vs, h, fun hplaced => hplaced⟩
  | some incoming =>
    simp only [bind_ok] at hip
    obtain ⟨ours, hours, hip⟩ := hip
    cases ours with
    | some target =>
      simp only [bind_ok, Except.ok.injEq, Prod.mk.injEq] at hip
      obtain ⟨-, -, -, -, rfl, -⟩ := hip
      exact ⟨vs, h, fun hplaced => hplaced⟩
    | none =>
      simp only [bind_ok, getOr_ok] at hip
      obtain ⟨ttl, httl, hip⟩ := hip
      by_cases hzero : ttl ≤ 0
      · rw [if_pos hzero] at hip
        simp only [bind_ok, Except.ok.injEq, Prod.mk.injEq] at hip
        obtain ⟨-, -, -, -, rfl, -⟩ := hip
        exact ⟨vs, h, fun hplaced => hplaced⟩
      · rw [if_neg hzero] at hip
        have hacc : Accepted sr arrival incoming :=
          { long := hlen
            created := ⟨created, hcreated, hsome, hcheck⟩
            notOurs := hours
            ttl := ⟨ttl, httl, UInt8.not_le.mp hzero⟩ }
        exact forwardPacket_sound h (fun outgoing hop => hfine incoming outgoing hop hacc) hip

theorem learnSender_sound {cache cache' : ArpCache} {queue queue' : ArpQueue}
    {vs : List EntryView} {sip : UInt32} {sha : Mac} {now : Nat} {sent : List Sent}
    (h : Sound queue vs)
    (hlearn : learnSender cache queue sip sha now = .ok (cache', queue', sent)) :
    ∃ vs', Sound queue' vs' ∧ (Placed queue vs → Placed queue' vs') := by
  simp only [learnSender, bind_ok] at hlearn
  obtain ⟨added, -, found, hfind, hlearn⟩ := hlearn
  cases found with
  | none =>
    simp only [Except.ok.injEq, Prod.mk.injEq] at hlearn
    obtain ⟨-, rfl, -⟩ := hlearn
    exact ⟨vs, h, fun hplaced => hplaced⟩
  | some newEnt =>
    obtain ⟨l, v, r, rfl, rfl, -⟩ := h.find _ hfind
    simp only [bind_ok, Except.ok.injEq, Prod.mk.injEq] at hlearn
    obtain ⟨⟨q, s⟩, hclear, -, rfl, -⟩ := hlearn
    obtain ⟨hsound, hfresh⟩ := arpqEntryClear_sound h hclear
    exact ⟨_, hsound, fun hplaced => hplaced.sublist hfresh (by simp)⟩

theorem handleArp_sound {sr : SrInstance} {cache cache' : ArpCache} {queue queue' : ArpQueue}
    {vs : List EntryView} {now : Nat} {incoming : FrameT} {sent : List Sent}
    (h : Sound queue vs)
    (harp : handleArp sr cache queue now incoming = .ok (cache', queue', sent)) :
    ∃ vs', Sound queue' vs' ∧ (Placed queue vs → Placed queue' vs') := by
  simp only [handleArp, bind_ok] at harp
  obtain ⟨sha, -, sip, -, tip, -, op, -, found, -, harp⟩ := harp
  cases found with
  | some entry =>
    simp only [bind_ok] at harp
    obtain ⟨updated, -, target, -, harp⟩ := harp
    cases target with
    | none =>
      simp only [Except.ok.injEq, Prod.mk.injEq] at harp
      obtain ⟨-, rfl, -⟩ := harp
      exact ⟨vs, h, fun hplaced => hplaced⟩
    | some target =>
      simp only [bind_ok, Except.ok.injEq, Prod.mk.injEq] at harp
      obtain ⟨-, -, -, rfl, -⟩ := harp
      exact ⟨vs, h, fun hplaced => hplaced⟩
  | none =>
    simp only [bind_ok] at harp
    obtain ⟨target, -, harp⟩ := harp
    cases target with
    | none =>
      simp only [Except.ok.injEq, Prod.mk.injEq] at harp
      obtain ⟨-, rfl, -⟩ := harp
      exact ⟨vs, h, fun hplaced => hplaced⟩
    | some target =>
      simp only [bind_ok, Except.ok.injEq, Prod.mk.injEq] at harp
      obtain ⟨⟨added, q, released⟩, hlearn, -, -, -, rfl, -⟩ := harp
      exact learnSender_sound h hlearn

theorem handlepacket_sound {sr : SrInstance} {mem mem' : RouterMemory} {c : Call}
    {vs : List EntryView} (h : Sound mem.queue vs) (hspared : ¬ GivesUp sr mem c)
    (hcall : srHandlepacket sr mem c = .ok mem') :
    ∃ vs', Sound mem'.queue vs' ∧ (Placed mem.queue vs → Placed mem'.queue vs') := by
  simp only [srHandlepacket] at hcall
  by_cases hshort : c.packet.length < etherHdrLen
  · rw [if_pos hshort] at hcall
    obtain rfl := Except.ok.inj hcall
    exact ⟨vs, h, fun hplaced => hplaced⟩
  · rw [if_neg hshort] at hcall
    simp only [bind_ok, getOr_ok] at hcall
    obtain ⟨created, hcreated, ⟨cache, i⟩, hcache, ⟨queue, flushed, j⟩, hqueue, incoming, rfl,
      hcall⟩ := hcall
    obtain ⟨vs', hsound, -, hplaced⟩ := arpQueueFlush_sound h hqueue
    by_cases hip : incoming.ipHeader.isSome
    · rw [if_pos hip] at hcall
      simp only [bind_ok, Except.ok.injEq] at hcall
      obtain ⟨⟨q, sent⟩, hip', rfl⟩ := hcall
      have hfine : ∀ f outgoing hop, Accepted sr (c.arrival mem.calls) f →
          updateIpHdr sr f = .ok (outgoing, hop) → arpCacheLookup cache hop = .ok none →
          ¬ FindsOverdue queue outgoing.toIp (c.clock j) := by
        intro f outgoing hop hacc hupd hmiss hover
        exact hspared ⟨f, outgoing, hop, cache, i, queue, flushed, j, hacc, hupd, hcache, hmiss,
          hqueue, hover⟩
      obtain ⟨vs'', hsound', hplaced'⟩ :=
        handleIp_sound hsound (Nat.not_lt.mp hshort) hcreated hip hfine hip'
      exact ⟨vs'', hsound', fun hold => hplaced' (hplaced hold)⟩
    · rw [if_neg hip] at hcall
      simp only [bind_ok, Except.ok.injEq] at hcall
      obtain ⟨⟨cache', q, sent⟩, harp, rfl⟩ := hcall
      obtain ⟨vs'', hsound', hplaced'⟩ := handleArp_sound hsound harp
      exact ⟨vs'', hsound', fun hold => hplaced' (hplaced hold)⟩

/-- Such a call is what the forwarding branch does. -/
theorem Enters.handlepacket {sr : SrInstance} {mem : RouterMemory} {c : Call}
    {incoming outgoing : FrameT} {hop : UInt32} {cache : ArpCache} {queue : ArpQueue} {j : Nat}
    (h : Enters sr mem c incoming outgoing hop cache queue j) :
    ∃ flushed, srHandlepacket sr mem c =
      forwardPacket sr c.clock cache queue j (c.arrival mem.calls) incoming >>= fun r =>
        .ok { cache := cache, queue := r.1, wire := mem.wire ++ flushed ++ r.2
              calls := mem.calls + 1 } := by
  obtain ⟨i, flushed, hcache, hqueue⟩ := h.flushed
  have hshort : ¬ c.packet.length < etherHdrLen := Nat.not_lt.mpr h.accepted.long
  obtain ⟨created, hcreated, hsome, hcheck⟩ := h.accepted.created
  obtain ⟨ttl, httl, hpos⟩ := h.accepted.ttl
  refine ⟨flushed, ?_⟩
  simp only [srHandlepacket, if_neg hshort,
    show createFrameT sr c.packet c.interface = .ok (some created) from hcreated, hcache, hqueue,
    ok_bind, getOr_some, hsome, if_true, handleIp, hcheck, h.accepted.notOurs, httl,
    if_neg (UInt8.not_le.mpr hpos)]

theorem handlepacket_broken {sr : SrInstance} {mem mem' : RouterMemory} {c : Call}
    {vs : List EntryView} (h : Sound mem.queue vs) (hgives : GivesUp sr mem c)
    (hcall : srHandlepacket sr mem c = .ok mem') : Broken mem'.queue := by
  obtain ⟨incoming, outgoing, hop, cache, i, queue, flushed, j, hacc, hupd, hcache, hmiss, hqueue,
    hover⟩ := hgives
  obtain ⟨vs', hsound, -⟩ := arpQueueFlush_sound h hqueue
  have hent : Enters sr mem c incoming outgoing hop cache queue j :=
    { accepted := hacc, updated := hupd, flushed := ⟨i, flushed, hcache, hqueue⟩ }
  obtain ⟨flushed', hbranch⟩ := hent.handlepacket
  simp only [hbranch, forwardPacket, hupd, hmiss, ok_bind, bind_ok, Except.ok.injEq] at hcall
  obtain ⟨⟨q, sent⟩, hqueued, rfl⟩ := hcall
  exact queuePacket_broken hsound hover hqueued

/-! ## Runs -/

theorem placed_init (sr : SrInstance) :
    ∃ vs, Sound (srInit sr).queue vs ∧ Placed (srInit sr).queue vs := by
  refine ⟨[{ addr := 0
             cell := { arpqIp := 0, arpqNextHop := sr.junkHop
                       arpqPackets := { first := none, last := none }
                       arpqLastReq := 0, arpqNumReqs := 0 }
             packets := [] }], ⟨⟨DList.holds_singleton rfl rfl rfl, ?_, ?_⟩, ?_⟩,
    Nat.succ_pos _, ?_⟩
  · exact List.nodup_singleton _
  · intro v hv
    obtain rfl := List.mem_singleton.mp hv
    exact chained_nil _
  · exact List.nodup_nil
  · intro v hv
    obtain rfl := List.mem_singleton.mp hv
    exact ⟨fun _ => rfl, fun haddr => absurd rfl haddr⟩

theorem sound_init (sr : SrInstance) : ∃ vs, Sound (srInit sr).queue vs := by
  obtain ⟨vs, hsound, -⟩ := placed_init sr
  exact ⟨vs, hsound⟩

/-- A call that spares the queue leaves it sound. -/
theorem Spared.sound {sr : SrInstance} {mem : Option RouterMemory} {c : Call}
    (hspared : Spared sr mem c) (hsound : ∀ m, mem = some m → ∃ vs, Sound m.queue vs) :
    ∀ m, step sr mem c = some m → ∃ vs, Sound m.queue vs := by
  intro mem' hstep
  obtain ⟨mid, hmid, hcall⟩ := step_eq_some hstep
  obtain ⟨vs, hvs⟩ := hsound mid hmid
  obtain ⟨vs', hvs', -⟩ := handlepacket_sound hvs (hspared mid hmid (by rw [hstep]; rfl)) hcall
  exact ⟨vs', hvs'⟩

theorem Spared.formed {sr : SrInstance} {mem : Option RouterMemory} {c : Call}
    (hspared : Spared sr mem c) (hsound : ∀ m, mem = some m → ∃ vs, Sound m.queue vs) :
    FormedAfter sr mem c := by
  intro mem' hstep
  obtain ⟨vs', hvs'⟩ := hspared.sound hsound mem' hstep
  exact ⟨vs', hvs'.toFormed⟩

/-- **The queue is well formed after every call of a run exactly if no call of it
gives up on an entry while forwarding.** -/
theorem queue_formed_iff (sr : SrInstance) (calls : List Call) :
    Along (step sr) (FormedAfter sr) (some (srInit sr)) calls ↔
      Along (step sr) (Spared sr) (some (srInit sr)) calls := by
  refine (along_iff (fun mem => ∀ m, mem = some m → ∃ vs, Sound m.queue vs) ?_ ?_ ?_).symm
  · intro mem c hsound
    refine ⟨fun hspared => hspared.formed hsound, ?_⟩
    intro hformed m hm hup hgives
    obtain ⟨vs, hvs⟩ := hsound m hm
    obtain ⟨mem', hstep⟩ := Option.isSome_iff_exists.mp hup
    obtain ⟨mid, hmid, hcall⟩ := step_eq_some hstep
    obtain rfl : m = mid := Option.some.inj (hm.symm.trans hmid)
    exact (handlepacket_broken hvs hgives hcall).not_formed (hformed mem' hstep)
  · intro mem c hsound hspared
    exact hspared.sound hsound
  · intro m hm
    obtain rfl := Option.some.inj hm
    exact sound_init sr

/-- The clock does not go back, neither in a call nor from one to the next. -/
def Nondecreasing (calls : List Call) : Prop :=
  (∀ c ∈ calls, ∀ i j, i ≤ j → c.clock i ≤ c.clock j) ∧
    calls.Pairwise fun c c' => ∀ i j, c.clock i ≤ c'.clock j

/-- A datagram to `10.0.2.5`. -/
def datagramCall (clock : Nat → Nat) : Call :=
  { packet := datagramTo 5 196, interface := [0x65], clock := clock }

/-- Six datagrams to one destination in one second. Then a seventh: the flush
reads the clock twice in the next second, and the forwarding branch in the one
after. -/
def sevenDatagrams : List Call :=
  List.replicate 6 (datagramCall fun _ => 100) ++
    [datagramCall fun i => if i < 2 then 101 else 102]

theorem queue_not_formed :
    ¬ ∀ (sr : SrInstance) (calls : List Call), Nondecreasing calls →
      Along (step sr) (FormedAfter sr) (some (srInit sr)) calls := by
  intro hall
  have hclock : Nondecreasing sevenDatagrams := by
    refine ⟨?_, ?_⟩
    · intro c hc i j hij
      rcases List.mem_append.mp hc with hc | hc
      · rw [List.eq_of_mem_replicate hc]
        exact Nat.le_refl _
      · rw [List.mem_singleton.mp hc]
        simp only [datagramCall]
        split <;> split <;> omega
    · rw [sevenDatagrams, List.pairwise_append]
      refine ⟨List.pairwise_replicate.mpr (Or.inr fun _ _ => Nat.le_refl _),
        List.pairwise_singleton _ _, ?_⟩
      intro c hc c' hc' i j
      rw [List.eq_of_mem_replicate hc, List.mem_singleton.mp hc']
      simp only [datagramCall]
      split <;> omega
  have hlast := ((along_append _ _ _ _ _).mp (hall gatewayRouter sevenDatagrams hclock)).2
  -- the next lookup of the destination follows the links into the freed entry
  have hrun : (run (step gatewayRouter) (some (srInit gatewayRouter)) sevenDatagrams).any
      (fun mem => (arpQueueLookup mem.queue 0x0502000a).toOption.isNone) = true := by
    decide +kernel
  obtain ⟨mem, hmem, hlookup⟩ := (Option.any_eq_true _ _).mp hrun
  rw [sevenDatagrams, run_append] at hmem
  obtain ⟨vs, hformed⟩ := hlast.1 mem hmem
  rw [hformed.lookup] at hlookup
  cases hlookup

/-! ## A clock that is read once per packet -/

theorem not_givesUp_steady {sr : SrInstance} {mem : RouterMemory} {c : Call}
    {vs : List EntryView} (h : Sound mem.queue vs) {now : Nat} (hclock : ∀ i, c.clock i = now) :
    ¬ GivesUp sr mem c := by
  intro hgives
  obtain ⟨incoming, outgoing, hop, cache, i, queue, flushed, j, -, -, -, -, hqueue, entry, cell,
    hfind, hvalue, hover⟩ := hgives
  obtain ⟨vs', hsound, hdue, -⟩ := arpQueueFlush_sound h hqueue
  obtain ⟨l, v, r, rfl, rfl, -⟩ := hsound.find _ hfind
  obtain rfl : v.cell = cell := Option.some.inj (hsound.value.symm.trans hvalue)
  rw [hclock] at hover
  exact hdue now hclock v (by simp) hover

/-- When every `time(NULL)` of a call returns the same, the queue stays well
formed. -/
theorem queue_formed_steady {sr : SrInstance} {calls : List Call}
    (hclock : ∀ c ∈ calls, ∃ now, ∀ i, c.clock i = now) :
    Along (step sr) (FormedAfter sr) (some (srInit sr)) calls := by
  have hspared : ∀ (mem : Option RouterMemory) (c : Call), (∃ now, ∀ i, c.clock i = now) →
      (∀ m, mem = some m → ∃ vs, Sound m.queue vs) → Spared sr mem c := by
    intro mem c hsteady hsound m hm _
    obtain ⟨vs, hvs⟩ := hsound m hm
    obtain ⟨now, hnow⟩ := hsteady
    exact not_givesUp_steady hvs hnow
  apply along_of_invariant (fun mem => ∀ m, mem = some m → ∃ vs, Sound m.queue vs)
    (fun mem c hsteady hsound => (hspared mem c hsteady hsound).sound hsound)
    (fun mem c hsteady hsound => (hspared mem c hsteady hsound).formed hsound)
    (along_events.mpr hclock)
  intro m hm
  obtain rfl := Option.some.inj hm
  exact sound_init sr

end UchiNetworks.Router.Memory
