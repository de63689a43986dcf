import UchiNetworks.Router.Invariant

/-!
# How many ARP requests are sent for a queue entry

Requests are sent in three places: for a new entry, for every further packet
that joins one, and for an idle entry in a flush. Only the last looks at the
clock and at the count. `moderated_iff` gives the runs in which no entry is
asked for more than `ARP_MAX_REQ` times or twice within a second: those in which
no packet joins an entry and no entry comes to its sixth request. For the first
request is not counted, so an entry that is given up on has had six.
-/

namespace UchiNetworks.Router

open UchiNetworks.Lib

/-- The times of an entry's requests, the latest first, are few and far
between. -/
def Moderate (requests : List Nat) : Prop :=
  requests.length ≤ arpMaxReq.toNat ∧
    requests.Pairwise fun later earlier => earlier + arpRequestTimeout < later

/-- The entries that hold packets are asked for moderately. -/
def AllModerate (queue : List ArpqEntry) : Prop :=
  ∀ entry ∈ queue, entry.arpqPackets ≠ [] → Moderate entry.requests

/-- During and after a call that returns all entries are asked for moderately,
and what it gives up on has been asked for `ARP_MAX_REQ` times. -/
def Moderated (sr : SrInstance) (st : Option RouterState) (e : Event) : Prop :=
  ∀ s s', st = some s → step sr st e = some s' →
    AllModerate s'.queue ∧
    (etherHdrLen ≤ e.packet.length →
      ∀ queue sent, arpQueueFlush sr e.now s.queue = .ok (queue, sent) → AllModerate queue) ∧
    ∀ entry ∈ s.queue, entry.arpqPackets ≠ [] → entry.arpqLastReq < e.now - 1 →
      arpMaxReq ≤ entry.arpqNumReqs → arpMaxReq.toNat ≤ entry.requests.length

/-- The packet joins no entry, and no idle entry has been repeated four times. -/
def Patient (sr : SrInstance) (st : Option RouterState) (e : Event) : Prop :=
  ∀ s, st = some s → (step sr st e).isSome → etherHdrLen ≤ e.packet.length →
    (∀ incoming outgoing hop, Accepted sr (e.arrival s.calls) incoming →
      updateIpHdr sr incoming = .ok (outgoing, hop) →
      arpCacheLookup (arpCacheFlush e.now s.cache) hop = none →
      ∀ entry ∈ s.queue, entry.arpqPackets ≠ [] → entry.arpqIp ≠ outgoing.toIp) ∧
    ∀ entry ∈ s.queue, entry.arpqPackets ≠ [] → entry.arpqLastReq < e.now - 1 →
      entry.arpqNumReqs.toNat < 4

/-- The count stays below the number of requests, and the time of the last
counted request is the time of one. -/
def Counted (queue : List ArpqEntry) : Prop :=
  ∀ entry ∈ queue, entry.arpqPackets ≠ [] →
    entry.arpqNumReqs.toNat + 1 ≤ entry.requests.length ∧ entry.arpqLastReq ∈ entry.requests

/-- In a patient run the count is exact. -/
def Regular (queue : List ArpqEntry) : Prop :=
  ∀ entry ∈ queue, entry.arpqPackets ≠ [] →
    entry.requests.length = entry.arpqNumReqs.toNat + 1 ∧ entry.arpqNumReqs.toNat ≤ 4 ∧
      entry.requests.head? = some entry.arpqLastReq ∧
      entry.requests.Pairwise fun later earlier => earlier + arpRequestTimeout < later

theorem toNat_succ_le (n : UInt8) : (n + 1).toNat ≤ n.toNat + 1 := by
  rw [UInt8.toNat_add]
  exact Nat.mod_le _ _

theorem Regular.moderate {queue : List ArpqEntry} (h : Regular queue) : AllModerate queue := by
  intro entry hmem hsome
  obtain ⟨hlen, hnum, -, hgap⟩ := h entry hmem hsome
  refine ⟨?_, hgap⟩
  have : arpMaxReq.toNat = 5 := rfl
  omega

/-! ## The flush, entry by entry -/

theorem FlushedAll.mem {now : Nat} {queue queue' : List ArpqEntry} {sent : List Sent}
    (h : FlushedAll now queue queue' sent) :
    ∀ entry' ∈ queue', ∃ entry ∈ queue, ∃ s, Flushed now entry (some entry') s := by
  induction h with
  | nil => simp
  | @cons e kept s rest q more hhead _ ih =>
    intro entry' hmem
    rcases List.mem_append.mp hmem with hmem | hmem
    · have hkept : kept = some entry' := by simpa using hmem
      exact ⟨e, List.mem_cons_self, s, hkept ▸ hhead⟩
    · obtain ⟨entry, hentry, hfl⟩ := ih entry' hmem
      exact ⟨entry, List.mem_cons_of_mem _ hentry, hfl⟩

theorem FlushedAll.mem_of {now : Nat} {queue queue' : List ArpqEntry} {sent : List Sent}
    (h : FlushedAll now queue queue' sent) :
    ∀ entry ∈ queue, ∃ kept s, Flushed now entry kept s ∧ ∀ entry', kept = some entry' →
      entry' ∈ queue' := by
  induction h with
  | nil => simp
  | @cons e kept s rest q more hhead _ ih =>
    intro entry hmem
    rcases List.mem_cons.mp hmem with rfl | hmem
    · exact ⟨kept, s, hhead, fun entry' hk => List.mem_append_left _ (by simp [hk])⟩
    · obtain ⟨kept', s', hfl, hin⟩ := ih entry hmem
      exact ⟨kept', s', hfl, fun entry' hk => List.mem_append_right _ (hin entry' hk)⟩

theorem Flushed.core {now : Nat} {entry entry' : ArpqEntry} {s : List Sent}
    (h : Flushed now entry (some entry') s) : entry'.core = entry.core := by
  cases h with
  | kept _ => rfl
  | asked _ _ _ _ _ => rfl

/-- After a flush no entry is idle. -/
theorem FlushedAll.fresh {now : Nat} {queue queue' : List ArpqEntry} {sent : List Sent}
    (h : FlushedAll now queue queue' sent) :
    ∀ entry ∈ queue', entry.arpqPackets ≠ [] → now - 1 ≤ entry.arpqLastReq := by
  intro entry' hmem hsome
  obtain ⟨entry, -, s, hfl⟩ := h.mem entry' hmem
  cases hfl with
  | kept hidle => exact hidle hsome
  | asked _ _ _ _ _ => exact Nat.sub_le _ _

theorem Counted.flush {now : Nat} {queue queue' : List ArpqEntry} {sent : List Sent}
    (h : Counted queue) (hflush : FlushedAll now queue queue' sent) : Counted queue' := by
  intro entry' hmem hsome
  obtain ⟨entry, hentry, s, hfl⟩ := hflush.mem entry' hmem
  cases hfl with
  | kept hidle => exact h _ hentry hsome
  | asked _ hpackets _ _ _ =>
    obtain ⟨hlen, -⟩ := h entry hentry hpackets
    have := toNat_succ_le entry.arpqNumReqs
    exact ⟨by simp only [List.length_cons]; omega, List.mem_cons_self⟩

theorem Regular.flush {now : Nat} {queue queue' : List ArpqEntry} {sent : List Sent}
    (h : Regular queue) (hflush : FlushedAll now queue queue' sent)
    (hfew : ∀ entry ∈ queue, entry.arpqPackets ≠ [] → entry.arpqLastReq < now - 1 →
      entry.arpqNumReqs.toNat < 4) : Regular queue' := by
  intro entry' hmem hsome
  obtain ⟨entry, hentry, s, hfl⟩ := hflush.mem entry' hmem
  cases hfl with
  | kept hidle => exact h _ hentry hsome
  | asked _ hpackets hlate _ _ =>
    obtain ⟨hlen, -, hhead, hgap⟩ := h entry hentry hpackets
    have hnum := hfew entry hentry hpackets hlate
    have hsucc : (entry.arpqNumReqs + 1).toNat = entry.arpqNumReqs.toNat + 1 := by
      rw [UInt8.toNat_add]
      have : (1 : UInt8).toNat = 1 := rfl
      omega
    refine ⟨by simp only [List.length_cons]; omega, by simp only; omega, rfl, ?_⟩
    refine List.pairwise_cons.mpr ⟨?_, hgap⟩
    -- the last request is the latest of all
    intro time htime
    have htop : time ≤ entry.arpqLastReq := by
      obtain ⟨rest, hrest⟩ : ∃ rest, entry.requests = entry.arpqLastReq :: rest := by
        cases hreq : entry.requests with
        | nil => rw [hreq] at hhead; cases hhead
        | cons t rest =>
          rw [hreq] at hhead
          exact ⟨rest, by rw [Option.some.inj hhead]⟩
      rw [hrest] at htime hgap
      rcases List.mem_cons.mp htime with rfl | htime
      · exact Nat.le_refl _
      · have := (List.pairwise_cons.mp hgap).1 time htime
        omega
    have : arpRequestTimeout = 1 := rfl
    omega

/-! ## The other steps -/

theorem Counted.sublist {queue queue' : List ArpqEntry} (h : Counted queue)
    (hsub : queue'.Sublist queue) : Counted queue' := fun entry hmem => h entry (hsub.subset hmem)

theorem Regular.sublist {queue queue' : List ArpqEntry} (h : Regular queue)
    (hsub : queue'.Sublist queue) : Regular queue' := fun entry hmem => h entry (hsub.subset hmem)

theorem Counted.enqueue {now : Nat} {ip hop : UInt32} {p : QueuedPacket}
    {queue queue' : List ArpqEntry} (h : Counted queue)
    (hfresh : ∀ entry ∈ queue, entry.arpqPackets ≠ [] → now - 1 ≤ entry.arpqLastReq)
    (henq : Enqueued now ip hop p queue queue') : Counted queue' := by
  cases henq with
  | joined before after e lastReq numReqs hip hsome htouch =>
    have hmem : e ∈ before ++ e :: after := List.mem_append_right _ List.mem_cons_self
    obtain ⟨hlen, hlast⟩ := h e hmem hsome
    intro entry hentry hne
    rcases List.mem_append.mp hentry with hentry | hentry
    · exact h entry (List.mem_append_left _ hentry) hne
    · rcases List.mem_cons.mp hentry with rfl | hentry
      · rcases htouch with ⟨rfl, rfl⟩ | ⟨hlate, -⟩
        · have := toNat_succ_le e.arpqNumReqs
          exact ⟨by simp only [List.length_cons]; omega, List.mem_cons_of_mem _ hlast⟩
        · have := hfresh e hmem hsome
          omega
      · exact h entry (List.mem_append_right _ (List.mem_cons_of_mem _ hentry)) hne
  | opened _ hnew =>
    intro entry hentry hne
    rcases List.mem_append.mp hentry with hentry | hentry
    · exact h entry hentry hne
    · obtain rfl := List.mem_singleton.mp hentry
      exact ⟨Nat.le_refl _, List.mem_cons_self⟩

/-- A packet that opens its own entry. -/
theorem Regular.enqueue {now : Nat} {ip hop : UInt32} {p : QueuedPacket}
    {queue queue' : List ArpqEntry} (h : Regular queue)
    (hnew : ∀ entry ∈ queue, entry.arpqPackets ≠ [] → entry.arpqIp ≠ ip)
    (henq : Enqueued now ip hop p queue queue') : Regular queue' := by
  cases henq with
  | joined before after e lastReq numReqs hip hsome htouch =>
    exact absurd hip (hnew e (List.mem_append_right _ List.mem_cons_self) hsome)
  | opened _ _ =>
    intro entry hentry hne
    rcases List.mem_append.mp hentry with hentry | hentry
    · exact h entry hentry hne
    · obtain rfl := List.mem_singleton.mp hentry
      exact ⟨rfl, Nat.zero_le _, rfl, List.pairwise_singleton _ _⟩

/-- What a call does to the queue, for these invariants. -/
inductive QueueStep (sr : SrInstance) (s : RouterState) (e : Event) (queue : List ArpqEntry) :
    List ArpqEntry → Prop
  | fewer {queue' : List ArpqEntry} (hsub : queue'.Sublist queue) : QueueStep sr s e queue queue'
  | more {queue' : List ArpqEntry} (incoming outgoing : FrameT) (hop : UInt32) (p : QueuedPacket)
      (hacc : Accepted sr (e.arrival s.calls) incoming)
      (hupd : updateIpHdr sr incoming = .ok (outgoing, hop))
      (hmiss : arpCacheLookup (arpCacheFlush e.now s.cache) hop = none)
      (henq : Enqueued e.now outgoing.toIp hop p queue queue') : QueueStep sr s e queue queue'

theorem queue_cases {sr : SrInstance} {s s' : RouterState} {e : Event}
    (h : srHandlepacket sr s e.packet e.interface e.now = .ok s') :
    e.packet.length < etherHdrLen ∧ s'.queue = s.queue ∨
    etherHdrLen ≤ e.packet.length ∧
    ∃ queue flushed, arpQueueFlush sr e.now s.queue = .ok (queue, flushed) ∧
      QueueStep sr s e queue s'.queue := by
  rcases handlepacket_cases h with ⟨hshort, rfl⟩ | ⟨hlong, queue, flushed, hflush, hout⟩
  · exact Or.inl ⟨hshort, rfl⟩
  · refine Or.inr ⟨hlong, queue, flushed, hflush, ?_⟩
    cases hout with
    | answered extra hip hnot hextra => exact QueueStep.fewer (List.Sublist.refl _)
    | direct incoming outgoing sent hop incache iface hacc hupd hhit henc hiface =>
      exact QueueStep.fewer (List.Sublist.refl _)
    | queued incoming outgoing hop queue' request hacc hupd hmiss hreq henq =>
      exact QueueStep.more incoming outgoing hop _ hacc hupd hmiss henq
    | refreshed info entry extra hinfo hhit hextra =>
      exact QueueStep.fewer (List.Sublist.refl _)
    | overheard info hinfo hmiss htarget => exact QueueStep.fewer (List.Sublist.refl _)
    | learned info target sent extra hinfo hmiss htarget hsent hextra =>
      exact QueueStep.fewer List.eraseP_sublist

theorem counted_step {sr : SrInstance} {s s' : RouterState} {e : Event} (h : Counted s.queue)
    (hres : srHandlepacket sr s e.packet e.interface e.now = .ok s') : Counted s'.queue := by
  rcases queue_cases hres with ⟨-, hsame⟩ | ⟨-, queue, flushed, hflush, hstep⟩
  · rw [hsame]
    exact h
  · have hspec := arpQueueFlush_spec hflush
    have hflushed := h.flush hspec
    cases hstep with
    | fewer hsub => exact hflushed.sublist hsub
    | more incoming outgoing hop p hacc hupd hmiss henq =>
      exact hflushed.enqueue hspec.fresh henq

/-- A patient call keeps the count exact, in the flush and after it. -/
theorem regular_step {sr : SrInstance} {s s' : RouterState} {e : Event} (h : Regular s.queue)
    (hpat : Patient sr (some s) e) (hstep : step sr (some s) e = some s') :
    Regular s'.queue ∧ (etherHdrLen ≤ e.packet.length →
      ∀ queue sent, arpQueueFlush sr e.now s.queue = .ok (queue, sent) → Regular queue) := by
  obtain ⟨mid, hmid, hres⟩ := step_eq_some hstep
  obtain rfl := Option.some.inj hmid
  have hflushed : etherHdrLen ≤ e.packet.length →
      ∀ queue sent, arpQueueFlush sr e.now s.queue = .ok (queue, sent) → Regular queue := by
    intro hlong queue sent hflush
    exact h.flush (arpQueueFlush_spec hflush) (hpat s rfl (by rw [hstep]; rfl) hlong).2
  refine ⟨?_, hflushed⟩
  rcases queue_cases hres with ⟨-, hsame⟩ | ⟨hlong, queue, flushed, hflush, hqueue⟩
  · rw [hsame]
    exact h
  · have hjoin := (hpat s rfl (by rw [hstep]; rfl) hlong).1
    have hreg := hflushed hlong queue flushed hflush
    cases hqueue with
    | fewer hsub => exact hreg.sublist hsub
    | more incoming outgoing hop p hacc hupd hmiss henq =>
      refine hreg.enqueue ?_ henq
      intro entry' hmem hsome
      obtain ⟨entry, hentry, s₀, hfl⟩ := (arpQueueFlush_spec hflush).mem entry' hmem
      have hcore := hfl.core
      simp only [ArpqEntry.core, Prod.mk.injEq] at hcore
      rw [hcore.1]
      exact hjoin incoming outgoing hop hacc hupd hmiss entry hentry
        (by rw [← hcore.2.2]; exact hsome)

theorem moderated_of_patient {sr : SrInstance} {s : RouterState} {e : Event}
    (h : Regular s.queue) (hpat : Patient sr (some s) e) : Moderated sr (some s) e := by
  intro s₀ s' hs hstep
  obtain rfl := Option.some.inj hs
  obtain ⟨hafter, hduring⟩ := regular_step h hpat hstep
  refine ⟨hafter.moderate, fun hlong queue sent hflush =>
    (hduring hlong queue sent hflush).moderate, ?_⟩
  intro entry hmem hsome _ hmany
  obtain ⟨-, hnum, -⟩ := h entry hmem hsome
  have := UInt8.le_iff_toNat_le.mp hmany
  have : arpMaxReq.toNat = 5 := rfl
  omega

theorem patient_of_moderated {sr : SrInstance} {s : RouterState} {e : Event}
    (hcount : Counted s.queue) (hmod : AllModerate s.queue) (h : Moderated sr (some s) e) :
    Patient sr (some s) e := by
  intro s₀ hs hsome hlong
  obtain rfl := Option.some.inj hs
  obtain ⟨s', hstep⟩ := Option.isSome_iff_exists.mp hsome
  obtain ⟨hafter, hduring, -⟩ := h s s' rfl hstep
  obtain ⟨mid, hmid, hres⟩ := step_eq_some hstep
  obtain rfl := Option.some.inj hmid
  have hfive : arpMaxReq.toNat = 5 := rfl
  rcases handlepacket_cases hres with ⟨hshort, -⟩ | ⟨-, queue, flushed, hflush, hout⟩
  · omega
  · have hspec := arpQueueFlush_spec hflush
    have hduring := hduring hlong queue flushed hflush
    -- nothing that holds packets is given up
    have hkept : ∀ entry ∈ s.queue, entry.arpqPackets ≠ [] →
        ∃ entry' sent, Flushed e.now entry (some entry') sent ∧ entry' ∈ queue := by
      intro entry hmem hne
      obtain ⟨kept, sent, hfl, hin⟩ := hspec.mem_of entry hmem
      cases hfl with
      | kept hidle => exact ⟨entry, [], Flushed.kept hidle, hin entry rfl⟩
      | asked sent hpackets hlate hfew hsent =>
        exact ⟨_, _, Flushed.asked sent hpackets hlate hfew hsent, hin _ rfl⟩
      | givenUp sent hlate hmany hsent =>
        have hle := (hmod entry hmem hne).1
        have hlen := (hcount entry hmem hne).1
        have := UInt8.le_iff_toNat_le.mp hmany
        omega
    constructor
    · intro incoming outgoing hop hacc hupd hmiss entry hmem hne hip
      obtain ⟨entry', sent, hfl, hin⟩ := hkept entry hmem hne
      have hcore := hfl.core
      simp only [ArpqEntry.core, Prod.mk.injEq] at hcore
      cases hout with
      | answered extra hip hnot hextra => exact hnot incoming hacc
      | direct incoming' outgoing' sent hop' incache iface hacc' hupd' hhit henc hiface =>
        obtain rfl := hacc.unique hacc'
        rw [hupd] at hupd'
        obtain ⟨rfl, rfl⟩ := Prod.mk.inj (Except.ok.inj hupd')
        rw [hmiss] at hhit
        cases hhit
      | queued incoming' outgoing' hop' queue' request hacc' hupd' hmiss' hreq henq =>
        obtain rfl := hacc.unique hacc'
        rw [hupd] at hupd'
        obtain ⟨rfl, rfl⟩ := Prod.mk.inj (Except.ok.inj hupd')
        cases henq with
        | opened _ hnew => exact hnew entry' hin (hcore.1.trans hip)
        | joined before after joined lastReq numReqs hip' hsome' htouch =>
          -- the packet's request follows one of the last second
          have hold : joined ∈ before ++ joined :: after :=
            List.mem_append_right _ List.mem_cons_self
          have hlast := (hcount.flush hspec joined hold hsome').2
          have hfresh := hspec.fresh joined hold hsome'
          have hgap := (hafter _ (List.mem_append_right _ List.mem_cons_self) (by simp)).2
          have := (List.pairwise_cons.mp hgap).1 _ hlast
          have : arpRequestTimeout = 1 := rfl
          have : (e.arrival s.calls).now = e.now := rfl
          omega
      | refreshed info entry extra hinfo hhit hextra =>
        have hnone : arpInfo e.packet = none := arpInfo_of_ip hacc.spec.1
        rw [show arpInfo e.packet = some info from hinfo] at hnone
        cases hnone
      | overheard info hinfo hmiss htarget =>
        have hnone : arpInfo e.packet = none := arpInfo_of_ip hacc.spec.1
        rw [show arpInfo e.packet = some info from hinfo] at hnone
        cases hnone
      | learned info target sent extra hinfo hmiss htarget hsent hextra =>
        have hnone : arpInfo e.packet = none := arpInfo_of_ip hacc.spec.1
        rw [show arpInfo e.packet = some info from hinfo] at hnone
        cases hnone
    · intro entry hmem hne hlate
      obtain ⟨entry', sent, hfl, hin⟩ := hkept entry hmem hne
      have hlen := (hcount entry hmem hne).1
      cases hfl with
      | kept hidle =>
        have := hidle hne
        omega
      | asked sent hpackets hlate hfew hsent =>
        have hle := (hduring _ hin hpackets).1
        simp only [List.length_cons] at hle
        omega

/-- **No entry is asked for too often or too fast in exactly the runs in which
no packet joins an entry and none waits for its sixth request.** -/
theorem moderated_iff (sr : SrInstance) (evs : List Event) :
    Along (step sr) (Moderated sr) (some (srInit sr)) evs ↔
      Along (step sr) (Patient sr) (some (srInit sr)) evs := by
  have hempty : ∀ entry ∈ (srInit sr).queue, entry.arpqPackets = [] := by simp [srInit]
  constructor
  · intro hmod
    apply along_of_invariant
      (fun st => ∀ s, st = some s → Counted s.queue ∧ AllModerate s.queue) ?_ ?_ hmod ?_
    · intro st e hok hst s' hs'
      obtain ⟨s, rfl, hres⟩ := step_eq_some hs'
      exact ⟨counted_step (hst s rfl).1 hres, (hok s s' rfl hs').1⟩
    · intro st e hok hst
      cases st with
      | none => intro s hs; cases hs
      | some s => exact patient_of_moderated (hst s rfl).1 (hst s rfl).2 hok
    · intro s hs
      obtain rfl := Option.some.inj hs
      exact ⟨fun entry hmem hne => absurd (hempty entry hmem) hne,
        fun entry hmem hne => absurd (hempty entry hmem) hne⟩
  · intro hpat
    apply along_of_invariant (fun st => ∀ s, st = some s → Regular s.queue) ?_ ?_ hpat ?_
    · intro st e hok hst s' hs'
      obtain ⟨s, rfl, hres⟩ := step_eq_some hs'
      exact (regular_step (hst s rfl) hok hs').1
    · intro st e hok hst
      cases st with
      | none => intro s s' hs; cases hs
      | some s => exact moderated_of_patient (hst s rfl) hok
    · intro s hs
      obtain rfl := Option.some.inj hs
      exact fun entry hmem hne => absurd (hempty entry hmem) hne

/-- Two datagrams for one host in the same second are two requests for it. -/
theorem burst_asks_twice :
    ((run (step gatewayRouter) (some (srInit gatewayRouter))
      [{ packet := datagramTo 5 196, interface := [0x65], now := 100 },
       { packet := datagramTo 5 196, interface := [0x65], now := 100 }]).map fun st =>
        st.queue.map ArpqEntry.requests) = some [[], [100, 100]] ∧
    ¬ Along (step gatewayRouter) (Moderated gatewayRouter) (some (srInit gatewayRouter))
      [{ packet := datagramTo 5 196, interface := [0x65], now := 100 },
       { packet := datagramTo 5 196, interface := [0x65], now := 100 }] := by
  have hreq : ((run (step gatewayRouter) (some (srInit gatewayRouter))
      [{ packet := datagramTo 5 196, interface := [0x65], now := 100 },
       { packet := datagramTo 5 196, interface := [0x65], now := 100 }]).map fun st =>
        st.queue.map fun entry => (entry.requests, entry.arpqPackets.isEmpty))
      = some [([], true), ([100, 100], false)] := by decide +kernel
  obtain ⟨st', hst', hqueue⟩ := Option.map_eq_some_iff.mp hreq
  have hpairs : st'.queue.map ArpqEntry.requests = [[], [100, 100]] := by
    have := congrArg (List.map Prod.fst) hqueue
    rwa [List.map_map] at this
  refine ⟨by rw [hst', Option.map_some, hpairs], fun hal => ?_⟩
  obtain ⟨-, hlast, -⟩ := hal
  simp only [run_cons, run_nil] at hst'
  obtain ⟨st, hst, -⟩ := step_eq_some hst'
  have hmem : ([100, 100], false) ∈ st'.queue.map fun entry =>
      (entry.requests, entry.arpqPackets.isEmpty) := by
    rw [hqueue]
    simp
  obtain ⟨entry, hentry, heq⟩ := List.mem_map.mp hmem
  obtain ⟨hrequests, hpackets⟩ := Prod.mk.inj heq
  have := ((hlast st st' hst hst').1 entry hentry (by simpa using hpackets)).2
  rw [hrequests] at this
  exact absurd this (by decide)

end UchiNetworks.Router
