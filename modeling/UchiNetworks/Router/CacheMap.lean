import UchiNetworks.Lib.TimedMap
import UchiNetworks.Router.Memory
import UchiNetworks.Router.Invariant

/-!
# The ARP cache is a map with expiry

Two steps down from a timed map of hardware addresses to the pointers of
`struct arp_cache`. `Keeps` relates the map to the cache as a list
(`Router.Arp`), `Stores` relates that list to the nodes in memory; each function
on the cache keeps both relations. `cache_refines_map` puts them together over a
run: the links always form one list, with one entry per address, and what
`arp_cache_lookup` finds after `arp_cache_flush` is what the last accepted ARP
packet of that address said, if it is young enough.
-/

namespace UchiNetworks.Router.Memory

open UchiNetworks.Lib

/-! ## The list in memory -/

/-- The cache in memory is the list `xs`. -/
def Stores (cache : ArpCache) (xs : List ArpcEntry) : Prop :=
  ∃ cells, cache.Holds cells ∧ cells.map Prod.snd = xs

theorem Stores.lookup {cache : ArpCache} {xs : List ArpcEntry} (h : Stores cache xs)
    (ip : UInt32) :
    (arpCacheLookup cache ip = .ok none ∧ Router.arpCacheLookup xs ip = none) ∨
    ∃ entry e, arpCacheLookup cache ip = .ok (some entry) ∧ cache.value entry = some e ∧
      Router.arpCacheLookup xs ip = some e := by
  obtain ⟨cells, hholds, rfl⟩ := h
  have hlist : Router.arpCacheLookup (cells.map Prod.snd) ip =
      (cells.find? fun c => c.2.arpcIp == ip).map Prod.snd := List.find?_map
  rw [arpCacheLookup, hholds.find, hlist]
  cases hfind : cells.find? fun c => c.2.arpcIp == ip with
  | none => exact Or.inl ⟨rfl, rfl⟩
  | some c =>
    exact Or.inr ⟨c.1, c.2, rfl, hholds.values c (List.mem_of_find?_eq_some hfind), rfl⟩

/-- The flush, when the clock stands still. -/
theorem flushCacheFrom_spec {clock : Nat → Nat} {now : Nat} (hclock : ∀ i, clock i = now)
    {fuel : Nat} {cache : ArpCache} {l r : List (Nat × ArpcEntry)} (i : Nat)
    (h : cache.Holds (l ++ r)) (hfuel : r.length < fuel) :
    ∃ cache' i', flushCacheFrom clock fuel cache (r.map Prod.fst).head? i = .ok (cache', i') ∧
      cache'.Holds (l ++ r.filter fun c => c.2.arpcTimeout == 0 || decide (now ≤ c.2.arpcTimeout)) := by
  induction r generalizing l fuel cache i with
  | nil =>
    obtain ⟨fuel, rfl⟩ : ∃ n, fuel = n + 1 := ⟨fuel - 1, by simp at hfuel; omega⟩
    exact ⟨cache, i, rfl, h⟩
  | cons c r ih =>
    obtain ⟨fuel, rfl⟩ : ∃ n, fuel = n + 1 := ⟨fuel - 1, by simp at hfuel; omega⟩
    replace hfuel : r.length < fuel := by simpa using hfuel
    obtain ⟨p, e⟩ := c
    obtain ⟨node, hnode, rfl, -, hnext⟩ := h.node
    -- the entry stays
    have hstays : ∀ j, ∃ cache' i',
        flushCacheFrom clock fuel cache node.next j = .ok (cache', i') ∧
        cache'.Holds (l ++ (p, node.val) ::
          r.filter fun c => c.2.arpcTimeout == 0 || decide (now ≤ c.2.arpcTimeout)) := by
      intro j
      obtain ⟨cache', i', hflush, hholds⟩ :=
        ih (l := l ++ [(p, node.val)]) j (by simpa using h) hfuel
      rw [← hnext] at hflush
      exact ⟨cache', i', hflush, by simpa using hholds⟩
    simp only [List.map_cons, List.head?_cons, flushCacheFrom, hnode, getOr_some, ok_bind]
    by_cases hzero : node.val.arpcTimeout = 0
    · rw [if_pos hzero, List.filter_cons_of_pos (by simp [hzero])]
      exact hstays i
    · rw [if_neg hzero, hclock]
      by_cases hold : now > node.val.arpcTimeout
      · -- it is unlinked and freed
        rw [if_pos hold, List.filter_cons_of_neg (by simp [hzero]; omega)]
        obtain ⟨cache₁, hunlink, hre, hholds₁, hnext₁⟩ := h.unlink
        obtain ⟨node₁, hnode₁, hnode₁next⟩ := Option.map_eq_some_iff.mp hnext₁
        have hout : p ∉ (l ++ r).map Prod.fst := by
          intro hmem
          obtain ⟨c, hc, heq⟩ := List.mem_map.mp hmem
          exact DList.fst_ne_of_nodup h.linked.nodup hc heq
        obtain ⟨cache₂, hfree, -, hholds₂⟩ := hholds₁.free
          ((hre.value p).trans h.value) hout
        obtain ⟨cache', i', hflush, hholds⟩ := ih (i + 1) hholds₂ hfuel
        refine ⟨cache', i', ?_, hholds⟩
        simp only [hunlink, hnode₁, hfree, getOr_some, ok_bind, hnode₁next]
        exact hflush
      · rw [if_neg hold, List.filter_cons_of_pos (by simp; omega)]
        exact hstays (i + 1)

theorem Stores.flush {cache : ArpCache} {xs : List ArpcEntry} (h : Stores cache xs)
    {clock : Nat → Nat} {now : Nat} (hclock : ∀ i, clock i = now) (i : Nat) :
    ∃ cache' i', arpCacheFlush clock cache i = .ok (cache', i') ∧
      Stores cache' (Router.arpCacheFlush now xs) := by
  obtain ⟨cells, hholds, rfl⟩ := h
  have hlen : cells.length ≤ cache.heap.fresh := by
    have := hholds.linked.length_le
    rwa [List.length_map] at this
  obtain ⟨cache', i', hflush, hholds'⟩ := @flushCacheFrom_spec clock now hclock
    (cache.heap.fresh + 1) cache [] cells i hholds (Nat.lt_succ_of_le hlen)
  refine ⟨cache', i', ?_, _, hholds', ?_⟩
  · rw [arpCacheFlush, hholds.linked.first_eq]
    exact hflush
  · rw [List.nil_append, Router.arpCacheFlush, List.filter_map]
    rfl

theorem replaceFirst_append {α : Type} {test : α → Bool} {f : α → α} {x : α} {as bs : List α}
    (hbefore : ∀ a ∈ as, test a = false) (hx : test x = true) :
    replaceFirst test f (as ++ x :: bs) = as ++ f x :: bs := by
  induction as with
  | nil => rw [List.nil_append, replaceFirst, if_pos hx, List.nil_append]
  | cons a as ih =>
    rw [List.cons_append, replaceFirst, if_neg (by rw [hbefore a List.mem_cons_self]; simp),
      ih fun b hb => hbefore b (List.mem_cons_of_mem _ hb), List.cons_append]

theorem Stores.update {cache : ArpCache} {xs : List ArpcEntry} (h : Stores cache xs)
    {ip : UInt32} {entry : Nat} (hfound : arpCacheLookup cache ip = .ok (some entry)) (mac : Mac)
    (now : Nat) :
    ∃ cache', arpCacheUpdate cache entry mac now = .ok cache' ∧
      Stores cache' (Router.arpCacheUpdate xs ip mac now) := by
  obtain ⟨cells, hholds, rfl⟩ := h
  rw [arpCacheLookup, hholds.find] at hfound
  obtain ⟨c, hfind, rfl⟩ := Option.map_eq_some_iff.mp (Except.ok.inj hfound)
  obtain ⟨hip, l, r, rfl, hbefore⟩ := List.find?_eq_some_iff_append.mp hfind
  obtain ⟨p, e⟩ := c
  obtain ⟨node, hnode, rfl, -, -⟩ := hholds.node
  obtain ⟨cache', hset, -, hholds'⟩ := hholds.setValue
    { node.val with arpcMac := mac, arpcTimeout := now + arpCacheTimeout }
  refine ⟨cache', ?_, _, hholds', ?_⟩
  · simp only [arpCacheUpdate, hnode, getOr_some, ok_bind, hset]
  · have hlist : ∀ a ∈ l.map Prod.snd, (a.arpcIp == ip) = false := by
      intro a ha
      obtain ⟨c, hc, rfl⟩ := List.mem_map.mp ha
      simpa using hbefore c hc
    rw [List.map_append, List.map_append, List.map_cons, List.map_cons, Router.arpCacheUpdate]
    exact (replaceFirst_append (f := fun entry : ArpcEntry =>
      { entry with arpcMac := mac, arpcTimeout := now + arpCacheTimeout }) hlist hip).symm

theorem Stores.add {cache : ArpCache} {xs : List ArpcEntry} (h : Stores cache xs)
    (mac : Mac) (ip : UInt32) (now : Nat) :
    ∃ cache', arpCacheAdd cache mac ip now = .ok cache' ∧
      Stores cache' (Router.arpCacheAdd xs mac ip now) := by
  obtain ⟨cells, hholds, rfl⟩ := h
  obtain ⟨cache', hlink, hholds'⟩ := hholds.append
    { arpcIp := ip, arpcMac := mac, arpcTimeout := now + arpCacheTimeout }
  refine ⟨cache', by rw [arpCacheAdd, hlink, getOr_some], _, hholds', ?_⟩
  rw [List.map_append, Router.arpCacheAdd]
  rfl

/-! ## The list and the map -/

/-- The entry that keeps what came in under an address. -/
def entryFor (ip : UInt32) (kept : Mac × Nat) : ArpcEntry :=
  { arpcIp := ip, arpcMac := kept.1, arpcTimeout := kept.2 + arpCacheTimeout }

/-- The cache has at most one entry for an address, and but for the placeholder's
address they are those of the map. -/
structure Keeps (xs : List ArpcEntry) (m : TimedMap UInt32 Mac) : Prop where
  distinct : (xs.map ArpcEntry.arpcIp).Nodup
  found : ∀ ip, ip ≠ 0 → Router.arpCacheLookup xs ip = (m ip).map (entryFor ip)

theorem arpCacheLookup_filter {xs : List ArpcEntry} (h : (xs.map ArpcEntry.arpcIp).Nodup)
    (keep : ArpcEntry → Bool) (ip : UInt32) :
    Router.arpCacheLookup (xs.filter keep) ip = (Router.arpCacheLookup xs ip).filter keep := by
  induction xs with
  | nil => rfl
  | cons x xs ih =>
    rw [List.map_cons, List.nodup_cons] at h
    have ih := ih h.2
    simp only [Router.arpCacheLookup] at ih ⊢
    by_cases hip : x.arpcIp = ip
    · rw [List.find?_cons_of_pos (by simpa using hip)]
      by_cases hkeep : keep x = true
      · rw [List.filter_cons_of_pos hkeep, List.find?_cons_of_pos (by simpa using hip),
          Option.filter_some_pos hkeep]
      · -- no other entry has this address
        rw [List.filter_cons_of_neg hkeep, Option.filter_some_neg (Bool.eq_false_iff.mpr hkeep),
          List.find?_eq_none]
        intro y hy
        have hmem : y.arpcIp ∈ xs.map ArpcEntry.arpcIp :=
          List.mem_map_of_mem (List.mem_of_mem_filter hy)
        intro heq
        exact h.1 (hip.trans (beq_iff_eq.mp heq).symm ▸ hmem)
    · rw [List.find?_cons_of_neg (by simpa using hip)]
      by_cases hkeep : keep x = true
      · rw [List.filter_cons_of_pos hkeep, List.find?_cons_of_neg (by simpa using hip), ih]
      · rw [List.filter_cons_of_neg hkeep, ih]

theorem Keeps.flush {xs : List ArpcEntry} {m : TimedMap UInt32 Mac} (h : Keeps xs m)
    (now : Nat) : Keeps (Router.arpCacheFlush now xs) (m.expire arpCacheTimeout now) := by
  refine ⟨h.distinct.sublist (List.filter_sublist.map _), ?_⟩
  intro ip hip
  rw [Router.arpCacheFlush, arpCacheLookup_filter h.distinct, h.found ip hip, TimedMap.expire]
  cases m ip with
  | none => rfl
  | some kept =>
    -- an entry that was put never has the placeholder's timeout
    have hpos : arpCacheTimeout ≠ 0 := by
      simp [arpCacheTimeout]
    by_cases hlive : now ≤ kept.2 + arpCacheTimeout
    · simp [Option.filter_some, entryFor, hlive]
    · simp [Option.filter_some, entryFor, hlive, hpos]

theorem Keeps.add {xs : List ArpcEntry} {m : TimedMap UInt32 Mac} (h : Keeps xs m)
    {ip : UInt32} (hmiss : Router.arpCacheLookup xs ip = none) (mac : Mac) (now : Nat) :
    Keeps (Router.arpCacheAdd xs mac ip now) (m.put ip mac now) := by
  have hnew : ∀ x ∈ xs, x.arpcIp ≠ ip := by
    intro x hx heq
    exact absurd (beq_iff_eq.mpr heq) (List.find?_eq_none.mp hmiss x hx)
  refine ⟨?_, ?_⟩
  · rw [Router.arpCacheAdd, List.map_append, List.map_singleton, List.nodup_append]
    refine ⟨h.distinct, List.nodup_singleton _, ?_⟩
    intro a ha b hb heq
    obtain ⟨x, hx, rfl⟩ := List.mem_map.mp ha
    exact hnew x hx (heq.trans (List.mem_singleton.mp hb))
  · intro ip' hip'
    rw [TimedMap.put_apply, Router.arpCacheAdd, Router.arpCacheLookup, List.find?_append]
    by_cases hsame : ip' = ip
    · rw [hsame, show xs.find? _ = none from hmiss, if_pos rfl]
      simp [entryFor]
    · rw [if_neg hsame, show xs.find? _ = _ from h.found ip' hip']
      simp [Ne.symm hsame]

theorem arpCacheUpdate_eq {xs : List ArpcEntry} (h : (xs.map ArpcEntry.arpcIp).Nodup)
    (ip : UInt32) (mac : Mac) (now : Nat) :
    Router.arpCacheUpdate xs ip mac now =
      xs.map fun x => if x.arpcIp = ip then entryFor ip (mac, now) else x := by
  induction xs with
  | nil => rfl
  | cons x xs ih =>
    rw [List.map_cons, List.nodup_cons] at h
    simp only [Router.arpCacheUpdate] at ih
    rw [Router.arpCacheUpdate, replaceFirst, List.map_cons]
    by_cases hip : x.arpcIp = ip
    · rw [if_pos (beq_iff_eq.mpr hip), if_pos hip]
      have hrest : xs.map (fun x => if x.arpcIp = ip then entryFor ip (mac, now) else x) = xs := by
        rw [List.map_congr_left (g := id), List.map_id]
        intro y hy
        apply if_neg
        intro heq
        exact h.1 (hip.trans heq.symm ▸ List.mem_map_of_mem hy)
      rw [hrest, entryFor, ← hip]
    · rw [if_neg (by simpa using hip), if_neg hip, ih h.2]

theorem Keeps.update {xs : List ArpcEntry} {m : TimedMap UInt32 Mac} (h : Keeps xs m)
    {ip : UInt32} {e : ArpcEntry} (hhit : Router.arpCacheLookup xs ip = some e) (mac : Mac)
    (now : Nat) : Keeps (Router.arpCacheUpdate xs ip mac now) (m.put ip mac now) := by
  have hip : ∀ x : ArpcEntry,
      (if x.arpcIp = ip then entryFor ip (mac, now) else x).arpcIp = x.arpcIp := by
    intro x
    by_cases hx : x.arpcIp = ip
    · rw [if_pos hx, hx, entryFor]
    · rw [if_neg hx]
  rw [arpCacheUpdate_eq h.distinct]
  refine ⟨?_, ?_⟩
  · have hcomp : ArpcEntry.arpcIp ∘ (fun x => if x.arpcIp = ip then entryFor ip (mac, now) else x) =
        ArpcEntry.arpcIp := funext hip
    rw [List.map_map, hcomp]
    exact h.distinct
  · intro ip' hip'
    have hlist : Router.arpCacheLookup
        (xs.map fun x => if x.arpcIp = ip then entryFor ip (mac, now) else x) ip' =
        (Router.arpCacheLookup xs ip').map
          fun x => if x.arpcIp = ip then entryFor ip (mac, now) else x := by
      rw [Router.arpCacheLookup, List.find?_map, Router.arpCacheLookup]
      congr 2
      funext x
      show (_ == ip') = (x.arpcIp == ip')
      rw [hip]
    rw [hlist, TimedMap.put_apply]
    by_cases hsame : ip' = ip
    · have he : e.arpcIp = ip := by simpa using List.find?_some hhit
      rw [hsame, hhit, if_pos rfl, Option.map_some, if_pos he, Option.map_some]
    · rw [if_neg hsame, h.found ip' hip', Option.map_map]
      congr 1
      funext kept
      exact if_neg hsame

/-! ## What a call does to the cache -/

/-- The four things that happen to the flushed cache. -/
inductive CacheOutcome (sr : SrInstance) (packet : Bytes) (now : Nat) (cache cache' : ArpCache) :
    Prop
  | other (hnot : arpInfo packet = none) (hcache : cache' = cache)
  | refreshed (info : ArpInfo) (entry : Nat) (hinfo : arpInfo packet = some info)
      (hhit : arpCacheLookup cache info.sip = .ok (some entry))
      (hcache : arpCacheUpdate cache entry info.sha now = .ok cache')
  | overheard (info : ArpInfo) (hinfo : arpInfo packet = some info)
      (hmiss : arpCacheLookup cache info.sip = .ok none)
      (htarget : ifDstCheck sr info.tip = .ok none) (hcache : cache' = cache)
  | learned (info : ArpInfo) (target : SrIf) (hinfo : arpInfo packet = some info)
      (hmiss : arpCacheLookup cache info.sip = .ok none)
      (htarget : ifDstCheck sr info.tip = .ok (some target))
      (hcache : arpCacheAdd cache info.sha info.sip now = .ok cache')

theorem learnSender_cache {cache cache' : ArpCache} {queue queue' : ArpQueue} {sip : UInt32}
    {sha : Mac} {now : Nat} {sent : List Sent}
    (h : learnSender cache queue sip sha now = .ok (cache', queue', sent)) :
    arpCacheAdd cache sha sip now = .ok cache' := by
  simp only [learnSender, bind_ok] at h
  obtain ⟨added, hadd, found, -, h⟩ := h
  cases found with
  | none =>
    simp only [Except.ok.injEq, Prod.mk.injEq] at h
    rw [hadd, h.1]
  | some newEnt =>
    simp only [bind_ok, Except.ok.injEq, Prod.mk.injEq] at h
    obtain ⟨-, -, rfl, -⟩ := h
    exact hadd

theorem handleArp_cache {sr : SrInstance} {packet : Bytes} {cache cache' : ArpCache}
    {queue queue' : ArpQueue} {now : Nat} {incoming : FrameT} {sent : List Sent}
    (hlen : etherHdrLen ≤ packet.length) (hframe : incoming.frame = packet)
    (htype : readBe16 packet 12 = some etherTypeARP)
    (h : handleArp sr cache queue now incoming = .ok (cache', queue', sent)) :
    CacheOutcome sr packet now cache cache' := by
  simp only [handleArp, hframe, bind_ok, getOr_ok] at h
  obtain ⟨sha, hsha, sip, hsip, tip, htip, op, -, found, hfound, h⟩ := h
  have hinfo : arpInfo packet = some { sip := sip, sha := sha, tip := tip } := by
    simp only [arpInfo, htype, hsha, hsip, htip, Option.bind_eq_bind, Option.bind_some]
    rw [if_neg (by simp; omega)]
  cases found with
  | some entry =>
    simp only [bind_ok] at h
    obtain ⟨updated, hupdate, target, -, h⟩ := h
    have hsame : updated = cache' := by
      cases target with
      | none =>
        simp only [Except.ok.injEq, Prod.mk.injEq] at h
        exact h.1
      | some target =>
        simp only [bind_ok, Except.ok.injEq, Prod.mk.injEq] at h
        obtain ⟨-, -, hcache, -⟩ := h
        exact hcache
    exact CacheOutcome.refreshed _ entry hinfo hfound (hsame ▸ hupdate)
  | none =>
    simp only [bind_ok] at h
    obtain ⟨target, htarget, h⟩ := h
    cases target with
    | none =>
      simp only [Except.ok.injEq, Prod.mk.injEq] at h
      exact CacheOutcome.overheard _ hinfo hfound htarget h.1.symm
    | some target =>
      simp only [bind_ok, Except.ok.injEq, Prod.mk.injEq] at h
      obtain ⟨⟨added, q, released⟩, hlearn, -, -, hcache, -⟩ := h
      obtain rfl : added = cache' := hcache
      exact CacheOutcome.learned _ target hinfo hfound htarget (learnSender_cache hlearn)

theorem handlepacket_cache {sr : SrInstance} {mem mem' : RouterMemory} {c : Call}
    (h : srHandlepacket sr mem c = .ok mem') :
    (c.packet.length < etherHdrLen ∧ mem'.cache = mem.cache) ∨
    ∃ cache i j, arpCacheFlush c.clock mem.cache 0 = .ok (cache, i) ∧
      CacheOutcome sr c.packet (c.clock j) cache mem'.cache := by
  simp only [srHandlepacket] at h
  by_cases hshort : c.packet.length < etherHdrLen
  · rw [if_pos hshort] at h
    obtain rfl := Except.ok.inj h
    exact Or.inl ⟨hshort, rfl⟩
  · rw [if_neg hshort] at h
    simp only [bind_ok, getOr_ok] at h
    obtain ⟨created, hcreated, ⟨cache, i⟩, hflush, ⟨queue, flushed, j⟩, -, incoming, rfl, h⟩ := h
    refine Or.inr ⟨cache, i, j, hflush, ?_⟩
    cases createFrameT_spec hcreated with
    | ip hframe htype hip hiface hdst =>
      rw [if_pos (by rw [hip]; rfl)] at h
      simp only [bind_ok, Except.ok.injEq] at h
      obtain ⟨-, -, rfl⟩ := h
      exact CacheOutcome.other (arpInfo_of_ip htype) rfl
    | arp hframe htype hip hiface =>
      rw [if_neg (by rw [hip]; simp)] at h
      simp only [bind_ok, Except.ok.injEq] at h
      obtain ⟨⟨cache', queue', sent⟩, harp, rfl⟩ := h
      exact handleArp_cache (Nat.not_lt.mp hshort) hframe htype harp

/-! ## Runs with one reading of the clock per packet -/

/-- Every `time(NULL)` of the call gives the time of the packet. -/
def steadyCall (e : Event) : Call :=
  { packet := e.packet, interface := e.interface, clock := fun _ => e.now }

def steadyStep (sr : SrInstance) (mem : Option RouterMemory) (e : Event) : Option RouterMemory :=
  step sr mem (steadyCall e)

/-- `arp_cache_flush` at a time and then `arp_cache_lookup`: the MAC it gives. -/
def lookupAt (cache : ArpCache) (now : Nat) (ip : UInt32) : Res (Option Mac) := do
  let (cache, _) ← arpCacheFlush (fun _ => now) cache 0
  match ← arpCacheLookup cache ip with
  | none => .ok none
  | some entry =>
    let entry ← getOr .freed (cache.value entry)
    .ok (some entry.arpcMac)

/-- An ARP packet is accepted from a sender that is in the cache at that moment,
or when it is for one of our addresses. -/
def accepted (sr : SrInstance) (mem : RouterMemory) (e : Event) : Option (Stamped UInt32 Mac) := do
  let info ← arpInfo e.packet
  let cached := (lookupAt mem.cache e.now info.sip).toOption.join.isSome
  let forUs := (ifDstCheck sr info.tip).toOption.join.isSome
  if cached || forUs then some { key := info.sip, value := info.sha, time := e.now } else none

/-- What is accepted in a run. -/
def acceptedIn (sr : SrInstance) : Option RouterMemory → List Event → List (Stamped UInt32 Mac)
  | _, [] => []
  | mem, e :: evs =>
    (mem.bind fun mem => accepted sr mem e).toList ++ acceptedIn sr (steadyStep sr mem e) evs

theorem acceptedIn_append (sr : SrInstance) (mem : Option RouterMemory) (evs : List Event)
    (e : Event) :
    acceptedIn sr mem (evs ++ [e]) = acceptedIn sr mem evs ++
      ((run (steadyStep sr) mem evs).bind fun mem => accepted sr mem e).toList := by
  induction evs generalizing mem with
  | nil => simp [acceptedIn]
  | cons d evs ih => rw [List.cons_append, acceptedIn, ih, acceptedIn, run_cons, List.append_assoc]

/-- The cache in memory is the map of what was accepted, as it was at the last
flush, `t`. -/
def CacheInv (mem : RouterMemory) (log : List (Stamped UInt32 Mac)) (now : Nat) : Prop :=
  ∃ t xs, t ≤ now ∧ Stores mem.cache xs ∧ Keeps xs (TimedMap.ofLog arpCacheTimeout t log)

theorem cacheInv_init (sr : SrInstance) (now : Nat) : CacheInv (srInit sr) [] now := by
  refine ⟨0, [{ arpcIp := 0, arpcMac := broadcast, arpcTimeout := 0 }], Nat.zero_le _,
    ⟨_, DList.holds_singleton rfl rfl rfl, rfl⟩, ?_, ?_⟩
  · simp
  · intro ip hip
    rw [Router.arpCacheLookup, List.find?_cons_of_neg (by simpa using Ne.symm hip)]
    rfl

/-- After a flush the lookup reads the map. -/
theorem CacheInv.lookupAt {mem : RouterMemory} {log : List (Stamped UInt32 Mac)} {now : Nat}
    (h : CacheInv mem log now) {ip : UInt32} (hip : ip ≠ 0) :
    lookupAt mem.cache now ip =
      .ok ((TimedMap.ofLog arpCacheTimeout now log ip).map Prod.fst) := by
  obtain ⟨t, xs, ht, hstores, hkeeps⟩ := h
  obtain ⟨cache, i, hflush, hstores⟩ :=
    @Stores.flush _ _ hstores (fun _ => now) now (fun _ => rfl) 0
  have hkeeps := hkeeps.flush now
  rw [TimedMap.expire_ofLog ht] at hkeeps
  have hfound := hkeeps.found ip hip
  simp only [Memory.lookupAt, hflush, ok_bind]
  rcases hstores.lookup ip with ⟨hlook, hnone⟩ | ⟨entry, e, hlook, hvalue, hsome⟩
  · rw [hnone] at hfound
    rw [hlook, Option.map_eq_none_iff.mp hfound.symm]
    rfl
  · rw [hsome] at hfound
    obtain ⟨kept, hkept, rfl⟩ := Option.map_eq_some_iff.mp hfound.symm
    simp only [hlook, hvalue, hkept, ok_bind, getOr_some, Option.map_some, entryFor]

theorem CacheInv.later {mem : RouterMemory} {log : List (Stamped UInt32 Mac)} {now now' : Nat}
    (h : CacheInv mem log now) (hle : now ≤ now') : CacheInv mem log now' := by
  obtain ⟨t, xs, ht, hstores, hkeeps⟩ := h
  exact ⟨t, xs, Nat.le_trans ht hle, hstores, hkeeps⟩

/-- What the lookup before the flush decides about acceptance. -/
theorem lookupAt_of_flush {cache flushed : ArpCache} {now i : Nat}
    (hflush : arpCacheFlush (fun _ => now) cache 0 = .ok (flushed, i)) (ip : UInt32) :
    lookupAt cache now ip = (do
      match ← arpCacheLookup flushed ip with
      | none => .ok none
      | some entry =>
        let entry ← getOr .freed (flushed.value entry)
        .ok (some entry.arpcMac)) := by
  rw [Memory.lookupAt, hflush, ok_bind]

theorem CacheInv.step {sr : SrInstance} {mem mem' : RouterMemory}
    {log : List (Stamped UInt32 Mac)} {e : Event} (h : CacheInv mem log e.now)
    (hstep : srHandlepacket sr mem (steadyCall e) = .ok mem') :
    CacheInv mem' (log ++ (accepted sr mem e).toList) e.now := by
  obtain ⟨t, xs, ht, hstores, hkeeps⟩ := h
  rcases handlepacket_cache hstep with ⟨hshort, hcache⟩ | ⟨cache, i, j, hflush, hout⟩
  · have hnone : arpInfo e.packet = none := arpInfo_of_short hshort
    have hacc : accepted sr mem e = none := by
      simp [accepted, hnone]
    rw [hacc, Option.toList_none, List.append_nil]
    exact ⟨t, xs, ht, hcache ▸ hstores, hkeeps⟩
  · -- the flushed cache is the map at the time of the packet
    obtain ⟨cache', i', hflush', hstores⟩ :=
      @Stores.flush _ _ hstores (fun _ => e.now) e.now (fun _ => rfl) 0
    obtain ⟨rfl, -⟩ : cache' = cache ∧ i' = i :=
      Prod.mk.inj (Except.ok.inj (hflush'.symm.trans hflush))
    have hkeeps := hkeeps.flush e.now
    rw [TimedMap.expire_ofLog ht] at hkeeps
    have hlookup := lookupAt_of_flush hflush'
    cases hout with
    | other hnot hcache =>
      have hacc : accepted sr mem e = none := by
        rw [accepted, show arpInfo e.packet = none from hnot]
        rfl
      rw [hacc, Option.toList_none, List.append_nil]
      exact ⟨e.now, _, Nat.le_refl _, by rw [hcache]; exact hstores, hkeeps⟩
    | refreshed info entry hinfo hhit hcache =>
      -- the sender has an entry, which the map has too
      rcases hstores.lookup info.sip with ⟨hmiss, -⟩ | ⟨entry', kept, hhit', hvalue, hsome⟩
      · rw [hmiss] at hhit
        cases hhit
      · have hacc : accepted sr mem e =
            some { key := info.sip, value := info.sha, time := e.now } := by
          rw [accepted, show arpInfo e.packet = some info from hinfo]
          simp [hlookup, hhit', hvalue, Except.toOption]
        rw [hacc, Option.toList_some]
        obtain ⟨updated, hupdate, hstores'⟩ := hstores.update hhit info.sha e.now
        obtain rfl : updated = mem'.cache := Except.ok.inj (hupdate.symm.trans hcache)
        refine ⟨e.now, _, Nat.le_refl _, hstores', ?_⟩
        rw [TimedMap.ofLog_append]
        exact hkeeps.update hsome info.sha e.now
    | overheard info hinfo hmiss htarget hcache =>
      have hacc : accepted sr mem e = none := by
        rw [accepted, show arpInfo e.packet = some info from hinfo]
        simp [hlookup, hmiss, htarget, Except.toOption]
      rw [hacc, Option.toList_none, List.append_nil]
      exact ⟨e.now, _, Nat.le_refl _, by rw [hcache]; exact hstores, hkeeps⟩
    | learned info target hinfo hmiss htarget hcache =>
      have hacc : accepted sr mem e =
          some { key := info.sip, value := info.sha, time := e.now } := by
        rw [accepted, show arpInfo e.packet = some info from hinfo]
        simp [htarget, Except.toOption]
      rw [hacc, Option.toList_some]
      obtain ⟨added, hadd, hstores'⟩ := hstores.add info.sha info.sip e.now
      obtain rfl : added = mem'.cache := Except.ok.inj (hadd.symm.trans hcache)
      -- the sender has none, so the map gains a key
      have hnone : Router.arpCacheLookup (Router.arpCacheFlush e.now xs) info.sip = none := by
        rcases hstores.lookup info.sip with ⟨-, hnone⟩ | ⟨entry', kept, hhit', -, -⟩
        · exact hnone
        · rw [hmiss] at hhit'
          cases hhit'
      refine ⟨e.now, _, Nat.le_refl _, hstores', ?_⟩
      rw [TimedMap.ofLog_append]
      exact hkeeps.add hnone info.sha e.now

/-- A step of a run that is still up came from a state that was. -/
theorem step_eq_some {sr : SrInstance} {mem : Option RouterMemory} {c : Call}
    {mem' : RouterMemory} (h : step sr mem c = some mem') :
    ∃ mid, mem = some mid ∧ srHandlepacket sr mid c = .ok mem' := by
  cases mem with
  | none => cases h
  | some mid =>
    refine ⟨mid, rfl, ?_⟩
    simp only [Memory.step, Option.bind_some] at h
    cases hres : srHandlepacket sr mid c with
    | error f => rw [hres] at h; cases h
    | ok s => rw [hres] at h; exact congrArg _ (Option.some.inj h)

theorem cacheInv_run {sr : SrInstance} {evs : List Event} {mem : RouterMemory} {now : Nat}
    (hrun : run (steadyStep sr) (some (srInit sr)) evs = some mem)
    (hclock : (evs.map Event.now ++ [now]).Pairwise (· ≤ ·)) :
    CacheInv mem (acceptedIn sr (some (srInit sr)) evs) now := by
  -- the last packet first: what it finds is the run before it
  induction evs using List.reverseRecOn generalizing mem now with
  | nil =>
    obtain rfl := Option.some.inj hrun
    exact cacheInv_init sr now
  | append_singleton evs e ih =>
    rw [run_append] at hrun
    obtain ⟨mid, hmid, hstep⟩ := step_eq_some hrun
    rw [List.map_append, List.map_singleton, List.pairwise_append] at hclock
    obtain ⟨hbefore, -, hlast⟩ := hclock
    have hinv := (ih hmid hbefore).step hstep
    rw [acceptedIn_append, hmid, Option.bind_some]
    exact hinv.later (hlast e.now (by simp) now (by simp))

/-- **The cache is a map with expiry.** After every run with a clock that does
not go back, read once per packet: the links of the cache form one list in both
directions, no two entries are for one address, and after a flush the lookup of
an address other than the placeholder's succeeds exactly if the latest accepted
ARP packet of that sender came at most `ARP_CACHE_TIMEOUT` before, and it gives
the hardware address of that packet. -/
theorem cache_refines_map {sr : SrInstance} {evs : List Event} {mem : RouterMemory} {now : Nat}
    (hrun : run (steadyStep sr) (some (srInit sr)) evs = some mem)
    (hclock : (evs.map Event.now ++ [now]).Pairwise (· ≤ ·)) :
    (∃ cells, mem.cache.Holds cells ∧ (cells.map fun c => c.2.arpcIp).Nodup) ∧
    ∀ ip, ip ≠ 0 → ∃ found, lookupAt mem.cache now ip = .ok found ∧
      ∀ mac, found = some mac ↔
        ∃ s, latest (acceptedIn sr (some (srInit sr)) evs) ip = some s ∧
          now ≤ s.time + arpCacheTimeout ∧ s.value = mac := by
  have hinv := cacheInv_run hrun hclock
  refine ⟨?_, ?_⟩
  · obtain ⟨t, xs, -, ⟨cells, hholds, rfl⟩, hkeeps⟩ := hinv
    have hdistinct := hkeeps.distinct
    rw [List.map_map] at hdistinct
    exact ⟨cells, hholds, hdistinct⟩
  · intro ip hip
    refine ⟨_, hinv.lookupAt hip, ?_⟩
    intro mac
    rw [Option.map_eq_some_iff]
    constructor
    · intro h
      obtain ⟨kept, hkept, rfl⟩ := h
      obtain ⟨s, hs, hlive, rfl⟩ := TimedMap.ofLog_eq_some.mp hkept
      exact ⟨s, hs, hlive, rfl⟩
    · intro h
      obtain ⟨s, hs, hlive, rfl⟩ := h
      exact ⟨_, TimedMap.ofLog_eq_some.mpr ⟨s, hs, hlive, rfl⟩, rfl⟩

/-- The gateway is learned, forgotten, and learned again. -/
def gatewayTwice : List Event :=
  [{ packet := gatewayReply, interface := [0x65], now := 100 },
    { packet := gatewayReply, interface := [0x65], now := 200 }]

theorem cache_refines_map_gatewayTwice :
    ∃ mem, run (steadyStep gatewayRouter) (some (srInit gatewayRouter)) gatewayTwice = some mem ∧
      (∃ cells, mem.cache.Holds cells ∧ (cells.map fun c => c.2.arpcIp).Nodup) ∧
      ∀ ip, ip ≠ 0 → ∃ found, lookupAt mem.cache 215 ip = .ok found ∧
        ∀ mac, found = some mac ↔
          ∃ s, latest (acceptedIn gatewayRouter (some (srInit gatewayRouter)) gatewayTwice) ip =
            some s ∧ 215 ≤ s.time + arpCacheTimeout ∧ s.value = mac := by
  have hup : (run (steadyStep gatewayRouter) (some (srInit gatewayRouter)) gatewayTwice).isSome := by
    decide +kernel
  obtain ⟨mem, hrun⟩ := Option.isSome_iff_exists.mp hup
  exact ⟨mem, hrun, cache_refines_map hrun (by decide)⟩

end UchiNetworks.Router.Memory
