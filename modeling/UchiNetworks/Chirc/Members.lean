import UchiNetworks.Chirc.Turn

/-!
# chirc: membership, in three places

That a user is on a channel is recorded in `chanlist`, in his `my_chans`, and in
the channel's `numusers`. `Consistent` says that the three agree. Every step that
changes one of them is paired with another one, and the pairs come apart in two
ways only, which `membersFairly` excludes: an operation on a `my_chans` that
refuses it because an iteration was left active (WHOIS leaves one), and a channel
with an empty name, which no lookup finds.

The proof follows the pairs. `Consistent.leave` is one user less on one channel;
`user_exit` is a sequence of those, seen through `Server.setMine`, which is the
server with the user's own list cut down to the channels he has still to leave.
-/

namespace UchiNetworks.Chirc

open UchiNetworks.Lib

variable {cfg : Config} {ok : Nat → Bool} {s s' : Server} {u : Uid} {ps : Params}
  {stale : Nat → Nat}

/-- How many users in `userlist` have the channel in their `my_chans`. -/
def Server.usersOn (s : Server) (name : CStr) : Nat :=
  s.userlist.items.countP fun u => (s.persons u).onChan name

/-- The three records agree. -/
structure Consistent (s : Server) : Prop where
  distinct : (s.chanlist.items.map fun c => (s.channels c).name).Nodup
  listed : ∀ u ∈ s.userlist.items, ∀ m ∈ (s.persons u).myChans.items,
    ∃ c ∈ s.chanlist.items, (s.channels c).name = m.name
  counted : ∀ c ∈ s.chanlist.items, (s.channels c).numusers = s.usersOn (s.channels c).name
  positive : ∀ c ∈ s.chanlist.items, 1 ≤ (s.channels c).numusers

/-- An iteration of `u`'s own list would begin at the beginning. -/
def Server.visitsAll (s : Server) (u : Uid) : Prop :=
  (s.persons u).toVisit = (s.persons u).myChans.items

/-- The user's own list accepts a change. -/
def Server.mayChange (s : Server) (u : Uid) : Prop := (s.persons u).myChans.iter = none

/-- JOIN and PART change lists that accept it, who leaves leaves all his channels,
and there is never a second channel without a name. -/
def membersFairly (s : Server) (r : Request) : Prop :=
  match r.input with
  | .connect _ _ => True
  | .hangup self => s.visitsAll self
  | .message self ps =>
    match commandOf (ps.get 0) with
    | .JOIN => ((s.persons self).onChan (ps.get 1) = false → s.mayChange self) ∧
        (ps.get 1 = [] → ∀ c ∈ s.chanlist.items, (s.channels c).name ≠ [])
    | .PART => (s.persons self).onChan (ps.get 1) = true → (s.seekChan (ps.get 1)).isSome →
        s.mayChange self
    | .NAMES => Fails r.ok → s.visitsAll self
    | .MODE => Fails r.ok → s.visitsAll self
    | _ => True

/-! ## Steps that change nothing here -/

/-- `s` and `s'` differ in nothing that `Consistent` speaks of. -/
structure SameMembers (s s' : Server) : Prop where
  userlist : s'.userlist = s.userlist
  chanlist : s'.chanlist.items = s.chanlist.items
  mine : ∀ u, (s'.persons u).myChans.items.map MyChan.name
    = (s.persons u).myChans.items.map MyChan.name
  name : ∀ c, (s'.channels c).name = (s.channels c).name
  numusers : ∀ c, (s'.channels c).numusers = (s.channels c).numusers

/-- To be on a channel is to have its name in `my_chans`. -/
theorem onChan_iff {p : Person} {name : CStr} :
    p.onChan name = true ↔ name ∈ p.myChans.items.map MyChan.name := by
  unfold Person.onChan SimList.contains
  rw [List.any_eq_true, List.mem_map]
  simp

/-- The names in a user's own list decide what he is on. -/
theorem onChan_congr {p q : Person}
    (h : p.myChans.items.map MyChan.name = q.myChans.items.map MyChan.name) (name : CStr) :
    p.onChan name = q.onChan name := by
  rw [Bool.eq_iff_iff, onChan_iff, onChan_iff, h]

/-- The same memberships count the same. -/
theorem SameMembers.usersOn (h : SameMembers s s') (name : CStr) :
    s'.usersOn name = s.usersOn name := by
  unfold Server.usersOn
  rw [h.userlist]
  exact countP_same fun u _ => onChan_congr (h.mine u) name

/-- `listed`, in terms of `onChan`. -/
theorem Consistent.listed' (h : Consistent s) (hu : u ∈ s.userlist.items) {name : CStr}
    (hon : (s.persons u).onChan name = true) :
    ∃ c ∈ s.chanlist.items, (s.channels c).name = name := by
  obtain ⟨m, hm, rfl⟩ := List.mem_map.mp (onChan_iff.mp hon)
  exact h.listed u hu m hm

/-- The three lists agree as far as numbers go. -/
theorem Consistent.of (hdistinct : (s.chanlist.items.map fun c => (s.channels c).name).Nodup)
    (hlisted : ∀ u ∈ s.userlist.items, ∀ name, (s.persons u).onChan name = true →
      ∃ c ∈ s.chanlist.items, (s.channels c).name = name)
    (hcounted : ∀ c ∈ s.chanlist.items, (s.channels c).numusers = s.usersOn (s.channels c).name)
    (hpositive : ∀ c ∈ s.chanlist.items, 1 ≤ (s.channels c).numusers) : Consistent s where
  distinct := hdistinct
  listed := fun u hu m hm => hlisted u hu m.name (onChan_iff.mpr (List.mem_map_of_mem hm))
  counted := hcounted
  positive := hpositive

/-- A change that keeps names, numbers and memberships keeps the lists consistent. -/
theorem Consistent.frame (h : Consistent s) (hs : SameMembers s s') : Consistent s' := by
  refine .of ?_ ?_ ?_ ?_
  · simp only [hs.chanlist, hs.name]
    exact h.distinct
  · rw [hs.userlist, hs.chanlist]
    simp only [hs.name]
    intro u hu name hon
    rw [onChan_congr (hs.mine u)] at hon
    exact h.listed' hu hon
  · rw [hs.chanlist]
    simp only [hs.name, hs.numusers, hs.usersOn]
    exact h.counted
  · rw [hs.chanlist]
    simp only [hs.numusers]
    exact h.positive

/-- Names tell channels apart, the empty one included. -/
theorem Consistent.name_inj (h : Consistent s) {c d : Cid} (hc : c ∈ s.chanlist.items)
    (hd : d ∈ s.chanlist.items) (heq : (s.channels c).name = (s.channels d).name) : c = d :=
  List.inj_on_of_nodup_map h.distinct hc hd heq

/-! ## One user less, one user more -/

/-- A user's memberships are those of his list. -/
theorem updPerson_onChan_self {f : SimList MyChan → SimList MyChan} {name : CStr} :
    ((s.updPerson u (·.updChans f)).persons u).onChan name
      = (f (s.persons u).myChans).contains fun m => m.name = name := by
  rw [updPerson_self]
  rfl

/-- The others' are not touched. -/
theorem updPerson_onChan_ne {v : Uid} {f : SimList MyChan → SimList MyChan} {name : CStr}
    (h : v ≠ u) : ((s.updPerson u (·.updChans f)).persons v).onChan name
      = (s.persons v).onChan name := by
  rw [updPerson_ne _ h]

/-- The user's own list loses exactly `name`. -/
def Drops (s : Server) (u : Uid) (f : SimList MyChan → SimList MyChan) (name : CStr) : Prop :=
  ∀ n, ((f (s.persons u).myChans).contains fun m => m.name = n) = true ↔
    n ≠ name ∧ (s.persons u).onChan n = true

/-- Who leaves a channel is one less on it. -/
theorem usersOn_drop (hs : Sane s) (hu : u ∈ s.userlist.items) {name : CStr}
    {f : SimList MyChan → SimList MyChan} (hon : (s.persons u).onChan name = true)
    (hdrop : Drops s u f name) :
    s.usersOn name = (s.updPerson u (·.updChans f)).usersOn name + 1 := by
  refine countP_lose hs.users hu hon ?_ ?_
  · rw [updPerson_onChan_self, ← Bool.not_eq_true, hdrop]
    exact fun hno => hno.1 rfl
  · intro v _ hv
    exact (updPerson_onChan_ne hv).symm

/-- On the others there are as many as before. -/
theorem usersOn_drop_other {name n : CStr} {f : SimList MyChan → SimList MyChan}
    (hdrop : Drops s u f name) (hn : n ≠ name) :
    (s.updPerson u (·.updChans f)).usersOn n = s.usersOn n := by
  refine countP_same fun v _ => ?_
  by_cases hv : v = u
  · rw [hv, updPerson_onChan_self, Bool.eq_iff_iff, hdrop]
    exact ⟨fun hno => hno.2, fun hon => ⟨hn, hon⟩⟩
  · exact updPerson_onChan_ne hv

/-- A user leaves a channel, in his own list and in the channel's count. -/
theorem Consistent.leave (h : Consistent s) (hs : Sane s) (hu : u ∈ s.userlist.items)
    {name : CStr} {c : Cid} {f : SimList MyChan → SimList MyChan}
    (hfound : s.seekChan name = some c) (hon : (s.persons u).onChan name = true)
    (hdrop : Drops s u f name) : Consistent ((s.updPerson u (·.updChans f)).leaveChan c) := by
  obtain ⟨hc, hname⟩ := seekChan_some hfound
  have hcount := usersOn_drop hs hu hon hdrop
  have hnum : (s.channels c).numusers = s.usersOn name := by rw [h.counted c hc, hname]
  -- the count of the channel itself, and the channels that are left
  have hself : (((s.updPerson u (·.updChans f)).leaveChan c).channels c).numusers
      = (s.updPerson u (·.updChans f)).usersOn name := by
    rw [leaveChan_channels, updChannel_self]
    show (s.channels c).numusers - 1 = _
    omega
  have hother : ∀ d, d ≠ c → (((s.updPerson u (·.updChans f)).leaveChan c).channels d).numusers
      = (s.channels d).numusers := by
    intro d hd
    rw [leaveChan_channels, updChannel_ne _ hd]
    rfl
  have hmem : ∀ d, d ∈ ((s.updPerson u (·.updChans f)).leaveChan c).chanlist.items ↔
      d ∈ s.chanlist.items ∧ (d = c → (s.updPerson u (·.updChans f)).usersOn name ≠ 0) := by
    intro d
    show d ∈ (if (s.channels c).numusers - 1 = 0 then s.chanlist.delete (· = c)
      else s.chanlist).items ↔ _
    by_cases hzero : (s.channels c).numusers - 1 = 0
    · have hnone : (s.updPerson u (·.updChans f)).usersOn name = 0 := by omega
      rw [if_pos hzero, SimList.delete_of_idle hs.idle.chans, mem_erase_found hs.chans, hnone]
      simp
    · have hsome : (s.updPerson u (·.updChans f)).usersOn name ≠ 0 := by omega
      rw [if_neg hzero]
      exact ⟨fun hd => ⟨hd, fun _ => hsome⟩, fun hd => hd.1⟩
  refine .of ?_ ?_ ?_ ?_
  · simp only [leaveChan_name]
    exact h.distinct.sublist ((leaveChan_chanlist hs.idle.chans c).2.map _)
  · intro v hv n hvn
    have hbefore : (s.persons v).onChan n = true := by
      by_cases hvu : v = u
      · rw [hvu] at hvn ⊢
        exact ((hdrop n).mp ((updPerson_onChan_self (s := s)).symm.trans hvn)).2
      · exact (updPerson_onChan_ne (s := s) hvu).symm.trans hvn
    obtain ⟨d, hd, hdn⟩ := h.listed' hv hbefore
    refine ⟨d, (hmem d).mpr ⟨hd, ?_⟩, by rw [leaveChan_name]; exact hdn⟩
    intro hdc hnone
    rw [hdc, hname] at hdn
    have hnobody := List.countP_eq_zero.mp hnone v hv
    rw [hdn] at hnobody
    exact hnobody hvn
  · intro d hd
    rw [leaveChan_name]
    have hd := ((hmem d).mp hd).1
    by_cases hdc : d = c
    · rw [hdc, hself]
      show _ = ((s.updPerson u (·.updChans f)).usersOn (s.channels c).name : Int)
      rw [hname]
    · rw [hother d hdc, h.counted d hd]
      have hne : (s.channels d).name ≠ name := by
        rw [← hname]
        exact fun heq => hdc (h.name_inj hd hc heq)
      show _ = ((s.updPerson u (·.updChans f)).usersOn (s.channels d).name : Int)
      rw [usersOn_drop_other hdrop hne]
  · intro d hd
    obtain ⟨hd, hleft⟩ := (hmem d).mp hd
    by_cases hdc : d = c
    · have hleft := hleft hdc
      rw [hdc, hself]
      omega
    · rw [hother d hdc]
      exact h.positive d hd

/-! ## Leaving the server -/

/-- The server with the user's own list cut down to `ms`. -/
def Server.withMine (s : Server) (u : Uid) (ms : List MyChan) : Server :=
  s.updPerson u (·.updChans fun l => { l with items := ms })

/-- With the memberships he has nothing changes. -/
theorem withMine_self (s : Server) (u : Uid) :
    s.withMine u (s.persons u).myChans.items = s := updPerson_eq_self rfl

/-- One turn of the loop that leaves the channels. -/
theorem withMine_leaveChan (s : Server) (u : Uid) (m : MyChan) (ms : List MyChan) (c : Cid) :
    ((s.withMine u (m :: ms)).updPerson u (·.updChans fun l => { l with items := ms })).leaveChan c
      = (s.leaveChan c).withMine u ms := by
  unfold Server.withMine
  rw [updPerson_updPerson]
  rfl

/-- Cutting the first channel off. -/
theorem drops_head {m : MyChan} {ms : List MyChan} (hnodup : ((m :: ms).map MyChan.name).Nodup) :
    Drops (s.withMine u (m :: ms)) u (fun l => { l with items := ms }) m.name := by
  have hhead := (List.nodup_cons.mp hnodup).1
  intro n
  unfold Server.withMine
  rw [updPerson_onChan_self]
  show (ms.any fun x => x.name = n) = true ↔
    n ≠ m.name ∧ ((m :: ms).any fun x => x.name = n) = true
  rw [List.any_eq_true, List.any_eq_true]
  refine ⟨fun hin => ?_, fun hin => ?_⟩
  · obtain ⟨x, hx, hxn⟩ := hin
    refine ⟨fun heq => ?_, x, List.mem_cons_of_mem m hx, hxn⟩
    rw [← heq, ← of_decide_eq_true hxn] at hhead
    exact hhead (List.mem_map_of_mem hx)
  · obtain ⟨hne, x, hx, hxn⟩ := hin
    cases List.mem_cons.mp hx with
    | inl heq =>
      rw [heq] at hxn
      exact absurd (of_decide_eq_true hxn).symm hne
    | inr htail => exact ⟨x, htail, hxn⟩

/-- `user_exit`'s loop: what is left of the user's own list agrees with the rest. -/
theorem Consistent.leaveChans {ms : List MyChan} (hs : Sane s) (hu : u ∈ s.userlist.items)
    (h : Consistent (s.withMine u ms)) (hnodup : (ms.map MyChan.name).Nodup)
    (hleave : Server.leaveChans ms s = some s') : Consistent (s'.withMine u []) := by
  induction ms generalizing s with
  | nil =>
    rw [← Option.some.inj hleave]
    exact h
  | cons m ms ih =>
    unfold Server.leaveChans at hleave
    obtain ⟨c, hfound, hrest⟩ := Option.bind_eq_some_iff.mp hleave
    have hon : ((s.withMine u (m :: ms)).persons u).onChan m.name = true := by
      unfold Server.withMine
      rw [updPerson_onChan_self]
      simp [SimList.contains]
    have hcut : Sane (s.withMine u (m :: ms)) := hs.setMine hnodup
    have hnext := h.leave hcut hu (by exact hfound) hon (drops_head hnodup)
    rw [withMine_leaveChan] at hnext
    exact ih (hs.leaveChan c) hu hnext (List.nodup_cons.mp hnodup).2 hrest

/-- Who is on no channel can go. -/
theorem Consistent.removeUser (hs : Sane s) (hu : u ∈ s.userlist.items)
    (h : Consistent (s.withMine u [])) : Consistent (s.removeUser u) := by
  have hgone : ∀ n, ((s.withMine u []).persons u).onChan n = false := by
    intro n
    unfold Server.withMine
    rw [updPerson_onChan_self]
    rfl
  have hsame : ∀ v n, ((s.removeUser u).persons v).onChan n
      = ((s.withMine u []).persons v).onChan n := by
    intro v n
    refine onChan_congr ?_ n
    rw [removeUser_persons]
    unfold Server.withMine
    by_cases hv : v = u
    · rw [hv, updPerson_self, updPerson_self]
      rfl
    · rw [updPerson_ne _ hv, updPerson_ne _ hv]
  have husers : (s.removeUser u).userlist.items = s.userlist.items.eraseP (· = u) := by
    show (s.userlist.delete _).items = _
    rw [SimList.delete_of_idle hs.idle.users]
  -- he was counted nowhere, so his going changes no count
  have hcount : ∀ n, (s.removeUser u).usersOn n = (s.withMine u []).usersOn n := by
    intro n
    have hall : (s.withMine u []).usersOn n
        = (s.userlist.items.eraseP (· = u)).countP fun v => ((s.withMine u []).persons v).onChan n := by
      show s.userlist.items.countP _ = _
      rw [countP_erase_found hu, hgone]
      rfl
    rw [hall]
    unfold Server.usersOn
    rw [husers]
    simp only [hsame]
  refine .of h.distinct ?_ ?_ h.positive
  · intro v hv n hon
    rw [husers] at hv
    rw [hsame] at hon
    exact h.listed' ((mem_erase_found hs.users).mp hv).1 hon
  · intro c hc
    rw [hcount]
    exact h.counted c hc

/-- A user may exit whose iteration visits all his channels. -/
theorem Consistent.exitUser (h : Consistent s) (hs : Sane s) (hu : u ∈ s.userlist.items)
    (hall : s.visitsAll u) (hexit : s.exitUser u = some s') : Consistent s' := by
  obtain ⟨t, hleave, rfl⟩ := Option.map_eq_some_iff.mp hexit
  rw [hall] at hleave
  have hstart : Consistent (s.withMine u (s.persons u).myChans.items) := by
    rw [withMine_self]
    exact h
  have hend := hstart.leaveChans hs hu (hs.mine u) hleave
  refine Consistent.removeUser (hs.leaveChans hleave) ?_ hend
  rw [(leaveChans_frame hleave).1]
  exact hu

/-! ## Entering a channel -/

/-- A user enters a channel that may be new: the others have users. -/
theorem Consistent.enter (hs : Sane s) {c : Cid} {m : MyChan} (hu : u ∈ s.userlist.items)
    (hdistinct : (s.chanlist.items.map fun c => (s.channels c).name).Nodup)
    (hlisted : ∀ v ∈ s.userlist.items, ∀ name, (s.persons v).onChan name = true →
      ∃ d ∈ s.chanlist.items, (s.channels d).name = name)
    (hcounted : ∀ d ∈ s.chanlist.items, (s.channels d).numusers = s.usersOn (s.channels d).name)
    (hpositive : ∀ d ∈ s.chanlist.items, d ≠ c → 1 ≤ (s.channels d).numusers)
    (hc : c ∈ s.chanlist.items) (hname : (s.channels c).name = m.name)
    (hoff : (s.persons u).onChan m.name = false) (hfree : s.mayChange u) :
    Consistent (s.enter u c m) := by
  have hgain : ∀ n, ((s.persons u).myChans.append m).contains (fun x => x.name = n) = true ↔
      n = m.name ∨ (s.persons u).onChan n = true := by
    intro n
    rw [SimList.append_of_idle hfree]
    show ((s.persons u).myChans.items ++ [m]).any _ = true ↔ _
    rw [List.any_append, Bool.or_eq_true, or_comm]
    refine or_congr ?_ Iff.rfl
    simp [eq_comm]
  -- one more on the channel he enters, as many on the others
  have hself : (s.enter u c m).usersOn m.name = s.usersOn m.name + 1 := by
    refine countP_gain hs.users hu hoff ?_ ?_
    · exact updPerson_onChan_self.trans ((hgain m.name).mpr (Or.inl rfl))
    · intro v _ hv
      exact (updPerson_onChan_ne (s := s) hv).symm
  have hother : ∀ n, n ≠ m.name → (s.enter u c m).usersOn n = s.usersOn n := by
    intro n hn
    refine countP_same fun v _ => ?_
    by_cases hv : v = u
    · rw [hv]
      refine updPerson_onChan_self.trans ?_
      rw [Bool.eq_iff_iff, hgain]
      exact ⟨fun hin => hin.elim (fun heq => absurd heq hn) id, Or.inr⟩
    · exact updPerson_onChan_ne (s := s) hv
  have hnames : ∀ d, ((s.enter u c m).channels d).name = (s.channels d).name := by
    intro d
    by_cases hd : d = c
    · rw [hd, Server.enter, updChannel_self]
      rfl
    · rw [Server.enter, updChannel_ne _ hd]
      rfl
  refine .of ?_ ?_ ?_ ?_
  · simp only [hnames]
    exact hdistinct
  · simp only [hnames]
    intro v hv n hon
    by_cases hvu : v = u
    · rw [hvu] at hon
      cases (hgain n).mp (updPerson_onChan_self.symm.trans hon) with
      | inl heq => exact ⟨c, hc, hname.trans heq.symm⟩
      | inr hold => exact hlisted u hu n hold
    · exact hlisted v hv n ((updPerson_onChan_ne (s := s) hvu).symm.trans hon)
  · intro d hd
    have hcount := hcounted d hd
    rw [hnames]
    -- the counter goes up where the count does
    by_cases hdc : d = c
    · rw [hdc] at hcount ⊢
      rw [Server.enter, updChannel_self]
      show (s.channels c).numusers + 1 = ((s.enter u c m).usersOn (s.channels c).name : Int)
      rw [hcount, hname, hself]
      rfl
    · rw [Server.enter, updChannel_ne _ hdc]
      show (s.channels d).numusers = ((s.enter u c m).usersOn (s.channels d).name : Int)
      have hne : (s.channels d).name ≠ m.name := by
        rw [← hname]
        exact fun heq => hdc (List.inj_on_of_nodup_map hdistinct hd hc heq)
      rw [hcount, hother _ hne]
  · intro d hd
    by_cases hdc : d = c
    · rw [hdc, Server.enter, updChannel_self]
      show 1 ≤ (s.channels c).numusers + 1
      rw [hcounted c hc]
      omega
    · rw [Server.enter, updChannel_ne _ hdc]
      exact hpositive d hd hdc

/-- The channel that JOIN creates, before its first user has entered. -/
theorem enter_new (h : Consistent s) (hs : Sane s) {m : MyChan} (hu : u ∈ s.userlist.items)
    (hnone : s.seekChan m.name = none)
    (hunnamed : m.name = [] → ∀ c ∈ s.chanlist.items, (s.channels c).name ≠ [])
    (hoff : (s.persons u).onChan m.name = false) (hfree : s.mayChange u) :
    Consistent ((s.addChannel m.name).enter u s.nextCid m) := by
  have hfresh : ∀ c ∈ s.chanlist.items, (s.channels c).name ≠ m.name := by
    by_cases hname : m.name = []
    · rw [hname]
      exact hunnamed hname
    · exact seekChan_none hnone hname
  have hitems : (s.addChannel m.name).chanlist.items = s.chanlist.items ++ [s.nextCid] := by
    rw [addChannel_chanlist hs.idle.chans]
  have hold : ∀ c ∈ s.chanlist.items, (s.addChannel m.name).channels c = s.channels c :=
    fun c hc => addChannel_old (hs.chansOld c hc) m.name
  have hnew : (s.addChannel m.name).channels s.nextCid = ⟨m.name, [], [], 0⟩ :=
    addChannel_new s m.name
  refine Consistent.enter (hs.addChannel hnone) hu ?_ ?_ ?_ ?_ ?_ ?_ hoff hfree
  · have hnames : (s.chanlist.items.map fun c => ((s.addChannel m.name).channels c).name)
        = s.chanlist.items.map fun c => (s.channels c).name :=
      List.map_congr_left fun c hc => by rw [hold c hc]
    rw [hitems, List.map_append, hnames]
    refine List.nodup_append.mpr ⟨h.distinct, List.nodup_singleton _, ?_⟩
    intro n hn n' hn' heq
    obtain ⟨c, hc, rfl⟩ := List.mem_map.mp hn
    rw [List.mem_singleton.mp hn'] at heq
    dsimp only at heq
    rw [hnew] at heq
    exact hfresh c hc heq
  · rw [hitems]
    intro v hv n hon
    obtain ⟨c, hc, hcn⟩ := h.listed' hv hon
    exact ⟨c, List.mem_append_left _ hc, by rw [hold c hc]; exact hcn⟩
  · rw [hitems]
    intro c hc
    cases List.mem_append.mp hc with
    | inl hc =>
      rw [hold c hc]
      exact h.counted c hc
    | inr hc =>
      rw [List.mem_singleton.mp hc, hnew]
      show (0 : Int) = (s.usersOn m.name : Nat)
      -- nobody is on a channel that no list has
      have hnobody : s.usersOn m.name = 0 := by
        refine List.countP_eq_zero.mpr fun v hv hon => ?_
        obtain ⟨d, hd, hdn⟩ := h.listed' hv hon
        exact hfresh d hd hdn
      rw [hnobody]
      rfl
  · rw [hitems]
    intro c hc hne
    cases List.mem_append.mp hc with
    | inl hc =>
      rw [hold c hc]
      exact h.positive c hc
    | inr hc => exact absurd (List.mem_singleton.mp hc) hne
  · rw [hitems]
    exact List.mem_append_right _ List.mem_cons_self
  · rw [hnew]

/-! ## One command, one request, a run -/

/-- A change of a record that keeps the names in `my_chans`. -/
theorem sameMembers_updPerson {f : Person → Person}
    (hmine : (f (s.persons u)).myChans.items.map MyChan.name
      = (s.persons u).myChans.items.map MyChan.name) : SameMembers s (s.updPerson u f) := by
  refine ⟨rfl, rfl, fun v => ?_, fun _ => rfl, fun _ => rfl⟩
  by_cases hv : v = u
  · rw [hv, updPerson_self, hmine]
  · rw [updPerson_ne f hv]

/-- A change of a channel that keeps its name and its number. -/
theorem sameMembers_updChannel {c : Cid} {f : Channel → Channel}
    (hname : (f (s.channels c)).name = (s.channels c).name)
    (hnum : (f (s.channels c)).numusers = (s.channels c).numusers) :
    SameMembers s (s.updChannel c f) := by
  refine ⟨rfl, rfl, fun _ => rfl, fun d => ?_, fun d => ?_⟩
  · by_cases hd : d = c
    · rw [hd, updChannel_self, hname]
    · rw [updChannel_ne f hd]
  · by_cases hd : d = c
    · rw [hd, updChannel_self, hnum]
    · rw [updChannel_ne f hd]

theorem SameMembers.countIf {t : Server} (h : SameMembers s t) (b : Bool) :
    SameMembers s (t.countIf b) := by
  cases b with
  | false => exact h
  | true => exact ⟨h.userlist, h.chanlist, h.mine, h.name, h.numusers⟩

/-- Who has no iteration running leaves every channel. -/
theorem visitsAll_stopped (s : Server) (u : Uid) : (s.atMyChan u none).visitsAll u := by
  unfold Server.visitsAll Person.toVisit Server.atMyChan
  rw [updPerson_self]
  exact SimList.remaining_start rfl

/-- PART deletes the entry with the channel's name. -/
theorem drops_delete (hs : Sane s) (hfree : s.mayChange u) (name : CStr) :
    Drops s u (·.delete fun m => m.name = name) name := by
  intro n
  dsimp only
  rw [SimList.delete_of_idle hfree]
  unfold Person.onChan SimList.contains
  dsimp only
  have hnodup := hs.mine u
  revert hnodup
  induction (s.persons u).myChans.items with
  | nil => simp
  | cons m ms ih =>
    intro hnodup
    rw [List.map_cons, List.nodup_cons] at hnodup
    by_cases hm : m.name = name
    · rw [List.eraseP_cons_of_pos (by simp [hm]), List.any_eq_true, List.any_eq_true]
      refine ⟨fun hin => ?_, fun hin => ?_⟩
      · obtain ⟨x, hx, hxn⟩ := hin
        refine ⟨fun heq => ?_, x, List.mem_cons_of_mem m hx, hxn⟩
        rw [hm, ← heq, ← of_decide_eq_true hxn] at hnodup
        exact hnodup.1 (List.mem_map_of_mem hx)
      · obtain ⟨hne, x, hx, hxn⟩ := hin
        cases List.mem_cons.mp hx with
        | inl heq =>
          rw [heq, hm] at hxn
          exact absurd (of_decide_eq_true hxn).symm hne
        | inr htail => exact ⟨x, htail, hxn⟩
    · rw [List.eraseP_cons_of_neg (by simp [hm]), List.any_cons, List.any_cons, Bool.or_eq_true,
        Bool.or_eq_true, and_or_left]
      refine or_congr ?_ (ih hnodup.2)
      refine ⟨fun hmn => ⟨fun heq => ?_, hmn⟩, fun hmn => hmn.2⟩
      rw [heq] at hmn
      exact hm (of_decide_eq_true hmn)

/-- A command that meets the condition keeps the lists consistent. -/
theorem Effect.consistent (h : Consistent s) (hs : Sane s) (hu : u ∈ s.userlist.items)
    (hfair : membersFairly s ⟨.message u ps, ok, stale⟩)
    (heff : Effect cfg ok s u ps (commandOf (ps.get 0)) s') : Consistent s' := by
  unfold membersFairly at hfair
  dsimp only at hfair
  generalize commandOf (ps.get 0) = c at hfair heff
  cases heff with
  | same => exact h
  | rename _ _ =>
    have hstop : Consistent (s.atMyChan u none) := h.frame (sameMembers_updPerson rfl)
    exact hstop.frame (sameMembers_updPerson rfl)
  | firstNick _ _ => exact h.frame ((sameMembers_updPerson rfl).countIf _)
  | user _ => exact h.frame ((sameMembers_updPerson rfl).countIf _)
  | quit hexit =>
    have hstop : Consistent (s.atMyChan u none) := h.frame (sameMembers_updPerson rfl)
    exact hstop.exitUser (hs.frame (sameShape_atMyChan s u none)) hu (visitsAll_stopped s u) hexit
  | dropped hfail hcmd hexit =>
    -- a failed send has dropped the client: NAMES or MODE
    cases hcmd with
    | inl hnames =>
      rw [hnames.1] at hfair
      exact h.exitUser hs hu (hfair hfail) hexit
    | inr hmode =>
      rw [hmode] at hfair
      exact h.exitUser hs hu (hfair hfail) hexit
  | joinOld hfound hnew =>
    obtain ⟨hc, hname⟩ := seekChan_some hfound
    exact .enter hs hu h.distinct (fun v hv n => h.listed' hv) h.counted
      (fun d hd _ => h.positive d hd) hc hname hnew (hfair.1 hnew)
  | joinNew hnone hnew => exact enter_new h hs hu hnone hfair.2 hnew (hfair.1 hnew)
  | joinAgain hnone hon =>
    -- he is on it by his own list, so the channel is there after all
    obtain ⟨c, hc, hname⟩ := h.listed' hu hon
    by_cases hempty : ps.get 1 = []
    · exact absurd (hname.trans hempty) (hfair.2 hempty c hc)
    · exact absurd hname (seekChan_none hnone hempty c hc)
  | part hfound hon =>
    have hfree := hfair hon (by rw [hfound]; rfl)
    exact h.leave hs hu hfound hon (drops_delete hs hfree _)
  | topic _ _ _ => exact h.frame (sameMembers_updChannel rfl rfl)
  | back _ => exact h.frame (sameMembers_updPerson rfl)
  | away _ => exact h.frame (sameMembers_updPerson rfl)
  | oper _ _ => exact h.frame (sameMembers_updPerson rfl)
  | whois _ _ _ _ => exact h.frame (sameMembers_updPerson rfl)
  | who _ =>
    have hshape := sameShape_stopOthers s u
    exact h.frame ⟨rfl, rfl, hshape.mine, fun _ => rfl, fun _ => rfl⟩
  | memberAdd _ _ _ _ _ _ _ _ =>
    exact h.frame ⟨rfl, rfl, sameShape_updMode.mine, fun _ => rfl, fun _ => rfl⟩
  | memberDel _ _ _ _ _ _ _ =>
    exact h.frame ⟨rfl, rfl, sameShape_updMode.mine, fun _ => rfl, fun _ => rfl⟩
  | chanAdd _ _ _ _ => exact h.frame (sameMembers_updChannel rfl rfl)
  | chanDel _ _ _ _ => exact h.frame (sameMembers_updChannel rfl rfl)
  | userMode _ => exact h.frame (sameMembers_updPerson rfl)

/-- A newcomer is on no channel. -/
theorem Consistent.arrive (h : Consistent s) (hs : Sane s) (fd : Nat) (address : CStr) :
    Consistent (s.arrive fd address) := by
  have hitems : (s.arrive fd address).userlist.items = s.userlist.items ++ [s.nextUid] := by
    rw [arrive_userlist hs.idle.users]
  have hnew : ∀ n, ((s.arrive fd address).persons s.nextUid).onChan n = false := by
    intro n
    rw [arrive_new]
    rfl
  have hcount : ∀ n, (s.arrive fd address).usersOn n = s.usersOn n := by
    intro n
    unfold Server.usersOn
    rw [hitems, List.countP_append, List.countP_singleton, hnew, if_neg Bool.false_ne_true,
      Nat.add_zero]
    exact countP_same fun v hv => by rw [arrive_old (hs.usersOld v hv)]
  refine .of h.distinct ?_ ?_ h.positive
  · intro v hv n hon
    rw [hitems] at hv
    cases List.mem_append.mp hv with
    | inl hv =>
      rw [arrive_old (hs.usersOld v hv)] at hon
      exact h.listed' hv hon
    | inr hv =>
      rw [List.mem_singleton.mp hv, hnew] at hon
      cases hon
  · intro c hc
    rw [hcount]
    exact h.counted c hc

/-- **One request.** -/
theorem Turn.consistent {r : Request} (h : Consistent s) (hs : Sane s) (hfair : membersFairly s r)
    (hturn : Turn cfg s r s') : Consistent s' := by
  cases hturn with
  | connect _ => exact h.arrive hs _ _
  | message hin heff => exact heff.consistent h hs hin hfair
  | hangup hin hexit => exact h.exitUser hs hin hfair hexit

theorem consistent_init : Consistent .init := by
  refine .of List.nodup_nil ?_ ?_ ?_
  · intro u hu
    cases hu
  · intro c hc
    cases hc
  · intro c hc
    cases hc

/-- Along runs that change memberships fairly, the three records agree in every
state. -/
theorem members_consistent {rs : List Request} (h : Path (next cfg) membersFairly .init rs s) :
    Consistent s := by
  have hinv : Sane s ∧ Consistent s := by
    refine h.invariant (fun s => Sane s ∧ Consistent s) ⟨sane_init, consistent_init⟩ ?_
    intro s r s' hfair hnext hinv
    have hturn := turn_of_next hinv.1 hnext
    exact ⟨hturn.sane hinv.1, hturn.consistent hinv.2 hinv.1 hfair⟩
  exact hinv.2

/-- A client registers, and joins a channel. -/
theorem members_consistent_one : ∃ s, Path (next .plain) membersFairly .init
    (registersOne ++ [.plain (.line 0 ["JOIN", "#c"])]) s ∧ s.usersOn (str "#c") = 1 ∧
    Consistent s := by
  have hfair : ∀ r ∈ registersOne, ∀ s, membersFairly s r := by
    intro r hr s
    simp only [registersOne, List.mem_cons, List.not_mem_nil, or_false] at hr
    obtain rfl | rfl | rfl := hr
    · trivial
    · trivial
    · trivial
  obtain ⟨s, hpath, hs⟩ := exists_of_follow
    (p := fun s => (s.persons 0).myChans.iter = none ∧
      (next .plain s (.plain (.line 0 ["JOIN", "#c"]))).any fun s' => s'.usersOn (str "#c") = 1)
    hfair (by decide +kernel : (follow (next .plain) .init registersOne).any _ = true)
  obtain ⟨hidle, hjoin⟩ := of_decide_eq_true hs
  obtain ⟨s', hnext, hone⟩ := (Option.any_eq_true _ _).mp hjoin
  have hfree : membersFairly s (.plain (.line 0 ["JOIN", "#c"])) :=
    ⟨fun _ => hidle, fun h => absurd h (by decide)⟩
  have hjoined := Path.snoc hpath hfree hnext
  exact ⟨s', hjoined, of_decide_eq_true hone, members_consistent hjoined⟩

/-- A client registers, asks about himself, and joins a channel. -/
def whoisThenJoin : List Request :=
  registersOne ++ [.plain (.line 0 ["WHOIS", "a"]), .plain (.line 0 ["JOIN", "#c"])]

/-- The channel counts a user who does not have it in his list. -/
theorem members_inconsistent : ¬ ∀ (cfg : Config) (rs : List Request) (s : Server),
    Path (next cfg) anyRequest .init rs s → Consistent s := by
  intro hall
  have hany : ∀ r ∈ whoisThenJoin, ∀ s, anyRequest s r := fun _ _ _ => trivial
  obtain ⟨s, hpath, hbad⟩ := exists_of_follow
    (p := fun s => s.chanlist.items = [0] ∧ (s.channels 0).numusers = 1 ∧
      s.usersOn (s.channels 0).name = 0) hany
    (by decide +kernel : (follow (next .plain) .init whoisThenJoin).any _ = true)
  have hbad := of_decide_eq_true hbad
  have hcount := (hall .plain _ s hpath).counted 0 (by rw [hbad.1]; exact List.mem_cons_self)
  rw [hbad.2.1, hbad.2.2] at hcount
  cases hcount

end UchiNetworks.Chirc
