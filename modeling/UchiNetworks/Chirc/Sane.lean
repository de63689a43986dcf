import UchiNetworks.Lib.Count
import UchiNetworks.Chirc.Leave

/-!
# chirc: what holds in every reachable state

`Sane` is what no command can break: nobody iterates a list of the server, its
lists have no entry twice, descriptors and nicks tell users apart, and a channel's
name is found at most once, in `chanlist` as in each user's own list. The
iterations over the users' own lists are another matter: they may be left active.

Most changes concern nothing that `Sane` speaks of (`SameShape`); for each of the
other steps that commands are made of there is one lemma.
-/

namespace UchiNetworks.Chirc

open UchiNetworks.Lib

variable {s s' : Server} {u : Uid}

/-- What holds in every reachable state. -/
structure Sane (s : Server) : Prop where
  idle : Idle s
  users : s.userlist.items.Nodup
  usersOld : ∀ u ∈ s.userlist.items, u < s.nextUid
  fds : ∀ u ∈ s.userlist.items, ∀ v ∈ s.userlist.items,
    (s.persons u).clientSocket = (s.persons v).clientSocket → u = v
  fdsSmall : ∀ u ∈ s.userlist.items, (s.persons u).clientSocket < 0x80000000
  nicks : ∀ u ∈ s.userlist.items, ∀ v ∈ s.userlist.items, (s.persons u).nick ≠ [] →
    (s.persons u).nick = (s.persons v).nick → u = v
  chans : s.chanlist.items.Nodup
  chansOld : ∀ c ∈ s.chanlist.items, c < s.nextCid
  names : ∀ c ∈ s.chanlist.items, ∀ d ∈ s.chanlist.items, (s.channels c).name ≠ [] →
    (s.channels c).name = (s.channels d).name → c = d
  mine : ∀ u, ((s.persons u).myChans.items.map MyChan.name).Nodup

/-- `s` and `s'` differ in nothing that `Sane` speaks of. -/
structure SameShape (s s' : Server) : Prop where
  userlist : s'.userlist = s.userlist
  chanlist : s'.chanlist = s.chanlist
  nextUid : s'.nextUid = s.nextUid
  nextCid : s'.nextCid = s.nextCid
  fd : ∀ u, (s'.persons u).clientSocket = (s.persons u).clientSocket
  nick : ∀ u, (s'.persons u).nick = (s.persons u).nick
  mine : ∀ u, (s'.persons u).myChans.items.map MyChan.name
    = (s.persons u).myChans.items.map MyChan.name
  name : ∀ c, (s'.channels c).name = (s.channels c).name

/-- A change that keeps the lists, names and counters keeps a state sane. -/
theorem Sane.frame (h : Sane s) (hs : SameShape s s') : Sane s' where
  idle := ⟨by rw [hs.userlist]; exact h.idle.users, by rw [hs.chanlist]; exact h.idle.chans⟩
  users := by rw [hs.userlist]; exact h.users
  usersOld := by rw [hs.userlist, hs.nextUid]; exact h.usersOld
  fds := by simpa only [hs.userlist, hs.fd] using h.fds
  fdsSmall := by simpa only [hs.userlist, hs.fd] using h.fdsSmall
  nicks := by simpa only [hs.userlist, hs.nick] using h.nicks
  chans := by rw [hs.chanlist]; exact h.chans
  chansOld := by rw [hs.chanlist, hs.nextCid]; exact h.chansOld
  names := by simpa only [hs.chanlist, hs.name] using h.names
  mine := by simpa only [hs.mine] using h.mine

theorem SameShape.trans {t : Server} (h : SameShape s s') (h' : SameShape s' t) : SameShape s t where
  userlist := h'.userlist.trans h.userlist
  chanlist := h'.chanlist.trans h.chanlist
  nextUid := h'.nextUid.trans h.nextUid
  nextCid := h'.nextCid.trans h.nextCid
  fd := fun u => (h'.fd u).trans (h.fd u)
  nick := fun u => (h'.nick u).trans (h.nick u)
  mine := fun u => (h'.mine u).trans (h.mine u)
  name := fun c => (h'.name c).trans (h.name c)

/-- The same nicks are found. -/
theorem SameShape.seekNick (h : SameShape s s') (name : CStr) : s'.seekNick name = s.seekNick name := by
  unfold Server.seekNick
  rw [h.userlist]
  simp only [h.nick]

/-- A change of a record that leaves its socket, nick and channels. -/
theorem sameShape_updPerson {f : Person → Person}
    (hfd : (f (s.persons u)).clientSocket = (s.persons u).clientSocket)
    (hnick : (f (s.persons u)).nick = (s.persons u).nick)
    (hmine : (f (s.persons u)).myChans.items.map MyChan.name
      = (s.persons u).myChans.items.map MyChan.name) : SameShape s (s.updPerson u f) := by
  have hget : ∀ {α : Type} (g : Person → α), g (f (s.persons u)) = g (s.persons u) →
      ∀ v, g ((s.updPerson u f).persons v) = g (s.persons v) := by
    intro α g hg v
    by_cases hv : v = u
    · rw [hv, updPerson_self, hg]
    · rw [updPerson_ne f hv]
  exact ⟨rfl, rfl, rfl, rfl, hget (·.clientSocket) hfd, hget (·.nick) hnick,
    hget (fun p => p.myChans.items.map MyChan.name) hmine, fun _ => rfl⟩

/-- A change of a channel that leaves its name. -/
theorem sameShape_updChannel {c : Cid} {f : Channel → Channel}
    (hname : (f (s.channels c)).name = (s.channels c).name) : SameShape s (s.updChannel c f) := by
  refine ⟨rfl, rfl, rfl, rfl, fun _ => rfl, fun _ => rfl, fun _ => rfl, ?_⟩
  intro d
  by_cases hd : d = c
  · rw [hd, updChannel_self, hname]
  · rw [updChannel_ne f hd]

/-- Where an iteration stands is not part of the shape. -/
theorem sameShape_atMyChan (s : Server) (u : Uid) (i : Option Nat) : SameShape s (s.atMyChan u i) :=
  sameShape_updPerson rfl rfl rfl

/-- What does not read the iteration is as it was. -/
theorem stopOthers_get {α : Type} (g : Person → α) (hg : ∀ p : Person, g (p.updChans SimList.stop) = g p)
    (s : Server) (u v : Uid) : g ((s.stopOthers u).persons v) = g (s.persons v) := by
  unfold Server.stopOthers
  dsimp only
  by_cases hv : v ∈ s.userlist.items ∧ v ≠ u
  · rw [if_pos hv, hg]
  · rw [if_neg hv]

/-- Nor is which iterations have been stopped. -/
theorem sameShape_stopOthers (s : Server) (u : Uid) : SameShape s (s.stopOthers u) :=
  ⟨rfl, rfl, rfl, rfl, stopOthers_get (·.clientSocket) (fun _ => rfl) s u,
    stopOthers_get (·.nick) (fun _ => rfl) s u,
    stopOthers_get (fun p => p.myChans.items.map MyChan.name) (fun _ => rfl) s u, fun _ => rfl⟩

/-- Nor is `numregistered`. -/
theorem sameShape_countIf (s : Server) (b : Bool) : SameShape s (s.countIf b) := by
  cases b with
  | false => exact ⟨rfl, rfl, rfl, rfl, fun _ => rfl, fun _ => rfl, fun _ => rfl, fun _ => rfl⟩
  | true => exact ⟨rfl, rfl, rfl, rfl, fun _ => rfl, fun _ => rfl, fun _ => rfl, fun _ => rfl⟩

/-- A member's status changes, not the names in the list. -/
theorem updFirst_map_name {found : MyChan → Bool} {f : MyChan → MyChan}
    (hf : ∀ m, (f m).name = m.name) (ms : List MyChan) :
    (updFirst found f ms).map MyChan.name = ms.map MyChan.name := by
  induction ms with
  | nil => rfl
  | cons m ms ih =>
    unfold updFirst
    by_cases hm : found m
    · rw [if_pos hm, List.map_cons, List.map_cons, hf]
    · rw [if_neg hm, List.map_cons, List.map_cons, ih]

/-- Nor are a member's letters. -/
theorem sameShape_updMode {name : CStr} {f : CStr → CStr} :
    SameShape s (s.updPerson u (·.updMode name f)) := by
  refine sameShape_updPerson rfl rfl ?_
  exact updFirst_map_name (f := fun m => { m with mode := f m.mode }) (fun _ => rfl) _

/-! ## The steps that change more -/

/-- A nick that is not found is nobody's, if it is not empty: `fun_seek` finds no empty
one. -/
theorem seekNick_none {name : CStr} (h : s.seekNick name = none) (hname : name ≠ []) :
    ∀ v ∈ s.userlist.items, (s.persons v).nick ≠ name := by
  intro v hv heq
  have hmiss := List.find?_eq_none.mp h v hv
  simp [seekMatch, hname, heq] at hmiss

/-- The same for channels. -/
theorem seekChan_none {name : CStr} (h : s.seekChan name = none) (hname : name ≠ []) :
    ∀ c ∈ s.chanlist.items, (s.channels c).name ≠ name := by
  intro c hc heq
  have hmiss := List.find?_eq_none.mp h c hc
  simp [seekMatch, hname, heq] at hmiss

/-- What is found is listed, and has the name. -/
theorem seekChan_some {name : CStr} {c : Cid} (h : s.seekChan name = some c) :
    c ∈ s.chanlist.items ∧ (s.channels c).name = name := by
  refine ⟨List.mem_of_find?_eq_some h, ?_⟩
  have hmatch := List.find?_some h
  simp [seekMatch] at hmatch
  exact hmatch.2

/-- A channel is found by its name, if it has one. -/
theorem seekChan_of_mem (hs : Sane s) {c : Cid} {name : CStr} (hc : c ∈ s.chanlist.items)
    (hname : (s.channels c).name = name) (hne : name ≠ []) : s.seekChan name = some c := by
  cases hfound : s.seekChan name with
  | none => exact absurd hname (seekChan_none hfound hne c hc)
  | some d =>
    obtain ⟨hd, hdname⟩ := seekChan_some hfound
    rw [hs.names d hd c hc (by rw [hdname]; exact hne) (hdname.trans hname.symm)]

/-- No channel is found by the empty name. -/
theorem seekChan_nil (s : Server) : s.seekChan [] = none :=
  List.find?_eq_none.mpr fun c _ => by simp [seekMatch]

/-- A nick may be given that nobody has. -/
theorem Sane.withNick (h : Sane s) {nick : CStr} (hfree : s.seekNick nick = none) :
    Sane (s.withNick u nick) := by
  have hfd : ∀ v, ((s.withNick u nick).persons v).clientSocket = (s.persons v).clientSocket := by
    intro v
    by_cases hv : v = u
    · rw [hv, Server.withNick, updPerson_self]
    · rw [Server.withNick, updPerson_ne _ hv]
  have hmine : ∀ v, ((s.withNick u nick).persons v).myChans = (s.persons v).myChans := by
    intro v
    by_cases hv : v = u
    · rw [hv, Server.withNick, updPerson_self]
    · rw [Server.withNick, updPerson_ne _ hv]
  refine ⟨⟨h.idle.users, h.idle.chans⟩, h.users, h.usersOld, ?_, ?_, ?_, h.chans, h.chansOld,
    h.names, ?_⟩
  · simp only [hfd]
    exact h.fds
  · simp only [hfd]
    exact h.fdsSmall
  · intro v hv w hw hne heq
    by_cases hvu : v = u
    · by_cases hwu : w = u
      · rw [hvu, hwu]
      · rw [Server.withNick, hvu, updPerson_self, updPerson_ne _ hwu] at heq
        rw [Server.withNick, hvu, updPerson_self] at hne
        exact absurd heq.symm (seekNick_none hfree hne w hw)
    · rw [Server.withNick, updPerson_ne _ hvu] at hne heq
      by_cases hwu : w = u
      · rw [hwu, updPerson_self] at heq
        exact absurd heq (seekNick_none hfree (by rw [heq] at hne; exact hne) v hv)
      · rw [updPerson_ne _ hwu] at heq
        exact h.nicks v hv w hw hne heq
  · simpa only [hmine] using h.mine

/-- Entries of the server's lists may go. -/
theorem Sane.shrink (h : Sane s) (hu : s'.userlist.items.Sublist s.userlist.items)
    (hc : s'.chanlist.items.Sublist s.chanlist.items) (hidle : Idle s')
    (huid : s'.nextUid = s.nextUid) (hcid : s'.nextCid = s.nextCid)
    (hfd : ∀ u, (s'.persons u).clientSocket = (s.persons u).clientSocket)
    (hnick : ∀ u, (s'.persons u).nick = (s.persons u).nick)
    (hmine : ∀ u, ((s'.persons u).myChans.items.map MyChan.name).Nodup)
    (hname : ∀ c, (s'.channels c).name = (s.channels c).name) : Sane s' where
  idle := hidle
  users := h.users.sublist hu
  usersOld := by rw [huid]; exact fun u hin => h.usersOld u (hu.subset hin)
  fds := by
    simp only [hfd]
    exact fun u hin v hv => h.fds u (hu.subset hin) v (hu.subset hv)
  fdsSmall := by
    simp only [hfd]
    exact fun u hin => h.fdsSmall u (hu.subset hin)
  nicks := by
    simp only [hnick]
    exact fun u hin v hv => h.nicks u (hu.subset hin) v (hu.subset hv)
  chans := h.chans.sublist hc
  chansOld := by rw [hcid]; exact fun c hin => h.chansOld c (hc.subset hin)
  names := by
    simp only [hname]
    exact fun c hin d hd => h.names c (hc.subset hin) d (hc.subset hd)
  mine := hmine

theorem leaveChan_channels (s : Server) (c : Cid) : (s.leaveChan c).channels
    = (s.updChannel c fun ch => { ch with numusers := ch.numusers - 1 }).channels := rfl

/-- Leaving a channel renames none. -/
theorem leaveChan_name (s : Server) (c d : Cid) :
    ((s.leaveChan c).channels d).name = (s.channels d).name := by
  rw [leaveChan_channels]
  by_cases hd : d = c
  · rw [hd, updChannel_self]
  · rw [updChannel_ne _ hd]

/-- It takes at most the one channel out of `chanlist`. -/
theorem leaveChan_chanlist (h : s.chanlist.iter = none) (c : Cid) :
    (s.leaveChan c).chanlist.iter = none ∧
      (s.leaveChan c).chanlist.items.Sublist s.chanlist.items := by
  unfold Server.leaveChan
  dsimp only
  by_cases hzero : (s.channels c).numusers - 1 = 0
  · rw [if_pos hzero, SimList.delete_of_idle h]
    exact ⟨h, List.eraseP_sublist⟩
  · rw [if_neg hzero]
    exact ⟨h, List.Sublist.refl _⟩

/-- Leaving a channel keeps a state sane. -/
theorem Sane.leaveChan (h : Sane s) (c : Cid) : Sane (s.leaveChan c) := by
  obtain ⟨hiter, hsub⟩ := leaveChan_chanlist h.idle.chans c
  exact h.shrink (List.Sublist.refl _) hsub ⟨h.idle.users, hiter⟩ rfl rfl (fun _ => rfl)
    (fun _ => rfl) h.mine (leaveChan_name s c)

/-- So does leaving one after another. -/
theorem Sane.leaveChans {ms : List MyChan} (h : Sane s) (hleave : Server.leaveChans ms s = some s') :
    Sane s' := by
  induction ms generalizing s with
  | nil =>
    rw [← Option.some.inj hleave]
    exact h
  | cons m ms ih =>
    unfold Server.leaveChans at hleave
    obtain ⟨c, -, hrest⟩ := Option.bind_eq_some_iff.mp hleave
    exact ih (h.leaveChan c) hrest

/-- The users are not touched by it. -/
theorem leaveChans_frame {ms : List MyChan} (h : Server.leaveChans ms s = some s') :
    s'.userlist = s.userlist ∧ s'.persons = s.persons ∧ s'.numregistered = s.numregistered := by
  induction ms generalizing s with
  | nil =>
    rw [← Option.some.inj h]
    exact ⟨rfl, rfl, rfl⟩
  | cons m ms ih =>
    unfold Server.leaveChans at h
    obtain ⟨c, -, hrest⟩ := Option.bind_eq_some_iff.mp h
    have hframe := ih hrest
    exact hframe

/-- The record that is freed is still in memory; its list is cleared. -/
theorem removeUser_persons (s : Server) (u : Uid) : (s.removeUser u).persons
    = (s.updPerson u (·.updChans fun l => l.stop.clear)).persons := rfl

/-- A user may be taken out of `userlist`. -/
theorem Sane.removeUser (h : Sane s) (u : Uid) : Sane (s.removeUser u) := by
  have hget : ∀ {α : Type} (g : Person → α),
      (∀ p : Person, g (p.updChans fun l => l.stop.clear) = g p) →
      ∀ v, g ((s.removeUser u).persons v) = g (s.persons v) := by
    intro α g hg v
    rw [removeUser_persons]
    by_cases hv : v = u
    · rw [hv, updPerson_self, hg]
    · rw [updPerson_ne _ hv]
  have husers : (s.removeUser u).userlist = { s.userlist with
      items := s.userlist.items.eraseP (· = u) } := SimList.delete_of_idle h.idle.users _
  refine h.shrink ?_ (List.Sublist.refl _) ⟨?_, h.idle.chans⟩ rfl rfl
    (hget (·.clientSocket) fun _ => rfl) (hget (·.nick) fun _ => rfl) ?_ (fun _ => rfl)
  · rw [husers]
    exact List.eraseP_sublist
  · rw [husers]
    exact h.idle.users
  · intro v
    rw [removeUser_persons]
    by_cases hv : v = u
    · rw [hv, updPerson_self]
      exact List.nodup_nil
    · rw [updPerson_ne _ hv]
      exact h.mine v

/-- `user_exit` keeps a state sane. -/
theorem Sane.exitUser (h : Sane s) (hexit : s.exitUser u = some s') : Sane s' := by
  obtain ⟨t, hleave, rfl⟩ := Option.map_eq_some_iff.mp hexit
  exact (h.leaveChans hleave).removeUser u

/-- A user's own list may change as long as no name comes twice. -/
theorem Sane.setMine (h : Sane s) {f : SimList MyChan → SimList MyChan}
    (hmine : ((f (s.persons u).myChans).items.map MyChan.name).Nodup) :
    Sane (s.updPerson u (·.updChans f)) := by
  have hget : ∀ {α : Type} (g : Person → α), (∀ p : Person, g (p.updChans f) = g p) →
      ∀ v, g ((s.updPerson u (·.updChans f)).persons v) = g (s.persons v) := by
    intro α g hg v
    by_cases hv : v = u
    · rw [hv, updPerson_self, hg]
    · rw [updPerson_ne _ hv]
  refine h.shrink (List.Sublist.refl _) (List.Sublist.refl _) ⟨h.idle.users, h.idle.chans⟩ rfl rfl
    (hget (·.clientSocket) fun _ => rfl) (hget (·.nick) fun _ => rfl) ?_ (fun _ => rfl)
  intro v
  by_cases hv : v = u
  · rw [hv, updPerson_self]
    exact hmine
  · rw [updPerson_ne _ hv]
    exact h.mine v

/-- A channel that is not in `my_chans` may be appended to it. -/
theorem append_names_nodup {l : SimList MyChan} {m : MyChan}
    (h : (l.items.map MyChan.name).Nodup) (hoff : l.contains (fun x => x.name = m.name) = false) :
    ((l.append m).items.map MyChan.name).Nodup := by
  unfold SimList.append
  by_cases hiter : l.iter.isSome
  · rw [if_pos hiter]
    exact h
  · rw [if_neg hiter]
    show ((l.items ++ [m]).map MyChan.name).Nodup
    rw [List.map_append, List.map_singleton]
    refine List.nodup_append.mpr ⟨h, List.nodup_singleton _, ?_⟩
    intro n hn n' hn' heq
    obtain ⟨x, hx, rfl⟩ := List.mem_map.mp hn
    rw [List.mem_singleton.mp hn'] at heq
    have hmiss := List.any_eq_false.mp hoff x hx
    simp [heq] at hmiss

/-- So a user may enter a channel he is not on. -/
theorem Sane.enter (h : Sane s) {c : Cid} {m : MyChan}
    (hoff : (s.persons u).onChan m.name = false) : Sane (s.enter u c m) := by
  have hin : Sane (s.updPerson u (·.updChans (·.append m))) :=
    h.setMine (append_names_nodup (h.mine u) hoff)
  exact hin.frame (sameShape_updChannel rfl)

/-- Taking channels out leaves the names different. -/
theorem delete_names_nodup {l : SimList MyChan} {same : MyChan → Bool}
    (h : (l.items.map MyChan.name).Nodup) : ((l.delete same).items.map MyChan.name).Nodup := by
  unfold SimList.delete
  by_cases hiter : l.iter.isSome
  · rw [if_pos hiter]
    exact h
  · rw [if_neg hiter]
    exact h.sublist (List.eraseP_sublist.map _)

/-- So a user may leave one. -/
theorem Sane.dropMyChan (h : Sane s) (name : CStr) : Sane (s.dropMyChan u name) :=
  h.setMine (delete_names_nodup (h.mine u))

/-- A new channel takes a place that no other has. -/
theorem addChannel_old {c : Cid} (hc : c < s.nextCid) (cname : CStr) :
    (s.addChannel cname).channels c = s.channels c := by
  unfold Server.addChannel
  exact if_neg (Nat.ne_of_lt hc)

/-- It is empty, and has the name. -/
theorem addChannel_new (s : Server) (cname : CStr) :
    (s.addChannel cname).channels s.nextCid = ⟨cname, [], [], 0⟩ := if_pos rfl

/-- It comes last in `chanlist`. -/
theorem addChannel_chanlist (h : s.chanlist.iter = none) (cname : CStr) :
    (s.addChannel cname).chanlist
      = { s.chanlist with items := s.chanlist.items ++ [s.nextCid] } :=
  SimList.append_of_idle h _

/-- A channel may be made whose name is not found. -/
theorem Sane.addChannel (h : Sane s) {cname : CStr} (hnone : s.seekChan cname = none) :
    Sane (s.addChannel cname) := by
  have hlist := addChannel_chanlist h.idle.chans cname
  have hitems : (s.addChannel cname).chanlist.items = s.chanlist.items ++ [s.nextCid] := by
    rw [hlist]
  refine ⟨⟨h.idle.users, by rw [hlist]; exact h.idle.chans⟩, h.users, h.usersOld, h.fds, h.fdsSmall,
    h.nicks, ?_, ?_, ?_, h.mine⟩
  · rw [hitems]
    exact nodup_fresh h.chans h.chansOld
  · rw [hitems]
    exact lt_fresh h.chansOld
  · rw [hitems]
    refine inj_fresh (· ≠ []) ?_ ?_
    · intro c hc d hd
      rw [addChannel_old (h.chansOld c hc), addChannel_old (h.chansOld d hd)]
      exact h.names c hc d hd
    · intro c hc hne
      rw [addChannel_old (h.chansOld c hc)] at hne ⊢
      rw [addChannel_new]
      intro heq
      dsimp only at heq
      rw [heq] at hne
      exact seekChan_none hnone hne c hc heq

/-- A newcomer takes a record that no other has. -/
theorem arrive_old {fd : Nat} {address : CStr} {v : Uid} (hv : v < s.nextUid) :
    (s.arrive fd address).persons v = s.persons v := by
  unfold Server.arrive
  exact if_neg (Nat.ne_of_lt hv)

/-- He has nothing but his descriptor and his address. -/
theorem arrive_new (s : Server) (fd : Nat) (address : CStr) :
    (s.arrive fd address).persons s.nextUid = ⟨fd, [], [], [], address, [], [], .init⟩ := if_pos rfl

/-- He comes last in `userlist`. -/
theorem arrive_userlist (h : s.userlist.iter = none) (fd : Nat) (address : CStr) :
    (s.arrive fd address).userlist = { s.userlist with items := s.userlist.items ++ [s.nextUid] } :=
  SimList.append_of_idle h _

/-- A client may come with a descriptor that nobody has. -/
theorem Sane.arrive (h : Sane s) {fd : Nat} {address : CStr} (hfd : fd < 0x80000000)
    (hfresh : ∀ u ∈ s.userlist.items, (s.persons u).clientSocket ≠ fd) :
    Sane (s.arrive fd address) := by
  have hlist := arrive_userlist h.idle.users fd address
  have hitems : (s.arrive fd address).userlist.items = s.userlist.items ++ [s.nextUid] := by
    rw [hlist]
  refine ⟨⟨by rw [hlist]; exact h.idle.users, h.idle.chans⟩, ?_, ?_, ?_, ?_, ?_, h.chans, h.chansOld,
    h.names, ?_⟩
  · rw [hitems]
    exact nodup_fresh h.users h.usersOld
  · rw [hitems]
    exact lt_fresh h.usersOld
  · rw [hitems]
    have hfds := inj_fresh (l := s.userlist.items) (n := s.nextUid)
      (f := fun u => ((s.arrive fd address).persons u).clientSocket) (fun _ => True) ?_ ?_
    · exact fun u hu v hv heq => hfds u hu v hv trivial heq
    · intro u hu v hv _
      rw [arrive_old (h.usersOld u hu), arrive_old (h.usersOld v hv)]
      exact h.fds u hu v hv
    · intro u hu _
      rw [arrive_old (h.usersOld u hu), arrive_new]
      exact hfresh u hu
  · rw [hitems]
    intro u hu
    cases List.mem_append.mp hu with
    | inl hu =>
      rw [arrive_old (h.usersOld u hu)]
      exact h.fdsSmall u hu
    | inr hu =>
      rw [List.mem_singleton.mp hu, arrive_new]
      exact hfd
  · rw [hitems]
    refine inj_fresh (· ≠ []) ?_ ?_
    · intro u hu v hv
      rw [arrive_old (h.usersOld u hu), arrive_old (h.usersOld v hv)]
      exact h.nicks u hu v hv
    · intro u hu hne
      rw [arrive_new]
      exact hne
  · intro u
    by_cases hu : u = s.nextUid
    · rw [hu, arrive_new]
      exact List.nodup_nil
    · have hold : (s.arrive fd address).persons u = s.persons u := by
        unfold Server.arrive
        exact if_neg hu
      rw [hold]
      exact h.mine u

theorem sane_init : Sane .init := by
  refine ⟨⟨rfl, rfl⟩, List.nodup_nil, ?_, ?_, ?_, ?_, List.nodup_nil, ?_, ?_, fun _ => List.nodup_nil⟩
  · intro u hu
    cases hu
  · intro u hu
    cases hu
  · intro u hu
    cases hu
  · intro u hu
    cases hu
  · intro c hc
    cases hc
  · intro c hc
    cases hc

/-! ## Leaving, when a channel is lost -/

/-- Leaving a channel does not hide the others. -/
theorem seekChan_leaveChan (h : Sane s) {c : Cid} {name : CStr} (hname : (s.channels c).name ≠ name) :
    (s.leaveChan c).seekChan name = s.seekChan name := by
  have hleft := h.leaveChan c
  by_cases hnil : name = []
  · rw [hnil, seekChan_nil, seekChan_nil]
  cases hfound : s.seekChan name with
  | none =>
    refine List.find?_eq_none.mpr fun d hd hmatch => ?_
    have hd := (leaveChan_chanlist h.idle.chans c).2.subset hd
    rw [leaveChan_name] at hmatch
    exact seekChan_none hfound hnil d hd (of_decide_eq_true hmatch).2
  | some d =>
    obtain ⟨hd, hdname⟩ := seekChan_some hfound
    have hdc : d ≠ c := fun heq => hname (by rw [← heq]; exact hdname)
    refine seekChan_of_mem hleft ?_ ((leaveChan_name s c d).trans hdname) hnil
    show d ∈ (if _ then s.chanlist.delete (· = c) else s.chanlist).items
    by_cases hzero : (s.channels c).numusers - 1 = 0
    · rw [if_pos hzero, SimList.delete_of_idle h.idle.chans, mem_erase_found h.chans]
      exact ⟨hd, hdc⟩
    · rw [if_neg hzero]
      exact hd

/-- The channels of a list cannot all be left if one of them is lost. -/
theorem leaveChans_none_iff {ms : List MyChan} (h : Sane s) (hnodup : (ms.map MyChan.name).Nodup) :
    Server.leaveChans ms s = none ↔ s.lost ms := by
  induction ms generalizing s with
  | nil => simp [Server.leaveChans, Server.lost]
  | cons m ms ih =>
    rw [List.map_cons, List.nodup_cons] at hnodup
    unfold Server.leaveChans
    rw [lost_cons]
    cases hfound : s.seekChan m.name with
    | none => simp
    | some c =>
      have hkeep : ∀ x ∈ ms, (s.leaveChan c).seekChan x.name = s.seekChan x.name := by
        intro x hx
        refine seekChan_leaveChan h fun heq => hnodup.1 ?_
        rw [← (seekChan_some hfound).2, heq]
        exact List.mem_map_of_mem hx
      rw [Option.bind_some, ih (h.leaveChan c) hnodup.2]
      unfold Server.lost
      simp only [reduceCtorEq, false_or]
      exact exists_congr fun x => and_congr_right fun hx => by rw [hkeep x hx]

theorem toVisit_subset (p : Person) : p.toVisit.Sublist p.myChans.items := by
  unfold Person.toVisit SimList.remaining
  rw [SimList.start_eq]
  exact List.drop_sublist _ _

/-- A channel lost in some of the memberships is lost in more. -/
theorem Server.lost.mono {ms ms' : List MyChan} (h : s.lost ms) (hsub : ms ⊆ ms') : s.lost ms' := by
  obtain ⟨m, hm, hnone⟩ := h
  exact ⟨m, hsub hm, hnone⟩

/-- A stopped iteration visits everything the next time. -/
theorem toVisit_stopped (s : Server) (u : Uid) :
    ((s.atMyChan u none).persons u).toVisit = (s.persons u).myChans.items := by
  unfold Person.toVisit Server.atMyChan
  rw [updPerson_self]
  exact SimList.remaining_start rfl

/-- `user_exit` fails exactly when a channel that it visits is lost. -/
theorem exitUser_none_iff (h : Sane s) : s.exitUser u = none ↔ s.lost (s.persons u).toVisit := by
  unfold Server.exitUser
  rw [Option.map_eq_none_iff]
  exact leaveChans_none_iff h ((h.mine u).sublist ((toVisit_subset _).map _))

/-- After `sendtoallchans` it visits all. -/
theorem exitUser_stopped_none_iff (h : Sane s) :
    (s.atMyChan u none).exitUser u = none ↔ s.lost (s.persons u).myChans.items := by
  rw [exitUser_none_iff (h.frame (sameShape_atMyChan s u none)), toVisit_stopped]
  exact Iff.rfl

end UchiNetworks.Chirc
