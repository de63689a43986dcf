import UchiNetworks.Chirc.Announce
import UchiNetworks.Chirc.Members

/-!
# chirc: what `user_exit` leaves behind

`user_exit` is to take a client out of everything: out of `userlist`, and out of the
count of each channel he is on, which goes with its last user (`Gone`). It is called
at the end of a connection and of a QUIT, and wherever a `send` fails, which may be
in the middle of a scan of `userlist` and under mutexes.

It does its work exactly when none of the mutexes that it takes is held, the lists
that it changes are not being iterated, and the iteration over the client's own
channels comes to all of them and finds them (`userExit_iff`, with `ExitsClean`). A
WHOIS leaves that iteration where it is, so that it does not (`userExit_skips`).

The state in which it is called may have iterations over the server's lists running:
`Listed` is the part of `Sane` that does not speak of them.
-/

namespace UchiNetworks.Chirc

open UchiNetworks.Lib
open Prog

variable {self u : Uid} {ok : Nat → Bool} {s s' : Server} {held : List Mutex} {out : List Event}
  {ms : List MyChan}

/-- The lists of the server in any state, in the middle of a handler or between two. -/
structure Listed (s : Server) : Prop where
  users : s.userlist.items.Nodup
  chans : s.chanlist.items.Nodup
  names : ∀ c ∈ s.chanlist.items, ∀ d ∈ s.chanlist.items, (s.channels c).name ≠ [] →
    (s.channels c).name = (s.channels d).name → c = d
  mine : ∀ u, ((s.persons u).myChans.items.map MyChan.name).Nodup

/-- A sane state is listed. -/
theorem Sane.listed (h : Sane s) : Listed s := ⟨h.users, h.chans, h.names, h.mine⟩

/-- One user less. -/
def Channel.less (ch : Channel) : Channel := { ch with numusers := ch.numusers - 1 }

/-- `u` is on the channel, which is in `chanlist`. -/
def Server.isOn (s : Server) (u : Uid) (c : Cid) : Prop :=
  c ∈ s.chanlist.items ∧ (s.persons u).onChan (s.channels c).name = true

/-- **The client is gone**, and nothing else has changed: not the other clients and
what they are on, nor the channels he was not on. Those he was on count one user less,
and have gone if he was the last. -/
structure Gone (s : Server) (u : Uid) (s' : Server) : Prop where
  left : u ∉ s'.userlist.items
  others : ∀ v, v ≠ u → (v ∈ s'.userlist.items ↔ v ∈ s.userlist.items) ∧ s'.persons v = s.persons v
  counted : ∀ c, s.isOn u c → s'.channels c = (s.channels c).less ∧
    (c ∈ s'.chanlist.items ↔ (s.channels c).less.numusers ≠ 0)
  apart : ∀ c, ¬ s.isOn u c → s'.channels c = s.channels c ∧
    (c ∈ s'.chanlist.items ↔ c ∈ s.chanlist.items)

/-- Called in this state and under these mutexes, `user_exit` gets to its end and the
client is gone. -/
def ExitsRight (ok : Nat → Bool) (s : Server) (held : List Mutex) (out : List Event) (self u : Uid) :
    Prop :=
  (userExit self u).Meets ok
    ⟨fun _ w => Gone s u w.state, fun w => Gone s u w.state, fun _ => False, False⟩ ⟨s, held, out⟩

/-- The entry's channel is found, and its mutex is free. -/
def Server.canLeave (s : Server) (held : List Mutex) (m : MyChan) : Prop :=
  ∃ c, s.seekChan m.name = some c ∧ Mutex.chanLock c ∉ held

/-- Where `user_exit` may be called. -/
structure ExitsClean (s : Server) (held : List Mutex) (u : Uid) : Prop where
  own : Mutex.cLock u ∉ held
  lock : Mutex.lock ∉ held
  users : s.userlist.iter = none
  chans : s.chanlist.iter = none ∨ ∀ c, s.isOn u c → (s.channels c).numusers ≠ 1
  visits : ∀ m ∈ (s.persons u).myChans.items, (∃ c ∈ s.chanlist.items, (s.channels c).name = m.name) →
    m ∈ (s.persons u).toVisit
  finds : ∀ m ∈ (s.persons u).toVisit, s.canLeave held m

/-! ## Leaving channels, whether or not a list is iterated -/

/-- Names are different: the search finds the channel itself. -/
theorem seekChan_eq_some (h : Listed s) {name : CStr} {c : Cid} :
    s.seekChan name = some c ↔ c ∈ s.chanlist.items ∧ (s.channels c).name = name ∧ name ≠ [] := by
  refine ⟨fun hseek => ⟨(seekChan_some hseek).1, (seekChan_some hseek).2, seekChan_ne_nil hseek⟩,
    fun ⟨hc, hname, hne⟩ => ?_⟩
  cases hseek : s.seekChan name with
  | none => exact absurd hname (seekChan_none hseek hne c hc)
  | some d =>
    obtain ⟨hd, hdname⟩ := seekChan_some hseek
    rw [h.names d hd c hc (by rw [hdname]; exact hne) (hdname.trans hname.symm)]

/-- Only the channel that is left may go, and only when it is empty. -/
theorem mem_leaveChan (h : Listed s) {c d : Cid} : d ∈ (s.leaveChan c).chanlist.items ↔
    d ∈ s.chanlist.items ∧
      ¬ (s.chanlist.iter = none ∧ d = c ∧ (s.channels c).less.numusers = 0) := by
  show d ∈ (if (s.channels c).less.numusers = 0 then s.chanlist.delete (· = c)
    else s.chanlist).items ↔ _
  by_cases hzero : (s.channels c).less.numusers = 0
  · rw [if_pos hzero]
    cases hiter : s.chanlist.iter with
    | none =>
      rw [SimList.delete_of_idle hiter, mem_erase_found h.chans]
      simp [hzero]
    | some i =>
      unfold SimList.delete
      rw [if_pos (by rw [hiter]; rfl)]
      simp
  · rw [if_neg hzero]
    simp [hzero]

/-- Leaving a channel keeps a state listed. -/
theorem Listed.leaveChan (h : Listed s) (c : Cid) : Listed (s.leaveChan c) where
  users := h.users
  chans := by
    show (if _ then s.chanlist.delete (· = c) else s.chanlist).items.Nodup
    split
    next =>
      unfold SimList.delete
      split
      next => exact h.chans
      next => exact h.chans.sublist List.eraseP_sublist
    next => exact h.chans
  names := by
    intro d hd d' hd'
    rw [leaveChan_name, leaveChan_name]
    exact h.names d ((mem_leaveChan h).mp hd).1 d' ((mem_leaveChan h).mp hd').1
  mine := h.mine

/-- Another channel is found as before. -/
theorem seekChan_left (h : Listed s) {c : Cid} {name : CStr} (hname : (s.channels c).name ≠ name) :
    (s.leaveChan c).seekChan name = s.seekChan name := by
  refine Option.ext fun d => ?_
  rw [seekChan_eq_some (h.leaveChan c), seekChan_eq_some h, leaveChan_name, mem_leaveChan h,
    and_assoc]
  refine and_congr_right fun _ => ⟨fun hd => hd.2, fun hd => ⟨fun hgone => ?_, hd⟩⟩
  rw [← hgone.2.1] at hname
  exact hname hd.1

/-- The channel that the first entry names is none of the others'. -/
theorem seekChan_rest {m : MyChan} (hnodup : ((m :: ms).map MyChan.name).Nodup)
    {c : Cid} (hfound : s.seekChan m.name = some c) :
    ∀ x ∈ ms, (s.channels c).name ≠ x.name := by
  intro x hx heq
  rw [List.map_cons, List.nodup_cons] at hnodup
  refine hnodup.1 ?_
  rw [← (seekChan_some hfound).2, heq]
  exact List.mem_map_of_mem hx

/-- Some entry of the list names the channel. -/
def Server.hits (s : Server) (ms : List MyChan) (c : Cid) : Prop :=
  ∃ m ∈ ms, s.seekChan m.name = some c

/-- A channel is hit first or later. -/
theorem hits_cons {m : MyChan} {c : Cid} :
    s.hits (m :: ms) c ↔ s.seekChan m.name = some c ∨ s.hits ms c := by
  unfold Server.hits
  simp

/-- Its number goes down by one. -/
theorem leaveChan_less (s : Server) (c : Cid) : (s.leaveChan c).channels c = (s.channels c).less := by
  rw [leaveChan_channels, updChannel_self]
  rfl

/-- The others are not touched. -/
theorem leaveChan_other {c d : Cid} (h : d ≠ c) : (s.leaveChan c).channels d = s.channels d := by
  rw [leaveChan_channels, updChannel_ne _ h]

/-- **The channels after the loop.** Those that are hit have one user less, and leave the
list if that was the last and the list may change. -/
theorem leaveChans_hits (h : Listed s) (hnodup : (ms.map MyChan.name).Nodup)
    (hleave : Server.leaveChans ms s = some s') (c : Cid) :
    (s.hits ms c → s'.channels c = (s.channels c).less) ∧
    (¬ s.hits ms c → s'.channels c = s.channels c) ∧
    (c ∈ s'.chanlist.items ↔ c ∈ s.chanlist.items ∧
      ¬ (s.chanlist.iter = none ∧ s.hits ms c ∧ (s.channels c).less.numusers = 0)) ∧
    s'.chanlist.iter = s.chanlist.iter := by
  induction ms generalizing s with
  | nil =>
    have hnone : ¬ s.hits [] c := by simp [Server.hits]
    rw [← Option.some.inj hleave]
    exact ⟨fun hhit => absurd hhit hnone, fun _ => rfl, by simp [hnone], rfl⟩
  | cons m ms ih =>
    unfold Server.leaveChans at hleave
    obtain ⟨d, hfound, hrest⟩ := Option.bind_eq_some_iff.mp hleave
    have hother := seekChan_rest hnodup hfound
    have hkeep : ∀ x ∈ ms, (s.leaveChan d).seekChan x.name = s.seekChan x.name :=
      fun x hx => seekChan_left h (hother x hx)
    have hsame : ∀ e, (s.leaveChan d).hits ms e ↔ s.hits ms e := fun e =>
      exists_congr fun x => and_congr_right fun hx => by rw [hkeep x hx]
    have hiter : (s.leaveChan d).chanlist.iter = s.chanlist.iter := by
      show (if _ then s.chanlist.delete (· = d) else s.chanlist).iter = _
      split
      next =>
        unfold SimList.delete
        split
        next => rfl
        next => rfl
      next => rfl
    rw [List.map_cons, List.nodup_cons] at hnodup
    obtain ⟨hhit, hmiss, hmem, hiter'⟩ := ih (h.leaveChan d) hnodup.2 hrest
    rw [hsame, hiter] at hmem
    rw [hsame] at hhit hmiss
    rw [mem_leaveChan h] at hmem
    rw [hits_cons, hfound]
    by_cases hc : c = d
    · -- the first entry's channel, which no other entry names
      have hnot : ¬ s.hits ms c := by
        intro hhit
        obtain ⟨x, hx, hseek⟩ := hhit
        rw [← hc] at hother
        exact hother x hx (seekChan_some hseek).2
      rw [hc] at hnot hmem hmiss ⊢
      refine ⟨fun _ => ?_, fun hneither => absurd (Or.inl rfl) hneither, ?_, hiter'.trans hiter⟩
      · rw [hmiss hnot, leaveChan_less]
      · rw [hmem]
        simp [hnot]
    · have hne : ¬ some d = some c := fun heq => hc (Option.some.inj heq).symm
      rw [leaveChan_other hc] at hhit hmiss hmem
      refine ⟨fun hor => hhit (hor.resolve_left hne), fun hneither => hmiss (not_or.mp hneither).2,
        ?_, hiter'.trans hiter⟩
      rw [hmem]
      simp [hc, hne]

/-! ## The run -/

/-- One turn, for a channel that can be left. -/
theorem exitChannel_left {m : MyChan} {c : Cid} {i : Nat} {Q : Post Server Mutex Event Fault Unit}
    (hlock : Mutex.lock ∉ held) (hchan : Mutex.chanLock c ∉ held)
    (hfound : s.seekChan m.name = some c) :
    (exitChannel u m ()).Meets ok Q ⟨s.atMyChan u (some i), held, out⟩ ↔
      Q.done () ⟨(s.leaveChan c).atMyChan u (some (i + 1)), held, out⟩ := by
  unfold exitChannel
  rw [change_bind, nextMyChan_atMyChan, lookChan_eq hlock, atMyChan_seekChan, hfound, deref_bind,
    leaveChannel_eq hlock hchan, leaveChan_atMyChan]

/-- What one turn does is nothing to the others: the names differ. -/
theorem canLeave_left (h : Listed s) {c : Cid} {x : MyChan} (hname : (s.channels c).name ≠ x.name) :
    (s.leaveChan c).canLeave held x ↔ s.canLeave held x := by
  unfold Server.canLeave
  rw [seekChan_left h hname]

/-- No channel is visited twice. -/
theorem toVisit_nodup (h : Listed s) : ((s.persons u).toVisit.map MyChan.name).Nodup :=
  (h.mine u).sublist ((toVisit_subset _).map _)

/-- Where every channel can be left, `user_exit` does what `exitUser` says. -/
theorem userExit_done (h : Listed s) (hown : Mutex.cLock u ∉ held) (hlock : Mutex.lock ∉ held)
    (hfinds : ∀ m ∈ (s.persons u).toVisit, s.canLeave held m) :
    (userExit self u).Meets ok
      ⟨fun _ w => s.exitUser u = some w.state, fun w => s.exitUser u = some w.state,
        fun _ => False, False⟩ ⟨s, held, out⟩ := by
  have hlock' : Mutex.lock ∉ Mutex.cLock u :: held := by simp [hlock]
  unfold userExit
  rw [acquire_bind hown, look_bind, output_bind, change_bind, startMyChans_eq, look_bind,
    remaining_startMyChans, meets_bind]
  refine meets_forEach (fun ms _ w => ∃ i s' out',
    w = ⟨s'.atMyChan u (some i), .cLock u :: held, out'⟩ ∧ Listed s' ∧
    (ms.map MyChan.name).Nodup ∧ (∀ m ∈ ms, s'.canLeave held m) ∧
    (Server.leaveChans ms s').map (·.removeUser u) = s.exitUser u) ?_ ?_ _ _ _
    ⟨_, s, _, rfl, h, toVisit_nodup h, hfinds, rfl⟩
  · intro m ms _ w hw _
    obtain ⟨i, s', out', rfl, hlisted, hnodup, hcan, hrest⟩ := hw
    obtain ⟨c, hfound, hchan⟩ := hcan m List.mem_cons_self
    have hother := seekChan_rest hnodup hfound
    refine (exitChannel_left hlock' (by simp [hchan]) hfound).mpr ⟨i + 1, s'.leaveChan c, out', rfl,
      hlisted.leaveChan c, ?_, fun x hx => ?_, ?_⟩
    · exact (List.nodup_cons.mp hnodup).2
    · exact (canLeave_left hlisted (hother x hx)).mpr (hcan x (List.mem_cons_of_mem _ hx))
    · rw [← hrest, Server.leaveChans, hfound, Option.bind_some]
  · intro ms _ w hw hend
    obtain ⟨i, s', out', rfl, -, -, -, hrest⟩ := hw
    have hms : ms = [] := by simpa using hend
    rw [hms, Server.leaveChans, Option.map_some] at hrest
    have hremove : ((s'.atMyChan u none).updPerson u (·.updChans SimList.clear))
        = s'.updPerson u (·.updChans fun l => l.stop.clear) := by
      unfold Server.atMyChan
      rw [updPerson_updPerson]
      rfl
    have hgone : ({ (s'.atMyChan u none).updPerson u (·.updChans SimList.clear) with
        userlist := s'.userlist.delete (· = u)
        numregistered := s'.numregistered - 1 } : Server) = s'.removeUser u := by
      unfold Server.removeUser
      rw [hremove]
    show (change (stopMyChans u) >>= _ : Act Unit).Meets ok _ _
    rw [change_bind, stopMyChans_atMyChan, change_bind, lockedChange_bind hlock', release_bind,
      meets_onlyIf]
    exact ⟨fun _ => hrest.symm.trans (congrArg some hgone.symm),
      fun _ => hrest.symm.trans (congrArg some hgone.symm)⟩

/-- Under `lock`, or where a channel cannot be left, it does not get to its end. -/
theorem userExit_never (h : Listed s) (hown : Mutex.cLock u ∉ held)
    (hbad : Mutex.lock ∈ held ∨ ∃ m ∈ (s.persons u).toVisit, ¬ s.canLeave held m) :
    (userExit self u).Meets ok ⟨fun _ _ => False, fun _ => False, fun _ => True, True⟩
      ⟨s, held, out⟩ := by
  unfold userExit
  rw [acquire_bind hown, look_bind, output_bind, change_bind, startMyChans_eq, look_bind,
    remaining_startMyChans, meets_bind]
  -- what stops it stays ahead
  refine meets_forEach (fun ms _ w => ∃ i s' out',
    w = ⟨s'.atMyChan u (some i), .cLock u :: held, out'⟩ ∧ Listed s' ∧
    (ms.map MyChan.name).Nodup ∧ (Mutex.lock ∈ held ∨ ∃ m ∈ ms, ¬ s'.canLeave held m)) ?_ ?_ _ _ _
    ⟨_, s, _, rfl, h, toVisit_nodup h, hbad⟩
  · intro m ms _ w hw _
    obtain ⟨i, s', out', rfl, hlisted, hnodup, hbad⟩ := hw
    by_cases hlock : Mutex.lock ∈ held
    · unfold exitChannel lookChan
      rw [change_bind, meets_bind, meets_bind, meets_acquire_held (List.mem_cons_of_mem _ hlock)]
      trivial
    · have hlock' : Mutex.lock ∉ Mutex.cLock u :: held := by simp [hlock]
      cases hfound : s'.seekChan m.name with
      | none =>
        unfold exitChannel
        rw [change_bind, nextMyChan_atMyChan, lookChan_eq hlock', atMyChan_seekChan, hfound,
          deref_null_bind]
        trivial
      | some c =>
        by_cases hchan : Mutex.chanLock c ∈ held
        · unfold exitChannel leaveChannel
          rw [change_bind, nextMyChan_atMyChan, lookChan_eq hlock', atMyChan_seekChan, hfound,
            deref_bind, meets_bind, meets_acquire_held (List.mem_cons_of_mem _ hchan)]
          trivial
        · have hother := seekChan_rest hnodup hfound
          obtain ⟨x, hx, hxbad⟩ := hbad.resolve_left hlock
          have hxin : x ∈ ms := by
            refine (List.mem_cons.mp hx).resolve_left fun heq => hxbad ?_
            rw [heq]
            exact ⟨c, hfound, hchan⟩
          refine (exitChannel_left hlock' (by simp [hchan]) hfound).mpr ⟨i + 1, s'.leaveChan c, out',
            rfl, hlisted.leaveChan c, (List.nodup_cons.mp hnodup).2, Or.inr ⟨x, hxin, ?_⟩⟩
          rw [canLeave_left hlisted (hother x hxin)]
          exact hxbad
  · intro ms _ w hw hend
    obtain ⟨i, s', out', rfl, -, -, hbad⟩ := hw
    have hms : ms = [] := by simpa using hend
    rcases hbad with hlock | ⟨m, hm, -⟩
    · show (change (stopMyChans u) >>= _ : Act Unit).Meets ok _ _
      rw [change_bind, change_bind, meets_bind, meets_acquire_held (List.mem_cons_of_mem _ hlock)]
      trivial
    · rw [hms] at hm
      cases hm

/-! ## What is left -/

/-- Who is visited at an entry is on its channel. -/
theorem isOn_of_hits (h : Listed s) {c : Cid} (hhit : s.hits (s.persons u).toVisit c) : s.isOn u c := by
  obtain ⟨m, hm, hseek⟩ := hhit
  obtain ⟨hc, hname, -⟩ := (seekChan_eq_some h).mp hseek
  refine ⟨hc, onChan_iff.mpr ?_⟩
  rw [hname]
  exact List.mem_map_of_mem ((toVisit_subset _).subset hm)

/-- Who is on a channel has an entry for it. -/
theorem exists_entry {c : Cid} (hon : s.isOn u c) :
    ∃ m ∈ (s.persons u).myChans.items, (s.channels c).name = m.name := by
  obtain ⟨m, hm, hname⟩ := List.mem_map.mp (onChan_iff.mp hon.2)
  exact ⟨m, hm, hname.symm⟩

/-- The entry for a channel that is hit is visited. -/
theorem mem_toVisit_of_hits (h : Listed s) {c : Cid} {m : MyChan}
    (hm : m ∈ (s.persons u).myChans.items) (hname : (s.channels c).name = m.name)
    (hhit : s.hits (s.persons u).toVisit c) : m ∈ (s.persons u).toVisit := by
  obtain ⟨m', hm', hseek⟩ := hhit
  have hsame : m'.name = m.name := ((seekChan_eq_some h).mp hseek).2.1.symm.trans hname
  rw [← List.inj_on_of_nodup_map (h.mine u) ((toVisit_subset _).subset hm') hm hsame]
  exact hm'

/-- **What is left is right** exactly when the lists may change and every channel the
client is on is visited. -/
theorem gone_iff (h : Listed s) (hin : u ∈ s.userlist.items)
    (hfinds : ∀ m ∈ (s.persons u).toVisit, s.canLeave held m) (hexit : s.exitUser u = some s') :
    Gone s u s' ↔ s.userlist.iter = none ∧
      (s.chanlist.iter = none ∨ ∀ c, s.isOn u c → (s.channels c).numusers ≠ 1) ∧
      ∀ m ∈ (s.persons u).myChans.items, (∃ c ∈ s.chanlist.items, (s.channels c).name = m.name) →
        m ∈ (s.persons u).toVisit := by
  obtain ⟨s₁, hleave, rfl⟩ := Option.map_eq_some_iff.mp hexit
  obtain ⟨husers, hpersons, -⟩ := leaveChans_frame hleave
  have hchannels := leaveChans_hits h (toVisit_nodup h) hleave
  have hless : ∀ ch : Channel, ch.less.numusers ≠ 0 ↔ ch.numusers ≠ 1 := by
    intro ch
    show ch.numusers - 1 ≠ 0 ↔ _
    omega
  have hchanged : ∀ ch : Channel, ch.less ≠ ch := by
    intro ch heq
    have hcount := congrArg Channel.numusers heq
    have hcount : ch.numusers - 1 = ch.numusers := hcount
    omega
  refine ⟨fun hgone => ⟨?_, ?_, ?_⟩, fun ⟨hidle, hchans, hvisits⟩ => ⟨?_, ?_, ?_, ?_⟩⟩
  · -- a list that is iterated refuses to let him go
    cases hiter : s.userlist.iter with
    | none => rfl
    | some i =>
      refine absurd ?_ hgone.left
      show u ∈ (s₁.userlist.delete (· = u)).items
      unfold SimList.delete
      rw [husers, if_pos (by rw [hiter]; rfl)]
      exact hin
  · cases hiter : s.chanlist.iter with
    | none => exact Or.inl rfl
    | some i =>
      refine Or.inr fun c hon => (hless _).mp ?_
      refine (hgone.counted c hon).2.mp ?_
      refine (hchannels c).2.2.1.mpr ⟨hon.1, fun hboth => ?_⟩
      rw [hiter] at hboth
      cases hboth.1
  · intro m hm hlisted
    obtain ⟨c, hc, hname⟩ := hlisted
    have hon : s.isOn u c := by
      refine ⟨hc, onChan_iff.mpr ?_⟩
      rw [hname]
      exact List.mem_map_of_mem hm
    refine mem_toVisit_of_hits h hm hname ?_
    by_contra hmiss
    exact hchanged _ ((hgone.counted c hon).1.symm.trans ((hchannels c).2.1 hmiss))
  · show u ∉ (s₁.userlist.delete (· = u)).items
    rw [husers, SimList.delete_of_idle hidle, mem_erase_found h.users]
    exact fun hboth => hboth.2 rfl
  · intro v hv
    refine ⟨?_, ?_⟩
    · show v ∈ (s₁.userlist.delete (· = u)).items ↔ _
      rw [husers, SimList.delete_of_idle hidle, mem_erase_found h.users]
      exact and_iff_left hv
    · rw [removeUser_persons, updPerson_ne _ hv, hpersons]
  · intro c hon
    obtain ⟨m, hm, hname⟩ := exists_entry hon
    have hvisited := hvisits m hm ⟨c, hon.1, hname⟩
    have hhit : s.hits (s.persons u).toVisit c := by
      obtain ⟨d, hseek, -⟩ := hfinds m hvisited
      obtain ⟨hd, hdname, hne⟩ := (seekChan_eq_some h).mp hseek
      rw [h.names c hon.1 d hd (by rw [hname]; exact hne) (hname.trans hdname.symm)]
      exact ⟨m, hvisited, hseek⟩
    refine ⟨(hchannels c).1 hhit, (hchannels c).2.2.1.trans ?_⟩
    rcases hchans with hidle | hmany
    · simp [hon.1, hidle, hhit]
    · have hkept := (hless _).mpr (hmany c hon)
      simp [hon.1, hkept]
  · intro c hoff
    have hmiss : ¬ s.hits (s.persons u).toVisit c := fun hhit => hoff (isOn_of_hits h hhit)
    refine ⟨(hchannels c).2.1 hmiss, (hchannels c).2.2.1.trans ?_⟩
    simp [hmiss]

/-- **`user_exit` does its work** exactly where it may be called. -/
theorem userExit_iff (h : Listed s) (hin : u ∈ s.userlist.items) :
    ExitsRight ok s held out self u ↔ ExitsClean s held u := by
  refine ⟨fun hright => ?_, fun hclean => ?_⟩
  · have hown : Mutex.cLock u ∉ held := by
      intro hheld
      exact (userExit_held hheld).mp hright
    have hgood : ¬ (Mutex.lock ∈ held ∨ ∃ m ∈ (s.persons u).toVisit, ¬ s.canLeave held m) := by
      intro hbad
      exact hright.absurd (userExit_never h hown hbad) (fun _ _ _ h => h) (fun _ _ h => h)
        (fun _ h _ => h) (fun h _ => h)
    rw [not_or] at hgood
    have hfinds : ∀ m ∈ (s.persons u).toVisit, s.canLeave held m := by
      intro m hm
      by_contra hbad
      exact hgood.2 ⟨m, hm, hbad⟩
    have hends : ∃ s', s.exitUser u = some s' ∧ Gone s u s' := by
      by_contra hnot
      refine hright.absurd (userExit_done h hown hgood.1 hfinds) ?_ ?_ (fun _ h _ => h) (fun h _ => h)
      · exact fun _ w hgone hexit => hnot ⟨w.state, hexit, hgone⟩
      · exact fun w hgone hexit => hnot ⟨w.state, hexit, hgone⟩
    obtain ⟨s', hexit, hgone⟩ := hends
    obtain ⟨husers, hchans, hvisits⟩ := (gone_iff h hin hfinds hexit).mp hgone
    exact ⟨hown, hgood.1, husers, hchans, hvisits, hfinds⟩
  · have hgone : ∀ s', s.exitUser u = some s' → Gone s u s' := fun s' hexit =>
      (gone_iff h hin hclean.finds hexit).mpr ⟨hclean.users, hclean.chans, hclean.visits⟩
    exact (userExit_done h hclean.own hclean.lock hclean.finds).mono
      (fun _ w hexit => hgone _ hexit) (fun w hexit => hgone _ hexit) (fun _ h => h) (fun h => h)

theorem userExit_shared : ∃ s, Reachable .plain s ∧ s.isOn 0 0 ∧
    (ExitsRight allOk s [] [] 0 0 ↔ ExitsClean s [] 0) := by
  have hany : ∀ r ∈ sharesOneChan, ∀ s, anyRequest s r := fun _ _ _ => trivial
  obtain ⟨s, hpath, hs⟩ := exists_of_follow
    (p := fun s => (0 : Uid) ∈ s.userlist.items ∧ (0 : Cid) ∈ s.chanlist.items ∧
      (s.persons 0).onChan (s.channels 0).name = true)
    hany (by decide +kernel : (follow (next .plain) .init sharesOneChan).any _ = true)
  obtain ⟨hin, hon⟩ := of_decide_eq_true hs
  exact ⟨s, ⟨_, hpath⟩, hon, userExit_iff (sane_of_path hpath).listed hin⟩

/-- Somebody has asked about a client before his connection ends: he goes without
leaving his channel. -/
theorem userExit_skips : ¬ ∀ (cfg : Config) (ok : Nat → Bool) (s : Server) (u : Uid),
    Reachable cfg s → u ∈ s.userlist.items → ExitsRight ok s [] [] u u := by
  intro hall
  have hany : ∀ r ∈ sharesOneChan ++ [.plain (.line 1 ["WHOIS", "a"])], ∀ s, anyRequest s r :=
    fun _ _ _ => trivial
  obtain ⟨s, hpath, hs⟩ := exists_of_follow
    (p := fun s => (0 : Uid) ∈ s.userlist.items ∧ (s.persons 0).toVisit = [] ∧
      ((s.persons 0).myChans.items.any fun m =>
        s.chanlist.items.any fun c => (s.channels c).name = m.name) = true)
    hany (by decide +kernel : (follow (next .plain) .init _).any _ = true)
  obtain ⟨hin, hnone, hon⟩ := of_decide_eq_true hs
  have hlisted := (sane_of_path hpath).listed
  have hfinds : ∀ m ∈ (s.persons 0).toVisit, s.canLeave [] m := by
    intro m hm
    rw [hnone] at hm
    cases hm
  obtain ⟨m, hm, hchan⟩ := List.any_eq_true.mp hon
  obtain ⟨c, hc, hname⟩ := List.any_eq_true.mp hchan
  refine (hall .plain allOk s 0 ⟨_, hpath⟩ hin).absurd
    (userExit_done hlisted List.not_mem_nil List.not_mem_nil hfinds) ?_ ?_ (fun _ h _ => h)
    (fun h _ => h)
  · intro _ w hgone hexit
    have hvisited := ((gone_iff hlisted hin hfinds hexit).mp hgone).2.2 m hm
      ⟨c, hc, of_decide_eq_true hname⟩
    rw [hnone] at hvisited
    cases hvisited
  · intro w hgone hexit
    have hvisited := ((gone_iff hlisted hin hfinds hexit).mp hgone).2.2 m hm
      ⟨c, hc, of_decide_eq_true hname⟩
    rw [hnone] at hvisited
    cases hvisited

end UchiNetworks.Chirc
