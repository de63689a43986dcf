import UchiNetworks.Chirc.Effect

/-!
# chirc: leaving, relaying and joining

What the shared functions that change the server do when they run alone:
`user_exit`, `sendtoallchans` and the parts of `channel_join`.
-/

namespace UchiNetworks.Chirc

open UchiNetworks.Lib
open Prog

variable {self user : Uid} {ok : Nat → Bool} {s : Server} {held : List Mutex} {out : List Event}
  {β : Type}

/-! ## The iteration over a user's channels -/

@[simp] theorem updPerson_self (s : Server) (u : Uid) (f : Person → Person) :
    (s.updPerson u f).persons u = f (s.persons u) := if_pos rfl

/-- The other records stay as they are. -/
theorem updPerson_ne {s : Server} {u v : Uid} (f : Person → Person) (h : v ≠ u) :
    (s.updPerson u f).persons v = s.persons v := if_neg h

@[simp] theorem updChannel_self (s : Server) (c : Cid) (f : Channel → Channel) :
    (s.updChannel c f).channels c = f (s.channels c) := if_pos rfl

/-- So do the other channels. -/
theorem updChannel_ne {s : Server} {c d : Cid} (f : Channel → Channel) (h : d ≠ c) :
    (s.updChannel c f).channels d = s.channels d := if_neg h

/-- Two changes of one record are one. -/
theorem updPerson_updPerson (s : Server) (u : Uid) (f g : Person → Person) :
    (s.updPerson u f).updPerson u g = s.updPerson u fun p => g (f p) := by
  unfold Server.updPerson
  congr 1
  funext v
  by_cases hv : v = u
  · simp [hv]
  · simp [hv]

/-- A change that changes nothing. -/
theorem updPerson_eq_self {s : Server} {u : Uid} {f : Person → Person}
    (h : f (s.persons u) = s.persons u) : s.updPerson u f = s := by
  unfold Server.updPerson
  have hfun : (fun v => if v = u then f (s.persons v) else s.persons v) = s.persons := by
    funext v
    by_cases hv : v = u
    · rw [if_pos hv, hv, h]
    · rw [if_neg hv]
  rw [hfun]

/-- Only what a change does to the record that is there matters. -/
theorem updPerson_congr {s : Server} {u : Uid} {f g : Person → Person}
    (h : f (s.persons u) = g (s.persons u)) : s.updPerson u f = s.updPerson u g := by
  unfold Server.updPerson
  congr 1
  funext v
  by_cases hv : v = u
  · rw [if_pos hv, if_pos hv, hv, h]
  · rw [if_neg hv, if_neg hv]

/-- Starting, advancing and stopping the iteration move `atMyChan`. -/
theorem startMyChans_eq (s : Server) (u : Uid) :
    startMyChans u s = s.atMyChan u (some (s.persons u).iterPos) := by
  unfold startMyChans Server.atMyChan Server.updPerson
  congr 1
  funext v
  by_cases hv : v = u
  · rw [if_pos hv, if_pos hv, hv]
    show { s.persons u with myChans := (s.persons u).myChans.start } = _
    rw [SimList.start_eq]
    rfl
  · rw [if_neg hv, if_neg hv]

@[simp] theorem nextMyChan_atMyChan (s : Server) (u : Uid) (i : Nat) :
    nextMyChan u (s.atMyChan u (some i)) = s.atMyChan u (some (i + 1)) := by
  unfold nextMyChan Server.atMyChan
  rw [updPerson_updPerson]
  rfl

@[simp] theorem stopMyChans_atMyChan (s : Server) (u : Uid) (i : Option Nat) :
    stopMyChans u (s.atMyChan u i) = s.atMyChan u none := by
  unfold stopMyChans Server.atMyChan
  rw [updPerson_updPerson]
  rfl

@[simp] theorem atMyChan_seekChan (s : Server) (u : Uid) (i : Option Nat) (name : CStr) :
    (s.atMyChan u i).seekChan name = s.seekChan name := rfl

/-- An iteration that runs already is not begun anew. -/
theorem remaining_startMyChans (s : Server) (u : Uid) :
    ((s.atMyChan u (some (s.persons u).iterPos)).persons u).myChans.remaining
      = (s.persons u).toVisit := by
  rw [← startMyChans_eq]
  unfold startMyChans
  rw [updPerson_self]
  rfl

/-! ## Leaving a channel -/

/-- The search of `chanlist` comes to `seekChan`. -/
theorem lookChan_eq {g : Option Cid → Act β} {name : CStr} {Q : Post Server Mutex Event Fault β}
    (hlock : Mutex.lock ∉ held) :
    (lookChan name >>= g).Meets ok Q ⟨s, held, out⟩ ↔
      (g (s.seekChan name)).Meets ok Q ⟨s, held, out⟩ := by
  unfold lookChan
  rw [meets_bind, lockedLook_bind hlock]
  exact Iff.rfl

/-- `channel_destroy` takes an empty channel out of `chanlist`. -/
theorem channelDestroy_eq {c : Cid} {Q : Post Server Mutex Event Fault Unit}
    (hlock : Mutex.lock ∉ held) (hchan : Mutex.chanLock c ∉ held)
    (hzero : (s.channels c).numusers = 0) :
    (channelDestroy c).Meets ok Q ⟨s, held, out⟩ ↔
      Q.done () ⟨{ s with chanlist := s.chanlist.delete (· = c) }, held, out⟩ := by
  unfold channelDestroy
  rw [acquire_bind hchan, look_bind, if_neg (by simpa using hzero), acquire_bind (by simp [hlock]),
    change_bind, release_bind, List.erase_cons_head, meets_release, List.erase_cons_head]

/-- `leaveChannel` comes to `leaveChan`. -/
theorem leaveChannel_eq {c : Cid} {Q : Post Server Mutex Event Fault Unit}
    (hlock : Mutex.lock ∉ held) (hchan : Mutex.chanLock c ∉ held) :
    (leaveChannel c).Meets ok Q ⟨s, held, out⟩ ↔ Q.done () ⟨s.leaveChan c, held, out⟩ := by
  have hcount : ((s.updChannel c fun ch => { ch with numusers := ch.numusers - 1 }).channels
      c).numusers = (s.channels c).numusers - 1 := by
    rw [updChannel_self]
  unfold leaveChannel Server.leaveChan
  rw [lockedChange_bind hchan, look_bind, meets_onlyIf]
  by_cases hzero : (s.channels c).numusers - 1 = 0
  · rw [channelDestroy_eq hlock hchan (hcount.trans hzero), if_pos hzero]
    simp only [hcount, hzero, decide_true, true_implies, Bool.true_eq_false, false_implies,
      and_true]
    exact Iff.rfl
  · rw [if_neg hzero]
    simp only [hcount, hzero, decide_false, Bool.false_eq_true, false_implies, true_implies,
      true_and]
    exact Iff.rfl

/-- It does not look at any iteration. -/
theorem leaveChan_atMyChan (s : Server) (u : Uid) (i : Option Nat) (c : Cid) :
    (s.atMyChan u i).leaveChan c = (s.leaveChan c).atMyChan u i := rfl

/-- A turn of `user_exit`'s loop, which reads through the channel it finds. -/
theorem exitChannel_meets {m : MyChan} {i : Nat} {Q : Post Server Mutex Event Fault Unit}
    (hlock : Mutex.lock ∉ held) (hchan : ∀ c, Mutex.chanLock c ∉ held) :
    (exitChannel user m ()).Meets ok Q ⟨s.atMyChan user (some i), held, out⟩ ↔
      (∀ c, s.seekChan m.name = some c →
        Q.done () ⟨(s.leaveChan c).atMyChan user (some (i + 1)), held, out⟩) ∧
      (s.seekChan m.name = none → Q.crashed .null) := by
  unfold exitChannel
  rw [change_bind, nextMyChan_atMyChan, lookChan_eq hlock, atMyChan_seekChan]
  cases hseek : s.seekChan m.name with
  | none =>
    rw [deref_null_bind]
    simp
  | some c =>
    rw [deref_bind, leaveChannel_eq hlock (hchan c), leaveChan_atMyChan]
    simp

/-- What `user_exit` does alone: the thread ends, unless it acts for another. -/
theorem userExit_meets {Q : Post Server Mutex Event Fault Unit}
    (hdone : ∀ s', s.exitUser user = some s' → self ≠ user → ∀ out', Q.done () ⟨s', [], out'⟩)
    (hexit : ∀ s', s.exitUser user = some s' → self = user → ∀ out', Q.exited ⟨s', [], out'⟩)
    (hcrash : s.exitUser user = none → Q.crashed .null) :
    (userExit self user).Meets ok Q ⟨s, [], out⟩ := by
  unfold userExit
  rw [acquire_bind List.not_mem_nil, look_bind, output_bind, change_bind, startMyChans_eq, look_bind,
    remaining_startMyChans, meets_bind]
  -- what is left to visit takes the state where `exitUser` takes it
  refine meets_forEach (fun ms _ w => ∃ i s' out', w = ⟨s'.atMyChan user (some i), [.cLock user], out'⟩ ∧
    (Server.leaveChans ms s').map (·.removeUser user) = s.exitUser user) ?_ ?_ _ _ _ ⟨_, s, _, rfl, rfl⟩
  · intro m ms _ w hw _
    obtain ⟨i, s', out', rfl, hrest⟩ := hw
    rw [exitChannel_meets (by simp) (by simp)]
    refine ⟨?_, ?_⟩
    · intro c hseek
      refine ⟨i + 1, s'.leaveChan c, out', rfl, ?_⟩
      rw [← hrest, Server.leaveChans, hseek, Option.bind_some]
    · intro hseek
      refine hcrash ?_
      rw [← hrest, Server.leaveChans, hseek, Option.bind_none, Option.map_none]
  · intro ms _ w hw hend
    obtain ⟨i, s', out', rfl, hrest⟩ := hw
    have hms : ms = [] := by simpa using hend
    rw [hms, Server.leaveChans, Option.map_some] at hrest
    have hremove : ((s'.atMyChan user none).updPerson user (·.updChans SimList.clear))
        = s'.updPerson user (·.updChans fun l => l.stop.clear) := by
      unfold Server.atMyChan
      rw [updPerson_updPerson]
      rfl
    have hend : ({ (s'.atMyChan user none).updPerson user (·.updChans SimList.clear) with
        userlist := s'.userlist.delete (· = user)
        numregistered := s'.numregistered - 1 } : Server) = s'.removeUser user := by
      unfold Server.removeUser
      rw [hremove]
    show (change (stopMyChans user) >>= _ : Act Unit).Meets ok Q _
    rw [change_bind, stopMyChans_atMyChan, change_bind, lockedChange_bind (by simp), release_bind,
      List.erase_cons_head, meets_onlyIf]
    -- the thread acts for itself, or for a client whose socket failed
    by_cases hself : self = user
    · have hgoal := hexit _ hrest.symm hself out'
      rw [← hend] at hgoal
      simp only [hself, decide_true, true_implies, Bool.true_eq_false, false_implies, and_true,
        meets_exit]
      exact hgoal
    · have hgoal := hdone _ hrest.symm hself out'
      rw [← hend] at hgoal
      simp only [hself, decide_false, Bool.false_eq_true, false_implies, true_implies, true_and]
      exact hgoal

/-! ## Relaying to all channels of a user -/

/-- A recipient has another nick than the sender. -/
theorem isRecipient_ne {u v : Uid} {cname : CStr} (h : isRecipient s u cname (some v)) : u ≠ v := by
  intro heq
  rw [heq] at h
  simp [isRecipient] at h

/-- A lost channel is the first one or a later one. -/
theorem lost_cons {m : MyChan} {ms : List MyChan} :
    s.lost (m :: ms) ↔ s.seekChan m.name = none ∨ s.lost ms := by
  unfold Server.lost
  simp

/-- `sendtoallchans` stops the iteration; it crashes at a channel that is lost. -/
theorem sendtoallchans_meets {msg : CStr} {Q : Post Server Mutex Event Fault Unit}
    (h : s.userlist.iter = none) (hdone : ¬ s.lost (s.persons user).toVisit →
      ∀ msgs, Q.done () ⟨s.atMyChan user none, [], out ++ msgs⟩)
    (hcrash : s.lost (s.persons user).toVisit → Q.crashed .null) (hstuck : Fails ok → Q.stuck) :
    (sendtoallchans self user msg).Meets ok Q ⟨s, [], out⟩ := by
  unfold sendtoallchans
  rw [acquire_bind List.not_mem_nil, change_bind, startMyChans_eq, look_bind,
    remaining_startMyChans, meets_bind]
  -- a channel that is lost stays ahead until it is come to
  refine meets_forEach (fun ms _ w => ∃ i msgs,
    w = ⟨s.atMyChan user (some i), [.cLock user], out ++ msgs⟩ ∧
    (s.lost ms ↔ s.lost (s.persons user).toVisit)) ?_ ?_ _ _ _
    ⟨_, [], by rw [List.append_nil], Iff.rfl⟩
  · intro m ms _ w hw _
    obtain ⟨i, msgs, rfl, hsame⟩ := hw
    unfold relayChan
    rw [change_bind, nextMyChan_atMyChan, lookChan_eq (by simp), atMyChan_seekChan]
    cases hseek : s.seekChan m.name with
    | none => exact hcrash (hsame.mp (lost_cons.mpr (Or.inl hseek)))
    | some c =>
      refine says_then (sendtochannel_said h (by simp) ?_) hstuck ?_
      · intro u hu
        have hne := isRecipient_ne hu
        simpa using hne
      · refine ⟨i + 1, _, by rw [List.append_assoc], ?_⟩
        rw [← hsame, lost_cons, hseek]
        simp
  · intro ms _ w hw hend
    obtain ⟨i, msgs, rfl, hsame⟩ := hw
    have hms : ms = [] := by simpa using hend
    have hfound : ¬ s.lost (s.persons user).toVisit := by
      rw [← hsame, hms]
      simp [Server.lost]
    show (do change (stopMyChans user); release (.cLock user) : Act Unit).Meets ok Q _
    rw [change_bind, stopMyChans_atMyChan, meets_release, List.erase_cons_head]
    exact hdone hfound msgs

end UchiNetworks.Chirc
