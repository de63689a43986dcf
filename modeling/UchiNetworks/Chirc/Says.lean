import UchiNetworks.Chirc.Server

/-!
# chirc: programs that only talk

Most of what the handlers do is to send: `Says ok w msgs` is the end of a
program that started in the world `w`, has handed out `msgs` and changed nothing
else. It may block when an output fails: whoever cannot be reached is removed
with `user_exit`, which takes the mutex that the sender already holds.

The iterations over `userlist` are undone when they stop. `Server.atUser` is the
server in the middle of one.
-/

namespace UchiNetworks.Chirc

open UchiNetworks.Lib
open Prog

variable {cfg : Config} {self user : Uid} {ok : Nat → Bool} {w : World Server Mutex Event}
  {β : Type}

/-- Some output fails. -/
def Fails (ok : Nat → Bool) : Prop := ∃ n, ok n = false

/-- What a program that only talks leaves behind. -/
def Says (ok : Nat → Bool) (w : World Server Mutex Event) (msgs : List Event) :
    Post Server Mutex Event Fault Unit where
  done := fun _ w' => w' = { w with out := w.out ++ msgs }
  exited := fun _ => False
  crashed := fun _ => False
  stuck := Fails ok

/-- The same when it does not matter what was said. -/
def Talks (ok : Nat → Bool) (w : World Server Mutex Event) :
    Post Server Mutex Event Fault Unit where
  done := fun _ w' => ∃ msgs, w' = { w with out := w.out ++ msgs }
  exited := fun _ => False
  crashed := fun _ => False
  stuck := Fails ok

/-- Who says something talks. -/
theorem talks_of_said {p : Act Unit} {msgs : List Event} (h : p.Meets ok (Says ok w msgs) w) :
    p.Meets ok (Talks ok w) w :=
  h.mono (fun _ _ hw => ⟨msgs, hw⟩) (fun _ h => h) (fun _ h => h) (fun h => h)

/-- First talk, then go on. -/
theorem says_then {p : Act Unit} {Q : Post Server Mutex Event Fault Unit} {msgs : List Event}
    {w₀ : World Server Mutex Event}
    (h : p.Meets ok (Says ok w msgs) w₀) (hstuck : Fails ok → Q.stuck)
    (hdone : Q.done () { w with out := w.out ++ msgs }) : p.Meets ok Q w₀ := by
  refine h.mono ?_ (fun _ h => h.elim) (fun _ h => h.elim) hstuck
  intro _ w' hw
  rw [hw]
  exact hdone

/-- What comes after a program that talks. -/
theorem talks_then {p : Act Unit} {Q : Post Server Mutex Event Fault Unit}
    (h : p.Meets ok (Talks ok w) w) (hstuck : Fails ok → Q.stuck)
    (hdone : ∀ msgs, Q.done () { w with out := w.out ++ msgs }) : p.Meets ok Q w := by
  refine h.mono ?_ (fun _ h => h.elim) (fun _ h => h.elim) hstuck
  intro _ w' hw
  obtain ⟨msgs, hw⟩ := hw
  rw [hw]
  exact hdone msgs

theorem talks_done : (pure () : Act Unit).Meets ok (Talks ok w) w := by
  show ∃ msgs, w = { w with out := w.out ++ msgs }
  exact ⟨[], by rw [List.append_nil]⟩

/-- Two talks are one. -/
theorem talks_bind {p : Act Unit} {q : Unit → Act Unit} (hp : p.Meets ok (Talks ok w) w)
    (hq : ∀ msgs, (q ()).Meets ok (Talks ok { w with out := w.out ++ msgs })
      { w with out := w.out ++ msgs }) : (p >>= q).Meets ok (Talks ok w) w := by
  rw [meets_bind]
  refine talks_then hp (fun h => h) ?_
  intro msgs
  refine talks_then (hq msgs) (fun h => h) ?_
  intro msgs'
  exact ⟨msgs ++ msgs', by rw [List.append_assoc]⟩

/-- It need not talk. -/
theorem talks_onlyIf {c : Bool} {p : Act Unit} (h : p.Meets ok (Talks ok w) w) :
    (onlyIf c p).Meets ok (Talks ok w) w := by
  cases c with
  | false => exact talks_done
  | true => exact h

/-! ## Sending to one user -/

/-- `user_exit` under the user's own mutex never gets anywhere. -/
@[simp] theorem userExit_held {Q : Post Server Mutex Event Fault Unit}
    (h : Mutex.cLock user ∈ w.held) : (userExit self user).Meets ok Q w ↔ Q.stuck := by
  unfold userExit
  rw [meets_bind, meets_acquire_held h]

/-- A send that works says its message. -/
theorem lockedSend_said {msg : CStr} (h : Mutex.cLock user ∉ w.held) :
    (lockedSend self user msg).Meets ok
      (Says ok w [.send (w.state.persons user).clientSocket msg]) w := by
  unfold lockedSend
  simp only [meets_bind, meets_acquire_free h, meets_look, meets_output, meets_onlyIf,
    meets_release, List.erase_cons_head]
  refine ⟨?_, ?_⟩
  · intro hfail
    rw [userExit_held (List.mem_cons_self ..)]
    exact ⟨w.out.length, by simpa using hfail⟩
  · intro _
    rfl

/-- A reply says its line. -/
theorem sendReply_said {code : Reply} {reply extra : CStr} (h : Mutex.cLock user ∉ w.held) :
    (sendReply cfg self user code reply extra).Meets ok
      (Says ok w [.send (w.state.persons user).clientSocket
        (constrReply cfg code (w.state.persons user) reply extra)]) w := by
  unfold sendReply
  rw [meets_bind, meets_look]
  exact lockedSend_said h

/-- So it talks. -/
theorem sendReply_talks {code : Reply} {reply extra : CStr} (h : Mutex.cLock user ∉ w.held) :
    (sendReply cfg self user code reply extra).Meets ok (Talks ok w) w :=
  talks_of_said (sendReply_said h)

/-! ## The iteration over the users -/

/-- The server with the iteration over `userlist` at `i`. -/
def Server.atUser (s : Server) (i : Option Nat) : Server :=
  { s with userlist := { s.userlist with iter := i } }

@[simp] theorem atUser_persons (s : Server) (i : Option Nat) : (s.atUser i).persons = s.persons := rfl

@[simp] theorem atUser_userlist (s : Server) (i : Option Nat) :
    (s.atUser i).userlist = { s.userlist with iter := i } := rfl

@[simp] theorem nextUser_atUser (s : Server) (i : Nat) :
    nextUser (s.atUser (some i)) = s.atUser (some (i + 1)) := rfl

@[simp] theorem stopUsers_atUser (s : Server) (i : Option Nat) :
    stopUsers (s.atUser i) = s.atUser none := rfl

/-- No iteration over `userlist` is where it was. -/
theorem atUser_none {s : Server} (h : s.userlist.iter = none) : s.atUser none = s := by
  unfold Server.atUser
  rw [← h]

/-- `list_iterator_start` on an idle list. -/
theorem startUsers_idle {s : Server} (h : s.userlist.iter = none) :
    startUsers s = s.atUser (some 0) := by
  unfold startUsers Server.atUser
  rw [SimList.start_of_idle h]

@[simp] theorem remaining_atUser_zero (s : Server) :
    (s.atUser (some 0)).userlist.remaining = s.userlist.items := by
  simp [SimList.remaining]

/-- A loop over the users whose turns change nothing but the iteration. `inv`
follows the accumulator and what has been said. -/
theorem forEach_users {s : Server} {held : List Mutex} {go : β → Bool}
    {body : Uid → β → Act β} {Q : Post Server Mutex Event Fault β}
    (inv : List Uid → β → List Event → Prop)
    (hbody : ∀ u us b out i, inv (u :: us) b out → go b →
      (body u b).Meets ok
        ⟨fun b' w' => ∃ out', w' = ⟨s.atUser (some (i + 1)), held, out'⟩ ∧ inv us b' out',
          Q.exited, Q.crashed, Q.stuck⟩ ⟨s.atUser (some i), held, out⟩)
    (hstop : ∀ us b out i, inv us b out → us = [] ∨ go b = false →
      Q.done b ⟨s.atUser (some i), held, out⟩)
    {us : List Uid} {b : β} {out : List Event} {i : Nat} (hinv : inv us b out) :
    (forEach go body us b).Meets ok Q ⟨s.atUser (some i), held, out⟩ := by
  refine meets_forEach (fun us b w' => ∃ i out', w' = ⟨s.atUser (some i), held, out'⟩ ∧
    inv us b out') ?_ ?_ us b _ ⟨i, out, rfl, hinv⟩
  · intro u us b w' hw hgo
    obtain ⟨i, out', rfl, hin⟩ := hw
    refine (hbody u us b out' i hin hgo).mono ?_ (fun _ h => h) (fun _ h => h) (fun h => h)
    intro b' w' hw
    obtain ⟨out'', rfl, hin'⟩ := hw
    exact ⟨i + 1, out'', rfl, hin'⟩
  · intro us b w' hw hend
    obtain ⟨i, out', rfl, hin⟩ := hw
    exact hstop us b out' i hin hend

/-! ## Sending to a channel -/

/-- What `sendtochannel` hands out. -/
def relays (s : Server) (cname msg : CStr) (sender : Option Uid) (us : List Uid) : List Event :=
  (us.filter fun u => isRecipient s u cname sender).map fun u =>
    .send (s.persons u).clientSocket msg

/-- A turn of `sendtochannel` says the message to a member, and nothing to anybody else. -/
theorem relayTo_said {s : Server} {held : List Mutex} {out : List Event} {cname msg : CStr}
    {sender : Option Uid} {u : Uid} {i : Nat}
    (hfree : isRecipient s u cname sender → Mutex.cLock u ∉ held) :
    (relayTo self cname msg sender u ()).Meets ok
      (Says ok ⟨s.atUser (some (i + 1)), held, out⟩ (relays s cname msg sender [u]))
      ⟨s.atUser (some i), held, out⟩ := by
  unfold relayTo
  simp only [meets_bind, meets_change, nextUser_atUser, meets_look, meets_onlyIf]
  refine ⟨?_, ?_⟩
  · intro hit
    have hit : isRecipient s u cname sender := hit
    have hsend : (lockedSend self u msg).Meets ok
        (Says ok ⟨s.atUser (some (i + 1)), held, out⟩ [.send (s.persons u).clientSocket msg])
        ⟨s.atUser (some (i + 1)), held, out⟩ := lockedSend_said (hfree hit)
    have hone : relays s cname msg sender [u] = [.send (s.persons u).clientSocket msg] := by
      unfold relays
      rw [List.filter_cons_of_pos (by exact hit)]
      rfl
    rw [hone]
    exact hsend
  · intro hmiss
    have hmiss : isRecipient s u cname sender = false := hmiss
    have hnone : relays s cname msg sender [u] = [] := by
      unfold relays
      rw [List.filter_cons_of_neg (by simp [hmiss])]
      rfl
    rw [hnone]
    show _ = _
    rw [List.append_nil]

/-- The turns come one after the other. -/
theorem relays_cons (s : Server) (cname msg : CStr) (sender : Option Uid) (u : Uid)
    (us : List Uid) :
    relays s cname msg sender (u :: us)
      = relays s cname msg sender [u] ++ relays s cname msg sender us := by
  unfold relays
  rw [← List.map_append, ← List.filter_append]
  rfl

/-- `sendtochannel` sends to the channel's recipients in turn. -/
theorem sendtochannel_said {chan : Cid} {msg : CStr} {sender : Option Uid}
    (hidle : w.state.userlist.iter = none) (hlock : Mutex.lock ∉ w.held)
    (hfree : ∀ u, isRecipient w.state u (w.state.channels chan).name sender →
      Mutex.cLock u ∉ w.held) :
    (sendtochannel self (some chan) msg sender).Meets ok
      (Says ok w (relays w.state (w.state.channels chan).name msg sender w.state.userlist.items))
      w := by
  unfold sendtochannel
  simp only [meets_bind, deref, meets_ret, meets_look, meets_acquire_free hlock, meets_change,
    startUsers_idle hidle, remaining_atUser_zero, meets_release]
  refine forEach_users (fun us _ out =>
    out ++ relays w.state (w.state.channels chan).name msg sender us
      = w.out ++ relays w.state (w.state.channels chan).name msg sender w.state.userlist.items)
    ?_ ?_ rfl
  · intro u us _ out i hin _
    refine says_then (relayTo_said ?_) (fun h => h) ?_
    · intro hit
      simpa using hfree u hit
    · refine ⟨_, rfl, ?_⟩
      rw [List.append_assoc, ← relays_cons]
      exact hin
  · intro us b out i hin hend
    have hus : us = [] := by simpa using hend
    rw [hus] at hin
    have hout : out = w.out ++ relays w.state (w.state.channels chan).name msg sender
        w.state.userlist.items := by simpa [relays] using hin
    show World.mk (stopUsers (w.state.atUser (some i))) _ out = _
    rw [stopUsers_atUser, atUser_none hidle, List.erase_cons_head, hout]

end UchiNetworks.Chirc
