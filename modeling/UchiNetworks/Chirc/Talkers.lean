import UchiNetworks.Chirc.Says

/-!
# chirc: the handlers that only reply

MOTD, LUSERS, PING, PRIVMSG, LIST, the body of NAMES, and what the others do
once they have made their change: started without a mutex and while nobody
iterates a list of the server, they end having changed nothing.

LIST without a parameter and NAMES go through `chanlist` and let go of `lock` in
between; alone they see each channel once (`scanChans_talks`).
-/

namespace UchiNetworks.Chirc

open UchiNetworks.Lib
open Prog

variable {cfg : Config} {self user : Uid} {ok : Nat → Bool} {w : World Server Mutex Event}
  {junk : Nat}

/-- Nobody iterates a list of the server. -/
structure Idle (s : Server) : Prop where
  users : s.userlist.iter = none
  chans : s.chanlist.iter = none

variable {s : Server} {out : List Event}

/-- The program starts in `s` without a mutex, and only talks. -/
def TalksAt (ok : Nat → Bool) (s : Server) (p : Act Unit) : Prop :=
  ∀ out : List Event, p.Meets ok (Talks ok ⟨s, [], out⟩) ⟨s, [], out⟩

theorem talksAt_done : TalksAt ok s (pure ()) := fun _ => talks_done

/-- One after the other. -/
theorem talksAt_bind {p : Act Unit} {q : Unit → Act Unit} (hp : TalksAt ok s p)
    (hq : TalksAt ok s (q ())) : TalksAt ok s (p >>= q) :=
  fun out => talks_bind (hp out) fun msgs => hq (out ++ msgs)

/-- A look sends nothing. -/
theorem talksAt_look {α : Type} {f : Server → α} {q : α → Act Unit} (hq : TalksAt ok s (q (f s))) :
    TalksAt ok s (look f >>= q) :=
  fun out => hq out

/-- Whatever the test decides. -/
theorem talksAt_ite {c : Prop} [Decidable c] {p q : Act Unit} (hp : c → TalksAt ok s p)
    (hq : ¬ c → TalksAt ok s q) : TalksAt ok s (if c then p else q) := by
  by_cases hc : c
  · rw [if_pos hc]
    exact hp hc
  · rw [if_neg hc]
    exact hq hc

theorem talksAt_onlyIf {c : Bool} {p : Act Unit} (hp : TalksAt ok s p) :
    TalksAt ok s (onlyIf c p) :=
  fun out => talks_onlyIf (hp out)

/-- A look under a mutex gives the mutex back. -/
theorem talksAt_lockedLook {α : Type} {m : Mutex} {f : Server → α} {q : α → Act Unit}
    (hq : TalksAt ok s (q (f s))) :
    TalksAt ok s (acquire m >>= fun _ => look f >>= fun a => release m >>= fun _ => q a) := by
  intro out
  rw [lockedLook_bind List.not_mem_nil]
  exact hq out

/-- So does a section in which nothing is done. -/
theorem talksAt_lockedSkip {m : Mutex} {q : Act Unit} (hq : TalksAt ok s q) :
    TalksAt ok s (acquire m >>= fun _ => release m >>= fun _ => q) := by
  intro out
  rw [acquire_bind List.not_mem_nil, release_bind, List.erase_cons_head]
  exact hq out

/-- A send that works changes nothing. -/
theorem lockedSend_talks {msg : CStr} : TalksAt ok s (lockedSend self user msg) :=
  fun _ => talks_of_said (lockedSend_said List.not_mem_nil)

theorem sendReply_talksAt {code : Reply} {reply extra : CStr} :
    TalksAt ok s (sendReply cfg self user code reply extra) :=
  fun _ => sendReply_talks List.not_mem_nil

/-- `sendtochannel` ends its iteration over `userlist`. -/
theorem sendtochannel_talks {chan : Cid} {msg : CStr} {sender : Option Uid}
    (h : s.userlist.iter = none) :
    TalksAt ok s (sendtochannel self (some chan) msg sender) :=
  fun _ => talks_of_said (sendtochannel_said h List.not_mem_nil fun _ _ => List.not_mem_nil)

/-! ## Names -/

theorem motdLines_talks (lines : List CStr) : TalksAt ok s (motdLines cfg self user lines) := by
  induction lines with
  | nil => exact talksAt_done
  | cons motd rest ih => exact talksAt_bind sendReply_talksAt ih

/-- MOTD talks. -/
theorem handleMOTD_talks : TalksAt ok s (handleMOTD cfg self user) := by
  unfold handleMOTD
  refine talksAt_look (talksAt_ite (fun _ => sendReply_talksAt) fun _ => ?_)
  cases cfg.motd with
  | none => exact sendReply_talksAt
  | some lines =>
    exact talksAt_bind sendReply_talksAt (talksAt_bind (motdLines_talks lines) sendReply_talksAt)

/-- One turn of a loop over the users, at `i`, that leaves everything but the
iteration alone. -/
def QuietTurn {β : Type} (ok : Nat → Bool) (s : Server) (p : Act β) : Prop :=
  ∀ i out, p.Meets ok
    ⟨fun _ w' => w' = ⟨s.atUser (some (i + 1)), [.lock], out⟩, fun _ => False, fun _ => False,
      Fails ok⟩ ⟨s.atUser (some i), [.lock], out⟩

/-- A scan of the users under `lock`, and what is done with its result. -/
theorem scan_bind {β γ : Type} {go : β → Bool} {body : Uid → β → Act β} {b : β} {q : β → Act γ}
    {Q : Post Server Mutex Event Fault γ} (h : s.userlist.iter = none)
    (hbody : ∀ u b, QuietTurn ok s (body u b)) (hstuck : Fails ok → Q.stuck)
    (hq : ∀ b, (q b).Meets ok Q ⟨s, [], out⟩) :
    (do
      change startUsers
      let users ← look (·.userlist.remaining)
      let b' ← forEach go body users b
      change stopUsers
      release .lock
      q b').Meets ok Q ⟨s, [.lock], out⟩ := by
  rw [change_bind, startUsers_idle h, look_bind, remaining_atUser_zero, meets_bind]
  refine forEach_users (fun _ _ out' => out' = out) ?_ ?_ rfl
  · intro u us b out' i hout _
    refine (hbody u b i out').mono ?_ (fun _ h => h.elim) (fun _ h => h.elim) hstuck
    intro b' w' hw
    exact ⟨out', hw, hout⟩
  · intro us b out' i hout _
    rw [hout]
    show (change stopUsers >>= _ : Act γ).Meets ok Q _
    rw [change_bind, stopUsers_atUser, atUser_none h, release_bind, List.erase_cons_head]
    exact hq b

/-- A loop over `userlist` whose turns are quiet, and what comes after it. -/
theorem talksAt_scan {β : Type} {go : β → Bool} {body : Uid → β → Act β} {b : β}
    {q : β → Act Unit} (h : s.userlist.iter = none) (hbody : ∀ u b, QuietTurn ok s (body u b))
    (hq : ∀ b, TalksAt ok s (q b)) (out : List Event) :
    (do
      change startUsers
      let users ← look (·.userlist.remaining)
      let b' ← forEach go body users b
      change stopUsers
      release .lock
      q b').Meets ok (Talks ok ⟨s, [], out⟩) ⟨s, [.lock], out⟩ :=
  scan_bind h hbody id fun b => hq b out

/-- A turn of the loop that counts the operators is quiet. -/
theorem countOp_quiet (u : Uid) (n : Nat) : QuietTurn ok s (countOp u n) := by
  intro i out
  unfold countOp
  rw [change_bind, lockedLook_bind (by simp)]
  rfl

/-- LUSERS talks. -/
theorem handleLUSERS_talks (h : s.userlist.iter = none) : TalksAt ok s (handleLUSERS cfg self user) := by
  intro out
  unfold handleLUSERS
  rw [acquire_bind List.not_mem_nil, look_bind, look_bind, look_bind]
  refine talksAt_scan h countOp_quiet ?_ out
  intro n
  refine talksAt_look (talksAt_ite (fun _ => sendReply_talksAt) fun _ => ?_)
  refine talksAt_bind sendReply_talksAt (talksAt_bind sendReply_talksAt ?_)
  refine talksAt_bind sendReply_talksAt (talksAt_bind sendReply_talksAt ?_)
  exact sendReply_talksAt

/-- PING talks. -/
theorem handlePING_talks : TalksAt ok s (handlePING cfg self user) := by
  unfold handlePING
  refine talksAt_lockedSkip (talksAt_look (talksAt_ite ?_ ?_))
  · intro _
    exact sendReply_talksAt
  · intro _
    exact lockedSend_talks

theorem handleUNKNOWN_talks {params : Params} : TalksAt ok s (handleUNKNOWN cfg self user params) :=
  sendReply_talksAt

/-- A turn of `send_names`' loop is quiet. -/
theorem nameUser_quiet (cname : CStr) (u : Uid) (names : CStr × Bool) :
    QuietTurn ok s (nameUser junk cname u names) := by
  intro i out
  unfold nameUser
  rw [change_bind, lockedLook_bind (by simp)]
  rfl

/-- `send_names` talks. -/
theorem sendNames_talks {chan : Cid} (h : s.userlist.iter = none) :
    TalksAt ok s (sendNames cfg self junk user chan) := by
  unfold sendNames
  refine talksAt_lockedLook ?_
  intro out
  rw [acquire_bind List.not_mem_nil]
  exact talksAt_scan h (nameUser_quiet _) (fun names => sendReply_talksAt) out

/-- So do the replies to a JOIN. -/
theorem joinReplies_talks {chan : Cid} {cname : CStr} (h : s.userlist.iter = none) :
    TalksAt ok s (joinReplies cfg self junk user chan cname) := by
  unfold joinReplies
  refine talksAt_look (talksAt_bind (sendtochannel_talks h) (talksAt_look ?_))
  refine talksAt_bind (talksAt_onlyIf sendReply_talksAt) ?_
  exact talksAt_bind (sendNames_talks h) sendReply_talksAt

/-- The burst only talks; the counter has been raised before it. -/
theorem doRegistration_talks (h : s.userlist.iter = none) :
    TalksAt ok s (do
      sendReply cfg self user .rplWelcome [] []
      sendReply cfg self user .rplYourhost [] []
      sendReply cfg self user .rplCreated [] []
      sendReply cfg self user .rplMyinfo [] []
      handleLUSERS cfg self user
      handleMOTD cfg self user) := by
  refine talksAt_bind sendReply_talksAt (talksAt_bind sendReply_talksAt ?_)
  refine talksAt_bind sendReply_talksAt (talksAt_bind sendReply_talksAt ?_)
  exact talksAt_bind (handleLUSERS_talks h) handleMOTD_talks

/-! ## Messages -/

/-- The message goes out, and the recipient is away or not. -/
theorem sendToRecip_said {recip : Uid} {msg : CStr} :
    (sendToRecip self recip msg).Meets ok
      ⟨fun away w' => away = hasMode (s.persons recip).mode modeA ∧
          w' = ⟨s, [], out ++ [.send (s.persons recip).clientSocket msg]⟩,
        fun _ => False, fun _ => False, Fails ok⟩ ⟨s, [], out⟩ := by
  unfold sendToRecip
  rw [acquire_bind List.not_mem_nil, look_bind, output_bind, onlyIf_bind]
  refine ⟨?_, ?_⟩
  · intro hfail
    rw [userExit_held (List.mem_cons_self ..)]
    exact ⟨_, by simpa using hfail⟩
  · intro _
    rw [look_bind, release_bind, List.erase_cons_head]
    exact ⟨rfl, rfl⟩

end UchiNetworks.Chirc
