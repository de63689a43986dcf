import UchiNetworks.Lib.Discipline
import UchiNetworks.Chirc.Lookups

/-!
# chirc: the mutexes a handler takes

A reply is sent under the client's `c_lock`, a relayed line under the recipient's,
with `lock` around the scan. When such a `send` fails, `user_exit` is called on the
spot, and it takes `c_lock` first: the thread locks a mutex it holds. Two replies,
the end of NAMES and the refusals of MODE on a member, are sent without the
`c_lock` that is given back after them.

So a handler's mutex operations are well formed exactly when each `send` under a
mutex works and each one without fails (`mutexes_iff`); `sendFits` says it for one
`send`. Nothing is asked of the state of the server.
-/

namespace UchiNetworks.Chirc

open UchiNetworks.Lib
open Prog

variable {cfg : Config} {self user u : Uid} {ps : Params} {c : Command} {held : List Mutex}
  {stale : Nat → Nat} {junk : Nat}

/-- What a `send` may come to: under a mutex it has to work, and without one to
fail. The last line of a QUIT, under nothing but the client's own mutex, may do
either: the handler does not look. -/
def sendFits (c : Command) (held : List Mutex) (e : Event) (b : Bool) : Prop :=
  match e with
  | .close _ => True
  | .send _ _ => (c = .QUIT ∧ held.length = 1) ∨ (b = true ↔ held ≠ [])

/-- Under a mutex a send fits if it works. -/
theorem sendFits_locked {fd : Nat} {msg : CStr} (hquit : c = .QUIT → held.length ≠ 1)
    (hheld : held ≠ []) (b : Bool) : sendFits c held (.send fd msg) b ↔ b = true := by
  unfold sendFits
  have hnot : ¬ (c = .QUIT ∧ held.length = 1) := fun h => hquit h.1 h.2
  rw [or_iff_right hnot]
  exact iff_true_right hheld

/-- With no mutex it fits if it fails. -/
theorem sendFits_bare {fd : Nat} {msg : CStr} (b : Bool) :
    sendFits c [] (.send fd msg) b ↔ b = false := by
  unfold sendFits
  simp

/-! ## Leaving -/

/-- `user_exit` under the user's own mutex. -/
theorem userExit_own (h : Mutex.cLock user ∈ held) : Disorderly held (userExit self user) :=
  (Disorderly.of_held h).bind

/-- Under `lock` the search for a channel takes `lock` a second time. -/
theorem exitChannel_lock (h : Mutex.lock ∈ held) (m : MyChan) (b : Unit) :
    Disorderly held (exitChannel user m b) :=
  .change_bind (Disorderly.bind (Disorderly.of_held h).bind)

/-- `user_exit` under `lock`, in the middle of a scan. -/
theorem userExit_lock (h : Mutex.lock ∈ held) : Disorderly held (userExit self user) := by
  have hin : Mutex.lock ∈ Mutex.cLock user :: held := List.mem_cons_of_mem _ h
  refine .acquire_bind (.look_bind fun _ => .output_bind fun _ => .change_bind
    (.look_bind fun chans => .forEach_bind (exitChannel_lock hin) (fun _ => ?_) chans ()))
  exact .change_bind (.change_bind (Disorderly.of_held hin).bind)

/-- A search of `chanlist` needs `lock` to be free. -/
theorem lookChan_disciplined (h : Mutex.lock ∉ held) (name : CStr) :
    Disciplined (sendFits c) held held (lookChan name) :=
  .lockedLook_bind h fun _ => .pure _

/-- `channel_destroy` needs `lock` and every `chan_lock`. -/
theorem channelDestroy_disciplined (hlock : Mutex.lock ∉ held)
    (hchan : ∀ d, Mutex.chanLock d ∉ held) (d : Cid) :
    Disciplined (sendFits c) held held (channelDestroy d) := by
  refine .acquire_bind (hchan d) (.look_bind fun _ => .ite (fun _ => .release _) fun _ => ?_)
  exact .lockedChange_bind (by simp [hlock]) (.release _)

/-- So does `leaveChannel`. -/
theorem leaveChannel_disciplined (hlock : Mutex.lock ∉ held)
    (hchan : ∀ d, Mutex.chanLock d ∉ held) (d : Cid) :
    Disciplined (sendFits c) held held (leaveChannel d) :=
  .lockedChange_bind (hchan d) (.look_bind fun _ =>
    .onlyIf fun _ => channelDestroy_disciplined hlock hchan d)

/-- `user_exit` of the thread's own user, without a mutex: it does not come back. -/
theorem userExit_disciplined {held' : List Mutex} :
    Disciplined (sendFits c) [] held' (userExit u u) := by
  have hlock : Mutex.lock ∉ [Mutex.cLock u] := by simp
  have hchan : ∀ d, Mutex.chanLock d ∉ [Mutex.cLock u] := by simp
  have hturn : ∀ m b, Disciplined (sendFits c) [.cLock u] [.cLock u] (exitChannel u m b) :=
    fun m _ => .change_bind (.bind (lookChan_disciplined hlock m.name) fun _ =>
      .deref_bind fun d _ => leaveChannel_disciplined hlock hchan d)
  refine .acquire_bind List.not_mem_nil (.look_bind fun _ => .output_bind (fun _ => trivial)
    fun _ => .change_bind (.look_bind fun _ => .bind (.forEach hturn _ ()) fun _ => ?_))
  refine .change_bind (.change_bind (.lockedChange_bind hlock (.release_bind ?_)))
  rw [decide_eq_true rfl]
  exact .exit

/-! ## Sending -/

/-- A send needs the user's `c_lock`, and is right if it works. -/
theorem lockedSend_disciplined (hfree : Mutex.cLock user ∉ held) (hquit : c = .QUIT → held ≠ [])
    (msg : CStr) : Disciplined (sendFits c) held held (lockedSend self user msg) := by
  have hone : c = .QUIT → (Mutex.cLock user :: held).length ≠ 1 := by
    intro hc hlen
    exact hquit hc (List.eq_nil_of_length_eq_zero (by simpa using hlen))
  exact .acquire_bind hfree (.look_bind fun _ => .checkedOutput
    (sendFits_locked hone (List.cons_ne_nil _ _)) (userExit_own List.mem_cons_self) (.release _))

/-- So is a reply. -/
theorem sendReply_disciplined (hfree : Mutex.cLock user ∉ held) (hquit : c = .QUIT → held ≠ [])
    (code : Reply) (reply extra : CStr) :
    Disciplined (sendFits c) held held (sendReply cfg self user code reply extra) :=
  .look_bind fun _ => lockedSend_disciplined hfree hquit _

/-- A scan under `lock`. -/
theorem sendtochannel_disciplined (hlock : Mutex.lock ∉ held) (found : Option Cid) (msg : CStr)
    (sender : Option Uid)
    (hfree : ∀ s v cname, isRecipient s v cname sender = true → Mutex.cLock v ∉ held) :
    Disciplined (sendFits c) held held (sendtochannel self found msg sender) := by
  refine .deref_bind fun _ _ => .look_bind fun _ => .acquire_bind hlock (.change_bind
    (.look_bind fun _ => .bind (.forEach (fun v _ => ?_) _ ()) fun _ => .change_bind (.release _)))
  refine .change_bind (.look_bind fun s => .onlyIf fun hit => ?_)
  have hv : Mutex.cLock v ∉ held := hfree s v _ hit
  exact lockedSend_disciplined (by simp [hv]) (fun _ => List.cons_ne_nil _ _) msg

/-- `sendtoallchans` holds `c_lock` through all its channels. -/
theorem sendtoallchans_disciplined (msg : CStr) :
    Disciplined (sendFits c) [] [] (sendtoallchans self user msg) := by
  refine .acquire_bind List.not_mem_nil (.change_bind (.look_bind fun _ =>
    .bind (.forEach (fun m _ => ?_) _ ()) fun _ => .change_bind (.release _)))
  have hlock : Mutex.lock ∉ [Mutex.cLock user] := by simp
  refine .change_bind (.bind (lookChan_disciplined hlock m.name) fun found => ?_)
  refine sendtochannel_disciplined hlock found msg (some user) fun s v cname hv => ?_
  have hne := isRecipient_ne hv
  simpa using hne

/-- A line for a channel, from a thread that holds nothing. -/
theorem relay_disciplined (found : Option Cid) (msg : CStr) (sender : Option Uid) :
    Disciplined (sendFits c) [] [] (sendtochannel self found msg sender) :=
  sendtochannel_disciplined List.not_mem_nil found msg sender fun _ _ _ _ => List.not_mem_nil

/-- A loop over the users under `lock`. -/
theorem scan_disciplined {β : Type} {go : β → Bool} {body : Uid → β → Act β} {b : β} {held' : List Mutex}
    {q : β → Act Unit}
    (hbody : ∀ v b, Disciplined (sendFits c) [.lock] [.lock] (body v b))
    (hq : ∀ b, Disciplined (sendFits c) [.lock] held' (q b)) :
    Disciplined (sendFits c) [.lock] held' (do
      change startUsers
      let users ← look (·.userlist.remaining)
      let b' ← forEach go body users b
      change stopUsers
      q b') :=
  .change_bind (.look_bind fun _ => .bind (.forEach hbody _ b) fun b' => .change_bind (hq b'))

/-- A reply without the `c_lock` that is given back: only if it fails is nothing
given back, for the thread ends. -/
theorem bareReply_disciplined (code : Reply) (reply extra : CStr) :
    Disciplined (sendFits c) [] [] (bareReply cfg u u code reply extra) :=
  .look_bind fun _ => .bareOutput sendFits_bare (.bind userExit_disciplined fun _ => .release _)
    (.of_free List.not_mem_nil)

/-- A QUIT: the relay, the last line, and the end of the thread. -/
theorem handleQUIT_disciplined : Disciplined (sendFits .QUIT) [] [] (handleQUIT u u ps) :=
  .look_bind fun _ => .bind (sendtoallchans_disciplined _) fun _ =>
    .acquire_bind List.not_mem_nil (.output_bind (fun _ => Or.inl ⟨rfl, rfl⟩) fun _ =>
      .release_bind userExit_disciplined)

/-! ## Without a reply -/

/-- The search for a recipient is a section under `lock`. -/
theorem lookRecipient_disciplined (name : CStr) :
    Disciplined (sendFits c) [] [] (lookRecipient name) :=
  .acquire_bind List.not_mem_nil (.look_bind fun _ => .look_bind fun _ =>
    .release_bind (.pure _))

theorem silenced_disciplined (chan : Cid) (name : CStr) :
    Disciplined (sendFits c) [] [] (silenced user chan name) :=
  .look_bind fun _ => .look_bind fun _ => .ite
    (fun _ => .bind (.lockedLook_bind List.not_mem_nil fun _ => .pure _) fun _ =>
      .deref_bind fun _ _ => .pure _) fun _ => .pure _

/-- A `strcat` takes no mutex, and runs past the end or returns. -/
theorem strcatMode_disciplined (mode add : CStr) :
    Disciplined (sendFits c) held held (strcatMode mode add) :=
  .ite (fun _ => .pure _) fun _ => .crash _

theorem addUserMode_disciplined (add : CStr) :
    Disciplined (sendFits c) held held (addUserMode user add) :=
  .look_bind fun _ => .bind (strcatMode_disciplined _ _) fun _ => .change _

/-- The loop gives `lock` back while it deals with a channel. -/
theorem scanChans_disciplined {body : Nat → Cid → Act Unit}
    (hbody : ∀ left chan, Disciplined (sendFits c) [] [] (body left chan)) (fuel : Nat) :
    Disciplined (sendFits c) [.lock] [.lock] (scanChans body fuel) := by
  induction fuel with
  | zero => exact .crash _
  | succ fuel ih =>
    exact .look_bind fun _ => .ite (fun _ => .look_bind fun _ => .change_bind (.release_bind
      (.deref_bind fun chan _ => .bind (hbody _ chan) fun _ => .acquire_bind List.not_mem_nil ih)))
      fun _ => .pure ()

/-- The body of the WHO loop runs under `lock`. -/
theorem whoLoop_disciplined {turn : Uid → Unit → Act Unit}
    (hturn : ∀ v b, Disciplined (sendFits c) [.lock] [.lock] (turn v b)) :
    Disciplined (sendFits c) [] [] (whoLoop turn) :=
  .acquire_bind List.not_mem_nil (scan_disciplined hturn fun _ => .release _)

/-- The asker's `c_lock` is taken beside the other's. -/
theorem sharesChan_disciplined (v : Uid) :
    Disciplined (sendFits c) [.cLock v, .lock] [.cLock v, .lock] (sharesChan user v) := by
  refine .ite (fun _ => .look_bind fun _ => .pure _) fun hne => .change_bind (.look_bind fun _ =>
    .bind (.forEach (fun _ _ => .change_bind (.lockedLook_bind ?_ fun _ => .pure _)) _ _) fun _ =>
    .change_bind (.pure _))
  simpa using Ne.symm hne

/-- MODE on a member takes the target's `c_lock` to look, and the sender's to take a
letter out. -/
theorem setMemberMode_disciplined (target : Uid) (chan : Cid) :
    Disciplined (sendFits c) [] [] (setMemberMode self user target ps chan) := by
  have hadd : ∀ found, Disciplined (sendFits c) [] [] (addMemberMode target ps found) :=
    fun _ => .deref_bind fun _ _ => .onlyIf fun _ => .bind (strcatMode_disciplined _ _) fun _ =>
      .change _
  have hdrop : ∀ found, Disciplined (sendFits c) [] [] (dropMemberMode user target ps found) :=
    fun _ => .deref_bind fun _ _ => .onlyIf fun _ => .lockedChange List.not_mem_nil
  exact .lockedLook_bind List.not_mem_nil fun _ => .bind (.ite (fun _ => hadd _) fun _ =>
    .ite (fun _ => hdrop _) fun _ => .pure ()) fun _ => .look_bind fun _ => relay_disciplined _ _ _

/-! ## The handlers -/

section Handlers

variable (hc : c ≠ .QUIT)
include hc

/-- A reply from a thread that holds nothing. -/
theorem reply_disciplined (code : Reply) (reply extra : CStr) :
    Disciplined (sendFits c) [] [] (sendReply cfg self user code reply extra) :=
  sendReply_disciplined List.not_mem_nil (fun h => absurd h hc) code reply extra

/-- A send from no mutex at all. -/
theorem send_disciplined (msg : CStr) :
    Disciplined (sendFits c) [] [] (lockedSend self user msg) :=
  lockedSend_disciplined List.not_mem_nil (fun h => absurd h hc) msg

/-! ## Replies only -/

theorem motdLines_disciplined (lines : List CStr) :
    Disciplined (sendFits c) [] [] (motdLines cfg self user lines) := by
  induction lines with
  | nil => exact .pure ()
  | cons motd rest ih => exact .bind (reply_disciplined hc _ _ _) fun _ => ih

/-- MOTD sends line after line. -/
theorem handleMOTD_disciplined : Disciplined (sendFits c) [] [] (handleMOTD cfg self user) := by
  refine .look_bind fun _ => .ite (fun _ => reply_disciplined hc _ _ _) fun _ => ?_
  cases cfg.motd with
  | none => exact reply_disciplined hc _ _ _
  | some lines =>
    exact .bind (reply_disciplined hc _ _ _) fun _ =>
      .bind (motdLines_disciplined hc lines) fun _ => reply_disciplined hc _ _ _

/-- LUSERS counts under `lock`. -/
theorem handleLUSERS_disciplined : Disciplined (sendFits c) [] [] (handleLUSERS cfg self user) := by
  have hturn : ∀ v n, Disciplined (sendFits c) [.lock] [.lock] (countOp v n) :=
    fun _ _ => .change_bind (.lockedLook_bind (by simp) fun _ => .pure _)
  refine .acquire_bind List.not_mem_nil (.look_bind fun _ => .look_bind fun _ => .look_bind fun _ =>
    scan_disciplined hturn fun _ => .release_bind (.look_bind fun _ =>
      .ite (fun _ => reply_disciplined hc _ _ _) fun _ => ?_))
  exact .bind (reply_disciplined hc _ _ _) fun _ => .bind (reply_disciplined hc _ _ _) fun _ =>
    .bind (reply_disciplined hc _ _ _) fun _ => .bind (reply_disciplined hc _ _ _) fun _ =>
    reply_disciplined hc _ _ _

/-- PING takes `lock`, and `c_lock` for its reply. -/
theorem handlePING_disciplined : Disciplined (sendFits c) [] [] (handlePING cfg self user) :=
  .acquire_bind List.not_mem_nil (.release_bind (.look_bind fun _ =>
    .ite (fun _ => reply_disciplined hc _ _ _) fun _ => send_disciplined hc _))

/-! ## Names -/

/-- A registration counts under `lock`. -/
theorem doRegistration_disciplined : Disciplined (sendFits c) [] [] (doRegistration cfg self user) :=
  .lockedChange_bind List.not_mem_nil (.bind (reply_disciplined hc _ _ _) fun _ =>
    .bind (reply_disciplined hc _ _ _) fun _ => .bind (reply_disciplined hc _ _ _) fun _ =>
    .bind (reply_disciplined hc _ _ _) fun _ => .bind (handleLUSERS_disciplined hc) fun _ =>
    handleMOTD_disciplined hc)

/-- NICK writes in a section of its own. -/
theorem handleNICK_disciplined : Disciplined (sendFits c) [] [] (handleNICK cfg self user ps) := by
  have hset : Disciplined (sendFits c) [] [] (setNick user (ps.get 1)) :=
    .lockedChange List.not_mem_nil
  refine .lockedLook_bind List.not_mem_nil fun _ => .ite (fun _ => reply_disciplined hc _ _ _)
    fun _ => .look_bind fun _ => .ite (fun _ => ?_) fun _ => ?_
  · exact .bind (send_disciplined hc _) fun _ => .bind (sendtoallchans_disciplined _) fun _ => hset
  · exact .bind hset fun _ => .look_bind fun _ => .onlyIf fun _ => doRegistration_disciplined hc

/-- USER writes under `lock`. -/
theorem handleUSER_disciplined : Disciplined (sendFits c) [] [] (handleUSER cfg self user ps) :=
  .look_bind fun _ => .ite (fun _ => reply_disciplined hc _ _ _) fun _ =>
    .lockedChange_bind List.not_mem_nil (.look_bind fun _ =>
      .onlyIf fun _ => doRegistration_disciplined hc)

/-! ## Messages -/

/-- A message to a user goes under the recipient's `c_lock`. -/
theorem sendToRecip_disciplined (recip : Uid) (msg : CStr) :
    Disciplined (sendFits c) [] [] (sendToRecip self recip msg) :=
  .acquire_bind List.not_mem_nil (.look_bind fun _ => .checkedOutput
    (sendFits_locked (fun h => absurd h hc) (List.cons_ne_nil _ _)) (userExit_own List.mem_cons_self)
    (.look_bind fun _ => .release_bind (.pure _)))

/-- PRIVMSG sends to the user or the channel that it found. -/
theorem handlePRIVMSG_disciplined :
    Disciplined (sendFits c) [] [] (handlePRIVMSG cfg self user ps) := by
  refine .look_bind fun _ => .ite (fun _ => reply_disciplined hc _ _ _) fun _ =>
    .bind (lookRecipient_disciplined _) fun recipient => ?_
  obtain ⟨recip, chan⟩ := recipient
  cases recip with
  | some recip =>
    refine .lockedLook_bind List.not_mem_nil fun _ => .bind (sendToRecip_disciplined hc recip _)
      fun _ => .onlyIf fun _ => ?_
    exact .lockedLook_bind List.not_mem_nil fun _ => reply_disciplined hc _ _ _
  | none =>
    cases chan with
    | none => exact reply_disciplined hc _ _ _
    | some chan =>
      refine .lockedLook_bind List.not_mem_nil fun _ => .look_bind fun _ =>
        .ite (fun _ => reply_disciplined hc _ _ _) fun _ =>
        .bind (silenced_disciplined chan _) fun _ => ?_
      exact .ite (fun _ => reply_disciplined hc _ _ _) fun _ => relay_disciplined _ _ _

/-- NOTICE sends to the user that it found, and to the channel. -/
theorem handleNOTICE_disciplined :
    Disciplined (sendFits c) [] [] (handleNOTICE cfg self user ps) := by
  refine .bind (lookRecipient_disciplined _) fun recipient => .look_bind fun _ =>
    .ite (fun _ => reply_disciplined hc _ _ _) fun _ => ?_
  have huser : ∀ notice, Disciplined (sendFits c) [] [] (noticeUser self notice recipient.1) := by
    intro notice
    cases recipient.1 with
    | none => exact .pure ()
    | some recip => exact send_disciplined hc _
  refine .bind (huser _) fun _ => ?_
  cases recipient.2 with
  | none => exact .pure ()
  | some chan =>
    exact .bind (silenced_disciplined chan _) fun _ => .ite (fun _ => .pure ()) fun _ =>
        .look_bind fun _ => .onlyIf fun _ => relay_disciplined _ _ _

/-! ## JOIN, PART, TOPIC -/

/-- `send_names` collects under `lock`, and sends afterwards. -/
theorem sendNames_disciplined (chan : Cid) :
    Disciplined (sendFits c) [] [] (sendNames cfg self junk user chan) := by
  have hturn : ∀ cname v names,
      Disciplined (sendFits c) [.lock] [.lock] (nameUser junk cname v names) :=
    fun _ _ _ => .change_bind (.lockedLook_bind (by simp) fun _ => .pure _)
  exact .lockedLook_bind List.not_mem_nil fun _ => .acquire_bind List.not_mem_nil
    (scan_disciplined (hturn _) fun _ => .release_bind (reply_disciplined hc _ _ _))

theorem joinReplies_disciplined (chan : Cid) (cname : CStr) :
    Disciplined (sendFits c) [] [] (joinReplies cfg self junk user chan cname) :=
  .look_bind fun _ => .bind (relay_disciplined _ _ _) fun _ => .look_bind fun _ =>
    .bind (.onlyIf fun _ => reply_disciplined hc _ _ _) fun _ =>
    .bind (sendNames_disciplined hc chan) fun _ => reply_disciplined hc _ _ _

/-- JOIN writes under `lock`, `c_lock` and `chan_lock` in turn, and sends with none of
them. -/
theorem handleJOIN_disciplined :
    Disciplined (sendFits c) [] [] (handleJOIN cfg self stale user ps) := by
  have hfind : ∀ found, Disciplined (sendFits c) [] [] (findOrCreate (ps.get 1) found) := by
    intro found
    cases found with
    | some chan => exact .pure chan
    | none => exact .acquire_bind List.not_mem_nil (.look_bind fun _ => .change_bind
        (.release_bind (.pure _)))
  refine .bind (lookChan_disciplined List.not_mem_nil _) fun found => .bind (hfind found)
    fun chan => .look_bind fun _ => .ite (fun _ => .pure ()) fun _ => .bind ?_ fun _ =>
    joinReplies_disciplined hc chan _
  exact .lockedChange_bind List.not_mem_nil (.lockedChange List.not_mem_nil)

/-- PART relays before it takes `c_lock`. -/
theorem handlePART_disciplined : Disciplined (sendFits c) [] [] (handlePART cfg self user ps) := by
  refine .bind (lookChan_disciplined List.not_mem_nil _) fun found => ?_
  cases found with
  | none => exact reply_disciplined hc _ _ _
  | some chan =>
    exact .look_bind fun _ => .ite (fun _ => reply_disciplined hc _ _ _) fun _ => .look_bind fun _ =>
      .bind (relay_disciplined _ _ _) fun _ => .lockedChange_bind List.not_mem_nil
        (leaveChannel_disciplined List.not_mem_nil (fun _ => List.not_mem_nil) chan)

/-- The refusal is sent under the client's mutex. -/
theorem topicOper_disciplined (cname : CStr) :
    Disciplined (sendFits c) [] [] (topicOper cfg self user cname) := by
  refine .acquire_bind List.not_mem_nil (.look_bind fun _ => .deref_bind fun _ _ => .look_bind fun _ =>
    .bind (.onlyIf fun _ => ?_) fun _ => .release_bind (.pure _))
  exact .checkedOutput_last (sendFits_locked (fun h => absurd h hc) (List.cons_ne_nil _ _))
    (userExit_own List.mem_cons_self)

/-- TOPIC refuses under `c_lock`, and writes without a mutex. -/
theorem handleTOPIC_disciplined :
    Disciplined (sendFits c) [] [] (handleTOPIC cfg self user ps) := by
  have hreply : ∀ found, Disciplined (sendFits c) [] [] (topicReply cfg self user (ps.get 1) found) :=
    fun _ => .deref_bind fun _ _ => .look_bind fun _ => .ite (fun _ => reply_disciplined hc _ _ _)
      fun _ => reply_disciplined hc _ _ _
  have hmay : ∀ chan, Disciplined (sendFits c) [] [] (mayTopic cfg self user chan (ps.get 1)) :=
    fun _ => .look_bind fun _ => .ite (fun _ => topicOper_disciplined hc _) fun _ => .pure _
  have hset : ∀ chan, Disciplined (sendFits c) [] [] (setTopic self user ps chan) :=
    fun _ => .change_bind (.look_bind fun _ => .look_bind fun _ => relay_disciplined _ _ _)
  refine .bind (lookChan_disciplined List.not_mem_nil _) fun found => .look_bind fun _ =>
    .ite (fun _ => reply_disciplined hc _ _ _) fun _ => .ite (fun _ => hreply found) fun _ => ?_
  exact .deref_bind fun chan _ => .bind (hmay chan) fun _ => .ite (fun _ => .pure ()) fun _ =>
    .bind (hset chan) fun _ => hreply found

/-! ## AWAY and OPER -/

/-- AWAY writes under `c_lock`, and replies without. -/
theorem handleAWAY_disciplined : Disciplined (sendFits c) [] [] (handleAWAY cfg self user ps) := by
  refine .look_bind fun _ => .ite (fun _ => reply_disciplined hc _ _ _) fun _ =>
    .ite (fun _ => ?_) fun _ => ?_
  · exact .bind (.onlyIf fun _ => .lockedChange List.not_mem_nil) fun _ => reply_disciplined hc _ _ _
  · refine .bind (.onlyIf fun _ => ?_) fun _ => .lockedChange_bind List.not_mem_nil
      (reply_disciplined hc _ _ _)
    exact .acquire_bind List.not_mem_nil (.bind (addUserMode_disciplined _) fun _ => .release _)

/-- OPER writes without a mutex. -/
theorem handleOPER_disciplined : Disciplined (sendFits c) [] [] (handleOPER cfg self user ps) :=
  .ite (fun _ => reply_disciplined hc _ _ _) fun _ => .look_bind fun _ =>
    .bind (.onlyIf fun _ => addUserMode_disciplined _) fun _ => reply_disciplined hc _ _ _

/-! ## WHOIS, LIST, NAMES -/

/-- WHOIS replies without a mutex. -/
theorem handleWHOIS_disciplined :
    Disciplined (sendFits c) [] [] (handleWHOIS cfg self user ps) := by
  have hturn : ∀ whois m acc,
      Disciplined (sendFits c) [.cLock whois] [.cLock whois] (whoisChan whois m acc) :=
    fun _ _ _ => .change_bind (.pure _)
  have hchans : ∀ whois nick, Disciplined (sendFits c) [] [] (whoisChans whois nick) :=
    fun whois _ => .acquire_bind List.not_mem_nil (.change_bind (.look_bind fun _ =>
      .bind (.forEach (hturn whois) _ _) fun _ => .release_bind (.pure _)))
  refine .lockedLook_bind List.not_mem_nil fun s => .look_bind fun _ =>
    .ite (fun _ => reply_disciplined hc _ _ _) fun _ => ?_
  cases s.seekNick (ps.get 1) with
  | none => exact reply_disciplined hc _ _ _
  | some whois =>
    exact .look_bind fun _ => .bind (reply_disciplined hc _ _ _) fun _ =>
      .bind (hchans whois _) fun _ => .bind (.onlyIf fun _ => reply_disciplined hc _ _ _) fun _ =>
      .look_bind fun _ => .bind (reply_disciplined hc _ _ _) fun _ =>
      .look_bind fun _ => .bind (.onlyIf fun _ => reply_disciplined hc _ _ _) fun _ =>
      .look_bind fun _ => .bind (.onlyIf fun _ => reply_disciplined hc _ _ _) fun _ =>
      reply_disciplined hc _ _ _

/-- LIST gives `lock` back around each reply. -/
theorem handleLIST_disciplined (fuel : Nat) :
    Disciplined (sendFits c) [] [] (handleLIST cfg self fuel user ps) := by
  have hlist : ∀ chan, Disciplined (sendFits c) [] [] (listChan cfg self user chan) :=
    fun _ => .look_bind fun _ => reply_disciplined hc _ _ _
  refine .ite (fun _ => ?_) fun _ => ?_
  · exact .bind (lookChan_disciplined List.not_mem_nil _) fun _ => .deref_bind fun chan _ =>
      .bind (hlist chan) fun _ => reply_disciplined hc _ _ _
  · exact .acquire_bind List.not_mem_nil (.change_bind (.bind
      (scanChans_disciplined (fun _ => hlist) fuel)
      fun _ => .change_bind (.release_bind (reply_disciplined hc _ _ _))))

/-- The last reply of NAMES is sent without `c_lock`, so it must fail. -/
theorem handleNAMES_disciplined (fuel : Nat) :
    Disciplined (sendFits c) [] [] (handleNAMES cfg u stale fuel u ps) := by
  have hturn : ∀ v names, Disciplined (sendFits c) [.lock] [.lock] (nameLoner v names) :=
    fun _ _ => .change_bind (.lockedLook_bind (by simp) fun _ => .pure _)
  refine .look_bind fun _ => .ite (fun _ => reply_disciplined hc _ _ _) fun _ => .bind (.ite
    (fun _ => ?_) fun _ => .bind (lookChan_disciplined List.not_mem_nil _) fun found => ?_) fun _ =>
    bareReply_disciplined _ _ _
  · exact .acquire_bind List.not_mem_nil (.change_bind (.bind
      (scanChans_disciplined (fun _ => sendNames_disciplined hc) fuel) fun _ => .change_bind
      (scan_disciplined hturn fun _ => .release_bind (.onlyIf fun _ => reply_disciplined hc _ _ _))))
  · cases found with
    | none => exact .pure ()
    | some chan => exact sendNames_disciplined hc chan

/-! ## WHO -/

/-- A stranger's `c_lock` is given back before the reply about him. -/
theorem whoStranger_disciplined (v : Uid) (b : Unit) :
    Disciplined (sendFits c) [.lock] [.lock] (whoStranger cfg self user v b) :=
  .change_bind (.acquire_bind (by simp) (.bind (sharesChan_disciplined v) fun _ =>
    .look_bind fun _ => .release_bind (.onlyIf fun _ =>
      sendReply_disciplined (by simp) (fun h => absurd h hc) _ _ _)))

/-- Both users' mutexes are held, unless the two have one nick. -/
theorem whoReply_disciplined (v : Uid) (name : CStr) (m : MyChan) :
    Disciplined (sendFits c) [.cLock v, .lock] [.cLock v, .lock]
      (whoReply cfg self user v name m) := by
  have hnot : ∀ {held : List Mutex}, c = .QUIT → held.length ≠ 1 := fun h => absurd h hc
  refine .looks_bind fun s => ?_
  by_cases hnick : (s.persons v).nick ≠ (s.persons user).nick
  · have hne : user ≠ v := fun heq => hnick (by rw [heq])
    rw [decide_eq_true hnick]
    exact .acquire_bind (by simpa using hne) (.checkedOutput
      (sendFits_locked hnot (List.cons_ne_nil _ _)) (userExit_own List.mem_cons_self) (.release _))
  · rw [decide_eq_false hnick]
    exact .checkedOutput (sendFits_locked hnot (List.cons_ne_nil _ _))
      (userExit_lock (List.mem_cons_of_mem _ List.mem_cons_self)) (.pure ())

/-- A member's is held with the asker's, unless they have one nick. -/
theorem whoMember_disciplined (name : CStr) (v : Uid) (b : Unit) :
    Disciplined (sendFits c) [.lock] [.lock] (whoMember cfg self user name v b) := by
  refine .change_bind (.acquire_bind (by simp) (.look_bind fun s => .bind ?_ fun _ => .release _))
  cases (s.persons v).seekChan name with
  | none => exact .pure ()
  | some m => exact whoReply_disciplined hc v name m

/-- WHO gives back all that it took. -/
theorem handleWHO_disciplined : Disciplined (sendFits c) [] [] (handleWHO cfg self user ps) :=
  .ite (fun _ => .bind (whoLoop_disciplined (whoStranger_disciplined hc)) fun _ =>
      reply_disciplined hc _ _ _)
    fun _ => .bind (whoLoop_disciplined (whoMember_disciplined hc _)) fun _ =>
      reply_disciplined hc _ _ _

/-! ## MODE -/

/-- The refusals of MODE on a member are sent without a mutex. -/
theorem modeMemberChan_disciplined (found : Option Cid) :
    Disciplined (sendFits c) [] [] (modeMemberChan cfg u u ps found) := by
  cases found with
  | none => exact reply_disciplined hc _ _ _
  | some chan =>
    refine .lockedLook_bind List.not_mem_nil fun _ => .look_bind fun _ =>
      .ite (fun _ => bareReply_disciplined _ _ _) fun _ => .lockedLook_bind List.not_mem_nil fun s => ?_
    cases s.seekUser (ps.get 3) with
    | none => exact bareReply_disciplined _ _ _
    | some target =>
      exact .look_bind fun _ => .ite (fun _ => bareReply_disciplined _ _ _) fun _ =>
        .ite (fun _ => reply_disciplined hc _ _ _) fun _ => setMemberMode_disciplined target chan

theorem modeUser_disciplined : Disciplined (sendFits c) [] [] (modeUser cfg self user ps) :=
  .look_bind fun _ => .ite (fun _ => reply_disciplined hc _ _ _) fun _ =>
    .ite (fun _ => reply_disciplined hc _ _ _) fun _ => .ite
      (fun _ => .bind (.onlyIf fun _ => .lockedChange List.not_mem_nil) fun _ =>
        send_disciplined hc _) fun _ => .pure ()

/-- MODE on a channel writes without a mutex. -/
theorem modeChannel_disciplined (found : Option Cid) :
    Disciplined (sendFits c) [] [] (modeChannel cfg self user ps found) := by
  have hrelay : ∀ chan, Disciplined (sendFits c) [] [] (relayMode self user ps chan) :=
    fun _ => .look_bind fun _ => .look_bind fun _ => relay_disciplined _ _ _
  have hlacks : ∀ name, Disciplined (sendFits c) [] [] (lacksOper user name) :=
    fun _ => .look_bind fun _ => .ite (fun _ => .pure _) fun _ =>
      .bind (.lockedLook_bind List.not_mem_nil fun _ => .pure _) fun _ =>
      .deref_bind fun _ _ => .pure _
  cases found with
  | none => exact reply_disciplined hc _ _ _
  | some chan =>
    refine .look_bind fun _ => .ite (fun _ => reply_disciplined hc _ _ _) fun _ =>
      .bind (hlacks _) fun _ => .ite (fun _ => reply_disciplined hc _ _ _) fun _ =>
      .ite (fun _ => reply_disciplined hc _ _ _) fun _ => .ite (fun _ => ?_) fun _ =>
      .ite (fun _ => .change_bind (hrelay chan)) fun _ => modeUser_disciplined hc
    exact .look_bind fun _ => .bind (strcatMode_disciplined _ _) fun _ =>
      .change_bind (hrelay chan)

/-- The three kinds of MODE. -/
theorem handleMODE_disciplined : Disciplined (sendFits c) [] [] (handleMODE cfg u u ps) :=
  .ite (fun _ => .bind (lookChan_disciplined List.not_mem_nil _) fun found =>
      modeMemberChan_disciplined hc found)
    fun _ => .ite (fun _ => .bind (lookChan_disciplined List.not_mem_nil _) fun found =>
      modeChannel_disciplined hc found) fun _ => modeUser_disciplined hc

end Handlers

/-! ## Every handler -/

/-- **Every handler** is right when its sends turn out as `sendFits` asks. -/
theorem dispatch_disciplined (cfg : Config) (u : Uid) (fuel : Nat) (ps : Params) (c : Command) :
    Disciplined (sendFits c) [] [] (dispatch cfg u stale fuel u ps c) := by
  cases c with
  | NICK => exact handleNICK_disciplined (by decide)
  | USER => exact handleUSER_disciplined (by decide)
  | QUIT => exact handleQUIT_disciplined
  | PRIVMSG => exact handlePRIVMSG_disciplined (by decide)
  | NOTICE => exact handleNOTICE_disciplined (by decide)
  | WHOIS => exact handleWHOIS_disciplined (by decide)
  | PING => exact handlePING_disciplined (by decide)
  | PONG => exact .pure ()
  | LUSERS => exact handleLUSERS_disciplined (by decide)
  | MOTD => exact handleMOTD_disciplined (by decide)
  | JOIN => exact handleJOIN_disciplined (by decide)
  | AWAY => exact handleAWAY_disciplined (by decide)
  | PART => exact handlePART_disciplined (by decide)
  | TOPIC => exact handleTOPIC_disciplined (by decide)
  | NAMES => exact handleNAMES_disciplined (by decide) fuel
  | MODE => exact handleMODE_disciplined (by decide)
  | OPER => exact handleOPER_disciplined (by decide)
  | LIST => exact handleLIST_disciplined (by decide) fuel
  | WHO => exact handleWHO_disciplined (by decide)
  | UNKNOWN => exact reply_disciplined (by decide) _ _ _

/-- **A handler's mutex operations are well formed**, and it holds no mutex at the
end, exactly when each `send` it makes comes out as `sendFits` says. -/
theorem mutexes_iff (cfg : Config) (ok : Nat → Bool) (s : Server) (u : Uid) (fuel : Nat) (ps : Params)
    (c : Command) :
    (dispatch cfg u stale fuel u ps c).Orderly ok (fun _ w => w.held = []) s.world ↔
      (dispatch cfg u stale fuel u ps c).Outputs ok (sendFits c) (fun _ _ => True) s.world :=
  dispatch_disciplined cfg u fuel ps c ok s [] _ _ fun _ _ _ => ⟨fun _ => trivial, fun _ => rfl⟩

/-- A client is gone when he is told that his command is unknown. -/
theorem mutexes_relocked : ¬ ∀ (cfg : Config) (ok : Nat → Bool) (s : Server) (u : Uid)
    (stale : Nat → Nat) (fuel : Nat) (ps : Params) (c : Command), Reachable cfg s →
    u ∈ s.userlist.items →
    (dispatch cfg u stale fuel u ps c).Orderly ok (fun _ w => w.held = []) s.world := by
  intro hall
  have horderly := hall .plain (fun _ => false) oneClient 0 (fun _ => 0) 0 [str "HELLO"] .UNKNOWN
    (oneClient_reachable .plain) (by decide)
  exact horderly.2.1 List.mem_cons_self

end UchiNetworks.Chirc
