import UchiNetworks.Lib.Nesting
import UchiNetworks.Chirc.Calm
import UchiNetworks.Chirc.Lookups

/-!
# chirc: the order in which a handler takes mutexes

Where its sends work, no handler takes a mutex it holds, whatever the other threads do
meanwhile. `lock` may be held while a `c_lock` is taken, by the loops over `userlist`.
`user_exit` and `sendtoallchans` do it the other way round: they hold a `c_lock` when
they take `lock` or a `chan_lock`. Nobody else does, so `lockOrder` says whether this
is allowed.

Nicks are written under `lock` alone. WHO needs it: it takes the client's `c_lock`
under a member's unless the two have one nick, and so never twice.
-/

namespace UchiNetworks.Chirc

open UchiNetworks.Lib
open Prog

variable {cfg : Config} {self user u : Uid} {ps : Params} {leaving : Bool} {held : List Mutex}
  {stale : Nat → Nat} {junk : Nat}

/-- What may be taken under `held`. `leaving` allows what `user_exit` and
`sendtoallchans` do. -/
def mayTake (leaving : Bool) (held : List Mutex) : Mutex → Prop
  | .lock => leaving = true ∨ ∀ u, Mutex.cLock u ∉ held
  | .chanLock _ => Mutex.lock ∉ held ∧ (∀ chan, Mutex.chanLock chan ∉ held) ∧
      (leaving = true ∨ ∀ u, Mutex.cLock u ∉ held)
  | .cLock _ => (∀ chan, Mutex.chanLock chan ∉ held) ∧ (held = [] ∨ Mutex.lock ∈ held)

/-- Everybody's nick. -/
def nicks (s : Server) (u : Uid) : CStr := (s.persons u).nick

/-- `lock` protects the nicks. -/
def lockOrder (leaving : Bool) : Nesting Server Mutex (Uid → CStr) where
  may := mayTake leaving
  guard := .lock
  view := nicks

/-- Who holds nothing may take any mutex. -/
theorem may_nil (m : Mutex) : (lockOrder leaving).may [] m := by
  cases m with
  | lock => exact Or.inr fun _ => List.not_mem_nil
  | cLock u => exact ⟨fun _ => List.not_mem_nil, Or.inl rfl⟩
  | chanLock chan =>
    exact ⟨List.not_mem_nil, fun _ => List.not_mem_nil, Or.inr fun _ => List.not_mem_nil⟩

/-- A `c_lock` in a loop over the users. -/
theorem may_cLock (hchan : ∀ chan, Mutex.chanLock chan ∉ held) (hlock : Mutex.lock ∈ held) (u : Uid) :
    (lockOrder leaving).may held (.cLock u) := ⟨hchan, Or.inr hlock⟩

/-- A calm change, wherever it is made. -/
theorem Calm.quiet {f : Server → Server} (hf : Calm f) :
    (lockOrder leaving).guard ∈ held ∨ (lockOrder leaving).Spares f :=
  Or.inr fun s => funext fun u => hf.nick s u

/-! ## Lookups and sending -/

/-- A search of `chanlist` takes `lock` and gives it back. -/
theorem lookChan_neat (hlock : Mutex.lock ∉ held) (hmay : (lockOrder leaving).may held .lock)
    (name : CStr) : Neat (lockOrder leaving) held held (lookChan name) :=
  .lockedLook_bind hlock hmay fun _ => .pure _

theorem lookMyChan_neat (name : CStr) : Neat (lockOrder leaving) [] [] (lookMyChan user name) :=
  .lockedLook_bind List.not_mem_nil (may_nil _) fun _ => .pure _

/-- A send takes the user's `c_lock`, wherever that is in order. -/
theorem lockedSend_neat (hfree : Mutex.cLock u ∉ held)
    (hmay : (lockOrder leaving).may held (.cLock u)) (msg : CStr) :
    Neat (lockOrder leaving) held held (lockedSend self u msg) :=
  .acquire_bind hfree hmay (.look_bind fun _ => .output_bind (.release _))

/-- So does a reply. -/
theorem sendReply_neat (hfree : Mutex.cLock u ∉ held)
    (hmay : (lockOrder leaving).may held (.cLock u)) (code : Reply) (reply extra : CStr) :
    Neat (lockOrder leaving) held held (sendReply cfg self u code reply extra) :=
  .look_bind fun _ => lockedSend_neat hfree hmay _

/-- A reply from a thread that holds nothing. -/
theorem reply_neat (code : Reply) (reply extra : CStr) :
    Neat (lockOrder leaving) [] [] (sendReply cfg self user code reply extra) :=
  sendReply_neat List.not_mem_nil (may_nil _) code reply extra

/-- From no mutex at all it is in order. -/
theorem send_neat (msg : CStr) : Neat (lockOrder leaving) [] [] (lockedSend self user msg) :=
  lockedSend_neat List.not_mem_nil (may_nil _) msg

/-- A reply after which a mutex is given back that is not held. -/
theorem bareReply_neat (code : Reply) (reply extra : CStr) :
    Neat (lockOrder leaving) [] [] (bareReply cfg self user code reply extra) :=
  .look_bind fun _ => .output_bind (.release_free List.not_mem_nil (fun h => by cases h))

/-- A loop over the users under `lock`. -/
theorem scan_neat {β : Type} {go : β → Bool} {body : Uid → β → Act β} {b : β} {held' : List Mutex}
    {q : β → Act Unit} (hbody : ∀ v b, Neat (lockOrder leaving) held held (body v b))
    (hq : ∀ b, Neat (lockOrder leaving) held held' (q b)) :
    Neat (lockOrder leaving) held held' (do
      change startUsers
      let users ← look (·.userlist.remaining)
      let b' ← forEach go body users b
      change stopUsers
      q b') :=
  .change_bind calm_startUsers.quiet (.look_bind fun _ => .bind (.forEach hbody _ b) fun b' =>
    .change_bind calm_stopUsers.quiet (hq b'))

/-- A turn that only looks at a user. -/
theorem glance_neat {β : Type} (v : Uid) (g : Person → β) :
    Neat (lockOrder leaving) [.lock] [.lock] (do
      change nextUser
      acquire (.cLock v)
      let p ← look (·.persons v)
      release (.cLock v)
      return g p : Act β) :=
  .change_bind calm_nextUser.quiet (.lockedLook_bind (by simp)
    (may_cLock (by simp) List.mem_cons_self v) fun _ => .pure _)

/-- A scan under `lock`, from a thread that holds at most `c_lock`s of no recipient. -/
theorem sendtochannel_neat (hlock : Mutex.lock ∉ held) (hmay : (lockOrder leaving).may held .lock)
    (hchan : ∀ chan, Mutex.chanLock chan ∉ held) (found : Option Cid) (msg : CStr)
    (sender : Option Uid)
    (hfree : ∀ s v cname, isRecipient s v cname sender = true → Mutex.cLock v ∉ held) :
    Neat (lockOrder leaving) held held (sendtochannel self found msg sender) := by
  refine .deref_bind fun _ _ => .look_bind fun _ => .acquire_bind hlock hmay
    (scan_neat (fun v _ => ?_) fun _ => .release _)
  refine .change_bind calm_nextUser.quiet (.look_bind fun s => .onlyIf fun hit => ?_)
  have hv : Mutex.cLock v ∉ held := hfree s v _ hit
  exact lockedSend_neat (by simp [hv]) (may_cLock (by simp [hchan]) List.mem_cons_self v) msg

/-- A line for a channel, from a thread that holds nothing. -/
theorem relay_neat (found : Option Cid) (msg : CStr) (sender : Option Uid) :
    Neat (lockOrder leaving) [] [] (sendtochannel self found msg sender) :=
  sendtochannel_neat List.not_mem_nil (may_nil _) (fun _ => List.not_mem_nil) found msg sender
    fun _ _ _ _ => List.not_mem_nil

/-- The client's `c_lock`, and under it `lock`. -/
theorem sendtoallchans_neat (msg : CStr) :
    Neat (lockOrder true) [] [] (sendtoallchans self user msg) := by
  have hlock : Mutex.lock ∉ [Mutex.cLock user] := by simp
  have hmay : (lockOrder true).may [.cLock user] .lock := Or.inl rfl
  have hturn : ∀ m b, Neat (lockOrder true) [.cLock user] [.cLock user] (relayChan self user msg m b) := by
    refine fun m _ => .change_bind (calm_updChans _ user).quiet (.bind (lookChan_neat hlock hmay m.name)
      fun found => sendtochannel_neat hlock hmay (by simp) found msg (some user) fun s v cname hv => ?_)
    have hne := isRecipient_ne hv
    simpa using hne
  exact .acquire_bind List.not_mem_nil (may_nil _) (.change_bind (calm_updChans _ user).quiet
    (.look_bind fun _ => .bind (.forEach hturn _ ()) fun _ =>
    .change_bind (calm_updChans _ user).quiet (.release _)))

/-! ## Leaving -/

/-- `channel_destroy` takes `lock` under the `chan_lock`. -/
theorem leaveChannel_neat (hlock : Mutex.lock ∉ held) (hchan : ∀ d, Mutex.chanLock d ∉ held)
    (hmay : leaving = true ∨ ∀ u, Mutex.cLock u ∉ held) (chan : Cid) :
    Neat (lockOrder leaving) held held (leaveChannel chan) := by
  have hmayChan : (lockOrder leaving).may held (.chanLock chan) := ⟨hlock, hchan, hmay⟩
  have hmayLock : (lockOrder leaving).may (.chanLock chan :: held) .lock := by
    obtain hleaving | hfree := hmay
    · exact Or.inl hleaving
    · exact Or.inr fun u => by simp [hfree u]
  have hdestroy : Neat (lockOrder leaving) held held (channelDestroy chan) := by
    refine .acquire_bind (hchan chan) hmayChan (.look_bind fun _ => .ite (fun _ => .release _)
      fun _ => .acquire_bind (by simp [hlock]) hmayLock (.change_bind ?_ (.release_bind (.release _))))
    exact (calm_chanlist (·.delete (· = chan))).quiet
  exact .acquire_bind (hchan chan) hmayChan (.change_bind (calm_updChannel _ chan).quiet
    (.release_bind (.look_bind fun _ => .onlyIf fun _ => hdestroy)))

/-- The user's `c_lock`, under it each channel's `chan_lock`, and `lock`. -/
theorem userExit_neat : Neat (lockOrder true) [] [] (userExit self user) := by
  have hlock : Mutex.lock ∉ [Mutex.cLock user] := by simp
  have hmay : (lockOrder true).may [.cLock user] .lock := Or.inl rfl
  have hturn : ∀ m b, Neat (lockOrder true) [.cLock user] [.cLock user] (exitChannel user m b) :=
    fun m _ => .change_bind (calm_updChans _ user).quiet (.bind (lookChan_neat hlock hmay m.name)
      fun _ => .deref_bind fun chan _ => leaveChannel_neat hlock (by simp) (Or.inl rfl) chan)
  refine .acquire_bind List.not_mem_nil (may_nil _) (.look_bind fun _ => .output_bind
    (.change_bind (calm_updChans _ user).quiet (.look_bind fun _ => .bind (.forEach hturn _ ()) fun _ =>
    .change_bind (calm_updChans _ user).quiet (.change_bind (calm_updChans _ user).quiet
    (.acquire_bind hlock hmay (.change_bind (calm_removeUser user).quiet (.release_bind
    (.release_bind (.onlyIf fun _ => .exit)))))))))

/-! ## Replies only -/

theorem motdLines_neat (lines : List CStr) :
    Neat (lockOrder leaving) [] [] (motdLines cfg self user lines) := by
  induction lines with
  | nil => exact .pure ()
  | cons motd rest ih => exact .bind (reply_neat _ _ _) fun _ => ih

/-- MOTD takes `c_lock` for each line. -/
theorem handleMOTD_neat : Neat (lockOrder leaving) [] [] (handleMOTD cfg self user) := by
  refine .look_bind fun _ => .ite (fun _ => reply_neat _ _ _) fun _ => ?_
  cases cfg.motd with
  | none => exact reply_neat _ _ _
  | some lines =>
    exact .bind (reply_neat _ _ _) fun _ => .bind (motdLines_neat lines) fun _ => reply_neat _ _ _

/-- LUSERS counts under `lock`, and gives it back before it replies. -/
theorem handleLUSERS_neat : Neat (lockOrder leaving) [] [] (handleLUSERS cfg self user) := by
  refine .acquire_bind List.not_mem_nil (may_nil _) (.look_bind fun _ => .look_bind fun _ =>
    .look_bind fun _ => scan_neat (fun v n => glance_neat v fun p =>
      if hasMode p.mode modeO then n + 1 else n) fun _ => .release_bind (.look_bind fun _ =>
      .ite (fun _ => reply_neat _ _ _) fun _ => ?_))
  exact .bind (reply_neat _ _ _) fun _ => .bind (reply_neat _ _ _) fun _ =>
    .bind (reply_neat _ _ _) fun _ => .bind (reply_neat _ _ _) fun _ => reply_neat _ _ _

/-- PING takes `lock` and gives it back before it replies. -/
theorem handlePING_neat : Neat (lockOrder leaving) [] [] (handlePING cfg self user) :=
  .acquire_bind List.not_mem_nil (may_nil _) (.release_bind (.look_bind fun _ =>
    .ite (fun _ => reply_neat _ _ _) fun _ => send_neat _))

/-! ## Names -/

/-- A registration counts under `lock`; the burst comes afterwards. -/
theorem doRegistration_neat : Neat (lockOrder leaving) [] [] (doRegistration cfg self user) := by
  have hcount : Calm fun s => { s with numregistered := s.numregistered + 1 } :=
    calm_elsewhere (fun _ => rfl) (fun _ => rfl) fun _ => rfl
  exact .acquire_bind List.not_mem_nil (may_nil _) (.change_bind hcount.quiet (.release_bind
    (.bind (reply_neat _ _ _) fun _ => .bind (reply_neat _ _ _) fun _ => .bind (reply_neat _ _ _)
    fun _ => .bind (reply_neat _ _ _) fun _ => .bind handleLUSERS_neat fun _ => handleMOTD_neat)))

/-- The one change that is not calm is made under `lock`. -/
theorem setNick_neat (newnick : CStr) : Neat (lockOrder leaving) [] [] (setNick user newnick) :=
  .acquire_bind List.not_mem_nil (may_nil _) (.change_bind (Or.inl List.mem_cons_self) (.release _))

/-- NICK holds `c_lock` while it relays, which needs `lock` and `chan_lock`. -/
theorem handleNICK_neat : Neat (lockOrder true) [] [] (handleNICK cfg self user ps) := by
  refine .lockedLook_bind List.not_mem_nil (may_nil _) fun _ => .ite (fun _ => reply_neat _ _ _)
    fun _ => .look_bind fun _ => .ite (fun _ => ?_) fun _ => ?_
  · exact .bind (send_neat _) fun _ => .bind (sendtoallchans_neat _) fun _ => setNick_neat _
  · exact .bind (setNick_neat _) fun _ => .look_bind fun _ => .onlyIf fun _ => doRegistration_neat

/-- USER sets the names under `lock`. -/
theorem handleUSER_neat : Neat (lockOrder leaving) [] [] (handleUSER cfg self user ps) := by
  have hset : Calm (·.updPerson user fun p =>
      { p with user := ps.get 1, fullname := (ps.get 4).tail }) :=
    calm_updPerson (fun p => { p with user := ps.get 1, fullname := (ps.get 4).tail })
      (fun _ => rfl) (fun _ => rfl) user
  exact .look_bind fun _ => .ite (fun _ => reply_neat _ _ _) fun _ => .acquire_bind List.not_mem_nil
    (may_nil _) (.change_bind hset.quiet (.release_bind (.look_bind fun _ =>
      .onlyIf fun _ => doRegistration_neat)))

/-- QUIT holds `c_lock` while it relays, too. -/
theorem handleQUIT_neat : Neat (lockOrder true) [] [] (handleQUIT self user ps) :=
  .look_bind fun _ => .bind (sendtoallchans_neat _) fun _ => .acquire_bind List.not_mem_nil
    (may_nil _) (.output_bind (.release_bind userExit_neat))

/-! ## Messages -/

/-- The search for a recipient is one section under `lock`. -/
theorem lookRecipient_neat (name : CStr) : Neat (lockOrder leaving) [] [] (lookRecipient name) :=
  .acquire_bind List.not_mem_nil (may_nil _) (.look_bind fun _ => .look_bind fun _ =>
    .release_bind (.pure _))

theorem silenced_neat (chan : Cid) (name : CStr) :
    Neat (lockOrder leaving) [] [] (silenced user chan name) :=
  .look_bind fun _ => .look_bind fun _ => .ite (fun _ => .bind (lookMyChan_neat name) fun _ =>
    .deref_bind fun _ _ => .pure _) fun _ => .pure _

/-- To a user the message goes under the recipient's `c_lock`. -/
theorem privmsgUser_neat (recip : Uid) (msg : CStr) :
    Neat (lockOrder leaving) [] [] (privmsgUser cfg self user recip msg) := by
  refine .bind (.acquire_bind List.not_mem_nil (may_nil _) (.look_bind fun _ => .output_bind
    (.look_bind fun _ => .release_bind (.pure _)))) fun _ => .onlyIf fun _ => ?_
  exact .lockedLook_bind List.not_mem_nil (may_nil _) fun _ => reply_neat _ _ _

/-- PRIVMSG gives each mutex back before it sends or relays. -/
theorem handlePRIVMSG_neat : Neat (lockOrder leaving) [] [] (handlePRIVMSG cfg self user ps) := by
  refine .look_bind fun _ => .ite (fun _ => reply_neat _ _ _) fun _ =>
    .bind (lookRecipient_neat _) fun recipient => ?_
  obtain ⟨recip, chan⟩ := recipient
  cases recip with
  | some recip =>
    exact .lockedLook_bind List.not_mem_nil (may_nil _) fun _ => privmsgUser_neat recip _
  | none =>
    cases chan with
    | none => exact reply_neat _ _ _
    | some chan =>
      refine .lockedLook_bind List.not_mem_nil (may_nil _) fun _ => .look_bind fun _ =>
        .ite (fun _ => reply_neat _ _ _) fun _ => .bind (silenced_neat chan _) fun _ => ?_
      exact .ite (fun _ => reply_neat _ _ _) fun _ => relay_neat _ _ _

/-- So does NOTICE. -/
theorem handleNOTICE_neat : Neat (lockOrder leaving) [] [] (handleNOTICE cfg self user ps) := by
  have huser : ∀ notice recip, Neat (lockOrder leaving) [] [] (noticeUser self notice recip) := by
    intro notice recip
    cases recip with
    | none => exact .pure ()
    | some recip => exact send_neat _
  have hchan : ∀ notice found,
      Neat (lockOrder leaving) [] [] (noticeChan self user (ps.get 1) notice found) := by
    intro notice found
    cases found with
    | none => exact .pure ()
    | some chan =>
      exact .bind (silenced_neat chan _) fun _ => .ite (fun _ => .pure ()) fun _ =>
        .look_bind fun _ => .onlyIf fun _ => relay_neat _ _ _
  exact .bind (lookRecipient_neat _) fun _ => .look_bind fun _ =>
    .ite (fun _ => reply_neat _ _ _) fun _ => .bind (huser _ _) fun _ => hchan _ _

/-! ## JOIN, PART, TOPIC -/

/-- `send_names` collects under `lock`, and replies afterwards. -/
theorem sendNames_neat (chan : Cid) :
    Neat (lockOrder leaving) [] [] (sendNames cfg self junk user chan) :=
  .lockedLook_bind List.not_mem_nil (may_nil _) fun _ => .acquire_bind List.not_mem_nil (may_nil _)
    (scan_neat (fun v names => glance_neat v fun p =>
      ((p.seekChan _).map fun m => addMember junk m p.nick names).getD names) fun _ =>
      .release_bind (reply_neat _ _ _))

theorem joinReplies_neat (chan : Cid) (cname : CStr) :
    Neat (lockOrder leaving) [] [] (joinReplies cfg self junk user chan cname) :=
  .look_bind fun _ => .bind (relay_neat _ _ _) fun _ => .look_bind fun _ =>
    .bind (.onlyIf fun _ => reply_neat _ _ _) fun _ => .bind (sendNames_neat chan) fun _ =>
    reply_neat _ _ _

/-- JOIN finds or makes the channel under `lock`. -/
theorem handleJOIN_neat : Neat (lockOrder leaving) [] [] (handleJOIN cfg self stale user ps) := by
  have hadd : Calm (·.addChannel (ps.get 1)) :=
    calm_elsewhere (fun _ => rfl) (fun _ => rfl) fun _ => rfl
  have hfind : ∀ found, Neat (lockOrder leaving) [] [] (findOrCreate (ps.get 1) found) := by
    intro found
    cases found with
    | some chan => exact .pure chan
    | none =>
      exact .acquire_bind List.not_mem_nil (may_nil _) (.look_bind fun _ =>
        .change_bind hadd.quiet (.release_bind (.pure _)))
  exact .bind (lookChan_neat List.not_mem_nil (may_nil _) _) fun found => .bind (hfind found)
    fun chan => .look_bind fun _ => .ite (fun _ => .pure ()) fun _ => .bind
      (.acquire_bind List.not_mem_nil (may_nil _) (.change_bind (calm_updChans _ user).quiet
        (.release_bind (.acquire_bind List.not_mem_nil (may_nil _)
          (.change_bind (calm_updChannel _ chan).quiet (.release _)))))) fun _ =>
      joinReplies_neat chan _

/-- PART leaves the channel after it has given `c_lock` back. -/
theorem handlePART_neat : Neat (lockOrder leaving) [] [] (handlePART cfg self user ps) := by
  refine .bind (lookChan_neat List.not_mem_nil (may_nil _) _) fun found => ?_
  cases found with
  | none => exact reply_neat _ _ _
  | some chan =>
    exact .look_bind fun _ => .ite (fun _ => reply_neat _ _ _) fun _ => .look_bind fun _ =>
      .bind (relay_neat _ _ _) fun _ => .acquire_bind List.not_mem_nil (may_nil _)
        (.change_bind (calm_updChans _ user).quiet (.release_bind (leaveChannel_neat
          List.not_mem_nil (fun _ => List.not_mem_nil) (Or.inr fun _ => List.not_mem_nil) chan)))

/-- The look at the flag and the refusal are a section under `c_lock`. -/
theorem topicOper_neat (cname : CStr) :
    Neat (lockOrder leaving) [] [] (topicOper cfg self user cname) :=
  .acquire_bind List.not_mem_nil (may_nil _) (.look_bind fun _ => .deref_bind fun _ _ =>
    .look_bind fun _ => .bind (.onlyIf fun _ => .output_bind (.pure ())) fun _ =>
    .release_bind (.pure _))

/-- TOPIC sets the topic without a mutex. -/
theorem handleTOPIC_neat : Neat (lockOrder leaving) [] [] (handleTOPIC cfg self user ps) := by
  have hreply : ∀ found, Neat (lockOrder leaving) [] [] (topicReply cfg self user (ps.get 1) found) :=
    fun _ => .deref_bind fun _ _ => .look_bind fun _ => .ite (fun _ => reply_neat _ _ _)
      fun _ => reply_neat _ _ _
  have hmay : ∀ chan, Neat (lockOrder leaving) [] [] (mayTopic cfg self user chan (ps.get 1)) :=
    fun _ => .look_bind fun _ => .ite (fun _ => topicOper_neat _) fun _ => .pure _
  have hset : ∀ chan, Neat (lockOrder leaving) [] [] (setTopic self user ps chan) :=
    fun chan => .change_bind (calm_updChannel _ chan).quiet (.look_bind fun _ => .look_bind fun _ =>
      relay_neat _ _ _)
  exact .bind (lookChan_neat List.not_mem_nil (may_nil _) _) fun found => .look_bind fun _ =>
    .ite (fun _ => reply_neat _ _ _) fun _ => .ite (fun _ => hreply found) fun _ =>
    .deref_bind fun chan _ => .bind (hmay chan) fun _ => .ite (fun _ => .pure ()) fun _ =>
      .bind (hset chan) fun _ => hreply found

/-! ## AWAY, OPER, WHOIS -/

theorem strcatMode_neat (mode add : CStr) :
    Neat (lockOrder leaving) held held (strcatMode mode add) :=
  .ite (fun _ => .pure _) fun _ => .crash _

/-- A mode is changed without taking anything. -/
theorem addUserMode_neat (add : CStr) :
    Neat (lockOrder leaving) held held (addUserMode user add) :=
  .look_bind fun _ => .bind (strcatMode_neat _ _) fun _ => .change (calm_mode (fun _ => _) user).quiet

theorem dropUserMode_neat (c : UInt8) : Neat (lockOrder leaving) [] [] (dropUserMode user c) :=
  .acquire_bind List.not_mem_nil (may_nil _) (.change_bind (calm_mode (delMode · c) user).quiet
    (.release _))

/-- AWAY changes mode and text under `c_lock`. -/
theorem handleAWAY_neat : Neat (lockOrder leaving) [] [] (handleAWAY cfg self user ps) := by
  have haway : Calm (·.updPerson user fun p => { p with away := ps.get 1 }) :=
    calm_updPerson (fun p => { p with away := ps.get 1 }) (fun _ => rfl) (fun _ => rfl) user
  refine .look_bind fun _ => .ite (fun _ => reply_neat _ _ _) fun _ => .ite (fun _ => ?_) fun _ => ?_
  · exact .bind (.onlyIf fun _ => dropUserMode_neat _) fun _ => reply_neat _ _ _
  · exact .bind (.onlyIf fun _ => .acquire_bind List.not_mem_nil (may_nil _)
      (.bind (addUserMode_neat _) fun _ => .release _)) fun _ => .acquire_bind List.not_mem_nil
      (may_nil _) (.change_bind haway.quiet (.release_bind (reply_neat _ _ _)))

/-- OPER takes nothing for its change. -/
theorem handleOPER_neat : Neat (lockOrder leaving) [] [] (handleOPER cfg self user ps) :=
  .ite (fun _ => reply_neat _ _ _) fun _ => .look_bind fun _ =>
    .bind (.onlyIf fun _ => addUserMode_neat _) fun _ => reply_neat _ _ _

/-- WHOIS goes through the target's channels under the target's `c_lock`. -/
theorem whoisChans_neat (whois : Uid) (nick : CStr) :
    Neat (lockOrder leaving) [] [] (whoisChans whois nick) := by
  have hturn : ∀ m acc,
      Neat (lockOrder leaving) [.cLock whois] [.cLock whois] (whoisChan whois m acc) :=
    fun _ _ => .change_bind (calm_updChans _ whois).quiet (.pure _)
  exact .acquire_bind List.not_mem_nil (may_nil _) (.change_bind (calm_updChans _ whois).quiet
    (.look_bind fun _ => .bind (.forEach hturn _ _) fun _ => .release_bind (.pure _)))

/-- It replies after that. -/
theorem handleWHOIS_neat : Neat (lockOrder leaving) [] [] (handleWHOIS cfg self user ps) := by
  refine .lockedLook_bind List.not_mem_nil (may_nil _) fun s => .look_bind fun _ =>
    .ite (fun _ => reply_neat _ _ _) fun _ => ?_
  cases s.seekNick (ps.get 1) with
  | none => exact reply_neat _ _ _
  | some whois =>
    exact .look_bind fun _ => .bind (reply_neat _ _ _) fun _ => .bind (whoisChans_neat whois _)
      fun _ => .bind (.onlyIf fun _ => reply_neat _ _ _) fun _ =>
      .look_bind fun _ => .bind (reply_neat _ _ _) fun _ =>
      .look_bind fun _ => .bind (.onlyIf fun _ => reply_neat _ _ _) fun _ =>
      .look_bind fun _ => .bind (.onlyIf fun _ => reply_neat _ _ _) fun _ => reply_neat _ _ _

/-! ## LIST and NAMES -/

/-- `lock` is given back while a channel is dealt with. -/
theorem scanChans_neat {body : Nat → Cid → Act Unit}
    (hbody : ∀ left chan, Neat (lockOrder leaving) [] [] (body left chan)) (fuel : Nat) :
    Neat (lockOrder leaving) [.lock] [.lock] (scanChans body fuel) := by
  induction fuel with
  | zero => exact .crash _
  | succ fuel ih =>
    exact .look_bind fun _ => .ite (fun _ => .look_bind fun _ =>
      .change_bind (calm_chanlist _).quiet (.release_bind (.deref_bind fun chan _ =>
        .bind (hbody _ chan) fun _ => .acquire_bind List.not_mem_nil (may_nil _) ih)))
      fun _ => .pure ()

/-- LIST gives `lock` back around each reply. -/
theorem handleLIST_neat (fuel : Nat) :
    Neat (lockOrder leaving) [] [] (handleLIST cfg self fuel user ps) := by
  have hlist : ∀ chan, Neat (lockOrder leaving) [] [] (listChan cfg self user chan) :=
    fun _ => .look_bind fun _ => reply_neat _ _ _
  refine .ite (fun _ => ?_) fun _ => ?_
  · exact .bind (lookChan_neat List.not_mem_nil (may_nil _) _) fun _ => .deref_bind fun chan _ =>
      .bind (hlist chan) fun _ => reply_neat _ _ _
  · exact .acquire_bind List.not_mem_nil (may_nil _) (.change_bind (calm_chanlist _).quiet
      (.bind (scanChans_neat (fun _ => hlist) fuel) fun _ => .change_bind (calm_chanlist _).quiet
        (.release_bind (reply_neat _ _ _))))

/-- So does NAMES. -/
theorem handleNAMES_neat (fuel : Nat) :
    Neat (lockOrder leaving) [] [] (handleNAMES cfg self stale fuel user ps) := by
  refine .look_bind fun _ => .ite (fun _ => reply_neat _ _ _) fun _ => .bind (.ite (fun _ => ?_)
    fun _ => .bind (lookChan_neat List.not_mem_nil (may_nil _) _) fun found => ?_) fun _ =>
    bareReply_neat _ _ _
  · exact .acquire_bind List.not_mem_nil (may_nil _) (.change_bind (calm_chanlist _).quiet
      (.bind (scanChans_neat (fun _ => sendNames_neat) fuel) fun _ =>
        .change_bind (calm_chanlist _).quiet
        (scan_neat (fun v names => glance_neat v (addLoner · names)) fun _ =>
          .release_bind (.onlyIf fun _ => reply_neat _ _ _))))
  · cases found with
    | none => exact .pure ()
    | some chan => exact sendNames_neat chan

/-! ## WHO -/

/-- The body of the WHO loop runs under `lock`. -/
theorem whoLoop_neat {turn : Uid → Unit → Act Unit}
    (hturn : ∀ v b, Neat (lockOrder leaving) [.lock] [.lock] (turn v b)) :
    Neat (lockOrder leaving) [] [] (whoLoop turn) :=
  .acquire_bind List.not_mem_nil (may_nil _) (scan_neat hturn fun _ => .release _)

/-- Two `c_lock`s may be held together under `lock`. -/
theorem may_second (u v : Uid) : (lockOrder leaving).may [.cLock v, .lock] (.cLock u) :=
  may_cLock (by simp) (by simp) u

/-- WHO compares under `lock`, the asker's `c_lock` and the other's. -/
theorem sharesChan_neat (v : Uid) :
    Neat (lockOrder leaving) [.cLock v, .lock] [.cLock v, .lock] (sharesChan user v) := by
  refine .ite (fun _ => .look_bind fun _ => .pure _) fun hne =>
    .change_bind (calm_updChans _ v).quiet (.look_bind fun _ => .bind (.forEach (fun _ _ =>
      .change_bind (calm_updChans _ v).quiet (.lockedLook_bind ?_ (may_second user v)
        fun _ => .pure _)) _ _) fun _ => .change_bind (calm_updChans _ v).quiet (.pure _))
  simpa using Ne.symm hne

/-- A stranger's `c_lock` is given back before the reply about him. -/
theorem whoStranger_neat (v : Uid) (b : Unit) :
    Neat (lockOrder leaving) [.lock] [.lock] (whoStranger cfg self user v b) :=
  .change_bind calm_nextUser.quiet (.acquire_bind (by simp) (may_cLock (by simp) List.mem_cons_self v)
    (.bind (sharesChan_neat v) fun _ => .look_bind fun _ => .release_bind (.onlyIf fun _ =>
      sendReply_neat (by simp) (may_cLock (by simp) List.mem_cons_self user) _ _ _)))

/-- Two users with different nicks are not one, and no nick changes between the two looks. -/
theorem whoReply_neat (v : Uid) (name : CStr) (m : MyChan) :
    Neat (lockOrder leaving) [.cLock v, .lock] [.cLock v, .lock]
      (whoReply cfg self user v name m) := by
  refine .looks_bind (List.mem_cons_of_mem _ List.mem_cons_self) fun s s' hsame => ?_
  by_cases hnick : (s.persons v).nick ≠ (s'.persons user).nick
  · have hne : user ≠ v := by
      intro heq
      rw [heq] at hnick
      exact hnick (congrFun hsame v)
    rw [decide_eq_true hnick]
    exact .acquire_bind (by simpa using hne) (may_second user v) (.output_bind (.release _))
  · rw [decide_eq_false hnick]
    exact .output_bind (.pure ())

/-- A member's is held with the asker's while the reply is sent. -/
theorem whoMember_neat (name : CStr) (v : Uid) (b : Unit) :
    Neat (lockOrder leaving) [.lock] [.lock] (whoMember cfg self user name v b) := by
  refine .change_bind calm_nextUser.quiet (.acquire_bind (by simp)
    (may_cLock (by simp) List.mem_cons_self v) (.look_bind fun s => .bind ?_ fun _ => .release _))
  cases (s.persons v).seekChan name with
  | none => exact .pure ()
  | some m => exact whoReply_neat v name m

/-- WHO gives back all that it takes. -/
theorem handleWHO_neat : Neat (lockOrder leaving) [] [] (handleWHO cfg self user ps) :=
  .ite (fun _ => .bind (whoLoop_neat whoStranger_neat) fun _ => reply_neat _ _ _)
    fun _ => .bind (whoLoop_neat (whoMember_neat _)) fun _ => reply_neat _ _ _

/-! ## MODE -/

/-- MODE on a member takes the target's `c_lock` to look, and the sender's to take a
letter out. -/
theorem setMemberMode_neat (target : Uid) (chan : Cid) :
    Neat (lockOrder leaving) [] [] (setMemberMode self user target ps chan) := by
  have hupd : ∀ f : CStr → CStr, Calm (·.updPerson target (·.updMode (ps.get 1) f)) :=
    fun f => calm_updPerson (·.updMode (ps.get 1) f) (fun _ => rfl) (fun _ => rfl) target
  have hadd : ∀ found, Neat (lockOrder leaving) [] [] (addMemberMode target ps found) :=
    fun _ => .deref_bind fun _ _ => .onlyIf fun _ => .bind (strcatMode_neat _ _) fun _ =>
      .change (hupd _).quiet
  have hdrop : ∀ found, Neat (lockOrder leaving) [] [] (dropMemberMode user target ps found) :=
    fun _ => .deref_bind fun _ _ => .onlyIf fun _ => .acquire_bind List.not_mem_nil (may_nil _)
      (.change_bind (hupd _).quiet (.release _))
  exact .lockedLook_bind List.not_mem_nil (may_nil _) fun _ => .bind (.ite (fun _ => hadd _) fun _ =>
    .ite (fun _ => hdrop _) fun _ => .pure ()) fun _ => .look_bind fun _ => relay_neat _ _ _

/-- The searches before it are sections of their own. -/
theorem modeMemberChan_neat (found : Option Cid) :
    Neat (lockOrder leaving) [] [] (modeMemberChan cfg self user ps found) := by
  cases found with
  | none => exact reply_neat _ _ _
  | some chan =>
    refine .lockedLook_bind List.not_mem_nil (may_nil _) fun _ => .look_bind fun _ =>
      .ite (fun _ => bareReply_neat _ _ _) fun _ =>
      .lockedLook_bind List.not_mem_nil (may_nil _) fun s => ?_
    cases s.seekUser (ps.get 3) with
    | none => exact bareReply_neat _ _ _
    | some target =>
      exact .look_bind fun _ => .ite (fun _ => bareReply_neat _ _ _) fun _ =>
        .ite (fun _ => reply_neat _ _ _) fun _ => setMemberMode_neat target chan

theorem modeUser_neat : Neat (lockOrder leaving) [] [] (modeUser cfg self user ps) :=
  .look_bind fun _ => .ite (fun _ => reply_neat _ _ _) fun _ => .ite (fun _ => reply_neat _ _ _)
    fun _ => .ite (fun _ => .bind (.onlyIf fun _ => dropUserMode_neat _) fun _ => send_neat _)
      fun _ => .pure ()

/-- MODE on a channel takes nothing for its change. -/
theorem modeChannel_neat (found : Option Cid) :
    Neat (lockOrder leaving) [] [] (modeChannel cfg self user ps found) := by
  have hrelay : ∀ chan, Neat (lockOrder leaving) [] [] (relayMode self user ps chan) :=
    fun _ => .look_bind fun _ => .look_bind fun _ => relay_neat _ _ _
  have hlacks : ∀ name, Neat (lockOrder leaving) [] [] (lacksOper user name) :=
    fun _ => .look_bind fun _ => .ite (fun _ => .pure _) fun _ => .bind (lookMyChan_neat _) fun _ =>
      .deref_bind fun _ _ => .pure _
  cases found with
  | none => exact reply_neat _ _ _
  | some chan =>
    refine .look_bind fun _ => .ite (fun _ => reply_neat _ _ _) fun _ => .bind (hlacks _) fun _ =>
      .ite (fun _ => reply_neat _ _ _) fun _ => .ite (fun _ => reply_neat _ _ _) fun _ =>
      .ite (fun _ => ?_) fun _ => .ite (fun _ => .change_bind (calm_updChannel _ chan).quiet
        (hrelay chan)) fun _ => modeUser_neat
    exact .look_bind fun _ => .bind (strcatMode_neat _ _) fun _ =>
      .change_bind (calm_updChannel _ chan).quiet (hrelay chan)

/-- No MODE leaves anything locked. -/
theorem handleMODE_neat : Neat (lockOrder leaving) [] [] (handleMODE cfg self user ps) :=
  .ite (fun _ => .bind (lookChan_neat List.not_mem_nil (may_nil _) _) fun found =>
      modeMemberChan_neat found)
    fun _ => .ite (fun _ => .bind (lookChan_neat List.not_mem_nil (may_nil _) _) fun found =>
      modeChannel_neat found) fun _ => modeUser_neat

/-! ## Every handler -/

/-- Only NICK and QUIT need the order in which users may leave. -/
theorem dispatch_neat (fuel : Nat) (c : Command) (hc : leaving = false → c ≠ .NICK ∧ c ≠ .QUIT) :
    Neat (lockOrder leaving) [] [] (dispatch cfg self stale fuel user ps c) := by
  cases c with
  | NICK =>
    cases leaving with
    | false => exact absurd rfl (hc rfl).1
    | true => exact handleNICK_neat
  | USER => exact handleUSER_neat
  | QUIT =>
    cases leaving with
    | false => exact absurd rfl (hc rfl).2
    | true => exact handleQUIT_neat
  | PRIVMSG => exact handlePRIVMSG_neat
  | NOTICE => exact handleNOTICE_neat
  | WHOIS => exact handleWHOIS_neat
  | PING => exact handlePING_neat
  | PONG => exact .pure ()
  | LUSERS => exact handleLUSERS_neat
  | MOTD => exact handleMOTD_neat
  | JOIN => exact handleJOIN_neat
  | AWAY => exact handleAWAY_neat
  | PART => exact handlePART_neat
  | TOPIC => exact handleTOPIC_neat
  | NAMES => exact handleNAMES_neat fuel
  | MODE => exact handleMODE_neat
  | OPER => exact handleOPER_neat
  | LIST => exact handleLIST_neat fuel
  | WHO => exact handleWHO_neat
  | UNKNOWN => exact reply_neat _ _ _

theorem lookClient_neat : Neat (lockOrder leaving) [] [] (lookClient self) :=
  .look_bind fun _ => .lockedLook_bind List.not_mem_nil (may_nil _) fun _ => .pure _

/-- The same from the message on. -/
theorem parse_neat {fuel : Nat}
    (hc : leaving = false → commandOf (ps.get 0) ≠ .NICK ∧ commandOf (ps.get 0) ≠ .QUIT) :
    Neat (lockOrder leaving) [] [] (parse cfg self stale fuel ps) :=
  .bind lookClient_neat fun _ => .deref_bind fun _ _ => dispatch_neat fuel _ hc

/-- A hangup is a `user_exit`. -/
theorem disconnect_neat : Neat (lockOrder true) [] [] (disconnect self) :=
  .bind lookClient_neat fun _ => .deref_bind fun _ _ => userExit_neat

end UchiNetworks.Chirc
