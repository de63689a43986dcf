import UchiNetworks.Lib.Threads
import UchiNetworks.Chirc.Commands

/-!
# chirc: what a handler leaves alone

Whatever the other threads do meanwhile, no command but NICK changes a nick, none
changes a descriptor, and none puts anybody into `userlist`: each of its changes is
`Calm` (`dispatch_calm`). NICK makes one change that is not, and after that only
calm ones (`handleNICK_settles`).
-/

namespace UchiNetworks.Chirc

open UchiNetworks.Lib
open Prog

variable {cfg : Config} {self user u : Uid} {ps : Params} {msg : CStr} {fuel : Nat}
  {stale : Nat → Nat} {junk : Nat}

/-- A change that leaves everybody's nick and descriptor, and lets nobody in. -/
structure Calm (f : Server → Server) : Prop where
  nick : ∀ s u, ((f s).persons u).nick = (s.persons u).nick
  clientSocket : ∀ s u, ((f s).persons u).clientSocket = (s.persons u).clientSocket
  userlist : ∀ s, (f s).userlist.items.Sublist s.userlist.items
  nextUid : ∀ s, (f s).nextUid = s.nextUid

/-- A change of one record is calm if it keeps the nick and the descriptor. -/
theorem calm_updPerson (f : Person → Person) (hnick : ∀ p, (f p).nick = p.nick)
    (hfd : ∀ p, (f p).clientSocket = p.clientSocket) (u : Uid) : Calm (·.updPerson u f) where
  nick s v := by
    show (if v = u then f (s.persons v) else s.persons v).nick = _
    split
    · exact hnick _
    · rfl
  clientSocket s v := by
    show (if v = u then f (s.persons v) else s.persons v).clientSocket = _
    split
    · exact hfd _
    · rfl
  userlist _ := List.Sublist.refl _
  nextUid _ := rfl

/-- A change of `my_chans`. -/
theorem calm_updChans (f : SimList MyChan → SimList MyChan) (u : Uid) :
    Calm (·.updPerson u (·.updChans f)) := calm_updPerson (·.updChans f) (fun _ => rfl) (fun _ => rfl) u

/-- A change of something other than persons and `userlist`. -/
theorem calm_elsewhere {f : Server → Server} (hpersons : ∀ s, (f s).persons = s.persons)
    (hlist : ∀ s, (f s).userlist.items = s.userlist.items) (hnext : ∀ s, (f s).nextUid = s.nextUid) :
    Calm f where
  nick s u := by rw [hpersons]
  clientSocket s u := by rw [hpersons]
  userlist s := by rw [hlist]
  nextUid := hnext

/-- A change of the modes of a user. -/
theorem calm_mode (f : CStr → CStr) (u : Uid) :
    Calm (·.updPerson u fun p => { p with mode := f p.mode }) :=
  calm_updPerson (fun p => { p with mode := f p.mode }) (fun _ => rfl) (fun _ => rfl) u

/-- A change of a channel touches no user. -/
theorem calm_updChannel (f : Channel → Channel) (chan : Cid) : Calm (·.updChannel chan f) :=
  calm_elsewhere (fun _ => rfl) (fun _ => rfl) fun _ => rfl

/-- So does a change of `chanlist`. -/
theorem calm_chanlist (f : SimList Cid → SimList Cid) :
    Calm fun s => { s with chanlist := f s.chanlist } :=
  calm_elsewhere (fun _ => rfl) (fun _ => rfl) fun _ => rfl

/-- `list_iterator_start` keeps the entries, also where it does nothing. -/
theorem startUsers_items (s : Server) : (startUsers s).userlist.items = s.userlist.items := by
  show (SimList.start s.userlist).items = _
  rw [SimList.start_eq]

/-- An iteration over `userlist` begins. -/
theorem calm_startUsers : Calm startUsers :=
  calm_elsewhere (fun _ => rfl) startUsers_items fun _ => rfl

/-- It takes its next user. -/
theorem calm_nextUser : Calm nextUser :=
  calm_elsewhere (fun _ => rfl) (fun _ => rfl) fun _ => rfl

/-- It ends. -/
theorem calm_stopUsers : Calm stopUsers :=
  calm_elsewhere (fun _ => rfl) (fun _ => rfl) fun _ => rfl

/-- `list_delete` takes entries out and puts none in. -/
theorem delete_sublist {α : Type} (l : SimList α) (same : α → Bool) :
    (l.delete same).items.Sublist l.items := by
  unfold SimList.delete
  split
  · exact List.Sublist.refl _
  · exact List.eraseP_sublist

/-- A user leaves `userlist`; the others stay in their order. -/
theorem calm_removeUser (u : Uid) : Calm fun s => { s with
    userlist := s.userlist.delete (· = u), numregistered := s.numregistered - 1 } where
  nick _ _ := rfl
  clientSocket _ _ := rfl
  userlist s := delete_sublist s.userlist _
  nextUid _ := rfl

section Calm

variable {Q : Server → Prop}

/-! ## Leaving -/

/-- A search of `chanlist` writes nothing. -/
theorem lookChan_calm (name : CStr) : (lookChan name).Writes Q Calm :=
  .acquire_bind (.look_bind fun _ _ => .release_bind trivial)

/-- Nor does a search of `my_chans`. -/
theorem lookMyChan_calm (name : CStr) : (lookMyChan user name).Writes Q Calm :=
  .acquire_bind (.look_bind fun _ _ => .release_bind trivial)

/-- `leaveChannel` counts a user less, and may destroy the channel. -/
theorem leaveChannel_calm (chan : Cid) : (leaveChannel chan).Writes Q Calm := by
  refine .acquire_bind (.change_bind (calm_updChannel _ chan) (.release_bind (.look_bind fun _ _ =>
    .onlyIf (.acquire_bind (.look_bind fun _ _ => .ite (fun _ => trivial) fun _ => ?_)))))
  exact .acquire_bind (.change_bind (calm_chanlist (·.delete (· = chan))) trivial)

/-- `user_exit` takes the user out of his channels and of `userlist`. -/
theorem userExit_calm : (userExit self user).Writes Q Calm := by
  have hturn : ∀ m b, (exitChannel user m b).Writes Q Calm := fun m _ =>
    .change_bind (calm_updChans _ user) (.bind (lookChan_calm m.name) fun _ =>
      .deref_bind fun chan _ => leaveChannel_calm chan)
  refine .acquire_bind (.look_bind fun _ _ => .output_bind fun _ =>
    .change_bind (calm_updChans _ user) (.look_bind fun _ _ => .bind (.forEach hturn _ ()) fun _ =>
    .change_bind (calm_updChans _ user) (.change_bind (calm_updChans _ user) (.acquire_bind
    (.change_bind (calm_removeUser user) (.release_bind (.release_bind ?_)))))))
  exact .onlyIf trivial

/-! ## Sending -/

/-- A send writes nothing unless it fails; then the user exits. -/
theorem lockedSend_calm (u : Uid) (msg : CStr) : (lockedSend self u msg).Writes Q Calm :=
  .acquire_bind (.look_bind fun _ _ => .output_bind fun _ => .bind (.onlyIf userExit_calm)
    fun _ => trivial)

/-- A reply is a send under `c_lock`. -/
theorem sendReply_calm (code : Reply) (reply extra : CStr) :
    (sendReply cfg self user code reply extra).Writes Q Calm :=
  .look_bind fun _ _ => lockedSend_calm _ _

/-- Without `c_lock` it is the same. -/
theorem bareReply_calm (code : Reply) (reply extra : CStr) :
    (bareReply cfg self user code reply extra).Writes Q Calm :=
  .look_bind fun _ _ => .output_bind fun _ => .bind (.onlyIf userExit_calm) fun _ => trivial

/-- A loop over the users. -/
theorem scan_calm {β : Type} {go : β → Bool} {body : Uid → β → Act β} {b : β} {q : β → Act Unit}
    (hbody : ∀ v b, (body v b).Writes Q Calm) (hq : ∀ b, (q b).Writes Q Calm) :
    (do
      change startUsers
      let users ← look (·.userlist.remaining)
      let b' ← forEach go body users b
      change stopUsers
      q b' : Act Unit).Writes Q Calm :=
  .change_bind calm_startUsers (.look_bind fun _ _ => .bind (.forEach hbody _ b) fun b' =>
    .change_bind calm_stopUsers (hq b'))

/-- A turn that only looks at a user. -/
theorem glance_calm {β : Type} (u : Uid) (g : Person → β) : (do
    change nextUser
    acquire (.cLock u)
    let p ← look (·.persons u)
    release (.cLock u)
    return g p : Act β).Writes Q Calm :=
  .change_bind calm_nextUser (.acquire_bind (.look_bind fun _ _ => .release_bind trivial))

/-- `sendtochannel` moves through `userlist`, and sends. -/
theorem sendtochannel_calm (found : Option Cid) (sender : Option Uid) :
    (sendtochannel self found msg sender).Writes Q Calm := by
  have hturn : ∀ cname v b, (relayTo self cname msg sender v b).Writes Q Calm :=
    fun cname v _ => .change_bind calm_nextUser (.look_bind fun _ _ =>
      .onlyIf (lockedSend_calm v msg))
  exact .deref_bind fun _ _ => .look_bind fun _ _ => .acquire_bind (scan_calm (hturn _) fun _ =>
    trivial)

/-- `sendtoallchans` moves through `my_chans` of the user. -/
theorem sendtoallchans_calm : (sendtoallchans self user msg).Writes Q Calm := by
  have hturn : ∀ m b, (relayChan self user msg m b).Writes Q Calm := fun m _ =>
    .change_bind (calm_updChans _ user) (.bind (lookChan_calm m.name) fun _ =>
      sendtochannel_calm _ _)
  exact .acquire_bind (.change_bind (calm_updChans _ user) (.look_bind fun _ _ =>
    .bind (.forEach hturn _ ()) fun _ => .change_bind (calm_updChans _ user) trivial))

/-! ## Replies only -/

theorem motdLines_calm (lines : List CStr) : (motdLines cfg self user lines).Writes Q Calm := by
  induction lines with
  | nil => trivial
  | cons motd rest ih => exact .bind (sendReply_calm _ _ _) fun _ => ih

/-- MOTD only replies. -/
theorem handleMOTD_calm : (handleMOTD cfg self user).Writes Q Calm := by
  refine .look_bind fun _ _ => .ite (fun _ => sendReply_calm _ _ _) fun _ => ?_
  cases cfg.motd with
  | none => exact sendReply_calm _ _ _
  | some lines =>
    exact .bind (sendReply_calm _ _ _) fun _ => .bind (motdLines_calm lines) fun _ =>
      sendReply_calm _ _ _

/-- LUSERS moves through `userlist`. -/
theorem handleLUSERS_calm : (handleLUSERS cfg self user).Writes Q Calm := by
  refine .acquire_bind (.look_bind fun _ _ => .look_bind fun _ _ => .look_bind fun _ _ =>
    scan_calm (fun v n => glance_calm v fun p => if hasMode p.mode modeO then n + 1 else n) fun _ =>
      .release_bind (.look_bind fun _ _ => .ite (fun _ => sendReply_calm _ _ _) fun _ => ?_))
  exact .bind (sendReply_calm _ _ _) fun _ => .bind (sendReply_calm _ _ _) fun _ =>
    .bind (sendReply_calm _ _ _) fun _ => .bind (sendReply_calm _ _ _) fun _ =>
    sendReply_calm _ _ _

/-- PING only replies. -/
theorem handlePING_calm : (handlePING cfg self user).Writes Q Calm :=
  .acquire_bind (.release_bind (.look_bind fun _ _ => .ite (fun _ => sendReply_calm _ _ _) fun _ =>
    lockedSend_calm _ _))

/-! ## Names -/

/-- A registration counts one user more. -/
theorem doRegistration_calm : (doRegistration cfg self user).Writes Q Calm := by
  have hcount : Calm fun s => { s with numregistered := s.numregistered + 1 } :=
    calm_elsewhere (fun _ => rfl) (fun _ => rfl) fun _ => rfl
  exact .acquire_bind (.change_bind hcount (.release_bind (.bind (sendReply_calm _ _ _) fun _ =>
    .bind (sendReply_calm _ _ _) fun _ => .bind (sendReply_calm _ _ _) fun _ =>
    .bind (sendReply_calm _ _ _) fun _ => .bind handleLUSERS_calm fun _ => handleMOTD_calm)))

/-- USER sets the names other than the nick, and may complete the registration. -/
theorem handleUSER_calm : (handleUSER cfg self user ps).Writes Q Calm := by
  have hset : Calm (·.updPerson user fun p =>
      { p with user := ps.get 1, fullname := (ps.get 4).tail }) :=
    calm_updPerson (fun p => { p with user := ps.get 1, fullname := (ps.get 4).tail })
      (fun _ => rfl) (fun _ => rfl) user
  refine .look_bind fun _ _ => .ite (fun _ => sendReply_calm _ _ _) fun _ => .acquire_bind
    (.change_bind hset (.release_bind (.look_bind fun _ _ => ?_)))
  exact .onlyIf doRegistration_calm

/-- QUIT ends in `user_exit`. -/
theorem handleQUIT_calm : (handleQUIT self user ps).Writes Q Calm :=
  .look_bind fun _ _ => .bind sendtoallchans_calm fun _ => .acquire_bind (.output_bind fun _ =>
    .release_bind userExit_calm)

/-! ## Messages -/

/-- The search for a recipient writes nothing. -/
theorem lookRecipient_calm (name : CStr) : (lookRecipient name).Writes Q Calm :=
  .acquire_bind (.look_bind fun _ _ => .look_bind fun _ _ => .release_bind trivial)

/-- Nor does the test whether a channel is closed to the sender. -/
theorem silenced_calm (chan : Cid) (name : CStr) : (silenced user chan name).Writes Q Calm := by
  refine .look_bind fun _ _ => .look_bind fun _ _ => .ite (fun _ => ?_) fun _ => trivial
  exact .bind (lookMyChan_calm name) fun _ => .deref_bind fun _ _ => trivial

theorem awayReply_calm (recip : Uid) : (awayReply cfg self user recip).Writes Q Calm :=
  .acquire_bind (.look_bind fun _ _ => .release_bind (sendReply_calm _ _ _))

/-- PRIVMSG only sends. -/
theorem handlePRIVMSG_calm : (handlePRIVMSG cfg self user ps).Writes Q Calm := by
  refine .look_bind fun _ _ => .ite (fun _ => sendReply_calm _ _ _) fun _ =>
    .bind (lookRecipient_calm _) fun r => ?_
  obtain ⟨recip, chan⟩ := r
  cases recip with
  | some recip =>
    refine .acquire_bind (.look_bind fun _ _ => .release_bind (.bind ?_ fun _ => ?_))
    · exact .acquire_bind (.look_bind fun _ _ => .output_bind fun _ =>
        .bind (.onlyIf userExit_calm) fun _ => .look_bind fun _ _ => trivial)
    · exact .onlyIf (awayReply_calm recip)
  | none =>
    cases chan with
    | none => exact sendReply_calm _ _ _
    | some chan =>
      exact .acquire_bind (.look_bind fun _ _ => .release_bind (.look_bind fun _ _ =>
        .ite (fun _ => sendReply_calm _ _ _) fun _ => .bind (silenced_calm chan _) fun _ =>
          .ite (fun _ => sendReply_calm _ _ _) fun _ => sendtochannel_calm _ _))

/-- So does NOTICE. -/
theorem handleNOTICE_calm : (handleNOTICE cfg self user ps).Writes Q Calm := by
  refine .bind (lookRecipient_calm _) fun r => .look_bind fun _ _ =>
    .ite (fun _ => sendReply_calm _ _ _) fun _ => .bind ?_ fun _ => ?_
  · cases r.1 with
    | none => trivial
    | some recip => exact lockedSend_calm _ _
  · cases r.2 with
    | none => trivial
    | some chan =>
      refine .bind (silenced_calm chan _) fun _ => .ite (fun _ => trivial) fun _ =>
        .look_bind fun _ _ => ?_
      exact .onlyIf (sendtochannel_calm _ _)

/-! ## JOIN, PART, TOPIC -/

/-- `send_names` moves through `userlist`. -/
theorem sendNames_calm (chan : Cid) : (sendNames cfg self junk user chan).Writes Q Calm :=
  .acquire_bind (.look_bind fun _ _ => .release_bind (.acquire_bind (scan_calm
    (fun v names => glance_calm v fun p =>
      ((p.seekChan _).map fun m => addMember junk m p.nick names).getD names) fun _ =>
    .release_bind (sendReply_calm _ _ _))))

/-- JOIN appends to `my_chans`, and counts or makes the channel. -/
theorem handleJOIN_calm : (handleJOIN cfg self stale user ps).Writes Q Calm := by
  have hadd : Calm (·.addChannel (ps.get 1)) :=
    calm_elsewhere (fun _ => rfl) (fun _ => rfl) fun _ => rfl
  have hfind : ∀ found, (findOrCreate (ps.get 1) found).Writes Q Calm := by
    intro found
    cases found with
    | some chan => trivial
    | none => exact .acquire_bind (.look_bind fun _ _ => .change_bind hadd trivial)
  have hreplies : ∀ chan, (joinReplies cfg self (stale 0) user chan (ps.get 1)).Writes Q Calm := by
    refine fun chan => .look_bind fun _ _ => .bind (sendtochannel_calm _ _) fun _ =>
      .look_bind fun _ _ => .bind (.onlyIf (sendReply_calm _ _ _)) fun _ =>
      .bind (sendNames_calm chan) fun _ => sendReply_calm _ _ _
  exact .bind (lookChan_calm _) fun found => .bind (hfind found) fun chan => .look_bind fun _ _ =>
    .ite (fun _ => trivial) fun _ => .bind (.acquire_bind (.change_bind (calm_updChans _ user)
      (.release_bind (.acquire_bind (.change_bind (calm_updChannel _ chan) trivial))))) fun _ =>
      hreplies chan

/-- PART takes the channel out of `my_chans`. -/
theorem handlePART_calm : (handlePART cfg self user ps).Writes Q Calm := by
  refine .bind (lookChan_calm _) fun found => ?_
  cases found with
  | none => exact sendReply_calm _ _ _
  | some chan =>
    exact .look_bind fun _ _ => .ite (fun _ => sendReply_calm _ _ _) fun _ => .look_bind fun _ _ =>
      .bind (sendtochannel_calm _ _) fun _ => .acquire_bind (.change_bind (calm_updChans _ user)
        (.release_bind (leaveChannel_calm chan)))

/-- TOPIC looks for the operator flag. -/
theorem topicOper_calm (cname : CStr) : (topicOper cfg self user cname).Writes Q Calm := by
  refine .acquire_bind (.look_bind fun _ _ => .deref_bind fun _ _ => .look_bind fun _ _ =>
    .bind (.onlyIf ?_) fun _ => trivial)
  exact .output_bind fun _ => .onlyIf userExit_calm

/-- TOPIC sets the topic. -/
theorem handleTOPIC_calm : (handleTOPIC cfg self user ps).Writes Q Calm := by
  have hreply : ∀ found, (topicReply cfg self user (ps.get 1) found).Writes Q Calm :=
    fun _ => .deref_bind fun _ _ => .look_bind fun _ _ => .ite (fun _ => sendReply_calm _ _ _)
      fun _ => sendReply_calm _ _ _
  have hmay : ∀ chan, (mayTopic cfg self user chan (ps.get 1)).Writes Q Calm :=
    fun _ => .look_bind fun _ _ => .ite (fun _ => topicOper_calm _) fun _ => trivial
  have hset : ∀ chan, (setTopic self user ps chan).Writes Q Calm :=
    fun chan => .change_bind (calm_updChannel _ chan) (.look_bind fun _ _ => .look_bind fun _ _ =>
      sendtochannel_calm _ _)
  exact .bind (lookChan_calm _) fun found => .look_bind fun _ _ =>
    .ite (fun _ => sendReply_calm _ _ _) fun _ => .ite (fun _ => hreply found) fun _ =>
    .deref_bind fun chan _ => .bind (hmay chan) fun _ => .ite (fun _ => trivial) fun _ =>
      .bind (hset chan) fun _ => hreply found

/-! ## AWAY, OPER, WHOIS, LIST -/

theorem strcatMode_calm (mode add : CStr) : (strcatMode mode add).Writes Q Calm :=
  .ite (fun _ => trivial) fun _ => trivial

/-- A letter is appended to the mode. -/
theorem addUserMode_calm (add : CStr) : (addUserMode user add).Writes Q Calm :=
  .look_bind fun _ _ => .bind (strcatMode_calm _ _) fun _ =>
    .change (calm_mode (fun _ => _) user)

/-- A letter is taken out of it. -/
theorem dropUserMode_calm (c : UInt8) : (dropUserMode user c).Writes Q Calm :=
  .acquire_bind (.change_bind (calm_mode (delMode · c) user) trivial)

/-- AWAY sets the away text and the letter `a`. -/
theorem handleAWAY_calm : (handleAWAY cfg self user ps).Writes Q Calm := by
  have haway : Calm (·.updPerson user fun p => { p with away := ps.get 1 }) :=
    calm_updPerson (fun p => { p with away := ps.get 1 }) (fun _ => rfl) (fun _ => rfl) user
  refine .look_bind fun _ _ => .ite (fun _ => sendReply_calm _ _ _) fun _ => .ite (fun _ => ?_)
    fun _ => ?_
  · exact .bind (.onlyIf (dropUserMode_calm _)) fun _ => sendReply_calm _ _ _
  · refine .bind (.onlyIf ?_) fun _ => .acquire_bind (.change_bind haway (.release_bind
      (sendReply_calm _ _ _)))
    exact .acquire_bind (.bind (addUserMode_calm _) fun _ => trivial)

/-- OPER appends the letter `o`. -/
theorem handleOPER_calm : (handleOPER cfg self user ps).Writes Q Calm :=
  .ite (fun _ => sendReply_calm _ _ _) fun _ => .look_bind fun _ _ =>
    .bind (.onlyIf (addUserMode_calm _)) fun _ => sendReply_calm _ _ _

/-- WHOIS moves through `my_chans` of the one it asks about. -/
theorem whoisChans_calm (whois : Uid) (nick : CStr) : (whoisChans whois nick).Writes Q Calm := by
  have hturn : ∀ m acc, (whoisChan whois m acc).Writes Q Calm :=
    fun _ _ => .change_bind (calm_updChans _ whois) trivial
  exact .acquire_bind (.change_bind (calm_updChans _ whois) (.look_bind fun _ _ =>
    .bind (.forEach hturn _ _) fun _ => trivial))

/-- The rest of WHOIS only replies. -/
theorem handleWHOIS_calm : (handleWHOIS cfg self user ps).Writes Q Calm := by
  refine .acquire_bind (.look_bind fun s _ => .release_bind (.look_bind fun _ _ =>
    .ite (fun _ => sendReply_calm _ _ _) fun _ => ?_))
  cases s.seekNick (ps.get 1) with
  | none => exact sendReply_calm _ _ _
  | some whois =>
    exact .look_bind fun _ _ => .bind (sendReply_calm _ _ _) fun _ =>
      .bind (whoisChans_calm whois _) fun _ => .bind (.onlyIf (sendReply_calm _ _ _)) fun _ =>
      .look_bind fun _ _ => .bind (sendReply_calm _ _ _) fun _ =>
      .look_bind fun _ _ => .bind (.onlyIf (sendReply_calm _ _ _)) fun _ =>
      .look_bind fun _ _ => .bind (.onlyIf (sendReply_calm _ _ _)) fun _ => sendReply_calm _ _ _

/-- The loop over `chanlist` moves on between its bodies. -/
theorem scanChans_calm {body : Nat → Cid → Act Unit}
    (h : ∀ left chan, (body left chan).Writes Q Calm) :
    (scanChans body fuel).Writes Q Calm := by
  induction fuel with
  | zero => trivial
  | succ fuel ih =>
    exact .look_bind fun _ _ => .ite (fun _ => .look_bind fun _ _ => .change_bind (calm_chanlist _)
      (.release_bind (.deref_bind fun chan _ => .bind (h _ chan) fun _ => .acquire_bind ih)))
      fun _ => trivial

/-- LIST moves through `chanlist`. -/
theorem handleLIST_calm : (handleLIST cfg self fuel user ps).Writes Q Calm := by
  have hlist : ∀ chan, (listChan cfg self user chan).Writes Q Calm :=
    fun _ => .look_bind fun _ _ => sendReply_calm _ _ _
  refine .ite (fun _ => .bind (lookChan_calm _) fun _ => .deref_bind fun chan _ =>
    .bind (hlist chan) fun _ => sendReply_calm _ _ _) fun _ => .acquire_bind
      (.change_bind (calm_chanlist _) (.bind (scanChans_calm fun _ => hlist) fun _ => ?_))
  exact .change_bind (calm_chanlist _) (.release_bind (sendReply_calm _ _ _))

/-! ## NAMES and WHO -/

/-- NAMES moves through both lists. -/
theorem handleNAMES_calm : (handleNAMES cfg self stale fuel user ps).Writes Q Calm := by
  have hone : ∀ name, (namesOne cfg self stale user name).Writes Q Calm := by
    intro name
    refine .bind (lookChan_calm _) fun found => ?_
    cases found with
    | none => trivial
    | some chan => exact sendNames_calm chan
  have hall : (namesAll cfg self stale fuel user).Writes Q Calm := by
    refine .acquire_bind (.change_bind (calm_chanlist _) (.bind
      (scanChans_calm fun _ => sendNames_calm) fun _ => .change_bind (calm_chanlist _)
        (scan_calm (fun v names => glance_calm v (addLoner · names)) fun _ => .release_bind ?_)))
    exact .onlyIf (sendReply_calm _ _ _)
  exact .look_bind fun _ _ => .ite (fun _ => sendReply_calm _ _ _) fun _ =>
    .bind (.ite (fun _ => hall) fun _ => hone _) fun _ => bareReply_calm _ _ _

/-- WHO moves through `userlist`. -/
theorem whoLoop_calm {turn : Uid → Unit → Act Unit} (h : ∀ v b, (turn v b).Writes Q Calm) :
    (whoLoop turn).Writes Q Calm := .acquire_bind (scan_calm h fun _ => trivial)

/-- It moves through `my_chans` of the one it looks at. -/
theorem sharesChan_calm (v : Uid) : (sharesChan user v).Writes Q Calm := by
  have hturn : ∀ m b, (sharesOne user v m b).Writes Q Calm := fun _ _ =>
    .change_bind (calm_updChans _ v) (.acquire_bind (.look_bind fun _ _ => .release_bind trivial))
  exact .ite (fun _ => .look_bind fun _ _ => trivial) fun _ => .change_bind (calm_updChans _ v)
    (.look_bind fun _ _ => .bind (.forEach hturn _ _) fun _ => .change_bind (calm_updChans _ v)
      trivial)

theorem whoReply_calm (v : Uid) (name : CStr) (m : MyChan) :
    (whoReply cfg self user v name m).Writes Q Calm :=
  .look_bind fun _ _ => .look_bind fun _ _ => .bind (.onlyIf trivial) fun _ => .output_bind fun _ =>
    .bind (.onlyIf userExit_calm) fun _ => .onlyIf trivial

/-- And it replies. -/
theorem handleWHO_calm : (handleWHO cfg self user ps).Writes Q Calm := by
  have hstranger : ∀ v b, (whoStranger cfg self user v b).Writes Q Calm := by
    refine fun v _ => .change_bind calm_nextUser (.acquire_bind (.bind (sharesChan_calm v) fun _ =>
      .look_bind fun _ _ => .release_bind ?_))
    exact .onlyIf (sendReply_calm _ _ _)
  have hmember : ∀ v b, (whoMember cfg self user (ps.get 1) v b).Writes Q Calm := by
    refine fun v _ => .change_bind calm_nextUser (.acquire_bind (.look_bind fun s _ =>
      .bind ?_ fun _ => trivial))
    cases (s.persons v).seekChan (ps.get 1) with
    | none => trivial
    | some m => exact whoReply_calm v _ m
  exact .ite (fun _ => .bind (whoLoop_calm hstranger) fun _ => sendReply_calm _ _ _)
    fun _ => .bind (whoLoop_calm hmember) fun _ => sendReply_calm _ _ _

/-! ## MODE -/

/-- MODE on a member changes the letters in the target's `my_chans`. -/
theorem changeMember_calm (target : Uid) (found : Option MyChan) :
    (changeMember user target ps found).Writes Q Calm := by
  refine .ite (fun _ => .deref_bind fun _ _ => .onlyIf ?_) fun _ =>
    .ite (fun _ => .deref_bind fun _ _ => .onlyIf ?_) fun _ => trivial
  · exact .bind (strcatMode_calm _ _) fun _ => .change (calm_updChans _ target)
  · exact .acquire_bind (.change_bind (calm_updChans _ target) trivial)

/-- The change is relayed. -/
theorem setMemberMode_calm (target : Uid) (chan : Cid) :
    (setMemberMode self user target ps chan).Writes Q Calm :=
  .acquire_bind (.look_bind fun _ _ => .release_bind (.bind (changeMember_calm target _) fun _ =>
    .look_bind fun _ _ => sendtochannel_calm _ _))

theorem modeMemberChan_calm (found : Option Cid) :
    (modeMemberChan cfg self user ps found).Writes Q Calm := by
  cases found with
  | none => exact sendReply_calm _ _ _
  | some chan =>
    refine .acquire_bind (.look_bind fun _ _ => .release_bind (.look_bind fun _ _ =>
      .ite (fun _ => bareReply_calm _ _ _) fun _ => .acquire_bind (.look_bind fun s _ =>
        .release_bind ?_)))
    cases s.seekUser (ps.get 3) with
    | none => exact bareReply_calm _ _ _
    | some target =>
      exact .look_bind fun _ _ => .ite (fun _ => bareReply_calm _ _ _) fun _ =>
        .ite (fun _ => sendReply_calm _ _ _) fun _ => setMemberMode_calm target chan

/-- MODE on a user takes a letter out of the mode. -/
theorem modeUser_calm : (modeUser cfg self user ps).Writes Q Calm :=
  .look_bind fun _ _ => .ite (fun _ => sendReply_calm _ _ _) fun _ =>
    .ite (fun _ => sendReply_calm _ _ _) fun _ => .ite
      (fun _ => .bind (.onlyIf (dropUserMode_calm _)) fun _ => lockedSend_calm _ _) fun _ => trivial

/-- MODE on a channel changes the channel's letters. -/
theorem modeChannel_calm (found : Option Cid) :
    (modeChannel cfg self user ps found).Writes Q Calm := by
  have hrelay : ∀ chan, (relayMode self user ps chan).Writes Q Calm :=
    fun _ => .look_bind fun _ _ => .look_bind fun _ _ => sendtochannel_calm _ _
  have hlacks : ∀ name, (lacksOper user name).Writes Q Calm :=
    fun _ => .look_bind fun _ _ => .ite (fun _ => trivial) fun _ =>
      .bind (lookMyChan_calm _) fun _ => .deref_bind fun _ _ => trivial
  cases found with
  | none => exact sendReply_calm _ _ _
  | some chan =>
    refine .look_bind fun _ _ => .ite (fun _ => sendReply_calm _ _ _) fun _ =>
      .bind (hlacks _) fun _ => .ite (fun _ => sendReply_calm _ _ _) fun _ =>
      .ite (fun _ => sendReply_calm _ _ _) fun _ => .ite (fun _ => ?_) fun _ =>
      .ite (fun _ => .change_bind (calm_updChannel _ chan) (hrelay chan)) fun _ => modeUser_calm
    exact .look_bind fun _ _ => .bind (strcatMode_calm _ _) fun _ =>
      .change_bind (calm_updChannel _ chan) (hrelay chan)

/-- No MODE changes a nick. -/
theorem handleMODE_calm : (handleMODE cfg self user ps).Writes Q Calm :=
  .ite (fun _ => .bind (lookChan_calm _) fun found => modeMemberChan_calm found)
    fun _ => .ite (fun _ => .bind (lookChan_calm _) fun found => modeChannel_calm found)
      fun _ => modeUser_calm

/-- **No command but NICK** makes a change that is not calm. -/
theorem dispatch_calm {c : Command} (hnick : c ≠ .NICK) :
    (dispatch cfg self stale fuel user ps c).Writes Q Calm := by
  cases c with
  | NICK => exact absurd rfl hnick
  | USER => exact handleUSER_calm
  | QUIT => exact handleQUIT_calm
  | PRIVMSG => exact handlePRIVMSG_calm
  | NOTICE => exact handleNOTICE_calm
  | WHOIS => exact handleWHOIS_calm
  | PING => exact handlePING_calm
  | PONG => trivial
  | LUSERS => exact handleLUSERS_calm
  | MOTD => exact handleMOTD_calm
  | JOIN => exact handleJOIN_calm
  | AWAY => exact handleAWAY_calm
  | PART => exact handlePART_calm
  | TOPIC => exact handleTOPIC_calm
  | NAMES => exact handleNAMES_calm
  | MODE => exact handleMODE_calm
  | OPER => exact handleOPER_calm
  | LIST => exact handleLIST_calm
  | WHO => exact handleWHO_calm
  | UNKNOWN => exact sendReply_calm _ _ _

theorem lookClient_calm : (lookClient self).Writes Q Calm :=
  .look_bind fun _ _ => .acquire_bind (.look_bind fun _ _ => .release_bind trivial)

/-- The end of a connection. -/
theorem disconnect_calm : (disconnect self).Writes Q Calm :=
  .bind lookClient_calm fun _ => .deref_bind fun _ _ => userExit_calm

/-! ## NICK -/

/-- A change that gives `user` the nick `n`. -/
def rename (user : Uid) (n : CStr) (s : Server) : Server :=
  s.updPerson user fun p => { p with nick := n }

/-- A calm change, or one that gives somebody a nick. -/
def Renames (f : Server → Server) : Prop := Calm f ∨ ∃ user n, f = rename user n

/-- A change of nick keeps every descriptor. -/
theorem rename_clientSocket (user : Uid) (n : CStr) (s : Server) (v : Uid) :
    ((rename user n s).persons v).clientSocket = (s.persons v).clientSocket := by
  show (if v = user then _ else s.persons v).clientSocket = _
  split <;> rfl

/-- The user has the new nick. -/
theorem rename_nick_self (user : Uid) (n : CStr) (s : Server) :
    ((rename user n s).persons user).nick = n := by
  show (if user = user then { s.persons user with nick := n } else s.persons user).nick = n
  rw [if_pos rfl]

/-- The others keep theirs. -/
theorem rename_nick_ne {user v : Uid} (hne : v ≠ user) (n : CStr) (s : Server) :
    ((rename user n s).persons v).nick = (s.persons v).nick := by
  show (if v = user then _ else s.persons v).nick = _
  rw [if_neg hne]

theorem setNick_writes {W : (Server → Server) → Prop} {n : CStr} (h : W (rename user n)) :
    (setNick user n).Writes Q W := .acquire_bind (.change_bind h trivial)

/-- NICK with what its one change has to satisfy. -/
theorem handleNICK_writes {W : (Server → Server) → Prop} (hcalm : ∀ f, Calm f → W f)
    (hset : (∃ s, Q s ∧ s.seekNick (ps.get 1) = none) → W (rename user (ps.get 1))) :
    (handleNICK cfg self user ps).Writes Q W := by
  refine .acquire_bind (.look_bind fun s hs => .release_bind (.ite
    (fun _ => (sendReply_calm _ _ _).mono (fun _ h => h) hcalm) fun hfree => ?_))
  have hW : W (rename user (ps.get 1)) := hset ⟨s, hs, by simpa using hfree⟩
  refine .look_bind fun _ _ => .ite (fun _ => ?_) fun _ => .bind (setNick_writes hW) fun _ =>
    .look_bind fun _ _ => .onlyIf (doRegistration_calm.mono (fun _ h => h) hcalm)
  exact .bind ((lockedSend_calm _ _).mono (fun _ h => h) hcalm) fun _ =>
    .bind (sendtoallchans_calm.mono (fun _ h => h) hcalm) fun _ => setNick_writes hW

/-- After its one change that is not calm, NICK makes only calm ones. -/
theorem handleNICK_settles : (handleNICK cfg self user ps).Settles Calm := by
  have hset : (setNick user (ps.get 1)).Settles Calm := .change_bind trivial
  refine fun s => .ite (fun _ => .of_writes (sendReply_calm _ _ _)) fun _ s' => .ite (fun _ => ?_)
    fun _ => ?_
  · exact .bind_of_writes (lockedSend_calm _ _) fun _ =>
      .bind_of_writes sendtoallchans_calm fun _ => hset
  · refine .bind hset fun _ => .look_bind fun _ _ => ?_
    exact .onlyIf doRegistration_calm

/-- What a thread does with a message, with what a change of nick has to satisfy: the
client was found by his descriptor, and his new nick was not found. -/
theorem parse_writes {W : (Server → Server) → Prop} (hcalm : ∀ f, Calm f → W f)
    (hset : ∀ user, (∃ s fd, Q s ∧ s.seekFd fd = some user) →
      (∃ s, Q s ∧ s.seekNick (ps.get 1) = none) → W (rename user (ps.get 1))) :
    (parse cfg self stale fuel ps).Writes Q W := by
  refine fun s _ s' hs' => .deref_bind fun user huser => ?_
  unfold handleChircMessage
  by_cases hnick : commandOf (ps.get 0) = .NICK
  · rw [hnick]
    exact handleNICK_writes hcalm (hset user ⟨s', _, hs', huser⟩)
  · exact (dispatch_calm hnick).mono (fun _ h => h) hcalm

/-- After the write of the nick a message is calm. -/
theorem parse_settles : (parse cfg self stale fuel ps).Settles Calm := by
  refine .bind_of_writes lookClient_calm fun clientpt => ?_
  cases clientpt with
  | none => trivial
  | some user =>
    show (dispatch cfg self stale fuel user ps (commandOf (ps.get 0))).Settles Calm
    by_cases hnick : commandOf (ps.get 0) = .NICK
    · rw [hnick]
      exact handleNICK_settles
    · exact .of_writes (dispatch_calm hnick)

end Calm

end UchiNetworks.Chirc
