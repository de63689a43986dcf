import UchiNetworks.Chirc.Outcome

/-!
# chirc: messages and queries

The handlers of AWAY, OPER, PRIVMSG, NOTICE, WHOIS, LIST, NAMES and WHO, each
with one of the effects of its command.
-/

namespace UchiNetworks.Chirc

open UchiNetworks.Lib
open Prog

variable {cfg : Config} {self user : Uid} {ok : Nat → Bool} {s : Server} {out : List Event}
  {params : Params} {cmd : Command}

/-! ## AWAY and OPER -/

/-- A letter is appended, or the array is overrun. -/
theorem strcatMode_meets {mode add : CStr} {held : List Mutex}
    {Q : Post Server Mutex Event Fault CStr}
    (hdone : Q.done (mode ++ add) ⟨s, held, out⟩) (hcrash : Q.crashed .bounds) :
    (strcatMode mode add).Meets ok Q ⟨s, held, out⟩ := by
  unfold strcatMode
  rw [meets_ite]
  exact ⟨fun _ => hdone, fun _ => hcrash⟩

/-- The same in the record of a user. -/
theorem addUserMode_meets {add : CStr} {held : List Mutex} {Q : Post Server Mutex Event Fault Unit}
    (hdone : Q.done () ⟨s.withMode user ((s.persons user).mode ++ add), held, out⟩)
    (hcrash : Q.crashed .bounds) : (addUserMode user add).Meets ok Q ⟨s, held, out⟩ := by
  unfold addUserMode
  rw [look_bind, meets_bind]
  exact strcatMode_meets hdone hcrash

/-- A letter is taken out of the record. -/
theorem dropUserMode_meets {c : UInt8} {Q : Post Server Mutex Event Fault Unit} :
    (dropUserMode user c).Meets ok Q ⟨s, [], out⟩ ↔
      Q.done () ⟨s.updPerson user fun p => { p with mode := delMode p.mode c }, [], out⟩ := by
  unfold dropUserMode
  rw [lockedChange List.not_mem_nil]

/-- The second half of AWAY with a message. -/
theorem setAway_ends {s' : Server} (heff : Effect cfg ok s user params cmd
      (s'.updPerson user fun p => { p with away := params.get 1 })) :
    (do
      acquire (.cLock user)
      change (·.updPerson user fun p => { p with away := params.get 1 })
      release (.cLock user)
      sendReply cfg self user .rplNowaway [] [] : Act Unit).Meets ok
      (Ends cfg ok s user params cmd) ⟨s', [], out⟩ := by
  rw [lockedChange_bind List.not_mem_nil]
  exact ends_of_talks heff sendReply_talksAt

/-- AWAY: the letter `a` and the text, or neither. -/
theorem handleAWAY_ends :
    (handleAWAY cfg self user params).Meets ok (Ends cfg ok s user params .AWAY) ⟨s, [], out⟩ := by
  unfold handleAWAY
  rw [look_bind, meets_ite]
  refine ⟨fun _ => ends_same sendReply_talksAt, fun _ => ?_⟩
  rw [meets_ite]
  refine ⟨fun _ => ?_, fun _ => ?_⟩
  · rw [onlyIf_bind]
    refine ⟨fun haway => ?_, fun _ => ends_same sendReply_talksAt⟩
    rw [dropUserMode_meets]
    refine ends_of_talks ?_ sendReply_talksAt
    rw [updPerson_congr (g := fun p => { p with mode := delMode (s.persons user).mode modeA }) rfl]
    exact .back haway
  · rw [onlyIf_bind]
    refine ⟨fun hnot => ?_, fun haway => ?_⟩
    · have hnot : hasMode (s.persons user).mode modeA = false := by simpa using hnot
      rw [acquire_bind List.not_mem_nil, meets_bind]
      refine addUserMode_meets ?_ (fun h => by cases h)
      dsimp only
      rw [meets_release, List.erase_cons_head]
      refine setAway_ends ?_
      unfold Server.withMode
      rw [updPerson_updPerson]
      refine .away ?_
      rw [hnot]
      rfl
    · have haway : hasMode (s.persons user).mode modeA = true := by simpa using haway
      refine setAway_ends ?_
      rw [updPerson_congr (g := fun p =>
        { p with mode := (s.persons user).mode, away := params.get 1 }) rfl]
      refine .away ?_
      rw [haway]
      rfl

/-- OPER: the letter `o`, if the password is right. -/
theorem handleOPER_ends :
    (handleOPER cfg self user params).Meets ok (Ends cfg ok s user params .OPER) ⟨s, [], out⟩ := by
  unfold handleOPER
  rw [meets_ite]
  refine ⟨fun _ => ends_same sendReply_talksAt, fun hpw => ?_⟩
  have hpw : params.get 2 = cfg.pw := by simpa using hpw
  rw [look_bind, onlyIf_bind]
  refine ⟨fun hnew => ?_, fun _ => ends_same sendReply_talksAt⟩
  have hnew : hasMode (s.persons user).mode modeO = false := by simpa using hnew
  refine addUserMode_meets ?_ (fun h => by cases h)
  exact ends_of_talks (.oper hpw hnew) sendReply_talksAt

/-! ## What exactly is said -/

/-- The program starts in `s` without a mutex, hands out `msgs`, and changes nothing. -/
def SaysAt (ok : Nat → Bool) (s : Server) (p : Act Unit) (msgs : List Event) : Prop :=
  ∀ out : List Event, p.Meets ok (Says ok ⟨s, [], out⟩ msgs) ⟨s, [], out⟩

/-- Who says something talks. -/
theorem SaysAt.talks {p : Act Unit} {msgs : List Event} (h : SaysAt ok s p msgs) :
    TalksAt ok s p :=
  fun out => talks_of_said (h out)

theorem saysAt_done : SaysAt ok s (pure ()) [] := by
  intro out
  show _ = _
  rw [List.append_nil]

/-- One after the other: the messages are appended. -/
theorem saysAt_bind {p : Act Unit} {q : Unit → Act Unit} {msgs msgs' : List Event}
    (hp : SaysAt ok s p msgs) (hq : SaysAt ok s (q ()) msgs') :
    SaysAt ok s (p >>= q) (msgs ++ msgs') := by
  intro out
  rw [meets_bind]
  refine says_then (hp out) id ?_
  refine says_then (hq (out ++ msgs)) id ?_
  show _ = _
  rw [List.append_assoc]

/-- The same test decides what is said. -/
theorem saysAt_ite {c : Prop} [Decidable c] {p q : Act Unit} {msgs msgs' : List Event}
    (hp : c → SaysAt ok s p msgs) (hq : ¬ c → SaysAt ok s q msgs') :
    SaysAt ok s (if c then p else q) (if c then msgs else msgs') := by
  by_cases hc : c
  · rw [if_pos hc, if_pos hc]
    exact hp hc
  · rw [if_neg hc, if_neg hc]
    exact hq hc

/-- A look under a mutex says nothing. -/
theorem saysAt_lockedLook {α : Type} {m : Mutex} {f : Server → α} {q : α → Act Unit}
    {msgs : List Event} (hq : SaysAt ok s (q (f s)) msgs) :
    SaysAt ok s (acquire m >>= fun _ => look f >>= fun a => release m >>= fun _ => q a) msgs := by
  intro out
  rw [lockedLook_bind List.not_mem_nil]
  exact hq out

/-- A reply, as its reader gets it. -/
def Server.reply (cfg : Config) (s : Server) (u : Uid) (code : Reply) (reply extra : CStr) : Event :=
  .send (s.persons u).clientSocket (constrReply cfg code (s.persons u) reply extra)

theorem sendReply_saysAt {code : Reply} {reply extra : CStr} :
    SaysAt ok s (sendReply cfg self user code reply extra) [s.reply cfg user code reply extra] :=
  fun _ => sendReply_said List.not_mem_nil

/-- A send says its message to the user. -/
theorem lockedSend_saysAt {msg : CStr} :
    SaysAt ok s (lockedSend self user msg) [.send (s.persons user).clientSocket msg] :=
  fun _ => lockedSend_said List.not_mem_nil

/-- `sendtochannel` says it to each member, in the order of `userlist`. -/
theorem sendtochannel_saysAt {chan : Cid} {msg : CStr} {sender : Option Uid}
    (h : s.userlist.iter = none) :
    SaysAt ok s (sendtochannel self (some chan) msg sender)
      (relays s (s.channels chan).name msg sender s.userlist.items) :=
  fun _ => sendtochannel_said h List.not_mem_nil fun _ _ => List.not_mem_nil

/-! ## PRIVMSG and NOTICE -/

/-- What PRIVMSG hands out for a recipient who is a user. -/
def Server.tell (cfg : Config) (s : Server) (u v : Uid) (msg : CStr) : List Event :=
  .send (s.persons v).clientSocket msg ::
    if hasMode (s.persons v).mode modeA then
      [s.reply cfg u .rplAway []
        (snprintf maxMsg ((s.persons v).nick ++ str " " ++ (s.persons v).away))]
    else []

/-- To a user: the message, and the reply that he is away. -/
theorem privmsgUser_said {recip : Uid} {msg : CStr} :
    SaysAt ok s (privmsgUser cfg self user recip msg) (s.tell cfg user recip msg) := by
  intro out
  unfold privmsgUser
  rw [meets_bind]
  refine sendToRecip_said.mono ?_ (fun _ h => h) (fun _ h => h) (fun h => h)
  intro away w' hw
  obtain ⟨rfl, rfl⟩ := hw
  unfold Server.tell
  cases haway : hasMode (s.persons recip).mode modeA with
  | false => rfl
  | true =>
    have hreply : SaysAt ok s (awayReply cfg self user recip) _ :=
      saysAt_lockedLook sendReply_saysAt
    refine says_then (hreply _) id ?_
    show _ = _
    rw [List.append_assoc]
    rfl

/-- Is the sender kept from speaking by the channel's mode `m`? Nobody knows if
he has to be asked and is not on it. -/
def Server.mutes (s : Server) (u : Uid) (c : Cid) (name : CStr) : Option Bool :=
  if hasMode (s.channels c).mode modeM && !hasMode (s.persons u).mode modeO then
    ((s.persons u).seekChan name).map fun m => !hasMode m.mode modeO && !hasMode m.mode modeV
  else some false

/-- The search of `my_chans` comes to `seekChan`. -/
theorem lookMyChan_bind {β : Type} {name : CStr} {g : Option MyChan → Act β}
    {Q : Post Server Mutex Event Fault β} :
    (lookMyChan user name >>= g).Meets ok Q ⟨s, [], out⟩ ↔
      (g ((s.persons user).seekChan name)).Meets ok Q ⟨s, [], out⟩ := by
  unfold lookMyChan
  rw [meets_bind, lockedLook_bind List.not_mem_nil]
  exact Iff.rfl

/-- The test for a moderated channel reads a null pointer, or decides. -/
theorem silenced_bind {β : Type} {chan : Cid} {name : CStr} {g : Bool → Act β}
    {Q : Post Server Mutex Event Fault β} :
    (silenced user chan name >>= g).Meets ok Q ⟨s, [], out⟩ ↔
      (deref .null (s.mutes user chan name) >>= g).Meets ok Q ⟨s, [], out⟩ := by
  unfold silenced Server.mutes
  rw [meets_bind, look_bind, look_bind]
  dsimp only
  by_cases hmod : (hasMode (s.channels chan).mode modeM && !hasMode (s.persons user).mode modeO) = true
  · rw [if_pos hmod, if_pos hmod]
    unfold lacksVoice
    rw [lookMyChan_bind]
    cases (s.persons user).seekChan name with
    | none => exact Iff.rfl
    | some m => exact Iff.rfl
  · rw [if_neg hmod, if_neg hmod]
    exact Iff.rfl

/-- What PRIVMSG hands out for a channel. -/
def Server.tellChan (cfg : Config) (s : Server) (u : Uid) (c : Cid) (name msg : CStr) :
    List Event :=
  if (s.persons u).onChan name ∧ s.mutes u c name = some false then
    relays s (s.channels c).name msg (some u) s.userlist.items
  else [s.reply cfg u .errCannotsendtochan [] name]

/-- Who is on the channel can be asked. -/
theorem mutes_of_onChan {name : CStr} {chan : Cid} (hname : name ≠ [])
    (hon : (s.persons user).onChan name = true) : ∃ b, s.mutes user chan name = some b := by
  obtain ⟨m, hm⟩ := (onChan_iff_seekChan hname).mp hon
  unfold Server.mutes
  by_cases hmod : (hasMode (s.channels chan).mode modeM && !hasMode (s.persons user).mode modeO) = true
  · rw [if_pos hmod, hm]
    exact ⟨_, rfl⟩
  · rw [if_neg hmod]
    exact ⟨_, rfl⟩

theorem privmsgChan_said (h : s.userlist.iter = none) {chan : Cid} {name msg : CStr}
    (hname : name ≠ []) :
    SaysAt ok s (privmsgChan cfg self user chan name msg) (s.tellChan cfg user chan name msg) := by
  intro out
  unfold privmsgChan Server.tellChan
  rw [look_bind]
  cases hon : (s.persons user).onChan name with
  | false => exact sendReply_saysAt out
  | true =>
    obtain ⟨b, hb⟩ := mutes_of_onChan hname hon
    show (silenced user chan name >>= _ : Act Unit).Meets ok _ _
    rw [silenced_bind, hb, deref_bind]
    cases b with
    | true => exact sendReply_saysAt out
    | false => exact sendtochannel_saysAt h out

/-- What PRIVMSG hands out. -/
def Server.privmsg (cfg : Config) (s : Server) (u : Uid) (ps : Params) : List Event :=
  if !(s.persons u).registered then [s.reply cfg u .errNotregistered [] []] else
  match s.seekNick (ps.get 1), s.seekChan (ps.get 1) with
  | none, none => [s.reply cfg u .errNosuchnick [] (ps.get 1)]
  | some v, _ => s.tell cfg u v (relayLine (maxMsg - 1) (s.persons u) ps)
  | none, some c => s.tellChan cfg u c (ps.get 1) (relayLine (maxMsg - 1) (s.persons u) ps)

/-- User and channel are found in one section. -/
theorem lookRecipient_bind {β : Type} {name : CStr} {g : Option Uid × Option Cid → Act β}
    {Q : Post Server Mutex Event Fault β} :
    (lookRecipient name >>= g).Meets ok Q ⟨s, [], out⟩ ↔
      (g (s.seekNick name, s.seekChan name)).Meets ok Q ⟨s, [], out⟩ := by
  unfold lookRecipient
  rw [meets_bind, acquire_bind List.not_mem_nil, look_bind, look_bind, release_bind,
    List.erase_cons_head]
  exact Iff.rfl

/-- PRIVMSG says what `Server.privmsg` computes. -/
theorem handlePRIVMSG_said (h : s.userlist.iter = none) :
    SaysAt ok s (handlePRIVMSG cfg self user params) (s.privmsg cfg user params) := by
  unfold handlePRIVMSG Server.privmsg
  refine saysAt_ite (fun _ => sendReply_saysAt) fun _ => ?_
  intro out
  rw [lookRecipient_bind]
  cases s.seekNick (params.get 1) with
  | some v => exact saysAt_lockedLook privmsgUser_said out
  | none =>
    cases hfound : s.seekChan (params.get 1) with
    | none => exact sendReply_saysAt out
    | some c => exact saysAt_lockedLook (privmsgChan_said h (seekChan_ne_nil hfound)) out

/-- It leaves the state as it was. -/
theorem handlePRIVMSG_ends (h : Idle s) :
    (handlePRIVMSG cfg self user params).Meets ok (Ends cfg ok s user params cmd) ⟨s, [], out⟩ :=
  ends_same (handlePRIVMSG_said h.users).talks

/-- What NOTICE hands out for a channel, if it can. -/
def Server.noticeChan (s : Server) (u : Uid) (name notice : CStr) : Option Cid → Option (List Event)
  | none => some []
  | some c => (s.mutes u c name).map fun mute =>
      if !mute ∧ (s.persons u).onChan name then
        relays s (s.channels c).name notice (some u) s.userlist.items
      else []

/-- To a channel: a notice, or nothing. -/
theorem noticeChan_said (h : s.userlist.iter = none) {name notice : CStr} {found : Option Cid}
    {msgs : List Event} (hsome : s.noticeChan user name notice found = some msgs) :
    SaysAt ok s (noticeChan self user name notice found) msgs := by
  intro out
  cases found with
  | none =>
    obtain rfl : [] = msgs := Option.some.inj hsome
    exact saysAt_done out
  | some chan =>
    unfold noticeChan
    rw [silenced_bind]
    unfold Server.noticeChan at hsome
    dsimp only at hsome
    cases hmute : s.mutes user chan name with
    | none => rw [hmute] at hsome; cases hsome
    | some mute =>
      rw [hmute, Option.map_some] at hsome
      rw [deref_bind, ← Option.some.inj hsome]
      cases mute with
      | true => exact saysAt_done out
      | false =>
        show (do
          let member ← look fun s => (s.persons user).onChan name
          onlyIf member (sendtochannel self (some chan) notice (some user)) : Act Unit).Meets ok _ _
        rw [look_bind]
        dsimp only
        cases (s.persons user).onChan name with
        | true => exact sendtochannel_saysAt h out
        | false => exact saysAt_done out

/-- The sender is not on the moderated channel. -/
theorem noticeChan_null {name notice : CStr} {found : Option Cid}
    {Q : Post Server Mutex Event Fault Unit}
    (hnone : s.noticeChan user name notice found = none) (hcrash : Q.crashed .null) :
    (noticeChan self user name notice found).Meets ok Q ⟨s, [], out⟩ := by
  cases found with
  | none => cases hnone
  | some chan =>
    unfold noticeChan
    rw [silenced_bind]
    unfold Server.noticeChan at hnone
    dsimp only at hnone
    rw [Option.map_eq_none_iff.mp hnone]
    exact hcrash

/-- What NOTICE hands out for a user. -/
def Server.noticeUser (s : Server) (notice : CStr) : Option Uid → List Event
  | none => []
  | some v => [.send (s.persons v).clientSocket notice]

/-- To a user: the notice. -/
theorem noticeUser_said {notice : CStr} {found : Option Uid} :
    SaysAt ok s (noticeUser self notice found) (s.noticeUser notice found) := by
  cases found with
  | none => exact saysAt_done
  | some v => exact lockedSend_saysAt

/-- What NOTICE hands out, if it can. -/
def Server.notice (cfg : Config) (s : Server) (u : Uid) (ps : Params) : Option (List Event) :=
  if !(s.persons u).registered then some [s.reply cfg u .errNotregistered [] []] else
  let notice := relayLine (maxMsg - 2) (s.persons u) ps
  (s.noticeChan u (ps.get 1) notice (s.seekChan (ps.get 1))).map
    (s.noticeUser notice (s.seekNick (ps.get 1)) ++ ·)

/-- NOTICE says what `Server.notice` computes. -/
theorem handleNOTICE_said (h : s.userlist.iter = none) {msgs : List Event}
    (hsome : s.notice cfg user params = some msgs) :
    SaysAt ok s (handleNOTICE cfg self user params) msgs := by
  intro out
  unfold handleNOTICE
  unfold Server.notice at hsome
  rw [lookRecipient_bind, look_bind]
  dsimp only
  by_cases hreg : (!(s.persons user).registered) = true
  · rw [if_pos hreg]
    rw [if_pos hreg] at hsome
    rw [← Option.some.inj hsome]
    exact sendReply_saysAt out
  · rw [if_neg hreg]
    rw [if_neg hreg] at hsome
    obtain ⟨chanMsgs, hchan, rfl⟩ := Option.map_eq_some_iff.mp hsome
    exact saysAt_bind noticeUser_said (noticeChan_said h hchan) out

/-- Where that is nothing, a null pointer is read through. -/
theorem handleNOTICE_null {Q : Post Server Mutex Event Fault Unit}
    (hnone : s.notice cfg user params = none) (hcrash : Q.crashed .null) (hstuck : Fails ok → Q.stuck) :
    (handleNOTICE cfg self user params).Meets ok Q ⟨s, [], out⟩ := by
  unfold handleNOTICE
  unfold Server.notice at hnone
  rw [lookRecipient_bind, look_bind]
  dsimp only
  by_cases hreg : (!(s.persons user).registered) = true
  · rw [if_pos hreg] at hnone
    cases hnone
  · rw [if_neg hreg]
    rw [if_neg hreg] at hnone
    rw [meets_bind]
    refine says_then (noticeUser_said out) hstuck ?_
    exact noticeChan_null (Option.map_eq_none_iff.mp hnone) hcrash

/-- NOTICE is lost on a moderated channel that its sender is not on. -/
theorem nullCause_of_notice (hnone : s.notice cfg user params = none) :
    NullCause s user params .NOTICE := by
  unfold Server.notice at hnone
  by_cases hreg : (s.persons user).registered = true
  · rw [if_neg (by simp [hreg]), Option.map_eq_none_iff] at hnone
    cases hfound : s.seekChan (params.get 1) with
    | none =>
      rw [hfound] at hnone
      cases hnone
    | some c =>
      rw [hfound] at hnone
      unfold Server.noticeChan Server.mutes at hnone
      rw [Option.map_eq_none_iff] at hnone
      by_cases hmod : (hasMode (s.channels c).mode modeM && !hasMode (s.persons user).mode modeO) = true
      · rw [if_pos hmod, Option.map_eq_none_iff] at hnone
        simp only [Bool.and_eq_true, Bool.not_eq_true'] at hmod
        exact .notice hreg hfound hmod.1 hmod.2 hnone
      · rw [if_neg hmod] at hnone
        cases hnone
  · rw [if_pos (by simpa using hreg)] at hnone
    cases hnone

/-- It leaves the state as it was, or the process dies. -/
theorem handleNOTICE_ends (h : Idle s) :
    (handleNOTICE cfg self user params).Meets ok (Ends cfg ok s user params .NOTICE)
      ⟨s, [], out⟩ := by
  cases hmsgs : s.notice cfg user params with
  | none => exact handleNOTICE_null hmsgs (fun _ => nullCause_of_notice hmsgs) id
  | some msgs => exact ends_same (handleNOTICE_said h.users hmsgs).talks

end UchiNetworks.Chirc
