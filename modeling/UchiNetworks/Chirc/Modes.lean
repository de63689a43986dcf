import UchiNetworks.Chirc.Queries

/-!
# chirc: modes, and the whole of a message

MODE has three shapes: a member of a channel, a channel, a user. With it the
handlers are complete: `parse_ends` and `disconnect_meets` say what a message and
the end of a connection do.
-/

namespace UchiNetworks.Chirc

open UchiNetworks.Lib
open Prog

variable {cfg : Config} {self user : Uid} {ok : Nat → Bool} {s : Server} {out : List Event}
  {params : Params} {cmd : Command} {stale : Nat → Nat}

/-! ## A member's status -/

/-- The letters after `+` are appended unless the first is there. -/
theorem memberAdd_meets {target : Uid} {m : MyChan} {Q : Post Server Mutex Event Fault Unit}
    (hset : hasMode m.mode (modeLetter params) = false → Q.done ()
      ⟨s.updPerson target (·.updMode (params.get 1) fun _ => m.mode ++ (params.get 2).tail), [], out⟩)
    (hsame : Q.done () ⟨s, [], out⟩) (hcrash : Q.crashed .bounds) :
    (addMemberMode target params (some m)).Meets ok Q ⟨s, [], out⟩ := by
  unfold addMemberMode
  rw [deref_bind, meets_onlyIf]
  refine ⟨fun hnew => ?_, fun _ => hsame⟩
  rw [meets_bind]
  exact strcatMode_meets (hset (by simpa using hnew)) hcrash

/-- One letter is taken out, if it is there. -/
theorem memberDel_meets {target : Uid} {m : MyChan} {Q : Post Server Mutex Event Fault Unit}
    (hset : Q.done ()
      ⟨s.updPerson target (·.updMode (params.get 1) (delMode · (modeLetter params))), [], out⟩)
    (hsame : Q.done () ⟨s, [], out⟩) :
    (dropMemberMode user target params (some m)).Meets ok Q ⟨s, [], out⟩ := by
  unfold dropMemberMode
  rw [deref_bind, meets_onlyIf]
  refine ⟨fun _ => ?_, fun _ => hsame⟩
  rw [lockedChange List.not_mem_nil]
  exact hset

/-- The sign decides which. -/
theorem changeMember_meets {target : Uid} {m : MyChan} {Q : Post Server Mutex Event Fault Unit}
    (hadd : (params.get 2).head? = some (chr '+') → hasMode m.mode (modeLetter params) = false →
      Q.done ()
        ⟨s.updPerson target (·.updMode (params.get 1) fun _ => m.mode ++ (params.get 2).tail), [], out⟩)
    (hdel : (params.get 2).head? = some (chr '-') → Q.done ()
      ⟨s.updPerson target (·.updMode (params.get 1) (delMode · (modeLetter params))), [], out⟩)
    (hsame : Q.done () ⟨s, [], out⟩) (hcrash : Q.crashed .bounds) :
    (changeMember user target params (some m)).Meets ok Q ⟨s, [], out⟩ := by
  unfold changeMember
  rw [meets_ite]
  refine ⟨fun hplus => memberAdd_meets (hadd hplus) hsame hcrash, fun _ => ?_⟩
  rw [meets_ite]
  exact ⟨fun hminus => memberDel_meets (hdel hminus) hsame, fun _ => hsame⟩

/-- `user` is on the channel and an operator: what the check of MODE comes to. -/
theorem isOper_iff {name : CStr} :
    (((s.persons user).seekChan name).any fun m =>
        hasMode (s.persons user).mode modeO || hasMode m.mode modeO) = true ↔
      ((s.persons user).seekChan name).isSome ∧ s.isOper user name := by
  unfold Server.isOper
  cases (s.persons user).seekChan name with
  | none => simp
  | some m => simp

/-- The bare reply, as MODE ends with it. -/
theorem refused_ends (h : Sane s) {chan : Cid} {code : Reply} {reply extra : CStr} (hthree : params.get 3 ≠ [])
    (hfound : s.seekChan (params.get 1) = some chan) (hrefused : s.modeRefused user params) :
    (bareReply cfg self user code reply extra).Meets ok (Ends cfg ok s user params .MODE)
      ⟨s, [], out⟩ := by
  refine bareReply_meets (fun _ => .same _) ?_ ?_
  · intro s' hexit hfail
    have heff : Effect cfg ok s user params .MODE s' := .dropped hfail (Or.inr rfl) hexit
    exact ⟨fun _ => heff, fun _ => heff⟩
  · intro hexit _ _
    exact .modeMember hthree hfound hrefused ((exitUser_none_iff h).mp hexit)

/-- The change is relayed to the channel, also where there was none. -/
theorem setMemberMode_ends (h : Idle s) {chan : Cid} {target : Uid} {m : MyChan}
    (hfound : s.seekChan (params.get 1) = some chan) (hoper : s.isOper user (params.get 1))
    (hown : ((s.persons user).seekChan (params.get 1)).isSome)
    (htarget : s.seekUser (params.get 3) = some target)
    (hm : (s.persons target).seekChan (params.get 1) = some m)
    (hset : anyOf (params.get 2) (str "ov")) :
    (setMemberMode self user target params chan).Meets ok (Ends cfg ok s user params .MODE)
      ⟨s, [], out⟩ := by
  have hrelay : ∀ s', Effect cfg ok s user params .MODE s' → s'.userlist = s.userlist → (do
      let p ← look (·.persons user)
      sendtochannel self (some chan) (crlf (snprintf (maxMsg - 2)
        (relayPrefix p ++ str "MODE " ++ params.get 1 ++ str " " ++ params.get 2 ++ str " " ++
          params.get 3))) none : Act Unit).Meets ok (Ends cfg ok s user params .MODE)
      ⟨s', [], out⟩ := by
    intro s' heff husers
    have hidle : s'.userlist.iter = none := by rw [husers]; exact h.users
    exact ends_of_talks heff (talksAt_look (sendtochannel_talks hidle))
  unfold setMemberMode
  rw [lockedLook_bind List.not_mem_nil]
  dsimp only
  rw [hm, meets_bind]
  refine changeMember_meets ?_ ?_ ?_ ?_
  · intro hplus hnew
    exact hrelay _ (.memberAdd hfound hoper hown htarget hm hset hplus hnew) rfl
  · intro hminus
    exact hrelay _ (.memberDel hfound hoper hown htarget hm hset hminus) rfl
  · exact hrelay s (.same _) rfl
  · intro hnull
    cases hnull

/-- The target must be on the channel, and the letters known. -/
theorem modeMemberTarget_ends (h : Sane s) {chan : Cid} (hthree : params.get 3 ≠ [])
    (hfound : s.seekChan (params.get 1) = some chan) (hoper : s.isOper user (params.get 1))
    (hown : ((s.persons user).seekChan (params.get 1)).isSome) :
    (modeMemberTarget cfg self user params chan (s.seekUser (params.get 3))).Meets ok
      (Ends cfg ok s user params .MODE) ⟨s, [], out⟩ := by
  cases htarget : s.seekUser (params.get 3) with
  | none =>
    refine refused_ends h hthree hfound (Or.inr fun t ht => ?_)
    rw [htarget] at ht
    cases ht
  | some target =>
    unfold modeMemberTarget
    rw [look_bind, meets_ite]
    refine ⟨fun hoff => ?_, fun hon => ?_⟩
    · refine refused_ends h hthree hfound (Or.inr fun t ht => ?_)
      rw [htarget] at ht
      rw [← Option.some.inj ht]
      simpa using hoff
    · have hon : (s.persons target).onChan (params.get 1) = true := by simpa using hon
      obtain ⟨m, hm⟩ := (onChan_iff_seekChan (seekChan_ne_nil hfound)).mp hon
      rw [meets_ite]
      refine ⟨fun _ => ends_same sendReply_talksAt, fun hset => ?_⟩
      exact setMemberMode_ends h.idle hfound hoper hown htarget hm (by simpa using hset)

/-- The sender must be an operator there. -/
theorem modeMemberChan_ends (h : Sane s) (hthree : params.get 3 ≠ []) :
    (modeMemberChan cfg self user params (s.seekChan (params.get 1))).Meets ok
      (Ends cfg ok s user params .MODE) ⟨s, [], out⟩ := by
  cases hfound : s.seekChan (params.get 1) with
  | none => exact ends_same sendReply_talksAt
  | some chan =>
    unfold modeMemberChan
    rw [lockedLook_bind List.not_mem_nil, look_bind, meets_ite]
    refine ⟨fun hno => ?_, fun hyes => ?_⟩
    · refine refused_ends h hthree hfound (Or.inl fun hboth => ?_)
      have hany := isOper_iff.mpr hboth
      simp [hany] at hno
    · have hboth := isOper_iff.mp (by simpa using hyes)
      rw [lockedLook_bind List.not_mem_nil]
      exact modeMemberTarget_ends h hthree hfound hboth.2 hboth.1

/-! ## A user's and a channel's mode -/

/-- MODE on a user: at most a letter less. -/
theorem modeUser_ends :
    (modeUser cfg self user params).Meets ok (Ends cfg ok s user params .MODE) ⟨s, [], out⟩ := by
  unfold modeUser
  rw [look_bind, meets_ite]
  refine ⟨fun _ => ends_same sendReply_talksAt, fun _ => ?_⟩
  rw [meets_ite]
  refine ⟨fun _ => ends_same sendReply_talksAt, fun _ => ?_⟩
  rw [meets_ite]
  refine ⟨fun _ => ?_, fun _ => ends_same talksAt_done⟩
  rw [onlyIf_bind]
  refine ⟨fun hat => ?_, fun _ => ends_same lockedSend_talks⟩
  rw [dropUserMode_meets]
  exact ends_of_talks (.userMode hat) lockedSend_talks

/-- The relay changes nothing. -/
theorem relayMode_talks (h : s.userlist.iter = none) {chan : Cid} :
    TalksAt ok s (relayMode self user params chan) :=
  talksAt_look (talksAt_look (sendtochannel_talks h))

/-- A channel gets the letters after `+`, or loses one. -/
theorem setChanMode_ends (h : Idle s) {chan : Cid} (hfound : s.seekChan (params.get 1) = some chan)
    (hoper : s.isOper user (params.get 1)) (hset : anyOf (params.get 2) (str "mt")) :
    (setChanMode cfg self user params chan).Meets ok (Ends cfg ok s user params .MODE)
      ⟨s, [], out⟩ := by
  unfold setChanMode
  rw [meets_ite]
  refine ⟨fun hplus => ?_, fun _ => ?_⟩
  · rw [look_bind, meets_bind]
    refine strcatMode_meets ?_ ?_
    · dsimp only
      rw [change_bind]
      exact ends_of_talks (.chanAdd hfound hoper hset hplus) (relayMode_talks (by exact h.users))
    · intro hnull
      cases hnull
  · rw [meets_ite]
    refine ⟨fun hminus => ?_, fun _ => modeUser_ends⟩
    rw [change_bind]
    exact ends_of_talks (.chanDel hfound hoper hset hminus) (relayMode_talks (by exact h.users))

/-- Does the user lack operator rights? Nobody knows if he has to be asked and is
not on the channel. -/
def Server.lacksOper (s : Server) (u : Uid) (name : CStr) : Option Bool :=
  if hasMode (s.persons u).mode modeO then some false
  else ((s.persons u).seekChan name).map fun m => !hasMode m.mode modeO

/-- The test for operator rights reads a null pointer, or decides. -/
theorem lacksOper_bind {β : Type} {name : CStr} {g : Bool → Act β}
    {Q : Post Server Mutex Event Fault β} :
    (lacksOper user name >>= g).Meets ok Q ⟨s, [], out⟩ ↔
      (deref .null (s.lacksOper user name) >>= g).Meets ok Q ⟨s, [], out⟩ := by
  unfold lacksOper Server.lacksOper
  rw [meets_bind, look_bind]
  dsimp only
  cases hasMode (s.persons user).mode modeO with
  | true => exact Iff.rfl
  | false =>
    show (do
      let mychanpt ← lookMyChan user name
      let mychan ← deref .null mychanpt
      pure (!hasMode mychan.mode modeO) : Act Bool).Meets ok _ _ ↔ _
    rw [lookMyChan_bind]
    cases (s.persons user).seekChan name with
    | none => exact Iff.rfl
    | some m => exact Iff.rfl

/-- Who passes it is an operator of the channel, or of the server. -/
theorem isOper_of_lacksOper {name : CStr} (h : s.lacksOper user name = some false) :
    s.isOper user name := by
  unfold Server.lacksOper at h
  by_cases hoper : hasMode (s.persons user).mode modeO
  · exact Or.inl hoper
  · rw [if_neg hoper] at h
    obtain ⟨m, hm, hnot⟩ := Option.map_eq_some_iff.mp h
    exact Or.inr ⟨m, hm, by simpa using hnot⟩

/-- MODE on a channel. -/
theorem modeChannel_ends (h : Idle s) (hthree : params.get 3 = [])
    (hhash : (params.get 1).head? = some (chr '#')) :
    (modeChannel cfg self user params (s.seekChan (params.get 1))).Meets ok
      (Ends cfg ok s user params .MODE) ⟨s, [], out⟩ := by
  cases hfound : s.seekChan (params.get 1) with
  | none => exact ends_same sendReply_talksAt
  | some chan =>
    unfold modeChannel
    rw [look_bind, meets_ite]
    refine ⟨fun _ => ends_same sendReply_talksAt, fun hset => ?_⟩
    rw [lacksOper_bind]
    cases hlacks : s.lacksOper user (params.get 1) with
    | none =>
      rw [deref_null_bind]
      intro _
      unfold Server.lacksOper at hlacks
      by_cases hoper : hasMode (s.persons user).mode modeO = true
      · rw [if_pos hoper] at hlacks
        cases hlacks
      · rw [if_neg hoper] at hlacks
        exact .modeChannel hthree hhash hfound hset (by simpa using hoper)
          (Option.map_eq_none_iff.mp hlacks)
    | some denied =>
      rw [deref_bind, meets_ite]
      refine ⟨fun _ => ends_same sendReply_talksAt, fun hallowed => ?_⟩
      rw [meets_ite]
      refine ⟨fun _ => ends_same sendReply_talksAt, fun hany => ?_⟩
      have hdenied : denied = false := by simpa using hallowed
      rw [hdenied] at hlacks
      exact setChanMode_ends h hfound (isOper_of_lacksOper hlacks) (by simpa using hany)

/-- The number of words decides which MODE it is. -/
theorem handleMODE_ends (h : Sane s) :
    (handleMODE cfg self user params).Meets ok (Ends cfg ok s user params .MODE) ⟨s, [], out⟩ := by
  unfold handleMODE
  rw [meets_ite]
  refine ⟨fun hthree => ?_, fun hthree => ?_⟩
  · rw [lookChan_eq List.not_mem_nil]
    exact modeMemberChan_ends h hthree
  · rw [meets_ite]
    refine ⟨fun hhash => ?_, fun _ => modeUser_ends⟩
    rw [lookChan_eq List.not_mem_nil]
    exact modeChannel_ends h.idle (by simpa using hthree) hhash

/-! ## Messages and the end of a connection -/

/-- **Every handler** ends as `Effect` allows. -/
theorem dispatch_ends (h : Sane s) (c : Command) :
    (dispatch cfg self stale s.fuel user params c).Meets ok (Ends cfg ok s user params c)
      ⟨s, [], out⟩ := by
  cases c with
  | NICK => exact handleNICK_ends h.idle
  | USER => exact handleUSER_ends h.idle
  | QUIT => exact handleQUIT_ends h
  | PRIVMSG => exact handlePRIVMSG_ends h.idle
  | NOTICE => exact handleNOTICE_ends h.idle
  | WHOIS => exact handleWHOIS_ends
  | PING => exact ends_same handlePING_talks
  | PONG => exact ends_same talksAt_done
  | LUSERS => exact ends_same (handleLUSERS_talks h.idle.users)
  | MOTD => exact ends_same handleMOTD_talks
  | JOIN => exact handleJOIN_ends h.idle
  | AWAY => exact handleAWAY_ends
  | PART => exact handlePART_ends h.idle
  | TOPIC => exact handleTOPIC_ends h.idle
  | NAMES => exact handleNAMES_ends h
  | MODE => exact handleMODE_ends h
  | OPER => exact handleOPER_ends
  | LIST => exact handleLIST_ends h.idle
  | WHO => exact handleWHO_ends h.idle
  | UNKNOWN => exact ends_same handleUNKNOWN_talks

/-- `parse` finds its client by the descriptor. -/
theorem lookClient_bind {β : Type} {g : Option Uid → Act β} {Q : Post Server Mutex Event Fault β} :
    (lookClient self >>= g).Meets ok Q ⟨s, [], out⟩ ↔
      (g (s.seekFd (s.persons self).clientSocket)).Meets ok Q ⟨s, [], out⟩ := by
  unfold lookClient
  rw [meets_bind, look_bind, lockedLook_bind List.not_mem_nil]
  exact Iff.rfl

/-- A message is handled for its sender, if he is found. -/
theorem parse_eq {fuel : Nat} {Q : Post Server Mutex Event Fault Unit}
    (hself : s.seekFd (s.persons self).clientSocket = some user) :
    (parse cfg self stale fuel params).Meets ok Q ⟨s, [], out⟩ ↔
      (dispatch cfg self stale fuel user params (commandOf (params.get 0))).Meets ok Q
        ⟨s, [], out⟩ := by
  unfold parse
  rw [lookClient_bind, hself, deref_bind]
  exact Iff.rfl

/-- So every message ends so, alone. -/
theorem parse_ends (h : Sane s) (hself : s.seekFd (s.persons self).clientSocket = some user) :
    (parse cfg self stale s.fuel params).Meets ok
      (Ends cfg ok s user params (commandOf (params.get 0)))
      ⟨s, [], out⟩ := by
  rw [parse_eq hself]
  exact dispatch_ends h _

/-- The end of a connection, when its client is found. -/
theorem disconnect_meets {Q : Post Server Mutex Event Fault Unit}
    (hself : s.seekFd (s.persons self).clientSocket = some user)
    (hdone : ∀ s', s.exitUser user = some s' → self ≠ user → ∀ out', Q.done () ⟨s', [], out'⟩)
    (hexit : ∀ s', s.exitUser user = some s' → self = user → ∀ out', Q.exited ⟨s', [], out'⟩)
    (hcrash : s.exitUser user = none → Q.crashed .null) :
    (disconnect self).Meets ok Q ⟨s, [], out⟩ := by
  unfold disconnect
  rw [lookClient_bind, hself, deref_bind]
  exact userExit_meets hdone hexit hcrash

end UchiNetworks.Chirc
