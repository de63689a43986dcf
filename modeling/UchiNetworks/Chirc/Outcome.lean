import UchiNetworks.Chirc.Sane

/-!
# chirc: every handler has one of the effects

For each handler, started alone while nobody iterates a list of the server: what
it leaves behind is an `Effect` of its command, it reads through a null pointer
only for a `NullCause`, and it blocks only if an output fails. `parse_ends`
puts them together.
-/

namespace UchiNetworks.Chirc

open UchiNetworks.Lib
open Prog

variable {cfg : Config} {self user : Uid} {ok : Nat → Bool} {s : Server} {out : List Event}
  {params : Params} {cmd : Command} {stale : Nat → Nat}

/-- How a handler ends. -/
def Ends (cfg : Config) (ok : Nat → Bool) (s : Server) (u : Uid) (ps : Params) (c : Command) :
    Post Server Mutex Event Fault Unit where
  done := fun _ w => Effect cfg ok s u ps c w.state
  exited := fun w => Effect cfg ok s u ps c w.state
  crashed := fun f => f = .null → NullCause s u ps c
  stuck := Fails ok

/-- Once the change is made, there is only talk. -/
theorem ends_of_talks {s' : Server} {p : Act Unit} (heff : Effect cfg ok s user params cmd s')
    (h : TalksAt ok s' p) : p.Meets ok (Ends cfg ok s user params cmd) ⟨s', [], out⟩ := by
  refine talks_then (h out) id ?_
  intro msgs
  exact heff

/-- No change at all. -/
theorem ends_same {p : Act Unit} (h : TalksAt ok s p) :
    p.Meets ok (Ends cfg ok s user params cmd) ⟨s, [], out⟩ :=
  ends_of_talks (.same cmd) h

/-- Talk first, then go on. -/
theorem ends_after {p : Act Unit} {q : Unit → Act Unit} {Q : Post Server Mutex Event Fault Unit}
    (h : TalksAt ok s p) (hstuck : Fails ok → Q.stuck)
    (hq : ∀ out, (q ()).Meets ok Q ⟨s, [], out⟩) : (p >>= q).Meets ok Q ⟨s, [], out⟩ := by
  rw [meets_bind]
  refine talks_then (h out) hstuck ?_
  intro msgs
  exact hq (out ++ msgs)

/-! ## Names -/

/-- A registration counts one user more, and talks. -/
theorem doRegistration_meets {Q : Post Server Mutex Event Fault Unit}
    (h : s.userlist.iter = none)
    (hdone : ∀ out, Q.done () ⟨s.countIf true, [], out⟩) (hstuck : Fails ok → Q.stuck) :
    (doRegistration cfg self user).Meets ok Q ⟨s, [], out⟩ := by
  have hcount : (s.countIf true).userlist.iter = none := h
  unfold doRegistration
  rw [lockedChange_bind List.not_mem_nil]
  refine talks_then (doRegistration_talks hcount out) hstuck ?_
  intro msgs
  exact hdone _

/-- `strcpy` under `lock` gives the nick. -/
theorem setNick_meets {nick : CStr} {Q : Post Server Mutex Event Fault Unit} :
    (setNick user nick).Meets ok Q ⟨s, [], out⟩ ↔ Q.done () ⟨s.withNick user nick, [], out⟩ := by
  unfold setNick
  rw [lockedChange List.not_mem_nil]
  exact Iff.rfl

theorem setNick_bind {β : Type} {nick : CStr} {g : Unit → Act β}
    {Q : Post Server Mutex Event Fault β} :
    (setNick user nick >>= g).Meets ok Q ⟨s, [], out⟩ ↔
      (g ()).Meets ok Q ⟨s.withNick user nick, [], out⟩ := by
  rw [meets_bind, setNick_meets]

/-- NICK is refused, or changes a nick, or sets the first one and then registers. -/
theorem handleNICK_meets {Q : Post Server Mutex Event Fault Unit} (h : Idle s)
    (hrefused : s.seekNick (params.get 1) ≠ none → ∀ msgs, Q.done () ⟨s, [], out ++ msgs⟩)
    (hrename : s.seekNick (params.get 1) = none → (s.persons user).nick ≠ [] →
      ¬ s.lost (s.persons user).toVisit →
      ∀ out', Q.done () ⟨(s.atMyChan user none).withNick user (params.get 1), [], out'⟩)
    (hlost : s.seekNick (params.get 1) = none → (s.persons user).nick ≠ [] →
      s.lost (s.persons user).toVisit → Q.crashed .null)
    (hfirst : s.seekNick (params.get 1) = none → (s.persons user).nick = [] →
      (onlyIf ((s.persons user).user ≠ []) (doRegistration cfg self user)).Meets ok Q
        ⟨s.withNick user (params.get 1), [], out⟩)
    (hstuck : Fails ok → Q.stuck) :
    (handleNICK cfg self user params).Meets ok Q ⟨s, [], out⟩ := by
  unfold handleNICK
  rw [lockedLook_bind List.not_mem_nil, meets_ite]
  refine ⟨fun htaken => ?_, fun hfree => ?_⟩
  · refine talks_then (sendReply_talksAt out) hstuck ?_
    exact hrefused (Option.ne_none_iff_isSome.mpr htaken)
  · have hfree : s.seekNick (params.get 1) = none := by simpa using hfree
    rw [look_bind, meets_ite]
    refine ⟨fun hnick => ?_, fun hnick => ?_⟩
    · refine ends_after lockedSend_talks hstuck fun out' => ?_
      rw [meets_bind]
      refine sendtoallchans_meets h.users ?_ (hlost hfree hnick) hstuck
      intro hfound msgs
      dsimp only
      rw [setNick_meets]
      exact hrename hfree hnick hfound _
    · have hnick : (s.persons user).nick = [] := by simpa using hnick
      have huser : ((s.withNick user (params.get 1)).persons user).user = (s.persons user).user := by
        unfold Server.withNick
        rw [updPerson_self]
      rw [setNick_bind, look_bind]
      dsimp only
      rw [huser]
      exact hfirst hfree hnick

/-- NICK: a first nick, a change of nick, or nothing. -/
theorem handleNICK_ends (h : Idle s) :
    (handleNICK cfg self user params).Meets ok (Ends cfg ok s user params .NICK) ⟨s, [], out⟩ := by
  refine handleNICK_meets h (fun _ _ => .same _) (fun hfree hnick _ _ => .rename hfree hnick)
    (fun hfree hnick hlost _ => .rename hfree hnick hlost) ?_ id
  intro hfree hnick
  have heff : Effect cfg ok s user params .NICK _ := .firstNick hfree hnick
  rw [meets_onlyIf]
  refine ⟨?_, ?_⟩
  · intro hreg
    rw [hreg] at heff
    exact doRegistration_meets h.users (fun _ => heff) id
  · intro hreg
    rw [hreg] at heff
    exact heff

/-- USER is refused, or sets the names and then registers. -/
theorem handleUSER_meets {Q : Post Server Mutex Event Fault Unit}
    (hrefused : (s.persons user).user ≠ [] ∧ (s.persons user).nick ≠ [] →
      ∀ msgs, Q.done () ⟨s, [], out ++ msgs⟩)
    (hnew : ¬ ((s.persons user).user ≠ [] ∧ (s.persons user).nick ≠ []) →
      (onlyIf ((s.persons user).nick ≠ []) (doRegistration cfg self user)).Meets ok Q
        ⟨s.withUser user (params.get 1) (params.get 4).tail, [], out⟩)
    (hstuck : Fails ok → Q.stuck) :
    (handleUSER cfg self user params).Meets ok Q ⟨s, [], out⟩ := by
  unfold handleUSER
  rw [look_bind, meets_ite]
  refine ⟨fun hreg => ?_, fun hreg => ?_⟩
  · exact talks_then (sendReply_talksAt out) hstuck (hrefused hreg)
  · have hnick : ((s.withUser user (params.get 1) (params.get 4).tail).persons user).nick
        = (s.persons user).nick := by
      unfold Server.withUser
      rw [updPerson_self]
    rw [lockedChange_bind List.not_mem_nil, look_bind]
    have hrest := hnew hreg
    rw [← hnick] at hrest
    exact hrest

/-- USER: the names of who is not registered, or nothing. -/
theorem handleUSER_ends (h : Idle s) :
    (handleUSER cfg self user params).Meets ok (Ends cfg ok s user params .USER) ⟨s, [], out⟩ := by
  refine handleUSER_meets (fun _ _ => .same _) ?_ id
  intro hnew
  have heff : Effect cfg ok s user params .USER _ := .user hnew
  rw [meets_onlyIf]
  refine ⟨?_, ?_⟩
  · intro hreg
    rw [hreg] at heff
    exact doRegistration_meets h.users (fun _ => heff) id
  · intro hreg
    rw [hreg] at heff
    exact heff

/-- QUIT: the user is gone. -/
theorem handleQUIT_ends (h : Sane s) :
    (handleQUIT self user params).Meets ok (Ends cfg ok s user params .QUIT) ⟨s, [], out⟩ := by
  unfold handleQUIT
  rw [look_bind, meets_bind]
  refine sendtoallchans_meets h.idle.users ?_ ?_ id
  · intro _ msgs
    show (do
      acquire (.cLock user)
      let _ ← output _
      release (.cLock user)
      userExit self user : Act Unit).Meets ok (Ends cfg ok s user params .QUIT) _
    rw [acquire_bind List.not_mem_nil, output_bind, release_bind, List.erase_cons_head]
    refine userExit_meets ?_ ?_ ?_
    · intro s' hexit _ _
      exact .quit hexit
    · intro s' hexit _ _
      exact .quit hexit
    · intro hexit _
      exact .quit ((exitUser_stopped_none_iff h).mp hexit)
  · intro hlost _
    exact .quit (hlost.mono (toVisit_subset _).subset)

/-! ## Channels -/

/-- Alone, the two sections are one change. -/
theorem enterChannel_bind {β : Type} {chan : Cid} {m : MyChan} {g : Unit → Act β}
    {Q : Post Server Mutex Event Fault β} :
    (enterChannel user chan m >>= g).Meets ok Q ⟨s, [], out⟩ ↔
      (g ()).Meets ok Q ⟨s.enter user chan m, [], out⟩ := by
  unfold enterChannel
  rw [meets_bind, lockedChange_bind List.not_mem_nil, lockedChange List.not_mem_nil]
  exact Iff.rfl

/-- A new channel gets the next number. -/
theorem newChannel_bind {β : Type} {cname : CStr} {g : Cid → Act β}
    {Q : Post Server Mutex Event Fault β} :
    (newChannel cname >>= g).Meets ok Q ⟨s, [], out⟩ ↔
      (g s.nextCid).Meets ok Q ⟨s.addChannel cname, [], out⟩ := by
  unfold newChannel
  rw [meets_bind, acquire_bind List.not_mem_nil, look_bind, change_bind, release_bind,
    List.erase_cons_head]
  exact Iff.rfl

/-- JOIN: an old channel, a new one, or nothing. -/
theorem handleJOIN_ends (h : Idle s) :
    (handleJOIN cfg self stale user params).Meets ok (Ends cfg ok s user params .JOIN)
      ⟨s, [], out⟩ := by
  unfold handleJOIN channelJoin
  rw [lookChan_eq List.not_mem_nil]
  cases hfound : s.seekChan (params.get 1) with
  | some chan =>
    show (do
      let already ← look fun s => (s.persons user).onChan (params.get 1)
      if already then pure () else
      enterChannel user chan ⟨params.get 1, []⟩
      joinReplies cfg self (stale 0) user chan (params.get 1) : Act Unit).Meets ok _ _
    rw [look_bind, meets_ite]
    refine ⟨fun _ => ends_same talksAt_done, fun hnew => ?_⟩
    have hnew : (s.persons user).onChan (params.get 1) = false := by simpa using hnew
    rw [enterChannel_bind]
    exact ends_of_talks (.joinOld hfound hnew) (joinReplies_talks h.users)
  | none =>
    unfold findOrCreate
    rw [newChannel_bind, look_bind, meets_ite]
    refine ⟨fun hon => ?_, fun hnew => ?_⟩
    · exact ends_of_talks (.joinAgain hfound hon) talksAt_done
    · have hnew : (s.persons user).onChan (params.get 1) = false := by
        rw [← Bool.not_eq_true]
        exact hnew
      rw [enterChannel_bind]
      exact ends_of_talks (.joinNew hfound hnew) (joinReplies_talks h.users)

/-- PART: the channel is out of the list, and counts one less. -/
theorem handlePART_ends (h : Idle s) :
    (handlePART cfg self user params).Meets ok (Ends cfg ok s user params .PART) ⟨s, [], out⟩ := by
  unfold handlePART
  rw [lookChan_eq List.not_mem_nil]
  cases hfound : s.seekChan (params.get 1) with
  | none => exact ends_same sendReply_talksAt
  | some chan =>
    unfold partFound partChan
    rw [look_bind, meets_ite]
    refine ⟨fun _ => ends_same sendReply_talksAt, fun hon => ?_⟩
    have hon : (s.persons user).onChan (params.get 1) = true := by simpa using hon
    rw [look_bind]
    refine ends_after (sendtochannel_talks h.users) id fun out' => ?_
    rw [lockedChange_bind List.not_mem_nil, leaveChannel_eq List.not_mem_nil List.not_mem_nil]
    exact .part hfound hon

/-- A channel that is found has a name. -/
theorem seekChan_ne_nil {name : CStr} {c : Cid} (h : s.seekChan name = some c) : name ≠ [] := by
  have hmatch := List.find?_some h
  simp [seekMatch] at hmatch
  exact hmatch.1

/-- For a name that is not empty, `list_contains` and `list_seek` agree. -/
theorem onChan_iff_seekChan {p : Person} {name : CStr} (h : name ≠ []) :
    p.onChan name = true ↔ ∃ m, p.seekChan name = some m := by
  unfold Person.onChan Person.seekChan SimList.contains SimList.seek
  rw [← Option.isSome_iff_exists, List.find?_isSome, List.any_eq_true]
  simp [seekMatch, h]

/-- The reply with the topic changes nothing. -/
theorem topicReply_talks {cname : CStr} {chan : Cid} :
    TalksAt ok s (topicReply cfg self user cname (some chan)) := by
  unfold topicReply
  intro out
  rw [deref_bind]
  revert out
  exact talksAt_look (talksAt_ite (fun _ => sendReply_talksAt) fun _ => sendReply_talksAt)

/-- The check of mode `t`: an operator may, nobody else. -/
theorem mayTopic_meets {chan : Cid} {cname : CStr} {Q : Post Server Mutex Event Fault Bool}
    (hon : ∃ m, (s.persons user).seekChan cname = some m)
    (hyes : (hasMode (s.channels chan).mode modeT → s.isOper user cname) → Q.done true ⟨s, [], out⟩)
    (hno : ∀ msgs, Q.done false ⟨s, [], out ++ msgs⟩) (hstuck : Fails ok → Q.stuck) :
    (mayTopic cfg self user chan cname).Meets ok Q ⟨s, [], out⟩ := by
  obtain ⟨m, hm⟩ := hon
  unfold mayTopic
  rw [look_bind, meets_ite]
  refine ⟨fun ht => ?_, fun ht => ?_⟩
  · unfold topicOper
    rw [acquire_bind List.not_mem_nil, look_bind, hm, deref_bind, look_bind, onlyIf_bind]
    refine ⟨fun hdenied => ?_, fun hallowed => ?_⟩
    · rw [output_bind, meets_onlyIf]
      refine ⟨fun hfail => ?_, fun _ => ?_⟩
      · rw [userExit_held (List.mem_cons_self ..)]
        exact hstuck ⟨_, by simpa using hfail⟩
      · show (do release (.cLock user); return !_ : Act Bool).Meets ok Q _
        rw [release_bind, List.erase_cons_head, hdenied]
        exact hno _
    · rw [release_bind, List.erase_cons_head, hallowed]
      refine hyes fun _ => ?_
      by_cases hoper : hasMode (s.persons user).mode modeO
      · exact Or.inl hoper
      · refine Or.inr ⟨m, hm, ?_⟩
        simpa [hoper] using hallowed
  · exact hyes fun ht' => absurd ht' ht

/-- TOPIC: the topic is set, or nothing happens. -/
theorem handleTOPIC_ends (h : Idle s) :
    (handleTOPIC cfg self user params).Meets ok (Ends cfg ok s user params .TOPIC)
      ⟨s, [], out⟩ := by
  unfold handleTOPIC
  rw [lookChan_eq List.not_mem_nil, look_bind, meets_ite]
  refine ⟨fun _ => ends_same sendReply_talksAt, fun hon => ?_⟩
  have hon : (s.persons user).onChan (params.get 1) = true := by simpa using hon
  cases hfound : s.seekChan (params.get 1) with
  | none =>
    rw [meets_ite]
    refine ⟨fun _ => ?_, fun _ => ?_⟩
    · unfold topicReply
      rw [deref_null_bind]
      exact fun _ => .topic hon hfound
    · rw [deref_null_bind]
      exact fun _ => .topic hon hfound
  | some chan =>
    rw [meets_ite]
    refine ⟨fun _ => ends_same topicReply_talks, fun _ => ?_⟩
    have hmember := (onChan_iff_seekChan (seekChan_ne_nil hfound)).mp hon
    rw [deref_bind, meets_bind]
    refine mayTopic_meets hmember ?_ ?_ id
    · intro hmay
      show (if !true then _ else _ : Act Unit).Meets ok _ _
      have heff : Effect cfg ok s user params .TOPIC _ := .topic hfound hon hmay
      have hidle : (s.updChannel chan fun c => { c with topic := params.get 2 }).userlist.iter = none :=
        h.users
      rw [if_neg (by decide), meets_bind]
      unfold setTopic
      rw [change_bind, look_bind, look_bind]
      refine talks_then (sendtochannel_talks hidle out) id fun msgs => ?_
      exact ends_of_talks heff topicReply_talks
    · intro msgs
      exact .same _

end UchiNetworks.Chirc
