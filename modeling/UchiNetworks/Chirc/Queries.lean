import UchiNetworks.Chirc.Answer

/-!
# chirc: the queries

WHOIS, LIST, NAMES and WHO. A query should change nothing; what these do change
are the iterations that they start and do not stop, or stop and did not start.

- WHOIS never stops its iteration over the channels of the user asked about.
- WHO over everybody stops the others' iterations over their channels.
- NAMES ends with a `send` outside `lockedSend`: if it fails, the user is removed.
-/

namespace UchiNetworks.Chirc

open UchiNetworks.Lib
open Prog

variable {cfg : Config} {self user : Uid} {ok : Nat → Bool} {s : Server} {out : List Event}
  {params : Params} {cmd : Command} {stale : Nat → Nat}

/-! ## WHOIS -/

/-- What WHOIS may leave behind. -/
def WhoisLeaves (s : Server) (u : Uid) (name : CStr) (s' : Server) : Prop :=
  (¬ ((s.persons u).registered = true ∧ (s.seekNick name).isSome) ∧ s' = s) ∨
    ∃ v k, (s.persons u).registered = true ∧ s.seekNick name = some v ∧
      k ≤ (s.persons v).toVisit.length ∧ ((s.persons v).toVisit ≠ [] → 0 < k) ∧
      s' = s.atMyChan v (some ((s.persons v).iterPos + k))

/-- One turn of WHOIS's loop: the iteration moves on. -/
theorem whoisChan_eq {whois : Uid} {m : MyChan} {acc : WhoisChans} {i : Nat} {held : List Mutex}
    {Q : Post Server Mutex Event Fault WhoisChans} :
    (whoisChan whois m acc).Meets ok Q ⟨s.atMyChan whois (some i), held, out⟩ ↔
      Q.done (acc.add m) ⟨s.atMyChan whois (some (i + 1)), held, out⟩ := by
  unfold whoisChan
  rw [change_bind, nextMyChan_atMyChan]
  exact Iff.rfl

/-- The scan begins: a channel that is there is looked at. -/
theorem whoisChans_meets {whois : Uid} {nick : CStr} {Q : Post Server Mutex Event Fault WhoisChans}
    (hdone : ∀ acc k, k ≤ (s.persons whois).toVisit.length →
      ((s.persons whois).toVisit ≠ [] → 0 < k) →
      Q.done acc ⟨s.atMyChan whois (some ((s.persons whois).iterPos + k)), [], out⟩) :
    (whoisChans whois nick).Meets ok Q ⟨s, [], out⟩ := by
  unfold whoisChans
  rw [acquire_bind List.not_mem_nil, change_bind, startMyChans_eq, look_bind,
    remaining_startMyChans, meets_bind]
  -- `k` entries have been looked at; the buffer cannot be full before the first
  refine meets_forEach (fun ms acc w => ∃ k, ms.length + k = (s.persons whois).toVisit.length ∧
    (k = 0 → acc.buff > 0) ∧
    w = ⟨s.atMyChan whois (some ((s.persons whois).iterPos + k)), [.cLock whois], out⟩)
    ?_ ?_ _ _ _ ⟨0, rfl, ?_, rfl⟩
  · intro m ms acc w hw _
    obtain ⟨k, hlen, -, rfl⟩ := hw
    rw [whoisChan_eq]
    refine ⟨k + 1, ?_, ?_, rfl⟩
    · rw [List.length_cons] at hlen
      omega
    · intro hk
      omega
  · intro ms acc w hw hend
    obtain ⟨k, hlen, hbuff, rfl⟩ := hw
    show (do release (.cLock whois); return acc : Act WhoisChans).Meets ok Q _
    rw [release_bind, List.erase_cons_head]
    refine hdone acc k (by omega) fun hne => ?_
    by_cases hk : k = 0
    · have hms : ms = [] := by simpa [hbuff hk] using hend
      have hlen : (s.persons whois).toVisit.length = 0 := by
        rw [← hlen, hms, hk]
        rfl
      exact absurd (List.length_eq_zero_iff.mp hlen) hne
    · omega
  · intro _
    show (0 : Int) < (512 : Nat) - 1
    decide

/-- The replies after the loop only talk. -/
theorem whoisReplies_talks {whois : Uid} {nick : CStr} {acc : WhoisChans} :
    TalksAt ok s (do
      onlyIf (acc.numchans ≠ 0) (sendReply cfg self user .rplWhoischannels [] acc.wichannels)
      let p ← look (·.persons whois)
      sendReply cfg self user .rplWhoisserver [] (snprintf (maxMsg - 2)
        (nick ++ str " " ++ p.address ++ str " :chirc-0.3"))
      let p ← look (·.persons whois)
      onlyIf (hasMode p.mode modeA)
        (sendReply cfg self user .rplAway [] (snprintf (maxMsg - 2) (nick ++ str " " ++ p.away)))
      let p ← look (·.persons whois)
      onlyIf (hasMode p.mode modeO) (sendReply cfg self user .rplWhoisoperator [] nick)
      sendReply cfg self user .rplEndofwhois [] nick) := by
  refine talksAt_bind (talksAt_onlyIf sendReply_talksAt) (talksAt_look ?_)
  refine talksAt_bind sendReply_talksAt (talksAt_look ?_)
  refine talksAt_bind (talksAt_onlyIf sendReply_talksAt) (talksAt_look ?_)
  exact talksAt_bind (talksAt_onlyIf sendReply_talksAt) sendReply_talksAt

/-- WHOIS leaves the iteration where the loop left it. -/
theorem handleWHOIS_meets {Q : Post Server Mutex Event Fault Unit}
    (hdone : ∀ s' out', WhoisLeaves s user (params.get 1) s' → Q.done () ⟨s', [], out'⟩)
    (hstuck : Fails ok → Q.stuck) :
    (handleWHOIS cfg self user params).Meets ok Q ⟨s, [], out⟩ := by
  have hsame : ¬ ((s.persons user).registered = true ∧ (s.seekNick (params.get 1)).isSome) →
      ∀ {code reply extra}, (sendReply cfg self user code reply extra).Meets ok Q ⟨s, [], out⟩ := by
    intro hnot code reply extra
    refine talks_then (sendReply_talksAt out) hstuck ?_
    intro msgs
    exact hdone s _ (Or.inl ⟨hnot, rfl⟩)
  unfold handleWHOIS
  rw [lockedLook_bind List.not_mem_nil, look_bind, meets_ite]
  refine ⟨fun hreg => ?_, fun hreg => ?_⟩
  · have hreg : (s.persons user).registered = false := by simpa using hreg
    exact hsame (by simp [hreg])
  · have hreg : (s.persons user).registered = true := by simpa using hreg
    dsimp only
    cases hfound : s.seekNick (params.get 1) with
    | none => exact hsame (by simp [hfound])
    | some v =>
      unfold whoisFound whoisUser
      rw [look_bind]
      refine ends_after sendReply_talksAt hstuck fun out' => ?_
      rw [meets_bind]
      refine whoisChans_meets ?_
      intro acc k hk hpos
      refine talks_then (whoisReplies_talks out') hstuck ?_
      intro msgs
      exact hdone _ _ (Or.inr ⟨v, k, hreg, hfound, hk, hpos, rfl⟩)

/-- That is all it changes. -/
theorem handleWHOIS_ends :
    (handleWHOIS cfg self user params).Meets ok (Ends cfg ok s user params .WHOIS) ⟨s, [], out⟩ := by
  refine handleWHOIS_meets ?_ id
  intro s' out' hleaves
  cases hleaves with
  | inl hsame => rw [hsame.2]; exact .same _
  | inr hvisit =>
    obtain ⟨v, k, hreg, hfound, hk, hpos, rfl⟩ := hvisit
    exact .whois hreg hfound hk hpos

/-! ## LIST and NAMES -/

/-- The server with the iteration over `chanlist` at `i`. -/
def Server.atChan (s : Server) (i : Option Nat) : Server :=
  { s with chanlist := { s.chanlist with iter := i } }

/-- No iteration over `chanlist` is where it was. -/
theorem atChan_none (h : s.chanlist.iter = none) : s.atChan none = s := by
  unfold Server.atChan
  rw [← h]

/-- `list_iterator_start` on an idle list. -/
theorem startChans_idle (h : s.chanlist.iter = none) : startChans s = s.atChan (some 0) := by
  unfold startChans Server.atChan
  rw [SimList.start_of_idle h]

/-- Alone, the loop over `chanlist` sees each channel, and turns only so often. -/
theorem scanChans_talks {body : Nat → Cid → Act Unit}
    (hbody : ∀ left c i, TalksAt ok (s.atChan (some i)) (body left c)) :
    ∀ (fuel i : Nat) (out : List Event), i ≤ s.chanlist.items.length →
      s.chanlist.items.length < fuel + i →
      (scanChans body fuel).Meets ok
        ⟨fun _ w => ∃ j msgs, w = ⟨s.atChan (some j), [.lock], out ++ msgs⟩, fun _ => False,
          fun _ => False, Fails ok⟩ ⟨s.atChan (some i), [.lock], out⟩ := by
  intro fuel
  induction fuel with
  | zero => intro i out hle hlt; omega
  | succ fuel ih =>
    intro i out hle hlt
    unfold scanChans
    rw [look_bind, meets_ite]
    refine ⟨fun hmore => ?_, fun _ => ⟨i, [], by rw [List.append_nil]⟩⟩
    have hi : i < s.chanlist.items.length := of_decide_eq_true hmore
    have hentry : (s.atChan (some i)).chanlist.current = some s.chanlist.items[i] := by
      show s.chanlist.items[i]? = some s.chanlist.items[i]
      exact List.getElem?_eq_getElem hi
    rw [look_bind, change_bind, release_bind, List.erase_cons_head]
    dsimp only
    rw [hentry, deref_bind]
    show (do body fuel _; acquire .lock; scanChans body fuel : Act Unit).Meets ok _
      ⟨s.atChan (some (i + 1)), [], out⟩
    rw [meets_bind]
    refine talks_then (hbody _ _ _ out) id fun msgs => ?_
    dsimp only
    rw [acquire_bind List.not_mem_nil]
    refine (ih (i + 1) (out ++ msgs) hi (by omega)).mono ?_ (fun _ h => h) (fun _ h => h) id
    intro _ w hw
    obtain ⟨j, msgs', rfl⟩ := hw
    exact ⟨j, msgs ++ msgs', by rw [List.append_assoc]⟩

/-- The whole loop, from its start to its end. -/
theorem scanChans_then {body : Nat → Cid → Act Unit} {q : Act Unit}
    (h : s.chanlist.iter = none)
    (hbody : ∀ left c i, TalksAt ok (s.atChan (some i)) (body left c))
    (hq : ∀ out, q.Meets ok (Talks ok ⟨s, [], out⟩) ⟨s, [.lock], out⟩) :
    TalksAt ok s (do
      acquire .lock
      change startChans
      scanChans body s.fuel
      change stopChans
      q) := by
  intro out
  rw [acquire_bind List.not_mem_nil, change_bind, startChans_idle h, meets_bind]
  refine (scanChans_talks hbody s.fuel 0 out (by omega) ?_).mono ?_ (fun _ h => h)
    (fun _ h => h) id
  · unfold Server.fuel
    omega
  · intro _ w hw
    obtain ⟨j, msgs, rfl⟩ := hw
    show (change stopChans >>= fun _ => q : Act Unit).Meets ok (Talks ok ⟨s, [], out⟩) _
    rw [change_bind]
    show q.Meets ok (Talks ok ⟨s, [], out⟩) ⟨s.atChan none, [.lock], out ++ msgs⟩
    rw [atChan_none h]
    refine (hq _).mono ?_ (fun _ h => h) (fun _ h => h) id
    intro _ w hw
    obtain ⟨msgs', rfl⟩ := hw
    exact ⟨msgs ++ msgs', by rw [List.append_assoc]⟩

theorem listChan_talks {chan : Cid} : TalksAt ok s (listChan cfg self user chan) :=
  talksAt_look sendReply_talksAt

/-- LIST of everything ends its iteration. -/
theorem listAll_talks (h : Idle s) :
    TalksAt ok s (do
      acquire .lock
      change startChans
      scanChans (fun _ => listChan cfg self user) s.fuel
      change stopChans
      release .lock
      sendReply cfg self user .rplListend [] []) := by
  refine scanChans_then h.chans ?_ fun out => ?_
  · intro _ c i
    exact listChan_talks
  · rw [release_bind, List.erase_cons_head]
    exact sendReply_talksAt out

/-- LIST of a name reads through what it has found. -/
theorem handleLIST_meets (h : Idle s) {Q : Post Server Mutex Event Fault Unit}
    (hdone : (params.get 1 ≠ [] → (s.seekChan (params.get 1)).isSome) →
      ∀ out', Q.done () ⟨s, [], out'⟩)
    (hcrash : params.get 1 ≠ [] → s.seekChan (params.get 1) = none → Q.crashed .null)
    (hstuck : Fails ok → Q.stuck) :
    (handleLIST cfg self s.fuel user params).Meets ok Q ⟨s, [], out⟩ := by
  unfold handleLIST
  rw [meets_ite]
  refine ⟨fun hname => ?_, fun hname => ?_⟩
  · rw [lookChan_eq List.not_mem_nil]
    cases hfound : s.seekChan (params.get 1) with
    | none =>
      rw [deref_null_bind]
      exact hcrash hname hfound
    | some c =>
      rw [deref_bind]
      refine talks_then (talksAt_bind listChan_talks sendReply_talksAt out) hstuck fun msgs => ?_
      exact hdone (fun _ => by rw [hfound]; rfl) _
  · refine talks_then (listAll_talks h out) hstuck fun msgs => ?_
    exact hdone (fun hname' => absurd hname' hname) _

/-- It leaves the state as it was, or the process dies. -/
theorem handleLIST_ends (h : Idle s) :
    (handleLIST cfg self s.fuel user params).Meets ok (Ends cfg ok s user params .LIST)
      ⟨s, [], out⟩ :=
  handleLIST_meets h (fun _ _ => .same _) (fun hname hnone _ => .list hname hnone) id

/-- A turn of the last loop of NAMES is quiet. -/
theorem nameLoner_quiet (u : Uid) (names : CStr × Bool) : QuietTurn ok s (nameLoner u names) := by
  intro i out
  unfold nameLoner
  rw [change_bind, lockedLook_bind (by simp)]
  rfl

/-- The replies with the names only talk. -/
theorem names_talks (h : Idle s) {name : CStr} :
    TalksAt ok s (names cfg self stale s.fuel user name) := by
  unfold names
  refine talksAt_ite (fun _ => ?_) fun _ => ?_
  · unfold namesAll
    refine scanChans_then h.chans ?_ fun out => ?_
    · intro left c i
      exact sendNames_talks h.users
    · exact talksAt_scan h.users nameLoner_quiet
        (fun names => talksAt_onlyIf sendReply_talksAt) out
  · intro out
    unfold namesOne
    rw [lookChan_eq List.not_mem_nil]
    cases s.seekChan name with
    | none => exact talksAt_done out
    | some c => exact sendNames_talks h.users out

/-- The reply that is sent without the user's lock. -/
theorem bareReply_meets {code : Reply} {reply extra : CStr}
    {Q : Post Server Mutex Event Fault Unit}
    (hdone : ∀ out', Q.done () ⟨s, [], out'⟩)
    (hgone : ∀ s', s.exitUser user = some s' → Fails ok →
      (∀ out', Q.done () ⟨s', [], out'⟩) ∧ ∀ out', Q.exited ⟨s', [], out'⟩)
    (hcrash : s.exitUser user = none → Fails ok → Q.crashed .null) :
    (bareReply cfg self user code reply extra).Meets ok Q ⟨s, [], out⟩ := by
  unfold bareReply
  rw [look_bind, output_bind, onlyIf_bind]
  refine ⟨fun hfail => ?_, fun _ => hdone _⟩
  have hfails : Fails ok := ⟨out.length, by simpa using hfail⟩
  refine userExit_meets ?_ ?_ ?_
  · intro s' hexit _ out'
    exact (hgone s' hexit hfails).1 out'
  · intro s' hexit _ out'
    exact (hgone s' hexit hfails).2 out'
  · intro hexit
    exact hcrash hexit hfails

/-- The last reply is sent without `c_lock`: if it fails, the client exits. -/
theorem handleNAMES_meets (h : Idle s) {Q : Post Server Mutex Event Fault Unit}
    (hdone : ∀ out', Q.done () ⟨s, [], out'⟩)
    (hgone : (s.persons user).registered = true → ∀ s', s.exitUser user = some s' → Fails ok →
      (∀ out', Q.done () ⟨s', [], out'⟩) ∧ ∀ out', Q.exited ⟨s', [], out'⟩)
    (hcrash : (s.persons user).registered = true → s.exitUser user = none → Fails ok →
      Q.crashed .null)
    (hstuck : Fails ok → Q.stuck) :
    (handleNAMES cfg self stale s.fuel user params).Meets ok Q ⟨s, [], out⟩ := by
  unfold handleNAMES
  rw [look_bind, meets_ite]
  refine ⟨fun _ => ?_, fun hreg => ?_⟩
  · refine talks_then (sendReply_talksAt out) hstuck fun msgs => ?_
    exact hdone _
  · have hreg : (s.persons user).registered = true := by simpa using hreg
    refine ends_after (names_talks h) hstuck fun out' => ?_
    exact bareReply_meets hdone (hgone hreg) (hcrash hreg)

/-- Otherwise NAMES leaves the state as it was. -/
theorem handleNAMES_ends (h : Sane s) :
    (handleNAMES cfg self stale s.fuel user params).Meets ok (Ends cfg ok s user params .NAMES)
      ⟨s, [], out⟩ := by
  refine handleNAMES_meets h.idle (fun _ => .same _) ?_ ?_ id
  · intro hreg s' hexit hfail
    have heff : Effect cfg ok s user params .NAMES s' := .dropped hfail (Or.inl ⟨rfl, hreg⟩) hexit
    exact ⟨fun _ => heff, fun _ => heff⟩
  · intro hreg hexit _ _
    exact .names hreg ((exitUser_none_iff h).mp hexit)

/-! ## WHO -/

/-- The iterations over the channels of `vs`, except `u`'s, are stopped. -/
def Server.stopIn (s : Server) (u : Uid) (vs : List Uid) : Server :=
  { s with persons := fun v =>
      if v ∈ vs ∧ v ≠ u then (s.persons v).updChans SimList.stop else s.persons v }

theorem stopIn_nil (s : Server) (u : Uid) : s.stopIn u [] = s := by
  unfold Server.stopIn
  simp

/-- The asker's own iteration is not touched. -/
theorem stopIn_self (s : Server) (u : Uid) (vs : List Uid) :
    s.stopIn u (vs ++ [u]) = s.stopIn u vs := by
  unfold Server.stopIn
  congr 1
  funext v
  by_cases hv : v = u
  · simp [hv]
  · simp [hv]

/-- Everybody else's is stopped. -/
theorem atMyChan_stopIn (s : Server) {u v : Uid} (vs : List Uid) (h : v ≠ u) :
    (s.stopIn u vs).atMyChan v none = s.stopIn u (vs ++ [v]) := by
  unfold Server.atMyChan Server.stopIn Server.updPerson
  congr 1
  funext x
  by_cases hx : x = v
  · simp only [hx, List.mem_append, List.mem_singleton, or_true, h, ne_eq, not_false_eq_true,
      and_self, if_true, and_true]
    by_cases hv : v ∈ vs
    · rw [if_pos hv]
      rfl
    · rw [if_neg hv]
      rfl
  · simp [hx]

/-- Does `whouser` share a channel? His iteration is stopped, unless he is the user. -/
theorem sharesChan_meets {whouser : Uid} {held : List Mutex} {Q : Post Server Mutex Event Fault Bool}
    (hfree : whouser ≠ user → Mutex.cLock user ∉ held)
    (hself : whouser = user → ∀ skip, Q.done skip ⟨s, held, out⟩)
    (hother : whouser ≠ user → ∀ skip, Q.done skip ⟨s.atMyChan whouser none, held, out⟩) :
    (sharesChan user whouser).Meets ok Q ⟨s, held, out⟩ := by
  unfold sharesChan
  rw [meets_ite]
  refine ⟨fun heq => hself heq _, fun hne => ?_⟩
  rw [change_bind, startMyChans_eq, look_bind, meets_bind]
  refine meets_forEach (fun _ _ w => ∃ i, w = ⟨s.atMyChan whouser (some i), held, out⟩)
    ?_ ?_ _ _ _ ⟨_, rfl⟩
  · intro m ms skip w hw _
    obtain ⟨i, rfl⟩ := hw
    unfold sharesOne
    rw [change_bind, nextMyChan_atMyChan, lockedLook_bind (hfree hne)]
    exact ⟨i + 1, rfl⟩
  · intro ms skip w hw _
    obtain ⟨i, rfl⟩ := hw
    show (do change (stopMyChans whouser); return skip : Act Bool).Meets ok Q _
    rw [change_bind, stopMyChans_atMyChan]
    exact hother hne skip

/-- With `lock` held, `user_exit` never gets anywhere. -/
theorem userExit_lock_held {held : List Mutex} {Q : Post Server Mutex Event Fault Unit}
    (hlock : Mutex.lock ∈ held) (hstuck : Q.stuck) :
    (userExit self user).Meets ok Q ⟨s, held, out⟩ := by
  by_cases hheld : Mutex.cLock user ∈ held
  · rw [userExit_held hheld]
    exact hstuck
  · unfold userExit
    rw [acquire_bind hheld, look_bind, output_bind, change_bind, look_bind, meets_bind]
    refine meets_forEach (fun _ _ w => Mutex.lock ∈ w.held) ?_ ?_ _ _ _ (List.mem_cons_of_mem _ hlock)
    · intro m ms _ w hw _
      unfold exitChannel lookChan
      rw [change_bind, meets_bind, meets_bind, meets_acquire_held (by exact hw)]
      exact hstuck
    · intro ms _ w hw _
      show (change (stopMyChans user) >>= _ : Act Unit).Meets ok Q _
      rw [change_bind, change_bind, meets_bind, meets_acquire_held (by exact hw)]
      exact hstuck

/-- WHO's loop, when a turn for `v` after those for `vs` takes `st vs` to
`st (vs ++ [v])`. -/
theorem whoLoop_meets {turn : Uid → Unit → Act Unit} (st : List Uid → Server)
    {Q : Post Server Mutex Event Fault Unit} (hstart : st [] = s)
    (hidle : ∀ vs, (st vs).userlist.iter = none)
    (hturn : ∀ vs v i out, (turn v ()).Meets ok
      ⟨fun _ w => ∃ msgs, w = ⟨(st (vs ++ [v])).atUser (some (i + 1)), [.lock], out ++ msgs⟩,
        fun _ => False, fun _ => False, Fails ok⟩ ⟨(st vs).atUser (some i), [.lock], out⟩)
    (hdone : ∀ msgs, Q.done () ⟨st s.userlist.items, [], out ++ msgs⟩)
    (hstuck : Fails ok → Q.stuck) : (whoLoop turn).Meets ok Q ⟨s, [], out⟩ := by
  have hs : s.userlist.iter = none := by
    rw [← hstart]
    exact hidle []
  unfold whoLoop
  rw [acquire_bind List.not_mem_nil, change_bind, startUsers_idle hs, look_bind,
    remaining_atUser_zero, meets_bind]
  refine meets_forEach (fun us _ w => ∃ vs i msgs, vs ++ us = s.userlist.items ∧
    w = ⟨(st vs).atUser (some i), [.lock], out ++ msgs⟩) ?_ ?_ _ _ _
    ⟨[], 0, [], rfl, by rw [hstart, List.append_nil]⟩
  · intro v us _ w hw _
    obtain ⟨vs, i, msgs, hvs, rfl⟩ := hw
    refine (hturn vs v i (out ++ msgs)).mono ?_ (fun _ h => h.elim) (fun _ h => h.elim) hstuck
    intro _ w hw
    obtain ⟨msgs', rfl⟩ := hw
    refine ⟨vs ++ [v], i + 1, msgs ++ msgs', ?_, by rw [List.append_assoc]⟩
    rw [List.append_assoc]
    exact hvs
  · intro us _ w hw hend
    obtain ⟨vs, i, msgs, hvs, rfl⟩ := hw
    have hus : us = [] := by simpa using hend
    rw [hus, List.append_nil] at hvs
    show (do change stopUsers; release .lock : Act Unit).Meets ok Q _
    rw [change_bind, stopUsers_atUser, atUser_none (hidle vs), meets_release,
      List.erase_cons_head, hvs]
    exact hdone msgs

/-- A reply under `lock`. -/
theorem replyIf_meets {c : Bool} {code : Reply} {reply extra : CStr} {Q : Post Server Mutex Event Fault Unit}
    {held : List Mutex} (hfree : Mutex.cLock user ∉ held)
    (hdone : ∀ msgs, Q.done () ⟨s, held, out ++ msgs⟩) (hstuck : Fails ok → Q.stuck) :
    (onlyIf c (sendReply cfg self user code reply extra)).Meets ok Q ⟨s, held, out⟩ :=
  talks_then (talks_onlyIf (sendReply_talks hfree)) hstuck hdone

/-- A turn of WHO without a channel stops the iteration of the one it looks at. -/
theorem whoStranger_meets (vs : List Uid) (v : Uid) (i : Nat) (out : List Event) :
    (whoStranger cfg self user v ()).Meets ok
      ⟨fun _ w => ∃ msgs,
          w = ⟨(s.stopIn user (vs ++ [v])).atUser (some (i + 1)), [.lock], out ++ msgs⟩,
        fun _ => False, fun _ => False, Fails ok⟩
      ⟨(s.stopIn user vs).atUser (some i), [.lock], out⟩ := by
  have hrest : ∀ (skip : Bool) (t : Server), t = s.stopIn user (vs ++ [v]) → (do
      let p ← look (·.persons v)
      release (.cLock v)
      onlyIf (!skip)
        (sendReply cfg self user .rplWhoreply [] (whoLine cfg (str "*") p (whoFlags p))) :
        Act Unit).Meets ok
      ⟨fun _ w => ∃ msgs,
          w = ⟨(s.stopIn user (vs ++ [v])).atUser (some (i + 1)), [.lock], out ++ msgs⟩,
        fun _ => False, fun _ => False, Fails ok⟩
      ⟨t.atUser (some (i + 1)), [.cLock v, .lock], out⟩ := by
    intro skip t ht
    rw [ht, look_bind, release_bind, List.erase_cons_head]
    exact replyIf_meets (by simp) (fun msgs => ⟨msgs, rfl⟩) id
  unfold whoStranger
  rw [change_bind, nextUser_atUser, acquire_bind (by simp), meets_bind]
  refine sharesChan_meets ?_ ?_ ?_
  · intro hne
    simpa using fun h => hne h.symm
  · intro heq skip
    exact hrest skip (s.stopIn user vs) (by rw [heq, stopIn_self])
  · intro hne skip
    exact hrest skip ((s.stopIn user vs).atMyChan v none) (atMyChan_stopIn s vs hne)

/-- A reply about a member leaves the two mutexes as they were. -/
theorem whoReply_meets {whouser : Uid} {name : CStr} {whochan : MyChan}
    {Q : Post Server Mutex Event Fault Unit}
    (hdone : ∀ msgs, Q.done () ⟨s, [.cLock whouser, .lock], out ++ msgs⟩)
    (hstuck : Fails ok → Q.stuck) :
    (whoReply cfg self user whouser name whochan).Meets ok Q ⟨s, [.cLock whouser, .lock], out⟩ := by
  unfold whoReply
  rw [look_bind, look_bind]
  by_cases hnick : (s.persons whouser).nick = (s.persons user).nick
  · simp only [hnick, ne_eq, not_true_eq_false, decide_false]
    rw [onlyIf_bind]
    refine ⟨fun h => (Bool.false_ne_true h).elim, fun _ => ?_⟩
    rw [output_bind, onlyIf_bind]
    refine ⟨fun hfail => ?_, fun _ => hdone _⟩
    exact userExit_lock_held (by simp) (hstuck ⟨out.length, by simpa using hfail⟩)
  · have hne : user ≠ whouser := fun h => hnick (by rw [h])
    simp only [ne_eq, hnick, not_false_eq_true, decide_true]
    rw [onlyIf_bind]
    refine ⟨fun _ => ?_, fun h => (Bool.false_ne_true h.symm).elim⟩
    rw [meets_acquire_free (by simp [hne])]
    dsimp only
    rw [output_bind, onlyIf_bind]
    refine ⟨fun hfail => ?_, fun _ => ?_⟩
    · exact userExit_lock_held (by simp) (hstuck ⟨out.length, by simpa using hfail⟩)
    · rw [meets_onlyIf]
      refine ⟨fun _ => ?_, fun h => (Bool.false_ne_true h.symm).elim⟩
      rw [meets_release, List.erase_cons_head]
      exact hdone _

/-- A turn of WHO for a channel only talks. -/
theorem whoMember_meets {name : CStr} (v : Uid) (i : Nat) (out : List Event) :
    (whoMember cfg self user name v ()).Meets ok
      ⟨fun _ w => ∃ msgs, w = ⟨s.atUser (some (i + 1)), [.lock], out ++ msgs⟩,
        fun _ => False, fun _ => False, Fails ok⟩ ⟨s.atUser (some i), [.lock], out⟩ := by
  unfold whoMember
  rw [change_bind, nextUser_atUser, acquire_bind (by simp), look_bind, meets_bind]
  simp only [atUser_persons]
  cases (s.persons v).seekChan name with
  | none =>
    show ∃ msgs, _ = _
    exact ⟨[], by rw [List.append_nil, List.erase_cons_head]⟩
  | some m =>
    refine whoReply_meets ?_ id
    intro msgs
    show ∃ msgs, _ = _
    exact ⟨msgs, by rw [List.erase_cons_head]⟩

/-- What WHO leaves behind. -/
def Server.afterWho (s : Server) (u : Uid) (name : CStr) : Server :=
  if name = [] ∨ name.head? = some (chr '*') then s.stopOthers u else s

/-- WHO stops the iterations of all others, or nothing. -/
theorem handleWHO_meets (h : Idle s) {Q : Post Server Mutex Event Fault Unit}
    (hdone : ∀ out', Q.done () ⟨s.afterWho user (params.get 1), [], out'⟩)
    (hstuck : Fails ok → Q.stuck) :
    (handleWHO cfg self user params).Meets ok Q ⟨s, [], out⟩ := by
  unfold handleWHO
  unfold Server.afterWho at hdone
  by_cases hall : params.get 1 = [] ∨ (params.get 1).head? = some (chr '*')
  · rw [if_pos hall] at hdone ⊢
    rw [meets_bind]
    refine whoLoop_meets (s.stopIn user) (stopIn_nil s user) (fun _ => h.users)
      whoStranger_meets ?_ hstuck
    intro msgs
    refine talks_then (sendReply_talksAt _) hstuck fun msgs' => ?_
    exact hdone _
  · rw [if_neg hall] at hdone ⊢
    rw [meets_bind]
    refine whoLoop_meets (fun _ => s) rfl (fun _ => h.users) (fun _ => whoMember_meets) ?_ hstuck
    intro msgs
    refine talks_then (sendReply_talksAt _) hstuck fun msgs' => ?_
    exact hdone _

/-- That is all it changes. -/
theorem handleWHO_ends (h : Idle s) :
    (handleWHO cfg self user params).Meets ok (Ends cfg ok s user params .WHO) ⟨s, [], out⟩ := by
  refine handleWHO_meets h ?_ id
  intro out'
  show Effect cfg ok s user params .WHO (s.afterWho user (params.get 1))
  unfold Server.afterWho
  by_cases hall : params.get 1 = [] ∨ (params.get 1).head? = some (chr '*')
  · rw [if_pos hall]
    exact .who hall
  · rw [if_neg hall]
    exact .same _

end UchiNetworks.Chirc
