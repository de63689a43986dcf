import UchiNetworks.Chirc.LineRoom
import UchiNetworks.Chirc.Lookups

/-!
# chirc: the lists of names

What NAMES hands out, to the last character. `send_names` cuts each nick to the room
that it takes from the `strlen` of its `reply`, in which nothing has been written yet.
What is cut shows if the line that is sent has room for the first character of a nick
(`shown_of_unseen`, `unseen_of_shown`).
-/

namespace UchiNetworks.Chirc

open UchiNetworks.Lib
open Prog

variable {cfg : Config} {self user : Uid} {ok : Nat → Bool} {s : Server} {out : List Event}
  {stale : Nat → Nat} {junk : Nat}

/-! ## What is handed out -/

/-- What a user's turn appends to `chanusers`. -/
def nameMember (junk : Nat) (cname : CStr) (p : Person) (names : CStr × Bool) : CStr × Bool :=
  ((p.seekChan cname).map fun m => addMember junk m p.nick names).getD names

/-- What is in `chanusers` before the first member. -/
def namesHead (cname : CStr) : CStr := str "= " ++ cname ++ str " :"

/-- The loop that fills `chanusers`. -/
def namesLoop (junk : Nat) (cname : CStr) (users : List Person) (names : CStr × Bool) :
    CStr × Bool :=
  foldWhile (fun names => names.1.length < maxMsg - 3) (nameMember junk cname) users names

/-- `chanusers` at the end of the loop. -/
def chanusers (junk : Nat) (cname : CStr) (users : List Person) : CStr :=
  (namesLoop junk cname users (namesHead cname, true)).1

/-- The records in `userlist`. -/
def Server.users (s : Server) : List Person := s.userlist.items.map s.persons

/-- The reply of `send_names`. -/
def Server.namesReply (cfg : Config) (s : Server) (u : Uid) (junk : Nat) (c : Cid) : Event :=
  s.reply cfg u .rplNamreply [] (chanusers junk (s.channels c).name s.users)

/-- The channels that NAMES lists. -/
def Server.namedChans (s : Server) (name : CStr) : List Cid :=
  if name = [] then s.chanlist.items else (s.seekChan name).toList

/-- `antisocial` at the end of the loop. -/
def Server.antisocial (s : Server) : CStr :=
  (foldWhile (fun names => names.1.length + 1 < maxMsg) addLoner s.users (str "* * :", true)).1

/-- The reply with the users on no channel, if there is anybody. -/
def Server.lonersReply (cfg : Config) (s : Server) (u : Uid) : List Event :=
  if s.antisocial.length > (str "* * :").length then
    [s.reply cfg u .rplNamreply [] s.antisocial]
  else []

/-! ## The loops -/

/-- A scan of the users under `lock` that folds their records. -/
theorem scan_folds {β γ : Type} {go : β → Bool} {body : Uid → β → Act β} (turn : Person → β → β)
    {b : β} {q : β → Act γ} {Q : Post Server Mutex Event Fault γ} (h : s.userlist.iter = none)
    (hbody : ∀ u b i out, (body u b).Meets ok
      ⟨fun b' w' => b' = turn (s.persons u) b ∧ w' = ⟨s.atUser (some (i + 1)), [.lock], out⟩,
        fun _ => False, fun _ => False, Fails ok⟩ ⟨s.atUser (some i), [.lock], out⟩)
    (hstuck : Fails ok → Q.stuck)
    (hq : (q (foldWhile go turn s.users b)).Meets ok Q ⟨s, [], out⟩) :
    (do
      change startUsers
      let users ← look (·.userlist.remaining)
      let b' ← forEach go body users b
      change stopUsers
      release .lock
      q b').Meets ok Q ⟨s, [.lock], out⟩ := by
  rw [change_bind, startUsers_idle h, look_bind, remaining_atUser_zero, meets_bind]
  -- the fold over the users that are left comes to what it comes to from the start
  refine forEach_users (fun us b' out' => out' = out ∧
    foldWhile go turn (us.map s.persons) b' = foldWhile go turn s.users b) ?_ ?_ ⟨rfl, rfl⟩
  · intro u us b' out' i hin hgo
    obtain ⟨hout, hfold⟩ := hin
    refine (hbody u b' i out').mono ?_ (fun _ h => h.elim) (fun _ h => h.elim) hstuck
    intro b'' w' hw
    obtain ⟨rfl, rfl⟩ := hw
    refine ⟨out', rfl, hout, ?_⟩
    rw [← hfold, List.map_cons, foldWhile_go hgo]
  · intro us b' out' i hin hend
    obtain ⟨rfl, hfold⟩ := hin
    have hstop : us.map s.persons = [] ∨ go b' = false := by simpa using hend
    rw [foldWhile_stop hstop] at hfold
    show (change stopUsers >>= _ : Act γ).Meets ok Q _
    rw [change_bind, stopUsers_atUser, atUser_none h, release_bind, List.erase_cons_head, hfold]
    exact hq

/-- `send_names` sends one reply. -/
theorem sendNames_saysAt {chan : Cid} (h : s.userlist.iter = none) :
    SaysAt ok s (sendNames cfg self junk user chan) [s.namesReply cfg user junk chan] := by
  unfold sendNames
  refine saysAt_lockedLook fun out => ?_
  rw [acquire_bind List.not_mem_nil]
  refine scan_folds (nameMember junk (s.channels chan).name) h ?_ id
    (sendReply_saysAt out)
  intro u names i out
  unfold nameUser
  rw [change_bind, lockedLook_bind (by simp)]
  exact ⟨rfl, rfl⟩

/-- Alone, the loop over `chanlist` deals with each channel that is left. -/
theorem scanChans_said {body : Nat → Cid → Act Unit} {said : Cid → List Event}
    (hbody : ∀ left i, ∀ c ∈ s.chanlist.items,
      SaysAt ok (s.atChan (some i)) (body left c) (said c)) :
    ∀ (fuel i : Nat) (out : List Event), i ≤ s.chanlist.items.length →
      s.chanlist.items.length < fuel + i →
      (scanChans body fuel).Meets ok
        (Says ok ⟨s.atChan (some s.chanlist.items.length), [.lock], out⟩
          ((s.chanlist.items.drop i).flatMap said)) ⟨s.atChan (some i), [.lock], out⟩ := by
  intro fuel
  induction fuel with
  | zero => intro i out hle hlt; omega
  | succ fuel ih =>
    intro i out hle hlt
    unfold scanChans
    rw [look_bind, meets_ite]
    refine ⟨fun hmore => ?_, fun hmore => ?_⟩
    · have hi : i < s.chanlist.items.length := of_decide_eq_true hmore
      have hentry : (s.atChan (some i)).chanlist.current = some s.chanlist.items[i] := by
        show s.chanlist.items[i]? = some s.chanlist.items[i]
        exact List.getElem?_eq_getElem hi
      rw [look_bind, change_bind, release_bind, List.erase_cons_head]
      dsimp only
      rw [hentry, deref_bind, List.drop_eq_getElem_cons hi, List.flatMap_cons]
      show (do body fuel _; acquire .lock; scanChans body fuel : Act Unit).Meets ok _
        ⟨s.atChan (some (i + 1)), [], out⟩
      rw [meets_bind]
      refine says_then (hbody fuel (i + 1) _ (List.getElem_mem hi) out) id ?_
      dsimp only
      rw [acquire_bind List.not_mem_nil]
      refine says_then (ih (i + 1) _ hi (by omega)) id ?_
      show _ = _
      rw [List.append_assoc]
    · have hi : ¬ i < s.chanlist.items.length := fun hlt => hmore (decide_eq_true hlt)
      have hend : i = s.chanlist.items.length := by omega
      show _ = _
      rw [hend, List.drop_length, List.flatMap_nil, List.append_nil]

/-- NAMES for all channels, when the replies do not depend on the turn. -/
theorem namesAll_saysAt (h : Idle s) {reply : Cid → Event}
    (hreply : ∀ left, ∀ c ∈ s.chanlist.items, s.namesReply cfg user (stale left) c = reply c) :
    SaysAt ok s (namesAll cfg self stale s.fuel user)
      (s.chanlist.items.map reply ++ s.lonersReply cfg user) := by
  intro out
  unfold namesAll
  rw [acquire_bind List.not_mem_nil, change_bind, startChans_idle h.chans, meets_bind]
  have hbody : ∀ left i, ∀ c ∈ s.chanlist.items,
      SaysAt ok (s.atChan (some i)) (sendNames cfg self (stale left) user c) [reply c] := by
    intro left i c hc
    rw [← hreply left c hc]
    exact sendNames_saysAt (s := s.atChan (some i)) h.users
  refine says_then (scanChans_said hbody s.fuel 0 out (by omega) ?_) id ?_
  · unfold Server.fuel
    omega
  · dsimp only
    have hstopped : stopChans (s.atChan (some s.chanlist.items.length)) = s := atChan_none h.chans
    rw [change_bind, List.drop_zero, hstopped, ← List.map_eq_flatMap]
    refine scan_folds addLoner h.users ?_ id ?_
    · intro u names i out
      unfold nameLoner
      rw [change_bind, lockedLook_bind (by simp)]
      exact ⟨rfl, rfl⟩
    · show (onlyIf (s.antisocial.length > (str "* * :").length)
        (sendReply cfg self user .rplNamreply [] s.antisocial)).Meets ok _ _
      unfold Server.lonersReply
      by_cases hany : s.antisocial.length > (str "* * :").length
      · rw [if_pos hany, decide_eq_true hany]
        refine says_then (sendReply_saysAt _) id ?_
        show _ = _
        rw [List.append_assoc]
      · rw [if_neg hany, decide_eq_false hany, List.append_nil]
        rfl

/-- The replies with the names. -/
theorem names_saysAt (h : Idle s) {name : CStr} {reply : Cid → Event}
    (hreply : ∀ left, ∀ c ∈ s.namedChans name, s.namesReply cfg user (stale left) c = reply c) :
    SaysAt ok s (names cfg self stale s.fuel user name)
      ((s.namedChans name).map reply ++ if name = [] then s.lonersReply cfg user else []) := by
  unfold names Server.namedChans at *
  by_cases hall : name = []
  · simp only [if_pos hall] at hreply ⊢
    exact namesAll_saysAt h hreply
  · simp only [if_neg hall, List.append_nil] at hreply ⊢
    intro out
    unfold namesOne
    rw [lookChan_eq List.not_mem_nil]
    cases hfound : s.seekChan name with
    | none => exact saysAt_done out
    | some c =>
      rw [hfound] at hreply
      rw [Option.toList_some, List.map_singleton, ← hreply 0 c (by simp)]
      exact sendNames_saysAt h.users out

/-- The reply without the lock, when it can be sent. -/
theorem bareReply_saysAt {code : Reply} {reply extra : CStr} :
    SaysAt allOk s (bareReply cfg self user code reply extra)
      [s.reply cfg user code reply extra] := by
  intro out
  unfold bareReply
  rw [look_bind, output_bind, onlyIf_bind]
  refine ⟨fun hfail => ?_, fun _ => ?_⟩
  · exact absurd hfail (by simp [allOk])
  · rw [meets_release]
    rfl

/-- **What NAMES hands out** to a registered user. -/
def Server.names (cfg : Config) (s : Server) (u : Uid) (name : CStr) (reply : Cid → Event) :
    List Event :=
  (s.namedChans name).map reply ++
    ((if name = [] then s.lonersReply cfg u else []) ++ [s.reply cfg u .rplEndofnames [] (str "*")])

theorem handleNAMES_saysAt (h : Idle s) {params : Params} {reply : Cid → Event}
    (hreg : (s.persons user).registered = true)
    (hreply : ∀ left, ∀ c ∈ s.namedChans (params.get 1),
      s.namesReply cfg user (stale left) c = reply c) :
    SaysAt allOk s (handleNAMES cfg self stale s.fuel user params)
      (s.names cfg user (params.get 1) reply) := by
  intro out
  unfold handleNAMES Server.names
  rw [look_bind, hreg, if_neg (by simp), ← List.append_assoc]
  exact saysAt_bind (names_saysAt h hreply) bareReply_saysAt out

/-! ## What shows of the nicks -/

/-- No nick gets into the `room` characters that are left for the members: the marks
and blanks of those without one fill it before the first that has one. -/
def unseen (cname : CStr) : Nat → List Person → Bool
  | _, [] => true
  | room, p :: users =>
    match p.seekChan cname with
    | none => unseen cname room users
    | some m =>
      if p.nick = [] then unseen cname (room - (statusWidth m.mode + 1)) users
      else room ≤ statusWidth m.mode

/-- How much of `chanusers` shows in a reply to `p`. -/
def shownWidth (cfg : Config) (p : Person) : Nat :=
  maxMsg - 3 - (cfg.servername.length + p.nick.length + 7)

/-- Two lists give the same reply when they agree as far as they show. -/
theorem namReply_eq_iff {p : Person} (hnick : p.nick ≠ []) {x y : CStr} :
    constrReply cfg .rplNamreply p [] x = constrReply cfg .rplNamreply p [] y ↔
      x.take (shownWidth cfg p) = y.take (shownWidth cfg p) := by
  have hwidth : (str ":" ++ cfg.servername ++ str " " ++ str "353" ++ str " " ++ p.nick ++
      str " ").length = cfg.servername.length + p.nick.length + 7 := by
    simp [str]
    omega
  have hreply : ∀ z, constrReply cfg .rplNamreply p [] z =
      (str ":" ++ cfg.servername ++ str " " ++ str "353" ++ str " " ++ p.nick ++ str " ").take
        (maxMsg - 3) ++ z.take (shownWidth cfg p) ++ [CR, LF] := by
    intro z
    unfold constrReply crlf snprintf shownWidth
    rw [if_neg hnick, ← hwidth, ← List.take_append]
    rfl
  rw [hreply, hreply, List.append_left_inj, List.append_right_inj]

variable {m : MyChan} {p : Person} {users : List Person} {names : CStr × Bool} {cname : CStr}
  {R : Nat}

/-- What a member's nick is appended to. -/
def beforeNick (m : MyChan) (names : CStr × Bool) : CStr :=
  names.1 ++ pieceIf (!names.2) (str " ") ++ pieceIf (hasMode m.mode modeO) (str "@") ++
    pieceIf (hasMode m.mode modeV) (str "+")

theorem addMember_before {nick : CStr} :
    addMember junk m nick names = (beforeNick m names ++ strncat (maxMsg - junk) nick, false) :=
  addMember_eq

theorem length_beforeNick :
    (beforeNick m names).length = names.1.length + gap names.2 + statusWidth m.mode := by
  unfold beforeNick
  rw [length_marked, length_blank]

theorem namesLoop_full {cname : CStr} (h : ¬ names.1.length < maxMsg - 3) :
    namesLoop junk cname users names = names :=
  foldWhile_stop (Or.inr (decide_eq_false h))

theorem namesLoop_cons {cname : CStr} (h : names.1.length < maxMsg - 3) :
    namesLoop junk cname (p :: users) names =
      namesLoop junk cname users (nameMember junk cname p names) :=
  if_pos (decide_eq_true h)

/-- The turn of a member. -/
theorem namesLoop_member {cname : CStr} (h : names.1.length < maxMsg - 3)
    (hseek : p.seekChan cname = some m) : namesLoop junk cname (p :: users) names =
      namesLoop junk cname users (beforeNick m names ++ strncat (maxMsg - junk) p.nick, false) := by
  rw [namesLoop_cons h, ← addMember_before]
  unfold nameMember
  rw [hseek]
  rfl

/-- The turn of somebody else. -/
theorem namesLoop_stranger {cname : CStr} (h : names.1.length < maxMsg - 3)
    (hseek : p.seekChan cname = none) :
    namesLoop junk cname (p :: users) names = namesLoop junk cname users names := by
  rw [namesLoop_cons h]
  unfold nameMember
  rw [hseek]
  rfl

/-- The loop only appends, and what it appends to others begins with a blank. -/
theorem namesLoop_appends (junk : Nat) (cname : CStr) :
    ∀ (users : List Person) (names : CStr × Bool),
    ∃ more, (namesLoop junk cname users names).1 = names.1 ++ more ∧
      (names.2 = false → ∀ c, more.head? = some c → c = chr ' ')
  | [], names => ⟨[], (List.append_nil _).symm, fun _ c hc => by cases hc⟩
  | p :: users, names => by
    by_cases hgo : names.1.length < maxMsg - 3
    · cases hseek : p.seekChan cname with
      | none =>
        rw [namesLoop_stranger hgo hseek]
        exact namesLoop_appends junk cname users names
      | some m =>
        obtain ⟨more, hmore, -⟩ := namesLoop_appends junk cname users
          (beforeNick m names ++ strncat (maxMsg - junk) p.nick, false)
        rw [namesLoop_member hgo hseek, hmore]
        refine ⟨pieceIf (!names.2) (str " ") ++ pieceIf (hasMode m.mode modeO) (str "@") ++
          pieceIf (hasMode m.mode modeV) (str "+") ++ strncat (maxMsg - junk) p.nick ++ more, ?_,
          fun hsome c hc => ?_⟩
        · simp [beforeNick]
        · rw [hsome] at hc
          exact (Option.some.inj hc).symm
    · rw [namesLoop_full hgo]
      exact ⟨[], (List.append_nil _).symm, fun _ c hc => by cases hc⟩

theorem strncat_nil (n : Int) : strncat n [] = [] := by
  unfold strncat
  simp

/-- What is left of the room after a member without a nick. -/
theorem room_after_mark : R - ((beforeNick m names).length + gap false) =
    R - (names.1.length + gap names.2) - (statusWidth m.mode + 1) := by
  rw [length_beforeNick]
  unfold gap
  simp only [Bool.false_eq_true, if_false]
  omega

/-- **What shows does not depend on `reply`** where no nick shows. -/
theorem shown_of_unseen (cname : CStr) (hR : R ≤ maxMsg - 3) (junk junk' : Nat) :
    ∀ (users : List Person) (names : CStr × Bool),
      unseen cname (R - (names.1.length + gap names.2)) users = true →
      (namesLoop junk cname users names).1.take R = (namesLoop junk' cname users names).1.take R
  | [], names, _ => rfl
  | p :: users, names, h => by
    by_cases hgo : names.1.length < maxMsg - 3
    · unfold unseen at h
      cases hseek : p.seekChan cname with
      | none =>
        rw [hseek] at h
        rw [namesLoop_stranger hgo hseek, namesLoop_stranger hgo hseek]
        exact shown_of_unseen cname hR junk junk' users names h
      | some m =>
        rw [hseek] at h
        dsimp only at h
        rw [namesLoop_member hgo hseek, namesLoop_member hgo hseek]
        by_cases hnick : p.nick = []
        · rw [if_pos hnick, ← room_after_mark] at h
          rw [hnick, strncat_nil, strncat_nil, List.append_nil]
          exact shown_of_unseen cname hR junk junk' users (beforeNick m names, false) h
        · -- the room is full before the nick
          rw [if_neg hnick] at h
          have hfull : R ≤ (beforeNick m names).length := by
            have hle := of_decide_eq_true h
            rw [length_beforeNick]
            omega
          have hshown : ∀ k : Nat, (namesLoop k cname users
              (beforeNick m names ++ strncat (maxMsg - k) p.nick, false)).1.take R =
              (beforeNick m names).take R := by
            intro k
            obtain ⟨more, hmore, -⟩ := namesLoop_appends k cname users
              (beforeNick m names ++ strncat (maxMsg - k) p.nick, false)
            rw [hmore, List.append_assoc]
            exact List.take_append_of_le_length hfull
          rw [hshown, hshown]
    · rw [namesLoop_full hgo, namesLoop_full hgo]

theorem unseen_zero (cname : CStr) (users : List Person) : unseen cname 0 users = true := by
  induction users with
  | nil => rfl
  | cons p users ih =>
    unfold unseen
    cases p.seekChan cname with
    | none => exact ih
    | some m =>
      dsimp only
      rw [Nat.zero_sub, ih]
      simp

/-- One line has a nick's first character where the other has a blank or ends. -/
theorem shown_ne {before nick more more' : CStr} (hlen : before.length < R) (hnick : nick ≠ [])
    (hword : nick.head? ≠ some (chr ' ')) (hblank : ∀ c, more'.head? = some c → c = chr ' ') :
    (before ++ nick ++ more).take R ≠ (before ++ more').take R := by
  intro heq
  have hat := congrArg (fun shown : CStr => shown[before.length]?) heq
  simp only [List.getElem?_take_of_lt hlen, List.append_assoc,
    List.getElem?_append_right (Nat.le_refl _), Nat.sub_self] at hat
  cases nick with
  | nil => exact hnick rfl
  | cons c nick =>
    have hfirst : more'.head? = some c := by
      rw [List.head?_eq_getElem?, ← hat]
      rfl
    rw [hblank c hfirst] at hword
    exact hword rfl

/-- **Where a nick shows, it can be cut away**: `reply` has no characters, or 512. -/
theorem unseen_of_shown (cname : CStr) (hR : R ≤ maxMsg - 3) :
    ∀ (users : List Person) (names : CStr × Bool),
      (∀ p ∈ users, p.nick.head? ≠ some (chr ' ')) →
      (namesLoop 0 cname users names).1.take R = (namesLoop maxMsg cname users names).1.take R →
      unseen cname (R - (names.1.length + gap names.2)) users = true
  | [], _, _, _ => rfl
  | p :: users, names, hwords, h => by
    have hrest : ∀ q ∈ users, q.nick.head? ≠ some (chr ' ') :=
      fun q hq => hwords q (List.mem_cons_of_mem _ hq)
    by_cases hgo : names.1.length < maxMsg - 3
    · unfold unseen
      cases hseek : p.seekChan cname with
      | none =>
        rw [namesLoop_stranger hgo hseek, namesLoop_stranger hgo hseek] at h
        exact unseen_of_shown cname hR users names hrest h
      | some m =>
        rw [namesLoop_member hgo hseek, namesLoop_member hgo hseek] at h
        dsimp only
        by_cases hnick : p.nick = []
        · rw [hnick, strncat_nil, strncat_nil, List.append_nil] at h
          rw [if_pos hnick, ← room_after_mark]
          exact unseen_of_shown cname hR users (beforeNick m names, false) hrest h
        · rw [if_neg hnick]
          by_contra hroom
          have hshows : (beforeNick m names).length < R := by
            have hlt := of_decide_eq_false (eq_false_of_ne_true hroom)
            rw [length_beforeNick]
            omega
          have hword := hwords p List.mem_cons_self
          have hwhole : strncat (maxMsg - (0 : Nat)) p.nick ≠ [] ∧
              (strncat (maxMsg - (0 : Nat)) p.nick).head? ≠ some (chr ' ') := by
            unfold strncat
            cases hp : p.nick with
            | nil => exact absurd hp hnick
            | cons c nick =>
              rw [hp] at hword
              exact ⟨by simp [maxMsg], by simpa [maxMsg] using hword⟩
          have hcut : strncat (maxMsg - maxMsg) p.nick = [] := by simp [strncat]
          obtain ⟨more, hmore, -⟩ := namesLoop_appends 0 cname users
            (beforeNick m names ++ strncat (maxMsg - (0 : Nat)) p.nick, false)
          obtain ⟨more', hmore', hblank⟩ := namesLoop_appends maxMsg cname users
            (beforeNick m names ++ strncat (maxMsg - maxMsg) p.nick, false)
          rw [hmore, hmore', hcut, List.append_nil] at h
          exact shown_ne hshows hwhole.1 hwhole.2 (hblank rfl) h
    · rw [show R - (names.1.length + gap names.2) = 0 by omega]
      exact unseen_zero cname (p :: users)

/-! ## The replies -/

/-- No nick shows in the list of the channel that `u` gets. -/
def Server.nicksUnseen (cfg : Config) (s : Server) (u : Uid) (c : Cid) : Bool :=
  unseen (s.channels c).name
    (shownWidth cfg (s.persons u) - (namesHead (s.channels c).name).length) s.users

variable {u : Uid} {c : Cid}

theorem namesReply_eq_iff (hreg : (s.persons u).registered = true) {junk' : Nat} :
    s.namesReply cfg u junk c = s.namesReply cfg u junk' c ↔
      (chanusers junk (s.channels c).name s.users).take (shownWidth cfg (s.persons u)) =
        (chanusers junk' (s.channels c).name s.users).take (shownWidth cfg (s.persons u)) := by
  unfold Server.namesReply Server.reply
  rw [Event.send.injEq, and_iff_right rfl, namReply_eq_iff (of_decide_eq_true hreg).1]

/-- Where no nick shows, the reply does not depend on what is in `reply`. -/
theorem namesReply_of_unseen (hreg : (s.persons u).registered = true)
    (h : s.nicksUnseen cfg u c = true) (junk junk' : Nat) :
    s.namesReply cfg u junk c = s.namesReply cfg u junk' c :=
  (namesReply_eq_iff hreg).mpr (shown_of_unseen _ (Nat.sub_le _ _) junk junk' s.users
    (namesHead _, true) h)

/-- Where it does not, no nick shows. -/
theorem unseen_of_namesReply (hreg : (s.persons u).registered = true)
    (hwords : ∀ v, (s.persons v).nick.head? ≠ some (chr ' '))
    (h : s.namesReply cfg u 0 c = s.namesReply cfg u maxMsg c) : s.nicksUnseen cfg u c = true := by
  refine unseen_of_shown _ (Nat.sub_le _ _) s.users (namesHead _, true) ?_
    ((namesReply_eq_iff hreg).mp h)
  intro p hp
  obtain ⟨v, -, rfl⟩ := List.mem_map.mp hp
  exact hwords v

end UchiNetworks.Chirc
