import UchiNetworks.Chirc.Turn

/-!
# chirc: lookups that find nothing

`list_seek` returns a null pointer when nothing matches. `NullCause` lists where a
message makes its handler read through one; that a handler does so only there is
part of `parse_ends`, and here is the converse: there it does.

In two of the cases, NAMES and MODE, a reply has to fail first. The sends before
it work (`handleNAMES_null`), because what a run does depends on its own outputs
only (`run_congr`).
-/

namespace UchiNetworks.Chirc

open UchiNetworks.Lib
open Prog

variable {cfg : Config} {self user : Uid} {ok : Nat → Bool} {s : Server} {out : List Event}
  {params : Params} {stale : Nat → Nat}

/-- The program reads through a null pointer. -/
def Crashes : Post Server Mutex Event Fault Unit :=
  ⟨fun _ _ => False, fun _ => False, fun f => f = .null, False⟩

/-- All outputs work. -/
def allOk (_ : Nat) : Bool := true

theorem not_fails_allOk : ¬ Fails allOk := by
  intro hfail
  obtain ⟨n, hn⟩ := hfail
  cases hn

theorem crashed_of_meets {p : Act Unit} {w : World Server Mutex Event}
    (h : p.Meets ok Crashes w) : ∃ w', p.run ok w = .crashed .null w' := by
  unfold Prog.Meets at h
  cases hrun : p.run ok w with
  | done a w' => rw [hrun] at h; exact h.elim
  | exited w' => rw [hrun] at h; exact h.elim
  | crashed f w' =>
    rw [hrun] at h
    have hf : f = .null := h
    exact ⟨w', by rw [hf]⟩
  | stuck w' => rw [hrun] at h; exact h.elim

/-- What only talks and does not fail is done. -/
theorem done_of_talks {p : Act Unit} (out : List Event) (h : TalksAt allOk s p) :
    ∃ out', p.run allOk ⟨s, [], out⟩ = .done () ⟨s, [], out'⟩ := by
  have hmeets := h out
  unfold Prog.Meets at hmeets
  cases hrun : p.run allOk ⟨s, [], out⟩ with
  | done a w' =>
    rw [hrun] at hmeets
    obtain ⟨msgs, rfl⟩ := hmeets
    exact ⟨out ++ msgs, rfl⟩
  | exited w' => rw [hrun] at hmeets; exact hmeets.elim
  | crashed f w' => rw [hrun] at hmeets; exact hmeets.elim
  | stuck w' => rw [hrun] at hmeets; exact (not_fails_allOk hmeets).elim

/-! ## The handlers -/

theorem handleNICK_null (h : Idle s) (hfree : s.seekNick (params.get 1) = none)
    (hnick : (s.persons user).nick ≠ []) (hlost : s.lost (s.persons user).toVisit) :
    (handleNICK cfg self user params).Meets allOk Crashes ⟨s, [], out⟩ := by
  refine handleNICK_meets h ?_ ?_ (fun _ _ _ => rfl) ?_ not_fails_allOk
  · intro htaken
    exact absurd hfree htaken
  · intro _ _ hfound
    exact absurd hlost hfound
  · intro _ hnone
    exact absurd hnone hnick

theorem handleQUIT_null (h : Sane s) (hlost : s.lost (s.persons user).myChans.items) :
    (handleQUIT self user params).Meets allOk Crashes ⟨s, [], out⟩ := by
  have hexit := (exitUser_stopped_none_iff h).mpr hlost
  unfold handleQUIT
  rw [look_bind, meets_bind]
  refine sendtoallchans_meets h.idle.users ?_ (fun _ => rfl) not_fails_allOk
  intro _ msgs
  show (do
    acquire (.cLock user)
    let _ ← output _
    release (.cLock user)
    userExit self user : Act Unit).Meets allOk Crashes _
  rw [acquire_bind List.not_mem_nil, output_bind, release_bind, List.erase_cons_head]
  refine userExit_meets ?_ ?_ (fun _ => rfl)
  · intro s' hsome
    rw [hexit] at hsome
    cases hsome
  · intro s' hsome
    rw [hexit] at hsome
    cases hsome

theorem notice_none {c : Cid} (hreg : (s.persons user).registered = true)
    (hfound : s.seekChan (params.get 1) = some c) (hmod : hasMode (s.channels c).mode modeM)
    (hoper : hasMode (s.persons user).mode modeO = false)
    (hoff : (s.persons user).seekChan (params.get 1) = none) : s.notice cfg user params = none := by
  have hmutes : s.mutes user c (params.get 1) = none := by
    unfold Server.mutes
    rw [hmod, hoper, hoff]
    rfl
  unfold Server.notice
  rw [if_neg (by simp [hreg]), hfound]
  unfold Server.noticeChan
  dsimp only
  rw [hmutes]
  rfl

theorem handleTOPIC_null (hon : (s.persons user).onChan (params.get 1) = true)
    (hnone : s.seekChan (params.get 1) = none) :
    (handleTOPIC cfg self user params).Meets ok Crashes ⟨s, [], out⟩ := by
  unfold handleTOPIC
  rw [lookChan_eq List.not_mem_nil, look_bind]
  dsimp only
  rw [hon, if_neg (by simp), hnone, meets_ite]
  refine ⟨fun _ => ?_, fun _ => ?_⟩
  · unfold topicReply
    rw [deref_null_bind]
    rfl
  · rw [deref_null_bind]
    rfl

/-- The reply without the lock fails, and the client's channels cannot be left. -/
theorem bareReply_null {code : Reply} {reply extra : CStr} (hfail : ok out.length = false)
    (hexit : s.exitUser user = none) :
    (bareReply cfg self user code reply extra).Meets ok Crashes ⟨s, [], out⟩ := by
  unfold bareReply
  rw [look_bind, output_bind, onlyIf_bind]
  refine ⟨fun _ => userExit_meets ?_ ?_ (fun _ => rfl), fun hok => ?_⟩
  · intro s' hsome
    rw [hexit] at hsome
    cases hsome
  · intro s' hsome
    rw [hexit] at hsome
    cases hsome
  · dsimp only at hok
    rw [hfail] at hok
    cases hok

theorem handleNAMES_null (h : Idle s) (hreg : (s.persons user).registered = true)
    (hexit : s.exitUser user = none) :
    ∃ ok, (handleNAMES cfg self stale s.fuel user params).Meets ok Crashes ⟨s, [], []⟩ := by
  have htalks : TalksAt allOk s (names cfg self stale s.fuel user (params.get 1)) := names_talks h
  obtain ⟨out, hrun⟩ := done_of_talks [] htalks
  refine ⟨fun n => n ≠ out.length, ?_⟩
  have hsame : ∀ n < out.length, decide (n ≠ out.length) = allOk n := by
    intro n hn
    exact decide_eq_true (Nat.ne_of_lt hn)
  unfold handleNAMES
  rw [look_bind]
  dsimp only
  rw [hreg, if_neg (by simp), meets_bind]
  unfold Prog.Meets
  rw [run_congr hrun hsame]
  exact bareReply_null (by simp) hexit

theorem modeMember_null {c : Cid} (hthree : params.get 3 ≠ [])
    (hfound : s.seekChan (params.get 1) = some c) (hrefused : s.modeRefused user params)
    (hexit : s.exitUser user = none) :
    (handleMODE cfg self user params).Meets (fun _ => false) Crashes ⟨s, [], []⟩ := by
  have hbare : ∀ {code reply extra}, (bareReply cfg self user code reply extra).Meets
      (fun _ => false) Crashes ⟨s, [], []⟩ := bareReply_null rfl hexit
  unfold handleMODE
  rw [if_pos hthree, lookChan_eq List.not_mem_nil, hfound]
  unfold modeMemberChan
  rw [lockedLook_bind List.not_mem_nil, look_bind, meets_ite]
  refine ⟨fun _ => hbare, fun hyes => ?_⟩
  have hboth := isOper_iff.mp (by simpa using hyes)
  have htarget : ∀ t, s.seekUser (params.get 3) = some t →
      (s.persons t).onChan (params.get 1) = false := by
    cases hrefused with
    | inl hno => exact absurd hboth hno
    | inr htarget => exact htarget
  rw [lockedLook_bind List.not_mem_nil]
  dsimp only
  cases hseek : s.seekUser (params.get 3) with
  | none => exact hbare
  | some t =>
    unfold modeMemberTarget
    rw [look_bind]
    dsimp only
    rw [htarget t hseek, if_pos (by simp)]
    exact hbare

theorem modeChannel_null {c : Cid} (hthree : params.get 3 = [])
    (hhash : (params.get 1).head? = some (chr '#')) (hfound : s.seekChan (params.get 1) = some c)
    (hset : params.get 2 ≠ []) (hoper : hasMode (s.persons user).mode modeO = false)
    (hoff : (s.persons user).seekChan (params.get 1) = none) :
    (handleMODE cfg self user params).Meets ok Crashes ⟨s, [], out⟩ := by
  have hlacks : s.lacksOper user (params.get 1) = none := by
    unfold Server.lacksOper
    rw [hoper, hoff]
    rfl
  unfold handleMODE
  rw [if_neg (by simp [hthree]), if_pos hhash, lookChan_eq List.not_mem_nil, hfound]
  unfold modeChannel
  rw [look_bind, if_neg hset, lacksOper_bind, hlacks, deref_null_bind]
  rfl

/-- Where a message has cause to, its handler reads through a null pointer. -/
theorem dispatch_null (h : Sane s) {c : Command} (hcause : NullCause s user params c) :
    ∃ ok, (dispatch cfg self stale s.fuel user params c).Meets ok Crashes s.world := by
  cases hcause with
  | rename hfree hnick hlost => exact ⟨allOk, handleNICK_null h.idle hfree hnick hlost⟩
  | quit hlost => exact ⟨allOk, handleQUIT_null h hlost⟩
  | notice hreg hfound hmod hoper hoff =>
    exact ⟨allOk, handleNOTICE_null (notice_none hreg hfound hmod hoper hoff) rfl not_fails_allOk⟩
  | topic hon hnone => exact ⟨allOk, handleTOPIC_null hon hnone⟩
  | list hname hnone =>
    refine ⟨allOk, handleLIST_meets h.idle ?_ (fun _ _ => rfl) not_fails_allOk⟩
    intro hfound
    have hsome := hfound hname
    rw [hnone] at hsome
    cases hsome
  | names hreg hlost => exact handleNAMES_null h.idle hreg ((exitUser_none_iff h).mpr hlost)
  | modeMember hthree hfound hrefused hlost =>
    exact ⟨_, modeMember_null hthree hfound hrefused ((exitUser_none_iff h).mpr hlost)⟩
  | modeChannel hthree hhash hfound hset hoper hoff =>
    exact ⟨allOk, modeChannel_null hthree hhash hfound hset hoper hoff⟩

/-! ## The whole of a message -/

/-- Some way the sends may go, and whatever `send_names` finds in its `reply`, the
message makes its handler read through a null pointer. -/
def ReadsNull (cfg : Config) (s : Server) (self : Uid) (ps : Params) : Prop :=
  ∃ ok stale w, (parse cfg self stale s.fuel ps).run ok s.world = .crashed .null w

theorem readsNull_iff (hs : Sane s) (hin : self ∈ s.userlist.items) :
    ReadsNull cfg s self params ↔ NullCause s self params (commandOf (params.get 0)) := by
  have hself := seekFd_self hs hin
  refine ⟨fun hreads => ?_, fun hcause => ?_⟩
  · obtain ⟨ok, stale, w, hrun⟩ := hreads
    have hends : (parse cfg self stale s.fuel params).Meets ok
        (Ends cfg ok s self params (commandOf (params.get 0))) s.world := parse_ends hs hself
    unfold Prog.Meets at hends
    rw [hrun] at hends
    exact hends rfl
  · have hnull : ∃ ok, (dispatch cfg self (fun _ => 0) s.fuel self params
        (commandOf (params.get 0))).Meets ok Crashes s.world := dispatch_null hs hcause
    obtain ⟨ok, hcrash⟩ := hnull
    obtain ⟨w, hrun⟩ := crashed_of_meets ((parse_eq hself).mpr hcrash)
    exact ⟨ok, fun _ => 0, w, hrun⟩

/-- In a reachable state, a client's message makes no handler read through a null
pointer exactly when there is no cause for it. -/
theorem lookups_succeed_iff (hreach : Reachable cfg s) (hin : self ∈ s.userlist.items) :
    ¬ ReadsNull cfg s self params ↔ ¬ NullCause s self params (commandOf (params.get 0)) := by
  obtain ⟨rs, hpath⟩ := hreach
  rw [readsNull_iff (sane_of_path hpath) hin]

/-- A server with one client. -/
def oneClient : Server := Server.init.arrive 4 []

theorem oneClient_reachable (cfg : Config) : Reachable cfg oneClient := by
  have hnext : next cfg .init (.plain (.connect 4 [])) = some oneClient := rfl
  exact ⟨_, .snoc .nil trivial hnext⟩

/-- LIST, while there is no channel: asking for one has a cause, asking for all has none. -/
theorem lookups_succeed_list : ReadsNull .plain oneClient 0 [str "LIST", str "#c"] ∧
    ¬ ReadsNull .plain oneClient 0 [str "LIST"] := by
  have hreach : Reachable .plain oneClient := oneClient_reachable .plain
  refine ⟨?_, (lookups_succeed_iff hreach (by decide)).mpr fun hcause => ?_⟩
  · have hcause : NullCause oneClient 0 [str "LIST", str "#c"] .LIST :=
      .list (by decide) (by decide)
    by_contra hfound
    exact (lookups_succeed_iff hreach (by decide)).mp hfound hcause
  · have hcause : NullCause oneClient 0 [str "LIST"] .LIST := hcause
    cases hcause with
    | list hname => exact hname rfl

/-- Anybody can ask for a channel that is not there. -/
theorem lookups_fail : ¬ ∀ (cfg : Config) (s : Server) (self : Uid) (ps : Params),
    Reachable cfg s → self ∈ s.userlist.items → ¬ ReadsNull cfg s self ps := by
  intro hall
  have hin : (0 : Uid) ∈ oneClient.userlist.items := by decide
  have hcause : NullCause oneClient 0 [str "LIST", str "#c"] .LIST := .list (by decide) (by decide)
  obtain ⟨rs, hpath⟩ := oneClient_reachable .plain
  exact hall .plain oneClient 0 _ (oneClient_reachable .plain) hin
    ((readsNull_iff (sane_of_path hpath) hin).mpr hcause)

end UchiNetworks.Chirc
