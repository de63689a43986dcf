import UchiNetworks.Chirc.Unregistered

/-!
# chirc: NICK, USER and the burst

NICK and USER are the only commands that change names, and the only ones that
reach `do_registration`, which counts the client and greets him with a burst of
replies. `nick_registers_iff` and `user_registers_iff` say when they do.
-/

namespace UchiNetworks.Chirc

open UchiNetworks.Lib
open Prog

variable {cfg : Config} {self : Uid} {ok : Nat → Bool} {s s' : Server} {u v : Uid} {ps : Params}
  {stale : Nat → Nat}

/-- What LUSERS hands out. -/
def Server.lusersAnswer (cfg : Config) (s : Server) (u : Uid) : List Event :=
  if !(s.persons u).registered then [s.reply cfg u .errNotregistered [] []] else
  s.lusers cfg u s.operCount

/-- What MOTD hands out. -/
def Server.motdAnswer (cfg : Config) (s : Server) (u : Uid) : List Event :=
  if !(s.persons u).registered then [s.reply cfg u .errNotregistered [] []] else
  match cfg.motd with
  | none => [s.reply cfg u .errNomotd [] []]
  | some lines => s.reply cfg u .rplMotdstart [] [] ::
      (lines.map (s.reply cfg u .rplMotd []) ++ [s.reply cfg u .rplEndofmotd [] []])

/-- The burst: what `do_registration` hands out, once it has counted the user. -/
def Server.burst (cfg : Config) (s : Server) (u : Uid) : List Event :=
  [s.reply cfg u .rplWelcome [] []] ++ ([s.reply cfg u .rplYourhost [] []] ++
    ([s.reply cfg u .rplCreated [] []] ++ ([s.reply cfg u .rplMyinfo [] []] ++
      (s.lusersAnswer cfg u ++ s.motdAnswer cfg u))))

/-- The request registers `u`: one more is counted, and he gets the burst. -/
def Server.registers (cfg : Config) (s : Server) (u : Uid) (r : Request) : Bool :=
  (serve cfg s r).any fun p => u ∈ s.userlist.items ∧
    p.1.numregistered = s.numregistered + 1 ∧ p.2 = p.1.burst cfg u

/-! ## The burst -/

/-- LUSERS says its five lines, or that he is not registered. -/
theorem lusersAnswer_said (h : s.userlist.iter = none) :
    SaysAt ok s (handleLUSERS cfg self u) (s.lusersAnswer cfg u) := by
  unfold Server.lusersAnswer
  cases hreg : (s.persons u).registered with
  | false => exact handleLUSERS_refuses h hreg
  | true => exact handleLUSERS_said h hreg

theorem motdLines_said (lines : List CStr) :
    SaysAt ok s (motdLines cfg self u lines) (lines.map (s.reply cfg u .rplMotd [])) := by
  induction lines with
  | nil => exact saysAt_done
  | cons line lines ih => exact saysAt_bind sendReply_saysAt ih

/-- MOTD says the lines of the file, or that there is none. -/
theorem motdAnswer_said : SaysAt ok s (handleMOTD cfg self u) (s.motdAnswer cfg u) := by
  intro out
  unfold handleMOTD Server.motdAnswer
  rw [look_bind]
  refine saysAt_ite (fun _ => sendReply_saysAt) (fun _ => ?_) out
  cases cfg.motd with
  | none => exact sendReply_saysAt
  | some lines =>
    exact saysAt_bind sendReply_saysAt (saysAt_bind (motdLines_said lines) sendReply_saysAt)

/-- `do_registration` counts the user, and hands out the burst. -/
theorem doRegistration_said {out : List Event} {Q : Post Server Mutex Event Fault Unit}
    (h : s.userlist.iter = none)
    (hdone : Q.done () ⟨s.countIf true, [], out ++ (s.countIf true).burst cfg u⟩)
    (hstuck : Fails ok → Q.stuck) : (doRegistration cfg self u).Meets ok Q ⟨s, [], out⟩ := by
  have hcount : (s.countIf true).userlist.iter = none := h
  have htalk : SaysAt ok (s.countIf true) (do
      sendReply cfg self u .rplWelcome [] []
      sendReply cfg self u .rplYourhost [] []
      sendReply cfg self u .rplCreated [] []
      sendReply cfg self u .rplMyinfo [] []
      handleLUSERS cfg self u
      handleMOTD cfg self u) ((s.countIf true).burst cfg u) := by
    unfold Server.burst
    refine saysAt_bind sendReply_saysAt (saysAt_bind sendReply_saysAt ?_)
    refine saysAt_bind sendReply_saysAt (saysAt_bind sendReply_saysAt ?_)
    exact saysAt_bind (lusersAnswer_said hcount) motdAnswer_said
  unfold doRegistration
  rw [lockedChange_bind List.not_mem_nil]
  exact says_then (htalk out) hstuck hdone

/-! ## NICK and USER -/

/-- What NICK leaves behind. -/
def Server.afterNick (s : Server) (u : Uid) (name : CStr) : Server :=
  if (s.seekNick name).isSome then s
  else if (s.persons u).nick ≠ [] then (s.atMyChan u none).withNick u name
  else (s.withNick u name).countIf ((s.persons u).user ≠ [])

/-- What USER leaves behind. -/
def Server.afterUser (s : Server) (u : Uid) (name fullname : CStr) : Server :=
  if (s.persons u).user ≠ [] ∧ (s.persons u).nick ≠ [] then s
  else (s.withUser u name fullname).countIf ((s.persons u).nick ≠ [])

/-- What a NICK leaves, and what it says when it registers. -/
theorem nick_leaves (h : Sane s) {log : List Event} (hcmd : commandOf (ps.get 0) = .NICK)
    (hserve : serve cfg s ⟨.message u ps, ok, stale⟩ = some (s', log)) :
    s' = s.afterNick u (ps.get 1) ∧ (s.seekNick (ps.get 1) = none → (s.persons u).nick = [] →
      (s.persons u).user ≠ [] → log = s'.burst cfg u) := by
  have hmeets : (dispatch cfg u stale s.fuel u ps (commandOf (ps.get 0))).Meets ok
      ⟨fun _ w => w.state = s.afterNick u (ps.get 1) ∧ (s.seekNick (ps.get 1) = none →
        (s.persons u).nick = [] → (s.persons u).user ≠ [] → w.out = w.state.burst cfg u),
        fun _ => False, fun _ => True, True⟩ s.world := by
    rw [hcmd]
    unfold Server.afterNick
    refine handleNICK_meets h.idle ?_ ?_ (fun _ _ _ => trivial) ?_ fun _ => trivial
    · intro htaken msgs
      refine ⟨?_, fun hfree => absurd hfree htaken⟩
      rw [if_pos (Option.ne_none_iff_isSome.mp htaken)]
    · intro hfree hnick _ out'
      refine ⟨?_, fun _ hnone => absurd hnone hnick⟩
      rw [hfree, if_neg (by simp), if_pos hnick]
    · intro hfree hnick
      rw [hfree, if_neg (by simp), if_neg (by simp [hnick])]
      by_cases huser : (s.persons u).user = []
      · rw [meets_onlyIf, huser]
        refine ⟨fun hfalse => by simp at hfalse, fun _ => ⟨rfl, fun _ _ hne => absurd rfl hne⟩⟩
      · rw [meets_onlyIf]
        have hyes : (((s.persons u).user ≠ [] : Bool)) = true := by simp [huser]
        rw [hyes]
        refine ⟨fun _ => ?_, fun hfalse => by cases hfalse⟩
        exact doRegistration_said h.idle.users ⟨rfl, fun _ _ _ => List.nil_append _⟩ fun _ => trivial
  obtain ⟨w, rfl, rfl, hend⟩ := leaves_of_dispatch h hserve hmeets
  cases hend with
  | inl hdone => exact hdone
  | inr hexit => exact hexit.elim

/-- The same for USER. -/
theorem user_leaves (h : Sane s) {log : List Event} (hcmd : commandOf (ps.get 0) = .USER)
    (hserve : serve cfg s ⟨.message u ps, ok, stale⟩ = some (s', log)) :
    s' = s.afterUser u (ps.get 1) (ps.get 4).tail ∧ ((s.persons u).user = [] →
      (s.persons u).nick ≠ [] → log = s'.burst cfg u) := by
  have hmeets : (dispatch cfg u stale s.fuel u ps (commandOf (ps.get 0))).Meets ok
      ⟨fun _ w => w.state = s.afterUser u (ps.get 1) (ps.get 4).tail ∧ ((s.persons u).user = [] →
        (s.persons u).nick ≠ [] → w.out = w.state.burst cfg u),
        fun _ => False, fun _ => True, True⟩ s.world := by
    rw [hcmd]
    unfold Server.afterUser
    refine handleUSER_meets ?_ ?_ fun _ => trivial
    · intro hreg msgs
      refine ⟨?_, fun huser => absurd huser hreg.1⟩
      rw [if_pos hreg]
    · intro hnew
      rw [if_neg hnew]
      by_cases hnick : (s.persons u).nick = []
      · rw [meets_onlyIf, hnick]
        refine ⟨fun hfalse => by simp at hfalse, fun _ => ⟨rfl, fun _ hne => absurd rfl hne⟩⟩
      · rw [meets_onlyIf]
        have hyes : (((s.persons u).nick ≠ [] : Bool)) = true := by simp [hnick]
        rw [hyes]
        refine ⟨fun _ => ?_, fun hfalse => by cases hfalse⟩
        exact doRegistration_said h.idle.users ⟨rfl, fun _ _ => List.nil_append _⟩ fun _ => trivial
  obtain ⟨w, rfl, rfl, hend⟩ := leaves_of_dispatch h hserve hmeets
  cases hend with
  | inl hdone => exact hdone
  | inr hexit => exact hexit.elim

/-- The counter is in no record. -/
theorem countIf_persons (s : Server) (b : Bool) : (s.countIf b).persons = s.persons := by
  cases b with
  | false => rfl
  | true => rfl

theorem countIf_userlist (s : Server) (b : Bool) : (s.countIf b).userlist = s.userlist := by
  cases b with
  | false => rfl
  | true => rfl

/-- NICK lets nobody in or out. -/
theorem afterNick_userlist (s : Server) (u : Uid) (name : CStr) :
    (s.afterNick u name).userlist = s.userlist := by
  unfold Server.afterNick
  by_cases htaken : (s.seekNick name).isSome
  · rw [if_pos htaken]
  · rw [if_neg htaken]
    by_cases hnick : (s.persons u).nick ≠ []
    · rw [if_pos hnick]
      rfl
    · rw [if_neg hnick, countIf_userlist]
      rfl

/-- A nick that is taken changes nothing. -/
theorem afterNick_taken {name : CStr} (h : s.seekNick name ≠ none) : s.afterNick u name = s := by
  unfold Server.afterNick
  rw [if_pos (Option.ne_none_iff_isSome.mp h)]

/-- If the nick is free, the sender's record gets it, and nothing else of it changes
but the iteration. -/
theorem afterNick_persons {name : CStr} (h : s.seekNick name = none) :
    ∃ f : SimList MyChan → SimList MyChan, (s.afterNick u name).persons
      = (s.updPerson u fun p => { p.updChans f with nick := name }).persons := by
  unfold Server.afterNick
  rw [h, if_neg (by simp)]
  by_cases hnick : (s.persons u).nick ≠ []
  · rw [if_pos hnick]
    refine ⟨fun l => { l with iter := none }, ?_⟩
    unfold Server.withNick Server.atMyChan
    rw [updPerson_updPerson]
  · rw [if_neg hnick, countIf_persons]
    exact ⟨id, rfl⟩

/-- USER lets nobody in or out. -/
theorem afterUser_userlist (s : Server) (u : Uid) (name fullname : CStr) :
    (s.afterUser u name fullname).userlist = s.userlist := by
  unfold Server.afterUser
  by_cases hreg : (s.persons u).user ≠ [] ∧ (s.persons u).nick ≠ []
  · rw [if_pos hreg]
  · rw [if_neg hreg, countIf_userlist]
    rfl

/-- It sets the names of who is not registered. -/
theorem afterUser_persons {name fullname : CStr}
    (h : ¬ ((s.persons u).user ≠ [] ∧ (s.persons u).nick ≠ [])) :
    (s.afterUser u name fullname).persons = (s.withUser u name fullname).persons := by
  unfold Server.afterUser
  rw [if_neg h, countIf_persons]

/-- Nobody's names change, nobody comes in, and no registration is counted. -/
structure SameNames (s s' : Server) : Prop where
  nick : ∀ v, (s'.persons v).nick = (s.persons v).nick
  user : ∀ v, (s'.persons v).user = (s.persons v).user
  userlist : s'.userlist.items ⊆ s.userlist.items
  count : s'.numregistered = s.numregistered ∨ s'.numregistered = s.numregistered - 1

theorem sameNames_refl (s : Server) : SameNames s s :=
  ⟨fun _ => rfl, fun _ => rfl, List.Subset.refl _, Or.inl rfl⟩

/-- A change of a record that keeps both names. -/
theorem sameNames_updPerson {f : Person → Person} (hnick : (f (s.persons u)).nick = (s.persons u).nick)
    (huser : (f (s.persons u)).user = (s.persons u).user) : SameNames s (s.updPerson u f) := by
  refine ⟨fun v => ?_, fun v => ?_, List.Subset.refl _, Or.inl rfl⟩
  · by_cases hv : v = u
    · rw [hv, updPerson_self, hnick]
    · rw [updPerson_ne f hv]
  · by_cases hv : v = u
    · rw [hv, updPerson_self, huser]
    · rw [updPerson_ne f hv]

/-- Who leaves takes his names along. -/
theorem sameNames_exitUser (hidle : s.userlist.iter = none) (hexit : s.exitUser u = some s') :
    SameNames s s' := by
  obtain ⟨t, hleave, rfl⟩ := Option.map_eq_some_iff.mp hexit
  obtain ⟨husers, hpersons, hnum⟩ := leaveChans_frame hleave
  have hcleared : SameNames s (s.updPerson u (·.updChans fun l => l.stop.clear)) :=
    sameNames_updPerson rfl rfl
  refine ⟨fun v => ?_, fun v => ?_, ?_, Or.inr ?_⟩
  · rw [removeUser_persons, ← hcleared.nick v]
    show ((t.updPerson u _).persons v).nick = _
    unfold Server.updPerson
    rw [hpersons]
  · rw [removeUser_persons, ← hcleared.user v]
    unfold Server.updPerson
    rw [hpersons]
  · show (t.userlist.delete _).items ⊆ _
    rw [husers, SimList.delete_of_idle hidle]
    exact List.eraseP_subset
  · rw [← hnum]
    rfl

/-- Only NICK and USER change names. -/
theorem Effect.sameNames {c : Command} (h : Sane s) (hnick : c ≠ .NICK) (huser : c ≠ .USER)
    (heff : Effect cfg ok s u ps c s') : SameNames s s' := by
  cases heff with
  | same => exact sameNames_refl s
  | rename _ _ => exact absurd rfl hnick
  | firstNick _ _ => exact absurd rfl hnick
  | user _ => exact absurd rfl huser
  | quit hexit =>
    have hstop : SameNames s (s.atMyChan u none) := sameNames_updPerson rfl rfl
    have hleave : SameNames (s.atMyChan u none) s' := sameNames_exitUser h.idle.users hexit
    exact ⟨fun v => (hleave.nick v).trans (hstop.nick v),
      fun v => (hleave.user v).trans (hstop.user v), hleave.userlist, hleave.count⟩
  | dropped _ _ hexit => exact sameNames_exitUser h.idle.users hexit
  | joinOld _ _ =>
    have hin : SameNames s (s.updPerson u (·.updChans (·.append ⟨ps.get 1, []⟩))) :=
      sameNames_updPerson rfl rfl
    exact ⟨hin.nick, hin.user, hin.userlist, hin.count⟩
  | joinNew _ _ =>
    have hin : SameNames s (s.updPerson u (·.updChans (·.append ⟨ps.get 1, str "o"⟩))) :=
      sameNames_updPerson rfl rfl
    exact ⟨hin.nick, hin.user, hin.userlist, hin.count⟩
  | part _ _ =>
    have hdrop : SameNames s (s.dropMyChan u (ps.get 1)) := sameNames_updPerson rfl rfl
    exact ⟨hdrop.nick, hdrop.user, hdrop.userlist, hdrop.count⟩
  | back _ => exact sameNames_updPerson rfl rfl
  | away _ => exact sameNames_updPerson rfl rfl
  | oper _ _ => exact sameNames_updPerson rfl rfl
  | whois _ _ _ _ => exact sameNames_updPerson rfl rfl
  | who _ =>
    exact ⟨stopOthers_get (·.nick) (fun _ => rfl) s u, stopOthers_get (·.user) (fun _ => rfl) s u,
      List.Subset.refl _, Or.inl rfl⟩
  | memberAdd _ _ _ _ _ _ _ _ => exact sameNames_updPerson rfl rfl
  | memberDel _ _ _ _ _ _ _ => exact sameNames_updPerson rfl rfl
  | userMode _ => exact sameNames_updPerson rfl rfl
  | joinAgain _ _ | topic _ _ _ | chanAdd _ _ _ _ | chanDel _ _ _ _ =>
    exact ⟨fun _ => rfl, fun _ => rfl, List.Subset.refl _, Or.inl rfl⟩

/-! ## Who is registered -/

/-- The test runs the request, and looks at what comes of it. -/
theorem registers_of_serve {r : Request} {log : List Event} (hserve : serve cfg s r = some (s', log)) :
    s.registers cfg u r = decide (u ∈ s.userlist.items ∧
      s'.numregistered = s.numregistered + 1 ∧ log = s'.burst cfg u) := by
  unfold Server.registers
  rw [hserve]
  rfl

/-- Nobody is registered by a request that does not count him. -/
theorem not_registers {r : Request} {log : List Event} (hserve : serve cfg s r = some (s', log))
    (hcount : s'.numregistered = s.numregistered ∨ s'.numregistered = s.numregistered - 1) :
    s.registers cfg u r = false := by
  rw [registers_of_serve hserve]
  refine decide_eq_false fun hreg => ?_
  have hone := hreg.2.1
  cases hcount with
  | inl hsame => rw [hsame] at hone; bv_omega
  | inr hless => rw [hless] at hone; bv_omega

/-- The burst goes to one client. -/
theorem burst_inj (h : Sane s) (hu : u ∈ s.userlist.items) (hv : v ∈ s.userlist.items)
    (heq : s.burst cfg u = s.burst cfg v) : u = v := by
  have hhead := congrArg List.head? heq
  unfold Server.burst Server.reply at hhead
  simp only [List.singleton_append, List.head?_cons] at hhead
  exact h.fds u hu v hv (Event.send.inj (Option.some.inj hhead)).1

/-- NICK registers its sender if it sets his first nick and he has a user name. -/
theorem nick_registers_iff (h : Sane s) {log : List Event} (hin : u ∈ s.userlist.items)
    (hcmd : commandOf (ps.get 0) = .NICK)
    (hserve : serve cfg s ⟨.message u ps, ok, stale⟩ = some (s', log)) :
    s.registers cfg v ⟨.message u ps, ok, stale⟩ = true ↔ v = u ∧ s.seekNick (ps.get 1) = none ∧
      (s.persons u).nick = [] ∧ (s.persons u).user ≠ [] := by
  obtain ⟨rfl, hburst⟩ := nick_leaves h hcmd hserve
  have hsane := (turn_of_serve h hserve).sane h
  by_cases hall : s.seekNick (ps.get 1) = none ∧ (s.persons u).nick = [] ∧ (s.persons u).user ≠ []
  · obtain ⟨hfree, hnick, huser⟩ := hall
    have hlog := hburst hfree hnick huser
    have hcount : (s.afterNick u (ps.get 1)).numregistered = s.numregistered + 1 := by
      unfold Server.afterNick
      rw [hfree, if_neg (by simp), if_neg (by simp [hnick]), decide_eq_true huser]
      rfl
    rw [registers_of_serve hserve, decide_eq_true_iff]
    refine ⟨fun hreg => ⟨?_, hfree, hnick, huser⟩, ?_⟩
    · refine burst_inj hsane ?_ ?_ (hreg.2.2.symm.trans hlog)
      · rw [afterNick_userlist]
        exact hreg.1
      · rw [afterNick_userlist]
        exact hin
    · intro hv
      rw [hv.1]
      exact ⟨hin, hcount, hlog⟩
  · have hsame : (s.afterNick u (ps.get 1)).numregistered = s.numregistered := by
      unfold Server.afterNick
      by_cases htaken : (s.seekNick (ps.get 1)).isSome
      · rw [if_pos htaken]
      · rw [if_neg htaken]
        by_cases hnick : (s.persons u).nick ≠ []
        · rw [if_pos hnick]
          rfl
        · have hfree : s.seekNick (ps.get 1) = none := by simpa using htaken
          have hnick' : (s.persons u).nick = [] := by simpa using hnick
          have huser : (s.persons u).user = [] := by simpa [hfree, hnick'] using hall
          rw [if_neg hnick, huser]
          rfl
    rw [not_registers hserve (Or.inl hsame)]
    exact iff_of_false Bool.false_ne_true fun hv => hall hv.2

/-- USER registers its sender if it sets his first user name and he has a nick. -/
theorem user_registers_iff (h : Sane s) {log : List Event} (hin : u ∈ s.userlist.items)
    (hcmd : commandOf (ps.get 0) = .USER)
    (hserve : serve cfg s ⟨.message u ps, ok, stale⟩ = some (s', log)) :
    s.registers cfg v ⟨.message u ps, ok, stale⟩ = true ↔ v = u ∧
      (s.persons u).user = [] ∧ (s.persons u).nick ≠ [] := by
  obtain ⟨rfl, hburst⟩ := user_leaves h hcmd hserve
  have hsane := (turn_of_serve h hserve).sane h
  by_cases hall : (s.persons u).user = [] ∧ (s.persons u).nick ≠ []
  · obtain ⟨huser, hnick⟩ := hall
    have hlog := hburst huser hnick
    have hcount : (s.afterUser u (ps.get 1) (ps.get 4).tail).numregistered = s.numregistered + 1 := by
      unfold Server.afterUser
      rw [if_neg (by simp [huser]), decide_eq_true hnick]
      rfl
    rw [registers_of_serve hserve, decide_eq_true_iff]
    refine ⟨fun hreg => ⟨?_, huser, hnick⟩, ?_⟩
    · refine burst_inj hsane ?_ ?_ (hreg.2.2.symm.trans hlog)
      · rw [afterUser_userlist]
        exact hreg.1
      · rw [afterUser_userlist]
        exact hin
    · intro hv
      rw [hv.1]
      exact ⟨hin, hcount, hlog⟩
  · have hsame : (s.afterUser u (ps.get 1) (ps.get 4).tail).numregistered = s.numregistered := by
      unfold Server.afterUser
      by_cases hreg : (s.persons u).user ≠ [] ∧ (s.persons u).nick ≠ []
      · rw [if_pos hreg]
      · have hnick : (s.persons u).nick = [] := by
          by_cases hnick : (s.persons u).nick = []
          · exact hnick
          · by_cases huser : (s.persons u).user = []
            · exact absurd ⟨huser, hnick⟩ hall
            · exact absurd ⟨huser, hnick⟩ hreg
        rw [if_neg hreg, hnick]
        rfl
    rw [not_registers hserve (Or.inl hsame)]
    exact iff_of_false Bool.false_ne_true fun hv => hall hv.2

end UchiNetworks.Chirc
