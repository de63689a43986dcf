import Mathlib.Data.List.Perm.Subperm
import UchiNetworks.Chirc.Turn

/-!
# chirc: the counter of registered users

`numregistered` goes up in `do_registration` and down in `user_exit`, whatever
the strings that say who is registered are at that time. It is right as long as
`registersFairly` holds: NICK and USER do not set or leave an empty string where
they count a registration, and nobody leaves who was never counted.
-/

namespace UchiNetworks.Chirc

open UchiNetworks.Lib
open Prog

variable {cfg : Config} {self : Uid} {ok : Nat → Bool} {s s' : Server} {u : Uid} {ps : Params}
  {stale : Nat → Nat}

/-- How many users in `userlist` are registered. -/
def Server.registeredCount (s : Server) : Nat :=
  s.userlist.items.countP fun u => (s.persons u).registered

/-- `numregistered` is right, as far as 32 bits go. -/
def Counted (s : Server) : Prop := s.numregistered = BitVec.ofNat 32 s.registeredCount

/-- No registration is counted that does not take place, and none is taken back
that was not counted. -/
def registersFairly (s : Server) (r : Request) : Prop :=
  match r.input with
  | .connect _ _ => True
  | .hangup self => (s.persons self).registered = true
  | .message self ps =>
    match commandOf (ps.get 0) with
    | .NICK => ps.get 1 ≠ [] ∨ (s.persons self).user = []
    | .USER => ps.get 1 ≠ [] ∨ (s.persons self).user ≠ [] ∨ (s.persons self).nick = []
    | .QUIT => (s.persons self).registered = true
    | .MODE => Fails r.ok → (s.persons self).registered = true
    | _ => True

/-! ## What the steps do to the count -/

/-- Nobody is registered who was not, and the other way round. -/
theorem Counted.frame (h : Counted s) (husers : s'.userlist = s.userlist)
    (hnum : s'.numregistered = s.numregistered)
    (hreg : ∀ v, (s'.persons v).registered = (s.persons v).registered) : Counted s' := by
  unfold Counted Server.registeredCount at h ⊢
  rw [hnum, husers, h]
  simp only [hreg]

/-- Registered is who has both names. -/
theorem registered_iff {p : Person} : p.registered = true ↔ p.nick ≠ [] ∧ p.user ≠ [] :=
  decide_eq_true_iff

/-- Changes of a record that touch neither nick nor user. -/
theorem Counted.updPerson (h : Counted s) {f : Person → Person}
    (hf : (f (s.persons u)).registered = (s.persons u).registered) :
    Counted (s.updPerson u f) := by
  refine h.frame rfl rfl fun v => ?_
  by_cases hv : v = u
  · rw [hv, updPerson_self, hf]
  · rw [updPerson_ne f hv]

/-- One more is registered, and counted. -/
theorem Counted.register (h : Counted s) (hs : Sane s) (hu : u ∈ s.userlist.items)
    {f : Person → Person} (hbefore : (s.persons u).registered = false)
    (hafter : (f (s.persons u)).registered = true) : Counted ((s.updPerson u f).countIf true) := by
  have hcount : ((s.updPerson u f).countIf true).registeredCount = s.registeredCount + 1 := by
    refine countP_gain hs.users hu hbefore ?_ ?_
    · show ((s.updPerson u f).persons u).registered = true
      rw [updPerson_self, hafter]
    · intro v _ hv
      show (s.persons v).registered = ((s.updPerson u f).persons v).registered
      rw [updPerson_ne f hv]
  unfold Counted at h ⊢
  rw [hcount, BitVec.ofNat_add, ← h]
  rfl

/-- A registered user leaves, and is no longer counted. -/
theorem Counted.removeUser (h : Counted s) (hs : Sane s) (hu : u ∈ s.userlist.items)
    (hreg : (s.persons u).registered = true) : Counted (s.removeUser u) := by
  have hsame : ∀ v, ((s.removeUser u).persons v).registered = (s.persons v).registered := by
    intro v
    rw [removeUser_persons]
    by_cases hv : v = u
    · rw [hv, updPerson_self]
      rfl
    · rw [updPerson_ne _ hv]
  have hlist : (s.removeUser u).userlist.items = s.userlist.items.eraseP (· = u) := by
    show (s.userlist.delete _).items = _
    rw [SimList.delete_of_idle hs.idle.users]
  have hcount : s.registeredCount = (s.removeUser u).registeredCount + 1 := by
    unfold Server.registeredCount
    rw [hlist]
    simp only [hsame]
    rw [countP_erase_found hu, if_pos hreg]
  unfold Counted at h ⊢
  show s.numregistered - 1 = _
  rw [h, hcount, BitVec.ofNat_add]
  exact BitVec.add_sub_cancel _ _

/-- A registered user may exit: one is counted less. -/
theorem Counted.exitUser (h : Counted s) (hs : Sane s) (hu : u ∈ s.userlist.items)
    (hreg : (s.persons u).registered = true) (hexit : s.exitUser u = some s') : Counted s' := by
  obtain ⟨t, hleave, rfl⟩ := Option.map_eq_some_iff.mp hexit
  obtain ⟨husers, hpersons, hnum⟩ := leaveChans_frame hleave
  refine Counted.removeUser (h.frame husers hnum fun v => by rw [hpersons]) (hs.leaveChans hleave)
    ?_ ?_
  · rw [husers]
    exact hu
  · rw [hpersons]
    exact hreg

/-- Channels are not counted. -/
theorem Counted.updChans (h : Counted s) {f : SimList MyChan → SimList MyChan} :
    Counted (s.updPerson u (·.updChans f)) := h.updPerson rfl

/-- So users may enter them. -/
theorem Counted.enter (h : Counted s) (c : Cid) (m : MyChan) : Counted (s.enter u c m) := by
  have hin : Counted (s.updPerson u (·.updChans (·.append m))) := h.updChans
  exact hin

theorem Counted.atMyChan (h : Counted s) (i : Option Nat) : Counted (s.atMyChan u i) :=
  h.updPerson rfl

/-! ## One command, one request, a run -/

/-- The condition, for a command and its effect. -/
theorem Effect.counted (h : Counted s) (hs : Sane s) (hu : u ∈ s.userlist.items)
    (hfair : registersFairly s ⟨.message u ps, ok, stale⟩)
    (heff : Effect cfg ok s u ps (commandOf (ps.get 0)) s') : Counted s' := by
  unfold registersFairly at hfair
  dsimp only at hfair
  generalize commandOf (ps.get 0) = c at hfair heff
  cases heff with
  | same => exact h
  | rename _ hnick =>
    refine (h.atMyChan none).updPerson ?_
    have hstop : (s.atMyChan u none).persons u = (s.persons u).updChans fun l => { l with iter := none } :=
      updPerson_self s u _
    rw [hstop, Bool.eq_iff_iff, registered_iff, registered_iff]
    -- he is registered after it if he was before
    cases hfair with
    | inl hnew => exact and_congr_left fun _ => ⟨fun _ => hnick, fun _ => hnew⟩
    | inr huser => exact ⟨fun hreg => absurd huser hreg.2, fun hreg => absurd huser hreg.2⟩
  | firstNick _ hnick =>
    have hbefore : (s.persons u).registered = false := by simp [Person.registered, hnick]
    -- the first nick registers whoever has given a user name
    by_cases huser : (s.persons u).user = []
    · have hcount : decide ((s.persons u).user ≠ []) = false := by simp [huser]
      rw [hcount]
      show Counted (s.updPerson u fun p => { p with nick := ps.get 1 })
      refine h.updPerson ?_
      rw [hbefore]
      simp [Person.registered, huser]
    · have hcount : decide ((s.persons u).user ≠ []) = true := by simp [huser]
      have hnew : ps.get 1 ≠ [] := by simpa [huser] using hfair
      rw [hcount]
      exact h.register hs hu hbefore (registered_iff.mpr ⟨hnew, huser⟩)
  | user hnew =>
    have hbefore : (s.persons u).registered = false := by
      rw [← Bool.not_eq_true, registered_iff]
      exact fun hreg => hnew ⟨hreg.2, hreg.1⟩
    -- and USER whoever has given a nick
    by_cases hnick : (s.persons u).nick = []
    · have hcount : decide ((s.persons u).nick ≠ []) = false := by simp [hnick]
      rw [hcount]
      show Counted (s.updPerson u fun p =>
        { p with user := ps.get 1, fullname := (ps.get 4).tail })
      refine h.updPerson ?_
      rw [hbefore]
      simp [Person.registered, hnick]
    · have hcount : decide ((s.persons u).nick ≠ []) = true := by simp [hnick]
      have huser : (s.persons u).user = [] := by
        by_cases huser : (s.persons u).user = []
        · exact huser
        · exact absurd ⟨huser, hnick⟩ hnew
      have hname : ps.get 1 ≠ [] := by simpa [hnick, huser] using hfair
      rw [hcount]
      exact h.register hs hu hbefore (registered_iff.mpr ⟨hnick, hname⟩)
  | quit hexit =>
    refine (h.atMyChan none).exitUser (hs.frame (sameShape_atMyChan s u none)) hu ?_ hexit
    unfold Server.atMyChan
    rw [updPerson_self]
    exact hfair
  | dropped hfail hcmd hexit =>
    cases hcmd with
    | inl hnames => exact h.exitUser hs hu hnames.2 hexit
    | inr hmode =>
      rw [hmode] at hfair
      exact h.exitUser hs hu (hfair hfail) hexit
  | joinOld _ _ => exact h.enter _ _
  | joinNew _ _ =>
    have hnew : Counted (s.addChannel (ps.get 1)) := h
    exact hnew.enter _ _
  | joinAgain _ _ => exact h
  | part _ _ =>
    have hdrop : Counted (s.dropMyChan u (ps.get 1)) := h.updChans
    exact hdrop
  | topic _ _ _ => exact h
  | back _ => exact h.updPerson rfl
  | away _ => exact h.updPerson rfl
  | oper _ _ => exact h.updPerson rfl
  | whois _ _ _ _ => exact h.updPerson rfl
  | who _ => exact h.frame rfl rfl (stopOthers_get (·.registered) (fun _ => rfl) s u)
  | memberAdd _ _ _ _ _ _ _ _ => exact h.updPerson rfl
  | memberDel _ _ _ _ _ _ _ => exact h.updPerson rfl
  | chanAdd _ _ _ _ => exact h
  | chanDel _ _ _ _ => exact h
  | userMode _ => exact h.updPerson rfl

/-- **One request.** -/
theorem Turn.counted {r : Request} (h : Counted s) (hs : Sane s) (hfair : registersFairly s r)
    (hturn : Turn cfg s r s') : Counted s' := by
  cases hturn with
  | @connect fd address ok stale hpossible =>
    have hold : ∀ v ∈ s.userlist.items, ((s.arrive fd address).persons v).registered
        = (s.persons v).registered := by
      intro v hv
      rw [arrive_old (hs.usersOld v hv)]
    have hnew : ((s.arrive fd address).persons s.nextUid).registered = false := by
      rw [arrive_new]
      rfl
    have hcount : (s.arrive fd address).registeredCount = s.registeredCount := by
      unfold Server.registeredCount
      rw [arrive_userlist hs.idle.users, List.countP_append, countP_same hold, List.countP_singleton,
        hnew]
      rfl
    unfold Counted
    rw [hcount]
    exact h
  | message hin heff => exact heff.counted h hs hin hfair
  | hangup hin hexit => exact h.exitUser hs hin hfair hexit

/-- The counter is right all along the run. -/
theorem counted_of_path {rs : List Request} (h : Path (next cfg) registersFairly .init rs s) :
    Sane s ∧ Counted s := by
  refine h.invariant (fun s => Sane s ∧ Counted s) ⟨sane_init, rfl⟩ ?_
  intro s r s' hfair hnext hinv
  have hturn := turn_of_next hinv.1 hnext
  exact ⟨hturn.sane hinv.1, hturn.counted hinv.2 hinv.1 hfair⟩

/-! ## LUSERS -/

/-- The replies of LUSERS. -/
def Server.lusers (cfg : Config) (s : Server) (u : Uid) (numops : Nat) : List Event :=
  let userme := BitVec.ofNat 32 s.userlist.items.length
  [s.reply cfg u .rplLuserclient [] (fmtU s.numregistered.toNat),
    s.reply cfg u .rplLuserop [] (fmtU numops),
    s.reply cfg u .rplLuserunknown [] (unknownStats userme s.numregistered),
    s.reply cfg u .rplLuserchannels [] (fmtU s.chanlist.items.length),
    s.reply cfg u .rplLuserme [] (fmtU userme.toNat)]

/-- The five lines of LUSERS show the counters. -/
theorem lusersReplies_said (numops : Nat) :
    SaysAt ok s (do
      sendReply cfg self u .rplLuserclient [] (fmtU s.numregistered.toNat)
      sendReply cfg self u .rplLuserop [] (fmtU numops)
      sendReply cfg self u .rplLuserunknown []
        (unknownStats (BitVec.ofNat 32 s.userlist.items.length) s.numregistered)
      sendReply cfg self u .rplLuserchannels [] (fmtU s.chanlist.items.length)
      sendReply cfg self u .rplLuserme []
        (fmtU (BitVec.ofNat 32 s.userlist.items.length).toNat)) (s.lusers cfg u numops) := by
  show SaysAt ok s _ ([_] ++ ([_] ++ ([_] ++ ([_] ++ [_]))))
  refine saysAt_bind sendReply_saysAt (saysAt_bind sendReply_saysAt ?_)
  refine saysAt_bind sendReply_saysAt (saysAt_bind sendReply_saysAt ?_)
  exact sendReply_saysAt

/-- How many users are operators. -/
def Server.operCount (s : Server) : Nat :=
  s.userlist.items.countP fun u => hasMode (s.persons u).mode modeO

/-- The loop counts the operators. -/
theorem handleLUSERS_said (h : s.userlist.iter = none) (hreg : (s.persons u).registered = true) :
    SaysAt ok s (handleLUSERS cfg self u) (s.lusers cfg u s.operCount) := by
  intro out
  unfold handleLUSERS
  rw [acquire_bind List.not_mem_nil, look_bind, look_bind, look_bind, change_bind, startUsers_idle h,
    look_bind, remaining_atUser_zero, meets_bind]
  -- those still ahead are added to those already seen
  refine forEach_users (fun us n out' => out' = out ∧
    n + us.countP (fun v => hasMode (s.persons v).mode modeO) = s.operCount) ?_ ?_
    ⟨rfl, Nat.zero_add _⟩
  · intro v us n out' i hin _
    obtain ⟨rfl, hcount⟩ := hin
    unfold countOp
    rw [change_bind, lockedLook_bind (by simp)]
    refine ⟨out', rfl, rfl, ?_⟩
    rw [← hcount, List.countP_cons]
    show (if hasMode (s.persons v).mode modeO = true then n + 1 else n) + _ = _
    by_cases hoper : hasMode (s.persons v).mode modeO = true
    · rw [if_pos hoper, if_pos hoper]
      omega
    · rw [if_neg hoper, if_neg hoper, Nat.add_zero]
  · intro us n out' i hin hend
    obtain ⟨rfl, hcount⟩ := hin
    have hus : us = [] := by simpa using hend
    have hn : n = s.operCount := by rw [← hcount, hus]; rfl
    show (change stopUsers >>= _ : Act Unit).Meets ok _ _
    rw [change_bind, stopUsers_atUser, atUser_none h, release_bind, List.erase_cons_head, look_bind,
      if_neg (by simp [hreg]), hn]
    exact lusersReplies_said _ out'

/-- There are fewer users than descriptors. -/
theorem userlist_length_lt (h : Sane s) : s.userlist.items.length < 4294967296 := by
  have hnodup : (s.userlist.items.map fun u => (s.persons u).clientSocket).Nodup :=
    List.Nodup.map_on (fun u hu v hv => h.fds u hu v hv) h.users
  have hsub : s.userlist.items.map (fun u => (s.persons u).clientSocket) ⊆ List.range 0x80000000 := by
    intro fd hfd
    obtain ⟨u, hu, rfl⟩ := List.mem_map.mp hfd
    exact List.mem_range.mpr (h.fdsSmall u hu)
  have hle := (hnodup.subperm hsub).length_le
  rw [List.length_map, List.length_range] at hle
  omega

/-- The counter is right: it counts the registered users, and LUSERS reports the
rest of the connections as unknown. -/
structure RegistrationsKnown (cfg : Config) (s : Server) : Prop where
  count : s.numregistered.toNat = s.registeredCount
  unknown : ∀ self ps ok stale s' log, commandOf (ps.get 0) = .LUSERS →
    (s.persons self).registered = true →
    serve cfg s ⟨.message self ps, ok, stale⟩ = some (s', log) →
    s.reply cfg self .rplLuserunknown []
      (fmtU (s.userlist.items.length - s.registeredCount)) ∈ log

/-- Not more are registered than are there. -/
theorem registeredCount_le (s : Server) : s.registeredCount ≤ s.userlist.items.length :=
  List.countP_le_length

/-- In 32 bits the count does not wrap: the list is shorter. -/
theorem count_of_counted (hs : Sane s) (h : Counted s) :
    s.numregistered.toNat = s.registeredCount := by
  have hle := registeredCount_le s
  have hlt := userlist_length_lt hs
  rw [h, BitVec.toNat_ofNat]
  exact Nat.mod_eq_of_lt (by omega)

/-- With the counter right, LUSERS has no error to report. -/
theorem unknownStats_of_counted (hs : Sane s) (h : Counted s) :
    unknownStats (BitVec.ofNat 32 s.userlist.items.length) s.numregistered
      = fmtU (s.userlist.items.length - s.registeredCount) := by
  have hcount := count_of_counted hs h
  have hle := registeredCount_le s
  have hlt := userlist_length_lt hs
  have hlen : (BitVec.ofNat 32 s.userlist.items.length).toNat = s.userlist.items.length := by
    rw [BitVec.toNat_ofNat]
    exact Nat.mod_eq_of_lt hlt
  have hle' : s.numregistered ≤ BitVec.ofNat 32 s.userlist.items.length := by
    rw [BitVec.le_def, hcount, hlen]
    exact hle
  unfold unknownStats
  rw [if_pos hle', BitVec.toNat_sub_of_le hle', hcount, hlen]

/-- So LUSERS shows the right numbers. -/
theorem known_of_counted (hs : Sane s) (h : Counted s) : RegistrationsKnown cfg s := by
  refine ⟨count_of_counted hs h, ?_⟩
  intro self ps ok stale s' log hcmd hreg hserve
  have htalk : SaysAt ok s (dispatch cfg self stale s.fuel self ps (commandOf (ps.get 0)))
      (s.lusers cfg self s.operCount) := by
    rw [hcmd]
    exact handleLUSERS_said hs.idle.users hreg
  obtain ⟨-, rfl⟩ := leaves_of_says hs htalk hserve
  rw [← unknownStats_of_counted hs h]
  simp [Server.lusers]

/-- Along runs that register fairly the counter is right in every state. -/
theorem registrations_known {rs : List Request} (h : Path (next cfg) registersFairly .init rs s) :
    RegistrationsKnown cfg s := by
  obtain ⟨hs, hcounted⟩ := counted_of_path h
  exact known_of_counted hs hcounted

theorem registrations_known_one : ∃ s, Path (next .plain) registersFairly .init registersOne s ∧
    s.registeredCount = 1 ∧ RegistrationsKnown .plain s := by
  have hfair : ∀ r ∈ registersOne, ∀ s, registersFairly s r := by
    intro r hr s
    simp only [registersOne, List.mem_cons, List.not_mem_nil, or_false] at hr
    obtain rfl | rfl | rfl := hr
    · trivial
    · exact Or.inl (by decide)
    · exact Or.inl (by decide)
  obtain ⟨s, hpath, hone⟩ := exists_of_follow (p := fun s => s.registeredCount = 1) hfair
    (by decide +kernel : (follow (next .plain) .init registersOne).any _ = true)
  exact ⟨s, hpath, of_decide_eq_true hone, registrations_known hpath⟩

/-- A client connects, and hangs up. -/
def unknownGuest : List Request := [.plain (.connect 4 []), .plain (.hangup 0)]

/-- Somebody hangs up who never registered: the counter wraps. -/
theorem registrations_lost : ¬ ∀ (cfg : Config) (rs : List Request) (s : Server),
    Path (next cfg) anyRequest .init rs s → RegistrationsKnown cfg s := by
  intro hall
  have hany : ∀ r ∈ unknownGuest, ∀ s, anyRequest s r := fun _ _ _ => trivial
  obtain ⟨s, hpath, hbad⟩ := exists_of_follow
    (p := fun s => s.numregistered.toNat = 4294967295 ∧ s.registeredCount = 0) hany
    (by decide +kernel : (follow (next .plain) .init unknownGuest).any _ = true)
  have hcount := (hall .plain _ s hpath).count
  have hbad := of_decide_eq_true hbad
  rw [hbad.1, hbad.2] at hcount
  cases hcount

end UchiNetworks.Chirc
