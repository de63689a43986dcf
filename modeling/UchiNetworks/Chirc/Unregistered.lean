import UchiNetworks.Chirc.Letters
import UchiNetworks.Chirc.Registered

/-!
# chirc: who has not registered

Eight handlers answer a client without a nick or a user name with
`ERR_NOTREGISTERED`, and JOIN, PART, TOPIC, MODE, OPER, LIST and WHO do not look.
As long as these seven come from registered users, and nobody with something to
lose changes his nick to the empty string, only registered users are on channels
or operators.
-/

namespace UchiNetworks.Chirc

open UchiNetworks.Lib
open Prog

variable {cfg : Config} {self : Uid} {ok : Nat → Bool} {s s' : Server} {u : Uid} {ps : Params}
  {stale : Nat → Nat}

/-- Is the command for registered users only? -/
def Command.needsRegistration : Command → Bool
  | .NICK | .USER | .QUIT | .PONG | .UNKNOWN => false
  | _ => true

/-- Does the handler look whether the user is registered? -/
def Command.asks : Command → Bool
  | .PRIVMSG | .NOTICE | .WHOIS | .PING | .LUSERS | .MOTD | .AWAY | .NAMES => true
  | _ => false

/-- He is on a channel, or an operator of the server. -/
def Person.hasStanding (p : Person) : Prop :=
  p.myChans.items ≠ [] ∨ hasMode p.mode modeO = true

instance (p : Person) : Decidable p.hasStanding :=
  inferInstanceAs (Decidable (p.myChans.items ≠ [] ∨ hasMode p.mode modeO = true))

/-- Only registered users are on channels, or operators. -/
def Settled (s : Server) : Prop :=
  ∀ u ∈ s.userlist.items, (s.persons u).hasStanding → (s.persons u).registered = true

/-- Who is not registered gets an error and nothing else, whatever he asks for;
he is on no channel, and no operator. -/
structure Guarded (cfg : Config) (admits : Server → Request → Prop) (s : Server) : Prop where
  refused : ∀ u ps ok stale s' log, (s.persons u).registered = false →
    (commandOf (ps.get 0)).needsRegistration = true → admits s ⟨.message u ps, ok, stale⟩ →
    serve cfg s ⟨.message u ps, ok, stale⟩ = some (s', log) →
    s' = s ∧ log = [s.reply cfg u .errNotregistered [] []]
  answered : ∀ u ∈ s.userlist.items, ∀ ps ok stale, (s.persons u).registered = false →
    (commandOf (ps.get 0)).needsRegistration = true → admits s ⟨.message u ps, ok, stale⟩ →
    ¬ Fails ok → (serve cfg s ⟨.message u ps, ok, stale⟩).isSome
  settled : Settled s

/-- A command whose handler does not look comes from a registered user, and nobody
who is on a channel or an operator gives up his nick. -/
def sentFairly (s : Server) (r : Request) : Prop :=
  match r.input with
  | .message self ps =>
    ((commandOf (ps.get 0)).needsRegistration = true → (commandOf (ps.get 0)).asks = false →
      (s.persons self).registered = true) ∧
    (commandOf (ps.get 0) = .NICK → ps.get 1 = [] → ¬ (s.persons self).hasStanding)
  | _ => True

instance (s : Server) : ∀ r, Decidable (sentFairly s r)
  | ⟨.message _ _, _, _⟩ => inferInstanceAs (Decidable ((_ → _ → _) ∧ (_ → _ → _)))
  | ⟨.connect _ _, _, _⟩ | ⟨.hangup _, _, _⟩ => isTrue trivial

/-! ## The answer -/

theorem handleLUSERS_refuses (h : s.userlist.iter = none)
    (hreg : (s.persons u).registered = false) :
    SaysAt ok s (handleLUSERS cfg self u) [s.reply cfg u .errNotregistered [] []] := by
  intro out
  unfold handleLUSERS
  rw [acquire_bind List.not_mem_nil, look_bind, look_bind, look_bind]
  refine scan_bind h countOp_quiet id ?_
  intro numops
  rw [look_bind, if_pos (by simp [hreg])]
  exact sendReply_saysAt out

theorem handleNOTICE_refuses (hreg : (s.persons u).registered = false) :
    SaysAt ok s (handleNOTICE cfg self u ps) [s.reply cfg u .errNotregistered [] []] := by
  intro out
  unfold handleNOTICE
  rw [lookRecipient_bind, look_bind, if_pos (by simp [hreg])]
  exact sendReply_saysAt out

/-- Whoever is not registered is told so, by the handlers that look. -/
theorem dispatch_refuses (h : Sane s) (hreg : (s.persons u).registered = false) {fuel : Nat}
    {c : Command} (hasks : c.asks = true) :
    SaysAt ok s (dispatch cfg self stale fuel u ps c) [s.reply cfg u .errNotregistered [] []] := by
  have hnot : (!(s.persons u).registered) = true := by simp [hreg]
  have hfirst : ∀ {q : Person → Act Unit}, SaysAt ok s (do
      let p ← look (·.persons u)
      if !p.registered then sendReply cfg self u .errNotregistered [] [] else q p)
      [s.reply cfg u .errNotregistered [] []] := by
    intro q out
    rw [look_bind, if_pos hnot]
    exact sendReply_saysAt out
  cases c with
  | PRIVMSG => exact hfirst
  | NOTICE => exact handleNOTICE_refuses hreg
  | WHOIS => exact saysAt_lockedLook hfirst
  | PING =>
    intro out
    show (handlePING cfg self u).Meets ok _ _
    unfold handlePING
    rw [acquire_bind List.not_mem_nil, release_bind, List.erase_cons_head]
    exact hfirst out
  | LUSERS => exact handleLUSERS_refuses h.idle.users hreg
  | MOTD => exact hfirst
  | AWAY => exact hfirst
  | NAMES => exact hfirst
  | _ => cases hasks

/-! ## Who is on a channel or an operator -/

/-- Nobody comes in, gains standing or loses his registration. -/
theorem Settled.frame (h : Settled s) (husers : s'.userlist.items ⊆ s.userlist.items)
    (hstand : ∀ v, (s'.persons v).hasStanding → (s.persons v).hasStanding)
    (hreg : ∀ v, (s'.persons v).registered = (s.persons v).registered) : Settled s' := by
  intro v hv hstands
  rw [hreg]
  exact h v (husers hv) (hstand v hstands)

/-- One record changes, and is right afterwards. -/
theorem Settled.updPerson (h : Settled s) {f : Person → Person}
    (hf : (f (s.persons u)).hasStanding → (f (s.persons u)).registered = true) :
    Settled (s.updPerson u f) := by
  intro v hv
  by_cases hvu : v = u
  · rw [hvu, updPerson_self]
    exact hf
  · rw [updPerson_ne f hvu]
    exact h v hv

theorem Settled.countIf (h : Settled s) (b : Bool) : Settled (s.countIf b) := by
  cases b with
  | false => exact h
  | true => exact h

/-- Who leaves takes nothing away from the others. -/
theorem Settled.exitUser (h : Settled s) (hs : Sane s) (hexit : s.exitUser u = some s') :
    Settled s' := by
  obtain ⟨t, hleave, rfl⟩ := Option.map_eq_some_iff.mp hexit
  obtain ⟨husers, hpersons, -⟩ := leaveChans_frame hleave
  have hlist : (t.removeUser u).userlist.items = s.userlist.items.eraseP (· = u) := by
    show (t.userlist.delete _).items = _
    rw [husers, SimList.delete_of_idle hs.idle.users]
  refine h.frame ?_ (fun v => ?_) fun v => ?_
  · rw [hlist]
    exact List.eraseP_subset
  · rw [removeUser_persons, ← hpersons]
    by_cases hv : v = u
    · rw [hv, updPerson_self]
      -- his list is cleared, his mode stays
      refine Or.imp (fun hne => absurd rfl hne) id
    · rw [updPerson_ne _ hv]
      exact id
  · rw [removeUser_persons, ← hpersons]
    by_cases hv : v = u
    · rw [hv, updPerson_self]
      rfl
    · rw [updPerson_ne _ hv]

theorem hasMode_of_del {mode : CStr} {x y : UInt8} (h : hasMode (delMode mode x) y = true) :
    hasMode mode y = true :=
  hasMode_iff.mpr (List.mem_of_mem_erase (hasMode_iff.mp h))

/-- A member's status is changed, and he stays a member. -/
theorem updMode_ne_nil {p : Person} {name : CStr} {f : CStr → CStr}
    (h : (p.updMode name f).myChans.items ≠ []) : p.myChans.items ≠ [] := by
  intro hnil
  apply h
  show updFirst _ _ p.myChans.items = []
  rw [hnil]
  rfl

theorem Effect.settled (h : Settled s) (hs : Sane s) (hu : u ∈ s.userlist.items)
    (hfair : sentFairly s ⟨.message u ps, ok, stale⟩)
    (heff : Effect cfg ok s u ps (commandOf (ps.get 0)) s') : Settled s' := by
  obtain ⟨hasks, hkeeps⟩ := hfair
  generalize commandOf (ps.get 0) = c at hasks hkeeps heff
  -- the record of the sender, as long as only mode and channels change
  have hown : (s.persons u).registered = true → ∀ {f : Person → Person},
      (f (s.persons u)).registered = (s.persons u).registered → Settled (s.updPerson u f) :=
    fun hreg f hf => h.updPerson fun _ => hf.trans hreg
  have hmode : ∀ {v : Uid} {f : Person → Person},
      (f (s.persons v)).registered = (s.persons v).registered →
      ((f (s.persons v)).hasStanding → (s.persons v).hasStanding) → Settled (s.updPerson v f) := by
    intro v f hreg hstand
    refine h.frame (List.Subset.refl _) (fun w => ?_) fun w => ?_
    · by_cases hw : w = v
      · rw [hw, updPerson_self]
        exact hstand
      · rw [updPerson_ne f hw]
        exact id
    · by_cases hw : w = v
      · rw [hw, updPerson_self, hreg]
      · rw [updPerson_ne f hw]
  cases heff with
  | same => exact h
  | rename _ hnick =>
    have hstop : Settled (s.atMyChan u none) := hmode rfl id
    refine hstop.updPerson ?_
    unfold Server.atMyChan
    rw [updPerson_self]
    intro hstands
    have hstands : (s.persons u).hasStanding := hstands
    have hnew : ps.get 1 ≠ [] := fun hnil => hkeeps rfl hnil hstands
    exact registered_iff.mpr ⟨hnew, (registered_iff.mp (h u hu hstands)).2⟩
  | firstNick _ hnick =>
    refine Settled.countIf (h.updPerson fun hstands => ?_) _
    exact absurd hnick (registered_iff.mp (h u hu hstands)).1
  | user hnew =>
    refine Settled.countIf (h.updPerson fun hstands => ?_) _
    obtain ⟨hnick, huser⟩ := registered_iff.mp (h u hu hstands)
    exact absurd ⟨huser, hnick⟩ hnew
  | quit hexit =>
    have hstop : Settled (s.atMyChan u none) := hmode rfl id
    exact hstop.exitUser (hs.frame (sameShape_atMyChan s u none)) hexit
  | dropped _ _ hexit => exact h.exitUser hs hexit
  | joinOld _ _ =>
    have hin : Settled (s.updPerson u (·.updChans (·.append ⟨ps.get 1, []⟩))) :=
      hown (hasks rfl rfl) rfl
    exact hin
  | joinNew _ _ =>
    have hin : Settled (s.updPerson u (·.updChans (·.append ⟨ps.get 1, str "o"⟩))) :=
      hown (hasks rfl rfl) rfl
    exact hin
  | joinAgain _ _ => exact h
  | part _ _ =>
    have hdrop : Settled (s.dropMyChan u (ps.get 1)) := hown (hasks rfl rfl) rfl
    exact hdrop
  | topic _ _ _ => exact h
  | back _ => exact hmode rfl (Or.imp id hasMode_of_del)
  | away hset =>
    refine hmode rfl (Or.imp id fun hoper => ?_)
    dsimp only at hoper
    rw [hset] at hoper
    by_cases haway : hasMode (s.persons u).mode modeA = true
    · rw [if_pos haway] at hoper
      exact hoper
    · -- AWAY adds another letter than OPER
      rw [if_neg haway] at hoper
      have hadd := hasMode_add (s.persons u).mode modeA modeO
      exact hadd.symm.trans hoper
  | oper _ _ => exact hown (hasks rfl rfl) rfl
  | whois _ _ _ _ => exact hmode rfl id
  | who _ =>
    refine h.frame (List.Subset.refl _) (fun v => ?_) ?_
    · have hsame := stopOthers_get Person.hasStanding (fun _ => rfl) s u v
      exact hsame.mp
    · exact stopOthers_get (·.registered) (fun _ => rfl) s u
  | memberAdd _ _ _ _ _ _ _ _ => exact hmode rfl (Or.imp updMode_ne_nil id)
  | memberDel _ _ _ _ _ _ _ => exact hmode rfl (Or.imp updMode_ne_nil id)
  | chanAdd _ _ _ _ => exact h
  | chanDel _ _ _ _ => exact h
  | userMode _ => exact hmode rfl (Or.imp id hasMode_of_del)

theorem Turn.settled {r : Request} (h : Settled s) (hs : Sane s) (hfair : sentFairly s r)
    (hturn : Turn cfg s r s') : Settled s' := by
  cases hturn with
  | @connect fd address ok stale hpossible =>
    intro v hv
    rw [arrive_userlist hs.idle.users] at hv
    cases List.mem_append.mp hv with
    | inl hold =>
      rw [arrive_old (hs.usersOld v hold)]
      exact h v hold
    | inr hnew =>
      -- whoever has just come is on no channel, and has no mode
      rw [List.mem_singleton.mp hnew, arrive_new]
      intro hstands
      cases hstands with
      | inl hchans => exact absurd rfl hchans
      | inr hoper => cases hoper
  | message hin heff => exact heff.settled h hs hin hfair
  | hangup _ hexit => exact h.exitUser hs hexit

theorem settled_of_path {rs : List Request} (h : Path (next cfg) sentFairly .init rs s) :
    Sane s ∧ Settled s := by
  refine h.invariant (fun s => Sane s ∧ Settled s) ⟨sane_init, ?_⟩ ?_
  · intro u hu
    cases hu
  · intro s r s' hfair hnext hinv
    have hturn := turn_of_next hinv.1 hnext
    exact ⟨hturn.sane hinv.1, hturn.settled hinv.2 hinv.1 hfair⟩

/-- A command that meets the condition and comes from an unregistered client has a
handler that looks. -/
theorem asks_of_fair (hreg : (s.persons u).registered = false)
    (hneeds : (commandOf (ps.get 0)).needsRegistration = true)
    (hfair : sentFairly s ⟨.message u ps, ok, stale⟩) : (commandOf (ps.get 0)).asks = true := by
  cases hasks : (commandOf (ps.get 0)).asks with
  | true => rfl
  | false =>
    rw [hfair.1 hneeds hasks] at hreg
    cases hreg

/-- Along runs in which the seven commands come from registered users only, every
state is guarded. -/
theorem guarded_of_path {rs : List Request} (h : Path (next cfg) sentFairly .init rs s) :
    Guarded cfg sentFairly s := by
  obtain ⟨hs, hsettled⟩ := settled_of_path h
  refine ⟨?_, ?_, hsettled⟩
  · intro u ps ok stale s' log hreg hneeds hfair hserve
    exact leaves_of_says hs (dispatch_refuses hs hreg (asks_of_fair hreg hneeds hfair)) hserve
  · intro u hin ps ok stale hreg hneeds hfair hok
    exact isSome_of_says hs hin (dispatch_refuses hs hreg (asks_of_fair hreg hneeds hfair)) hok

/-- The first client becomes an operator and goes on a channel; the second does not
register, and speaks to the first. -/
def besideGuest : List Request :=
  registersOne ++ [.plain (.line 0 ["OPER", "u", "pw"]), .plain (.line 0 ["JOIN", "#c"]),
    .plain (.connect 5 []), .plain (.line 1 ["NICK", "b"]),
    .plain (.line 1 ["PRIVMSG", "a", ":hi"]), .plain (.line 0 ["MODE", "#c", "+m"])]

theorem guarded_beside : ∃ s, Path (next .plain) sentFairly .init besideGuest s ∧
    s.userlist.items = [0, 1] ∧ (hasMode (s.persons 0).mode modeO = true ∧
      (s.persons 0).myChans.items ≠ []) ∧ (s.persons 1).registered = false ∧
    Guarded .plain sentFairly s := by
  have hruns : (follow (guarded (next .plain) sentFairly) .init besideGuest).any (fun s =>
      s.userlist.items = [0, 1] ∧ (hasMode (s.persons 0).mode modeO = true ∧
        (s.persons 0).myChans.items ≠ []) ∧ (s.persons 1).registered = false) = true := by
    decide +kernel
  have hreached : ∃ s, Path (guarded (next .plain) sentFairly) anyRequest .init besideGuest s ∧ _ :=
    exists_of_follow (fun _ _ _ => trivial) hruns
  obtain ⟨s, hpath, hends⟩ := hreached
  obtain ⟨hlist, hstands, hnot⟩ := of_decide_eq_true hends
  exact ⟨s, hpath.of_guarded, hlist, hstands, hnot, guarded_of_path hpath.of_guarded⟩

/-- A client connects, and joins a channel. -/
def joinsAtOnce : List Request := [.plain (.connect 4 []), .plain (.line 0 ["JOIN", "#a"])]

/-- He is on the channel without a nick. -/
theorem guarded_fails : ¬ ∀ (cfg : Config) (rs : List Request) (s : Server),
    Path (next cfg) anyRequest .init rs s → Guarded cfg anyRequest s := by
  intro hall
  have hany : ∀ r ∈ joinsAtOnce, ∀ s, anyRequest s r := fun _ _ _ => trivial
  obtain ⟨s, hpath, hbad⟩ := exists_of_follow
    (p := fun s => 0 ∈ s.userlist.items ∧ (s.persons 0).myChans.items ≠ [] ∧
      (s.persons 0).registered = false) hany
    (by decide +kernel : (follow (next .plain) .init joinsAtOnce).any _ = true)
  obtain ⟨hin, hon, hreg⟩ := of_decide_eq_true hbad
  rw [(hall .plain _ s hpath).settled 0 hin (Or.inl hon)] at hreg
  cases hreg

end UchiNetworks.Chirc
