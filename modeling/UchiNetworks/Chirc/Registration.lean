import UchiNetworks.Chirc.Names
import UchiNetworks.Chirc.UserModes

/-!
# chirc: registering once

Whether a client is registered is inferred from two strings. NICK and USER accept
the empty string, so a name can be taken back, or be missing when the burst is
sent. Without such requests each connection gets the burst once: from the request
that completes the pair of an accepted NICK and an accepted USER.
-/

namespace UchiNetworks.Chirc

open UchiNetworks.Lib
open Prog

variable {cfg : Config} {self : Uid} {ok : Nat → Bool} {s s' : Server} {u v : Uid} {ps : Params}
  {stale : Nat → Nat}

/-- The request is a NICK of `u` with a nonempty name, and is accepted. -/
def Server.takesNick (s : Server) (u : Uid) (r : Request) : Bool :=
  match r.input with
  | .message self ps => self = u ∧ commandOf (ps.get 0) = .NICK ∧ ps.get 1 ≠ [] ∧
      s.seekNick (ps.get 1) = none
  | _ => false

/-- The request is a USER of `u` with a nonempty name, and is accepted. -/
def Server.takesUser (s : Server) (u : Uid) (r : Request) : Bool :=
  match r.input with
  | .message self ps => self = u ∧ commandOf (ps.get 0) = .USER ∧ ps.get 1 ≠ [] ∧
      (s.persons u).registered = false
  | _ => false

/-- How many requests of the run have registered `u`. -/
def registrations (cfg : Config) (u : Uid) (rs : List Request) : Nat :=
  tally (next cfg) (fun s r => s.registers cfg u r) .init rs

/-- How many NICKs of `u` with a nonempty name the run has accepted. -/
def nicksTaken (cfg : Config) (u : Uid) (rs : List Request) : Nat :=
  tally (next cfg) (fun s r => s.takesNick u r) .init rs

/-- How many USERs of `u` with a nonempty name it has accepted. -/
def usersTaken (cfg : Config) (u : Uid) (rs : List Request) : Nat :=
  tally (next cfg) (fun s r => s.takesUser u r) .init rs

/-- A NICK and a USER with nonempty names have been accepted from `u`. -/
def Introduced (cfg : Config) (u : Uid) (rs : List Request) : Prop :=
  0 < nicksTaken cfg u rs ∧ 0 < usersTaken cfg u rs

instance (cfg : Config) (u : Uid) (rs : List Request) : Decidable (Introduced cfg u rs) :=
  inferInstanceAs (Decidable (0 < nicksTaken cfg u rs ∧ 0 < usersTaken cfg u rs))

/-- `u` has been registered once if he has introduced himself, and not at all
otherwise. As this is said of each part of a run, he is registered by the request
that completes the introduction. -/
def Once (cfg : Config) (rs : List Request) (u : Uid) : Prop :=
  registrations cfg u rs = if Introduced cfg u rs then 1 else 0

/-- He is registered once, and keeps his names as long as he is there. -/
structure RegisteredOnce (cfg : Config) (rs : List Request) (s : Server) (u : Uid) : Prop where
  once : Once cfg rs u
  kept : u ∈ s.userlist.items → Introduced cfg u rs →
    (s.persons u).nick ≠ [] ∧ (s.persons u).user ≠ []

/-- `u` gives an empty name only while he has none yet, or is refused. -/
def namesFairly (u : Uid) (s : Server) (r : Request) : Prop :=
  match r.input with
  | .message self ps => self = u → ps.get 1 = [] →
    (commandOf (ps.get 0) = .NICK → (s.persons self).nick = [] ∧ (s.persons self).user = []) ∧
    (commandOf (ps.get 0) = .USER → (s.persons self).registered = true ∨
      (s.persons self).nick = [] ∧ (s.persons self).user = [])
  | _ => True

/-! ## One request more -/

/-- What the run has said of the names of `u` is true. -/
structure NamesTold (cfg : Config) (rs : List Request) (s : Server) (u : Uid) : Prop where
  nick : (s.persons u).nick ≠ [] ↔ 0 < nicksTaken cfg u rs
  user : (s.persons u).user ≠ [] ↔ 0 < usersTaken cfg u rs

section Step

variable {rs : List Request} {r : Request}

theorem nicksTaken_concat (h : follow (next cfg) .init rs = some s) (u : Uid) :
    nicksTaken cfg u (rs ++ [r]) = nicksTaken cfg u rs + (s.takesNick u r).toNat :=
  tally_concat h r

theorem usersTaken_concat (h : follow (next cfg) .init rs = some s) (u : Uid) :
    usersTaken cfg u (rs ++ [r]) = usersTaken cfg u rs + (s.takesUser u r).toNat :=
  tally_concat h r

theorem registrations_concat (h : follow (next cfg) .init rs = some s) (u : Uid) :
    registrations cfg u (rs ++ [r]) = registrations cfg u rs + (s.registers cfg u r).toNat :=
  tally_concat h r

/-- A request that says nothing about `u` leaves his history as it was. -/
theorem history_quiet (h : follow (next cfg) .init rs = some s) (hnick : s.takesNick u r = false)
    (huser : s.takesUser u r = false) (hreg : s.registers cfg u r = false) :
    nicksTaken cfg u (rs ++ [r]) = nicksTaken cfg u rs ∧
      usersTaken cfg u (rs ++ [r]) = usersTaken cfg u rs ∧
      registrations cfg u (rs ++ [r]) = registrations cfg u rs := by
  rw [nicksTaken_concat h, usersTaken_concat h, registrations_concat h, hnick, huser, hreg]
  exact ⟨rfl, rfl, rfl⟩

theorem Once.quiet (hold : Once cfg rs u) (h : follow (next cfg) .init rs = some s)
    (hnick : s.takesNick u r = false) (huser : s.takesUser u r = false)
    (hreg : s.registers cfg u r = false) : Once cfg (rs ++ [r]) u := by
  obtain ⟨hn, hu, hr⟩ := history_quiet h hnick huser hreg
  have hsame : Introduced cfg u rs ↔ Introduced cfg u (rs ++ [r]) := by
    unfold Introduced
    rw [hn, hu]
  unfold Once at hold ⊢
  rw [hr, hold]
  exact if_congr hsame rfl rfl

theorem NamesTold.quiet (hold : NamesTold cfg rs s u) (h : follow (next cfg) .init rs = some s)
    (hnick : s.takesNick u r = false) (huser : s.takesUser u r = false)
    (hsameNick : (s'.persons u).nick = (s.persons u).nick)
    (hsameUser : (s'.persons u).user = (s.persons u).user) : NamesTold cfg (rs ++ [r]) s' u := by
  refine ⟨?_, ?_⟩
  · rw [hsameNick, nicksTaken_concat h, hnick]
    exact hold.nick
  · rw [hsameUser, usersTaken_concat h, huser]
    exact hold.user

theorem NamesTold.introduced_iff (hold : NamesTold cfg rs s u) :
    Introduced cfg u rs ↔ (s.persons u).nick ≠ [] ∧ (s.persons u).user ≠ [] := by
  unfold Introduced
  rw [hold.nick, hold.user]

/-- With `a` one half of the names and `b` the other: `b` is complete afterwards,
and he is registered if it was not and `a` is. -/
theorem Once.step (honce : Once cfg rs u) (h : follow (next cfg) .init rs = some s) {a b : CStr}
    (hbefore : Introduced cfg u rs ↔ a ≠ [] ∧ b ≠ [])
    (hafter : Introduced cfg u (rs ++ [r]) ↔ a ≠ [])
    (hreg : s.registers cfg u r = true ↔ a ≠ [] ∧ b = []) : Once cfg (rs ++ [r]) u := by
  unfold Once at honce ⊢
  rw [registrations_concat h, honce]
  by_cases ha : a = []
  · have hnot : s.registers cfg u r = false := by
      rw [← Bool.not_eq_true, hreg]
      exact fun hboth => hboth.1 ha
    rw [hnot, if_neg (fun hin => (hbefore.mp hin).1 ha), if_neg (fun hin => hafter.mp hin ha)]
    rfl
  · rw [if_pos (hafter.mpr ha)]
    by_cases hb : b = []
    · rw [hreg.mpr ⟨ha, hb⟩, if_neg (fun hin => (hbefore.mp hin).2 hb)]
      rfl
    · have hnot : s.registers cfg u r = false := by
        rw [← Bool.not_eq_true, hreg]
        exact fun hboth => hb hboth.2
      rw [hnot, if_pos (hbefore.mpr ⟨ha, hb⟩)]
      rfl

/-- A nick is taken: he is registered if that was what was missing. -/
theorem told_of_takesNick (hold : NamesTold cfg rs s u) (honce : Once cfg rs u)
    (h : follow (next cfg) .init rs = some s) (hnick : s.takesNick u r = true)
    (huser : s.takesUser u r = false) (hset : (s'.persons u).nick ≠ [])
    (hsame : (s'.persons u).user = (s.persons u).user)
    (hreg : s.registers cfg u r = true ↔ (s.persons u).nick = [] ∧ (s.persons u).user ≠ []) :
    NamesTold cfg (rs ++ [r]) s' u ∧ Once cfg (rs ++ [r]) u := by
  have hn : nicksTaken cfg u (rs ++ [r]) = nicksTaken cfg u rs + 1 := by
    rw [nicksTaken_concat h, hnick]
    rfl
  have hu : usersTaken cfg u (rs ++ [r]) = usersTaken cfg u rs := by
    rw [usersTaken_concat h, huser]
    rfl
  refine ⟨⟨?_, ?_⟩, ?_⟩
  · rw [hn]
    exact iff_of_true hset (Nat.succ_pos _)
  · rw [hsame, hu]
    exact hold.user
  · have hafter : Introduced cfg u (rs ++ [r]) ↔ (s.persons u).user ≠ [] := by
      unfold Introduced
      rw [hn, hu, ← hold.user]
      exact and_iff_right (Nat.succ_pos _)
    exact honce.step h (hold.introduced_iff.trans and_comm) hafter (hreg.trans and_comm)

/-- A user name is taken. -/
theorem told_of_takesUser (hold : NamesTold cfg rs s u) (honce : Once cfg rs u)
    (h : follow (next cfg) .init rs = some s) (hnick : s.takesNick u r = false)
    (huser : s.takesUser u r = true) (hset : (s'.persons u).user ≠ [])
    (hsame : (s'.persons u).nick = (s.persons u).nick)
    (hreg : s.registers cfg u r = true ↔ (s.persons u).user = [] ∧ (s.persons u).nick ≠ []) :
    NamesTold cfg (rs ++ [r]) s' u ∧ Once cfg (rs ++ [r]) u := by
  have hn : nicksTaken cfg u (rs ++ [r]) = nicksTaken cfg u rs := by
    rw [nicksTaken_concat h, hnick]
    rfl
  have hu : usersTaken cfg u (rs ++ [r]) = usersTaken cfg u rs + 1 := by
    rw [usersTaken_concat h, huser]
    rfl
  refine ⟨⟨?_, ?_⟩, ?_⟩
  · rw [hsame, hn]
    exact hold.nick
  · rw [hu]
    exact iff_of_true hset (Nat.succ_pos _)
  · have hafter : Introduced cfg u (rs ++ [r]) ↔ (s.persons u).nick ≠ [] := by
      unfold Introduced
      rw [hn, hu, ← hold.nick]
      exact and_iff_left (Nat.succ_pos _)
    exact honce.step h hold.introduced_iff hafter (hreg.trans and_comm)

/-- What is known of the names of `u` and of his bursts after a run. -/
structure Recorded (cfg : Config) (u : Uid) (rs : List Request) (s : Server) : Prop where
  sane : Sane s
  told : u ∈ s.userlist.items → NamesTold cfg rs s u
  once : Once cfg rs u
  unborn : s.nextUid ≤ u → nicksTaken cfg u rs = 0 ∧ usersTaken cfg u rs = 0

/-- A request that is no accepted NICK or USER of `u`, and neither registers him nor
changes his names. -/
theorem Recorded.quiet (hold : Recorded cfg u rs s) (h : follow (next cfg) .init rs = some s)
    (hsane : Sane s') (hnick : s.takesNick u r = false) (huser : s.takesUser u r = false)
    (hreg : s.registers cfg u r = false) (hlist : u ∈ s'.userlist.items → u ∈ s.userlist.items)
    (hsameNick : (s'.persons u).nick = (s.persons u).nick)
    (hsameUser : (s'.persons u).user = (s.persons u).user) (hborn : s'.nextUid = s.nextUid) :
    Recorded cfg u (rs ++ [r]) s' := by
  refine ⟨hsane, fun hu => ?_, hold.once.quiet h hnick huser hreg, fun hu => ?_⟩
  · exact (hold.told (hlist hu)).quiet h hnick huser hsameNick hsameUser
  · obtain ⟨hn, hus, -⟩ := history_quiet h hnick huser hreg
    rw [hn, hus]
    rw [hborn] at hu
    exact hold.unborn hu

/-- A message of another client, who leaves the record of `u` alone. -/
theorem Recorded.other (hold : Recorded cfg u rs s) (h : follow (next cfg) .init rs = some s)
    (hsane : Sane s') (hr : r.input = .message self ps) (hne : self ≠ u)
    (hreg : s.registers cfg u r = false) (husers : s'.userlist = s.userlist)
    (hsame : s'.persons u = s.persons u) (hborn : s'.nextUid = s.nextUid) :
    Recorded cfg u (rs ++ [r]) s' := by
  have hsilent : s.takesNick u r = false ∧ s.takesUser u r = false := by
    unfold Server.takesNick Server.takesUser
    rw [hr]
    exact ⟨decide_eq_false fun hown => hne hown.1, decide_eq_false fun hown => hne hown.1⟩
  exact hold.quiet h hsane hsilent.1 hsilent.2 hreg (fun hu => by rwa [husers] at hu)
    (by rw [hsame]) (by rw [hsame]) hborn

/-- A NICK or a USER of `u` himself. -/
theorem Recorded.own (hold : Recorded cfg u rs s) (hsane : Sane s') (hin : u ∈ s.userlist.items)
    (hborn : s'.nextUid = s.nextUid)
    (hself : NamesTold cfg (rs ++ [r]) s' u ∧ Once cfg (rs ++ [r]) u) :
    Recorded cfg u (rs ++ [r]) s' := by
  refine ⟨hsane, fun _ => hself.1, hself.2, fun hu => ?_⟩
  rw [hborn] at hu
  exact absurd (hold.sane.usersOld u hin) (Nat.not_lt.mpr hu)

theorem Recorded.nick (hold : Recorded cfg u rs s) (h : follow (next cfg) .init rs = some s)
    {log : List Event} (hin : self ∈ s.userlist.items) (hcmd : commandOf (ps.get 0) = .NICK)
    (hfair : namesFairly u s ⟨.message self ps, ok, stale⟩)
    (hserve : serve cfg s ⟨.message self ps, ok, stale⟩ = some (s', log))
    (hborn : s'.nextUid = s.nextUid) :
    Recorded cfg u (rs ++ [⟨.message self ps, ok, stale⟩]) s' := by
  have hregisters := nick_registers_iff (v := u) hold.sane hin hcmd hserve
  have hsane := (turn_of_serve hold.sane hserve).sane hold.sane
  obtain ⟨rfl, -⟩ := nick_leaves hold.sane hcmd hserve
  by_cases hown : self = u
  case neg =>
    have hreg : s.registers cfg u ⟨.message self ps, ok, stale⟩ = false := by
      rw [← Bool.not_eq_true, hregisters]
      exact fun hreg => hown hreg.1.symm
    refine hold.other h hsane rfl hown hreg (afterNick_userlist _ _ _) ?_ hborn
    by_cases hfree : s.seekNick (ps.get 1) = none
    · obtain ⟨f, hpersons⟩ := afterNick_persons (u := self) hfree
      rw [hpersons, updPerson_ne _ (Ne.symm hown)]
    · rw [afterNick_taken hfree]
  subst hown
  have htakes : s.takesNick self ⟨.message self ps, ok, stale⟩ = true ↔
      ps.get 1 ≠ [] ∧ s.seekNick (ps.get 1) = none := by
    unfold Server.takesNick
    rw [decide_eq_true_iff]
    exact ⟨fun hown => hown.2.2, fun hown => ⟨rfl, hcmd, hown⟩⟩
  have huser : s.takesUser self ⟨.message self ps, ok, stale⟩ = false := by
    unfold Server.takesUser
    refine decide_eq_false fun hown => ?_
    rw [hcmd] at hown
    exact Command.noConfusion hown.2.1
  have hquiet : s.takesNick self ⟨.message self ps, ok, stale⟩ = false →
      s.registers cfg self ⟨.message self ps, ok, stale⟩ = false →
      ((s.afterNick self (ps.get 1)).persons self).nick = (s.persons self).nick →
      ((s.afterNick self (ps.get 1)).persons self).user = (s.persons self).user →
      NamesTold cfg (rs ++ [⟨.message self ps, ok, stale⟩]) (s.afterNick self (ps.get 1)) self ∧
        Once cfg (rs ++ [⟨.message self ps, ok, stale⟩]) self :=
    fun htake hreg hsameNick hsameUser =>
      ⟨(hold.told hin).quiet h htake huser hsameNick hsameUser,
        hold.once.quiet h htake huser hreg⟩
  refine hold.own hsane hin hborn ?_
  by_cases hfree : s.seekNick (ps.get 1) = none
  · obtain ⟨f, hpersons⟩ := afterNick_persons (u := self) hfree
    have hself : (s.afterNick self (ps.get 1)).persons self
        = { (s.persons self).updChans f with nick := ps.get 1 } := by
      rw [hpersons, updPerson_self]
    by_cases hname : ps.get 1 = []
    · -- an empty nick is given by who has no names: nothing changes
      obtain ⟨hnick, hnone⟩ := (hfair rfl hname).1 hcmd
      refine hquiet ?_ ?_ ?_ ?_
      · rw [← Bool.not_eq_true, htakes]
        exact fun hown => hown.1 hname
      · rw [← Bool.not_eq_true, hregisters]
        exact fun hreg => hreg.2.2.2 hnone
      · rw [hself, hnick]
        exact hname
      · rw [hself]
        rfl
    · refine told_of_takesNick (hold.told hin) hold.once h (htakes.mpr ⟨hname, hfree⟩)
        huser ?_ ?_ ?_
      · rw [hself]
        exact hname
      · rw [hself]
        rfl
      · rw [hregisters]
        exact ⟨fun hreg => hreg.2.2, fun hmissing => ⟨rfl, hfree, hmissing⟩⟩
  · refine hquiet ?_ ?_ ?_ ?_
    · rw [← Bool.not_eq_true, htakes]
      exact fun hown => hfree hown.2
    · rw [← Bool.not_eq_true, hregisters]
      exact fun hreg => hfree hreg.2.1
    · rw [afterNick_taken hfree]
    · rw [afterNick_taken hfree]

theorem Recorded.user (hold : Recorded cfg u rs s) (h : follow (next cfg) .init rs = some s)
    {log : List Event} (hin : self ∈ s.userlist.items) (hcmd : commandOf (ps.get 0) = .USER)
    (hfair : namesFairly u s ⟨.message self ps, ok, stale⟩)
    (hserve : serve cfg s ⟨.message self ps, ok, stale⟩ = some (s', log))
    (hborn : s'.nextUid = s.nextUid) :
    Recorded cfg u (rs ++ [⟨.message self ps, ok, stale⟩]) s' := by
  have hregisters := user_registers_iff (v := u) hold.sane hin hcmd hserve
  have hsane := (turn_of_serve hold.sane hserve).sane hold.sane
  obtain ⟨rfl, -⟩ := user_leaves hold.sane hcmd hserve
  have hrefused : (s.persons self).user ≠ [] ∧ (s.persons self).nick ≠ [] ↔
      (s.persons self).registered = true := registered_iff.trans and_comm |>.symm
  by_cases hown : self = u
  case neg =>
    have hreg : s.registers cfg u ⟨.message self ps, ok, stale⟩ = false := by
      rw [← Bool.not_eq_true, hregisters]
      exact fun hreg => hown hreg.1.symm
    refine hold.other h hsane rfl hown hreg (afterUser_userlist _ _ _ _) ?_ hborn
    by_cases htaken : (s.persons self).user ≠ [] ∧ (s.persons self).nick ≠ []
    · unfold Server.afterUser
      rw [if_pos htaken]
    · rw [afterUser_persons htaken]
      exact updPerson_ne _ (Ne.symm hown)
  subst hown
  have htakes : s.takesUser self ⟨.message self ps, ok, stale⟩ = true ↔
      ps.get 1 ≠ [] ∧ (s.persons self).registered = false := by
    unfold Server.takesUser
    rw [decide_eq_true_iff]
    exact ⟨fun hown => hown.2.2, fun hown => ⟨rfl, hcmd, hown⟩⟩
  have hnick : s.takesNick self ⟨.message self ps, ok, stale⟩ = false := by
    unfold Server.takesNick
    refine decide_eq_false fun hown => ?_
    rw [hcmd] at hown
    exact Command.noConfusion hown.2.1
  have hquiet : s.takesUser self ⟨.message self ps, ok, stale⟩ = false →
      s.registers cfg self ⟨.message self ps, ok, stale⟩ = false →
      ((s.afterUser self (ps.get 1) (ps.get 4).tail).persons self).nick = (s.persons self).nick →
      ((s.afterUser self (ps.get 1) (ps.get 4).tail).persons self).user = (s.persons self).user →
      NamesTold cfg (rs ++ [⟨.message self ps, ok, stale⟩])
        (s.afterUser self (ps.get 1) (ps.get 4).tail) self ∧
      Once cfg (rs ++ [⟨.message self ps, ok, stale⟩]) self :=
    fun htake hreg hsameNick hsameUser =>
      ⟨(hold.told hin).quiet h hnick htake hsameNick hsameUser,
        hold.once.quiet h hnick htake hreg⟩
  refine hold.own hsane hin hborn ?_
  by_cases hreg : (s.persons self).registered = true
  · have hsame : s.afterUser self (ps.get 1) (ps.get 4).tail = s := by
      unfold Server.afterUser
      rw [if_pos (hrefused.mpr hreg)]
    refine hquiet ?_ ?_ (by rw [hsame]) (by rw [hsame])
    · rw [← Bool.not_eq_true, htakes, hreg]
      exact fun hown => Bool.noConfusion hown.2
    · rw [← Bool.not_eq_true, hregisters]
      exact fun hown => absurd hown.2.1 (registered_iff.mp hreg).2
  · have hself : (s.afterUser self (ps.get 1) (ps.get 4).tail).persons self
        = { s.persons self with user := ps.get 1, fullname := (ps.get 4).tail } := by
      rw [afterUser_persons (mt hrefused.mp hreg)]
      exact updPerson_self _ _ _
    by_cases hname : ps.get 1 = []
    · -- an empty user name is given by who has no names
      obtain ⟨hnil, hnone⟩ := ((hfair rfl hname).2 hcmd).resolve_left hreg
      refine hquiet ?_ ?_ ?_ ?_
      · rw [← Bool.not_eq_true, htakes]
        exact fun hown => hown.1 hname
      · rw [← Bool.not_eq_true, hregisters]
        exact fun hown => hown.2.2 hnil
      · rw [hself]
      · rw [hself, hnone]
        exact hname
    · have hfalse : (s.persons self).registered = false := Bool.eq_false_iff.mpr hreg
      refine told_of_takesUser (hold.told hin) hold.once h hnick
        (htakes.mpr ⟨hname, hfalse⟩) ?_ ?_ ?_
      · rw [hself]
        exact hname
      · rw [hself]
      · rw [hregisters]
        exact and_iff_right rfl

/-- A new connection has no names, and nothing has been said of it. -/
theorem Recorded.connect (hold : Recorded cfg u rs s) (h : follow (next cfg) .init rs = some s)
    {fd : Nat} {address : CStr} {log : List Event} (hsane : Sane (s.arrive fd address))
    (hr : r.input = .connect fd address) (hserve : serve cfg s r = some (s.arrive fd address, log)) :
    Recorded cfg u (rs ++ [r]) (s.arrive fd address) := by
  have hnick : s.takesNick u r = false := by
    unfold Server.takesNick
    rw [hr]
  have huser : s.takesUser u r = false := by
    unfold Server.takesUser
    rw [hr]
  have hreg : s.registers cfg u r = false := not_registers hserve (Or.inl rfl)
  obtain ⟨hn, hus, -⟩ := history_quiet h hnick huser hreg
  refine ⟨hsane, fun hu => ?_, hold.once.quiet h hnick huser hreg, fun hu => ?_⟩
  · rw [arrive_userlist hold.sane.idle.users] at hu
    cases List.mem_append.mp hu with
    | inl hu =>
      have hsame : (s.arrive fd address).persons u = s.persons u :=
        arrive_old (hold.sane.usersOld u hu)
      exact (hold.told hu).quiet h hnick huser (by rw [hsame]) (by rw [hsame])
    | inr hu =>
      have hzero := hold.unborn (Nat.le_of_eq (List.mem_singleton.mp hu).symm)
      rw [← hn, ← hus] at hzero
      have hempty : (s.arrive fd address).persons u = ⟨fd, [], [], [], address, [], [], .init⟩ := by
        rw [List.mem_singleton.mp hu, arrive_new]
      refine ⟨?_, ?_⟩
      · rw [hempty, hzero.1]
        exact iff_of_false (fun hne => hne rfl) (Nat.lt_irrefl 0)
      · rw [hempty, hzero.2]
        exact iff_of_false (fun hne => hne rfl) (Nat.lt_irrefl 0)
  · rw [hn, hus]
    exact hold.unborn (Nat.le_of_succ_le hu)

/-- **One request.** -/
theorem Recorded.step (hold : Recorded cfg u rs s) (h : follow (next cfg) .init rs = some s)
    (hfair : namesFairly u s r) (hnext : next cfg s r = some s') :
    Recorded cfg u (rs ++ [r]) s' := by
  obtain ⟨⟨t, log⟩, hserve, ht⟩ := Option.map_eq_some_iff.mp hnext
  have ht : t = s' := ht
  rw [ht] at hserve
  have hturn := turn_of_serve hold.sane hserve
  have hsane := hturn.sane hold.sane
  cases hturn with
  | connect _ => exact hold.connect h hsane rfl hserve
  | @message self ps ok stale _ hin heff =>
    by_cases hnick : commandOf (ps.get 0) = .NICK
    · exact hold.nick h hin hnick hfair hserve heff.nextUid
    · by_cases huser : commandOf (ps.get 0) = .USER
      · exact hold.user h hin huser hfair hserve heff.nextUid
      · have hsame := heff.sameNames hold.sane hnick huser
        refine hold.quiet h hsane ?_ ?_ (not_registers hserve hsame.count)
          (fun hu => hsame.userlist hu) (hsame.nick u) (hsame.user u) heff.nextUid
        · exact decide_eq_false fun hown => hnick hown.2.1
        · exact decide_eq_false fun hown => huser hown.2.1
  | hangup _ hexit =>
    have hsame := sameNames_exitUser hold.sane.idle.users hexit
    exact hold.quiet h hsane rfl rfl (not_registers hserve hsame.count)
      (fun hu => hsame.userlist hu) (hsame.nick u) (hsame.user u) (exitUser_nextUid hexit)

end Step

theorem recorded_init : Recorded cfg u [] .init := by
  refine ⟨sane_init, nofun, ?_, fun _ => ⟨rfl, rfl⟩⟩
  have hnot : ¬ Introduced cfg u [] := fun hin => Nat.lt_irrefl 0 hin.1
  unfold Once
  rw [if_neg hnot]
  rfl

theorem recorded_of_path {rs : List Request} (h : Path (next cfg) (namesFairly u) .init rs s) :
    Recorded cfg u rs s := by
  refine h.history (Recorded cfg u) recorded_init ?_
  intro rs s r s' hpath hfair hnext hold
  exact hold.step (follow_of_path hpath) hfair hnext

/-- Along runs in which `u` gives no empty names he is registered once, by the request
that completes his introduction, and stays registered. -/
theorem registered_once {rs : List Request} (u : Uid)
    (h : Path (next cfg) (namesFairly u) .init rs s) : RegisteredOnce cfg rs s u := by
  have hrec := recorded_of_path h
  exact ⟨hrec.once, fun hu hin => (hrec.told hu).introduced_iff.mp hin⟩

/-- One client registers; another takes a nick and gives it up again. -/
def besideNameless : List Request :=
  registersOne ++ [.plain (.connect 5 []), .plain (.line 1 ["NICK", "b"]),
    .plain (.line 1 ["NICK"]), .plain (.line 0 ["NICK", "c"])]

theorem registered_once_beside : ∃ s, Path (next .plain) (namesFairly 0) .init besideNameless s ∧
    s.userlist.items = [0, 1] ∧ Introduced .plain 0 besideNameless ∧
    RegisteredOnce .plain besideNameless s 0 := by
  have hfair : ∀ r ∈ besideNameless, ∀ s, namesFairly 0 s r := by
    intro r hr s
    simp only [besideNameless, registersOne, List.cons_append, List.nil_append, List.mem_cons,
      List.not_mem_nil, or_false] at hr
    obtain rfl | rfl | rfl | rfl | rfl | rfl | rfl := hr
    · trivial
    · exact fun _ hnil => absurd hnil (by decide)
    · exact fun _ hnil => absurd hnil (by decide)
    · trivial
    · exact fun hself => absurd hself (by decide)
    · exact fun hself => absurd hself (by decide)
    · exact fun _ hnil => absurd hnil (by decide)
  obtain ⟨s, hpath, hone⟩ := exists_of_follow (p := fun s => s.userlist.items = [0, 1]) hfair
    (by decide +kernel : (follow (next .plain) .init besideNameless).any _ = true)
  exact ⟨s, hpath, of_decide_eq_true hone, by decide +kernel, registered_once 0 hpath⟩

/-- A registered client gives up his nick, and takes another. -/
def registersAgain : List Request :=
  registersOne ++ [.plain (.line 0 ["NICK"]), .plain (.line 0 ["NICK", "b"])]

/-- He gets the burst a second time. -/
theorem registered_twice : ¬ ∀ (cfg : Config) (rs : List Request) (s : Server) (u : Uid),
    Path (next cfg) anyRequest .init rs s → RegisteredOnce cfg rs s u := by
  intro hall
  have hany : ∀ r ∈ registersAgain, ∀ s, anyRequest s r := fun _ _ _ => trivial
  obtain ⟨s, hpath, -⟩ := exists_of_follow (p := fun _ => true) hany
    (by decide +kernel : (follow (next .plain) .init registersAgain).any _ = true)
  have honce : registrations .plain 0 registersAgain
      = if Introduced .plain 0 registersAgain then 1 else 0 := (hall .plain _ s 0 hpath).once
  have htwo : registrations .plain 0 registersAgain = 2 := by decide +kernel
  have hboth : Introduced .plain 0 registersAgain := by decide +kernel
  rw [htwo, if_pos hboth] at honce
  cases honce

end UchiNetworks.Chirc
