import UchiNetworks.Chirc.ChannelModes
import UchiNetworks.Chirc.Lookups

/-!
# chirc: whose status a MODE changes

`MODE #c +o nick` names a member by his nick, and the relayed line repeats that
nick. `chirc_handle_MODE` looks him up by `USER` instead of `NICK`: whose status
changes is the first client with that username (`Server.seekMember`).

`SetsNamed` is what the line says, `FindsNamed` when the lookup comes to the same
(`memberStatus_iff`). A client may have the nick another has as his username, and
then the other's status changes (`memberStatus_swapped`).
-/

namespace UchiNetworks.Chirc

open UchiNetworks.Lib
open Prog

variable {cfg : Config} {self user : Uid} {ok : Nat → Bool} {s : Server} {u t : Uid} {c : Cid}
  {ps : Params}

/-- An operator of the channel gives a member a status, or takes it from him. -/
structure Authorised (s : Server) (u : Uid) (ps : Params) (c : Cid) : Prop where
  chan : s.seekChan (ps.get 1) = some c
  may : s.mayStatus u (ps.get 1) = true
  mode : ps.get 2 ∈ [str "+o", str "-o", str "+v", str "-v"]
  nick : ps.get 3 ≠ []

/-- `t` is a member of the channel, and the nick is his. -/
def Server.named (s : Server) (ps : Params) (t : Uid) : Prop :=
  t ∈ s.userlist.items ∧ (s.persons t).nick = ps.get 3 ∧ (s.persons t).onChan (ps.get 1) = true

/-- Whom the handler takes for him. -/
def Server.seekMember (s : Server) (ps : Params) : Option Uid :=
  (s.seekUser (ps.get 3)).filter fun t => (s.persons t).onChan (ps.get 1)

/-- The reply that nobody of this nick is on the channel. -/
def notInChannel (cfg : Config) (s : Server) (u : Uid) (ps : Params) : Event :=
  .send (s.persons u).clientSocket
    (constrReply cfg .errUsernotinchannel (s.persons u) [] (ps.get 3 ++ str " " ++ ps.get 1))

/-- **The line is true.** The member of that nick has the status afterwards,
nothing else changes, and it is relayed; without such a member there is a reply
and no change. It does not matter what the server is called. -/
structure SetsNamed (s : Server) (thread user : Uid) (ps : Params) (c : Cid) : Prop where
  member : ∀ t, s.named ps t → ∀ cfg, (handleMODE cfg thread user ps).Meets allOk
    (SetsUp allOk (s.withStatus t ps) (relays (s.withStatus t ps) (s.channels c).name
      (memberModeLine s user ps) none s.userlist.items)) s.world
  nobody : (∀ t, ¬ s.named ps t) → ∀ cfg, (handleMODE cfg thread user ps).Meets allOk
    (SetsUp allOk s [notInChannel cfg s user ps]) s.world

/-- The status of `t` is as asked for. -/
def Server.hasStatus (s : Server) (ps : Params) (t : Uid) : Prop :=
  ∃ m, (s.persons t).seekChan (ps.get 1) = some m ∧ hasMode m.mode (modeLetter ps) = adds (ps.get 2)

/-- A letter more fits into the array with `t`'s status, if there has to be one. -/
def Server.hasRoom (s : Server) (ps : Params) (t : Uid) : Prop :=
  ∀ m, (s.persons t).seekChan (ps.get 1) = some m → adds (ps.get 2) = true →
    hasMode m.mode (modeLetter ps) = false → (m.mode ++ [modeLetter ps]).length ≤ modeRoom

/-- The lookup by username comes to the same as one by nick: it finds the member
of that nick, or somebody for whom, as for him, there is nothing to do; and it
finds nobody on the channel where there is no such member. -/
structure FindsNamed (s : Server) (ps : Params) : Prop where
  member : ∀ t, s.named ps t → ∃ t', s.seekMember ps = some t' ∧ s.hasRoom ps t' ∧
    (t' = t ∨ s.hasStatus ps t ∧ s.hasStatus ps t')
  nobody : (∀ t, ¬ s.named ps t) → s.seekMember ps = none

/-! ## What the handler does -/

/-- The mode string is a sign and a letter. -/
theorem Authorised.signed (h : Authorised s u ps c) : signedLetter (ps.get 2) := by
  have hmode := h.mode
  simp only [List.mem_cons, List.not_mem_nil, or_false] at hmode
  rcases hmode with hmode | hmode | hmode | hmode
  · exact Or.inr ⟨modeO, Or.inl hmode⟩
  · exact Or.inr ⟨modeO, Or.inr hmode⟩
  · exact Or.inr ⟨modeV, Or.inl hmode⟩
  · exact Or.inr ⟨modeV, Or.inr hmode⟩

/-- The letter is known. -/
theorem Authorised.anyOf (h : Authorised s u ps c) : anyOf (ps.get 2) (str "ov") = true := by
  have hall : ∀ mode ∈ [str "+o", str "-o", str "+v", str "-v"],
      Chirc.anyOf mode (str "ov") = true := by decide
  exact hall _ h.mode

/-- So the string is not empty. -/
theorem Authorised.ne_nil (h : Authorised s u ps c) : ps.get 2 ≠ [] := by
  intro hnil
  have hany := h.anyOf
  rw [hnil] at hany
  cases hany

/-- All tests are passed. -/
theorem Authorised.setsMember (h : Authorised s u ps c) (hfound : s.seekMember ps = some t) :
    s.setsMember u ps = some (c, t) := by
  unfold Server.setsMember
  rw [if_pos ⟨h.nick, h.may, h.anyOf⟩, h.chan, Option.bind_some]
  rw [show (s.seekUser (ps.get 3)).filter (fun t => (s.persons t).onChan (ps.get 1)) = some t
    from hfound]
  rfl

/-- Whom the search finds is on the channel. -/
theorem onChan_of_seekMember (h : s.seekMember ps = some t) :
    (s.persons t).onChan (ps.get 1) = true :=
  (Option.filter_eq_some_iff.mp h).2

/-- A member has an entry for the channel. -/
theorem Authorised.exists_entry (h : Authorised s u ps c)
    (hon : (s.persons t).onChan (ps.get 1) = true) :
    ∃ m, (s.persons t).seekChan (ps.get 1) = some m :=
  (onChan_iff_seekChan (seekChan_ne_nil h.chan)).mp hon

/-- Who is found gets the status. -/
theorem handleMODE_found (hidle : s.userlist.iter = none) (h : Authorised s user ps c)
    (hfound : s.seekMember ps = some t) (hroom : s.hasRoom ps t) :
    (handleMODE cfg self user ps).Meets ok
      (SetsUp ok (s.withStatus t ps) (relays (s.withStatus t ps) (s.channels c).name
        (memberModeLine s user ps) none s.userlist.items)) s.world := by
  obtain ⟨m, hm⟩ := h.exists_entry (onChan_of_seekMember hfound)
  exact (handleMODE_member (h.setsMember hfound)).mpr
    (setMemberMode_sets hidle hm (hroom m hm) h.signed h.ne_nil)

/-- The array of who is found is full. -/
theorem handleMODE_full (h : Authorised s user ps c) (hfound : s.seekMember ps = some t)
    (hfull : ¬ s.hasRoom ps t) :
    (handleMODE cfg self user ps).Meets ok
      ⟨fun _ _ => False, fun _ => False, fun f => f = .bounds, False⟩ s.world := by
  refine (handleMODE_member (h.setsMember hfound)).mpr ?_
  unfold Server.hasRoom at hfull
  push Not at hfull
  obtain ⟨m, hm, hadd, hnew, hfull⟩ := hfull
  have hplus : (ps.get 2).head? = some (chr '+') := of_decide_eq_true hadd
  have htail : (ps.get 2).tail = [modeLetter ps] := (modeString_add h.signed hplus).1
  unfold setMemberMode
  rw [lockedLook_bind List.not_mem_nil]
  dsimp only
  rw [hm, meets_bind]
  unfold changeMember
  rw [if_pos hplus]
  unfold addMemberMode
  rw [deref_bind, meets_onlyIf]
  refine ⟨fun _ => ?_, fun hhas => ?_⟩
  · rw [meets_bind, htail]
    unfold strcatMode
    rw [if_neg (Nat.not_le.mpr hfull)]
    exact rfl
  · rw [hnew] at hhas
    cases hhas

/-- Nobody is found: the reply comes without the lock, but it comes. -/
theorem handleMODE_nobody (h : Authorised s user ps c) (hnone : s.seekMember ps = none) :
    (handleMODE cfg self user ps).Meets allOk (SetsUp allOk s [notInChannel cfg s user ps])
      s.world := by
  have hreply : (bareReply cfg self user .errUsernotinchannel []
      (ps.get 3 ++ str " " ++ ps.get 1)).Meets allOk
        (SetsUp allOk s [notInChannel cfg s user ps]) s.world := by
    unfold bareReply
    rw [look_bind, output_bind, onlyIf_bind]
    exact ⟨fun hfail => absurd hfail (by simp [allOk]), fun _ => ⟨rfl, rfl⟩⟩
  have hmay := h.may
  unfold Server.mayStatus at hmay
  unfold handleMODE
  rw [if_pos h.nick]
  refine (lookChan_eq List.not_mem_nil).mpr ?_
  rw [h.chan]
  unfold modeMemberChan
  refine (lockedLook_bind List.not_mem_nil).mpr ?_
  rw [look_bind]
  show (if !((s.persons user).seekChan (ps.get 1)).any
    (fun m => hasMode (s.persons user).mode modeO || hasMode m.mode modeO) then _ else _
    : Act Unit).Meets _ _ _
  rw [hmay, Bool.not_true, if_neg Bool.false_ne_true]
  refine (lockedLook_bind List.not_mem_nil).mpr ?_
  show (modeMemberTarget cfg self user ps c (s.seekUser (ps.get 3))).Meets _ _ _
  cases hseek : s.seekUser (ps.get 3) with
  | none => exact hreply
  | some t =>
    have hoff : (s.persons t).onChan (ps.get 1) = false := by
      unfold Server.seekMember at hnone
      rw [hseek] at hnone
      simpa using hnone
    unfold modeMemberTarget
    rw [look_bind]
    show (if !(s.persons t).onChan (ps.get 1) then _ else _ : Act Unit).Meets _ _ _
    rw [hoff, Bool.not_false, if_pos rfl]
    exact hreply

/-! ## One run, one end -/

/-- A run leaves one state, and says one thing. -/
theorem setsUp_unique {p : Act Unit} {w : World Server Mutex Event} {s₁ s₂ : Server}
    {msgs₁ msgs₂ : List Event} (h₁ : p.Meets allOk (SetsUp allOk s₁ msgs₁) w)
    (h₂ : p.Meets allOk (SetsUp allOk s₂ msgs₂) w) : s₁ = s₂ ∧ msgs₁ = msgs₂ := by
  unfold Prog.Meets at h₁ h₂
  cases hrun : p.run allOk w with
  | done a w' =>
    rw [hrun] at h₁ h₂
    exact ⟨h₁.1.symm.trans h₂.1, h₁.2.symm.trans h₂.2⟩
  | exited w' => rw [hrun] at h₁; exact h₁.elim
  | crashed f w' => rw [hrun] at h₁; exact h₁.elim
  | stuck w' => rw [hrun] at h₁; exact (not_fails_allOk h₁).elim

/-- A run that comes to its end has not overrun the array. -/
theorem setsUp_not_full {s₁ : Server} {msgs : List Event} (h : Authorised s user ps c)
    (hfound : s.seekMember ps = some t)
    (hsets : (handleMODE cfg self user ps).Meets allOk (SetsUp allOk s₁ msgs) s.world) :
    s.hasRoom ps t := by
  by_contra hfull
  exact hsets.absurd (handleMODE_full h hfound hfull) (fun _ _ _ h => h) (fun _ _ h => h)
    (fun _ h _ => h) (fun _ h => h)

/-- A server of this name. -/
def Config.called (name : UInt8) : Config := { Config.plain with servername := [name] }

/-- A reply begins with the name of the server, and no relayed line does. -/
theorem reply_not_relayed (msgs : List Event)
    (h : ∀ cfg, msgs = [notInChannel cfg s user ps]) : False := by
  have hsame := (h (.called 1)).symm.trans (h (.called 2))
  have hline := (Event.send.inj (List.cons.inj hsame).1).2
  have hsecond := congrArg (fun line : CStr => line.getD 1 0) hline
  exact absurd (show (1 : UInt8) = 2 from hsecond) (by decide)

/-! ## When the line is true -/

/-- A change that changes nothing finds what it sets. -/
theorem hasStatus_of_same {s₁ : Server} (h : Authorised s u ps c)
    (hon : (s.persons t).onChan (ps.get 1) = true) (hsame : s.withStatus t ps = s₁)
    (hkept : s₁.persons t = s.persons t) : s.hasStatus ps t := by
  obtain ⟨m, hm⟩ := h.exists_entry hon
  have hset : ((s.withStatus t ps).persons t).seekChan (ps.get 1) = _ := withStatus_seekChan hm
  rw [hsame, hkept, hm] at hset
  have hmode := congrArg MyChan.mode (Option.some.inj hset)
  exact ⟨m, hm, setLetter_eq_self.mp hmode.symm⟩

/-- The status that is there is not set again. -/
theorem withStatus_of_hasStatus (h : s.hasStatus ps t) : s.withStatus t ps = s := by
  obtain ⟨m, hm, hhas⟩ := h
  exact withStatus_same hm (setLetter_eq_self.mpr hhas)

/-- The others keep theirs. -/
theorem withStatus_ne {t t' : Uid} (hne : t ≠ t') :
    (s.withStatus t' ps).persons t = s.persons t := updPerson_ne _ hne

/-- Whom the line names, if it is true, is whom the handler finds. -/
theorem found_of_sets (hidle : s.userlist.iter = none) (h : Authorised s user ps c)
    (hnamed : s.named ps t)
    (hsets : ∀ cfg, (handleMODE cfg self user ps).Meets allOk
      (SetsUp allOk (s.withStatus t ps) (relays (s.withStatus t ps) (s.channels c).name
        (memberModeLine s user ps) none s.userlist.items)) s.world) :
    ∃ t', s.seekMember ps = some t' ∧ s.hasRoom ps t' ∧
      (t' = t ∨ s.hasStatus ps t ∧ s.hasStatus ps t') := by
  cases hfound : s.seekMember ps with
  | none =>
    exact (reply_not_relayed _ fun cfg =>
      (setsUp_unique (hsets cfg) (handleMODE_nobody h hfound)).2).elim
  | some t' =>
    have hroom := setsUp_not_full h hfound (hsets .plain)
    refine ⟨t', rfl, hroom, ?_⟩
    by_cases ht : t' = t
    · exact Or.inl ht
    · obtain ⟨hsame, -⟩ := setsUp_unique (hsets .plain) (handleMODE_found hidle h hfound hroom)
      exact Or.inr ⟨hasStatus_of_same h hnamed.2.2 hsame (withStatus_ne (Ne.symm ht)),
        hasStatus_of_same h (onChan_of_seekMember hfound) hsame.symm (withStatus_ne ht)⟩

/-- **A MODE changes the status of the member it names** exactly when the lookup by
username comes to the same as one by nick. -/
theorem memberStatus_iff (hidle : s.userlist.iter = none) (h : Authorised s user ps c) :
    SetsNamed s self user ps c ↔ FindsNamed s ps := by
  refine ⟨fun hsets => ⟨fun t hnamed => ?_, fun hnobody => ?_⟩,
    fun hfinds => ⟨fun t hnamed cfg => ?_, fun hnobody cfg => ?_⟩⟩
  · exact found_of_sets hidle h hnamed (hsets.member t hnamed)
  · cases hfound : s.seekMember ps with
    | none => rfl
    | some t' =>
      have hroom := setsUp_not_full h hfound (hsets.nobody hnobody .plain)
      exact (reply_not_relayed _ fun cfg =>
        (setsUp_unique (handleMODE_found hidle h hfound hroom) (hsets.nobody hnobody cfg)).2).elim
  · obtain ⟨t', hfound, hroom, rfl | ⟨hhas, hhas'⟩⟩ := hfinds.member t hnamed
    · exact handleMODE_found hidle h hfound hroom
    · have hsets : (handleMODE cfg self user ps).Meets allOk _ s.world :=
        handleMODE_found hidle h hfound hroom
      rw [withStatus_of_hasStatus hhas'] at hsets
      rw [withStatus_of_hasStatus hhas]
      exact hsets
  · exact handleMODE_nobody h (hfinds.nobody hnobody)

/-- Two clients on a channel, each with the other's nick as his username. -/
def swapsNames : List Request :=
  [.plain (.connect 4 []), .plain (.line 0 ["NICK", "a"]), .plain (.line 0 ["USER", "b"]),
    .plain (.connect 5 []), .plain (.line 1 ["NICK", "b"]), .plain (.line 1 ["USER", "a"]),
    .plain (.line 0 ["JOIN", "#c"]), .plain (.line 1 ["JOIN", "#c"])]

/-- The first, who is the operator, is to have a voice. -/
def voicesFirst : Params := ["MODE", "#c", "+v", "a"].map str

/-- The first client has the second one's user name for his nick. -/
theorem swapsNames_reached : ∃ s, Reachable .plain s ∧ 0 ∈ s.userlist.items ∧
    s.userlist.iter = none ∧ Authorised s 0 voicesFirst 0 ∧ s.named voicesFirst 0 ∧
    s.seekMember voicesFirst = some 1 ∧ (s.persons 1).seekChan (str "#c") = some ⟨str "#c", []⟩ := by
  have hany : ∀ r ∈ swapsNames, ∀ s, anyRequest s r := fun _ _ _ => trivial
  obtain ⟨s, hpath, hs⟩ := exists_of_follow
    (p := fun s => (s.seekChan (str "#c") = some 0 ∧ s.mayStatus 0 (str "#c") = true) ∧
      ((0 : Uid) ∈ s.userlist.items ∧ (s.persons 0).nick = str "a" ∧
        (s.persons 0).onChan (str "#c") = true) ∧
      s.seekMember voicesFirst = some 1 ∧
      (s.persons 1).seekChan (str "#c") = some ⟨str "#c", []⟩)
    hany (by decide +kernel : (follow (next .plain) .init swapsNames).any _ = true)
  obtain ⟨⟨hchan, hmay⟩, hnamed, hfound, hentry⟩ := of_decide_eq_true hs
  exact ⟨s, ⟨_, hpath⟩, hnamed.1, (sane_of_path hpath).idle.users,
    ⟨hchan, hmay, by decide, by decide⟩, hnamed, hfound, hentry⟩

theorem memberStatus_swapsNames : ∃ s, Reachable .plain s ∧ Authorised s 0 voicesFirst 0 ∧
    (SetsNamed s 0 0 voicesFirst 0 ↔ FindsNamed s voicesFirst) := by
  obtain ⟨s, hreach, -, hidle, hauth, -⟩ := swapsNames_reached
  exact ⟨s, hreach, hauth, memberStatus_iff hidle hauth⟩

/-- The second gets the voice. -/
theorem memberStatus_swapped : ¬ ∀ (cfg : Config) (s : Server) (self : Uid) (ps : Params) (c : Cid),
    Reachable cfg s → self ∈ s.userlist.items → Authorised s self ps c →
    SetsNamed s self self ps c := by
  intro hall
  obtain ⟨s, hreach, hin, hidle, hauth, hnamed, hfound, hentry⟩ := swapsNames_reached
  have hsets := (hall .plain s 0 voicesFirst 0 hreach hin hauth).member 0 hnamed
  obtain ⟨t, hseek, -, hcases⟩ := found_of_sets hidle hauth hnamed hsets
  rw [hfound] at hseek
  rcases hcases with ht | ⟨-, m, hm, hhas⟩
  · rw [ht] at hseek
    cases hseek
  · rw [← Option.some.inj hseek] at hm
    rw [← Option.some.inj (hentry.symm.trans hm)] at hhas
    exact absurd hhas (by decide)

end UchiNetworks.Chirc
