import UchiNetworks.Chirc.Turn

/-!
# chirc: who may do what

Three kinds of mode string say what a user may do: his own mode, his mode in a
channel, and the channel's. Here the sends work, and a command that reads through
a null pointer aborts and changes nothing (`handle`).

- What changes a channel's mode or topic, or a member's status, comes from an
  operator, or is a TOPIC on a channel that lets its members set it.
- What is relayed to a channel comes from a member who may speak, and reaches
  every other member once and nobody else.
- An operator of the server has given the password.
-/

namespace UchiNetworks.Chirc

open UchiNetworks.Lib
open Prog

variable {cfg : Config} {ok : Nat → Bool} {s s' : Server} {u : Uid} {ps : Params}
  {stale : Nat → Nat}

/-- A command that aborts leaves the server as it was. -/
def handle (cfg : Config) (s : Server) (r : Request) : Server := (next cfg s r).getD s

/-! ## Modes and topics -/

/-- What a command may change, and who may use it to do so. -/
structure Changes (s : Server) (u : Uid) (ps : Params) (s' : Server) : Prop where
  mode : ∀ c ∈ s.chanlist.items, (s'.channels c).mode ≠ (s.channels c).mode →
    s.isOper u (s.channels c).name
  topic : ∀ c ∈ s.chanlist.items, (s'.channels c).topic ≠ (s.channels c).topic →
    s.isOper u (s.channels c).name ∨ commandOf (ps.get 0) = .TOPIC ∧
      (s.persons u).onChan (s.channels c).name = true ∧
      hasMode (s.channels c).mode modeT = false
  status : ∀ v, ∀ m ∈ (s.persons v).myChans.items, ∀ m' ∈ (s'.persons v).myChans.items,
    m'.name = m.name → m'.mode ≠ m.mode → s.isOper u m.name

/-- Modes, topics and members' status stay. -/
structure Keeps (s s' : Server) : Prop where
  mode : ∀ c ∈ s.chanlist.items, (s'.channels c).mode = (s.channels c).mode
  topic : ∀ c ∈ s.chanlist.items, (s'.channels c).topic = (s.channels c).topic
  status : ∀ v, ∀ m ∈ (s.persons v).myChans.items, ∀ m' ∈ (s'.persons v).myChans.items,
    m'.name = m.name → m'.mode = m.mode

/-- Who keeps everything has nothing to answer for. -/
theorem Keeps.changes (h : Keeps s s') : Changes s u ps s' where
  mode := fun c hc hne => absurd (h.mode c hc) hne
  topic := fun c hc hne => absurd (h.topic c hc) hne
  status := fun v m hm m' hm' hname hne => absurd (h.status v m hm m' hm' hname) hne

/-- A name comes once in a user's own list. -/
theorem same_entry (hs : Sane s) {v : Uid} {m m' : MyChan}
    (hm : m ∈ (s.persons v).myChans.items) (hm' : m' ∈ (s.persons v).myChans.items)
    (hname : m'.name = m.name) : m' = m :=
  List.inj_on_of_nodup_map (hs.mine v) hm' hm hname

/-- Channels but for their counts as they were, own lists with fewer entries. -/
theorem Keeps.shrink (hs : Sane s)
    (hchans : ∀ c ∈ s.chanlist.items, (s'.channels c).mode = (s.channels c).mode ∧
      (s'.channels c).topic = (s.channels c).topic)
    (hmine : ∀ v, (s'.persons v).myChans.items ⊆ (s.persons v).myChans.items) : Keeps s s' where
  mode := fun c hc => (hchans c hc).1
  topic := fun c hc => (hchans c hc).2
  status := fun v m hm m' hm' hname => by rw [same_entry hs hm (hmine v hm') hname]

/-- A record may lose channels. -/
theorem keeps_updPerson (hs : Sane s) {f : Person → Person}
    (hf : (f (s.persons u)).myChans.items ⊆ (s.persons u).myChans.items) :
    Keeps s (s.updPerson u f) := by
  refine .shrink hs (fun _ _ => ⟨rfl, rfl⟩) fun v => ?_
  by_cases hv : v = u
  · rw [hv, updPerson_self]
    exact hf
  · rw [updPerson_ne f hv]
    exact List.Subset.refl _

/-- Leaving a channel keeps the modes and topics. -/
theorem leaveChan_keeps (s : Server) (c d : Cid) :
    ((s.leaveChan c).channels d).mode = (s.channels d).mode ∧
      ((s.leaveChan c).channels d).topic = (s.channels d).topic := by
  rw [leaveChan_channels]
  by_cases hd : d = c
  · rw [hd, updChannel_self]
    exact ⟨rfl, rfl⟩
  · rw [updChannel_ne _ hd]
    exact ⟨rfl, rfl⟩

/-- So does leaving one after another. -/
theorem leaveChans_keeps {ms : List MyChan} (h : Server.leaveChans ms s = some s') (d : Cid) :
    (s'.channels d).mode = (s.channels d).mode ∧ (s'.channels d).topic = (s.channels d).topic := by
  induction ms generalizing s with
  | nil =>
    rw [← Option.some.inj h]
    exact ⟨rfl, rfl⟩
  | cons m ms ih =>
    unfold Server.leaveChans at h
    obtain ⟨c, -, hrest⟩ := Option.bind_eq_some_iff.mp h
    obtain ⟨hmode, htopic⟩ := ih hrest
    obtain ⟨hmode', htopic'⟩ := leaveChan_keeps s c d
    exact ⟨hmode.trans hmode', htopic.trans htopic'⟩

/-- So does `user_exit`. -/
theorem exitUser_keeps (hs : Sane s) (hexit : s.exitUser u = some s') : Keeps s s' := by
  obtain ⟨t, hleave, rfl⟩ := Option.map_eq_some_iff.mp hexit
  refine .shrink hs (fun c _ => leaveChans_keeps hleave c) fun v => ?_
  rw [removeUser_persons]
  by_cases hv : v = u
  · rw [hv, updPerson_self]
    exact List.nil_subset _
  · rw [updPerson_ne _ hv, (leaveChans_frame hleave).2.1]
    exact List.Subset.refl _

/-- A first step that touches neither channels nor memberships. -/
theorem Keeps.trans_shape {t : Server} (h : Keeps s' t)
    (hchans : s'.channels = s.channels) (hlist : s'.chanlist = s.chanlist)
    (hmine : ∀ v, (s'.persons v).myChans.items = (s.persons v).myChans.items) : Keeps s t where
  mode := by rw [← hchans, ← hlist]; exact h.mode
  topic := by rw [← hchans, ← hlist]; exact h.topic
  status := by
    intro v m hm
    rw [← hmine] at hm
    exact h.status v m hm

/-- Entering a channel brings a status for that channel only. -/
theorem enter_keeps (hs : Sane s) {c : Cid} {m : MyChan}
    (hoff : (s.persons u).onChan m.name = false) : Keeps s (s.enter u c m) := by
  have hchans : ∀ d, ((s.enter u c m).channels d).mode = (s.channels d).mode ∧
      ((s.enter u c m).channels d).topic = (s.channels d).topic := by
    intro d
    unfold Server.enter
    by_cases hd : d = c
    · rw [hd, updChannel_self]
      exact ⟨rfl, rfl⟩
    · rw [updChannel_ne _ hd]
      exact ⟨rfl, rfl⟩
  refine ⟨fun d _ => (hchans d).1, fun d _ => (hchans d).2, ?_⟩
  intro v x hx x' hx' hname
  have hx' : x' ∈ ((s.updPerson u (·.updChans (·.append m))).persons v).myChans.items := hx'
  by_cases hv : v = u
  · rw [hv] at hx
    rw [hv, updPerson_self] at hx'
    have happ : x' ∈ (s.persons u).myChans.items ∨ x' = m := by
      have hx' : x' ∈ ((s.persons u).myChans.append m).items := hx'
      unfold SimList.append at hx'
      by_cases hiter : (s.persons u).myChans.iter.isSome
      · rw [if_pos hiter] at hx'
        exact Or.inl hx'
      · rw [if_neg hiter] at hx'
        simpa using hx'
    cases happ with
    | inl hold => rw [same_entry hs hx hold hname]
    | inr hnew =>
      rw [hnew] at hname
      have hmiss := List.any_eq_false.mp hoff x hx
      simp [hname] at hmiss
  · rw [updPerson_ne _ hv] at hx'
    rw [same_entry hs hx hx' hname]

/-- A new channel takes no other one's place. -/
theorem addChannel_keeps (hs : Sane s) (cname : CStr) : Keeps s (s.addChannel cname) := by
  refine .shrink hs (fun c hc => ?_) fun v => List.Subset.refl _
  rw [addChannel_old (hs.chansOld c hc)]
  exact ⟨rfl, rfl⟩

/-- A change of one channel that is found. -/
theorem updChannel_changes (hs : Sane s) {c : Cid} {f : Channel → Channel}
    (hmode : (f (s.channels c)).mode ≠ (s.channels c).mode → s.isOper u (s.channels c).name)
    (htopic : (f (s.channels c)).topic ≠ (s.channels c).topic → s.isOper u (s.channels c).name ∨
      commandOf (ps.get 0) = .TOPIC ∧ (s.persons u).onChan (s.channels c).name = true ∧
        hasMode (s.channels c).mode modeT = false) :
    Changes s u ps (s.updChannel c f) := by
  refine ⟨fun d _ hne => ?_, fun d _ hne => ?_, fun v m hm m' hm' hname hne => ?_⟩
  · by_cases hd : d = c
    · rw [hd, updChannel_self] at hne
      rw [hd]
      exact hmode hne
    · rw [updChannel_ne f hd] at hne
      exact absurd rfl hne
  · by_cases hd : d = c
    · rw [hd, updChannel_self] at hne
      rw [hd]
      exact htopic hne
    · rw [updChannel_ne f hd] at hne
      exact absurd rfl hne
  · exact absurd (by rw [same_entry hs hm hm' hname]) hne

/-- Only the entry that is found changes. -/
theorem mem_updFirst {name : CStr} {f : CStr → CStr} {ms : List MyChan} {m' : MyChan}
    (h : m' ∈ updFirst (fun m => seekMatch m.name name) (fun m => { m with mode := f m.mode }) ms) :
    m' ∈ ms ∨ m'.name = name := by
  induction ms with
  | nil => cases h
  | cons m ms ih =>
    unfold updFirst at h
    by_cases hm : seekMatch m.name name
    · rw [if_pos hm] at h
      cases List.mem_cons.mp h with
      | inl heq =>
        rw [heq]
        exact Or.inr (of_decide_eq_true hm).2
      | inr htail => exact Or.inl (List.mem_cons_of_mem m htail)
    · rw [if_neg hm] at h
      cases List.mem_cons.mp h with
      | inl heq =>
        rw [heq]
        exact Or.inl List.mem_cons_self
      | inr htail =>
        cases ih htail with
        | inl hold => exact Or.inl (List.mem_cons_of_mem m hold)
        | inr hname => exact Or.inr hname

/-- A change of a member's status on the channel `name`. -/
theorem updMode_changes (hs : Sane s) {t : Uid} {name : CStr} {f : CStr → CStr}
    (hoper : s.isOper u name) : Changes s u ps (s.updPerson t (·.updMode name f)) := by
  refine ⟨fun c _ hne => absurd rfl hne, fun c _ hne => absurd rfl hne, ?_⟩
  intro v m hm m' hm' hname hne
  by_cases hv : v = t
  · rw [hv, updPerson_self] at hm'
    rw [hv] at hm
    cases mem_updFirst hm' with
    | inl hold => exact absurd (by rw [same_entry hs hm hold hname]) hne
    | inr hfound =>
      rw [← hname, hfound]
      exact hoper
  · rw [updPerson_ne _ hv] at hm'
    exact absurd (by rw [same_entry hs hm hm' hname]) hne

/-- Whoever changes a mode, a topic or a member's status may. -/
theorem Effect.changes (hs : Sane s) (heff : Effect cfg ok s u ps (commandOf (ps.get 0)) s') :
    Changes s u ps s' := by
  generalize hcmd : commandOf (ps.get 0) = c at heff
  have hsubset : ∀ l : List MyChan, l ⊆ l := fun l => List.Subset.refl l
  cases heff with
  | same => exact Keeps.changes (.shrink hs (fun _ _ => ⟨rfl, rfl⟩) fun _ => hsubset _)
  | rename _ _ =>
    have hstop := sameShape_atMyChan s u none
    have hkeeps : Keeps (s.atMyChan u none) ((s.atMyChan u none).withNick u (ps.get 1)) :=
      keeps_updPerson (hs.frame hstop) (hsubset _)
    -- stopping the iteration changes nothing that is kept
    refine Keeps.changes (hkeeps.trans_shape rfl rfl fun v => ?_)
    by_cases hv : v = u
    · rw [hv, Server.atMyChan, updPerson_self]
      rfl
    · rw [Server.atMyChan, updPerson_ne _ hv]
  | firstNick _ _ =>
    have hkeeps : Keeps s (s.withNick u (ps.get 1)) := keeps_updPerson hs (hsubset _)
    cases decide ((s.persons u).user ≠ []) with
    | false => exact hkeeps.changes
    | true => exact Keeps.changes ⟨hkeeps.mode, hkeeps.topic, hkeeps.status⟩
  | user _ =>
    have hkeeps : Keeps s (s.withUser u (ps.get 1) (ps.get 4).tail) :=
      keeps_updPerson hs (hsubset _)
    cases decide ((s.persons u).nick ≠ []) with
    | false => exact hkeeps.changes
    | true => exact Keeps.changes ⟨hkeeps.mode, hkeeps.topic, hkeeps.status⟩
  | quit hexit =>
    refine Keeps.changes ((exitUser_keeps (hs.frame (sameShape_atMyChan s u none))
      hexit).trans_shape rfl rfl fun v => ?_)
    by_cases hv : v = u
    · rw [hv, Server.atMyChan, updPerson_self]
      rfl
    · rw [Server.atMyChan, updPerson_ne _ hv]
  | dropped _ _ hexit => exact (exitUser_keeps hs hexit).changes
  | joinOld _ hnew => exact (enter_keeps hs hnew).changes
  | joinNew hnone hnew =>
    have hadd := addChannel_keeps hs (ps.get 1)
    have henter : Keeps (s.addChannel (ps.get 1))
        ((s.addChannel (ps.get 1)).enter u s.nextCid ⟨ps.get 1, str "o"⟩) :=
      enter_keeps (hs.addChannel hnone) hnew
    -- the new channel was not in the list, so nothing is asked of it
    have hin : ∀ c ∈ s.chanlist.items, c ∈ (s.addChannel (ps.get 1)).chanlist.items := by
      intro c hc
      rw [addChannel_chanlist hs.idle.chans]
      exact List.mem_append_left _ hc
    refine Keeps.changes ⟨fun c hc => ?_, fun c hc => ?_, henter.status⟩
    · exact (henter.mode c (hin c hc)).trans (hadd.mode c hc)
    · exact (henter.topic c (hin c hc)).trans (hadd.topic c hc)
  | joinAgain _ _ => exact (addChannel_keeps hs _).changes
  | @part c _ _ =>
    have hdrop : Keeps s (s.dropMyChan u (ps.get 1)) := by
      refine keeps_updPerson hs ?_
      show ((s.persons u).myChans.delete _).items ⊆ _
      unfold SimList.delete
      by_cases hiter : (s.persons u).myChans.iter.isSome
      · rw [if_pos hiter]
        exact hsubset _
      · rw [if_neg hiter]
        exact List.eraseP_subset
    refine Keeps.changes ⟨fun d _ => ?_, fun d _ => ?_, hdrop.status⟩
    · exact (leaveChan_keeps (s.dropMyChan u (ps.get 1)) c d).1
    · exact (leaveChan_keeps (s.dropMyChan u (ps.get 1)) c d).2
  | @topic c hfound hon hmay =>
    have hname := (seekChan_some hfound).2
    refine updChannel_changes hs (fun hne => absurd rfl hne) fun _ => ?_
    rw [hname]
    -- with mode t the topic takes an operator, without it a member
    by_cases ht : hasMode (s.channels c).mode modeT = true
    · exact Or.inl (hmay ht)
    · exact Or.inr ⟨hcmd, hon, by simpa using ht⟩
  | back _ => exact (keeps_updPerson hs (hsubset _)).changes
  | away _ => exact (keeps_updPerson hs (hsubset _)).changes
  | oper _ _ => exact (keeps_updPerson hs (hsubset _)).changes
  | whois _ _ _ _ => exact (keeps_updPerson hs (hsubset _)).changes
  | who _ =>
    refine Keeps.changes (.shrink hs (fun _ _ => ⟨rfl, rfl⟩) fun v => ?_)
    rw [stopOthers_get (·.myChans.items) (fun _ => rfl) s u v]
    exact hsubset _
  | memberAdd _ hoper _ _ _ _ _ _ => exact updMode_changes hs hoper
  | memberDel _ hoper _ _ _ _ _ => exact updMode_changes hs hoper
  | chanAdd hfound hoper _ _ =>
    have hname := (seekChan_some hfound).2
    exact updChannel_changes hs (fun _ => by rw [hname]; exact hoper) fun hne => absurd rfl hne
  | chanDel hfound hoper _ _ =>
    have hname := (seekChan_some hfound).2
    exact updChannel_changes hs (fun _ => by rw [hname]; exact hoper) fun hne => absurd rfl hne
  | userMode _ => exact (keeps_updPerson hs (hsubset _)).changes

/-! ## What is relayed -/

/-- The line that the command relays. -/
def relayed (s : Server) (u : Uid) (ps : Params) : Command → CStr
  | .NOTICE => relayLine (maxMsg - 2) (s.persons u) ps
  | _ => relayLine (maxMsg - 1) (s.persons u) ps

/-- May the user speak on the channel `c`, named `name`? -/
structure Speaks (s : Server) (u : Uid) (c : Cid) (name : CStr) : Prop where
  registered : (s.persons u).registered = true
  member : (s.persons u).onChan name = true
  voice : hasMode (s.channels c).mode modeM = true → hasMode (s.persons u).mode modeO = true ∨
    ∃ m, (s.persons u).seekChan name = some m ∧
      (hasMode m.mode modeO = true ∨ hasMode m.mode modeV = true)

/-- Is `v` another member than the user? -/
def otherMember (s : Server) (u : Uid) (name : CStr) (v : Uid) : Prop :=
  v ≠ u ∧ (s.persons v).onChan name = true

instance (s : Server) (u : Uid) (name : CStr) (v : Uid) : Decidable (otherMember s u name v) :=
  inferInstanceAs (Decidable (_ ∧ _))

/-- The line reached each other member once, and nothing else was sent. -/
structure Relayed (s : Server) (u : Uid) (c : Cid) (name line : CStr) (log : List Event) : Prop where
  allowed : Speaks s u c name
  copies : ∀ v ∈ s.userlist.items, log.count (.send (s.persons v).clientSocket line)
    = if otherMember s u name v then 1 else 0
  only : ∀ e ∈ log, ∃ v ∈ s.userlist.items, otherMember s u name v ∧
    e = .send (s.persons v).clientSocket line

/-- Nothing was sent to anybody but the user. -/
def Refused (s : Server) (u : Uid) (log : List Event) : Prop :=
  ∀ e ∈ log, ∃ msg, e = .send (s.persons u).clientSocket msg

/-- `sendtochannel` picks the other members: nicks are unique. -/
theorem isRecipient_iff (hs : Sane s) {v : Uid} {name : CStr} (hu : u ∈ s.userlist.items)
    (hv : v ∈ s.userlist.items) (hreg : (s.persons u).registered = true) :
    isRecipient s v name (some u) = true ↔ otherMember s u name v := by
  have hnick : (s.persons u).nick ≠ [] := (of_decide_eq_true hreg).1
  unfold isRecipient otherMember
  rw [Option.all_some, Bool.and_eq_true, decide_eq_true_iff]
  refine and_congr_left fun _ => ⟨fun hne heq => hne (by rw [heq]), fun hne heq => ?_⟩
  exact hne (hs.nicks u hu v hv hnick heq.symm).symm

/-- What `sendtochannel` hands out for a user who may speak. -/
theorem relayed_of_relays (hs : Sane s) {c : Cid} {name line : CStr} (hu : u ∈ s.userlist.items)
    (hspeaks : Speaks s u c name) :
    Relayed s u c name line (relays s name line (some u) s.userlist.items) := by
  have hmem : ∀ e, e ∈ relays s name line (some u) s.userlist.items ↔
      ∃ v ∈ s.userlist.items, otherMember s u name v ∧ .send (s.persons v).clientSocket line = e := by
    intro e
    unfold relays
    rw [List.mem_map]
    refine exists_congr fun v => ?_
    rw [List.mem_filter, and_assoc]
    exact and_congr_right fun hv =>
      and_congr_left fun _ => isRecipient_iff hs hu hv hspeaks.registered
  have hnodup : (relays s name line (some u) s.userlist.items).Nodup := by
    refine List.Nodup.map_on ?_ (hs.users.filter _)
    intro v hv w hw heq
    rw [List.mem_filter] at hv hw
    exact hs.fds v hv.1 w hw.1 (Event.send.inj heq).1
  refine ⟨hspeaks, fun v hv => ?_, fun e he => ?_⟩
  · by_cases hother : otherMember s u name v
    · rw [if_pos hother]
      exact List.count_eq_one_of_mem hnodup ((hmem _).mpr ⟨v, hv, hother, rfl⟩)
    · rw [if_neg hother, List.count_eq_zero]
      intro hin
      obtain ⟨w, hw, hwother, heq⟩ := (hmem _).mp hin
      rw [hs.fds w hw v hv (Event.send.inj heq).1] at hwother
      exact hother hwother
  · obtain ⟨v, hv, hother, heq⟩ := (hmem e).mp he
    exact ⟨v, hv, hother, heq.symm⟩

/-- A member that the test does not silence may speak. -/
theorem speaks_of_mutes {c : Cid} {name : CStr} (hreg : (s.persons u).registered = true)
    (hon : (s.persons u).onChan name = true) (hmute : s.mutes u c name = some false) :
    Speaks s u c name := by
  refine ⟨hreg, hon, fun hmod => ?_⟩
  unfold Server.mutes at hmute
  cases hoper : hasMode (s.persons u).mode modeO with
  | true => exact Or.inl rfl
  | false =>
    rw [hmod, hoper] at hmute
    obtain ⟨m, hm, hnot⟩ := Option.map_eq_some_iff.mp hmute
    refine Or.inr ⟨m, hm, ?_⟩
    cases ho : hasMode m.mode modeO with
    | true => exact Or.inl rfl
    | false => exact Or.inr (by simpa [ho] using hnot)

/-- A reply to the sender reaches nobody else. -/
theorem refused_reply {code : Reply} {reply extra : CStr} :
    Refused s u [s.reply cfg u code reply extra] := by
  intro e he
  rw [List.mem_singleton.mp he]
  exact ⟨_, rfl⟩

theorem refused_nil : Refused s u [] := by
  intro e he
  cases he

/-- PRIVMSG to a channel. -/
theorem privmsg_relays (hs : Sane s) {c : Cid} (hu : u ∈ s.userlist.items)
    (hnick : s.seekNick (ps.get 1) = none) (hfound : s.seekChan (ps.get 1) = some c) :
    Relayed s u c (ps.get 1) (relayed s u ps .PRIVMSG) (s.privmsg cfg u ps) ∨
      Refused s u (s.privmsg cfg u ps) := by
  unfold Server.privmsg
  by_cases hreg : (s.persons u).registered = true
  · rw [if_neg (by simp [hreg]), hnick, hfound]
    unfold Server.tellChan
    dsimp only
    by_cases hmay : (s.persons u).onChan (ps.get 1) = true ∧ s.mutes u c (ps.get 1) = some false
    · rw [if_pos hmay, (seekChan_some hfound).2]
      exact Or.inl (relayed_of_relays hs hu (speaks_of_mutes hreg hmay.1 hmay.2))
    · rw [if_neg hmay]
      exact Or.inr refused_reply
  · rw [if_pos (by simpa using hreg)]
    exact Or.inr refused_reply

/-- NOTICE to a channel. -/
theorem notice_relays (hs : Sane s) {c : Cid} {msgs : List Event} (hu : u ∈ s.userlist.items)
    (hnick : s.seekNick (ps.get 1) = none) (hfound : s.seekChan (ps.get 1) = some c)
    (hmsgs : s.notice cfg u ps = some msgs) :
    Relayed s u c (ps.get 1) (relayed s u ps .NOTICE) msgs ∨ Refused s u msgs := by
  unfold Server.notice at hmsgs
  by_cases hreg : (s.persons u).registered = true
  · rw [if_neg (by simp [hreg]), hnick, hfound] at hmsgs
    obtain ⟨chanMsgs, hchan, rfl⟩ := Option.map_eq_some_iff.mp hmsgs
    unfold Server.noticeChan at hchan
    obtain ⟨mute, hmute, rfl⟩ := Option.map_eq_some_iff.mp hchan
    show Relayed s u c (ps.get 1) _ (if _ then _ else _) ∨ Refused s u (if _ then _ else _)
    by_cases hmay : (!mute) = true ∧ (s.persons u).onChan (ps.get 1) = true
    · rw [if_pos hmay, (seekChan_some hfound).2]
      have hmute : s.mutes u c (ps.get 1) = some false := by
        rw [hmute]
        simpa using hmay.1
      exact Or.inl (relayed_of_relays hs hu (speaks_of_mutes hreg hmay.2 hmute))
    · rw [if_neg hmay]
      exact Or.inr refused_nil
  · rw [if_pos (by simpa using hreg)] at hmsgs
    rw [← Option.some.inj hmsgs]
    exact Or.inr refused_reply

/-- A channel without a name is not found, and nothing is relayed to it. -/
theorem privmsg_unnamed (hnick : s.seekNick (ps.get 1) = none)
    (hfound : s.seekChan (ps.get 1) = none) : Refused s u (s.privmsg cfg u ps) := by
  unfold Server.privmsg
  by_cases hreg : (s.persons u).registered = true
  · rw [if_neg (by simp [hreg]), hnick, hfound]
    exact refused_reply
  · rw [if_pos (by simpa using hreg)]
    exact refused_reply

/-- A notice to nobody reaches nobody. -/
theorem notice_unnamed {msgs : List Event} (hnick : s.seekNick (ps.get 1) = none)
    (hfound : s.seekChan (ps.get 1) = none) (hmsgs : s.notice cfg u ps = some msgs) :
    Refused s u msgs := by
  unfold Server.notice at hmsgs
  by_cases hreg : (s.persons u).registered = true
  · rw [if_neg (by simp [hreg]), hnick, hfound] at hmsgs
    rw [← Option.some.inj hmsgs]
    exact refused_nil
  · rw [if_pos (by simpa using hreg)] at hmsgs
    rw [← Option.some.inj hmsgs]
    exact refused_reply

/-- What a PRIVMSG hands out is known. -/
theorem log_of_privmsg (hs : Sane s) {log : List Event}
    (hserve : serve cfg s ⟨.message u ps, ok, stale⟩ = some (s', log))
    (hcmd : commandOf (ps.get 0) = .PRIVMSG) : log = s.privmsg cfg u ps := by
  have hmeets : (dispatch cfg u stale s.fuel u ps (commandOf (ps.get 0))).Meets ok
      (Says ok s.world (s.privmsg cfg u ps)) s.world := by
    rw [hcmd]
    exact handlePRIVMSG_said hs.idle.users []
  obtain ⟨w, -, rfl, hend⟩ := leaves_of_dispatch hs hserve hmeets
  cases hend with
  | inl hdone => rw [hdone]; rfl
  | inr hexit => exact hexit.elim

/-- So is what a NOTICE hands out, if it does not abort. -/
theorem log_of_notice (hs : Sane s) {log : List Event}
    (hserve : serve cfg s ⟨.message u ps, ok, stale⟩ = some (s', log))
    (hcmd : commandOf (ps.get 0) = .NOTICE) : s.notice cfg u ps = some log := by
  cases hmsgs : s.notice cfg u ps with
  | some msgs =>
    have hmeets : (dispatch cfg u stale s.fuel u ps (commandOf (ps.get 0))).Meets ok
        (Says ok s.world msgs) s.world := by
      rw [hcmd]
      exact handleNOTICE_said hs.idle.users hmsgs []
    obtain ⟨w, -, rfl, hend⟩ := leaves_of_dispatch hs hserve hmeets
    cases hend with
    | inl hdone => rw [hdone]; rfl
    | inr hexit => exact hexit.elim
  | none =>
    have hmeets : (dispatch cfg u stale s.fuel u ps (commandOf (ps.get 0))).Meets ok
        ⟨fun _ _ => False, fun _ => False, fun _ => True, True⟩ s.world := by
      rw [hcmd]
      exact handleNOTICE_null hmsgs trivial fun _ => trivial
    obtain ⟨w, -, -, hend⟩ := leaves_of_dispatch hs hserve hmeets
    exact hend.elim False.elim False.elim

/-- No nick, no user. -/
theorem seekNick_of_forall {name : CStr}
    (h : ∀ v ∈ s.userlist.items, (s.persons v).nick ≠ name) : s.seekNick name = none :=
  List.find?_eq_none.mpr fun v hv => by simp [seekMatch, h v hv]

/-- What a PRIVMSG or NOTICE to a channel has handed out. -/
theorem relays_of_serve (hs : Sane s) {c : Cid} {log : List Event}
    (hserve : serve cfg s ⟨.message u ps, ok, stale⟩ = some (s', log))
    (hcmd : commandOf (ps.get 0) = .PRIVMSG ∨ commandOf (ps.get 0) = .NOTICE)
    (hc : c ∈ s.chanlist.items) (hname : (s.channels c).name = ps.get 1)
    (hnick : ∀ v ∈ s.userlist.items, (s.persons v).nick ≠ ps.get 1) :
    Relayed s u c (ps.get 1) (relayed s u ps (commandOf (ps.get 0))) log ∨ Refused s u log := by
  have hu := (message_of_serve hserve).1
  have hnick := seekNick_of_forall hnick
  by_cases hne : ps.get 1 = []
  · have hfound : s.seekChan (ps.get 1) = none := by rw [hne, seekChan_nil]
    cases hcmd with
    | inl hcmd =>
      rw [log_of_privmsg hs hserve hcmd]
      exact Or.inr (privmsg_unnamed hnick hfound)
    | inr hcmd => exact Or.inr (notice_unnamed hnick hfound (log_of_notice hs hserve hcmd))
  · have hfound := seekChan_of_mem hs hc hname hne
    cases hcmd with
    | inl hcmd =>
      rw [log_of_privmsg hs hserve hcmd, hcmd]
      exact privmsg_relays hs hu hnick hfound
    | inr hcmd =>
      rw [hcmd]
      exact notice_relays hs hu hnick hfound (log_of_notice hs hserve hcmd)

/-! ## Operators of the server -/

/-- A change of a record that does not make an operator. -/
def OperOnly (s s' : Server) (u : Uid) (given : Prop) : Prop :=
  ∀ v, hasMode (s'.persons v).mode modeO = true →
    hasMode (s.persons v).mode modeO = true ∨ v = u ∧ given

/-- `user_exit` keeps the modes, also of the one who leaves. -/
theorem exitUser_mode (hexit : s.exitUser u = some s') (v : Uid) :
    (s'.persons v).mode = (s.persons v).mode := by
  obtain ⟨t, hleave, rfl⟩ := Option.map_eq_some_iff.mp hexit
  rw [removeUser_persons]
  by_cases hv : v = u
  · rw [hv, updPerson_self, ← (leaveChans_frame hleave).2.1]
    rfl
  · rw [updPerson_ne _ hv, (leaveChans_frame hleave).2.1]

/-- Deleting a letter adds none. -/
theorem hasMode_delMode {mode : CStr} {c d : UInt8} (h : hasMode (delMode mode c) d = true) :
    hasMode mode d = true := by
  unfold hasMode delMode at *
  rw [List.contains_iff_mem] at *
  exact List.mem_of_mem_erase h

/-- What becomes of the mode of a user who changes it: AWAY and OPER work on
their own letter, MODE on one that is no mode. -/
inductive ModeChange (cfg : Config) (ps : Params) (mode : CStr) : Command → CStr → Prop
  | back : ModeChange cfg ps mode .AWAY (delMode mode modeA)
  | away : ModeChange cfg ps mode .AWAY (if hasMode mode modeA then mode else mode ++ str "a")
  | oper (hpw : ps.get 2 = cfg.pw) : ModeChange cfg ps mode .OPER (mode ++ str "o")
  | userMode (hat : hasMode mode (chr '@') = true) :
      ModeChange cfg ps mode .MODE (delMode mode (chr '@'))

/-- A command changes nobody's mode, or its sender's. -/
theorem Effect.modes {c : Command} (heff : Effect cfg ok s u ps c s') :
    (∀ v, (s'.persons v).mode = (s.persons v).mode) ∨
    ∃ mode', ModeChange cfg ps (s.persons u).mode c mode' ∧
      ∀ v, (s'.persons v).mode = if v = u then mode' else (s.persons v).mode := by
  have hmode : ∀ f : Person → Person, (∀ p, (f p).mode = p.mode) → ∀ v t,
      ((s.updPerson t f).persons v).mode = (s.persons v).mode := by
    intro f hf v t
    by_cases hv : v = t
    · rw [hv, updPerson_self, hf]
    · rw [updPerson_ne f hv]
  have hset : ∀ f : Person → Person, ∀ v, ((s.updPerson u f).persons v).mode
      = if v = u then (f (s.persons u)).mode else (s.persons v).mode := by
    intro f v
    by_cases hv : v = u
    · rw [if_pos hv, hv, updPerson_self]
    · rw [if_neg hv, updPerson_ne f hv]
  cases heff with
  | same => exact Or.inl fun _ => rfl
  | rename _ _ =>
    refine Or.inl fun v => ?_
    unfold Server.withNick Server.atMyChan
    rw [updPerson_updPerson]
    exact hmode _ (by intro p; rfl) v u
  | firstNick _ _ =>
    refine Or.inl fun v => ?_
    cases decide ((s.persons u).user ≠ []) with
    | false => exact hmode (fun p => { p with nick := ps.get 1 }) (fun _ => rfl) v u
    | true => exact hmode (fun p => { p with nick := ps.get 1 }) (fun _ => rfl) v u
  | user _ =>
    refine Or.inl fun v => ?_
    have hname := hmode (fun p => { p with user := ps.get 1, fullname := (ps.get 4).tail })
      (fun _ => rfl) v u
    cases decide ((s.persons u).nick ≠ []) with
    | false => exact hname
    | true => exact hname
  | quit hexit =>
    exact Or.inl fun v => (exitUser_mode hexit v).trans (hmode (·.updChans _) (fun _ => rfl) v u)
  | dropped _ _ hexit => exact Or.inl (exitUser_mode hexit)
  | joinOld _ _ => exact Or.inl fun v => hmode (·.updChans _) (fun _ => rfl) v u
  | joinNew _ _ => exact Or.inl fun v => hmode (·.updChans _) (fun _ => rfl) v u
  | joinAgain _ _ => exact Or.inl fun _ => rfl
  | part _ _ => exact Or.inl fun v => hmode (·.updChans _) (fun _ => rfl) v u
  | topic _ _ _ => exact Or.inl fun _ => rfl
  | back _ => exact Or.inr ⟨_, .back, hset _⟩
  | away hmode' =>
    refine Or.inr ⟨_, .away, fun v => ?_⟩
    rw [hset, hmode']
  | oper hpw _ => exact Or.inr ⟨_, .oper hpw, hset _⟩
  | whois _ _ _ _ => exact Or.inl fun v => hmode (·.updChans _) (fun _ => rfl) v _
  | who _ => exact Or.inl (stopOthers_get (·.mode) (fun _ => rfl) s u)
  | memberAdd _ _ _ _ _ _ _ _ => exact Or.inl fun v => hmode (·.updMode _ _) (fun _ => rfl) v _
  | memberDel _ _ _ _ _ _ _ => exact Or.inl fun v => hmode (·.updMode _ _) (fun _ => rfl) v _
  | chanAdd _ _ _ _ => exact Or.inl fun _ => rfl
  | chanDel _ _ _ _ => exact Or.inl fun _ => rfl
  | userMode hat => exact Or.inr ⟨_, .userMode hat, hset _⟩

/-- The letter `o` of a user comes from OPER with the password, and from nothing else. -/
theorem Effect.operOnly (heff : Effect cfg ok s u ps (commandOf (ps.get 0)) s') :
    OperOnly s s' u (commandOf (ps.get 0) = .OPER ∧ ps.get 2 = cfg.pw) := by
  generalize commandOf (ps.get 0) = c at heff ⊢
  intro v hv
  rcases heff.modes with hsame | ⟨mode', hchange, hmode⟩
  · rw [hsame] at hv
    exact Or.inl hv
  · rw [hmode] at hv
    by_cases hvu : v = u
    · rw [if_pos hvu] at hv
      rw [hvu]
      cases hchange with
      | back => exact Or.inl (hasMode_delMode hv)
      | away =>
        refine Or.inl ?_
        by_cases haway : hasMode (s.persons u).mode modeA = true
        · rw [if_pos haway] at hv
          exact hv
        · rw [if_neg haway] at hv
          unfold hasMode at hv ⊢
          rw [List.contains_iff_mem, List.mem_append] at hv
          rw [List.contains_iff_mem]
          exact hv.elim id fun hin => absurd hin (by decide)
      | oper hpw => exact Or.inr ⟨rfl, rfl, hpw⟩
      | userMode _ => exact Or.inl (hasMode_delMode hv)
    · rw [if_neg hvu] at hv
      exact Or.inl hv

/-! ## Runs -/

/-- A request keeps a state sane, also one that cannot come. -/
theorem Sane.handle (hs : Sane s) (r : Request) : Sane (handle cfg s r) := by
  unfold UchiNetworks.Chirc.handle
  cases hnext : next cfg s r with
  | none => exact hs
  | some s' => exact (turn_of_next hs hnext).sane hs

/-- Who is an operator has given the password. -/
def GavePassword (cfg : Config) (is : List Request) (s : Server) : Prop :=
  ∀ u, hasMode (s.persons u).mode modeO = true →
    ∃ ps ok stale, ⟨.message u ps, ok, stale⟩ ∈ is ∧ commandOf (ps.get 0) = .OPER ∧
      ps.get 2 = cfg.pw

/-- One request more. -/
theorem Turn.gavePassword {rs : List Request} {r : Request} (h : GavePassword cfg rs s)
    (hturn : Turn cfg s r s') : GavePassword cfg (rs ++ [r]) s' := by
  have hold : ∀ u, hasMode (s.persons u).mode modeO = true →
      ∃ ps ok stale, ⟨.message u ps, ok, stale⟩ ∈ rs ++ [r] ∧ commandOf (ps.get 0) = .OPER ∧
        ps.get 2 = cfg.pw := by
    intro u hu
    obtain ⟨ps, ok, stale, hin, hoper⟩ := h u hu
    exact ⟨ps, ok, stale, List.mem_append_left _ hin, hoper⟩
  intro u hu
  cases hturn with
  | connect _ =>
    by_cases hnew : u = s.nextUid
    · rw [hnew, arrive_new] at hu
      cases hu
    · unfold Server.arrive at hu
      dsimp only at hu
      rw [if_neg hnew] at hu
      exact hold u hu
  | @message self ps ok stale _ _ heff =>
    cases heff.operOnly u hu with
    | inl hbefore => exact hold u hbefore
    | inr hgave =>
      rw [hgave.1]
      exact ⟨ps, ok, stale, List.mem_append_right _ List.mem_cons_self, hgave.2⟩
  | hangup _ hexit =>
    rw [exitUser_mode hexit] at hu
    exact hold u hu

/-- Every state of a run is sane. -/
theorem run_sane (rs : List Request) : Sane (run (handle cfg) .init rs) := by
  have hall : Along (handle cfg) (fun _ _ => True) .init rs := along_of_forall (fun _ _ => trivial) _ rs
  exact run_invariant Sane (fun _ r _ hs => hs.handle r) hall sane_init

theorem run_gavePassword (rs : List Request) :
    GavePassword cfg rs (run (handle cfg) .init rs) := by
  have hall : Along (handle cfg) (fun _ _ => True) .init rs := along_of_forall (fun _ _ => trivial) _ rs
  have hinv : Sane (run (handle cfg) .init rs) ∧ GavePassword cfg rs (run (handle cfg) .init rs) := by
    refine run_history (fun rs s => Sane s ∧ GavePassword cfg rs s) ?_ hall ⟨sane_init, ?_⟩
    · intro rs s r _ hinv
      refine ⟨hinv.1.handle r, ?_⟩
      unfold handle
      cases hnext : next cfg s r with
      | none =>
        intro u hu
        obtain ⟨ps, ok, stale, hin, hoper⟩ := hinv.2 u hu
        exact ⟨ps, ok, stale, List.mem_append_left _ hin, hoper⟩
      | some s' => exact (turn_of_next hinv.1 hnext).gavePassword hinv.2
    · intro u hu
      cases hu
  exact hinv.2

/-- Commands come from who may give them: `is` is what has come in so far, and `s`
the state it has led to. -/
structure Authority (cfg : Config) (is : List Input) (s : Server) : Prop where
  changes : ∀ self ps stale s' log,
    serve cfg s (.working (.message self ps) stale) = some (s', log) → Changes s self ps s'
  relays : ∀ self ps stale s' log,
    serve cfg s (.working (.message self ps) stale) = some (s', log) →
    commandOf (ps.get 0) = .PRIVMSG ∨ commandOf (ps.get 0) = .NOTICE →
    ∀ c ∈ s.chanlist.items, (s.channels c).name = ps.get 1 →
    (∀ v ∈ s.userlist.items, (s.persons v).nick ≠ ps.get 1) →
    Relayed s self c (ps.get 1) (relayed s self ps (commandOf (ps.get 0))) log ∨ Refused s self log
  opers : ∀ u ∈ s.userlist.items, hasMode (s.persons u).mode modeO = true →
    ∃ ps, .message u ps ∈ is ∧ commandOf (ps.get 0) = .OPER ∧ ps.get 2 = cfg.pw

/-- In every run, with the sends working, whoever changes a mode, a topic or a
status may; what is relayed to a channel comes from who may speak and reaches the
other members once; and an operator has given the password. -/
theorem authority (cfg : Config) (is : List (Input × (Nat → Nat))) :
    Authority cfg (is.map Prod.fst)
      (run (handle cfg) .init (is.map fun i => .working i.1 i.2)) := by
  have hs : Sane (run (handle cfg) .init (is.map fun i => .working i.1 i.2)) := run_sane _
  refine ⟨?_, ?_, ?_⟩
  · intro self ps stale s' log hserve
    have hturn := turn_of_serve hs hserve
    cases hturn with
    | message _ heff => exact heff.changes hs
  · intro self ps stale s' log hserve hcmd c hc hname hnick
    exact relays_of_serve hs hserve hcmd hc hname hnick
  · intro u _ hoper
    obtain ⟨ps, ok, stale, hin, hgave⟩ := run_gavePassword _ u hoper
    obtain ⟨i, hi, heq⟩ := List.mem_map.mp hin
    have hinput : i.1 = .message u ps := congrArg Request.input heq
    exact ⟨ps, List.mem_map.mpr ⟨i, hi, hinput⟩, hgave⟩

end UchiNetworks.Chirc
