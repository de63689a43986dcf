import UchiNetworks.Chirc.ModeSteps

/-!
# chirc: the modes of channels and members

MODE changes two kinds of string in two ways. For a member it looks whether the
letter is there before `strcat` adds it; for a channel it does not, so a second
`+m` leaves `mm`, and a `-m` after it one `m` (`mode_twice`).

With each MODE string a sign and a letter, and no `+` on a channel for a letter
that is there, both are sets (`modes_clean`), and what is relayed is what the
string says afterwards (`SetsLetter`).
-/

namespace UchiNetworks.Chirc

open UchiNetworks.Lib
open Prog

variable {cfg : Config} {self : Uid} {ok : Nat → Bool} {s s' : Server} {u : Uid} {ps : Params}
  {stale : Nat → Nat}

/-- Each MODE string is a sign and a letter, and a `+` on a channel is for a
letter that the channel's mode does not have. -/
def modesFairly (s : Server) (r : Request) : Prop :=
  match r.input with
  | .message self ps => commandOf (ps.get 0) = .MODE → signedLetter (ps.get 2) ∧
      ∀ c, s.setsChannel self ps = some c → adds (ps.get 2) = true →
        hasMode (s.channels c).mode (modeLetter ps) = false
  | _ => True

/-- No mode string has a letter twice, or one that is not its own. -/
structure ModesClean (s : Server) : Prop where
  channel : ∀ c, Letters chanLetters (s.channels c).mode
  member : ∀ u, ∀ m ∈ (s.persons u).myChans.items, Letters memberLetters m.mode

/-- A MODE that is relayed: `strcat` stays in its array, the letter is as the line
says, and all others are as they were. -/
structure SetsLetter (cfg : Config) (s : Server) (self : Uid) (ps : Params) (ok : Nat → Bool)
    (stale : Nat → Nat) : Prop where
  inBounds : (s.setsChannel self ps).isSome ∨ (s.setsMember self ps).isSome →
    ∀ f w, (parse cfg self stale s.fuel ps).run ok s.world ≠ .crashed f w
  channel : ∀ c s' log, s.setsChannel self ps = some c →
    serve cfg s ⟨.message self ps, ok, stale⟩ = some (s', log) →
    log = relays s' (s.channels c).name (chanModeLine s self c ps) none s.userlist.items ∧
    ∀ x, hasMode (s'.channels c).mode x
      = if x = modeLetter ps then adds (ps.get 2) else hasMode (s.channels c).mode x
  member : ∀ c t s' log, s.setsMember self ps = some (c, t) →
    serve cfg s ⟨.message self ps, ok, stale⟩ = some (s', log) →
    log = relays s' (s.channels c).name (memberModeLine s self ps) none s.userlist.items ∧
    ∃ m m', (s.persons t).seekChan (ps.get 1) = some m ∧
      (s'.persons t).seekChan (ps.get 1) = some m' ∧
      ∀ x, hasMode m'.mode x = if x = modeLetter ps then adds (ps.get 2) else hasMode m.mode x

/-! ## The invariant -/

/-- Modes of channels as they were, own lists with entries that were there. -/
theorem ModesClean.frame (h : ModesClean s)
    (hchan : ∀ c, (s'.channels c).mode = (s.channels c).mode)
    (hmine : ∀ v, (s'.persons v).myChans.items ⊆ (s.persons v).myChans.items) : ModesClean s' where
  channel := fun c => by rw [hchan]; exact h.channel c
  member := fun v m hm => h.member v m (hmine v hm)

/-- A record may lose channels. -/
theorem ModesClean.updPerson (h : ModesClean s) {f : Person → Person}
    (hf : (f (s.persons u)).myChans.items ⊆ (s.persons u).myChans.items) :
    ModesClean (s.updPerson u f) := by
  refine h.frame (fun _ => rfl) fun v => ?_
  by_cases hv : v = u
  · rw [hv, updPerson_self]
    exact hf
  · rw [updPerson_ne f hv]
    exact List.Subset.refl _

/-- A user may exit. -/
theorem ModesClean.exitUser (h : ModesClean s) (hexit : s.exitUser u = some s') : ModesClean s' := by
  obtain ⟨t, hleave, rfl⟩ := Option.map_eq_some_iff.mp hexit
  refine h.frame (fun c => (leaveChans_keeps hleave c).1) fun v => ?_
  rw [removeUser_persons]
  by_cases hv : v = u
  · rw [hv, updPerson_self]
    exact List.nil_subset _
  · rw [updPerson_ne _ hv, (leaveChans_frame hleave).2.1]
    exact List.Subset.refl _

/-- The counter has no letters. -/
theorem ModesClean.countIf (h : ModesClean s) (b : Bool) : ModesClean (s.countIf b) := by
  cases b with
  | false => exact h
  | true => exact h.frame (fun _ => rfl) fun _ => List.Subset.refl _

/-- A user enters a channel with a status that is clean. -/
theorem ModesClean.enter (h : ModesClean s) {c : Cid} {m : MyChan} (hm : Letters memberLetters m.mode) :
    ModesClean (s.enter u c m) := by
  constructor
  · intro d
    unfold Server.enter
    by_cases hd : d = c
    · rw [hd, updChannel_self]
      exact h.channel c
    · rw [updChannel_ne _ hd]
      exact h.channel d
  · intro v x hx
    have hx : x ∈ ((s.updPerson u (·.updChans (·.append m))).persons v).myChans.items := hx
    by_cases hv : v = u
    · rw [hv, updPerson_self] at hx
      have hx : x ∈ ((s.persons u).myChans.append m).items := hx
      unfold SimList.append at hx
      by_cases hiter : (s.persons u).myChans.iter.isSome
      · rw [if_pos hiter] at hx
        exact h.member u x hx
      · rw [if_neg hiter] at hx
        rcases List.mem_append.mp hx with hold | hnew
        · exact h.member u x hold
        · rw [List.mem_singleton.mp hnew]
          exact hm
    · rw [updPerson_ne _ hv] at hx
      exact h.member v x hx

/-- A new channel has none. -/
theorem ModesClean.addChannel (h : ModesClean s) (cname : CStr) : ModesClean (s.addChannel cname) := by
  refine ⟨fun c => ?_, h.member⟩
  unfold Server.addChannel
  dsimp only
  by_cases hc : c = s.nextCid
  · rw [if_pos hc]
    exact letters_nil _
  · rw [if_neg hc]
    exact h.channel c

/-- Who leaves a channel loses its letters. -/
theorem ModesClean.dropMyChan (h : ModesClean s) (name : CStr) : ModesClean (s.dropMyChan u name) := by
  refine h.updPerson ?_
  show ((s.persons u).myChans.delete _).items ⊆ _
  unfold SimList.delete
  by_cases hiter : (s.persons u).myChans.iter.isSome
  · rw [if_pos hiter]
    exact List.Subset.refl _
  · rw [if_neg hiter]
    exact List.eraseP_subset

/-- Commands other than MODE leave the modes of channels and members alone. -/
theorem Effect.modesClean {c : Command} (hcmd : c ≠ .MODE) (h : ModesClean s)
    (heff : Effect cfg ok s u ps c s') : ModesClean s' := by
  have hsame : ∀ l : List MyChan, l ⊆ l := List.Subset.refl
  cases heff with
  | same => exact h
  | rename _ _ => exact (h.updPerson (hsame _)).updPerson (hsame _)
  | firstNick _ _ => exact ModesClean.countIf (h.updPerson (hsame _)) _
  | user _ => exact ModesClean.countIf (h.updPerson (hsame _)) _
  | quit hexit => exact ModesClean.exitUser (h.updPerson (hsame _)) hexit
  | dropped _ _ hexit => exact h.exitUser hexit
  | joinOld _ _ => exact h.enter (letters_nil _)
  | joinNew _ _ =>
    refine (h.addChannel (ps.get 1)).enter ⟨?_, ?_⟩
    · exact List.nodup_singleton modeO
    · intro x hx
      rw [List.mem_singleton.mp (show x ∈ [modeO] from hx)]
      exact List.mem_cons_self
  | joinAgain _ _ => exact h.addChannel _
  | @part c _ _ =>
    exact (h.dropMyChan (ps.get 1)).frame (fun d => (leaveChan_keeps _ c d).1) fun _ => hsame _
  | @topic c _ _ _ =>
    refine h.frame (fun d => ?_) fun _ => hsame _
    by_cases hd : d = c
    · rw [hd, updChannel_self]
    · rw [updChannel_ne _ hd]
  | back _ => exact h.updPerson (hsame _)
  | away _ => exact h.updPerson (hsame _)
  | oper _ _ => exact h.updPerson (hsame _)
  | whois _ _ _ _ => exact h.updPerson (hsame _)
  | who _ =>
    refine h.frame (fun _ => rfl) fun v => ?_
    rw [stopOthers_get (·.myChans.items) (fun _ => rfl) s u v]
    exact hsame _
  | memberAdd _ _ _ _ _ _ _ _ => exact absurd rfl hcmd
  | memberDel _ _ _ _ _ _ _ => exact absurd rfl hcmd
  | chanAdd _ _ _ _ => exact absurd rfl hcmd
  | chanDel _ _ _ _ => exact absurd rfl hcmd
  | userMode _ => exact absurd rfl hcmd

/-- Where no letter is set the strings stay clean. -/
theorem Unset.modesClean (h : ModesClean s) (hunset : Unset s u s') : ModesClean s' := by
  cases hunset with
  | same => exact h
  | dropped hexit => exact h.exitUser hexit
  | userMode => exact h.updPerson (List.Subset.refl _)

/-- The letter that is set is one of the channel's. -/
theorem modeLetter_mem {accept : CStr} (hstr : signedLetter (ps.get 2))
    (hplus : chr '+' ∉ accept) (hminus : chr '-' ∉ accept) (h : anyOf (ps.get 2) accept = true) :
    modeLetter ps ∈ accept := by
  unfold modeLetter
  rcases hstr with hnil | ⟨x, hadd | hdel⟩
  · rw [hnil] at h
    cases h
  · rw [hadd] at h ⊢
    exact anyOf_letter hplus h
  · rw [hdel] at h ⊢
    exact anyOf_letter hminus h

/-- `strcatMode` and `delMode` come to a set letter or one less. -/
theorem withChanMode_mode (s : Server) (c : Cid) (ps : Params) :
    ((s.withChanMode c ps).channels c).mode
      = setLetter (s.channels c).mode (adds (ps.get 2)) (modeLetter ps) := by
  unfold Server.withChanMode
  rw [updChannel_self]

/-- A letter of a channel may be set. -/
theorem ModesClean.withChanMode (h : ModesClean s) {c : Cid} (hx : modeLetter ps ∈ chanLetters) :
    ModesClean (s.withChanMode c ps) := by
  refine ⟨fun d => ?_, h.member⟩
  by_cases hd : d = c
  · rw [hd, withChanMode_mode]
    exact (h.channel c).set hx _
  · unfold Server.withChanMode
    rw [updChannel_ne _ hd]
    exact h.channel d

/-- Entries that are changed, or not. -/
theorem mem_updFirst_cases {α : Type} {found : α → Bool} {f : α → α} {xs : List α} {y : α}
    (h : y ∈ updFirst found f xs) : y ∈ xs ∨ ∃ x ∈ xs, y = f x := by
  induction xs with
  | nil => cases h
  | cons x xs ih =>
    unfold updFirst at h
    by_cases hx : found x = true
    · rw [if_pos hx] at h
      rcases List.mem_cons.mp h with heq | htail
      · exact Or.inr ⟨x, List.mem_cons_self, heq⟩
      · exact Or.inl (List.mem_cons_of_mem _ htail)
    · rw [if_neg hx] at h
      rcases List.mem_cons.mp h with heq | htail
      · exact Or.inl (by rw [heq]; exact List.mem_cons_self)
      · rcases ih htail with hold | ⟨z, hz, heq⟩
        · exact Or.inl (List.mem_cons_of_mem _ hold)
        · exact Or.inr ⟨z, List.mem_cons_of_mem _ hz, heq⟩

/-- So may a letter of a member. -/
theorem ModesClean.withStatus (h : ModesClean s) {t : Uid} (hx : modeLetter ps ∈ memberLetters) :
    ModesClean (s.withStatus t ps) := by
  refine ⟨h.channel, fun v m hm => ?_⟩
  unfold Server.withStatus at hm
  by_cases hv : v = t
  · rw [hv, updPerson_self] at hm
    rcases mem_updFirst_cases hm with hold | ⟨m', hm', heq⟩
    · exact h.member t m hold
    · rw [heq]
      exact (h.member t m' hm').set hx _
  · rw [updPerson_ne _ hv] at hm
    exact h.member v m hm

/-! ## Steps and runs -/

/-- A MODE that sets a channel's mode, up to its last line. -/
theorem handleMODE_setsChannel (hs : Sane s) (h : ModesClean s) {c : Cid}
    (hstr : signedLetter (ps.get 2))
    (hfresh : adds (ps.get 2) = true → hasMode (s.channels c).mode (modeLetter ps) = false)
    (hset : s.setsChannel user ps = some c) :
    (handleMODE cfg self user ps).Meets ok
      (SetsUp ok (s.withChanMode c ps) (relays (s.withChanMode c ps) (s.channels c).name
        (chanModeLine s user c ps) none s.userlist.items)) s.world := by
  obtain ⟨⟨-, -, -, -, -, hsign⟩, -⟩ := setsChannel_some hset
  exact (handleMODE_channel hset).mpr
    (setChanMode_sets hs.idle.users (h.channel c) hstr hsign hfresh)

/-- A MODE that sets a member's status, up to its last line. -/
theorem handleMODE_setsMember (cfg : Config) (self : Uid) (ok : Nat → Bool) (hs : Sane s)
    (h : ModesClean s) {c : Cid} {t : Uid} (hstr : signedLetter (ps.get 2)) (hset : s.setsMember user ps = some (c, t)) :
    ∃ m, (s.persons t).seekChan (ps.get 1) = some m ∧ m ∈ (s.persons t).myChans.items ∧
    (handleMODE cfg self user ps).Meets ok
      (SetsUp ok (s.withStatus t ps) (relays (s.withStatus t ps) (s.channels c).name
        (memberModeLine s user ps) none s.userlist.items)) s.world := by
  obtain ⟨⟨-, -, hany⟩, hfound, -, hon⟩ := setsMember_some hset
  obtain ⟨m, hm⟩ := (onChan_iff_seekChan (seekChan_ne_nil hfound)).mp hon
  have hmem := List.mem_of_find?_eq_some hm
  have htwo : ps.get 2 ≠ [] := by
    intro hnil
    rw [hnil] at hany
    cases hany
  have hroom : adds (ps.get 2) = true → hasMode m.mode (modeLetter ps) = false →
      (m.mode ++ [modeLetter ps]).length ≤ modeRoom :=
    fun _ _ => fits_of_letters (h.member t m hmem) rfl
  exact ⟨m, hm, hmem, (handleMODE_member hset).mpr
    (setMemberMode_sets hs.idle.users hm hroom hstr htwo)⟩

/-- What a program that sets `s₁` up leaves behind. -/
theorem serve_of_setsUp (hs : Sane s) {log msgs : List Event} {s₁ : Server}
    (hcmd : commandOf (ps.get 0) = .MODE)
    (hserve : serve cfg s ⟨.message self ps, ok, stale⟩ = some (s', log))
    (hmeets : (handleMODE cfg self self ps).Meets ok (SetsUp ok s₁ msgs) s.world) :
    s' = s₁ ∧ log = msgs := by
  have hdispatch : (dispatch cfg self stale s.fuel self ps (commandOf (ps.get 0))).Meets ok
      (SetsUp ok s₁ msgs) s.world := by
    rw [hcmd]
    exact hmeets
  obtain ⟨w, rfl, rfl, hend⟩ := leaves_of_dispatch hs hserve hdispatch
  cases hend with
  | inl hdone => exact hdone
  | inr hexit => exact hexit.elim

/-- **One MODE** that meets the condition. -/
theorem ModesClean.message (hs : Sane s) (h : ModesClean s) {log : List Event}
    (hserve : serve cfg s ⟨.message self ps, ok, stale⟩ = some (s', log))
    (hfair : modesFairly s ⟨.message self ps, ok, stale⟩) (hcmd : commandOf (ps.get 0) = .MODE) :
    ModesClean s' := by
  obtain ⟨hstr, hfresh⟩ := hfair hcmd
  cases hchan : s.setsChannel self ps with
  | some c =>
    obtain ⟨⟨-, -, -, -, hany, -⟩, -⟩ := setsChannel_some hchan
    obtain ⟨rfl, -⟩ := serve_of_setsUp hs hcmd hserve
      (handleMODE_setsChannel hs h hstr (hfresh c hchan) hchan)
    have hx : modeLetter ps ∈ str "mt" := modeLetter_mem hstr (by decide) (by decide) hany
    exact h.withChanMode hx
  | none =>
    cases hmem : s.setsMember self ps with
    | some ct =>
      obtain ⟨c, t⟩ := ct
      obtain ⟨⟨-, -, hany⟩, -⟩ := setsMember_some hmem
      obtain ⟨m, -, -, hmeets⟩ := handleMODE_setsMember cfg self ok hs h hstr hmem
      obtain ⟨rfl, -⟩ := serve_of_setsUp hs hcmd hserve hmeets
      have hx : modeLetter ps ∈ str "ov" := modeLetter_mem hstr (by decide) (by decide) hany
      exact h.withStatus hx
    | none =>
      have hdispatch : (dispatch cfg self stale s.fuel self ps (commandOf (ps.get 0))).Meets ok
          (Unsets ok s self) s.world := by
        rw [hcmd]
        exact handleMODE_unsets hchan hmem
      obtain ⟨w, rfl, -, hend⟩ := leaves_of_dispatch hs hserve hdispatch
      cases hend with
      | inl hunset => exact hunset.modesClean h
      | inr hunset => exact hunset.modesClean h

/-- **One request.** -/
theorem ModesClean.step (hs : Sane s) (h : ModesClean s) {r : Request} (hfair : modesFairly s r)
    (hnext : next cfg s r = some s') : ModesClean s' := by
  have hturn := turn_of_next hs hnext
  cases hturn with
  | connect _ =>
    refine ⟨h.channel, fun v m hm => ?_⟩
    unfold Server.arrive at hm
    dsimp only at hm
    by_cases hv : v = s.nextUid
    · rw [if_pos hv] at hm
      cases hm
    · rw [if_neg hv] at hm
      exact h.member v m hm
  | @message self ps ok stale _ hin heff =>
    by_cases hcmd : commandOf (ps.get 0) = .MODE
    · obtain ⟨⟨s₁, log⟩, hserve, rfl⟩ := Option.map_eq_some_iff.mp hnext
      exact h.message hs hserve hfair hcmd
    · exact heff.modesClean hcmd h
  | hangup _ hexit => exact h.exitUser hexit

theorem modesClean_init : ModesClean .init := by
  refine ⟨fun _ => letters_nil _, fun v m hm => ?_⟩
  cases hm

/-- The strings are clean all along the run. -/
theorem modesClean_of_path {rs : List Request} (h : Path (next cfg) modesFairly .init rs s) :
    Sane s ∧ ModesClean s := by
  refine h.invariant (fun s => Sane s ∧ ModesClean s) ⟨sane_init, modesClean_init⟩ ?_
  intro s r s' hfair hnext hinv
  exact ⟨(turn_of_next hinv.1 hnext).sane hinv.1, hinv.2.step hinv.1 hfair hnext⟩

/-- In a clean state a MODE sets the letter that it names. -/
theorem setsLetter_of_clean (hs : Sane s) (h : ModesClean s) (hin : self ∈ s.userlist.items)
    (hcmd : commandOf (ps.get 0) = .MODE) (hfair : modesFairly s ⟨.message self ps, ok, stale⟩) :
    SetsLetter cfg s self ps ok stale := by
  obtain ⟨hstr, hfresh⟩ := hfair hcmd
  have hintact : ∀ {s₁ : Server} {msgs : List Event},
      (handleMODE cfg self self ps).Meets ok (SetsUp ok s₁ msgs) s.world →
      ∀ f w, (parse cfg self stale s.fuel ps).run ok s.world ≠ .crashed f w := by
    intro s₁ msgs hmeets f w hrun
    have hparse : (parse cfg self stale s.fuel ps).Meets ok (SetsUp ok s₁ msgs) s.world := by
      refine (parse_eq (seekFd_self hs hin)).mpr ?_
      rw [hcmd]
      exact hmeets
    unfold Prog.Meets at hparse
    rw [hrun] at hparse
    exact hparse
  refine ⟨fun hrelayed => ?_, fun c s' log hset hserve => ?_, fun c t s' log hset hserve => ?_⟩
  · rcases hrelayed with hchan | hmem
    · obtain ⟨c, hchan⟩ := Option.isSome_iff_exists.mp hchan
      exact hintact (handleMODE_setsChannel hs h hstr (hfresh c hchan) hchan)
    · obtain ⟨⟨c, t⟩, hmem⟩ := Option.isSome_iff_exists.mp hmem
      obtain ⟨m, -, -, hmeets⟩ := handleMODE_setsMember cfg self ok hs h hstr hmem
      exact hintact hmeets
  · obtain ⟨rfl, rfl⟩ := serve_of_setsUp hs hcmd hserve
      (handleMODE_setsChannel hs h hstr (hfresh c hset) hset)
    refine ⟨rfl, fun x => ?_⟩
    rw [withChanMode_mode]
    exact (h.channel c).hasMode_set _ _ _
  · obtain ⟨m, hm, hmem, hmeets⟩ := handleMODE_setsMember cfg self ok hs h hstr hset
    obtain ⟨rfl, rfl⟩ := serve_of_setsUp hs hcmd hserve hmeets
    refine ⟨rfl, m, _, hm, withStatus_seekChan hm, fun x => ?_⟩
    exact (h.member t m hmem).hasMode_set _ _ _

/-- **In every run of fair MODEs** the mode strings are sets of their own letters,
and what is relayed is true afterwards. -/
theorem modes_clean {rs : List Request} (h : Path (next cfg) modesFairly .init rs s) :
    ModesClean s ∧ ∀ self ps ok stale, self ∈ s.userlist.items → commandOf (ps.get 0) = .MODE →
      modesFairly s ⟨.message self ps, ok, stale⟩ → SetsLetter cfg s self ps ok stale := by
  obtain ⟨hs, hclean⟩ := modesClean_of_path h
  exact ⟨hclean, fun self ps ok stale hin hcmd hfair =>
    setsLetter_of_clean hs hclean hin hcmd hfair⟩

/-- A client joins a channel, of which he is the operator. -/
def joinsOne : List Request := registersOne ++ [.plain (.line 0 ["JOIN", "#c"])]

/-- The channel is moderated, and he gets a voice. -/
def setsModes : List Request :=
  [.plain (.line 0 ["MODE", "#c", "+m"]), .plain (.line 0 ["MODE", "#c", "+v", "u"])]

theorem modes_clean_moderated : ∃ s, Path (next .plain) modesFairly .init (joinsOne ++ setsModes) s ∧
    (s.channels 0).mode = str "m" ∧
    (ModesClean s ∧ ∀ self ps ok stale, self ∈ s.userlist.items → commandOf (ps.get 0) = .MODE →
      modesFairly s ⟨.message self ps, ok, stale⟩ → SetsLetter .plain s self ps ok stale) := by
  have hfair : ∀ r ∈ joinsOne, ∀ s, modesFairly s r := by
    intro r hr s
    simp only [joinsOne, registersOne, List.cons_append, List.nil_append, List.mem_cons,
      List.not_mem_nil, or_false] at hr
    obtain rfl | rfl | rfl | rfl := hr
    · trivial
    · exact fun hcmd => absurd hcmd (by decide)
    · exact fun hcmd => absurd hcmd (by decide)
    · exact fun hcmd => absurd hcmd (by decide)
  obtain ⟨s, hpath, hs⟩ := exists_of_follow
    (p := fun s => s.setsChannel 0 (["MODE", "#c", "+m"].map str) = some 0 ∧
      (s.channels 0).mode = [] ∧
      (next .plain s (.plain (.line 0 ["MODE", "#c", "+m"]))).any fun s' =>
        s'.setsChannel 0 (["MODE", "#c", "+v", "u"].map str) = none ∧
        (next .plain s' (.plain (.line 0 ["MODE", "#c", "+v", "u"]))).any fun s'' =>
          (s''.channels 0).mode = str "m")
    hfair (by decide +kernel : (follow (next .plain) .init joinsOne).any _ = true)
  obtain ⟨hset, hempty, hrest⟩ := of_decide_eq_true hs
  obtain ⟨s', hnext, hs'⟩ := (Option.any_eq_true _ _).mp hrest
  obtain ⟨hset', hrest'⟩ := of_decide_eq_true hs'
  obtain ⟨s'', hnext', hs''⟩ := (Option.any_eq_true _ _).mp hrest'
  have hfirst : modesFairly s (.plain (.line 0 ["MODE", "#c", "+m"])) := by
    refine fun _ => ⟨Or.inr ⟨modeM, Or.inl rfl⟩, fun c hc _ => ?_⟩
    have hsame : some c = some 0 := hc.symm.trans hset
    rw [Option.some.inj hsame, hempty]
    rfl
  have hsecond : modesFairly s' (.plain (.line 0 ["MODE", "#c", "+v", "u"])) := by
    refine fun _ => ⟨Or.inr ⟨modeV, Or.inl rfl⟩, fun c hc _ => ?_⟩
    have hnone : some c = none := hc.symm.trans hset'
    cases hnone
  have hall := Path.snoc (Path.snoc hpath hfirst hnext) hsecond hnext'
  rw [List.append_assoc] at hall
  exact ⟨s'', hall, of_decide_eq_true hs'', modes_clean hall⟩

/-- Each MODE string is a sign and a letter. -/
def signedModes (_ : Server) (r : Request) : Prop :=
  match r.input with
  | .message _ ps => commandOf (ps.get 0) = .MODE → signedLetter (ps.get 2)
  | _ => True

/-- The channel is moderated twice. -/
def moderatesTwice : List Request :=
  joinsOne ++ [.plain (.line 0 ["MODE", "#c", "+m"]), .plain (.line 0 ["MODE", "#c", "+m"])]

/-- The letter is there twice, and still there after it has been taken out. -/
theorem mode_twice : ∃ s s', Path (next .plain) signedModes .init moderatesTwice s ∧
    ¬ ModesClean s ∧ s.setsChannel 0 (["MODE", "#c", "-m"].map str) = some 0 ∧
    next .plain s (.plain (.line 0 ["MODE", "#c", "-m"])) = some s' ∧
    hasMode (s'.channels 0).mode modeM = true := by
  have hsigned : ∀ r ∈ moderatesTwice, ∀ s, signedModes s r := by
    intro r hr s
    simp only [moderatesTwice, joinsOne, registersOne, List.cons_append, List.nil_append,
      List.mem_cons, List.not_mem_nil, or_false] at hr
    obtain rfl | rfl | rfl | rfl | rfl | rfl := hr
    · trivial
    · exact fun hcmd => absurd hcmd (by decide)
    · exact fun hcmd => absurd hcmd (by decide)
    · exact fun hcmd => absurd hcmd (by decide)
    · exact fun _ => Or.inr ⟨modeM, Or.inl rfl⟩
    · exact fun _ => Or.inr ⟨modeM, Or.inl rfl⟩
  obtain ⟨s, hpath, hs⟩ := exists_of_follow
    (p := fun s => (s.channels 0).mode = str "mm" ∧
      s.setsChannel 0 (["MODE", "#c", "-m"].map str) = some 0 ∧
      (next .plain s (.plain (.line 0 ["MODE", "#c", "-m"]))).any fun s' =>
        hasMode (s'.channels 0).mode modeM)
    hsigned (by decide +kernel : (follow (next .plain) .init moderatesTwice).any _ = true)
  obtain ⟨htwice, hset, hnext⟩ := of_decide_eq_true hs
  obtain ⟨s', hnext, hstill⟩ := (Option.any_eq_true _ _).mp hnext
  refine ⟨s, s', hpath, ?_, hset, hnext, hstill⟩
  intro hclean
  have hnodup := (hclean.channel 0).nodup
  rw [htwice] at hnodup
  exact absurd hnodup (by decide)

end UchiNetworks.Chirc
