import UchiNetworks.Chirc.ModeSteps

/-!
# chirc: a user's own mode

Three commands edit a user's own mode: AWAY sets and removes `a`, OPER sets `o`,
and `MODE own-nick -o` is to remove it. It looks for the letter `@` instead, so
an operator stays one (`oper_kept`), though he is told that he is not.

As long as nobody who is an operator asks for that, the mode is what the user's
last AWAY and his last OPER or MODE say (`modes_told`).
-/

namespace UchiNetworks.Chirc

open UchiNetworks.Lib
open Prog

variable {cfg : Config} {self user : Uid} {ok : Nat → Bool} {s s' : Server} {u : Uid} {ps : Params}
  {stale : Nat → Nat}

-- the letters of a user's mode
def userLetters : CStr := [modeA, modeO]

/-- `MODE own-nick -o`, which is relayed back to the user. -/
def Server.deops (s : Server) (u : Uid) (ps : Params) : Bool :=
  ps.get 3 = [] ∧ (ps.get 1).head? ≠ some (chr '#') ∧ ps.get 1 = (s.persons u).nick ∧
    ps.get 2 = str "-o"

/-- An AWAY, with a message or without, or an operator event. -/
inductive Mark where
  | away (message : Bool)
  | oper (given : Bool)
  deriving DecidableEq, Repr

/-- What a command of `u` counts as: AWAY once he is registered, OPER with the
password, and `MODE own-nick -o`. -/
def Server.markOf (cfg : Config) (s : Server) (u : Uid) (ps : Params) : Command → Option Mark
  | .AWAY => if (s.persons u).registered then some (.away (ps.get 1 ≠ [])) else none
  | .OPER => if ps.get 2 = cfg.pw then some (.oper true) else none
  | .MODE => if s.deops u ps then some (.oper false) else none
  | _ => none

/-- What a request counts as for `u`. -/
def Server.mark (cfg : Config) (s : Server) (u : Uid) (r : Request) : Option Mark :=
  match r.input with
  | .message self ps => if self = u then s.markOf cfg u ps (commandOf (ps.get 0)) else none
  | _ => none

/-- What has counted for `u` in a run. -/
def marks (cfg : Config) (u : Uid) : Server → List Request → List Mark
  | _, [] => []
  | s, r :: rs =>
    (s.mark cfg u r).toList ++ ((next cfg s r).map fun s' => marks cfg u s' rs).getD []

/-- Did the last AWAY carry a message? -/
def lastAway (ms : List Mark) : Option Bool :=
  (ms.filterMap fun | .away b => some b | .oper _ => none).getLast?

/-- Was the last operator event an OPER? -/
def lastOper (ms : List Mark) : Option Bool :=
  (ms.filterMap fun | .oper b => some b | .away _ => none).getLast?

/-- The mode of `u` says what his commands have said. -/
structure ModeTold (cfg : Config) (rs : List Request) (s : Server) (u : Uid) : Prop where
  letters : Letters userLetters (s.persons u).mode
  away : hasMode (s.persons u).mode modeA = true ↔ lastAway (marks cfg u .init rs) = some true
  oper : hasMode (s.persons u).mode modeO = true ↔ lastOper (marks cfg u .init rs) = some true

/-- Nobody who is an operator asks to be none. -/
def deopsFairly (s : Server) (r : Request) : Prop :=
  match r.input with
  | .message self ps => commandOf (ps.get 0) = .MODE → s.deops self ps = true →
      hasMode (s.persons self).mode modeO = false
  | _ => True

/-! ## Histories -/

theorem marks_concat {rs : List Request} {r : Request} :
    ∀ {s₀ : Server}, follow (next cfg) s₀ rs = some s →
      marks cfg u s₀ (rs ++ [r]) = marks cfg u s₀ rs ++ (s.mark cfg u r).toList := by
  induction rs with
  | nil =>
    intro s₀ h
    cases h
    have hrest : ((next cfg s r).map fun s' => marks cfg u s' []).getD [] = [] := by
      cases next cfg s r with
      | none => rfl
      | some s' => rfl
    show (s.mark cfg u r).toList ++ _ = [] ++ (s.mark cfg u r).toList
    rw [hrest, List.append_nil, List.nil_append]
  | cons r' rs ih =>
    intro s₀ h
    obtain ⟨s₁, hnext, hrest⟩ := Option.bind_eq_some_iff.mp h
    show (s₀.mark cfg u r').toList ++ ((next cfg s₀ r').map fun s' =>
      marks cfg u s' (rs ++ [r])).getD [] = (_ ++ _) ++ _
    rw [hnext, List.append_assoc]
    show _ ++ marks cfg u s₁ (rs ++ [r]) = _ ++ (marks cfg u s₁ rs ++ _)
    rw [ih hrest]

/-- The mode after a mark, as it should be. -/
def marked (mode : CStr) : Option Mark → CStr
  | none => mode
  | some (.away b) => setLetter mode b modeA
  | some (.oper b) => setLetter mode b modeO

/-- **A mark more**: the letters go with the history. -/
theorem ModeTold.mark {rs : List Request} {r : Request} (h : ModeTold cfg rs s u)
    (hfollow : follow (next cfg) .init rs = some s)
    (hmode : (s'.persons u).mode = marked (s.persons u).mode (s.mark cfg u r)) :
    ModeTold cfg (rs ++ [r]) s' u := by
  have hmarks : marks cfg u .init (rs ++ [r]) = marks cfg u .init rs ++ (s.mark cfg u r).toList :=
    marks_concat hfollow
  have hao : modeA ≠ modeO := by decide
  rcases hmark : s.mark cfg u r with _ | m
  · rw [hmark] at hmode hmarks
    have hsame : marks cfg u .init (rs ++ [r]) = marks cfg u .init rs :=
      hmarks.trans (List.append_nil _)
    have hmode' : (s'.persons u).mode = (s.persons u).mode := hmode
    exact ⟨by rw [hmode']; exact h.letters, by rw [hmode', hsame]; exact h.away,
      by rw [hmode', hsame]; exact h.oper⟩
  · rw [hmark] at hmode hmarks
    cases m with
    | away b =>
      -- AWAY moves its own letter, and OPER's history is as it was
      have hset : (s'.persons u).mode = setLetter (s.persons u).mode b modeA := hmode
      have haway : lastAway (marks cfg u .init (rs ++ [r])) = some b := by
        rw [hmarks, lastAway, List.filterMap_append]
        exact List.getLast?_concat
      have hoper : lastOper (marks cfg u .init (rs ++ [r])) = lastOper (marks cfg u .init rs) := by
        rw [hmarks, lastOper, List.filterMap_append]
        exact congrArg List.getLast? (List.append_nil _)
      refine ⟨?_, ?_, ?_⟩
      · rw [hset]
        exact h.letters.set List.mem_cons_self b
      · rw [hset, h.letters.hasMode_set, if_pos rfl, haway, Option.some.injEq]
      · rw [hset, h.letters.hasMode_set, if_neg hao.symm, hoper]
        exact h.oper
    | oper b =>
      have hset : (s'.persons u).mode = setLetter (s.persons u).mode b modeO := hmode
      have hoper : lastOper (marks cfg u .init (rs ++ [r])) = some b := by
        rw [hmarks, lastOper, List.filterMap_append]
        exact List.getLast?_concat
      have haway : lastAway (marks cfg u .init (rs ++ [r])) = lastAway (marks cfg u .init rs) := by
        rw [hmarks, lastAway, List.filterMap_append]
        exact congrArg List.getLast? (List.append_nil _)
      refine ⟨?_, ?_, ?_⟩
      · rw [hset]
        exact h.letters.set (List.mem_cons_of_mem _ List.mem_cons_self) b
      · rw [hset, h.letters.hasMode_set, if_neg hao, haway]
        exact h.away
      · rw [hset, h.letters.hasMode_set, if_pos rfl, hoper, Option.some.injEq]

/-! ## What the commands do to the mode -/

/-- The program ends with the mode of `u` as given, and nobody else's changed. -/
def SetsMode (ok : Nat → Bool) (s : Server) (u : Uid) (mode : CStr) :
    Post Server Mutex Event Fault Unit where
  done := fun _ w => ∀ v, (w.state.persons v).mode = if v = u then mode else (s.persons v).mode
  exited := fun _ => False
  crashed := fun _ => True
  stuck := Fails ok

theorem setsMode_same {out : List Event} {p : Act Unit} {mode : CStr}
    (hmode : (s.persons u).mode = mode) (h : TalksAt ok s p) :
    p.Meets ok (SetsMode ok s u mode) ⟨s, [], out⟩ := by
  refine talks_then (h out) id fun _ v => ?_
  by_cases hv : v = u
  · rw [if_pos hv, hv]
    exact hmode
  · rw [if_neg hv]

theorem setsMode_updPerson {out : List Event} {p : Act Unit} {f : Person → Person} {mode : CStr}
    (hmode : (f (s.persons u)).mode = mode) (h : TalksAt ok (s.updPerson u f) p) :
    p.Meets ok (SetsMode ok s u mode) ⟨s.updPerson u f, [], out⟩ := by
  refine talks_then (h out) id fun _ v => ?_
  by_cases hv : v = u
  · rw [if_pos hv, hv, updPerson_self]
    exact hmode
  · rw [if_neg hv, updPerson_ne f hv]

theorem setLetter_true_new {mode : CStr} {x : UInt8} (hnew : hasMode mode x = false) :
    setLetter mode true x = mode ++ [x] := by
  unfold setLetter
  rw [if_pos rfl, if_neg (by rw [hnew]; exact Bool.false_ne_true)]

theorem setLetter_true_old {mode : CStr} {x : UInt8} (hold : hasMode mode x = true) :
    setLetter mode true x = mode := by
  unfold setLetter
  rw [if_pos rfl, if_pos hold]

theorem setLetter_false_none {mode : CStr} {x : UInt8} (hnone : hasMode mode x = false) :
    setLetter mode false x = mode :=
  List.erase_of_not_mem (not_hasMode_iff.mp hnone)

/-- `strcat` in the record. -/
theorem setAway_sets {mode : CStr} {s₁ : Server} {f : Person → Person} (hs₁ : s₁ = s.updPerson user f)
    (hmode : (f (s.persons user)).mode = mode) {out : List Event} :
    (do
      acquire (.cLock user)
      change (·.updPerson user fun p => { p with away := ps.get 1 })
      release (.cLock user)
      sendReply cfg self user .rplNowaway [] [] : Act Unit).Meets ok (SetsMode ok s user mode)
      ⟨s₁, [], out⟩ := by
  rw [lockedChange_bind List.not_mem_nil, hs₁]
  dsimp only
  rw [updPerson_updPerson]
  exact setsMode_updPerson hmode sendReply_talksAt

/-- **AWAY.** -/
theorem handleAWAY_sets {out : List Event} :
    (handleAWAY cfg self user ps).Meets ok
      (SetsMode ok s user (marked (s.persons user).mode (s.markOf cfg user ps .AWAY)))
      ⟨s, [], out⟩ := by
  by_cases hreg : (s.persons user).registered = true
  · have hmark : s.markOf cfg user ps .AWAY = some (.away (ps.get 1 ≠ [])) := if_pos hreg
    unfold handleAWAY
    rw [hmark, look_bind, hreg, Bool.not_true, if_neg Bool.false_ne_true]
    by_cases hback : ps.get 1 = []
    · have hfalse : decide (ps.get 1 ≠ []) = false := decide_eq_false (not_not.mpr hback)
      rw [hfalse, if_pos hback]
      show (onlyIf _ _ >>= _).Meets ok (SetsMode ok s user (setLetter _ false modeA)) _
      rw [onlyIf_bind]
      -- back: the letter goes, if it is there
      refine ⟨fun _ => ?_, fun hnone => setsMode_same ?_ sendReply_talksAt⟩
      · rw [dropUserMode_meets]
        exact setsMode_updPerson rfl sendReply_talksAt
      · exact (setLetter_false_none hnone).symm
    · have htrue : decide (ps.get 1 ≠ []) = true := decide_eq_true hback
      rw [htrue, if_neg hback]
      show (onlyIf _ _ >>= _).Meets ok (SetsMode ok s user (setLetter _ true modeA)) _
      rw [onlyIf_bind]
      -- away: the letter comes, unless it is there
      refine ⟨fun hnew => ?_, fun hold => ?_⟩
      · have hnew : hasMode (s.persons user).mode modeA = false := by simpa using hnew
        rw [acquire_bind List.not_mem_nil, meets_bind]
        refine addUserMode_meets ?_ trivial
        dsimp only
        rw [meets_release, List.erase_cons_head]
        exact setAway_sets rfl (setLetter_true_new hnew).symm
      · have hold : hasMode (s.persons user).mode modeA = true := by simpa using hold
        refine setAway_sets (f := fun p => p) (updPerson_eq_self rfl).symm ?_
        exact (setLetter_true_old hold).symm
  · have hmark : s.markOf cfg user ps .AWAY = none := if_neg hreg
    unfold handleAWAY
    rw [hmark, look_bind, if_pos (by simpa using hreg)]
    exact setsMode_same rfl sendReply_talksAt

/-- **OPER.** -/
theorem handleOPER_sets {out : List Event} :
    (handleOPER cfg self user ps).Meets ok
      (SetsMode ok s user (marked (s.persons user).mode (s.markOf cfg user ps .OPER)))
      ⟨s, [], out⟩ := by
  unfold handleOPER
  by_cases hpw : ps.get 2 = cfg.pw
  · have hmark : s.markOf cfg user ps .OPER = some (.oper true) := if_pos hpw
    rw [hmark, if_neg (not_not.mpr hpw), look_bind, onlyIf_bind]
    refine ⟨fun hnew => ?_, fun hold => ?_⟩
    · have hnew : hasMode (s.persons user).mode modeO = false := by simpa using hnew
      refine addUserMode_meets ?_ trivial
      exact setsMode_updPerson (setLetter_true_new hnew).symm sendReply_talksAt
    · have hold : hasMode (s.persons user).mode modeO = true := by simpa using hold
      exact setsMode_same (setLetter_true_old hold).symm sendReply_talksAt
  · have hmark : s.markOf cfg user ps .OPER = none := if_neg hpw
    rw [hmark, if_pos hpw]
    exact setsMode_same rfl sendReply_talksAt

/-! ## Steps and runs -/

/-- What a handler that sets the mode leaves behind. -/
theorem mode_of_serve (hs : Sane s) {log : List Event} {mode : CStr} {v : Uid}
    (hserve : serve cfg s ⟨.message self ps, ok, stale⟩ = some (s', log))
    (hmeets : (dispatch cfg self stale s.fuel self ps (commandOf (ps.get 0))).Meets ok
      (SetsMode ok s self mode) s.world) :
    (s'.persons v).mode = if v = self then mode else (s.persons v).mode := by
  obtain ⟨w, rfl, -, hend⟩ := leaves_of_dispatch hs hserve hmeets
  cases hend with
  | inl hdone => exact hdone v
  | inr hexit => exact hexit.elim

/-- A letter that is none of the user's. -/
theorem Letters.no_at {mode : CStr} (h : Letters userLetters mode) :
    hasMode mode (chr '@') = false := by
  rw [not_hasMode_iff]
  intro hat
  exact absurd (h.subset hat) (by decide)

/-- A message of `u` moves his mode by its mark. -/
theorem message_marks (hs : Sane s) (hletters : Letters userLetters (s.persons self).mode)
    {log : List Event} (hserve : serve cfg s ⟨.message self ps, ok, stale⟩ = some (s', log))
    (hfair : deopsFairly s ⟨.message self ps, ok, stale⟩) (v : Uid) :
    (s'.persons v).mode = if v = self then
      marked (s.persons self).mode (s.markOf cfg self ps (commandOf (ps.get 0)))
      else (s.persons v).mode := by
  have hsame : (∀ v, (s'.persons v).mode = (s.persons v).mode) → ∀ {mark : Option Mark},
      marked (s.persons self).mode mark = (s.persons self).mode →
      (s'.persons v).mode = if v = self then marked (s.persons self).mode mark
        else (s.persons v).mode := by
    intro hall mark hmark
    rw [hall v, hmark]
    by_cases hv : v = self
    · rw [if_pos hv, hv]
    · rw [if_neg hv]
  by_cases haway : commandOf (ps.get 0) = .AWAY
  · rw [haway]
    refine mode_of_serve hs hserve ?_
    rw [haway]
    exact handleAWAY_sets
  by_cases hoper : commandOf (ps.get 0) = .OPER
  · rw [hoper]
    refine mode_of_serve hs hserve ?_
    rw [hoper]
    exact handleOPER_sets
  -- no other command changes the mode, for it never has the letter that MODE looks for
  have hall : ∀ v, (s'.persons v).mode = (s.persons v).mode := by
    cases turn_of_serve hs hserve with
    | message _ heff =>
      rcases heff.modes with hall | ⟨mode', hchange, -⟩
      · exact hall
      · generalize commandOf (ps.get 0) = c at hchange haway hoper
        cases hchange with
        | back => exact absurd rfl haway
        | away => exact absurd rfl haway
        | oper _ => exact absurd rfl hoper
        | userMode hat =>
          rw [hletters.no_at] at hat
          exact absurd hat Bool.false_ne_true
  refine hsame hall ?_
  by_cases hmode : commandOf (ps.get 0) = .MODE
  · rw [hmode]
    show marked _ (if s.deops self ps then some (.oper false) else none) = _
    by_cases hdeops : s.deops self ps = true
    · rw [if_pos hdeops]
      exact setLetter_false_none (hfair hmode hdeops)
    · rw [if_neg hdeops]
      rfl
  · have hnone : s.markOf cfg self ps (commandOf (ps.get 0)) = none := by
      generalize commandOf (ps.get 0) = c at haway hoper hmode
      cases c with
      | AWAY => exact absurd rfl haway
      | OPER => exact absurd rfl hoper
      | MODE => exact absurd rfl hmode
      | _ => rfl
    rw [hnone]
    rfl

theorem exitUser_nextUid (hexit : s.exitUser u = some s') : s'.nextUid = s.nextUid := by
  obtain ⟨t, hleave, rfl⟩ := Option.map_eq_some_iff.mp hexit
  have hgen : ∀ (ms : List MyChan) (s t : Server), Server.leaveChans ms s = some t →
      t.nextUid = s.nextUid := by
    intro ms
    induction ms with
    | nil =>
      intro s t h
      rw [← Option.some.inj h]
    | cons m ms ih =>
      intro s t h
      unfold Server.leaveChans at h
      obtain ⟨c, -, hrest⟩ := Option.bind_eq_some_iff.mp h
      have hframe := ih (s.leaveChan c) t hrest
      exact hframe
  have hframe := hgen _ s t hleave
  exact hframe

theorem countIf_nextUid (s : Server) (b : Bool) : (s.countIf b).nextUid = s.nextUid := by
  cases b with
  | false => rfl
  | true => rfl

/-- Only a new connection takes a number. -/
theorem Effect.nextUid {c : Command} (heff : Effect cfg ok s u ps c s') :
    s'.nextUid = s.nextUid := by
  cases heff with
  | firstNick _ _ => exact countIf_nextUid _ _
  | user _ => exact countIf_nextUid _ _
  | quit hexit =>
    have hframe := exitUser_nextUid hexit
    exact hframe
  | dropped _ _ hexit => exact exitUser_nextUid hexit
  | _ => rfl

/-- Every user's mode is told, and nothing has counted for who has yet to come. -/
structure ToldInv (cfg : Config) (rs : List Request) (s : Server) : Prop where
  sane : Sane s
  told : ∀ u, ModeTold cfg rs s u
  unborn : ∀ u, s.nextUid ≤ u → marks cfg u .init rs = []

theorem toldInv_init : ToldInv cfg [] .init := by
  refine ⟨sane_init, fun u => ⟨letters_nil _, ?_, ?_⟩, fun _ _ => rfl⟩
  · exact ⟨fun h => absurd h Bool.false_ne_true, fun h => by cases h⟩
  · exact ⟨fun h => absurd h Bool.false_ne_true, fun h => by cases h⟩

/-- **One request.** -/
theorem ToldInv.step {rs : List Request} {r : Request} (h : ToldInv cfg rs s)
    (hfollow : follow (next cfg) .init rs = some s) (hfair : deopsFairly s r)
    (hnext : next cfg s r = some s') : ToldInv cfg (rs ++ [r]) s' := by
  have hturn := turn_of_next h.sane hnext
  have hsane := hturn.sane h.sane
  have hquiet : ∀ u, s.mark cfg u r = none →
      marks cfg u .init (rs ++ [r]) = marks cfg u .init rs := by
    intro u hmark
    rw [marks_concat hfollow, hmark]
    exact List.append_nil _
  cases hturn with
  | @connect fd address _ _ _ =>
    refine ⟨hsane, fun u => ?_, fun u hu => ?_⟩
    · by_cases hu : u = s.nextUid
      · -- the new record has an empty mode, and nothing has counted for it
        have hnone := hquiet u rfl
        rw [h.unborn u (Nat.le_of_eq hu.symm)] at hnone
        have hmode : ((s.arrive fd address).persons u).mode = [] := by rw [hu, arrive_new]
        refine ⟨?_, ?_, ?_⟩
        · rw [hmode]
          exact letters_nil _
        · rw [hmode, hnone]
          exact ⟨fun h => absurd h Bool.false_ne_true, fun h => by cases h⟩
        · rw [hmode, hnone]
          exact ⟨fun h => absurd h Bool.false_ne_true, fun h => by cases h⟩
      · refine (h.told u).mark hfollow ?_
        unfold Server.arrive
        dsimp only
        rw [if_neg hu]
        rfl
    · rw [hquiet u rfl]
      exact h.unborn u (Nat.le_of_succ_le hu)
  | @message self ps ok stale _ hin heff =>
    obtain ⟨⟨s₁, log⟩, hserve, rfl⟩ := Option.map_eq_some_iff.mp hnext
    have hmodes := message_marks h.sane (h.told self).letters hserve hfair
    refine ⟨hsane, fun u => ?_, fun u hu => ?_⟩
    · refine (h.told u).mark hfollow ?_
      refine (hmodes u).trans ?_
      show _ = marked _ (if self = u then _ else none)
      by_cases hu : u = self
      · rw [if_pos hu, if_pos hu.symm, hu]
      · rw [if_neg hu, if_neg (Ne.symm hu)]
        rfl
    · have hu' : s.nextUid ≤ u := by
        rw [← heff.nextUid]
        exact hu
      have hother : self ≠ u := Nat.ne_of_lt (Nat.lt_of_lt_of_le (h.sane.usersOld self hin) hu')
      rw [hquiet u (if_neg hother)]
      exact h.unborn u hu'
  | hangup _ hexit =>
    refine ⟨hsane, fun u => ?_, fun u hu => ?_⟩
    · refine (h.told u).mark hfollow ?_
      exact exitUser_mode hexit u
    · rw [hquiet u rfl]
      exact h.unborn u (by rw [← exitUser_nextUid hexit]; exact hu)

/-- **In every run without an operator who asks to be none** each user's mode says
what his last AWAY and his last operator event have said. -/
theorem modes_told {rs : List Request} (h : Path (next cfg) deopsFairly .init rs s) (u : Uid) :
    ModeTold cfg rs s u := by
  have hinv : ToldInv cfg rs s := by
    refine h.history (ToldInv cfg) toldInv_init ?_
    intro rs s r s' hpath hfair hnext hinv
    exact hinv.step (follow_of_path hpath) hfair hnext
  exact hinv.told u

/-- A client registers, is away, and comes back an operator. -/
def comesBack : List Request :=
  registersOne ++ [.plain (.line 0 ["AWAY", ":gone"]), .plain (.line 0 ["OPER", "u", "pw"]),
    .plain (.line 0 ["AWAY"])]

theorem modes_told_back : ∃ s, Path (next .plain) deopsFairly .init comesBack s ∧
    (s.persons 0).mode = str "o" ∧ ModeTold .plain comesBack s 0 := by
  have hfair : ∀ r ∈ comesBack, ∀ s, deopsFairly s r := by
    intro r hr s
    simp only [comesBack, registersOne, List.cons_append, List.nil_append, List.mem_cons,
      List.not_mem_nil, or_false] at hr
    obtain rfl | rfl | rfl | rfl | rfl | rfl := hr
    · trivial
    · exact fun hcmd => absurd hcmd (by decide)
    · exact fun hcmd => absurd hcmd (by decide)
    · exact fun hcmd => absurd hcmd (by decide)
    · exact fun hcmd => absurd hcmd (by decide)
    · exact fun hcmd => absurd hcmd (by decide)
  obtain ⟨s, hpath, hmode⟩ := exists_of_follow (p := fun s => (s.persons 0).mode = str "o") hfair
    (by decide +kernel : (follow (next .plain) .init comesBack).any _ = true)
  exact ⟨s, hpath, of_decide_eq_true hmode, modes_told hpath 0⟩

/-- An operator asks to be none. -/
def asksToBeNone : List Request :=
  registersOne ++ [.plain (.line 0 ["OPER", "u", "pw"]), .plain (.line 0 ["MODE", "a", "-o"])]

/-- He is one still. -/
theorem oper_kept : ¬ ∀ (cfg : Config) (rs : List Request) (s : Server) (u : Uid),
    Path (next cfg) anyRequest .init rs s → (s.persons u).registered = true →
      ModeTold cfg rs s u := by
  intro hall
  have hany : ∀ r ∈ asksToBeNone, ∀ s, anyRequest s r := fun _ _ _ => trivial
  obtain ⟨s, hpath, hbad⟩ := exists_of_follow
    (p := fun s => (s.persons 0).registered = true ∧ hasMode (s.persons 0).mode modeO = true) hany
    (by decide +kernel : (follow (next .plain) .init asksToBeNone).any _ = true)
  obtain ⟨hreg, hoper⟩ := of_decide_eq_true hbad
  have hlast : lastOper (marks .plain 0 .init asksToBeNone) = some false := by decide +kernel
  have htold := (hall .plain _ s 0 hpath hreg).oper.mp hoper
  rw [hlast] at htold
  cases htold

end UchiNetworks.Chirc
