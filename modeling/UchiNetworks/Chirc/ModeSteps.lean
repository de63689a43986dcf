import UchiNetworks.Chirc.Authority
import UchiNetworks.Chirc.Letters

/-!
# chirc: the branches of MODE

Two branches of MODE set a letter and relay the change to the channel: the one
for the channel's own mode (`Server.setsChannel`) and the one for a member's
status (`Server.setsMember`). As long as the strings are sets, both do to them
what `setLetter` does (`setChanMode_sets`, `setMemberMode_sets`), and no other
branch changes them (`handleMODE_unsets`).
-/

namespace UchiNetworks.Chirc

open UchiNetworks.Lib
open Prog

variable {cfg : Config} {self user : Uid} {ok : Nat → Bool} {s s' : Server} {u : Uid} {ps : Params}

-- the letters of a channel's mode, and of a member's
def chanLetters : CStr := [modeM, modeT]
def memberLetters : CStr := [modeO, modeV]

/-- The channel whose mode a MODE changes and relays. -/
def Server.setsChannel (s : Server) (u : Uid) (ps : Params) : Option Cid :=
  if ps.get 3 = [] ∧ (ps.get 1).head? = some (chr '#') ∧ ps.get 2 ≠ [] ∧
      s.lacksOper u (ps.get 1) = some false ∧ anyOf (ps.get 2) (str "mt") = true ∧
      ((ps.get 2).head? = some (chr '+') ∨ (ps.get 2).head? = some (chr '-')) then
    s.seekChan (ps.get 1)
  else none

/-- May `u` change the status of members? He has to be on the channel. -/
def Server.mayStatus (s : Server) (u : Uid) (name : CStr) : Bool :=
  ((s.persons u).seekChan name).any fun m => hasMode (s.persons u).mode modeO || hasMode m.mode modeO

/-- The channel and the member whose status there a MODE changes and relays. -/
def Server.setsMember (s : Server) (u : Uid) (ps : Params) : Option (Cid × Uid) :=
  if ps.get 3 ≠ [] ∧ s.mayStatus u (ps.get 1) = true ∧ anyOf (ps.get 2) (str "ov") = true then
    (s.seekChan (ps.get 1)).bind fun c =>
      ((s.seekUser (ps.get 3)).filter fun t => (s.persons t).onChan (ps.get 1)).map fun t => (c, t)
  else none

/-- The relayed line of a channel's mode. -/
def chanModeLine (s : Server) (u : Uid) (c : Cid) (ps : Params) : CStr :=
  crlf (relayPrefix (s.persons u) ++ str "MODE " ++ (s.channels c).name ++ str " " ++ ps.get 2)

/-- The relayed line of a member's status. -/
def memberModeLine (s : Server) (u : Uid) (ps : Params) : CStr :=
  crlf (snprintf (maxMsg - 2) (relayPrefix (s.persons u) ++ str "MODE " ++ ps.get 1 ++ str " " ++
    ps.get 2 ++ str " " ++ ps.get 3))

/-! ## What the two branches come to -/

/-- The program sets `s₁` up, hands out `msgs`, and does not crash. -/
def SetsUp (ok : Nat → Bool) (s₁ : Server) (msgs : List Event) : Post Server Mutex Event Fault Unit where
  done := fun _ w => w.state = s₁ ∧ w.out = msgs
  exited := fun _ => False
  crashed := fun _ => False
  stuck := Fails ok

/-- What remains to be said after the change. -/
theorem setsUp_of_says {s₁ : Server} {p : Act Unit} {msgs : List Event} (h : SaysAt ok s₁ p msgs) :
    p.Meets ok (SetsUp ok s₁ msgs) ⟨s₁, [], []⟩ :=
  says_then (h []) id ⟨rfl, List.nil_append _⟩

/-- A `strcat` that fits. -/
theorem strcatMode_fits {mode add : CStr} {held : List Mutex} {out : List Event}
    {Q : Post Server Mutex Event Fault CStr} (hfits : (mode ++ add).length ≤ modeRoom)
    (hdone : Q.done (mode ++ add) ⟨s, held, out⟩) :
    (strcatMode mode add).Meets ok Q ⟨s, held, out⟩ := by
  unfold strcatMode
  rw [if_pos hfits]
  exact hdone

/-- Two letters at most, and one more, fit. -/
theorem fits_of_letters {allowed mode : CStr} {x : UInt8} (h : Letters allowed mode)
    (htwo : allowed.length = 2) : (mode ++ [x]).length ≤ modeRoom := by
  have hle := h.length_le
  rw [List.length_append, List.length_singleton]
  unfold modeRoom
  omega

/-- A channel's mode after MODE. -/
def Server.withChanMode (s : Server) (c : Cid) (ps : Params) : Server :=
  s.updChannel c fun ch => { ch with mode := setLetter ch.mode (adds (ps.get 2)) (modeLetter ps) }

/-- A member's status after MODE. -/
def Server.withStatus (s : Server) (t : Uid) (ps : Params) : Server :=
  s.updPerson t (·.updMode (ps.get 1) fun mode => setLetter mode (adds (ps.get 2)) (modeLetter ps))

/-- Only what becomes of this channel counts. -/
theorem updChannel_congr {c : Cid} {f g : Channel → Channel}
    (h : f (s.channels c) = g (s.channels c)) : s.updChannel c f = s.updChannel c g := by
  unfold Server.updChannel
  congr 1
  funext d
  by_cases hd : d = c
  · rw [if_pos hd, if_pos hd, hd, h]
  · rw [if_neg hd, if_neg hd]

/-- A channel mode is relayed to all members. -/
theorem relayMode_says (h : s.userlist.iter = none) {c : Cid} :
    SaysAt ok s (relayMode self user ps c)
      (relays s (s.channels c).name (chanModeLine s user c ps) none s.userlist.items) :=
  fun out => sendtochannel_saysAt h out

/-- The channel keeps its name. -/
theorem withChanMode_name (s : Server) (c : Cid) (ps : Params) :
    ((s.withChanMode c ps).channels c).name = (s.channels c).name := by
  rw [Server.withChanMode, updChannel_self]

/-- The line that is relayed does not mention the mode there is. -/
theorem relayMode_sets {c : Cid} (h : s.userlist.iter = none) :
    (relayMode self user ps c).Meets ok
      (SetsUp ok (s.withChanMode c ps) (relays (s.withChanMode c ps) (s.channels c).name
        (chanModeLine s user c ps) none s.userlist.items)) ⟨s.withChanMode c ps, [], []⟩ := by
  have hidle : (s.withChanMode c ps).userlist.iter = none := h
  have hsays : SaysAt ok (s.withChanMode c ps) (relayMode self user ps c)
      (relays (s.withChanMode c ps) ((s.withChanMode c ps).channels c).name
        (chanModeLine (s.withChanMode c ps) user c ps) none (s.withChanMode c ps).userlist.items) :=
    relayMode_says hidle
  have hline : chanModeLine (s.withChanMode c ps) user c ps = chanModeLine s user c ps := by
    unfold chanModeLine
    rw [withChanMode_name]
    rfl
  rw [withChanMode_name, hline] at hsays
  exact setsUp_of_says hsays

/-- **The channel branch.** -/
theorem setChanMode_sets {c : Cid} (h : s.userlist.iter = none)
    (hclean : Letters chanLetters (s.channels c).mode) (hstr : signedLetter (ps.get 2))
    (hsign : (ps.get 2).head? = some (chr '+') ∨ (ps.get 2).head? = some (chr '-'))
    (hfresh : adds (ps.get 2) = true → hasMode (s.channels c).mode (modeLetter ps) = false) :
    (setChanMode cfg self user ps c).Meets ok
      (SetsUp ok (s.withChanMode c ps) (relays (s.withChanMode c ps) (s.channels c).name
        (chanModeLine s user c ps) none s.userlist.items)) ⟨s, [], []⟩ := by
  unfold setChanMode
  rcases hsign with hplus | hminus
  · have hadd : adds (ps.get 2) = true := decide_eq_true hplus
    have htail : (ps.get 2).tail = [modeLetter ps] := (modeString_add hstr hplus).1
    have hset : setLetter (s.channels c).mode (adds (ps.get 2)) (modeLetter ps)
        = (s.channels c).mode ++ [modeLetter ps] := by
      unfold setLetter
      rw [if_pos hadd, if_neg (by rw [hfresh hadd]; exact Bool.false_ne_true)]
    -- appending is setting the letter, since it was not there
    have hstate : (s.updChannel c fun ch =>
        { ch with mode := (s.channels c).mode ++ [modeLetter ps] }) = s.withChanMode c ps := by
      unfold Server.withChanMode
      refine updChannel_congr ?_
      rw [hset]
    rw [if_pos hplus, look_bind, meets_bind, htail]
    refine strcatMode_fits (fits_of_letters hclean rfl) ?_
    dsimp only
    rw [change_bind]
    dsimp only
    rw [hstate]
    exact relayMode_sets h
  · have hadd := (modeString_del hstr hminus).2
    -- deleting takes the first of equal letters, and no two are equal
    have hstate : (s.updChannel c fun ch => { ch with mode := delMode ch.mode (modeLetter ps) })
        = s.withChanMode c ps := by
      unfold Server.withChanMode
      refine updChannel_congr ?_
      rw [hadd]
      rfl
    rw [if_neg (by rw [hminus]; decide), if_pos hminus, change_bind]
    dsimp only
    rw [hstate]
    exact relayMode_sets h

/-- What it takes to get to the channel branch. -/
theorem setsChannel_some {c : Cid} (h : s.setsChannel u ps = some c) :
    (ps.get 3 = [] ∧ (ps.get 1).head? = some (chr '#') ∧ ps.get 2 ≠ [] ∧
      s.lacksOper u (ps.get 1) = some false ∧ anyOf (ps.get 2) (str "mt") = true ∧
      ((ps.get 2).head? = some (chr '+') ∨ (ps.get 2).head? = some (chr '-'))) ∧
    s.seekChan (ps.get 1) = some c := by
  unfold Server.setsChannel at h
  split at h
  next hc => exact ⟨hc, h⟩
  next => cases h

/-- Where the tests are passed, MODE on a channel is the change. -/
theorem handleMODE_channel {c : Cid} {out : List Event} {Q : Post Server Mutex Event Fault Unit}
    (h : s.setsChannel user ps = some c) :
    (handleMODE cfg self user ps).Meets ok Q ⟨s, [], out⟩ ↔
      (setChanMode cfg self user ps c).Meets ok Q ⟨s, [], out⟩ := by
  obtain ⟨⟨hthree, hhash, htwo, hoper, hany, -⟩, hfound⟩ := setsChannel_some h
  unfold handleMODE
  rw [if_neg (not_not.mpr hthree), if_pos hhash, lookChan_eq List.not_mem_nil, hfound]
  unfold modeChannel
  rw [look_bind, if_neg htwo, lacksOper_bind, hoper, deref_bind, if_neg Bool.false_ne_true, hany]
  exact Iff.rfl

/-- What it takes to get to the member branch. -/
theorem setsMember_some {c : Cid} {t : Uid} (h : s.setsMember u ps = some (c, t)) :
    (ps.get 3 ≠ [] ∧ s.mayStatus u (ps.get 1) = true ∧ anyOf (ps.get 2) (str "ov") = true) ∧
    s.seekChan (ps.get 1) = some c ∧ s.seekUser (ps.get 3) = some t ∧
    (s.persons t).onChan (ps.get 1) = true := by
  unfold Server.setsMember at h
  split at h
  next hc =>
    obtain ⟨c', hfound, hrest⟩ := Option.bind_eq_some_iff.mp h
    obtain ⟨t', htarget, heq⟩ := Option.map_eq_some_iff.mp hrest
    obtain ⟨htarget, hon⟩ := Option.filter_eq_some_iff.mp htarget
    obtain ⟨hc', ht'⟩ := Prod.mk.inj heq
    rw [hc'] at hfound
    rw [ht'] at htarget hon
    exact ⟨hc, hfound, htarget, hon⟩
  next => cases h

/-- So is MODE on a member. -/
theorem handleMODE_member {c : Cid} {t : Uid} {out : List Event}
    {Q : Post Server Mutex Event Fault Unit} (h : s.setsMember user ps = some (c, t)) :
    (handleMODE cfg self user ps).Meets ok Q ⟨s, [], out⟩ ↔
      (setMemberMode self user t ps c).Meets ok Q ⟨s, [], out⟩ := by
  obtain ⟨⟨hthree, hmay, hany⟩, hfound, htarget, hon⟩ := setsMember_some h
  unfold handleMODE
  rw [if_pos hthree, lookChan_eq List.not_mem_nil, hfound]
  unfold modeMemberChan
  unfold Server.mayStatus at hmay
  rw [lockedLook_bind List.not_mem_nil, look_bind, hmay, Bool.not_true, if_neg Bool.false_ne_true,
    lockedLook_bind List.not_mem_nil, htarget]
  unfold modeMemberTarget
  rw [look_bind, hon, Bool.not_true, if_neg Bool.false_ne_true, hany, Bool.not_true,
    if_neg Bool.false_ne_true]

/-! ## A member's status -/

/-- Only what becomes of the first hit counts. -/
theorem updFirst_congr {α : Type} {found : α → Bool} {f g : α → α} {xs : List α} {x : α}
    (hx : xs.find? found = some x) (h : f x = g x) : updFirst found f xs = updFirst found g xs := by
  induction xs with
  | nil => rfl
  | cons y ys ih =>
    unfold updFirst
    by_cases hy : found y = true
    · rw [List.find?_cons_of_pos hy] at hx
      rw [if_pos hy, if_pos hy, Option.some.inj hx, h]
    · rw [List.find?_cons_of_neg hy] at hx
      rw [if_neg hy, if_neg hy, ih hx]

/-- The entry that is found is the one that is changed. -/
theorem find_updFirst {α : Type} {found : α → Bool} {f : α → α} (hf : ∀ x, found (f x) = found x)
    (xs : List α) : (updFirst found f xs).find? found = (xs.find? found).map f := by
  induction xs with
  | nil => rfl
  | cons y ys ih =>
    unfold updFirst
    by_cases hy : found y = true
    · rw [if_pos hy, List.find?_cons_of_pos hy, List.find?_cons_of_pos ((hf y).trans hy)]
      rfl
    · rw [if_neg hy, List.find?_cons_of_neg hy, List.find?_cons_of_neg hy, ih]

theorem updFirst_id {α : Type} (found : α → Bool) (xs : List α) : updFirst found (fun x => x) xs = xs := by
  induction xs with
  | nil => rfl
  | cons y ys ih =>
    unfold updFirst
    by_cases hy : found y = true
    · rw [if_pos hy]
    · rw [if_neg hy, ih]

/-- Only what a change does to the entry that is found matters. -/
theorem updMode_congr {t : Uid} {name : CStr} {m : MyChan} {f g : CStr → CStr}
    (hm : (s.persons t).seekChan name = some m) (h : f m.mode = g m.mode) :
    s.updPerson t (·.updMode name f) = s.updPerson t (·.updMode name g) := by
  refine updPerson_congr ?_
  have hentry : ({ m with mode := f m.mode } : MyChan) = { m with mode := g m.mode } := by rw [h]
  unfold Person.updMode Person.updChans SimList.update
  dsimp only
  rw [updFirst_congr (f := fun m => { m with mode := f m.mode })
    (g := fun m => { m with mode := g m.mode }) hm hentry]

/-- What the status is afterwards, without a change if it is what it was. -/
theorem withStatus_same {t : Uid} {m : MyChan} (hm : (s.persons t).seekChan (ps.get 1) = some m)
    (h : setLetter m.mode (adds (ps.get 2)) (modeLetter ps) = m.mode) : s.withStatus t ps = s := by
  unfold Server.withStatus
  rw [updMode_congr (g := fun mode => mode) hm h]
  refine updPerson_eq_self ?_
  unfold Person.updMode Person.updChans SimList.update
  dsimp only
  rw [updFirst_id]

/-- The member has the letters afterwards. -/
theorem withStatus_seekChan {t : Uid} {m : MyChan} (hm : (s.persons t).seekChan (ps.get 1) = some m) :
    ((s.withStatus t ps).persons t).seekChan (ps.get 1)
      = some { m with mode := setLetter m.mode (adds (ps.get 2)) (modeLetter ps) } := by
  obtain ⟨f, hf⟩ : ∃ f : MyChan → MyChan, f = fun m =>
    { m with mode := setLetter m.mode (adds (ps.get 2)) (modeLetter ps) } := ⟨_, rfl⟩
  unfold Server.withStatus
  rw [updPerson_self]
  show (updFirst (fun m : MyChan => seekMatch m.name (ps.get 1)) _ _).find? _ = _
  rw [← hf, find_updFirst fun m => by rw [hf], hf]
  rw [show (s.persons t).myChans.items.find? (fun m => seekMatch m.name (ps.get 1)) = some m from hm]
  rfl

/-- The end of `setMemberMode`. -/
def relayStatus (self user : Uid) (ps : Params) (c : Cid) : Act Unit := do
  let p ← look (·.persons user)
  sendtochannel self (some c) (crlf (snprintf (maxMsg - 2)
    (relayPrefix p ++ str "MODE " ++ ps.get 1 ++ str " " ++ ps.get 2 ++ str " " ++
      ps.get 3))) none

/-- The line that is relayed does not mention the status there is. -/
theorem relayStatus_sets {c : Cid} {t : Uid} (h : s.userlist.iter = none) :
    (relayStatus self user ps c).Meets ok
      (SetsUp ok (s.withStatus t ps) (relays (s.withStatus t ps) (s.channels c).name
        (memberModeLine s user ps) none s.userlist.items)) ⟨s.withStatus t ps, [], []⟩ := by
  have hsender : relayPrefix ((s.withStatus t ps).persons user) = relayPrefix (s.persons user) := by
    unfold Server.withStatus
    by_cases hu : user = t
    · rw [hu, updPerson_self]
      rfl
    · rw [updPerson_ne _ hu]
  have hidle : (s.withStatus t ps).userlist.iter = none := h
  unfold relayStatus
  rw [look_bind]
  dsimp only
  rw [hsender]
  exact setsUp_of_says (sendtochannel_saysAt hidle)

/-- **The member branch.** -/
theorem setMemberMode_sets {c : Cid} {t : Uid} {m : MyChan} (h : s.userlist.iter = none)
    (hm : (s.persons t).seekChan (ps.get 1) = some m)
    (hroom : adds (ps.get 2) = true → hasMode m.mode (modeLetter ps) = false →
      (m.mode ++ [modeLetter ps]).length ≤ modeRoom)
    (hstr : signedLetter (ps.get 2)) (htwo : ps.get 2 ≠ []) :
    (setMemberMode self user t ps c).Meets ok
      (SetsUp ok (s.withStatus t ps) (relays (s.withStatus t ps) (s.channels c).name
        (memberModeLine s user ps) none s.userlist.items)) ⟨s, [], []⟩ := by
  have hrelay : (relayStatus self user ps c).Meets ok
      (SetsUp ok (s.withStatus t ps) (relays (s.withStatus t ps) (s.channels c).name
        (memberModeLine s user ps) none s.userlist.items)) ⟨s.withStatus t ps, [], []⟩ :=
    relayStatus_sets h
  -- a letter that is there already, or not there, leaves the state
  have hsame : setLetter m.mode (adds (ps.get 2)) (modeLetter ps) = m.mode →
      (relayStatus self user ps c).Meets ok
        (SetsUp ok (s.withStatus t ps) (relays (s.withStatus t ps) (s.channels c).name
          (memberModeLine s user ps) none s.userlist.items)) ⟨s, [], []⟩ := by
    intro hmode
    have hself := withStatus_same hm hmode
    rw [hself] at hrelay ⊢
    exact hrelay
  unfold setMemberMode
  rw [lockedLook_bind List.not_mem_nil]
  dsimp only
  rw [hm, meets_bind]
  unfold changeMember
  have hsign : (ps.get 2).head? = some (chr '+') ∨ (ps.get 2).head? = some (chr '-') := by
    rcases hstr with hnil | ⟨x, hadd | hdel⟩
    · exact absurd hnil htwo
    · exact Or.inl (by rw [hadd]; rfl)
    · exact Or.inr (by rw [hdel]; rfl)
  rcases hsign with hplus | hminus
  · have hadd : adds (ps.get 2) = true := decide_eq_true hplus
    have htail : (ps.get 2).tail = [modeLetter ps] := (modeString_add hstr hplus).1
    rw [if_pos hplus]
    unfold addMemberMode
    rw [deref_bind, meets_onlyIf]
    refine ⟨fun hnew => ?_, fun hhas => ?_⟩
    · have hnew : hasMode m.mode (modeLetter ps) = false := by simpa using hnew
      have hset : setLetter m.mode (adds (ps.get 2)) (modeLetter ps) = m.mode ++ [modeLetter ps] := by
        unfold setLetter
        rw [if_pos hadd, if_neg (by rw [hnew]; exact Bool.false_ne_true)]
      rw [meets_bind, htail]
      refine strcatMode_fits (hroom hadd hnew) ?_
      dsimp only
      rw [meets_change]
      dsimp only
      rw [updMode_congr hm (g := fun mode => setLetter mode (adds (ps.get 2)) (modeLetter ps))
        hset.symm]
      exact hrelay
    · have hhas : hasMode m.mode (modeLetter ps) = true := by simpa using hhas
      refine hsame ?_
      unfold setLetter
      rw [if_pos hadd, if_pos hhas]
  · have hadd := (modeString_del hstr hminus).2
    rw [if_neg (by rw [hminus]; decide), if_pos hminus]
    unfold dropMemberMode
    rw [deref_bind, meets_onlyIf]
    refine ⟨fun _ => ?_, fun hnot => ?_⟩
    · have hstate : s.updPerson t (·.updMode (ps.get 1) (delMode · (modeLetter ps)))
          = s.withStatus t ps := by
        unfold Server.withStatus setLetter
        rw [hadd]
        rfl
      rw [lockedChange List.not_mem_nil]
      dsimp only
      rw [hstate]
      exact hrelay
    · refine hsame ?_
      unfold setLetter
      rw [hadd]
      exact List.erase_of_not_mem (not_hasMode_iff.mp hnot)

/-! ## A MODE that sets neither -/

/-- What a MODE that is not relayed to a channel may leave behind. -/
inductive Unset (s : Server) (u : Uid) : Server → Prop
  | same : Unset s u s
  | dropped {s' : Server} (hexit : s.exitUser u = some s') : Unset s u s'
  | userMode : Unset s u (s.updPerson u fun p => { p with mode := delMode p.mode (chr '@') })

/-- The program ends with the modes of channels and members as they were. -/
def Unsets (ok : Nat → Bool) (s : Server) (u : Uid) : Post Server Mutex Event Fault Unit where
  done := fun _ w => Unset s u w.state
  exited := fun w => Unset s u w.state
  crashed := fun _ => True
  stuck := Fails ok

/-- What is said after a state without new letters. -/
theorem unsets_of_talks {s₁ : Server} {p : Act Unit} {out : List Event} (hunset : Unset s u s₁)
    (h : TalksAt ok s₁ p) : p.Meets ok (Unsets ok s u) ⟨s₁, [], out⟩ :=
  talks_then (h out) id fun _ => hunset

/-- A refusal sets no letter. -/
theorem bareReply_unsets {code : Reply} {reply extra : CStr} {out : List Event} :
    (bareReply cfg self user code reply extra).Meets ok (Unsets ok s user) ⟨s, [], out⟩ :=
  bareReply_meets (fun _ => .same)
    (fun _ hexit _ => ⟨fun _ => .dropped hexit, fun _ => .dropped hexit⟩) fun _ _ => trivial

/-- MODE on a user sets none of a channel. -/
theorem modeUser_unsets {out : List Event} :
    (modeUser cfg self user ps).Meets ok (Unsets ok s user) ⟨s, [], out⟩ := by
  unfold modeUser
  rw [look_bind, meets_ite]
  refine ⟨fun _ => unsets_of_talks .same sendReply_talksAt, fun _ => ?_⟩
  rw [meets_ite]
  refine ⟨fun _ => unsets_of_talks .same sendReply_talksAt, fun _ => ?_⟩
  rw [meets_ite]
  refine ⟨fun _ => ?_, fun _ => unsets_of_talks .same talksAt_done⟩
  rw [onlyIf_bind]
  refine ⟨fun _ => ?_, fun _ => unsets_of_talks .same lockedSend_talks⟩
  rw [dropUserMode_meets]
  exact unsets_of_talks .userMode lockedSend_talks

/-- Where a test fails MODE on a member sets none. -/
theorem modeMember_unsets {out : List Event} (hthree : ps.get 3 ≠ [])
    (hmem : s.setsMember user ps = none) :
    (modeMemberChan cfg self user ps (s.seekChan (ps.get 1))).Meets ok (Unsets ok s user)
      ⟨s, [], out⟩ := by
  cases hfound : s.seekChan (ps.get 1) with
  | none => exact unsets_of_talks .same sendReply_talksAt
  | some c =>
    unfold modeMemberChan
    rw [lockedLook_bind List.not_mem_nil, look_bind, meets_ite]
    refine ⟨fun _ => bareReply_unsets, fun hmay => ?_⟩
    have hmay : s.mayStatus user (ps.get 1) = true := by
      unfold Server.mayStatus
      simpa using hmay
    rw [lockedLook_bind List.not_mem_nil]
    cases htarget : s.seekUser (ps.get 3) with
    | none => exact bareReply_unsets
    | some t =>
      unfold modeMemberTarget
      rw [look_bind, meets_ite]
      refine ⟨fun _ => bareReply_unsets, fun hon => ?_⟩
      rw [meets_ite]
      refine ⟨fun _ => unsets_of_talks .same sendReply_talksAt, fun hany => ?_⟩
      -- this is the branch that is relayed
      have hon : (s.persons t).onChan (ps.get 1) = true := by simpa using hon
      have hany : anyOf (ps.get 2) (str "ov") = true := by simpa using hany
      unfold Server.setsMember at hmem
      rw [if_pos ⟨hthree, hmay, hany⟩, hfound, htarget] at hmem
      simp [hon] at hmem

/-- Nor does MODE on a channel. -/
theorem modeChannel_unsets {out : List Event} (hthree : ps.get 3 = [])
    (hhash : (ps.get 1).head? = some (chr '#')) (hchan : s.setsChannel user ps = none) :
    (modeChannel cfg self user ps (s.seekChan (ps.get 1))).Meets ok (Unsets ok s user)
      ⟨s, [], out⟩ := by
  cases hfound : s.seekChan (ps.get 1) with
  | none => exact unsets_of_talks .same sendReply_talksAt
  | some c =>
    unfold modeChannel
    rw [look_bind, meets_ite]
    refine ⟨fun _ => unsets_of_talks .same sendReply_talksAt, fun htwo => ?_⟩
    rw [lacksOper_bind]
    cases hlacks : s.lacksOper user (ps.get 1) with
    | none =>
      rw [deref_null_bind]
      trivial
    | some denied =>
      rw [deref_bind, meets_ite]
      refine ⟨fun _ => unsets_of_talks .same sendReply_talksAt, fun hallowed => ?_⟩
      rw [meets_ite]
      refine ⟨fun _ => unsets_of_talks .same sendReply_talksAt, fun hany => ?_⟩
      have hdenied : denied = false := by simpa using hallowed
      have hany : anyOf (ps.get 2) (str "mt") = true := by simpa using hany
      rw [hdenied] at hlacks
      have hsign : ¬ ((ps.get 2).head? = some (chr '+') ∨ (ps.get 2).head? = some (chr '-')) := by
        intro hsign
        unfold Server.setsChannel at hchan
        rw [if_pos ⟨hthree, hhash, htwo, hlacks, hany, hsign⟩, hfound] at hchan
        cases hchan
      rw [not_or] at hsign
      unfold setChanMode
      rw [if_neg hsign.1, if_neg hsign.2]
      exact modeUser_unsets

/-- **A MODE that is relayed to no channel.** -/
theorem handleMODE_unsets {out : List Event} (hchan : s.setsChannel user ps = none)
    (hmem : s.setsMember user ps = none) :
    (handleMODE cfg self user ps).Meets ok (Unsets ok s user) ⟨s, [], out⟩ := by
  unfold handleMODE
  rw [meets_ite]
  refine ⟨fun hthree => ?_, fun hthree => ?_⟩
  · rw [lookChan_eq List.not_mem_nil]
    exact modeMember_unsets hthree hmem
  · rw [meets_ite]
    refine ⟨fun hhash => ?_, fun _ => modeUser_unsets⟩
    rw [lookChan_eq List.not_mem_nil]
    exact modeChannel_unsets (by simpa using hthree) hhash hchan

end UchiNetworks.Chirc
