import UchiNetworks.Chirc.NameLists
import UchiNetworks.Chirc.Names

/-!
# chirc: the traces that queries leave

WHOIS, WHO, NAMES, LIST, LUSERS and PING ask and should change nothing. What a
later command sees of a query is what the query has changed, so it is enough to
compare two states, and the answers that the query may get: `transparent_iff_same`.
LUSERS and PING leave no trace, LIST does not if it does not abort; WHOIS leaves an
iteration active, and WHO over everybody stops those that are. NAMES leaves the state
alone, but its answer shows the nicks as what is found in an unwritten buffer has
cut them (`transparent_iff`).
-/

namespace UchiNetworks.Chirc

open UchiNetworks.Lib
open Prog

variable {cfg : Config} {self : Uid} {ok : Nat → Bool} {s s' : Server} {ps : Params}
  {stale : Nat → Nat}

/-- The commands that only ask. -/
def isQuery : Command → Bool
  | .WHOIS | .WHO | .NAMES | .LIST | .LUSERS | .PING => true
  | _ => false

/-- Handle requests one after another: the state at the end, and what has been
handed out for each. -/
def serveAll (cfg : Config) : Server → List Request → Option (Server × List (List Event))
  | s, [] => some (s, [])
  | s, r :: rs =>
    (serve cfg s r).bind fun p => (serveAll cfg p.1 rs).map fun q => (q.1, p.2 :: q.2)

/-- The query leaves no trace, whatever its calls of `send_names` find: the state
stays, any requests that follow end as without it and get the same replies, and asking
twice is answered twice alike. -/
def Transparent (cfg : Config) (s : Server) (query : Input) : Prop :=
  ∀ stale stale', ∃ log, serve cfg s (.working query stale) = some (s, log) ∧
    (∀ rs, serveAll cfg s (.working query stale :: rs) =
      (serveAll cfg s rs).map fun p => (p.1, log :: p.2)) ∧
    serveAll cfg s [.working query stale, .working query stale'] = some (s, [log, log])

theorem serveAll_cons {r : Request} {log : List Event} (h : serve cfg s r = some (s', log))
    (rs : List Request) :
    serveAll cfg s (r :: rs) = (serveAll cfg s' rs).map fun p => (p.1, log :: p.2) := by
  rw [serveAll, h]
  rfl

/-- It all comes down to the state and to one answer. -/
theorem transparent_iff_same {query : Input} :
    Transparent cfg s query ↔
      ∃ log, ∀ stale, serve cfg s (.working query stale) = some (s, log) := by
  refine ⟨fun htrace => ?_, fun hsame => ?_⟩
  · obtain ⟨log, hfirst, -⟩ := htrace (fun _ => 0) (fun _ => 0)
    refine ⟨log, fun stale => ?_⟩
    obtain ⟨log', hserve, hrest, htwice⟩ := htrace (fun _ => 0) stale
    obtain rfl : log = log' := (Prod.mk.inj (Option.some.inj (hfirst.symm.trans hserve))).2
    rw [hrest] at htwice
    obtain ⟨p, hall, hp⟩ := Option.map_eq_some_iff.mp htwice
    obtain ⟨⟨s₁, log₁⟩, hone, hnone⟩ := Option.bind_eq_some_iff.mp hall
    cases hnone
    cases hp
    exact hone
  · obtain ⟨log, hserve⟩ := hsame
    refine fun stale stale' => ⟨log, hserve stale, serveAll_cons (hserve stale), ?_⟩
    rw [serveAll_cons (hserve stale), serveAll_cons (hserve stale')]
    rfl

/-- When the query asked by `u` leaves no trace. -/
def Server.noTrace (cfg : Config) (s : Server) (u : Uid) (ps : Params) : Command → Prop
  | .WHOIS => (s.persons u).registered = true → ∀ v, s.seekNick (ps.get 1) = some v →
      (s.persons v).myChans.iter ≠ none ∧ (s.persons v).toVisit = []
  | .WHO => ps.get 1 = [] ∨ (ps.get 1).head? = some (chr '*') →
      ∀ v ∈ s.userlist.items, v ≠ u → (s.persons v).myChans.iter = none
  | .LIST => ps.get 1 ≠ [] → (s.seekChan (ps.get 1)).isSome
  | .NAMES => (s.persons u).registered = true →
      ∀ c ∈ s.namedChans (ps.get 1), s.nicksUnseen cfg u c = true
  | _ => True

/-- The handler is done, in a state that `P` describes. -/
def Done (P : Server → Prop) : Post Server Mutex Event Fault Unit :=
  ⟨fun _ w => P w.state, fun _ => False, fun _ => False, False⟩

/-- A handler that ends makes the request one that is served. -/
theorem served_of_done {P : Server → Prop} (hs : Sane s) (hin : self ∈ s.userlist.items)
    (h : (dispatch cfg self stale s.fuel self ps (commandOf (ps.get 0))).Meets allOk (Done P)
      s.world) :
    ∃ s' log, serve cfg s (.working (.message self ps) stale) = some (s', log) ∧ P s' := by
  have hmeets : (parse cfg self stale s.fuel ps).Meets allOk (Done P) s.world :=
    (parse_eq (seekFd_self hs hin)).mpr h
  rw [show serve cfg s (.working (.message self ps) stale) = _ from serve_message hin]
  unfold Prog.Meets at hmeets
  cases hrun : (parse cfg self stale s.fuel ps).run allOk s.world with
  | done a w =>
    rw [hrun] at hmeets
    exact ⟨w.state, w.out, congrArg leaves hrun, hmeets⟩
  | exited w => rw [hrun] at hmeets; exact hmeets.elim
  | crashed f w => rw [hrun] at hmeets; exact hmeets.elim
  | stuck w => rw [hrun] at hmeets; exact hmeets.elim

theorem done_of_talksAt {p : Act Unit} (h : TalksAt allOk s p) :
    p.Meets allOk (Done (· = s)) s.world :=
  talks_then (h []) not_fails_allOk fun _ => rfl

/-- Only JOIN and NAMES call `send_names`. -/
theorem dispatch_stale {user : Uid} {fuel : Nat} {c : Command} (hjoin : c ≠ .JOIN)
    (hnames : c ≠ .NAMES) (stale stale' : Nat → Nat) :
    dispatch cfg self stale fuel user ps c = dispatch cfg self stale' fuel user ps c := by
  cases c with
  | JOIN => exact absurd rfl hjoin
  | NAMES => exact absurd rfl hnames
  | NICK | USER | QUIT | PRIVMSG | NOTICE | WHOIS | PING | PONG | LUSERS | MOTD | AWAY | PART
    | TOPIC | MODE | OPER | LIST | WHO | UNKNOWN => rfl

/-- With the state known, so is whether a trace is left. -/
theorem same_iff {P : Server → Prop} (stale : Nat → Nat) (hs : Sane s)
    (hin : self ∈ s.userlist.items)
    (hcall : commandOf (ps.get 0) ≠ .JOIN ∧ commandOf (ps.get 0) ≠ .NAMES)
    (h : (dispatch cfg self stale s.fuel self ps (commandOf (ps.get 0))).Meets allOk (Done P)
      s.world)
    {trace : Prop} (htrace : ∀ s', P s' → (s' = s ↔ trace)) :
    (∃ log, ∀ stale, serve cfg s (.working (.message self ps) stale) = some (s, log)) ↔ trace := by
  obtain ⟨s', log, hserve, hP⟩ := served_of_done hs hin h
  rw [← htrace s' hP]
  refine ⟨fun hsome => ?_, fun heq => ⟨log, fun stale' => ?_⟩⟩
  · obtain ⟨log', hsome⟩ := hsome
    have hboth := hserve.symm.trans (hsome stale)
    exact (Prod.mk.inj (Option.some.inj hboth)).1
  · have hsame : (parse cfg self stale' s.fuel ps) = parse cfg self stale s.fuel ps := by
      unfold parse handleChircMessage
      simp only [dispatch_stale hcall.1 hcall.2 stale' stale]
    rw [heq] at hserve
    rw [← hserve]
    show serve cfg s ⟨_, _, _⟩ = serve cfg s ⟨_, _, _⟩
    rw [serve_message hin, serve_message hin, hsame]

/-! ## The queries that change something -/

/-- An iteration stays the same if it stands there already. -/
theorem atMyChan_eq_iff {v : Uid} {n : Nat} :
    s.atMyChan v (some n) = s ↔ (s.persons v).myChans.iter = some n := by
  refine ⟨fun heq => ?_, fun hiter => ?_⟩
  · have hget : ((s.atMyChan v (some n)).persons v).myChans.iter = some n := by
      unfold Server.atMyChan
      rw [updPerson_self]
      rfl
    rw [heq] at hget
    exact hget
  · refine updPerson_eq_self ?_
    unfold Person.updChans
    rw [← hiter]

/-- WHOIS leaves no trace where its loop does not run, or has run to its end before. -/
theorem whois_trace {s' : Server} (h : WhoisLeaves s self (ps.get 1) s') :
    s' = s ↔ s.noTrace cfg self ps .WHOIS := by
  cases h with
  | inl hsame =>
    refine ⟨fun _ hreg v hfound => ?_, fun _ => hsame.2⟩
    exact absurd ⟨hreg, by rw [hfound]; rfl⟩ hsame.1
  | inr hvisit =>
    obtain ⟨v, k, hreg, hfound, hk, hpos, rfl⟩ := hvisit
    rw [atMyChan_eq_iff]
    refine ⟨fun hiter _ v' hfound' => ?_, fun htrace => ?_⟩
    · rw [hfound] at hfound'
      rw [← Option.some.inj hfound']
      refine ⟨by rw [hiter]; exact Option.some_ne_none _, ?_⟩
      have hzero : k = 0 := by
        have hpos : (s.persons v).iterPos = (s.persons v).iterPos + k := by
          conv => lhs; unfold Person.iterPos; rw [hiter]
          rfl
        omega
      by_cases hnil : (s.persons v).toVisit = []
      · exact hnil
      · exact absurd hzero (Nat.ne_of_gt (hpos hnil))
    · obtain ⟨hactive, hnil⟩ := htrace hreg v hfound
      have hzero : k = 0 := by
        rw [hnil] at hk
        exact Nat.le_zero.mp hk
      rw [hzero, Nat.add_zero]
      unfold Person.iterPos
      cases hiter : (s.persons v).myChans.iter with
      | none => exact absurd hiter hactive
      | some n => rfl

theorem stop_eq_iff {l : SimList MyChan} : l.stop = l ↔ l.iter = none := by
  refine ⟨fun heq => ?_, SimList.stop_of_idle⟩
  rw [← heq]
  rfl

theorem stopOthers_eq_iff : s.stopOthers self = s ↔
    ∀ v ∈ s.userlist.items, v ≠ self → (s.persons v).myChans.iter = none := by
  refine ⟨fun heq v hv hne => ?_, fun hidle => ?_⟩
  · have hget : ((s.stopOthers self).persons v).myChans = (s.persons v).myChans.stop := by
      unfold Server.stopOthers
      dsimp only
      rw [if_pos ⟨hv, hne⟩]
      rfl
    rw [heq] at hget
    exact stop_eq_iff.mp hget.symm
  · unfold Server.stopOthers
    have hsame : (fun v => if v ∈ s.userlist.items ∧ v ≠ self then
        (s.persons v).updChans SimList.stop else s.persons v) = s.persons := by
      funext v
      by_cases hv : v ∈ s.userlist.items ∧ v ≠ self
      · rw [if_pos hv]
        unfold Person.updChans
        rw [stop_eq_iff.mpr (hidle v hv.1 hv.2)]
      · rw [if_neg hv]
    rw [hsame]

/-- WHO leaves none where it stops nobody's iteration. -/
theorem who_trace {s' : Server} (h : s' = s.afterWho self (ps.get 1)) :
    s' = s ↔ s.noTrace cfg self ps .WHO := by
  rw [h]
  unfold Server.afterWho Server.noTrace
  by_cases hall : ps.get 1 = [] ∨ (ps.get 1).head? = some (chr '*')
  · rw [if_pos hall, stopOthers_eq_iff]
    exact ⟨fun hidle _ => hidle, fun hidle => hidle hall⟩
  · rw [if_neg hall]
    exact ⟨fun _ hyes => absurd hyes hall, fun _ => rfl⟩

/-- LIST leaves none where the channel exists. -/
theorem list_trace (hs : Sane s) (hin : self ∈ s.userlist.items)
    (hcmd : commandOf (ps.get 0) = .LIST) :
    (∃ log, ∀ stale, serve cfg s (.working (.message self ps) stale) = some (s, log)) ↔
      s.noTrace cfg self ps .LIST := by
  by_cases hfound : ps.get 1 ≠ [] → (s.seekChan (ps.get 1)).isSome
  · refine same_iff (P := (· = s)) (fun _ => 0) hs hin ⟨?_, ?_⟩ ?_
      fun s' heq => ⟨fun _ => hfound, fun _ => heq⟩
    · rw [hcmd]
      exact Command.noConfusion
    · rw [hcmd]
      exact Command.noConfusion
    · rw [hcmd]
      refine handleLIST_meets hs.idle (fun _ _ => rfl) (fun hname hnone => ?_) not_fails_allOk
      have hsome := hfound hname
      rw [hnone] at hsome
      cases hsome
  · refine ⟨fun hserve => ?_, fun htrace => absurd htrace hfound⟩
    obtain ⟨log, hserve⟩ := hserve
    have hcrash : (dispatch cfg self (fun _ => 0) s.fuel self ps (commandOf (ps.get 0))).Meets allOk
        Crashes s.world := by
      rw [hcmd]
      exact handleLIST_meets hs.idle (fun hyes => absurd hyes hfound) (fun _ _ => rfl)
        not_fails_allOk
    obtain ⟨w, -, -, hend⟩ := leaves_of_dispatch hs (hserve _) hcrash
    exact hend.elim False.elim False.elim

/-! ## NAMES -/

/-- A message that is answered is handled. -/
theorem serve_of_says {msgs : List Event} (hs : Sane s) (hin : self ∈ s.userlist.items)
    (h : SaysAt allOk s (dispatch cfg self stale s.fuel self ps (commandOf (ps.get 0))) msgs) :
    serve cfg s (.working (.message self ps) stale) = some (s, msgs) := by
  have hserved := isSome_of_says hs hin h not_fails_allOk
  obtain ⟨p, hserve⟩ := Option.isSome_iff_exists.mp hserved
  obtain ⟨rfl, rfl⟩ := leaves_of_says hs h hserve
  exact hserve

/-- NAMES leaves none where no nick shows in its replies. -/
theorem names_trace (hs : Sane s) (hwords : ∀ v, (s.persons v).nick.head? ≠ some (chr ' '))
    (hin : self ∈ s.userlist.items) (hcmd : commandOf (ps.get 0) = .NAMES) :
    (∃ log, ∀ stale, serve cfg s (.working (.message self ps) stale) = some (s, log)) ↔
      s.noTrace cfg self ps .NAMES := by
  by_cases hreg : (s.persons self).registered = true
  · have hanswer : ∀ (stale : Nat → Nat) (reply : Cid → Event),
        (∀ left, ∀ c ∈ s.namedChans (ps.get 1), s.namesReply cfg self (stale left) c = reply c) →
        serve cfg s (.working (.message self ps) stale) =
          some (s, s.names cfg self (ps.get 1) reply) := by
      intro stale reply hreply
      refine serve_of_says hs hin ?_
      rw [hcmd]
      exact handleNAMES_saysAt hs.idle hreg hreply
    refine ⟨fun hsame _ c hc => ?_, fun hunseen =>
      ⟨s.names cfg self (ps.get 1) (s.namesReply cfg self 0),
        fun stale => hanswer stale _ fun left c hc => ?_⟩⟩
    · obtain ⟨log, hsame⟩ := hsame
      -- nothing in `reply`, and as many characters as it has room for
      have hnone := (hsame _).symm.trans (hanswer (fun _ => 0) _ fun _ _ _ => rfl)
      have hfull := (hsame _).symm.trans (hanswer (fun _ => maxMsg) _ fun _ _ _ => rfl)
      have hboth := (Prod.mk.inj (Option.some.inj (hnone.symm.trans hfull))).2
      unfold Server.names at hboth
      rw [List.append_left_inj, List.map_inj_left] at hboth
      exact unseen_of_namesReply hreg hwords (hboth c hc)
    · exact namesReply_of_unseen hreg (hunseen hreg c hc) (stale left) 0
  · refine iff_of_true ⟨[s.reply cfg self .errNotregistered [] []], fun stale =>
      serve_of_says hs hin ?_⟩ fun hyes => absurd hyes hreg
    rw [hcmd]
    intro out
    show (handleNAMES cfg self stale s.fuel self ps).Meets allOk _ _
    unfold handleNAMES
    rw [look_bind, if_pos (by simpa using hreg)]
    exact sendReply_saysAt out

/-! ## What comes from the parser -/

/-- The parameters are the fields of a message. -/
def splitRequest (_ : Server) (r : Request) : Prop :=
  match r.input with
  | .message _ ps => MessageShape ps
  | _ => True

/-- A command leaves a nick as it was, or it is the one that the command names. -/
theorem Effect.nick {c : Command} {u : Uid} (h : Sane s) (heff : Effect cfg ok s u ps c s')
    (v : Uid) :
    (s'.persons v).nick = (s.persons v).nick ∨ (s'.persons v).nick = ps.get 1 := by
  have hset : ∀ t : Server, (t.persons v).nick = (s.persons v).nick →
      ((t.withNick u (ps.get 1)).persons v).nick = (s.persons v).nick ∨
        ((t.withNick u (ps.get 1)).persons v).nick = ps.get 1 := by
    intro t ht
    unfold Server.withNick
    by_cases hv : v = u
    · rw [hv, updPerson_self]
      exact Or.inr rfl
    · rw [updPerson_ne _ hv]
      exact Or.inl ht
  by_cases hnick : c = .NICK
  · subst hnick
    cases heff with
    | same => exact Or.inl rfl
    | rename _ _ =>
      have hstop : SameNames s (s.atMyChan u none) := sameNames_updPerson rfl rfl
      exact hset _ (hstop.nick v)
    | firstNick _ _ =>
      rw [countIf_persons]
      exact hset s rfl
    | dropped _ _ hexit => exact Or.inl ((sameNames_exitUser h.idle.users hexit).nick v)
  · by_cases huser : c = .USER
    · subst huser
      cases heff with
      | same => exact Or.inl rfl
      | user _ =>
        rw [countIf_persons]
        unfold Server.withUser
        by_cases hv : v = u
        · rw [hv, updPerson_self]
          exact Or.inl rfl
        · rw [updPerson_ne _ hv]
          exact Or.inl rfl
      | dropped _ _ hexit => exact Or.inl ((sameNames_exitUser h.idle.users hexit).nick v)
    · exact Or.inl ((heff.sameNames h hnick huser).nick v)

/-- No nick begins with a blank. -/
theorem nick_words {rs : List Request} (h : Path (next cfg) splitRequest .init rs s) :
    Sane s ∧ ∀ v, (s.persons v).nick.head? ≠ some (chr ' ') := by
  refine h.invariant (fun s => Sane s ∧ ∀ v, (s.persons v).nick.head? ≠ some (chr ' '))
    ⟨sane_init, fun _ => (Option.some_ne_none _).symm⟩ ?_
  intro s r s' hsplit hnext hinv
  obtain ⟨hs, hwords⟩ := hinv
  have hturn := turn_of_next hs hnext
  refine ⟨hturn.sane hs, fun v => ?_⟩
  cases hturn with
  | connect _ =>
    show (if v = s.nextUid then _ else s.persons v).nick.head? ≠ _
    split
    · exact (Option.some_ne_none _).symm
    · exact hwords v
  | @message self ps _ _ _ _ heff =>
    rcases heff.nick hs v with hsame | hnew
    · rw [hsame]
      exact hwords v
    · have hshape : MessageShape ps := hsplit
      rw [hnew]
      unfold Params.get
      rw [List.getD_eq_getElem?_getD]
      cases hparam : ps[1]? with
      | none => exact (Option.some_ne_none _).symm
      | some name => exact hshape.head_ne space_ne_colon name (List.mem_of_getElem? hparam)
  | hangup _ hexit =>
    rw [(sameNames_exitUser hs.idle.users hexit).nick v]
    exact hwords v

/-- In a reachable state, a client's query whose sends work leaves no trace exactly
when `noTrace` says so. -/
theorem transparent_iff {rs : List Request} (h : Path (next cfg) splitRequest .init rs s)
    (hin : self ∈ s.userlist.items) (hquery : isQuery (commandOf (ps.get 0)) = true) :
    Transparent cfg s (.message self ps) ↔ s.noTrace cfg self ps (commandOf (ps.get 0)) := by
  obtain ⟨hs, hwords⟩ := nick_words h
  rw [transparent_iff_same]
  cases hcmd : commandOf (ps.get 0) with
  | WHOIS =>
    refine same_iff (P := WhoisLeaves s self (ps.get 1)) (fun _ => 0) hs hin
      (by simp [hcmd]) ?_ fun s' => whois_trace
    rw [hcmd]
    exact handleWHOIS_meets (fun s' _ hleaves => hleaves) not_fails_allOk
  | WHO =>
    refine same_iff (P := (· = s.afterWho self (ps.get 1))) (fun _ => 0) hs hin
      (by simp [hcmd]) ?_ fun s' => who_trace
    rw [hcmd]
    exact handleWHO_meets hs.idle (fun _ => rfl) not_fails_allOk
  | LIST => exact list_trace hs hin hcmd
  | NAMES => exact names_trace hs hwords hin hcmd
  | LUSERS =>
    refine same_iff (P := (· = s)) (fun _ => 0) hs hin (by simp [hcmd]) ?_
      fun s' heq => ⟨fun _ => trivial, fun _ => heq⟩
    rw [hcmd]
    exact done_of_talksAt (handleLUSERS_talks hs.idle.users)
  | PING =>
    refine same_iff (P := (· = s)) (fun _ => 0) hs hin (by simp [hcmd]) ?_
      fun s' heq => ⟨fun _ => trivial, fun _ => heq⟩
    rw [hcmd]
    exact done_of_talksAt handlePING_talks
  | NICK | USER | QUIT | PRIVMSG | NOTICE | PONG | MOTD | JOIN | AWAY | PART | TOPIC | MODE
    | OPER | UNKNOWN =>
    rw [hcmd] at hquery
    cases hquery

/-- A client registers and joins a channel. -/
def onOneChannel : List Request := registersOne ++ [.plain (.line 0 ["JOIN", "#c"])]

theorem onOneChannel_split : ∀ r ∈ onOneChannel, ∀ s, splitRequest s r := by
  intro r hr s
  simp only [onOneChannel, registersOne, List.cons_append, List.nil_append, List.mem_cons,
    List.not_mem_nil, or_false] at hr
  obtain rfl | rfl | rfl | rfl := hr
  · trivial
  · show MessageShape _
    decide
  · show MessageShape _
    decide
  · show MessageShape _
    decide

/-- He may ask who is there, and be told his nick or not. -/
theorem transparent_joined : ∃ s, Path (next .plain) splitRequest .init onOneChannel s ∧
    Transparent .plain s (.line 0 ["WHO"]) ∧ ¬ Transparent .plain s (.line 0 ["NAMES", "#c"]) := by
  obtain ⟨s, hpath, hs⟩ := exists_of_follow
    (p := fun s => s.userlist.items = [0] ∧ (s.persons 0).registered = true ∧
      s.namedChans (str "#c") = [0] ∧ s.nicksUnseen .plain 0 0 = false) onOneChannel_split
    (by decide +kernel : (follow (next .plain) .init onOneChannel).any _ = true)
  obtain ⟨hone, hreg, hchan, hseen⟩ := of_decide_eq_true hs
  have hin : 0 ∈ s.userlist.items := by
    rw [hone]
    exact List.mem_singleton_self 0
  refine ⟨s, hpath, (transparent_iff hpath hin (by decide)).mpr ?_, fun htrace => ?_⟩
  · intro _ v hv hne
    rw [hone] at hv
    exact absurd (List.mem_singleton.mp hv) hne
  · have hnone : s.noTrace .plain 0 (["NAMES", "#c"].map str) .NAMES :=
      (transparent_iff hpath hin (by decide)).mp htrace
    have hnamed : 0 ∈ s.namedChans (str "#c") := by
      rw [hchan]
      exact List.mem_singleton_self 0
    rw [hnone hreg 0 hnamed] at hseen
    cases hseen

/-- Asking about oneself leaves an iteration active. -/
theorem whois_leaves_trace : ¬ ∀ (cfg : Config) (rs : List Request) (s : Server) (self : Uid)
    (ps : Params), Path (next cfg) splitRequest .init rs s → self ∈ s.userlist.items →
    isQuery (commandOf (ps.get 0)) = true → Transparent cfg s (.message self ps) := by
  intro hall
  obtain ⟨s, hpath, hbad⟩ := exists_of_follow
    (p := fun s => (0 : Uid) ∈ s.userlist.items ∧ (s.persons 0).myChans.iter = none ∧
      (next .plain s (.plain (.line 0 ["WHOIS", "a"]))).any fun s' =>
        (s'.persons 0).myChans.iter ≠ none) onOneChannel_split
    (by decide +kernel : (follow (next .plain) .init onOneChannel).any _ = true)
  obtain ⟨hin, hidle, hwhois⟩ := of_decide_eq_true hbad
  obtain ⟨log, hserve, -⟩ := hall .plain _ s 0 (["WHOIS", "a"].map str) hpath hin (by decide)
    (fun _ => 0) (fun _ => 0)
  have hnext : next .plain s (.plain (.line 0 ["WHOIS", "a"])) = some s := by
    unfold next
    rw [show serve .plain s (.plain (.line 0 ["WHOIS", "a"])) = some (s, log) from hserve]
    rfl
  rw [hnext, Option.any_some, decide_eq_true_iff] at hwhois
  exact hwhois hidle

end UchiNetworks.Chirc
