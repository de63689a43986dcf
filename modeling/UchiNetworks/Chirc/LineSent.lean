import UchiNetworks.Chirc.Announce
import UchiNetworks.Chirc.LineRoom

/-!
# chirc: the lines that are sent

Every line that a handler sends is built at one of the places of its command
(`Command.lines`), in arrays with room for everything (`dispatch_sends`). Where there
is room for the line in arrays of `MAXMSG` characters it is what they hold
(`dispatch_lines`).
-/

namespace UchiNetworks.Chirc

open UchiNetworks.Lib
open Prog

variable {cfg : Config} {self user u : Uid} {c : Command} {ps : Params} {msg : CStr} {fuel : Nat}
  {stale : Nat → Nat} {junk : Nat}

/-- Which lines the handler of a command builds. Each builds replies from their strings
alone. -/
def Command.lines (c : Command) (ps : Params) : Line → Prop
  | .reply _ _ _ => True
  | .nick _ newnick => c = .NICK ∧ newnick = ps.get 1
  | .quit _ quitmsg | .closing _ quitmsg =>
    c = .QUIT ∧ quitmsg = if ps.get 1 ≠ [] then ps.get 1 else str ":Client Quit"
  | .privmsg _ params => c = .PRIVMSG ∧ params = ps
  | .away _ _ => c = .PRIVMSG
  | .notice _ params => c = .NOTICE ∧ params = ps
  | .pong => c = .PING
  | .join _ cname => c = .JOIN ∧ cname = ps.get 1
  | .part _ params => c = .PART ∧ params = ps
  | .topic _ cname _ => c = .TOPIC ∧ cname = ps.get 1
  | .topicIs _ cname _ => (c = .JOIN ∨ c = .TOPIC) ∧ cname = ps.get 1
  | .names _ _ _ _ => c = .JOIN ∨ c = .NAMES
  | .loners _ _ => c = .NAMES
  | .whoisUser _ _ target | .whoisChans _ target _ | .whoisServer _ _ target
  | .whoisAway _ _ target => c = .WHOIS ∧ target = ps.get 1
  | .list _ _ => c = .LIST
  | .who _ _ _ _ => c = .WHO
  | .memberMode _ params | .userMode params | .chanMode _ _ params | .unknownMode _ params _
  | .notOnChannel _ params => c = .MODE ∧ params = ps
  | .channelMode _ _ => c = .MODE

/-- The message is a line of the command, built where there is room for everything. -/
def Built (cfg : Config) (c : Command) (ps : Params) (msg : CStr) : Prop :=
  ∃ line : Line, c.lines ps line ∧ line.build some cfg = some msg

/-- What is sent is a line of the command. -/
def Sent (cfg : Config) (c : Command) (ps : Params) : Event → Prop
  | .send _ msg => Built cfg c ps msg
  | .close _ => True

/-- `user_exit` closes a descriptor, and sends nothing. -/
theorem userExit_sent : (userExit self user).Emits (Sent cfg c ps) :=
  userExit_emits fun _ => trivial

theorem lockedSend_sent (h : Built cfg c ps msg) :
    (lockedSend self user msg).Emits (Sent cfg c ps) :=
  .acquire_bind (.look_bind fun _ => .output_bind h fun _ =>
    .bind (.onlyIf userExit_sent) fun _ => trivial)

/-- A reply that is built from nothing but its strings. -/
theorem reply_built (code : Reply) (client : Person) (extra : CStr) :
    Built cfg c ps (constrReply cfg code client [] extra) :=
  ⟨.reply code client extra, trivial, rfl⟩

/-- A reply is built from the names of whom it goes to. -/
theorem sendReply_sent {code : Reply} {reply extra : CStr}
    (h : ∀ client, Built cfg c ps (constrReply cfg code client reply extra)) :
    (sendReply cfg self user code reply extra).Emits (Sent cfg c ps) :=
  .look_bind fun _ => lockedSend_sent (h _)

theorem plainReply_sent (code : Reply) (extra : CStr) :
    (sendReply cfg self user code [] extra).Emits (Sent cfg c ps) :=
  sendReply_sent fun client => reply_built code client extra

theorem bareReply_sent {code : Reply} {extra : CStr}
    (h : ∀ client, Built cfg c ps (constrReply cfg code client [] extra)) :
    (bareReply cfg self user code [] extra).Emits (Sent cfg c ps) :=
  .look_bind fun _ => .output_bind (h _) fun _ => .bind (.onlyIf userExit_sent) fun _ => trivial

/-- A line that is relayed is the same for everybody. -/
theorem relayTo_sent (h : Built cfg c ps msg) (cname : CStr) (sender : Option Uid) (v : Uid)
    (b : Unit) : (relayTo self cname msg sender v b).Emits (Sent cfg c ps) := by
  refine .change_bind (.look_bind fun _ => ?_)
  exact .onlyIf (lockedSend_sent h)

theorem sendtochannel_sent (h : Built cfg c ps msg) (found : Option Cid) (sender : Option Uid) :
    (sendtochannel self found msg sender).Emits (Sent cfg c ps) :=
  .deref_bind fun _ => .look_bind fun _ => .acquire_bind (.change_bind (.look_bind fun _ =>
    .bind (.forEach (relayTo_sent h _ _) _ ()) fun _ => trivial))

theorem lookChan_sent (name : CStr) : (lookChan name).Emits (Sent cfg c ps) := fun _ => trivial

theorem relayChan_sent (h : Built cfg c ps msg) (m : MyChan) (b : Unit) :
    (relayChan self user msg m b).Emits (Sent cfg c ps) :=
  .change_bind (.bind (lookChan_sent _) fun _ => sendtochannel_sent h _ _)

theorem sendtoallchans_sent (h : Built cfg c ps msg) :
    (sendtoallchans self user msg).Emits (Sent cfg c ps) :=
  .acquire_bind (.change_bind (.look_bind fun _ =>
    .bind (.forEach (relayChan_sent h) _ ()) fun _ => trivial))

/-! ## Loops that fill an array -/

/-- A loop whose turns append what `turn` appends. -/
theorem returns_fill {α β γ : Type} {go : β → Bool} {turn : γ → β → Option β} {body : α → β → Act β}
    (h : ∀ x b, (body x b).Returns fun b' => ∃ y, turn y b = some b') (xs : List α) (b : β) :
    (forEach go body xs b).Returns fun b' => ∃ ys, fill go turn ys b = some b' := by
  have hkeep : ∀ x b₁, (∃ ys, fill go turn ys b = some b₁) → go b₁ = true →
      (body x b₁).Returns fun b' => ∃ ys, fill go turn ys b = some b' := by
    intro x b₁ hfilled hgo
    obtain ⟨ys, hys⟩ := hfilled
    have hret : (body x b₁ >>= ret).Returns fun b' => ∃ ys, fill go turn ys b = some b' := by
      refine (h x b₁).bind fun b₂ hb₂ => ?_
      obtain ⟨y, hy⟩ := hb₂
      refine ⟨ys ++ [y], ?_⟩
      rw [fill_concat, hys, Option.bind_some, if_pos hgo, hy]
    have hsame : body x b₁ >>= ret = body x b₁ := andThen_ret _
    rw [hsame] at hret
    exact hret
  exact Returns.forEach hkeep xs b ⟨[], rfl⟩

/-- With room for everything a turn of WHOIS is `add`. -/
theorem addChanIn_some (m : MyChan) (acc : WhoisChans) : addChanIn some m acc = some (acc.add m) := by
  unfold addChanIn
  rw [catIf_some]
  show (catIf some (hasMode m.mode modeV) (acc.wichannels ++ _) (str "+") >>= _) = _
  rw [catIf_some]
  rfl

/-- So WHOIS's loop returns what the turns fill in. -/
theorem whoisChans_returns (whois : Uid) (target : CStr) :
    (whoisChans whois target).Returns fun acc => ∃ chans,
      fill (fun acc => acc.buff > 0) (addChanIn some) chans
        ⟨snprintf (maxMsg - 1) (target ++ str " :"), maxMsg - 1, 0⟩ = some acc := by
  have hturn : ∀ m acc, (whoisChan whois m acc).Returns fun acc' =>
      ∃ m, addChanIn some m acc = some acc' := fun m acc => ⟨m, addChanIn_some m acc⟩
  show ∀ s : Server, (forEach (fun acc : WhoisChans => acc.buff > 0) (whoisChan whois)
    (s.persons whois).myChans.remaining _ >>= _ : Act WhoisChans).Returns _
  exact fun s => (returns_fill hturn _ _).bind fun acc hacc => hacc

/-- A turn of `send_names` is `addMember`. -/
theorem addMemberIn_some (names : CStr × Bool) (nick : CStr) (m : MyChan) :
    addMemberIn some junk names nick m = some (addMember junk m nick names) := by
  rw [addMember_eq]
  unfold addMemberIn
  simp only [catIf_some]
  rfl

/-- A turn for a user on no channel is `addLoner`. -/
theorem addLonerIn_some (p : Person) (names : CStr × Bool) :
    addLonerIn some p names = some (addLoner p names) := by
  unfold addLonerIn
  by_cases hloner : p.myChans.items.length = 0
  · rw [if_pos hloner, addLoner_eq hloner, catIf_some]
    rfl
  · rw [if_neg hloner]
    unfold addLoner
    rw [if_neg hloner]

/-! ## Registration and names -/

theorem motdLines_sent (lines : List CStr) :
    (motdLines cfg self user lines).Emits (Sent cfg c ps) := by
  induction lines with
  | nil => trivial
  | cons motd rest ih => exact .bind (plainReply_sent _ _) fun _ => ih

theorem handleMOTD_sent : (handleMOTD cfg self user).Emits (Sent cfg c ps) := by
  refine .look_bind fun _ => .ite (plainReply_sent _ _) ?_
  cases cfg.motd with
  | none => exact plainReply_sent _ _
  | some lines =>
    exact .bind (plainReply_sent _ _) fun _ => .bind (motdLines_sent lines) fun _ =>
      plainReply_sent _ _

/-- LUSERS builds plain replies, and so do MOTD, USER, AWAY and OPER. -/
theorem handleLUSERS_sent : (handleLUSERS cfg self user).Emits (Sent cfg c ps) := by
  have hturn : ∀ v n, (countOp v n).Emits (Sent cfg c ps) := fun _ _ _ => trivial
  refine .acquire_bind (.look_bind fun _ => .look_bind fun _ => .look_bind fun _ => .change_bind
    (.look_bind fun _ => .bind (.forEach hturn _ _) fun _ => .change_bind (.release_bind
      (.look_bind fun _ => .ite (plainReply_sent _ _) ?_))))
  exact .bind (plainReply_sent _ _) fun _ => .bind (plainReply_sent _ _) fun _ =>
    .bind (plainReply_sent _ _) fun _ => .bind (plainReply_sent _ _) fun _ => plainReply_sent _ _

/-- PING builds the PONG. -/
theorem handlePING_sent : (handlePING cfg self user).Emits (Sent cfg .PING ps) :=
  .acquire_bind (.release_bind (.look_bind fun _ => .ite (plainReply_sent _ _)
    (lockedSend_sent ⟨.pong, rfl, rfl⟩)))

theorem doRegistration_sent : (doRegistration cfg self user).Emits (Sent cfg c ps) :=
  .acquire_bind (.change_bind (.release_bind (.bind (plainReply_sent _ _) fun _ =>
    .bind (plainReply_sent _ _) fun _ => .bind (plainReply_sent _ _) fun _ =>
    .bind (plainReply_sent _ _) fun _ => .bind handleLUSERS_sent fun _ => handleMOTD_sent)))

/-- NICK builds one line for the user and for his channels. -/
theorem handleNICK_sent : (handleNICK cfg self user ps).Emits (Sent cfg .NICK ps) := by
  have hset : (setNick user (ps.get 1)).Emits (Sent cfg .NICK ps) := trivial
  refine .acquire_bind (.look_bind fun _ => .release_bind (.ite (plainReply_sent _ _)
    (.look_bind fun s => .ite ?_ ?_)))
  · have hline : Built cfg .NICK ps (crlf (snprintf (maxMsg - 2) (relayPrefix (s.persons user) ++
        str "NICK :" ++ ps.get 1))) := ⟨.nick (s.persons user) (ps.get 1), ⟨rfl, rfl⟩, rfl⟩
    exact .bind (lockedSend_sent hline) fun _ => .bind (sendtoallchans_sent hline) fun _ => hset
  · refine .bind hset fun _ => .look_bind fun _ => ?_
    exact .onlyIf doRegistration_sent

theorem handleUSER_sent : (handleUSER cfg self user ps).Emits (Sent cfg .USER ps) := by
  refine .look_bind fun _ => .ite (plainReply_sent _ _) (.acquire_bind (.change_bind (.release_bind
    (.look_bind fun _ => ?_))))
  exact .onlyIf doRegistration_sent

/-- QUIT builds a line for the channels, and an ERROR for the user. -/
theorem handleQUIT_sent : (handleQUIT self user ps).Emits (Sent cfg .QUIT ps) :=
  .look_bind fun s => .bind (sendtoallchans_sent ⟨.quit (s.persons user) _, ⟨rfl, rfl⟩, rfl⟩)
    fun _ => .acquire_bind (.output_bind ⟨.closing (s.persons user) _, ⟨rfl, rfl⟩, rfl⟩ fun _ =>
      .release_bind userExit_sent)

/-! ## Messages -/

theorem lookRecipient_sent (name : CStr) : (lookRecipient name).Emits (Sent cfg c ps) :=
  fun _ _ => trivial

theorem silenced_sent (chan : Cid) (name : CStr) :
    (silenced user chan name).Emits (Sent cfg c ps) := by
  refine .look_bind fun _ => .look_bind fun _ => .ite ?_ trivial
  exact fun _ => .deref_bind fun _ => trivial

theorem awayReply_sent (recip : Uid) :
    (awayReply cfg self user recip).Emits (Sent cfg .PRIVMSG ps) :=
  .acquire_bind (.look_bind fun s => .release_bind
    (sendReply_sent fun client => ⟨.away client (s.persons recip), rfl, rfl⟩))

/-- PRIVMSG builds its line, and the reply that the recipient is away. -/
theorem handlePRIVMSG_sent : (handlePRIVMSG cfg self user ps).Emits (Sent cfg .PRIVMSG ps) := by
  have hline : ∀ p, Built cfg .PRIVMSG ps (relayLine (maxMsg - 1) p ps) :=
    fun p => ⟨.privmsg p ps, ⟨rfl, rfl⟩, rfl⟩
  refine .look_bind fun _ => .ite (plainReply_sent _ _) (.bind (lookRecipient_sent _) fun r => ?_)
  obtain ⟨recip, chan⟩ := r
  cases recip with
  | some recip =>
    refine .acquire_bind (.look_bind fun s => .release_bind (.bind ?_ fun _ => ?_))
    · exact .acquire_bind (.look_bind fun _ => .output_bind (hline _) fun _ =>
        .bind (.onlyIf userExit_sent) fun _ _ => trivial)
    · exact .onlyIf (awayReply_sent recip)
  | none =>
    cases chan with
    | none => exact plainReply_sent _ _
    | some chan =>
      exact .acquire_bind (.look_bind fun _ => .release_bind (.look_bind fun _ =>
        .ite (plainReply_sent _ _) (.bind (silenced_sent chan _) fun _ =>
          .ite (plainReply_sent _ _) (sendtochannel_sent (hline _) _ _))))

/-- NOTICE builds its line. -/
theorem handleNOTICE_sent : (handleNOTICE cfg self user ps).Emits (Sent cfg .NOTICE ps) := by
  have hline : ∀ p, Built cfg .NOTICE ps (relayLine (maxMsg - 2) p ps) :=
    fun p => ⟨.notice p ps, ⟨rfl, rfl⟩, rfl⟩
  refine .bind (lookRecipient_sent _) fun r => .look_bind fun _ => .ite (plainReply_sent _ _)
    (.bind ?_ fun _ => ?_)
  · cases r.1 with
    | none => trivial
    | some recip => exact lockedSend_sent (hline _)
  · cases r.2 with
    | none => trivial
    | some chan =>
      refine .bind (silenced_sent chan _) fun _ => .ite trivial (.look_bind fun _ => ?_)
      exact .onlyIf (sendtochannel_sent (hline _) _ _)

/-! ## JOIN, PART, TOPIC -/

theorem nameUserIn_some (cname : CStr) (p : Person) (names : CStr × Bool) :
    nameUserIn some junk cname p names =
      some (((p.seekChan cname).map fun m => addMember junk m p.nick names).getD names) := by
  unfold nameUserIn
  cases p.seekChan cname with
  | none => rfl
  | some m => exact addMemberIn_some names p.nick m

/-- `send_names` builds one reply, for JOIN and for NAMES. -/
theorem sendNames_sent (hc : c = .JOIN ∨ c = .NAMES) (chan : Cid) :
    (sendNames cfg self junk user chan).Emits (Sent cfg c ps) := by
  have hquiet : ∀ cname v names, (nameUser junk cname v names).Emits (Sent cfg c ps) :=
    fun _ _ _ _ => trivial
  have hturn : ∀ cname v names, (nameUser junk cname v names).Returns fun names' =>
      ∃ p, nameUserIn some junk cname p names = some names' :=
    fun cname v names s => ⟨s.persons v, nameUserIn_some cname _ names⟩
  refine .acquire_bind (.look_bind fun s => .release_bind (.acquire_bind (.change_bind
    (.look_bind fun _ => .bind_returned (.forEach (hquiet _) _ _) (returns_fill (hturn _) _ _)
      fun names hnames => .change_bind (.release_bind (sendReply_sent fun client => ?_))))))
  obtain ⟨users, hfill⟩ := hnames
  refine ⟨.names client (s.channels chan).name junk users, hc, ?_⟩
  show (fill _ (nameUserIn some junk (s.channels chan).name) users _ >>= _) = _
  rw [hfill]
  rfl

/-- The reply with the topic is built by JOIN and by TOPIC. -/
theorem topicIs_sent (hc : c = .JOIN ∨ c = .TOPIC) (topic : CStr) :
    (sendReply cfg self user .rplTopic
      (snprintf (maxMsg - 1) (ps.get 1 ++ str " " ++ topic)) []).Emits (Sent cfg c ps) :=
  sendReply_sent fun client => ⟨.topicIs client (ps.get 1) topic, ⟨hc, rfl⟩, rfl⟩

/-- JOIN builds its line, the topic and the names. -/
theorem handleJOIN_sent : (handleJOIN cfg self stale user ps).Emits (Sent cfg .JOIN ps) := by
  have hfind : ∀ found, (findOrCreate (ps.get 1) found).Emits (Sent cfg .JOIN ps) := by
    intro found
    cases found with
    | some chan => trivial
    | none => exact fun _ => trivial
  have hreplies : ∀ chan,
      (joinReplies cfg self (stale 0) user chan (ps.get 1)).Emits (Sent cfg .JOIN ps) := by
    refine fun chan => .look_bind fun s => .bind (sendtochannel_sent
      ⟨.join (s.persons user) (ps.get 1), ⟨rfl, rfl⟩, rfl⟩ _ _) fun _ => .look_bind fun s' =>
      .bind ?_ fun _ => .bind (sendNames_sent (.inl rfl) chan) fun _ => plainReply_sent _ _
    exact .onlyIf (topicIs_sent (.inl rfl) _)
  exact .bind (lookChan_sent _) fun found => .bind (hfind found) fun chan => .look_bind fun _ =>
    .ite trivial (hreplies chan)

/-- PART builds its line. -/
theorem handlePART_sent : (handlePART cfg self user ps).Emits (Sent cfg .PART ps) := by
  have hleave : ∀ chan, (leaveChannel chan).Emits (Sent cfg .PART ps) := by
    refine fun chan => .acquire_bind (.change_bind (.release_bind (.look_bind fun _ => ?_)))
    refine .onlyIf (.acquire_bind (.look_bind fun _ => .ite trivial trivial))
  refine .bind (lookChan_sent _) fun found => ?_
  cases found with
  | none => exact plainReply_sent _ _
  | some chan =>
    exact .look_bind fun _ => .ite (plainReply_sent _ _) (.look_bind fun s =>
      .bind (sendtochannel_sent ⟨.part (s.persons user) ps, ⟨rfl, rfl⟩, rfl⟩ _ _) fun _ =>
      .acquire_bind (.change_bind (.release_bind (hleave chan))))

theorem topicOper_sent (cname : CStr) : (topicOper cfg self user cname).Emits (Sent cfg c ps) := by
  refine .acquire_bind (.look_bind fun _ => .deref_bind fun _ => .look_bind fun _ =>
    .bind (.onlyIf ?_) fun _ => trivial)
  refine .output_bind (reply_built _ _ _) fun _ => ?_
  exact .onlyIf userExit_sent

/-- TOPIC builds its line and the reply with the topic. -/
theorem handleTOPIC_sent : (handleTOPIC cfg self user ps).Emits (Sent cfg .TOPIC ps) := by
  have hreply : ∀ found, (topicReply cfg self user (ps.get 1) found).Emits (Sent cfg .TOPIC ps) :=
    fun _ => .deref_bind fun _ => .look_bind fun _ =>
      .ite (plainReply_sent _ _) (topicIs_sent (.inr rfl) _)
  have hmay : ∀ chan, (mayTopic cfg self user chan (ps.get 1)).Emits (Sent cfg .TOPIC ps) :=
    fun _ => .look_bind fun _ => .ite (topicOper_sent _) trivial
  have hset : ∀ chan, (setTopic self user ps chan).Emits (Sent cfg .TOPIC ps) :=
    fun chan => .change_bind (.look_bind fun s => .look_bind fun s' =>
      sendtochannel_sent
        ⟨.topic (s.persons user) (ps.get 1) (s'.channels chan).topic, ⟨rfl, rfl⟩, rfl⟩ _ _)
  exact .bind (lookChan_sent _) fun found => .look_bind fun _ => .ite (plainReply_sent _ _)
    (.ite (hreply found) (.deref_bind fun chan => .bind (hmay chan) fun _ => .ite trivial
      (.bind (hset chan) fun _ => hreply found)))

/-! ## AWAY, OPER, WHOIS, LIST -/

theorem addUserMode_sent (add : CStr) : (addUserMode user add).Emits (Sent cfg c ps) := by
  have hcat : ∀ mode, (strcatMode mode add).Emits (Sent cfg c ps) := fun _ => .ite trivial trivial
  exact .look_bind fun _ => .bind (hcat _) fun _ => trivial

theorem handleAWAY_sent : (handleAWAY cfg self user ps).Emits (Sent cfg .AWAY ps) := by
  refine .look_bind fun _ => .ite (plainReply_sent _ _) (.ite (.bind (.onlyIf trivial) fun _ =>
    plainReply_sent _ _) (.bind (.onlyIf ?_) fun _ => .acquire_bind (.change_bind (.release_bind
      (plainReply_sent _ _)))))
  exact .acquire_bind (.bind (addUserMode_sent _) fun _ => trivial)

theorem handleOPER_sent : (handleOPER cfg self user ps).Emits (Sent cfg .OPER ps) :=
  .ite (plainReply_sent _ _) (.look_bind fun _ =>
    .bind (.onlyIf (addUserMode_sent _)) fun _ => plainReply_sent _ _)

/-- WHOIS builds four replies from arrays of their own. -/
theorem whoisUser_sent (whois : Uid) :
    (whoisUser cfg self user whois (ps.get 1)).Emits (Sent cfg .WHOIS ps) := by
  have hturn : ∀ m acc, (whoisChan whois m acc).Emits (Sent cfg .WHOIS ps) := fun _ _ => trivial
  have hchans : (whoisChans whois (ps.get 1)).Emits (Sent cfg .WHOIS ps) :=
    .acquire_bind (.change_bind (.look_bind fun _ => .bind (.forEach hturn _ _) fun _ => trivial))
  refine .look_bind fun s => .bind (sendReply_sent fun client =>
      ⟨.whoisUser client (s.persons whois) _, ⟨rfl, rfl⟩, rfl⟩) fun _ =>
    .bind_returned hchans (whoisChans_returns whois _) fun acc hacc =>
    .bind (.onlyIf (sendReply_sent fun client => ?_)) fun _ =>
    .look_bind fun s => .bind (sendReply_sent fun client =>
      ⟨.whoisServer client (s.persons whois) _, ⟨rfl, rfl⟩, rfl⟩) fun _ =>
    .look_bind fun s => .bind (.onlyIf (sendReply_sent fun client =>
      ⟨.whoisAway client (s.persons whois) _, ⟨rfl, rfl⟩, rfl⟩)) fun _ =>
    .look_bind fun _ => .bind (.onlyIf (plainReply_sent _ _)) fun _ => plainReply_sent _ _
  obtain ⟨chans, hfill⟩ := hacc
  refine ⟨.whoisChans client (ps.get 1) chans, ⟨rfl, rfl⟩, ?_⟩
  show (fill _ (addChanIn some) chans _ >>= _) = _
  rw [hfill]
  rfl

theorem handleWHOIS_sent : (handleWHOIS cfg self user ps).Emits (Sent cfg .WHOIS ps) := by
  refine .acquire_bind (.look_bind fun s => .release_bind (.look_bind fun _ =>
    .ite (plainReply_sent _ _) ?_))
  cases s.seekNick (ps.get 1) with
  | none => exact plainReply_sent _ _
  | some whois => exact whoisUser_sent whois

theorem scanChans_sent {body : Nat → Cid → Act Unit}
    (h : ∀ left chan, (body left chan).Emits (Sent cfg c ps)) :
    (scanChans body fuel).Emits (Sent cfg c ps) := by
  induction fuel with
  | zero => trivial
  | succ fuel ih =>
    exact .look_bind fun _ => .ite (.look_bind fun _ => .change_bind (.release_bind
      (.deref_bind fun chan => .bind (h _ chan) fun _ => .acquire_bind ih))) trivial

/-- LIST builds a reply for each channel. -/
theorem handleLIST_sent : (handleLIST cfg self fuel user ps).Emits (Sent cfg .LIST ps) := by
  have hlist : ∀ chan, (listChan cfg self user chan).Emits (Sent cfg .LIST ps) :=
    fun chan => .look_bind fun s =>
      sendReply_sent fun client => ⟨.list client (s.channels chan), rfl, rfl⟩
  exact .ite (.bind (lookChan_sent _) fun _ => .deref_bind fun chan => .bind (hlist chan) fun _ =>
    plainReply_sent _ _) (.acquire_bind (.change_bind (.bind (scanChans_sent fun _ => hlist)
      fun _ => .change_bind (.release_bind (plainReply_sent _ _)))))

/-! ## NAMES and WHO -/

/-- NAMES builds one more, for the users on no channel. -/
theorem namesAll_sent : (namesAll cfg self stale fuel user).Emits (Sent cfg .NAMES ps) := by
  have hquiet : ∀ v names, (nameLoner v names).Emits (Sent cfg .NAMES ps) := fun _ _ _ => trivial
  have hturn : ∀ v names, (nameLoner v names).Returns fun names' =>
      ∃ p, addLonerIn some p names = some names' :=
    fun v names s => ⟨s.persons v, addLonerIn_some _ names⟩
  refine .acquire_bind (.change_bind (.bind (scanChans_sent fun _ => sendNames_sent (.inr rfl))
    fun _ => .change_bind (.change_bind (.look_bind fun _ => .bind_returned
      (.forEach hquiet _ _) (returns_fill hturn _ _) fun names hnames =>
        .change_bind (.release_bind (.onlyIf (sendReply_sent fun client => ?_)))))))
  obtain ⟨users, hfill⟩ := hnames
  refine ⟨.loners client users, rfl, ?_⟩
  show (fill _ (addLonerIn some) users _ >>= _) = _
  rw [hfill]
  rfl

theorem handleNAMES_sent :
    (handleNAMES cfg self stale fuel user ps).Emits (Sent cfg .NAMES ps) := by
  have hone : ∀ name, (namesOne cfg self stale user name).Emits (Sent cfg .NAMES ps) := by
    intro name
    refine .bind (lookChan_sent _) fun found => ?_
    cases found with
    | none => trivial
    | some chan => exact sendNames_sent (.inr rfl) chan
  exact .look_bind fun _ => .ite (plainReply_sent _ _) (.bind (.ite namesAll_sent (hone _)) fun _ =>
    bareReply_sent fun client => reply_built _ client _)

theorem whoLoop_sent {turn : Uid → Unit → Act Unit} (h : ∀ v b, (turn v b).Emits (Sent cfg c ps)) :
    (whoLoop turn).Emits (Sent cfg c ps) :=
  .acquire_bind (.change_bind (.look_bind fun _ => .bind (.forEach h _ _) fun _ => trivial))

/-- WHO builds a reply for each user. -/
theorem handleWHO_sent : (handleWHO cfg self user ps).Emits (Sent cfg .WHO ps) := by
  have hline : ∀ client p place flags,
      Built cfg .WHO ps (constrReply cfg .rplWhoreply client [] (whoLine cfg place p flags)) :=
    fun client p place flags => ⟨.who client p place flags, rfl, rfl⟩
  have hshares : ∀ v, (sharesChan user v).Emits (Sent cfg .WHO ps) := by
    refine fun v => .ite (fun _ => trivial) (.change_bind (.look_bind fun _ =>
      .bind (.forEach (fun _ _ => ?_) _ _) fun _ => trivial))
    exact fun _ => trivial
  have hstranger : ∀ v b, (whoStranger cfg self user v b).Emits (Sent cfg .WHO ps) := by
    refine fun v _ => .change_bind (.acquire_bind (.bind (hshares v) fun _ => .look_bind fun _ =>
      .release_bind ?_))
    exact .onlyIf (sendReply_sent fun client => hline client _ _ _)
  have hreply : ∀ v m, (whoReply cfg self user v (ps.get 1) m).Emits (Sent cfg .WHO ps) :=
    fun v m => .look_bind fun _ => .look_bind fun _ => .bind (.onlyIf trivial) fun _ =>
      .output_bind (hline _ _ _ _) fun _ => .bind (.onlyIf userExit_sent) fun _ => .onlyIf trivial
  have hmember : ∀ v b, (whoMember cfg self user (ps.get 1) v b).Emits (Sent cfg .WHO ps) := by
    refine fun v _ => .change_bind (.acquire_bind (.look_bind fun s => .bind ?_ fun _ => trivial))
    cases (s.persons v).seekChan (ps.get 1) with
    | none => trivial
    | some m => exact hreply v m
  exact .ite (.bind (whoLoop_sent hstranger) fun _ => plainReply_sent _ _)
    (.bind (whoLoop_sent hmember) fun _ => plainReply_sent _ _)

/-! ## MODE -/

/-- MODE on a member builds a line for the channel. -/
theorem setMemberMode_sent (target : Uid) (chan : Cid) :
    (setMemberMode self user target ps chan).Emits (Sent cfg .MODE ps) := by
  have hcat : ∀ mode add, (strcatMode mode add).Emits (Sent cfg .MODE ps) :=
    fun _ _ => .ite trivial trivial
  have hadd : ∀ found, (addMemberMode target ps found).Emits (Sent cfg .MODE ps) :=
    fun _ => .deref_bind fun _ => .onlyIf (.bind (hcat _ _) fun _ => trivial)
  have hdrop : ∀ found, (dropMemberMode user target ps found).Emits (Sent cfg .MODE ps) :=
    fun _ => .deref_bind fun _ => .onlyIf trivial
  exact .acquire_bind (.look_bind fun _ => .release_bind (.bind (.ite (hadd _) (.ite (hdrop _) trivial))
    fun _ => .look_bind fun s =>
      sendtochannel_sent ⟨.memberMode (s.persons user) ps, ⟨rfl, rfl⟩, rfl⟩ _ _))

/-- Its refusals name the target and the channel. -/
theorem modeMemberChan_sent (found : Option Cid) :
    (modeMemberChan cfg self user ps found).Emits (Sent cfg .MODE ps) := by
  have hnot : (bareReply cfg self user .errUsernotinchannel []
      (ps.get 3 ++ str " " ++ ps.get 1)).Emits (Sent cfg .MODE ps) :=
    bareReply_sent fun client => ⟨.notOnChannel client ps, ⟨rfl, rfl⟩, rfl⟩
  cases found with
  | none => exact plainReply_sent _ _
  | some chan =>
    refine .acquire_bind (.look_bind fun _ => .release_bind (.look_bind fun _ => .ite
      (bareReply_sent fun client => reply_built _ client _) (.acquire_bind (.look_bind fun s =>
        .release_bind ?_))))
    cases s.seekUser (ps.get 3) with
    | none => exact hnot
    | some target =>
      exact .look_bind fun _ => .ite hnot (.ite
        (sendReply_sent fun client => ⟨.unknownMode client ps (ps.get 1), ⟨rfl, rfl⟩, rfl⟩)
        (setMemberMode_sent target chan))

theorem modeUser_sent : (modeUser cfg self user ps).Emits (Sent cfg .MODE ps) := by
  refine .look_bind fun _ => .ite (plainReply_sent _ _) (.ite (plainReply_sent _ _) (.ite
    (.bind (.onlyIf trivial) fun _ => ?_) trivial))
  exact lockedSend_sent ⟨.userMode ps, ⟨rfl, rfl⟩, rfl⟩

theorem relayMode_sent (chan : Cid) : (relayMode self user ps chan).Emits (Sent cfg .MODE ps) :=
  .look_bind fun s => .look_bind fun s' =>
    sendtochannel_sent ⟨.chanMode (s.persons user) (s'.channels chan).name ps, ⟨rfl, rfl⟩, rfl⟩ _ _

/-- MODE on a channel builds a line for it, or the reply with its mode. -/
theorem modeChannel_sent (found : Option Cid) :
    (modeChannel cfg self user ps found).Emits (Sent cfg .MODE ps) := by
  have hcat : ∀ mode add, (strcatMode mode add).Emits (Sent cfg .MODE ps) :=
    fun _ _ => .ite trivial trivial
  have hlook : ∀ name, (lookMyChan user name).Emits (Sent cfg .MODE ps) := fun _ _ => trivial
  have hlacks : ∀ name, (lacksOper user name).Emits (Sent cfg .MODE ps) := by
    refine fun _ => .look_bind fun _ => .ite trivial (.bind (hlook _) fun _ => .deref_bind fun _ => ?_)
    trivial
  have hset : ∀ chan, (setChanMode cfg self user ps chan).Emits (Sent cfg .MODE ps) := by
    refine fun chan => .ite (.look_bind fun _ => .bind (hcat _ _) fun _ => .change_bind
      (relayMode_sent chan)) (.ite (.change_bind (relayMode_sent chan)) modeUser_sent)
  cases found with
  | none => exact plainReply_sent _ _
  | some chan =>
    exact .look_bind fun s => .ite
      (sendReply_sent fun client => ⟨.channelMode client (s.channels chan), rfl, rfl⟩)
      (.bind (hlacks _) fun _ => .ite (plainReply_sent _ _) (.ite
        (sendReply_sent fun client =>
          ⟨.unknownMode client ps (s.channels chan).name, ⟨rfl, rfl⟩, rfl⟩)
        (hset chan)))

theorem handleMODE_sent : (handleMODE cfg self user ps).Emits (Sent cfg .MODE ps) :=
  .ite (.bind (lookChan_sent _) fun found => modeMemberChan_sent found)
    (.ite (.bind (lookChan_sent _) fun found => modeChannel_sent found) modeUser_sent)

/-- **Every line that a handler sends** is built at one of the places of its command. -/
theorem dispatch_sends (cfg : Config) (self user : Uid) (fuel : Nat) (ps : Params) (c : Command) :
    (dispatch cfg self stale fuel user ps c).Emits (Sent cfg c ps) := by
  cases c with
  | NICK => exact handleNICK_sent
  | USER => exact handleUSER_sent
  | QUIT => exact handleQUIT_sent
  | PRIVMSG => exact handlePRIVMSG_sent
  | NOTICE => exact handleNOTICE_sent
  | WHOIS => exact handleWHOIS_sent
  | PING => exact handlePING_sent
  | PONG => trivial
  | LUSERS => exact handleLUSERS_sent
  | MOTD => exact handleMOTD_sent
  | JOIN => exact handleJOIN_sent
  | AWAY => exact handleAWAY_sent
  | PART => exact handlePART_sent
  | TOPIC => exact handleTOPIC_sent
  | NAMES => exact handleNAMES_sent
  | MODE => exact handleMODE_sent
  | OPER => exact handleOPER_sent
  | LIST => exact handleLIST_sent
  | WHO => exact handleWHO_sent
  | UNKNOWN => exact plainReply_sent _ _

/-! ## The lines that fit -/

/-- What is stored in an array is what it was. -/
theorem printLine_below {n : Nat} {text : CStr} :
    Below (printLine inArray n text) (printLine some n text) :=
  stored_below.bind fun _ => stored_below

/-- So is what `constr_reply` stores in three. -/
theorem constrReplyIn_below {code : Reply} {client : Person} {reply extra : CStr} :
    Below (constrReplyIn inArray cfg code client reply extra)
      (constrReplyIn some cfg code client reply extra) :=
  stored_below.bind fun _ => stored_below.bind fun _ => printLine_below

theorem addChanIn_below (m : MyChan) (acc : WhoisChans) :
    Below (addChanIn inArray m acc) (addChanIn some m acc) :=
  catIf_below.bind fun _ => catIf_below.bind fun _ => stored_below.bind fun _ =>
    stored_below.bind fun _ => .refl _

theorem nameUserIn_below (cname : CStr) (p : Person) (names : CStr × Bool) :
    Below (nameUserIn inArray junk cname p names) (nameUserIn some junk cname p names) := by
  unfold nameUserIn
  cases p.seekChan cname with
  | none => exact .refl _
  | some m =>
    exact catIf_below.bind fun _ => catIf_below.bind fun _ => catIf_below.bind fun _ =>
      stored_below.bind fun _ => .refl _

theorem addLonerIn_below (p : Person) (names : CStr × Bool) :
    Below (addLonerIn inArray p names) (addLonerIn some p names) := by
  unfold addLonerIn
  by_cases hloner : p.myChans.items.length = 0
  · rw [if_pos hloner, if_pos hloner]
    exact catIf_below.bind fun _ => stored_below.bind fun _ => .refl _
  · rw [if_neg hloner, if_neg hloner]
    exact .refl _

/-- **A line that fits** is what it is in arrays with room for everything. -/
theorem build_of_fits (line : Line) : Below (line.build inArray cfg) (line.build some cfg) := by
  cases line with
  | nick | quit | closing | privmsg | notice | pong | join | part | topic | memberMode | userMode =>
    exact printLine_below
  | chanMode => exact stored_below.bind fun _ => stored_below
  | reply => exact constrReplyIn_below
  | unknownMode | away | whoisUser | whoisServer | whoisAway | topicIs | list | who | notOnChannel
  | channelMode => exact stored_below.bind fun _ => constrReplyIn_below
  | whoisChans client target chans =>
    exact stored_below.bind fun _ => (fill_below addChanIn_below chans _).bind fun _ =>
      constrReplyIn_below
  | names client cname junk users =>
    exact stored_below.bind fun _ => (fill_below (nameUserIn_below cname) users _).bind fun _ =>
      constrReplyIn_below
  | loners client users =>
    exact stored_below.bind fun _ => (fill_below addLonerIn_below users _).bind fun _ =>
      constrReplyIn_below

/-- What is sent is a line of the command, and in arrays of `MAXMSG` characters it is
built, too, exactly when there is room for it. -/
def SentInRoom (cfg : Config) (c : Command) (ps : Params) : Event → Prop
  | .send _ msg => ∃ line : Line, c.lines ps line ∧ line.build some cfg = some msg ∧
      (line.room cfg ↔ line.build inArray cfg = some msg ∧ msg.length ≤ maxMsg ∧ [CR, LF] <:+ msg)
  | .close _ => True

/-- A line has room exactly when it is what the arrays hold. -/
theorem Sent.inRoom {e : Event} (h : Sent cfg c ps e) : SentInRoom cfg c ps e := by
  cases e with
  | close _ => trivial
  | send _ msg =>
    obtain ⟨line, hline, hbuilt⟩ := h
    refine ⟨line, hline, hbuilt,
      (line.fits_room cfg).symm.trans ⟨fun hfits => ?_, fun hin => ?_⟩⟩
    · obtain ⟨msg', hin, hend⟩ := hfits
      have hsame : msg' = msg := Option.some.inj ((build_of_fits line msg' hin).symm.trans hbuilt)
      rw [← hsame]
      exact ⟨hin, hend⟩
    · exact ⟨msg, hin⟩

/-- **A line that a handler sends** is what the arrays hold that its command builds it
in, if there is room for it, and has no place in them otherwise. -/
theorem dispatch_lines (cfg : Config) (self user : Uid) (fuel : Nat) (ps : Params) (c : Command) :
    (dispatch cfg self stale fuel user ps c).Emits (SentInRoom cfg c ps) :=
  (dispatch_sends cfg self user fuel ps c).mono fun _ => Sent.inRoom

end UchiNetworks.Chirc
