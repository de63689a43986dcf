import Mathlib.Data.List.Forall2
import UchiNetworks.Chirc.Foremost
import UchiNetworks.Chirc.Server

/-!
# chirc: private messages, among any other threads

The thread of a registered client `v` handles PRIVMSGs to a nick that one user `u` has
throughout, while all other threads do what they like. Each handler hands out the
relay of its own message, to the descriptor of `u`, and then at most the reply that
`u` is away, to the descriptor of `v`. So the relays come in the order of the
messages, one for each, and nobody else is sent any of them (`relays_in_order`).
-/

namespace UchiNetworks.Chirc

open UchiNetworks.Lib
open Prog

variable {cfg : Config} {h h' h₀ : Host} {s : Server} {u v : Uid} {n : CStr} {fuel : Nat} {ps : Params}
  {stale : Nat → Nat}

/-- `v` is registered, `u` has the nick `n`, and nobody else has it. -/
structure Conversing (v u : Uid) (n : CStr) (s : Server) : Prop where
  sender : v ∈ s.userlist.items
  registered : (s.persons v).registered = true
  recipient : u ∈ s.userlist.items
  nick : (s.persons u).nick = n
  named : n ≠ []
  only : ∀ w ∈ s.userlist.items, (s.persons w).nick = n → w = u

/-- While they are, `v` only sends PRIVMSGs to `n`, and his outputs work. -/
def Talking (v u : Uid) (n : CStr) (h : Host) (m : Move) : Prop :=
  Conversing v u n h.state ∧
    match m with
    | .message t _ _ ps => t = v → commandOf (ps.get 0) = .PRIVMSG ∧ ps.get 1 = n
    | .hangup t => t ≠ v
    | .act t works => t = v → works = true
    | _ => True

instance (v u : Uid) (n : CStr) (s : Server) : Decidable (Conversing v u n s) :=
  decidable_of_iff (v ∈ s.userlist.items ∧ (s.persons v).registered = true ∧
      u ∈ s.userlist.items ∧ (s.persons u).nick = n ∧ n ≠ [] ∧
      ∀ w ∈ s.userlist.items, (s.persons w).nick = n → w = u)
    ⟨fun ⟨h₁, h₂, h₃, h₄, h₅, h₆⟩ => ⟨h₁, h₂, h₃, h₄, h₅, h₆⟩,
      fun ⟨h₁, h₂, h₃, h₄, h₅, h₆⟩ => ⟨h₁, h₂, h₃, h₄, h₅, h₆⟩⟩

instance (v u : Uid) (n : CStr) (h : Host) : ∀ m, Decidable (Talking v u n h m)
  | .accept _ _ => inferInstanceAs (Decidable (Conversing v u n h.state ∧ True))
  | .enter _ => inferInstanceAs (Decidable (Conversing v u n h.state ∧ True))
  | .message t _ _ ps => inferInstanceAs (Decidable (Conversing v u n h.state ∧
      (t = v → commandOf (ps.get 0) = .PRIVMSG ∧ ps.get 1 = n)))
  | .hangup t => inferInstanceAs (Decidable (Conversing v u n h.state ∧ t ≠ v))
  | .act t works => inferInstanceAs (Decidable (Conversing v u n h.state ∧ (t = v → works = true)))

/-- The messages of `v`. -/
def messagesOf (v : Uid) (moves : List Move) : List Params :=
  moves.filterMap fun
    | .message t _ _ ps => if t = v then some ps else none
    | _ => none

/-- What the handler of the PRIVMSG `ps` hands out: the relay, which names the sender as
`sender` does, and perhaps a reply to the sender. -/
def Told (fdv fdu : Nat) (sender : Person → Prop) (ps : Params) (es : List Event) : Prop :=
  ∃ p, sender p ∧ (es = [.send fdu (relayLine (maxMsg - 1) p ps)] ∨
    ∃ reply, es = [.send fdu (relayLine (maxMsg - 1) p ps), .send fdv reply])

/-- What every state looks like to the thread of `v`. -/
structure Seen (v u : Uid) (n : CStr) (fdv fdu : Nat) (s : Server) : Prop where
  ownFd : (s.persons v).clientSocket = fdv
  found : s.seekFd fdv = some v
  registered : (s.persons v).registered = true
  recipient : s.seekNick n = some u
  recipientFd : (s.persons u).clientSocket = fdu

/-- A registered person with this descriptor. -/
def SenderIs (fdv : Nat) (p : Person) : Prop := p.clientSocket = fdv ∧ p.registered = true

variable {fdv fdu : Nat}

theorem lookClient_tells {T : Option Uid → List Event → Prop} (hT : T (some v) []) :
    (lookClient v).Tells (Seen v u n fdv fdu) T := by
  refine .look_bind fun s hs => .acquire_bind (.look_bind fun s' hs' => .release_bind ?_)
  rw [hs.ownFd, hs'.found]
  exact hT

theorem lookRecipient_tells {T : Option Uid × Option Cid → List Event → Prop}
    (hT : ∀ chan, T (some u, chan) []) : (lookRecipient n).Tells (Seen v u n fdv fdu) T := by
  refine .acquire_bind (.look_bind fun s hs => .look_bind fun s' _ => .release_bind ?_)
  rw [hs.recipient]
  exact hT _

theorem sendToRecip_tells {self : Uid} {msg : CStr} {T : Bool → List Event → Prop}
    (hT : ∀ away, T away [.send fdu msg]) : (sendToRecip self u msg).Tells (Seen v u n fdv fdu) T := by
  refine .acquire_bind (.look_bind fun s hs => .output_bind (.look_bind fun s' _ =>
    .release_bind ?_))
  rw [hs.recipientFd]
  exact hT _

theorem awayReply_tells {T : Unit → List Event → Prop} (hT : ∀ reply, T () [.send fdv reply]) :
    (awayReply cfg v v u).Tells (Seen v u n fdv fdu) T := by
  refine .acquire_bind (.look_bind fun _ _ => .release_bind (.look_bind fun _ _ => .acquire_bind
    (.look_bind fun s hs => .output_bind ?_)))
  rw [hs.ownFd]
  exact hT _

/-- **A PRIVMSG**, whatever the others do meanwhile. -/
theorem privmsg_tells (hps : commandOf (ps.get 0) = .PRIVMSG) (hname : ps.get 1 = n) :
    (parse cfg v stale fuel ps).Tells (Seen v u n fdv fdu)
      fun _ es => Told fdv fdu (SenderIs fdv) ps es := by
  refine .bind (lookClient_tells ?_)
  show (handleChircMessage cfg v stale fuel v ps).Tells _ _
  unfold handleChircMessage
  rw [hps]
  refine .look_bind fun s hs => ?_
  rw [hs.registered, hname]
  refine .bind (lookRecipient_tells fun chan => .acquire_bind (.look_bind fun s hs =>
    .release_bind (.bind (sendToRecip_tells fun away => ?_))))
  have hsender : SenderIs fdv (s.persons v) := ⟨hs.ownFd, hs.registered⟩
  cases away with
  | false => exact ⟨_, hsender, Or.inl rfl⟩
  | true => exact awayReply_tells fun reply => ⟨_, hsender, Or.inr ⟨reply, rfl⟩⟩

/-! ## What the threads find -/

theorem Conversing.seen (hc : Conversing v u n s) (hs : InOrder s) (hfirst : ¬ Behind v s)
    (hfdv : (s.persons v).clientSocket = fdv) (hfdu : (s.persons u).clientSocket = fdu) :
    Seen v u n fdv fdu s where
  ownFd := hfdv
  found := by
    rw [← hfdv]
    exact seek_of_not_behind hs hc.sender hfirst
  registered := hc.registered
  recipient := by
    cases hfound : s.seekNick n with
    | none =>
      have hmiss := List.find?_eq_none.mp hfound u hc.recipient
      simp [seekMatch, hc.nick, hc.named] at hmiss
    | some w =>
      have hnick : n ≠ [] ∧ (s.persons w).nick = n := of_decide_eq_true (List.find?_some hfound :)
      rw [hc.only w (List.mem_of_find?_eq_some hfound) hnick.2]
  recipientFd := hfdu

/-- Nobody's descriptor changes. -/
theorem Founded.clientSocket (hh : Founded h) {w : Uid} (hw : w < h.state.nextUid) {m : Move}
    (hto : h.step cfg m = some h') :
    (h'.state.persons w).clientSocket = (h.state.persons w).clientSocket := by
  cases step_cases hto with
  | accept hnew => rfl
  | @enter _ fd address hfree hat =>
    show ((h.state.arrive fd address).persons w).clientSocket = _
    rw [arrive_old hw]
  | message hthere => rfl
  | hangup hthere => rfl
  | @act t works c hacts =>
    show (c.state.persons w).clientSocket = _
    obtain hsame | ⟨f, hf, hchanged⟩ := hacts.state (hh.renames t)
    · rw [hsame]
    · rw [hchanged, hf.clientSocket]

/-! ## The run -/

/-- One relay after another, for one message after another. -/
def RelayedInTurn (fdv fdu : Nat) (msgs : List Params) (es : List Event) : Prop :=
  ∃ told, es = told.flatten ∧ List.Forall₂ (Told fdv fdu (SenderIs fdv)) msgs told

/-- What `v` has handed out since `h₀` relays his messages so far, as soon as he is idle. -/
structure Relaying (v : Uid) (n : CStr) (u : Uid) (fdv fdu : Nat) (h₀ : Host) (moves : List Move)
    (h : Host) : Prop extends NamedFirst h where
  ownFd : (h.state.persons v).clientSocket = fdv
  recipientFd : (h.state.persons u).clientSocket = fdu
  sofar : ∃ now, h.outputsOf v = h₀.outputsOf v ++ now ∧
    (h.todo v).Tells (Seen v u n fdv fdu) fun _ es => RelayedInTurn fdv fdu (messagesOf v moves) (now ++ es)

theorem messagesOf_concat (moves : List Move) (m : Move) :
    messagesOf v (moves ++ [m]) = messagesOf v moves ++ messagesOf v [m] :=
  List.filterMap_append

/-- A step of anybody. -/
theorem Relaying.step {moves : List Move} (hh : Relaying v n u fdv fdu h₀ moves h) {m : Move}
    (hok : Talking v u n h m) (hto : h.step cfg m = some h') :
    Relaying v n u fdv fdu h₀ (moves ++ [m]) h' := by
  obtain ⟨hc, hm⟩ := hok
  obtain ⟨now, hout, htells⟩ := hh.sofar
  have hv := hh.listed v hc.sender
  have hu := hh.listed u hc.recipient
  refine ⟨hh.toNamedFirst.step hto, (hh.clientSocket hv hto).trans hh.ownFd,
    (hh.clientSocket hu hto).trans hh.recipientFd, ?_⟩
  rw [messagesOf_concat]
  have hnick : (h.state.persons v).nick ≠ [] := (of_decide_eq_true hc.registered).1
  have hseen : Seen v u n fdv fdu h.state :=
    hc.seen hh.order (hh.named v hnick) hh.ownFd hh.recipientFd
  cases step_cases hto with
  | accept hnew => exact ⟨now, hout, by simpa [messagesOf] using htells⟩
  | enter hfree hat => exact ⟨now, hout, by simpa [messagesOf] using htells⟩
  | @message t stale fuel ps hthere =>
    refine ⟨now, hout, ?_⟩
    by_cases ht : t = v
    · obtain ⟨hcommand, hname⟩ := hm ht
      have hidle := begin_idle hto
      rw [ht] at hidle ⊢
      rw [hidle] at htells
      obtain ⟨told, hnow, hall⟩ : RelayedInTurn fdv fdu (messagesOf v moves) (now ++ []) := htells
      show ((h.setTodo v _).todo v).Tells _ _
      rw [Threads.setTodo_self]
      refine (privmsg_tells hcommand hname).mono fun _ es htold => ⟨told ++ [es], ?_, ?_⟩
      · rw [List.append_nil] at hnow
        rw [hnow, List.flatten_append, List.flatten_singleton]
      · have hone : messagesOf v [.message v stale fuel ps] = [ps] := by simp [messagesOf]
        rw [hone]
        exact List.rel_append hall (.cons htold .nil)
    · have hnone : messagesOf v [.message t stale fuel ps] = [] := by simp [messagesOf, ht]
      rw [hnone, List.append_nil]
      show ((h.setTodo t _).todo v).Tells _ _
      rw [Threads.setTodo_ne _ (Ne.symm ht)]
      exact htells
  | @hangup t hthere =>
    refine ⟨now, hout, ?_⟩
    show ((h.setTodo t _).todo v).Tells _ _
    rw [Threads.setTodo_ne _ (Ne.symm hm)]
    simpa [messagesOf] using htells
  | @act t works c hacts =>
    have hnone : messagesOf v [.act t works] = [] := rfl
    rw [hnone, List.append_nil]
    by_cases ht : t = v
    · have hworks := hm ht
      rw [ht, hworks] at hacts
      obtain ⟨es, hnow, hrest⟩ := hacts.tells hseen htells
      refine ⟨now ++ es, ?_, hrest⟩
      show c.outputsOf v = _
      rw [hnow, hout, List.append_assoc]
    · refine ⟨now, ?_, ?_⟩
      · show c.outputsOf v = _
        rw [hacts.outputsOf_ne (Ne.symm ht)]
        exact hout
      · show (c.todo v).Tells _ _
        rw [hacts.todo_ne (Ne.symm ht)]
        exact htells

/-- **Private messages arrive in order, each once, and with nobody else.** Let `v` and `u`
be as in `Conversing` all along, and let all others do anything at any moment. What the
thread of `v` hands out from one moment at which it is idle to another is, for each of
the messages and in their order, its relay to the descriptor of `u`, and after it at most
one reply to `v` himself. -/
theorem relays_in_order {moves₀ moves : List Move}
    (hreach : Path (Host.step cfg) anyMove .init moves₀ h₀) (hidle : h₀.todo v = ret ())
    (hpath : Path (Host.step cfg) (Talking v u n) h₀ moves h) (hdone : h.todo v = ret ()) :
    ∃ told, h.outputsOf v = h₀.outputsOf v ++ told.flatten ∧
      List.Forall₂ (Told (h₀.state.persons v).clientSocket (h₀.state.persons u).clientSocket
        (SenderIs (h₀.state.persons v).clientSocket)) (messagesOf v moves) told := by
  have hstart : NamedFirst h₀ := hreach.invariant NamedFirst namedFirst_init
    fun _ _ _ _ hto hh => hh.step hto
  have hend : Relaying v n u _ _ h₀ moves h := hpath.history (Relaying v n u _ _ h₀)
    ⟨hstart, rfl, rfl, [], (List.append_nil _).symm, by rw [hidle]; exact ⟨[], rfl, .nil⟩⟩
    fun _ _ _ _ _ hok hto hh => hh.step hok hto
  obtain ⟨now, hout, htells⟩ := hend.sofar
  rw [hdone] at htells
  obtain ⟨told, hnow, hall⟩ := htells
  rw [List.append_nil] at hnow
  exact ⟨told, by rw [hout, hnow], hall⟩

/-- Two clients connect and register. -/
def bothRegister : List Move :=
  [.accept 4 [], .enter 0, .line 0 ["NICK", "a"]] ++ acts 0 12 ++
    [.line 0 ["USER", "u", "0", "*", ":A"]] ++ acts 0 76 ++
    [.accept 5 [], .enter 0, .line 1 ["NICK", "b"]] ++ acts 1 12 ++
    [.line 1 ["USER", "v", "0", "*", ":B"]] ++ acts 1 80

/-- One of them sends two messages while the other joins a channel. -/
def twoMessages : List Move :=
  [.line 0 ["PRIVMSG", "b", ":x"], .line 1 ["JOIN", "#c"]] ++ acts 0 5 ++ acts 1 4 ++ acts 0 12 ++
    [.line 0 ["PRIVMSG", "b", ":y"]] ++ acts 1 7 ++ acts 0 17

theorem relays_in_order_both : ∃ (h₀ h : Host) (told : List (List Event)), told ≠ [] ∧
    h.outputsOf 0 = h₀.outputsOf 0 ++ told.flatten ∧
    List.Forall₂ (Told (h₀.state.persons 0).clientSocket (h₀.state.persons 1).clientSocket
      (SenderIs (h₀.state.persons 0).clientSocket)) (messagesOf 0 twoMessages) told := by
  have hruns : (follow (Host.step .plain) .init bothRegister).any (fun h₀ =>
      returned (h₀.todo 0) ∧ (follow (guarded (Host.step .plain) (Talking 0 1 (str "b"))) h₀
        twoMessages).any (fun h => returned (h.todo 0)) = true) = true := by decide +kernel
  have hreached : ∃ h₀, Path (Host.step .plain) anyMove .init bothRegister h₀ ∧ _ :=
    exists_of_follow (fun _ _ _ => trivial) hruns
  obtain ⟨h₀, hreach, hstart⟩ := hreached
  obtain ⟨hidle, hrest⟩ := of_decide_eq_true hstart
  have htalked : ∃ h, Path (guarded (Host.step .plain) (Talking 0 1 (str "b"))) anyMove h₀
      twoMessages h ∧ _ := exists_of_follow (fun _ _ _ => trivial) hrest
  obtain ⟨h, hpath, hdone⟩ := htalked
  obtain ⟨told, hout, hall⟩ := relays_in_order hreach (eq_ret_of_returned hidle) hpath.of_guarded
    (eq_ret_of_returned hdone)
  refine ⟨h₀, h, told, ?_, hout, hall⟩
  intro hnone
  rw [hnone] at hall
  cases hall

end UchiNetworks.Chirc
