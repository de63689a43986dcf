import UchiNetworks.Chirc.Talkers

/-!
# chirc: what a command can do to the server

`Effect cfg ok s u ps c s'`: the command `c` of the user `u`, with the parameters
`ps`, handled alone in `s`, may leave `s'` behind. Every invariant of the server
is derived from this list of cases. `NullCause` lists the states in which the
command reads through the null pointer that a lookup returned.

The functions on `Server` before them are the steps that the handlers share:
leaving a channel, leaving the server, entering a channel.
-/

namespace UchiNetworks.Chirc

open UchiNetworks.Lib
open Prog

/-- The server with the iteration over `u`'s channels at `i`. -/
def Server.atMyChan (s : Server) (u : Uid) (i : Option Nat) : Server :=
  s.updPerson u (·.updChans fun l => { l with iter := i })

/-- The channels an iteration over `my_chans` will visit. -/
def Person.toVisit (p : Person) : List MyChan := p.myChans.start.remaining

/-- Where it begins. -/
def Person.iterPos (p : Person) : Nat := p.myChans.iter.getD 0

/-- One user less on a channel, which goes with its last user. -/
def Server.leaveChan (s : Server) (c : Cid) : Server :=
  { s.updChannel c fun ch => { ch with numusers := ch.numusers - 1 } with
    chanlist := if (s.channels c).numusers - 1 = 0 then s.chanlist.delete (· = c) else s.chanlist }

/-- Leave the channels of a list, if all of them are found. -/
def Server.leaveChans : List MyChan → Server → Option Server
  | [], s => some s
  | m :: ms, s => (s.seekChan m.name).bind fun c => leaveChans ms (s.leaveChan c)

/-- The end of `user_exit`: the user's own list and his record are gone. -/
def Server.removeUser (s : Server) (u : Uid) : Server :=
  { s.updPerson u (·.updChans fun l => l.stop.clear) with
    userlist := s.userlist.delete (· = u)
    numregistered := s.numregistered - 1 }

/-- The server after `user_exit`. -/
def Server.exitUser (s : Server) (u : Uid) : Option Server :=
  (Server.leaveChans (s.persons u).toVisit s).map (·.removeUser u)

/-- The server after a user has entered a channel. -/
def Server.enter (s : Server) (u : Uid) (c : Cid) (m : MyChan) : Server :=
  (s.updPerson u (·.updChans (·.append m))).updChannel c fun ch =>
    { ch with numusers := ch.numusers + 1 }

/-- A channel less in a user's own list. -/
def Server.dropMyChan (s : Server) (u : Uid) (name : CStr) : Server :=
  s.updPerson u (·.updChans (·.delete fun m => m.name = name))

def Server.withNick (s : Server) (u : Uid) (nick : CStr) : Server :=
  s.updPerson u fun p => { p with nick := nick }

def Server.withUser (s : Server) (u : Uid) (user fullname : CStr) : Server :=
  s.updPerson u fun p => { p with user := user, fullname := fullname }

def Server.withMode (s : Server) (u : Uid) (mode : CStr) : Server :=
  s.updPerson u fun p => { p with mode := mode }

/-- Count a registration, if there is one. -/
def Server.countIf (s : Server) (b : Bool) : Server :=
  if b then { s with numregistered := s.numregistered + 1 } else s

/-- Everybody else's iteration over his channels is stopped. -/
def Server.stopOthers (s : Server) (u : Uid) : Server :=
  { s with persons := fun v =>
      if v ∈ s.userlist.items ∧ v ≠ u then (s.persons v).updChans SimList.stop else s.persons v }

/-- The user is an operator of the channel, or of the server. -/
def Server.isOper (s : Server) (u : Uid) (name : CStr) : Prop :=
  hasMode (s.persons u).mode modeO ∨
    ∃ m, (s.persons u).seekChan name = some m ∧ hasMode m.mode modeO

/-- What a command may leave behind. -/
inductive Effect (cfg : Config) (ok : Nat → Bool) (s : Server) (u : Uid) (ps : Params) :
    Command → Server → Prop
  | same (c : Command) : Effect cfg ok s u ps c s
  | rename (hfree : s.seekNick (ps.get 1) = none) (hnick : (s.persons u).nick ≠ []) :
      Effect cfg ok s u ps .NICK ((s.atMyChan u none).withNick u (ps.get 1))
  | firstNick (hfree : s.seekNick (ps.get 1) = none) (hnick : (s.persons u).nick = []) :
      Effect cfg ok s u ps .NICK
        ((s.withNick u (ps.get 1)).countIf ((s.persons u).user ≠ []))
  | user (hnew : ¬ ((s.persons u).user ≠ [] ∧ (s.persons u).nick ≠ [])) :
      Effect cfg ok s u ps .USER
        ((s.withUser u (ps.get 1) (ps.get 4).tail).countIf ((s.persons u).nick ≠ []))
  | quit {s' : Server} (hexit : (s.atMyChan u none).exitUser u = some s') :
      Effect cfg ok s u ps .QUIT s'
  | dropped {c : Command} {s' : Server} (hfail : Fails ok)
      (hcmd : c = .NAMES ∧ (s.persons u).registered = true ∨ c = .MODE)
      (hexit : s.exitUser u = some s') : Effect cfg ok s u ps c s'
  | joinOld {c : Cid} (hfound : s.seekChan (ps.get 1) = some c)
      (hnew : (s.persons u).onChan (ps.get 1) = false) :
      Effect cfg ok s u ps .JOIN (s.enter u c ⟨ps.get 1, []⟩)
  | joinNew (hnone : s.seekChan (ps.get 1) = none)
      (hnew : (s.persons u).onChan (ps.get 1) = false) :
      Effect cfg ok s u ps .JOIN ((s.addChannel (ps.get 1)).enter u s.nextCid ⟨ps.get 1, str "o"⟩)
  | joinAgain (hnone : s.seekChan (ps.get 1) = none)
      (hon : (s.persons u).onChan (ps.get 1) = true) :
      Effect cfg ok s u ps .JOIN (s.addChannel (ps.get 1))
  | part {c : Cid} (hfound : s.seekChan (ps.get 1) = some c)
      (hon : (s.persons u).onChan (ps.get 1) = true) :
      Effect cfg ok s u ps .PART ((s.dropMyChan u (ps.get 1)).leaveChan c)
  | topic {c : Cid} (hfound : s.seekChan (ps.get 1) = some c)
      (hon : (s.persons u).onChan (ps.get 1) = true)
      (hmay : hasMode (s.channels c).mode modeT → s.isOper u (ps.get 1)) :
      Effect cfg ok s u ps .TOPIC (s.updChannel c fun ch => { ch with topic := ps.get 2 })
  | back (haway : hasMode (s.persons u).mode modeA) :
      Effect cfg ok s u ps .AWAY (s.withMode u (delMode (s.persons u).mode modeA))
  | away {mode : CStr} (hmode : mode = if hasMode (s.persons u).mode modeA then (s.persons u).mode
        else (s.persons u).mode ++ str "a") :
      Effect cfg ok s u ps .AWAY (s.updPerson u fun p => { p with mode := mode, away := ps.get 1 })
  | oper (hpw : ps.get 2 = cfg.pw) (hnew : hasMode (s.persons u).mode modeO = false) :
      Effect cfg ok s u ps .OPER (s.withMode u ((s.persons u).mode ++ str "o"))
  | whois {v : Uid} {k : Nat} (hreg : (s.persons u).registered = true)
      (hfound : s.seekNick (ps.get 1) = some v) (hk : k ≤ (s.persons v).toVisit.length)
      (hpos : (s.persons v).toVisit ≠ [] → 0 < k) :
      Effect cfg ok s u ps .WHOIS (s.atMyChan v (some ((s.persons v).iterPos + k)))
  | who (hall : ps.get 1 = [] ∨ (ps.get 1).head? = some (chr '*')) :
      Effect cfg ok s u ps .WHO (s.stopOthers u)
  | memberAdd {c : Cid} {t : Uid} {m : MyChan} (hfound : s.seekChan (ps.get 1) = some c)
      (hoper : s.isOper u (ps.get 1)) (hown : ((s.persons u).seekChan (ps.get 1)).isSome)
      (htarget : s.seekUser (ps.get 3) = some t) (hm : (s.persons t).seekChan (ps.get 1) = some m)
      (hset : anyOf (ps.get 2) (str "ov")) (hsign : (ps.get 2).head? = some (chr '+'))
      (hnew : hasMode m.mode (modeLetter ps) = false) :
      Effect cfg ok s u ps .MODE
        (s.updPerson t (·.updMode (ps.get 1) fun _ => m.mode ++ (ps.get 2).tail))
  | memberDel {c : Cid} {t : Uid} {m : MyChan} (hfound : s.seekChan (ps.get 1) = some c)
      (hoper : s.isOper u (ps.get 1)) (hown : ((s.persons u).seekChan (ps.get 1)).isSome)
      (htarget : s.seekUser (ps.get 3) = some t) (hm : (s.persons t).seekChan (ps.get 1) = some m)
      (hset : anyOf (ps.get 2) (str "ov")) (hsign : (ps.get 2).head? = some (chr '-')) :
      Effect cfg ok s u ps .MODE
        (s.updPerson t (·.updMode (ps.get 1) (delMode · (modeLetter ps))))
  | chanAdd {c : Cid} (hfound : s.seekChan (ps.get 1) = some c) (hoper : s.isOper u (ps.get 1))
      (hset : anyOf (ps.get 2) (str "mt")) (hsign : (ps.get 2).head? = some (chr '+')) :
      Effect cfg ok s u ps .MODE
        (s.updChannel c fun ch => { ch with mode := (s.channels c).mode ++ (ps.get 2).tail })
  | chanDel {c : Cid} (hfound : s.seekChan (ps.get 1) = some c) (hoper : s.isOper u (ps.get 1))
      (hset : anyOf (ps.get 2) (str "mt")) (hsign : (ps.get 2).head? = some (chr '-')) :
      Effect cfg ok s u ps .MODE
        (s.updChannel c fun ch => { ch with mode := delMode ch.mode (modeLetter ps) })
  | userMode (hat : hasMode (s.persons u).mode (chr '@')) :
      Effect cfg ok s u ps .MODE
        (s.updPerson u fun p => { p with mode := delMode p.mode (chr '@') })

/-- Some channel of the list is not in `chanlist`. -/
def Server.lost (s : Server) (ms : List MyChan) : Prop := ∃ m ∈ ms, s.seekChan m.name = none

/-- MODE on a member is refused without the user's lock: he is no operator, or the
target is not on the channel. -/
def Server.modeRefused (s : Server) (u : Uid) (ps : Params) : Prop :=
  (¬ (((s.persons u).seekChan (ps.get 1)).isSome ∧ s.isOper u (ps.get 1))) ∨
    ∀ t, s.seekUser (ps.get 3) = some t → (s.persons t).onChan (ps.get 1) = false

/-- Where a command reads through a null pointer. -/
inductive NullCause (s : Server) (u : Uid) (ps : Params) : Command → Prop
  | rename (hfree : s.seekNick (ps.get 1) = none) (hnick : (s.persons u).nick ≠ [])
      (hlost : s.lost (s.persons u).toVisit) : NullCause s u ps .NICK
  | quit (hlost : s.lost (s.persons u).myChans.items) : NullCause s u ps .QUIT
  | notice {c : Cid} (hreg : (s.persons u).registered = true)
      (hfound : s.seekChan (ps.get 1) = some c) (hmod : hasMode (s.channels c).mode modeM)
      (hoper : hasMode (s.persons u).mode modeO = false)
      (hoff : (s.persons u).seekChan (ps.get 1) = none) : NullCause s u ps .NOTICE
  | topic (hon : (s.persons u).onChan (ps.get 1) = true) (hnone : s.seekChan (ps.get 1) = none) :
      NullCause s u ps .TOPIC
  | list (hname : ps.get 1 ≠ []) (hnone : s.seekChan (ps.get 1) = none) : NullCause s u ps .LIST
  | names (hreg : (s.persons u).registered = true) (hlost : s.lost (s.persons u).toVisit) :
      NullCause s u ps .NAMES
  | modeMember {c : Cid} (hthree : ps.get 3 ≠ []) (hfound : s.seekChan (ps.get 1) = some c)
      (hrefused : s.modeRefused u ps) (hlost : s.lost (s.persons u).toVisit) :
      NullCause s u ps .MODE
  | modeChannel {c : Cid} (hthree : ps.get 3 = []) (hhash : (ps.get 1).head? = some (chr '#'))
      (hfound : s.seekChan (ps.get 1) = some c) (hset : ps.get 2 ≠ [])
      (hoper : hasMode (s.persons u).mode modeO = false)
      (hoff : (s.persons u).seekChan (ps.get 1) = none) : NullCause s u ps .MODE

end UchiNetworks.Chirc
