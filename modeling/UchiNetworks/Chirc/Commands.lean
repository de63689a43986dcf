import UchiNetworks.Chirc.Handlers

/-!
# chirc: channels, queries and modes

The rest of `handlers.c`, with `handle_chirc_message`, and what a client's
thread does with a message and at the end of its connection.

Mirroring notes vs the C:
- `send_names` reads its local `reply` before it writes it. What a call finds there
  is left over from earlier calls, and nothing is known of it: `stale n` is the
  `strlen` that a call finds, `n` being how many turns NAMES' loop has left (0 if
  there is no loop). Every message comes with a `stale` of its own.
-/

namespace UchiNetworks.Chirc

open UchiNetworks.Lib
open Prog

section Commands

variable (cfg : Config) (self : Uid)

/-- `send` without taking the user's `c_lock`, which is then given back. -/
def bareReply (user : Uid) (code : Reply) (reply extra : CStr) : Act Unit := do
  let client ← look (·.persons user)
  let ok ← output (.send client.clientSocket (constrReply cfg code client reply extra))
  onlyIf (!ok) (userExit self user)
  release (.cLock user)

/-! ## JOIN, PART, TOPIC -/

/-- `chirc_handle_JOIN` -/
def handleJOIN (stale : Nat → Nat) (user : Uid) (params : Params) : Act Unit :=
  channelJoin cfg self (stale 0) user (params.get 1)

/-- `":%s!%s@%s PART .."` -/
def partLine (p : Person) (params : Params) : CStr :=
  crlf (snprintf (maxMsg - 1) (relayPrefix p ++ str "PART " ++ params.get 1 ++
    if params.get 2 = [] then [] else str " " ++ params.get 2))

/-- PART from a channel that is there. -/
def partChan (user : Uid) (params : Params) (chan : Cid) : Act Unit := do
  let cname := params.get 1
  let member ← look fun s => (s.persons user).onChan cname
  if !member then sendReply cfg self user .errNotonchannel [] cname else
  let p ← look (·.persons user)
  sendtochannel self (some chan) (partLine p params) none
  acquire (.cLock user)
  change (·.updPerson user (·.updChans (·.delete fun m => m.name = cname)))
  release (.cLock user)
  leaveChannel chan

/-- `chirc_handle_PART`, once the channel has been looked up -/
def partFound (user : Uid) (params : Params) : Option Cid → Act Unit
  | none => sendReply cfg self user .errNosuchchannel [] (params.get 1)
  | some chan => partChan cfg self user params chan

/-- `chirc_handle_PART` -/
def handlePART (user : Uid) (params : Params) : Act Unit := do
  let found ← lookChan (params.get 1)
  partFound cfg self user params found

/-- On a channel with mode `t`: is the user an operator? If not, he is told so. -/
def topicOper (user : Uid) (cname : CStr) : Act Bool := do
  acquire (.cLock user)
  let topichan ← look fun s => (s.persons user).seekChan cname
  let mychan ← deref .null topichan
  let client ← look (·.persons user)
  let denied := !hasMode mychan.mode modeO && !hasMode client.mode modeO
  onlyIf denied do
    let ok ← output (.send client.clientSocket
      (constrReply cfg .errChanoprivisneeded client [] cname))
    onlyIf (!ok) (userExit self user)
  release (.cLock user)
  return !denied

/-- May the user set the topic of `chan`? -/
def mayTopic (user : Uid) (chan : Cid) (cname : CStr) : Act Bool := do
  let restricted ← look fun s => hasMode (s.channels chan).mode modeT
  if restricted then topicOper cfg self user cname else pure true

/-- The reply with the topic. -/
def topicReply (user : Uid) (cname : CStr) (found : Option Cid) : Act Unit := do
  let chan ← deref .null found
  let topic ← look fun s => (s.channels chan).topic
  if topic = [] then sendReply cfg self user .rplNotopic [] cname
  else sendReply cfg self user .rplTopic (snprintf (maxMsg - 1) (cname ++ str " " ++ topic)) []

/-- Set the topic, and relay it. -/
def setTopic (user : Uid) (params : Params) (chan : Cid) : Act Unit := do
  change (·.updChannel chan fun c => { c with topic := params.get 2 })
  let p ← look (·.persons user)
  let topic ← look fun s => (s.channels chan).topic
  sendtochannel self (some chan) (crlf (snprintf (maxMsg - 1)
    (relayPrefix p ++ str "TOPIC " ++ params.get 1 ++ str " " ++ topic))) none

/-- `chirc_handle_TOPIC` -/
def handleTOPIC (user : Uid) (params : Params) : Act Unit := do
  let cname := params.get 1
  let found ← lookChan cname
  let member ← look fun s => (s.persons user).onChan cname
  if !member then sendReply cfg self user .errNotonchannel [] cname else
  if params.get 2 = [] then topicReply cfg self user cname found else
  let chan ← deref .null found
  let may ← mayTopic cfg self user chan cname
  if !may then pure () else
  setTopic self user params chan
  topicReply cfg self user cname found

/-! ## AWAY and OPER -/

/-- `strcat(mode, add)` into a `mode[5]` -/
def strcatMode (mode add : CStr) : Act CStr :=
  if (mode ++ add).length ≤ modeRoom then pure (mode ++ add) else crash .bounds

/-- Append to a user's mode. -/
def addUserMode (user : Uid) (add : CStr) : Act Unit := do
  let mode ← look fun s => (s.persons user).mode
  let mode' ← strcatMode mode add
  change (·.updPerson user fun p => { p with mode := mode' })

/-- Delete a letter of a user's mode, under his `c_lock`. -/
def dropUserMode (user : Uid) (c : UInt8) : Act Unit := do
  acquire (.cLock user)
  change (·.updPerson user fun p => { p with mode := delMode p.mode c })
  release (.cLock user)

/-- `chirc_handle_AWAY` -/
def handleAWAY (user : Uid) (params : Params) : Act Unit := do
  let p ← look (·.persons user)
  if !p.registered then sendReply cfg self user .errNotregistered [] [] else
  let away := hasMode p.mode modeA
  if params.get 1 = [] then
    onlyIf away (dropUserMode user modeA)
    sendReply cfg self user .rplUnaway [] []
  else
    onlyIf (!away) do
      acquire (.cLock user)
      addUserMode user (str "a")
      release (.cLock user)
    acquire (.cLock user)
    change (·.updPerson user fun p => { p with away := params.get 1 })
    release (.cLock user)
    sendReply cfg self user .rplNowaway [] []

/-- `chirc_handle_OPER` -/
def handleOPER (user : Uid) (params : Params) : Act Unit := do
  if params.get 2 ≠ cfg.pw then sendReply cfg self user .errPasswdmismatch [] (params.get 0) else
  let mode ← look fun s => (s.persons user).mode
  onlyIf (!hasMode mode modeO) (addUserMode user (str "o"))
  sendReply cfg self user .rplYoureoper [] []

/-! ## WHOIS -/

/-- The line WHOISCHANNELS as far as it has been built: the line itself, the
room last found in its buffer, and the number of channels. -/
structure WhoisChans where
  wichannels : CStr
  buff : Int
  numchans : Nat

def WhoisChans.add (acc : WhoisChans) (m : MyChan) : WhoisChans :=
  let line := acc.wichannels ++ (if hasMode m.mode modeO then str "@" else []) ++
    (if hasMode m.mode modeV then str "+" else [])
  let buff : Int := maxMsg - line.length
  { wichannels := line ++ strncat buff m.name ++ str " "
    buff := buff
    numchans := acc.numchans + 1 }

/-- One turn of the loop over the channels of the user asked about. -/
def whoisChan (whois : Uid) (m : MyChan) (acc : WhoisChans) : Act WhoisChans := do
  change (nextMyChan whois)
  return acc.add m

/-- The channels of the user asked about. The iteration is not stopped. -/
def whoisChans (whois : Uid) (nick : CStr) : Act WhoisChans := do
  acquire (.cLock whois)
  change (startMyChans whois)
  let chans ← look fun s => (s.persons whois).myChans.remaining
  let acc ← forEach (fun acc => acc.buff > 0) (whoisChan whois) chans
    ⟨snprintf (maxMsg - 1) (nick ++ str " :"), maxMsg - 1, 0⟩
  release (.cLock whois)
  return acc

/-- The replies about a user who is there. -/
def whoisUser (user whois : Uid) (nick : CStr) : Act Unit := do
  let p ← look (·.persons whois)
  sendReply cfg self user .rplWhoisuser [] (snprintf (maxMsg - 2)
    (nick ++ str " " ++ p.user ++ str " " ++ p.address ++ str " * :" ++ p.fullname))
  let acc ← whoisChans whois nick
  onlyIf (acc.numchans ≠ 0) (sendReply cfg self user .rplWhoischannels [] acc.wichannels)
  let p ← look (·.persons whois)
  sendReply cfg self user .rplWhoisserver [] (snprintf (maxMsg - 2)
    (nick ++ str " " ++ p.address ++ str " :chirc-0.3"))
  let p ← look (·.persons whois)
  onlyIf (hasMode p.mode modeA)
    (sendReply cfg self user .rplAway [] (snprintf (maxMsg - 2) (nick ++ str " " ++ p.away)))
  let p ← look (·.persons whois)
  onlyIf (hasMode p.mode modeO) (sendReply cfg self user .rplWhoisoperator [] nick)
  sendReply cfg self user .rplEndofwhois [] nick

/-- `chirc_handle_WHOIS`, once the user has been looked up -/
def whoisFound (user : Uid) (nick : CStr) : Option Uid → Act Unit
  | none => sendReply cfg self user .errNosuchnick [] nick
  | some whois => whoisUser cfg self user whois nick

/-- `chirc_handle_WHOIS` -/
def handleWHOIS (user : Uid) (params : Params) : Act Unit := do
  acquire .lock
  let whoispt ← look (·.seekNick (params.get 1))
  release .lock
  let p ← look (·.persons user)
  if !p.registered then sendReply cfg self user .errNotregistered [] []
  else whoisFound cfg self user (params.get 1) whoispt

/-! ## LIST and NAMES -/

def startChans (s : Server) : Server := { s with chanlist := s.chanlist.start }
def nextChan (s : Server) : Server := { s with chanlist := s.chanlist.next }
def stopChans (s : Server) : Server := { s with chanlist := s.chanlist.stop }

/-- The loop over `chanlist`, entered and left with `lock` held; it is given
back while `body` deals with a channel, having been told how many turns are left. -/
def scanChans (body : Nat → Cid → Act Unit) : Nat → Act Unit
  | 0 => crash .fuel
  | fuel + 1 => do
    let more ← look (·.chanlist.hasNext)
    if more then
      let entry ← look (·.chanlist.current)
      change nextChan
      release .lock
      let chan ← deref .null entry
      body fuel chan
      acquire .lock
      scanChans body fuel
    else pure ()

/-- `RPL_LIST` -/
def listEntry (c : Channel) : CStr :=
  if c.topic = [] then c.name ++ str " " ++ fmtI c.numusers ++ str " :"
  else c.name ++ str " " ++ fmtI c.numusers ++ str " " ++ c.topic

def listChan (user : Uid) (chan : Cid) : Act Unit := do
  let c ← look (·.channels chan)
  sendReply cfg self user .rplList [] (listEntry c)

/-- `chirc_handle_LIST` -/
def handleLIST (fuel : Nat) (user : Uid) (params : Params) : Act Unit := do
  if params.get 1 ≠ [] then
    let found ← lookChan (params.get 1)
    let chan ← deref .null found
    listChan cfg self user chan
    sendReply cfg self user .rplListend [] []
  else
    acquire .lock
    change startChans
    scanChans (fun _ => listChan cfg self user) fuel
    change stopChans
    release .lock
    sendReply cfg self user .rplListend [] []

/-- What a user on no channel adds to `antisocial`. -/
def addLoner (p : Person) (names : CStr × Bool) : CStr × Bool :=
  if p.myChans.items.length = 0 then
    let line := names.1 ++ (if names.2 then [] else str " ")
    (line ++ strncat (maxMsg - line.length) p.nick, false)
  else names

/-- One turn of the loop over the users on no channel. -/
def nameLoner (u : Uid) (names : CStr × Bool) : Act (CStr × Bool) := do
  change nextUser
  acquire (.cLock u)
  let someone ← look (·.persons u)
  release (.cLock u)
  return addLoner someone names

/-- NAMES for all channels, and for those on none. -/
def namesAll (stale : Nat → Nat) (fuel : Nat) (user : Uid) : Act Unit := do
  acquire .lock
  change startChans
  scanChans (fun left => sendNames cfg self (stale left) user) fuel
  change stopChans
  change startUsers
  let users ← look (·.userlist.remaining)
  let names ← forEach (fun names => names.1.length + 1 < maxMsg) nameLoner users
    (str "* * :", true)
  change stopUsers
  release .lock
  onlyIf (names.1.length > (str "* * :").length) (sendReply cfg self user .rplNamreply [] names.1)

/-- NAMES for one channel. -/
def namesOne (stale : Nat → Nat) (user : Uid) (name : CStr) : Act Unit := do
  let found ← lookChan name
  (found.map fun chan => sendNames cfg self (stale 0) user chan).getD (pure ())

/-- The replies with the names. -/
def names (stale : Nat → Nat) (fuel : Nat) (user : Uid) (name : CStr) : Act Unit :=
  if name = [] then namesAll cfg self stale fuel user else namesOne cfg self stale user name

/-- `chirc_handle_NAMES`. The last reply is sent without the lock that is then
given back. -/
def handleNAMES (stale : Nat → Nat) (fuel : Nat) (user : Uid) (params : Params) : Act Unit := do
  let p ← look (·.persons user)
  if !p.registered then sendReply cfg self user .errNotregistered [] [] else
  names cfg self stale fuel user (params.get 1)
  bareReply cfg self user .rplEndofnames [] (str "*")

/-! ## WHO -/

def whoFlags (p : Person) : CStr :=
  (if hasMode p.mode modeA then str "G" else str "H") ++
    if hasMode p.mode modeO then str "*" else []

/-- `RPL_WHOREPLY`: `where` is the channel or a star, `flags` come with the
member's status. -/
def whoLine (place : CStr) (p : Person) (flags : CStr) : CStr :=
  snprintf (maxMsg - 2) (place ++ str " " ++ p.user ++ str " " ++ p.address ++ str " " ++
    cfg.servername ++ str " " ++ p.nick ++ str " " ++ flags ++ str " :0 " ++ p.fullname)

/-- One turn of the loop over `whouser`'s channels: is `user` on this one? -/
def sharesOne (user whouser : Uid) (whochan : MyChan) (_ : Bool) : Act Bool := do
  change (nextMyChan whouser)
  acquire (.cLock user)
  let shared ← look fun s => (s.persons user).onChan whochan.name
  release (.cLock user)
  return shared

/-- Is `whouser` to be skipped, for a channel in common with `user`? -/
def sharesChan (user whouser : Uid) : Act Bool :=
  if whouser = user then look fun s => (s.persons user).myChans.items.length ≠ 0
  else do
    change (startMyChans whouser)
    let chans ← look fun s => (s.persons whouser).myChans.remaining
    let skip ← forEach (fun skip => !skip) (sharesOne user whouser) chans false
    change (stopMyChans whouser)
    return skip

/-- One turn of WHO without a channel. -/
def whoStranger (user whouser : Uid) (_ : Unit) : Act Unit := do
  change nextUser
  acquire (.cLock whouser)
  let skip ← sharesChan user whouser
  let p ← look (·.persons whouser)
  release (.cLock whouser)
  onlyIf (!skip)
    (sendReply cfg self user .rplWhoreply [] (whoLine cfg (str "*") p (whoFlags p)))

/-- The reply for a member, sent with both users' locks unless they have one nick. -/
def whoReply (user whouser : Uid) (name : CStr) (whochan : MyChan) : Act Unit := do
  let p ← look (·.persons whouser)
  let client ← look (·.persons user)
  let flags := whoFlags p ++ (if hasMode whochan.mode modeO then str "@" else []) ++
    if hasMode whochan.mode modeV then str "+" else []
  onlyIf (p.nick ≠ client.nick) (acquire (.cLock user))
  let ok ← output (.send client.clientSocket
    (constrReply cfg .rplWhoreply client [] (whoLine cfg name p flags)))
  onlyIf (!ok) (userExit self user)
  onlyIf (p.nick ≠ client.nick) (release (.cLock user))

/-- One turn of WHO for a channel. -/
def whoMember (user : Uid) (name : CStr) (whouser : Uid) (_ : Unit) : Act Unit := do
  change nextUser
  acquire (.cLock whouser)
  let whochan ← look fun s => (s.persons whouser).seekChan name
  (whochan.map fun m => whoReply cfg self user whouser name m).getD (pure ())
  release (.cLock whouser)

/-- WHO's loop over the users. -/
def whoLoop (turn : Uid → Unit → Act Unit) : Act Unit := do
  acquire .lock
  change startUsers
  let users ← look (·.userlist.remaining)
  forEach (fun _ => true) turn users ()
  change stopUsers
  release .lock

/-- `chirc_handle_WHO` -/
def handleWHO (user : Uid) (params : Params) : Act Unit := do
  if params.get 1 = [] ∨ (params.get 1).head? = some (chr '*') then
    whoLoop (whoStranger cfg self user)
    sendReply cfg self user .rplEndofwho [] (str "*")
  else
    whoLoop (whoMember cfg self user (params.get 1))
    sendReply cfg self user .rplEndofwho [] (params.get 1)

/-! ## MODE -/

/-- `params[2][1]` -/
def modeLetter (params : Params) : UInt8 := (params.get 2).getD 1 0

/-- `params[2][1]` as a string -/
def modeLetterStr (params : Params) : CStr := ((params.get 2).drop 1).take 1

/-- Add letters to a member's status. -/
def addMemberMode (target : Uid) (params : Params) (found : Option MyChan) : Act Unit := do
  let userchan ← deref .null found
  onlyIf (!hasMode userchan.mode (modeLetter params)) do
    let mode' ← strcatMode userchan.mode (params.get 2).tail
    change (·.updPerson target (·.updMode (params.get 1) fun _ => mode'))

/-- Delete a letter of a member's status. -/
def dropMemberMode (user target : Uid) (params : Params) (found : Option MyChan) : Act Unit := do
  let userchan ← deref .null found
  onlyIf (hasMode userchan.mode (modeLetter params)) do
    acquire (.cLock user)
    change (·.updPerson target (·.updMode (params.get 1) (delMode · (modeLetter params))))
    release (.cLock user)

/-- What the sign of the mode string asks for. -/
def changeMember (user target : Uid) (params : Params) (found : Option MyChan) : Act Unit :=
  if (params.get 2).head? = some (chr '+') then addMemberMode target params found
  else if (params.get 2).head? = some (chr '-') then dropMemberMode user target params found
  else pure ()

/-- Change a member's status, and relay the change. -/
def setMemberMode (user target : Uid) (params : Params) (chan : Cid) : Act Unit := do
  acquire (.cLock target)
  let found ← look fun s => (s.persons target).seekChan (params.get 1)
  release (.cLock target)
  changeMember user target params found
  let p ← look (·.persons user)
  sendtochannel self (some chan) (crlf (snprintf (maxMsg - 2)
    (relayPrefix p ++ str "MODE " ++ params.get 1 ++ str " " ++ params.get 2 ++ str " " ++
      params.get 3))) none

/-- MODE on a member, once he has been looked up: is he on the channel, and is
the mode string valid? -/
def modeMemberTarget (user : Uid) (params : Params) (chan : Cid) : Option Uid → Act Unit
  | none => bareReply cfg self user .errUsernotinchannel []
      (params.get 3 ++ str " " ++ params.get 1)
  | some target => do
    let on ← look fun s => (s.persons target).onChan (params.get 1)
    if !on then
      bareReply cfg self user .errUsernotinchannel [] (params.get 3 ++ str " " ++ params.get 1)
    else if !anyOf (params.get 2) (str "ov") then
      sendReply cfg self user .errUnknownmode (modeLetterStr params) (params.get 1)
    else setMemberMode self user target params chan

/-- MODE on a member of a channel that is there: is the user an operator? -/
def modeMemberChan (user : Uid) (params : Params) : Option Cid → Act Unit
  | none => sendReply cfg self user .errNosuchchannel [] (params.get 1)
  | some chan => do
    acquire (.cLock user)
    let userchan ← look fun s => (s.persons user).seekChan (params.get 1)
    release (.cLock user)
    let oper ← look fun s => hasMode (s.persons user).mode modeO
    if !(userchan.any fun m => oper || hasMode m.mode modeO) then
      bareReply cfg self user .errChanoprivisneeded [] (params.get 1)
    else
      acquire .lock
      let modeuser ← look (·.seekUser (params.get 3))
      release .lock
      modeMemberTarget cfg self user params chan modeuser

/-- MODE on a user. -/
def modeUser (user : Uid) (params : Params) : Act Unit := do
  let p ← look (·.persons user)
  if params.get 1 ≠ p.nick then sendReply cfg self user .errUsersdontmatch [] []
  else if !anyOf (params.get 2) (str "ao") then
    sendReply cfg self user .errUmodeunknownflag [] []
  else if params.get 2 = str "-o" then do
    onlyIf (hasMode p.mode (chr '@')) (dropUserMode user (chr '@'))
    lockedSend self user (crlf (snprintf (maxMsg - 2)
      (str ":" ++ params.get 1 ++ str " MODE " ++ params.get 1 ++ str " :" ++ params.get 2)))
  else pure ()

/-- Relay a changed channel mode. -/
def relayMode (user : Uid) (params : Params) (chan : Cid) : Act Unit := do
  let p ← look (·.persons user)
  let c ← look (·.channels chan)
  sendtochannel self (some chan)
    (crlf (relayPrefix p ++ str "MODE " ++ c.name ++ str " " ++ params.get 2)) none

/-- Does the user lack operator rights for the channel? -/
def lacksOper (user : Uid) (name : CStr) : Act Bool := do
  let oper ← look fun s => hasMode (s.persons user).mode modeO
  if oper then pure false else
  let mychanpt ← lookMyChan user name
  let mychan ← deref .null mychanpt
  pure (!hasMode mychan.mode modeO)

/-- Change a channel's mode. Anything but `+` and `-` is treated as a user mode. -/
def setChanMode (user : Uid) (params : Params) (chan : Cid) : Act Unit := do
  if (params.get 2).head? = some (chr '+') then
    let mode ← look fun s => (s.channels chan).mode
    let mode' ← strcatMode mode (params.get 2).tail
    change (·.updChannel chan fun c => { c with mode := mode' })
    relayMode self user params chan
  else if (params.get 2).head? = some (chr '-') then
    change (·.updChannel chan fun c => { c with mode := delMode c.mode (modeLetter params) })
    relayMode self user params chan
  else modeUser cfg self user params

/-- MODE on a channel. -/
def modeChannel (user : Uid) (params : Params) : Option Cid → Act Unit
  | none => sendReply cfg self user .errNosuchchannel [] (params.get 1)
  | some chan => do
    let c ← look (·.channels chan)
    if params.get 2 = [] then
      sendReply cfg self user .rplChannelmodeis [] (c.name ++ str " +" ++ c.mode)
    else
      let denied ← lacksOper user (params.get 1)
      if denied then sendReply cfg self user .errChanoprivisneeded [] c.name
      else if !anyOf (params.get 2) (str "mt") then
        sendReply cfg self user .errUnknownmode (modeLetterStr params) c.name
      else setChanMode cfg self user params chan

/-- `chirc_handle_MODE` -/
def handleMODE (user : Uid) (params : Params) : Act Unit := do
  if params.get 3 ≠ [] then
    let found ← lookChan (params.get 1)
    modeMemberChan cfg self user params found
  else if (params.get 1).head? = some (chr '#') then
    let found ← lookChan (params.get 1)
    modeChannel cfg self user params found
  else modeUser cfg self user params

/-! ## Messages and the end of a connection -/

/-- The commands that `handle_chirc_message` knows. -/
inductive Command where
  | NICK | USER | QUIT | PRIVMSG | NOTICE | WHOIS | PING | PONG | LUSERS | MOTD
  | JOIN | AWAY | PART | TOPIC | NAMES | MODE | OPER | LIST | WHO | UNKNOWN
  deriving DecidableEq, Repr

/-- The comparisons of `handle_chirc_message`. -/
def commandOf (command : CStr) : Command :=
  if command = str "NICK" then .NICK
  else if command = str "USER" then .USER
  else if command = str "QUIT" then .QUIT
  else if command = str "PRIVMSG" then .PRIVMSG
  else if command = str "NOTICE" then .NOTICE
  else if command = str "WHOIS" then .WHOIS
  else if command = str "PING" then .PING
  else if command = str "PONG" then .PONG
  else if command = str "LUSERS" then .LUSERS
  else if command = str "MOTD" then .MOTD
  else if command = str "JOIN" then .JOIN
  else if command = str "AWAY" then .AWAY
  else if command = str "PART" then .PART
  else if command = str "TOPIC" then .TOPIC
  else if command = str "NAMES" then .NAMES
  else if command = str "MODE" then .MODE
  else if command = str "OPER" then .OPER
  else if command = str "LIST" then .LIST
  else if command = str "WHO" then .WHO
  else .UNKNOWN

/-- What each command runs. -/
def dispatch (stale : Nat → Nat) (fuel : Nat) (user : Uid) (params : Params) : Command → Act Unit
  | .NICK => handleNICK cfg self user params
  | .USER => handleUSER cfg self user params
  | .QUIT => handleQUIT self user params
  | .PRIVMSG => handlePRIVMSG cfg self user params
  | .NOTICE => handleNOTICE cfg self user params
  | .WHOIS => handleWHOIS cfg self user params
  | .PING => handlePING cfg self user
  | .PONG => pure ()
  | .LUSERS => handleLUSERS cfg self user
  | .MOTD => handleMOTD cfg self user
  | .JOIN => handleJOIN cfg self stale user params
  | .AWAY => handleAWAY cfg self user params
  | .PART => handlePART cfg self user params
  | .TOPIC => handleTOPIC cfg self user params
  | .NAMES => handleNAMES cfg self stale fuel user params
  | .MODE => handleMODE cfg self user params
  | .OPER => handleOPER cfg self user params
  | .LIST => handleLIST cfg self fuel user params
  | .WHO => handleWHO cfg self user params
  | .UNKNOWN => handleUNKNOWN cfg self user params

/-- `handle_chirc_message` -/
def handleChircMessage (stale : Nat → Nat) (fuel : Nat) (user : Uid) (params : Params) : Act Unit :=
  dispatch cfg self stale fuel user params (commandOf (params.get 0))

/-- The record of the connection, by its descriptor. -/
def lookClient : Act (Option Uid) := do
  let fd ← look fun s => (s.persons self).clientSocket
  acquire .lock
  let clientpt ← look (·.seekFd fd)
  release .lock
  return clientpt

/-- `parse`, on a message that has been split into its parameters -/
def parse (stale : Nat → Nat) (fuel : Nat) (params : Params) : Act Unit := do
  let clientpt ← lookClient self
  let user ← deref .null clientpt
  handleChircMessage cfg self stale fuel user params

/-- What `parse_message` does when `recv` fails or returns nothing. -/
def disconnect : Act Unit := do
  let clientpt ← lookClient self
  let user ← deref .null clientpt
  userExit self user

end Commands

/-- `service_single_client` puts a new record into `userlist`. -/
def Server.arrive (s : Server) (fd : Nat) (address : CStr) : Server :=
  { s with
    persons := fun u => if u = s.nextUid then ⟨fd, [], [], [], address, [], [], .init⟩
      else s.persons u
    nextUid := s.nextUid + 1
    userlist := s.userlist.append s.nextUid }

end UchiNetworks.Chirc
