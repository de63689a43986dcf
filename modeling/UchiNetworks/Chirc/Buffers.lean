import UchiNetworks.Lib.Fill
import UchiNetworks.Chirc.Commands

/-!
# chirc: the lines in their buffers

The lines of the handlers once more, this time with the arrays of `MAXMSG` characters
that they are put together in. `Line` lists the places that build one, each with what
it reads; `Line.build` does what the source does there, and has no result where an
array is overrun on the way. The arrays are a parameter (`store`): with arrays that
have room for everything, it builds the lines of the handlers.

`snprintf` with `MAXMSG - 2` leaves room for CRLF and NUL, with `MAXMSG - 1` it leaves
one character too few. `replmsg` and the arrays that `sprintf`, `strcat` and `strncat`
fill have room for what is not too long: `Line.room` says how long each of the strings
of a line may be.
-/

namespace UchiNetworks.Chirc

open UchiNetworks.Lib

/-- The places that build a line, with the strings that they read. `client` is who a
reply is for, `p` whose line is relayed. -/
inductive Line where
  -- built in `reply`, `priv_msg`, `notice` or `PONGback`
  | nick (p : Person) (newnick : CStr)
  | quit (p : Person) (quitmsg : CStr)
  | closing (p : Person) (quitmsg : CStr)
  | privmsg (p : Person) (params : Params)
  | notice (p : Person) (params : Params)
  | pong
  | join (p : Person) (cname : CStr)
  | part (p : Person) (params : Params)
  | topic (p : Person) (cname topic : CStr)
  | memberMode (p : Person) (params : Params)
  | userMode (params : Params)
  | chanMode (p : Person) (cname : CStr) (params : Params)
  -- built by `constr_reply`
  | reply (code : Reply) (client : Person) (extra : CStr)
  -- built by `constr_reply` from a string that is in an array itself
  | unknownMode (client : Person) (params : Params) (cname : CStr)
  | away (client recip : Person)
  | whoisUser (client whois : Person) (target : CStr)
  | whoisChans (client : Person) (target : CStr) (chans : List MyChan)
  | whoisServer (client whois : Person) (target : CStr)
  | whoisAway (client whois : Person) (target : CStr)
  | topicIs (client : Person) (cname topic : CStr)
  | list (client : Person) (c : Channel)
  | names (client : Person) (cname : CStr) (junk : Nat) (users : List Person)
  | loners (client : Person) (users : List Person)
  | who (client whouser : Person) (place flags : CStr)
  | notOnChannel (client : Person) (params : Params)
  | channelMode (client : Person) (c : Channel)

/-! ## Building a line -/

section Build

variable (store : CStr → Option CStr) (cfg : Config)

/-- `snprintf(reply, n, ..)` and `strcat(reply, "\r\n")` -/
def printLine (n : Nat) (text : CStr) : Option CStr := do
  let reply ← store (snprintf n text)
  store (crlf reply)

/-- `constr_reply`, with `prefix`, `replmsg` and `reply` -/
def constrReplyIn (code : Reply) (client : Person) (reply extra : CStr) : Option CStr := do
  let before ← store (str ":" ++ cfg.servername)
  let nick := if client.nick = [] then str "*" else client.nick
  let replmsg ← store (code.text cfg client nick reply extra)
  printLine store (maxMsg - 2)
    (before ++ str " " ++ code.code ++ str " " ++ nick ++ str " " ++ replmsg)

/-- One turn of the loop that fills `wichannels`. -/
def addChanIn (m : MyChan) (acc : WhoisChans) : Option WhoisChans := do
  let line ← catIf store (hasMode m.mode modeO) acc.wichannels (str "@")
  let line ← catIf store (hasMode m.mode modeV) line (str "+")
  let buff : Int := maxMsg - line.length
  let line ← store (line ++ strncat buff m.name)
  let line ← store (line ++ str " ")
  return ⟨line, buff, acc.numchans + 1⟩

/-- What a member appends to `chanusers`, when `reply` has `junk` characters. -/
def addMemberIn (junk : Nat) (names : CStr × Bool) (nick : CStr) (m : MyChan) :
    Option (CStr × Bool) := do
  let line ← catIf store (!names.2) names.1 (str " ")
  let line ← catIf store (hasMode m.mode modeO) line (str "@")
  let line ← catIf store (hasMode m.mode modeV) line (str "+")
  let line ← store (line ++ strncat (maxMsg - junk) nick)
  return (line, false)

/-- One turn of the loop that fills `chanusers`. -/
def nameUserIn (junk : Nat) (cname : CStr) (p : Person) (names : CStr × Bool) :
    Option (CStr × Bool) :=
  ((p.seekChan cname).map (addMemberIn store junk names p.nick)).getD (some names)

/-- One turn of the loop that fills `antisocial`. -/
def addLonerIn (p : Person) (names : CStr × Bool) : Option (CStr × Bool) :=
  if p.myChans.items.length = 0 then do
    let line ← catIf store (!names.2) names.1 (str " ")
    let line ← store (line ++ strncat (maxMsg - line.length) p.nick)
    return (line, false)
  else some names

/-- Build the line, in arrays that hold what `store` stores. -/
def Line.build : Line → Option CStr
  | .nick p newnick => printLine store (maxMsg - 2) (relayPrefix p ++ str "NICK :" ++ newnick)
  | .quit p quitmsg => printLine store (maxMsg - 2) (relayPrefix p ++ str "QUIT " ++ quitmsg)
  | .closing p quitmsg => printLine store (maxMsg - 2)
      (str "ERROR :Closing Link: " ++ p.address ++ str " (" ++ quitmsg.tail ++ str ")")
  | .privmsg p params => printLine store (maxMsg - 1)
      (relayPrefix p ++ params.get 0 ++ str " " ++ params.get 1 ++ str " " ++ params.get 2)
  | .notice p params => printLine store (maxMsg - 2)
      (relayPrefix p ++ params.get 0 ++ str " " ++ params.get 1 ++ str " " ++ params.get 2)
  | .pong => printLine store (maxMsg - 2) (str "PONG " ++ cfg.servername)
  | .join p cname => printLine store (maxMsg - 1) (relayPrefix p ++ str "JOIN " ++ cname)
  | .part p params => printLine store (maxMsg - 1) (relayPrefix p ++ str "PART " ++ params.get 1 ++
      if params.get 2 = [] then [] else str " " ++ params.get 2)
  | .topic p cname text => printLine store (maxMsg - 1)
      (relayPrefix p ++ str "TOPIC " ++ cname ++ str " " ++ text)
  | .memberMode p params => printLine store (maxMsg - 2) (relayPrefix p ++ str "MODE " ++
      params.get 1 ++ str " " ++ params.get 2 ++ str " " ++ params.get 3)
  | .userMode params => printLine store (maxMsg - 2)
      (str ":" ++ params.get 1 ++ str " MODE " ++ params.get 1 ++ str " :" ++ params.get 2)
  | .chanMode p cname params => do
      let reply ← store (relayPrefix p ++ str "MODE " ++ cname ++ str " " ++ params.get 2)
      store (crlf reply)
  | .reply code client extra => constrReplyIn store cfg code client [] extra
  | .unknownMode client params cname => do
      let reply ← store (modeLetterStr params)
      constrReplyIn store cfg .errUnknownmode client reply cname
  | .away client recip => do
      let awaymsg ← store (snprintf maxMsg (recip.nick ++ str " " ++ recip.away))
      constrReplyIn store cfg .rplAway client [] awaymsg
  | .whoisUser client whois target => do
      let wiuser ← store (snprintf (maxMsg - 2) (target ++ str " " ++ whois.user ++ str " " ++
        whois.address ++ str " * :" ++ whois.fullname))
      constrReplyIn store cfg .rplWhoisuser client [] wiuser
  | .whoisChans client target chans => do
      let wichannels ← store (snprintf (maxMsg - 1) (target ++ str " :"))
      let acc ← fill (fun acc => acc.buff > 0) (addChanIn store) chans ⟨wichannels, maxMsg - 1, 0⟩
      constrReplyIn store cfg .rplWhoischannels client [] acc.wichannels
  | .whoisServer client whois target => do
      let wiserver ← store (snprintf (maxMsg - 2)
        (target ++ str " " ++ whois.address ++ str " :chirc-0.3"))
      constrReplyIn store cfg .rplWhoisserver client [] wiserver
  | .whoisAway client whois target => do
      let wiaway ← store (snprintf (maxMsg - 2) (target ++ str " " ++ whois.away))
      constrReplyIn store cfg .rplAway client [] wiaway
  | .topicIs client cname text => do
      let reply ← store (snprintf (maxMsg - 1) (cname ++ str " " ++ text))
      constrReplyIn store cfg .rplTopic client reply []
  | .list client c => do
      let extra ← store (listEntry c)
      constrReplyIn store cfg .rplList client [] extra
  | .names client cname junk users => do
      let chanusers ← store (str "= " ++ cname ++ str " :")
      let names ← fill (fun names => names.1.length < maxMsg - 3) (nameUserIn store junk cname)
        users
        (chanusers, true)
      constrReplyIn store cfg .rplNamreply client [] names.1
  | .loners client users => do
      let antisocial ← store (str "* * :")
      let names ← fill (fun names => names.1.length + 1 < maxMsg) (addLonerIn store) users
        (antisocial, true)
      constrReplyIn store cfg .rplNamreply client [] names.1
  | .who client whouser place flags => do
      let whoreply ← store (whoLine cfg place whouser flags)
      constrReplyIn store cfg .rplWhoreply client [] whoreply
  | .notOnChannel client params => do
      let replyParam ← store (params.get 3 ++ str " " ++ params.get 1)
      constrReplyIn store cfg .errUsernotinchannel client [] replyParam
  | .channelMode client c => do
      let channelmodes ← store (c.name ++ str " +" ++ c.mode)
      constrReplyIn store cfg .rplChannelmodeis client [] channelmodes

end Build

/-- **The line fits.** No array is overrun on the way, and what is sent has no more than
`maxMsg` characters and ends in CRLF. -/
def Fits (line : Option CStr) : Prop :=
  ∃ msg, line = some msg ∧ msg.length ≤ maxMsg ∧ [CR, LF] <:+ msg

/-- A `char[MAXMSG]` -/
def inArray : CStr → Option CStr := stored maxMsg

/-! ## How long the strings may be -/

/-- How long the three names at the beginning of a relayed line are. -/
def Person.tag (p : Person) : Nat := p.nick.length + p.user.length + p.address.length

/-- How long `replmsg` gets. -/
def Reply.width (cfg : Config) (client : Person) (nick reply extra : CStr) : Reply → Nat
  | .rplWelcome => nick.length + client.user.length + client.address.length + 41
  | .rplYourhost => cfg.servername.length + cfg.version.length + 31
  | .rplCreated => cfg.birthday.length + 25
  | .rplMyinfo => cfg.servername.length + cfg.version.length + 9
  | .rplLuserclient => extra.length + 45
  | .rplLuserop => extra.length + 20
  | .rplLuserunknown => extra.length + 23
  | .rplLuserchannels => extra.length + 17
  | .rplLuserme => extra.length + 30
  | .rplUnaway => 39
  | .rplNowaway => 35
  | .rplWhoisoperator => extra.length + 20
  | .rplEndofwho => extra.length + 17
  | .rplEndofwhois => extra.length + 19
  | .rplListend => 12
  | .rplNotopic => extra.length + 17
  | .rplTopic => reply.length
  | .rplEndofnames => extra.length + 19
  | .rplMotdstart => cfg.servername.length + 25
  | .rplMotd => extra.length + 3
  | .rplEndofmotd => 22
  | .rplYoureoper => 28
  | .errNosuchnick => extra.length + 22
  | .errNosuchchannel => extra.length + 17
  | .errCannotsendtochan => extra.length + 24
  | .errUnknowncommand => extra.length + 17
  | .errNomotd => 21
  | .errNicknameinuse => extra.length + 28
  | .errUsernotinchannel => extra.length + 29
  | .errNotonchannel => extra.length + 28
  | .errNotregistered => 24
  | .errAlreadyregistred => 42
  | .errPasswdmismatch => 19
  | .errUnknownmode => reply.length + extra.length + 33
  | .errChanoprivisneeded => extra.length + 29
  | .errUmodeunknownflag => 18
  | .errUsersdontmatch => 35
  | .rplAway | .rplWhoisuser | .rplWhoisserver | .rplWhoischannels | .rplList | .rplWhoreply
  | .rplNamreply | .rplChannelmodeis => extra.length

/-- How long a mode's marks are. -/
def statusWidth (mode : CStr) : Nat :=
  (if hasMode mode modeO then 1 else 0) + if hasMode mode modeV then 1 else 0

/-- What a channel takes of `wichannels`. -/
def chanWidth (m : MyChan) : Nat := statusWidth m.mode + m.name.length + 1

/-- How much of a nick `strncat` appends to `chanusers`. -/
def nickWidth (junk : Nat) (nick : CStr) : Nat :=
  if maxMsg < junk then nick.length else min (maxMsg - junk) nick.length

/-- What the members among the users take of `chanusers`. -/
def memberWidths (junk : Nat) (cname : CStr) (users : List Person) : List Nat :=
  users.filterMap fun p =>
    (p.seekChan cname).map fun m => statusWidth m.mode + nickWidth junk p.nick

/-- What the users on no channel take of `antisocial`. -/
def lonerWidths (users : List Person) : List Nat :=
  users.filterMap fun p => if p.myChans.items.length = 0 then some p.nick.length else none

/-- **There is room for the line.** -/
def Line.room (cfg : Config) : Line → Prop
  | .nick _ _ | .quit _ _ | .closing _ _ | .notice _ _ | .pong | .memberMode _ _ | .userMode _ => True
  | .privmsg p params => p.tag + (params.get 0).length + (params.get 1).length +
      (params.get 2).length + 6 < maxMsg - 2
  | .join p cname => p.tag + cname.length + 9 < maxMsg - 2
  | .part p params => p.tag + (params.get 1).length +
      (if params.get 2 = [] then 0 else (params.get 2).length + 1) + 9 < maxMsg - 2
  | .topic p cname text => p.tag + cname.length + text.length + 11 < maxMsg - 2
  | .chanMode p cname params => p.tag + cname.length + (params.get 2).length + 10 < maxMsg - 2
  | .reply code client extra => cfg.servername.length + 1 < maxMsg ∧
      code.width cfg client (if client.nick = [] then str "*" else client.nick) [] extra < maxMsg
  | .unknownMode _ params cname => cfg.servername.length + 1 < maxMsg ∧
      (modeLetterStr params).length + cname.length + 33 < maxMsg
  | .away _ _ | .whoisUser _ _ _ | .whoisServer _ _ _ | .whoisAway _ _ _ | .topicIs _ _ _
  | .who _ _ _ _ => cfg.servername.length + 1 < maxMsg
  | .whoisChans _ target chans => cfg.servername.length + 1 < maxMsg ∧
      min (target.length + 2) (maxMsg - 2) + (chans.map chanWidth).sum < maxMsg
  | .list _ c => cfg.servername.length + 1 < maxMsg ∧
      c.name.length + (fmtI c.numusers).length + (if c.topic = [] then 3 else c.topic.length + 2) < maxMsg
  | .names _ cname junk users => cfg.servername.length + 1 < maxMsg ∧ cname.length + 4 < maxMsg ∧
      ∀ before p, before ++ [p] <+: users →
        joined (cname.length + 4) (memberWidths junk cname before) < maxMsg - 3 →
        joined (cname.length + 4) (memberWidths junk cname (before ++ [p])) < maxMsg
  | .loners _ users => cfg.servername.length + 1 < maxMsg ∧
      ∀ before p, before ++ [p] <+: users → joined 5 (lonerWidths before) < maxMsg - 1 →
        joined 5 (lonerWidths (before ++ [p])) < maxMsg
  | .notOnChannel _ params => cfg.servername.length + 1 < maxMsg ∧
      (params.get 3).length + (params.get 1).length + 30 < maxMsg
  | .channelMode _ c => cfg.servername.length + 1 < maxMsg ∧ c.name.length + c.mode.length + 2 < maxMsg

end UchiNetworks.Chirc
