import UchiNetworks.Chirc.Utils

/-!
# chirc: the handlers

`handlers.c`: one program for each command, and `handle_chirc_message`, which
chooses among them. `params[0]` is the command.

Mirroring notes vs the C:
- The bodies that check, answer and return early are written as nested `if`s.
- `fuel` bounds the turns of the one loop that lets go of its lock between
  turns, LIST's and NAMES' over `chanlist`: another thread may stop and restart
  the iteration, so its length is not known beforehand.
- `chirc_handle_NOTICE` frees `seek_arg` and goes on using it; it is taken to
  keep its contents.
- `params[2][1]` behind an empty `params[2]` is taken to be NUL.
- A failed `send` to a client that is leaving anyway is ignored, as in the C.
-/

namespace UchiNetworks.Chirc

open UchiNetworks.Lib
open Prog

section Handlers

variable (cfg : Config) (self : Uid)

/-! ## Replies only -/

/-- The lines of the message of the day. -/
def motdLines (user : Uid) : List CStr → Act Unit
  | [] => pure ()
  | motd :: rest => do
    sendReply cfg self user .rplMotd [] motd
    motdLines user rest

/-- `chirc_handle_MOTD` -/
def handleMOTD (user : Uid) : Act Unit := do
  let p ← look (·.persons user)
  if !p.registered then sendReply cfg self user .errNotregistered [] [] else
  match cfg.motd with
  | none => sendReply cfg self user .errNomotd [] []
  | some lines => do
    sendReply cfg self user .rplMotdstart [] []
    motdLines cfg self user lines
    sendReply cfg self user .rplEndofmotd [] []

/-- The text of `RPL_LUSERUNKNOWN`. -/
def unknownStats (userme known : BitVec 32) : CStr :=
  if known ≤ userme then fmtU (userme - known).toNat else str "err"

/-- One turn of the loop that counts operators. -/
def countOp (u : Uid) (numops : Nat) : Act Nat := do
  change nextUser
  acquire (.cLock u)
  let maybeop ← look (·.persons u)
  release (.cLock u)
  return if hasMode maybeop.mode modeO then numops + 1 else numops

/-- `chirc_handle_LUSERS` -/
def handleLUSERS (user : Uid) : Act Unit := do
  acquire .lock
  let userme ← look fun s => BitVec.ofNat 32 s.userlist.items.length
  let numchannels ← look fun s => s.chanlist.items.length
  let known ← look (·.numregistered)
  change startUsers
  let users ← look (·.userlist.remaining)
  let numops ← forEach (fun _ => true) countOp users 0
  change stopUsers
  release .lock
  let p ← look (·.persons user)
  if !p.registered then sendReply cfg self user .errNotregistered [] [] else
  sendReply cfg self user .rplLuserclient [] (fmtU known.toNat)
  sendReply cfg self user .rplLuserop [] (fmtU numops)
  sendReply cfg self user .rplLuserunknown [] (unknownStats userme known)
  sendReply cfg self user .rplLuserchannels [] (fmtU numchannels)
  sendReply cfg self user .rplLuserme [] (fmtU userme.toNat)

/-- `chirc_handle_PING` -/
def handlePING (user : Uid) : Act Unit := do
  acquire .lock
  let pong := crlf (snprintf (maxMsg - 2) (str "PONG " ++ cfg.servername))
  release .lock
  let p ← look (·.persons user)
  if !p.registered then sendReply cfg self user .errNotregistered [] []
  else lockedSend self user pong

/-- `chirc_handle_UNKNOWN` -/
def handleUNKNOWN (user : Uid) (params : Params) : Act Unit :=
  sendReply cfg self user .errUnknowncommand [] (params.get 0)

/-! ## Names -/

/-- `do_registration` -/
def doRegistration (client : Uid) : Act Unit := do
  acquire .lock
  change fun s => { s with numregistered := s.numregistered + 1 }
  release .lock
  sendReply cfg self client .rplWelcome [] []
  sendReply cfg self client .rplYourhost [] []
  sendReply cfg self client .rplCreated [] []
  sendReply cfg self client .rplMyinfo [] []
  handleLUSERS cfg self client
  handleMOTD cfg self client

/-- `strcpy(user->nick, newnick)` under `lock` -/
def setNick (user : Uid) (newnick : CStr) : Act Unit := do
  acquire .lock
  change (·.updPerson user fun p => { p with nick := newnick })
  release .lock

/-- `chirc_handle_NICK` -/
def handleNICK (user : Uid) (params : Params) : Act Unit := do
  let newnick := params.get 1
  acquire .lock
  let clientpt ← look (·.seekNick newnick)
  release .lock
  if clientpt.isSome then sendReply cfg self user .errNicknameinuse [] newnick else
  let p ← look (·.persons user)
  if p.nick ≠ [] then
    let msg := crlf (snprintf (maxMsg - 2) (relayPrefix p ++ str "NICK :" ++ newnick))
    lockedSend self user msg
    sendtoallchans self user msg
    setNick user newnick
  else
    setNick user newnick
    let p ← look (·.persons user)
    onlyIf (p.user ≠ []) (doRegistration cfg self user)

/-- `chirc_handle_USER`. The full name loses its first character. -/
def handleUSER (user : Uid) (params : Params) : Act Unit := do
  let p ← look (·.persons user)
  if p.user ≠ [] ∧ p.nick ≠ [] then sendReply cfg self user .errAlreadyregistred [] [] else
  acquire .lock
  change (·.updPerson user fun p =>
    { p with user := params.get 1, fullname := (params.get 4).tail })
  release .lock
  let p ← look (·.persons user)
  onlyIf (p.nick ≠ []) (doRegistration cfg self user)

/-- `chirc_handle_QUIT` -/
def handleQUIT (user : Uid) (params : Params) : Act Unit := do
  let quitmsg := if params.get 1 ≠ [] then params.get 1 else str ":Client Quit"
  let p ← look (·.persons user)
  sendtoallchans self user (crlf (snprintf (maxMsg - 2) (relayPrefix p ++ str "QUIT " ++ quitmsg)))
  acquire (.cLock user)
  let _ ← output (.send p.clientSocket (crlf (snprintf (maxMsg - 2)
    (str "ERROR :Closing Link: " ++ p.address ++ str " (" ++ quitmsg.tail ++ str ")"))))
  release (.cLock user)
  userExit self user

/-! ## Messages -/

/-- The line that PRIVMSG and NOTICE relay, `n` being the buffer's size. -/
def relayLine (n : Nat) (p : Person) (params : Params) : CStr :=
  crlf (snprintf n (relayPrefix p ++ params.get 0 ++ str " " ++ params.get 1 ++ str " " ++
    params.get 2))

/-- Send to the recipient; is he away? -/
def sendToRecip (recip : Uid) (msg : CStr) : Act Bool := do
  acquire (.cLock recip)
  let fd ← look fun s => (s.persons recip).clientSocket
  let ok ← output (.send fd msg)
  onlyIf (!ok) (userExit self recip)
  let away ← look fun s => hasMode (s.persons recip).mode modeA
  release (.cLock recip)
  return away

/-- The reply about a recipient who is away. -/
def awayReply (user recip : Uid) : Act Unit := do
  acquire (.cLock recip)
  let r ← look (·.persons recip)
  release (.cLock recip)
  sendReply cfg self user .rplAway [] (snprintf maxMsg (r.nick ++ str " " ++ r.away))

/-- PRIVMSG to a user. -/
def privmsgUser (user recip : Uid) (msg : CStr) : Act Unit := do
  let away ← sendToRecip self recip msg
  onlyIf away (awayReply cfg self user recip)

/-- Does the sender's own `mychan` lack `o` and `v`? -/
def lacksVoice (user : Uid) (name : CStr) : Act Bool := do
  let mychanpt ← lookMyChan user name
  let mychan ← deref .null mychanpt
  pure (!hasMode mychan.mode modeO && !hasMode mychan.mode modeV)

/-- The check of the channel's mode `m`: is the sender kept from speaking? -/
def silenced (user : Uid) (chan : Cid) (name : CStr) : Act Bool := do
  let moderated ← look fun s => hasMode (s.channels chan).mode modeM
  let oper ← look fun s => hasMode (s.persons user).mode modeO
  if moderated && !oper then lacksVoice user name else pure false

/-- PRIVMSG to a channel. -/
def privmsgChan (user : Uid) (chan : Cid) (name msg : CStr) : Act Unit := do
  let member ← look fun s => (s.persons user).onChan name
  if !member then sendReply cfg self user .errCannotsendtochan [] name else
  let mute ← silenced user chan name
  if mute then sendReply cfg self user .errCannotsendtochan [] name
  else sendtochannel self (some chan) msg (some user)

/-- The recipient of a PRIVMSG or a NOTICE, as user and as channel. -/
def lookRecipient (name : CStr) : Act (Option Uid × Option Cid) := do
  acquire .lock
  let recippt ← look (·.seekNick name)
  let chanpt ← look (·.seekChan name)
  release .lock
  return (recippt, chanpt)

/-- What PRIVMSG does once it has looked for the recipient: a user goes first. -/
def privmsgTo (user : Uid) (params : Params) : Option Uid × Option Cid → Act Unit
  | (none, none) => sendReply cfg self user .errNosuchnick [] (params.get 1)
  | (some recip, _) => do
    acquire (.cLock user)
    let p ← look (·.persons user)
    release (.cLock user)
    privmsgUser cfg self user recip (relayLine (maxMsg - 1) p params)
  | (none, some chan) => do
    acquire (.cLock user)
    let p ← look (·.persons user)
    release (.cLock user)
    privmsgChan cfg self user chan (params.get 1) (relayLine (maxMsg - 1) p params)

/-- `chirc_handle_PRIVMSG` -/
def handlePRIVMSG (user : Uid) (params : Params) : Act Unit := do
  let p ← look (·.persons user)
  if !p.registered then sendReply cfg self user .errNotregistered [] [] else
  let recipient ← lookRecipient (params.get 1)
  privmsgTo cfg self user params recipient

/-- NOTICE to a channel: the mode is checked before the membership. -/
def noticeChan (user : Uid) (name notice : CStr) : Option Cid → Act Unit
  | none => pure ()
  | some chan => do
    let mute ← silenced user chan name
    if mute then pure () else
    let member ← look fun s => (s.persons user).onChan name
    onlyIf member (sendtochannel self (some chan) notice (some user))

/-- NOTICE to a user. -/
def noticeUser (notice : CStr) : Option Uid → Act Unit
  | none => pure ()
  | some recip => lockedSend self recip notice

/-- `chirc_handle_NOTICE`. For a moderated channel it writes and reads the `seek_arg`
that it has freed: it finds there what it has just written, and what that does to the
heap is left out. -/
def handleNOTICE (user : Uid) (params : Params) : Act Unit := do
  let recipient ← lookRecipient (params.get 1)
  let p ← look (·.persons user)
  if !p.registered then sendReply cfg self user .errNotregistered [] [] else
  let notice := relayLine (maxMsg - 2) p params
  noticeUser self notice recipient.1
  noticeChan self user (params.get 1) notice recipient.2

end Handlers

end UchiNetworks.Chirc
