import UchiNetworks.Lib.Program
import UchiNetworks.Chirc.Reply

/-!
# chirc: what the handlers share

The functions of `utils.c` and `channel.c`, as programs of a client's thread.
`self` is the thread that runs them, `user` the person they act for; the two are
the same unless a descriptor was mistaken for another's.

Mirroring notes vs the C:
- `perror`, the frees and `pthread_mutex_destroy` leave nothing to see here.
- A new channel is allocated in the section that appends it, so that its number
  is its own. The fields of a record that never change are read where they are
  used.
- A loop over a list reads the entries once its iteration has been started: the
  list refuses to change until the iteration is stopped. The one iteration that
  lets go of its lock in between is the handlers' own (`scanChans`).
- A thread that removes somebody else's record goes on after `pthread_cancel`.
-/

namespace UchiNetworks.Chirc

open UchiNetworks.Lib
open Prog

/-- Programs of the server. -/
abbrev Act := Prog Server Mutex Event Fault

/-! ## Iterations and lookups -/

def startUsers (s : Server) : Server := { s with userlist := s.userlist.start }
def nextUser (s : Server) : Server := { s with userlist := s.userlist.next }
def stopUsers (s : Server) : Server := { s with userlist := s.userlist.stop }

def startMyChans (u : Uid) (s : Server) : Server := s.updPerson u (·.updChans SimList.start)
def nextMyChan (u : Uid) (s : Server) : Server := s.updPerson u (·.updChans SimList.next)
def stopMyChans (u : Uid) (s : Server) : Server := s.updPerson u (·.updChans SimList.stop)

/-- `list_seek(server->chanlist, ..)` between `lock` and `unlock` -/
def lookChan (name : CStr) : Act (Option Cid) := do
  acquire .lock
  let found ← look (·.seekChan name)
  release .lock
  return found

/-- `list_seek(user->my_chans, ..)` between `lock` and `unlock` -/
def lookMyChan (user : Uid) (name : CStr) : Act (Option MyChan) := do
  acquire .lock
  let found ← look fun s => (s.persons user).seekChan name
  release .lock
  return found

/-! ## Leaving -/

/-- `channel_destroy` -/
def channelDestroy (chan : Cid) : Act Unit := do
  acquire (.chanLock chan)
  let numusers ← look fun s => (s.channels chan).numusers
  if numusers ≠ 0 then
    release (.chanLock chan)
  else
    acquire .lock
    change fun s => { s with chanlist := s.chanlist.delete (· = chan) }
    release .lock
    release (.chanLock chan)

/-- `(chan->numusers)--` under its lock, and `channel_destroy` if that was the last user. -/
def leaveChannel (chan : Cid) : Act Unit := do
  acquire (.chanLock chan)
  change (·.updChannel chan fun c => { c with numusers := c.numusers - 1 })
  release (.chanLock chan)
  let numusers ← look fun s => (s.channels chan).numusers
  onlyIf (numusers = 0) (channelDestroy chan)

/-- One turn of `user_exit`'s loop. -/
def exitChannel (user : Uid) (m : MyChan) (_ : Unit) : Act Unit := do
  change (nextMyChan user)
  let found ← lookChan m.name
  let chan ← deref .null found
  leaveChannel chan

/-- `user_exit` -/
def userExit (self user : Uid) : Act Unit := do
  acquire (.cLock user)
  let fd ← look fun s => (s.persons user).clientSocket
  let _ ← output (.close fd)
  change (startMyChans user)
  let chans ← look fun s => (s.persons user).myChans.remaining
  forEach (fun _ => true) (exitChannel user) chans ()
  change (stopMyChans user)
  change (·.updPerson user (·.updChans SimList.clear))
  acquire .lock
  change fun s => { s with
    userlist := s.userlist.delete (· = user)
    numregistered := s.numregistered - 1 }
  release .lock
  release (.cLock user)
  onlyIf (self = user) exit

/-! ## Sending -/

/-- `send` to a user's socket under his `c_lock`; who cannot be reached is removed. -/
def lockedSend (self user : Uid) (msg : CStr) : Act Unit := do
  acquire (.cLock user)
  let fd ← look fun s => (s.persons user).clientSocket
  let ok ← output (.send fd msg)
  onlyIf (!ok) (userExit self user)
  release (.cLock user)

/-- `constr_reply`, then `send` under the user's `c_lock` -/
def sendReply (cfg : Config) (self user : Uid) (code : Reply) (reply extra : CStr) : Act Unit := do
  let client ← look (·.persons user)
  lockedSend self user (constrReply cfg code client reply extra)

/-- Does `sendtochannel` send to `u`? -/
def isRecipient (s : Server) (u : Uid) (cname : CStr) (sender : Option Uid) : Bool :=
  (sender.all fun v => (s.persons u).nick ≠ (s.persons v).nick) && (s.persons u).onChan cname

/-- One turn of `sendtochannel`'s loop. -/
def relayTo (self : Uid) (cname msg : CStr) (sender : Option Uid) (u : Uid) (_ : Unit) :
    Act Unit := do
  change nextUser
  let hit ← look fun s => isRecipient s u cname sender
  onlyIf hit (lockedSend self u msg)

/-- `sendtochannel`. `sender` points to a nick, `chan` may be null. -/
def sendtochannel (self : Uid) (chan : Option Cid) (msg : CStr) (sender : Option Uid) :
    Act Unit := do
  let chan ← deref .null chan
  let cname ← look fun s => (s.channels chan).name
  acquire .lock
  change startUsers
  let users ← look (·.userlist.remaining)
  forEach (fun _ => true) (relayTo self cname msg sender) users ()
  change stopUsers
  release .lock

/-- One turn of `sendtoallchans`' loop. -/
def relayChan (self user : Uid) (msg : CStr) (m : MyChan) (_ : Unit) : Act Unit := do
  change (nextMyChan user)
  let chan ← lookChan m.name
  sendtochannel self chan msg (some user)

/-- `sendtoallchans` -/
def sendtoallchans (self user : Uid) (msg : CStr) : Act Unit := do
  acquire (.cLock user)
  change (startMyChans user)
  let chans ← look fun s => (s.persons user).myChans.remaining
  forEach (fun _ => true) (relayChan self user msg) chans ()
  change (stopMyChans user)
  release (.cLock user)

/-- `strncat(.., s, n)`, where a negative `n` is a large `size_t` -/
def strncat (n : Int) (s : CStr) : CStr := if n < 0 then s else s.take n.toNat

/-- What a member adds to `chanusers`; the flag says that nobody is in it yet. `junk`
is the `strlen` of `reply`, which nothing has been written to. -/
def addMember (junk : Nat) (m : MyChan) (nick : CStr) (names : CStr × Bool) : CStr × Bool :=
  (names.1 ++ (if names.2 then [] else str " ") ++
    (if hasMode m.mode modeO then str "@" else []) ++
    (if hasMode m.mode modeV then str "+" else []) ++
    strncat (maxMsg - junk) nick, false)

/-- One turn of `send_names`' loop. -/
def nameUser (junk : Nat) (cname : CStr) (u : Uid) (names : CStr × Bool) :
    Act (CStr × Bool) := do
  change nextUser
  acquire (.cLock u)
  let someuser ← look (·.persons u)
  release (.cLock u)
  return ((someuser.seekChan cname).map fun m => addMember junk m someuser.nick names).getD names

/-- `send_names`. `junk` is what its `reply` holds from earlier calls. -/
def sendNames (cfg : Config) (self : Uid) (junk : Nat) (user : Uid) (chan : Cid) : Act Unit := do
  acquire (.chanLock chan)
  let cname ← look fun s => (s.channels chan).name
  release (.chanLock chan)
  acquire .lock
  change startUsers
  let users ← look (·.userlist.remaining)
  let names ← forEach (fun names => names.1.length < maxMsg - 3) (nameUser junk cname) users
    (str "= " ++ cname ++ str " :", true)
  change stopUsers
  release .lock
  sendReply cfg self user .rplNamreply [] names.1

/-! ## Joining -/

/-- A new channel at the next free place, appended to `chanlist`. -/
def Server.addChannel (s : Server) (cname : CStr) : Server :=
  { s with
    channels := fun d => if d = s.nextCid then ⟨cname, [], [], 0⟩ else s.channels d
    nextCid := s.nextCid + 1
    chanlist := s.chanlist.append s.nextCid }

/-- Create a channel. -/
def newChannel (cname : CStr) : Act Cid := do
  acquire .lock
  let chan ← look (·.nextCid)
  change (·.addChannel cname)
  release .lock
  return chan

/-- Enter the channel in `my_chans`, and count the user. -/
def enterChannel (client : Uid) (chan : Cid) (newchan : MyChan) : Act Unit := do
  acquire (.cLock client)
  change (·.updPerson client (·.updChans (·.append newchan)))
  release (.cLock client)
  acquire (.chanLock chan)
  change (·.updChannel chan fun c => { c with numusers := c.numusers + 1 })
  release (.chanLock chan)

/-- The replies to a JOIN. -/
def joinReplies (cfg : Config) (self : Uid) (junk : Nat) (client : Uid) (chan : Cid)
    (cname : CStr) : Act Unit := do
  let p ← look (·.persons client)
  sendtochannel self (some chan) (crlf (snprintf (maxMsg - 1) (relayPrefix p ++ str "JOIN " ++ cname)))
    none
  let topic ← look fun s => (s.channels chan).topic
  onlyIf (topic ≠ [])
    (sendReply cfg self client .rplTopic (snprintf (maxMsg - 1) (cname ++ str " " ++ topic)) [])
  sendNames cfg self junk client chan
  sendReply cfg self client .rplEndofnames [] cname

/-- The channel to join: the one that is there, or a new one. -/
def findOrCreate (cname : CStr) : Option Cid → Act Cid
  | some chan => return chan
  | none => newChannel cname

/-- `channel_join` -/
def channelJoin (cfg : Config) (self : Uid) (junk : Nat) (client : Uid) (cname : CStr) :
    Act Unit := do
  let found ← lookChan cname
  let chan ← findOrCreate cname found
  let already ← look fun s => (s.persons client).onChan cname
  if already then pure () else
  enterChannel client chan ⟨cname, if found.isSome then [] else str "o"⟩
  joinReplies cfg self junk client chan cname

end UchiNetworks.Chirc
