import UchiNetworks.Chirc.SimList

/-!
# chirc: the server's data

`ircstructs.h` and `fun_seek`. The lists of the server hold pointers; here a
pointer to a `person` or a `channel` is a number, and `persons` and `channels`
are the memory they point to. Channels are never freed (the `free` is commented
out), and a person's record is the stack frame of its thread.

Mirroring notes vs the C:
- A string is its bytes without the NUL. The fields have room for every
  parameter of a message; only the `mode` arrays can run full (`modeRoom`).
- `port`, `tid` and the mutexes are not stored: a thread is named by the person
  it serves, and the mutexes are those of `Mutex`.
- `numregistered` is a 32-bit `unsigned int`, `numusers` an `int` that stays far
  from its limits.
- `Config` is what does not change while the server runs.
-/

namespace UchiNetworks.Chirc

abbrev CStr := List UInt8

/-- A C character constant. -/
def chr (c : Char) : UInt8 := c.toNat.toUInt8

/-- A C string literal. -/
def str (s : String) : CStr := s.toList.map chr

/-- A message's parameters, `params[0]` being the command. -/
abbrev Params := List CStr

def Params.get (params : Params) (n : Nat) : CStr := params.getD n []

abbrev Uid := Nat
abbrev Cid := Nat

/-- `mychan` -/
structure MyChan where
  name : CStr
  mode : CStr
  deriving DecidableEq, Repr

/-- `person` -/
structure Person where
  clientSocket : Nat
  nick : CStr
  user : CStr
  fullname : CStr
  address : CStr
  mode : CStr
  away : CStr
  myChans : SimList MyChan
  deriving DecidableEq, Repr

/-- `channel` -/
structure Channel where
  name : CStr
  topic : CStr
  mode : CStr
  numusers : Int
  deriving DecidableEq, Repr

structure Config where
  pw : CStr
  servername : CStr
  version : CStr
  birthday : CStr
  motd : Option (List CStr)

/-- `chirc_server`, with the memory behind its lists. -/
structure Server where
  userlist : SimList Uid
  chanlist : SimList Cid
  numregistered : BitVec 32
  persons : Uid → Person
  channels : Cid → Channel
  nextUid : Uid
  nextCid : Cid

/-- The mutexes: `lock`, each user's `c_lock`, each channel's `chan_lock`. -/
inductive Mutex where
  | lock
  | cLock (u : Uid)
  | chanLock (c : Cid)
  deriving DecidableEq, Repr

/-- What a handler hands to the outside. -/
inductive Event where
  | send (clientSocket : Nat) (msg : CStr)
  | close (clientSocket : Nat)
  deriving DecidableEq, Repr

/-- What can go wrong: a null pointer is read through, a `strcat` runs past the
end of a `mode` array, or a loop was given too few turns. -/
inductive Fault where
  | null
  | bounds
  | fuel
  deriving DecidableEq, Repr

/-! ## Looking things up -/

def Person.empty : Person := ⟨0, [], [], [], [], [], [], .init⟩

def Channel.empty : Channel := ⟨[], [], [], 0⟩

/-- `fun_seek` never matches an empty value. -/
def seekMatch (field value : CStr) : Bool := value ≠ [] ∧ field = value

/-- `list_seek(server->userlist, ..)` by `NICK` -/
def Server.seekNick (s : Server) (value : CStr) : Option Uid :=
  s.userlist.seek fun u => seekMatch (s.persons u).nick value

/-- `list_seek(server->userlist, ..)` by `USER` -/
def Server.seekUser (s : Server) (value : CStr) : Option Uid :=
  s.userlist.seek fun u => seekMatch (s.persons u).user value

/-- `list_seek(server->userlist, ..)` by `FD` -/
def Server.seekFd (s : Server) (fd : Nat) : Option Uid :=
  s.userlist.seek fun u => (s.persons u).clientSocket = fd

/-- `list_seek(server->chanlist, ..)` by `CHAN` -/
def Server.seekChan (s : Server) (value : CStr) : Option Cid :=
  s.chanlist.seek fun c => seekMatch (s.channels c).name value

/-- `list_seek(user->my_chans, ..)` by `USERCHAN` (or `CHAN`: the name is the
first field of both structures) -/
def Person.seekChan (p : Person) (value : CStr) : Option MyChan :=
  p.myChans.seek fun m => seekMatch m.name value

/-- `list_contains(user->my_chans, dummy)`: `fun_compare` compares names. -/
def Person.onChan (p : Person) (name : CStr) : Bool := p.myChans.contains fun m => m.name = name

/-- `strlen(user->nick) && strlen(user->user)` -/
def Person.registered (p : Person) : Bool := p.nick ≠ [] ∧ p.user ≠ []

/-! ## Changing things -/

def Server.updPerson (s : Server) (u : Uid) (f : Person → Person) : Server :=
  { s with persons := fun v => if v = u then f (s.persons v) else s.persons v }

def Server.updChannel (s : Server) (c : Cid) (f : Channel → Channel) : Server :=
  { s with channels := fun d => if d = c then f (s.channels d) else s.channels d }

def Person.updChans (p : Person) (f : SimList MyChan → SimList MyChan) : Person :=
  { p with myChans := f p.myChans }

/-- Change the mode of the `mychan` that a seek by `USERCHAN` returns. -/
def Person.updMode (p : Person) (name : CStr) (f : CStr → CStr) : Person :=
  p.updChans fun l => l.update (fun m => seekMatch m.name name) fun m => { m with mode := f m.mode }

/-- A server nobody has connected to. -/
def Server.init : Server where
  userlist := .init
  chanlist := .init
  numregistered := 0
  persons := fun _ => .empty
  channels := fun _ => .empty
  nextUid := 0
  nextCid := 0

/-! ## Mode strings -/

-- the letters of the modes
def modeA : UInt8 := chr 'a'
def modeM : UInt8 := chr 'm'
def modeO : UInt8 := chr 'o'
def modeT : UInt8 := chr 't'
def modeV : UInt8 := chr 'v'

/-- How many letters a `mode[5]` has room for. -/
def modeRoom : Nat := 4

/-- `strchr(mode, c) != NULL` -/
def hasMode (mode : CStr) (c : UInt8) : Bool := mode.contains c

/-- `delmode = strchr(mode, c)` and the loop that closes the gap -/
def delMode (mode : CStr) (c : UInt8) : CStr := mode.erase c

/-- `strpbrk(s, accept) != NULL` -/
def anyOf (s accept : CStr) : Bool := s.any accept.contains

end UchiNetworks.Chirc
