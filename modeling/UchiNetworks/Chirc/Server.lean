import UchiNetworks.Lib.Run
import UchiNetworks.Chirc.Commands

/-!
# chirc: one request at a time

The server when the requests of its clients do not overlap: a connection is
accepted, a client's message is handled, or a connection ends. A handler that
crashes or blocks for ever leaves no state behind.
-/

namespace UchiNetworks.Chirc

open UchiNetworks.Lib
open Prog

/-- What comes in. -/
inductive Input where
  | connect (fd : Nat) (address : CStr)
  | message (self : Uid) (params : Params)
  | hangup (self : Uid)

/-- A request: what comes in, which of the outputs made for it work, and what its
calls of `send_names` find in their `reply`. -/
structure Request where
  input : Input
  ok : Nat → Bool
  stale : Nat → Nat

/-- How a handler starts: it holds no mutex, and has sent nothing. -/
def Server.world (s : Server) : World Server Mutex Event := ⟨s, [], []⟩

/-- The state a handler leaves behind, and what it has handed out. -/
def leaves : Outcome Server Mutex Event Fault Unit → Option (Server × List Event)
  | .done _ w => some (w.state, w.out)
  | .exited w => some (w.state, w.out)
  | .crashed _ _ => none
  | .stuck _ => none

/-- Enough turns for a loop over `chanlist` that nobody disturbs. -/
def Server.fuel (s : Server) : Nat := s.chanlist.items.length + 1

/-- The program a request starts. -/
def Input.program (cfg : Config) (stale : Nat → Nat) (s : Server) : Input → Act Unit
  | .connect fd address => change (·.arrive fd address)
  | .message self params => parse cfg self stale s.fuel params
  | .hangup self => disconnect self

/-- `accept` returns a descriptor that is not open, and only who is connected
sends or hangs up. -/
def Input.possible (s : Server) : Input → Prop
  | .connect fd _ => fd < 0x80000000 ∧ ∀ u ∈ s.userlist.items, (s.persons u).clientSocket ≠ fd
  | .message self _ => self ∈ s.userlist.items
  | .hangup self => self ∈ s.userlist.items

instance (s : Server) (i : Input) : Decidable (i.possible s) :=
  match i with
  | .connect fd _ => inferInstanceAs
      (Decidable (fd < 0x80000000 ∧ ∀ u ∈ s.userlist.items, (s.persons u).clientSocket ≠ fd))
  | .message self _ => inferInstanceAs (Decidable (self ∈ s.userlist.items))
  | .hangup self => inferInstanceAs (Decidable (self ∈ s.userlist.items))

/-- Handle one request. -/
def serve (cfg : Config) (s : Server) (r : Request) : Option (Server × List Event) :=
  if r.input.possible s then leaves ((r.input.program cfg r.stale s).run r.ok s.world) else none

/-- The state after a request. -/
def next (cfg : Config) (s : Server) (r : Request) : Option Server := (serve cfg s r).map (·.1)

/-- Any request at all. -/
def anyRequest (_ : Server) (_ : Request) : Prop := True

/-- A request whose outputs all work. -/
def Request.working (input : Input) (stale : Nat → Nat) : Request := ⟨input, fun _ => true, stale⟩

/-- The same, where `send_names` finds nothing in its `reply`. -/
def Request.plain (input : Input) : Request := .working input fun _ => 0

/-- A command and its parameters. -/
def Input.line (self : Uid) (params : List String) : Input := .message self (params.map str)

/-- A server to try things on. -/
def Config.plain : Config where
  pw := str "pw"
  servername := str "srv"
  version := str "1"
  birthday := str "today"
  motd := none

/-- A client connects and registers. -/
def registersOne : List Request :=
  [.plain (.connect 4 []), .plain (.line 0 ["NICK", "a"]),
    .plain (.line 0 ["USER", "u", "0", "*", ":Name"])]

/-- A state that the server can be in when it handles one request at a time. -/
def Reachable (cfg : Config) (s : Server) : Prop := ∃ rs, Path (next cfg) anyRequest .init rs s

end UchiNetworks.Chirc
