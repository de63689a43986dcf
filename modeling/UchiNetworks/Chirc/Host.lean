import UchiNetworks.Lib.Run
import UchiNetworks.Chirc.Calm
import UchiNetworks.Chirc.Sane

/-!
# chirc: all threads at once

The server with its threads: `accept_clients` takes a connection, its thread
enters the new record in `userlist`, and from then on it runs `parse` for each
message and `user_exit` at the end. Between any two actions of one thread any
others may act.

Mirroring notes vs the C:
- A thread is named by the record it enters, so one that has not got there yet is
  an entry of `pending`. The entering is one section under `lock`.
- `recv` gives any message at any time; `parse_message`'s own lookup before each
  `recv` matters only where `recv` fails.
- `accept` returns some descriptor that is not open; `close` makes it available.
- A thread that is cancelled is one that does not act again. Nothing here makes a
  thread act.
-/

namespace UchiNetworks.Chirc

open UchiNetworks.Lib
open Prog

/-- The threads, the open descriptors, and the connections that have been accepted
and not yet entered in `userlist`. -/
structure Host extends Threads Uid Server Mutex Event Fault where
  opened : List Nat
  pending : List (Nat × CStr)

/-- What can happen next. `works` says what becomes of an output. -/
inductive Move where
  | accept (fd : Nat) (address : CStr)
  | enter (n : Nat)
  | message (self : Uid) (stale : Nat → Nat) (fuel : Nat) (params : Params)
  | hangup (self : Uid)
  | act (self : Uid) (works : Bool)

/-- Is there nothing left to do? -/
def returned : Act Unit → Bool
  | .ret _ => true
  | _ => false

/-- What a thread's next action leaves open. -/
def staysOpen : Act Unit → List Nat → List Nat
  | .emit (.close fd) _, opened => opened.filter (· ≠ fd)
  | _, opened => opened

/-- An idle thread begins. -/
def Host.begin (h : Host) (self : Uid) (p : Act Unit) : Option Host :=
  if returned (h.todo self) ∧ self < h.state.nextUid then
    some { h with toThreads := h.setTodo self p }
  else none

/-- One thing after another. -/
def Host.step (cfg : Config) (h : Host) : Move → Option Host
  | .accept fd address =>
    if fd ∈ h.opened then none
    else some { h with opened := fd :: h.opened, pending := h.pending ++ [(fd, address)] }
  | .enter n =>
    if h.owner .lock = none then
      h.pending[n]?.map fun c =>
        { h with state := h.state.arrive c.1 c.2, pending := h.pending.eraseIdx n }
    else none
  | .message self stale fuel params => h.begin self (parse cfg self stale fuel params)
  | .hangup self => h.begin self (disconnect self)
  | .act self works => (h.toThreads.act self works).map fun c =>
      { toThreads := c, opened := staysOpen (h.todo self) h.opened, pending := h.pending }

/-- Nobody has connected, and no thread has anything to do. -/
def Host.init : Host where
  state := .init
  todo := fun _ => ret ()
  owner := fun _ => none
  out := []
  opened := []
  pending := []

/-- Any step at all. -/
def anyMove (_ : Host) (_ : Move) : Prop := True

/-- Actions of one thread, whose outputs all work. -/
def acts (self : Uid) (n : Nat) : List Move := List.replicate n (.act self true)

/-- A message of a client. -/
def Move.line (self : Uid) (params : List String) : Move :=
  .message self (fun _ => 0) 3 (params.map str)

variable {cfg : Config} {h h' : Host} {self : Uid}

theorem begin_some {p : Act Unit} (hto : h.begin self p = some h') :
    self < h.state.nextUid ∧ h' = { h with toThreads := h.setTodo self p } := by
  unfold Host.begin at hto
  split at hto
  case isTrue hidle =>
    cases hto
    exact ⟨hidle.2, rfl⟩
  case isFalse => cases hto

theorem eq_ret_of_returned {p : Act Unit} (h : returned p = true) : p = ret () := by
  cases p with
  | ret _ => rfl
  | crash _ | exit | lock _ _ | unlock _ _ | emit _ _ | read _ | write _ _ => cases h

/-- Who begins was idle. -/
theorem begin_idle {p : Act Unit} (hto : h.begin self p = some h') : h.todo self = ret () := by
  unfold Host.begin at hto
  split at hto
  case isTrue hidle => exact eq_ret_of_returned hidle.1
  case isFalse => cases hto

/-- What a step can be, and what it does. -/
inductive Steps (cfg : Config) (h : Host) : Move → Host → Prop
  | accept {fd : Nat} {address : CStr} (hnew : fd ∉ h.opened) :
      Steps cfg h (.accept fd address)
        { h with opened := fd :: h.opened, pending := h.pending ++ [(fd, address)] }
  | enter {n : Nat} {fd : Nat} {address : CStr} (hfree : h.owner .lock = none)
      (hat : h.pending[n]? = some (fd, address)) :
      Steps cfg h (.enter n)
        { h with state := h.state.arrive fd address, pending := h.pending.eraseIdx n }
  | message {self : Uid} {stale : Nat → Nat} {fuel : Nat} {params : Params}
      (hthere : self < h.state.nextUid) :
      Steps cfg h (.message self stale fuel params)
        { h with toThreads := h.setTodo self (parse cfg self stale fuel params) }
  | hangup {self : Uid} (hthere : self < h.state.nextUid) :
      Steps cfg h (.hangup self) { h with toThreads := h.setTodo self (disconnect self) }
  | act {self : Uid} {works : Bool} {c : Threads Uid Server Mutex Event Fault}
      (hacts : h.toThreads.Acts self works c) :
      Steps cfg h (.act self works) ⟨c, staysOpen (h.todo self) h.opened, h.pending⟩

theorem step_cases {m : Move} (hto : h.step cfg m = some h') : Steps cfg h m h' := by
  cases m with
  | accept fd address =>
    have hto : (if fd ∈ h.opened then none else some _) = some h' := hto
    split at hto
    case isTrue => cases hto
    case isFalse hnew =>
      cases hto
      exact .accept hnew
  | enter n =>
    have hto : (if h.owner .lock = none then _ else none) = some h' := hto
    split at hto
    case isTrue hfree =>
      obtain ⟨c, hat, rfl⟩ := Option.map_eq_some_iff.mp hto
      exact .enter hfree hat
    case isFalse => cases hto
  | message self stale fuel params =>
    obtain ⟨hthere, rfl⟩ := begin_some hto
    exact .message hthere
  | hangup self =>
    obtain ⟨hthere, rfl⟩ := begin_some hto
    exact .hangup hthere
  | act self works =>
    obtain ⟨c, hact, rfl⟩ := Option.map_eq_some_iff.mp hto
    exact .act (Threads.act_cases hact)

/-! ## What every step keeps -/

/-- Who is in `userlist` has been numbered, and no program makes a change other than a
calm one or one of a nick. -/
structure Founded (h : Host) : Prop where
  listed : ∀ u ∈ h.state.userlist.items, u < h.state.nextUid
  renames : ∀ t, (h.todo t).Writes anyState Renames

theorem founded_init : Founded .init := ⟨fun _ hu => absurd hu List.not_mem_nil, fun _ => trivial⟩

theorem Renames.clientSocket {f : Server → Server} (hf : Renames f) (s : Server) (u : Uid) :
    ((f s).persons u).clientSocket = (s.persons u).clientSocket := by
  obtain hcalm | ⟨user, n, rfl⟩ := hf
  · exact hcalm.clientSocket s u
  · exact rename_clientSocket user n s u

theorem Renames.userlist {f : Server → Server} (hf : Renames f) (s : Server) :
    (f s).userlist.items.Sublist s.userlist.items := by
  obtain hcalm | ⟨user, n, rfl⟩ := hf
  · exact hcalm.userlist s
  · exact List.Sublist.refl _

theorem Renames.nextUid {f : Server → Server} (hf : Renames f) (s : Server) :
    (f s).nextUid = s.nextUid := by
  obtain hcalm | ⟨user, n, rfl⟩ := hf
  · exact hcalm.nextUid s
  · rfl

theorem mem_arrive {s : Server} {fd : Nat} {address : CStr} {u : Uid}
    (hu : u ∈ (s.arrive fd address).userlist.items) : u ∈ s.userlist.items ∨ u = s.nextUid := by
  have hu : u ∈ (s.userlist.append s.nextUid).items := hu
  unfold SimList.append at hu
  split at hu
  · exact Or.inl hu
  · simpa using hu

theorem parse_renames {stale : Nat → Nat} {fuel : Nat} {params : Params} :
    (parse cfg self stale fuel params).Writes anyState Renames :=
  parse_writes (fun _ => Or.inl) fun user _ _ => Or.inr ⟨user, _, rfl⟩

theorem disconnect_renames : (disconnect self).Writes anyState Renames :=
  disconnect_calm.mono (fun _ h => h) fun _ => Or.inl

/-- Another program for one thread. -/
theorem Founded.setTodo (hh : Founded h) {p : Act Unit} (hp : p.Writes anyState Renames) :
    Founded { h with toThreads := h.setTodo self p } where
  listed := hh.listed
  renames t := by
    show (if t = self then p else h.todo t).Writes anyState Renames
    split
    · exact hp
    · exact hh.renames t

theorem Founded.step (hh : Founded h) {m : Move} (hto : h.step cfg m = some h') : Founded h' := by
  cases step_cases hto with
  | accept hnew => exact ⟨hh.listed, hh.renames⟩
  | enter hfree hat =>
    refine ⟨fun u hu => ?_, hh.renames⟩
    obtain hold | rfl := mem_arrive hu
    · exact Nat.lt_succ_of_lt (hh.listed u hold)
    · exact Nat.lt_succ_self _
  | message hthere => exact hh.setTodo parse_renames
  | hangup hthere => exact hh.setTodo disconnect_renames
  | @act t works c hacts =>
    refine ⟨fun u hu => ?_, fun t' => ?_⟩
    · have hstate := hacts.state (hh.renames t)
      have hu : u ∈ c.state.userlist.items := hu
      show u < c.state.nextUid
      obtain hsame | ⟨f, hf, hstate⟩ := hstate
      · rw [hsame] at hu ⊢
        exact hh.listed u hu
      · rw [hstate] at hu ⊢
        rw [hf.nextUid]
        exact hh.listed u ((hf.userlist _).subset hu)
    · by_cases ht : t' = t
      · rw [ht]
        exact hacts.writes (hh.renames t) trivial
      · show (c.todo t').Writes anyState Renames
        rw [hacts.todo_ne ht]
        exact hh.renames t'

/-- No thread runs before its record is entered. -/
theorem idle_of_unentered {moves : List Move} {ok : Host → Move → Prop}
    (hpath : Path (Host.step cfg) ok .init moves h) :
    Founded h ∧ ∀ t, h.state.nextUid ≤ t → h.todo t = ret () := by
  refine hpath.invariant (fun h => Founded h ∧ ∀ t, h.state.nextUid ≤ t → h.todo t = ret ())
    ⟨founded_init, fun _ _ => rfl⟩ fun h m h' _ hto ⟨hh, hidle⟩ => ⟨hh.step hto, ?_⟩
  have hbegins : ∀ self p, self < h.state.nextUid → ∀ t, h.state.nextUid ≤ t →
      (h.setTodo self p).todo t = ret () := by
    intro self p hthere t ht
    rw [Threads.setTodo_ne p (Nat.ne_of_gt (Nat.lt_of_lt_of_le hthere ht))]
    exact hidle t ht
  cases step_cases hto with
  | accept hnew => exact hidle
  | enter hfree hat => exact fun t ht => hidle t (Nat.le_of_succ_le ht)
  | message hthere => exact hbegins _ _ hthere
  | hangup hthere => exact hbegins _ _ hthere
  | @act self works c hacts =>
    have hnext : c.state.nextUid = h.state.nextUid := by
      obtain hsame | ⟨f, hf, hstate⟩ := hacts.state (hh.renames self)
      · rw [hsame]
      · rw [hstate, hf.nextUid]
    intro t ht
    have ht : h.state.nextUid ≤ t := hnext ▸ ht
    have hne : t ≠ self := fun heq => hacts.todo_ne_ret (heq ▸ hidle t ht)
    exact (hacts.todo_ne hne).trans (hidle t ht)

end UchiNetworks.Chirc
