import UchiNetworks.Lib.Framing
import UchiNetworks.Router.Invariant

/-!
# The router: the session with the VNS server

`sr_read_from_server` reads one command from the server, its length first, and does
what it says: packets go to `sr_handlepacket`, hardware information fills the table of
interfaces, and the loop of `main` goes on until a command ends it. The commands come
through a TCP stream; how it is cut does not matter (`session_pieces`), and the
router sees exactly the packets among them, in their order (`session_packets`). So
what holds of every run of the router holds of every session (`session_inv`).

Mirroring notes vs the C:
- The stream is the pieces in which it comes. Where it ends the C waits, or spins
  when the connection is gone: no result.
- `buf` is the command without its length. What lies behind `buf` is out of bounds;
  the name of an interface that does not end before ends there.
- A `VNSPACKET` without its whole header counts as out of bounds, whatever its name.
- The texts that are printed, the log, the table that `VNS_RTABLE` writes and the reply
  to `VNS_AUTH_REQUEST` are left out. `Env.works` says whether the files and the `send`
  of a command work.
- A new interface is what `malloc` leaves (`SrInstance.heap`) until it is filled in.
-/

namespace UchiNetworks.Router

open UchiNetworks.Lib

/-! ## Commands -/

def vnsClose : Nat := 2
def vnsPacket : Nat := 4
def vnsHwinfo : Nat := 16
def vnsRtable : Nat := 32
def vnsAuthRequest : Nat := 128
def vnsAuthStatus : Nat := 512

/-- `ntohl` of the field at `off` -/
def readBe32 (buf : Bytes) (off : Nat) : Option Nat := do
  let hi ← readBe16 buf off
  let lo ← readBe16 buf (off + 2)
  some (65536 * hi + lo)

/-- The string at the start of `buf`. -/
def cName (buf : Bytes) : IfName := buf.takeWhile (· ≠ 0)

/-- What a command meets: the clock, and whether files and `send` work. -/
structure Env where
  now : Nat
  works : Bool

/-- The router, with the tables it has been told. -/
structure Vns where
  sr : SrInstance
  router : RouterState

/-- `sr_arp_req_not_for_us` -/
def srArpReqNotForUs (sr : SrInstance) (packet : Bytes) (interface : IfName) : Res Bool :=
  if packet.length < 42 then .ok false
  else do
    let iface ← getOr .assertion (getInterface sr interface)
    let etherType ← getOr .bounds (readBe16 packet 12)
    let op ← getOr .bounds (readBe16 packet 20)
    let tip ← getOr .bounds (readU32 packet 38)
    .ok (etherType = etherTypeARP ∧ op = arpRequest ∧ tip ≠ iface.ip)

/-- `sr_add_interface` -/
def srAddInterface (sr : SrInstance) (name : IfName) : SrInstance :=
  let left := (List.range 44).map sr.heap
  let fresh : SrIf :=
    { name := name.take 32
      addr := ⟨(left.drop 32).take 6, rfl⟩
      ip := (readU32 left 40).getD 0 }
  { sr with ifList := sr.ifList ++ [fresh] }

/-- Change the last interface of the list. -/
def setLastIf (sr : SrInstance) (f : SrIf → SrIf) : Res SrInstance :=
  match sr.ifList.getLast? with
  | none => .error .assertion
  | some last => .ok { sr with ifList := sr.ifList.dropLast ++ [f last] }

/-- `sr_set_ether_addr` -/
def srSetEtherAddr (sr : SrInstance) (addr : Mac) : Res SrInstance :=
  setLastIf sr fun iface => { iface with addr := addr }

/-- `sr_set_ether_ip` -/
def srSetEtherIp (sr : SrInstance) (ip : UInt32) : Res SrInstance :=
  setLastIf sr fun iface => { iface with ip := ip }

/-- One entry of `sr_handle_hwinfo`: 1 is `HWINTERFACE`, 32 `HWETHER`, 64 `HWETHIP`. -/
def hwEntry (sr : SrInstance) (entry : Bytes) : Res SrInstance := do
  let key ← getOr .bounds (readBe32 entry 0)
  if key = 1 then .ok (srAddInterface sr (cName (entry.drop 4)))
  else if key = 32 then do
    let addr ← getOr .bounds (readMac entry 4)
    srSetEtherAddr sr addr
  else if key = 64 then do
    let ip ← getOr .bounds (readU32 entry 4)
    srSetEtherIp sr ip
  else .ok sr

/-- `sr_handle_hwinfo`, of so many entries -/
def srHandleHwinfo (sr : SrInstance) : Nat → Bytes → Res SrInstance
  | 0, _ => .ok sr
  | n + 1, entries => do
    let sr ← hwEntry sr (entries.take 36)
    srHandleHwinfo sr n (entries.drop 36)

/-- `sr_verify_routing_table`, which is 0 when each route has its interface -/
def srVerifyRoutingTable (sr : SrInstance) : Nat :=
  if sr.ifList.isEmpty ∨ sr.routingTable.isEmpty then 999
  else (sr.routingTable.filter fun rt =>
    !sr.ifList.any fun iface => sameName iface.name rt.interface).length

/-- `sr_handle_rtable`: the name of the host goes behind 7 characters in a buffer of 40. -/
def srHandleRtable (env : Env) (buf : Bytes) : Res Bool :=
  let host := cName (buf.drop 4)
  if host.length > 32 ∨ host.length = buf.length - 4 then .error .bounds
  else if !env.works then .ok false
  -- how much is written is counted from behind the 32 bytes of the name
  else if buf.length < 36 then .error .bounds
  else .ok true

/-- `sr_handle_auth_request`, which has sent its reply when all has worked -/
def srHandleAuthRequest (env : Env) : Bool := env.works

/-- `sr_handle_auth_status` -/
def srHandleAuthStatus (buf : Bytes) : Res Bool := do
  let authOk ← getOr .bounds buf[4]?
  .ok (authOk ≠ 0)

/-- The `switch` of `sr_read_from_server_expect`: what it returns, and what has changed. -/
def serveCommand (env : Env) (s : Vns) (command : Nat) (buf : Bytes) : Res (Int × Vns) :=
  if command = vnsPacket then
    -- the length is counted from the 24 bytes in front of the frame
    if buf.length < 20 then .error .bounds
    else do
      let interface := cName (buf.drop 4)
      let notForUs ← srArpReqNotForUs s.sr (buf.drop 20) interface
      if notForUs then .ok (1, s)
      else do
        let router ← srHandlepacket s.sr s.router (buf.drop 20) interface env.now
        .ok (1, { s with router := router })
  else if command = vnsClose then .ok (0, s)
  else if command = vnsHwinfo then do
    let sr ← srHandleHwinfo s.sr ((buf.length - 4) / 36) (buf.drop 4)
    .ok (if srVerifyRoutingTable sr = 0 then 1 else -1, { s with sr := sr })
  else if command = vnsRtable then do
    let handled ← srHandleRtable env buf
    .ok (if handled then 1 else -1, s)
  else if command = vnsAuthRequest then .ok (if srHandleAuthRequest env then 1 else -1, s)
  else if command = vnsAuthStatus then do
    let handled ← srHandleAuthStatus buf
    .ok (if handled then 1 else -1, s)
  else .ok (1, s)

/-- One command, once it has been read. `expected` is 0 when any will do. -/
def runCommand (expected : Nat) (env : Env) (s : Vns) (buf : Bytes) : Res (Int × Vns) := do
  let command ← getOr .bounds (readBe32 buf 0)
  if expected ≠ 0 ∧ command ≠ expected ∧ command ≠ vnsClose then .ok (-1, s)
  else serveCommand env s command buf

/-- `sr_read_from_server_expect`; `none` while the command has not all come -/
def srReadFromServerExpect (expected : Nat) (env : Env) (s : Vns) (sock : List Bytes) :
    Option (Res (Int × Vns) × List Bytes) :=
  (readFull 4 sock).bind fun head =>
    let len := (readBe32 head.1 0).getD 0
    -- a length that is negative as an `int` is too large as well
    if len > 10000 then some (.ok (-1, s), head.2)
    else (readFull (len - 4) head.2).map fun body => (runCommand expected env s body.1, body.2)

/-- The loop of `main`, for `fuel` commands from the `k`-th on: what it has come to, and
what ended it. -/
def session (env : Nat → Env) : Nat → Nat → Vns → List Bytes → Res (Vns × Option Int)
  | 0, _, s, _ => .ok (s, none)
  | fuel + 1, k, s, sock =>
    match srReadFromServerExpect 0 (env k) s sock with
    | none => .ok (s, none)
    | some (result, sock) => do
      let (ret, s) ← result
      if ret = 1 then session env fuel (k + 1) s sock else .ok (s, some ret)

/-! ## The stream -/

theorem expect_pieces (expected : Nat) (env : Env) (s : Vns) {sock sock' : List Bytes}
    (h : sock.flatten = sock'.flatten) :
    (srReadFromServerExpect expected env s sock = none ∧
      srReadFromServerExpect expected env s sock' = none) ∨
    ∃ result rest rest', srReadFromServerExpect expected env s sock = some (result, rest) ∧
      srReadFromServerExpect expected env s sock' = some (result, rest') ∧
      rest.flatten = rest'.flatten := by
  unfold srReadFromServerExpect
  rcases readFull_pieces 4 h with ⟨hnone, hnone'⟩ | ⟨head, body, body', hsome, hsome', hbody⟩
  · left
    rw [hnone, hnone']
    exact ⟨rfl, rfl⟩
  · rw [hsome, hsome', Option.bind_some, Option.bind_some]
    by_cases hlong : (readBe32 head 0).getD 0 > 10000
    · right
      exact ⟨_, body, body', if_pos hlong, if_pos hlong, hbody⟩
    · rw [if_neg hlong, if_neg hlong]
      rcases readFull_pieces ((readBe32 head 0).getD 0 - 4) hbody with
        ⟨hnone, hnone'⟩ | ⟨buf, rest, rest', hbuf, hbuf', hrest⟩
      · left
        rw [hnone, hnone']
        exact ⟨rfl, rfl⟩
      · right
        rw [hbuf, hbuf']
        exact ⟨_, rest, rest', rfl, rfl, hrest⟩

/-- **How the stream is cut does not matter**, whatever it holds. -/
theorem session_pieces (env : Nat → Env) (fuel k : Nat) (s : Vns) {sock sock' : List Bytes}
    (h : sock.flatten = sock'.flatten) :
    session env fuel k s sock = session env fuel k s sock' := by
  induction fuel generalizing k s sock sock' with
  | zero => rfl
  | succ fuel ih =>
    rw [session, session]
    rcases expect_pieces 0 (env k) s h with ⟨hnone, hnone'⟩ | ⟨result, rest, rest', hs, hs', hrest⟩
    · rw [hnone, hnone']
    · rw [hs, hs']
      cases result with
      | error fault => rfl
      | ok r =>
        obtain ⟨ret, s⟩ := r
        show (if ret = 1 then _ else _) = (if ret = 1 then _ else _)
        rw [ih (k + 1) s hrest]

/-- The hardware of the router, a packet for it, and the end of the session. -/
def closingCommands : List Bytes :=
  [[0, 0, 0, 16] ++ [0, 0, 0, 1, 0x65] ++ List.replicate 31 0 ++
      [0, 0, 0, 32, 2, 0, 0, 0, 0, 1] ++ List.replicate 26 0 ++
      [0, 0, 0, 64, 10, 0, 0, 1] ++ List.replicate 28 0,
    [0, 0, 0, 4, 0x65] ++ List.replicate 15 0 ++ gatewayReply,
    [0, 0, 0, 2]]

/-- What they look like on the way. -/
def closingStream : Bytes :=
  [0, 0, 0, 116] ++ closingCommands.flatten.take 112 ++
    [0, 0, 0, 66] ++ (closingCommands.flatten.drop 112).take 62 ++ [0, 0, 0, 8, 0, 0, 0, 2]

/-- The router before it knows its hardware. -/
def gatewayVns : Vns :=
  { sr := { gatewayRouter with ifList := [] }, router := srInit gatewayRouter }

def calmEnv (k : Nat) : Env := { now := k, works := true }

theorem session_pieces_closing :
    session calmEnv 5 0 gatewayVns [closingStream] =
      session calmEnv 5 0 gatewayVns [closingStream.take 3, [], closingStream.drop 3] :=
  session_pieces calmEnv 5 0 gatewayVns (by decide +kernel)

/-- The server ends the session. -/
theorem closing_ends :
    ∃ s', session calmEnv 5 0 gatewayVns [closingStream.take 3, [], closingStream.drop 3] =
      .ok (s', some 0) ∧ s'.sr.ifList = gatewayRouter.ifList := by
  have hend : (do
      let (s', ret) ← session calmEnv 5 0 gatewayVns
        [closingStream.take 3, [], closingStream.drop 3]
      .ok (s'.sr.ifList, ret)) = (.ok (gatewayRouter.ifList, some 0) : Res _) := by
    decide +kernel
  obtain ⟨⟨s', ret⟩, hs, hret⟩ := bind_ok.mp hend
  obtain ⟨hlist, rfl⟩ := Prod.mk.inj (Except.ok.inj hret)
  exact ⟨s', hs, hlist⟩

/-! ## The commands in it -/

/-- Four bytes in network order. -/
def be32 (n : Nat) : Bytes := be16 (n / 65536) ++ be16 n

/-- Each command behind its length, which counts itself. -/
def vnsCommands : Framing UInt8 where
  headLen := 4
  header := fun n => be32 (n + 4)
  size := fun head => (readBe32 head 0).getD 0 - 4
  header_length := fun _ => rfl
  pos := by decide

/-- A command that is not too long to be read. -/
def Sendable (buf : Bytes) : Prop := buf.length + 4 ≤ 10000

instance (buf : Bytes) : Decidable (Sendable buf) :=
  inferInstanceAs (Decidable (buf.length + 4 ≤ 10000))

/-- The commands one after another, until one ends the session. -/
def serveAll (env : Nat → Env) : Nat → Vns → List Bytes → Res (Vns × Option Int)
  | _, s, [] => .ok (s, none)
  | k, s, buf :: bufs => do
    let (ret, s) ← runCommand 0 (env k) s buf
    if ret = 1 then serveAll env (k + 1) s bufs else .ok (s, some ret)

theorem readBe32_be32 {n : Nat} (h : n < 2 ^ 32) : readBe32 (be32 n) 0 = some n := by
  have hbytes : be32 n = [UInt8.ofNat (n / 65536 / 256), UInt8.ofNat (n / 65536),
      UInt8.ofNat (n / 256), UInt8.ofNat n] := rfl
  rw [hbytes]
  simp only [readBe32, readBe16, Nat.zero_add, Nat.reduceAdd, List.getElem?_cons_zero,
    List.getElem?_cons_succ, Option.bind_eq_bind, Option.bind_some, UInt8.toNat_ofNat',
    Option.some.injEq]
  omega

theorem Sendable.told {buf : Bytes} (h : Sendable buf) : vnsCommands.Told buf := by
  have hlen : buf.length + 4 < 2 ^ 32 := by
    unfold Sendable at h
    omega
  show (readBe32 (be32 (buf.length + 4)) 0).getD 0 - 4 = buf.length
  rw [readBe32_be32 hlen]
  rfl

/-- While what comes is commands, each is read as a record and served. -/
theorem expect_command {env : Env} {s : Vns} {buf tail : Bytes} {sock : List Bytes}
    (hsend : Sendable buf) (hpre : sock.flatten <+: vnsCommands.frame buf ++ tail) :
    srReadFromServerExpect 0 env s sock =
      (vnsCommands.read sock).map fun r => (runCommand 0 env s r.1, r.2) := by
  show (readFull 4 sock).bind _ = ((readFull 4 sock).bind _).map _
  rcases readFull_eq 4 sock with ⟨-, hnone⟩ | ⟨hle, rest, hsome, -⟩
  · rw [hnone]
    rfl
  · -- the length is there, and it is that of the command
    have hhead : sock.flatten.take 4 = be32 (buf.length + 4) := by
      obtain ⟨more, hmore⟩ := hpre
      have htake := congrArg (List.take 4) hmore
      rw [List.take_append_of_le_length hle] at htake
      exact htake
    have hlen : (readBe32 (be32 (buf.length + 4)) 0).getD 0 = buf.length + 4 := by
      rw [readBe32_be32 (by unfold Sendable at hsend; omega)]
      rfl
    have hshort : ¬ buf.length + 4 > 10000 := Nat.not_lt.mpr hsend
    rw [hsome, hhead, Option.bind_some, Option.bind_some]
    simp only [hlen, if_neg hshort]
    show _ = (readFull ((readBe32 (be32 (buf.length + 4)) 0).getD 0 - 4) rest).map _
    rw [hlen]

theorem session_records (env : Nat → Env) (fuel k : Nat) (s : Vns) {bufs : List Bytes}
    (hsend : ∀ buf ∈ bufs, Sendable buf) {sock : List Bytes}
    (hpre : sock.flatten <+: vnsCommands.stream bufs) :
    session env fuel k s sock = serveAll env k s (vnsCommands.records fuel sock) := by
  induction fuel generalizing k s bufs sock with
  | zero => rfl
  | succ fuel ih =>
    rw [session, Framing.records]
    cases bufs with
    | nil =>
      have hempty : sock.flatten.length < 4 := by
        rw [List.prefix_nil.mp hpre]
        decide
      have hnone : readFull 4 sock = none := readFull_none hempty
      have hread : vnsCommands.read sock = none := by
        show (readFull 4 sock).bind _ = none
        rw [hnone]
        rfl
      have hexpect : srReadFromServerExpect 0 (env k) s sock = none := by
        rw [srReadFromServerExpect, hnone]
        rfl
      rw [hexpect, hread]
      rfl
    | cons buf bufs =>
      have hbuf := hsend buf List.mem_cons_self
      have hstream : vnsCommands.stream (buf :: bufs) =
        vnsCommands.frame buf ++ vnsCommands.stream bufs := rfl
      rw [hstream] at hpre
      rw [expect_command hbuf hpre]
      rcases Framing.read_prefix hbuf.told hpre with ⟨-, hnone⟩ | ⟨rest, -, hrest, hsome⟩
      · rw [hnone]
        rfl
      · rw [hsome]
        show (do let (ret, s) ← runCommand 0 (env k) s buf; _) = serveAll env k s (buf :: _)
        rw [serveAll]
        cases runCommand 0 (env k) s buf with
        | error fault => rfl
        | ok r =>
          obtain ⟨ret, s⟩ := r
          show (if ret = 1 then _ else _) = (if ret = 1 then _ else _)
          rw [ih (k + 1) s (fun b hb => hsend b (List.mem_cons_of_mem _ hb)) hrest]

/-! ## The packets among them -/

/-- The tables after a command: hardware information changes them. -/
def tablesOf (sr : SrInstance) (buf : Bytes) : SrInstance :=
  if readBe32 buf 0 = some vnsHwinfo then
    match srHandleHwinfo sr ((buf.length - 4) / 36) (buf.drop 4) with
    | .ok sr => sr
    | .error _ => sr
  else sr

/-- The packet that a command hands to `sr_handlepacket`, if it does, with the tables. -/
def eventOf (sr : SrInstance) (env : Env) (buf : Bytes) : Option (SrInstance × Event) :=
  match readBe32 buf 0, srArpReqNotForUs sr (buf.drop 20) (cName (buf.drop 4)) with
  | some command, .ok false =>
    if command = vnsPacket then
      some (sr, { packet := buf.drop 20, interface := cName (buf.drop 4), now := env.now })
    else none
  | _, _ => none

/-- Those of a list of commands. -/
def eventsOf (env : Nat → Env) : Nat → SrInstance → List Bytes → List (SrInstance × Event)
  | _, _, [] => []
  | k, sr, buf :: bufs =>
    (eventOf sr (env k) buf).toList ++ eventsOf env (k + 1) (tablesOf sr buf) bufs

/-- A packet handled with the tables of its time. -/
def handlePacket (st : Option RouterState) (e : SrInstance × Event) : Option RouterState :=
  step e.1 st e.2

theorem eventOf_other {sr : SrInstance} {env : Env} {buf : Bytes} {command : Nat}
    (hcommand : readBe32 buf 0 = some command) (hother : command ≠ vnsPacket) :
    eventOf sr env buf = none := by
  unfold eventOf
  rw [hcommand]
  split
  · next heq _ => exact if_neg (Option.some.inj heq ▸ hother)
  · rfl

theorem result_eq {ret ret' : Int} {s s' : Vns}
    (h : (.ok (ret, s) : Res (Int × Vns)) = .ok (ret', s')) : s = s' :=
  congrArg Prod.snd (Except.ok.inj h)

theorem serveCommand_other {env : Env} {s s' : Vns} {command : Nat} {buf : Bytes} {ret : Int}
    (hpacket : command ≠ vnsPacket) (hhwinfo : command ≠ vnsHwinfo)
    (h : serveCommand env s command buf = .ok (ret, s')) : s' = s := by
  rw [serveCommand, if_neg hpacket] at h
  by_cases hclose : command = vnsClose
  · rw [if_pos hclose] at h
    exact (result_eq h).symm
  · rw [if_neg hclose, if_neg hhwinfo] at h
    by_cases hrtable : command = vnsRtable
    · rw [if_pos hrtable] at h
      obtain ⟨handled, -, h⟩ := bind_ok.mp h
      exact (result_eq h).symm
    · rw [if_neg hrtable] at h
      by_cases hrequest : command = vnsAuthRequest
      · rw [if_pos hrequest] at h
        exact (result_eq h).symm
      · rw [if_neg hrequest] at h
        by_cases hstatus : command = vnsAuthStatus
        · rw [if_pos hstatus] at h
          obtain ⟨handled, -, h⟩ := bind_ok.mp h
          exact (result_eq h).symm
        · rw [if_neg hstatus] at h
          exact (result_eq h).symm

theorem tablesOf_other {sr : SrInstance} {buf : Bytes} {command : Nat}
    (hcommand : readBe32 buf 0 = some command) (hother : command ≠ vnsHwinfo) :
    tablesOf sr buf = sr :=
  if_neg fun heq => hother (Option.some.inj (hcommand.symm.trans heq))

/-- One command: the router takes the packet in it, if there is one. -/
theorem runCommand_router {env : Env} {s s' : Vns} {buf : Bytes} {ret : Int}
    (h : runCommand 0 env s buf = .ok (ret, s')) :
    s'.sr = tablesOf s.sr buf ∧
      run handlePacket (some s.router) (eventOf s.sr env buf).toList = some s'.router := by
  obtain ⟨command, hread, h⟩ := bind_ok.mp h
  have hcommand : readBe32 buf 0 = some command := getOr_ok.mp hread
  rw [if_neg (fun hexpected => hexpected.1 rfl)] at h
  by_cases hpacket : command = vnsPacket
  · have hhwinfo : command ≠ vnsHwinfo := by
      rw [hpacket]
      decide
    rw [tablesOf_other hcommand hhwinfo]
    rw [serveCommand, if_pos hpacket] at h
    by_cases hshort : buf.length < 20
    · rw [if_pos hshort] at h
      cases h
    · rw [if_neg hshort] at h
      obtain ⟨notForUs, harp, h⟩ := bind_ok.mp h
      cases notForUs with
      | true =>
        have hnone : eventOf s.sr env buf = none := by
          unfold eventOf
          rw [hcommand, harp]
        rw [hnone]
        obtain rfl : s = s' := result_eq h
        exact ⟨rfl, rfl⟩
      | false =>
        have hsome : eventOf s.sr env buf = some (s.sr,
            { packet := buf.drop 20, interface := cName (buf.drop 4), now := env.now }) := by
          unfold eventOf
          rw [hcommand, harp]
          exact if_pos hpacket
        rw [if_neg Bool.false_ne_true] at h
        obtain ⟨router, hrouter, h⟩ := bind_ok.mp h
        obtain rfl : { s with router := router } = s' := result_eq h
        refine ⟨rfl, ?_⟩
        rw [hsome]
        show (srHandlepacket _ _ _ _ _).toOption = _
        rw [hrouter]
        rfl
  · rw [eventOf_other hcommand hpacket]
    by_cases hhwinfo : command = vnsHwinfo
    · have hclose : command ≠ vnsClose := by
        rw [hhwinfo]
        decide
      rw [serveCommand, if_neg hpacket, if_neg hclose, if_pos hhwinfo] at h
      obtain ⟨sr, htables, h⟩ := bind_ok.mp h
      obtain rfl : { s with sr := sr } = s' := result_eq h
      refine ⟨?_, rfl⟩
      rw [tablesOf, if_pos (hhwinfo ▸ hcommand), htables]
    · rw [tablesOf_other hcommand hhwinfo, serveCommand_other hpacket hhwinfo h]
      exact ⟨rfl, rfl⟩

theorem serveAll_router {env : Nat → Env} {k : Nat} {s s' : Vns} {bufs : List Bytes}
    {ret : Option Int} (h : serveAll env k s bufs = .ok (s', ret)) :
    ∃ served, served <+: bufs ∧ (ret = none → served = bufs) ∧
      s'.sr = served.foldl tablesOf s.sr ∧
      run handlePacket (some s.router) (eventsOf env k s.sr served) = some s'.router := by
  induction bufs generalizing k s with
  | nil =>
    obtain rfl : s = s' := congrArg Prod.fst (Except.ok.inj h)
    exact ⟨[], List.prefix_rfl, fun _ => rfl, rfl, rfl⟩
  | cons buf bufs ih =>
    obtain ⟨⟨r, mid⟩, hrun, h⟩ := bind_ok.mp h
    obtain ⟨hsr, hrouter⟩ := runCommand_router hrun
    by_cases hr : r = 1
    · have hrest : serveAll env (k + 1) mid bufs = .ok (s', ret) := by
        simpa only [hr, if_true] using h
      obtain ⟨served, hserved, hall, htables, hrun⟩ := ih hrest
      refine ⟨buf :: served, List.cons_prefix_cons.mpr ⟨rfl, hserved⟩, ?_, ?_, ?_⟩
      · intro hret
        rw [hall hret]
      · rw [List.foldl_cons, ← hsr]
        exact htables
      · rw [eventsOf, run_append, hrouter, ← hsr]
        exact hrun
    · -- this command ends the session
      have hend : (mid, some r) = (s', ret) := by
        simpa only [if_neg hr, Except.ok.injEq] using h
      obtain ⟨rfl, rfl⟩ := Prod.mk.inj hend
      refine ⟨[buf], List.cons_prefix_cons.mpr ⟨rfl, List.nil_prefix⟩, nofun, hsr, ?_⟩
      rw [eventsOf, run_append, hrouter]
      rfl

/-- **The router handles exactly the packets among the commands**, in their order and
with the tables of their time, up to the command that ends the session or as far as the
stream has come. -/
theorem session_packets {env : Nat → Env} {fuel k : Nat} {s s' : Vns} {bufs : List Bytes}
    {sock : List Bytes} {ret : Option Int} (hsend : ∀ buf ∈ bufs, Sendable buf)
    (hpre : sock.flatten <+: vnsCommands.stream bufs)
    (h : session env fuel k s sock = .ok (s', ret)) :
    ∃ served, served <+: bufs ∧
      (ret = none → sock.flatten = vnsCommands.stream bufs → bufs.length ≤ fuel → served = bufs) ∧
      s'.sr = served.foldl tablesOf s.sr ∧
      run handlePacket (some s.router) (eventsOf env k s.sr served) = some s'.router := by
  rw [session_records env fuel k s hsend hpre] at h
  obtain ⟨hrecords, hwhole⟩ := Framing.records_prefix (fun b hb => (hsend b hb).told) hpre fuel
  obtain ⟨served, hserved, hall, hrun⟩ := serveAll_router h
  refine ⟨served, hserved.trans hrecords, ?_, hrun⟩
  intro hret heq hfuel
  rw [hall hret, hwhole heq hfuel]

theorem closing_prefix : [closingStream.take 3, [], closingStream.drop 3].flatten <+:
    vnsCommands.stream closingCommands := by decide +kernel

theorem session_packets_closing :
    ∃ s', session calmEnv 5 0 gatewayVns [closingStream.take 3, [], closingStream.drop 3] =
        .ok (s', some 0) ∧
      ∃ served, served <+: closingCommands ∧ s'.sr = served.foldl tablesOf gatewayVns.sr ∧
        run handlePacket (some gatewayVns.router) (eventsOf calmEnv 0 gatewayVns.sr served) =
          some s'.router := by
  obtain ⟨s', hs, -⟩ := closing_ends
  obtain ⟨served, hserved, -, htables, hrun⟩ := session_packets (by decide) closing_prefix hs
  exact ⟨s', hs, served, hserved, htables, hrun⟩

/-! ## Tables that stay -/

theorem eventOf_tables {sr : SrInstance} {env : Env} {buf : Bytes} {e : SrInstance × Event}
    (h : e ∈ eventOf sr env buf) : e.1 = sr := by
  unfold eventOf at h
  split at h
  · next command _ _ =>
    by_cases hpacket : command = vnsPacket
    · rw [if_pos hpacket] at h
      obtain rfl := Option.some.inj h
      rfl
    · rw [if_neg hpacket] at h
      cases h
  · cases h

theorem eventsOf_tables {env : Nat → Env} {k : Nat} {sr : SrInstance} {bufs : List Bytes}
    (hhwinfo : ∀ buf ∈ bufs, readBe32 buf 0 ≠ some vnsHwinfo) :
    ∀ e ∈ eventsOf env k sr bufs, e.1 = sr := by
  induction bufs generalizing k with
  | nil => nofun
  | cons buf bufs ih =>
    intro e he
    have hsame : tablesOf sr buf = sr := if_neg (hhwinfo buf List.mem_cons_self)
    rw [eventsOf, hsame] at he
    rcases List.mem_append.mp he with hfirst | hlater
    · exact eventOf_tables (Option.mem_toList.mp hfirst)
    · exact ih (fun b hb => hhwinfo b (List.mem_cons_of_mem _ hb)) e hlater

/-- Between two hardware informations the session is a run of the router. -/
theorem run_handlePacket {sr : SrInstance} (st : Option RouterState)
    {events : List (SrInstance × Event)} (h : ∀ e ∈ events, e.1 = sr) :
    run handlePacket st events = run (step sr) st (events.map Prod.snd) := by
  induction events generalizing st with
  | nil => rfl
  | cons e events ih =>
    rw [run_cons, List.map_cons, run_cons, ih _ fun e he => h e (List.mem_cons_of_mem _ he)]
    rw [handlePacket, h e List.mem_cons_self]

theorem foldl_tables {sr : SrInstance} {bufs : List Bytes}
    (hhwinfo : ∀ buf ∈ bufs, readBe32 buf 0 ≠ some vnsHwinfo) :
    bufs.foldl tablesOf sr = sr := by
  induction bufs with
  | nil => rfl
  | cons buf bufs ih =>
    have hsame : tablesOf sr buf = sr := if_neg (hhwinfo buf List.mem_cons_self)
    rw [List.foldl_cons, hsame]
    exact ih fun b hb => hhwinfo b (List.mem_cons_of_mem _ hb)

theorem setLastIf_junkHop {sr sr' : SrInstance} {f : SrIf → SrIf}
    (h : setLastIf sr f = .ok sr') : sr'.junkHop = sr.junkHop := by
  unfold setLastIf at h
  split at h
  · cases h
  · obtain rfl := Except.ok.inj h
    rfl

theorem hwEntry_junkHop {sr sr' : SrInstance} {entry : Bytes} (h : hwEntry sr entry = .ok sr') :
    sr'.junkHop = sr.junkHop := by
  obtain ⟨key, -, h⟩ := bind_ok.mp h
  by_cases hname : key = 1
  · rw [if_pos hname] at h
    obtain rfl := Except.ok.inj h
    rfl
  · rw [if_neg hname] at h
    by_cases haddr : key = 32
    · rw [if_pos haddr] at h
      obtain ⟨addr, -, h⟩ := bind_ok.mp h
      exact setLastIf_junkHop h
    · rw [if_neg haddr] at h
      by_cases hip : key = 64
      · rw [if_pos hip] at h
        obtain ⟨ip, -, h⟩ := bind_ok.mp h
        exact setLastIf_junkHop h
      · rw [if_neg hip] at h
        obtain rfl := Except.ok.inj h
        rfl

theorem srHandleHwinfo_junkHop {sr sr' : SrInstance} {n : Nat} {entries : Bytes}
    (h : srHandleHwinfo sr n entries = .ok sr') : sr'.junkHop = sr.junkHop := by
  induction n generalizing sr entries with
  | zero =>
    obtain rfl := Except.ok.inj h
    rfl
  | succ n ih =>
    obtain ⟨mid, hentry, h⟩ := bind_ok.mp h
    exact (ih h).trans (hwEntry_junkHop hentry)

/-- What `sr_init` made before the hardware was known is right for it too. -/
theorem srInit_tablesOf (sr : SrInstance) (buf : Bytes) :
    srInit (tablesOf sr buf) = srInit sr := by
  have hjunk : (tablesOf sr buf).junkHop = sr.junkHop := by
    unfold tablesOf
    split
    · split
      · next htables => exact srHandleHwinfo_junkHop htables
      · rfl
    · rfl
  rw [srInit, hjunk]
  rfl

/-- **What holds of every run of the router holds of every session** in which only the
first command, if any, is hardware information. -/
theorem session_inv {env : Nat → Env} {fuel k : Nat} {s s' : Vns} {bufs : List Bytes}
    {sock : List Bytes} {ret : Option Int} (hsend : ∀ buf ∈ bufs, Sendable buf)
    (hhwinfo : ∀ buf ∈ bufs.tail, readBe32 buf 0 ≠ some vnsHwinfo)
    (hpre : sock.flatten <+: vnsCommands.stream bufs) (hinit : s.router = srInit s.sr)
    (h : session env fuel k s sock = .ok (s', ret)) :
    ∃ served, served <+: bufs ∧
      Inv s'.sr ((eventsOf env k s.sr served).map Prod.snd) s'.router := by
  obtain ⟨hrecords, -⟩ := Framing.records_prefix (fun b hb => (hsend b hb).told) hpre fuel
  rw [session_records env fuel k s hsend hpre] at h
  obtain ⟨served, hserved, -, htables, hrun⟩ := serveAll_router h
  refine ⟨served, hserved.trans hrecords, ?_⟩
  rw [hinit] at hrun
  cases served with
  | nil =>
    rw [htables]
    exact inv_run hrun
  | cons first later =>
    have hlater : ∀ buf ∈ later, readBe32 buf 0 ≠ some vnsHwinfo := by
      obtain ⟨more, hmore⟩ := hserved.trans hrecords
      intro buf hbuf
      refine hhwinfo buf ?_
      rw [← hmore]
      exact List.mem_append_left more hbuf
    rw [List.foldl_cons, foldl_tables hlater] at htables
    rw [htables]
    have hconst : ∀ e ∈ eventsOf env k s.sr (first :: later), e.1 = tablesOf s.sr first := by
      intro e he
      rcases List.mem_append.mp he with hfirst | hrest
      · -- a command with a packet in it has left the tables as they were
        by_cases hhw : readBe32 first 0 = some vnsHwinfo
        · rw [eventOf_other hhw (by decide)] at hfirst
          cases hfirst
        · rw [eventOf_tables (Option.mem_toList.mp hfirst), tablesOf, if_neg hhw]
      · exact eventsOf_tables hlater e hrest
    rw [← srInit_tablesOf s.sr first, run_handlePacket _ hconst] at hrun
    exact inv_run hrun

theorem session_inv_closing :
    ∃ s', session calmEnv 5 0 gatewayVns [closingStream.take 3, [], closingStream.drop 3] =
        .ok (s', some 0) ∧
      ∃ served, served <+: closingCommands ∧
        Inv s'.sr ((eventsOf calmEnv 0 gatewayVns.sr served).map Prod.snd) s'.router := by
  obtain ⟨s', hs, -⟩ := closing_ends
  exact ⟨s', hs, session_inv (by decide) (by decide) closing_prefix rfl hs⟩

end UchiNetworks.Router
