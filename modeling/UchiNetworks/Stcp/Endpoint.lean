import UchiNetworks.Lib.Run
import UchiNetworks.Stcp.ControlLoop

/-!
# STCP: the handshake, and two endpoints over a network

`transport_init` opens a connection and then runs `control_loop`. Its three
waiting loops (the client's for the SYN/ACK, the server's for the SYN and then
for the ACK) look at network data only, and call the same `recv_packet` as the
control loop does.

A `System` is two endpoints. The network needs no state of its own: it may hand
to one side any packet the other side has ever sent, as often as it likes and
in any order, and it may withhold packets forever; that is loss, duplication,
delay and reordering (`Deliverable`).
-/

namespace UchiNetworks.Stcp

open UchiNetworks.Lib

/-- `calloc`ed context with the random initial sequence number drawn. -/
def Context.init (iss : TcpSeq) (rto : Nat → UInt8) : Context :=
  { connectionState := .closed, initialSequenceNum := iss, sendUnack := 0, sendNext := 0,
    sendWind := 0, recvNext := 0, recvBuffer := fun _ => 0, recvIndicator := fun _ => false,
    rto := fun | 0 => 0 | n + 1 => rto n
    unackdPackets := [] }

/-- `transport_init` up to its first wait. The active side has sent its SYN. -/
def transportInit (isActive : Bool) (iss : TcpSeq) (rto : Nat → UInt8) : Endpoint :=
  let ctx := { Context.init iss rto with sendUnack := iss, sendNext := iss }
  if isActive then
    let syn := makeStcpPacket TH.syn iss 0 []
    { ctx := { packetTCreate ctx syn with sendNext := iss + 1, connectionState := .synSent }
      status := .opening
      calls := [.networkSend syn] }
  else
    { ctx := ctx, status := .opening, calls := [] }

/-- The client waits for a SYN/ACK that acknowledges its SYN. -/
def awaitSynAck (ctx : Context) (packet : Option Packet) : Context × Status × List Call :=
  let (ctx, header, tcplen) := recvPacket ctx packet
  if tcplen < 0 ∨ ¬(header.has TH.syn ∧ header.has TH.ack) then (ctx, .opening, [])
  else if header.thAck = ctx.sendNext then
    ({ ctx with connectionState := .established }, .running,
      [.networkSend (makeStcpPacket TH.ack ctx.sendNext ctx.recvNext [])])
  else (ctx, .opening, [])

/-- The server waits for a SYN and answers it; the SYN/ACK is listed twice. -/
def awaitSyn (ctx : Context) (packet : Option Packet) : Context × Status × List Call :=
  let ctx := { ctx with
    sendUnack := ctx.initialSequenceNum, sendNext := ctx.initialSequenceNum }
  let (ctx, header, tcplen) := recvPacket ctx packet
  if tcplen < 0 ∨ header.thFlags ≠ TH.syn then (ctx, .opening, [])
  else
    let synAck := makeStcpPacket (TH.syn ||| TH.ack) ctx.sendUnack ctx.recvNext []
    ({ packetTCreate (packetTCreate ctx synAck) synAck with
        connectionState := .synReceived, sendNext := ctx.sendNext + 1 },
      .opening, [.networkSend synAck])

/-- The server waits for the ACK of its SYN/ACK. -/
def awaitAck (ctx : Context) (packet : Option Packet) : Context × Status × List Call :=
  let (ctx, header, tcplen) := recvPacket ctx packet
  if tcplen < 0 ∨ ¬header.has TH.ack then (ctx, .opening, [])
  else if header.thAck = ctx.sendNext then
    ({ ctx with connectionState := .established }, .running, [])
  else (ctx, .opening, [])

/-- Network data in `transport_init`'s loops. Where the loop sets a timeout it
reads the first listed packet, whether there is one or not. -/
def openNetworkData (ctx : Context) (packet : Option Packet) :
    Context × Status × List Call :=
  if recvOverruns ctx packet then (ctx, .crashed, [])
  else
    match ctx.connectionState with
    | .synSent =>
      if ctx.unackdPackets.isEmpty then (ctx, .crashed, []) else awaitSynAck ctx packet
    | .closed => awaitSyn ctx packet
    | .synReceived =>
      if ctx.unackdPackets.isEmpty then (ctx, .crashed, []) else awaitAck ctx packet
    | _ => (ctx, .opening, [])

/-- One event at an endpoint. Out of the loop nothing is handled any more. -/
def Endpoint.step (ep : Endpoint) (ev : Event) : Endpoint :=
  match ep.status with
  | .opening =>
    match ev with
    | .networkData packet =>
      let (ctx, status, calls) := openNetworkData ep.ctx packet
      { ctx := ctx, status := status, calls := ep.calls ++ calls }
    | _ => ep
  | .running => controlLoop ep ev
  | _ => ep

/-! ## What a step can do -/

/-- The client's loop goes on waiting, or takes the SYN/ACK and answers it. -/
theorem awaitSynAck_cases (ctx : Context) (packet : Option Packet) :
    awaitSynAck ctx packet = ((recvPacket ctx packet).1, .opening, []) ∨
    (0 ≤ (recvPacket ctx packet).2.2 ∧ (recvPacket ctx packet).2.1.has TH.syn = true ∧
      (recvPacket ctx packet).2.1.has TH.ack = true ∧
      (recvPacket ctx packet).2.1.thAck = (recvPacket ctx packet).1.sendNext ∧
      awaitSynAck ctx packet =
        ({ (recvPacket ctx packet).1 with connectionState := .established }, .running,
          [.networkSend (makeStcpPacket TH.ack (recvPacket ctx packet).1.sendNext
            (recvPacket ctx packet).1.recvNext [])])) := by
  unfold awaitSynAck
  simp only
  split
  next => exact Or.inl rfl
  next hno =>
    split
    next hack =>
      rw [not_or, not_not] at hno
      exact Or.inr ⟨Int.not_lt.mp hno.1, hno.2.1, hno.2.2, hack, rfl⟩
    next => exact Or.inl rfl

/-- The server's first loop goes on waiting, or answers a SYN. -/
theorem awaitSyn_cases (ctx : Context) (packet : Option Packet) :
    let r := recvPacket { ctx with
      sendUnack := ctx.initialSequenceNum, sendNext := ctx.initialSequenceNum } packet
    let synAck := makeStcpPacket (TH.syn ||| TH.ack) r.1.sendUnack r.1.recvNext []
    awaitSyn ctx packet = (r.1, .opening, []) ∨
    (0 ≤ r.2.2 ∧ r.2.1.thFlags = TH.syn ∧
      awaitSyn ctx packet =
        ({ packetTCreate (packetTCreate r.1 synAck) synAck with
            connectionState := .synReceived, sendNext := r.1.sendNext + 1 },
          .opening, [.networkSend synAck])) := by
  unfold awaitSyn
  simp only
  split
  next => exact Or.inl rfl
  next hno =>
    rw [not_or, ne_eq, not_not] at hno
    exact Or.inr ⟨Int.not_lt.mp hno.1, hno.2, rfl⟩

/-- The server's second loop goes on waiting, or takes the ACK. -/
theorem awaitAck_cases (ctx : Context) (packet : Option Packet) :
    awaitAck ctx packet = ((recvPacket ctx packet).1, .opening, []) ∨
    (0 ≤ (recvPacket ctx packet).2.2 ∧ (recvPacket ctx packet).2.1.has TH.ack = true ∧
      (recvPacket ctx packet).2.1.thAck = (recvPacket ctx packet).1.sendNext ∧
      awaitAck ctx packet =
        ({ (recvPacket ctx packet).1 with connectionState := .established }, .running, [])) := by
  unfold awaitAck
  simp only
  split
  next => exact Or.inl rfl
  next hno =>
    split
    next hack =>
      rw [not_or, not_not] at hno
      exact Or.inr ⟨Int.not_lt.mp hno.1, hno.2, hack, rfl⟩
    next => exact Or.inl rfl

/-- What is said of another state than the one it is in. -/
theorem elsewhere {σ : Type} {s a b : σ} {P : Prop} (hne : a ≠ b) (ha : s = a)
    (hb : s = b) : P :=
  absurd (ha.symm.trans hb) hne

/-- During the handshake only network data is looked at. -/
theorem Endpoint.step_opening {ep : Endpoint} (hst : ep.status = .opening) (ev : Event) :
    ep.step ev = ep ∧ (∀ packet, ev ≠ .networkData packet) ∨
    ∃ packet, ev = .networkData packet ∧ ep.step ev =
      ⟨(openNetworkData ep.ctx packet).1, (openNetworkData ep.ctx packet).2.1,
        ep.calls ++ (openNetworkData ep.ctx packet).2.2⟩ := by
  unfold Endpoint.step
  rw [hst]
  cases ev with
  | networkData packet => exact Or.inr ⟨packet, rfl, rfl⟩
  | appData queued => exact Or.inl ⟨rfl, fun _ h => by cases h⟩
  | appCloseRequested => exact Or.inl ⟨rfl, fun _ h => by cases h⟩
  | timeout => exact Or.inl ⟨rfl, fun _ h => by cases h⟩

/-- Past the handshake a step is one iteration of the loop, or nothing but a
change of status. -/
theorem Endpoint.step_cases {ep : Endpoint} (hopen : ep.status ≠ .opening) (ev : Event) :
    (¬(ep.status = .running ∧ ep.ctx.timerFaults = false) ∧
      (ep.step ev).ctx = ep.ctx ∧ (ep.step ev).calls = ep.calls ∧
      (ep.step ev = ep ∨ (ep.step ev).status = .crashed)) ∨
    (ep.status = .running ∧ ep.ctx.timerFaults = false ∧
      ep.step ev = ⟨(handleEvent ep.ctx ev).1, (handleEvent ep.ctx ev).2.1,
        ep.calls ++ (handleEvent ep.ctx ev).2.2⟩) := by
  by_cases hrun : ep.status = .running
  · have hstep : ep.step ev = controlLoop ep ev := by
      unfold Endpoint.step
      rw [hrun]
    rw [hstep]
    unfold controlLoop
    split
    next hf => exact Or.inl ⟨fun h => by simp [h.2] at hf, rfl, rfl, Or.inr rfl⟩
    next hf => exact Or.inr ⟨hrun, by simpa using hf, rfl⟩
  · have hstep : ep.step ev = ep := by
      unfold Endpoint.step
      cases hst : ep.status with
      | opening => exact absurd hst hopen
      | running => exact absurd hst hrun
      | closed => rfl
      | gaveUp => rfl
      | crashed => rfl
    rw [hstep]
    exact Or.inl ⟨fun h => hrun h.1, rfl, rfl, Or.inl rfl⟩

/-- The endpoint after an event in the loop. -/
abbrev Endpoint.after (ep : Endpoint) (ev : Event) : Endpoint :=
  ⟨(handleEvent ep.ctx ev).1, (handleEvent ep.ctx ev).2.1, ep.calls ++ (handleEvent ep.ctx ev).2.2⟩

/-- A packet is handled to the end, unless a scan runs on before. -/
theorem handleEvent_network (ctx : Context) (packet : Option Packet) :
    handleEvent ctx (.networkData packet) = (ctx, .crashed, []) ∨
    handleEvent ctx (.networkData packet) =
      ((cutShort ctx packet).1, .crashed, (cutShort ctx packet).2) ∨
    handleEvent ctx (.networkData packet) =
      ((handleNetworkData ctx packet).1,
        if (handleNetworkData ctx packet).2.1 then .closed else .running,
        (handleNetworkData ctx packet).2.2) := by
  simp only [handleEvent]
  split
  next => exact Or.inl rfl
  next =>
    split
    next => exact Or.inr (Or.inl rfl)
    next => exact Or.inr (Or.inr rfl)

theorem handleEvent_whole {ctx : Context} {packet : Option Packet}
    (hrecv : recvOverruns ctx packet = false) (hslide : slideOverruns ctx packet = false) :
    handleEvent ctx (.networkData packet) =
      ((handleNetworkData ctx packet).1,
        if (handleNetworkData ctx packet).2.1 then .closed else .running,
        (handleNetworkData ctx packet).2.2) := by
  simp only [handleEvent, hrecv, hslide, Bool.false_eq_true, if_false]

/-- Without a payload nothing is scanned. -/
theorem handleEvent_bare {ctx : Context} {p : Packet} (hoff : p.header.thOff = offset)
    (hdata : p.data = []) :
    handleEvent ctx (.networkData (some p)) =
      ((handleNetworkData ctx (some p)).1,
        if (handleNetworkData ctx (some p)).2.1 then .closed else .running,
        (handleNetworkData ctx (some p)).2.2) := by
  refine handleEvent_whole (recvOverruns_bare hoff hdata) ?_
  unfold slideOverruns
  rw [recvPacket_taken (recvPayload_bare hoff hdata)]
  rfl

/-- Too short a datagram leaves a zero header, and nothing happens. -/
theorem handleNetworkData_none (ctx : Context) : handleNetworkData ctx none = (ctx, false, []) := by
  simp [handleNetworkData, recvPacket, ackCalls, deliver, teardown, STCPHeader.zero,
    STCPHeader.has]

theorem handleEvent_none (ctx : Context) :
    handleEvent ctx (.networkData none) = (ctx, .running, []) := by
  rw [handleEvent_whole rfl rfl, handleNetworkData_none]
  rfl

theorem handleEvent_status (ctx : Context) (ev : Event) :
    (handleEvent ctx ev).2.1 ≠ .opening := by
  cases ev with
  | appData queued => simp [handleEvent]
  | networkData packet =>
    rcases handleEvent_network ctx packet with heq | heq | heq
    · rw [heq]; exact nofun
    · rw [heq]; exact nofun
    · rw [heq]; simp only; split <;> decide
  | appCloseRequested => simp [handleEvent]
  | timeout => simp only [handleEvent]; split <;> decide

theorem Endpoint.step_not_opening {ep : Endpoint} (hopen : ep.status ≠ .opening) (ev : Event) :
    (ep.step ev).status ≠ .opening := by
  rcases ep.step_cases hopen ev with ⟨-, -, -, hst | hst⟩ | ⟨-, -, heq⟩
  · rw [hst]; exact hopen
  · rw [hst]; decide
  · rw [heq]; exact handleEvent_status _ _

/-- A step only adds to the history. -/
theorem Endpoint.step_calls (ep : Endpoint) (ev : Event) :
    ∃ new, (ep.step ev).calls = ep.calls ++ new := by
  unfold Endpoint.step
  split
  next =>
    cases ev with
    | networkData packet => exact ⟨_, rfl⟩
    | appData queued => exact ⟨[], (List.append_nil _).symm⟩
    | appCloseRequested => exact ⟨[], (List.append_nil _).symm⟩
    | timeout => exact ⟨[], (List.append_nil _).symm⟩
  next =>
    unfold controlLoop
    split
    next => exact ⟨[], (List.append_nil _).symm⟩
    next => exact ⟨_, rfl⟩
  next => exact ⟨[], (List.append_nil _).symm⟩

/-- The two ends of a connection. -/
inductive Side where
  | left
  | right
  deriving DecidableEq, Repr

def Side.other : Side → Side
  | .left => .right
  | .right => .left

@[simp] theorem Side.other_other (i : Side) : i.other.other = i := by cases i <;> rfl

@[simp] theorem Side.other_ne (i : Side) : i.other ≠ i := by cases i <;> decide

theorem Side.eq_or_other (i j : Side) : j = i ∨ j = i.other := by
  cases i <;> cases j <;> simp [Side.other]

/-- Both endpoints. -/
abbrev System := Side → Endpoint

/-- The two endpoints at the start of `transport_init`. -/
def opening (active : Side → Bool) (iss : Side → TcpSeq) (rto : Side → Nat → UInt8) : System :=
  fun i => transportInit (active i) (iss i) (rto i)

/-- The left side connects to the right one. -/
def leftActive : Side → Bool
  | .left => true
  | .right => false

/-- Initial sequence numbers for the runs shown as examples. -/
def firstNumbers : Side → TcpSeq
  | .left => 1
  | .right => 101

/-- Round trips there are so short that `rto` stays under a second. -/
def underASecond : Side → Nat → UInt8 := fun _ _ => 0

/-- The event `ev.2` happens at the side `ev.1`. -/
def System.step (s : System) (ev : Side × Event) : System :=
  Function.update s ev.1 ((s ev.1).step ev.2)

/-- The network hands over only what the other side has sent. -/
def Deliverable (s : System) : Side × Event → Prop
  | (i, .networkData packet) => ∃ p ∈ (s i.other).sent, packet = some p
  | _ => True

instance Deliverable.decidable (s : System) : ∀ ev, Decidable (Deliverable s ev)
  | (i, .networkData packet) =>
    inferInstanceAs (Decidable (∃ p ∈ (s i.other).sent, packet = some p))
  | (_, .appData _) => isTrue trivial
  | (_, .appCloseRequested) => isTrue trivial
  | (_, .timeout) => isTrue trivial

@[simp] theorem System.step_same (s : System) (i : Side) (ev : Event) :
    s.step (i, ev) i = (s i).step ev := by simp [System.step]

@[simp] theorem System.step_other (s : System) (i : Side) (ev : Event) :
    s.step (i, ev) i.other = s i.other := by simp [System.step]

theorem System.taken_step_le (s : System) (ev : Side × Event) (j : Side) :
    (s j).taken.length ≤ ((s.step ev) j).taken.length := by
  obtain ⟨i, e⟩ := ev
  rcases Side.eq_or_other i j with rfl | rfl
  · obtain ⟨new, hnew⟩ := (s j).step_calls e
    rw [step_same, Endpoint.taken, Endpoint.taken, hnew, takenOf_append, List.length_append]
    exact Nat.le_add_right _ _
  · exact Nat.le_of_eq (by rw [step_other])

end UchiNetworks.Stcp
