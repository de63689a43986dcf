import UchiNetworks.Stcp.Packet

/-!
# STCP: the control loop

`control_loop` waits for an event, handles it, and waits again. An iteration
whose event mask has several bits handles them in the order application data,
network data, close request; handling them as three events one after another
is the same thing, so an `Event` here is one bit of the mask (or `TIMEOUT`, the
empty mask).

Each handler returns the new context, whether the loop goes on, and the `Call`s
it makes to the layers around it, in the order it makes them. The list of all
calls an endpoint has ever made is its history; what the network may deliver
and what the applications have seen are read off it (`sent`, `taken`,
`delivered`).
-/

namespace UchiNetworks.Stcp

open UchiNetworks.Lib

/-- The calls of `stcp_api.h` that the transport layer makes. -/
inductive Call where
  | networkSend (p : Packet)
  | appRecv (bytes : List UInt8)
  | appSend (bytes : List UInt8)
  | finReceived
  deriving DecidableEq, Repr

/-- What `stcp_wait_for_event` reports, with the data it makes available: the
bytes the application has queued, or a datagram (`none` when it is too short). -/
inductive Event where
  | appData (queued : List UInt8)
  | networkData (packet : Option Packet)
  | appCloseRequested
  | timeout
  deriving DecidableEq, Repr

/-- Where the thread of an endpoint is: still in `transport_init`'s handshake,
in the control loop, or out of it: through `CLOSED`, after too many retries, or
in a NULL dereference or a scan that has left its array. -/
inductive Status where
  | opening
  | running
  | closed
  | gaveUp
  | crashed
  deriving DecidableEq, Repr

/-- The `APP_DATA` branch: read no more than the window lets us send. -/
def handleAppData (ctx : Context) (queued : List UInt8) : Context × List Call :=
  let openWindow := (ctx.sendWind - (ctx.sendNext - ctx.sendUnack)).toInt
  if openWindow > 0 then
    let sendSize := if openWindow > maxLen then maxLen else openWindow.toNat
    let buffer := queued.take sendSize
    if buffer.length > 0 then
      let packet := makeStcpPacket TH.ack ctx.sendNext ctx.recvNext buffer
      ({ packetTCreate ctx packet with
          sendNext := ctx.sendNext + BitVec.ofNat 32 buffer.length },
        [.appRecv buffer, .networkSend packet])
    else (ctx, [])
  else (ctx, [])

/-- `slide the window over`, and the indicator with it. -/
def slideWindow (ctx : Context) : Context :=
  let n := firstGap ctx.recvIndicator winLen
  { ctx with
    recvBuffer := slide ctx.recvBuffer 0 n winLen
    recvIndicator := slide ctx.recvIndicator false n winLen }

/-- `strchr` runs on where the window is to slide, after `recv_packet`. -/
def slideOverruns (ctx : Context) (packet : Option Packet) : Bool :=
  decide ((recvPacket ctx packet).2.2 > 0) && (recvPacket ctx packet).1.overruns

/-- `send ACK as long as it's not past our window, and actually contained data` -/
def ackCalls (ctx : Context) (dataSize : Int) : List Call :=
  if dataSize > 0 ∨ dataSize = -2 then
    [.networkSend (makeStcpPacket TH.ack ctx.sendNext ctx.recvNext [])]
  else []

/-- `send payload to application, if it's valid` -/
def deliver (ctx : Context) (dataSize : Int) : Context × List Call :=
  if dataSize > 0 then
    (slideWindow ctx, [.appSend (front ctx.recvBuffer dataSize.toNat)])
  else (ctx, [])

/-- Teardown on a packet with `TH_ACK`; `true` is the `break` out of the loop. -/
def teardownAck (ctx : Context) : Context × Bool :=
  match ctx.connectionState with
  | .finWait1 => ({ ctx with connectionState := .finWait2 }, false)
  | .lastAck => ({ ctx with connectionState := .closed }, true)
  | .closing => ({ ctx with connectionState := .closed }, true)
  | _ => (ctx, false)

/-- Teardown on a packet with `TH_FIN`: the FIN counts as a byte. -/
def teardownFin (ctx : Context) : Context × Bool × List Call :=
  let ctx := { ctx with recvNext := ctx.recvNext + 1 }
  let ack := .networkSend (makeStcpPacket TH.ack ctx.sendNext ctx.recvNext [])
  match ctx.connectionState with
  | .established => ({ ctx with connectionState := .closeWait }, false, [ack, .finReceived])
  | .finWait2 => ({ ctx with connectionState := .closed }, true, [ack])
  | .finWait1 => ({ ctx with connectionState := .closing }, false, [ack, .finReceived])
  | _ => (ctx, false, [ack])

/-- `deal with connection teardown, if need be` -/
def teardown (ctx : Context) (h : STCPHeader) : Context × Bool × List Call :=
  let (ctx, stop) := if h.has TH.ack then teardownAck ctx else (ctx, false)
  if stop then (ctx, true, [])
  else if h.has TH.fin then teardownFin ctx
  else (ctx, false, [])

/-- The `NETWORK_DATA` branch. -/
def handleNetworkData (ctx : Context) (packet : Option Packet) :
    Context × Bool × List Call :=
  let (ctx, header, dataSize) := recvPacket ctx packet
  let acks := ackCalls ctx dataSize
  let (ctx, sends) := deliver ctx dataSize
  let (ctx, stop, ends) := teardown ctx header
  (ctx, stop, acks ++ sends ++ ends)

/-- That branch when the slide fails: the data has been acknowledged and passed up. -/
def cutShort (ctx : Context) (packet : Option Packet) : Context × List Call :=
  let (ctx, _, dataSize) := recvPacket ctx packet
  let (ctx', sends) := deliver ctx dataSize
  (ctx', ackCalls ctx dataSize ++ sends)

/-- The `APP_CLOSE_REQUESTED` branch. -/
def handleClose (ctx : Context) : Context × List Call :=
  let fin := makeStcpPacket TH.fin ctx.sendNext ctx.recvNext []
  match ctx.connectionState with
  | .established =>
    ({ packetTCreate { ctx with sendUnack := ctx.sendUnack + 1 } fin with
        connectionState := .finWait1 }, [.networkSend fin])
  | .closeWait =>
    ({ packetTCreate ctx fin with
        sendNext := ctx.sendNext + 1, connectionState := .lastAck }, [.networkSend fin])
  | _ => (ctx, [])

/-- A listed packet as the `TIMEOUT` branch sends it again. -/
def PacketT.resend (recvNext : TcpSeq) (q : PacketT) : PacketT :=
  { q with
    retryCount := q.retryCount + 1
    packet := { q.packet with header := { q.packet.header with thAck := recvNext } } }

/-- The `TIMEOUT` branch: resend all packets, give up after too many retries. -/
def handleTimeout (ctx : Context) : Context × Bool × List Call :=
  let resent := ctx.unackdPackets.map (PacketT.resend ctx.recvNext)
  ({ ctx with unackdPackets := resent },
    ctx.unackdPackets.any (fun q => decide (q.retryCount > 6)),
    resent.map (fun q => .networkSend q.packet))

/-- An endpoint: its context, where its thread is, and its history. -/
structure Endpoint where
  ctx : Context
  status : Status
  calls : List Call

/-- Setting the timeout reads the first listed packet when something is
unacknowledged; with an empty list that is a NULL dereference. -/
def Context.timerFaults (ctx : Context) : Bool :=
  decide (ctx.sendUnack < ctx.sendNext) && ctx.unackdPackets.isEmpty

/-- The body of `control_loop` for one event: the context after it, where the
thread is then, and the calls made. -/
def handleEvent (ctx : Context) : Event → Context × Status × List Call
  | .appData queued =>
    let (ctx, calls) := handleAppData ctx queued
    (ctx, .running, calls)
  | .networkData packet =>
    if recvOverruns ctx packet then (ctx, .crashed, [])
    else if slideOverruns ctx packet then
      let (ctx, calls) := cutShort ctx packet
      (ctx, .crashed, calls)
    else
      let (ctx, stop, calls) := handleNetworkData ctx packet
      (ctx, if stop then .closed else .running, calls)
  | .appCloseRequested =>
    let (ctx, calls) := handleClose ctx
    (ctx, .running, calls)
  | .timeout =>
    let (ctx, giveup, calls) := handleTimeout ctx
    (ctx, if giveup then .gaveUp else .running, calls)

/-- One iteration of `control_loop`. -/
def controlLoop (ep : Endpoint) (ev : Event) : Endpoint :=
  if ep.ctx.timerFaults then { ep with status := .crashed }
  else
    let (ctx, status, calls) := handleEvent ep.ctx ev
    { ctx := ctx, status := status, calls := ep.calls ++ calls }

/-! ## Reading a history -/

/-- The packets handed to the network. -/
def sentOf (calls : List Call) : List Packet :=
  calls.filterMap fun | .networkSend p => some p | _ => none

/-- The bytes taken from the application with `stcp_app_recv`. -/
def takenOf (calls : List Call) : List UInt8 :=
  calls.flatMap fun | .appRecv bs => bs | _ => []

/-- The bytes handed to the application with `stcp_app_send`. -/
def deliveredOf (calls : List Call) : List UInt8 :=
  calls.flatMap fun | .appSend bs => bs | _ => []

abbrev Endpoint.sent (ep : Endpoint) : List Packet := sentOf ep.calls
abbrev Endpoint.taken (ep : Endpoint) : List UInt8 := takenOf ep.calls
abbrev Endpoint.delivered (ep : Endpoint) : List UInt8 := deliveredOf ep.calls

@[simp] theorem sentOf_append (xs ys : List Call) :
    sentOf (xs ++ ys) = sentOf xs ++ sentOf ys := List.filterMap_append

@[simp] theorem takenOf_append (xs ys : List Call) :
    takenOf (xs ++ ys) = takenOf xs ++ takenOf ys := List.flatMap_append

@[simp] theorem deliveredOf_append (xs ys : List Call) :
    deliveredOf (xs ++ ys) = deliveredOf xs ++ deliveredOf ys := List.flatMap_append

/-- Bytes are taken, and sent. -/
theorem takenOf_sends (calls : List Call) (bs : List UInt8) (p : Packet) :
    takenOf (calls ++ [.appRecv bs, .networkSend p]) = takenOf calls ++ bs := by
  rw [takenOf_append]
  exact congrArg (takenOf calls ++ ·) (List.append_nil bs)

theorem sentOf_sends (calls : List Call) (bs : List UInt8) (p : Packet) :
    sentOf (calls ++ [.appRecv bs, .networkSend p]) = sentOf calls ++ [p] :=
  sentOf_append _ _

/-- What the application-data branch can do: nothing, or send the next bytes,
no more than the window is open for. -/
theorem handleAppData_cases (ctx : Context) (queued : List UInt8) :
    handleAppData ctx queued = (ctx, []) ∨
    ∃ buffer : List UInt8, 0 < buffer.length ∧ buffer.length ≤ maxLen ∧
      (buffer.length : Int) ≤ (ctx.sendWind - (ctx.sendNext - ctx.sendUnack)).toInt ∧
      handleAppData ctx queued =
        ({ packetTCreate ctx (makeStcpPacket TH.ack ctx.sendNext ctx.recvNext buffer) with
            sendNext := ctx.sendNext + BitVec.ofNat 32 buffer.length },
          [.appRecv buffer,
            .networkSend (makeStcpPacket TH.ack ctx.sendNext ctx.recvNext buffer)]) := by
  unfold handleAppData
  simp only
  by_cases hopen : (ctx.sendWind - (ctx.sendNext - ctx.sendUnack)).toInt > 0
  · rw [if_pos hopen]
    obtain ⟨sendSize, hsize⟩ : ∃ n, n =
        if (ctx.sendWind - (ctx.sendNext - ctx.sendUnack)).toInt > maxLen then maxLen
        else (ctx.sendWind - (ctx.sendNext - ctx.sendUnack)).toInt.toNat := ⟨_, rfl⟩
    have hle : sendSize ≤ maxLen ∧
        (sendSize : Int) ≤ (ctx.sendWind - (ctx.sendNext - ctx.sendUnack)).toInt := by
      rw [hsize]
      split <;> omega
    rw [← hsize]
    split
    next hbuf =>
      have hlen : (queued.take sendSize).length ≤ sendSize := List.length_take_le _ _
      exact Or.inr ⟨_, hbuf, by omega, by omega, rfl⟩
    next => exact Or.inl rfl
  · rw [if_neg hopen]
    exact Or.inl rfl

end UchiNetworks.Stcp
