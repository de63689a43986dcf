import UchiNetworks.Lib.Window

/-!
# STCP: packets, the connection context, `recv_packet`

`stcp/transport.c` keeps one `context_t` for a connection and changes it in a
few places. This file embeds the data and the receive path; `ControlLoop` has
the loop around it.

Mirroring notes vs the C:
- `tcp_seq` is a 32-bit word, so `+`, `-` and `≤` on it are the machine's; the
  conversion of a difference to `int` is `BitVec.toInt`. `sizeAdd` and `sizeSub`
  are the `size_t` operations that a wrong `th_off` can make wrap; other sums the
  C makes in `size_t` do not overflow 64 bits and are made in `Nat`.
- `recv_buffer` and `recv_indicator` are functions on cell numbers; only the
  first `winLen` cells exist. A cell of the indicator is `'1'` or NUL, here a
  `Bool`.
- The scan `strchr(recv_indicator, '\0')` finds no NUL in an array that is full.
  It then looks at what lies behind, the first byte of `rto`: if that is 0 it has
  counted `winLen` cells, and else it runs on (`Context.overruns`). There the
  thread counts as crashed: what is counted is no number of bytes received, and
  where the window is to slide by it `memcpy` is given a negative length.
- Clock values (`start_time`, `rto`, `srtt`, `rttvar`) only decide *when* the
  loop times out, and a timeout may come at any time here; they and `update_rto`
  are in `Rto`. Of `rto` the first byte is here, which the clock makes anything
  whenever `packet_t_remove` is called. `recv_wind` is never read.
- A send to the network always succeeds; the network may drop the packet. The
  port and checksum fields, which it fills in, are sent as 0.
- The local buffer of `recv_packet` ends after `buffSize` bytes. What lies past
  it is not the function's to read; here it reads as zero (`Datagram`).
-/

namespace UchiNetworks.Stcp

open UchiNetworks.Lib

-- `MAXLEN`, `MAXOPS`, `WINLEN`, `HEADERSIZE`, `WORDSIZE` and `OFFSET` of `transport.c`
def maxLen : Nat := 536
def maxOps : Nat := 40
def winLen : Nat := 3072
def headerSize : Nat := 20
def wordSize : Nat := 4
def offset : BitVec 4 := 5

/-- `sizeof(STCPHeader) + MAXOPS + MAXLEN`, the size of the local buffer -/
def buffSize : Nat := headerSize + maxOps + maxLen

abbrev TcpSeq := BitVec 32

-- `TH_FIN`, `TH_SYN`, `TH_ACK`
def TH.fin : BitVec 8 := 0x01
def TH.syn : BitVec 8 := 0x02
def TH.ack : BitVec 8 := 0x10

/-- `STCPHeader` -/
structure STCPHeader where
  thSport : BitVec 16
  thDport : BitVec 16
  thSeq : TcpSeq
  thAck : TcpSeq
  thX2 : BitVec 4
  thOff : BitVec 4
  thFlags : BitVec 8
  thWin : BitVec 16
  thSum : BitVec 16
  thUrp : BitVec 16
  deriving DecidableEq, Repr

/-- Is the flag bit `f` set (`th_flags & f`)? -/
def STCPHeader.has (h : STCPHeader) (f : BitVec 8) : Bool := h.thFlags &&& f != 0

/-- The header `recv_packet` leaves behind when the datagram is too short. -/
def STCPHeader.zero : STCPHeader := ⟨0, 0, 0, 0, 0, 0, 0, 0, 0, 0⟩

/-- A datagram: the header and the bytes that follow it on the wire. -/
structure Packet where
  header : STCPHeader
  data : List UInt8
  deriving DecidableEq, Repr

/-- A 16-bit field on the wire. -/
def word16 (x : BitVec 16) : List UInt8 :=
  [UInt8.ofBitVec (x.extractLsb' 8 8), UInt8.ofBitVec (x.extractLsb' 0 8)]

/-- A 32-bit field on the wire. -/
def word32 (x : BitVec 32) : List UInt8 :=
  [UInt8.ofBitVec (x.extractLsb' 24 8), UInt8.ofBitVec (x.extractLsb' 16 8),
    UInt8.ofBitVec (x.extractLsb' 8 8), UInt8.ofBitVec (x.extractLsb' 0 8)]

/-- The header as it lies in memory. -/
def STCPHeader.bytes (h : STCPHeader) : List UInt8 :=
  word16 h.thSport ++ word16 h.thDport ++ word32 h.thSeq ++ word32 h.thAck ++
    [UInt8.ofBitVec (h.thOff ++ h.thX2), UInt8.ofBitVec h.thFlags] ++ word16 h.thWin ++
    word16 h.thSum ++ word16 h.thUrp

/-- The datagram as bytes. -/
def Packet.bytes (p : Packet) : List UInt8 := p.header.bytes ++ p.data

/-- `make_stcp_packet`, with the payload the caller copies behind the header. -/
def makeStcpPacket (flags : BitVec 8) (seq ack : TcpSeq) (data : List UInt8) : Packet :=
  { header := { STCPHeader.zero with
                thSeq := seq, thAck := ack, thOff := offset, thFlags := flags,
                thWin := BitVec.ofNat 16 winLen }
    data := data }

/-- `a - b` in `size_t`, for operands that fit in one. -/
def sizeSub (a b : Nat) : Nat := if b ≤ a then a - b else a + 0x10000000000000000 - b

/-- `a + b` in `size_t` -/
def sizeAdd (a b : Nat) : Nat := (a + b) % 0x10000000000000000

/-- `packlen - WORDSIZE * th_off` -/
def Packet.paylen (p : Packet) : Nat :=
  sizeSub (headerSize + p.data.length) (wordSize * p.header.thOff.toNat)

/-- `buff` after `stcp_network_recv`: it was zeroed, and takes no more of the
datagram than fits. -/
def Packet.buff (p : Packet) : List UInt8 := (p.bytes.take buffSize).rightpad buffSize 0

/-- `n` bytes from `payload` on, after the first `skip`. -/
def Packet.payload (p : Packet) (skip n : Nat) : List UInt8 :=
  ((p.buff.drop (wordSize * p.header.thOff.toNat + skip)).take n).rightpad n 0

/-- `packet_t`, an entry of the send buffer. -/
structure PacketT where
  retryCount : Nat
  seqNum : TcpSeq
  packet : Packet
  deriving DecidableEq, Repr

/-- The `CSTATE_*` values. -/
inductive CState where
  | established
  | synSent
  | synReceived
  | finWait1
  | finWait2
  | closeWait
  | lastAck
  | closing
  | closed
  deriving DecidableEq, Repr

/-- `context_t` -/
structure Context where
  connectionState : CState
  initialSequenceNum : TcpSeq
  sendUnack : TcpSeq
  sendNext : TcpSeq
  sendWind : TcpSeq
  recvNext : TcpSeq
  recvBuffer : Nat → UInt8
  recvIndicator : Nat → Bool
  /-- the first byte of `rto`: now, and after each `packet_t_remove` to come -/
  rto : Nat → UInt8
  unackdPackets : List PacketT

/-- `packet_t_create`: called before `send_next` is updated. -/
def packetTCreate (ctx : Context) (packet : Packet) : Context :=
  { ctx with unackdPackets := ctx.unackdPackets ++ [⟨0, ctx.sendNext, packet⟩] }

/-- Is all the data of a listed packet acknowledged? The sum is a `size_t`. -/
def PacketT.acked (sendUnack : TcpSeq) (q : PacketT) : Bool :=
  decide (q.seqNum.toNat + q.packet.data.length ≤ sendUnack.toNat)

/-- `packet_t_remove`: drop acknowledged packets from the front, stop at the
first that is not. `update_rto` is called for each that is looked at. -/
def packetTRemove (ctx : Context) : Context :=
  { ctx with
    unackdPackets := ctx.unackdPackets.dropWhile (PacketT.acked ctx.sendUnack)
    rto := fun n => ctx.rto (n + 1) }

/-- What `recv_packet` does with a payload: the cell it goes to, how many of
its bytes are skipped, how many are stored, and whether all of it is old
(`data_to_app = -2`). -/
structure Clip where
  cell : Nat
  skip : Nat
  len : Nat
  old : Bool

/-- The case distinction on `buffer_offset`; `none` is the early `return -1`
for a packet beyond the window. -/
def clipPayload (recvNext : TcpSeq) (p : Packet) : Option Clip :=
  let bufferOffset := (p.header.thSeq - recvNext).toInt
  if bufferOffset < 0 then
    if sizeAdd p.header.thSeq.toNat p.paylen ≤ recvNext.toNat then
      some ⟨0, 0, 0, true⟩
    else
      let past := (recvNext - p.header.thSeq).toNat
      some ⟨0, past, min winLen (sizeSub p.paylen past), false⟩
  else if bufferOffset > winLen then none
  else some ⟨bufferOffset.toNat, 0, min (winLen - bufferOffset.toNat) p.paylen, false⟩

/-- Store a clipped payload, advance `recv_next` over the run of arrived bytes,
and say how many bytes there are for the application. -/
def storeClip (ctx : Context) (p : Packet) (c : Clip) : Context × Int :=
  let indicator := markAt ctx.recvIndicator c.cell c.len
  let arrived := firstGap indicator winLen
  ({ ctx with
      recvBuffer := writeAt ctx.recvBuffer c.cell (p.payload c.skip c.len)
      recvIndicator := indicator
      recvNext := ctx.recvNext + BitVec.ofNat 32 arrived },
    if c.old then -2 else arrived)

/-- The payload part of `recv_packet`. -/
def recvPayload (ctx : Context) (p : Packet) : Option (Context × Int) :=
  if p.paylen = 0 then some (ctx, 0)
  else (clipPayload ctx.recvNext p).map (storeClip ctx p)

/-- `strchr` runs on behind the indicator: the array is full, and the byte behind it
is no NUL either. -/
def Context.overruns (ctx : Context) : Bool :=
  decide (firstGap ctx.recvIndicator winLen = winLen) && decide (ctx.rto 0 ≠ 0)

/-- It does so in `recv_packet`, where a payload is stored. -/
def recvOverruns (ctx : Context) : Option Packet → Bool
  | none => false
  | some p =>
    if p.paylen = 0 then false
    else (recvPayload ctx p).any fun r => r.1.overruns

/-- The number up to which the peer has everything, once `h` has been seen. -/
def ackPoint (unack : TcpSeq) (h : STCPHeader) : TcpSeq :=
  if h.has TH.ack ∧ unack ≤ h.thAck then h.thAck else unack

/-- `if packet acknowledges previously unacknowledged data, update send_unack` -/
def updateSendUnack (ctx : Context) (h : STCPHeader) : Context :=
  if h.has TH.ack ∧ ctx.sendUnack ≤ h.thAck then { ctx with sendUnack := h.thAck } else ctx

/-- `if packet is a SYN, set ctx->recv_next` -/
def updateRecvNext (ctx : Context) (h : STCPHeader) : Context :=
  if h.has TH.syn then { ctx with recvNext := h.thSeq + 1 } else ctx

/-- `also update sender window size` -/
def updateSendWind (ctx : Context) (h : STCPHeader) : Context :=
  { ctx with sendWind := if h.thWin.toNat ≤ winLen then h.thWin.setWidth 32
                         else BitVec.ofNat 32 winLen }

/-- The header part of `recv_packet`. -/
def recvHeader (ctx : Context) (h : STCPHeader) : Context :=
  updateSendWind (updateRecvNext (packetTRemove (updateSendUnack ctx h)) h) h

/-- `recv_packet`: the context after it, the header it fills in, and its return
value. `none` stands for a datagram shorter than a header. -/
def recvPacket (ctx : Context) : Option Packet → Context × STCPHeader × Int
  | none => (ctx, .zero, -1)
  | some p =>
    match recvPayload ctx p with
    | none => (ctx, p.header, -1)
    | some (ctx', dataToApp) => (recvHeader ctx' p.header, p.header, dataToApp)

/-! ## What the receive path leaves alone -/

@[simp] theorem makeStcpPacket_thSeq (f : BitVec 8) (s a : TcpSeq) (d : List UInt8) :
    (makeStcpPacket f s a d).header.thSeq = s := rfl

@[simp] theorem makeStcpPacket_thFlags (f : BitVec 8) (s a : TcpSeq) (d : List UInt8) :
    (makeStcpPacket f s a d).header.thFlags = f := rfl

@[simp] theorem makeStcpPacket_data (f : BitVec 8) (s a : TcpSeq) (d : List UInt8) :
    (makeStcpPacket f s a d).data = d := rfl

theorem makeStcpPacket_has (f : BitVec 8) (s a : TcpSeq) (d : List UInt8) (g : BitVec 8) :
    (makeStcpPacket f s a d).header.has g = (f &&& g != 0) := rfl

theorem unack_le_ackPoint (unack : TcpSeq) (h : STCPHeader) : unack ≤ ackPoint unack h := by
  unfold ackPoint
  split
  next hc => exact hc.2
  next => exact BitVec.le_refl _

theorem thAck_le_ackPoint (unack : TcpSeq) {h : STCPHeader} (hack : h.has TH.ack = true) :
    h.thAck ≤ ackPoint unack h := by
  unfold ackPoint
  split
  next => exact BitVec.le_refl _
  next hc =>
    rw [not_and] at hc
    exact BitVec.le_of_lt (BitVec.not_le.mp (hc hack))

theorem ackPoint_cases (unack : TcpSeq) (h : STCPHeader) :
    ackPoint unack h = unack ∨ (h.has TH.ack = true ∧ ackPoint unack h = h.thAck) := by
  unfold ackPoint
  split
  next hc => exact Or.inr ⟨hc.1, rfl⟩
  next => exact Or.inl rfl

theorem sizeSub_of_le {a b : Nat} (hle : b ≤ a) : sizeSub a b = a - b := if_pos hle

theorem sizeAdd_of_lt {a b : Nat} (hlt : a + b < 0x10000000000000000) : sizeAdd a b = a + b :=
  Nat.mod_eq_of_lt hlt

/-- Without options the payload is what follows the header. -/
theorem paylen_eq {p : Packet} (hoff : p.header.thOff = offset)
    (hlen : p.data.length ≤ maxLen) : p.paylen = p.data.length := by
  have h5 : (offset : BitVec 4).toNat = 5 := by decide
  unfold maxLen at hlen
  simp only [Packet.paylen, hoff, h5, headerSize, wordSize]
  rw [sizeSub_of_le (by omega)]
  omega

theorem STCPHeader.bytes_length (h : STCPHeader) : h.bytes.length = headerSize := rfl

theorem Packet.bytes_length (p : Packet) : p.bytes.length = headerSize + p.data.length := by
  rw [Packet.bytes, List.length_append, STCPHeader.bytes_length]

theorem payload_length (p : Packet) (skip n : Nat) : (p.payload skip n).length = n := by
  rw [Packet.payload, List.length_rightpad, List.length_take]
  omega

/-- The local buffer starts with the header. -/
theorem Packet.buff_eq (p : Packet) :
    p.buff = p.header.bytes ++ (p.data.take (maxOps + maxLen)).rightpad (maxOps + maxLen) 0 := by
  have htake : p.bytes.take buffSize = p.header.bytes ++ p.data.take (maxOps + maxLen) := by
    rw [Packet.bytes, List.take_append, STCPHeader.bytes_length,
      List.take_of_length_le (by rw [STCPHeader.bytes_length]; unfold buffSize; omega)]
    rfl
  rw [Packet.buff, htake, List.rightpad, List.rightpad, List.append_assoc, List.length_append,
    STCPHeader.bytes_length]
  congr 3
  unfold buffSize
  omega

/-- The local buffer holds the datagram as far as both reach. -/
theorem Packet.buff_getElem? {p : Packet} {i : Nat} (hbuff : i < buffSize)
    (hlen : i < p.bytes.length) : p.buff[i]? = p.bytes[i]? := by
  have hin : i < (p.bytes.take buffSize).length := by
    rw [List.length_take]
    omega
  rw [Packet.buff, List.rightpad, List.getElem?_append_left hin, List.getElem?_take_of_lt hbuff]

theorem payload_eq {p : Packet} {skip n : Nat} (hoff : p.header.thOff = offset)
    (hdata : p.data.length ≤ maxLen) (hlen : skip + n ≤ p.data.length) :
    p.payload skip n = (p.data.drop skip).take n := by
  have h5 : (offset : BitVec 4).toNat = 5 := by decide
  have hfits : p.bytes.length ≤ buffSize := by
    rw [p.bytes_length]
    unfold buffSize
    omega
  have hdrop : p.bytes.drop (wordSize * 5 + skip) = p.data.drop skip := by
    rw [Packet.bytes, List.drop_append, STCPHeader.bytes_length, List.drop_eq_nil_of_le
      (by rw [STCPHeader.bytes_length]; unfold headerSize wordSize; omega), List.nil_append]
    congr 1
    unfold headerSize wordSize
    omega
  have hfull : ((p.data.drop skip).take n).length = n := by
    simp only [List.length_take, List.length_drop]
    omega
  -- what is copied ends before the padding begins
  have hcopy : (p.buff.drop (wordSize * 5 + skip)).take n = (p.data.drop skip).take n := by
    have hstart : wordSize * 5 + skip ≤ p.bytes.length := by
      rw [p.bytes_length]
      unfold headerSize wordSize
      omega
    have hbuff : p.buff = p.bytes ++ List.replicate (buffSize - p.bytes.length) 0 := by
      rw [Packet.buff, List.take_of_length_le hfits, List.rightpad]
    rw [hbuff, List.drop_append_of_le_length hstart, hdrop,
      List.take_append_of_le_length (by rw [List.length_drop]; omega)]
  rw [Packet.payload, hoff, h5, hcopy, List.rightpad, hfull]
  simp

theorem paylen_bare {p : Packet} (hoff : p.header.thOff = offset) (hdata : p.data = []) :
    p.paylen = 0 := by
  rw [paylen_eq hoff (by rw [hdata]; exact Nat.zero_le _), hdata]
  rfl

/-- Beyond the window a datagram is dropped. -/
theorem clipPayload_none {recvNext : TcpSeq} {p : Packet} (hc : clipPayload recvNext p = none) :
    (winLen : Int) < (p.header.thSeq - recvNext).toInt := by
  unfold clipPayload at hc
  dsimp only at hc
  split at hc
  next =>
    split at hc
    next => cases hc
    next => cases hc
  next =>
    split at hc
    next hfar => exact hfar
    next => cases hc

/-- Without a payload there is nothing to store. -/
theorem recvPayload_bare {ctx : Context} {p : Packet} (hoff : p.header.thOff = offset)
    (hdata : p.data = []) : recvPayload ctx p = some (ctx, 0) := if_pos (paylen_bare hoff hdata)

/-- And nothing to scan. -/
theorem recvOverruns_bare {ctx : Context} {p : Packet} (hoff : p.header.thOff = offset)
    (hdata : p.data = []) : recvOverruns ctx (some p) = false := if_pos (paylen_bare hoff hdata)

/-- A datagram beyond the window is dropped, its header left to the caller. -/
theorem recvPacket_dropped {ctx : Context} {p : Packet} (h : recvPayload ctx p = none) :
    recvPacket ctx (some p) = (ctx, p.header, -1) := by
  simp only [recvPacket, h]

theorem recvPacket_taken {ctx ctx' : Context} {p : Packet} {n : Int}
    (h : recvPayload ctx p = some (ctx', n)) :
    recvPacket ctx (some p) = (recvHeader ctx' p.header, p.header, n) := by
  simp only [recvPacket, h]

/-- The fields `recv_packet`'s payload part does not write. -/
theorem recvPayload_frame {ctx ctx' : Context} {p : Packet} {n : Int}
    (h : recvPayload ctx p = some (ctx', n)) :
    ctx'.connectionState = ctx.connectionState ∧
    ctx'.initialSequenceNum = ctx.initialSequenceNum ∧ ctx'.sendUnack = ctx.sendUnack ∧
    ctx'.sendNext = ctx.sendNext ∧ ctx'.unackdPackets = ctx.unackdPackets := by
  unfold recvPayload at h
  split at h
  next =>
    obtain ⟨rfl, -⟩ := Prod.mk.inj (Option.some.inj h)
    exact ⟨rfl, rfl, rfl, rfl, rfl⟩
  next =>
    obtain ⟨c, -, hc⟩ := Option.map_eq_some_iff.mp h
    obtain ⟨rfl, -⟩ := Prod.mk.inj hc
    exact ⟨rfl, rfl, rfl, rfl, rfl⟩

/-- The header part writes `send_unack`, the send buffer, `send_wind` and, for
a SYN, `recv_next`. -/
theorem recvHeader_frame (ctx : Context) (h : STCPHeader) :
    (recvHeader ctx h).connectionState = ctx.connectionState ∧
    (recvHeader ctx h).initialSequenceNum = ctx.initialSequenceNum ∧
    (recvHeader ctx h).sendNext = ctx.sendNext ∧
    (recvHeader ctx h).recvBuffer = ctx.recvBuffer ∧
    (recvHeader ctx h).recvIndicator = ctx.recvIndicator := by
  unfold recvHeader updateSendWind updateRecvNext packetTRemove updateSendUnack
  split <;> split <;> exact ⟨rfl, rfl, rfl, rfl, rfl⟩

theorem recvHeader_recvNext (ctx : Context) (h : STCPHeader) :
    (recvHeader ctx h).recvNext = if h.has TH.syn then h.thSeq + 1 else ctx.recvNext := by
  unfold recvHeader updateSendWind updateRecvNext packetTRemove updateSendUnack
  split <;> split <;> rfl

theorem recvHeader_sendUnack (ctx : Context) (h : STCPHeader) :
    (recvHeader ctx h).sendUnack = ackPoint ctx.sendUnack h := by
  unfold recvHeader updateSendWind updateRecvNext packetTRemove updateSendUnack ackPoint
  split <;> split <;> rfl

theorem recvHeader_unackdPackets (ctx : Context) (h : STCPHeader) :
    (recvHeader ctx h).unackdPackets
      = ctx.unackdPackets.dropWhile (PacketT.acked (recvHeader ctx h).sendUnack) := by
  unfold recvHeader updateSendWind updateRecvNext packetTRemove updateSendUnack
  split <;> split <;> rfl

theorem recvHeader_rto (ctx : Context) (h : STCPHeader) (n : Nat) :
    (recvHeader ctx h).rto n = ctx.rto (n + 1) := by
  unfold recvHeader updateSendWind updateRecvNext packetTRemove updateSendUnack
  split <;> split <;> rfl

/-- `send_unack` only moves up. -/
theorem recvHeader_sendUnack_ge (ctx : Context) (h : STCPHeader) :
    ctx.sendUnack ≤ (recvHeader ctx h).sendUnack := by
  rw [recvHeader_sendUnack]
  exact unack_le_ackPoint _ _

theorem mem_recvHeader_unackd {ctx : Context} {h : STCPHeader} {q : PacketT}
    (hq : q ∈ (recvHeader ctx h).unackdPackets) : q ∈ ctx.unackdPackets := by
  rw [recvHeader_unackdPackets] at hq
  exact (List.dropWhile_sublist _).mem hq

end UchiNetworks.Stcp
