import UchiNetworks.Lib.Framing
import UchiNetworks.Stcp.Mysock

/-!
# STCP: datagrams through a TCP connection

`network_io_tcp.c` carries each packet through a TCP stream behind its length.
The receiving thread reads the length and then the packet, each with as many
`read`s as it takes. `datagrams_arrive`: what it queues for the transport layer
is what the peer has transmitted, packet by packet and in that order, however
the stream is cut into pieces, and wherever it ends.

Mirroring notes vs the C:
- A socket to read from is the pieces in which the stream comes; a `read` that
  gives 0 or fails is the end of them.
- `write` takes all it is given in the end, or the connection is over.
- The receiving thread leaves when it reads nothing, and dies when a packet is
  longer than its buffer.
-/

namespace UchiNetworks.Stcp

open UchiNetworks.Lib

-- `MAX_IP_PAYLOAD_LEN`
def maxIpPayloadLen : Nat := 1500

/-- `_tcp_io` with `read` -/
def tcpIo (count : Nat) (socket : List (List UInt8)) : Option (List UInt8 × List (List UInt8)) :=
  readFull count socket

/-- `ntohs` of the two bytes of `packet_len` -/
def packetLen : List UInt8 → Nat
  | [hi, lo] => hi.toNat * 256 + lo.toNat
  | _ => 0

/-- `_network_send_packet`: what it writes to the stream. -/
def networkSendPacket (src : List UInt8) : List UInt8 := word16 (BitVec.ofNat 16 src.length) ++ src

/-- What `_network_recv_packet` comes back with. -/
inductive Received where
  | packet (bytes : List UInt8) (socket : List (List UInt8))
  | nothing
  | tooLong (len : Nat)
  deriving DecidableEq, Repr

/-- `_network_recv_packet`; the rest of a packet that is too long is discarded. -/
def networkRecvPacket (maxLen : Nat) (socket : List (List UInt8)) : Received :=
  match tcpIo 2 socket with
  | none => .nothing
  | some (len, socket) =>
    match tcpIo (min (packetLen len) maxLen) socket with
    | none => .nothing
    | some (dst, socket) =>
      if min (packetLen len) maxLen = 0 then .nothing
      else if packetLen len > maxLen then .tooLong (packetLen len)
      else .packet dst socket

/-- `network_recv_thread_func`, for `fuel` rounds: what it has enqueued. -/
def networkRecvThread : Nat → List (List UInt8) → List (List UInt8)
  | 0, _ => []
  | fuel + 1, socket =>
    match networkRecvPacket maxIpPayloadLen socket with
    | .packet bytes socket => bytes :: networkRecvThread fuel socket
    | .nothing => []
    | .tooLong _ => []

/-- A packet as it lies in `packet_buf`; `none` when it is shorter than a header. -/
def Packet.ofBytes : List UInt8 → Option Packet
  | s₁ :: s₀ :: d₁ :: d₀ :: q₃ :: q₂ :: q₁ :: q₀ :: a₃ :: a₂ :: a₁ :: a₀ :: o :: f :: w₁ :: w₀ ::
      c₁ :: c₀ :: u₁ :: u₀ :: data => some
    { header :=
        { thSport := s₁.toBitVec ++ s₀.toBitVec
          thDport := d₁.toBitVec ++ d₀.toBitVec
          thSeq := q₃.toBitVec ++ q₂.toBitVec ++ q₁.toBitVec ++ q₀.toBitVec
          thAck := a₃.toBitVec ++ a₂.toBitVec ++ a₁.toBitVec ++ a₀.toBitVec
          thX2 := o.toBitVec.extractLsb' 0 4
          thOff := o.toBitVec.extractLsb' 4 4
          thFlags := f.toBitVec
          thWin := w₁.toBitVec ++ w₀.toBitVec
          thSum := c₁.toBitVec ++ c₀.toBitVec
          thUrp := u₁.toBitVec ++ u₀.toBitVec }
      data := data }
  | _ => none

/-! ## A packet in bytes -/

theorem word16_parts (x : BitVec 16) : (x.extractLsb' 8 8 ++ x.extractLsb' 0 8 : BitVec 16) = x := by
  apply BitVec.eq_of_getLsbD_eq
  intro i hi
  simp only [BitVec.getLsbD_append, BitVec.getLsbD_extractLsb']
  grind

theorem word32_parts (x : BitVec 32) :
    (x.extractLsb' 24 8 ++ x.extractLsb' 16 8 ++ x.extractLsb' 8 8 ++ x.extractLsb' 0 8 : BitVec 32)
      = x := by
  apply BitVec.eq_of_getLsbD_eq
  intro i hi
  simp only [BitVec.getLsbD_append, BitVec.getLsbD_extractLsb']
  grind

/-- **The bytes say it all.** -/
theorem Packet.ofBytes_bytes (p : Packet) : Packet.ofBytes p.bytes = some p := by
  obtain ⟨⟨sport, dport, seq, ack, x2, off, flags, win, sum, urp⟩, data⟩ := p
  have hoff : (off ++ x2 : BitVec 8).extractLsb' 4 4 = off := BitVec.extractLsb'_append_eq_left
  have hx2 : (off ++ x2 : BitVec 8).extractLsb' 0 4 = x2 := BitVec.extractLsb'_append_eq_right
  simp only [Packet.bytes, STCPHeader.bytes, word16, word32, List.cons_append, List.nil_append,
    Packet.ofBytes, word16_parts, word32_parts, hoff, hx2]

/-! ## The framing -/

/-- Each packet behind its length. -/
def datagrams : Framing UInt8 where
  headLen := 2
  header := fun n => word16 (BitVec.ofNat 16 n)
  size := packetLen
  header_length := fun _ => rfl
  pos := Nat.two_pos

theorem packetLen_word16 {n : Nat} (h : n < 65536) : packetLen (word16 (BitVec.ofNat 16 n)) = n := by
  have hhi : (UInt8.ofBitVec ((BitVec.ofNat 16 n).extractLsb' 8 8)).toNat = n / 256 % 256 := by
    simp [BitVec.extractLsb'_toNat, Nat.shiftRight_eq_div_pow]
    omega
  have hlo : (UInt8.ofBitVec ((BitVec.ofNat 16 n).extractLsb' 0 8)).toNat = n % 256 := by
    simp [BitVec.extractLsb'_toNat]
  show (UInt8.ofBitVec _).toNat * 256 + (UInt8.ofBitVec _).toNat = n
  rw [hhi, hlo]
  omega

theorem told_of_lt {src : List UInt8} (h : src.length < 65536) : datagrams.Told src :=
  packetLen_word16 h

/-- A packet that the receiving thread can take. -/
def Fitting (src : List UInt8) : Prop := 0 < src.length ∧ src.length ≤ maxIpPayloadLen

theorem Fitting.told {src : List UInt8} (h : Fitting src) : datagrams.Told src :=
  told_of_lt (Nat.lt_of_le_of_lt h.2 (by decide))

/-- `_network_recv_packet` reads one record, or finds that it has not all come. -/
theorem networkRecvPacket_eq {src tail : List UInt8} {socket : List (List UInt8)}
    (hfit : Fitting src) (h : socket.flatten <+: datagrams.frame src ++ tail) :
    networkRecvPacket maxIpPayloadLen socket = match datagrams.read socket with
      | none => .nothing
      | some (bytes, rest) => .packet bytes rest := by
  obtain ⟨hpos, hmax⟩ := hfit
  by_cases hshort : socket.flatten.length < 2
  · have hnone : readFull 2 socket = none := readFull_none hshort
    have hread : datagrams.read socket = none := by
      show (readFull 2 socket).bind _ = none
      rw [hnone]
      rfl
    rw [hread]
    simp only [networkRecvPacket, tcpIo, hnone]
  · -- the length can be read, and it is the packet's
    have hhead : word16 (BitVec.ofNat 16 src.length) <+: socket.flatten := by
      have hall : word16 (BitVec.ofNat 16 src.length) <+: datagrams.frame src ++ tail := by
        show _ <+: _ ++ src ++ tail
        rw [List.append_assoc]
        exact List.prefix_append _ _
      exact List.prefix_of_prefix_length_le hall h (Nat.not_lt.mp hshort)
    obtain ⟨body, hbody⟩ := hhead
    have hfull : ∃ rest, readFull 2 socket = some (word16 (BitVec.ofNat 16 src.length), rest) ∧
        rest.flatten = body := readFull_some hbody.symm rfl
    obtain ⟨rest, hsome, -⟩ := hfull
    have hlen : packetLen (word16 (BitVec.ofNat 16 src.length)) = src.length :=
      packetLen_word16 (Nat.lt_of_le_of_lt hmax (by decide))
    have hread : datagrams.read socket = readFull src.length rest := by
      show (readFull 2 socket).bind _ = _
      rw [hsome, Option.bind_some]
      show readFull (packetLen (word16 (BitVec.ofNat 16 src.length))) rest = _
      rw [hlen]
    rw [hread]
    simp only [networkRecvPacket, tcpIo, hsome, hlen, Nat.min_eq_left hmax]
    cases readFull src.length rest with
    | none => rfl
    | some r =>
      simp only [if_neg (Nat.pos_iff_ne_zero.mp hpos), if_neg (Nat.not_lt.mpr hmax)]

/-- The receiving thread reads records. -/
theorem networkRecvThread_eq {srcs : List (List UInt8)} {socket : List (List UInt8)}
    (hfit : ∀ src ∈ srcs, Fitting src) (h : socket.flatten <+: datagrams.stream srcs) (fuel : Nat) :
    networkRecvThread fuel socket = datagrams.records fuel socket := by
  induction fuel generalizing srcs socket with
  | zero => rfl
  | succ fuel ih =>
    cases srcs with
    | nil =>
      have hempty : socket.flatten = [] := List.prefix_nil.mp h
      have hnone : readFull 2 socket = none := readFull_none (by rw [hempty]; exact Nat.two_pos)
      have hread : datagrams.read socket = none := by
        show (readFull 2 socket).bind _ = none
        rw [hnone]
        rfl
      rw [Framing.records, hread, networkRecvThread, networkRecvPacket, tcpIo, hnone]
    | cons src srcs =>
      have hsrc := hfit src List.mem_cons_self
      have hstream : datagrams.stream (src :: srcs) = datagrams.frame src ++ datagrams.stream srcs :=
        rfl
      rw [hstream] at h
      rw [networkRecvThread, networkRecvPacket_eq hsrc h, Framing.records]
      by_cases hall : datagrams.frame src <+: socket.flatten
      · obtain ⟨tail, htail⟩ := hall
        obtain ⟨rest, hread, hrest⟩ := Framing.read_frame hsrc.told htail.symm
        rw [hread]
        have hnext : rest.flatten <+: datagrams.stream srcs := by
          rw [hrest]
          rw [← htail] at h
          exact (List.prefix_append_right_inj _).mp h
        exact congrArg (src :: ·) (ih (fun q hq => hfit q (List.mem_cons_of_mem _ hq)) hnext)
      · have hshort : socket.flatten <+: datagrams.frame src := by
          rcases List.prefix_or_prefix_of_prefix h (List.prefix_append _ _) with hpre | hpre
          · exact hpre
          · exact absurd hpre hall
        have hne : socket.flatten ≠ datagrams.frame src :=
          fun heq => hall (heq ▸ List.prefix_rfl)
        rw [Framing.read_short hsrc.told hshort hne]

/-! ## What a mysocket transmits -/

/-- No packet carries more than `MAXLEN` bytes. -/
structure Sized (m : Mysock) : Prop where
  sent : ∀ p ∈ m.endpoint.sent, p.data.length ≤ maxLen
  listed : ∀ q ∈ m.endpoint.ctx.unackdPackets, q.packet.data.length ≤ maxLen

theorem sized_handleEvent {ctx : Context} (ev : Event)
    (h : ∀ q ∈ ctx.unackdPackets, q.packet.data.length ≤ maxLen) :
    (∀ p ∈ sentOf (handleEvent ctx ev).2.2, p.data.length ≤ maxLen) ∧
    ∀ q ∈ (handleEvent ctx ev).1.unackdPackets, q.packet.data.length ≤ maxLen := by
  cases ev with
  | appData queued =>
    simp only [handleEvent]
    rcases handleAppData_cases ctx queued with heq | ⟨buffer, -, hmax, -, heq⟩
    · rw [heq]
      exact ⟨fun p hp => (by cases hp), h⟩
    · rw [heq]
      refine ⟨?_, ?_⟩
      · intro p hp
        rw [List.mem_singleton.mp (show p ∈ [_] from hp)]
        exact hmax
      · intro q hq
        rcases List.mem_append.mp hq with hold | hnew
        · exact h q hold
        · rw [List.mem_singleton.mp hnew]
          exact hmax
  | networkData packet =>
    refine ⟨?_, fun q hq => h q (handleEvent_listed hq)⟩
    intro p hp
    obtain ⟨s, a, rfl⟩ := mem_handleEvent hp
    exact Nat.zero_le _
  | appCloseRequested =>
    have hfin : ∀ p q : Packet, p ∈ [q] → q.data = [] → p.data.length ≤ maxLen := by
      intro p q hp hq
      rw [List.mem_singleton.mp hp, hq]
      exact Nat.zero_le _
    simp only [handleEvent, handleClose]
    split
    next =>
      refine ⟨fun p hp => hfin p _ hp rfl, ?_⟩
      intro q hq
      rcases List.mem_append.mp hq with hold | hnew
      · exact h q hold
      · rw [List.mem_singleton.mp hnew]
        exact Nat.zero_le _
    next =>
      refine ⟨fun p hp => hfin p _ hp rfl, ?_⟩
      intro q hq
      rcases List.mem_append.mp hq with hold | hnew
      · exact h q hold
      · rw [List.mem_singleton.mp hnew]
        exact Nat.zero_le _
    next => exact ⟨fun p hp => (by cases hp), h⟩
  | timeout =>
    refine ⟨?_, ?_⟩
    · intro p hp
      obtain ⟨q, hq, rfl⟩ := mem_handleTimeout hp
      exact h q hq
    · intro q hq
      obtain ⟨q', hq', rfl⟩ := List.mem_map.mp hq
      exact h q' hq'

theorem Sized.step {m m' : Mysock} {act : Act} (h : Sized m) (hstep : m.step act = some m') :
    Sized m' := by
  rcases Mysock.step_endpoint hstep with ⟨hctx, hcalls⟩ | ⟨-, ev, heq⟩
  · have hsent : m'.endpoint.sent = m.endpoint.sent := congrArg sentOf hcalls
    exact ⟨by rw [hsent]; exact h.sent, by rw [hctx]; exact h.listed⟩
  · obtain ⟨hnew, hlist⟩ := sized_handleEvent ev h.listed
    refine ⟨?_, by rw [heq]; exact hlist⟩
    rw [heq, Endpoint.sent, sentOf_append]
    intro p hp
    rcases List.mem_append.mp hp with hold | hp
    · exact h.sent p hold
    · exact hnew p hp

/-- **Datagrams arrive as they went out.** Whatever the threads do (but for a write of
0 bytes), take any part of the stream that a mysocket has written, from its start,
in any pieces: the peer's receiving thread enqueues the packets transmitted, none
twice, none out of order and none in part, and when the whole stream is there, all
of them. -/
theorem datagrams_arrive {ep : Endpoint} {isReliable : Bool} {acts : List Act} {m : Mysock}
    (hsized : Sized (Mysock.fresh ep isReliable)) (htaken : ep.taken = [])
    (hdelivered : ep.delivered = [])
    (hrun : Path Mysock.step (fun _ act => act ≠ .write []) (Mysock.fresh ep isReliable) acts m)
    {socket : List (List UInt8)}
    (hsocket : socket.flatten <+: (m.wire.map fun p => networkSendPacket p.bytes).flatten)
    (fuel : Nat) :
    (networkRecvThread fuel socket).map Packet.ofBytes <+: m.wire.map some ∧
      (socket.flatten = (m.wire.map fun p => networkSendPacket p.bytes).flatten →
        m.wire.length ≤ fuel → (networkRecvThread fuel socket).map Packet.ofBytes = m.wire.map some) := by
  obtain ⟨-, htransmits, hsmall⟩ : Books m ∧ Transmits m ∧ Sized m :=
    hrun.invariant (fun m => Books m ∧ Transmits m ∧ Sized m)
      ⟨Books.fresh htaken hdelivered, Transmits.fresh ep isReliable, hsized⟩
      fun _ _ _ _ hstep h => ⟨h.1.step hstep, h.2.1.step h.1 hstep, h.2.2.step hstep⟩
  have hfit : ∀ src ∈ m.wire.map Packet.bytes, Fitting src := by
    intro src hsrc
    obtain ⟨p, hp, rfl⟩ := List.mem_map.mp hsrc
    have hlen := hsmall.sent p (htransmits.wire p hp)
    unfold Fitting
    rw [Packet.bytes_length]
    unfold headerSize maxIpPayloadLen
    unfold maxLen at hlen
    omega
  have hstream : (m.wire.map fun p => networkSendPacket p.bytes).flatten
      = datagrams.stream (m.wire.map Packet.bytes) := by
    unfold Framing.stream
    rw [List.map_map]
    rfl
  have hback : (m.wire.map Packet.bytes).map Packet.ofBytes = m.wire.map some := by
    rw [List.map_map]
    exact List.map_congr_left fun p _ => p.ofBytes_bytes
  rw [hstream] at hsocket ⊢
  rw [networkRecvThread_eq hfit hsocket fuel, ← hback]
  obtain ⟨hpre, hall⟩ :=
    Framing.records_prefix (fun src hsrc => (hfit src hsrc).told) hsocket fuel
  refine ⟨hpre.map _, ?_⟩
  intro heq hfuel
  rw [hall heq (by rw [List.length_map]; exact hfuel)]

/-- A stream in three pieces. -/
def inPieces (stream : List UInt8) : List (List UInt8) :=
  [stream.take 1, (stream.drop 1).take 30, (stream.drop 1).drop 30]

/-- One segment, transmitted twice. -/
def repeated : List Act := [.write [72], .wait false, .handle, .perform 0, .perform 1]

theorem datagrams_arrive_repeated : ∃ m : Mysock,
    Path Mysock.step (fun _ act => act ≠ .write []) (Mysock.fresh (greeted 2 1001) false) repeated m ∧
    m.wire.length = 2 ∧
    (networkRecvThread 2 (inPieces (m.wire.map fun p => networkSendPacket p.bytes).flatten)).map
      Packet.ofBytes = m.wire.map some := by
  have hok : ∀ act ∈ repeated, ∀ m : Mysock, act ≠ .write [] := by
    have hall : ∀ act ∈ repeated, act ≠ .write [] := by decide
    exact fun act hact _ => hall act hact
  have hfinal : ∃ m, Path Mysock.step (fun _ act => act ≠ .write [])
      (Mysock.fresh (greeted 2 1001) false) repeated m ∧ decide (m.wire.length = 2) = true :=
    exists_of_follow hok (by decide +kernel)
  obtain ⟨m, hrun, hwire⟩ := hfinal
  have hwire : m.wire.length = 2 := of_decide_eq_true hwire
  have hflat : ∀ stream : List UInt8, (inPieces stream).flatten = stream := by
    intro stream
    simp only [inPieces, List.flatten_cons, List.flatten_nil, List.append_nil,
      List.take_append_drop]
  have hall : ∀ stream : List UInt8, (inPieces stream).flatten <+: stream := by
    intro stream
    simp only [hflat, List.prefix_rfl]
  have hsized : Sized (Mysock.fresh (greeted 2 1001) false) :=
    ⟨fun p hp => (by cases hp), fun q hq => by cases hq⟩
  exact ⟨m, hrun, hwire, (datagrams_arrive hsized rfl rfl hrun (hall _) 2).2 (hflat _)
    (Nat.le_of_eq hwire)⟩

end UchiNetworks.Stcp
