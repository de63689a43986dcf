import UchiNetworks.Stcp.Shift

/-!
# STCP: which bytes of a datagram are taken for payload

`recv_packet` finds the payload in its local buffer by `th_off`, which the
sender of the datagram chose, and by the length `stcp_network_recv` returned.
That is the length of the datagram, also where less of it was copied. `Datagram`
is what may come in, `copyOf` the `memcpy` that follows, and `copiesPayload_iff`
says for every datagram whether that `memcpy` stays inside of what was received.
-/

namespace UchiNetworks.Stcp

open UchiNetworks.Lib

/-! ## The datagram -/

/-- `_mysock_dequeue_buffer`, on the packet at the head of the queue: what is
written to `dst`, the return value, and what is left of the packet. -/
def mysockDequeueBuffer (data : List UInt8) (maxLen : Nat) (removePartial : Bool) :
    List UInt8 × Nat × List UInt8 :=
  if data.length > maxLen ∧ removePartial then
    (data.take maxLen, maxLen, data.drop maxLen)
  else (data.take (min maxLen data.length), data.length, [])

/-- `stcp_network_recv`: the whole packet leaves the queue. -/
def stcpNetworkRecv (data : List UInt8) (maxLen : Nat) : List UInt8 × Nat :=
  ((mysockDequeueBuffer data maxLen false).1, (mysockDequeueBuffer data maxLen false).2.1)

/-- The local buffer and the length `recv_packet` goes on with. -/
theorem stcpNetworkRecv_eq (p : Packet) :
    (stcpNetworkRecv p.bytes buffSize).1.rightpad buffSize 0 = p.buff ∧
    (stcpNetworkRecv p.bytes buffSize).2 = p.bytes.length := by
  have htake : p.bytes.take (min buffSize p.bytes.length) = p.bytes.take buffSize := by
    rw [← List.take_take, List.take_length]
  refine ⟨?_, by simp [stcpNetworkRecv, mysockDequeueBuffer]⟩
  simp only [stcpNetworkRecv, mysockDequeueBuffer, Bool.false_eq_true, and_false, if_false, htake]
  rfl

/-- A datagram that `recv_packet` accepts. -/
def Datagram := { bytes : List UInt8 // headerSize ≤ bytes.length }

/-- Two bytes in network order. -/
def join16 (a b : UInt8) : BitVec 16 := a.toBitVec ++ b.toBitVec

/-- Four bytes in network order. -/
def join32 (a b c d : UInt8) : BitVec 32 := a.toBitVec ++ b.toBitVec ++ c.toBitVec ++ d.toBitVec

/-- The header at the start of `buff`. -/
def readHeader (buff : List UInt8) : STCPHeader :=
  let byte := fun i => buff.getD i 0
  { thSport := join16 (byte 0) (byte 1)
    thDport := join16 (byte 2) (byte 3)
    thSeq := join32 (byte 4) (byte 5) (byte 6) (byte 7)
    thAck := join32 (byte 8) (byte 9) (byte 10) (byte 11)
    thX2 := (byte 12).toBitVec.extractLsb' 0 4
    thOff := (byte 12).toBitVec.extractLsb' 4 4
    thFlags := (byte 13).toBitVec
    thWin := join16 (byte 14) (byte 15)
    thSum := join16 (byte 16) (byte 17)
    thUrp := join16 (byte 18) (byte 19) }

/-- The datagram as the rest of the model has it. -/
def Datagram.packet (d : Datagram) : Packet :=
  { header := readHeader d.val, data := d.val.drop headerSize }

theorem word16_join16 (a b : UInt8) : word16 (join16 a b) = [a, b] := by
  unfold word16 join16
  rw [BitVec.extractLsb'_append_eq_left, BitVec.extractLsb'_append_eq_right]

theorem word32_join32 (a b c d : UInt8) : word32 (join32 a b c d) = [a, b, c, d] := by
  -- each byte is reached past the ones that were appended after it
  have h24 : (join32 a b c d).extractLsb' 24 8 = a.toBitVec := by
    unfold join32
    rw [BitVec.extractLsb'_append_eq_of_le (by decide), BitVec.extractLsb'_append_eq_of_le
      (by decide), BitVec.extractLsb'_append_eq_left]
  have h16 : (join32 a b c d).extractLsb' 16 8 = b.toBitVec := by
    unfold join32
    rw [BitVec.extractLsb'_append_eq_of_le (by decide), BitVec.extractLsb'_append_eq_of_le
      (by decide), BitVec.extractLsb'_append_eq_right]
  have h8 : (join32 a b c d).extractLsb' 8 8 = c.toBitVec := by
    unfold join32
    rw [BitVec.extractLsb'_append_eq_of_le (by decide), BitVec.extractLsb'_append_eq_right]
  have h0 : (join32 a b c d).extractLsb' 0 8 = d.toBitVec := by
    unfold join32
    rw [BitVec.extractLsb'_append_eq_right]
  rw [word32, h24, h16, h8, h0]

theorem append_extractLsb' (x : BitVec 8) : x.extractLsb' 4 4 ++ x.extractLsb' 0 4 = x :=
  BitVec.extractLsb'_append_extractLsb'

theorem take_eq_map_getD {l : List UInt8} {n : Nat} (h : n ≤ l.length) :
    l.take n = (List.range n).map fun i => l.getD i 0 := by
  refine List.ext_getElem (by simp [h]) fun i h1 h2 => ?_
  have hi : i < l.length := by
    rw [List.length_take] at h1
    omega
  simp [List.getD_eq_getElem?_getD, hi]

/-- No byte is lost in reading the header. -/
theorem Datagram.packet_bytes (d : Datagram) : d.packet.bytes = d.val := by
  have hheader : (readHeader d.val).bytes = d.val.take headerSize := by
    rw [take_eq_map_getD d.property]
    simp only [readHeader, STCPHeader.bytes, word16_join16, word32_join32, append_extractLsb']
    rfl
  rw [Packet.bytes]
  show (readHeader d.val).bytes ++ d.val.drop headerSize = d.val
  rw [hheader, List.take_append_drop]

/-! ## What is copied -/

/-- The `memcpy` into `recv_buffer`: where in the local buffer it starts to
read, and how much it reads. -/
structure Memcpy where
  src : Nat
  len : Nat
  deriving DecidableEq

/-- The `memcpy` that `recv_packet` makes, if it gets that far. -/
def copyOf (recvNext : TcpSeq) (p : Packet) : Option Memcpy :=
  if p.paylen = 0 then none
  else (clipPayload recvNext p).map fun c =>
    { src := wordSize * p.header.thOff.toNat + c.skip, len := c.len }

/-- It is what changes `recv_buffer`. -/
theorem recvPayload_copy {ctx ctx' : Context} {p : Packet} {n : Int}
    (h : recvPayload ctx p = some (ctx', n)) :
    (copyOf ctx.recvNext p = none ∧ ctx'.recvBuffer = ctx.recvBuffer) ∨
    ∃ m cell, copyOf ctx.recvNext p = some m ∧
      ctx'.recvBuffer = writeAt ctx.recvBuffer cell
        (((p.buff.drop m.src).take m.len).rightpad m.len 0) := by
  unfold recvPayload at h
  unfold copyOf
  split at h
  next hpay =>
    obtain ⟨rfl, -⟩ := Prod.mk.inj (Option.some.inj h)
    exact Or.inl ⟨if_pos hpay, rfl⟩
  next hpay =>
    obtain ⟨c, hc, hstore⟩ := Option.map_eq_some_iff.mp h
    obtain ⟨rfl, -⟩ := Prod.mk.inj hstore
    have hcopy : (if p.paylen = 0 then none else (clipPayload ctx.recvNext p).map fun c =>
        ({ src := wordSize * p.header.thOff.toNat + c.skip, len := c.len } : Memcpy))
        = some { src := wordSize * p.header.thOff.toNat + c.skip, len := c.len } := by
      rw [if_neg hpay, hc]
      rfl
    exact Or.inr ⟨_, c.cell, hcopy, rfl⟩

/-- Where `th_off` says that the payload starts. -/
def Datagram.start (d : Datagram) : Nat := wordSize * d.packet.header.thOff.toNat

/-- Every byte that is copied is a byte of the datagram behind its header, and
was received into the local buffer; `packlen - WORDSIZE * th_off` is not
negative. -/
structure CopiesPayload (recvNext : TcpSeq) (d : Datagram) : Prop where
  offset : d.start ≤ d.val.length
  copied : ∀ m, copyOf recvNext d.packet = some m → ∀ k < m.len,
    headerSize ≤ m.src + k ∧
    ∃ byte, d.val[m.src + k]? = some byte ∧ d.packet.buff[m.src + k]? = some byte

/-- The length, the offset and the place of a datagram that `recv_packet`
handles as it should. Behind `recv_next` the payload counts from the first byte
that is new; `sizeAdd` is the sum `recv_packet` tells an old payload by. -/
structure FitsBuffer (recvNext : TcpSeq) (d : Datagram) : Prop where
  offset : d.start ≤ d.val.length
  behind : d.start < d.val.length → (d.packet.header.thSeq - recvNext).toInt < 0 →
    recvNext.toNat < sizeAdd d.packet.header.thSeq.toNat (d.val.length - d.start) →
    d.start + (recvNext - d.packet.header.thSeq).toNat = d.val.length ∨
    headerSize ≤ d.start + (recvNext - d.packet.header.thSeq).toNat ∧
      d.start + (recvNext - d.packet.header.thSeq).toNat < d.val.length ∧
      d.val.length ≤ buffSize
  ahead : d.start < d.val.length → 0 ≤ (d.packet.header.thSeq - recvNext).toInt →
    (d.packet.header.thSeq - recvNext).toInt < winLen →
    headerSize ≤ d.start ∧
      (d.val.length ≤ buffSize ∨
        d.start + (winLen - (d.packet.header.thSeq - recvNext).toInt.toNat) ≤ buffSize)

theorem Packet.buff_length (p : Packet) : p.buff.length = buffSize := by
  rw [Packet.buff, List.length_rightpad, List.length_take]
  omega

/-- A `memcpy` of received bytes, as a matter of where it starts and ends. -/
theorem copied_iff (d : Datagram) (m : Memcpy) :
    (∀ k < m.len, headerSize ≤ m.src + k ∧
      ∃ byte, d.val[m.src + k]? = some byte ∧ d.packet.buff[m.src + k]? = some byte) ↔
    m.len = 0 ∨
      headerSize ≤ m.src ∧ m.src + m.len ≤ d.val.length ∧ m.src + m.len ≤ buffSize := by
  constructor
  · intro h
    rcases Nat.eq_zero_or_pos m.len with hzero | hpos
    · exact Or.inl hzero
    · -- the first byte and the last one
      obtain ⟨hfirst, -⟩ := h 0 hpos
      obtain ⟨-, byte, hin, hbuff⟩ := h (m.len - 1) (by omega)
      have hin' := (List.getElem?_eq_some_iff.mp hin).1
      have hbuff' := (List.getElem?_eq_some_iff.mp hbuff).1
      rw [Packet.buff_length] at hbuff'
      exact Or.inr ⟨hfirst, by omega, by omega⟩
  · intro h k hk
    obtain ⟨hfirst, hin, hbuff⟩ := h.resolve_left (by omega)
    have hget : d.packet.buff[m.src + k]? = d.val[m.src + k]? := by
      rw [Packet.buff_getElem? (by omega) (by rw [d.packet_bytes]; omega), d.packet_bytes]
    refine ⟨by omega, d.val[m.src + k], List.getElem?_eq_getElem (by omega), ?_⟩
    rw [hget, List.getElem?_eq_getElem (by omega)]

theorem Datagram.paylen_eq {d : Datagram} (h : d.start ≤ d.val.length) :
    d.packet.paylen = d.val.length - d.start := by
  unfold Packet.paylen
  rw [← Packet.bytes_length, d.packet_bytes]
  exact sizeSub_of_le h

/-- The copy of a payload that starts behind `recv_next` and is not old. -/
theorem copyOf_behind {recvNext : TcpSeq} {d : Datagram} (hstart : d.start < d.val.length)
    (hneg : (d.packet.header.thSeq - recvNext).toInt < 0) :
    copyOf recvNext d.packet =
      if sizeAdd d.packet.header.thSeq.toNat (d.val.length - d.start) ≤ recvNext.toNat then
        some { src := d.start, len := 0 }
      else
        some { src := d.start + (recvNext - d.packet.header.thSeq).toNat
               len := min winLen (sizeSub (d.val.length - d.start)
                 (recvNext - d.packet.header.thSeq).toNat) } := by
  have hpay := Datagram.paylen_eq (Nat.le_of_lt hstart)
  unfold copyOf clipPayload
  rw [if_neg (by omega), if_pos hneg, hpay]
  split <;> rfl

/-- The copy of a payload that starts at `recv_next` or ahead of it. -/
theorem copyOf_ahead {recvNext : TcpSeq} {d : Datagram} (hstart : d.start < d.val.length)
    (hpos : 0 ≤ (d.packet.header.thSeq - recvNext).toInt) :
    copyOf recvNext d.packet =
      if (d.packet.header.thSeq - recvNext).toInt > winLen then none
      else
        some { src := d.start
               len := min (winLen - (d.packet.header.thSeq - recvNext).toInt.toNat)
                 (d.val.length - d.start) } := by
  have hpay := Datagram.paylen_eq (Nat.le_of_lt hstart)
  unfold copyOf clipPayload
  rw [if_neg (by omega), if_neg (by omega), hpay]
  split <;> rfl

/-- The bytes of the copy behind `recv_next` are inside exactly as `behind` says. -/
theorem behind_inside {start len past : Nat} (hstart : start < len) (hpast : past < 0x100000000) :
    (min winLen (sizeSub (len - start) past) = 0 ∨
      headerSize ≤ start + past ∧ start + past + min winLen (sizeSub (len - start) past) ≤ len ∧
        start + past + min winLen (sizeSub (len - start) past) ≤ buffSize) ↔
    start + past = len ∨ headerSize ≤ start + past ∧ start + past < len ∧ len ≤ buffSize := by
  unfold winLen buffSize headerSize maxOps maxLen
  by_cases hle : past ≤ len - start
  · rw [sizeSub_of_le hle]
    omega
  · -- a wrapped length is cut to the window, which the buffer does not hold
    unfold sizeSub
    rw [if_neg hle]
    omega

theorem FitsBuffer.copiesPayload {recvNext : TcpSeq} {d : Datagram} (h : FitsBuffer recvNext d) :
    CopiesPayload recvNext d := by
  refine ⟨h.offset, fun m hm => (copied_iff d m).mpr ?_⟩
  rcases Nat.lt_or_ge d.start d.val.length with hstart | hend
  · rcases lt_or_ge (d.packet.header.thSeq - recvNext).toInt 0 with hneg | hpos
    · rw [copyOf_behind hstart hneg] at hm
      split at hm
      next =>
        obtain rfl := Option.some.inj hm
        exact Or.inl rfl
      next hnew =>
        obtain rfl := Option.some.inj hm
        exact (behind_inside hstart (BitVec.isLt _)).mpr (h.behind hstart hneg (by omega))
    · rw [copyOf_ahead hstart hpos] at hm
      split at hm
      · cases hm
      next hin =>
        obtain rfl := Option.some.inj hm
        by_cases hroom : (d.packet.header.thSeq - recvNext).toInt < winLen
        · have := h.ahead hstart hpos hroom
          simp only
          omega
        · simp only
          omega
  · have hoff := h.offset
    have hpay : d.packet.paylen = 0 := by
      rw [Datagram.paylen_eq h.offset]
      omega
    rw [copyOf, if_pos hpay] at hm
    cases hm

theorem CopiesPayload.fitsBuffer {recvNext : TcpSeq} {d : Datagram}
    (h : CopiesPayload recvNext d) : FitsBuffer recvNext d := by
  refine ⟨h.offset, ?_, ?_⟩
  · intro hstart hneg hnew
    have hcopy := copyOf_behind hstart hneg
    rw [if_neg (by omega)] at hcopy
    exact (behind_inside hstart (BitVec.isLt _)).mp ((copied_iff d _).mp (h.copied _ hcopy))
  · intro hstart hpos hroom
    have hcopy := copyOf_ahead hstart hpos
    rw [if_neg (by omega)] at hcopy
    have hinside := (copied_iff d _).mp (h.copied _ hcopy)
    simp only at hinside
    unfold winLen at hroom hinside ⊢
    omega

/-- **What is copied was received**, and exactly when: for every datagram and
every `th_off`. -/
theorem copiesPayload_iff (recvNext : TcpSeq) (d : Datagram) :
    CopiesPayload recvNext d ↔ FitsBuffer recvNext d :=
  ⟨CopiesPayload.fitsBuffer, FitsBuffer.copiesPayload⟩

/-- A header whose `th_off` counts the smallest number of words, and one byte. -/
def shortOffset : Datagram :=
  ⟨(makeStcpPacket TH.ack 7 1 []).bytes.set 12 0 ++ [42], by decide⟩

/-- The header itself is stored as payload. -/
theorem shortOffset_copied : ¬ CopiesPayload 7 shortOffset := by
  intro h
  have hcopy : copyOf 7 shortOffset.packet = some { src := 0, len := 21 } := by decide +kernel
  exact absurd (h.copied _ hcopy 0 (by decide)).1 (by decide)

end UchiNetworks.Stcp
