import Mathlib.Data.BitVec
import Mathlib.Data.List.GetD
import UchiNetworks.Lib.Serial
import UchiNetworks.Stcp.Packet

/-!
# STCP: sequence numbers are numbers modulo `2 ^ 32`

Where a connection starts counting is arbitrary, so `recv_packet` should do the
same on a context and a segment whose numbers are all shifted by a constant:
`a` for the numbers the peer counts, `b` for ours (`ShiftInvariant`).

It computes differences first in one place, `buffer_offset`, and those do not
see a shift. Three comparisons are made on the values instead:

> `th_seq + paylen <= recv_next`: is all of a segment behind the window old?
> `send_unack <= th_ack`: does the acknowledgment advance?
> `seq_num + length <= send_unack`: is a listed packet acknowledged?

`shiftInvariant_iff` says for every context, segment and shift whether the run
is the same: it is unless one of these is made and the shift takes one of its
two numbers past the wrap point and not the other (`NoStraddle`). A `th_off`
that points into the header makes the numbers part of the payload, and then the
bytes that are stored are others.
-/

namespace UchiNetworks.Stcp

open UchiNetworks.Lib

/-! ## The shift -/

/-- A `packet_t` whose `seq_num` counts from `b` on. -/
def PacketT.shift (b : TcpSeq) (q : PacketT) : PacketT := { q with seqNum := q.seqNum + b }

/-- The context with the peer's numbers shifted by `a` and ours by `b`. -/
def Context.shift (a b : TcpSeq) (ctx : Context) : Context :=
  { ctx with
    recvNext := ctx.recvNext + a
    sendUnack := ctx.sendUnack + b
    sendNext := ctx.sendNext + b
    unackdPackets := ctx.unackdPackets.map (PacketT.shift b) }

def STCPHeader.shift (a b : TcpSeq) (h : STCPHeader) : STCPHeader :=
  { h with thSeq := h.thSeq + a, thAck := h.thAck + b }

def Packet.shift (a b : TcpSeq) (p : Packet) : Packet := { p with header := p.header.shift a b }

/-- What `recv_packet` leaves behind, shifted: the counters and the header move,
the return value does not. -/
def shiftResult (a b : TcpSeq) (r : Context × STCPHeader × Int) : Context × STCPHeader × Int :=
  (r.1.shift a b, r.2.1.shift a b, r.2.2)

/-- `recv_packet` does not see the shift. -/
def ShiftInvariant (ctx : Context) (p : Packet) (a b : TcpSeq) : Prop :=
  recvPacket (ctx.shift a b) (some (p.shift a b)) = shiftResult a b (recvPacket ctx (some p))

/-! ## When a comparison sees it -/

/-- `p` has a payload that starts behind `recv_next`. -/
def Behind (ctx : Context) (p : Packet) : Prop :=
  p.paylen ≠ 0 ∧ (p.header.thSeq - ctx.recvNext).toInt < 0

/-- `p` has a payload that starts beyond the window: `recv_packet` drops it. -/
def Beyond (ctx : Context) (p : Packet) : Prop :=
  p.paylen ≠ 0 ∧ winLen < (p.header.thSeq - ctx.recvNext).toInt

/-- By how much `th_off` points past the end of the datagram. -/
def Packet.missing (p : Packet) : Nat :=
  wordSize * p.header.thOff.toNat - (headerSize + p.data.length)

/-- The shift by `c` does not part `x` and `y`, or `y` is less than `n` ahead of
`x`, so that `x + n` is not behind `y` on any lap. -/
def SameLap (x y c : TcpSeq) (n : Nat) : Prop := (Wraps x c ↔ Wraps y c) ∨ (y - x).toNat < n

/-- Is the number of byte `i` behind `th_off` one of the window's? -/
def InWindow (ctx : Context) (p : Packet) (i : Nat) : Prop :=
  0 ≤ (p.header.thSeq - ctx.recvNext).toInt + i ∧
    (p.header.thSeq - ctx.recvNext).toInt + i < winLen

/-- No comparison that `recv_packet` makes on `ctx` and `p` straddles the wrap
point. A `th_off` that points past the end of the datagram makes the payload
length wrap too; such a segment is old when its start lies between the missing
bytes and `recv_next`. One that points into the first three words of the header makes
the numbers there, bytes 4 to 11, part of the payload. -/
structure NoStraddle (ctx : Context) (p : Packet) (a b : TcpSeq) : Prop where
  seq : Behind ctx p → p.missing = 0 → SameLap p.header.thSeq ctx.recvNext a p.paylen
  seqShort : Behind ctx p → p.missing ≠ 0 →
    ((p.missing ≤ (p.header.thSeq + a).toNat ∧
        (p.header.thSeq + a).toNat < (ctx.recvNext + a).toNat) ↔
      (p.missing ≤ p.header.thSeq.toNat ∧ p.header.thSeq.toNat < ctx.recvNext.toNat))
  ack : p.header.has TH.ack → SameLap ctx.sendUnack p.header.thAck b 0
  listed : ∀ (front : List PacketT) (q : PacketT) (rest : List PacketT),
    ctx.unackdPackets = front ++ q :: rest →
    (∀ x ∈ front, x.acked (ackPoint ctx.sendUnack p.header)) →
    SameLap q.seqNum (ackPoint ctx.sendUnack p.header) b q.packet.data.length
  bytes : ∀ i, 4 ≤ wordSize * p.header.thOff.toNat + i →
    wordSize * p.header.thOff.toNat + i < 12 → InWindow ctx p i →
    (p.header.shift a b).bytes.getD (wordSize * p.header.thOff.toNat + i) 0
      = p.header.bytes.getD (wordSize * p.header.thOff.toNat + i) 0

/-! ## The payload part -/

@[simp] theorem paylen_shift (a b : TcpSeq) (p : Packet) : (p.shift a b).paylen = p.paylen := rfl

theorem getD_take {l : List UInt8} {n q : Nat} (hq : q < n) :
    (l.take n).getD q 0 = l.getD q 0 := by
  rw [List.getD_eq_getElem?_getD, List.getD_eq_getElem?_getD, List.getElem?_take_of_lt hq]

/-- Outside of its numbers the header is the same. -/
theorem bytes_shift {h : STCPHeader} {q : Nat} (a b : TcpSeq) (hout : q < 4 ∨ 12 ≤ q) :
    (h.shift a b).bytes.getD q 0 = h.bytes.getD q 0 := by
  rcases hout with hlow | hhigh
  · have htake : (h.shift a b).bytes.take 4 = h.bytes.take 4 := rfl
    rw [← getD_take hlow, htake, getD_take hlow]
  · have hdrop : (h.shift a b).bytes.drop 12 = h.bytes.drop 12 := rfl
    have hget : ∀ l : List UInt8, l.getD q 0 = (l.drop 12).getD (q - 12) 0 := by
      intro l
      rw [List.getD_eq_getElem?_getD, List.getD_eq_getElem?_getD, List.getElem?_drop,
        Nat.add_sub_cancel' hhigh]
    rw [hget, hdrop, ← hget]

/-- And so is the buffer. -/
theorem buff_shift {p : Packet} {q : Nat} (a b : TcpSeq)
    (hsame : (p.header.shift a b).bytes.getD q 0 = p.header.bytes.getD q 0) :
    (p.shift a b).buff.getD q 0 = p.buff.getD q 0 := by
  rw [Packet.buff_eq, Packet.buff_eq]
  rcases Nat.lt_or_ge q headerSize with hin | hout
  · rw [List.getD_append _ _ _ _ (by rw [STCPHeader.bytes_length]; exact hin),
      List.getD_append _ _ _ _ (by rw [STCPHeader.bytes_length]; exact hin)]
    exact hsame
  · rw [List.getD_append_right _ _ _ _ (by rw [STCPHeader.bytes_length]; exact hout),
      List.getD_append_right _ _ _ _ (by rw [STCPHeader.bytes_length]; exact hout),
      STCPHeader.bytes_length, STCPHeader.bytes_length]
    rfl

/-- Byte `k` of what is copied. -/
theorem payload_getElem? {p : Packet} {skip n k : Nat} (hk : k < n) :
    (p.payload skip n)[k]? = some (p.buff.getD (wordSize * p.header.thOff.toNat + skip + k) 0) := by
  obtain ⟨base, hbase⟩ : ∃ base, base = wordSize * p.header.thOff.toNat + skip := ⟨_, rfl⟩
  rw [Packet.payload, ← hbase, List.rightpad, List.getD_eq_getElem?_getD]
  rcases Nat.lt_or_ge k ((p.buff.drop base).take n).length with hin | hout
  · have hlen := hin
    rw [List.length_take, List.length_drop] at hlen
    rw [List.getElem?_append_left hin, List.getElem?_take_of_lt hk, List.getElem?_drop,
      List.getElem?_eq_getElem (by omega)]
    rfl
  · rw [List.getElem?_append_right hout, List.getElem?_replicate, if_pos (by omega)]
    rw [List.length_take, List.length_drop] at hout
    rw [List.getElem?_eq_none (by omega)]
    rfl

/-- The copy sees the shift exactly at a number of the header that is copied. -/
theorem payload_shift_iff {p : Packet} {skip n : Nat} {a b : TcpSeq} :
    (p.shift a b).payload skip n = p.payload skip n ↔
      ∀ k, k < n → 4 ≤ wordSize * p.header.thOff.toNat + skip + k →
        wordSize * p.header.thOff.toNat + skip + k < 12 →
        (p.header.shift a b).bytes.getD (wordSize * p.header.thOff.toNat + skip + k) 0
          = p.header.bytes.getD (wordSize * p.header.thOff.toNat + skip + k) 0 := by
  constructor
  · intro heq k hk _ htop
    have hbyte := congrArg (fun l => l[k]?) heq
    rw [payload_getElem? hk, payload_getElem? hk] at hbyte
    have hhead : ∀ r : Packet, r.buff.getD (wordSize * p.header.thOff.toNat + skip + k) 0
        = r.header.bytes.getD (wordSize * p.header.thOff.toNat + skip + k) 0 := by
      intro r
      rw [Packet.buff_eq, List.getD_append _ _ _ _
        (by rw [STCPHeader.bytes_length]; unfold headerSize; omega)]
    rw [← hhead p, ← Option.some.inj hbyte]
    exact (hhead (p.shift a b)).symm
  · intro hsame
    refine List.ext_getElem? fun k => ?_
    rcases Nat.lt_or_ge k n with hk | hk
    · rw [payload_getElem? hk, payload_getElem? hk]
      refine congrArg some (buff_shift a b ?_)
      rcases Nat.lt_or_ge (wordSize * p.header.thOff.toNat + skip + k) 4 with hlow | hlow
      · exact bytes_shift a b (Or.inl hlow)
      · rcases Nat.lt_or_ge (wordSize * p.header.thOff.toNat + skip + k) 12 with htop | htop
        · exact hsame k hk hlow htop
        · exact bytes_shift a b (Or.inr htop)
    · rw [List.getElem?_eq_none (by rw [payload_length]; exact hk),
        List.getElem?_eq_none (by rw [payload_length]; exact hk)]

/-- The comparison that decides whether all of a payload behind the window is old. -/
def AllOld (recvNext : TcpSeq) (p : Packet) : Prop :=
  sizeAdd p.header.thSeq.toNat p.paylen ≤ recvNext.toNat

theorem paylen_of_fits {p : Packet} (hfits : p.missing = 0) :
    p.paylen = headerSize + p.data.length - wordSize * p.header.thOff.toNat := by
  unfold Packet.missing at hfits
  exact sizeSub_of_le (by omega)

theorem paylen_of_missing {p : Packet} (hmiss : p.missing ≠ 0) :
    p.paylen = 0x10000000000000000 - p.missing ∧ p.missing ≤ 60 := by
  unfold Packet.missing at hmiss ⊢
  have hoff := p.header.thOff.isLt
  unfold wordSize at hmiss ⊢
  refine ⟨?_, by omega⟩
  unfold Packet.paylen sizeSub wordSize
  rw [if_neg (by omega)]
  omega

/-- A negative difference: behind on the same lap, or more than half the number
space ahead. -/
theorem toInt_sub_neg {x y : TcpSeq} (hneg : (x - y).toInt < 0) :
    x.toNat < y.toNat ∨ y.toNat + 0x80000000 ≤ x.toNat := by
  have hbig : 0x80000000 ≤ (x - y).toNat := by
    rw [BitVec.toInt_eq_toNat_cond] at hneg
    split at hneg <;> omega
  rcases toNat_sub_cases y x with ⟨hle, hsub⟩ | ⟨hlt, -⟩
  · exact Or.inr (by omega)
  · exact Or.inl hlt

theorem allOld_fits {recvNext : TcpSeq} {p : Packet} (hlen : p.data.length < 2 ^ 63)
    (hfits : p.missing = 0) :
    AllOld recvNext p ↔ p.header.thSeq.toNat + p.paylen ≤ recvNext.toNat := by
  have hseq := p.header.thSeq.isLt
  have hpl := paylen_of_fits hfits
  unfold headerSize at hpl
  unfold AllOld
  rw [sizeAdd_of_lt (by omega)]

theorem allOld_missing {recvNext : TcpSeq} {p : Packet} (hmiss : p.missing ≠ 0)
    (hneg : (p.header.thSeq - recvNext).toInt < 0) :
    AllOld recvNext p ↔
      p.missing ≤ p.header.thSeq.toNat ∧ p.header.thSeq.toNat < recvNext.toNat := by
  obtain ⟨hpl, hsmall⟩ := paylen_of_missing hmiss
  have hseq := p.header.thSeq.isLt
  have hnext := recvNext.isLt
  have hplace := toInt_sub_neg hneg
  unfold AllOld sizeAdd
  rw [hpl]
  omega

/-- When the shift changes that comparison. -/
theorem allOld_shift_iff {ctx : Context} {p : Packet} {a b : TcpSeq}
    (hlen : p.data.length < 2 ^ 63) (hbehind : Behind ctx p) :
    (AllOld (ctx.shift a b).recvNext (p.shift a b) ↔ AllOld ctx.recvNext p) ↔
      (p.missing = 0 → SameLap p.header.thSeq ctx.recvNext a p.paylen) ∧
      (p.missing ≠ 0 →
        ((p.missing ≤ (p.header.thSeq + a).toNat ∧
            (p.header.thSeq + a).toNat < (ctx.recvNext + a).toNat) ↔
          (p.missing ≤ p.header.thSeq.toNat ∧ p.header.thSeq.toNat < ctx.recvNext.toNat))) := by
  by_cases hfits : p.missing = 0
  · rw [allOld_fits hlen hfits, allOld_fits (p := p.shift a b) hlen hfits]
    simp only [hfits, forall_const, ne_eq, not_true_eq_false, false_implies, and_true]
    exact shift_agrees_iff _ _ a p.paylen
  · have hneg : ((p.shift a b).header.thSeq - (ctx.shift a b).recvNext).toInt < 0 := by
      show (p.header.thSeq + a - (ctx.recvNext + a)).toInt < 0
      rw [add_sub_add_right_eq_sub]
      exact hbehind.2
    rw [allOld_missing hfits hbehind.2, allOld_missing (p := p.shift a b) hfits hneg]
    simp only [hfits, false_implies, true_and, ne_eq, not_false_eq_true, forall_const]
    exact Iff.rfl

/-- A payload behind the window is always clipped, and `old` is the outcome of
the comparison. -/
theorem clipPayload_behind {recvNext : TcpSeq} {p : Packet}
    (hneg : (p.header.thSeq - recvNext).toInt < 0) :
    ∃ c, clipPayload recvNext p = some c ∧ (c.old = true ↔ AllOld recvNext p) := by
  unfold clipPayload
  rw [if_pos hneg]
  by_cases hold : AllOld recvNext p
  · refine ⟨⟨0, 0, 0, true⟩, if_pos hold, ?_⟩
    simp [hold]
  · refine ⟨_, if_neg hold, ?_⟩
    simp [hold]

/-- Of the header those bytes are copied whose numbers lie in the window. -/
theorem clipPayload_copies {ctx : Context} {p : Packet} {c : Clip} {i : Nat}
    (hlen : p.data.length < 2 ^ 63) (htop : wordSize * p.header.thOff.toNat + i < 12)
    (hc : clipPayload ctx.recvNext p = some c) :
    (c.skip ≤ i ∧ i < c.skip + c.len) ↔ InWindow ctx p i := by
  have hpl : p.paylen = headerSize + p.data.length - wordSize * p.header.thOff.toNat :=
    sizeSub_of_le (by unfold headerSize; omega)
  have hseq := p.header.thSeq.isLt
  have hlong : i < p.paylen ∧ p.paylen < 2 ^ 63 + 20 := by
    unfold headerSize at hpl
    omega
  unfold clipPayload at hc
  dsimp only at hc
  rw [sizeAdd_of_lt (by omega)] at hc
  unfold InWindow
  unfold winLen at hc ⊢
  clear hpl htop hlen
  split at hc
  next hneg =>
    have hpast := toNat_sub_of_neg hneg
    split at hc
    next hold =>
      -- all of it is old, so `recv_next` lies past its end
      have hdist := toNat_sub_cases p.header.thSeq ctx.recvNext
      rw [← Option.some.inj hc]
      dsimp only
      refine iff_of_false (by omega) ?_
      rintro ⟨hge, -⟩
      omega
    next hnew =>
      rw [← Option.some.inj hc]
      dsimp only
      rcases Nat.lt_or_ge p.paylen (ctx.recvNext - p.header.thSeq).toNat with hshort | hlong'
      · exact iff_of_false (by omega) (by omega)
      · rw [sizeSub_of_le hlong']
        omega
  next hpos =>
    split at hc
    next => cases hc
    next hin =>
      rw [← Option.some.inj hc]
      dsimp only
      omega

/-- Whatever is stored of a payload is the same bytes. -/
def SameBytes (ctx : Context) (p : Packet) (a b : TcpSeq) : Prop :=
  ∀ c, p.paylen ≠ 0 → clipPayload ctx.recvNext p = some c →
    (p.shift a b).payload c.skip c.len = p.payload c.skip c.len

/-- When it is. -/
theorem sameBytes_iff {ctx : Context} {p : Packet} {a b : TcpSeq} (hlen : p.data.length < 2 ^ 63) :
    SameBytes ctx p a b ↔ ∀ i, 4 ≤ wordSize * p.header.thOff.toNat + i →
      wordSize * p.header.thOff.toNat + i < 12 → InWindow ctx p i →
      (p.header.shift a b).bytes.getD (wordSize * p.header.thOff.toNat + i) 0
        = p.header.bytes.getD (wordSize * p.header.thOff.toNat + i) 0 := by
  constructor
  · intro hsame i hlow htop hin
    have hpay : p.paylen ≠ 0 := by
      rw [Packet.paylen, sizeSub_of_le (by unfold headerSize; omega)]
      unfold headerSize
      omega
    cases hc : clipPayload ctx.recvNext p with
    | none =>
      have hfar := clipPayload_none hc
      have hnear := hin.2
      omega
    | some c =>
      obtain ⟨hskip, hend⟩ := (clipPayload_copies hlen htop hc).mpr hin
      have hbyte := payload_shift_iff.mp (hsame c hpay hc) (i - c.skip) (by omega)
      rw [show wordSize * p.header.thOff.toNat + c.skip + (i - c.skip)
        = wordSize * p.header.thOff.toNat + i by omega] at hbyte
      exact hbyte hlow htop
  · intro hall c _ hc
    refine payload_shift_iff.mpr fun k hk hlow htop => ?_
    rw [Nat.add_assoc] at hlow htop ⊢
    exact hall (c.skip + k) hlow htop
      ((clipPayload_copies hlen htop hc).mp ⟨Nat.le_add_right _ _, by omega⟩)

/-- When the comparison comes out the same, so does the clip. -/
theorem clipPayload_shift {ctx : Context} {p : Packet} {a b : TcpSeq} (hpay : p.paylen ≠ 0)
    (hold : Behind ctx p →
      (AllOld (ctx.shift a b).recvNext (p.shift a b) ↔ AllOld ctx.recvNext p)) :
    clipPayload (ctx.shift a b).recvNext (p.shift a b) = clipPayload ctx.recvNext p := by
  have hahead : (p.shift a b).header.thSeq - (ctx.shift a b).recvNext
      = p.header.thSeq - ctx.recvNext := add_sub_add_right_eq_sub _ _ _
  have hpast : (ctx.shift a b).recvNext - (p.shift a b).header.thSeq
      = ctx.recvNext - p.header.thSeq := add_sub_add_right_eq_sub _ _ _
  unfold clipPayload
  rw [hahead, hpast]
  by_cases hneg : (p.header.thSeq - ctx.recvNext).toInt < 0
  · have hsame := hold ⟨hpay, hneg⟩
    unfold AllOld at hsame
    simp only [paylen_shift] at hsame
    simp only [paylen_shift, if_pos hneg, hsame]
  · simp only [paylen_shift, if_neg hneg]

theorem storeClip_shift {ctx : Context} {p : Packet} {a b : TcpSeq} {c : Clip}
    (hbytes : (p.shift a b).payload c.skip c.len = p.payload c.skip c.len) :
    storeClip (ctx.shift a b) (p.shift a b) c
      = ((storeClip ctx p c).1.shift a b, (storeClip ctx p c).2) := by
  unfold storeClip
  rw [hbytes]
  simp only [Context.shift]
  rw [add_right_comm]

/-- `-2` is returned exactly for an old payload. -/
theorem storeClip_old (ctx : Context) (p : Packet) (c : Clip) :
    (storeClip ctx p c).2 = -2 ↔ c.old = true := by
  unfold storeClip
  cases c.old with
  | false => simp
  | true => simp

theorem recvPayload_eq_none {ctx : Context} {p : Packet} :
    recvPayload ctx p = none ↔ Beyond ctx p := by
  unfold recvPayload Beyond
  by_cases hpay : p.paylen = 0
  · simp [hpay]
  · rw [if_neg hpay, Option.map_eq_none_iff]
    by_cases hneg : (p.header.thSeq - ctx.recvNext).toInt < 0
    · obtain ⟨c, hc, -⟩ := clipPayload_behind hneg
      simp only [hc, reduceCtorEq, false_iff]
      omega
    · unfold clipPayload
      rw [if_neg hneg]
      by_cases hfar : (p.header.thSeq - ctx.recvNext).toInt > winLen
      · rw [if_pos hfar]
        exact iff_of_true rfl ⟨hpay, hfar⟩
      · rw [if_neg hfar]
        exact iff_of_false (by simp) fun hb => hfar hb.2

/-- The payload part sees the shift in its return value if it sees it at all. -/
theorem recvPayload_shift {ctx : Context} {p : Packet} {a b : TcpSeq}
    (hold : Behind ctx p →
      (AllOld (ctx.shift a b).recvNext (p.shift a b) ↔ AllOld ctx.recvNext p))
    (hbytes : SameBytes ctx p a b) :
    recvPayload (ctx.shift a b) (p.shift a b)
      = (recvPayload ctx p).map fun r => (r.1.shift a b, r.2) := by
  unfold recvPayload
  rw [paylen_shift]
  by_cases hpay : p.paylen = 0
  · rw [if_pos hpay, if_pos hpay]
    rfl
  · rw [if_neg hpay, if_neg hpay, clipPayload_shift hpay hold]
    cases hclip : clipPayload ctx.recvNext p with
    | none => rfl
    | some c => exact congrArg some (storeClip_shift (hbytes c hpay hclip))

theorem recvPayload_old {ctx ctx' : Context} {p : Packet} {n : Int} (hbehind : Behind ctx p)
    (h : recvPayload ctx p = some (ctx', n)) : n = -2 ↔ AllOld ctx.recvNext p := by
  unfold recvPayload at h
  rw [if_neg hbehind.1] at h
  obtain ⟨c, hc, hold⟩ := clipPayload_behind hbehind.2
  rw [hc] at h
  have hret : (storeClip ctx p c).2 = n := congrArg Prod.snd (Option.some.inj h)
  rw [← hret, storeClip_old, hold]

/-! ## The header part -/

theorem PacketT.shift_injective (b : TcpSeq) : Function.Injective (PacketT.shift b) := by
  intro q q' heq
  cases q with
  | mk n s p =>
    cases q' with
    | mk n' s' p' =>
      simp only [PacketT.shift, PacketT.mk.injEq, add_left_inj] at heq
      obtain ⟨rfl, rfl, rfl⟩ := heq
      rfl

/-- Two predicates drop the same front of a list if and only if they agree up to
the first element that stays. -/
theorem dropWhile_eq_iff {α : Type} (f g : α → Bool) (l : List α) :
    l.dropWhile g = l.dropWhile f ↔
      ∀ (front : List α) (x : α) (rest : List α), l = front ++ x :: rest →
        (∀ y ∈ front, f y) → g x = f x := by
  induction l with
  | nil => simp
  | cons x l ih =>
    have hsplit : (∀ (front : List α) (y : α) (rest : List α), x :: l = front ++ y :: rest →
        (∀ z ∈ front, f z) → g y = f y) ↔
        g x = f x ∧ (f x → l.dropWhile g = l.dropWhile f) := by
      rw [ih]
      constructor
      · intro h
        refine ⟨h [] x l rfl (by simp), ?_⟩
        intro hfx front y rest hl hall
        exact h (x :: front) y rest (congrArg (List.cons x) hl) (List.forall_mem_cons.mpr ⟨hfx, hall⟩)
      · intro ⟨hx, htail⟩ front y rest hl hall
        cases front with
        | nil =>
          obtain ⟨rfl, -⟩ := List.cons.inj hl
          exact hx
        | cons z front =>
          obtain ⟨rfl, hl'⟩ := List.cons.inj hl
          obtain ⟨hfx, hall'⟩ := List.forall_mem_cons.mp hall
          exact htail hfx front y rest hl' hall'
    rw [hsplit]
    -- a longer list never equals a tail of its tail
    have hlong : ∀ k : α → Bool, l.dropWhile k ≠ x :: l := by
      intro k heq
      have hle := (List.dropWhile_suffix (l := l) k).length_le
      rw [heq, List.length_cons] at hle
      omega
    cases hf : f x <;> cases hg : g x
    · simp [hf, hg]
    · simp [hf, hg, hlong]
    · simp [hf, hg, (hlong _).symm]
    · simp [hf, hg]

theorem acked_shift_iff (q : PacketT) (u b : TcpSeq) :
    (q.shift b).acked (u + b) = q.acked u ↔ SameLap q.seqNum u b q.packet.data.length := by
  unfold PacketT.acked
  rw [decide_eq_decide]
  exact shift_agrees_iff q.seqNum u b q.packet.data.length

/-- The send buffer sees the shift exactly at a listed packet that is parted
from the acknowledged number. -/
theorem unackd_shift_iff (l : List PacketT) (u b : TcpSeq) :
    (l.map (PacketT.shift b)).dropWhile (PacketT.acked (u + b))
        = (l.dropWhile (PacketT.acked u)).map (PacketT.shift b) ↔
      ∀ (front : List PacketT) (q : PacketT) (rest : List PacketT), l = front ++ q :: rest →
        (∀ x ∈ front, x.acked u) → SameLap q.seqNum u b q.packet.data.length := by
  rw [List.dropWhile_map, (List.map_injective_iff.mpr (PacketT.shift_injective b)).eq_iff,
    dropWhile_eq_iff]
  simp only [Function.comp_apply, acked_shift_iff]

theorem ackPoint_shift_iff (ctx : Context) (h : STCPHeader) (a b : TcpSeq) :
    ackPoint (ctx.shift a b).sendUnack (h.shift a b) = ackPoint ctx.sendUnack h + b ↔
      (h.has TH.ack → SameLap ctx.sendUnack h.thAck b 0) := by
  have hcmp : (ctx.sendUnack + b ≤ h.thAck + b ↔ ctx.sendUnack ≤ h.thAck) ↔
      SameLap ctx.sendUnack h.thAck b 0 := shift_agrees_iff ctx.sendUnack h.thAck b 0
  rw [← hcmp]
  show (if h.has TH.ack ∧ ctx.sendUnack + b ≤ h.thAck + b then h.thAck + b
      else ctx.sendUnack + b) = _ ↔ _
  unfold ackPoint
  by_cases hack : h.has TH.ack
  · by_cases hadv : ctx.sendUnack ≤ h.thAck
    · by_cases hadv' : ctx.sendUnack + b ≤ h.thAck + b
      · simp [hack, hadv, hadv']
      · -- the acknowledgment is missed
        have hne : ctx.sendUnack ≠ h.thAck := by
          intro heq
          rw [heq] at hadv'
          exact hadv' (BitVec.le_refl _)
        simp [hack, hadv, hadv', hne]
    · by_cases hadv' : ctx.sendUnack + b ≤ h.thAck + b
      · -- an old one is taken
        have hne : h.thAck ≠ ctx.sendUnack := by
          intro heq
          rw [heq] at hadv
          exact hadv (BitVec.le_refl _)
        simp [hack, hadv, hadv', hne]
      · simp [hack, hadv, hadv']
  · simp [hack]

theorem recvHeader_eq (ctx : Context) (h : STCPHeader) :
    recvHeader ctx h =
      { ctx with
        sendUnack := ackPoint ctx.sendUnack h
        unackdPackets := ctx.unackdPackets.dropWhile (PacketT.acked (ackPoint ctx.sendUnack h))
        rto := fun n => ctx.rto (n + 1)
        recvNext := if h.has TH.syn then h.thSeq + 1 else ctx.recvNext
        sendWind := if h.thWin.toNat ≤ winLen then h.thWin.setWidth 32
                    else BitVec.ofNat 32 winLen } := by
  unfold recvHeader updateSendWind updateRecvNext packetTRemove updateSendUnack ackPoint
  split <;> split <;> rfl

theorem recvHeader_shift_iff (ctx : Context) (h : STCPHeader) (a b : TcpSeq) :
    recvHeader (ctx.shift a b) (h.shift a b) = (recvHeader ctx h).shift a b ↔
      (h.has TH.ack → SameLap ctx.sendUnack h.thAck b 0) ∧
      ∀ (front : List PacketT) (q : PacketT) (rest : List PacketT),
        ctx.unackdPackets = front ++ q :: rest → (∀ x ∈ front, x.acked (ackPoint ctx.sendUnack h)) →
        SameLap q.seqNum (ackPoint ctx.sendUnack h) b q.packet.data.length := by
  have hnext : (if h.has TH.syn then h.thSeq + a + 1 else ctx.recvNext + a)
      = (if h.has TH.syn then h.thSeq + 1 else ctx.recvNext) + a := by
    split
    next => exact add_right_comm _ _ _
    next => rfl
  rw [← ackPoint_shift_iff ctx h a b, ← unackd_shift_iff, recvHeader_eq, recvHeader_eq]
  constructor
  · intro heq
    have hpoint : ackPoint (ctx.shift a b).sendUnack (h.shift a b) = ackPoint ctx.sendUnack h + b :=
      congrArg Context.sendUnack heq
    refine ⟨hpoint, ?_⟩
    have hlist := congrArg Context.unackdPackets heq
    rw [hpoint] at hlist
    exact hlist
  · intro ⟨hpoint, hlist⟩
    rw [hpoint]
    simp only [Context.shift, Context.mk.injEq, true_and]
    exact ⟨rfl, hnext, hlist⟩

/-! ## The whole of it -/

/-- A difference does not see the shift. -/
theorem behind_shift (ctx : Context) (p : Packet) (a b : TcpSeq) :
    Behind (ctx.shift a b) (p.shift a b) ↔ Behind ctx p := by
  show p.paylen ≠ 0 ∧ (p.header.thSeq + a - (ctx.recvNext + a)).toInt < 0 ↔ _
  rw [add_sub_add_right_eq_sub]
  exact Iff.rfl

theorem beyond_shift (ctx : Context) (p : Packet) (a b : TcpSeq) :
    Beyond (ctx.shift a b) (p.shift a b) ↔ Beyond ctx p := by
  show p.paylen ≠ 0 ∧ winLen < (p.header.thSeq + a - (ctx.recvNext + a)).toInt ↔ _
  rw [add_sub_add_right_eq_sub]
  exact Iff.rfl

/-- A run that does not see the shift takes the same segments for old. -/
theorem allOld_of_shiftInvariant {ctx : Context} {p : Packet} {a b : TcpSeq}
    (hinv : ShiftInvariant ctx p a b) (hbehind : Behind ctx p) :
    AllOld (ctx.shift a b).recvNext (p.shift a b) ↔ AllOld ctx.recvNext p := by
  have hnot : ¬ Beyond ctx p := by
    intro hb
    have hneg := hbehind.2
    have hpos := hb.2
    omega
  cases hrun : recvPayload ctx p with
  | none => exact absurd (recvPayload_eq_none.mp hrun) hnot
  | some r =>
    cases hrun' : recvPayload (ctx.shift a b) (p.shift a b) with
    | none => exact absurd ((beyond_shift ctx p a b).mp (recvPayload_eq_none.mp hrun')) hnot
    | some r' =>
      have hret : r'.2 = r.2 := by
        unfold ShiftInvariant at hinv
        rw [recvPacket_taken hrun, recvPacket_taken hrun'] at hinv
        exact congrArg (fun t => t.2.2) hinv
      rw [← recvPayload_old ((behind_shift ctx p a b).mpr hbehind) hrun', hret,
        recvPayload_old hbehind hrun]

/-- A run that does not see the shift stores the same bytes. -/
theorem sameBytes_of_shiftInvariant {ctx : Context} {p : Packet} {a b : TcpSeq}
    (hinv : ShiftInvariant ctx p a b) : SameBytes ctx p a b := by
  intro c hpay hclip
  have hclip' := clipPayload_shift hpay (allOld_of_shiftInvariant hinv)
  have hrun : recvPayload ctx p = some (storeClip ctx p c) := by
    rw [recvPayload, if_neg hpay, hclip]
    rfl
  have hrun' : recvPayload (ctx.shift a b) (p.shift a b)
      = some (storeClip (ctx.shift a b) (p.shift a b) c) := by
    rw [recvPayload, paylen_shift, if_neg hpay, hclip', hclip]
    rfl
  unfold ShiftInvariant at hinv
  rw [recvPacket_taken hrun, recvPacket_taken hrun'] at hinv
  have hbuf := congrArg (fun r => r.1.recvBuffer) hinv
  simp only at hbuf
  rw [(recvHeader_frame _ _).2.2.2.1] at hbuf
  have hbuf' := hbuf.trans (recvHeader_frame (storeClip ctx p c).1 p.header).2.2.2.1
  exact (writeAt_inj (by rw [payload_length, payload_length])).mp hbuf'

/-- With the payload part the same, the header part decides. -/
theorem shiftInvariant_header {ctx ctx' : Context} {p : Packet} {a b : TcpSeq} {n : Int}
    (hrun : recvPayload ctx p = some (ctx', n))
    (hold : Behind ctx p →
      (AllOld (ctx.shift a b).recvNext (p.shift a b) ↔ AllOld ctx.recvNext p))
    (hbytes : SameBytes ctx p a b) :
    ShiftInvariant ctx p a b ↔
      (p.header.has TH.ack → SameLap ctx.sendUnack p.header.thAck b 0) ∧
      ∀ (front : List PacketT) (q : PacketT) (rest : List PacketT),
        ctx.unackdPackets = front ++ q :: rest →
        (∀ x ∈ front, x.acked (ackPoint ctx.sendUnack p.header)) →
        SameLap q.seqNum (ackPoint ctx.sendUnack p.header) b q.packet.data.length := by
  have hshift : recvPayload (ctx.shift a b) (p.shift a b) = some (ctx'.shift a b, n) := by
    rw [recvPayload_shift hold hbytes, hrun]
    rfl
  obtain ⟨-, -, hunack, -, hlist⟩ := recvPayload_frame hrun
  have hpoint : ackPoint ctx.sendUnack p.header = ackPoint ctx'.sendUnack p.header := by
    unfold ackPoint
    rw [hunack]
  rw [hpoint, ← hunack, ← hlist, ← recvHeader_shift_iff ctx' p.header a b]
  unfold ShiftInvariant
  rw [recvPacket_taken hrun, recvPacket_taken hshift]
  unfold shiftResult
  constructor
  · intro heq
    exact congrArg Prod.fst heq
  · intro heq
    exact congrArg (fun c => (c, p.header.shift a b, n)) heq

/-- `recv_packet` does not see a shift of the sequence numbers if and only if the
segment's payload starts beyond the window or no comparison straddles the wrap
point and no number of the header that the shift changes is copied with the payload. -/
theorem shiftInvariant_iff {ctx : Context} {p : Packet} {a b : TcpSeq}
    (hlen : p.data.length < 2 ^ 63) :
    ShiftInvariant ctx p a b ↔ Beyond ctx p ∨ NoStraddle ctx p a b := by
  cases hrun : recvPayload ctx p with
  | none =>
    have hbeyond := recvPayload_eq_none.mp hrun
    have hrun' := recvPayload_eq_none.mpr ((beyond_shift ctx p a b).mpr hbeyond)
    refine iff_of_true ?_ (Or.inl hbeyond)
    unfold ShiftInvariant
    rw [recvPacket_dropped hrun, recvPacket_dropped hrun']
    rfl
  | some r =>
    have hnot : ¬ Beyond ctx p := by
      rw [← recvPayload_eq_none, hrun]
      simp
    constructor
    · intro hinv
      have hold := allOld_of_shiftInvariant hinv
      have hbytes := sameBytes_of_shiftInvariant hinv
      obtain ⟨hack, hlisted⟩ := (shiftInvariant_header hrun hold hbytes).mp hinv
      exact Or.inr
        { seq := fun hb => ((allOld_shift_iff hlen hb).mp (hold hb)).1
          seqShort := fun hb => ((allOld_shift_iff hlen hb).mp (hold hb)).2
          ack := hack
          listed := hlisted
          bytes := (sameBytes_iff hlen).mp hbytes }
    · intro hcond
      have hgood := hcond.resolve_left hnot
      have hold : Behind ctx p →
          (AllOld (ctx.shift a b).recvNext (p.shift a b) ↔ AllOld ctx.recvNext p) :=
        fun hb => (allOld_shift_iff hlen hb).mpr ⟨hgood.seq hb, hgood.seqShort hb⟩
      exact (shiftInvariant_header hrun hold ((sameBytes_iff hlen).mpr hgood.bytes)).mpr
        ⟨hgood.ack, hgood.listed⟩

/-- A sender that has one byte outstanding, and the acknowledgment of it. -/
def oneOutstanding : Context where
  connectionState := .established
  initialSequenceNum := 0
  sendUnack := 1
  sendNext := 2
  sendWind := 3072
  recvNext := 1
  recvBuffer := fun _ => 0
  recvIndicator := fun _ => false
  rto := fun _ => 0
  unackdPackets := [⟨0, 1, makeStcpPacket TH.ack 1 1 [0x61]⟩]

def acksIt : Packet := makeStcpPacket TH.ack 1 2 []

theorem shiftInvariant_oneOutstanding : ShiftInvariant oneOutstanding acksIt 7 7 := by
  have hpay : acksIt.paylen = 0 := by decide
  refine (shiftInvariant_iff (by decide)).mpr (Or.inr ?_)
  have hoff : wordSize * acksIt.header.thOff.toNat = 20 := by decide
  refine ⟨fun hb => absurd hpay hb.1, fun hb => absurd hpay hb.1, ?_, ?_,
    fun i _ htop => by omega⟩
  · intro _
    exact Or.inl (by decide)
  · intro front q rest hlist _
    cases front with
    | nil =>
      obtain ⟨rfl, -⟩ := List.cons.inj hlist
      exact Or.inl (by decide)
    | cons x front =>
      have hlen := congrArg List.length hlist
      simp [oneOutstanding] at hlen

/-- With our numbers shifted so that the acknowledgment is number 0, it does not
advance `send_unack`. -/
theorem shift_missed_ack :
    (acksIt.header.thSeq - oneOutstanding.recvNext).toInt = 0 ∧
    (acksIt.header.thAck - oneOutstanding.sendUnack).toInt = 1 ∧
    ¬ ShiftInvariant oneOutstanding acksIt 0 0xFFFFFFFE := by
  refine ⟨by decide, by decide, ?_⟩
  intro hinv
  have hunack := congrArg (fun r => r.1.sendUnack) hinv
  exact absurd hunack (by decide)

end UchiNetworks.Stcp
