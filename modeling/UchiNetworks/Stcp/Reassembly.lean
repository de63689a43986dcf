import UchiNetworks.Stcp.Fin

/-!
# STCP: reassembly from any segments

A receiver that expects the byte `base` next is given slices of a stream that
starts there, in any order and as often as one likes. What it passes up is the
stream up to `recv_next`, and what its window holds is the stream's.

The code finds a segment's place with `int buffer_offset`, the difference of the
sequence numbers. Half the number space ahead the `int` is negative, and the
segment is taken for an old one of which `recv_next - th_seq` bytes are to be
skipped (`far_segment`); nearly all of the number space behind, it is positive
and small. Every other segment is handled right (`reassembled_of_near`).
-/

namespace UchiNetworks.Stcp

open UchiNetworks.Lib

/-- A receiver, and the bytes that have gone to `stcp_app_send` so far. -/
structure Receiver where
  ctx : Context
  passed : List UInt8

/-- The `NETWORK_DATA` branch takes a segment. -/
def Receiver.take (r : Receiver) (p : Packet) : Receiver where
  ctx := (handleNetworkData r.ctx (some p)).1
  passed := r.passed ++ deliveredOf (handleNetworkData r.ctx (some p)).2.2

/-- A segment with a slice of `S`, whose first byte has the number `base`. -/
structure Slice (base : Nat) (S : List UInt8) (p : Packet) : Prop where
  off : p.header.thOff = offset
  len : p.data.length ≤ maxLen
  syn : p.header.has TH.syn = false
  fin : p.header.has TH.fin = false
  slice : ∃ i, p.header.thSeq.toNat = base + i ∧ i + p.data.length ≤ S.length ∧
    p.data = (S.drop i).take p.data.length

/-- A segment with data is less than half the number space ahead of `recv_next`, and
not so far behind it that its number comes up in the window again. -/
def Near (r : Receiver) (p : Packet) : Prop :=
  p.data ≠ [] → p.header.thSeq.toNat < r.ctx.recvNext.toNat + 0x80000000 ∧
    r.ctx.recvNext.toNat + winLen ≤ p.header.thSeq.toNat + 0x100000000

instance (r : Receiver) (p : Packet) : Decidable (Near r p) :=
  inferInstanceAs (Decidable (_ → _))

/-- Everything below `recv_next` has been passed up, and the window holds the
stream. -/
structure Reassembled (base : Nat) (S : List UInt8) (r : Receiver) : Prop where
  passed : r.passed = S.take (r.ctx.recvNext.toNat - base)
  first : r.ctx.recvIndicator 0 = false
  holds : ∀ j, j < winLen → r.ctx.recvIndicator j = true →
    S[r.ctx.recvNext.toNat - base + j]? = some (r.ctx.recvBuffer j)

theorem Slice.piece {base : Nat} {S : List UInt8} {p : Packet} (h : Slice base S p) :
    Piece base S p := by
  obtain ⟨i, hseq, hin, hdata⟩ := h.slice
  have hi : p.header.thSeq.toNat - base = i := by omega
  exact ⟨h.off, h.len, by omega, by omega, by rw [hi]; exact hdata⟩

/-! ## No cell past the number space -/

/-- The marked cells of the window have numbers. -/
def Inside (ctx : Context) : Prop :=
  ∀ j, j < winLen → ctx.recvIndicator j = true → ctx.recvNext.toNat + j < 0x100000000

/-- A clip of a slice that is near ends where the stream does or before. -/
theorem clip_inside {base : Nat} {S : List UInt8} {r : Receiver} {p : Packet} {c : Clip}
    (hp : Slice base S p) (hsmall : base + S.length < 2 ^ 32)
    (hahead : p.header.thSeq.toNat < r.ctx.recvNext.toNat + 0x80000000)
    (hbehind : r.ctx.recvNext.toNat + winLen ≤ p.header.thSeq.toNat + 0x100000000)
    (hc : clipPayload r.ctx.recvNext p = some c) (hpos : 0 < c.len) :
    r.ctx.recvNext.toNat + (c.cell + c.len) ≤ base + S.length := by
  obtain ⟨i, hseq, hin, -⟩ := hp.slice
  have hpl : p.paylen = p.data.length := paylen_eq hp.off hp.len
  have hmax := hp.len
  have hnext := r.ctx.recvNext.isLt
  unfold maxLen at hmax
  unfold clipPayload at hc
  rw [hpl] at hc
  rcases Nat.lt_or_ge p.header.thSeq.toNat r.ctx.recvNext.toNat with hlt | hge
  · rcases Nat.lt_or_ge (2 ^ 31) (r.ctx.recvNext.toNat - p.header.thSeq.toNat) with hfar | hclose
    · -- read as ahead, but beyond the window or at its very end
      rw [toInt_sub_wrapped hlt (by omega)] at hc
      simp only [Int.natCast_nonneg, not_lt, if_neg, Int.toNat_natCast] at hc
      split at hc
      next => exact absurd hc (by simp)
      next hwin =>
        obtain rfl := Option.some.inj hc
        simp only at hpos
        omega
    · rw [toInt_sub_behind hlt (by omega)] at hc
      rw [if_pos (by omega), sizeAdd_of_lt (by omega)] at hc
      split at hc
      next =>
        obtain rfl := Option.some.inj hc
        exact absurd hpos (Nat.lt_irrefl 0)
      next hnew =>
        have hpast : (r.ctx.recvNext - p.header.thSeq).toNat
            = r.ctx.recvNext.toNat - p.header.thSeq.toNat := by
          rw [BitVec.toNat_sub]
          omega
        have hwrap : sizeSub p.data.length (r.ctx.recvNext.toNat - p.header.thSeq.toNat)
            = p.data.length - (r.ctx.recvNext.toNat - p.header.thSeq.toNat) :=
          sizeSub_of_le (by omega)
        rw [hpast] at hc
        obtain rfl := Option.some.inj hc
        simp only [hwrap]
        omega
  · rw [toInt_sub_ahead hge (by omega)] at hc
    simp only [Int.natCast_nonneg, not_lt, if_neg, Int.toNat_natCast] at hc
    split at hc
    next => exact absurd hc (by simp)
    next =>
      obtain rfl := Option.some.inj hc
      simp only
      omega

/-- Storing a clip, `recv_next` moves on and the marked cells move with it only
when the window slides; here they are still where they were. -/
theorem recvPayload_inside {base : Nat} {S : List UInt8} {r : Receiver} {p : Packet}
    {ctx' : Context} {n : Int} (hp : Slice base S p) (hsmall : base + S.length < 2 ^ 32)
    (hnear : Near r p) (hin : Inside r.ctx) (h : recvPayload r.ctx p = some (ctx', n)) :
    ∀ j, j < winLen → ctx'.recvIndicator j = true → r.ctx.recvNext.toNat + j < 0x100000000 := by
  unfold recvPayload at h
  split at h
  next =>
    rw [← (Prod.mk.inj (Option.some.inj h)).1]
    exact hin
  next hlen =>
    obtain ⟨hahead, hbehind⟩ := hnear fun hnil => hlen (paylen_bare hp.off hnil)
    obtain ⟨c, hc, hstore⟩ := Option.map_eq_some_iff.mp h
    rw [← (Prod.mk.inj hstore).1]
    intro j hj hmark
    rcases markAt_true.mp hmark with hold | ⟨hlo, hhi⟩
    · exact hin j hj hold
    · have hend := clip_inside hp hsmall hahead hbehind hc (by omega)
      omega

/-! ## One segment -/

/-- What a segment of the stream does to the window and to what is passed up. -/
structure ReassemblyInv (base : Nat) (S : List UInt8) (r : Receiver) : Prop where
  recv : RecvInv base S r.passed r.ctx
  inside : Inside r.ctx

theorem ReassemblyInv.reassembled {base : Nat} {S : List UInt8} {r : Receiver}
    (h : ReassemblyInv base S r) : Reassembled base S r := by
  have hnext := h.recv.next
  have hpos : r.ctx.recvNext.toNat - base = r.passed.length := by omega
  refine ⟨?_, h.recv.gap, ?_⟩
  · rw [hpos]
    exact List.prefix_iff_eq_take.mp h.recv.pre
  · intro j hj hmark
    rw [hpos]
    rcases h.recv.fits j hj hmark with hin | hfar
    · exact hin
    · have hlt := h.inside j hj hmark
      omega

/-- The window after the run at its front has been passed up. -/
theorem inside_deliver {base : Nat} {S D : List UInt8} {ctx : Context} {n : Int} {x : Nat}
    (hA : Arrived base S D ctx n) (hx : x = base + D.length)
    (hin : ∀ j, j < winLen → ctx.recvIndicator j = true → x + j < 0x100000000) :
    Inside (deliver ctx n).1 := by
  have hnext := hA.next
  have hrecv : (deliver ctx n).1.recvNext = ctx.recvNext := (deliver_frame ctx n).2.2.2.2.1
  intro j hj hmark
  rw [hrecv]
  unfold deliver at hmark
  split at hmark
  next =>
    -- the cell has moved down by the run
    simp only [slideWindow, slide] at hmark
    split at hmark
    next hlt =>
      have hold := hin _ hlt hmark
      omega
    next => exact absurd hmark Bool.false_ne_true
  next hneg =>
    have hgap : firstGap ctx.recvIndicator winLen = 0 := by
      rcases hA.count with hcount | ⟨-, hcount⟩
      · omega
      · exact hcount
    have hold := hin j hj hmark
    omega

/-- **A near segment of the stream**, wherever it lies. -/
theorem ReassemblyInv.step {base : Nat} {S : List UInt8} {r : Receiver} {p : Packet}
    (h : ReassemblyInv base S r) (hp : Slice base S p) (hsmall : base + S.length < 2 ^ 32)
    (hnear : Near r p) : ReassemblyInv base S (r.take p) := by
  have hclose : p.data ≠ [] → p.header.thSeq.toNat < r.ctx.recvNext.toNat + 2 ^ 31 :=
    fun hdata => (hnear hdata).1
  have hrecv := recvPacket_recvInv h.recv hp.piece hp.syn hsmall hclose
  have hwin : Inside (deliver (recvPacket r.ctx (some p)).1 (recvPacket r.ctx (some p)).2.2).1 := by
    cases hpay : recvPayload r.ctx p with
    | none =>
      rw [recvPacket_dropped hpay]
      exact h.inside
    | some v =>
      obtain ⟨ctx', n⟩ := v
      rw [recvPacket_taken hpay]
      obtain ⟨-, -, -, -, hind⟩ := recvHeader_frame ctx' p.header
      refine inside_deliver ((recvPayload_inv h.recv hp.piece hsmall hclose hpay).recvHeader hp.syn)
        h.recv.next ?_
      rw [hind]
      exact recvPayload_inside hp hsmall hnear h.inside hpay
  -- without a FIN teardown leaves the receive side alone
  obtain ⟨hbuf, hind, hdel⟩ := teardown_window
    (deliver (recvPacket r.ctx (some p)).1 (recvPacket r.ctx (some p)).2.2).1 p.header
  have hno : ¬(p.header.has TH.fin = true ∧ (deliver (recvPacket r.ctx (some p)).1
      (recvPacket r.ctx (some p)).2.2).1.looksAtFin p.header) :=
    fun hfin => absurd (hp.fin.symm.trans hfin.1) Bool.false_ne_true
  have hnext := (teardown_noFin hno).1
  have hctx : (r.take p).ctx = (teardown (deliver (recvPacket r.ctx (some p)).1
      (recvPacket r.ctx (some p)).2.2).1 p.header).1 := by
    show (handleNetworkData r.ctx (some p)).1 = _
    rw [handleNetworkData_eq, recvPacket_header]
  have hpassed : (r.take p).passed = r.passed ++ deliveredOf
      (deliver (recvPacket r.ctx (some p)).1 (recvPacket r.ctx (some p)).2.2).2 := by
    show r.passed ++ deliveredOf (handleNetworkData r.ctx (some p)).2.2 = _
    rw [handleNetworkData_eq, recvPacket_header, deliveredOf_append, deliveredOf_append,
      deliveredOf_ackCalls, hdel, List.nil_append, List.append_nil]
  refine ⟨?_, ?_⟩
  · rw [hpassed, hctx]
    exact hrecv.of_eq hnext hbuf hind
  · rw [hctx]
    intro j hj hmark
    rw [hnext]
    rw [hind] at hmark
    exact hwin j hj hmark

/-! ## A run -/

/-- **Reassembly**: in every run of segments that are near when they arrive, what
has been passed up is the stream up to `recv_next`, and the window holds the
stream. -/
theorem reassembled_of_near {S : List UInt8} {ctx : Context} {ps : List Packet}
    (hempty : ∀ j, j < winLen → ctx.recvIndicator j = false)
    (hsmall : ctx.recvNext.toNat + S.length < 2 ^ 32)
    (hslices : ∀ p ∈ ps, Slice ctx.recvNext.toNat S p)
    (hnear : Along Receiver.take Near ⟨ctx, []⟩ ps) :
    ∀ pre, pre <+: ps → Reassembled ctx.recvNext.toNat S (run Receiver.take ⟨ctx, []⟩ pre) := by
  have hstart : ReassemblyInv ctx.recvNext.toNat S ⟨ctx, []⟩ := by
    refine ⟨⟨by simp, List.nil_prefix, ?_, hempty 0 (by decide)⟩, ?_⟩
    · intro j hj hmark
      exact absurd ((hempty j hj).symm.trans hmark) Bool.false_ne_true
    · intro j hj hmark
      exact absurd ((hempty j hj).symm.trans hmark) Bool.false_ne_true
  intro pre hpre
  obtain ⟨rest, rfl⟩ := hpre
  obtain ⟨hpre, -⟩ := (along_append _ _ _ _ _).mp hnear
  have hgen : ∀ (ps : List Packet) (r : Receiver), ReassemblyInv ctx.recvNext.toNat S r →
      (∀ p ∈ ps, Slice ctx.recvNext.toNat S p) → Along Receiver.take Near r ps →
      ReassemblyInv ctx.recvNext.toNat S (run Receiver.take r ps) := by
    intro ps
    induction ps with
    | nil => exact fun r h _ _ => h
    | cons p ps ih =>
      intro r h hps hal
      exact ih (r.take p) (h.step (hps p List.mem_cons_self) hsmall hal.1)
        (fun q hq => hps q (List.mem_cons_of_mem p hq)) hal.2
  exact (hgen pre _ hstart (fun p hp => hslices p (List.mem_append_left _ hp)) hpre).reassembled

/-- A receiver that expects the byte `next`, and has nothing in its window. -/
def expecting (next : TcpSeq) : Context :=
  { Context.init 0 (fun _ => 0) with connectionState := .established, recvNext := next }

theorem reassembled_expecting :
    Reassembled 5 [97, 98, 99] (run Receiver.take ⟨expecting 5, []⟩
      [makeStcpPacket TH.ack 6 0 [98, 99], makeStcpPacket TH.ack 5 0 [97, 98]]) := by
  have hsmall : (expecting 5).recvNext.toNat + ([97, 98, 99] : List UInt8).length < 2 ^ 32 := by
    decide
  refine reassembled_of_near (fun _ _ => rfl) hsmall ?_ ?_ _ (List.prefix_refl _)
  · intro p hp
    rcases List.mem_cons.mp hp with rfl | hp
    · exact ⟨rfl, by decide, by decide, by decide, 1, by decide, by decide, by decide⟩
    · rw [List.mem_singleton.mp hp]
      exact ⟨rfl, by decide, by decide, by decide, 0, by decide, by decide, by decide⟩
  · refine ⟨by decide, ?_, trivial⟩
    decide +kernel

theorem slice_replicate (n : Nat) (a : UInt8) :
    [a] = ((List.replicate (n + 1) a).drop n).take [a].length := by
  rw [List.drop_replicate, Nat.add_sub_cancel_left]
  rfl

/-- One byte, half the number space ahead: out of the window, and yet a window
full of what lies behind the datagram's buffer is passed up. -/
def farByte : Packet := makeStcpPacket TH.ack 0x80000000 0 [65]

theorem far_segment :
    (∀ j, j < winLen → (expecting 0).recvIndicator j = false) ∧
    (expecting 0).recvNext.toNat + (List.replicate (0x80000000 + 1) (65 : UInt8)).length < 2 ^ 32 ∧
    Slice (expecting 0).recvNext.toNat (List.replicate (0x80000000 + 1) 65) farByte ∧
    ¬ Reassembled (expecting 0).recvNext.toNat (List.replicate (0x80000000 + 1) 65)
      (run Receiver.take ⟨expecting 0, []⟩ [farByte]) := by
  refine ⟨fun _ _ => rfl, ?_, ?_, ?_⟩
  · rw [List.length_replicate]
    decide
  · refine ⟨rfl, by decide, by decide, by decide, 0x80000000, by decide, ?_, slice_replicate _ _⟩
    rw [List.length_replicate]
    decide
  · intro h
    have hhead : (run Receiver.take ⟨expecting 0, []⟩ [farByte]).passed[0]? = some 0 := by
      decide +kernel
    have hnext : (run Receiver.take ⟨expecting 0, []⟩ [farByte]).ctx.recvNext.toNat
        - (expecting 0).recvNext.toNat = 3072 := by
      decide +kernel
    rw [h.passed, hnext, List.getElem?_take_of_lt (by decide), List.getElem?_replicate,
      if_pos (by decide)] at hhead
    exact absurd hhead (by decide)

end UchiNetworks.Stcp
