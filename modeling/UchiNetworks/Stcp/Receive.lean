import UchiNetworks.Lib.Serial
import UchiNetworks.Stcp.Endpoint

/-!
# STCP: what the receiver knows

`RecvInv b T D ctx` relates a receiver's context to the stream `T` its peer
sends from sequence number `b` on and the bytes `D` it has passed up so far:
`recv_next` is the number of the next byte to pass up, `D` is a prefix of `T`,
and every marked cell of the out-of-order buffer is the stream's byte at its
place. A datagram that carries a piece of the stream (`Piece`) keeps this,
whatever its place (`recvPayload_inv`, `deliver_inv`): old, partly old, the
next one, ahead of a gap, or beyond the window.

One case has no counterpart in the protocol. A piece so old that its number is
more than half the number space behind `recv_next` is taken for a new one, and
if it is old by almost the whole space it is stored. Its cells then lie at
numbers past `2 ^ 32`, where the stream never gets (`RecvInv.fits`' bound), so
it is never passed up.
-/

namespace UchiNetworks.Stcp

open UchiNetworks.Lib

/-- `p` carries the bytes of the stream `T` at its own sequence number, `b`
being the number of `T`'s first byte. -/
structure Piece (b : Nat) (T : List UInt8) (p : Packet) : Prop where
  off : p.header.thOff = offset
  len : p.data.length ≤ maxLen
  lo : b ≤ p.header.thSeq.toNat
  hi : p.header.thSeq.toNat - b + p.data.length ≤ T.length
  slice : p.data = (T.drop (p.header.thSeq.toNat - b)).take p.data.length

theorem Piece.mono {b : Nat} {T T' : List UInt8} {p : Packet} (h : Piece b T p)
    (hT : T <+: T') : Piece b T' p := by
  have hhi := h.hi
  refine ⟨h.off, h.len, h.lo, hhi.trans hT.length_le, ?_⟩
  obtain ⟨rest, rfl⟩ := hT
  rw [List.drop_append_of_le_length (by omega), List.take_append_of_le_length
    (by rw [List.length_drop]; omega)]
  exact h.slice

/-- Byte `k` of a piece. -/
theorem Piece.getElem? {b k : Nat} {T : List UInt8} {p : Packet} (h : Piece b T p)
    (hk : k < p.data.length) : T[p.header.thSeq.toNat - b + k]? = p.data[k]? := by
  rw [h.slice, List.getElem?_take_of_lt hk, List.getElem?_drop]

/-- The receiver's half of the connection, against the peer's stream `T` from
number `b` and the bytes `D` passed up. -/
structure RecvInv (b : Nat) (T D : List UInt8) (ctx : Context) : Prop where
  next : ctx.recvNext.toNat = b + D.length
  pre : D <+: T
  fits : Fits T (2 ^ 32 - b) D.length winLen ctx.recvBuffer ctx.recvIndicator
  gap : ctx.recvIndicator 0 = false

/-- A stored clip consists of the stream's bytes at its cells, or lies past the
number space. -/
theorem clipPayload_slice {b : Nat} {T D : List UInt8} {ctx : Context} {p : Packet} {c : Clip}
    (hR : RecvInv b T D ctx) (hp : Piece b T p) (hsmall : b + T.length < 2 ^ 32)
    (hnear : p.header.thSeq.toNat < ctx.recvNext.toNat + 2 ^ 31)
    (hc : clipPayload ctx.recvNext p = some c) :
    (c.old = true → c.len = 0) ∧ c.skip + c.len ≤ p.data.length ∧
    ∀ k, k < c.len →
      T[D.length + (c.cell + k)]? = p.data[c.skip + k]? ∨
      2 ^ 32 - b ≤ D.length + (c.cell + k) := by
  have hpl : p.paylen = p.data.length := paylen_eq hp.off hp.len
  have hlo := hp.lo
  have hhi := hp.hi
  have hmax := hp.len
  have hnext := hR.next
  unfold clipPayload at hc
  rw [hpl] at hc
  unfold maxLen at hmax
  rcases Nat.lt_or_ge p.header.thSeq.toNat ctx.recvNext.toNat with hlt | hge
  · rcases Nat.lt_or_ge (2 ^ 31) (ctx.recvNext.toNat - p.header.thSeq.toNat) with hfar | hclose
    · -- more than half the number space behind: read as ahead
      rw [toInt_sub_wrapped hlt (by omega)] at hc
      simp only [Int.natCast_nonneg, not_lt, if_neg, Int.toNat_natCast] at hc
      split at hc
      next => exact absurd hc (by simp)
      next hin =>
        obtain rfl := Option.some.inj hc
        refine ⟨by simp, by simp only; omega, fun k hk => Or.inr ?_⟩
        simp only
        omega
    · -- behind: all of it old, or the tail is new
      rw [toInt_sub_behind hlt (by omega)] at hc
      rw [if_pos (by omega), sizeAdd_of_lt (by omega)] at hc
      split at hc
      next =>
        obtain rfl := Option.some.inj hc
        exact ⟨fun _ => rfl, Nat.zero_le _, fun k hk => absurd hk (Nat.not_lt_zero k)⟩
      next hnew =>
        have hpast : (ctx.recvNext - p.header.thSeq).toNat
            = ctx.recvNext.toNat - p.header.thSeq.toNat := by
          have := ctx.recvNext.isLt
          rw [BitVec.toNat_sub]
          omega
        rw [hpast] at hc
        obtain rfl := Option.some.inj hc
        have hwrap : sizeSub p.data.length (ctx.recvNext.toNat - p.header.thSeq.toNat)
            = p.data.length - (ctx.recvNext.toNat - p.header.thSeq.toNat) :=
          sizeSub_of_le (by omega)
        refine ⟨by simp, by simp only [hwrap]; omega, fun k hk => Or.inl ?_⟩
        simp only [hwrap] at hk ⊢
        rw [← hp.getElem? (by omega)]
        congr 1
        omega
  · -- ahead, or the next one
    rw [toInt_sub_ahead hge (by omega)] at hc
    simp only [Int.natCast_nonneg, not_lt, if_neg, Int.toNat_natCast] at hc
    split at hc
    next => exact absurd hc (by simp)
    next hin =>
      obtain rfl := Option.some.inj hc
      refine ⟨by simp, by simp only; omega, fun k hk => Or.inl ?_⟩
      simp only at hk ⊢
      rw [Nat.zero_add, ← hp.getElem? (by omega)]
      congr 1
      omega

/-- The state between storing a payload and passing the arrived run up. -/
structure Arrived (b : Nat) (T D : List UInt8) (ctx : Context) (n : Int) : Prop where
  next : ctx.recvNext.toNat = b + D.length + firstGap ctx.recvIndicator winLen
  pre : D <+: T
  fits : Fits T (2 ^ 32 - b) D.length winLen ctx.recvBuffer ctx.recvIndicator
  count : n = firstGap ctx.recvIndicator winLen ∨
    (n = -2 ∧ firstGap ctx.recvIndicator winLen = 0)

theorem RecvInv.arrived {b : Nat} {T D : List UInt8} {ctx : Context} (h : RecvInv b T D ctx) :
    Arrived b T D ctx 0 := by
  have hgap : firstGap ctx.recvIndicator winLen = 0 := firstGap_eq_zero h.gap
  exact ⟨by rw [hgap]; exact h.next, h.pre, h.fits, Or.inl (by rw [hgap]; rfl)⟩

/-- Nothing arrived at the front: the window stays where it is. -/
theorem Arrived.recvInv {b : Nat} {T D : List UInt8} {ctx : Context} {n : Int}
    (h : Arrived b T D ctx n) (hgap : firstGap ctx.recvIndicator winLen = 0) :
    RecvInv b T D ctx := by
  refine ⟨by rw [h.next, hgap, Nat.add_zero], h.pre, h.fits, ?_⟩
  have hstop := firstGap_stop (show firstGap ctx.recvIndicator winLen < winLen by
    rw [hgap]; decide)
  rwa [hgap] at hstop

/-- Storing a clip of a piece. -/
theorem storeClip_inv {b : Nat} {T D : List UInt8} {ctx : Context} {p : Packet} {c : Clip}
    (hR : RecvInv b T D ctx) (hp : Piece b T p) (hsmall : b + T.length < 2 ^ 32)
    (hnear : p.header.thSeq.toNat < ctx.recvNext.toNat + 2 ^ 31)
    (hc : clipPayload ctx.recvNext p = some c) :
    Arrived b T D (storeClip ctx p c).1 (storeClip ctx p c).2 := by
  obtain ⟨hold, hin, hslice⟩ := clipPayload_slice hR hp hsmall hnear hc
  have hpay : p.payload c.skip c.len = (p.data.drop c.skip).take c.len :=
    payload_eq hp.off hp.len hin
  have hlen : (p.payload c.skip c.len).length = c.len := by
    rw [hpay, List.length_take, List.length_drop]
    omega
  have hfits : Fits T (2 ^ 32 - b) D.length winLen
      (writeAt ctx.recvBuffer c.cell (p.payload c.skip c.len))
      (markAt ctx.recvIndicator c.cell c.len) := by
    conv => arg 6; rw [← hlen]
    refine fits_write ?_ hR.fits
    intro k hk
    rw [hlen] at hk
    rw [hpay, List.getElem?_take_of_lt hk, List.getElem?_drop]
    exact hslice k hk
  have hrun := firstGap_le hfits (by omega) hR.pre.length_le
  have hnext := hR.next
  refine ⟨?_, hR.pre, hfits, ?_⟩
  · simp only [storeClip, BitVec.toNat_add, BitVec.toNat_ofNat]
    omega
  · simp only [storeClip]
    cases hco : c.old with
    | false => exact Or.inl (by simp)
    | true =>
      refine Or.inr ⟨by simp, ?_⟩
      rw [hold hco, markAt_zero]
      exact firstGap_eq_zero hR.gap

/-- **Receiving a piece of the stream**, wherever it lies. -/
theorem recvPayload_inv {b : Nat} {T D : List UInt8} {ctx ctx' : Context} {p : Packet} {n : Int}
    (hR : RecvInv b T D ctx) (hp : Piece b T p) (hsmall : b + T.length < 2 ^ 32)
    (hnear : p.data ≠ [] → p.header.thSeq.toNat < ctx.recvNext.toNat + 2 ^ 31)
    (h : recvPayload ctx p = some (ctx', n)) : Arrived b T D ctx' n := by
  unfold recvPayload at h
  split at h
  next =>
    obtain ⟨rfl, rfl⟩ := Prod.mk.inj (Option.some.inj h)
    exact hR.arrived
  next hlen =>
    have hdata : p.data ≠ [] := fun hnil => hlen (paylen_bare hp.off hnil)
    obtain ⟨c, hc, hstore⟩ := Option.map_eq_some_iff.mp h
    have := storeClip_inv hR hp hsmall (hnear hdata) hc
    rwa [hstore] at this

/-- The header part does not touch the receive side, except for a SYN. -/
theorem Arrived.recvHeader {b : Nat} {T D : List UInt8} {ctx : Context} {n : Int}
    {h : STCPHeader} (hA : Arrived b T D ctx n) (hsyn : h.has TH.syn = false) :
    Arrived b T D (recvHeader ctx h) n := by
  obtain ⟨-, -, -, hbuf, hind⟩ := recvHeader_frame ctx h
  have hnext : (Stcp.recvHeader ctx h).recvNext = ctx.recvNext := by
    rw [recvHeader_recvNext, hsyn]
    rfl
  exact ⟨by rw [hnext, hind]; exact hA.next, hA.pre, by rw [hbuf, hind]; exact hA.fits,
    by rw [hind]; exact hA.count⟩

/-- **Passing the arrived run up**: exactly the next bytes of the stream go to
the application and the window is back in step with `recv_next`. -/
theorem deliver_inv {b : Nat} {T D : List UInt8} {ctx : Context} {n : Int}
    (hA : Arrived b T D ctx n) (hsmall : b + T.length < 2 ^ 32) :
    RecvInv b T (D ++ deliveredOf (deliver ctx n).2) (deliver ctx n).1 := by
  have hbound : T.length < 2 ^ 32 - b := by omega
  unfold deliver
  split
  next hpos =>
    have hn : n = firstGap ctx.recvIndicator winLen := by
      rcases hA.count with h | ⟨h, -⟩
      · exact h
      · omega
    subst hn
    -- the front of the buffer is the next piece of the stream
    have hfront := front_eq_take hA.fits hbound hA.pre.length_le
    have hdel : deliveredOf [.appSend (front ctx.recvBuffer
        ((firstGap ctx.recvIndicator winLen : Nat) : Int).toNat)]
          = front ctx.recvBuffer (firstGap ctx.recvIndicator winLen) := by
      simp [deliveredOf]
    rw [hdel]
    refine ⟨?_, ?_, ?_, slide_front⟩
    · rw [List.length_append, front_length, ← Nat.add_assoc]
      exact hA.next
    · obtain ⟨rest, hrest⟩ := hA.pre
      rw [hfront]
      refine ⟨rest.drop (firstGap ctx.recvIndicator winLen), ?_⟩
      rw [← hrest, List.drop_left, List.append_assoc, List.take_append_drop]
    · rw [List.length_append, front_length]
      have := fits_slide (n := firstGap ctx.recvIndicator winLen) 0 hA.fits
      exact this
  next hneg =>
    have hgap : firstGap ctx.recvIndicator winLen = 0 := by
      rcases hA.count with h | ⟨-, h⟩
      · omega
      · exact h
    simp only [deliveredOf, List.flatMap_nil, List.append_nil]
    exact hA.recvInv hgap

/-- Events of the endpoint's own side leave the receive window alone and pass
nothing up. -/
theorem handleEvent_own {ctx : Context} {ev : Event} (hev : ∀ packet, ev ≠ .networkData packet) :
    (handleEvent ctx ev).1.recvNext = ctx.recvNext ∧
    (handleEvent ctx ev).1.recvBuffer = ctx.recvBuffer ∧
    (handleEvent ctx ev).1.recvIndicator = ctx.recvIndicator ∧
    deliveredOf (handleEvent ctx ev).2.2 = [] ∧ .finReceived ∉ (handleEvent ctx ev).2.2 := by
  cases ev with
  | appData queued =>
    simp only [handleEvent]
    rcases handleAppData_cases ctx queued with heq | ⟨buffer, -, -, -, heq⟩
    · rw [heq]
      exact ⟨rfl, rfl, rfl, rfl, by simp⟩
    · rw [heq]
      exact ⟨rfl, rfl, rfl, rfl, by simp⟩
  | networkData packet => exact absurd rfl (hev packet)
  | appCloseRequested =>
    simp only [handleEvent, handleClose]
    split
    next => exact ⟨rfl, rfl, rfl, rfl, by simp⟩
    next => exact ⟨rfl, rfl, rfl, rfl, by simp⟩
    next => exact ⟨rfl, rfl, rfl, rfl, by simp⟩
  | timeout =>
    refine ⟨rfl, rfl, rfl, ?_, ?_⟩
    · simp [handleEvent, handleTimeout, deliveredOf, List.flatMap_eq_nil_iff]
    · simp [handleEvent, handleTimeout]

theorem RecvInv.of_eq {b : Nat} {T D : List UInt8} {ctx ctx' : Context} (h : RecvInv b T D ctx)
    (hnext : ctx'.recvNext = ctx.recvNext) (hbuf : ctx'.recvBuffer = ctx.recvBuffer)
    (hind : ctx'.recvIndicator = ctx.recvIndicator) : RecvInv b T D ctx' :=
  ⟨by rw [hnext]; exact h.next, h.pre, by rw [hbuf, hind]; exact h.fits,
    by rw [hind]; exact h.gap⟩

end UchiNetworks.Stcp
