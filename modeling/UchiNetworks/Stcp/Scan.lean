import UchiNetworks.Stcp.Replay

/-!
# STCP: the scan of the indicator

`strchr(ctx->recv_indicator, '\0')` counts the bytes that have arrived in order,
in `recv_packet` and again before the window slides. The array has `WINLEN`
cells and no terminator after them, and `WINLEN` is also how much the peer may
have under way: when its first segment is the last to arrive, every cell is
marked and the scan runs on into `rto` (`window_filled`).

Whether it does so is a matter of numbers. A datagram that an endpoint has made
carries `th_seq`, `th_seq + 1`, and so on; the array is full when these are all
the numbers of the window that were missing (`Completes`, `filled_iff`).
-/

namespace UchiNetworks.Stcp

open UchiNetworks.Lib

/-- Is a datagram looked at? A thread in the handshake reads the list first where
it sets a timeout, one in the loop when something is unacknowledged. -/
def Endpoint.receiving (ep : Endpoint) : Prop :=
  (ep.status = .opening ∧ (ep.ctx.connectionState = .closed ∨
      (ep.ctx.connectionState = .synSent ∨ ep.ctx.connectionState = .synReceived) ∧
        ep.ctx.unackdPackets ≠ [])) ∨
    (ep.status = .running ∧ ep.ctx.timerFaults = false)

instance (ep : Endpoint) : Decidable ep.receiving :=
  inferInstanceAs (Decidable ((_ ∧ (_ ∨ (_ ∨ _) ∧ _)) ∨ _ ∧ _))

/-- The scan of `after`'s indicator ends at a zero byte of the array, and
`recv_next` has moved on from where it was in `before` by the bytes in front of
it, which have all arrived. -/
def ScanInside (before after : Context) : Prop :=
  ∃ j, j < winLen ∧ after.recvIndicator j = false ∧
    (∀ i, i < j → after.recvIndicator i = true) ∧
    after.recvNext = before.recvNext + BitVec.ofNat 32 j

/-- Every scan that the event leads to stays inside the array. -/
def ScansInside (ep : Endpoint) (ev : Event) : Prop :=
  ∀ p, ev = .networkData (some p) → ep.receiving → p.paylen ≠ 0 →
    ∀ ctx' n, recvPayload ep.ctx p = some (ctx', n) → ScanInside ep.ctx ctx'

/-- The datagram carries the byte numbered `n`. -/
def Packet.carries (p : Packet) (n : TcpSeq) : Prop :=
  ∃ i, i < p.data.length ∧ n = p.header.thSeq + BitVec.ofNat 32 i

/-- It ends behind `recv_next`, though its number is the greater one. What is new in
it is then a negative number of bytes, for a `size_t` more than the window holds. -/
def Packet.endsBehind (p : Packet) (recvNext : TcpSeq) : Prop :=
  recvNext < p.header.thSeq ∧ (p.header.thSeq - recvNext).toInt + p.data.length < 0

instance (p : Packet) (n : TcpSeq) : Decidable (p.carries n) :=
  inferInstanceAs (Decidable (∃ i, i < p.data.length ∧ n = p.header.thSeq + BitVec.ofNat 32 i))

instance (p : Packet) (recvNext : TcpSeq) : Decidable (p.endsBehind recvNext) :=
  inferInstanceAs (Decidable (_ ∧ _))

/-- The datagram brings all that is missing from the window. -/
def Completes (ctx : Context) (p : Packet) : Prop :=
  (p.header.thSeq - ctx.recvNext).toInt ≤ winLen ∧
    (p.endsBehind ctx.recvNext ∨ ∀ j, j < winLen →
      ctx.recvIndicator j = true ∨ p.carries (ctx.recvNext + BitVec.ofNat 32 j))

/-- No datagram that is looked at brings all that is missing from the window. -/
def LeavesGap (ep : Endpoint) (ev : Event) : Prop :=
  ∀ p, ev = .networkData (some p) → ep.receiving → p.data ≠ [] → ¬ Completes ep.ctx p

/-! ## The packets of a run -/

/-- A header without options, and no more data than fits a segment. -/
structure Standard (p : Packet) : Prop where
  off : p.header.thOff = offset
  len : p.data.length ≤ maxLen

theorem standard_ofMade : OfMade Standard := by
  refine ⟨?_, fun p a h => ⟨h.off, h.len⟩⟩
  intro f s a d hmade
  refine ⟨rfl, ?_⟩
  rcases hmade with ⟨-, hlen⟩ | ⟨rfl, -⟩
  · exact hlen
  · exact Nat.zero_le _

theorem Standard.paylen_ne {p : Packet} (h : Standard p) : p.paylen ≠ 0 ↔ p.data ≠ [] := by
  rw [paylen_eq h.off h.len, ne_eq, List.length_eq_zero_iff]

/-! ## When the array is full -/

/-- The numbers carried, as distances from `recv_next`. -/
theorem carries_iff {p : Packet} {recvNext : TcpSeq} {j : Nat} (hstd : Standard p)
    (hj : j < winLen) : p.carries (recvNext + BitVec.ofNat 32 j) ↔
      (p.header.thSeq - recvNext).toInt ≤ j ∧
        (j : Int) < (p.header.thSeq - recvNext).toInt + p.data.length := by
  have hlen := hstd.len
  unfold winLen at hj
  unfold maxLen at hlen
  obtain ⟨d, hd⟩ : ∃ d, d = p.header.thSeq - recvNext := ⟨_, rfl⟩
  have hseq : p.header.thSeq = recvNext + d := by rw [hd, add_sub_cancel]
  have hdist : ∀ i, recvNext + BitVec.ofNat 32 j = p.header.thSeq + BitVec.ofNat 32 i ↔
      j = (d.toNat + i) % 2 ^ 32 := by
    intro i
    rw [hseq, add_assoc, add_right_inj, ← BitVec.toNat_inj, BitVec.toNat_add, BitVec.toNat_ofNat,
      BitVec.toNat_ofNat, Nat.add_mod_mod, Nat.mod_eq_of_lt (show j < 2 ^ 32 by omega)]
  have hint := BitVec.toInt_eq_toNat_cond d
  have hlt := d.isLt
  rw [← hd]
  constructor
  · intro h
    obtain ⟨i, hi, heq⟩ := h
    rw [hdist] at heq
    split at hint <;> omega
  · intro h
    refine ⟨(j - d.toInt).toNat, by omega, (hdist _).mpr ?_⟩
    split at hint <;> omega

/-- What is old is not stored. -/
theorem clipPayload_old {recvNext : TcpSeq} {p : Packet} {c : Clip}
    (hc : clipPayload recvNext p = some c) (hold : c.old = true) : c.len = 0 := by
  unfold clipPayload at hc
  dsimp only at hc
  split at hc
  next =>
    split at hc
    next => rw [← Option.some.inj hc]
    next => rw [← Option.some.inj hc] at hold; cases hold
  next =>
    split at hc
    next => cases hc
    next => rw [← Option.some.inj hc] at hold; cases hold

/-- The cells of a clip are those of the numbers carried, or all there are. -/
theorem clipPayload_cells {recvNext : TcpSeq} {p : Packet} {c : Clip} (hstd : Standard p)
    (hc : clipPayload recvNext p = some c) :
    (p.header.thSeq - recvNext).toInt ≤ winLen ∧ ∀ j, j < winLen →
      ((c.cell ≤ j ∧ j < c.cell + c.len) ↔
        p.endsBehind recvNext ∨ p.carries (recvNext + BitVec.ofNat 32 j)) := by
  have hpl : p.paylen = p.data.length := paylen_eq hstd.off hstd.len
  have hlen := hstd.len
  have hint := BitVec.toInt_eq_toNat_cond (p.header.thSeq - recvNext)
  have hseq := p.header.thSeq.isLt
  have hrecv := recvNext.isLt
  have hfwd := toNat_sub_cases recvNext p.header.thSeq
  have hback := toNat_sub_cases p.header.thSeq recvNext
  unfold maxLen at hlen
  unfold clipPayload at hc
  dsimp only at hc
  rw [hpl, sizeAdd_of_lt (by omega)] at hc
  refine ⟨?_, fun j hj => ?_⟩
  · split at hc
    next hneg => omega
    next =>
      split at hc
      next => cases hc
      next hin => omega
  · rw [carries_iff hstd hj, Packet.endsBehind, BitVec.lt_def]
    unfold winLen at hj hc
    split at hc
    next hneg =>
      split at hc
      next hold =>
        -- all of it old: no cell, and no number of the window
        rw [← Option.some.inj hc]
        dsimp only
        split at hint <;> omega
      next hnew =>
        rw [← Option.some.inj hc]
        dsimp only
        unfold sizeSub
        split
        next => split at hint <;> omega
        next => split at hint <;> omega
    next hpos =>
      split at hc
      next => cases hc
      next hin =>
        rw [← Option.some.inj hc]
        dsimp only
        split at hint <;> omega

/-- **The array is full** once the datagram has brought what was missing. -/
theorem filled_iff {ctx : Context} {p : Packet} {c : Clip} (hstd : Standard p)
    (hc : clipPayload ctx.recvNext p = some c) :
    firstGap (markAt ctx.recvIndicator c.cell c.len) winLen = winLen ↔ Completes ctx p := by
  obtain ⟨hnear, hcells⟩ := clipPayload_cells hstd hc
  constructor
  · intro hfull
    refine ⟨hnear, ?_⟩
    by_contra hno
    rw [not_or] at hno
    refine hno.2 fun j hj => ?_
    rcases markAt_true.mp (firstGap_run (hfull.symm ▸ hj)) with hold | hin
    · exact Or.inl hold
    · exact Or.inr (((hcells j hj).mp hin).resolve_left hno.1)
  · intro hall
    refine Nat.le_antisymm (firstGap_le_size _ _) ?_
    by_contra hlt
    have hstop := firstGap_stop (Nat.not_le.mp hlt)
    rw [← Bool.not_eq_true, markAt_true, not_or, hcells _ (Nat.not_le.mp hlt)] at hstop
    rcases hall.2 with hwraps | hbrings
    · exact hstop.2 (Or.inl hwraps)
    · rcases hbrings _ (Nat.not_le.mp hlt) with hold | hnew
      · exact hstop.1 hold
      · exact hstop.2 (Or.inr hnew)

/-- What is stored of a payload. -/
theorem recvPayload_stored {ctx : Context} {p : Packet} (hpay : p.paylen ≠ 0) :
    recvPayload ctx p = (clipPayload ctx.recvNext p).map (storeClip ctx p) := if_neg hpay

/-- Where nothing has arrived at the front, no scan runs on. -/
theorem recvOverruns_gap {ctx : Context} {p : Packet}
    (hgap : ∀ ctx' n, recvPayload ctx p = some (ctx', n) → ctx'.recvIndicator 0 = false) :
    recvOverruns ctx (some p) = false := by
  unfold recvOverruns
  dsimp only
  split
  next => rfl
  next =>
    cases hpay : recvPayload ctx p with
    | none => rfl
    | some r =>
      have hzero : firstGap r.1.recvIndicator winLen ≠ winLen := by
        rw [firstGap_eq_zero (hgap r.1 r.2 hpay)]
        decide
      show (decide _ && _) = false
      rw [decide_eq_false hzero]
      rfl

/-- The scan of `recv_packet` runs on when the array is full and `rto` is no less than
a second. -/
theorem recvOverruns_iff {ctx : Context} {p : Packet} (hstd : Standard p) :
    recvOverruns ctx (some p) = true ↔ p.data ≠ [] ∧ Completes ctx p ∧ ctx.rto 0 ≠ 0 := by
  by_cases hpay : p.paylen = 0
  · have hdata : p.data = [] := by
      by_contra hne
      exact hstd.paylen_ne.mpr hne hpay
    rw [recvOverruns_bare hstd.off hdata]
    exact ⟨fun h => (by cases h), fun h => absurd hdata h.1⟩
  · rw [recvOverruns, if_neg hpay, recvPayload_stored hpay]
    cases hc : clipPayload ctx.recvNext p with
    | none =>
      have hfar := clipPayload_none hc
      refine ⟨fun h => (by cases h), fun h => ?_⟩
      have hnear := h.2.1.1
      omega
    | some c =>
      have hover : (storeClip ctx p c).1.overruns = true ↔ Completes ctx p ∧ ctx.rto 0 ≠ 0 := by
        rw [← filled_iff hstd hc, Context.overruns, Bool.and_eq_true, decide_eq_true_eq,
          decide_eq_true_eq]
        rfl
      exact hover.trans ⟨fun h => ⟨hstd.paylen_ne.mp hpay, h⟩, fun h => h.2⟩

/-- That before the slide does, when it is so after `packet_t_remove`. -/
theorem slideOverruns_iff {ctx : Context} {p : Packet} (hstd : Standard p)
    (hgap : ctx.recvIndicator 0 = false) :
    slideOverruns ctx (some p) = true ↔ p.data ≠ [] ∧ Completes ctx p ∧ ctx.rto 1 ≠ 0 := by
  by_cases hpay : p.paylen = 0
  · have hdata : p.data = [] := by
      by_contra hne
      exact hstd.paylen_ne.mpr hne hpay
    rw [slideOverruns, recvPacket_taken (recvPayload_bare hstd.off hdata)]
    exact ⟨fun h => (by cases h), fun h => absurd hdata h.1⟩
  · cases hc : clipPayload ctx.recvNext p with
    | none =>
      have hdrop : recvPayload ctx p = none := by rw [recvPayload_stored hpay, hc]; rfl
      have hfar := clipPayload_none hc
      rw [slideOverruns, recvPacket_dropped hdrop]
      refine ⟨fun h => (by cases h), fun h => ?_⟩
      have hnear := h.2.1.1
      omega
    | some c =>
      obtain ⟨r, hr⟩ : ∃ r, r = storeClip ctx p c := ⟨_, rfl⟩
      have hstore : recvPayload ctx p = some (r.1, r.2) := by
        rw [recvPayload_stored hpay, hc, hr]
        rfl
      obtain ⟨-, -, -, -, hind⟩ := recvHeader_frame r.1 p.header
      have hrto : (recvHeader r.1 p.header).rto 0 = ctx.rto 1 := by
        rw [recvHeader_rto, hr]
        rfl
      rw [slideOverruns, recvPacket_taken hstore, Context.overruns, hind, hrto, Bool.and_eq_true,
        Bool.and_eq_true, decide_eq_true_eq, decide_eq_true_eq, decide_eq_true_eq,
        show r.1.recvIndicator = markAt ctx.recvIndicator c.cell c.len by rw [hr]; rfl,
        filled_iff hstd hc]
      constructor
      · exact fun h => ⟨hstd.paylen_ne.mp hpay, h.2⟩
      · intro h
        refine ⟨?_, h.2⟩
        -- a full array has been filled by new bytes, and they are counted
        have hfull := (filled_iff hstd hc).mpr h.2.1
        have hnew : c.old = false := by
          by_contra hold
          rw [clipPayload_old hc (by simpa using hold), markAt_zero, firstGap_eq_zero hgap] at hfull
          exact absurd hfull (by decide)
        show r.2 > 0
        rw [hr]
        simp only [storeClip, hnew, hfull]
        decide

/-- The scan ends inside when the array is not full. -/
theorem scanInside_iff {ctx : Context} {p : Packet} {c : Clip} :
    ScanInside ctx (storeClip ctx p c).1 ↔
      firstGap (markAt ctx.recvIndicator c.cell c.len) winLen ≠ winLen := by
  constructor
  · intro h hfull
    obtain ⟨j, hj, hzero, -, -⟩ := h
    exact Bool.false_ne_true (hzero.symm.trans (firstGap_run (hfull.symm ▸ hj)))
  · intro hgap
    have hlt := Nat.lt_of_le_of_ne (firstGap_le_size _ _) hgap
    exact ⟨_, hlt, firstGap_stop hlt, fun i hi => firstGap_run hi, rfl⟩

/-- One datagram. -/
theorem scansInside_iff {ep : Endpoint} {ev : Event}
    (hstd : ∀ p, ev = .networkData (some p) → Standard p) :
    ScansInside ep ev ↔ LeavesGap ep ev := by
  constructor
  · intro h p hev hlook hdata hfill
    have hpay := (hstd p hev).paylen_ne.mpr hdata
    cases hc : clipPayload ep.ctx.recvNext p with
    | none =>
      have hfar := clipPayload_none hc
      have hnear := hfill.1
      omega
    | some c =>
      have hin := h p hev hlook hpay _ _ ((recvPayload_stored hpay).trans (by rw [hc]; rfl))
      exact scanInside_iff.mp hin ((filled_iff (hstd p hev) hc).mpr hfill)
  · intro h p hev hlook hpay ctx' n hstore
    have hdata := (hstd p hev).paylen_ne.mp hpay
    rw [recvPayload_stored hpay] at hstore
    obtain ⟨c, hc, hs⟩ := Option.map_eq_some_iff.mp hstore
    rw [show ctx' = (storeClip ep.ctx p c).1 from (congrArg Prod.fst hs).symm, scanInside_iff]
    exact fun hfull => h p hev hlook hdata ((filled_iff (hstd p hev) hc).mp hfull)

/-- **Every scan of the indicator finds a zero byte in exactly the runs where no
datagram brings all that is missing from the window.** -/
theorem scans_inside_iff (active : Side → Bool) (iss : Side → TcpSeq) (rto : Side → Nat → UInt8)
    (evs : List (Side × Event))
    (hdel : Along System.step Deliverable (opening active iss rto) evs) :
    Along System.step (fun s ev => ScansInside (s ev.1) ev.2) (opening active iss rto) evs ↔
    Along System.step (fun s ev => LeavesGap (s ev.1) ev.2) (opening active iss rto) evs := by
  have hstd := delivered_ofMade standard_ofMade hdel
  constructor
  · intro h
    exact along_mono (fun s ev hok => (scansInside_iff hok.1).mp hok.2) (along_and.mpr ⟨hstd, h⟩)
  · intro h
    exact along_mono (fun s ev hok => (scansInside_iff hok.1).mpr hok.2) (along_and.mpr ⟨hstd, h⟩)

/-- A cell that stays unmarked. -/
theorem not_completes {ctx : Context} {p : Packet} {j : Nat} (hj : j < winLen)
    (hzero : ctx.recvIndicator j = false) (hout : ¬p.endsBehind ctx.recvNext)
    (hother : ¬p.carries (ctx.recvNext + BitVec.ofNat 32 j)) : ¬Completes ctx p := by
  intro h
  rcases h.2 with hends | hall
  · exact hout hends
  · rcases hall j hj with hmark | hbrings
    · exact Bool.false_ne_true (hzero.symm.trans hmark)
    · exact hother hbrings

/-- The left side connects and sends two segments, the second of which comes first. -/
def secondFirst : List (Side × Event) :=
  greeting ++
  [ (.left, .appData [104, 105]), (.left, .appData [33]),
    (.right, .networkData (some (makeStcpPacket TH.ack 4 102 [33]))),
    (.right, .networkData (some (makeStcpPacket TH.ack 2 102 [104, 105]))) ]

theorem scans_inside_secondFirst :
    Along System.step (fun s ev => ScansInside (s ev.1) ev.2)
      (opening leftActive firstNumbers underASecond) secondFirst := by
  refine (scans_inside_iff leftActive firstNumbers underASecond secondFirst
    (by decide +kernel)).mpr ?_
  refine ⟨?_, ?_, ?_, ?_, ?_, ?_, ?_, trivial⟩
  · rintro p ⟨⟩ - hdata
    exact absurd rfl hdata
  · rintro p ⟨⟩ - hdata
    exact absurd rfl hdata
  · rintro p ⟨⟩ - hdata
    exact absurd rfl hdata
  · exact nofun
  · exact nofun
  · rintro p ⟨⟩ - -
    exact @not_completes _ _ 0 (by decide) (by decide +kernel) (by decide +kernel)
      (by decide +kernel)
  · rintro p ⟨⟩ - -
    exact @not_completes _ _ 3 (by decide) (by decide +kernel) (by decide +kernel)
      (by decide +kernel)

/-! ## A full window -/

/-- `n` bytes of the stream, sent by the left side from the number `seq` on. -/
def piece (seq : TcpSeq) (n : Nat) : Packet := makeStcpPacket TH.ack seq 102 (List.replicate n 97)

/-- The left side connects and sends a full window; its first segment is the last
to arrive. -/
def firstLast : List (Side × Event) :=
  greeting ++ List.replicate 6 (.left, .appData (List.replicate 536 97)) ++
  [ (.right, .networkData (some (piece 538 536))),
    (.right, .networkData (some (piece 1074 536))),
    (.right, .networkData (some (piece 1610 536))),
    (.right, .networkData (some (piece 2146 536))),
    (.right, .networkData (some (piece 2682 392))) ]

/-- The right side when all but the first have arrived. -/
def allButFirst : Context :=
  (run System.step (opening leftActive firstNumbers underASecond) firstLast .right).ctx

/-- The indicator then. -/
def filled : Nat → Bool :=
  markAt (markAt (markAt (markAt (markAt (fun _ => false) 536 536) 1072 536) 1608 536) 2144 536)
    2680 392

set_option maxRecDepth 30000 in
theorem filled_indicator : allButFirst.recvIndicator = filled := by
  rfl

def firstArrives : Side × Event := (.right, .networkData (some (piece 2 536)))

theorem firstArrives_completes : Completes allButFirst (piece 2 536) := by
  have hnext : allButFirst.recvNext = 2 := by decide +kernel
  have hseq : (piece 2 536).header.thSeq = 2 := rfl
  refine ⟨by rw [hnext, hseq]; decide, Or.inr fun j hj => ?_⟩
  rw [filled_indicator, hnext]
  rcases Nat.lt_or_ge j 536 with hfirst | hrest
  · exact Or.inr ⟨j, by rw [piece, makeStcpPacket_data, List.length_replicate]; exact hfirst, rfl⟩
  · left
    unfold winLen at hj
    simp only [filled, markAt_true]
    omega

/-- A full window whose first segment comes last leaves no zero byte in the array. -/
theorem window_filled :
    Along System.step Deliverable (opening leftActive firstNumbers underASecond)
      (firstLast ++ [firstArrives]) ∧
    ¬ Along System.step (fun s ev => ScansInside (s ev.1) ev.2)
      (opening leftActive firstNumbers underASecond) (firstLast ++ [firstArrives]) := by
  refine ⟨by decide +kernel, ?_⟩
  intro h
  obtain ⟨-, hlast, -⟩ := (along_append _ _ _ _ _).mp h
  have hstd : ∀ p, firstArrives.2 = .networkData (some p) → Standard p := by
    rintro p ⟨⟩
    exact ⟨rfl, by rw [piece, makeStcpPacket_data, List.length_replicate]; exact Nat.le_refl _⟩
  exact (scansInside_iff hstd).mp hlast _ rfl (by decide +kernel) (by decide +kernel)
    firstArrives_completes

end UchiNetworks.Stcp
