import UchiNetworks.Stcp.Shift

/-!
# STCP: which segments are timed

`packet_t_remove` times the entries it goes past: `update_rto` is called on the
entry at the front of the list and only then is the entry tested and removed.
This file embeds `update_rto` and the loop around it and says when the loop
keeps to Karn's rule (`karn_iff`), and which samples are the time that has passed
(`sample_iff`): nothing is borrowed from the seconds.

Mirroring notes vs the C:
- The clock is an argument: `clock n` is what `clock_gettime` gives at the `n`th
  entry the loop looks at.
- `ALPHA`, `BETA` and `G` are `double`s, exact in binary but for `G`, and a
  result is truncated when it is stored; so a quotient here is `Int.tdiv`. `abs`
  takes an `int`.
- `init` is static in the C: one for the whole process.
- `difftime` is a `double`, which is exact on times as near to each other as those
  of the clock.
- What is fed to `update_rto` is recorded, in order (`Removal.fed`).
-/

namespace UchiNetworks.Stcp

/-- `struct timespec` -/
structure Timespec where
  tvSec : Int
  tvNsec : Int
  deriving DecidableEq, Repr

/-- The fields of `context_t` for timeouts, and the static `init`. -/
structure RtoContext where
  init : Bool
  srtt : Timespec
  rttvarSec : Int
  rttvarNsec : Int
  rto : Timespec
  deriving DecidableEq, Repr

/-- `packet_t` with its `start_time`. -/
structure TimedPacket where
  entry : PacketT
  startTime : Timespec
  deriving DecidableEq, Repr

/-- Was the entry never retransmitted? -/
def TimedPacket.fresh (e : TimedPacket) : Bool := e.entry.retryCount == 0

/-- Is all its data acknowledged? -/
def TimedPacket.acked (sendUnack : TcpSeq) (e : TimedPacket) : Bool := e.entry.acked sendUnack

/-- `abs`, on a `long` passed as an `int` -/
def absInt (n : Int) : Int := (BitVec.ofInt 32 n).toInt.natAbs

/-- `(1 - BETA) * var + BETA * abs(srtt - rtt)` -/
def smoothVar (var srtt rtt : Int) : Int := (3 * var + absInt (srtt - rtt)).tdiv 4

/-- `(1 - ALPHA) * srtt + ALPHA * rtt` -/
def smoothRtt (srtt rtt : Int) : Int := (7 * srtt + rtt).tdiv 8

/-- `srtt + max(G, K * var)` -/
def addVar (srtt var : Int) : Int := if 0 < 4 * var then srtt + 4 * var else (10 * srtt + 1).tdiv 10

/-- `ensure the nsec field is not too large` -/
def carryNsec (t : Timespec) : Timespec :=
  if t.tvNsec ≥ 1000000000 then
    { tvSec := t.tvSec + t.tvNsec.tdiv 1000000000, tvNsec := t.tvNsec.tmod 1000000000 }
  else t

/-- The part of `update_rto` that smooths the round trip time. -/
def smooth (ctx : RtoContext) (rttSec rttNsec : Int) : RtoContext :=
  if ctx.init then
    { ctx with
      rttvarSec := smoothVar ctx.rttvarSec ctx.srtt.tvSec rttSec
      rttvarNsec := smoothVar ctx.rttvarNsec ctx.srtt.tvNsec rttNsec
      srtt := { tvSec := smoothRtt ctx.srtt.tvSec rttSec
                tvNsec := smoothRtt ctx.srtt.tvNsec rttNsec } }
  else
    { ctx with
      init := true
      srtt := { tvSec := rttSec, tvNsec := rttNsec }
      rttvarSec := rttSec.tdiv 2
      rttvarNsec := rttNsec.tdiv 2 }

/-- `update_rto` -/
def updateRto (tp : Timespec) (ctx : RtoContext) (packet : TimedPacket) : RtoContext :=
  if packet.entry.retryCount ≠ 0 then ctx
  else
    let start := packet.startTime
    let ctx := smooth ctx (tp.tvSec - start.tvSec)
      (max tp.tvNsec start.tvNsec - min tp.tvNsec start.tvNsec)
    { ctx with
      rto := carryNsec { tvSec := addVar ctx.srtt.tvSec ctx.rttvarSec
                         tvNsec := addVar ctx.srtt.tvNsec ctx.rttvarNsec } }

/-- What a run of the loop of `packet_t_remove` did: the entries it fed to
`update_rto`, the list it left, and the times. -/
structure Removal where
  fed : List TimedPacket
  kept : List TimedPacket
  rto : RtoContext

/-- `packet_t_remove` -/
def packetTRemoveTimed (sendUnack : TcpSeq) :
    (Nat → Timespec) → RtoContext → List TimedPacket → Removal
  | _, ctx, [] => { fed := [], kept := [], rto := ctx }
  | clock, ctx, oldpack :: rest =>
    let ctx := updateRto (clock 0) ctx oldpack
    if oldpack.acked sendUnack then
      let r := packetTRemoveTimed sendUnack (fun n => clock (n + 1)) ctx rest
      { r with fed := oldpack :: r.fed }
    else { fed := [oldpack], kept := oldpack :: rest, rto := ctx }

/-- A context with the clock values of its listed packets. -/
structure TimedContext where
  ctx : Context
  unackd : List TimedPacket
  rto : RtoContext
  listed : unackd.map TimedPacket.entry = ctx.unackdPackets

/-- What `recv_packet` does with the list of unacknowledged packets. -/
def TimedContext.recvPacket (t : TimedContext) (clock : Nat → Timespec) :
    Option Packet → Removal
  | none => { fed := [], kept := t.unackd, rto := t.rto }
  | some p =>
    match recvPayload t.ctx p with
    | none => { fed := [], kept := t.unackd, rto := t.rto }
    | some (ctx', _) =>
      packetTRemoveTimed (updateSendUnack ctx' p.header).sendUnack clock t.rto t.unackd

/-! ## What the loop feeds to `update_rto` -/

/-- `update_rto` on one entry after another. -/
def feed : (Nat → Timespec) → RtoContext → List TimedPacket → RtoContext
  | _, ctx, [] => ctx
  | clock, ctx, e :: rest => feed (fun n => clock (n + 1)) (updateRto (clock 0) ctx e) rest

/-- The loop goes past the acknowledged entries and feeds one more. -/
theorem packetTRemoveTimed_eq (sendUnack : TcpSeq) (clock : Nat → Timespec) (ctx : RtoContext)
    (unackd : List TimedPacket) :
    packetTRemoveTimed sendUnack clock ctx unackd =
      let kept := unackd.dropWhile (TimedPacket.acked sendUnack)
      let fed := unackd.takeWhile (TimedPacket.acked sendUnack) ++ kept.head?.toList
      { fed := fed, kept := kept, rto := feed clock ctx fed } := by
  induction unackd generalizing clock ctx with
  | nil => rfl
  | cons oldpack rest ih =>
    simp only [packetTRemoveTimed]
    cases hacked : oldpack.acked sendUnack with
    | true =>
      rw [if_pos rfl, ih, List.takeWhile_cons_of_pos hacked, List.dropWhile_cons_of_pos hacked]
      rfl
    | false =>
      have hnot : ¬ oldpack.acked sendUnack = true := by simp [hacked]
      rw [if_neg Bool.false_ne_true, List.takeWhile_cons_of_neg hnot,
        List.dropWhile_cons_of_neg hnot]
      rfl

theorem updateRto_resent {e : TimedPacket} (h : e.fresh = false) (tp : Timespec)
    (ctx : RtoContext) : updateRto tp ctx e = ctx := by
  have hne : e.entry.retryCount ≠ 0 := by simpa [TimedPacket.fresh] using h
  unfold updateRto
  rw [if_pos hne]

theorem updateRto_fresh {e : TimedPacket} (h : e.fresh = true) (tp : Timespec)
    (ctx : RtoContext) :
    (updateRto tp ctx e).srtt.tvSec
      = if ctx.init then smoothRtt ctx.srtt.tvSec (tp.tvSec - e.startTime.tvSec)
        else tp.tvSec - e.startTime.tvSec := by
  have heq : ¬ e.entry.retryCount ≠ 0 := by simpa [TimedPacket.fresh] using h
  unfold updateRto smooth
  rw [if_neg heq]
  split <;> rfl

/-- Retransmitted entries change nothing. -/
theorem feed_resent {es : List TimedPacket} (h : ∀ e ∈ es, e.fresh = false)
    (clock : Nat → Timespec) (ctx : RtoContext) : feed clock ctx es = ctx := by
  induction es generalizing clock ctx with
  | nil => rfl
  | cons e rest ih =>
    obtain ⟨he, hrest⟩ := List.forall_mem_cons.mp h
    simp only [feed]
    rw [updateRto_resent he, ih hrest]

/-- One sample can lift the smoothed round trip time over any bound. -/
theorem exists_sample {e : TimedPacket} (h : e.fresh = true) (ctx : RtoContext) (bound : Int) :
    ∃ tp, bound < (updateRto tp ctx e).srtt.tvSec := by
  -- a round trip of eight times the way up, counted from below
  refine ⟨{ tvSec := e.startTime.tvSec + 8 * (|bound| + |ctx.srtt.tvSec| + 1), tvNsec := 0 }, ?_⟩
  rw [updateRto_fresh h]
  simp only [add_sub_cancel_left]
  have hbound := le_abs_self bound
  have habs := neg_abs_le ctx.srtt.tvSec
  have hpos := abs_nonneg ctx.srtt.tvSec
  have hpos' := abs_nonneg bound
  generalize |bound| = b at *
  generalize |ctx.srtt.tvSec| = s at *
  unfold smoothRtt
  split
  next =>
    rw [Int.tdiv_eq_ediv_of_nonneg (by omega)]
    omega
  next => omega

/-- Where a never retransmitted entry is fed, some clock changes the times. -/
theorem exists_feed {es : List TimedPacket} (h : ∃ e ∈ es, e.fresh = true) (ctx : RtoContext)
    (bound : Int) : ∃ clock, bound < (feed clock ctx es).srtt.tvSec := by
  induction es generalizing ctx with
  | nil =>
    obtain ⟨e, he, -⟩ := h
    cases he
  | cons first rest ih =>
    by_cases hlater : ∃ e ∈ rest, e.fresh = true
    · -- the last sample decides, whatever the ones before it were
      obtain ⟨clock, hclock⟩ := ih hlater (updateRto ⟨0, 0⟩ ctx first)
      exact ⟨fun n => if n = 0 then ⟨0, 0⟩ else clock (n - 1), hclock⟩
    · have hnone : ∀ e ∈ rest, e.fresh = false := by
        intro e he
        by_contra hfresh
        exact hlater ⟨e, he, by simpa using hfresh⟩
      obtain ⟨e, he, hfresh⟩ := h
      rcases List.mem_cons.mp he with rfl | he
      · obtain ⟨tp, htp⟩ := exists_sample hfresh ctx bound
        refine ⟨fun _ => tp, ?_⟩
        simp only [feed]
        rw [feed_resent hnone]
        exact htp
      · exact absurd ⟨e, he, hfresh⟩ hlater

/-! ## Karn's rule -/

/-- The segment reaches the loop: it does not lie beyond the window. -/
theorem TimedContext.recvPacket_eq {t : TimedContext} {p : Packet} (h : ¬ Beyond t.ctx p)
    (clock : Nat → Timespec) :
    t.recvPacket clock (some p)
        = packetTRemoveTimed (ackPoint t.ctx.sendUnack p.header) clock t.rto t.unackd ∧
      (Stcp.recvPacket t.ctx (some p)).1.sendUnack = ackPoint t.ctx.sendUnack p.header := by
  cases hpay : recvPayload t.ctx p with
  | none => exact absurd (recvPayload_eq_none.mp hpay) h
  | some r =>
    obtain ⟨ctx', n⟩ := r
    have hsame := (recvPayload_frame hpay).2.2.1
    have hto : (updateSendUnack ctx' p.header).sendUnack = ackPoint t.ctx.sendUnack p.header := by
      unfold updateSendUnack ackPoint
      rw [hsame]
      split
      · rfl
      · exact hsame
    refine ⟨?_, ?_⟩
    · simp only [TimedContext.recvPacket, hpay]
      rw [hto]
    · rw [recvPacket_taken hpay, recvHeader_sendUnack, hsame]

theorem TimedContext.recvPacket_beyond {t : TimedContext} {p : Packet} (h : Beyond t.ctx p)
    (clock : Nat → Timespec) :
    t.recvPacket clock (some p) = { fed := [], kept := t.unackd, rto := t.rto } := by
  simp only [TimedContext.recvPacket, recvPayload_eq_none.mpr h]

/-- With its clock values the list is the one the rest of the model has. -/
theorem TimedContext.recvPacket_kept (t : TimedContext) (clock : Nat → Timespec)
    (p : Option Packet) :
    (t.recvPacket clock p).kept.map TimedPacket.entry
      = (Stcp.recvPacket t.ctx p).1.unackdPackets := by
  cases p with
  | none => exact t.listed
  | some p =>
    by_cases hbeyond : Beyond t.ctx p
    · rw [t.recvPacket_beyond hbeyond, recvPacket_dropped (recvPayload_eq_none.mpr hbeyond)]
      exact t.listed
    · obtain ⟨hloop, hunack⟩ := t.recvPacket_eq hbeyond clock
      rw [hloop, packetTRemoveTimed_eq]
      cases hpay : recvPayload t.ctx p with
      | none => exact absurd (recvPayload_eq_none.mp hpay) hbeyond
      | some r =>
        rw [recvPacket_taken hpay] at hunack ⊢
        rw [recvHeader_unackdPackets, hunack, (recvPayload_frame hpay).2.2.2.2, ← t.listed,
          List.dropWhile_map]
        rfl

/-- The round trip time, its variation and the timeout are the same. -/
def RtoContext.SameTimes (c c' : RtoContext) : Prop :=
  c.srtt = c'.srtt ∧ c.rttvarSec = c'.rttvarSec ∧ c.rttvarNsec = c'.rttvarNsec ∧ c.rto = c'.rto

/-- **Karn's rule.** The entries that count in `update_rto` are those that the
segment removes and that were never retransmitted, and a segment that
acknowledges nothing new leaves the times alone. -/
structure KarnRule (t : TimedContext) (p : Option Packet) (r : Removal) : Prop where
  sampled : ∃ removed, t.unackd = removed ++ r.kept ∧
    r.fed.filter TimedPacket.fresh = removed.filter TimedPacket.fresh
  idle : (Stcp.recvPacket t.ctx p).1.sendUnack = t.ctx.sendUnack → r.rto.SameTimes t.rto

/-- Every entry the loop looks at and may not count was retransmitted: the first
one that stays, and, when nothing new is acknowledged, those that go. -/
structure Untimed (t : TimedContext) (p : Packet) : Prop where
  front : ∀ e, (t.unackd.dropWhile
    (TimedPacket.acked (ackPoint t.ctx.sendUnack p.header))).head? = some e → e.fresh = false
  idle : ackPoint t.ctx.sendUnack p.header = t.ctx.sendUnack →
    ∀ e ∈ t.unackd.takeWhile (TimedPacket.acked t.ctx.sendUnack), e.fresh = false

theorem RtoContext.SameTimes.refl (c : RtoContext) : c.SameTimes c := ⟨rfl, rfl, rfl, rfl⟩

/-- Nothing is fed and nothing goes. -/
theorem karnRule_idle (t : TimedContext) (p : Option Packet) :
    KarnRule t p { fed := [], kept := t.unackd, rto := t.rto } :=
  ⟨⟨[], rfl, rfl⟩, fun _ => RtoContext.SameTimes.refl _⟩

theorem Untimed.karnRule {t : TimedContext} {p : Packet} (h : Untimed t p)
    (hin : ¬ Beyond t.ctx p) (clock : Nat → Timespec) :
    KarnRule t (some p) (t.recvPacket clock (some p)) := by
  obtain ⟨hloop, hunack⟩ := t.recvPacket_eq hin clock
  rw [hloop, packetTRemoveTimed_eq]
  -- the entry that stays is looked at and does not count
  have hfront : ∀ e ∈ (t.unackd.dropWhile
      (TimedPacket.acked (ackPoint t.ctx.sendUnack p.header))).head?.toList, e.fresh = false := by
    intro e he
    exact h.front e (Option.mem_toList.mp he)
  refine ⟨⟨_, List.takeWhile_append_dropWhile.symm, ?_⟩, ?_⟩
  · have hnone : ((t.unackd.dropWhile
        (TimedPacket.acked (ackPoint t.ctx.sendUnack p.header))).head?.toList).filter
        TimedPacket.fresh = [] := by
      rw [List.filter_eq_nil_iff]
      intro e he
      rw [hfront e he]
      exact Bool.false_ne_true
    rw [List.filter_append, hnone, List.append_nil]
  · intro hsame
    rw [hunack] at hsame
    have hall : ∀ e ∈ t.unackd.takeWhile (TimedPacket.acked (ackPoint t.ctx.sendUnack p.header)) ++
        (t.unackd.dropWhile (TimedPacket.acked (ackPoint t.ctx.sendUnack p.header))).head?.toList,
        e.fresh = false := by
      intro e he
      rcases List.mem_append.mp he with he | he
      · rw [hsame] at he
        exact h.idle hsame e he
      · exact hfront e he
    simp only
    rw [feed_resent hall]
    exact RtoContext.SameTimes.refl _

theorem untimed_of_karnRule {t : TimedContext} {p : Packet} (hin : ¬ Beyond t.ctx p)
    (h : ∀ clock, KarnRule t (some p) (t.recvPacket clock (some p))) : Untimed t p := by
  constructor
  · intro e he
    obtain ⟨hloop, -⟩ := t.recvPacket_eq hin fun _ => ⟨0, 0⟩
    have hrule := h fun _ => ⟨0, 0⟩
    rw [hloop, packetTRemoveTimed_eq] at hrule
    obtain ⟨removed, hsplit, hfed⟩ := hrule.sampled
    simp only at hsplit hfed
    obtain rfl : removed = t.unackd.takeWhile
        (TimedPacket.acked (ackPoint t.ctx.sendUnack p.header)) :=
      List.append_cancel_right (hsplit.symm.trans List.takeWhile_append_dropWhile.symm)
    rw [he, List.filter_append, List.append_right_eq_self, List.filter_eq_nil_iff] at hfed
    simpa using hfed e (by simp)
  · intro hsame e he
    by_contra hfresh
    -- some clock gives another round trip time
    have hsample : ∃ e ∈ t.unackd.takeWhile
          (TimedPacket.acked (ackPoint t.ctx.sendUnack p.header)) ++
        (t.unackd.dropWhile (TimedPacket.acked (ackPoint t.ctx.sendUnack p.header))).head?.toList,
        e.fresh = true :=
      ⟨e, List.mem_append_left _ (by rw [hsame]; exact he), by simpa using hfresh⟩
    obtain ⟨clock, hclock⟩ := exists_feed hsample t.rto t.rto.srtt.tvSec
    obtain ⟨hloop, hunack⟩ := t.recvPacket_eq hin clock
    have hidle := (h clock).idle (hunack.trans hsame)
    rw [hloop, packetTRemoveTimed_eq] at hidle
    have hsec := congrArg Timespec.tvSec hidle.1
    simp only at hsec
    omega

/-- **Karn's rule, and exactly when it is kept**: for every list of
unacknowledged packets and every segment. -/
theorem karn_iff (t : TimedContext) (p : Option Packet) :
    (∀ clock, KarnRule t p (t.recvPacket clock p)) ↔
      ∀ q, p = some q → ¬ Beyond t.ctx q → Untimed t q := by
  constructor
  · intro h q hq hin
    subst hq
    exact untimed_of_karnRule hin h
  · intro h clock
    cases p with
    | none => exact karnRule_idle t none
    | some q =>
      by_cases hin : Beyond t.ctx q
      · rw [t.recvPacket_beyond hin]
        exact karnRule_idle t (some q)
      · exact (h q rfl hin).karnRule hin clock

/-- The byte that is outstanding was sent when the clock read 100 s. -/
def timedOutstanding : TimedContext where
  ctx := oneOutstanding
  unackd := [{ entry := ⟨0, 1, makeStcpPacket TH.ack 1 1 [0x61]⟩, startTime := ⟨100, 0⟩ }]
  rto := { init := true, srtt := ⟨1, 0⟩, rttvarSec := 0, rttvarNsec := 0, rto := ⟨1, 0⟩ }
  listed := rfl

/-- Data of the peer that acknowledges nothing new, 20 s later, is taken for the
end of a round trip. -/
theorem timedOutstanding_sampled :
    ¬ ∀ clock, KarnRule timedOutstanding (some (makeStcpPacket TH.ack 1 1 [7]))
      (timedOutstanding.recvPacket clock (some (makeStcpPacket TH.ack 1 1 [7]))) := by
  intro h
  have hidle := (h fun _ => ⟨120, 0⟩).idle (by decide +kernel)
  have hsec := congrArg Timespec.tvSec hidle.1
  have hrun : (timedOutstanding.recvPacket (fun _ => ⟨120, 0⟩)
      (some (makeStcpPacket TH.ack 1 1 [7]))).rto.srtt.tvSec = 3 := by decide +kernel
  rw [hrun] at hsec
  exact absurd hsec (by decide)

/-! ## The sample -/

/-- The time in nanoseconds. -/
def Timespec.nanos (t : Timespec) : Int := t.tvSec * 1000000000 + t.tvNsec

/-- What the clock gives: fewer nanoseconds than a second has. -/
structure Timespec.Normal (t : Timespec) : Prop where
  nonneg : 0 ≤ t.tvNsec
  lt : t.tvNsec < 1000000000

/-- `rtt_sec` and `rtt_nsec` -/
def rttSample (tp start : Timespec) : Timespec where
  tvSec := tp.tvSec - start.tvSec
  tvNsec := max tp.tvNsec start.tvNsec - min tp.tvNsec start.tvNsec

/-- What `update_rto` does with a sample. -/
def takeSample (ctx : RtoContext) (rtt : Timespec) : RtoContext :=
  let ctx := smooth ctx rtt.tvSec rtt.tvNsec
  { ctx with
    rto := carryNsec { tvSec := addVar ctx.srtt.tvSec ctx.rttvarSec
                       tvNsec := addVar ctx.srtt.tvNsec ctx.rttvarNsec } }

/-- The sample is the time from `start` to `tp`. -/
structure Measures (tp start rtt : Timespec) : Prop where
  nanos : rtt.nanos = tp.nanos - start.nanos
  normal : rtt.Normal

theorem updateRto_sample {e : TimedPacket} (h : e.fresh = true) (tp : Timespec)
    (ctx : RtoContext) : updateRto tp ctx e = takeSample ctx (rttSample tp e.startTime) := by
  have heq : ¬ e.entry.retryCount ≠ 0 := by simpa [TimedPacket.fresh] using h
  unfold updateRto
  rw [if_neg heq]
  rfl

/-- Where the nanoseconds have gone down, the sample is too long by twice as much. -/
theorem rttSample_nanos (tp start : Timespec) : (rttSample tp start).nanos =
    tp.nanos - start.nanos + 2 * (start.tvNsec - min tp.tvNsec start.tvNsec) := by
  show (tp.tvSec - start.tvSec) * 1000000000 +
    (max tp.tvNsec start.tvNsec - min tp.tvNsec start.tvNsec) = _
  unfold Timespec.nanos
  omega

theorem rttSample_normal {tp start : Timespec} (htp : tp.Normal) (hstart : start.Normal) :
    (rttSample tp start).Normal := by
  have htp0 := htp.nonneg
  have htp1 := htp.lt
  have hstart0 := hstart.nonneg
  have hstart1 := hstart.lt
  unfold rttSample
  constructor
  · show 0 ≤ max tp.tvNsec start.tvNsec - min tp.tvNsec start.tvNsec
    omega
  · show max tp.tvNsec start.tvNsec - min tp.tvNsec start.tvNsec < 1000000000
    omega

/-- **`update_rto` measures the time that has passed** exactly when the nanoseconds have
not gone down. -/
theorem sample_iff (ctx : RtoContext) {e : TimedPacket} {tp : Timespec} (hfresh : e.fresh = true)
    (hstart : e.startTime.Normal) (htp : tp.Normal) :
    updateRto tp ctx e = takeSample ctx (rttSample tp e.startTime) ∧
      (Measures tp e.startTime (rttSample tp e.startTime) ↔ e.startTime.tvNsec ≤ tp.tvNsec) := by
  refine ⟨updateRto_sample hfresh tp ctx, fun hmeasures => ?_, fun hle => ⟨?_, ?_⟩⟩
  · have hnanos := hmeasures.nanos
    rw [rttSample_nanos] at hnanos
    omega
  · rw [rttSample_nanos]
    omega
  · exact rttSample_normal htp hstart

/-- A packet that was sent at 100.9 s. -/
def sentLate : TimedPacket where
  entry := ⟨0, 0, makeStcpPacket TH.ack 1 1 [0x61]⟩
  startTime := ⟨100, 900000000⟩

theorem sample_later : updateRto ⟨103, 950000000⟩ timedOutstanding.rto sentLate =
      takeSample timedOutstanding.rto (rttSample ⟨103, 950000000⟩ sentLate.startTime) ∧
    (Measures ⟨103, 950000000⟩ sentLate.startTime (rttSample ⟨103, 950000000⟩ sentLate.startTime) ↔
      sentLate.startTime.tvNsec ≤ 950000000) :=
  sample_iff timedOutstanding.rto rfl ⟨by decide, by decide⟩ ⟨by decide, by decide⟩

/-- It is acknowledged 0.2 s later, and the sample is 1.8 s. -/
theorem sample_borrowed : ¬ ∀ (ctx : RtoContext) (e : TimedPacket) (tp : Timespec), e.fresh = true →
    e.startTime.Normal → tp.Normal → e.startTime.nanos ≤ tp.nanos →
    updateRto tp ctx e = takeSample ctx (rttSample tp e.startTime) ∧
      Measures tp e.startTime (rttSample tp e.startTime) := by
  intro hall
  obtain ⟨-, hmeasures⟩ := hall timedOutstanding.rto sentLate ⟨101, 100000000⟩ rfl
    ⟨by decide, by decide⟩ ⟨by decide, by decide⟩ (by decide)
  exact absurd hmeasures.nanos (by decide)

end UchiNetworks.Stcp
