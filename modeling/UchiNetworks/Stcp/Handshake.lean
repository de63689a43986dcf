import Mathlib.Data.List.TakeWhile
import UchiNetworks.Stcp.Scan

/-!
# STCP: from the handshake to the first data

A `Net` is two endpoints and the packets under way between them. Each packet
sent arrives at most once, at any time, or never: this is a network that loses
and reorders but makes no copies (the endpoints make copies themselves, by
sending again).

The left side connects to the right one. The run goes through four phases: the
SYN is under way (`Calling`), the SYN/ACK is (`Answered`), the left side is
established and the right one waits for its ACK (`HalfOpen`), both are
(`Connected`). In the third phase the right side already stores what arrives,
but it hands nothing up before it is in `control_loop`. So what completes the
handshake must not be the first data segment (`CompletesBare`): its bytes are
counted in `recv_next` and never delivered. And what fills the window must come
while `rto` is under a second (`FillsEarly`), or the scan of the indicator counts
on into `rto`.
-/

namespace UchiNetworks.Stcp

open UchiNetworks.Lib

/-- Two endpoints, and for each the packets it has sent that are under way. -/
structure Net where
  ends : System
  flight : Side → List Packet

/-- What is still under way when the event takes a packet out. -/
def Net.remaining (n : Net) : Side × Event → Side → List Packet
  | (i, .networkData (some p)), j => if j = i.other then (n.flight j).erase p else n.flight j
  | _, j => n.flight j

def Net.step (n : Net) (ev : Side × Event) : Net :=
  { ends := n.ends.step ev
    flight := fun j =>
      n.remaining ev j ++ ((n.ends.step ev) j).sent.drop (n.ends j).sent.length }

/-- The left side calls the right one. -/
def dial (iss : Side → TcpSeq) (rto : Side → Nat → UInt8) : Net :=
  { ends := opening leftActive iss rto
    flight := fun i => (opening leftActive iss rto i).sent }

/-- Nobody closes, and what arrives is under way. -/
def Arrives (n : Net) : Side × Event → Prop
  | (i, .networkData packet) => ∃ p ∈ n.flight i.other, packet = some p
  | (_, .appCloseRequested) => False
  | _ => True

instance Arrives.decidable (n : Net) : ∀ ev, Decidable (Arrives n ev)
  | (i, .networkData packet) =>
    inferInstanceAs (Decidable (∃ p ∈ n.flight i.other, packet = some p))
  | (_, .appCloseRequested) => isFalse id
  | (_, .appData _) => isTrue trivial
  | (_, .timeout) => isTrue trivial

/-- An established side has counted exactly the bytes it has passed up, and they
are the peer's stream from the first byte on. -/
def CountsFromFirst (iss : Side → TcpSeq) (s : System) : Prop :=
  ∀ i, (s i).ctx.connectionState = .established →
    (s i).ctx.recvNext - (iss i.other + 1) = BitVec.ofNat 32 (s i).delivered.length ∧
    (s i).delivered <+: (s i.other).taken

/-- A scan of the indicator runs on: it counts bytes that no peer has sent, and they
are passed up. -/
def RunsOn (ep : Endpoint) (ev : Event) : Prop :=
  ∃ p, ev = .networkData (some p) ∧ ep.receiving ∧
    (recvOverruns ep.ctx (some p) = true ∨
      ep.status = .running ∧ slideOverruns ep.ctx (some p) = true)

/-- The event leaves the counts right, and no scan has counted anything else. -/
structure CountsRight (iss : Side → TcpSeq) (n : Net) (ev : Side × Event) : Prop where
  counts : CountsFromFirst iss (n.step ev).ends
  stops : ¬RunsOn (n.ends ev.1) ev.2

/-- What fills the window comes while `rto` is under a second, and in the loop leaves
it so. -/
def FillsEarly (n : Net) (ev : Side × Event) : Prop :=
  ∀ p, ev.2 = .networkData (some p) → (n.ends ev.1).receiving → p.data ≠ [] →
    Completes (n.ends ev.1).ctx p → (n.ends ev.1).ctx.rto 0 = 0 ∧
      ((n.ends ev.1).status = .running → (n.ends ev.1).ctx.rto 1 = 0)

/-- A packet that arrives while the ACK of the handshake is awaited does not
bring the peer's first byte. -/
def CompletesBare (n : Net) (ev : Side × Event) : Prop :=
  ∀ p, ev.2 = .networkData (some p) → (n.ends ev.1).status = .opening →
    (n.ends ev.1).ctx.connectionState = .synReceived →
    p.data = [] ∨ p.header.thSeq ≠ (n.ends ev.1).ctx.recvNext

/-! ## The phases -/

def synOf (iss : Side → TcpSeq) : Packet := makeStcpPacket TH.syn (iss .left) 0 []

def synAckOf (iss : Side → TcpSeq) : Packet :=
  makeStcpPacket (TH.syn ||| TH.ack) (iss .right) (iss .left + 1) []

/-- The right side after it has answered the SYN. -/
def answering (iss : Side → TcpSeq) (rto : Side → Nat → UInt8) : Endpoint :=
  { ctx := { Context.init (iss .right) (rto .right) with
      connectionState := .synReceived, sendUnack := iss .right, sendNext := iss .right + 1,
      sendWind := BitVec.ofNat 32 winLen, recvNext := iss .left + 1,
      rto := rto .right
      unackdPackets := [⟨0, iss .right, synAckOf iss⟩, ⟨0, iss .right, synAckOf iss⟩] }
    status := .opening
    calls := [.networkSend (synAckOf iss)] }

structure Calling (iss : Side → TcpSeq) (rto : Side → Nat → UInt8) (n : Net) : Prop where
  left : n.ends .left = transportInit true (iss .left) (rto .left)
  right : n.ends .right = transportInit false (iss .right) (rto .right)
  flightLeft : n.flight .left = [synOf iss]
  flightRight : n.flight .right = []

structure Answered (iss : Side → TcpSeq) (rto : Side → Nat → UInt8) (n : Net) : Prop where
  left : n.ends .left = transportInit true (iss .left) (rto .left)
  right : n.ends .right = answering iss rto
  flightLeft : n.flight .left = []
  flightRight : n.flight .right = [synAckOf iss]

/-- The number of a side's first byte. -/
def firstOf (iss : Side → TcpSeq) (i : Side) : Nat := (iss i).toNat + 1

structure HalfOpen (iss : Side → TcpSeq) (n : Net) : Prop where
  left : (n.ends .left).status ≠ .opening
  steady : Steady (n.ends .left)
  right : (n.ends .right).status = .opening ∧
    ((n.ends .right).ctx.connectionState = .synReceived)
  waiting : (n.ends .right).ctx.unackdPackets ≠ [] ∧
    ∀ q ∈ (n.ends .right).ctx.unackdPackets, q.seqNum = iss .right ∧ q.packet.data = []
  silent : (n.ends .right).taken = [] ∧ (n.ends .right).delivered = []
  fromLeft : Flow (firstOf iss .left) (n.ends .left) (n.ends .right)
  fromRight : Flow (firstOf iss .right) (n.ends .right) (n.ends .left)
  flightRight : n.flight .right = []
  flightLeft : ∀ p ∈ n.flight .left, p ∈ (n.ends .left).sent ∧
    p.header.thFlags = TH.ack ∧ p.header.thAck = iss .right + 1

structure Open (iss : Side → TcpSeq) (n : Net) : Prop where
  connected : Connected (firstOf iss) n.ends
  flight : ∀ i, ∀ p ∈ n.flight i, p ∈ (n.ends i).sent ∧ p.header.thFlags = TH.ack

/-- Every packet advertises the same window. -/
theorem updateSendWind_make (ctx : Context) (f : BitVec 8) (q a : TcpSeq) (d : List UInt8) :
    updateSendWind ctx (makeStcpPacket f q a d).header
      = { ctx with sendWind := BitVec.ofNat 32 winLen } := by
  have hle : (BitVec.ofNat 16 winLen).toNat ≤ winLen := by decide
  have hwide : (BitVec.ofNat 16 winLen).setWidth 32 = BitVec.ofNat 32 winLen := by decide
  unfold updateSendWind makeStcpPacket
  simp only
  rw [if_pos hle, hwide]

/-- Answering the SYN. -/
theorem answer_syn (iss : Side → TcpSeq) (rto : Side → Nat → UInt8) :
    (transportInit false (iss .right) (rto .right)).step (.networkData (some (synOf iss)))
      = answering iss rto := by
  have hpay : ∀ ctx : Context, recvPayload ctx (synOf iss) = some (ctx, 0) :=
    fun ctx => recvPayload_bare rfl rfl
  have hover : ∀ ctx : Context, recvOverruns ctx (some (synOf iss)) = false :=
    fun ctx => recvOverruns_bare rfl rfl
  have hsyn : (synOf iss).header.has TH.syn = true :=
    (makeStcpPacket_has _ _ _ _ _).trans (by decide)
  have hack : (synOf iss).header.has TH.ack = false :=
    (makeStcpPacket_has _ _ _ _ _).trans (by decide)
  simp only [Endpoint.step, transportInit, openNetworkData, hover, Context.init, awaitSyn,
    recvPacket_taken (hpay _), recvHeader, updateSendUnack, updateRecvNext, hsyn, hack, answering]
  simp [packetTRemove, packetTCreate, synOf, synAckOf, updateSendWind_make]

/-- The left side after it has taken the SYN/ACK. -/
def called (iss : Side → TcpSeq) (rto : Side → Nat → UInt8) : Endpoint :=
  { ctx := { Context.init (iss .left) (rto .left) with
      connectionState := .established, sendUnack := iss .left + 1, sendNext := iss .left + 1,
      sendWind := BitVec.ofNat 32 winLen, recvNext := iss .right + 1, rto := rto .left }
    status := .running
    calls := [.networkSend (synOf iss),
      .networkSend (makeStcpPacket TH.ack (iss .left + 1) (iss .right + 1) [])] }

theorem toNat_succ {x : TcpSeq} (h : x.toNat + 1 < 2 ^ 32) : (x + 1).toNat = x.toNat + 1 := by
  have hone : (1 : TcpSeq).toNat = 1 := by decide
  rw [BitVec.toNat_add, hone, Nat.mod_eq_of_lt h]

/-- Taking the SYN/ACK. -/
theorem take_synAck (iss : Side → TcpSeq) (rto : Side → Nat → UInt8)
    (hwrap : (iss .left).toNat + 1 < 2 ^ 32) :
    (transportInit true (iss .left) (rto .left)).step (.networkData (some (synAckOf iss)))
      = called iss rto := by
  have hpay : ∀ ctx : Context, recvPayload ctx (synAckOf iss) = some (ctx, 0) :=
    fun ctx => recvPayload_bare rfl rfl
  have hover : ∀ ctx : Context, recvOverruns ctx (some (synAckOf iss)) = false :=
    fun ctx => recvOverruns_bare rfl rfl
  have hsyn : (synAckOf iss).header.has TH.syn = true :=
    (makeStcpPacket_has _ _ _ _ _).trans (by decide)
  have hack : (synAckOf iss).header.has TH.ack = true :=
    (makeStcpPacket_has _ _ _ _ _).trans (by decide)
  have hle : iss .left ≤ iss .left + 1 := by
    rw [BitVec.le_def, toNat_succ hwrap]
    exact Nat.le_succ _
  have hacked : PacketT.acked (iss .left + 1) ⟨0, iss .left, synOf iss⟩ = true := by
    have hlen : (synOf iss).data.length = 0 := rfl
    simp only [PacketT.acked, hlen, toNat_succ hwrap]
    exact decide_eq_true (Nat.le_succ _)
  have hthAck : (synAckOf iss).header.thAck = iss .left + 1 := rfl
  simp only [Endpoint.step, transportInit, if_true, openNetworkData, hover, Context.init,
    awaitSynAck, packetTCreate, List.nil_append, recvPacket_taken (hpay _), recvHeader,
    updateSendUnack, updateRecvNext, hsyn, hack, hthAck, hle, called]
  simp only [packetTRemove, synAckOf, updateSendWind_make, synOf]
  simp
  -- what is left: the acknowledged SYN leaves the list
  exact hacked

theorem Net.ends_own (n : Net) (i : Side) (e : Event) :
    (n.step (i, e)).ends i = (n.ends i).step e := System.step_same _ i e

theorem Net.ends_peer (n : Net) (i : Side) (e : Event) :
    (n.step (i, e)).ends i.other = n.ends i.other := System.step_other _ i e

theorem Net.flight_own {n : Net} {i : Side} {e : Event} (new : List Call)
    (h : ((n.ends i).step e).calls = (n.ends i).calls ++ new) :
    (n.step (i, e)).flight i = n.flight i ++ sentOf new := by
  have hdrop : (((n.ends i).step e).sent).drop (n.ends i).sent.length = sentOf new := by
    rw [Endpoint.sent, Endpoint.sent, h, sentOf_append, List.drop_left]
  have hrem : n.remaining (i, e) i = n.flight i := by
    cases e with
    | networkData packet =>
      cases packet with
      | none => rfl
      | some p => exact if_neg fun heq => Side.other_ne i heq.symm
    | appData queued => rfl
    | appCloseRequested => rfl
    | timeout => rfl
  simp only [Net.step, System.step_same, hrem, hdrop]

theorem Net.flight_peer (n : Net) (i : Side) (e : Event) :
    (n.step (i, e)).flight i.other = n.remaining (i, e) i.other := by
  simp only [Net.step, System.step_other, List.drop_length, List.append_nil]

theorem Net.mem_remaining {n : Net} {ev : Side × Event} {j : Side} {p : Packet}
    (h : p ∈ n.remaining ev j) : p ∈ n.flight j := by
  unfold Net.remaining at h
  split at h
  next =>
    split at h
    next => exact List.mem_of_mem_erase h
    next => exact h
  next => exact h

/-! ## From phase to phase -/

/-- During the handshake the application and the clock are not heard. -/
theorem Net.step_deaf {n : Net} {i : Side} {e : Event} (hst : (n.ends i).status = .opening)
    (hev : ∀ packet, e ≠ .networkData packet) :
    ((n.step (i, e)).ends = n.ends) ∧ (n.step (i, e)).flight = n.flight := by
  have hsame : (n.ends i).step e = n.ends i := by
    rcases (n.ends i).step_opening hst e with ⟨heq, -⟩ | ⟨packet, heq, -⟩
    · exact heq
    · exact absurd heq (hev packet)
  have hends : (n.step (i, e)).ends = n.ends := by
    show Function.update n.ends i ((n.ends i).step e) = n.ends
    rw [hsame, Function.update_eq_self]
  refine ⟨hends, ?_⟩
  funext j
  rcases Side.eq_or_other i j with rfl | rfl
  · rw [Net.flight_own [] (by rw [hsame, List.append_nil])]
    exact List.append_nil _
  · rw [Net.flight_peer]
    cases e with
    | networkData packet => exact absurd rfl (hev packet)
    | appData queued => rfl
    | appCloseRequested => rfl
    | timeout => rfl

theorem Arrives.cases {n : Net} {i : Side} {e : Event} (h : Arrives n (i, e)) :
    (∀ packet, e ≠ .networkData packet) ∧ e ≠ .appCloseRequested ∨
    ∃ p ∈ n.flight i.other, e = .networkData (some p) := by
  cases e with
  | networkData packet =>
    obtain ⟨p, hp, rfl⟩ := h
    exact Or.inr ⟨p, hp, rfl⟩
  | appData queued => exact Or.inl ⟨fun _ => nofun, nofun⟩
  | appCloseRequested => exact absurd h id
  | timeout => exact Or.inl ⟨fun _ => nofun, nofun⟩

theorem Calling.step {iss : Side → TcpSeq} {rto : Side → Nat → UInt8} {n : Net}
    {ev : Side × Event} (h : Calling iss rto n)
    (hev : Arrives n ev) : Calling iss rto (n.step ev) ∨ Answered iss rto (n.step ev) := by
  obtain ⟨i, e⟩ := ev
  have hopen : (n.ends i).status = .opening := by
    cases i with
    | left => rw [h.left]; rfl
    | right => rw [h.right]; rfl
  rcases hev.cases with ⟨hown, -⟩ | ⟨p, hp, rfl⟩
  · obtain ⟨hends, hflight⟩ := n.step_deaf hopen hown
    exact Or.inl ⟨by rw [hends]; exact h.left, by rw [hends]; exact h.right,
      by rw [hflight]; exact h.flightLeft, by rw [hflight]; exact h.flightRight⟩
  · cases i with
    | left =>
      rw [Side.other, h.flightRight] at hp
      cases hp
    | right =>
      rw [Side.other, h.flightLeft] at hp
      obtain rfl := List.mem_singleton.mp hp
      have hstep : (n.ends .right).step (.networkData (some (synOf iss))) = answering iss rto := by
        rw [h.right]
        exact answer_syn iss rto
      refine Or.inr ⟨?_, ?_, ?_, ?_⟩
      · exact (n.ends_peer .right _).trans h.left
      · exact (n.ends_own .right _).trans hstep
      · refine (Net.flight_peer n .right _).trans ?_
        simp [Net.remaining, Side.other, h.flightLeft]
      · rw [Net.flight_own [.networkSend (synAckOf iss)], h.flightRight]
        · rfl
        · rw [hstep, h.right]
          rfl

theorem firstOf_eq {iss : Side → TcpSeq} {i : Side} (h : firstOf iss i < 2 ^ 32) :
    (iss i + 1).toNat = firstOf iss i := toNat_succ h

/-- The left side has taken the SYN/ACK, and its ACK is under way. -/
theorem halfOpen_called {iss : Side → TcpSeq} {rto : Side → Nat → UInt8} {n : Net}
    (hwrap : ∀ i, firstOf iss i < 2 ^ 32)
    (hl : n.ends .left = called iss rto) (hr : n.ends .right = answering iss rto)
    (hfl : n.flight .left = [makeStcpPacket TH.ack (iss .left + 1) (iss .right + 1) []])
    (hfr : n.flight .right = []) : HalfOpen iss n := by
  have hleft := firstOf_eq (hwrap .left)
  have hright := firstOf_eq (hwrap .right)
  have hsynL : (synOf iss).header.has TH.syn = true :=
    (makeStcpPacket_has _ _ _ _ _).trans (by decide)
  have hsynR : (synAckOf iss).header.has TH.syn = true :=
    (makeStcpPacket_has _ _ _ _ _).trans (by decide)
  have hwind : (BitVec.ofNat 32 winLen).toNat < 2 ^ 31 := by decide
  refine ⟨?_, ?_, ?_, ?_, ?_, ?_, ?_, hfr, ?_⟩
  · rw [hl]; exact nofun
  · rw [hl]
    exact ⟨rfl, fun q hq => by cases hq⟩
  · rw [hr]; exact ⟨rfl, rfl⟩
  · rw [hr]
    refine ⟨by simp [answering], ?_⟩
    intro q hq
    have hq' : q = ⟨0, iss .right, synAckOf iss⟩ := by simpa [answering] using hq
    rw [hq']
    exact ⟨rfl, rfl⟩
  · rw [hr]; exact ⟨rfl, rfl⟩
  · rw [hl, hr]
    refine ⟨⟨hleft, ?_, Or.inr rfl, ?_, fun q hq => by cases hq⟩,
      ⟨hleft, List.prefix_refl _, fits_empty fun _ => rfl, rfl⟩, ?_, ?_⟩
    · show (iss .left + 1).toNat < (iss .left + 1).toNat + 2 ^ 31
      omega
    · intro p hp hsyn
      have hp' : p = synOf iss ∨
          p = makeStcpPacket TH.ack (iss .left + 1) (iss .right + 1) [] := by
        simpa [called, sentOf] using hp
      rcases hp' with rfl | rfl
      · rw [hsynL] at hsyn
        cases hsyn
      · have hhi : (iss .left + 1).toNat - firstOf iss .left + 0 ≤ 0 := by omega
        exact ⟨rfl, by simp, hleft.ge, hhi, by simp⟩
    · exact Nat.le_refl _
    · intro p hp
      have hp' : p = synAckOf iss := by simpa [answering, sentOf] using hp
      rw [hp']
      exact Nat.le_refl _
  · rw [hl, hr]
    refine ⟨⟨hright, ?_, Or.inl hwind, ?_, ?_⟩,
      ⟨hright, List.prefix_refl _, fits_empty fun _ => rfl, rfl⟩, ?_, ?_⟩
    · show (iss .right + 1).toNat < (iss .right).toNat + 2 ^ 31
      rw [hright, firstOf]
      omega
    · intro p hp hsyn
      have hp' : p = synAckOf iss := by simpa [answering, sentOf] using hp
      rw [hp', hsynR] at hsyn
      cases hsyn
    · intro q hq hsyn
      have hq' : q = ⟨0, iss .right, synAckOf iss⟩ := by simpa [answering] using hq
      rw [hq', hsynR] at hsyn
      cases hsyn
    · show (iss .right).toNat ≤ (iss .right + 1).toNat
      rw [hright, firstOf]
      omega
    · intro p hp
      have hp' : p = synOf iss ∨
          p = makeStcpPacket TH.ack (iss .left + 1) (iss .right + 1) [] := by
        simpa [called, sentOf] using hp
      rcases hp' with rfl | rfl
      · exact Nat.zero_le _
      · exact Nat.le_refl _
  · intro p hp
    rw [hfl] at hp
    obtain rfl := List.mem_singleton.mp hp
    refine ⟨?_, rfl, rfl⟩
    rw [hl]
    simp [called, sentOf]

theorem Answered.step {iss : Side → TcpSeq} {rto : Side → Nat → UInt8} {n : Net}
    {ev : Side × Event} (h : Answered iss rto n)
    (hwrap : ∀ i, firstOf iss i < 2 ^ 32) (hev : Arrives n ev) :
    Answered iss rto (n.step ev) ∨ HalfOpen iss (n.step ev) := by
  obtain ⟨i, e⟩ := ev
  have hopen : (n.ends i).status = .opening := by
    cases i with
    | left => rw [h.left]; rfl
    | right => rw [h.right]; rfl
  rcases hev.cases with ⟨hown, -⟩ | ⟨p, hp, rfl⟩
  · obtain ⟨hends, hflight⟩ := n.step_deaf hopen hown
    exact Or.inl ⟨by rw [hends]; exact h.left, by rw [hends]; exact h.right,
      by rw [hflight]; exact h.flightLeft, by rw [hflight]; exact h.flightRight⟩
  · cases i with
    | right =>
      rw [Side.other, h.flightLeft] at hp
      cases hp
    | left =>
      rw [Side.other, h.flightRight] at hp
      obtain rfl := List.mem_singleton.mp hp
      have hstep : (n.ends .left).step (.networkData (some (synAckOf iss))) = called iss rto := by
        rw [h.left]
        exact take_synAck iss rto (hwrap .left)
      refine Or.inr (@halfOpen_called _ rto _ hwrap ?_ ?_ ?_ ?_)
      · exact (n.ends_own .left _).trans hstep
      · exact (n.ends_peer .left _).trans h.right
      · rw [Net.flight_own
          [.networkSend (makeStcpPacket TH.ack (iss .left + 1) (iss .right + 1) [])],
          h.flightLeft]
        · rfl
        · rw [hstep, h.left]
          rfl
      · refine (Net.flight_peer n .left _).trans ?_
        simp [Net.remaining, Side.other, h.flightRight]

/-! ## The packet that completes the handshake -/

/-- What arrives behind a gap, or brings nothing, leaves the front empty. -/
theorem recvPayload_gap {b : Nat} {T D : List UInt8} {ctx ctx' : Context} {p : Packet} {m : Int}
    (hR : RecvInv b T D ctx) (hp : Piece b T p)
    (hnear : p.header.thSeq.toNat < ctx.recvNext.toNat + 2 ^ 31)
    (hgap : p.data = [] ∨ ctx.recvNext.toNat < p.header.thSeq.toNat)
    (h : recvPayload ctx p = some (ctx', m)) : ctx'.recvIndicator 0 = false ∧ m = 0 := by
  rcases hgap with hdata | hahead
  · rw [recvPayload_bare hp.off hdata] at h
    obtain ⟨rfl, rfl⟩ := Prod.mk.inj (Option.some.inj h)
    exact ⟨hR.gap, rfl⟩
  · unfold recvPayload at h
    split at h
    next =>
      obtain ⟨rfl, rfl⟩ := Prod.mk.inj (Option.some.inj h)
      exact ⟨hR.gap, rfl⟩
    next =>
      obtain ⟨c, hc, hstore⟩ := Option.map_eq_some_iff.mp h
      -- the clip starts behind the first cell
      have hcell : 0 < c.cell ∧ c.old = false := by
        unfold clipPayload at hc
        rw [toInt_sub_ahead hahead.le (by omega)] at hc
        simp only [Int.natCast_nonneg, not_lt, if_neg, Int.toNat_natCast] at hc
        split at hc
        next => exact absurd hc (by simp)
        next =>
          obtain rfl := Option.some.inj hc
          exact ⟨Nat.sub_pos_of_lt hahead, rfl⟩
      have hfirst : markAt ctx.recvIndicator c.cell c.len 0 = false := by
        simp [markAt, hR.gap]
        omega
      obtain ⟨rfl, rfl⟩ := Prod.mk.inj hstore
      refine ⟨hfirst, ?_⟩
      simp [hcell.2, firstGap_eq_zero hfirst]

/-- The next byte is counted as soon as it is stored. -/
theorem recvPayload_next {ctx : Context} {p : Packet} (hoff : p.header.thOff = offset)
    (hlen : p.data.length ≤ maxLen) (hdata : p.data ≠ []) (hseq : p.header.thSeq = ctx.recvNext) :
    ∃ (ctx' : Context) (n : Nat), recvPayload ctx p = some (ctx', (n : Int)) ∧ 0 < n ∧ n ≤ winLen ∧
      ctx'.recvNext = ctx.recvNext + BitVec.ofNat 32 n := by
  have hpl : p.paylen = p.data.length := paylen_eq hoff hlen
  have hpos : 0 < p.data.length := List.length_pos_iff.mpr hdata
  have hclip : clipPayload ctx.recvNext p
      = some ⟨0, 0, min winLen p.data.length, false⟩ := by
    unfold clipPayload
    rw [hseq, BitVec.sub_self, hpl]
    simp
  have hwin : 0 < winLen := by decide
  have hmark : markAt ctx.recvIndicator 0 (min winLen p.data.length) 0 = true :=
    markAt_true.mpr (Or.inr ⟨Nat.le_refl _, by omega⟩)
  refine ⟨(storeClip ctx p ⟨0, 0, min winLen p.data.length, false⟩).1,
    firstGap (markAt ctx.recvIndicator 0 (min winLen p.data.length)) winLen, ?_, firstGap_pos hmark hwin, firstGap_le_size _ _, rfl⟩
  unfold recvPayload
  rw [if_neg (by omega), hclip]
  rfl

theorem has_ack_of_ack {p : Packet} (h : p.header.thFlags = TH.ack) :
    p.header.has TH.ack = true := by
  rw [STCPHeader.has, h]
  decide

theorem HalfOpen.right_sendNext {iss : Side → TcpSeq} {n : Net} (h : HalfOpen iss n)
    (hwrap : ∀ i, firstOf iss i < 2 ^ 32) :
    (n.ends .right).ctx.sendNext = iss .right + 1 := by
  have hnext := h.fromRight.send.next
  rw [show takenOf (n.ends .right).calls = [] from h.silent.1, List.length_nil, Nat.add_zero,
    ← firstOf_eq (hwrap .right)] at hnext
  exact BitVec.eq_of_toNat_eq hnext

/-- The waiting side's step on a packet that has the ACK: dropped when it is
beyond the window, else it completes the handshake. -/
theorem HalfOpen.right_step {iss : Side → TcpSeq} {n : Net} (h : HalfOpen iss n)
    (hwrap : ∀ i, firstOf iss i < 2 ^ 32) {p : Packet} (hflags : p.header.thFlags = TH.ack)
    (hnum : p.header.thAck = iss .right + 1)
    (hover : recvOverruns (n.ends .right).ctx (some p) = false) :
    (n.ends .right).step (.networkData (some p)) =
      if (recvPacket (n.ends .right).ctx (some p)).2.2 < 0 then
        ⟨(recvPacket (n.ends .right).ctx (some p)).1, .opening, (n.ends .right).calls ++ []⟩
      else
        ⟨{ (recvPacket (n.ends .right).ctx (some p)).1 with connectionState := .established },
          .running, (n.ends .right).calls ++ []⟩ := by
  obtain ⟨-, -, hnext, -⟩ := recvPacket_frame (n.ends .right).ctx (some p)
  have hlist : (n.ends .right).ctx.unackdPackets.isEmpty = false :=
    List.isEmpty_eq_false_iff.mpr h.waiting.1
  have hack : (recvPacket (n.ends .right).ctx (some p)).2.1.has TH.ack = true := by
    rw [recvPacket_header]
    exact has_ack_of_ack hflags
  have hthis : (recvPacket (n.ends .right).ctx (some p)).2.1.thAck
      = (recvPacket (n.ends .right).ctx (some p)).1.sendNext := by
    rw [recvPacket_header, hnext, h.right_sendNext hwrap]
    exact hnum
  unfold Endpoint.step openNetworkData
  rw [h.right.1, h.right.2]
  simp only [hover, hlist, awaitAck, Bool.false_eq_true, if_false]
  by_cases hneg : (recvPacket (n.ends .right).ctx (some p)).2.2 < 0
  · rw [if_pos hneg, if_pos (Or.inl hneg)]
  · rw [if_neg hneg, if_neg (not_or.mpr ⟨hneg, not_not.mpr hack⟩), if_pos hthis]

/-- The SYN/ACK leaves the list once it is acknowledged. -/
theorem HalfOpen.acked_list {iss : Side → TcpSeq} {n : Net} (h : HalfOpen iss n)
    (hwrap : ∀ i, firstOf iss i < 2 ^ 32) {ctx : Context} {hd : STCPHeader}
    (hlist : ctx.unackdPackets = (n.ends .right).ctx.unackdPackets)
    (hun : ctx.sendUnack = (n.ends .right).ctx.sendUnack)
    (hflags : hd.has TH.ack = true) (hnum : hd.thAck = iss .right + 1) :
    (recvHeader ctx hd).unackdPackets = [] := by
  have hle : ctx.sendUnack ≤ hd.thAck := by
    have hunack := h.fromRight.unack_le_next
    rw [h.right_sendNext hwrap] at hunack
    rw [hun, hnum]
    exact hunack
  have hunack : (recvHeader ctx hd).sendUnack = iss .right + 1 := by
    rw [recvHeader_sendUnack, ackPoint, if_pos ⟨hflags, hle⟩, hnum]
  rw [recvHeader_unackdPackets, hunack, hlist, List.dropWhile_eq_nil_iff]
  intro q hq
  obtain ⟨hseq, hdata⟩ := h.waiting.2 q hq
  have hnext := firstOf_eq (hwrap .right)
  unfold firstOf at hnext
  simp only [PacketT.acked, hseq, hdata, List.length_nil, hnext]
  exact decide_eq_true (Nat.le_succ _)

/-- **The waiting side gets a packet** that does not bring the first byte. -/
theorem HalfOpen.right_network {iss : Side → TcpSeq} {n : Net} (h : HalfOpen iss n)
    (hwrap : ∀ i, firstOf iss i < 2 ^ 32)
    (hsmall : firstOf iss .left + (n.ends .left).taken.length < 2 ^ 32) {p : Packet}
    (hp : p ∈ n.flight .left)
    (hbare : p.data = [] ∨ p.header.thSeq ≠ (n.ends .right).ctx.recvNext) :
    HalfOpen iss (n.step (.right, .networkData (some p))) ∨
      Open iss (n.step (.right, .networkData (some p))) := by
  obtain ⟨hsent, hflags, hnum⟩ := h.flightLeft p hp
  have hpiece := h.fromLeft.send.sent p hsent (not_syn_of_ack hflags)
  have hrecv := h.fromLeft.recv
  have hnear := h.fromLeft.near
  have hnext := h.fromLeft.send.next
  have hhi := hpiece.hi
  have hlo := hpiece.lo
  have hfirst : (n.ends .right).ctx.recvNext.toNat = firstOf iss .left := by
    rw [hrecv.next, h.silent.2]
    rfl
  -- what does not start at `recv_next` lies past it
  have hgap : p.data = [] ∨ (n.ends .right).ctx.recvNext.toNat < p.header.thSeq.toNat := by
    rcases hbare with hdata | hne
    · exact Or.inl hdata
    · refine Or.inr (Nat.lt_of_le_of_ne (by omega) fun heq => hne ?_)
      exact BitVec.eq_of_toNat_eq heq.symm
  have hstep := h.right_step hwrap hflags hnum (recvOverruns_gap fun ctx' m hpay =>
    (recvPayload_gap hrecv hpiece (by omega) hgap hpay).1)
  have hleft : (n.step (.right, .networkData (some p))).ends .left = n.ends .left :=
    n.ends_peer .right _
  have hright : (n.step (.right, .networkData (some p))).ends .right
      = (n.ends .right).step (.networkData (some p)) := n.ends_own .right _
  have hfl : ∀ q ∈ (n.step (.right, .networkData (some p))).flight .left, q ∈ n.flight .left := by
    intro q hq
    exact Net.mem_remaining ((n.flight_peer .right _) ▸ hq)
  have hcalls : ((n.ends .right).step (.networkData (some p))).calls
      = (n.ends .right).calls ++ [] := by
    rw [hstep]
    split <;> rfl
  have hfr : (n.step (.right, .networkData (some p))).flight .right = [] := by
    rw [Net.flight_own [] hcalls, h.flightRight]
    rfl
  cases hpay : recvPayload (n.ends .right).ctx p with
  | none =>
    -- beyond the window: nothing has happened
    left
    have hminus : (-1 : Int) < 0 := by decide
    have hsame : (n.ends .right).step (.networkData (some p)) = n.ends .right := by
      rw [hstep, recvPacket_dropped hpay, if_pos hminus, List.append_nil, ← h.right.1]
    rw [hsame] at hright
    exact ⟨by rw [hleft]; exact h.left, by rw [hleft]; exact h.steady,
      by rw [hright]; exact h.right, by rw [hright]; exact h.waiting,
      by rw [hright]; exact h.silent, by rw [hleft, hright]; exact h.fromLeft,
      by rw [hleft, hright]; exact h.fromRight, hfr,
      fun q hq => by rw [hleft]; exact h.flightLeft q (hfl q hq)⟩
  | some r =>
    right
    obtain ⟨ctx', m⟩ := r
    -- the ACK completes the handshake, and its payload opens a gap
    obtain ⟨hfront, rfl⟩ := recvPayload_gap hrecv hpiece (by omega) hgap hpay
    obtain ⟨-, -, hun, -, hlist⟩ := recvPayload_frame hpay
    rw [hstep, recvPacket_taken hpay, if_neg (Int.lt_irrefl 0), List.append_nil] at hright
    have hA := (recvPayload_inv hrecv hpiece hsmall (fun _ => by omega) hpay).recvHeader
      (not_syn_of_ack hflags)
    have hgap' : firstGap (recvHeader ctx' p.header).recvIndicator winLen = 0 := by
      rw [(recvHeader_frame ctx' p.header).2.2.2.2]
      exact firstGap_eq_zero hfront
    have hR := hA.recvInv hgap'
    have hS := recvPacket_sendInv p h.fromRight.send
    have hun' := recvPacket_sendUnack (n.ends .right).ctx p
    rw [recvPacket_taken hpay] at hS hun'
    -- the SYN/ACK leaves the list
    have hempty := h.acked_list hwrap hlist hun (has_ack_of_ack hflags) hnum
    have hback : (recvHeader ctx' p.header).recvNext.toNat = (n.ends .right).ctx.recvNext.toNat := by
      rw [hR.next, hrecv.next]
    refine ⟨⟨?_, ?_, ?_⟩, ?_⟩
    · rintro (_ | _)
      · rw [hleft]; exact h.left
      · rw [hright]; exact nofun
    · rintro (_ | _)
      · rw [hleft]; exact h.steady
      · rw [hright]
        refine ⟨rfl, ?_⟩
        simp only [hempty]
        exact nofun
    · rintro (_ | _)
      · show Flow _ _ ((n.step (.right, .networkData (some p))).ends .right)
        rw [hleft, hright]
        exact ⟨h.fromLeft.send, ⟨hR.next, hR.pre, hR.fits, hR.gap⟩,
          h.fromLeft.unack.trans hback.ge, fun q hq => (h.fromLeft.acks q hq).trans hback.ge⟩
      · show Flow _ _ ((n.step (.right, .networkData (some p))).ends .left)
        rw [hleft, hright]
        refine ⟨⟨hS.next, hS.inflight, hS.wind, hS.sent, hS.listed⟩, h.fromRight.recv, ?_,
          h.fromRight.acks⟩
        show (recvHeader ctx' p.header).sendUnack.toNat ≤ _
        rcases hun' with heq | heq
        · simp only at heq
          rw [heq]
          exact h.fromRight.unack
        · simp only at heq
          rw [heq, hnum, firstOf_eq (hwrap .right), h.fromRight.recv.next]
          exact Nat.le_add_right _ _
    · rintro (_ | _) q hq
      · rw [hleft]
        exact ⟨(h.flightLeft q (hfl q hq)).1, (h.flightLeft q (hfl q hq)).2.1⟩
      · rw [hfr] at hq
        cases hq

/-- **The established side's step**, while the other one still waits. -/
theorem HalfOpen.left_step {iss : Side → TcpSeq} {n : Net} {e : Event} (h : HalfOpen iss n)
    (hwrap : ∀ i, firstOf iss i < 2 ^ 32)
    (hsmall : firstOf iss .left + ((n.ends .left).step e).taken.length < 2 ^ 32)
    (hown : ∀ packet, e ≠ .networkData packet) (hclose : e ≠ .appCloseRequested) :
    HalfOpen iss (n.step (.left, e)) := by
  have hplain : Plain (n.ends .left) (n.ends .right) e :=
    ⟨hclose, fun packet heq => absurd heq (hown packet)⟩
  have hR : firstOf iss .right + (n.ends .right).taken.length < 2 ^ 32 := by
    rw [h.silent.1]
    exact hwrap .right
  obtain ⟨hsteady, hsend, hrecv⟩ :=
    h.fromLeft.pair_step h.left h.steady h.fromRight hplain hsmall hR
  obtain ⟨new, hcalls, hnew⟩ := h.steady.step_sent h.left hplain
  have hleft : (n.step (.left, e)).ends .left = (n.ends .left).step e := n.ends_own .left e
  have hright : (n.step (.left, e)).ends .right = n.ends .right := n.ends_peer .left e
  -- nothing has come from the right side, so `recv_next` is still its first byte
  have hnext : ((n.ends .left).step e).ctx.recvNext = iss .right + 1 := by
    have hdel := hrecv.recv.pre.length_le
    rw [h.silent.1, List.length_nil, Nat.le_zero] at hdel
    have hnum := hrecv.recv.next
    rw [hdel, Nat.add_zero, ← firstOf_eq (hwrap .right)] at hnum
    exact BitVec.eq_of_toNat_eq hnum
  refine ⟨?_, ?_, ?_, ?_, ?_, ?_, ?_, ?_, ?_⟩
  · rw [hleft]; exact Endpoint.step_not_opening h.left e
  · rw [hleft]; exact hsteady
  · rw [hright]; exact h.right
  · rw [hright]; exact h.waiting
  · rw [hright]; exact h.silent
  · rw [hleft, hright]; exact hsend
  · rw [hleft, hright]; exact hrecv
  · refine List.eq_nil_iff_forall_not_mem.mpr fun p hp => ?_
    have hp' : p ∈ n.flight .right := Net.mem_remaining ((n.flight_peer .left e) ▸ hp)
    rw [h.flightRight] at hp'
    cases hp'
  · rw [Net.flight_own new hcalls]
    intro p hp
    rw [hleft, Endpoint.sent, hcalls, sentOf_append]
    rcases List.mem_append.mp hp with hold | hp
    · obtain ⟨hsent, hflags, hnum⟩ := h.flightLeft p hold
      exact ⟨List.mem_append_left _ hsent, hflags, hnum⟩
    · exact ⟨List.mem_append_right _ hp, (hnew p hp).1, (hnew p hp).2.trans hnext⟩

theorem HalfOpen.step {iss : Side → TcpSeq} {n : Net} {ev : Side × Event} (h : HalfOpen iss n)
    (hwrap : ∀ i, firstOf iss i < 2 ^ 32)
    (hsmall : ∀ j, firstOf iss j + ((n.step ev).ends j).taken.length < 2 ^ 32)
    (hev : Arrives n ev) (hbare : CompletesBare n ev) :
    HalfOpen iss (n.step ev) ∨ Open iss (n.step ev) := by
  obtain ⟨i, e⟩ := ev
  cases i with
  | left =>
    rcases hev.cases with ⟨hown, hclose⟩ | ⟨p, hp, rfl⟩
    · exact Or.inl (h.left_step hwrap (n.ends_own .left e ▸ hsmall .left) hown hclose)
    · rw [Side.other, h.flightRight] at hp
      cases hp
  | right =>
    rcases hev.cases with ⟨hown, -⟩ | ⟨p, hp, rfl⟩
    · obtain ⟨hends, hflight⟩ := n.step_deaf h.right.1 hown
      refine Or.inl ⟨?_, ?_, ?_, ?_, ?_, ?_, ?_, ?_, ?_⟩
      · rw [hends]; exact h.left
      · rw [hends]; exact h.steady
      · rw [hends]; exact h.right
      · rw [hends]; exact h.waiting
      · rw [hends]; exact h.silent
      · rw [hends]; exact h.fromLeft
      · rw [hends]; exact h.fromRight
      · rw [hflight]; exact h.flightRight
      · rw [hends, hflight]; exact h.flightLeft
    · have hl := hsmall .left
      rw [show (n.step (.right, .networkData (some p))).ends .left = n.ends .left from
        n.ends_peer .right _] at hl
      exact h.right_network hwrap hl hp (hbare p rfl h.right.1 h.right.2)

theorem Open.step {iss : Side → TcpSeq} {n : Net} {ev : Side × Event} (h : Open iss n)
    (hsmall : ∀ j, firstOf iss j + ((n.step ev).ends j).taken.length < 2 ^ 32)
    (hev : Arrives n ev) : Open iss (n.step ev) := by
  obtain ⟨i, e⟩ := ev
  have hplain : Plain (n.ends i) (n.ends i.other) e := by
    rcases hev.cases with ⟨hown, hclose⟩ | ⟨p, hp, rfl⟩
    · exact ⟨hclose, fun packet heq => absurd heq (hown packet)⟩
    · refine ⟨nofun, ?_⟩
      rintro packet ⟨⟩
      obtain ⟨hsent, hflags⟩ := h.flight i.other p hp
      refine ⟨p, rfl, hsent, OpenPacket.plain hflags, fun hsyn => ?_⟩
      rw [not_syn_of_ack hflags] at hsyn
      cases hsyn
  refine ⟨h.connected.step hplain hsmall, ?_⟩
  intro j p hp
  rcases Side.eq_or_other i j with rfl | rfl
  · obtain ⟨new, hcalls, hnew⟩ := (h.connected.steady j).step_sent (h.connected.status j) hplain
    rw [Net.flight_own new hcalls] at hp
    rw [n.ends_own, Endpoint.sent, hcalls, sentOf_append]
    rcases List.mem_append.mp hp with hold | hp
    · exact ⟨List.mem_append_left _ (h.flight j p hold).1, (h.flight j p hold).2⟩
    · exact ⟨List.mem_append_right _ hp, (hnew p hp).1⟩
  · rw [n.flight_peer] at hp
    rw [n.ends_peer]
    exact h.flight _ p (Net.mem_remaining hp)

/-- The four phases. -/
def Phases (iss : Side → TcpSeq) (rto : Side → Nat → UInt8) (n : Net) : Prop :=
  Calling iss rto n ∨ Answered iss rto n ∨ HalfOpen iss n ∨ Open iss n

theorem Phases.step {iss : Side → TcpSeq} {rto : Side → Nat → UInt8} {n : Net}
    {ev : Side × Event} (h : Phases iss rto n)
    (hsmall : ∀ j, firstOf iss j + ((n.step ev).ends j).taken.length < 2 ^ 32)
    (hev : Arrives n ev) (hbare : CompletesBare n ev) : Phases iss rto (n.step ev) := by
  have hwrap : ∀ i, firstOf iss i < 2 ^ 32 := fun i => Nat.lt_of_le_of_lt (Nat.le_add_right _ _)
    (hsmall i)
  rcases h with h | h | h | h
  · rcases h.step hev with h | h
    · exact Or.inl h
    · exact Or.inr (Or.inl h)
  · rcases h.step hwrap hev with h | h
    · exact Or.inr (Or.inl h)
    · exact Or.inr (Or.inr (Or.inl h))
  · rcases h.step hwrap hsmall hev hbare with h | h
    · exact Or.inr (Or.inr (Or.inl h))
    · exact Or.inr (Or.inr (Or.inr h))
  · exact Or.inr (Or.inr (Or.inr (h.step hsmall hev)))

/-- A receiving side counts from its peer's first byte. -/
theorem Flow.counts {iss : Side → TcpSeq} {i : Side} {S R : Endpoint}
    (h : Flow (firstOf iss i) S R) (hwrap : firstOf iss i < 2 ^ 32) :
    R.ctx.recvNext - (iss i + 1) = BitVec.ofNat 32 R.delivered.length ∧
      R.delivered <+: S.taken := by
  refine ⟨BitVec.eq_of_toNat_eq ?_, h.recv.pre⟩
  have hnext := h.recv.next
  have hlt := R.ctx.recvNext.isLt
  rw [BitVec.toNat_sub, firstOf_eq hwrap, hnext, BitVec.toNat_ofNat]
  omega

theorem Phases.counts {iss : Side → TcpSeq} {rto : Side → Nat → UInt8} {n : Net}
    (h : Phases iss rto n)
    (hwrap : ∀ i, firstOf iss i < 2 ^ 32) : CountsFromFirst iss n.ends := by
  intro i hst
  rcases h with h | h | h | h
  · cases i with
    | left => rw [h.left] at hst; cases hst
    | right => rw [h.right] at hst; cases hst
  · cases i with
    | left => rw [h.left] at hst; cases hst
    | right => rw [h.right] at hst; cases hst
  · cases i with
    | left => exact h.fromRight.counts (hwrap .right)
    | right => rw [h.right.2] at hst; cases hst
  · have hflow := h.connected.flow i.other
    rw [Side.other_other] at hflow
    exact hflow.counts (hwrap i.other)

/-- Where the count is right after a step, the step did not complete the
handshake with the first byte. -/
theorem Phases.bare {iss : Side → TcpSeq} {rto : Side → Nat → UInt8} {n : Net}
    {ev : Side × Event} (h : Phases iss rto n) (hwrap : ∀ i, firstOf iss i < 2 ^ 32)
    (hev : Arrives n ev) (hcounts : CountsRight iss n ev) : CompletesBare n ev := by
  obtain ⟨i, e⟩ := ev
  rintro p rfl hopen hst
  obtain ⟨p', hp, ⟨⟩⟩ := hev
  rcases h with h | h | h | h
  · cases i with
    | left => rw [h.left] at hst; cases hst
    | right => rw [h.right] at hst; cases hst
  · cases i with
    | left => rw [h.left] at hst; cases hst
    | right =>
      rw [Side.other, h.flightLeft] at hp
      cases hp
  · cases i with
    | left => exact absurd hopen h.left
    | right =>
      by_contra hfirst
      rw [not_or, not_not] at hfirst
      obtain ⟨hsent, hflags, hnum⟩ := h.flightLeft p hp
      have hpiece := h.fromLeft.send.sent p hsent (not_syn_of_ack hflags)
      obtain ⟨ctx', k, hpay, hpos, hk, hnext⟩ :=
        recvPayload_next hpiece.off hpiece.len hfirst.1 hfirst.2
      have hover : recvOverruns (n.ends .right).ctx (some p) = false := by
        by_contra hruns
        refine hcounts.stops ⟨p, rfl, Or.inl ⟨h.right.1, Or.inr ⟨Or.inr h.right.2, h.waiting.1⟩⟩,
          Or.inl (by simpa using hruns)⟩
      have hstep := h.right_step hwrap hflags hnum hover
      rw [recvPacket_taken hpay, if_neg (by simp), List.append_nil] at hstep
      -- established, with `k` bytes counted and none passed up
      have hright : (n.step (.right, .networkData (some p))).ends .right = _ :=
        (n.ends_own .right _).trans hstep
      have hcount := (hcounts.counts .right (by rw [hright])).1
      rw [hright] at hcount
      have hdel : (n.ends .right).delivered = [] := h.silent.2
      have hfirstR := h.fromLeft.recv.next
      rw [hdel, List.length_nil, Nat.add_zero] at hfirstR
      have hrn : (recvHeader ctx' p.header).recvNext = (n.ends .right).ctx.recvNext
          + BitVec.ofNat 32 k := by
        rw [recvHeader_recvNext, not_syn_of_ack hflags]
        exact hnext
      have hzero : (n.ends .right).ctx.recvNext + BitVec.ofNat 32 k - (iss .left + 1) = 0 := by
        rw [← hrn]
        exact hcount.trans (congrArg (fun l : List UInt8 => BitVec.ofNat 32 l.length) hdel)
      have hsame : (n.ends .right).ctx.recvNext = iss .left + 1 := by
        rw [← firstOf_eq (hwrap .left)] at hfirstR
        exact BitVec.eq_of_toNat_eq hfirstR
      rw [hsame, BitVec.add_comm, BitVec.add_sub_cancel] at hzero
      have hk0 := congrArg BitVec.toNat hzero
      have hwin : winLen < 2 ^ 32 := by decide
      rw [BitVec.toNat_ofNat, Nat.mod_eq_of_lt (by omega)] at hk0
      exact absurd hk0 (by simpa using hpos.ne')
  · exact absurd hopen (h.connected.status i)

/-- In the loop the front of the indicator is empty between two events. -/
theorem Phases.gap {iss : Side → TcpSeq} {rto : Side → Nat → UInt8} {n : Net} (h : Phases iss rto n)
    {i : Side} (hrun : (n.ends i).status = .running) : (n.ends i).ctx.recvIndicator 0 = false := by
  rcases h with h | h | h | h
  · cases i with
    | left => rw [h.left] at hrun; cases hrun
    | right => rw [h.right] at hrun; cases hrun
  · cases i with
    | left => rw [h.left] at hrun; cases hrun
    | right => rw [h.right] at hrun; cases hrun
  · cases i with
    | left => exact h.fromRight.recv.gap
    | right => rw [h.right.1] at hrun; cases hrun
  · have hflow := h.connected.flow i.other
    rw [Side.other_other] at hflow
    exact hflow.recv.gap

/-- **A scan runs on** where the window is filled and `rto` is not under a second. -/
theorem Phases.runsOn_iff {iss : Side → TcpSeq} {rto : Side → Nat → UInt8} {n : Net}
    {ev : Side × Event} (h : Phases iss rto n)
    (hstd : ∀ p, ev.2 = .networkData (some p) → Standard p) :
    ¬RunsOn (n.ends ev.1) ev.2 ↔ FillsEarly n ev := by
  constructor
  · intro hstops p hev hlook hdata hfill
    constructor
    · by_contra hlate
      exact hstops ⟨p, hev, hlook,
        Or.inl ((recvOverruns_iff (hstd p hev)).mpr ⟨hdata, hfill, hlate⟩)⟩
    · intro hrun
      by_contra hlate
      exact hstops ⟨p, hev, hlook, Or.inr ⟨hrun,
        (slideOverruns_iff (hstd p hev) (h.gap hrun)).mpr ⟨hdata, hfill, hlate⟩⟩⟩
  · intro hearly hruns
    obtain ⟨p, hev, hlook, hover | ⟨hrun, hover⟩⟩ := hruns
    · obtain ⟨hdata, hfill, hlate⟩ := (recvOverruns_iff (hstd p hev)).mp hover
      exact hlate (hearly p hev hlook hdata hfill).1
    · obtain ⟨hdata, hfill, hlate⟩ := (slideOverruns_iff (hstd p hev) (h.gap hrun)).mp hover
      exact hlate ((hearly p hev hlook hdata hfill).2 hrun)

/-- What arrives has been made by an endpoint. -/
theorem arrives_ofMade {P : Packet → Prop} (hP : OfMade P) {iss : Side → TcpSeq}
    {rto : Side → Nat → UInt8} {evs : List (Side × Event)}
    (hnet : Along Net.step Arrives (dial iss rto) evs) :
    Along Net.step (fun _ ev => ∀ p, ev.2 = .networkData (some p) → P p) (dial iss rto) evs := by
  refine along_of_invariant (fun n : Net => (∀ i, (n.ends i).AllPackets P) ∧
    ∀ i, ∀ p ∈ n.flight i, P p) ?_ ?_ hnet ⟨fun i => hP.start _ _ _, fun i p hp => ?_⟩
  · intro n ev _ hall
    obtain ⟨i, e⟩ := ev
    obtain ⟨new, hcalls⟩ := (n.ends i).step_calls e
    have hown := hP.step (hall.1 i) e
    constructor
    · intro j
      rcases Side.eq_or_other i j with rfl | rfl
      · rw [n.ends_own]
        exact hown
      · rw [n.ends_peer]
        exact hall.1 _
    · intro j p hp
      rcases Side.eq_or_other i j with rfl | rfl
      · rw [Net.flight_own new hcalls] at hp
        rcases List.mem_append.mp hp with hold | hnew
        · exact hall.2 j p hold
        · refine hown.sent p ?_
          rw [Endpoint.sent, hcalls, sentOf_append]
          exact List.mem_append_right _ hnew
      · rw [n.flight_peer] at hp
        exact hall.2 _ p (Net.mem_remaining hp)
  · intro n ev hok hall p hp
    obtain ⟨i, e⟩ := ev
    obtain rfl : e = .networkData (some p) := hp
    obtain ⟨p', hp', heq⟩ := hok
    rw [Option.some.inj heq]
    exact hall.2 i.other p' hp'
  · exact (hP.start _ _ _).sent p hp

/-- **The bytes delivered are the peer's stream from its first byte on in exactly the
runs in which the handshake is not completed by that first byte, and the window is
filled only while `rto` is under a second.** -/
theorem counts_from_first_iff (iss : Side → TcpSeq) (rto : Side → Nat → UInt8)
    {evs : List (Side × Event)} (hnet : Along Net.step Arrives (dial iss rto) evs)
    (hwrap : ∀ i, (iss i).toNat + 1 + ((run Net.step (dial iss rto) evs).ends i).taken.length
      < 2 ^ 32) :
    Along Net.step (CountsRight iss) (dial iss rto) evs ↔
      Along Net.step (fun n ev => CompletesBare n ev ∧ FillsEarly n ev) (dial iss rto) evs := by
  have hback : ∀ (n : Net) (ev : Side × Event),
      (∀ j, firstOf iss j + ((n.step ev).ends j).taken.length < 2 ^ 32) →
      ∀ j, firstOf iss j + (n.ends j).taken.length < 2 ^ 32 := fun n ev h j =>
    Nat.lt_of_le_of_lt (Nat.add_le_add_left (n.ends.taken_step_le ev j) _) (h j)
  have hsmall := along_of_last
    (fun n : Net => ∀ j, firstOf iss j + (n.ends j).taken.length < 2 ^ 32) hback hwrap
  have hfirst : ∀ i, firstOf iss i < 2 ^ 32 := fun i =>
    Nat.lt_of_le_of_lt (Nat.le_add_right _ _) (hwrap i)
  have hstart : Phases iss rto (dial iss rto) := Or.inl ⟨rfl, rfl, rfl, rfl⟩
  have hstd := arrives_ofMade standard_ofMade hnet
  constructor
  · intro hcount
    refine along_of_invariant (Phases iss rto) ?_ ?_
      (along_and.mpr ⟨along_and.mpr ⟨along_and.mpr ⟨hnet, hcount⟩, hsmall⟩, hstd⟩) hstart
    · rintro n ev ⟨⟨⟨hev, hc⟩, hs⟩, -⟩ h
      exact h.step hs hev (h.bare hfirst hev hc)
    · rintro n ev ⟨⟨⟨hev, hc⟩, -⟩, hp⟩ h
      exact ⟨h.bare hfirst hev hc, (h.runsOn_iff hp).mp hc.stops⟩
  · intro hcond
    refine along_of_invariant (Phases iss rto) ?_ ?_
      (along_and.mpr ⟨along_and.mpr ⟨along_and.mpr ⟨hnet, hcond⟩, hsmall⟩, hstd⟩) hstart
    · rintro n ev ⟨⟨⟨hev, hb, -⟩, hs⟩, -⟩ h
      exact h.step hs hev hb
    · rintro n ev ⟨⟨⟨hev, hb, hfills⟩, hs⟩, hp⟩ h
      exact ⟨(h.step hs hev hb).counts hfirst, (h.runsOn_iff hp).mpr hfills⟩

/-- The handshake's ACK arrives before the first segment. -/
def ackFirst : List (Side × Event) :=
  [ (.right, .networkData (some (makeStcpPacket TH.syn 1 0 []))),
    (.left, .networkData (some (makeStcpPacket (TH.syn ||| TH.ack) 101 2 []))),
    (.left, .appData [104, 105]),
    (.right, .networkData (some (makeStcpPacket TH.ack 2 102 []))),
    (.right, .networkData (some (makeStcpPacket TH.ack 2 102 [104, 105]))) ]

theorem ackFirst_counts :
    Along Net.step (CountsRight firstNumbers) (dial firstNumbers underASecond) ackFirst := by
  refine (counts_from_first_iff firstNumbers underASecond (by decide +kernel) ?_).mpr ?_
  · rintro (_ | _) <;> decide +kernel
  · refine ⟨⟨?_, ?_⟩, ⟨?_, ?_⟩, ⟨?_, ?_⟩, ⟨?_, ?_⟩, ⟨?_, ?_⟩, trivial⟩
    · rintro p ⟨⟩; decide +kernel
    · exact fun _ _ _ _ _ => ⟨rfl, fun _ => rfl⟩
    · rintro p ⟨⟩; decide +kernel
    · exact fun _ _ _ _ _ => ⟨rfl, fun _ => rfl⟩
    · exact nofun
    · exact nofun
    · rintro p ⟨⟩; decide +kernel
    · exact fun _ _ _ _ _ => ⟨rfl, fun _ => rfl⟩
    · rintro p ⟨⟩; decide +kernel
    · exact fun _ _ _ _ _ => ⟨rfl, fun _ => rfl⟩

/-- The ACK is lost, and the first segment completes the handshake. -/
def ackLost : List (Side × Event) :=
  [ (.right, .networkData (some (makeStcpPacket TH.syn 1 0 []))),
    (.left, .networkData (some (makeStcpPacket (TH.syn ||| TH.ack) 101 2 []))),
    (.left, .appData [104, 105]),
    (.right, .networkData (some (makeStcpPacket TH.ack 2 102 [104, 105]))) ]

theorem ackLost_strands :
    Along Net.step Arrives (dial firstNumbers underASecond) ackLost ∧
    ¬Along Net.step (CountsRight firstNumbers) (dial firstNumbers underASecond) ackLost := by
  refine ⟨by decide +kernel, ?_⟩
  rintro ⟨-, -, -, hlast, -⟩
  exact absurd (hlast.counts .right (by decide +kernel)).1 (by decide +kernel)

end UchiNetworks.Stcp
