import UchiNetworks.Stcp.Mysock

/-!
# STCP: from `mywrite` to `myread`

Two connected mysockets, with all their threads, over the network layer that
drops, repeats, holds back and reorders (`_network_send`). What it does transmit
goes through a TCP connection and arrives in that order (`Stack.step`).

The pair refines the two endpoints of `Endpoint`: an access of a thread is a step
of the system of endpoints, or changes neither of them (`Carried.refines`), and
nothing reaches a queue of datagrams that the peer has not sent. So
`Connected` carries over, and with the books of the queues
(`Books`) the guarantee reaches from one application to the other:
`stack_delivery`. As for the endpoints (`NothingSince`), a SYN that comes late
would break it (`SynsInTime`).
-/

namespace UchiNetworks.Stcp

open UchiNetworks.Lib

/-- Both mysockets of a connection. -/
abbrev Stack := Side → Mysock

/-- A thread of one side makes an access. The receiving thread gets the next
datagram of the peer's. -/
def Stack.step (s : Stack) : Side × Act → Option Stack
  | (i, .arrive datagram) =>
    match (s i.other).wire with
    | [] => none
    | p :: rest =>
      if datagram = some p then
        ((s i).step (.arrive datagram)).map fun m =>
          Function.update (Function.update s i m) i.other { s i.other with wire := rest }
      else none
  | (i, act) => ((s i).step act).map (Function.update s i)

/-- Neither application closes, and neither writes nothing: the handler would
free a pointer that may never have been set. -/
def StaysOpen (_ : Stack) (e : Side × Act) : Prop := e.2 ≠ .close ∧ e.2 ≠ .write []

/-- A SYN or SYN/ACK is handled only while the number after it is still the next
one expected. -/
def SynsInTime (s : Stack) (e : Side × Act) : Prop :=
  e.2 = .handle → (s e.1).event.head? = some .networkData →
    ∀ p, (s e.1).networkRecvQueue.head? = some (some p) → p.header.has TH.syn = true →
      (s e.1).endpoint.ctx.recvNext = p.header.thSeq + 1

/-- What may happen in a run of this file. -/
def MayHappen (s : Stack) (e : Side × Act) : Prop := StaysOpen s e ∧ SynsInTime s e

instance (s : Stack) (e : Side × Act) : Decidable (StaysOpen s e) :=
  inferInstanceAs (Decidable (_ ∧ _))

instance (s : Stack) (e : Side × Act) : Decidable (SynsInTime s e) :=
  match hqueue : (s e.1).networkRecvQueue.head? with
  | some (some p) =>
    decidable_of_iff (e.2 = .handle → (s e.1).event.head? = some .networkData →
        p.header.has TH.syn = true → (s e.1).endpoint.ctx.recvNext = p.header.thSeq + 1)
      ⟨fun h he hev q hq => by
          cases Option.some.inj (Option.some.inj (hqueue.symm.trans hq))
          exact h he hev,
        fun h he hev => h he hev p hqueue⟩
  | some none => isTrue fun _ _ p hp => by
      cases Option.some.inj (hqueue.symm.trans hp)
  | none => isTrue fun _ _ p hp => by
      cases hqueue.symm.trans hp

instance (s : Stack) (e : Side × Act) : Decidable (MayHappen s e) :=
  inferInstanceAs (Decidable (_ ∧ _))

/-- The transport threads' part. -/
def Stack.endpoints (s : Stack) : System := fun i => (s i).endpoint

/-! ## A mysocket refines its endpoint -/

/-- The answers of `stcp_wait_for_event` while nobody closes, and what is left of them. -/
def openBits : List (List Bit) :=
  [[], [.appData], [.appData, .networkData], [.networkData], [.timeout]]

/-- Whatever the layers below hold has been sent, and no close is on its way. -/
structure Carried (m peer : Mysock) : Prop extends Transmits m where
  arrived : ∀ d ∈ m.networkRecvQueue, ∃ p ∈ peer.endpoint.sent, d = some p
  requested : m.closeRequested = false
  bits : m.event ∈ openBits
  timer : m.event ≠ [] → m.endpoint.status = .running ∧ m.endpoint.ctx.timerFaults = false

/-- In the loop, and with a timer that can be set, a step runs the handler. -/
theorem Endpoint.step_running {ep : Endpoint} (hrunning : ep.status = .running)
    (htimer : ep.ctx.timerFaults = false) (ev : Event) : ep.step ev = ep.after ev := by
  have hopen : ep.status ≠ .opening := by
    rw [hrunning]
    exact fun h => by cases h
  rcases ep.step_cases hopen ev with ⟨hno, -⟩ | ⟨-, -, heq⟩
  · exact absurd ⟨hrunning, htimer⟩ hno
  · exact heq

/-- A timer that cannot be set ends the program. -/
theorem Endpoint.step_faults {ep : Endpoint} (hrunning : ep.status = .running)
    (htimer : ep.ctx.timerFaults = true) (ev : Event) :
    ep.step ev = { ep with status := .crashed } := by
  unfold Endpoint.step
  rw [hrunning]
  unfold controlLoop
  exact if_pos htimer

theorem ready_open {m : Mysock} (late : Bool) (hrequested : m.closeRequested = false) :
    m.ready late ∈ openBits := by
  unfold Mysock.ready
  rw [hrequested, Bool.false_and]
  cases !late && !m.appRecvQueue.isEmpty <;> cases !m.networkRecvQueue.isEmpty <;> decide

/-- What is left when one bit has been looked at. -/
theorem openBits_tail {b : Bit} {rest : List Bit} (h : b :: rest ∈ openBits) :
    b ≠ .appCloseRequested ∧ rest ∈ openBits ∧ (b ≠ .appData → rest = []) := by
  cases b with
  | appData =>
    refine ⟨by decide, ?_, fun hb => absurd rfl hb⟩
    have hrest : rest = [] ∨ rest = [.networkData] := by simpa [openBits] using h
    rcases hrest with heq | heq
    · rw [heq]
      decide
    · rw [heq]
      decide
  | networkData =>
    have hrest : rest = [] := by simpa [openBits] using h
    rw [hrest]
    exact ⟨by decide, by decide, fun _ => rfl⟩
  | appCloseRequested => simp [openBits] at h
  | timeout =>
    have hrest : rest = [] := by simpa [openBits] using h
    rw [hrest]
    exact ⟨by decide, by decide, fun _ => rfl⟩

/-- Having sent data, the thread can set the timer. -/
theorem timerFaults_appData {ctx : Context} (queued : List UInt8) (h : ctx.timerFaults = false) :
    (handleEvent ctx (.appData queued)).1.timerFaults = false := by
  simp only [handleEvent]
  rcases handleAppData_cases ctx queued with heq | ⟨buffer, -, -, -, heq⟩
  · rw [heq]
    exact h
  · rw [heq]
    unfold Context.timerFaults
    simp [packetTCreate]

/-- **A mysocket refines its endpoint.** Where nobody closes, an access leaves
the endpoint as it is or is a step of it, on the next packet of the queue, which
the peer has sent. -/
theorem Carried.refines {m m' peer : Mysock} {act : Act} (h : Carried m peer)
    (hclose : act ≠ .close) (hstep : m.step act = some m') :
    m'.endpoint = m.endpoint ∨ ∃ ev, m'.endpoint = m.endpoint.step ev ∧
      ev ≠ .appCloseRequested ∧
      ∀ d, ev = .networkData d → (∃ p ∈ peer.endpoint.sent, d = some p) ∧
        act = .handle ∧ m.event.head? = some .networkData ∧
        m.networkRecvQueue.head? = some d := by
  cases act with
  | write buf =>
    simp only [Mysock.step] at hstep
    split at hstep
    next => cases hstep
    next =>
      rw [← Option.some.inj hstep]
      exact Or.inl rfl
  | read len =>
    simp only [Mysock.step] at hstep
    split at hstep
    next => cases hstep
    next =>
      rcases Mysock.myread_cases hstep with ⟨-, rfl⟩ | ⟨-, r, -, rfl⟩
      · exact Or.inl rfl
      · exact Or.inl rfl
  | close => exact absurd rfl hclose
  | arrive datagram =>
    rw [← Option.some.inj hstep]
    exact Or.inl rfl
  | wait late =>
    obtain ⟨hhead, ⟨hfaults, rfl⟩ | ⟨-, rfl⟩⟩ := Mysock.waitForEvent_cases hstep
    · refine Or.inr ⟨.timeout, ?_, (fun hev => by cases hev), fun d hev => by cases hev⟩
      exact (Endpoint.step_faults (Mysock.atHead_eq hhead).2.2 hfaults _).symm
    · exact Or.inl rfl
  | expire =>
    obtain ⟨-, -, rfl⟩ := Mysock.expire_eq hstep
    exact Or.inl rfl
  | handle =>
    obtain ⟨-, b, rest, hevent, hcase⟩ := Mysock.handle_cases hstep
    obtain ⟨hrunning, htimer⟩ := h.timer (by rw [hevent]; exact List.cons_ne_nil _ _)
    have hbits := h.bits
    rw [hevent] at hbits
    rcases hcase with ⟨-, -, rfl⟩ | ⟨n, r, -, -, -, rfl⟩ | ⟨d, queue, hb, hqueue, rfl⟩ | ⟨rfl, -⟩ |
      ⟨-, rfl⟩
    · exact Or.inl rfl
    · exact Or.inr ⟨.appData r.1, (Endpoint.step_running hrunning htimer _).symm,
        (fun hev => by cases hev), fun d hev => by cases hev⟩
    · refine Or.inr ⟨.networkData d, (Endpoint.step_running hrunning htimer _).symm,
        (fun hev => by cases hev), ?_⟩
      intro d' hev
      cases hev
      exact ⟨h.arrived d (by rw [hqueue]; exact List.mem_cons_self), rfl, by rw [hevent, hb]; rfl,
        by rw [hqueue]; rfl⟩
    · exact absurd rfl (openBits_tail hbits).1
    · exact Or.inr ⟨.timeout, (Endpoint.step_running hrunning htimer _).symm,
        (fun hev => by cases hev), fun d hev => by cases hev⟩
  | perform draw =>
    obtain ⟨c, rest, -, queue, copy, wire, rfl⟩ := Mysock.perform_frame hstep
    exact Or.inl rfl
  | exit =>
    obtain ⟨-, -, rfl⟩ := Mysock.exit_eq hstep
    exact Or.inl rfl

/-- The peer sends more. -/
theorem Carried.peer {m peer peer' : Mysock} (h : Carried m peer)
    (hsent : ∀ p ∈ peer.endpoint.sent, p ∈ peer'.endpoint.sent) : Carried m peer' := by
  refine ⟨h.toTransmits, ?_, h.requested, h.bits, h.timer⟩
  intro d hd
  obtain ⟨p, hp, heq⟩ := h.arrived d hd
  exact ⟨p, hsent p hp, heq⟩

/-- Where the thread is after the handler of a bit that is not a close. -/
theorem openBits_react {m : Mysock} {b : Bit} {rest : List Bit} {ev : Event}
    (hbits : b :: rest ∈ openBits) (htimer : m.endpoint.ctx.timerFaults = false)
    (hev : b = .appData → ∃ queued, ev = .appData queued) :
    (m.react rest ev).event ∈ openBits ∧ ((m.react rest ev).event ≠ [] →
      (m.react rest ev).endpoint.status = .running ∧
        (m.react rest ev).endpoint.ctx.timerFaults = false) := by
  obtain ⟨-, htail, hlast⟩ := openBits_tail hbits
  have hevent : (m.react rest ev).event = [] ∨
      (m.react rest ev).event = rest ∧ (m.react rest ev).endpoint.status = .running := by
    unfold Mysock.react
    by_cases hgo : (handleEvent m.endpoint.ctx ev).2.1 = .running
    · exact Or.inr ⟨if_pos hgo, hgo⟩
    · exact Or.inl (if_neg hgo)
  rcases hevent with heq | ⟨heq, hrunning⟩
  · rw [heq]
    exact ⟨by decide, fun hne => absurd rfl hne⟩
  · refine ⟨by rw [heq]; exact htail, ?_⟩
    intro hne
    have hb : b = .appData := by
      by_contra hno
      exact hne (heq.trans (hlast hno))
    obtain ⟨queued, rfl⟩ := hev hb
    exact ⟨hrunning, timerFaults_appData queued htimer⟩

/-- **Every access keeps it**, if what arrives is the peer's. -/
theorem Carried.step {m m' peer : Mysock} {act : Act} (h : Carried m peer) (hbooks : Books m)
    (hclose : act ≠ .close) (harrive : ∀ d, act = .arrive d → ∃ p ∈ peer.endpoint.sent, d = some p)
    (hstep : m.step act = some m') : Carried m' peer := by
  have htransmits : Transmits m' := h.toTransmits.step hbooks hstep
  cases act with
  | write buf =>
    simp only [Mysock.step] at hstep
    split at hstep
    next => cases hstep
    next =>
      rw [← Option.some.inj hstep] at htransmits ⊢
      exact ⟨htransmits, h.arrived, h.requested, h.bits, h.timer⟩
  | read len =>
    simp only [Mysock.step] at hstep
    split at hstep
    next => cases hstep
    next =>
      rcases Mysock.myread_cases hstep with ⟨-, rfl⟩ | ⟨-, r, -, rfl⟩
      · exact h
      · exact ⟨htransmits, h.arrived, h.requested, h.bits, h.timer⟩
  | close => exact absurd rfl hclose
  | arrive datagram =>
    rw [← Option.some.inj hstep] at htransmits ⊢
    refine ⟨htransmits, ?_, h.requested, h.bits, h.timer⟩
    intro d hd
    rcases List.mem_append.mp hd with hold | hnew
    · exact h.arrived d hold
    · rw [List.mem_singleton.mp hnew]
      exact harrive datagram rfl
  | wait late =>
    obtain ⟨hhead, ⟨-, rfl⟩ | ⟨hfaults, rfl⟩⟩ := Mysock.waitForEvent_cases hstep
    · refine ⟨htransmits, h.arrived, h.requested, h.bits, ?_⟩
      exact fun hne => absurd (Mysock.atHead_eq hhead).1 hne
    · refine ⟨htransmits, h.arrived, ?_, ready_open late h.requested, ?_⟩
      · rw [h.requested, Bool.false_and]
      · exact fun _ => ⟨(Mysock.atHead_eq hhead).2.2, hfaults⟩
  | expire =>
    obtain ⟨hhead, hfaults, rfl⟩ := Mysock.expire_eq hstep
    refine ⟨htransmits, h.arrived, h.requested, ?_, ?_⟩
    · show [Bit.timeout] ∈ openBits
      decide
    · exact fun _ => ⟨(Mysock.atHead_eq hhead).2.2, hfaults⟩
  | handle =>
    obtain ⟨-, b, rest, hevent, hcase⟩ := Mysock.handle_cases hstep
    obtain ⟨hrunning, htimer⟩ := h.timer (by rw [hevent]; exact List.cons_ne_nil _ _)
    have hbits := h.bits
    rw [hevent] at hbits
    rcases hcase with ⟨-, -, rfl⟩ | ⟨n, r, -, -, -, rfl⟩ | ⟨d, queue, rfl, hqueue, rfl⟩ | ⟨rfl, -⟩ |
      ⟨rfl, rfl⟩
    · exact ⟨htransmits, h.arrived, h.requested, (openBits_tail hbits).2.1,
        fun _ => ⟨hrunning, htimer⟩⟩
    · have hafter := @openBits_react { m with appRecvQueue := r.2 } _ _ _ hbits htimer
        fun _ => ⟨r.1, rfl⟩
      exact ⟨htransmits, h.arrived, h.requested, hafter.1, hafter.2⟩
    · have hafter := @openBits_react { m with networkRecvQueue := queue } _ _ (.networkData d) hbits
        htimer fun hb => by cases hb
      refine ⟨htransmits, fun d' hd' => h.arrived d' ?_, h.requested, hafter.1, hafter.2⟩
      rw [hqueue]
      exact List.mem_cons_of_mem _ hd'
    · exact absurd rfl (openBits_tail hbits).1
    · have hafter := @openBits_react m _ _ .timeout hbits htimer fun hb => by cases hb
      exact ⟨htransmits, h.arrived, h.requested, hafter.1, hafter.2⟩
  | perform draw =>
    obtain ⟨c, rest, -, queue, copy, wire, rfl⟩ := Mysock.perform_frame hstep
    exact ⟨htransmits, h.arrived, h.requested, h.bits, h.timer⟩
  | exit =>
    obtain ⟨-, -, rfl⟩ := Mysock.exit_eq hstep
    exact ⟨htransmits, h.arrived, h.requested, h.bits, h.timer⟩

/-! ## Both ends -/

/-- What holds of the two mysockets and what is between them. -/
structure Joined (b : Side → Nat) (s : Stack) : Prop where
  books : ∀ i, Books (s i)
  carried : ∀ i, Carried (s i) (s i.other)
  connected : Connected b s.endpoints
  noFin : ∀ i, ∀ p ∈ (s.endpoints i).sent, OpenPacket p

/-- An access at one side: its mysocket takes the step, and the other one's wire
may get shorter. -/
theorem Stack.step_cases {s s' : Stack} {i : Side} {act : Act} (h : s.step (i, act) = some s') :
    (s i).step act = some (s' i) ∧
    ∃ wire, s' i.other = { s i.other with wire := wire } ∧ (∀ p ∈ wire, p ∈ (s i.other).wire) ∧
      ∀ d, act = .arrive d → ∃ p ∈ (s i.other).wire, d = some p := by
  have hplain : ∀ {act}, ((s i).step act).map (Function.update s i) = some s' →
      (∀ d, act ≠ .arrive d) → (s i).step act = some (s' i) ∧
      ∃ wire, s' i.other = { s i.other with wire := wire } ∧ (∀ p ∈ wire, p ∈ (s i.other).wire) ∧
        ∀ d, act = .arrive d → ∃ p ∈ (s i.other).wire, d = some p := by
    intro act h hno
    obtain ⟨m, hm, rfl⟩ := Option.map_eq_some_iff.mp h
    refine ⟨by rw [hm, Function.update_self], (s i.other).wire, ?_, fun p hp => hp, ?_⟩
    · rw [Function.update_of_ne (Side.other_ne i)]
    · exact fun d hd => absurd hd (hno d)
  cases act with
  | arrive datagram =>
    simp only [Stack.step] at h
    split at h
    next => cases h
    next p rest hwire =>
      split at h
      next heq =>
        obtain ⟨m, hm, rfl⟩ := Option.map_eq_some_iff.mp h
        refine ⟨?_, rest, Function.update_self .., ?_, ?_⟩
        · rw [hm, Function.update_of_ne (Side.other_ne i).symm, Function.update_self]
        · intro q hq
          rw [hwire]
          exact List.mem_cons_of_mem _ hq
        · intro d hd
          cases hd
          exact ⟨p, by rw [hwire]; exact List.mem_cons_self, heq⟩
      next => cases h
  | write buf => exact hplain h fun d hd => by cases hd
  | read len => exact hplain h fun d hd => by cases hd
  | close => exact hplain h fun d hd => by cases hd
  | wait late => exact hplain h fun d hd => by cases hd
  | expire => exact hplain h fun d hd => by cases hd
  | handle => exact hplain h fun d hd => by cases hd
  | perform draw => exact hplain h fun d hd => by cases hd
  | exit => exact hplain h fun d hd => by cases hd

/-- **One access keeps the connection.** -/
theorem Joined.step {b : Side → Nat} {s s' : Stack} {e : Side × Act} (h : Joined b s)
    (hmay : MayHappen s e) (hstep : s.step e = some s')
    (hwrap : ∀ i, b i + (s' i).written.length < 2 ^ 32) : Joined b s' := by
  obtain ⟨i, act⟩ := e
  have hclose : act ≠ .close := hmay.1.1
  obtain ⟨hown, wire, hother, hwire, harrive⟩ := Stack.step_cases hstep
  have hsentto : ∀ d, act = .arrive d → ∃ p ∈ (s i.other).endpoint.sent, d = some p := by
    intro d hd
    obtain ⟨p, hp, heq⟩ := harrive d hd
    exact ⟨p, (h.carried i.other).wire p hp, heq⟩
  have hbooks : ∀ j, Books (s' j) := by
    intro j
    rcases Side.eq_or_other i j with rfl | rfl
    · exact (h.books j).step hown
    · rw [hother]
      exact ⟨(h.books _).written, (h.books _).passed, (h.books _).made⟩
  have hcarried : ∀ j, Carried (s' j) (s' j.other) := by
    intro j
    rcases Side.eq_or_other i j with rfl | rfl
    · refine ((h.carried j).step (h.books j) hclose hsentto hown).peer ?_
      intro p hp
      rw [hother]
      exact hp
    · rw [Side.other_other, hother]
      have hback := h.carried i.other
      rw [Side.other_other] at hback
      have hpeer := hback.peer fun p hp => Mysock.step_sent hown hp
      exact ⟨⟨fun p hp => hpeer.wire p (hwire p hp), hpeer.copy⟩, hpeer.arrived, hpeer.requested,
        hpeer.bits, hpeer.timer⟩
  have htaken : ∀ j, b j + (s'.endpoints j).taken.length < 2 ^ 32 := by
    intro j
    have hlen := congrArg List.length (hbooks j).written
    rw [List.length_append] at hlen
    have hj := hwrap j
    show b j + (s' j).endpoint.taken.length < 2 ^ 32
    omega
  have hendpoint : s'.endpoints i.other = s.endpoints i.other := by
    show (s' i.other).endpoint = _
    rw [hother]
    rfl
  -- the endpoints take a step of their own, or none
  rcases (h.carried i).refines hclose hown with heq | ⟨ev, heq, hnoclose, hdeliver⟩
  · have hsame : s'.endpoints = s.endpoints := by
      funext j
      rcases Side.eq_or_other i j with rfl | rfl
      · exact heq
      · exact hendpoint
    exact ⟨hbooks, hcarried, by rw [hsame]; exact h.connected, by rw [hsame]; exact h.noFin⟩
  · have hsys : s'.endpoints = s.endpoints.step (i, ev) := by
      funext j
      rcases Side.eq_or_other i j with rfl | rfl
      · rw [System.step_same]
        exact heq
      · rw [System.step_other]
        exact hendpoint
    have hok : Unclosed s.endpoints (i, ev) := by
      refine ⟨hnoclose, ?_⟩
      cases ev with
      | networkData packet => exact (hdeliver packet rfl).1
      | appData queued => exact trivial
      | appCloseRequested => exact trivial
      | timeout => exact trivial
    have hsyn : NothingSince s.endpoints (i, ev) := by
      rintro p rfl hflag -
      obtain ⟨-, hact, hevent, hqueue⟩ := hdeliver (some p) rfl
      exact hmay.2 hact hevent p hqueue hflag
    have hnext := Connected.step_open hok hsyn (by rw [← hsys]; exact htaken)
      ⟨h.connected, h.noFin⟩
    exact ⟨hbooks, hcarried, by rw [hsys]; exact hnext.1, by rw [hsys]; exact hnext.2⟩

theorem Stack.step_written {s s' : Stack} {e : Side × Act} (h : s.step e = some s') (j : Side) :
    (s j).written.length ≤ (s' j).written.length := by
  obtain ⟨i, act⟩ := e
  obtain ⟨hown, wire, hother, -, -⟩ := Stack.step_cases h
  rcases Side.eq_or_other i j with rfl | rfl
  · exact (Mysock.step_written hown).length_le
  · rw [hother]

/-- A mysocket whose endpoint has just entered the loop, with what the layers below
it still hold. -/
def Mysock.entering (ep : Endpoint) (isReliable : Bool) (queue : List (Option Packet))
    (copy : Option Packet) (wire : List Packet) : Mysock :=
  { Mysock.fresh ep isReliable with
    networkRecvQueue := queue, copyBuffer := copy, wire := wire }

/-- Two mysockets whose endpoints have just entered the loop. Of the packets of the
handshake the layers below may hold any, any number of times. -/
structure Entering (sys : System) (s : Stack) : Prop where
  mysock : ∀ i, ∃ isReliable queue copy wire,
    s i = Mysock.entering (sys i) isReliable queue copy wire
  queue : ∀ i, ∀ d ∈ (s i).networkRecvQueue, ∃ p ∈ (sys i.other).sent, d = some p
  copy : ∀ i p, (s i).copyBuffer = some p → p ∈ (sys i).sent
  wire : ∀ i, ∀ p ∈ (s i).wire, p ∈ (sys i).sent

theorem Entering.endpoint {sys : System} {s : Stack} (h : Entering sys s) (i : Side) :
    (s i).endpoint = sys i := by
  obtain ⟨isReliable, queue, copy, wire, heq⟩ := h.mysock i
  rw [heq]
  rfl

theorem Entering.joined {sys : System} {s : Stack} (h : Entering sys s) (hagree : Agreeing sys) :
    Joined (fun i => (sys i).ctx.sendNext.toNat) s := by
  have hsame : s.endpoints = sys := funext h.endpoint
  refine ⟨?_, ?_, by rw [hsame]; exact hagree.connected, ?_⟩
  · intro i
    obtain ⟨isReliable, queue, copy, wire, heq⟩ := h.mysock i
    have hbooks := @Books.fresh (sys i) isReliable (hagree.taken i) (hagree.delivered i)
    rw [heq]
    exact ⟨hbooks.written, hbooks.passed, hbooks.made⟩
  · intro i
    have hlayers : (s i).closeRequested = false ∧ (s i).event = [] := by
      obtain ⟨isReliable, queue, copy, wire, heq⟩ := h.mysock i
      rw [heq]
      exact ⟨rfl, rfl⟩
    refine ⟨⟨?_, ?_⟩, ?_, hlayers.1, by rw [hlayers.2]; exact List.mem_cons_self,
      fun hne => absurd hlayers.2 hne⟩
    · rw [h.endpoint i]
      exact h.wire i
    · rw [h.endpoint i]
      exact h.copy i
    · rw [h.endpoint i.other]
      exact h.queue i
  · rw [hsame]
    exact fun i p hp => (hagree.wire i p hp).open

/-- **Reliable delivery, from application to application.** While neither closes and
no SYN comes late, and whatever else the threads and the network layers do: what
one application has read, and what waits for it to be read, is a prefix of what
the other one has written, and no byte counts as acknowledged that is not there or
about to be. -/
theorem stack_delivery {sys : System} {s₀ s : Stack} {es : List (Side × Act)}
    (hagree : Agreeing sys) (hstart : Entering sys s₀) (hrun : Path Stack.step MayHappen s₀ es s)
    (hwrap : ∀ i, (sys i).ctx.sendNext.toNat + (s i).written.length < 2 ^ 32) (i : Side) :
    (s i.other).read ++ (s i.other).appSendQueue.flatten <+: (s i).written ∧
    ∀ k, (sys i).ctx.sendNext.toNat + k < (s i).endpoint.ctx.sendUnack.toNat →
      k < ((s i.other).read ++ (s i.other).appSendQueue.flatten
        ++ deliveredOf (s i.other).todo).length := by
  have hjoined : (∀ j, (sys j).ctx.sendNext.toNat + (s j).written.length < 2 ^ 32) →
      Joined (fun j => (sys j).ctx.sendNext.toNat) s := by
    refine hrun.invariant (fun s => (∀ j, (sys j).ctx.sendNext.toNat + (s j).written.length < 2 ^ 32) →
      Joined (fun j => (sys j).ctx.sendNext.toNat) s) (fun _ => hstart.joined hagree) ?_
    intro s e s' hmay hstep hinv hsmall
    refine (hinv fun j => ?_).step hmay hstep hsmall
    exact Nat.lt_of_le_of_lt (Nat.add_le_add_left (Stack.step_written hstep j) _) (hsmall j)
  have hall := hjoined hwrap
  have hflow := hall.connected.flow i
  have hpassed := (hall.books i.other).passed
  have hdelivered : (s.endpoints i.other).delivered <+: (s.endpoints i).taken := hflow.recv.pre
  constructor
  · have htaken : (s i).endpoint.taken <+: (s i).written := by
      rw [(hall.books i).written]
      exact List.prefix_append _ _
    refine List.IsPrefix.trans ?_ (hdelivered.trans htaken)
    show _ <+: (s i.other).endpoint.delivered
    rw [hpassed]
    exact List.prefix_append _ _
  · intro k hk
    have hunack := hflow.unack
    rw [hflow.recv.next] at hunack
    have hlen := congrArg List.length hpassed
    have hunack' : (s i).endpoint.ctx.sendUnack.toNat
        ≤ (sys i).ctx.sendNext.toNat + (s i.other).endpoint.delivered.length := hunack
    omega

/-- The network layer of the right side has held back its SYN/ACK. -/
def heldBack : Stack
  | .left => Mysock.entering (greetedPair .left) false [] none []
  | .right => Mysock.entering (greetedPair .right) false []
      (some (makeStcpPacket (TH.syn ||| TH.ack) 101 2 [])) []

theorem heldBack_entering : Entering greetedPair heldBack := by
  refine ⟨?_, ?_, ?_, ?_⟩
  · rintro (_ | _)
    · exact ⟨_, _, _, _, rfl⟩
    · exact ⟨_, _, _, _, rfl⟩
  · rintro (_ | _) d hd
    · cases hd
    · cases hd
  · rintro (_ | _) p hp
    · cases hp
    · cases hp
      exact List.mem_singleton.mpr rfl
  · rintro (_ | _) p hp
    · cases hp
    · cases hp

/-- Left writes five bytes; the segment is sent twice, and arrives twice. Right
acknowledges it, and its SYN/ACK goes out in place of that. Right's application
reads the first two bytes and the rest. -/
def shouting : List (Side × Act) :=
  [ (.left, .write [72, 101]), (.left, .write [108, 108, 111]),
    (.left, .wait false), (.left, .handle), (.left, .perform 0), (.left, .perform 1),
    (.left, .wait false), (.left, .handle), (.left, .perform 0), (.left, .perform 7),
    (.right, .arrive (some (makeStcpPacket TH.ack 2 102 [72, 101]))),
    (.right, .wait false), (.right, .handle), (.right, .perform 3), (.right, .perform 0),
    (.left, .arrive (some (makeStcpPacket (TH.syn ||| TH.ack) 101 2 []))),
    (.left, .wait false), (.left, .handle),
    (.right, .arrive (some (makeStcpPacket TH.ack 2 102 [72, 101]))),
    (.right, .arrive (some (makeStcpPacket TH.ack 4 102 [108, 108, 111]))),
    (.right, .read 1),
    (.right, .wait false), (.right, .handle), (.right, .perform 9),
    (.right, .wait false), (.right, .handle), (.right, .perform 9), (.right, .perform 0),
    (.right, .read 1), (.right, .read 2) ]

theorem stack_delivery_shouting : ∃ s : Stack,
    Path Stack.step MayHappen heldBack shouting s ∧
      (s .right).read = [72, 101, 108, 108] ∧
      (s .right).read ++ (s .right).appSendQueue.flatten <+: (s .left).written := by
  have hfinal : ∃ s, Path (guarded Stack.step MayHappen) (fun _ _ => True) heldBack shouting s ∧
      (decide ((s .right).read = [72, 101, 108, 108]) && decide ((s .left).written.length = 5) &&
        decide ((s .right).written.length = 0)) = true :=
    exists_of_follow (fun _ _ _ => trivial) (by decide +kernel)
  obtain ⟨s, hguarded, hcheck⟩ := hfinal
  have hrun := hguarded.of_guarded
  rw [Bool.and_eq_true, Bool.and_eq_true, decide_eq_true_eq, decide_eq_true_eq,
    decide_eq_true_eq] at hcheck
  obtain ⟨⟨hread, hleft⟩, hright⟩ := hcheck
  have hwrap : ∀ i, (greetedPair i).ctx.sendNext.toNat + (s i).written.length < 2 ^ 32 := by
    intro i
    cases i with
    | left =>
      rw [hleft]
      decide
    | right =>
      rw [hright]
      decide
  exact ⟨s, hrun, hread,
    (stack_delivery greetedPair_agreeing heldBack_entering hrun hwrap .left).1⟩

end UchiNetworks.Stcp
