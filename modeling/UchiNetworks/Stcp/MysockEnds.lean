import UchiNetworks.Stcp.Mysock

/-!
# STCP: the two ends of a stream at a mysocket

Closing and the end of the stream pass the queues like data does, and must not
overtake it. `close_after_data`: when a FIN goes out, the transport thread has
taken every byte the application has written and handed it to the network, and
there will be no more.
`eof_after_data`: when `myread` reports the end, the application has read every
byte that was passed up before the peer's FIN, or all there was if the transport
thread has returned without one.

A FIN can only come from a close request (or be sent again), and
`stcp_wait_for_event` holds that request back until `app_recv_queue` is empty
(`Closing`). The mark of the end is a buffer without bytes in `app_send_queue`,
behind the data (`Ending`).
-/

namespace UchiNetworks.Stcp

open UchiNetworks.Lib

/-! ## Closing -/

/-- Is a FIN sent here? -/
def Call.isFin : Call → Bool
  | .networkSend p => p.header.has TH.fin
  | _ => false

/-- The application is in `myclose`, and nothing it has written waits. -/
structure Drained (m : Mysock) : Prop where
  closing : m.closing = true
  empty : m.appRecvQueue = []

/-- What is taken from the application is handed to the network: some of the
packets sent, in their order, carry just the bytes taken. -/
def HandedOver (calls : List Call) : Prop :=
  ∃ segs : List Packet, segs.Sublist (sentOf calls) ∧ segs.flatMap Packet.data = takenOf calls

/-- The calls before the first FIN took all that has been written and handed it over. -/
structure AllHanded (m : Mysock) : Prop where
  taken : takenOf (m.endpoint.calls.takeWhile (!·.isFin)) = m.written
  sent : HandedOver (m.endpoint.calls.takeWhile (!·.isFin))

/-- Where a close request and a FIN may be. -/
structure Closing (m : Mysock) : Prop where
  requested : m.closeRequested = true → m.closing = true
  bit : .appCloseRequested ∈ m.event → Drained m
  handed : HandedOver m.endpoint.calls
  sent : m.endpoint.calls.any Call.isFin = true → Drained m ∧ AllHanded m
  listed : ∀ q ∈ m.endpoint.ctx.unackdPackets, q.packet.header.has TH.fin = true →
    m.endpoint.calls.any Call.isFin = true

theorem handedOver_of_none {calls : List Call} (h : takenOf calls = []) : HandedOver calls :=
  ⟨[], List.nil_sublist _, h.symm⟩

theorem HandedOver.append {old new : List Call} (h : HandedOver old) (h' : HandedOver new) :
    HandedOver (old ++ new) := by
  obtain ⟨segs, hsub, hdata⟩ := h
  obtain ⟨segs', hsub', hdata'⟩ := h'
  refine ⟨segs ++ segs', ?_, ?_⟩
  · rw [sentOf_append]
    exact hsub.append hsub'
  · rw [List.flatMap_append, takenOf_append, hdata, hdata']

/-- A handler sends at once what it has taken. -/
theorem handedOver_handleEvent (ctx : Context) (ev : Event) :
    HandedOver (handleEvent ctx ev).2.2 := by
  by_cases hev : ∃ bs, ev = .appData bs
  · obtain ⟨queued, rfl⟩ := hev
    rcases handleAppData_cases ctx queued with heq | ⟨buffer, -, -, -, heq⟩
    · simp only [handleEvent, heq]
      exact handedOver_of_none rfl
    · simp only [handleEvent, heq]
      refine ⟨[makeStcpPacket TH.ack ctx.sendNext ctx.recvNext buffer], List.Sublist.refl _, ?_⟩
      simp [takenOf]
  · exact handedOver_of_none (takenOf_handleEvent fun bs hbs => hev ⟨bs, hbs⟩)

theorem any_isFin {calls : List Call} :
    calls.any Call.isFin = true ↔ ∃ p ∈ sentOf calls, p.header.has TH.fin = true := by
  rw [List.any_eq_true]
  constructor
  · intro h
    obtain ⟨c, hc, hfin⟩ := h
    cases c with
    | networkSend p => exact ⟨p, List.mem_filterMap.mpr ⟨_, hc, rfl⟩, hfin⟩
    | appRecv bs => cases hfin
    | appSend bs => cases hfin
    | finReceived => cases hfin
  · intro h
    obtain ⟨p, hp, hfin⟩ := h
    obtain ⟨c, hc, hcp⟩ := List.mem_filterMap.mp hp
    cases c with
    | networkSend q =>
      rw [Option.some.inj hcp] at hc
      exact ⟨_, hc, hfin⟩
    | appRecv bs => cases hcp
    | appSend bs => cases hcp
    | finReceived => cases hcp

/-- A FIN is sent by the handler of a close request, or sent again. -/
theorem isFin_handleEvent {ctx : Context} {ev : Event}
    (h : (handleEvent ctx ev).2.2.any Call.isFin = true) :
    ev = .appCloseRequested ∨ ∃ q ∈ ctx.unackdPackets, q.packet.header.has TH.fin = true := by
  obtain ⟨p, hp, hfin⟩ := any_isFin.mp h
  cases ev with
  | appData queued =>
    simp only [handleEvent] at hp
    rcases handleAppData_cases ctx queued with heq | ⟨buffer, -, -, -, heq⟩
    · rw [heq] at hp
      cases hp
    · rw [heq] at hp
      rw [List.mem_singleton.mp hp, has_fin_of_ack rfl] at hfin
      cases hfin
  | networkData packet =>
    obtain ⟨s, a, rfl⟩ := mem_handleEvent hp
    rw [has_fin_of_ack rfl] at hfin
    cases hfin
  | appCloseRequested => exact Or.inl rfl
  | timeout =>
    obtain ⟨q, hq, hsame, -⟩ := resent_fin hp
    exact Or.inr ⟨q, hq, hsame ▸ hfin⟩

/-- A FIN that is listed after an event was listed before, or is sent with it. -/
theorem listedFin_handleEvent {ctx : Context} {ev : Event} {q : PacketT}
    (hq : q ∈ (handleEvent ctx ev).1.unackdPackets) (hfin : q.packet.header.has TH.fin = true) :
    (∃ q' ∈ ctx.unackdPackets, q'.packet.header.has TH.fin = true) ∨
      (handleEvent ctx ev).2.2.any Call.isFin = true := by
  cases ev with
  | appData queued =>
    simp only [handleEvent] at hq
    rcases handleAppData_cases ctx queued with heq | ⟨buffer, -, -, -, heq⟩
    · rw [heq] at hq
      exact Or.inl ⟨q, hq, hfin⟩
    · rw [heq] at hq
      rcases List.mem_append.mp hq with hold | hnew
      · exact Or.inl ⟨q, hold, hfin⟩
      · rw [List.mem_singleton.mp hnew, has_fin_of_ack rfl] at hfin
        cases hfin
  | networkData packet => exact Or.inl ⟨q, handleEvent_listed hq, hfin⟩
  | appCloseRequested =>
    simp only [handleEvent, handleClose] at hq ⊢
    split at hq
    next =>
      rcases List.mem_append.mp hq with hold | hnew
      · exact Or.inl ⟨q, hold, hfin⟩
      · right
        rw [List.mem_singleton.mp hnew] at hfin
        simp [Call.isFin, hfin]
    next =>
      rcases List.mem_append.mp hq with hold | hnew
      · exact Or.inl ⟨q, hold, hfin⟩
      · right
        rw [List.mem_singleton.mp hnew] at hfin
        simp [Call.isFin, hfin]
    next => exact Or.inl ⟨q, hq, hfin⟩
  | timeout =>
    obtain ⟨q', hq', rfl⟩ := List.mem_map.mp hq
    exact Or.inl ⟨q', hq', hfin⟩

theorem takeWhile_stopped {α : Type} {p : α → Bool} {xs : List α} (ys : List α)
    (h : ∃ x ∈ xs, p x = false) : (xs ++ ys).takeWhile p = xs.takeWhile p := by
  induction xs with
  | nil =>
    obtain ⟨x, hx, -⟩ := h
    cases hx
  | cons x xs ih =>
    rw [List.cons_append, List.takeWhile_cons, List.takeWhile_cons]
    split
    next hp =>
      obtain ⟨y, hy, hpy⟩ := h
      rcases List.mem_cons.mp hy with heq | hmem
      · rw [heq, hp] at hpy
        cases hpy
      · rw [ih ⟨y, hmem, hpy⟩]
    next => rfl

theorem Drained.of_eq {m m' : Mysock} (h : Drained m) (hclosing : m'.closing = m.closing)
    (hqueue : m'.appRecvQueue = m.appRecvQueue) : Drained m' :=
  ⟨hclosing.trans h.closing, hqueue.trans h.empty⟩

/-- What does not touch the endpoint or what the application writes. -/
theorem Closing.of_eq {m m' : Mysock} (h : Closing m) (hendpoint : m'.endpoint.calls = m.endpoint.calls)
    (hctx : m'.endpoint.ctx = m.endpoint.ctx) (hclosing : m'.closing = m.closing)
    (hqueue : m'.appRecvQueue = m.appRecvQueue) (hwritten : m'.written = m.written)
    (hrequested : m'.closeRequested = true → m'.closing = true)
    (hbit : .appCloseRequested ∈ m'.event → Drained m) : Closing m' := by
  refine ⟨hrequested, fun hev => (hbit hev).of_eq hclosing hqueue, ?_, ?_, ?_⟩
  · rw [hendpoint]
    exact h.handed
  · rw [hendpoint]
    intro hfin
    obtain ⟨hdrained, hall⟩ := h.sent hfin
    refine ⟨hdrained.of_eq hclosing hqueue, ?_, ?_⟩
    · rw [hendpoint, hwritten]
      exact hall.taken
    · rw [hendpoint]
      exact hall.sent
  · rw [hendpoint, hctx]
    exact h.listed

/-- A handler of something else than a close request, or of one that is due. -/
theorem Closing.react {m : Mysock} {rest : List Bit} {ev : Event} (h : Closing m)
    (hrest : .appCloseRequested ∈ rest → Drained m)
    (hclose : ev = .appCloseRequested → Drained m ∧ m.written = m.endpoint.taken) :
    Closing (m.react rest ev) := by
  have hcalls : (m.react rest ev).endpoint.calls
    = m.endpoint.calls ++ (handleEvent m.endpoint.ctx ev).2.2 := rfl
  refine ⟨h.requested, ?_, h.handed.append (handedOver_handleEvent _ _), ?_, ?_⟩
  · intro hev
    have hmem : Bit.appCloseRequested ∈ rest := by
      unfold Mysock.react at hev
      split at hev
      next => exact hev
      next => cases hev
    exact (hrest hmem).of_eq rfl rfl
  · rw [hcalls]
    intro hfin
    by_cases hold : m.endpoint.calls.any Call.isFin = true
    · obtain ⟨hdrained, hall⟩ := h.sent hold
      obtain ⟨c, hc, hfin⟩ := List.any_eq_true.mp hold
      have hsame : (m.react rest ev).endpoint.calls.takeWhile (!·.isFin)
          = m.endpoint.calls.takeWhile (!·.isFin) := by
        rw [hcalls, takeWhile_stopped _ ⟨c, hc, by rw [hfin]; rfl⟩]
      exact ⟨hdrained.of_eq rfl rfl, hsame ▸ hall.taken, hsame ▸ hall.sent⟩
    · -- the first FIN: the request has been held back until nothing was queued
      have hnone : ¬∃ q ∈ m.endpoint.ctx.unackdPackets, q.packet.header.has TH.fin = true := by
        intro hlisted
        obtain ⟨q, hq, hqfin⟩ := hlisted
        exact hold (h.listed q hq hqfin)
      rw [List.any_append, Bool.or_eq_true] at hfin
      have hev := (isFin_handleEvent (hfin.resolve_left hold)).resolve_right hnone
      obtain ⟨hdrained, hwritten⟩ := hclose hev
      have hpos : ∀ c ∈ m.endpoint.calls, (!c.isFin) = true := by
        intro c hc
        cases hc' : c.isFin with
        | false => rfl
        | true => exact absurd (List.any_eq_true.mpr ⟨c, hc, hc'⟩) hold
      have hnew : takenOf (((handleEvent m.endpoint.ctx ev).2.2).takeWhile (!·.isFin)) = [] := by
        have hsub := List.takeWhile_prefix (fun c : Call => !c.isFin)
          (l := (handleEvent m.endpoint.ctx ev).2.2)
        obtain ⟨later, hlater⟩ := hsub
        have hall : takenOf (handleEvent m.endpoint.ctx ev).2.2 = [] :=
          takenOf_handleEvent fun bs hbs => by rw [hev] at hbs; cases hbs
        rw [← hlater, takenOf_append] at hall
        exact (List.append_eq_nil_iff.mp hall).1
      have hfront : (m.react rest ev).endpoint.calls.takeWhile (!·.isFin)
          = m.endpoint.calls ++ ((handleEvent m.endpoint.ctx ev).2.2).takeWhile (!·.isFin) := by
        rw [hcalls, List.takeWhile_append_of_pos hpos]
      refine ⟨hdrained.of_eq rfl rfl, ?_, ?_⟩
      · rw [hfront, takenOf_append, hnew, List.append_nil]
        exact hwritten.symm
      · rw [hfront]
        exact h.handed.append (handedOver_of_none hnew)
  · intro q hq hqfin
    rw [hcalls, List.any_append, Bool.or_eq_true]
    rcases listedFin_handleEvent hq hqfin with ⟨q', hq', hfin⟩ | hnew
    · exact Or.inl (h.listed q' hq' hfin)
    · exact Or.inr hnew

theorem Closing.handle {m m' : Mysock} (h : Closing m) (hb : Books m)
    (hstep : m.handle = some m') : Closing m' := by
  obtain ⟨-, b, rest, hevent, hcase⟩ := Mysock.handle_cases hstep
  have hrest : .appCloseRequested ∈ rest → Drained m := by
    intro hmem
    exact h.bit (by rw [hevent]; exact List.mem_cons_of_mem _ hmem)
  rcases hcase with ⟨-, -, rfl⟩ | ⟨n, r, -, -, hr, rfl⟩ | ⟨d, queue, -, -, rfl⟩ | ⟨hb', rfl⟩ |
    ⟨-, rfl⟩
  · exact h.of_eq rfl rfl rfl rfl rfl h.requested hrest
  · -- there was something to take, so nothing is due yet
    have hfull : ¬Drained m := by
      intro hdrained
      rw [hdrained.empty] at hr
      cases hr
    have hkept : Closing { m with appRecvQueue := r.2 } :=
      ⟨h.requested, fun hev => absurd (h.bit hev) hfull, h.handed,
        fun hfin => absurd (h.sent hfin).1 hfull, h.listed⟩
    exact hkept.react (fun hmem => absurd (hrest hmem) hfull) fun hev => by cases hev
  · have hkept : Closing { m with networkRecvQueue := queue } :=
      h.of_eq rfl rfl rfl rfl rfl h.requested h.bit
    exact hkept.react (fun hmem => (hrest hmem).of_eq rfl rfl) fun hev => by cases hev
  · have hdrained := h.bit (by rw [hevent, hb']; exact List.mem_cons_self)
    refine h.react hrest fun _ => ⟨hdrained, ?_⟩
    have hwritten := hb.written
    rwa [hdrained.empty, List.flatten_nil, List.append_nil] at hwritten
  · exact h.react hrest fun hev => by cases hev

theorem Closing.perform {m m' : Mysock} {draw : BitVec 5} (h : Closing m)
    (hstep : m.perform draw = some m') : Closing m' := by
  unfold Mysock.perform at hstep
  split at hstep
  next => cases hstep
  next p rest htodo =>
    obtain ⟨copy, wire, heq, -, -⟩ := Mysock.networkSend_frame { m with todo := rest } draw p
    rw [heq] at hstep
    rw [← Option.some.inj hstep]
    exact h.of_eq rfl rfl rfl rfl rfl h.requested h.bit
  next bs rest htodo =>
    rw [← Option.some.inj hstep]
    unfold Mysock.appSend
    split
    next => exact h.of_eq rfl rfl rfl rfl rfl h.requested h.bit
    next => exact h.of_eq rfl rfl rfl rfl rfl h.requested h.bit
  next rest htodo =>
    rw [← Option.some.inj hstep]
    exact h.of_eq rfl rfl rfl rfl rfl h.requested h.bit
  next bs rest htodo =>
    rw [← Option.some.inj hstep]
    exact h.of_eq rfl rfl rfl rfl rfl h.requested h.bit

/-- A request is told about when nothing waits any more. -/
theorem mem_ready {m : Mysock} {late : Bool} (h : .appCloseRequested ∈ m.ready late) :
    m.closeRequested = true ∧ m.appRecvQueue = [] := by
  unfold Mysock.ready at h
  rcases List.mem_append.mp h with hdata | hclose
  · rcases List.mem_append.mp hdata with happ | hnet
    · split at happ
      next => cases List.mem_singleton.mp happ
      next => cases happ
    · split at hnet
      next => cases List.mem_singleton.mp hnet
      next => cases hnet
  · split at hclose
    next hif =>
      rw [Bool.and_eq_true, List.isEmpty_iff] at hif
      exact hif
    next => cases hclose

/-- **Every access keeps a close behind the data.** -/
theorem Closing.step {m m' : Mysock} {act : Act} (h : Closing m) (hb : Books m)
    (hstep : m.step act = some m') : Closing m' := by
  cases act with
  | write buf =>
    simp only [Mysock.step] at hstep
    split at hstep
    next => cases hstep
    next hopen =>
      have hnot : ¬Drained m := fun hdrained => hopen hdrained.closing
      rw [← Option.some.inj hstep]
      exact ⟨h.requested, fun hev => absurd (h.bit hev) hnot, h.handed,
        fun hfin => absurd (h.sent hfin).1 hnot, h.listed⟩
  | read len =>
    simp only [Mysock.step] at hstep
    split at hstep
    next => cases hstep
    next =>
      rcases Mysock.myread_cases hstep with ⟨-, rfl⟩ | ⟨-, r, -, rfl⟩
      · exact h
      · exact h.of_eq rfl rfl rfl rfl rfl h.requested h.bit
  | close =>
    simp only [Mysock.step] at hstep
    split at hstep
    next => cases hstep
    next hopen =>
      have hnot : ¬Drained m := fun hdrained => hopen hdrained.closing
      rw [← Option.some.inj hstep]
      exact ⟨fun _ => rfl, fun hev => absurd (h.bit hev) hnot, h.handed,
        fun hfin => absurd (h.sent hfin).1 hnot, h.listed⟩
  | arrive datagram =>
    rw [← Option.some.inj hstep]
    exact h.of_eq rfl rfl rfl rfl rfl h.requested h.bit
  | wait late =>
    obtain ⟨-, ⟨-, rfl⟩ | ⟨-, rfl⟩⟩ := Mysock.waitForEvent_cases hstep
    · exact h.of_eq rfl rfl rfl rfl rfl h.requested h.bit
    · refine h.of_eq rfl rfl rfl rfl rfl ?_ ?_
      · intro hrequested
        rw [Bool.and_eq_true] at hrequested
        exact h.requested hrequested.1
      · intro hev
        obtain ⟨hrequested, hempty⟩ := mem_ready hev
        exact ⟨h.requested hrequested, hempty⟩
  | expire =>
    obtain ⟨-, -, rfl⟩ := Mysock.expire_eq hstep
    exact h.of_eq rfl rfl rfl rfl rfl h.requested fun hev => by cases List.mem_singleton.mp hev
  | handle => exact h.handle hb hstep
  | perform draw => exact h.perform hstep
  | exit =>
    obtain ⟨-, -, rfl⟩ := Mysock.exit_eq hstep
    exact h.of_eq rfl rfl rfl rfl rfl h.requested h.bit

/-- **Close waits for the data.** Whatever the threads and the network do, and if
the application never writes 0 bytes (the handler would free a pointer that may
never have been set): when a FIN has been sent, every byte the application has
written was taken, and handed to the network in a packet, before it. -/
theorem close_after_data {ep : Endpoint} {isReliable : Bool} {acts : List Act} {m : Mysock}
    {p : Packet} (hnofin : NoFin ep) (htaken : ep.taken = []) (hdelivered : ep.delivered = [])
    (hrun : Path Mysock.step (fun _ act => act ≠ .write []) (Mysock.fresh ep isReliable) acts m)
    (hp : p ∈ m.endpoint.sent) (hfin : p.header.has TH.fin = true) :
    takenOf (m.endpoint.calls.takeWhile (!·.isFin)) = m.written ∧
    HandedOver (m.endpoint.calls.takeWhile (!·.isFin)) ∧ m.closing = true := by
  have hclosing : Closing (Mysock.fresh ep isReliable) := by
    refine ⟨fun h => (by cases h), fun h => (by cases h), handedOver_of_none htaken, ?_, ?_⟩
    · intro hany
      obtain ⟨q, hq, hqfin⟩ := any_isFin.mp hany
      exact absurd ((hnofin.sent q hq).symm.trans hqfin) Bool.false_ne_true
    · intro q hq hqfin
      exact absurd ((hnofin.listed q hq).symm.trans hqfin) Bool.false_ne_true
  have hinv : Books m ∧ Closing m :=
    hrun.invariant (fun m => Books m ∧ Closing m) ⟨Books.fresh htaken hdelivered, hclosing⟩
      fun _ _ _ _ hstep h => ⟨h.1.step hstep, h.2.step h.1 hstep⟩
  obtain ⟨hdrained, hall⟩ := hinv.2.sent (any_isFin.mpr ⟨p, hp, hfin⟩)
  exact ⟨hall.taken, hall.sent, hdrained.closing⟩

/-- A mysocket that is closed with data still to take. -/
def leaving : List Act :=
  [ .write [98, 121], .write [101], .close, .wait false, .handle, .perform 7, .perform 7,
    .wait false, .handle, .perform 7, .perform 7, .wait false, .handle, .perform 7 ]

theorem close_after_data_leaving : ∃ m : Mysock,
    Path Mysock.step (fun _ act => act ≠ .write []) (Mysock.fresh (greeted 2 1001) true) leaving m ∧
      (takenOf (m.endpoint.calls.takeWhile (!·.isFin)) = m.written ∧
        HandedOver (m.endpoint.calls.takeWhile (!·.isFin)) ∧ m.closing = true) := by
  have hok : ∀ act ∈ leaving, ∀ m : Mysock, act ≠ .write [] := by
    have hall : ∀ act ∈ leaving, act ≠ .write [] := by decide
    exact fun act hact _ => hall act hact
  have hfinal : ∃ m, Path Mysock.step (fun _ act => act ≠ .write [])
      (Mysock.fresh (greeted 2 1001) true) leaving m ∧
        decide (makeStcpPacket TH.fin 5 1001 [] ∈ m.endpoint.sent) = true :=
    exists_of_follow hok (by decide +kernel)
  obtain ⟨m, hrun, hcheck⟩ := hfinal
  have hnofin : NoFin (greeted 2 1001) := ⟨fun p hp => (by cases hp), fun q hq => by cases hq⟩
  exact ⟨m, hrun, close_after_data hnofin rfl rfl hrun (of_decide_eq_true hcheck) rfl⟩

/-! ## The end of the stream -/

/-- Has the handler not told of the peer's FIN? -/
def Call.goesOn : Call → Bool
  | .finReceived => false
  | _ => true

/-- The bytes passed up before the peer's FIN. -/
def beforeEnd (calls : List Call) : List UInt8 := deliveredOf (calls.takeWhile Call.goesOn)

/-- What reading `queue` on and on gives, with `later` to be queued behind it: an
empty buffer is the end. -/
def heard : List (List UInt8) → List UInt8 → List UInt8
  | [], later => later
  | node :: rest, later => if node.isEmpty then [] else node ++ heard rest later

/-- Where the mark of the end is. -/
structure Ending (m : Mysock) : Prop where
  mark : m.eof = true ∨ [] ∈ m.appSendQueue →
    .finReceived ∈ m.endpoint.calls ∨ m.ended = true
  told : .finReceived ∈ m.endpoint.calls → m.eof = true ∨ [] ∈ m.appSendQueue ∨
    .finReceived ∈ m.todo
  ended : m.ended = true → m.todo = [] ∧ m.endpoint.status ≠ .running
  busy : m.event ≠ [] → m.endpoint.status = .running
  before : beforeEnd m.endpoint.calls
    = if m.eof then m.read else m.read ++ heard m.appSendQueue (beforeEnd m.todo)

theorem heard_flatten {queue : List (List UInt8)} (later : List UInt8) (h : [] ∉ queue) :
    heard queue later = queue.flatten ++ later := by
  induction queue with
  | nil => rfl
  | cons node rest ih =>
    rw [List.mem_cons, not_or] at h
    have hnode : node.isEmpty = false := by
      cases node with
      | nil => exact absurd rfl h.1
      | cons b bs => rfl
    rw [heard, hnode, if_neg Bool.false_ne_true, ih h.2, List.flatten_cons, List.append_assoc]

/-- Behind the mark nothing is heard. -/
theorem heard_marked {queue : List (List UInt8)} (more : List (List UInt8)) (later later' : List UInt8)
    (h : [] ∈ queue) : heard (queue ++ more) later' = heard queue later := by
  induction queue with
  | nil => cases h
  | cons node rest ih =>
    rw [List.cons_append, heard, heard]
    split
    next => rfl
    next hnode =>
      rcases List.mem_cons.mp h with heq | hmem
      · rw [← heq] at hnode
        exact absurd rfl hnode
      · rw [ih hmem]

/-- A buffer is queued that was to come. -/
theorem heard_snoc (queue : List (List UInt8)) {node : List UInt8} (later : List UInt8)
    (hnode : node.isEmpty = false) : heard (queue ++ [node]) later = heard queue (node ++ later) := by
  induction queue with
  | nil => simp only [List.nil_append, heard, hnode, if_neg Bool.false_ne_true]
  | cons first rest ih => rw [List.cons_append, heard, heard, ih]

theorem heard_end (queue : List (List UInt8)) (later : List UInt8) :
    heard (queue ++ [[]]) later = heard queue [] := by
  induction queue with
  | nil => rfl
  | cons first rest ih => rw [List.cons_append, heard, heard, ih]

theorem beforeEnd_told {calls : List Call} (new : List Call) (h : .finReceived ∈ calls) :
    beforeEnd (calls ++ new) = beforeEnd calls := by
  unfold beforeEnd
  rw [takeWhile_stopped new ⟨_, h, rfl⟩]

theorem beforeEnd_open {calls : List Call} (new : List Call) (h : .finReceived ∉ calls) :
    beforeEnd (calls ++ new) = deliveredOf calls ++ beforeEnd new := by
  have hpos : ∀ c ∈ calls, c.goesOn = true := by
    intro c hc
    cases c with
    | finReceived => exact absurd hc h
    | networkSend p => rfl
    | appRecv bs => rfl
    | appSend bs => rfl
  unfold beforeEnd
  rw [List.takeWhile_append_of_pos hpos, deliveredOf_append]

/-- What neither runs a handler nor touches what the application reads. -/
theorem Ending.of_eq {m m' : Mysock} (h : Ending m) (hcalls : m'.endpoint.calls = m.endpoint.calls)
    (hstatus : m'.endpoint.status = m.endpoint.status)
    (hevent : m'.event ≠ [] → m.endpoint.status = .running)
    (htodo : m'.todo = m.todo) (hqueue : m'.appSendQueue = m.appSendQueue)
    (heof : m'.eof = m.eof) (hended : m'.ended = m.ended) (hread : m'.read = m.read) :
    Ending m' := by
  refine ⟨?_, ?_, ?_, ?_, ?_⟩
  · rw [hcalls, heof, hqueue, hended]
    exact h.mark
  · rw [hcalls, heof, hqueue, htodo]
    exact h.told
  · rw [hended, htodo, hstatus]
    exact h.ended
  · rw [hstatus]
    exact hevent
  · rw [hcalls, heof, hqueue, htodo, hread]
    exact h.before

/-- A handler passes up nothing that would be heard behind the mark. -/
theorem Ending.react {m : Mysock} {rest : List Bit} {ev : Event} (h : Ending m)
    (hpassed : m.endpoint.delivered = m.read ++ m.appSendQueue.flatten ++ deliveredOf m.todo)
    (htodo : m.todo = []) (hrunning : m.endpoint.status = .running) : Ending (m.react rest ev) := by
  have hcalls : (m.react rest ev).endpoint.calls
    = m.endpoint.calls ++ (handleEvent m.endpoint.ctx ev).2.2 := rfl
  have hbusy : (m.react rest ev).event ≠ [] → (m.react rest ev).endpoint.status = .running := by
    intro hevent
    unfold Mysock.react at hevent ⊢
    by_cases hgo : (handleEvent m.endpoint.ctx ev).2.1 = .running
    · exact hgo
    · simp only [if_neg hgo] at hevent
      exact absurd rfl hevent
  have hgoes : m.ended = false := by
    cases hended : m.ended with
    | false => rfl
    | true => exact absurd hrunning (h.ended hended).2
  by_cases htold : .finReceived ∈ m.endpoint.calls
  · -- the end has been marked: with nothing to do, the mark is where it is read
    have hmarked : m.eof = true ∨ [] ∈ m.appSendQueue := by
      rcases h.told htold with heof | hqueue | htodo'
      · exact Or.inl heof
      · exact Or.inr hqueue
      · rw [htodo] at htodo'
        cases htodo'
    refine ⟨?_, fun _ => ?_, ?_, hbusy, ?_⟩
    · intro _
      rw [hcalls]
      exact Or.inl (List.mem_append_left _ htold)
    · rcases hmarked with heof | hqueue
      · exact Or.inl heof
      · exact Or.inr (Or.inl hqueue)
    · intro hended
      exact absurd (hgoes.symm.trans hended) Bool.false_ne_true
    · rw [hcalls, beforeEnd_told _ htold, h.before]
      show (if m.eof then m.read else _) = if m.eof then m.read else _
      cases heof : m.eof with
      | true => rfl
      | false =>
        rw [heof] at hmarked
        have hqueue := hmarked.resolve_left Bool.false_ne_true
        rw [if_neg Bool.false_ne_true, if_neg Bool.false_ne_true]
        have hsame := heard_marked [] (beforeEnd m.todo)
          (beforeEnd (handleEvent m.endpoint.ctx ev).2.2) hqueue
        rw [List.append_nil] at hsame
        exact congrArg (m.read ++ ·) hsame.symm
  · have hopen : ¬(m.eof = true ∨ [] ∈ m.appSendQueue) := by
      intro hmarked
      rcases h.mark hmarked with htold' | hended
      · exact htold htold'
      · rw [hgoes] at hended
        cases hended
    rw [not_or, Bool.not_eq_true] at hopen
    refine ⟨?_, ?_, ?_, hbusy, ?_⟩
    · intro hmarked
      rcases hmarked with heof | hqueue
      · exact absurd (hopen.1.symm.trans heof) Bool.false_ne_true
      · exact absurd hqueue hopen.2
    · rw [hcalls]
      intro hmem
      exact Or.inr (Or.inr ((List.mem_append.mp hmem).resolve_left htold))
    · intro hended
      exact absurd (hgoes.symm.trans hended) Bool.false_ne_true
    · rw [htodo] at hpassed
      rw [hcalls, beforeEnd_open _ htold]
      show _ = if m.eof then m.read else
        m.read ++ heard m.appSendQueue (beforeEnd (handleEvent m.endpoint.ctx ev).2.2)
      rw [hopen.1, if_neg Bool.false_ne_true, heard_flatten _ hopen.2, ← List.append_assoc]
      exact congrArg (· ++ _) (hpassed.trans (List.append_nil _))

theorem Ending.handle {m m' : Mysock} (h : Ending m) (hb : Books m)
    (hstep : m.handle = some m') : Ending m' := by
  obtain ⟨htodo, b, rest, hevent, hcase⟩ := Mysock.handle_cases hstep
  have hrunning : m.endpoint.status = .running := h.busy (by rw [hevent]; exact List.cons_ne_nil _ _)
  rcases hcase with ⟨-, -, rfl⟩ | ⟨n, r, -, -, -, rfl⟩ | ⟨d, queue, -, -, rfl⟩ | ⟨-, rfl⟩ | ⟨-, rfl⟩
  · exact h.of_eq rfl rfl (fun _ => hrunning) rfl rfl rfl rfl rfl
  · have hkept : Ending { m with appRecvQueue := r.2 } :=
      h.of_eq rfl rfl (fun _ => hrunning) rfl rfl rfl rfl rfl
    exact hkept.react hb.passed htodo hrunning
  · have hkept : Ending { m with networkRecvQueue := queue } :=
      h.of_eq rfl rfl (fun _ => hrunning) rfl rfl rfl rfl rfl
    exact hkept.react hb.passed htodo hrunning
  · exact h.react hb.passed htodo hrunning
  · exact h.react hb.passed htodo hrunning

/-- A read before the end: what is heard moves on with what is read. -/
theorem heard_dequeue {len : Nat} {queue : List (List UInt8)} {r : List UInt8 × List (List UInt8)}
    (later : List UInt8) (hlen : len ≠ 0) (hr : dequeueBuffer len queue = some r) :
    r.1.isEmpty = true ∧ [] ∈ queue ∧ heard queue later = [] ∨
      r.1.isEmpty = false ∧ ([] ∈ r.2 ↔ [] ∈ queue) ∧ heard queue later = r.1 ++ heard r.2 later := by
  cases queue with
  | nil => cases hr
  | cons node rest =>
    simp only [dequeueBuffer] at hr
    split at hr
    next hlong =>
      -- a part of the buffer: neither what is taken nor what is left is empty
      rw [← Option.some.inj hr]
      have hnode : node.isEmpty = false := by
        rw [List.isEmpty_eq_false_iff_exists_mem]
        exact List.exists_mem_of_length_pos (by omega)
      have htake : (node.take len).isEmpty = false := by
        rw [List.isEmpty_eq_false_iff_exists_mem]
        exact List.exists_mem_of_length_pos (by rw [List.length_take]; omega)
      have hdrop : (node.drop len).isEmpty = false := by
        rw [List.isEmpty_eq_false_iff_exists_mem]
        exact List.exists_mem_of_length_pos (by rw [List.length_drop]; omega)
      refine Or.inr ⟨htake, ?_, ?_⟩
      · have hne : [] ≠ node := fun h => by rw [← h] at hnode; cases hnode
        have hne' : [] ≠ node.drop len := fun h => by rw [← h] at hdrop; cases hdrop
        rw [List.mem_cons, List.mem_cons]
        exact ⟨fun h => Or.inr (h.resolve_left hne'), fun h => Or.inr (h.resolve_left hne)⟩
      · rw [heard, heard, hnode, hdrop, if_neg Bool.false_ne_true, if_neg Bool.false_ne_true,
          ← List.append_assoc, List.take_append_drop]
    next =>
      rw [← Option.some.inj hr]
      cases node with
      | nil => exact Or.inl ⟨rfl, List.mem_cons_self, rfl⟩
      | cons b bs =>
        refine Or.inr ⟨rfl, ?_, rfl⟩
        rw [List.mem_cons]
        exact ⟨Or.inr, fun h => h.resolve_left (List.cons_ne_nil b bs).symm⟩

theorem Ending.read {m m' : Mysock} {len : Nat} (h : Ending m) (hlen : len ≠ 0)
    (hstep : m.myread len = some m') : Ending m' := by
  rcases Mysock.myread_cases hstep with ⟨-, rfl⟩ | ⟨heof, r, hr, rfl⟩
  · exact h
  · have hbefore := h.before
    rw [heof, if_neg Bool.false_ne_true] at hbefore
    rcases heard_dequeue (beforeEnd m.todo) hlen hr with ⟨hend, hmem, hheard⟩ | ⟨hsome, hmem, hheard⟩
    · have hnil : r.1 = [] := List.isEmpty_iff.mp hend
      refine ⟨fun _ => h.mark (Or.inr hmem), fun _ => Or.inl hend, h.ended, h.busy, ?_⟩
      show beforeEnd m.endpoint.calls = if r.1.isEmpty then m.read ++ r.1 else _
      rw [hend, if_pos rfl, hbefore, hheard, hnil]
    · refine ⟨?_, ?_, h.ended, h.busy, ?_⟩
      · intro hmark
        rcases hmark with heof' | hqueue
        · exact absurd (hsome.symm.trans heof') Bool.false_ne_true
        · exact h.mark (Or.inr (hmem.mp hqueue))
      · intro htold
        rcases h.told htold with heof' | hqueue | htodo
        · exact absurd (heof.symm.trans heof') Bool.false_ne_true
        · exact Or.inr (Or.inl (hmem.mpr hqueue))
        · exact Or.inr (Or.inr htodo)
      · show beforeEnd m.endpoint.calls = if r.1.isEmpty then _ else
          m.read ++ r.1 ++ heard r.2 (beforeEnd m.todo)
        rw [hsome, if_neg Bool.false_ne_true, hbefore, hheard, List.append_assoc]

/-- The thread makes a call that passes nothing up. -/
theorem Ending.called {m m' : Mysock} {c : Call} {rest : List Call} (h : Ending m)
    (htodo : m.todo = c :: rest) (hc : c.goesOn = true) (hnone : deliveredOf [c] = [])
    (hcalls : m'.endpoint = m.endpoint) (hevent : m'.event = m.event) (hrest : m'.todo = rest)
    (hqueue : m'.appSendQueue = m.appSendQueue) (heof : m'.eof = m.eof)
    (hended : m'.ended = m.ended) (hread : m'.read = m.read) : Ending m' := by
  have hmove : beforeEnd m.todo = beforeEnd rest := by
    have hopen : Call.finReceived ∉ [c] := by
      intro hmem
      rw [← List.mem_singleton.mp hmem] at hc
      cases hc
    rw [htodo, ← List.singleton_append, beforeEnd_open rest hopen, hnone, List.nil_append]
  refine ⟨?_, ?_, ?_, ?_, ?_⟩
  · rw [hcalls, heof, hqueue, hended]
    exact h.mark
  · rw [hcalls, heof, hqueue, hrest]
    intro htold
    rcases h.told htold with hmark | hmark | hmem
    · exact Or.inl hmark
    · exact Or.inr (Or.inl hmark)
    · rw [htodo] at hmem
      rcases List.mem_cons.mp hmem with heq | hmem
      · rw [← heq] at hc
        cases hc
      · exact Or.inr (Or.inr hmem)
  · rw [hended]
    intro he
    obtain ⟨hnil, -⟩ := h.ended he
    rw [htodo] at hnil
    cases hnil
  · rw [hevent, hcalls]
    exact h.busy
  · rw [hcalls, heof, hqueue, hread, hrest, ← hmove]
    exact h.before

theorem Ending.perform {m m' : Mysock} {draw : BitVec 5} (h : Ending m) (hb : Books m)
    (hstep : m.perform draw = some m') : Ending m' := by
  unfold Mysock.perform at hstep
  split at hstep
  next => cases hstep
  next p rest htodo =>
    obtain ⟨copy, wire, heq, -, -⟩ := Mysock.networkSend_frame { m with todo := rest } draw p
    rw [heq] at hstep
    rw [← Option.some.inj hstep]
    exact h.called htodo rfl rfl rfl rfl rfl rfl rfl rfl rfl
  next bs rest htodo =>
    rw [← Option.some.inj hstep]
    have hlive : m.ended = false := by
      cases hended : m.ended with
      | false => rfl
      | true =>
        have hnil := (h.ended hended).1
        rw [htodo] at hnil
        cases hnil
    unfold Mysock.appSend
    split
    next hbytes =>
      have hsome : bs.isEmpty = false := by
        rw [List.isEmpty_eq_false_iff_exists_mem]
        exact List.exists_mem_of_length_pos hbytes
      have hne : [] ≠ bs := fun heq => by rw [← heq] at hsome; cases hsome
      have hmem : [] ∈ m.appSendQueue ++ [bs] ↔ [] ∈ m.appSendQueue := by
        rw [List.mem_append, List.mem_singleton]
        exact ⟨fun hm => hm.resolve_right hne, Or.inl⟩
      refine ⟨?_, ?_, ?_, h.busy, ?_⟩
      · intro hmark
        exact h.mark (hmark.imp id hmem.mp)
      · intro htold
        rcases h.told htold with hmark | hmark | htail
        · exact Or.inl hmark
        · exact Or.inr (Or.inl (hmem.mpr hmark))
        · rw [htodo] at htail
          rcases List.mem_cons.mp htail with heq | htail
          · cases heq
          · exact Or.inr (Or.inr htail)
      · intro hended
        exact absurd (hlive.symm.trans hended) Bool.false_ne_true
      · have hbefore := h.before
        have hmove : beforeEnd m.todo = bs ++ beforeEnd rest := by
          rw [htodo]
          show deliveredOf (.appSend bs :: rest.takeWhile Call.goesOn) = _
          exact List.flatMap_cons
        rw [hmove, ← heard_snoc _ _ hsome] at hbefore
        exact hbefore
    next hempty =>
      have hnil : bs = [] := List.eq_nil_of_length_eq_zero (by omega)
      exact h.called htodo rfl (by rw [hnil]; rfl) rfl rfl rfl rfl rfl rfl rfl
  next rest htodo =>
    rw [← Option.some.inj hstep]
    have hmem : Call.finReceived ∈ m.todo := by rw [htodo]; exact List.mem_cons_self
    refine ⟨?_, fun _ => Or.inr (Or.inl (List.mem_append_right _ (List.mem_singleton.mpr rfl))), ?_,
      h.busy, ?_⟩
    · exact fun _ => Or.inl (hb.made.subset hmem)
    · intro hended
      have hnil := (h.ended hended).1
      rw [htodo] at hnil
      cases hnil
    · have hbefore := h.before
      have hstop : beforeEnd m.todo = [] := by
        rw [htodo]
        rfl
      rw [hstop] at hbefore
      show beforeEnd m.endpoint.calls = if m.eof then m.read else
        m.read ++ heard (m.appSendQueue ++ [[]]) (beforeEnd rest)
      rw [heard_end]
      exact hbefore
  next bs rest htodo =>
    rw [← Option.some.inj hstep]
    exact h.called htodo rfl rfl rfl rfl rfl rfl rfl rfl rfl

/-- **Every access keeps the mark behind the data**, but a read of no bytes. -/
theorem Ending.step {m m' : Mysock} {act : Act} (h : Ending m) (hb : Books m)
    (hact : act ≠ .read 0) (hstep : m.step act = some m') : Ending m' := by
  cases act with
  | write buf =>
    simp only [Mysock.step] at hstep
    split at hstep
    next => cases hstep
    next =>
      rw [← Option.some.inj hstep]
      exact h.of_eq rfl rfl h.busy rfl rfl rfl rfl rfl
  | read len =>
    simp only [Mysock.step] at hstep
    split at hstep
    next => cases hstep
    next => exact h.read (fun hlen => hact (by rw [hlen])) hstep
  | close =>
    simp only [Mysock.step] at hstep
    split at hstep
    next => cases hstep
    next =>
      rw [← Option.some.inj hstep]
      exact h.of_eq rfl rfl h.busy rfl rfl rfl rfl rfl
  | arrive datagram =>
    rw [← Option.some.inj hstep]
    exact h.of_eq rfl rfl h.busy rfl rfl rfl rfl rfl
  | wait late =>
    obtain ⟨hhead, hcase⟩ := Mysock.waitForEvent_cases hstep
    obtain ⟨hevent, htodo, hrunning⟩ := Mysock.atHead_eq hhead
    rcases hcase with ⟨-, rfl⟩ | ⟨-, rfl⟩
    · refine ⟨h.mark, h.told, fun he => ⟨htodo, fun hrun => by cases hrun⟩, ?_, h.before⟩
      exact fun hbits => absurd hevent hbits
    · exact h.of_eq rfl rfl (fun _ => hrunning) rfl rfl rfl rfl rfl
  | expire =>
    obtain ⟨hhead, -, rfl⟩ := Mysock.expire_eq hstep
    exact h.of_eq rfl rfl (fun _ => (Mysock.atHead_eq hhead).2.2) rfl rfl rfl rfl rfl
  | handle => exact h.handle hb hstep
  | perform draw => exact h.perform hb hstep
  | exit =>
    obtain ⟨hover, -, rfl⟩ := Mysock.exit_eq hstep
    obtain ⟨htodo, hstatus⟩ := Mysock.finishes_eq hover
    refine ⟨fun _ => Or.inr rfl,
      fun _ => Or.inr (Or.inl (List.mem_append_right _ (List.mem_singleton.mpr rfl))),
      fun _ => ⟨htodo, hstatus⟩, h.busy, ?_⟩
    have hbefore := h.before
    rw [htodo] at hbefore
    show beforeEnd m.endpoint.calls = if m.eof then m.read else
      m.read ++ heard (m.appSendQueue ++ [[]]) (beforeEnd m.todo)
    rw [heard_end]
    exact hbefore

/-- **The end waits for the data.** Whatever the threads and the network do, and if
the application never reads 0 bytes: once `myread` has reported the end, the
peer's FIN has come or the transport thread has returned, and the application has
read everything that was passed up before. -/
theorem eof_after_data {ep : Endpoint} {isReliable : Bool} {acts : List Act} {m : Mysock}
    (hrunning : ep.status = .running) (htaken : ep.taken = []) (hdelivered : ep.delivered = [])
    (hopen : .finReceived ∉ ep.calls)
    (hrun : Path Mysock.step (fun _ act => act ≠ .write [] ∧ act ≠ .read 0)
      (Mysock.fresh ep isReliable) acts m)
    (heof : m.eof = true) :
    (.finReceived ∈ m.endpoint.calls ∨ m.ended = true) ∧ m.read = beforeEnd m.endpoint.calls := by
  have hending : Ending (Mysock.fresh ep isReliable) := by
    refine ⟨fun h => ?_, fun h => absurd h hopen, fun h => ?_, fun _ => hrunning, ?_⟩
    · rcases h with h | h
      · cases h
      · cases h
    · cases h
    · have hall := beforeEnd_open [] hopen
      rw [List.append_nil] at hall
      show beforeEnd ep.calls = []
      rw [hall]
      exact congrArg (· ++ []) hdelivered
  have hinv : Books m ∧ Ending m :=
    hrun.invariant (fun m => Books m ∧ Ending m) ⟨Books.fresh htaken hdelivered, hending⟩
      fun _ _ _ hact hstep h => ⟨h.1.step hstep, h.2.step h.1 hact.2 hstep⟩
  have hbefore := hinv.2.before
  rw [heof, if_pos rfl] at hbefore
  exact ⟨hinv.2.mark (Or.inl heof), hbefore.symm⟩

/-- The peer's last byte and its FIN arrive; the application reads on. -/
def hearing : List Act :=
  [ .arrive (some (makeStcpPacket TH.ack 1001 2 [33])), .arrive (some (makeStcpPacket TH.fin 1002 2 [])),
    .wait false, .handle, .perform 7, .perform 7, .wait false, .handle, .perform 7, .perform 7,
    .read 5, .read 5 ]

theorem eof_after_data_hearing : ∃ m : Mysock,
    Path Mysock.step (fun _ act => act ≠ .write [] ∧ act ≠ .read 0)
      (Mysock.fresh (greeted 2 1001) true) hearing m ∧
      ((.finReceived ∈ m.endpoint.calls ∨ m.ended = true) ∧
        m.read = beforeEnd m.endpoint.calls) := by
  have hok : ∀ act ∈ hearing, ∀ m : Mysock, act ≠ .write [] ∧ act ≠ .read 0 := by
    have hall : ∀ act ∈ hearing, act ≠ .write [] ∧ act ≠ .read 0 := by decide
    exact fun act hact _ => hall act hact
  have hfinal : ∃ m, Path Mysock.step (fun _ act => act ≠ .write [] ∧ act ≠ .read 0)
      (Mysock.fresh (greeted 2 1001) true) hearing m ∧ m.eof = true :=
    exists_of_follow hok (by decide +kernel)
  obtain ⟨m, hrun, heof⟩ := hfinal
  have hopen : Call.finReceived ∉ (greeted 2 1001).calls := fun hmem => by cases hmem
  exact ⟨m, hrun, eof_after_data rfl rfl rfl hopen hrun heof⟩

end UchiNetworks.Stcp
