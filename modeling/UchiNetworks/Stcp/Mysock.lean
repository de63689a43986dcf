import UchiNetworks.Stcp.Teardown

/-!
# STCP: the mysocket around an endpoint

A mysocket (`mysock_context_t`) has three queues of buffers between four
threads: the application (`mywrite`, `myread`, `myclose`), the transport thread
with its `control_loop`, the thread that receives datagrams, and the peer.
`Mysock.step` is one access of one of them to what they share, so a run is any
interleaving.

The transport thread is where its `event` and `todo` say: it waits when both are
empty; otherwise it makes the next call of the handler it is in, or goes on to
the next bit of what `stcp_wait_for_event` has told it.

Mirroring notes vs the C:
- Every queue is changed under `data_ready_lock`. A partial dequeue shortens the
  head buffer after the lock is released, but only the one consumer looks at it.
- `stcp_app_recv` is called first thing by the handler of `APP_DATA`, so the
  buffer leaves the queue there; `Call.appRecv` in `todo` has been made already.
- `pthread_cond_timedwait` may report a timeout whenever one is set.
- `rand_r` may return anything.
- A thread that sleeps, or that the source asserts never comes here, takes no
  step. `myclose` blocks its caller until the transport thread has returned.
- `written` and `read` are what the application has passed to `mywrite` and got
  from `myread`; the program keeps neither.
-/

namespace UchiNetworks.Stcp

open UchiNetworks.Lib

/-- A bit of the answer of `stcp_wait_for_event`, or the answer `TIMEOUT`. -/
inductive Bit where
  | appData
  | networkData
  | appCloseRequested
  | timeout
  deriving DecidableEq, Repr

/-- `mysock_context_t`, with the transport thread and the peer's end of the wire. -/
structure Mysock where
  endpoint : Endpoint
  event : List Bit
  todo : List Call
  networkRecvQueue : List (Option Packet)
  appSendQueue : List (List UInt8)
  appRecvQueue : List (List UInt8)
  closeRequested : Bool
  eof : Bool
  isReliable : Bool
  copyBuffer : Option Packet
  wire : List Packet
  /-- the application is in `myclose` -/
  closing : Bool
  /-- `transport_thread_func` has returned -/
  ended : Bool
  written : List UInt8
  read : List UInt8

/-- `_mysock_dequeue_buffer` with `remove_partial`: the bytes it copies out and
the queue it leaves. On an empty queue its caller sleeps. -/
def dequeueBuffer (maxLen : Nat) : List (List UInt8) → Option (List UInt8 × List (List UInt8))
  | [] => none
  | node :: rest =>
    if node.length > maxLen then some (node.take maxLen, node.drop maxLen :: rest)
    else some (node, rest)

namespace Mysock

/-- `_network_send_packet` -/
def networkSendPacket (m : Mysock) (p : Packet) : Mysock := { m with wire := m.wire ++ [p] }

/-- `_network_send`, where `rand_r` has drawn `draw`. A stored packet stays stored
when it is sent. -/
def networkSend (m : Mysock) (draw : BitVec 5) (p : Packet) : Mysock :=
  if m.isReliable then m.networkSendPacket p
  else if draw = 0 then m
  else if draw = 1 then (m.networkSendPacket p).networkSendPacket p
  else if draw = 2 then { m with copyBuffer := some p }
  else if draw = 3 then m.networkSendPacket (m.copyBuffer.getD p)
  else m.networkSendPacket p

/-- `stcp_app_send` -/
def appSend (m : Mysock) (src : List UInt8) : Mysock :=
  if src.length > 0 then { m with appSendQueue := m.appSendQueue ++ [src] } else m

/-- `stcp_fin_received`: a buffer without bytes marks the end. -/
def finReceived (m : Mysock) : Mysock := { m with appSendQueue := m.appSendQueue ++ [[]] }

/-- `myread`: a read of nothing is the end of the stream, for good. -/
def myread (m : Mysock) (len : Nat) : Option Mysock :=
  if m.eof then some m
  else (dequeueBuffer len m.appSendQueue).map fun r =>
    { m with appSendQueue := r.2, read := m.read ++ r.1, eof := r.1.isEmpty }

/-- The bits `stcp_wait_for_event` finds set; `late` is when the first listed
packet has timed out and the caller asks for network data only. -/
def ready (m : Mysock) (late : Bool) : List Bit :=
  (if !late && !m.appRecvQueue.isEmpty then [.appData] else []) ++
  (if !m.networkRecvQueue.isEmpty then [.networkData] else []) ++
  (if m.closeRequested && m.appRecvQueue.isEmpty then [.appCloseRequested] else [])

/-- Is a timeout set (`send_unack < send_next`)? -/
def timed (m : Mysock) : Bool := decide (m.endpoint.ctx.sendUnack < m.endpoint.ctx.sendNext)

/-- Is the transport thread at the head of `control_loop`? -/
def atHead (m : Mysock) : Bool :=
  m.event.isEmpty && m.todo.isEmpty && decide (m.endpoint.status = .running)

/-- `stcp_wait_for_event`, called with the timeout `control_loop` has made. -/
def waitForEvent (m : Mysock) (late : Bool) : Option Mysock :=
  if !m.atHead then none
  else if m.endpoint.ctx.timerFaults then
    some { m with endpoint := { m.endpoint with status := .crashed } }
  else if late && !m.timed then none
  else if (m.ready late).isEmpty then none
  else some { m with
    event := m.ready late
    closeRequested := m.closeRequested && !m.appRecvQueue.isEmpty }

/-- `stcp_wait_for_event` when it times out. -/
def expire (m : Mysock) : Option Mysock :=
  if m.atHead && m.timed && !m.endpoint.ctx.timerFaults then some { m with event := [.timeout] }
  else none

/-- `send_size`, if the window is open. -/
def sendSize (ctx : Context) : Option Nat :=
  let openWindow := (ctx.sendWind - (ctx.sendNext - ctx.sendUnack)).toInt
  if openWindow > 0 then some (if openWindow > maxLen then maxLen else openWindow.toNat) else none

/-- A handler runs: its calls are to be made, and a `break` skips the other bits. -/
def react (m : Mysock) (rest : List Bit) (ev : Event) : Mysock :=
  { m with
    endpoint := m.endpoint.after ev
    todo := (handleEvent m.endpoint.ctx ev).2.2
    event := if (handleEvent m.endpoint.ctx ev).2.1 = .running then rest else [] }

/-- `control_loop` looks at the next bit. -/
def handle (m : Mysock) : Option Mysock :=
  match m.todo, m.event with
  | [], .appData :: rest =>
    match sendSize m.endpoint.ctx with
    | none => some { m with event := rest }
    | some n => (dequeueBuffer n m.appRecvQueue).map fun r =>
        { m with appRecvQueue := r.2 }.react rest (.appData r.1)
  | [], .networkData :: rest =>
    match m.networkRecvQueue with
    | [] => none
    | d :: queue => some ({ m with networkRecvQueue := queue }.react rest (.networkData d))
  | [], .appCloseRequested :: rest => some (m.react rest .appCloseRequested)
  | [], .timeout :: rest => some (m.react rest .timeout)
  | _, _ => none

/-- The transport thread makes the next call of the handler. -/
def perform (m : Mysock) (draw : BitVec 5) : Option Mysock :=
  match m.todo with
  | [] => none
  | .networkSend p :: rest => some ({ m with todo := rest }.networkSend draw p)
  | .appSend bs :: rest => some ({ m with todo := rest }.appSend bs)
  | .finReceived :: rest => some { m with todo := rest }.finReceived
  | .appRecv _ :: rest => some { m with todo := rest }

/-- Has the loop ended, by `break` or by giving up? -/
def finishes (m : Mysock) : Bool :=
  m.todo.isEmpty && (decide (m.endpoint.status = .closed) || decide (m.endpoint.status = .gaveUp))

/-- `transport_thread_func` after `transport_init`: force a final `myread` of 0. -/
def exit (m : Mysock) : Option Mysock :=
  if m.finishes && !m.ended then some { m.finReceived with ended := true } else none

end Mysock

/-- One access of one thread. -/
inductive Act where
  | write (buf : List UInt8)
  | read (len : Nat)
  | close
  | arrive (datagram : Option Packet)
  | wait (late : Bool)
  | expire
  | handle
  | perform (draw : BitVec 5)
  | exit
  deriving DecidableEq, Repr

/-- `mywrite`, `myread`, `myclose`, the receiving thread, and the transport thread. -/
def Mysock.step (m : Mysock) : Act → Option Mysock
  | .write buf =>
    if m.closing then none
    else some { m with appRecvQueue := m.appRecvQueue ++ [buf], written := m.written ++ buf }
  | .read len => if m.closing then none else m.myread len
  | .close => if m.closing then none else some { m with closeRequested := true, closing := true }
  | .arrive datagram => some { m with networkRecvQueue := m.networkRecvQueue ++ [datagram] }
  | .wait late => m.waitForEvent late
  | .expire => m.expire
  | .handle => m.handle
  | .perform draw => m.perform draw
  | .exit => m.exit

/-- A mysocket whose endpoint has just entered the loop. -/
def Mysock.fresh (ep : Endpoint) (isReliable : Bool) : Mysock :=
  { endpoint := ep, event := [], todo := [], networkRecvQueue := [], appSendQueue := [],
    appRecvQueue := [], closeRequested := false, eof := false, isReliable := isReliable,
    copyBuffer := none, wire := [], closing := false, ended := false, written := [], read := [] }

/-! ## What a step can do -/

/-- A dequeue splits the bytes that wait, and takes no more than it was asked for. -/
theorem dequeueBuffer_spec {maxLen : Nat} {queue : List (List UInt8)}
    {r : List UInt8 × List (List UInt8)} (h : dequeueBuffer maxLen queue = some r) :
    queue.flatten = r.1 ++ r.2.flatten ∧ r.1.length ≤ maxLen := by
  cases queue with
  | nil => cases h
  | cons node rest =>
    simp only [dequeueBuffer] at h
    split at h
    next hlong =>
      rw [← Option.some.inj h]
      refine ⟨?_, List.length_take_le _ _⟩
      rw [List.flatten_cons, List.flatten_cons, ← List.append_assoc, List.take_append_drop]
    next hfits =>
      rw [← Option.some.inj h]
      exact ⟨List.flatten_cons, Nat.not_lt.mp hfits⟩

namespace Mysock

/-- `_network_send` touches what belongs to the network layer only. -/
theorem networkSend_frame (m : Mysock) (draw : BitVec 5) (p : Packet) :
    ∃ copy wire, m.networkSend draw p = { m with copyBuffer := copy, wire := wire } ∧
      (∀ q ∈ wire, q ∈ m.wire ∨ q = p ∨ m.copyBuffer = some q) ∧
      ∀ q, copy = some q → q = p ∨ m.copyBuffer = some q := by
  have hone : ∀ r, (r = p ∨ m.copyBuffer = some r) → ∀ q ∈ m.wire ++ [r],
      q ∈ m.wire ∨ q = p ∨ m.copyBuffer = some q := by
    intro r hr q hq
    rcases List.mem_append.mp hq with hold | hnew
    · exact Or.inl hold
    · rw [List.mem_singleton.mp hnew]
      exact Or.inr hr
  have hkept : ∀ q, m.copyBuffer = some q → q = p ∨ m.copyBuffer = some q := fun q => Or.inr
  unfold networkSend
  split
  next => exact ⟨_, _, rfl, hone p (Or.inl rfl), hkept⟩
  next =>
    split
    next => exact ⟨_, _, rfl, fun q => Or.inl, hkept⟩
    next =>
      split
      next =>
        -- a duplicate: the packet goes out twice
        refine ⟨_, _, rfl, ?_, hkept⟩
        intro q hq
        rcases List.mem_append.mp hq with hold | hnew
        · exact hone p (Or.inl rfl) q hold
        · exact Or.inr (Or.inl (List.mem_singleton.mp hnew))
      next =>
        split
        next =>
          refine ⟨_, _, rfl, fun q => Or.inl, ?_⟩
          intro q hq
          exact Or.inl (Option.some.inj hq).symm
        next =>
          split
          next =>
            refine ⟨_, _, rfl, hone _ ?_, hkept⟩
            cases hcopy : m.copyBuffer with
            | none => exact Or.inl rfl
            | some q => exact Or.inr rfl
          next => exact ⟨_, _, rfl, hone p (Or.inl rfl), hkept⟩

theorem atHead_eq {m : Mysock} (h : m.atHead = true) :
    m.event = [] ∧ m.todo = [] ∧ m.endpoint.status = .running := by
  unfold atHead at h
  rw [Bool.and_eq_true, Bool.and_eq_true, decide_eq_true_eq] at h
  exact ⟨List.isEmpty_iff.mp h.1.1, List.isEmpty_iff.mp h.1.2, h.2⟩

theorem finishes_eq {m : Mysock} (h : m.finishes = true) :
    m.todo = [] ∧ m.endpoint.status ≠ .running := by
  unfold finishes at h
  rw [Bool.and_eq_true, Bool.or_eq_true, decide_eq_true_eq, decide_eq_true_eq] at h
  refine ⟨List.isEmpty_iff.mp h.1, ?_⟩
  intro hrun
  rcases h.2 with hst | hst
  · rw [hst] at hrun
    cases hrun
  · rw [hst] at hrun
    cases hrun

/-- Waiting ends in a NULL dereference or with some bits. -/
theorem waitForEvent_cases {m m' : Mysock} {late : Bool} (h : m.waitForEvent late = some m') :
    m.atHead = true ∧
      (m.endpoint.ctx.timerFaults = true ∧
          m' = { m with endpoint := { m.endpoint with status := .crashed } } ∨
        m.endpoint.ctx.timerFaults = false ∧ m' = { m with
          event := m.ready late
          closeRequested := m.closeRequested && !m.appRecvQueue.isEmpty }) := by
  unfold waitForEvent at h
  split at h
  next => cases h
  next hhead =>
    refine ⟨by simpa using hhead, ?_⟩
    split at h
    next hfault => exact Or.inl ⟨hfault, (Option.some.inj h).symm⟩
    next hfault =>
      split at h
      next => cases h
      next =>
        split at h
        next => cases h
        next => exact Or.inr ⟨by simpa using hfault, (Option.some.inj h).symm⟩

theorem expire_eq {m m' : Mysock} (h : m.expire = some m') :
    m.atHead = true ∧ m.endpoint.ctx.timerFaults = false ∧ m' = { m with event := [.timeout] } := by
  unfold expire at h
  split at h
  next hif =>
    rw [Bool.and_eq_true, Bool.and_eq_true, Bool.not_eq_true'] at hif
    exact ⟨hif.1.1, hif.2, (Option.some.inj h).symm⟩
  next => cases h

/-- The next bit is skipped, or its event is handled. -/
theorem handle_cases {m m' : Mysock} (h : m.handle = some m') :
    m.todo = [] ∧ ∃ b rest, m.event = b :: rest ∧
      ((b = .appData ∧ sendSize m.endpoint.ctx = none ∧ m' = { m with event := rest }) ∨
        (∃ n r, b = .appData ∧ sendSize m.endpoint.ctx = some n ∧
          dequeueBuffer n m.appRecvQueue = some r ∧
          m' = { m with appRecvQueue := r.2 }.react rest (.appData r.1)) ∨
        (∃ d queue, b = .networkData ∧ m.networkRecvQueue = d :: queue ∧
          m' = { m with networkRecvQueue := queue }.react rest (.networkData d)) ∨
        (b = .appCloseRequested ∧ m' = m.react rest .appCloseRequested) ∨
        (b = .timeout ∧ m' = m.react rest .timeout)) := by
  unfold handle at h
  split at h
  next rest htodo hevent =>
    refine ⟨htodo, _, _, hevent, ?_⟩
    split at h
    next hsize => exact Or.inl ⟨rfl, hsize, (Option.some.inj h).symm⟩
    next n hsize =>
      obtain ⟨r, hr, hm⟩ := Option.map_eq_some_iff.mp h
      exact Or.inr (Or.inl ⟨n, r, rfl, hsize, hr, hm.symm⟩)
  next rest htodo hevent =>
    refine ⟨htodo, _, _, hevent, ?_⟩
    split at h
    next => cases h
    next d queue hqueue =>
      exact Or.inr (Or.inr (Or.inl ⟨d, queue, rfl, hqueue, (Option.some.inj h).symm⟩))
  next rest htodo hevent =>
    exact ⟨htodo, _, _, hevent, Or.inr (Or.inr (Or.inr (Or.inl ⟨rfl, (Option.some.inj h).symm⟩)))⟩
  next rest htodo hevent =>
    exact ⟨htodo, _, _, hevent, Or.inr (Or.inr (Or.inr (Or.inr ⟨rfl, (Option.some.inj h).symm⟩)))⟩
  next => cases h

/-- A call is made: something goes to the network or up to the application. -/
theorem perform_frame {m m' : Mysock} {draw : BitVec 5} (h : m.perform draw = some m') :
    ∃ c rest, m.todo = c :: rest ∧ ∃ queue copy wire, m' = { m with
      todo := rest, appSendQueue := queue, copyBuffer := copy, wire := wire } := by
  unfold perform at h
  split at h
  next => cases h
  next p rest htodo =>
    obtain ⟨copy, wire, heq, -, -⟩ := networkSend_frame { m with todo := rest } draw p
    rw [heq] at h
    exact ⟨_, rest, htodo, m.appSendQueue, copy, wire, (Option.some.inj h).symm⟩
  next bs rest htodo =>
    refine ⟨_, rest, htodo, ?_⟩
    unfold appSend at h
    split at h
    next => exact ⟨_, m.copyBuffer, m.wire, (Option.some.inj h).symm⟩
    next => exact ⟨m.appSendQueue, m.copyBuffer, m.wire, (Option.some.inj h).symm⟩
  next rest htodo =>
    exact ⟨_, rest, htodo, _, m.copyBuffer, m.wire, (Option.some.inj h).symm⟩
  next bs rest htodo =>
    exact ⟨_, rest, htodo, m.appSendQueue, m.copyBuffer, m.wire, (Option.some.inj h).symm⟩

theorem exit_eq {m m' : Mysock} (h : m.exit = some m') :
    m.finishes = true ∧ m.ended = false ∧ m' = { m.finReceived with ended := true } := by
  unfold exit at h
  split at h
  next hif =>
    rw [Bool.and_eq_true, Bool.not_eq_true'] at hif
    exact ⟨hif.1, hif.2, (Option.some.inj h).symm⟩
  next => cases h

/-- A read gives what it takes off the queue; after the end it gives nothing. -/
theorem myread_cases {m m' : Mysock} {len : Nat} (h : m.myread len = some m') :
    (m.eof = true ∧ m' = m) ∨
      (m.eof = false ∧ ∃ r, dequeueBuffer len m.appSendQueue = some r ∧
        m' = { m with appSendQueue := r.2, read := m.read ++ r.1, eof := r.1.isEmpty }) := by
  unfold myread at h
  split at h
  next heof => exact Or.inl ⟨heof, (Option.some.inj h).symm⟩
  next heof =>
    obtain ⟨r, hr, hm⟩ := Option.map_eq_some_iff.mp h
    exact Or.inr ⟨by simpa using heof, r, hr, hm.symm⟩

/-- What the application has written it has written. -/
theorem step_written {m m' : Mysock} {act : Act} (h : m.step act = some m') :
    m.written <+: m'.written := by
  cases act with
  | write buf =>
    simp only [step] at h
    split at h
    next => cases h
    next =>
      rw [← Option.some.inj h]
      exact List.prefix_append _ _
  | read len =>
    simp only [step] at h
    split at h
    next => cases h
    next =>
      rcases myread_cases h with ⟨-, rfl⟩ | ⟨-, r, -, rfl⟩
      · exact List.prefix_rfl
      · exact List.prefix_rfl
  | close =>
    simp only [step] at h
    split at h
    next => cases h
    next =>
      obtain rfl := Option.some.inj h
      exact List.prefix_rfl
  | arrive datagram =>
    obtain rfl := Option.some.inj h
    exact List.prefix_rfl
  | wait late =>
    obtain ⟨-, ⟨-, rfl⟩ | ⟨-, rfl⟩⟩ := waitForEvent_cases h
    · exact List.prefix_rfl
    · exact List.prefix_rfl
  | expire =>
    obtain ⟨-, -, rfl⟩ := expire_eq h
    exact List.prefix_rfl
  | handle =>
    obtain ⟨-, b, rest, -, hcase⟩ := handle_cases h
    rcases hcase with ⟨-, -, rfl⟩ | ⟨n, r, -, -, -, rfl⟩ | ⟨d, queue, -, -, rfl⟩ | ⟨-, rfl⟩ | ⟨-, rfl⟩
    · exact List.prefix_rfl
    · exact List.prefix_rfl
    · exact List.prefix_rfl
    · exact List.prefix_rfl
    · exact List.prefix_rfl
  | perform draw =>
    obtain ⟨c, rest, -, queue, copy, wire, rfl⟩ := perform_frame h
    exact List.prefix_rfl
  | exit =>
    obtain ⟨-, -, rfl⟩ := exit_eq h
    exact List.prefix_rfl

end Mysock

/-- The handler of application data takes what it is given. -/
theorem takenOf_handleAppData {ctx : Context} {n : Nat} {bs : List UInt8}
    (hsize : Mysock.sendSize ctx = some n) (hlen : bs.length ≤ n) :
    takenOf (handleEvent ctx (.appData bs)).2.2 = bs := by
  unfold Mysock.sendSize at hsize
  simp only at hsize
  split at hsize
  next hopen =>
    have htake : bs.take (if (ctx.sendWind - (ctx.sendNext - ctx.sendUnack)).toInt > maxLen
        then maxLen else (ctx.sendWind - (ctx.sendNext - ctx.sendUnack)).toInt.toNat) = bs := by
      rw [Option.some.inj hsize]
      exact List.take_of_length_le hlen
    simp only [handleEvent, handleAppData, if_pos hopen, htake]
    split
    next => exact List.append_nil bs
    next hempty => exact (List.eq_nil_of_length_eq_zero (by omega)).symm
  next => cases hsize

/-- No other handler takes anything. -/
theorem takenOf_handleEvent {ctx : Context} {ev : Event} (hev : ∀ bs, ev ≠ .appData bs) :
    takenOf (handleEvent ctx ev).2.2 = [] := by
  cases ev with
  | appData bs => exact absurd rfl (hev bs)
  | networkData packet => exact takenOf_handleEvent_network ctx packet
  | appCloseRequested =>
    simp only [handleEvent, handleClose]
    split
    next => rfl
    next => rfl
    next => rfl
  | timeout => exact takenOf_handleTimeout ctx

/-! ## No byte is lost between the threads -/

/-- What the application has written is what the transport thread has taken and
what waits for it; what that has passed up is what the application has read and
what waits for it. The calls still to be made are the last ones. -/
structure Books (m : Mysock) : Prop where
  written : m.written = m.endpoint.taken ++ m.appRecvQueue.flatten
  passed : m.endpoint.delivered = m.read ++ m.appSendQueue.flatten ++ deliveredOf m.todo
  made : m.todo <:+ m.endpoint.calls

theorem Books.fresh {ep : Endpoint} {isReliable : Bool} (htaken : ep.taken = [])
    (hdelivered : ep.delivered = []) : Books (Mysock.fresh ep isReliable) := by
  refine ⟨?_, hdelivered, List.nil_suffix⟩
  show [] = ep.taken ++ []
  rw [htaken, List.append_nil]

/-- A handler keeps the books, if it has taken what is no longer queued. -/
theorem Books.react {m : Mysock} {rest : List Bit} {ev : Event} (htodo : m.todo = [])
    (hwritten : m.written
      = m.endpoint.taken ++ takenOf (handleEvent m.endpoint.ctx ev).2.2 ++ m.appRecvQueue.flatten)
    (hpassed : m.endpoint.delivered = m.read ++ m.appSendQueue.flatten ++ deliveredOf m.todo) :
    Books (m.react rest ev) := by
  constructor
  · show m.written = takenOf (m.endpoint.calls ++ _) ++ m.appRecvQueue.flatten
    rw [takenOf_append]
    exact hwritten
  · show deliveredOf (m.endpoint.calls ++ _) = m.read ++ m.appSendQueue.flatten ++ _
    rw [htodo] at hpassed
    rw [deliveredOf_append]
    exact congrArg (· ++ _) (hpassed.trans (List.append_nil _))
  · exact List.suffix_append _ _

theorem Books.handle {m m' : Mysock} (h : Books m) (hstep : m.handle = some m') : Books m' := by
  obtain ⟨htodo, b, rest, -, hcase⟩ := Mysock.handle_cases hstep
  have hother : ∀ ev, (∀ bs, ev ≠ .appData bs) → m.written = m.endpoint.taken
      ++ takenOf (handleEvent m.endpoint.ctx ev).2.2 ++ m.appRecvQueue.flatten := by
    intro ev hev
    rw [takenOf_handleEvent hev, List.append_nil]
    exact h.written
  rcases hcase with ⟨-, -, rfl⟩ | ⟨n, r, -, hsize, hr, rfl⟩ | ⟨d, queue, -, -, rfl⟩ | ⟨-, rfl⟩ |
    ⟨-, rfl⟩
  · exact ⟨h.written, h.passed, h.made⟩
  · obtain ⟨hflat, hlen⟩ := dequeueBuffer_spec hr
    refine Books.react htodo ?_ h.passed
    show m.written = m.endpoint.taken
      ++ takenOf (handleEvent m.endpoint.ctx (.appData r.1)).2.2 ++ r.2.flatten
    rw [takenOf_handleAppData hsize hlen, h.written, hflat, List.append_assoc]
  · exact Books.react htodo (hother _ fun bs hbs => by cases hbs) h.passed
  · exact Books.react htodo (hother _ fun bs hbs => by cases hbs) h.passed
  · exact Books.react htodo (hother _ fun bs hbs => by cases hbs) h.passed

theorem Books.perform {m m' : Mysock} {draw : BitVec 5} (h : Books m)
    (hstep : m.perform draw = some m') : Books m' := by
  have hpassed := h.passed
  have hmade : ∀ {c rest}, m.todo = c :: rest → rest <:+ m.endpoint.calls := by
    intro c rest htodo
    have hall := h.made
    rw [htodo] at hall
    exact (List.suffix_cons c rest).trans hall
  unfold Mysock.perform at hstep
  split at hstep
  next => cases hstep
  next p rest htodo =>
    obtain ⟨copy, wire, heq, -, -⟩ := Mysock.networkSend_frame { m with todo := rest } draw p
    rw [heq] at hstep
    rw [← Option.some.inj hstep]
    rw [htodo] at hpassed
    exact ⟨h.written, hpassed, hmade htodo⟩
  next bs rest htodo =>
    rw [← Option.some.inj hstep]
    rw [htodo] at hpassed
    unfold Mysock.appSend
    split
    next =>
      refine ⟨h.written, hpassed.trans ?_, hmade htodo⟩
      simp [deliveredOf]
    next hempty =>
      refine ⟨h.written, hpassed.trans ?_, hmade htodo⟩
      have hnil : bs = [] := List.eq_nil_of_length_eq_zero (by omega)
      simp [deliveredOf, hnil]
  next rest htodo =>
    rw [← Option.some.inj hstep]
    rw [htodo] at hpassed
    refine ⟨h.written, hpassed.trans ?_, hmade htodo⟩
    simp [deliveredOf, Mysock.finReceived]
  next bs rest htodo =>
    rw [← Option.some.inj hstep]
    rw [htodo] at hpassed
    exact ⟨h.written, hpassed, hmade htodo⟩

/-- **Every access keeps the books.** -/
theorem Books.step {m m' : Mysock} {act : Act} (h : Books m) (hstep : m.step act = some m') :
    Books m' := by
  cases act with
  | write buf =>
    simp only [Mysock.step] at hstep
    split at hstep
    next => cases hstep
    next =>
      rw [← Option.some.inj hstep]
      refine ⟨?_, h.passed, h.made⟩
      show m.written ++ buf = m.endpoint.taken ++ (m.appRecvQueue ++ [buf]).flatten
      rw [h.written]
      simp
  | read len =>
    simp only [Mysock.step] at hstep
    split at hstep
    next => cases hstep
    next =>
      rcases Mysock.myread_cases hstep with ⟨-, rfl⟩ | ⟨-, r, hr, rfl⟩
      · exact h
      · obtain ⟨hflat, -⟩ := dequeueBuffer_spec hr
        refine ⟨h.written, h.passed.trans ?_, h.made⟩
        rw [hflat]
        simp
  | close =>
    simp only [Mysock.step] at hstep
    split at hstep
    next => cases hstep
    next =>
      rw [← Option.some.inj hstep]
      exact ⟨h.written, h.passed, h.made⟩
  | arrive datagram =>
    rw [← Option.some.inj hstep]
    exact ⟨h.written, h.passed, h.made⟩
  | wait late =>
    obtain ⟨-, ⟨-, rfl⟩ | ⟨-, rfl⟩⟩ := Mysock.waitForEvent_cases hstep
    · exact ⟨h.written, h.passed, h.made⟩
    · exact ⟨h.written, h.passed, h.made⟩
  | expire =>
    obtain ⟨-, -, rfl⟩ := Mysock.expire_eq hstep
    exact ⟨h.written, h.passed, h.made⟩
  | handle => exact h.handle hstep
  | perform draw => exact h.perform hstep
  | exit =>
    obtain ⟨-, -, rfl⟩ := Mysock.exit_eq hstep
    refine ⟨h.written, h.passed.trans ?_, h.made⟩
    simp [Mysock.finReceived]

/-! ## What is transmitted has been sent -/

/-- The endpoint has sent what its network layer has transmitted, or keeps. -/
structure Transmits (m : Mysock) : Prop where
  wire : ∀ p ∈ m.wire, p ∈ m.endpoint.sent
  copy : ∀ p, m.copyBuffer = some p → p ∈ m.endpoint.sent

/-- An access runs a handler, or leaves what the endpoint knows and has done. -/
theorem Mysock.step_endpoint {m m' : Mysock} {act : Act} (h : m.step act = some m') :
    (m'.endpoint.ctx = m.endpoint.ctx ∧ m'.endpoint.calls = m.endpoint.calls) ∨
      (act = .handle ∧ ∃ ev, m'.endpoint = m.endpoint.after ev) := by
  cases act with
  | write buf =>
    simp only [step] at h
    split at h
    next => cases h
    next =>
      rw [← Option.some.inj h]
      exact Or.inl ⟨rfl, rfl⟩
  | read len =>
    simp only [step] at h
    split at h
    next => cases h
    next =>
      rcases myread_cases h with ⟨-, rfl⟩ | ⟨-, r, -, rfl⟩
      · exact Or.inl ⟨rfl, rfl⟩
      · exact Or.inl ⟨rfl, rfl⟩
  | close =>
    simp only [step] at h
    split at h
    next => cases h
    next =>
      rw [← Option.some.inj h]
      exact Or.inl ⟨rfl, rfl⟩
  | arrive datagram =>
    rw [← Option.some.inj h]
    exact Or.inl ⟨rfl, rfl⟩
  | wait late =>
    obtain ⟨-, ⟨-, rfl⟩ | ⟨-, rfl⟩⟩ := waitForEvent_cases h
    · exact Or.inl ⟨rfl, rfl⟩
    · exact Or.inl ⟨rfl, rfl⟩
  | expire =>
    obtain ⟨-, -, rfl⟩ := expire_eq h
    exact Or.inl ⟨rfl, rfl⟩
  | handle =>
    obtain ⟨-, b, rest, -, hcase⟩ := handle_cases h
    rcases hcase with ⟨-, -, rfl⟩ | ⟨n, r, -, -, -, rfl⟩ | ⟨d, queue, -, -, rfl⟩ | ⟨-, rfl⟩ | ⟨-, rfl⟩
    · exact Or.inl ⟨rfl, rfl⟩
    · exact Or.inr ⟨rfl, _, rfl⟩
    · exact Or.inr ⟨rfl, _, rfl⟩
    · exact Or.inr ⟨rfl, _, rfl⟩
    · exact Or.inr ⟨rfl, _, rfl⟩
  | perform draw =>
    obtain ⟨c, rest, -, queue, copy, wire, rfl⟩ := perform_frame h
    exact Or.inl ⟨rfl, rfl⟩
  | exit =>
    obtain ⟨-, -, rfl⟩ := exit_eq h
    exact Or.inl ⟨rfl, rfl⟩

/-- What has been sent stays sent. -/
theorem Mysock.step_sent {m m' : Mysock} {act : Act} (h : m.step act = some m') {p : Packet}
    (hp : p ∈ m.endpoint.sent) : p ∈ m'.endpoint.sent := by
  rcases step_endpoint h with ⟨-, hcalls⟩ | ⟨-, ev, heq⟩
  · rw [Endpoint.sent, hcalls]
    exact hp
  · rw [heq, Endpoint.sent, sentOf_append]
    exact List.mem_append_left _ hp

/-- Only a call of the network layer transmits or keeps, and it is given a packet
that the handler has sent. -/
theorem Mysock.step_wire {m m' : Mysock} {act : Act} (h : m.step act = some m') (hb : Books m) :
    (∀ q ∈ m'.wire, q ∈ m.wire ∨ q ∈ m.endpoint.sent ∨ m.copyBuffer = some q) ∧
      ∀ q, m'.copyBuffer = some q → q ∈ m.endpoint.sent ∨ m.copyBuffer = some q := by
  have hsame : m'.wire = m.wire → m'.copyBuffer = m.copyBuffer →
      (∀ q ∈ m'.wire, q ∈ m.wire ∨ q ∈ m.endpoint.sent ∨ m.copyBuffer = some q) ∧
        ∀ q, m'.copyBuffer = some q → q ∈ m.endpoint.sent ∨ m.copyBuffer = some q := by
    intro hwire hcopy
    rw [hwire, hcopy]
    exact ⟨fun q => Or.inl, fun q => Or.inr⟩
  cases act with
  | write buf =>
    simp only [step] at h
    split at h
    next => cases h
    next =>
      rw [← Option.some.inj h] at hsame ⊢
      exact hsame rfl rfl
  | read len =>
    simp only [step] at h
    split at h
    next => cases h
    next =>
      rcases myread_cases h with ⟨-, rfl⟩ | ⟨-, r, -, rfl⟩
      · exact hsame rfl rfl
      · exact hsame rfl rfl
  | close =>
    simp only [step] at h
    split at h
    next => cases h
    next =>
      rw [← Option.some.inj h] at hsame ⊢
      exact hsame rfl rfl
  | arrive datagram =>
    rw [← Option.some.inj h] at hsame ⊢
    exact hsame rfl rfl
  | wait late =>
    obtain ⟨-, ⟨-, rfl⟩ | ⟨-, rfl⟩⟩ := waitForEvent_cases h
    · exact hsame rfl rfl
    · exact hsame rfl rfl
  | expire =>
    obtain ⟨-, -, rfl⟩ := expire_eq h
    exact hsame rfl rfl
  | handle =>
    obtain ⟨-, b, rest, -, hcase⟩ := handle_cases h
    rcases hcase with ⟨-, -, rfl⟩ | ⟨n, r, -, -, -, rfl⟩ | ⟨d, queue, -, -, rfl⟩ | ⟨-, rfl⟩ | ⟨-, rfl⟩
    · exact hsame rfl rfl
    · exact hsame rfl rfl
    · exact hsame rfl rfl
    · exact hsame rfl rfl
    · exact hsame rfl rfl
  | perform draw =>
    have h : m.perform draw = some m' := h
    unfold perform at h
    split at h
    next => cases h
    next p rest htodo =>
      obtain ⟨copy, wire, heq, hwire, hcopy⟩ := networkSend_frame { m with todo := rest } draw p
      have hp : p ∈ m.endpoint.sent := by
        refine List.mem_filterMap.mpr ⟨.networkSend p, hb.made.subset ?_, rfl⟩
        rw [htodo]
        exact List.mem_cons_self
      rw [heq] at h
      rw [← Option.some.inj h]
      refine ⟨?_, ?_⟩
      · intro q hq
        rcases hwire q hq with hold | rfl | hkept
        · exact Or.inl hold
        · exact Or.inr (Or.inl hp)
        · exact Or.inr (Or.inr hkept)
      · intro q hq
        rcases hcopy q hq with rfl | hkept
        · exact Or.inl hp
        · exact Or.inr hkept
    next bs rest htodo =>
      rw [← Option.some.inj h] at hsame ⊢
      unfold appSend at hsame ⊢
      split
      next hpos =>
        rw [if_pos hpos] at hsame
        exact hsame rfl rfl
      next hpos =>
        rw [if_neg hpos] at hsame
        exact hsame rfl rfl
    next rest htodo =>
      rw [← Option.some.inj h] at hsame ⊢
      exact hsame rfl rfl
    next bs rest htodo =>
      rw [← Option.some.inj h] at hsame ⊢
      exact hsame rfl rfl
  | exit =>
    obtain ⟨-, -, rfl⟩ := exit_eq h
    exact hsame rfl rfl

theorem Transmits.step {m m' : Mysock} {act : Act} (h : Transmits m) (hb : Books m)
    (hstep : m.step act = some m') : Transmits m' := by
  obtain ⟨hwire, hcopy⟩ := Mysock.step_wire hstep hb
  refine ⟨?_, ?_⟩
  · intro p hp
    rcases hwire p hp with hold | hsent | hkept
    · exact Mysock.step_sent hstep (h.wire p hold)
    · exact Mysock.step_sent hstep hsent
    · exact Mysock.step_sent hstep (h.copy p hkept)
  · intro p hp
    rcases hcopy p hp with hsent | hkept
    · exact Mysock.step_sent hstep hsent
    · exact Mysock.step_sent hstep (h.copy p hkept)

theorem Transmits.fresh (ep : Endpoint) (isReliable : Bool) :
    Transmits (Mysock.fresh ep isReliable) :=
  ⟨fun p hp => (by cases hp), fun p hp => by cases hp⟩

end UchiNetworks.Stcp
