import UchiNetworks.Chirc.Host
import UchiNetworks.Chirc.LockOrder
import UchiNetworks.Chirc.Server

/-!
# chirc: deadlocks

Among any number of threads whose sends work, a cycle of threads that wait for each
other is one of two or of three (`deadlock_shape`). One thread holds `lock`, in a loop
over the users, and waits for the `c_lock` of another who is leaving or changing his
nick; this one holds that `c_lock` and waits for `lock`, or for a `chan_lock` whose
holder, leaving the same channel, waits for `lock`.

So while nobody leaves or changes his nick, there is none (`staying_no_deadlock`).
-/

namespace UchiNetworks.Chirc

open UchiNetworks.Lib
open Prog Relation

variable {cfg : Config} {h h' h₀ : Host} {t a b : Uid} {leaving : Bool}
  {held : Uid → List Mutex} {seen : Uid → Uid → CStr}

/-- The threads that wait for each other: the one that holds `lock`, the one whose
`c_lock` it wants, and perhaps the one whose `chan_lock` that one wants. -/
inductive Deadlock (c : Threads Uid Server Mutex Event Fault) : List Uid → Prop
  | two {a b u : Uid} (lock : c.owner .lock = some a) (scans : c.wants a = some (.cLock u))
      (cLock : c.owner (.cLock u) = some b) (waits : c.wants b = some .lock) : Deadlock c [a, b]
  | three {a b d u : Uid} {chan : Cid} (lock : c.owner .lock = some a)
      (scans : c.wants a = some (.cLock u)) (cLock : c.owner (.cLock u) = some b)
      (leaves : c.wants b = some (.chanLock chan)) (chanLock : c.owner (.chanLock chan) = some d)
      (waits : c.wants d = some .lock) : Deadlock c [a, b, d]

/-- All sends work. -/
def sendsWork (_ : Host) : Move → Prop
  | .act _ works => works = true
  | _ => True

/-- All sends work, and nobody leaves or asks for a nick. -/
def staying (_ : Host) : Move → Prop
  | .act _ works => works = true
  | .message _ _ _ ps => commandOf (ps.get 0) ≠ .NICK ∧ commandOf (ps.get 0) ≠ .QUIT
  | .hangup _ => False
  | _ => True

instance (h : Host) : ∀ m, Decidable (sendsWork h m)
  | .act _ works => inferInstanceAs (Decidable (works = true))
  | .accept _ _ => isTrue trivial
  | .enter _ => isTrue trivial
  | .message _ _ _ _ => isTrue trivial
  | .hangup _ => isTrue trivial

instance (h : Host) : ∀ m, Decidable (staying h m)
  | .act _ works => inferInstanceAs (Decidable (works = true))
  | .accept _ _ => isTrue trivial
  | .enter _ => isTrue trivial
  | .message _ _ _ ps =>
    inferInstanceAs (Decidable (commandOf (ps.get 0) ≠ .NICK ∧ commandOf (ps.get 0) ≠ .QUIT))
  | .hangup _ => isFalse id

/-! ## Who waits for what -/

variable {c : Threads Uid Server Mutex Event Fault}

/-- Who holds `lock` waits for nothing but a `c_lock`. -/
theorem wants_of_lock {m : Mutex} (hnested : c.NestedAs (lockOrder leaving) held seen)
    (hin : Mutex.lock ∈ held t) (hwants : c.wants t = some m) : ∃ u, m = .cLock u := by
  obtain ⟨hm, hmay⟩ := hnested.wants hwants
  cases m with
  | lock => exact absurd hin hm
  | chanLock chan => exact absurd hin hmay.1
  | cLock u => exact ⟨u, rfl⟩

/-- Who holds a `chan_lock` waits for nothing but `lock`. -/
theorem wants_of_chanLock {m : Mutex} {chan : Cid} (hnested : c.NestedAs (lockOrder leaving) held seen)
    (hin : Mutex.chanLock chan ∈ held t) (hwants : c.wants t = some m) : m = .lock := by
  obtain ⟨hm, hmay⟩ := hnested.wants hwants
  cases m with
  | lock => rfl
  | chanLock chan' => exact absurd hin (hmay.2.1 chan)
  | cLock u => exact absurd hin (hmay.1 chan)

/-- Who holds anything and waits for a `c_lock` holds `lock`. -/
theorem lock_of_wants {u : Uid} {m : Mutex} (hnested : c.NestedAs (lockOrder leaving) held seen)
    (hin : m ∈ held t) (hwants : c.wants t = some (.cLock u)) : c.owner .lock = some t := by
  obtain ⟨-, hmay⟩ := hnested.wants hwants
  obtain hnil | hlock := hmay.2
  · rw [hnil] at hin
    cases hin
  · exact (hnested.guarded t hlock).1

/-- On a cycle, the one that holds `lock` is in a `Deadlock`. -/
theorem deadlock_of_lock (hnested : c.NestedAs (lockOrder leaving) held seen)
    (hlock : c.owner .lock = some a) (hcycle : TransGen c.Waits a a) :
    ∃ ts, Deadlock c ts ∧ a ∈ ts := by
  obtain ⟨b, ⟨m, hwants, howner⟩, hcycle'⟩ := cycle_next hcycle
  obtain ⟨u, rfl⟩ := wants_of_lock hnested (hnested.owns _ a hlock) hwants
  obtain ⟨d, ⟨m', hwants', howner'⟩, hcycle''⟩ := cycle_next hcycle'
  have hheld := hnested.owns _ b howner
  cases m' with
  | lock => exact ⟨_, .two hlock hwants howner hwants', List.mem_cons_self⟩
  | cLock u' =>
    -- then the other holds `lock` too, so the first waits for himself
    have hself := lock_of_wants hnested hheld hwants'
    rw [← Option.some.inj (hlock.symm.trans hself)] at hheld
    exact absurd hheld (hnested.wants hwants).1
  | chanLock chan =>
    obtain ⟨e, ⟨m'', hwants'', _⟩, _⟩ := cycle_next hcycle''
    have hlast := wants_of_chanLock hnested (hnested.owns _ d howner') hwants''
    rw [hlast] at hwants''
    exact ⟨_, .three hlock hwants howner hwants' howner' hwants'', List.mem_cons_self⟩

/-- Every cycle comes to the one that holds `lock`. -/
theorem cycle_lock (hnested : c.NestedAs (lockOrder leaving) held seen)
    (hcycle : TransGen c.Waits t t) :
    ∃ a, ReflTransGen c.Waits t a ∧ c.owner .lock = some a ∧ TransGen c.Waits a a := by
  obtain ⟨t', hstep, hcycle'⟩ := cycle_next hcycle
  have hwaits := hstep
  obtain ⟨m, hwants, howner⟩ := hstep
  cases m with
  | lock => exact ⟨t', .single hwaits, howner, hcycle'⟩
  | cLock u =>
    obtain ⟨before, m', _, howner'⟩ := cycle_prev hcycle
    exact ⟨t, .refl, lock_of_wants hnested (hnested.owns m' t howner') hwants, hcycle⟩
  | chanLock chan =>
    obtain ⟨t'', hstep', hcycle''⟩ := cycle_next hcycle'
    have hwaits' := hstep'
    obtain ⟨m', hwants', howner'⟩ := hstep'
    have hlast := wants_of_chanLock hnested (hnested.owns _ t' howner) hwants'
    rw [hlast] at howner'
    exact ⟨t'', .tail (.single hwaits) hwaits', howner', hcycle''⟩

theorem Deadlock.closed {ts : List Uid} (hdead : Deadlock c ts) {x y : Uid} (hx : x ∈ ts)
    (hwaits : c.Waits x y) : y ∈ ts := by
  have hnext : ∀ {m z}, c.wants x = some m → c.owner m = some z → z ∈ ts → y ∈ ts := by
    intro m z hwants howner hz
    rw [Threads.waits_unique hwaits ⟨m, hwants, howner⟩]
    exact hz
  cases hdead with
  | two lock scans cLock waits =>
    obtain rfl | hx := List.mem_cons.mp hx
    · exact hnext scans cLock (by simp)
    · obtain rfl := List.mem_singleton.mp hx
      exact hnext waits lock (by simp)
  | three lock scans cLock leaves chanLock waits =>
    obtain rfl | hx := List.mem_cons.mp hx
    · exact hnext scans cLock (by simp)
    · obtain rfl | hx := List.mem_cons.mp hx
      · exact hnext leaves chanLock (by simp)
      · obtain rfl := List.mem_singleton.mp hx
        exact hnext waits lock (by simp)

/-- A deadlock is a cycle. -/
theorem Deadlock.cycle {ts : List Uid} (hdead : Deadlock c ts) (ht : t ∈ ts) :
    TransGen c.Waits t t := by
  cases hdead with
  | @two a b u lock scans cLock waits =>
    have hab : c.Waits a b := ⟨_, scans, cLock⟩
    have hba : c.Waits b a := ⟨_, waits, lock⟩
    obtain rfl | ht := List.mem_cons.mp ht
    · exact .tail (.single hab) hba
    · obtain rfl := List.mem_singleton.mp ht
      exact .tail (.single hba) hab
  | @three a b d u chan lock scans cLock leaves chanLock waits =>
    have hab : c.Waits a b := ⟨_, scans, cLock⟩
    have hbd : c.Waits b d := ⟨_, leaves, chanLock⟩
    have hda : c.Waits d a := ⟨_, waits, lock⟩
    obtain rfl | ht := List.mem_cons.mp ht
    · exact .tail (.tail (.single hab) hbd) hda
    · obtain rfl | ht := List.mem_cons.mp ht
      · exact .tail (.tail (.single hbd) hda) hab
      · obtain rfl := List.mem_singleton.mp ht
        exact .tail (.tail (.single hda) hab) hbd

theorem cycle_deadlock (hnested : c.NestedAs (lockOrder leaving) held seen)
    (hcycle : TransGen c.Waits t t) : ∃ ts, Deadlock c ts ∧ t ∈ ts := by
  obtain ⟨a, hreach, hlock, hcycle'⟩ := cycle_lock hnested hcycle
  obtain ⟨ts, hdead, ha⟩ := deadlock_of_lock hnested hlock hcycle'
  have hunique : ∀ x y z, c.Waits x y → c.Waits x z → y = z := fun _ _ _ => Threads.waits_unique
  have hclosed : ∀ x y, x ∈ ts → c.Waits x y → y ∈ ts := fun _ _ => hdead.closed
  exact ⟨ts, hdead, cycle_closed hunique hclosed hcycle hreach ha⟩

/-- Where a `c_lock` is only taken last, there is no deadlock. -/
theorem no_deadlock {ts : List Uid} (hnested : c.NestedAs (lockOrder false) held seen) :
    ¬ Deadlock c ts := by
  intro hdead
  cases hdead with
  | two lock scans cLock waits =>
    obtain hleaving | hfree := (hnested.wants waits).2
    · cases hleaving
    · exact hfree _ (hnested.owns _ _ cLock)
  | three lock scans cLock leaves chanLock waits =>
    obtain hleaving | hfree := (hnested.wants leaves).2.2.2
    · cases hleaving
    · exact hfree _ (hnested.owns _ _ cLock)

/-! ## Runs -/

/-- A step keeps the nesting, if the program that begins has it. -/
theorem nested_step {m : Move} (hnested : h.toThreads.Nested (lockOrder leaving))
    (hworks : sendsWork h m) (hbegins : leaving = false → staying h m)
    (hto : h.step cfg m = some h') : h'.toThreads.Nested (lockOrder leaving) := by
  cases step_cases hto with
  | accept hnew => exact hnested
  | enter hfree hat => exact hnested.outside hfree _
  | message hthere => exact hnested.setTodo (begin_idle hto) (parse_neat hbegins)
  | hangup hthere =>
    cases leaving with
    | false => exact absurd (hbegins rfl) id
    | true => exact hnested.setTodo (begin_idle hto) disconnect_neat
  | act hacts =>
    obtain rfl : _ = true := hworks
    exact hnested.act hacts

theorem nested_init : Host.init.toThreads.Nested (lockOrder leaving) := by
  refine ⟨fun _ => [], fun _ => nicks .init, ⟨fun _ => rfl, fun _ => List.nodup_nil, ?_, ?_⟩⟩
  · intro m t howner
    cases howner
  · intro t hin
    cases hin

theorem nested_run {moves : List Move} (hpath : Path (Host.step cfg) sendsWork .init moves h) :
    h.toThreads.Nested (lockOrder true) :=
  hpath.invariant (fun h => h.toThreads.Nested (lockOrder true)) nested_init
    fun _ _ _ hok hto hn => nested_step hn hok (fun hfalse => by cases hfalse) hto

/-- **A cycle of waiting threads is a deadlock of this shape**, and nothing else is, in
every run of any number of threads in which sends work. -/
theorem deadlock_shape {moves : List Move} (hpath : Path (Host.step cfg) sendsWork .init moves h) :
    TransGen h.Waits t t ↔ ∃ ts, Deadlock h.toThreads ts ∧ t ∈ ts := by
  obtain ⟨held, seen, hnested⟩ := nested_run hpath
  constructor
  · intro hcycle
    exact cycle_deadlock hnested hcycle
  · intro ⟨ts, hdead, ht⟩
    exact hdead.cycle ht

/-- One client asks how many users there are while another hangs up. -/
def lusersMeetsHangup : List Move :=
  [.accept 4 [], .enter 0, .accept 5 [], .enter 0, .hangup 1] ++ acts 1 11 ++
    [.line 0 ["LUSERS"]] ++ acts 0 15

theorem deadlock_shape_hangup : ∃ h : Host, TransGen h.Waits 0 0 := by
  have hends : (follow (guarded (Host.step .plain) sendsWork) .init lusersMeetsHangup).any (fun h =>
      h.owner .lock = some 0 ∧ h.wants 0 = some (.cLock 1) ∧ h.owner (.cLock 1) = some 1 ∧
        h.wants 1 = some .lock) = true := by decide +kernel
  have hreached : ∃ h, Path (guarded (Host.step .plain) sendsWork) anyMove .init lusersMeetsHangup h ∧ _ :=
    exists_of_follow (fun _ _ _ => trivial) hends
  obtain ⟨h, hpath, hall⟩ := hreached
  obtain ⟨hlock, hscans, hcLock, hwaits⟩ := of_decide_eq_true hall
  exact ⟨h, (deadlock_shape hpath.of_guarded).mpr
    ⟨_, .two hlock hscans hcLock hwaits, List.mem_cons_self⟩⟩

/-- **While nobody leaves or asks for a nick there is no deadlock**, from any state that
is reached while sends work and in which all threads are idle. -/
theorem staying_no_deadlock {moves₀ moves : List Move}
    (hreach : Path (Host.step cfg) sendsWork .init moves₀ h₀) (hidle : ∀ t, h₀.todo t = ret ())
    (hpath : Path (Host.step cfg) staying h₀ moves h) : ¬ TransGen h.Waits t t := by
  -- idle threads hold nothing, so from here on the stricter order counts
  have hstart : h₀.toThreads.Nested (lockOrder false) := by
    obtain ⟨held, seen, hn⟩ := nested_run hreach
    refine ⟨held, seen, ⟨fun t => ?_, hn.nodup, hn.owns, hn.guarded⟩⟩
    have hfree := hn.nests t
    rw [hidle t] at hfree ⊢
    exact hfree
  have hworks : ∀ h m, staying h m → sendsWork h m := by
    intro h m hok
    cases m with
    | act t works => exact hok
    | accept _ _ | enter _ | message _ _ _ | hangup _ => trivial
  obtain ⟨held, seen, hnested⟩ := hpath.invariant (fun h => h.toThreads.Nested (lockOrder false))
    hstart fun _ _ _ hok hto hn => nested_step hn (hworks _ _ hok) (fun _ => hok) hto
  intro hcycle
  obtain ⟨ts, hdead, _⟩ := cycle_deadlock hnested hcycle
  exact no_deadlock hnested hdead

/-- Two clients connect. -/
def twoConnect : List Move := [.accept 4 [], .enter 0, .accept 5 [], .enter 0]

/-- Both ask how many users there are, and one keeps the other waiting. -/
def twoAsk : List Move :=
  [.line 0 ["LUSERS"], .line 1 ["LUSERS"]] ++ acts 0 15 ++ acts 1 1

theorem staying_no_deadlock_two : ∃ h : Host, h.Waits 1 0 ∧ ¬ TransGen h.Waits 1 1 := by
  have hruns : (follow (guarded (Host.step .plain) sendsWork) .init twoConnect).any (fun h₀ =>
      h₀.state.nextUid = 2 ∧ returned (h₀.todo 0) ∧ returned (h₀.todo 1) ∧
      (follow (guarded (Host.step .plain) staying) h₀ twoAsk).any (fun h =>
        h.wants 1 = some .lock ∧ h.owner .lock = some 0)) = true := by decide +kernel
  have hreached : ∃ h₀, Path (guarded (Host.step .plain) sendsWork) anyMove .init twoConnect h₀ ∧ _ :=
    exists_of_follow (fun _ _ _ => trivial) hruns
  obtain ⟨h₀, hreach, hends⟩ := hreached
  obtain ⟨hnext, hzero, hone, hstart⟩ := of_decide_eq_true hends
  have hasked : ∃ h, Path (guarded (Host.step .plain) staying) anyMove h₀ twoAsk h ∧ _ :=
    exists_of_follow (fun _ _ _ => trivial) hstart
  obtain ⟨h, hpath, hwaits⟩ := hasked
  obtain ⟨hwants, howner⟩ := of_decide_eq_true hwaits
  have hidle : ∀ t, h₀.todo t = ret ()
    | 0 => eq_ret_of_returned hzero
    | 1 => eq_ret_of_returned hone
    | t + 2 => (idle_of_unentered hreach.of_guarded).2 _ (hnext ▸ Nat.le_add_left 2 t)
  exact ⟨h, ⟨_, hwants, howner⟩, staying_no_deadlock hreach.of_guarded hidle hpath.of_guarded⟩

end UchiNetworks.Chirc
