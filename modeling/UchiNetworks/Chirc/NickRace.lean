import UchiNetworks.Chirc.Host
import UchiNetworks.Chirc.Server

/-!
# chirc: one nick, two threads

NICK looks for the new nick in one section under `lock` and writes it in another.
Between the two its thread is `PastCheck`: it will write, whatever it sees from now
on. If two threads are there with the same nick at once, both users get it
(`nick_taken_twice`). Otherwise no two users ever have one nick (`nicks_stay_unique`).
-/

namespace UchiNetworks.Chirc

open UchiNetworks.Lib
open Prog

variable {cfg : Config} {h h' : Host} {t t' : Uid} {n : CStr} {stale : Nat → Nat}

/-- Somebody in `userlist` has the nick. -/
def Taken (n : CStr) (s : Server) : Prop := ∃ u ∈ s.userlist.items, (s.persons u).nick = n

/-- The change gives nobody the nick. -/
def Spares (n : CStr) (f : Server → Server) : Prop :=
  ∀ s u, ((f s).persons u).nick = n → (s.persons u).nick = n

/-- The program may give the nick to somebody even if it sees from now on that it is
taken. -/
def PastCheck (n : CStr) (p : Act Unit) : Prop := ¬ p.Writes (Taken n) (Spares n)

/-- The next action of `t` is the look at `userlist` that finds the nick free. -/
def Passes (h : Host) (t : Uid) (n : CStr) : Prop :=
  ¬ PastCheck n (h.todo t) ∧ ∃ k, h.todo t = .read k ∧ PastCheck n (k h.state)

/-- Nobody finds a nick free that another is about to write. -/
def Unraced (h : Host) : Move → Prop
  | .act t _ => ∀ n t', n ≠ [] → Passes h t n → t' ≠ t → ¬ PastCheck n (h.todo t')
  | _ => True

/-- No two users in `userlist` have the same nick. -/
def NicksUnique (s : Server) : Prop := ∀ u ∈ s.userlist.items, ∀ v ∈ s.userlist.items,
  (s.persons u).nick = (s.persons v).nick → (s.persons u).nick ≠ [] → u = v

/-! ## The check -/

theorem Calm.spares {f : Server → Server} (hf : Calm f) : Spares n f := by
  intro s u hu
  rw [← hf.nick s u]
  exact hu

theorem spares_rename {user : Uid} {m : CStr} (hne : m ≠ n) : Spares n (rename user m) := by
  intro s u hu
  by_cases huser : u = user
  · rw [huser, rename_nick_self] at hu
    exact absurd hu hne
  · rw [rename_nick_ne huser] at hu
    exact hu

theorem not_spares_rename {user : Uid} (hn : n ≠ []) : ¬ Spares n (rename user n) := by
  intro hspares
  have hempty : (Server.init.persons user).nick = n :=
    hspares .init user (rename_nick_self user n .init)
  exact hn hempty.symm

theorem not_pastCheck_of_calm {p : Act Unit} (h : p.Writes anyState Calm) : ¬ PastCheck n p :=
  fun hpast => hpast (h.mono (fun _ _ => trivial) fun _ => Calm.spares)

/-- **The check comes before the write**: a thread that begins with a message has passed
no check. -/
theorem parse_checks {self : Uid} {fuel : Nat} {params : Params} (hn : n ≠ []) :
    ¬ PastCheck n (parse cfg self stale fuel params) := by
  intro hpast
  refine hpast (parse_writes (fun _ => Calm.spares) fun user _ hfree => ?_)
  obtain ⟨s, ⟨u, hu, hnick⟩, hnone⟩ := hfree
  apply spares_rename
  intro heq
  exact seekNick_none hnone (by rw [heq]; exact hn) u hu (hnick.trans heq.symm)

/-- What a thread is past after its action it was past before, or it passes the check
now. -/
theorem pastCheck_acts {works : Bool} {c : Threads Uid Server Mutex Event Fault}
    (hacts : h.toThreads.Acts t works c) (hpast : PastCheck n (c.todo t)) :
    PastCheck n (h.todo t) ∨ Passes h t n := by
  by_cases hbefore : PastCheck n (h.todo t)
  · exact Or.inl hbefore
  · obtain hafter | ⟨k, hdo, hto⟩ := hacts.writes_or_read (Classical.not_not.mp hbefore)
    · exact absurd hafter hpast
    · rw [hto] at hpast
      exact Or.inr ⟨hbefore, k, hdo, hpast⟩

/-- Who passes the check has found the nick free. -/
theorem Passes.not_taken (hp : Passes h t n) : ¬ Taken n h.state := by
  obtain ⟨hbefore, k, hdo, hpast⟩ := hp
  intro htaken
  rw [hdo] at hbefore
  exact hbefore fun hw => hpast (hw h.state htaken)

/-! ## The invariant -/

/-- What a run without races keeps: a nick that a thread is about to write is free, and
no other thread is about to write it. -/
structure NickInv (h : Host) : Prop extends Founded h where
  settles : ∀ t, (h.todo t).Settles Calm
  unique : NicksUnique h.state
  free : ∀ t n, n ≠ [] → PastCheck n (h.todo t) → ¬ Taken n h.state
  alone : ∀ t t' n, n ≠ [] → PastCheck n (h.todo t) → PastCheck n (h.todo t') → t' = t

theorem nickInv_init : NickInv .init where
  toFounded := founded_init
  settles _ := trivial
  unique _ hu := absurd hu List.not_mem_nil
  free _ _ _ hpast := absurd trivial hpast
  alone _ _ _ _ hpast := absurd trivial hpast

/-- A step that changes nobody's nick, lets nobody in, and takes no thread past a check
that another is past. -/
theorem NickInv.of_same (hh : NickInv h) (hfounded : Founded h')
    (hlist : h'.state.userlist.items.Sublist h.state.userlist.items)
    (hnick : ∀ u, (h'.state.persons u).nick = (h.state.persons u).nick)
    (hsettles : ∀ t, (h'.todo t).Settles Calm)
    (hpast : ∀ t n, n ≠ [] → PastCheck n (h'.todo t) → PastCheck n (h.todo t) ∨
      ¬ Taken n h.state ∧ ∀ t' ≠ t, ¬ PastCheck n (h'.todo t')) : NickInv h' where
  toFounded := hfounded
  settles := hsettles
  unique u hu v hv := by
    rw [hnick, hnick]
    exact hh.unique u (hlist.subset hu) v (hlist.subset hv)
  free t n hn hp := by
    intro htaken
    obtain ⟨u, hu, hsame⟩ := htaken
    have htaken : Taken n h.state := ⟨u, hlist.subset hu, by rw [← hnick]; exact hsame⟩
    obtain hbefore | ⟨hfree, _⟩ := hpast t n hn hp
    · exact hh.free t n hn hbefore htaken
    · exact hfree htaken
  alone t t' n hn hp hp' := by
    by_cases hne : t' = t
    · exact hne
    · obtain hbefore | ⟨_, halone⟩ := hpast t n hn hp
      · obtain hbefore' | ⟨_, halone'⟩ := hpast t' n hn hp'
        · exact hh.alone t t' n hn hbefore hbefore'
        · exact absurd hp (halone' t (Ne.symm hne))
      · exact absurd hp' (halone t' hne)

/-- The write of a nick, by a thread that is past its check. -/
theorem NickInv.rename (hh : NickInv h) {user : Uid} {m : CStr} {k : Act Unit}
    (hdo : h.todo t = .write (rename user m) k) (hrest : k.Writes anyState Calm)
    (hfounded : Founded h') (hstate : h'.state = Chirc.rename user m h.state)
    (htodo : ∀ t', h'.todo t' = if t' = t then k else h.todo t') : NickInv h' := by
  have hself : ∀ n, ¬ PastCheck n (h'.todo t) := by
    intro n
    rw [htodo, if_pos rfl]
    exact not_pastCheck_of_calm hrest
  have hother : ∀ t' n, PastCheck n (h'.todo t') → t' ≠ t ∧ PastCheck n (h.todo t') := by
    intro t' n hp
    have hne : t' ≠ t := by
      intro heq
      rw [heq] at hp
      exact hself n hp
    rw [htodo, if_neg hne] at hp
    exact ⟨hne, hp⟩
  -- the thread is past the check for the nick that it writes
  have hmine : m ≠ [] → PastCheck m (h.todo t) := by
    intro hm hw
    rw [hdo] at hw
    exact not_spares_rename hm hw.1
  refine ⟨hfounded, fun t' => ?_, ?_, ?_, ?_⟩
  · rw [htodo]
    split
    · exact .of_writes hrest
    · exact hh.settles t'
  · intro u hu v hv hsame hne
    rw [hstate] at hu hv hsame hne
    have hnew : ∀ w ∈ h.state.userlist.items, w ≠ user → (h.state.persons w).nick = m → m ≠ [] → False :=
      fun w hw _ hnick hm => hh.free t m hm (hmine hm) ⟨w, hw, hnick⟩
    by_cases huser : u = user
    · by_cases hvuser : v = user
      · rw [huser, hvuser]
      · rw [huser, rename_nick_self] at hsame hne
        rw [rename_nick_ne hvuser] at hsame
        exact (hnew v hv hvuser hsame.symm hne).elim
    · rw [rename_nick_ne huser] at hsame hne
      by_cases hvuser : v = user
      · rw [hvuser, rename_nick_self] at hsame
        exact (hnew u hu huser hsame (hsame ▸ hne)).elim
      · rw [rename_nick_ne hvuser] at hsame
        exact hh.unique u hu v hv hsame hne
  · intro t' n hn hp htaken
    obtain ⟨hne, hbefore⟩ := hother t' n hp
    obtain ⟨u, hu, hnick⟩ := htaken
    rw [hstate] at hu hnick
    by_cases huser : u = user
    · rw [huser, rename_nick_self] at hnick
      subst hnick
      exact hne (hh.alone t t' m hn (hmine hn) hbefore)
    · rw [rename_nick_ne huser] at hnick
      exact hh.free t' n hn hbefore ⟨u, hu, hnick⟩
  · intro t₁ t₂ n hn hp₁ hp₂
    exact hh.alone t₁ t₂ n hn (hother t₁ n hp₁).2 (hother t₂ n hp₂).2

/-- An action that changes no nick. -/
theorem NickInv.act (hh : NickInv h) (hfounded : Founded h') {works : Bool}
    (hacts : h.toThreads.Acts t works h'.toThreads)
    (hrace : ∀ n t', n ≠ [] → Passes h t n → t' ≠ t → ¬ PastCheck n (h.todo t'))
    (hlist : h'.state.userlist.items.Sublist h.state.userlist.items)
    (hnick : ∀ u, (h'.state.persons u).nick = (h.state.persons u).nick) : NickInv h' := by
  refine hh.of_same hfounded hlist hnick (fun t' => ?_) fun t' n hn hp => ?_
  · by_cases ht : t' = t
    · rw [ht]
      exact hacts.settles (hh.settles t)
    · rw [hacts.todo_ne ht]
      exact hh.settles t'
  · by_cases ht : t' = t
    · rw [ht] at hp ⊢
      obtain hbefore | hpasses := pastCheck_acts hacts hp
      · exact Or.inl hbefore
      · refine Or.inr ⟨hpasses.not_taken, fun t₂ hne => ?_⟩
        rw [hacts.todo_ne hne]
        exact hrace n t₂ hn hpasses hne
    · rw [hacts.todo_ne ht] at hp
      exact Or.inl hp

/-- A thread begins with a program that is past no check. -/
theorem NickInv.setTodo (hh : NickInv h) {p : Act Unit} (hw : p.Writes anyState Renames)
    (hs : p.Settles Calm) (hpast : ∀ n, n ≠ [] → ¬ PastCheck n p) :
    NickInv { h with toThreads := h.setTodo t p } := by
  refine hh.of_same (hh.toFounded.setTodo hw) (List.Sublist.refl _) (fun _ => rfl) (fun t' => ?_)
    fun t' n hn hp => Or.inl ?_
  · show (if t' = t then p else h.todo t').Settles Calm
    split
    · exact hs
    · exact hh.settles t'
  · have hp : PastCheck n (if t' = t then p else h.todo t') := hp
    split at hp
    · exact absurd hp (hpast n hn)
    · exact hp

theorem disconnect_checks {self : Uid} (n : CStr) : ¬ PastCheck n (disconnect self) :=
  not_pastCheck_of_calm disconnect_calm

/-- A newcomer has no nick. -/
theorem arrive_nick {s : Server} {fd : Nat} {address : CStr} {u : Uid}
    (hlisted : ∀ u ∈ s.userlist.items, u < s.nextUid) (hu : u ∈ (s.arrive fd address).userlist.items) :
    ((s.arrive fd address).persons u).nick = [] ∨
      u ∈ s.userlist.items ∧ ((s.arrive fd address).persons u).nick = (s.persons u).nick := by
  obtain hold | rfl := mem_arrive hu
  · exact Or.inr ⟨hold, by rw [arrive_old (hlisted u hold)]⟩
  · exact Or.inl (by rw [arrive_new])

theorem NickInv.step (hh : NickInv h) {m : Move} (hrace : Unraced h m)
    (hto : h.step cfg m = some h') : NickInv h' := by
  have hfounded := hh.toFounded.step hto
  cases step_cases hto with
  | accept hnew => exact ⟨hfounded, hh.settles, hh.unique, hh.free, hh.alone⟩
  | @enter _ fd address hfree hat =>
    refine ⟨hfounded, hh.settles, fun u hu v hv hsame hne => ?_, fun t n hn hp htaken => ?_, hh.alone⟩
    · obtain hnone | ⟨hu', hold⟩ := arrive_nick hh.listed hu
      · exact absurd hnone hne
      · obtain hnone | ⟨hv', hold'⟩ := arrive_nick hh.listed hv
        · rw [hnone] at hsame
          exact absurd hsame hne
        · exact hh.unique u hu' v hv' (by rw [← hold, ← hold']; exact hsame)
            (by rw [← hold]; exact hne)
    · obtain ⟨u, hu, hnick⟩ := htaken
      obtain hnone | ⟨hu', hold⟩ := arrive_nick hh.listed hu
      · exact hn (hnick.symm.trans hnone)
      · exact hh.free t n hn hp ⟨u, hu', by rw [← hold]; exact hnick⟩
  | message hthere => exact hh.setTodo parse_renames parse_settles fun n => parse_checks
  | hangup hthere =>
    exact hh.setTodo disconnect_renames (.of_writes disconnect_calm) fun n _ => disconnect_checks n
  | @act t works c hacts =>
    have hact := hacts
    cases hacts with
    | lock hdo hfree => exact hh.act hfounded hact hrace (.refl _) fun _ => rfl
    | unlock hdo => exact hh.act hfounded hact hrace (.refl _) fun _ => rfl
    | emit hdo => exact hh.act hfounded hact hrace (.refl _) fun _ => rfl
    | read hdo => exact hh.act hfounded hact hrace (.refl _) fun _ => rfl
    | @write f k hdo =>
      have hsettles := hh.settles t
      have hwrites := hh.renames t
      rw [hdo] at hsettles hwrites
      by_cases hcalm : Calm f
      · exact hh.act hfounded hact hrace (hcalm.userlist _) fun u => hcalm.nick _ u
      · obtain hcalm' | ⟨user, m, rfl⟩ := hwrites.1
        · exact absurd hcalm' hcalm
        · exact hh.rename hdo (hsettles.2 hcalm) hfounded rfl fun _ => rfl

/-- **No two users in `userlist` have the same nick** in any run in which nobody finds a
nick free that another thread is about to write. -/
theorem nicks_stay_unique (cfg : Config) {moves : List Move}
    (hpath : Path (Host.step cfg) Unraced .init moves h) : NicksUnique h.state := by
  have hinv : NickInv h :=
    hpath.invariant NickInv nickInv_init fun _ _ _ hrace hto hh => hh.step hrace hto
  exact hinv.unique

/-- Whoever acts, the others have nothing to do. -/
def Alone (h : Host) : Move → Prop
  | .act t _ => ∀ t' ∈ List.range h.state.nextUid, t' ≠ t → returned (h.todo t') = true
  | _ => True

instance (h : Host) : ∀ m, Decidable (Alone h m)
  | .act t _ => inferInstanceAs (Decidable (∀ t' ∈ List.range h.state.nextUid, t' ≠ t → _))
  | .accept _ _ | .enter _ | .message _ _ _ _ | .hangup _ => isTrue trivial

/-- Threads that act one at a time do not race. -/
theorem unraced_of_alone {moves : List Move} (hpath : Path (Host.step cfg) Alone .init moves h) :
    Path (Host.step cfg) Unraced .init moves h := by
  induction hpath with
  | nil => exact .nil
  | @snoc moves h h' m hbefore halone hto ih =>
    refine .snoc ih ?_ hto
    cases m with
    | act t works =>
      intro n t' _ _ hne hpast
      have hidle : h.todo t' = ret () := by
        by_cases hold : t' < h.state.nextUid
        · exact eq_ret_of_returned (halone t' (List.mem_range.mpr hold) hne)
        · exact (idle_of_unentered hbefore).2 t' (Nat.le_of_not_lt hold)
      rw [hidle] at hpast
      exact hpast trivial
    | accept | enter | message | hangup => trivial

/-- Two clients connect; the second asks for the nick that the first has, is refused,
and takes another. -/
def nickRefused : List Move :=
  [.accept 4 [], .enter 0, .accept 5 [], .enter 0, .line 0 ["NICK", "a"]] ++ acts 0 12 ++
    [.line 1 ["NICK", "a"]] ++ acts 1 12 ++ [.line 1 ["NICK", "b"]] ++ acts 1 12

theorem nicks_stay_unique_two : ∃ h : Host,
    Path (Host.step .plain) Unraced .init nickRefused h ∧ h.state.userlist.items = [0, 1] ∧
      (h.state.persons 0).nick = str "a" ∧ (h.state.persons 1).nick = str "b" ∧
      h.out.map Prod.fst = [1] ∧ NicksUnique h.state := by
  have hends : (follow (guarded (Host.step .plain) Alone) .init nickRefused).any (fun h =>
      h.state.userlist.items = [0, 1] ∧ (h.state.persons 0).nick = str "a" ∧
        (h.state.persons 1).nick = str "b" ∧ h.out.map Prod.fst = [1]) = true := by decide +kernel
  have hreached : ∃ h, Path (guarded (Host.step .plain) Alone) anyMove .init nickRefused h ∧ _ :=
    exists_of_follow (fun _ _ _ => trivial) hends
  obtain ⟨h, hpath, hruns⟩ := hreached
  obtain ⟨hlist, hzero, hone, htold⟩ := of_decide_eq_true hruns
  have hunraced := unraced_of_alone hpath.of_guarded
  exact ⟨h, hunraced, hlist, hzero, hone, htold, nicks_stay_unique .plain hunraced⟩

/-- Both clients look for the nick before either takes it. -/
def nickTwice : List Move :=
  [.accept 4 [], .enter 0, .accept 5 [], .enter 0, .line 0 ["NICK", "a"], .line 1 ["NICK", "a"]] ++
    acts 0 7 ++ acts 1 7 ++ acts 0 4 ++ acts 1 4

theorem nick_taken_twice : ¬ ∀ (cfg : Config) (moves : List Move) (h : Host),
    Path (Host.step cfg) anyMove .init moves h → NicksUnique h.state := by
  intro hall
  have hboth : (follow (Host.step .plain) .init nickTwice).any (fun h =>
      h.state.userlist.items = [0, 1] ∧ (h.state.persons 0).nick = str "a" ∧
        (h.state.persons 1).nick = str "a") = true := by decide +kernel
  have hreached : ∃ h, Path (Host.step .plain) anyMove .init nickTwice h ∧ _ :=
    exists_of_follow (fun _ _ _ => trivial) hboth
  obtain ⟨h, hpath, hends⟩ := hreached
  obtain ⟨hlist, hzero, hone⟩ := of_decide_eq_true hends
  have hsame : (0 : Uid) = 1 := hall .plain nickTwice h hpath 0 (by rw [hlist]; simp) 1
    (by rw [hlist]; simp) (by rw [hzero, hone]) (by rw [hzero]; decide)
  exact absurd hsame (by decide)

end UchiNetworks.Chirc
