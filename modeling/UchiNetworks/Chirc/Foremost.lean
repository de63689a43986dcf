import UchiNetworks.Chirc.Host
import UchiNetworks.Chirc.Server

/-!
# chirc: whom a descriptor finds

Several records in `userlist` may carry one descriptor, and a seek for it returns the
first of them. A record behind another is never acted for, so it never gets a nick;
and who is first stays first while he is there, since newcomers are appended. So who
has a nick is the one that his descriptor finds (`named_is_found`), whatever
descriptors `accept` returns.
-/

namespace UchiNetworks.Chirc

open UchiNetworks.Lib
open Prog

variable {cfg : Config} {h h' : Host} {s : Server} {u v : Uid} {fd : Nat} {stale : Nat → Nat}

/-- `userlist` is in the order of arrival. -/
def InOrder (s : Server) : Prop :=
  s.userlist.items.Pairwise (· < ·) ∧ ∀ u ∈ s.userlist.items, u < s.nextUid

/-- A record before that of `v` carries his descriptor, or he has not arrived. -/
def Behind (v : Uid) (s : Server) : Prop :=
  InOrder s ∧ (s.nextUid ≤ v ∨
    ∃ w ∈ s.userlist.items, w < v ∧ (s.persons w).clientSocket = (s.persons v).clientSocket)

/-- The change leaves the nick of `v`. -/
def LeavesNick (v : Uid) (f : Server → Server) : Prop :=
  ∀ s, ((f s).persons v).nick = (s.persons v).nick

/-- The program may change the nick of `v` even if it only sees states in which he is
behind another. -/
def MayName (v : Uid) (p : Act Unit) : Prop := ¬ p.Writes (Behind v) (LeavesNick v)

/-! ## The seek -/

/-- In order of arrival, the seek returns the first who carries the descriptor. -/
theorem seekFd_first (hs : InOrder s) (hfound : s.seekFd fd = some v) :
    v ∈ s.userlist.items ∧ (s.persons v).clientSocket = fd ∧
      ∀ w ∈ s.userlist.items, (s.persons w).clientSocket = fd → v ≤ w := by
  obtain ⟨hv, before, after, hsplit, hmiss⟩ := List.find?_eq_some_iff_append.mp hfound
  have hfd : (s.persons v).clientSocket = fd := of_decide_eq_true hv
  refine ⟨List.mem_of_find?_eq_some hfound, hfd, fun w hw hsame => ?_⟩
  have hsorted := hs.1
  rw [hsplit] at hw hsorted
  obtain hearly | hlate := List.mem_append.mp hw
  · have hno := hmiss w hearly
    simp [hsame] at hno
  · obtain rfl | hlate := List.mem_cons.mp hlate
    · exact Nat.le_refl _
    · have hafter := (List.pairwise_append.mp hsorted).2.1
      exact Nat.le_of_lt ((List.pairwise_cons.mp hafter).1 w hlate)

theorem not_behind_of_seek (hfound : s.seekFd fd = some v) : ¬ Behind v s := by
  intro hbehind
  obtain ⟨hs, hcase⟩ := hbehind
  obtain ⟨hin, hfd, hfirst⟩ := seekFd_first hs hfound
  obtain hout | ⟨w, hw, hlt, hsame⟩ := hcase
  · exact absurd (hs.2 v hin) (Nat.not_lt.mpr hout)
  · exact absurd (hfirst w hw (hsame.trans hfd)) (Nat.not_le.mpr hlt)

theorem seek_of_not_behind (hs : InOrder s) (hin : v ∈ s.userlist.items) (hfirst : ¬ Behind v s) :
    s.seekFd (s.persons v).clientSocket = some v := by
  cases hfound : s.seekFd (s.persons v).clientSocket with
  | none =>
    have hmiss := List.find?_eq_none.mp hfound v hin
    simp at hmiss
  | some w =>
    obtain ⟨hw, hfd, hleast⟩ := seekFd_first hs hfound
    have hle : w ≤ v := hleast v hin rfl
    obtain hlt | rfl := Nat.lt_or_eq_of_le hle
    · exact absurd ⟨hs, Or.inr ⟨w, hw, hlt, hfd⟩⟩ hfirst
    · rfl

/-! ## What a step does -/

theorem Renames.inOrder {f : Server → Server} (hf : Renames f) (hs : InOrder s) : InOrder (f s) := by
  refine ⟨hs.1.sublist (hf.userlist s), fun u hu => ?_⟩
  rw [hf.nextUid]
  exact hs.2 u ((hf.userlist s).subset hu)

theorem Renames.not_behind {f : Server → Server} (hf : Renames f) (hs : InOrder s)
    (hfirst : ¬ Behind v s) : ¬ Behind v (f s) := by
  intro hbehind
  refine hfirst ⟨hs, ?_⟩
  obtain ⟨_, hout | ⟨w, hw, hlt, hsame⟩⟩ := hbehind
  · rw [hf.nextUid] at hout
    exact Or.inl hout
  · rw [hf.clientSocket, hf.clientSocket] at hsame
    exact Or.inr ⟨w, (hf.userlist s).subset hw, hlt, hsame⟩

theorem arrive_inOrder (hs : InOrder s) (fd : Nat) (address : CStr) :
    InOrder (s.arrive fd address) := by
  refine ⟨?_, fun u hu => ?_⟩
  · show (s.userlist.append s.nextUid).items.Pairwise (· < ·)
    unfold SimList.append
    split
    · exact hs.1
    · refine List.pairwise_append.mpr ⟨hs.1, List.pairwise_singleton _ _, fun a ha b hb => ?_⟩
      rw [List.mem_singleton.mp hb]
      exact hs.2 a ha
  · obtain hold | rfl := mem_arrive hu
    · exact Nat.lt_succ_of_lt (hs.2 u hold)
    · exact Nat.lt_succ_self _

theorem arrive_not_behind (hs : InOrder s) (address : CStr) (hfirst : ¬ Behind v s) :
    ¬ Behind v (s.arrive fd address) := by
  have hthere : v < s.nextUid := Nat.not_le.mp fun hout => hfirst ⟨hs, Or.inl hout⟩
  intro hbehind
  obtain ⟨_, hout | ⟨w, hw, hlt, hsame⟩⟩ := hbehind
  · exact absurd (Nat.lt_succ_of_lt hthere) (Nat.not_lt.mpr hout)
  · obtain hold | rfl := mem_arrive hw
    · rw [arrive_old (hs.2 w hold), arrive_old hthere] at hsame
      exact hfirst ⟨hs, Or.inr ⟨w, hold, hlt, hsame⟩⟩
    · exact absurd hlt (Nat.not_lt.mpr (Nat.le_of_lt hthere))

theorem not_mayName_of_calm {p : Act Unit} (h : p.Writes anyState Calm) : ¬ MayName v p :=
  fun hmay => hmay (h.mono (fun _ _ => trivial) fun _ hf s => hf.nick s v)

/-- A thread that begins with a message may name nobody who is behind another. -/
theorem parse_names {self : Uid} {fuel : Nat} {params : Params} :
    ¬ MayName v (parse cfg self stale fuel params) := by
  intro hmay
  refine hmay (parse_writes (fun _ hf s => hf.nick s v) fun user hfound _ => ?_)
  obtain ⟨s, fd, hbehind, hseek⟩ := hfound
  have hne : v ≠ user := by
    intro heq
    rw [← heq] at hseek
    exact not_behind_of_seek hseek hbehind
  exact fun s => rename_nick_ne hne _ s

/-- What every run keeps: who has a nick, or is about to get one, is behind nobody. -/
structure NamedFirst (h : Host) : Prop extends Founded h where
  order : InOrder h.state
  may : ∀ t v, MayName v (h.todo t) → ¬ Behind v h.state
  named : ∀ v, (h.state.persons v).nick ≠ [] → ¬ Behind v h.state

theorem namedFirst_init : NamedFirst .init where
  toFounded := founded_init
  order := ⟨List.Pairwise.nil, fun _ hu => absurd hu List.not_mem_nil⟩
  may _ _ hmay := absurd trivial hmay
  named _ hnick := absurd rfl hnick

theorem NamedFirst.setTodo (hh : NamedFirst h) {self : Uid} {p : Act Unit}
    (hw : p.Writes anyState Renames) (hp : ∀ v, ¬ MayName v p) :
    NamedFirst { h with toThreads := h.setTodo self p } where
  toFounded := hh.toFounded.setTodo hw
  order := hh.order
  may t v hmay := by
    have hmay : MayName v (if t = self then p else h.todo t) := hmay
    split at hmay
    · exact absurd hmay (hp v)
    · exact hh.may t v hmay
  named := hh.named

theorem NamedFirst.step (hh : NamedFirst h) {m : Move} (hto : h.step cfg m = some h') :
    NamedFirst h' := by
  have hfounded := hh.toFounded.step hto
  cases step_cases hto with
  | accept hnew => exact ⟨hfounded, hh.order, hh.may, hh.named⟩
  | @enter _ fd address hfree hat =>
    refine ⟨hfounded, arrive_inOrder hh.order fd address,
      fun t v hmay => arrive_not_behind hh.order address (hh.may t v hmay), fun v hnick => ?_⟩
    refine arrive_not_behind hh.order address (hh.named v fun hnone => hnick ?_)
    show (if v = h.state.nextUid then _ else h.state.persons v).nick = []
    split
    · rfl
    · exact hnone
  | message hthere => exact hh.setTodo parse_renames fun _ => parse_names
  | hangup hthere => exact hh.setTodo disconnect_renames fun _ => not_mayName_of_calm disconnect_calm
  | @act t works c hacts =>
    -- who may be named after the action was behind nobody before it
    have hmay : ∀ t' v, MayName v (c.todo t') → ¬ Behind v h.state := by
      intro t' v hmay
      by_cases ht : t' = t
      · rw [ht] at hmay
        exact hacts.earned (hh.may t v) hmay
      · rw [hacts.todo_ne ht] at hmay
        exact hh.may t' v hmay
    obtain hsame | ⟨f, hf, hchanged⟩ := hacts.state (hh.renames t)
    · refine ⟨hfounded, ?_, fun t' v hm => ?_, fun v hnick => ?_⟩
      · show InOrder c.state
        rw [hsame]
        exact hh.order
      · show ¬ Behind v c.state
        rw [hsame]
        exact hmay t' v hm
      · have hnick : (c.state.persons v).nick ≠ [] := hnick
        show ¬ Behind v c.state
        rw [hsame] at hnick ⊢
        exact hh.named v hnick
    · refine ⟨hfounded, ?_, fun t' v hm => ?_, fun v hnick => ?_⟩
      · show InOrder c.state
        rw [hchanged]
        exact hf.inOrder hh.order
      · show ¬ Behind v c.state
        rw [hchanged]
        exact hf.not_behind hh.order (hmay t' v hm)
      · have hnick : (c.state.persons v).nick ≠ [] := hnick
        show ¬ Behind v c.state
        rw [hchanged]
        refine hf.not_behind hh.order ?_
        by_cases hleft : (h.todo t).Writes (Behind v) (LeavesNick v)
        · obtain hsame' | ⟨g, hg, hchanged'⟩ := hacts.state hleft
          · rw [hsame'] at hnick
            exact hh.named v hnick
          · rw [hchanged', hg] at hnick
            exact hh.named v hnick
        · exact hh.may t v hleft

/-- **Who has a nick is the one that his descriptor finds**, in every run of any number of
threads. -/
theorem named_is_found {moves : List Move} (hpath : Path (Host.step cfg) anyMove .init moves h)
    (hin : v ∈ h.state.userlist.items) (hnick : (h.state.persons v).nick ≠ []) :
    h.state.seekFd (h.state.persons v).clientSocket = some v := by
  have hinv : NamedFirst h := hpath.invariant NamedFirst namedFirst_init
    fun _ _ _ _ hto hh => hh.step hto
  exact seek_of_not_behind hinv.order hin (hinv.named v hnick)

/-- Another gets the descriptor of a client with a nick while he is leaving. -/
def nickThenReuse : List Move :=
  [.accept 4 [], .enter 0, .line 0 ["NICK", "a"]] ++ acts 0 12 ++ [.hangup 0] ++ acts 0 7 ++
    [.accept 4 [], .enter 0]

theorem named_is_found_reused : ∃ h : Host,
    (h.state.persons 1).clientSocket = (h.state.persons 0).clientSocket ∧
    h.state.seekFd (h.state.persons 0).clientSocket = some 0 := by
  have hends : (follow (Host.step .plain) .init nickThenReuse).any (fun h =>
      h.state.userlist.items = [0, 1] ∧ (h.state.persons 0).nick = str "a" ∧
      (h.state.persons 1).clientSocket = (h.state.persons 0).clientSocket) = true := by
    decide +kernel
  have hreached : ∃ h, Path (Host.step .plain) anyMove .init nickThenReuse h ∧ _ :=
    exists_of_follow (fun _ _ _ => trivial) hends
  obtain ⟨h, hpath, hall⟩ := hreached
  obtain ⟨hlist, hnick, hsame⟩ := of_decide_eq_true hall
  refine ⟨h, hsame, named_is_found hpath (by rw [hlist]; simp) ?_⟩
  rw [hnick]
  simp [str]

end UchiNetworks.Chirc
