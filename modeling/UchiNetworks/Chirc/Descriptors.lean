import Mathlib.Data.List.Perm.Basic
import UchiNetworks.Chirc.Host
import UchiNetworks.Chirc.Server

/-!
# chirc: descriptors that are used again

A thread finds its client's record by the number of its descriptor. `user_exit` closes
the descriptor first and takes the record out of `userlist` last, so in between
`accept` may return the number again, and the newcomer's thread finds the record of
the one who is leaving (`descriptor_shared`). As long as `accept` returns no number
that a record still carries, each thread finds its own (`own_record_found`).
-/

namespace UchiNetworks.Chirc

open UchiNetworks.Lib
open Prog

variable {cfg : Config} {h h' : Host}

/-- The descriptors of the records in `userlist`. -/
def Server.listed (s : Server) : List Nat := s.userlist.items.map fun u => (s.persons u).clientSocket

/-- The descriptors of the records in `userlist`, and of those that are still to be
entered there. -/
def Host.carried (h : Host) : List Nat := h.state.listed ++ h.pending.map (·.1)

/-- `accept` returns no descriptor that is still carried. -/
def Unreused (h : Host) : Move → Prop
  | .accept fd _ => fd ∉ h.carried
  | _ => True

instance (h : Host) (m : Move) : Decidable (Unreused h m) :=
  match m with
  | .accept fd _ => inferInstanceAs (Decidable (fd ∉ h.carried))
  | .enter _ => isTrue trivial
  | .message _ _ _ _ => isTrue trivial
  | .hangup _ => isTrue trivial
  | .act _ _ => isTrue trivial

/-- No two records in `userlist` have the same descriptor, and the seek for a client's
descriptor returns his own record. -/
def OwnRecords (s : Server) : Prop :=
  (∀ u ∈ s.userlist.items, ∀ v ∈ s.userlist.items,
    (s.persons u).clientSocket = (s.persons v).clientSocket → u = v) ∧
  ∀ u ∈ s.userlist.items, s.seekFd (s.persons u).clientSocket = some u

theorem ownRecords_of_nodup {s : Server} (hnodup : s.listed.Nodup) : OwnRecords s := by
  have hone : ∀ u ∈ s.userlist.items, ∀ v ∈ s.userlist.items,
      (s.persons u).clientSocket = (s.persons v).clientSocket → u = v :=
    fun u hu v hv => List.inj_on_of_nodup_map hnodup hu hv
  refine ⟨hone, fun u hu => ?_⟩
  cases hfound : s.seekFd (s.persons u).clientSocket with
  | none =>
    have hmiss := List.find?_eq_none.mp hfound u hu
    simp at hmiss
  | some v =>
    have hv := List.mem_of_find?_eq_some hfound
    have hsame := List.find?_some hfound
    rw [hone v hv u hu (of_decide_eq_true hsame)]

/-! ## What a step does to them -/

theorem Renames.listed {f : Server → Server} (hf : Renames f) (s : Server) :
    (f s).listed.Sublist s.listed := by
  have hsame : (f s).listed = (f s).userlist.items.map fun u => (s.persons u).clientSocket :=
    List.map_congr_left fun u _ => hf.clientSocket s u
  rw [hsame]
  exact (hf.userlist s).map _

/-- The newcomer's descriptor comes last, if the list takes him. -/
theorem arrive_listed {s : Server} (hold : ∀ u ∈ s.userlist.items, u < s.nextUid) (fd : Nat)
    (address : CStr) : (s.arrive fd address).listed.Sublist (s.listed ++ [fd]) := by
  have hsame : s.userlist.items.map (fun u => ((s.arrive fd address).persons u).clientSocket)
      = s.listed := List.map_congr_left fun u hu => by rw [arrive_old (hold u hu)]
  show ((s.userlist.append s.nextUid).items.map _).Sublist _
  unfold SimList.append
  split
  · rw [hsame]
    exact List.sublist_append_left _ _
  · rw [List.map_append, hsame]
    show (s.listed ++ [((s.arrive fd address).persons s.nextUid).clientSocket]).Sublist _
    rw [arrive_new]

/-- What a run without reuse keeps. -/
structure DescriptorInv (h : Host) : Prop extends Founded h where
  nodup : h.carried.Nodup

theorem DescriptorInv.step (hh : DescriptorInv h) {m : Move} (hnew : Unreused h m)
    (hto : h.step cfg m = some h') : DescriptorInv h' := by
  refine ⟨hh.toFounded.step hto, ?_⟩
  have hnodup := hh.nodup
  cases step_cases hto with
  | @accept fd address hopen =>
    show (h.state.listed ++ (h.pending ++ [(fd, address)]).map (·.1)).Nodup
    rw [List.map_append, ← List.append_assoc]
    refine List.nodup_append.mpr ⟨hnodup, List.nodup_singleton _, fun a ha b hb heq => hnew ?_⟩
    have hb : b = fd := List.mem_singleton.mp hb
    rw [← hb, ← heq]
    exact ha
  | @enter n fd address hfree hat =>
    have hmoved : (h.state.listed ++ [fd] ++ (h.pending.eraseIdx n).map (·.1)).Perm h.carried := by
      obtain ⟨hn, hget⟩ := List.getElem?_eq_some_iff.mp hat
      have hperm := (List.getElem_cons_eraseIdx_perm hn).map (·.1)
      rw [hget] at hperm
      rw [List.append_assoc]
      exact hperm.append_left _
    exact (hmoved.nodup_iff.mpr hnodup).sublist
      ((arrive_listed hh.listed fd address).append (List.Sublist.refl _))
  | message hthere => exact hnodup
  | hangup hthere => exact hnodup
  | @act t works c hacts =>
    obtain hsame | ⟨f, hf, hto⟩ := hacts.state (hh.renames t)
    · show (c.state.listed ++ _).Nodup
      rw [hsame]
      exact hnodup
    · show (c.state.listed ++ _).Nodup
      rw [hto]
      exact hnodup.sublist ((hf.listed _).append (List.Sublist.refl _))

/-- **Each client's record is the only one with its descriptor**, and the one that a seek
for it returns, in any run in which `accept` returns no descriptor that is still
carried. -/
theorem own_record_found (cfg : Config) {moves : List Move}
    (hpath : Path (Host.step cfg) Unreused .init moves h) : OwnRecords h.state := by
  have hinv : DescriptorInv h := hpath.invariant DescriptorInv ⟨founded_init, List.nodup_nil⟩
    fun _ _ _ hnew hto hh => hh.step hnew hto
  exact ownRecords_of_nodup (List.Nodup.of_append_left hinv.nodup)

/-- A client leaves, and another gets his descriptor. -/
def leaveThenReuse : List Move :=
  [.accept 4 [], .enter 0, .hangup 0] ++ acts 0 15 ++ [.accept 4 [], .enter 0]

theorem own_record_found_reused :
    ∃ h : Host, h.state.userlist.items = [1] ∧ OwnRecords h.state := by
  have hends : (follow (guarded (Host.step .plain) Unreused) .init leaveThenReuse).any
      (fun h => h.state.userlist.items = [1]) = true := by decide +kernel
  have hreached : ∃ h, Path (guarded (Host.step .plain) Unreused) anyMove .init leaveThenReuse h ∧ _ :=
    exists_of_follow (fun _ _ _ => trivial) hends
  obtain ⟨h, hpath, hlist⟩ := hreached
  exact ⟨h, of_decide_eq_true hlist, own_record_found .plain hpath.of_guarded⟩

/-- Another gets his descriptor when he has closed it and is still in `userlist`. -/
def reuseWhileLeaving : List Move :=
  [.accept 4 [], .enter 0, .hangup 0] ++ acts 0 7 ++ [.accept 4 [], .enter 0]

theorem descriptor_shared : ¬ ∀ (cfg : Config) (moves : List Move) (h : Host),
    Path (Host.step cfg) anyMove .init moves h → OwnRecords h.state := by
  intro hall
  have hboth : (follow (Host.step .plain) .init reuseWhileLeaving).any (fun h =>
      h.state.userlist.items = [0, 1] ∧ h.state.seekFd (h.state.persons 1).clientSocket = some 0)
      = true := by decide +kernel
  have hreached : ∃ h, Path (Host.step .plain) anyMove .init reuseWhileLeaving h ∧ _ :=
    exists_of_follow (fun _ _ _ => trivial) hboth
  obtain ⟨h, hpath, hends⟩ := hreached
  obtain ⟨hlist, hother⟩ := of_decide_eq_true hends
  have hown := (hall .plain reuseWhileLeaving h hpath).2 1 (by rw [hlist]; simp)
  rw [hother] at hown
  cases hown

end UchiNetworks.Chirc
