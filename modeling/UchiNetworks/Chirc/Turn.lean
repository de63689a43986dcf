import UchiNetworks.Chirc.Modes

/-!
# chirc: one command, one request, a run

`Sane` holds after every effect, so it holds in every state of every run:
`turn_of_next` says what a request does, and `sane_of_path` is the run.
-/

namespace UchiNetworks.Chirc

open UchiNetworks.Lib
open Prog

variable {cfg : Config} {ok : Nat → Bool} {s s' : Server} {u : Uid} {ps : Params}
  {stale : Nat → Nat}

theorem Effect.sane {c : Command} (h : Sane s) (heff : Effect cfg ok s u ps c s') : Sane s' := by
  cases heff with
  | same => exact h
  | rename hfree _ =>
    have hstop := sameShape_atMyChan s u none
    exact (h.frame hstop).withNick ((hstop.seekNick _).trans hfree)
  | firstNick hfree _ => exact (h.withNick hfree).frame (sameShape_countIf _ _)
  | user _ =>
    refine (h.frame ?_).frame (sameShape_countIf _ _)
    exact sameShape_updPerson rfl rfl rfl
  | quit hexit => exact (h.frame (sameShape_atMyChan s u none)).exitUser hexit
  | dropped _ _ hexit => exact h.exitUser hexit
  | joinOld _ hnew => exact h.enter hnew
  | joinNew hnone hnew => exact (h.addChannel hnone).enter hnew
  | joinAgain hnone _ => exact h.addChannel hnone
  | part _ _ => exact (h.dropMyChan _).leaveChan _
  | topic _ _ _ => exact h.frame (sameShape_updChannel rfl)
  | back _ => exact h.frame (sameShape_updPerson rfl rfl rfl)
  | away _ => exact h.frame (sameShape_updPerson rfl rfl rfl)
  | oper _ _ => exact h.frame (sameShape_updPerson rfl rfl rfl)
  | whois _ _ _ _ => exact h.frame (sameShape_atMyChan _ _ _)
  | who _ => exact h.frame (sameShape_stopOthers s u)
  | memberAdd _ _ _ _ _ _ _ _ => exact h.frame sameShape_updMode
  | memberDel _ _ _ _ _ _ _ => exact h.frame sameShape_updMode
  | chanAdd _ _ _ _ => exact h.frame (sameShape_updChannel rfl)
  | chanDel _ _ _ _ => exact h.frame (sameShape_updChannel rfl)
  | userMode _ => exact h.frame (sameShape_updPerson rfl rfl rfl)

/-- A client's record is found by its descriptor. -/
theorem seekFd_self (h : Sane s) (hu : u ∈ s.userlist.items) :
    s.seekFd (s.persons u).clientSocket = some u := by
  cases hfound : s.seekFd (s.persons u).clientSocket with
  | none =>
    have hmiss := List.find?_eq_none.mp hfound u hu
    simp at hmiss
  | some v =>
    have hv := List.mem_of_find?_eq_some hfound
    have hsame := List.find?_some hfound
    rw [h.fds v hv u hu (of_decide_eq_true hsame)]

/-- What a request does, when it leaves a state behind. -/
inductive Turn (cfg : Config) (s : Server) : Request → Server → Prop
  | connect {fd : Nat} {address : CStr} {ok : Nat → Bool} {stale : Nat → Nat}
      (hpossible : (Input.connect fd address).possible s) :
      Turn cfg s ⟨.connect fd address, ok, stale⟩ (s.arrive fd address)
  | message {self : Uid} {ps : Params} {ok : Nat → Bool} {stale : Nat → Nat} {s' : Server}
      (hin : self ∈ s.userlist.items)
      (heff : Effect cfg ok s self ps (commandOf (ps.get 0)) s') :
      Turn cfg s ⟨.message self ps, ok, stale⟩ s'
  | hangup {self : Uid} {ok : Nat → Bool} {stale : Nat → Nat} {s' : Server}
      (hin : self ∈ s.userlist.items) (hexit : s.exitUser self = some s') :
      Turn cfg s ⟨.hangup self, ok, stale⟩ s'

/-- What a handler leaves behind is what its postcondition says. -/
theorem leaves_of_meets {p : Act Unit} {Q : Post Server Mutex Event Fault Unit}
    {w : World Server Mutex Event} {log : List Event} (h : p.Meets ok Q w)
    (hleaves : leaves (p.run ok w) = some (s', log)) :
    ∃ w', w'.state = s' ∧ w'.out = log ∧ (Q.done () w' ∨ Q.exited w') := by
  unfold Prog.Meets at h
  cases hrun : p.run ok w with
  | done a w' =>
    rw [hrun] at h hleaves
    cases hleaves
    exact ⟨w', rfl, rfl, Or.inl h⟩
  | exited w' =>
    rw [hrun] at h hleaves
    cases hleaves
    exact ⟨w', rfl, rfl, Or.inr h⟩
  | crashed f w' =>
    rw [hrun] at hleaves
    cases hleaves
  | stuck w' =>
    rw [hrun] at hleaves
    cases hleaves

theorem serve_message {self : Uid} (hin : self ∈ s.userlist.items) :
    serve cfg s ⟨.message self ps, ok, stale⟩ =
      leaves ((parse cfg self stale s.fuel ps).run ok s.world) := if_pos hin

/-- A message that leaves a state behind came from a client, and its handler ended. -/
theorem message_of_serve {log : List Event} {self : Uid}
    (hserve : serve cfg s ⟨.message self ps, ok, stale⟩ = some (s', log)) :
    self ∈ s.userlist.items ∧
      leaves ((parse cfg self stale s.fuel ps).run ok s.world) = some (s', log) := by
  unfold serve at hserve
  by_cases hin : (Input.message self ps).possible s
  · rw [if_pos hin] at hserve
    exact ⟨hin, hserve⟩
  · rw [if_neg hin] at hserve
    cases hserve

/-- What the handler does is what the message does. -/
theorem leaves_of_dispatch (h : Sane s) {log : List Event} {self : Uid}
    {Q : Post Server Mutex Event Fault Unit}
    (hserve : serve cfg s ⟨.message self ps, ok, stale⟩ = some (s', log))
    (hmeets : (dispatch cfg self stale s.fuel self ps (commandOf (ps.get 0))).Meets ok Q s.world) :
    ∃ w, w.state = s' ∧ w.out = log ∧ (Q.done () w ∨ Q.exited w) := by
  obtain ⟨hin, hleaves⟩ := message_of_serve hserve
  exact leaves_of_meets ((parse_eq (seekFd_self h hin)).mpr hmeets) hleaves

/-- A message whose handler only talks leaves the state as it was. -/
theorem leaves_of_says {msgs log : List Event} (h : Sane s)
    (htalk : SaysAt ok s (dispatch cfg u stale s.fuel u ps (commandOf (ps.get 0))) msgs)
    (hserve : serve cfg s ⟨.message u ps, ok, stale⟩ = some (s', log)) : s' = s ∧ log = msgs := by
  obtain ⟨w, rfl, rfl, hend⟩ := leaves_of_dispatch h hserve (htalk [])
  cases hend with
  | inl hdone =>
    rw [hdone]
    exact ⟨rfl, List.nil_append msgs⟩
  | inr hexit => exact hexit.elim

/-- Its handler comes to an end unless an output fails. -/
theorem isSome_of_says {msgs : List Event} (h : Sane s) (hin : u ∈ s.userlist.items)
    (htalk : SaysAt ok s (dispatch cfg u stale s.fuel u ps (commandOf (ps.get 0))) msgs)
    (hok : ¬ Fails ok) : (serve cfg s ⟨.message u ps, ok, stale⟩).isSome := by
  have hmeets : (parse cfg u stale s.fuel ps).Meets ok (Says ok s.world msgs) s.world :=
    (parse_eq (seekFd_self h hin)).mpr (htalk [])
  rw [serve_message hin]
  unfold Prog.Meets at hmeets
  cases hrun : (parse cfg u stale s.fuel ps).run ok s.world with
  | done a w => rfl
  | exited w => rfl
  | crashed f w => rw [hrun] at hmeets; exact hmeets.elim
  | stuck w => rw [hrun] at hmeets; exact absurd hmeets hok

theorem turn_of_serve (h : Sane s) {r : Request} {log : List Event}
    (hserve : serve cfg s r = some (s', log)) : Turn cfg s r s' := by
  cases r with
  | mk input ok stale =>
    cases input with
    | connect fd address =>
      unfold serve at hserve
      by_cases hpossible : (Input.connect fd address).possible s
      · rw [if_pos hpossible] at hserve
        cases hserve
        exact .connect hpossible
      · rw [if_neg hpossible] at hserve
        cases hserve
    | message self ps =>
      have hin := (message_of_serve hserve).1
      obtain ⟨w, rfl, -, hend⟩ := leaves_of_dispatch h hserve (dispatch_ends h _)
      cases hend with
      | inl heff => exact .message hin heff
      | inr heff => exact .message hin heff
    | hangup self =>
      unfold serve at hserve
      by_cases hpossible : (Input.hangup self).possible s
      · rw [if_pos hpossible] at hserve
        have hself := seekFd_self h hpossible
        have hmeets : (disconnect self).Meets ok ⟨fun _ w => s.exitUser self = some w.state,
            fun w => s.exitUser self = some w.state, fun _ => True, True⟩ s.world :=
          disconnect_meets hself (fun _ h _ _ => h) (fun _ h _ _ => h) (fun _ => trivial)
        obtain ⟨w, rfl, -, hend⟩ := leaves_of_meets hmeets hserve
        cases hend with
        | inl hexit => exact .hangup hpossible hexit
        | inr hexit => exact .hangup hpossible hexit
      · rw [if_neg hpossible] at hserve
        cases hserve

theorem turn_of_next (h : Sane s) {r : Request} (hnext : next cfg s r = some s') :
    Turn cfg s r s' := by
  obtain ⟨p, hserve, rfl⟩ := Option.map_eq_some_iff.mp hnext
  exact turn_of_serve h hserve

theorem Turn.sane {r : Request} (h : Sane s) (hturn : Turn cfg s r s') : Sane s' := by
  cases hturn with
  | connect hpossible => exact h.arrive hpossible.1 hpossible.2
  | message _ heff => exact heff.sane h
  | hangup _ hexit => exact h.exitUser hexit

theorem sane_of_path {admits : Server → Request → Prop} {rs : List Request}
    (h : Path (next cfg) admits .init rs s) : Sane s :=
  h.invariant Sane sane_init fun _ _ _ _ hnext hsane => (turn_of_next hsane hnext).sane hsane

end UchiNetworks.Chirc
