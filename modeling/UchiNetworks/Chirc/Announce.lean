import UchiNetworks.Chirc.Lookups

/-!
# chirc: whom a NICK and a QUIT are relayed to

`sendtoallchans` goes through the client's own channels and sends to each. The
iteration is the list's own, and `chirc_handle_WHOIS` starts it without stopping
it: then `list_iterator_start` does nothing, and the channels before its place are
left out. What is visited is `Server.reaches`.

`RelayedRight` says who is to get the line: everybody else who shares a channel
with the client. He does exactly when what is visited covers what is shared
(`relay_iff`), which after a WHOIS it does not (`relay_skips`).
-/

namespace UchiNetworks.Chirc

open UchiNetworks.Lib
open Prog

variable {cfg : Config} {self u v : Uid} {s : Server} {out : List Event} {ps : Params}
  {line msg : CStr} {stale : Nat → Nat}

/-- What a NICK relays. -/
def nickLine (p : Person) (ps : Params) : CStr :=
  crlf (snprintf (maxMsg - 2) (relayPrefix p ++ str "NICK :" ++ ps.get 1))

def quitMessage (ps : Params) : CStr := if ps.get 1 ≠ [] then ps.get 1 else str ":Client Quit"

/-- What a QUIT relays. -/
def quitLine (p : Person) (ps : Params) : CStr :=
  crlf (snprintf (maxMsg - 2) (relayPrefix p ++ str "QUIT " ++ quitMessage ps))

/-- The command has a line for those who share a channel with `u`: he changes his
nick for one that is free, or he leaves. -/
inductive Announces (s : Server) (u : Uid) (ps : Params) : CStr → Prop
  | nick (hcmd : commandOf (ps.get 0) = .NICK) (hfree : s.seekNick (ps.get 1) = none)
      (hnick : (s.persons u).nick ≠ []) : Announces s u ps (nickLine (s.persons u) ps)
  | quit (hcmd : commandOf (ps.get 0) = .QUIT) : Announces s u ps (quitLine (s.persons u) ps)

/-- What is handed out while a message is handled and all sends work, however
that ends. -/
def heard (cfg : Config) (stale : Nat → Nat) (s : Server) (u : Uid) (ps : Params) : List Event :=
  ((parse cfg u stale s.fuel ps).run allOk s.world).world.out

/-- The two are on one channel. -/
def Server.shares (s : Server) (u v : Uid) : Prop :=
  ∃ m ∈ (s.persons u).myChans.items, (s.persons v).onChan m.name = true

/-- Of a NICK the client himself gets a copy. -/
def isOwnCopy (s : Server) (u : Uid) (ps : Params) (fd : Nat) : Prop :=
  commandOf (ps.get 0) = .NICK ∧ fd = (s.persons u).clientSocket

/-- Each of the others who share a channel with `u` gets the line, and nobody else
does, the client's own copy apart. -/
structure RelayedRight (cfg : Config) (stale : Nat → Nat) (s : Server) (u : Uid) (ps : Params)
    (line : CStr) : Prop where
  each : ∀ v ∈ s.userlist.items, v ≠ u → s.shares u v →
    .send (s.persons v).clientSocket line ∈ heard cfg stale s u ps
  only : ∀ fd, .send fd line ∈ heard cfg stale s u ps → isOwnCopy s u ps fd ∨
    ∃ v ∈ s.userlist.items, v ≠ u ∧ s.shares u v ∧ fd = (s.persons v).clientSocket

/-- The channel can be looked up. -/
def Server.found (s : Server) (m : MyChan) : Bool := (s.seekChan m.name).isSome

/-- The channels that are visited: those the iteration over `my_chans` has still to
come to, up to one that is not in `chanlist`. -/
def Server.reaches (s : Server) (u : Uid) : List MyChan :=
  (s.persons u).toVisit.takeWhile s.found

/-- Whoever shares a channel with `u` has another nick and shares one that is visited. -/
def Covers (s : Server) (u : Uid) : Prop :=
  ∀ v ∈ s.userlist.items, v ≠ u → s.shares u v →
    (s.persons v).nick ≠ (s.persons u).nick ∧
    ∃ m ∈ s.reaches u, (s.persons v).onChan m.name = true

/-! ## The relay -/

/-- What `sendtoallchans` hands out for these channels. -/
def relaysAll (s : Server) (u : Uid) (msg : CStr) (ms : List MyChan) : List Event :=
  ms.flatMap fun m => relays s m.name msg (some u) s.userlist.items

/-- Where the iteration stands does not matter to the recipients. -/
theorem relays_atMyChan (s : Server) (u : Uid) (i : Option Nat) (cname msg : CStr)
    (sender : Option Uid) (us : List Uid) :
    relays (s.atMyChan u i) cname msg sender us = relays s cname msg sender us := by
  have hget : ∀ {α : Type} (f : Person → α),
      (∀ (p : Person) (l : SimList MyChan), l.items = p.myChans.items →
        f { p with myChans := l } = f p) →
      ∀ v, f ((s.atMyChan u i).persons v) = f (s.persons v) := by
    intro α f hf v
    unfold Server.atMyChan
    by_cases hv : v = u
    · rw [hv, updPerson_self]
      exact hf _ _ rfl
    · rw [updPerson_ne _ hv]
  have hnick := hget (·.nick) fun _ _ _ => rfl
  have hfd := hget (·.clientSocket) fun _ _ _ => rfl
  have hon : ∀ v, ((s.atMyChan u i).persons v).onChan cname = (s.persons v).onChan cname := by
    refine hget (·.onChan cname) fun p l hl => ?_
    unfold Person.onChan SimList.contains
    rw [hl]
  unfold relays isRecipient
  simp only [hnick, hfd, hon]

theorem run_of_says {p : Act Unit} {w w₀ : World Server Mutex Event} {msgs : List Event}
    (h : p.Meets allOk (Says allOk w msgs) w₀) :
    p.run allOk w₀ = .done () { w with out := w.out ++ msgs } := by
  unfold Prog.Meets at h
  cases hrun : p.run allOk w₀ with
  | done a w' =>
    rw [hrun] at h
    have hw : w' = { w with out := w.out ++ msgs } := h
    rw [hw]
  | exited w' => rw [hrun] at h; exact h.elim
  | crashed f w' => rw [hrun] at h; exact h.elim
  | stuck w' => rw [hrun] at h; exact (not_fails_allOk h).elim

/-- One turn, for a channel that is there. -/
theorem relayChan_said (self u : Uid) (msg : CStr) (out : List Event)
    (hidle : s.userlist.iter = none) {m : MyChan} (i : Nat) (hfound : (s.seekChan m.name).isSome) :
    (relayChan self u msg m ()).Meets allOk
      (Says allOk ⟨s.atMyChan u (some (i + 1)), [.cLock u], out⟩
        (relays s m.name msg (some u) s.userlist.items))
      ⟨s.atMyChan u (some i), [.cLock u], out⟩ := by
  obtain ⟨c, hc⟩ := Option.isSome_iff_exists.mp hfound
  have hname : ((s.atMyChan u (some (i + 1))).channels c).name = m.name := (seekChan_some hc).2
  unfold relayChan
  rw [change_bind, nextMyChan_atMyChan, lookChan_eq (by simp), atMyChan_seekChan, hc]
  rw [← hname, ← relays_atMyChan s u (some (i + 1))]
  refine sendtochannel_said hidle (by simp) fun v hv => ?_
  have hne := isRecipient_ne hv
  simpa using hne

/-- The loop gets to its end, or to the first channel that is lost; in both cases it
has sent to those before. -/
theorem relayChans_run (self u : Uid) (msg : CStr) (hidle : s.userlist.iter = none) :
    ∀ (ms : List MyChan) (i : Nat) (out : List Event),
      (forEach (fun _ => true) (relayChan self u msg) ms ()).run allOk
          ⟨s.atMyChan u (some i), [.cLock u], out⟩
        = .done () ⟨s.atMyChan u (some (i + ms.length)), [.cLock u],
            out ++ relaysAll s u msg (ms.takeWhile s.found)⟩ ∨
      ∃ w, (forEach (fun _ => true) (relayChan self u msg) ms ()).run allOk
          ⟨s.atMyChan u (some i), [.cLock u], out⟩ = .crashed .null w ∧
        w.out = out ++ relaysAll s u msg (ms.takeWhile s.found) := by
  intro ms
  induction ms with
  | nil =>
    intro i out
    refine Or.inl ?_
    rw [List.takeWhile_nil, relaysAll, List.flatMap_nil, List.append_nil]
    rfl
  | cons m ms ih =>
    intro i out
    show (relayChan self u msg m () >>= fun _ => _).run allOk _ = _ ∨
      ∃ w, (relayChan self u msg m () >>= fun _ => _).run allOk _ = _ ∧ _
    by_cases hfound : s.found m = true
    · have hturn := run_of_says (relayChan_said self u msg out hidle i hfound)
      rw [run_bind_done hturn, List.takeWhile_cons_of_pos hfound, relaysAll, List.flatMap_cons,
        ← List.append_assoc, List.length_cons, Nat.add_comm ms.length, ← Nat.add_assoc]
      exact ih (i + 1) _
    · have hlost : s.seekChan m.name = none := by
        unfold Server.found at hfound
        simpa using hfound
      have hturn : (relayChan self u msg m ()).run allOk ⟨s.atMyChan u (some i), [.cLock u], out⟩
          = .crashed .null ⟨s.atMyChan u (some (i + 1)), [.cLock u], out⟩ := by
        show (acquire .lock >>= fun _ => look (·.seekChan m.name) >>= fun found =>
          release .lock >>= fun _ => sendtochannel self found msg (some u) : Act Unit).run allOk
          ⟨nextMyChan u (s.atMyChan u (some i)), [.cLock u], out⟩ = _
        rw [nextMyChan_atMyChan, run_lockedLook_bind (by simp), atMyChan_seekChan, hlost]
        rfl
      refine Or.inr ⟨_, run_bind_crashed hturn, ?_⟩
      rw [List.takeWhile_cons_of_neg hfound, relaysAll, List.flatMap_nil, List.append_nil]

/-- So does `sendtoallchans`, which stops the iteration at the end. -/
theorem sendtoallchans_run (self u : Uid) (msg : CStr) (out : List Event)
    (hidle : s.userlist.iter = none) :
    (sendtoallchans self u msg).run allOk ⟨s, [], out⟩
        = .done () ⟨s.atMyChan u none, [], out ++ relaysAll s u msg (s.reaches u)⟩ ∨
    ∃ w, (sendtoallchans self u msg).run allOk ⟨s, [], out⟩ = .crashed .null w ∧
      w.out = out ++ relaysAll s u msg (s.reaches u) := by
  have hstart : (sendtoallchans self u msg).run allOk ⟨s, [], out⟩
      = (forEach (fun _ => true) (relayChan self u msg) (s.persons u).toVisit () >>= fun _ =>
          change (stopMyChans u) >>= fun _ => release (.cLock u)).run allOk
          ⟨s.atMyChan u (some (s.persons u).iterPos), [.cLock u], out⟩ := by
    unfold sendtoallchans
    rw [run_acquire_bind List.not_mem_nil]
    show (forEach (fun _ => true) (relayChan self u msg)
      ((startMyChans u s).persons u).myChans.remaining () >>= _ : Act Unit).run allOk
        ⟨startMyChans u s, [.cLock u], out⟩ = _
    rw [startMyChans_eq, remaining_startMyChans]
  rw [hstart]
  rcases relayChans_run self u msg hidle (s.persons u).toVisit (s.persons u).iterPos out with
    hdone | ⟨w, hcrash, hout⟩
  · refine Or.inl ?_
    rw [run_bind_done hdone]
    show Outcome.done () (World.mk (stopMyChans u _) ((Mutex.cLock u :: []).erase _) _) = _
    rw [stopMyChans_atMyChan, List.erase_cons_head]
    rfl
  · exact Or.inr ⟨w, run_bind_crashed hcrash, hout⟩

/-! ## What is heard -/

theorem parse_run (hself : s.seekFd (s.persons u).clientSocket = some u) :
    (parse cfg u stale s.fuel ps).run allOk s.world
      = (dispatch cfg u stale s.fuel u ps (commandOf (ps.get 0))).run allOk s.world := by
  have hlook : (lookClient u).run allOk s.world = .done (some u) s.world := by
    unfold lookClient
    show (acquire .lock >>= fun _ => look (·.seekFd (s.persons u).clientSocket) >>= fun found =>
      release .lock >>= fun _ => pure found : Act (Option Uid)).run allOk s.world = _
    rw [run_lockedLook_bind List.not_mem_nil]
    show Outcome.done (s.seekFd (s.persons u).clientSocket) s.world = _
    rw [hself]
  unfold parse
  rw [run_bind_done hlook]
  rfl

/-- The last line of a QUIT is another one. -/
theorem closing_ne (p : Person) (ps : Params) (x : CStr) :
    crlf (snprintf (maxMsg - 2) (str "ERROR :Closing Link: " ++ x)) ≠ quitLine p ps := by
  intro h
  have hhead := congrArg List.head? h
  exact absurd (show some (chr 'E') = some (chr ':') from hhead) (by decide)

theorem userExit_emits {P : Event → Prop} (hclose : ∀ fd, P (.close fd)) :
    (userExit self u).Emits P := by
  have hloop : ∀ m b, (exitChannel u m b).Emits P := by
    intro m b
    show ∀ s : Server, (deref .null (s.seekChan m.name) >>= fun chan => leaveChannel chan
      : Act Unit).Emits P
    intro s
    cases s.seekChan m.name with
    | none => trivial
    | some c =>
      refine fun s => Emits.onlyIf ?_
      intro s
      by_cases hzero : (s.channels c).numusers ≠ 0
      · show (if _ then _ else _ : Act Unit).Emits P
        rw [if_pos hzero]
        trivial
      · show (if _ then _ else _ : Act Unit).Emits P
        rw [if_neg hzero]
        trivial
  intro s
  refine ⟨hclose _, fun _ s => ?_⟩
  exact (Emits.forEach hloop _ ()).bind fun _ => Emits.onlyIf trivial

/-- A NICK: the client's own copy, then the relay. -/
theorem heard_nick (hidle : s.userlist.iter = none)
    (hself : s.seekFd (s.persons u).clientSocket = some u) (hcmd : commandOf (ps.get 0) = .NICK)
    (hfree : s.seekNick (ps.get 1) = none) (hnick : (s.persons u).nick ≠ []) :
    heard cfg stale s u ps = .send (s.persons u).clientSocket (nickLine (s.persons u) ps) ::
      relaysAll s u (nickLine (s.persons u) ps) (s.reaches u) := by
  have hown : (lockedSend u u (nickLine (s.persons u) ps)).run allOk s.world
      = .done () ⟨s, [], [.send (s.persons u).clientSocket (nickLine (s.persons u) ps)]⟩ :=
    run_of_says (lockedSend_said List.not_mem_nil)
  unfold heard
  rw [parse_run hself, hcmd]
  show ((handleNICK cfg u u ps).run allOk s.world).world.out = _
  unfold handleNICK
  rw [run_lockedLook_bind List.not_mem_nil]
  show ((if (s.seekNick (ps.get 1)).isSome then _ else _ : Act Unit).run allOk s.world).world.out = _
  rw [hfree, if_neg (by simp)]
  show ((if (s.persons u).nick ≠ [] then _ else _ : Act Unit).run allOk s.world).world.out = _
  rw [if_pos hnick]
  show ((lockedSend u u (nickLine (s.persons u) ps) >>= _).run allOk s.world).world.out = _
  rw [run_bind_done hown]
  show ((sendtoallchans u u (nickLine (s.persons u) ps) >>= _).run allOk _).world.out = _
  rcases sendtoallchans_run u u (nickLine (s.persons u) ps)
    [.send (s.persons u).clientSocket (nickLine (s.persons u) ps)] hidle with
    hdone | ⟨w, hcrash, hout⟩
  · rw [run_bind_done hdone]
    unfold setNick
    rw [run_acquire_bind List.not_mem_nil]
    rfl
  · rw [run_bind_crashed hcrash]
    exact hout

/-- A QUIT: the relay, and then other lines. -/
theorem heard_quit (cfg : Config) (hidle : s.userlist.iter = none)
    (hself : s.seekFd (s.persons u).clientSocket = some u) (hcmd : commandOf (ps.get 0) = .QUIT) :
    ∃ es, heard cfg stale s u ps = relaysAll s u (quitLine (s.persons u) ps) (s.reaches u) ++ es ∧
      ∀ e ∈ es, ∀ fd, e ≠ .send fd (quitLine (s.persons u) ps) := by
  unfold heard
  rw [parse_run hself, hcmd]
  show ∃ es, ((sendtoallchans u u (quitLine (s.persons u) ps) >>= _ : Act Unit).run allOk
    s.world).world.out = _ ∧ _
  rcases sendtoallchans_run u u (quitLine (s.persons u) ps) [] hidle with hdone | ⟨w, hcrash, hout⟩
  · unfold Server.world
    rw [run_bind_done hdone]
    refine Emits.run ?_
    refine ⟨fun fd heq => ?_, fun _ => userExit_emits fun fd fd' heq => ?_⟩
    · have hline := (Event.send.inj heq).2
      exact closing_ne (s.persons u) ps _ hline
    · cases heq
  · unfold Server.world
    rw [run_bind_crashed hcrash]
    refine ⟨[], ?_, fun e he => absurd he List.not_mem_nil⟩
    rw [List.append_nil]
    exact hout

theorem mem_relaysAll {fd : Nat} {ms : List MyChan} :
    .send fd line ∈ relaysAll s u line ms ↔ ∃ m ∈ ms, ∃ v ∈ s.userlist.items,
      isRecipient s v m.name (some u) = true ∧ fd = (s.persons v).clientSocket := by
  unfold relaysAll relays
  simp only [List.mem_flatMap, List.mem_map, List.mem_filter, Event.send.injEq, and_true]
  refine exists_congr fun m => and_congr_right fun _ => exists_congr fun v => ?_
  rw [and_assoc, @eq_comm _ fd]

/-- **Who gets the line.** -/
theorem mem_heard (hs : Sane s) (hin : u ∈ s.userlist.items) (hann : Announces s u ps line)
    {fd : Nat} : .send fd line ∈ heard cfg stale s u ps ↔ isOwnCopy s u ps fd ∨
      ∃ m ∈ s.reaches u, ∃ v ∈ s.userlist.items,
        isRecipient s v m.name (some u) = true ∧ fd = (s.persons v).clientSocket := by
  have hself := seekFd_self hs hin
  unfold isOwnCopy
  cases hann with
  | nick hcmd hfree hnick =>
    rw [heard_nick hs.idle.users hself hcmd hfree hnick, List.mem_cons, mem_relaysAll, hcmd]
    simp only [Event.send.injEq, and_true, true_and]
  | quit hcmd =>
    obtain ⟨es, hheard, hes⟩ := heard_quit cfg hs.idle.users hself hcmd
    rw [hheard, List.mem_append, mem_relaysAll, hcmd]
    have hnone : .send fd (quitLine (s.persons u) ps) ∉ es := fun h => hes _ h fd rfl
    simp only [hnone, or_false, reduceCtorEq, false_and, false_or]

/-! ## Who shares a channel -/

theorem reaches_subset : s.reaches u ⊆ (s.persons u).myChans.items :=
  fun _ hm => (toVisit_subset _).subset ((List.takeWhile_sublist _).subset hm)

theorem isRecipient_nick_iff {cname : CStr} : isRecipient s v cname (some u) = true ↔
    (s.persons v).nick ≠ (s.persons u).nick ∧ (s.persons v).onChan cname = true := by
  simp [isRecipient]

/-- **A NICK and a QUIT are relayed to those who share a channel** exactly when the
channels that are visited cover those that are shared. -/
theorem relay_iff (hreach : Reachable cfg s) (hin : u ∈ s.userlist.items)
    (hann : Announces s u ps line) : RelayedRight cfg stale s u ps line ↔ Covers s u := by
  obtain ⟨rs, hpath⟩ := hreach
  have hs := sane_of_path hpath
  refine ⟨fun hright v hv hne hshares => ?_, fun hcovers => ⟨fun v hv hne hshares => ?_,
    fun fd hheard => ?_⟩⟩
  · rcases (mem_heard hs hin hann).mp (hright.each v hv hne hshares) with
      hown | ⟨m, hm, v', hv', hrecip, hfd⟩
    · exact absurd (hs.fds v hv u hin hown.2) hne
    · obtain ⟨hnick, hon⟩ := isRecipient_nick_iff.mp hrecip
      rw [← hs.fds v hv v' hv' hfd] at hnick hon
      exact ⟨hnick, m, hm, hon⟩
  · obtain ⟨hnick, m, hm, hon⟩ := hcovers v hv hne hshares
    exact (mem_heard hs hin hann).mpr (Or.inr ⟨m, hm, v, hv, isRecipient_nick_iff.mpr ⟨hnick, hon⟩, rfl⟩)
  · rcases (mem_heard hs hin hann).mp hheard with hown | ⟨m, hm, v, hv, hrecip, hfd⟩
    · exact Or.inl hown
    · exact Or.inr ⟨v, hv, isRecipient_ne hrecip, ⟨m, reaches_subset hm,
        (isRecipient_nick_iff.mp hrecip).2⟩, hfd⟩

/-- Two clients share a channel. -/
def sharesOneChan : List Request :=
  registersOne ++ [.plain (.connect 5 []), .plain (.line 1 ["NICK", "b"]),
    .plain (.line 1 ["USER", "b"]), .plain (.line 0 ["JOIN", "#c"]),
    .plain (.line 1 ["JOIN", "#c"])]

theorem relay_shared : ∃ s stale, Reachable .plain s ∧
    (RelayedRight .plain stale s 0 (["NICK", "z"].map str)
      (nickLine (s.persons 0) (["NICK", "z"].map str)) ↔ Covers s 0) := by
  have hany : ∀ r ∈ sharesOneChan, ∀ s, anyRequest s r := fun _ _ _ => trivial
  obtain ⟨s, hpath, hs⟩ := exists_of_follow
    (p := fun s => (0 : Uid) ∈ s.userlist.items ∧ s.seekNick (str "z") = none ∧
      (s.persons 0).nick ≠ [])
    hany (by decide +kernel : (follow (next .plain) .init sharesOneChan).any _ = true)
  obtain ⟨hin, hfree, hnick⟩ := of_decide_eq_true hs
  exact ⟨s, fun _ => 0, ⟨_, hpath⟩, relay_iff ⟨_, hpath⟩ hin (.nick (by decide) hfree hnick)⟩

/-- Somebody asks about the first of them before he changes his nick: the other is
not told. -/
theorem relay_skips : ¬ ∀ (cfg : Config) (stale : Nat → Nat) (s : Server) (u : Uid) (ps : Params)
    (line : CStr), Reachable cfg s → u ∈ s.userlist.items → Announces s u ps line →
    RelayedRight cfg stale s u ps line := by
  intro hall
  have hany : ∀ r ∈ sharesOneChan ++ [.plain (.line 1 ["WHOIS", "a"])], ∀ s, anyRequest s r :=
    fun _ _ _ => trivial
  obtain ⟨s, hpath, hs⟩ := exists_of_follow
    (p := fun s => ((0 : Uid) ∈ s.userlist.items ∧ (1 : Uid) ∈ s.userlist.items) ∧
      s.seekNick (str "z") = none ∧ (s.persons 0).nick ≠ [] ∧ s.reaches 0 = [] ∧
      ((s.persons 0).myChans.items.any fun m => (s.persons 1).onChan m.name) = true)
    hany (by decide +kernel : (follow (next .plain) .init _).any _ = true)
  obtain ⟨⟨hin, hother⟩, hfree, hnick, hnone, hshares⟩ := of_decide_eq_true hs
  have hann : Announces s 0 (["NICK", "z"].map str) _ := .nick (by decide) hfree hnick
  have hsane := sane_of_path hpath
  obtain ⟨m, hm, hon⟩ := List.any_eq_true.mp hshares
  have hright := hall .plain (fun _ => 0) s 0 _ _ ⟨_, hpath⟩ hin hann
  have hheard := hright.each 1 hother (by decide) ⟨m, hm, hon⟩
  rcases (mem_heard hsane hin hann).mp hheard with hown | ⟨m, hm, -⟩
  · exact absurd (hsane.fds 1 hother 0 hin hown.2) (by decide)
  · rw [hnone] at hm
    cases hm

end UchiNetworks.Chirc
