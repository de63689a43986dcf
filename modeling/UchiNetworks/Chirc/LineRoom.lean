import UchiNetworks.Chirc.Buffers
import UchiNetworks.Chirc.Splitter

/-!
# chirc: which lines fit

A line of `Line` fits in the arrays that it is built in exactly when there is room for
it (`line_fits_iff`): always where `snprintf` is given `MAXMSG - 2`, and elsewhere when
the strings are short enough. Strings as long as a message may make them are not
(`line_overruns`).
-/

namespace UchiNetworks.Chirc

open UchiNetworks.Lib

variable {cfg : Config} {client : Person} {code : Reply} {s text reply extra : CStr} {n : Nat}
  {junk : Nat}

/-! ## Storing and printing -/

/-- A string must be shorter than the array, for its NUL. -/
theorem fits_store {f : CStr → Option CStr} :
    Fits (inArray s >>= f) ↔ s.length < maxMsg ∧ Fits (f s) := by
  unfold Fits inArray
  simp only [stored_bind, and_assoc, exists_and_left]

/-- CRLF and the NUL need three characters. -/
theorem fits_crlf : Fits (inArray (crlf reply)) ↔ reply.length + 2 < maxMsg := by
  have hlen : (crlf reply).length = reply.length + 2 := List.length_append
  unfold Fits inArray
  simp only [stored_eq_some]
  constructor
  · intro hfits
    obtain ⟨msg, ⟨hroom, -⟩, -⟩ := hfits
    rw [← hlen]
    exact hroom
  · intro hroom
    rw [← hlen] at hroom
    exact ⟨crlf reply, ⟨hroom, rfl⟩, hroom.le, List.suffix_append _ _⟩

/-- `snprintf` cuts at one less than it is given. -/
theorem length_snprintf : (snprintf n text).length = min (n - 1) text.length := List.length_take

/-- What is left of the text must leave room for CRLF and the NUL. -/
theorem printLine_fits :
    Fits (printLine inArray n text) ↔ min (n - 1) text.length + 2 < maxMsg := by
  unfold printLine
  rw [fits_store, fits_crlf, length_snprintf]
  omega

/-- `MAXMSG - 2` is short enough. -/
theorem printLine_fits_two : Fits (printLine inArray (maxMsg - 2) text) := by
  rw [printLine_fits]
  unfold maxMsg
  omega

/-- `MAXMSG - 1` is not. -/
theorem printLine_fits_one :
    Fits (printLine inArray (maxMsg - 1) text) ↔ text.length < maxMsg - 2 := by
  rw [printLine_fits]
  unfold maxMsg
  omega

/-! ## Replies -/

/-- A reply's text has its own characters and its strings. -/
theorem length_text {nick : CStr} : (code.text cfg client nick reply extra).length =
    code.width cfg client nick reply extra := by
  cases code with
  | rplWelcome => simp [Reply.text, Reply.width, str]; omega
  | rplYourhost => simp [Reply.text, Reply.width, str]; omega
  | rplMyinfo => simp [Reply.text, Reply.width, str]; omega
  | errUnknownmode => simp [Reply.text, Reply.width, str]; omega
  | _ => simp [Reply.text, Reply.width, str]

/-- `constr_reply` fills `prefix` with the server's name, and `replmsg` with the text. -/
theorem constrReplyIn_fits : Fits (constrReplyIn inArray cfg code client reply extra) ↔
    cfg.servername.length + 1 < maxMsg ∧
      code.width cfg client (if client.nick = [] then str "*" else client.nick) reply extra < maxMsg := by
  unfold constrReplyIn
  rw [fits_store, fits_store, length_text, List.length_append]
  have hcolon : (str ":").length = 1 := rfl
  rw [hcolon, Nat.add_comm 1]
  simp only [printLine_fits_two, and_true]

/-- A reply that shows what is in another array as it stands. -/
theorem replyFrom_fits (hwidth : ∀ nick extra, code.width cfg client nick [] extra = extra.length) :
    Fits (inArray s >>= constrReplyIn inArray cfg code client []) ↔
      cfg.servername.length + 1 < maxMsg ∧ s.length < maxMsg := by
  rw [fits_store, constrReplyIn_fits, hwidth]
  omega

/-- The same, with a string that `snprintf` has cut. -/
theorem replyCut_fits (hn : n ≤ maxMsg)
    (hwidth : ∀ nick extra, code.width cfg client nick [] extra = extra.length) :
    Fits (inArray (snprintf n s) >>= constrReplyIn inArray cfg code client []) ↔
      cfg.servername.length + 1 < maxMsg := by
  rw [replyFrom_fits hwidth, length_snprintf]
  unfold maxMsg at *
  omega

/-! ## The channels of a WHOIS -/

variable {m : MyChan} {acc acc' : WhoisChans} {names names' : CStr × Bool} {mode line : CStr}

/-- A loop fits if it runs to its end, and the rest fits. -/
theorem fits_fill {α β : Type} {go : β → Bool} {turn : α → β → Option β} {xs : List α} {b : β}
    {f : β → Option CStr} :
    Fits (fill go turn xs b >>= f) ↔ ∃ b', fill go turn xs b = some b' ∧ Fits (f b') := by
  unfold Fits
  cases fill go turn xs b with
  | none => simp
  | some b' => simp

/-- There is one character for each mark. -/
theorem length_status : (pieceIf (hasMode mode modeO) (str "@")).length +
    (pieceIf (hasMode mode modeV) (str "+")).length = statusWidth mode := by
  unfold pieceIf statusWidth
  cases hasMode mode modeO <;> cases hasMode mode modeV <;> rfl

/-- `strncat` with the room that is left, which forgets the NUL. -/
theorem length_cut (h : line.length < maxMsg) :
    (line ++ strncat (maxMsg - line.length) s).length = min maxMsg (line.length + s.length) := by
  unfold strncat
  rw [if_neg (by omega), List.length_append, List.length_take]
  omega

/-- The marks come before the name. -/
theorem length_marked : (line ++ pieceIf (hasMode mode modeO) (str "@") ++
    pieceIf (hasMode mode modeV) (str "+")).length = line.length + statusWidth mode := by
  rw [List.length_append, List.length_append, Nat.add_assoc, length_status]

/-- The marks, and what there is room for of the name. -/
theorem length_named (h : line.length + statusWidth mode < maxMsg) :
    (line ++ pieceIf (hasMode mode modeO) (str "@") ++ pieceIf (hasMode mode modeV) (str "+") ++
      strncat (maxMsg - (line ++ pieceIf (hasMode mode modeO) (str "@") ++
        pieceIf (hasMode mode modeV) (str "+")).length) s).length =
      min maxMsg (line.length + statusWidth mode + s.length) := by
  rw [← length_marked] at h ⊢
  exact length_cut h

/-- The marks are appended first. -/
theorem marked_bind {β : Type} {f : CStr → Option β} {b : β} (h : line.length < maxMsg) :
    (catIf (stored maxMsg) (hasMode mode modeO) line (str "@") >>= fun line =>
      catIf (stored maxMsg) (hasMode mode modeV) line (str "+") >>= f) = some b ↔
      line.length + statusWidth mode < maxMsg ∧ f (line ++ pieceIf (hasMode mode modeO) (str "@") ++
        pieceIf (hasMode mode modeV) (str "+")) = some b := by
  rw [← length_marked]
  constructor
  · intro hf
    obtain ⟨hoper, hf⟩ := (catIf_bind h).mp hf
    exact (catIf_bind hoper).mp hf
  · intro hf
    have hoper : (line ++ pieceIf (hasMode mode modeO) (str "@")).length < maxMsg := by
      have hroom := hf.1
      rw [List.length_append] at hroom
      omega
    exact (catIf_bind h).mpr ⟨hoper, (catIf_bind hoper).mpr hf⟩

/-- A turn of WHOIS's loop fits if marks, name and blank do. -/
theorem addChanIn_eq (h : acc.wichannels.length < maxMsg) : addChanIn inArray m acc = some acc' ↔
    acc.wichannels.length + chanWidth m < maxMsg ∧ acc.add m = acc' := by
  have hblank : (str " ").length = 1 := rfl
  unfold addChanIn inArray chanWidth
  rw [marked_bind h, stored_bind, stored_bind]
  constructor
  · intro hall
    obtain ⟨hmarked, -, hlast, hacc⟩ := hall
    rw [List.length_append, length_named hmarked] at hlast
    exact ⟨by omega, Option.some.inj hacc⟩
  · intro hall
    obtain ⟨hroom, hacc⟩ := hall
    have hmarked : acc.wichannels.length + statusWidth m.mode < maxMsg := by omega
    refine ⟨hmarked, ?_, ?_, congrArg some hacc⟩
    · rw [length_named hmarked]
      omega
    · rw [List.length_append, length_named hmarked]
      omega

/-- Then nothing is cut, and there is room left. -/
theorem length_add (h : acc.wichannels.length + chanWidth m < maxMsg) :
    (acc.add m).wichannels.length = acc.wichannels.length + chanWidth m ∧ (acc.add m).buff > 0 := by
  have hblank : (str " ").length = 1 := rfl
  unfold chanWidth at h ⊢
  have hmarked : acc.wichannels.length + statusWidth m.mode < maxMsg := by omega
  have hline := @length_marked m.mode acc.wichannels
  constructor
  · refine (List.length_append.trans (congrArg (· + 1) (length_named hmarked))).trans ?_
    omega
  · have hbuff : (acc.add m).buff = maxMsg - (acc.wichannels ++
        pieceIf (hasMode m.mode modeO) (str "@") ++ pieceIf (hasMode m.mode modeV) (str "+")).length := rfl
    rw [hbuff, hline]
    omega

/-- The loop overruns `wichannels` if all there is to say is too long. -/
theorem whoisLoop_iff {wichannels : CStr} {chans : List MyChan} (h : wichannels.length < maxMsg) :
    (∃ acc, fill (fun acc => acc.buff > 0) (addChanIn inArray) chans ⟨wichannels, maxMsg - 1, 0⟩ =
      some acc) ↔ wichannels.length + (chans.map chanWidth).sum < maxMsg := by
  have hsum : ∀ (pre : List MyChan) m, ((pre ++ [m]).map chanWidth).sum =
      (pre.map chanWidth).sum + chanWidth m := by
    intro pre m
    simp
  have hstart : wichannels.length + (([] : List MyChan).map chanWidth).sum = wichannels.length := rfl
  have hbuff : (maxMsg : Int) - 1 > 0 := by decide
  refine (fill_iff
    (fun pre (acc : WhoisChans) => acc.wichannels.length = wichannels.length + (pre.map chanWidth).sum ∧
      acc.wichannels.length < maxMsg ∧ acc.buff > 0)
    (fun _ => True) (fun pre => wichannels.length + (pre.map chanWidth).sum < maxMsg)
    (fun _ acc hacc => by simp [hacc.2.2]) ?_ ?_ (fun _ _ h => h) [] ⟨hstart.symm, h, hbuff⟩).trans ?_
  · intro pre m acc hacc _
    rw [hsum, ← Nat.add_assoc, ← hacc.1]
    simp only [addChanIn_eq hacc.2.1, exists_and_left, exists_eq', and_true]
  · intro pre m acc acc' hacc hturn
    obtain ⟨hroom, rfl⟩ := (addChanIn_eq hacc.2.1).mp hturn
    obtain ⟨hlen, hbuff⟩ := length_add hroom
    rw [hsum, ← Nat.add_assoc, ← hacc.1]
    exact ⟨hlen, by omega, hbuff⟩
  · constructor
    · intro hroom
      rcases List.eq_nil_or_concat' chans with hnil | ⟨pre, m, hcat⟩
      · rw [hnil]
        exact h
      · have hlast : pre ++ [m] <+: chans := ⟨[], by rw [List.append_nil, hcat]⟩
        rw [hcat]
        exact hroom pre m hlast trivial
    · intro hroom pre m hprefix _
      obtain ⟨rest, hrest⟩ := hprefix
      rw [← hrest, List.map_append, List.sum_append] at hroom
      show wichannels.length + ((pre ++ [m]).map chanWidth).sum < maxMsg
      omega

/-! ## Names -/

/-- What the wrong `strlen` leaves of a nick. -/
theorem length_strncat_stale {nick : CStr} :
    (strncat (maxMsg - junk) nick).length = nickWidth junk nick := by
  unfold strncat nickWidth
  by_cases h : maxMsg < junk
  · rw [if_pos (by omega), if_pos h]
  · rw [if_neg (by omega), if_neg h, List.length_take]
    omega

/-- The blank before a word. -/
theorem length_gap {first : Bool} : (pieceIf (!first) (str " ")).length = gap first := by
  cases first <;> rfl

/-- A blank comes before every name but the first. -/
theorem length_blank : (names.1 ++ pieceIf (!names.2) (str " ")).length =
    names.1.length + gap names.2 := by
  rw [List.length_append, length_gap]

/-- The pieces of a turn in the order in which they are appended. -/
theorem addMember_eq {nick : CStr} : addMember junk m nick names =
    (names.1 ++ pieceIf (!names.2) (str " ") ++ pieceIf (hasMode m.mode modeO) (str "@") ++
      pieceIf (hasMode m.mode modeV) (str "+") ++ strncat (maxMsg - junk) nick, false) := by
  unfold addMember pieceIf
  cases names.2 <;> rfl

/-- Together they are this long. -/
theorem length_addMember {nick : CStr} : (addMember junk m nick names).1.length =
    names.1.length + gap names.2 + (statusWidth m.mode + nickWidth junk nick) := by
  rw [addMember_eq, List.length_append, length_marked, length_blank, length_strncat_stale,
    Nat.add_assoc]

/-- A turn of `send_names` fits if they do. -/
theorem addMemberIn_eq {nick : CStr} (h : names.1.length < maxMsg) :
    addMemberIn inArray junk names nick m = some names' ↔
      names.1.length + gap names.2 + (statusWidth m.mode + nickWidth junk nick) < maxMsg ∧
        addMember junk m nick names = names' := by
  rw [← length_addMember]
  unfold addMemberIn inArray
  rw [catIf_bind h]
  constructor
  · intro hall
    obtain ⟨hgap, hrest⟩ := hall
    obtain ⟨hmarked, hrest⟩ := (marked_bind hgap).mp hrest
    obtain ⟨hlast, heq⟩ := stored_bind.mp hrest
    rw [addMember_eq]
    exact ⟨hlast, Option.some.inj heq⟩
  · intro hall
    obtain ⟨hroom, heq⟩ := hall
    have hgap : (names.1 ++ pieceIf (!names.2) (str " ")).length < maxMsg := by
      rw [length_addMember] at hroom
      rw [length_blank]
      omega
    refine ⟨hgap, (marked_bind hgap).mpr ⟨?_, stored_bind.mpr ⟨?_, ?_⟩⟩⟩
    · rw [length_addMember] at hroom
      rw [length_blank]
      omega
    · rw [addMember_eq] at hroom
      exact hroom
    · rw [addMember_eq] at heq
      exact congrArg some heq

/-- After a turn that fits the string is in the array. -/
theorem nameUserIn_keeps {cname : CStr} {p : Person} (h : names.1.length < maxMsg)
    (hturn : nameUserIn inArray junk cname p names = some names') : names'.1.length < maxMsg := by
  unfold nameUserIn at hturn
  cases hseek : p.seekChan cname with
  | none =>
    rw [hseek] at hturn
    rw [← Option.some.inj hturn]
    exact h
  | some m =>
    rw [hseek] at hturn
    obtain ⟨hroom, rfl⟩ := (addMemberIn_eq h).mp hturn
    rw [length_addMember]
    exact hroom

/-- The loop fits if each member that it gets to does. -/
theorem namesLoop_iff {cname chanusers : CStr} {users : List Person}
    (h : chanusers.length < maxMsg) :
    (∃ names, fill (fun names => names.1.length < maxMsg - 3) (nameUserIn inArray junk cname) users
      (chanusers, true) = some names) ↔ ∀ before p, before ++ [p] <+: users →
        joined chanusers.length (memberWidths junk cname before) < maxMsg - 3 →
        joined chanusers.length (memberWidths junk cname (before ++ [p])) < maxMsg := by
  refine fillWords_iff ?_ ?_ h
  · intro p names hnone
    unfold nameUserIn
    rw [Option.map_eq_none_iff] at hnone
    rw [hnone]
    rfl
  · intro p w names hsome hlen
    obtain ⟨m, hm, rfl⟩ := Option.map_eq_some_iff.mp hsome
    refine ⟨(addMember junk m p.nick names).1, fun names' => ?_, fun _ => length_addMember⟩
    unfold nameUserIn
    rw [hm]
    exact addMemberIn_eq hlen

/-! ## Those on no channel -/

variable {p : Person}

/-- The pieces of a turn for a user on no channel. -/
theorem addLoner_eq (hnone : p.myChans.items.length = 0) : addLoner p names =
    (names.1 ++ pieceIf (!names.2) (str " ") ++
      strncat (maxMsg - (names.1 ++ pieceIf (!names.2) (str " ")).length) p.nick, false) := by
  have hblank : names.1 ++ pieceIf (!names.2) (str " ") =
      names.1 ++ if names.2 then [] else str " " := by
    cases names.2 <;> rfl
  unfold addLoner
  rw [if_pos hnone, hblank]

/-- Such a turn fits if blank and nick do. -/
theorem addLonerIn_eq (hnone : p.myChans.items.length = 0) (h : names.1.length < maxMsg) :
    addLonerIn inArray p names = some names' ↔
      names.1.length + gap names.2 + p.nick.length < maxMsg ∧ addLoner p names = names' := by
  unfold addLonerIn inArray
  rw [if_pos hnone, catIf_bind h, stored_bind, addLoner_eq hnone, ← length_blank]
  constructor
  · intro hall
    obtain ⟨hgap, hlast, heq⟩ := hall
    rw [length_cut hgap] at hlast
    exact ⟨by omega, Option.some.inj heq⟩
  · intro hall
    obtain ⟨hroom, heq⟩ := hall
    have hgap : (names.1 ++ pieceIf (!names.2) (str " ")).length < maxMsg := by omega
    refine ⟨hgap, ?_, congrArg some heq⟩
    rw [length_cut hgap]
    omega

/-- Then nothing is cut. -/
theorem length_addLoner (hnone : p.myChans.items.length = 0)
    (h : names.1.length + gap names.2 + p.nick.length < maxMsg) :
    (addLoner p names).1.length = names.1.length + gap names.2 + p.nick.length := by
  rw [← length_blank] at h ⊢
  rw [addLoner_eq hnone, length_cut (by omega)]
  omega

/-- After a turn that fits the string is in the array. -/
theorem addLonerIn_keeps (h : names.1.length < maxMsg)
    (hturn : addLonerIn inArray p names = some names') : names'.1.length < maxMsg := by
  by_cases hloner : p.myChans.items.length = 0
  · obtain ⟨hroom, rfl⟩ := (addLonerIn_eq hloner h).mp hturn
    rw [length_addLoner hloner hroom]
    exact hroom
  · unfold addLonerIn at hturn
    rw [if_neg hloner] at hturn
    rw [← Option.some.inj hturn]
    exact h

/-- The loop fits if each user that it gets to does. -/
theorem lonersLoop_iff {antisocial : CStr} {users : List Person} (h : antisocial.length < maxMsg) :
    (∃ names, fill (fun names => names.1.length + 1 < maxMsg) (addLonerIn inArray) users
      (antisocial, true) = some names) ↔ ∀ before p, before ++ [p] <+: users →
        joined antisocial.length (lonerWidths before) < maxMsg - 1 →
        joined antisocial.length (lonerWidths (before ++ [p])) < maxMsg := by
  have hguard : (fun names : CStr × Bool => decide (names.1.length + 1 < maxMsg)) =
      fun names => decide (names.1.length < maxMsg - 1) :=
    funext fun names => decide_eq_decide.mpr (by omega)
  rw [hguard]
  refine fillWords_iff ?_ ?_ h
  · intro p names hnone
    unfold addLonerIn
    by_cases hloner : p.myChans.items.length = 0
    · rw [if_pos hloner] at hnone
      cases hnone
    · rw [if_neg hloner]
  · intro p w names hsome hlen
    by_cases hloner : p.myChans.items.length = 0
    · rw [if_pos hloner] at hsome
      rw [← Option.some.inj hsome]
      have hpair : ((addLoner p names).1, false) = addLoner p names := by rw [addLoner_eq hloner]
      refine ⟨(addLoner p names).1, fun names' => ?_, length_addLoner hloner⟩
      rw [hpair]
      exact addLonerIn_eq hloner hlen
    · rw [if_neg hloner] at hsome
      cases hsome

/-! ## The lines -/

/-- A reply that shows what a loop has filled another array with. -/
theorem fillReply_fits {α β : Type} {go : β → Bool} {turn : α → β → Option β} {xs : List α} {b : β}
    (shown : β → CStr) (hwidth : ∀ nick extra, code.width cfg client nick [] extra = extra.length)
    (hkeep : ∀ x b b', (shown b).length < maxMsg → turn x b = some b' → (shown b').length < maxMsg)
    (h : (shown b).length < maxMsg) :
    Fits (fill go turn xs b >>= fun b' => constrReplyIn inArray cfg code client [] (shown b')) ↔
      cfg.servername.length + 1 < maxMsg ∧ ∃ b', fill go turn xs b = some b' := by
  rw [fits_fill]
  simp only [constrReplyIn_fits, hwidth]
  constructor
  · intro hall
    obtain ⟨b', hfill, hname, -⟩ := hall
    exact ⟨hname, b', hfill⟩
  · intro hall
    obtain ⟨hname, b', hfill⟩ := hall
    exact ⟨b', hfill, hname, fill_keeps hkeep h hfill⟩

/-- The sender's names, and four characters between them. -/
theorem length_relayPrefix : (relayPrefix p).length = p.tag + 4 := by
  unfold relayPrefix Person.tag
  simp [str]
  omega

/-- The places at which lines are built, one by one. -/
theorem Line.fits_room (cfg : Config) (line : Line) :
    Fits (line.build inArray cfg) ↔ line.room cfg := by
  cases line with
  | nick p newnick => exact iff_true_intro printLine_fits_two
  | quit p quitmsg => exact iff_true_intro printLine_fits_two
  | closing p quitmsg => exact iff_true_intro printLine_fits_two
  | notice p params => exact iff_true_intro printLine_fits_two
  | pong => exact iff_true_intro printLine_fits_two
  | memberMode p params => exact iff_true_intro printLine_fits_two
  | userMode params => exact iff_true_intro printLine_fits_two
  | privmsg p params =>
    refine printLine_fits_one.trans ?_
    simp [Line.room, length_relayPrefix, str]
    omega
  | join p cname =>
    refine printLine_fits_one.trans ?_
    simp [Line.room, length_relayPrefix, str]
    omega
  | part p params =>
    refine printLine_fits_one.trans ?_
    by_cases hnone : params.get 2 = []
    · simp [Line.room, length_relayPrefix, str, hnone]
      omega
    · simp [Line.room, length_relayPrefix, str, hnone]
      omega
  | topic p cname text =>
    refine printLine_fits_one.trans ?_
    simp [Line.room, length_relayPrefix, str]
    omega
  | chanMode p cname params =>
    refine fits_store.trans ?_
    rw [fits_crlf]
    simp [Line.room, length_relayPrefix, str]
    omega
  | reply code client extra => exact constrReplyIn_fits
  | unknownMode client params cname =>
    have hwidth : ∀ nick, Reply.width cfg client nick (modeLetterStr params) cname .errUnknownmode =
      (modeLetterStr params).length + cname.length + 33 := fun _ => rfl
    refine fits_store.trans ?_
    rw [constrReplyIn_fits, hwidth]
    unfold Line.room
    omega
  | away client recip => exact replyCut_fits le_rfl fun _ _ => rfl
  | whoisUser client whois target => exact replyCut_fits (by decide) fun _ _ => rfl
  | whoisServer client whois target => exact replyCut_fits (by decide) fun _ _ => rfl
  | whoisAway client whois target => exact replyCut_fits (by decide) fun _ _ => rfl
  | who client whouser place flags => exact replyCut_fits (by decide) fun _ _ => rfl
  | topicIs client cname text =>
    have hwidth : ∀ nick reply, Reply.width cfg client nick reply [] .rplTopic = reply.length :=
      fun _ _ => rfl
    refine fits_store.trans ?_
    rw [constrReplyIn_fits, hwidth, length_snprintf]
    unfold Line.room maxMsg
    omega
  | list client c =>
    refine (replyFrom_fits fun _ _ => rfl).trans ?_
    unfold Line.room listEntry
    by_cases hnone : c.topic = []
    · simp [str, hnone]
      omega
    · simp [str, hnone]
      omega
  | channelMode client c =>
    refine (replyFrom_fits fun _ _ => rfl).trans ?_
    unfold Line.room
    simp [str]
    omega
  | notOnChannel client params =>
    have hwidth : ∀ nick extra, Reply.width cfg client nick [] extra .errUsernotinchannel =
      extra.length + 29 := fun _ _ => rfl
    refine fits_store.trans ?_
    rw [constrReplyIn_fits, hwidth]
    unfold Line.room
    simp [str]
    omega
  | whoisChans client target chans =>
    have hlen : (snprintf (maxMsg - 1) (target ++ str " :")).length =
        min (target.length + 2) (maxMsg - 2) := by
      rw [length_snprintf, List.length_append]
      exact Nat.min_comm _ _
    have hroom : (snprintf (maxMsg - 1) (target ++ str " :")).length < maxMsg := by
      rw [hlen]
      unfold maxMsg
      omega
    refine fits_store.trans ((and_iff_right hroom).trans ?_)
    refine (fillReply_fits WhoisChans.wichannels (fun _ _ => rfl) ?_ hroom).trans ?_
    · intro m acc acc' hacc hturn
      obtain ⟨hnext, rfl⟩ := (addChanIn_eq hacc).mp hturn
      rw [(length_add hnext).1]
      exact hnext
    · rw [whoisLoop_iff hroom, hlen]
      exact Iff.rfl
  | names client cname junk users =>
    have hlen : (str "= " ++ cname ++ str " :").length = cname.length + 4 := by simp [str]
    refine (fits_store.trans ((and_congr_right fun hroom =>
      (fillReply_fits Prod.fst (fun _ _ => rfl) (fun _ _ _ => nameUserIn_keeps) hroom).trans
        (and_congr_right fun _ => namesLoop_iff hroom)).trans and_left_comm)).trans ?_
    rw [hlen]
    exact Iff.rfl
  | loners client users =>
    have hroom : (str "* * :").length < maxMsg := by decide
    refine fits_store.trans ((and_iff_right hroom).trans ?_)
    exact (fillReply_fits Prod.fst (fun _ _ => rfl) (fun _ _ _ => addLonerIn_keeps) hroom).trans
      (and_congr_right fun _ => lonersLoop_iff hroom)

/-- **A line fits** in the arrays it is built in exactly when there is room for it. -/
theorem line_fits_iff (cfg : Config) (line : Line) :
    Fits (line.build inArray cfg) ↔ line.room cfg :=
  line.fits_room cfg

/-- A message as long as they get. -/
def longMessage : Params := [str "PRIVMSG", str "b", chr ':' :: List.replicate 499 (chr 'x')]

/-- The line that relays it is longer than the message, by the sender's names. -/
theorem line_overruns : ¬ ∀ (cfg : Config) (p : Person) (params : Params), MessageShape params →
    params.length ≤ maxParams → (∀ f ∈ params, 0 ∉ f) → (joinParams params).length ≤ maxMsg - 2 →
    Fits ((Line.privmsg p params).build inArray cfg) := by
  intro hall
  have hfits := hall ⟨[], [], [], [], none⟩
    ⟨4, str "a", str "u", str "u", str "h", [], [], .init⟩ longMessage
    (by decide +kernel) (by decide) (by decide +kernel) (by decide +kernel)
  exact absurd (printLine_fits_one.mp hfits) (by decide +kernel)

end UchiNetworks.Chirc
