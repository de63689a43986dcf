import Mathlib.Data.List.Chain
import Mathlib.Data.List.TakeWhile
import UchiNetworks.Lib.Lines

/-!
# chirc: from received chunks to messages

`parse_message` (`src/parser.c`) reads from a client's socket and calls `parse`
on each line. Between two `recv`s it remembers the beginning of a line (`msg`),
whether that ended in a CR (`CRLFsplit`), and whether it is in the middle of a
line too long to keep (`truncated`).

Mirroring notes vs the C:
- A chunk is a C string once it is received, so what stands behind a NUL byte in
  it is lost. `msglength` is `strlen(msg)` wherever it is read.
- `msg` has room for 510 characters. `strcat` runs past that by one or two bytes
  when a line is too long; the copy is done here, the bytes overwritten are not
  part of the model. The store `msg[msglength - 2]` for a lone CR lies before
  the array.
- In the middle of a truncated line a chunk without CRLF makes
  `strstr(buf, "\\r\\n") + 2` the address 2, which is then read: `none` here.

The unfinished rest of the stream is what the framer should remember, and what
it does remember as long as no chunk ends between a CR and its LF. When one
does, the line loses its last character: the CR is at `msg[msglength - 1]`, and
the code cuts at `msglength - 2`.
-/

namespace UchiNetworks.Chirc

open UchiNetworks.Lib

def maxMsg : Nat := 512

def CR : UInt8 := 13
def LF : UInt8 := 10

/-- What `parse_message` carries from one `recv` to the next. -/
structure Framer where
  msg : List UInt8
  crlfSplit : Bool
  truncated : Bool
  deriving DecidableEq, Repr

def Framer.init : Framer := ⟨[], false, false⟩

/-- `msg[msglength - 2] = '\\0'` -/
def cutSplit (msg : List UInt8) : List UInt8 :=
  if msg.length < 2 then msg else msg.take (msg.length - 2)

/-- The procedure for a CRLF split across chunks: where the rest of the chunk
starts, what is left in `msg`, and the calls to `parse`. -/
def joinSplit (st : Framer) (buf : List UInt8) :
    List UInt8 × List UInt8 × List (List UInt8) :=
  if st.crlfSplit ∧ buf.head? = some LF then
    if st.msg.length > 0 then (buf.tail, [], [cutSplit st.msg]) else (buf.tail, st.msg, [])
  else (buf, st.msg, [])

/-- What `strcat` adds of a complete line. One that is too long is ended at the
maximum, which may take in its CR. -/
def clipLine (msg msgstart line : List UInt8) : List UInt8 :=
  if msg.length + line.length > maxMsg - 2 then msgstart.take (maxMsg - msg.length) else line

/-- Get and parse as many complete messages as the chunk contains, at most `n`. -/
def parseLines : Nat → List UInt8 → List UInt8 →
    List (List UInt8) × List UInt8 × List UInt8
  | 0, msg, msgstart => ([], msg, msgstart)
  | n + 1, msg, msgstart =>
    match breakAt CR LF msgstart with
    | none => ([], msg, msgstart)
    | some (line, next) =>
      let (calls, msg', rest) := parseLines n [] next
      ((msg ++ clipLine msg msgstart line) :: calls, msg', rest)

/-- One turn of `parse_message`'s loop: the framer after it and the arguments of
its calls to `parse`. -/
def recvChunk (st : Framer) (chunk : List UInt8) : Option (Framer × List (List UInt8)) :=
  let buf := chunk.takeWhile (· ≠ 0)
  let (msgstart, msg, split) := joinSplit st buf
  let start := if st.truncated then (breakAt CR LF buf).map Prod.snd else some msgstart
  match start with
  | none => none
  | some msgstart =>
    let (calls, msg, rest) := parseLines buf.length msg msgstart
    let remaind := maxMsg - msg.length - 1
    -- an empty rest follows the LF of a line, which is no CR
    let crlfSplit := decide (rest.getLast? = some CR)
    if rest.length ≤ remaind then some (⟨msg ++ rest, crlfSplit, false⟩, split ++ calls)
    else some (⟨[], crlfSplit, true⟩, split ++ calls ++ [msg ++ rest.take remaind])

/-- The calls to `parse` over a sequence of chunks. -/
def feed (st : Framer) : List (List UInt8) → Option (List (List UInt8))
  | [] => some []
  | chunk :: chunks =>
    match recvChunk st chunk with
    | none => none
    | some (st', calls) => (feed st' chunks).map (calls ++ ·)

def dispatched (chunks : List (List UInt8)) : Option (List (List UInt8)) :=
  feed .init chunks

/-- What `recv` may give: 1 to `MAXMSG` bytes, here without NUL. -/
def Received (chunk : List UInt8) : Prop := chunk ≠ [] ∧ chunk.length ≤ maxMsg ∧ 0 ∉ chunk

instance (chunk : List UInt8) : Decidable (Received chunk) :=
  inferInstanceAs (Decidable (_ ∧ _ ∧ _))

/-- The cut between two chunks does not lie within a CRLF. -/
def CutOutside (c d : List UInt8) : Prop := ¬(c.getLast? = some CR ∧ d.head? = some LF)

instance (c d : List UInt8) : Decidable (CutOutside c d) := inferInstanceAs (Decidable (¬_))

/-! ## The loop over complete messages -/

/-- Two unfinished rests that end alike go on alike. -/
theorem cutOutside_congr {c d : List UInt8} {ds : List (List UInt8)}
    (h : c.getLast? = some CR ↔ d.getLast? = some CR) :
    List.IsChain CutOutside (c :: ds) ↔ List.IsChain CutOutside (d :: ds) := by
  cases ds with
  | nil => simp
  | cons e es => simp only [List.isChain_cons_cons, CutOutside, h]

theorem takeWhile_nul_free {chunk : List UInt8} (h : 0 ∉ chunk) :
    chunk.takeWhile (· ≠ 0) = chunk := by
  rw [List.takeWhile_eq_self_iff]
  intro b hb
  simp only [decide_eq_true_eq]
  intro hb0
  exact h (hb0 ▸ hb)

theorem clipLine_fit {msg msgstart line : List UInt8} (h : msg.length + line.length ≤ 510) :
    clipLine msg msgstart line = line := by
  unfold clipLine maxMsg
  rw [if_neg (by omega)]

/-- From an empty `msg` on, the loop finds the lines of its input. -/
theorem parseLines_nil : ∀ (n : Nat) (s : List UInt8), s.length ≤ n →
    (∀ l ∈ (frames CR LF s).1, l.length ≤ 510) →
    parseLines n [] s = ((frames CR LF s).1, [], (frames CR LF s).2) := by
  intro n
  induction n with
  | zero =>
    intro s hs _
    rw [List.eq_nil_of_length_eq_zero (Nat.le_zero.mp hs)]
    rfl
  | succ n ih =>
    intro s hs hfit
    unfold parseLines
    cases hbr : breakAt CR LF s with
    | none => rw [frames_of_none hbr]
    | some p =>
      obtain ⟨line, next⟩ := p
      rw [frames_of_some hbr] at hfit ⊢
      have hlen := congrArg List.length (breakAt_some hbr)
      simp only [List.length_append, List.length_cons] at hlen
      have hline : line.length ≤ 510 := hfit line List.mem_cons_self
      have hnext := ih next (by omega) fun l hl => hfit l (List.mem_cons_of_mem _ hl)
      simp only [hnext, List.nil_append]
      rw [clipLine_fit (by rw [List.length_nil]; omega)]

/-- With the beginning `t` of a line in `msg`, the loop finds the lines of `t`
and its input together, when the cut between them lies outside a CRLF. -/
theorem parseLines_rest {t s : List UInt8} (ht : breakAt CR LF t = none)
    (hcut : CutOutside t s) (hfit : ∀ l ∈ (frames CR LF (t ++ s)).1, l.length ≤ 510) :
    (parseLines s.length t s).1 = (frames CR LF (t ++ s)).1 ∧
    (parseLines s.length t s).2.1 ++ (parseLines s.length t s).2.2 = (frames CR LF (t ++ s)).2 ∧
    ((parseLines s.length t s).2.1 = [] ∨
      (parseLines s.length t s).2.1 = t ∧ (parseLines s.length t s).2.2 = s) := by
  have hbr := breakAt_append_none s ht hcut
  cases hs : breakAt CR LF s with
  | none =>
    rw [hs] at hbr
    -- no CRLF in the chunk either: all is kept
    have hstay : parseLines s.length t s = ([], t, s) := by
      unfold parseLines
      cases s with
      | nil => rfl
      | cons b s =>
        simp only [List.length_cons]
        rw [hs]
    rw [hstay, frames_of_none hbr]
    exact ⟨rfl, rfl, Or.inr ⟨rfl, rfl⟩⟩
  | some p =>
    obtain ⟨line, next⟩ := p
    rw [hs] at hbr
    have hbr' : breakAt CR LF (t ++ s) = some (t ++ line, next) := hbr
    rw [frames_of_some hbr'] at hfit ⊢
    have hlen := congrArg List.length (breakAt_some hs)
    simp only [List.length_append, List.length_cons] at hlen
    obtain ⟨n, hn⟩ : ∃ n, s.length = n + 1 := ⟨s.length - 1, by omega⟩
    have hline : t.length + line.length ≤ 510 := by
      rw [← List.length_append]
      exact hfit _ List.mem_cons_self
    have hnext := parseLines_nil n next (by omega) fun l hl => hfit l (List.mem_cons_of_mem _ hl)
    -- the line that `t` began ends here, and the rest is read from an empty `msg`
    have hgo : parseLines s.length t s
        = ((t ++ line) :: (frames CR LF next).1, [], (frames CR LF next).2) := by
      rw [hn, parseLines, hs]
      simp only [hnext]
      rw [clipLine_fit hline]
    rw [hgo]
    exact ⟨rfl, rfl, Or.inl rfl⟩

/-! ## One chunk -/

/-- The framer remembers the unfinished rest `t`. -/
structure Holds (st : Framer) (t : List UInt8) : Prop where
  msg : st.msg = t
  split : st.crlfSplit = decide (t.getLast? = some CR)
  whole : st.truncated = false
  rest : breakAt CR LF t = none
  len : t.length ≤ 511

theorem CR_ne_LF : CR ≠ LF := by decide

/-- What one turn gives when the cut before the chunk is outside a CRLF. -/
theorem recvChunk_outside {st : Framer} {t c : List UInt8} (h : Holds st t) (hc : Received c)
    (hcut : CutOutside t c) :
    recvChunk st c =
      if (parseLines c.length t c).2.2.length ≤ maxMsg - (parseLines c.length t c).2.1.length - 1
      then some (⟨(parseLines c.length t c).2.1 ++ (parseLines c.length t c).2.2,
          decide ((parseLines c.length t c).2.2.getLast? = some CR), false⟩,
        (parseLines c.length t c).1)
      else some (⟨[], decide ((parseLines c.length t c).2.2.getLast? = some CR), true⟩,
        (parseLines c.length t c).1 ++ [(parseLines c.length t c).2.1 ++
          (parseLines c.length t c).2.2.take
            (maxMsg - (parseLines c.length t c).2.1.length - 1)]) := by
  have hno : ¬(st.crlfSplit = true ∧ c.head? = some LF) := by
    rw [h.split, decide_eq_true_eq]
    exact hcut
  unfold recvChunk
  rw [takeWhile_nul_free hc.2.2]
  simp only [joinSplit, if_neg hno, h.whole, h.msg, List.nil_append]
  rfl

theorem getLast?_chunk {t c : List UInt8} (hc : c ≠ []) : (t ++ c).getLast? = c.getLast? := by
  cases c with
  | nil => exact absurd rfl hc
  | cons b c => simp [List.getLast?_cons]

/-- **A chunk whose rest fits** gives its lines, and the rest is remembered. -/
theorem recvChunk_fits {st : Framer} {t c : List UInt8} (h : Holds st t) (hc : Received c)
    (hcut : CutOutside t c) (hfit : ∀ l ∈ (frames CR LF (t ++ c)).1, l.length ≤ 510)
    (hlen : (frames CR LF (t ++ c)).2.length ≤ 511) :
    ∃ st', recvChunk st c = some (st', (frames CR LF (t ++ c)).1) ∧
      Holds st' (frames CR LF (t ++ c)).2 := by
  obtain ⟨hlines, hrest, hwhere⟩ := parseLines_rest h.rest hcut hfit
  have hle : (parseLines c.length t c).2.1.length + (parseLines c.length t c).2.2.length ≤ 511 := by
    rw [← List.length_append, hrest]
    exact hlen
  have hlast : (parseLines c.length t c).2.2.getLast? = some CR ↔
      (frames CR LF (t ++ c)).2.getLast? = some CR := by
    rw [← hrest]
    rcases hwhere with hnil | ⟨hmsg, hs⟩
    · rw [hnil, List.nil_append]
    · rw [hmsg, hs, getLast?_chunk hc.1]
  refine ⟨⟨(parseLines c.length t c).2.1 ++ (parseLines c.length t c).2.2,
    decide ((parseLines c.length t c).2.2.getLast? = some CR), false⟩, ?_,
    ⟨hrest, ?_, rfl, breakAt_rest _, hlen⟩⟩
  · rw [recvChunk_outside h hc hcut, if_pos (by unfold maxMsg; omega), hlines]
  · exact decide_eq_decide.mpr hlast

/-- A chunk whose rest does not fit makes one call too many. -/
theorem recvChunk_long {st : Framer} {t c : List UInt8} (h : Holds st t) (hc : Received c)
    (hcut : CutOutside t c) (hfit : ∀ l ∈ (frames CR LF (t ++ c)).1, l.length ≤ 510)
    (hlen : 511 < (frames CR LF (t ++ c)).2.length) :
    ∃ st' part, recvChunk st c = some (st', (frames CR LF (t ++ c)).1 ++ [part]) := by
  obtain ⟨hlines, hrest, hwhere⟩ := parseLines_rest h.rest hcut hfit
  have hle : 511 < (parseLines c.length t c).2.1.length + (parseLines c.length t c).2.2.length := by
    rw [← List.length_append, hrest]
    exact hlen
  have hmsg : (parseLines c.length t c).2.1.length ≤ 511 := by
    rcases hwhere with hnil | ⟨hmsg, -⟩
    · rw [hnil]
      exact Nat.zero_le _
    · rw [hmsg]
      exact h.len
  rw [recvChunk_outside h hc hcut, if_neg (by unfold maxMsg; omega), hlines]
  exact ⟨_, _, rfl⟩

/-- **A cut within a CRLF** spoils the line that ends there. -/
theorem recvChunk_inside {st : Framer} {t c : List UInt8} (h : Holds st t) (hc : Received c)
    (hcut : ¬CutOutside t c) :
    ∃ line, (frames CR LF (t ++ c)).1.head? = some line ∧
      ∀ st' calls, recvChunk st c = some (st', calls) → ∃ w, calls.head? = some w ∧ w ≠ line := by
  have hends : t.getLast? = some CR ∧ c.head? = some LF := not_not.mp hcut
  obtain ⟨x, rfl⟩ := List.getLast?_eq_some_iff.mp hends.1
  obtain ⟨y, rfl⟩ := List.head?_eq_some_iff.mp hends.2
  refine ⟨x, by rw [frames_of_some (breakAt_across y CR_ne_LF h.rest)]; rfl, ?_⟩
  intro st' calls hcalls
  refine ⟨cutSplit (x ++ [CR]), ?_, ?_⟩
  · have hyes : st.crlfSplit = true ∧ (LF :: y).head? = some LF := by
      rw [h.split]
      exact ⟨decide_eq_true hends.1, rfl⟩
    have hpos : (x ++ [CR]).length > 0 := by simp
    unfold recvChunk at hcalls
    rw [takeWhile_nul_free hc.2.2] at hcalls
    simp only [joinSplit, if_pos hyes, h.whole, h.msg, if_pos hpos, Bool.false_eq_true,
      if_false] at hcalls
    split at hcalls
    next =>
      obtain ⟨-, rfl⟩ := Prod.mk.inj (Option.some.inj hcalls)
      rfl
    next =>
      obtain ⟨-, rfl⟩ := Prod.mk.inj (Option.some.inj hcalls)
      rfl
  · -- the line has lost its last character, or is the CR itself
    intro heq
    have hlen := congrArg List.length heq
    unfold cutSplit at hlen
    split at hlen
    next => simp at hlen
    next hlong =>
      simp only [List.length_take, List.length_append, List.length_singleton] at hlen hlong
      omega

/-- A rest that is too long is not the beginning of a line short enough. -/
theorem frames_long_rest {u : List UInt8} (F : List UInt8) (hu : breakAt CR LF u = none)
    (hlen : 511 < u.length) (hfit : ∀ l ∈ (frames CR LF (u ++ F)).1, l.length ≤ 510) :
    frames CR LF (u ++ F) = ([], u ++ F) := by
  cases hbr : breakAt CR LF (u ++ F) with
  | none => exact frames_of_none hbr
  | some p =>
    obtain ⟨l, r⟩ := p
    rw [frames_of_some hbr] at hfit
    have hl : l.length ≤ 510 := hfit l List.mem_cons_self
    by_cases hcut : CutOutside u F
    · -- the line would contain all of `u`
      rw [breakAt_append_none F hu hcut] at hbr
      obtain ⟨⟨l', r'⟩, -, heq⟩ := Option.map_eq_some_iff.mp hbr
      obtain ⟨rfl, -⟩ := Prod.mk.inj heq
      rw [List.length_append] at hl
      omega
    · have hends := not_not.mp hcut
      obtain ⟨x, rfl⟩ := List.getLast?_eq_some_iff.mp hends.1
      obtain ⟨y, rfl⟩ := List.head?_eq_some_iff.mp hends.2
      rw [breakAt_across y CR_ne_LF hu] at hbr
      obtain ⟨rfl, -⟩ := Prod.mk.inj (Option.some.inj hbr)
      rw [List.length_append, List.length_singleton] at hlen
      omega

/-! ## A sequence of chunks -/

/-- From a framer that remembers `t`. -/
theorem feed_iff : ∀ (chunks : List (List UInt8)) (st : Framer) (t : List UInt8), Holds st t →
    (∀ c ∈ chunks, Received c) →
    (∀ l ∈ (frames CR LF (t ++ chunks.flatten)).1, l.length ≤ 510) →
    (feed st chunks = some (frames CR LF (t ++ chunks.flatten)).1 ↔
      List.IsChain CutOutside (t :: chunks) ∧
        (frames CR LF (t ++ chunks.flatten)).2.length ≤ 511) := by
  intro chunks
  induction chunks with
  | nil =>
    intro st t h _ _
    rw [List.flatten_nil, List.append_nil, frames_of_none h.rest]
    exact ⟨fun _ => ⟨List.isChain_singleton t, h.len⟩, fun _ => rfl⟩
  | cons c cs ih =>
    intro st t h hrecv hfit
    have hc := hrecv c List.mem_cons_self
    have hcs : ∀ d ∈ cs, Received d := fun d hd => hrecv d (List.mem_cons_of_mem _ hd)
    rw [List.flatten_cons, ← List.append_assoc, frames_append (t ++ c)] at hfit ⊢
    have hfit₁ : ∀ l ∈ (frames CR LF (t ++ c)).1, l.length ≤ 510 :=
      fun l hl => hfit l (List.mem_append_left _ hl)
    have hfit₂ : ∀ l ∈ (frames CR LF ((frames CR LF (t ++ c)).2 ++ cs.flatten)).1,
        l.length ≤ 510 := fun l hl => hfit l (List.mem_append_right _ hl)
    by_cases hcut : CutOutside t c
    · by_cases hlen : (frames CR LF (t ++ c)).2.length ≤ 511
      · obtain ⟨st', hstep, hst'⟩ := recvChunk_fits h hc hcut hfit₁ hlen
        -- what is left over ends as the chunk does, so the next cut is judged alike
        have hchain : List.IsChain CutOutside (t :: c :: cs) ↔
            List.IsChain CutOutside ((frames CR LF (t ++ c)).2 :: cs) := by
          rw [List.isChain_cons_cons]
          have hlast := rest_getLast? CR_ne_LF (t ++ c)
          rw [getLast?_chunk hc.1] at hlast
          rw [cutOutside_congr hlast.symm]
          exact and_iff_right hcut
        have hfeed : feed st (c :: cs) = some ((frames CR LF (t ++ c)).1 ++
              (frames CR LF ((frames CR LF (t ++ c)).2 ++ cs.flatten)).1) ↔
            feed st' cs = some (frames CR LF ((frames CR LF (t ++ c)).2 ++ cs.flatten)).1 := by
          simp only [feed, hstep]
          cases feed st' cs with
          | none => simp
          | some outs => simp
        rw [hfeed, hchain]
        exact ih st' _ hst' hcs hfit₂
      · -- more calls than lines, and a rest that stays too long
        obtain ⟨st', part, hstep⟩ := recvChunk_long h hc hcut hfit₁ (by omega)
        rw [frames_long_rest cs.flatten (breakAt_rest _) (by omega) hfit₂]
        constructor
        · intro hfeed
          simp only [feed, hstep] at hfeed
          cases hrest : feed st' cs with
          | none => simp [hrest] at hfeed
          | some outs => simp [hrest] at hfeed
        · rintro ⟨-, htail⟩
          simp only [List.length_append] at htail
          omega
    · obtain ⟨line, hline, hwrong⟩ := recvChunk_inside h hc hcut
      constructor
      · intro hfeed
        simp only [feed] at hfeed
        cases hstep : recvChunk st c with
        | none => simp [hstep] at hfeed
        | some p =>
          obtain ⟨st', calls⟩ := p
          obtain ⟨w, hw, hne⟩ := hwrong st' calls hstep
          simp only [hstep] at hfeed
          cases hrest : feed st' cs with
          | none => simp [hrest] at hfeed
          | some outs =>
            -- the first call is not the first line
            simp only [hrest, Option.map_some, Option.some.injEq] at hfeed
            have hhead := congrArg List.head? hfeed
            rw [List.head?_append, List.head?_append, hw, hline] at hhead
            exact absurd (Option.some.inj hhead) hne
      · rintro ⟨hchain, -⟩
        exact absurd (List.isChain_cons_cons.mp hchain).1 hcut

/-- **The calls to `parse` are the lines of the stream in exactly the
segmentations that cut no CRLF in two** (and leave no rest longer than `msg`). -/
theorem dispatched_lines_iff {chunks : List (List UInt8)} (hrecv : ∀ c ∈ chunks, Received c)
    (hfit : ∀ l ∈ (frames CR LF chunks.flatten).1, l.length ≤ 510) :
    dispatched chunks = some (frames CR LF chunks.flatten).1 ↔
      List.IsChain CutOutside chunks ∧ (frames CR LF chunks.flatten).2.length ≤ 511 := by
  have hstart : Holds .init [] := ⟨rfl, rfl, rfl, rfl, Nat.zero_le _⟩
  have hiff := feed_iff chunks .init [] hstart hrecv hfit
  have hchain : List.IsChain CutOutside ([] :: chunks) ↔ List.IsChain CutOutside chunks := by
    cases chunks with
    | nil => simp
    | cons c cs =>
      rw [List.isChain_cons_cons]
      exact and_iff_right fun hends => by cases hends.1
  rw [hchain] at hiff
  exact hiff

/-- `NICK`, cut before its CR, and `USER` with a cut in the middle. -/
def goodCuts : List (List UInt8) :=
  [[78, 73, 67, 75], [13, 10, 85, 83], [69, 82, 13, 10]]

theorem goodCuts_dispatched :
    dispatched goodCuts = some (frames CR LF goodCuts.flatten).1 := by
  refine (dispatched_lines_iff ?_ ?_).mpr ?_
  · decide
  · decide
  · exact ⟨by decide, by decide⟩

/-- `NICK` with the chunk ending between CR and LF: `parse` gets `NIC`. -/
theorem splitCut_misread :
    (∀ c ∈ [[78, 73, 67, 75, 13], [10]], Received c) ∧
    (∀ l ∈ (frames CR LF [[78, 73, 67, 75, 13], [10]].flatten).1, l.length ≤ 510) ∧
    dispatched [[78, 73, 67, 75, 13], [10]] = some [[78, 73, 67]] ∧
    dispatched [[78, 73, 67, 75, 13], [10]]
      ≠ some (frames CR LF [[78, 73, 67, 75, 13], [10]].flatten).1 := by
  refine ⟨by decide, by decide, by decide, by decide⟩

end UchiNetworks.Chirc
