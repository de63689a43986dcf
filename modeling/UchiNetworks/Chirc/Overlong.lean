import UchiNetworks.Chirc.Framer

/-!
# chirc: lines that are too long

Three places of `parse_message` cut a line that does not fit, and each leaves
more than 510 characters in `msg`: the loop over complete messages 512, the
remainder 511, and a line whose CR has come but not its LF is never so long.
So an overlong line is never dispatched as its first 510 characters
(`overlong_never`), whatever came before it and wherever the chunks are cut.

`Trails` is what the framer is sure to remember: `msg` ends with the unfinished
line. It may begin with more, when an empty C string has made it forget a CR.
-/

namespace UchiNetworks.Chirc

open UchiNetworks.Lib

/-- The bytes of the chunks that are seen: each is a C string. -/
def seen (chunks : List (List UInt8)) : List UInt8 :=
  (chunks.map fun c => c.takeWhile (· ≠ 0)).flatten

/-- Each line is dispatched once, as its first 510 characters. -/
def TruncatesLines (chunks : List (List UInt8)) : Prop :=
  dispatched chunks = some ((frames CR LF (seen chunks)).1.map fun l => l.take 510)

instance (chunks : List (List UInt8)) : Decidable (TruncatesLines chunks) :=
  inferInstanceAs (Decidable (_ = _))

/-- `strlen(msg)` is at most 510 in every call to `parse`. -/
def StaysInMsg (chunks : List (List UInt8)) : Prop :=
  ∃ calls, dispatched chunks = some calls ∧ ∀ msg ∈ calls, msg.length ≤ 510

/-- The framer is in the middle of the last line of `u`. -/
structure Trails (st : Framer) (u : List UInt8) : Prop where
  whole : st.truncated = false
  msg : st.msg <:+ u
  rest : (frames CR LF u).2 <:+ st.msg
  len : st.msg.length ≤ 511
  split : st.crlfSplit = true → st.msg.getLast? = some CR

/-! ## The loop over complete messages -/

theorem clipLine_long {msg line next : List UInt8} (hmsg : msg.length ≤ 511)
    (hlong : 510 < msg.length + line.length) :
    510 < (msg ++ clipLine msg (line ++ CR :: LF :: next) line).length := by
  unfold clipLine maxMsg
  rw [if_pos hlong, List.length_append, List.length_take]
  simp only [List.length_append, List.length_cons]
  omega

theorem parseLines_none {n : Nat} {msg s : List UInt8} (hn : s.length ≤ n)
    (hs : breakAt CR LF s = none) : parseLines n msg s = ([], msg, s) := by
  cases n with
  | zero =>
    rw [List.eq_nil_of_length_eq_zero (Nat.le_zero.mp hn)]
    rfl
  | succ n =>
    unfold parseLines
    rw [hs]

/-- What the loop does with the unfinished line `r` at the end of `msg`: a call
that is too long, or no line was too long and the next unfinished line is kept. -/
theorem parseLines_trails : ∀ (n : Nat) (msg s r : List UInt8), s.length ≤ n →
    msg.length ≤ 511 → r <:+ msg → breakAt CR LF r = none →
    (∃ call ∈ (parseLines n msg s).1, 510 < call.length) ∨
    (∀ l ∈ (frames CR LF (r ++ s)).1, l.length ≤ 510) ∧
      (parseLines n msg s).2.1.length ≤ 511 ∧
      (frames CR LF (r ++ s)).2 <:+ (parseLines n msg s).2.1 ++ (parseLines n msg s).2.2 ∧
      (parseLines n msg s).2.1 ++ (parseLines n msg s).2.2 <:+ msg ++ s
  | n, msg, s, r, hn, hmsg, hr, hbr => by
    have hrlen := hr.length_le
    cases hs : breakAt CR LF s with
    | none =>
      rw [parseLines_none hn hs]
      refine Or.inr ⟨?_, hmsg, ?_, List.suffix_refl _⟩
      · intro l hl
        have := length_of_mem_across CR_ne_LF hbr hs l hl
        omega
      · obtain ⟨p, rfl⟩ := hr
        exact (rest_suffix (r ++ s)).trans ⟨p, by rw [List.append_assoc]⟩
    | some q =>
      obtain ⟨line, next⟩ := q
      have heq := breakAt_some hs
      subst heq
      simp only [List.length_append, List.length_cons] at hn
      obtain ⟨m, rfl⟩ : ∃ m, n = m + 1 := ⟨n - 1, by omega⟩
      have hgo : parseLines (m + 1) msg (line ++ CR :: LF :: next) =
          ((msg ++ clipLine msg (line ++ CR :: LF :: next) line) :: (parseLines m [] next).1,
            (parseLines m [] next).2.1, (parseLines m [] next).2.2) := by
        rw [parseLines, hs]
      rw [hgo]
      by_cases hlong : 510 < msg.length + line.length
      · exact Or.inl ⟨_, List.mem_cons_self, clipLine_long hmsg hlong⟩
      · -- the line ends here, and the loop goes on with nothing
        have hcut : r ++ (line ++ CR :: LF :: next) = r ++ line ++ [CR, LF] ++ next := by simp
        rw [hcut, frames_append, rest_terminated CR_ne_LF, List.nil_append]
        rcases parseLines_trails m [] next [] (by omega) (by simp) (List.suffix_refl _) rfl with
          ⟨call, hcall, hlen⟩ | ⟨hlines, hlen, hrest, hkept⟩
        · exact Or.inl ⟨call, List.mem_cons_of_mem _ hcall, hlen⟩
        · rw [List.nil_append] at hlines hrest hkept
          refine Or.inr ⟨?_, hlen, hrest, ?_⟩
          · intro l hl
            rcases List.mem_append.mp hl with hl | hl
            · have := length_of_mem_frames _ l hl
              simp only [List.length_append, List.length_cons, List.length_nil] at this
              omega
            · exact hlines l hl
          · exact hkept.trans ⟨msg ++ (line ++ [CR, LF]), by simp⟩

/-! ## One chunk -/

/-- What one turn gives when the framer is not in a truncated line. -/
theorem recvChunk_of {st : Framer} {c msg s : List UInt8} {split : List (List UInt8)}
    (hwhole : st.truncated = false)
    (hjoin : joinSplit st (c.takeWhile (· ≠ 0)) = (s, msg, split)) (p : List (List UInt8) ×
      List UInt8 × List UInt8) (hp : parseLines (c.takeWhile (· ≠ 0)).length msg s = p) :
    recvChunk st c =
      if p.2.2.length ≤ maxMsg - p.2.1.length - 1
      then some (⟨p.2.1 ++ p.2.2, decide (p.2.2.getLast? = some CR), false⟩, split ++ p.1)
      else some (⟨[], decide (p.2.2.getLast? = some CR), true⟩,
        split ++ p.1 ++ [p.2.1 ++ p.2.2.take (maxMsg - p.2.1.length - 1)]) := by
  subst hp
  unfold recvChunk
  simp only [hjoin, hwhole]
  rfl

/-- What is left of the chunk after the loop is kept, or is a call that is too
long. -/
theorem recvChunk_rest {st : Framer} {u c msg s r : List UInt8} {split : List (List UInt8)}
    (hwhole : st.truncated = false)
    (hjoin : joinSplit st (c.takeWhile (· ≠ 0)) = (s, msg, split))
    (hn : s.length ≤ (c.takeWhile (· ≠ 0)).length) (hmsg : msg.length ≤ 511) (hr : r <:+ msg)
    (hbr : breakAt CR LF r = none) (hu : (frames CR LF u).2 = (frames CR LF (r ++ s)).2)
    (hseen : msg ++ s <:+ u) :
    ∃ st' calls, recvChunk st c = some (st', calls) ∧
      ((∃ call ∈ calls, 510 < call.length) ∨
        Trails st' u ∧ ∀ l ∈ (frames CR LF (r ++ s)).1, l.length ≤ 510) := by
  have htrails := parseLines_trails (c.takeWhile (· ≠ 0)).length msg s r hn hmsg hr hbr
  obtain ⟨p, hp⟩ : ∃ p, parseLines (c.takeWhile (· ≠ 0)).length msg s = p := ⟨_, rfl⟩
  rw [hp] at htrails
  rw [recvChunk_of hwhole hjoin p hp]
  by_cases hfit : p.2.2.length ≤ maxMsg - p.2.1.length - 1
  · rw [if_pos hfit]
    refine ⟨_, _, rfl, ?_⟩
    rcases htrails with ⟨call, hcall, hlen⟩ | ⟨hlines, hlen, hrest, hkept⟩
    · exact Or.inl ⟨call, List.mem_append_right _ hcall, hlen⟩
    · refine Or.inr ⟨⟨rfl, hkept.trans hseen, by rw [hu]; exact hrest, ?_, ?_⟩, hlines⟩
      · unfold maxMsg at hfit
        rw [List.length_append]
        omega
      · intro hsplit
        obtain ⟨x, hx⟩ := List.getLast?_eq_some_iff.mp (of_decide_eq_true hsplit)
        rw [hx, ← List.append_assoc, List.getLast?_concat]
  · rw [if_neg hfit]
    refine ⟨_, _, rfl, Or.inl ?_⟩
    rcases htrails with ⟨call, hcall, hlen⟩ | ⟨-, hlen, -, -⟩
    · exact ⟨call, List.mem_append_left _ (List.mem_append_right _ hcall), hlen⟩
    · refine ⟨_, List.mem_append_right _ (List.mem_singleton_self _), ?_⟩
      unfold maxMsg at hfit ⊢
      rw [List.length_append, List.length_take]
      omega

/-- **One chunk**: a call that is too long, or the lines that end in it are not,
and the framer is in the middle of the last one. -/
theorem recvChunk_trails {st : Framer} {u c : List UInt8} (h : Trails st u) :
    ∃ st' calls, recvChunk st c = some (st', calls) ∧
      ((∃ call ∈ calls, 510 < call.length) ∨
        Trails st' (u ++ c.takeWhile (· ≠ 0)) ∧
          ∀ l ∈ (frames CR LF ((frames CR LF u).2 ++ c.takeWhile (· ≠ 0))).1, l.length ≤ 510) := by
  have hsum : (frames CR LF (u ++ c.takeWhile (· ≠ 0))).2
      = (frames CR LF ((frames CR LF u).2 ++ c.takeWhile (· ≠ 0))).2 := by
    rw [frames_append]
  have hkept : st.msg ++ c.takeWhile (· ≠ 0) <:+ u ++ c.takeWhile (· ≠ 0) := by
    obtain ⟨p, hp⟩ := h.msg
    exact ⟨p, by rw [← List.append_assoc, hp]⟩
  by_cases hfire : st.crlfSplit = true ∧ (c.takeWhile (· ≠ 0)).head? = some LF
  · -- the CR that `msg` ends with belongs to the unfinished line
    obtain ⟨hsplit, hhead⟩ := hfire
    obtain ⟨y, hy⟩ := List.head?_eq_some_iff.mp hhead
    have hlast := h.split hsplit
    obtain ⟨x, hx⟩ := List.getLast?_eq_some_iff.mp hlast
    have hulast : u.getLast? = some CR := by
      obtain ⟨p, rfl⟩ := h.msg
      rw [hx, ← List.append_assoc, List.getLast?_concat]
    obtain ⟨w, hw⟩ := List.getLast?_eq_some_iff.mp ((rest_getLast? CR_ne_LF u).mpr hulast)
    have hwlen : w.length ≤ 510 := by
      have := h.rest.length_le.trans h.len
      rw [hw, List.length_append, List.length_singleton] at this
      omega
    have hframes : frames CR LF ((frames CR LF u).2 ++ c.takeWhile (· ≠ 0))
        = (w :: (frames CR LF y).1, (frames CR LF y).2) := by
      have hbr : breakAt CR LF (frames CR LF u).2 = none := breakAt_rest u
      rw [hw] at hbr
      rw [hw, hy, frames_of_some (breakAt_across y CR_ne_LF hbr)]
    have hjoin : joinSplit st (c.takeWhile (· ≠ 0)) = (y, [], [cutSplit st.msg]) := by
      have hpos : st.msg.length > 0 := by rw [hx]; simp
      rw [joinSplit, if_pos ⟨hsplit, hhead⟩, if_pos hpos, hy]
      rfl
    obtain ⟨st', calls, hstep, hcase⟩ := recvChunk_rest (u := u ++ c.takeWhile (· ≠ 0)) (r := [])
      h.whole hjoin (by rw [hy]; simp) (by simp) (List.suffix_refl _) rfl
      (by rw [hsum, hframes]; rfl) ⟨u ++ [LF], by rw [hy]; simp⟩
    refine ⟨st', calls, hstep, ?_⟩
    rcases hcase with hlong | ⟨htrails, hlines⟩
    · exact Or.inl hlong
    · refine Or.inr ⟨htrails, ?_⟩
      rw [hframes]
      intro l hl
      rcases List.mem_cons.mp hl with rfl | hl
      · exact hwlen
      · exact hlines l hl
  · have hjoin : joinSplit st (c.takeWhile (· ≠ 0)) = (c.takeWhile (· ≠ 0), st.msg, []) := by
      rw [joinSplit, if_neg hfire]
    exact recvChunk_rest h.whole hjoin (Nat.le_refl _) h.len h.rest (breakAt_rest u) hsum hkept

/-! ## A sequence of chunks -/

theorem feed_overlong : ∀ (chunks : List (List UInt8)) (st : Framer) (u : List UInt8),
    Trails st u → (∃ l ∈ (frames CR LF ((frames CR LF u).2 ++ seen chunks)).1, 510 < l.length) →
    ∀ calls, feed st chunks = some calls → ∃ call ∈ calls, 510 < call.length
  | [], st, u, h, hlong, calls, _ => by
    obtain ⟨l, hl, hlen⟩ := hlong
    rw [seen, List.map_nil, List.flatten_nil, List.append_nil,
      frames_of_none (breakAt_rest u)] at hl
    cases hl
  | c :: cs, st, u, h, hlong, calls, hfeed => by
    obtain ⟨st', first, hstep, hcase⟩ := recvChunk_trails (c := c) h
    simp only [feed, hstep] at hfeed
    obtain ⟨more, hmore, rfl⟩ := Option.map_eq_some_iff.mp hfeed
    rcases hcase with ⟨call, hcall, hlen⟩ | ⟨htrails, hlines⟩
    · exact ⟨call, List.mem_append_left _ hcall, hlen⟩
    · -- the line that is too long ends in a later chunk
      have hseen : seen (c :: cs) = c.takeWhile (· ≠ 0) ++ seen cs := by
        rw [seen, List.map_cons, List.flatten_cons, seen]
      have hlater : ∃ l ∈ (frames CR LF ((frames CR LF (u ++ c.takeWhile (· ≠ 0))).2
          ++ seen cs)).1, 510 < l.length := by
        obtain ⟨l, hl, hlen⟩ := hlong
        rw [hseen, ← List.append_assoc, frames_append] at hl
        rcases List.mem_append.mp hl with hl | hl
        · have := hlines l hl
          omega
        · refine ⟨l, ?_, hlen⟩
          rw [frames_append u]
          exact hl
      obtain ⟨call, hcall, hlen⟩ := feed_overlong cs st' _ htrails hlater more hmore
      exact ⟨call, List.mem_append_right _ hcall, hlen⟩

/-- **An overlong line is never truncated as it should be**: in every stream that
has one a call to `parse` gets more than 510 characters, or none comes to an end. -/
theorem overlong_never {chunks : List (List UInt8)}
    (hlong : ∃ l ∈ (frames CR LF (seen chunks)).1, 510 < l.length) :
    ¬TruncatesLines chunks ∧ ¬StaysInMsg chunks := by
  have hstart : Trails .init [] :=
    ⟨rfl, List.suffix_refl _, List.suffix_refl _, Nat.zero_le _, fun h => by cases h⟩
  have hcalls := feed_overlong chunks .init [] hstart hlong
  constructor
  · intro hdispatched
    obtain ⟨call, hcall, hlen⟩ := hcalls _ hdispatched
    obtain ⟨l, -, rfl⟩ := List.mem_map.mp hcall
    rw [List.length_take] at hlen
    omega
  · intro hstays
    obtain ⟨calls, hdispatched, hle⟩ := hstays
    obtain ⟨call, hcall, hlen⟩ := hcalls _ hdispatched
    have := hle call hcall
    omega

/-- A line of 511 characters, with its CRLF in a chunk of its own. -/
def longLine : List (List UInt8) := [List.replicate 511 65, [13, 10]]

theorem longLine_seen : (frames CR LF (seen longLine)).1 = [List.replicate 511 65] := by
  decide +kernel

theorem longLine_never : ¬TruncatesLines longLine ∧ ¬StaysInMsg longLine := by
  refine overlong_never ⟨List.replicate 511 65, ?_, ?_⟩
  · rw [longLine_seen]
    exact List.mem_singleton_self _
  · rw [List.length_replicate]
    omega

/-- `parse` gets the whole line and its CR. -/
theorem longLine_overruns :
    (∀ c ∈ longLine, Received c) ∧
    (frames CR LF longLine.flatten).1 = [List.replicate 511 65] ∧
    dispatched longLine = some [List.replicate 511 65 ++ [13]] ∧ ¬TruncatesLines longLine := by
  decide +kernel

end UchiNetworks.Chirc
