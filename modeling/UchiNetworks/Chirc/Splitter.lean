import UchiNetworks.Lib.Buffer
import UchiNetworks.Lib.Fields
import UchiNetworks.Chirc.Framer
import UchiNetworks.Chirc.State

/-!
# chirc: a message into its parameters

The character loop of `parse` (`src/parser.c`), which splits a message into its
command and parameters in a `chirc_message` on the stack.

Mirroring notes vs the C:
- The array is not initialised: what its cells hold before is the argument
  `mem`, and only the first byte of each parameter is cleared.
- `params[n][i]` outside the array is `none` here, also where the address would
  still lie inside a neighbouring parameter.
- `strcpy(params[paramnum], &msg[counter])` copies the rest with its NUL.

A message with at most 15 spaces before its first parameter that begins with a colon
is split into its fields (`splitMessage_join`). The loop does not count: with more
spaces it runs past the array (`staysInSlots_iff`).
-/

namespace UchiNetworks.Chirc

open UchiNetworks.Lib

def maxParams : Nat := 16

/-- The string in a buffer: what stands before its first NUL. -/
def cString (row : List UInt8) : CStr := row.takeWhile (· ≠ 0)

/-- `chirc_message` -/
structure ChircMessage where
  params : List (List UInt8)
  count : params.length = maxParams
  room : ∀ row ∈ params, row.length = maxMsg - 1

def ChircMessage.strings (m : ChircMessage) : Params := m.params.map cString

/-- Write `bytes` into `params[n]`, from `params[n][off]` on. -/
def ChircMessage.store (m : ChircMessage) (n off : Nat) (bytes : List UInt8) :
    Option ChircMessage :=
  match hn : m.params[n]? with
  | none => none
  | some row =>
    match hw : Buffer.write row off bytes with
    | none => none
    | some row' => some {
        params := m.params.set n row'
        count := by rw [List.length_set, m.count]
        room := by
          intro r hr
          rcases List.mem_or_eq_of_mem_set hr with hr | rfl
          · exact m.room r hr
          · rw [Buffer.write_length hw, m.room row (List.mem_of_getElem? hn)] }

/-- `for (i = 0; i < MAXPARAMS; i++) params[i][0] = '\0'` -/
def ChircMessage.clear (m : ChircMessage) : Nat → Option ChircMessage
  | 0 => some m
  | n + 1 => (m.clear n).bind fun m' => m'.store n 0 [0]

/-- The variables of the loop. -/
structure Splitter where
  params : ChircMessage
  paramnum : Nat
  paramcounter : Nat

/-- The loop over the characters of a message. -/
def splitLoop : List UInt8 → Splitter → Option Splitter
  | [], st => some st
  | c :: msg, st =>
    if c = 0 then some st
    else if c = chr ' ' then
      (st.params.store st.paramnum st.paramcounter [0]).bind fun params =>
        splitLoop msg ⟨params, st.paramnum + 1, 0⟩
    else if c = chr ':' ∧ st.paramcounter = 0 then
      (st.params.store st.paramnum 0 (cString (c :: msg) ++ [0])).map fun params =>
        { st with params := params }
    else
      (st.params.store st.paramnum st.paramcounter [c]).bind fun params =>
        -- the terminating NUL, to be overwritten if needed
        (params.store st.paramnum (st.paramcounter + 1) [0]).bind fun params =>
          splitLoop msg ⟨params, st.paramnum, st.paramcounter + 1⟩

/-- `parse`, as far as the call to `handle_chirc_message`. -/
def splitMessage (mem : ChircMessage) (msg : List UInt8) : Option Splitter :=
  (mem.clear maxParams).bind fun params => splitLoop msg ⟨params, 0, 0⟩

/-- `params[0]` to `params[paramnum]` -/
def Splitter.fields (st : Splitter) : Params := st.params.strings.take (st.paramnum + 1)

/-- The slots behind `params[paramnum]`. -/
def Splitter.later (st : Splitter) : Params := st.params.strings.drop (st.paramnum + 1)

/-! ## Strings in buffers -/

/-- A string written with its NUL behind `w` makes the string longer. -/
theorem write_string {row w s : List UInt8} (hw : 0 ∉ w) (hs : 0 ∉ s)
    (hpre : row.take w.length = w) (hlen : w.length + s.length < row.length) :
    ∃ row', Buffer.write row w.length (s ++ [0]) = some row' ∧ cString row' = w ++ s := by
  refine ⟨_, if_pos (by rw [List.length_append, List.length_singleton]; omega), ?_⟩
  have hno : ∀ b ∈ w ++ s, decide (b ≠ 0) = true := by
    intro b hb
    rw [decide_eq_true_eq]
    rcases List.mem_append.mp hb with hb | hb
    · exact fun h => hw (h ▸ hb)
    · exact fun h => hs (h ▸ hb)
  rw [hpre, cString, List.append_assoc, ← List.append_assoc, List.takeWhile_append_of_pos hno]
  simp

/-- The bytes before the NUL are those of the string. -/
theorem take_cString (row : List UInt8) : row.take (cString row).length = cString row :=
  (List.prefix_iff_eq_take.mp (List.takeWhile_prefix _)).symm

/-- A string ends before its NUL. -/
theorem cString_nul_free (row : List UInt8) : 0 ∉ cString row := by
  intro h
  have := List.mem_takeWhile_imp h
  simp at this

/-! ## Storing into a slot -/

/-- A write in a slot changes that slot. -/
theorem store_eq {m : ChircMessage} {n off : Nat} {row row' bytes : List UInt8}
    (hrow : m.params[n]? = some row) (hw : Buffer.write row off bytes = some row') :
    ∃ m', m.store n off bytes = some m' ∧ m'.params = m.params.set n row' := by
  unfold ChircMessage.store
  split
  next hn => rw [hrow] at hn; cases hn
  next r hn =>
    obtain rfl := Option.some.inj (hrow.symm.trans hn)
    split
    next hw' => rw [hw] at hw'; cases hw'
    next r' hw' =>
      obtain rfl := Option.some.inj (hw.symm.trans hw')
      exact ⟨_, rfl, rfl⟩

/-- A slot has 511 bytes. -/
theorem ChircMessage.length_row (m : ChircMessage) {n : Nat} {row : List UInt8}
    (hrow : m.params[n]? = some row) : row.length = 511 :=
  m.room row (List.mem_of_getElem? hrow)

/-- There are `maxParams` of them. -/
theorem ChircMessage.exists_row (m : ChircMessage) {n : Nat} (hn : n < maxParams) :
    ∃ row, m.params[n]? = some row :=
  ⟨_, List.getElem?_eq_getElem (by rw [m.count]; exact hn)⟩

/-- The string in a slot. -/
theorem strings_getElem? {m : ChircMessage} {n : Nat} {row : List UInt8}
    (hrow : m.params[n]? = some row) : m.strings[n]? = some (cString row) := by
  rw [ChircMessage.strings, List.getElem?_map, hrow]
  rfl

/-- A string and its NUL, written behind the first `w.length` bytes of a slot. -/
theorem store_string {m : ChircMessage} {n : Nat} {row : List UInt8} {w s : CStr}
    (hrow : m.params[n]? = some row) (hw : 0 ∉ w) (hs : 0 ∉ s) (hpre : row.take w.length = w)
    (hlen : w.length + s.length ≤ 510) :
    ∃ m', m.store n w.length (s ++ [0]) = some m' ∧ m'.strings = m.strings.set n (w ++ s) := by
  obtain ⟨row', hrow', hstr⟩ := write_string hw hs hpre (by rw [m.length_row hrow]; omega)
  obtain ⟨m', hm', hparams⟩ := store_eq hrow hrow'
  refine ⟨m', hm', ?_⟩
  rw [ChircMessage.strings, ChircMessage.strings, hparams, List.map_set, hstr]

/-- Every string is in a slot. -/
theorem exists_slot {m : ChircMessage} {n : Nat} {w : CStr} (hm : m.strings[n]? = some w) :
    ∃ row, m.params[n]? = some row ∧ cString row = w := by
  rw [ChircMessage.strings, List.getElem?_map, Option.map_eq_some_iff] at hm
  exact hm

/-- The NUL at the end of a string is written once more. -/
theorem store_end {m : ChircMessage} {n : Nat} {w : CStr} (hm : m.strings[n]? = some w)
    (hlen : w.length ≤ 510) :
    ∃ m', m.store n w.length [0] = some m' ∧ m'.strings = m.strings.set n w := by
  obtain ⟨row, hrow, rfl⟩ := exists_slot hm
  have hstore := store_string (s := []) hrow (cString_nul_free row) List.not_mem_nil
    (take_cString row) hlen
  rw [List.append_nil] at hstore
  exact hstore

/-- One more character in a slot, with a NUL behind it. -/
theorem store_char {m : ChircMessage} {n : Nat} {w : CStr} {c : UInt8} (hc : c ≠ 0)
    (hm : m.strings[n]? = some w) (hlen : w.length + 1 ≤ 510) :
    ∃ m₁ m₂, m.store n w.length [c] = some m₁ ∧ m₁.store n (w.length + 1) [0] = some m₂ ∧
      m₂.strings = m.strings.set n (w ++ [c]) := by
  obtain ⟨row, hrow, rfl⟩ := exists_slot hm
  have hlt : n < m.params.length := (List.getElem?_eq_some_iff.mp hrow).1
  have hroom := m.length_row hrow
  have hfits : (cString row).length + [c].length ≤ row.length := by
    rw [List.length_singleton]
    omega
  obtain ⟨row₁, hrow₁⟩ := Buffer.write_of_le hfits
  obtain ⟨m₁, hm₁, hparams⟩ := store_eq hrow hrow₁
  have hslot : m₁.params[n]? = some row₁ := by rw [hparams, List.getElem?_set_self hlt]
  have hpre : row₁.take (cString row ++ [c]).length = cString row ++ [c] := by
    rw [(Buffer.write_eq hrow₁).2, take_cString, ← List.append_assoc, List.take_left]
  have hnul : 0 ∉ cString row ++ [c] := by
    intro h
    rcases List.mem_append.mp h with h | h
    · exact cString_nul_free row h
    · exact hc (List.mem_singleton.mp h).symm
  obtain ⟨m₂, hm₂, hstr⟩ := store_string (s := []) hslot hnul List.not_mem_nil hpre
    (by rw [List.length_append, List.length_singleton]; exact hlen)
  refine ⟨m₁, m₂, hm₁, ?_, ?_⟩
  · rw [List.length_append] at hm₂
    exact hm₂
  · rw [hstr, List.append_nil, ChircMessage.strings, ChircMessage.strings, hparams, List.map_set,
      List.set_set]

/-- Every parameter is empty at the start. -/
theorem clear_strings (m : ChircMessage) : ∀ n, n ≤ maxParams →
    ∃ m', m.clear n = some m' ∧ ∀ i, i < n → m'.strings[i]? = some []
  | 0, _ => ⟨m, rfl, fun i hi => absurd hi (Nat.not_lt_zero i)⟩
  | n + 1, hn => by
    obtain ⟨m₁, hm₁, hfront⟩ := clear_strings m n (by omega)
    obtain ⟨row, hrow⟩ := m₁.exists_row (show n < maxParams by omega)
    obtain ⟨m₂, hm₂, hstr⟩ := store_string (w := []) (s := []) hrow List.not_mem_nil
      List.not_mem_nil rfl (by simp)
    refine ⟨m₂, ?_, ?_⟩
    · rw [ChircMessage.clear, hm₁]
      exact hm₂
    · intro i hi
      rw [hstr]
      by_cases hin : i = n
      · have hlt : n < m₁.strings.length :=
          (List.getElem?_eq_some_iff.mp (strings_getElem? hrow)).1
        rw [hin, List.getElem?_set_self hlt]
        rfl
      · rw [List.getElem?_set_ne (Ne.symm hin)]
        exact hfront i (by omega)

theorem ChircMessage.length_strings (m : ChircMessage) : m.strings.length = 16 := by
  rw [ChircMessage.strings, List.length_map]
  exact m.count

/-- `memset` leaves empty strings. -/
theorem clear_eq (m : ChircMessage) :
    ∃ m', m.clear maxParams = some m' ∧ m'.strings = List.replicate 16 [] := by
  obtain ⟨m', hm', hall⟩ := clear_strings m maxParams (Nat.le_refl _)
  refine ⟨m', hm', List.eq_replicate_iff.mpr ⟨m'.length_strings, ?_⟩⟩
  intro f hf
  obtain ⟨i, hi⟩ := List.getElem?_of_mem hf
  have hlt : i < 16 := by
    rw [← m'.length_strings]
    exact (List.getElem?_eq_some_iff.mp hi).1
  exact Option.some.inj (hi.symm.trans (hall i hlt))

/-! ## The loop -/

/-- The loop stands in the field that has begun with `w`, behind the fields
`front`, and the slots after it are empty. -/
structure Filling (st : Splitter) (front : Params) (w : CStr) : Prop where
  strings : st.params.strings = front ++ w :: List.replicate (15 - front.length) []
  num : st.paramnum = front.length
  counter : st.paramcounter = w.length
  slots : front.length ≤ 15

/-- The slot that is being filled holds the word so far. -/
theorem Filling.slot {st : Splitter} {front : Params} {w : CStr} (h : Filling st front w) :
    st.params.strings[st.paramnum]? = some w := by
  rw [h.strings, h.num, List.getElem?_append_right (Nat.le_refl _), Nat.sub_self]
  rfl

/-- Only the slot of the current field changes. -/
theorem Filling.set {st : Splitter} {front : Params} {w : CStr} (h : Filling st front w)
    (v : CStr) : st.params.strings.set st.paramnum v
      = front ++ v :: List.replicate (15 - front.length) [] := by
  rw [h.strings, h.num, List.set_append_right _ _ (Nat.le_refl _), Nat.sub_self]
  rfl

/-- What the loop leaves: the fields `fs`, and empty slots behind them. -/
structure Filled (st : Splitter) (fs : Params) : Prop where
  strings : st.params.strings = fs ++ List.replicate (16 - fs.length) []
  num : st.paramnum + 1 = fs.length

/-- The current field is the last one. -/
theorem Filling.filled {st st' : Splitter} {front : Params} {w v : CStr} (h : Filling st front w)
    (hnum : st'.paramnum = st.paramnum)
    (hstr : st'.params.strings = st.params.strings.set st.paramnum v) :
    Filled st' (front ++ [v]) := by
  have hslots := h.slots
  refine ⟨?_, by rw [hnum, h.num, List.length_append]; rfl⟩
  rw [hstr, h.set, List.length_append, List.length_singleton, List.append_assoc,
    List.singleton_append, show 16 - (front.length + 1) = 15 - front.length by omega]

/-- At a space the next field begins. -/
theorem Filling.next_field {st : Splitter} {front : Params} {w : CStr} {params : ChircMessage}
    (h : Filling st front w) (hroom : front.length + 1 ≤ 15)
    (hstr : params.strings = st.params.strings.set st.paramnum w) :
    Filling ⟨params, st.paramnum + 1, 0⟩ (front ++ [w]) [] := by
  refine ⟨?_, ?_, rfl, ?_⟩
  · show params.strings = _
    obtain ⟨k, hk⟩ : ∃ k, 15 - front.length = k + 1 := ⟨14 - front.length, by omega⟩
    rw [hstr, h.set, List.length_append, List.length_singleton, hk,
      show 15 - (front.length + 1) = k by omega, List.append_assoc]
    rfl
  · show st.paramnum + 1 = _
    rw [h.num, List.length_append]
    rfl
  · rw [List.length_append]
    exact hroom

/-- **The loop cuts the message into its fields.** -/
theorem splitLoop_filled : ∀ (msg : CStr) (st : Splitter) (front : Params) (w : CStr),
    Filling st front w → 0 ∉ msg → w.length + msg.length ≤ 510 →
    front.length + (splitFields (chr ' ') (chr ':') (w = []) msg).length ≤ 16 →
    ∃ st', splitLoop msg st = some st' ∧
      Filled st' (front ++ (splitFields (chr ' ') (chr ':') (w = []) msg).modifyHead (w ++ ·))
  | [], st, front, w, h, _, _, _ => by
    refine ⟨st, rfl, ?_⟩
    rw [splitFields, List.modifyHead_cons, List.append_nil]
    exact h.filled rfl (h.strings.trans (h.set w).symm)
  | c :: msg, st, front, w, h, hnul, hlen, hroom => by
    obtain ⟨hc, hmsg⟩ := not_or.mp (mt List.mem_cons.mpr hnul)
    have hc : c ≠ 0 := Ne.symm hc
    rw [List.length_cons] at hlen
    rw [splitLoop, if_neg hc]
    rw [splitFields] at hroom ⊢
    by_cases hsp : c = chr ' '
    · rw [if_pos hsp, List.length_cons] at hroom
      obtain ⟨f, fs, hfs⟩ := exists_splitFields (chr ' ') (chr ':') true msg
      obtain ⟨params, hstore, hstr⟩ := store_end h.slot (by omega)
      have hnext := h.next_field (by rw [hfs, List.length_cons] at hroom; omega) hstr
      obtain ⟨st', hloop, hfilled⟩ := splitLoop_filled msg _ _ _ hnext hmsg
        (by rw [List.length_nil]; omega)
        (by rw [List.length_append, List.length_singleton, decide_eq_true rfl]; omega)
      refine ⟨st', ?_, ?_⟩
      · rw [if_pos hsp, h.counter, hstore]
        exact hloop
      · rw [if_pos hsp, List.modifyHead_cons, List.append_nil]
        rw [decide_eq_true rfl, hfs, List.append_assoc] at hfilled
        rw [hfs]
        exact hfilled
    · rw [if_neg hsp] at hroom
      rw [if_neg hsp, if_neg hsp, h.counter]
      by_cases hcolon : c = chr ':' ∧ w = []
      · -- the rest of the message is the last field
        obtain ⟨hcolon, rfl⟩ := hcolon
        obtain ⟨row, hrow, hw⟩ := exists_slot h.slot
        have hall : cString (c :: msg) = c :: msg := takeWhile_nul_free hnul
        obtain ⟨params, hstore, hstr⟩ := store_string hrow List.not_mem_nil hnul rfl
          (by rw [List.length_cons]; exact hlen)
        rw [if_pos ⟨hcolon, rfl⟩, if_pos ⟨hcolon, decide_eq_true rfl⟩, hall]
        rw [List.length_nil] at hstore
        refine ⟨_, by rw [hstore]; rfl, ?_⟩
        exact h.filled rfl hstr
      · obtain ⟨p₁, p₂, hp₁, hp₂, hstr⟩ := store_char hc h.slot (by omega)
        have hnext : Filling ⟨p₂, st.paramnum, w.length + 1⟩ front (w ++ [c]) := by
          refine ⟨?_, h.num, by rw [List.length_append]; rfl, h.slots⟩
          show p₂.strings = _
          rw [hstr, h.set]
        have hin : decide (w ++ [c] = []) = false := by simp
        have hmark : ¬(c = chr ':' ∧ decide (w = []) = true) :=
          fun hm => hcolon ⟨hm.1, of_decide_eq_true hm.2⟩
        rw [if_neg hmark, List.length_modifyHead] at hroom
        obtain ⟨st', hloop, hfilled⟩ := splitLoop_filled msg _ _ _ hnext hmsg
          (by rw [List.length_append, List.length_singleton]; omega) (by rw [hin]; exact hroom)
        refine ⟨st', ?_, ?_⟩
        · have hcount : ¬(c = chr ':' ∧ w.length = 0) :=
            fun hm => hcolon ⟨hm.1, List.eq_nil_of_length_eq_zero hm.2⟩
          rw [if_neg hcount, hp₁, Option.bind_some, hp₂]
          exact hloop
        · obtain ⟨f, fs, hfs⟩ := exists_splitFields (chr ' ') (chr ':') false msg
          rw [hin, hfs, List.modifyHead_cons, List.append_assoc] at hfilled
          rw [if_neg hmark, hfs, List.modifyHead_cons, List.modifyHead_cons]
          exact hfilled

/-- **`parse` cuts a message that fits into its fields**, and empties the rest. -/
theorem splitMessage_filled (mem : ChircMessage) {msg : CStr} (hnul : 0 ∉ msg)
    (hlen : msg.length ≤ 510)
    (hroom : (splitFields (chr ' ') (chr ':') true msg).length ≤ 16) :
    ∃ st, splitMessage mem msg = some st ∧ Filled st (splitFields (chr ' ') (chr ':') true msg) := by
  obtain ⟨params, hclear, hstr⟩ := clear_eq mem
  have hstart : Filling ⟨params, 0, 0⟩ [] [] := ⟨hstr, rfl, rfl, Nat.zero_le _⟩
  obtain ⟨st, hloop, hfilled⟩ := splitLoop_filled msg _ _ _ hstart hnul
    (by rw [List.length_nil]; omega) (by rw [List.length_nil, decide_eq_true rfl]; omega)
  obtain ⟨f, fs, hfs⟩ := exists_splitFields (chr ' ') (chr ':') true msg
  refine ⟨st, ?_, ?_⟩
  · rw [splitMessage, hclear]
    exact hloop
  · rw [decide_eq_true rfl, hfs] at hfilled
    rw [hfs]
    exact hfilled

/-- Afterwards the fields are there. -/
theorem Filled.fields {st : Splitter} {fs : Params} (h : Filled st fs) : st.fields = fs := by
  rw [Splitter.fields, h.num, h.strings, List.take_left]

/-- Behind them nothing is. -/
theorem Filled.later {st : Splitter} {fs : Params} (h : Filled st fs) : ∀ f ∈ st.later, f = [] := by
  intro f hf
  rw [Splitter.later, h.num, h.strings, List.drop_left] at hf
  exact List.eq_of_mem_replicate hf

/-! ## What a message is split into -/

/-- `fields` are joined by single spaces. -/
def joinParams (fields : Params) : CStr := [chr ' '].intercalate fields

/-- The shape of a message's fields. -/
def MessageShape (fields : Params) : Prop := WellSplit (chr ' ') (chr ':') fields

instance (fields : Params) : Decidable (MessageShape fields) :=
  inferInstanceAs (Decidable (WellSplit _ _ fields))

/-- A message that has room in a `chirc_message`: at most 15 spaces before its
first parameter that begins with a colon. -/
structure FitsMessage (msg : CStr) : Prop where
  nul : 0 ∉ msg
  len : msg.length ≤ 510
  spaces : (beforeMark (chr ' ') (chr ':') true msg).count (chr ' ') ≤ 15

theorem space_ne_colon : chr ' ' ≠ chr ':' := by decide
theorem nul_ne_space : 0 ≠ chr ' ' := by decide

/-- A message that fits has a slot for each field. -/
theorem FitsMessage.room {msg : CStr} (h : FitsMessage msg) :
    (splitFields (chr ' ') (chr ':') true msg).length ≤ 16 := by
  rw [splitFields_length space_ne_colon]
  have := h.spaces
  omega

/-- **Splitting and joining are inverse to each other** between messages that
fit and fields of a message's shape. -/
theorem splitMessage_join (mem : ChircMessage) :
    (∀ msg, FitsMessage msg → ∃ st, splitMessage mem msg = some st ∧
      joinParams st.fields = msg ∧ MessageShape st.fields ∧ (∀ f ∈ st.later, f = []) ∧
      ∀ fields, MessageShape fields → joinParams fields = msg → fields = st.fields) ∧
    ∀ fields : Params, MessageShape fields → fields.length ≤ 16 →
      (∀ f ∈ fields, 0 ∉ f) → (joinParams fields).length ≤ 510 →
      ∃ st, splitMessage mem (joinParams fields) = some st ∧ st.fields = fields ∧
        ∀ f ∈ st.later, f = [] := by
  constructor
  · intro msg h
    obtain ⟨st, hst, hfilled⟩ := splitMessage_filled mem h.nul h.len h.room
    refine ⟨st, hst, ?_, ?_, hfilled.later, ?_⟩
    · rw [hfilled.fields]
      exact join_splitFields true msg
    · rw [hfilled.fields]
      exact splitFields_wellSplit msg
    · intro fields hshape hjoin
      rw [hfilled.fields]
      exact wellSplit_unique space_ne_colon hshape hjoin
  · intro fields hshape hcount hnul hlen
    have hcut := splitFields_join space_ne_colon fields hshape
    have hnone : 0 ∉ joinParams fields := not_mem_join nul_ne_space fields hnul
    obtain ⟨st, hst, hfilled⟩ := splitMessage_filled mem hnone hlen
      (by rw [joinParams, hcut]; exact hcount)
    rw [joinParams, hcut] at hfilled
    exact ⟨st, hst, hfilled.fields, hfilled.later⟩

/-- A `chirc_message` as it may lie on the stack. -/
def ChircMessage.dirty : ChircMessage where
  params := List.replicate 16 (List.replicate 511 88)
  count := List.length_replicate
  room := by
    intro row hrow
    rw [List.eq_of_mem_replicate hrow]
    exact List.length_replicate

theorem splitMessage_join_privmsg :
    ∃ st, splitMessage .dirty (str "PRIVMSG bob :see you at 5: ok") = some st ∧
      st.fields = [str "PRIVMSG", str "bob", str ":see you at 5: ok"] ∧ ∀ f ∈ st.later, f = [] :=
  (splitMessage_join .dirty).2 [str "PRIVMSG", str "bob", str ":see you at 5: ok"]
    (by decide) (by decide) (by decide) (by decide)

/-! ## Messages that do not fit -/

/-- However much of the message the loop has seen, `paramnum` is that of a slot, and
whatever has been written is in its slot. -/
def StaysInSlots (mem : ChircMessage) (msg : CStr) : Prop :=
  ∀ n, ∃ st, splitMessage mem (msg.take n) = some st ∧ st.paramnum < maxParams

/-- Each space before the marked parameter counts. -/
theorem splitLoop_paramnum {msg : CStr} {st st' : Splitter} (hnul : 0 ∉ msg)
    (hloop : splitLoop msg st = some st') : st'.paramnum = st.paramnum +
      (beforeMark (chr ' ') (chr ':') (st.paramcounter = 0) msg).count (chr ' ') := by
  induction msg generalizing st with
  | nil =>
    rw [splitLoop] at hloop
    rw [← Option.some.inj hloop]
    rfl
  | cons c msg ih =>
    obtain ⟨hc, hmsg⟩ := not_or.mp (mt List.mem_cons.mpr hnul)
    rw [splitLoop, if_neg (Ne.symm hc)] at hloop
    unfold beforeMark
    by_cases hspace : c = chr ' '
    · rw [if_pos hspace] at hloop
      obtain ⟨params, -, hrest⟩ := Option.bind_eq_some_iff.mp hloop
      have hmark : ¬ (c = chr ':' ∧ decide (st.paramcounter = 0) = true) :=
        fun h => space_ne_colon (hspace.symm.trans h.1)
      have hnext : st'.paramnum = st.paramnum + 1 +
        (beforeMark (chr ' ') (chr ':') true msg).count (chr ' ') := ih hmsg hrest
      rw [hnext, if_neg hmark, decide_eq_true hspace, hspace, List.count_cons_self]
      omega
    · rw [if_neg hspace] at hloop
      by_cases hcolon : c = chr ':' ∧ st.paramcounter = 0
      · rw [if_pos hcolon] at hloop
        obtain ⟨params, -, hst⟩ := Option.map_eq_some_iff.mp hloop
        rw [if_pos ⟨hcolon.1, decide_eq_true hcolon.2⟩, ← hst]
        rfl
      · rw [if_neg hcolon] at hloop
        obtain ⟨params, -, hrest⟩ := Option.bind_eq_some_iff.mp hloop
        obtain ⟨params', -, hrest⟩ := Option.bind_eq_some_iff.mp hrest
        have hmark : ¬ (c = chr ':' ∧ decide (st.paramcounter = 0) = true) :=
          fun h => hcolon ⟨h.1, of_decide_eq_true h.2⟩
        rw [ih hmsg hrest, if_neg hmark, decide_eq_false hspace, List.count_cons_of_ne hspace]
        rfl

/-- **The loop stays in the array** exactly for messages with at most 15 spaces before
the first parameter that begins with a colon. -/
theorem staysInSlots_iff (mem : ChircMessage) {msg : CStr} (hnul : 0 ∉ msg)
    (hlen : msg.length ≤ 510) : StaysInSlots mem msg ↔
      (beforeMark (chr ' ') (chr ':') true msg).count (chr ' ') ≤ 15 := by
  constructor
  · intro hstays
    obtain ⟨st, hst, hnum⟩ := hstays msg.length
    rw [List.take_length] at hst
    obtain ⟨params, -, hloop⟩ := Option.bind_eq_some_iff.mp hst
    have hcount := splitLoop_paramnum hnul hloop
    rw [decide_eq_true rfl] at hcount
    unfold maxParams at hnum
    omega
  · intro hspaces n
    have htaken := @beforeMark_take _ _ (chr ' ') (chr ':') true msg n
    have hfits : FitsMessage (msg.take n) :=
      ⟨fun h => hnul (List.mem_of_mem_take h), (List.length_take_le' _ _).trans hlen,
        (htaken.sublist.count_le _).trans hspaces⟩
    obtain ⟨st, hst, hfilled⟩ := splitMessage_filled mem hfits.nul hfits.len hfits.room
    have hroom := hfits.room
    rw [← hfilled.num] at hroom
    unfold maxParams
    exact ⟨st, hst, by omega⟩

/-- A command with as many parameters as there is room for. -/
theorem staysInSlots_full : StaysInSlots .dirty (str "A 1 2 3 4 5 6 7 8 9 a b c d e f") ↔
    (beforeMark (chr ' ') (chr ':') true (str "A 1 2 3 4 5 6 7 8 9 a b c d e f")).count (chr ' ')
      ≤ 15 := staysInSlots_iff .dirty (by decide) (by decide)

/-- One parameter more. -/
theorem staysInSlots_fails : ¬ ∀ (mem : ChircMessage) (msg : CStr), 0 ∉ msg → msg.length ≤ 510 →
    StaysInSlots mem msg := by
  intro hall
  have hmany : 0 ∉ str "A 1 2 3 4 5 6 7 8 9 a b c d e f g" := by decide
  obtain ⟨st, hst, hnum⟩ := hall .dirty _ hmany (by decide) 33
  obtain ⟨params, -, hloop⟩ := Option.bind_eq_some_iff.mp hst
  have hcount : st.paramnum = 0 + (beforeMark (chr ' ') (chr ':') true
    (str "A 1 2 3 4 5 6 7 8 9 a b c d e f g")).count (chr ' ') := splitLoop_paramnum hmany hloop
  rw [hcount] at hnum
  exact absurd hnum (by decide)

end UchiNetworks.Chirc
