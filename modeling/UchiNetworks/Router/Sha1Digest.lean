import Mathlib.Data.List.GetD
import Mathlib.Data.List.Range
import UchiNetworks.Router.Sha1

/-!
# sha1.c: the digest is the standard's

A client of `sha1.c` resets, inputs and asks for the result in any order and as often as
he likes. `Hashing` is what that means: a message that grows, until a result has been
asked for. The context follows it (`Follows`): it never stores behind its block, and a
result is given as long as fewer than 2^64 bits have been input and none of them after
a result, and is the digest of what was input, however it was cut (`digest_run`).
-/

namespace UchiNetworks.Router

open UchiNetworks.Lib

/-! ## One block -/

section Block

variable {block : List UInt8} {t : Nat}

theorem circularShift_eq (w : Word) {bits : Nat} (h : bits < 32) :
    circularShift bits w = w.rotateLeft bits := by
  rw [BitVec.rotateLeft_def, Nat.mod_eq_of_lt h]
  rfl

/-- Four bytes, put together by shifts, are the number that they write. -/
theorem or_bytes (b₀ b₁ b₂ b₃ : UInt8) :
    (b₀.toBitVec.setWidth 32 <<< 24) ||| (b₁.toBitVec.setWidth 32 <<< 16) |||
      (b₂.toBitVec.setWidth 32 <<< 8) ||| b₃.toBitVec.setWidth 32 =
    BitVec.ofNat 32 (256 * (256 * (256 * b₀.toNat + b₁.toNat) + b₂.toNat) + b₃.toNat) := by
  have h₀ := b₀.toNat_lt
  have h₁ := b₁.toNat_lt
  have h₂ := b₂.toNat_lt
  have h₃ := b₃.toNat_lt
  have hfirst : b₀.toNat <<< 24 % 2 ^ 32 = 2 ^ 24 * b₀.toNat := by
    rw [Nat.shiftLeft_eq, Nat.mul_comm, Nat.mod_eq_of_lt (by omega)]
  have hsecond : b₁.toNat <<< 16 % 2 ^ 32 = 2 ^ 16 * b₁.toNat := by
    rw [Nat.shiftLeft_eq, Nat.mul_comm, Nat.mod_eq_of_lt (by omega)]
  have hthird : b₂.toNat <<< 8 % 2 ^ 32 = 2 ^ 8 * b₂.toNat := by
    rw [Nat.shiftLeft_eq, Nat.mul_comm, Nat.mod_eq_of_lt (by omega)]
  -- each part lies below the parts before it
  have htwo : 2 ^ 24 * b₀.toNat ||| 2 ^ 16 * b₁.toNat = 2 ^ 16 * (256 * b₀.toNat + b₁.toNat) := by
    rw [← Nat.two_pow_add_eq_or_of_lt (by omega)]
    omega
  have hthree : 2 ^ 16 * (256 * b₀.toNat + b₁.toNat) ||| 2 ^ 8 * b₂.toNat
      = 2 ^ 8 * (256 * (256 * b₀.toNat + b₁.toNat) + b₂.toNat) := by
    rw [← Nat.two_pow_add_eq_or_of_lt (by omega)]
    omega
  have hfour : 2 ^ 8 * (256 * (256 * b₀.toNat + b₁.toNat) + b₂.toNat) ||| b₃.toNat
      = 256 * (256 * (256 * b₀.toNat + b₁.toNat) + b₂.toNat) + b₃.toNat := by
    rw [← Nat.two_pow_add_eq_or_of_lt (by omega)]
  have hbyte : ∀ b : UInt8, (b.toBitVec.setWidth 32).toNat = b.toNat := by
    intro b
    rw [BitVec.toNat_setWidth, UInt8.toNat_toBitVec]
    exact Nat.mod_eq_of_lt (Nat.lt_trans b.toNat_lt (by decide))
  apply BitVec.eq_of_toNat_eq
  simp only [BitVec.toNat_or, BitVec.toNat_shiftLeft, hbyte, BitVec.toNat_ofNat]
  rw [hfirst, hsecond, hthird, htwo, hthree, hfour, Nat.mod_eq_of_lt (by omega)]

theorem wordAt_eq (ht : t < 16) : wordAt block t = stdWord block t := by
  unfold stdWord
  rw [if_pos ht]
  refine (or_bytes _ _ _ _).trans ?_
  have hrange : List.range 4 = [0, 1, 2, 3] := rfl
  rw [hrange, Nat.mul_comm t 4]
  simp

/-- What has been put together of the word sequence is right. -/
theorem nextWord_eq (n : Nat) :
    (List.range' 16 n).foldl nextWord ((List.range 16).map (stdWord block))
      = (List.range (16 + n)).map (stdWord block) := by
  induction n with
  | zero => rfl
  | succ n ih =>
    have hget : ∀ i, 0 < i → i ≤ 16 →
        ((List.range (16 + n)).map (stdWord block)).getD (16 + n - i) 0 = stdWord block (16 + n - i) := by
      intro i hpos hle
      rw [List.getD_eq_getElem _ _ (by rw [List.length_map, List.length_range]; omega),
        List.getElem_map, List.getElem_range]
    have hword : stdWord block (16 + n) = (stdWord block (16 + n - 3) ^^^ stdWord block (16 + n - 8) ^^^
        stdWord block (16 + n - 14) ^^^ stdWord block (16 + n - 16)).rotateLeft 1 := by
      conv_lhs => unfold stdWord
      rw [if_neg (by omega)]
    rw [List.range'_1_concat, List.foldl_append, ih, List.foldl_cons, List.foldl_nil, nextWord,
      hget 3 (by decide) (by decide), hget 8 (by decide) (by decide), hget 14 (by decide) (by decide),
      hget 16 (by decide) (by decide), circularShift_eq _ (by decide), ← hword, ← Nat.add_assoc,
      List.range_succ, List.map_append]
    rfl

theorem wordSequence_eq : wordSequence block = (List.range 80).map (stdWord block) := by
  have hfirst : (List.range 16).map (wordAt block) = (List.range 16).map (stdWord block) :=
    List.map_congr_left fun t ht => wordAt_eq (List.mem_range.mp ht)
  rw [wordSequence, hfirst]
  exact nextWord_eq 64

/-- A loop over `t` does the turns of the standard, if its function and its constant are those
of the standard for each `t`. -/
theorem turns_eq {f : Word → Word → Word → Word} {k : Word} {start n : Nat} (hn : start + n ≤ 80)
    (h : ∀ t, start ≤ t → t < start + n → stdFun t = f ∧ stdConst t = k) (s : Digest) :
    (List.range' start n).foldl (turn f k (wordSequence block)) s
      = (List.range' start n).foldl (stdTurn block) s := by
  refine List.foldl_ext _ _ _ fun s t ht => ?_
  obtain ⟨hle, hlt⟩ := List.mem_range'_1.mp ht
  obtain ⟨hf, hk⟩ := h t hle hlt
  have hword : (wordSequence block).getD t 0 = stdWord block t := by
    rw [wordSequence_eq, List.getD_eq_getElem _ _ (by rw [List.length_map, List.length_range]; omega),
      List.getElem_map, List.getElem_range]
  unfold turn stdTurn
  rw [hword, hf, hk, circularShift_eq _ (by decide), circularShift_eq _ (by decide)]

/-- The four loops are the eighty turns. -/
theorem eightyTurns_eq (s : Digest) :
    eightyTurns (wordSequence block) s = (List.range 80).foldl (stdTurn block) s := by
  have hsplit : List.range 80 = List.range' 0 20 ++ List.range' 20 20 ++ List.range' 40 20 ++
      List.range' 60 20 := by decide
  have hone : ∀ t, 0 ≤ t → t < 0 + 20 → stdFun t = choose ∧ stdConst t = 0x5A827999 := by
    intro t _ hlt
    have h20 : t < 20 := by omega
    exact ⟨if_pos h20, if_pos h20⟩
  have htwo : ∀ t, 20 ≤ t → t < 20 + 20 → stdFun t = parity ∧ stdConst t = 0x6ED9EBA1 := by
    intro t hle hlt
    have h20 : ¬ t < 20 := by omega
    have h40 : t < 40 := by omega
    exact ⟨(if_neg h20).trans (if_pos h40), (if_neg h20).trans (if_pos h40)⟩
  have hthree : ∀ t, 40 ≤ t → t < 40 + 20 → stdFun t = majority ∧ stdConst t = 0x8F1BBCDC := by
    intro t hle hlt
    have h20 : ¬ t < 20 := by omega
    have h40 : ¬ t < 40 := by omega
    have h60 : t < 60 := by omega
    exact ⟨(if_neg h20).trans ((if_neg h40).trans (if_pos h60)),
      (if_neg h20).trans ((if_neg h40).trans (if_pos h60))⟩
  have hfour : ∀ t, 60 ≤ t → t < 60 + 20 → stdFun t = parity ∧ stdConst t = 0xCA62C1D6 := by
    intro t hle hlt
    have h20 : ¬ t < 20 := by omega
    have h40 : ¬ t < 40 := by omega
    have h60 : ¬ t < 60 := by omega
    exact ⟨(if_neg h20).trans ((if_neg h40).trans (if_neg h60)),
      (if_neg h20).trans ((if_neg h40).trans (if_neg h60))⟩
  simp only [eightyTurns]
  rw [hsplit, List.foldl_append, List.foldl_append, List.foldl_append,
    turns_eq (by decide) hone, turns_eq (by decide) htwo, turns_eq (by decide) hthree,
    turns_eq (by decide) hfour]

/-- `SHA1ProcessMessageBlock` is the standard's function of one block. -/
theorem processMessageBlock_digest (ctx : SHA1Context) :
    ctx.processMessageBlock.messageDigest
      = stdCompression.compress ctx.messageDigest ctx.messageBlock.toList := by
  simp only [SHA1Context.processMessageBlock, stdCompression, eightyTurns_eq]

end Block

/-! ## Storing -/

namespace SHA1Context

variable {ctx ctx' ctx'' : SHA1Context} {b : UInt8} {bs cs msg : List UInt8}

@[simp] theorem processMessageBlock_computed : ctx.processMessageBlock.computed = ctx.computed := by
  rw [processMessageBlock]
@[simp] theorem processMessageBlock_corrupted : ctx.processMessageBlock.corrupted = ctx.corrupted := by
  rw [processMessageBlock]
@[simp] theorem processMessageBlock_index : ctx.processMessageBlock.messageBlockIndex = 0 := by
  rw [processMessageBlock]

@[simp] theorem processMessageBlock_low : ctx.processMessageBlock.lengthLow = ctx.lengthLow := by
  rw [processMessageBlock]

@[simp] theorem processMessageBlock_high : ctx.processMessageBlock.lengthHigh = ctx.lengthHigh := by
  rw [processMessageBlock]

/-- Counting leaves everything but the length and the flag. -/
theorem count_same : ctx.count = { ctx with
    lengthLow := ctx.count.lengthLow, lengthHigh := ctx.count.lengthHigh,
    corrupted := ctx.count.corrupted } := by
  by_cases hzero : ctx.lengthLow + 8 = 0
  · have hcount : ctx.count = { ctx with
        lengthLow := ctx.lengthLow + 8, lengthHigh := ctx.lengthHigh + 1,
        corrupted := ctx.corrupted || ctx.lengthHigh + 1 = 0 } := if_pos hzero
    rw [hcount]
  · have hcount : ctx.count = { ctx with lengthLow := ctx.lengthLow + 8 } := if_neg hzero
    rw [hcount]

@[simp] theorem count_computed : ctx.count.computed = ctx.computed := by rw [count_same]
@[simp] theorem count_index : ctx.count.messageBlockIndex = ctx.messageBlockIndex := by rw [count_same]
@[simp] theorem count_block : ctx.count.messageBlock = ctx.messageBlock := by rw [count_same]
@[simp] theorem count_digest : ctx.count.messageDigest = ctx.messageDigest := by rw [count_same]

/-- What is in the block before the index. -/
def pending (ctx : SHA1Context) : List UInt8 := ctx.messageBlock.toList.take ctx.messageBlockIndex

theorem pending_zero (h : ctx.messageBlockIndex = 0) : ctx.pending = [] := by
  rw [pending, h, List.take_zero]

@[simp] theorem count_pending : ctx.count.pending = ctx.pending := by
  rw [pending, pending, count_index, count_block]

/-- `bs` has been stored, and nothing else has changed. -/
structure Stored (ctx : SHA1Context) (bs : List UInt8) (ctx' : SHA1Context) : Prop where
  index : ctx'.messageBlockIndex = ctx.messageBlockIndex + bs.length
  pending : ctx'.pending = ctx.pending ++ bs
  same : ctx' = { ctx with
    messageBlock := ctx'.messageBlock, messageBlockIndex := ctx'.messageBlockIndex }

theorem Stored.messageDigest (h : Stored ctx bs ctx') : ctx'.messageDigest = ctx.messageDigest := by
  rw [h.same]

theorem Stored.computed (h : Stored ctx bs ctx') : ctx'.computed = ctx.computed := by rw [h.same]

theorem Stored.corrupted (h : Stored ctx bs ctx') : ctx'.corrupted = ctx.corrupted := by rw [h.same]

theorem Stored.trans (h : Stored ctx bs ctx') (h' : Stored ctx' cs ctx'') :
    Stored ctx (bs ++ cs) ctx'' where
  index := by rw [h'.index, h.index, List.length_append, Nat.add_assoc]
  pending := by rw [h'.pending, h.pending, List.append_assoc]
  same := by
    have hsame := h'.same
    rw [h.same] at hsame
    exact hsame

theorem take_set {l : List UInt8} {i : Nat} (h : i < l.length) :
    (l.set i b).take (i + 1) = l.take i ++ [b] := by
  rw [List.take_set, List.take_add_one, List.getElem?_eq_getElem h, Option.toList_some,
    List.set_append_right _ _ (by rw [List.length_take]; omega), List.length_take,
    Nat.min_eq_left (Nat.le_of_lt h), Nat.sub_self]
  rfl

theorem store_stored (ctx : SHA1Context) (b : UInt8) (h : ctx.messageBlockIndex < 64) :
    ∃ ctx', ctx.store b = some ctx' ∧ Stored ctx [b] ctx' := by
  refine ⟨_, dif_pos h, ⟨rfl, ?_, rfl⟩⟩
  show (ctx.messageBlock.set _ b h).toList.take (ctx.messageBlockIndex + 1) = _
  rw [Vector.toList_set]
  exact take_set (by rw [Vector.length_toList]; exact h)

theorem storeAll_stored (h : ctx.messageBlockIndex + bs.length ≤ 64) :
    ∃ ctx', bs.foldlM store ctx = some ctx' ∧ Stored ctx bs ctx' := by
  induction bs generalizing ctx with
  | nil => exact ⟨ctx, rfl, rfl, (List.append_nil _).symm, rfl⟩
  | cons b bs ih =>
    rw [List.length_cons] at h
    obtain ⟨ctx₁, hstore, hone⟩ := store_stored ctx b (by omega)
    have hindex : ctx₁.messageBlockIndex = ctx.messageBlockIndex + 1 := hone.index
    obtain ⟨ctx₂, hrest, hall⟩ := @ih ctx₁ (by omega)
    refine ⟨ctx₂, ?_, hone.trans hall⟩
    rw [List.foldlM_cons, hstore]
    exact hrest

theorem zeroUntil_stored (ctx : SHA1Context) {n : Nat} (hn : n ≤ 64) (h : ctx.messageBlockIndex ≤ 64) :
    ∃ ctx', ctx.zeroUntil n = some ctx' ∧
      Stored ctx (List.replicate (n - ctx.messageBlockIndex) 0) ctx' := by
  refine storeAll_stored ?_
  rw [List.length_replicate]
  omega

/-- The length completes the block. -/
theorem storeLength_block (ctx : SHA1Context) :
    ctx.storeLength.messageBlock.toList = ctx.messageBlock.toList.take 56 ++ ctx.lengthOctets := by
  have hlen : ctx.messageBlock.toList.length = 64 := Vector.length_toList
  have hwhole : ctx.storeLength.messageBlock.toList = ctx.storeLength.messageBlock.toList.take 64 := by
    rw [List.take_of_length_le (Nat.le_of_eq Vector.length_toList)]
  rw [hwhole]
  simp only [storeLength, Vector.toList_set]
  rw [take_set (by simp), take_set (by simp), take_set (by simp), take_set (by simp),
    take_set (by simp), take_set (by simp), take_set (by simp), take_set (by simp)]
  simp only [List.append_assoc, List.singleton_append]
  rfl

@[simp] theorem storeLength_digest : ctx.storeLength.messageDigest = ctx.messageDigest := by
  rw [storeLength]

@[simp] theorem storeLength_corrupted : ctx.storeLength.corrupted = ctx.corrupted := by
  rw [storeLength]

/-! ## Counting -/

/-- The length in bits, from its two words. -/
def bits (ctx : SHA1Context) : Nat := ctx.lengthHigh.toNat * 2 ^ 32 + ctx.lengthLow.toNat

theorem processMessageBlock_bits : ctx.processMessageBlock.bits = ctx.bits := by
  rw [bits, processMessageBlock_high, processMessageBlock_low, bits]

theorem Stored.bits (h : Stored ctx bs ctx') : ctx'.bits = ctx.bits := by
  rw [h.same]
  rfl

/-- The carry from one word to the other. -/
theorem carry_eq {high low n : Nat} (hlow : low < 2 ^ 32) (hhigh : high < 2 ^ 32)
    (h : high * 2 ^ 32 + low = 8 * n) (hover : (low + 8) % 2 ^ 32 = 0) :
    (8 * (n + 1) < 2 ^ 64 → (high + 1) % 2 ^ 32 * 2 ^ 32 + 0 = 8 * (n + 1) ∧ (high + 1) % 2 ^ 32 ≠ 0) ∧
      (2 ^ 64 ≤ 8 * (n + 1) → (high + 1) % 2 ^ 32 = 0) := by
  omega

theorem no_carry_eq {high low n : Nat} (hlow : low < 2 ^ 32) (hhigh : high < 2 ^ 32)
    (h : high * 2 ^ 32 + low = 8 * n) (hover : (low + 8) % 2 ^ 32 ≠ 0) :
    high * 2 ^ 32 + (low + 8) % 2 ^ 32 = 8 * (n + 1) ∧ ¬ 2 ^ 64 ≤ 8 * (n + 1) := by
  omega

/-- The two words count the bits until there are 2^64. -/
theorem count_bits {n : Nat} (h : ctx.bits = 8 * n) :
    (8 * (n + 1) < 2 ^ 64 → ctx.count.bits = 8 * (n + 1) ∧ ctx.count.corrupted = ctx.corrupted) ∧
      (2 ^ 64 ≤ 8 * (n + 1) → ctx.count.corrupted = true) := by
  have hadd : (ctx.lengthLow + 8).toNat = (ctx.lengthLow.toNat + 8) % 2 ^ 32 := BitVec.toNat_add _ _
  have hcarry : (ctx.lengthHigh + 1).toNat = (ctx.lengthHigh.toNat + 1) % 2 ^ 32 := BitVec.toNat_add _ _
  have hlow := ctx.lengthLow.isLt
  have hhigh := ctx.lengthHigh.isLt
  by_cases hzero : ctx.lengthLow + 8 = 0
  · have hover : (ctx.lengthLow.toNat + 8) % 2 ^ 32 = 0 := by
      rw [← hadd, hzero]
      rfl
    obtain ⟨hroom, hlong⟩ := carry_eq hlow hhigh h hover
    have hcount : ctx.count = { ctx with
        lengthLow := ctx.lengthLow + 8, lengthHigh := ctx.lengthHigh + 1,
        corrupted := ctx.corrupted || ctx.lengthHigh + 1 = 0 } := if_pos hzero
    rw [hcount]
    refine ⟨fun hn => ⟨?_, ?_⟩, fun hn => ?_⟩
    · show (ctx.lengthHigh + 1).toNat * 2 ^ 32 + (ctx.lengthLow + 8).toNat = _
      rw [hadd, hcarry, hover]
      exact (hroom hn).1
    · have hnot : ¬ ctx.lengthHigh + 1 = 0 := by
        intro heq
        rw [heq] at hcarry
        exact (hroom hn).2 hcarry.symm
      show (ctx.corrupted || decide _) = _
      rw [decide_eq_false hnot, Bool.or_false]
    · have hwrap : ctx.lengthHigh + 1 = 0 := BitVec.eq_of_toNat_eq (hcarry.trans (hlong hn))
      show (ctx.corrupted || decide _) = _
      rw [decide_eq_true hwrap, Bool.or_true]
  · have hover : (ctx.lengthLow.toNat + 8) % 2 ^ 32 ≠ 0 := by
      rw [← hadd]
      exact fun heq => hzero (BitVec.eq_of_toNat_eq heq)
    obtain ⟨hsum, hroom⟩ := no_carry_eq hlow hhigh h hover
    have hcount : ctx.count = { ctx with lengthLow := ctx.lengthLow + 8 } := if_neg hzero
    rw [hcount]
    refine ⟨fun _ => ⟨?_, rfl⟩, fun hn => absurd hn hroom⟩
    show ctx.lengthHigh.toNat * 2 ^ 32 + (ctx.lengthLow + 8).toNat = _
    rw [hadd]
    exact hsum

/-! ## Input -/

/-- The context has taken in `msg`, and waits for more. -/
structure Absorbing (ctx : SHA1Context) (msg : List UInt8) : Prop where
  running : ctx.computed = false
  sound : ctx.corrupted = false
  index : ctx.messageBlockIndex < 64
  absorbed : stdCompression.absorb (initialDigest, []) msg = (ctx.messageDigest, ctx.pending)
  length : ctx.bits = 8 * msg.length

theorem absorbing_reset (ctx : SHA1Context) : Absorbing ctx.reset [] where
  running := rfl
  sound := rfl
  index := Nat.zero_lt_succ 63
  absorbed := by
    rw [Compression.absorb_nil, pending_zero (show ctx.reset.messageBlockIndex = 0 from rfl)]
    rfl
  length := by simp [bits, reset]

theorem length_pending (h : ctx.messageBlockIndex ≤ 64) :
    ctx.pending.length = ctx.messageBlockIndex := by
  unfold pending
  rw [List.length_take, Vector.length_toList, Nat.min_eq_left h]

theorem inputByte_eq (hstore : ctx.store b = some ctx') :
    ctx.inputByte b = some (if ctx'.count.messageBlockIndex = 64 then ctx'.count.processMessageBlock
      else ctx'.count) := by
  rw [inputByte, hstore, Option.map_some]

/-- When the block is full it is taken in, as the standard does. -/
theorem inputByte_absorbing (h : Absorbing ctx msg) (b : UInt8) :
    ∃ ctx', ctx.inputByte b = some ctx' ∧ ctx'.computed = false ∧
      (8 * (msg.length + 1) < 2 ^ 64 → Absorbing ctx' (msg ++ [b])) ∧
      (2 ^ 64 ≤ 8 * (msg.length + 1) → ctx'.corrupted = true) := by
  obtain ⟨ctx₁, hstore, hstored⟩ := store_stored ctx b h.index
  have hbits : ctx₁.bits = 8 * msg.length := hstored.bits.trans h.length
  have hrunning : ctx₁.computed = false := hstored.computed.trans h.running
  have hsound : ctx₁.corrupted = false := hstored.corrupted.trans h.sound
  have hdigest : ctx₁.messageDigest = ctx.messageDigest := hstored.messageDigest
  have hindex : ctx₁.messageBlockIndex = ctx.messageBlockIndex + 1 := hstored.index
  have hpending : ctx₁.pending = ctx.pending ++ [b] := hstored.pending
  have hlen : (msg ++ [b]).length = msg.length + 1 := by rw [List.length_append, List.length_singleton]
  have hkept : ctx.pending.length = ctx.messageBlockIndex := length_pending (Nat.le_of_lt h.index)
  have hfeed : stdCompression.absorb (initialDigest, []) (msg ++ [b])
      = stdCompression.feed (ctx.messageDigest, ctx.pending) b := by
    rw [Compression.absorb_append, h.absorbed, Compression.absorb_cons, Compression.absorb_nil]
  obtain ⟨hroom, hlong⟩ := count_bits hbits
  rw [inputByte_eq hstore]
  refine ⟨_, rfl, ?_⟩
  by_cases h64 : ctx₁.count.messageBlockIndex = 64
  · rw [if_pos h64, processMessageBlock_computed, count_computed, processMessageBlock_corrupted]
    refine ⟨hrunning, fun hn => ?_, hlong⟩
    obtain ⟨hsum, hsame⟩ := hroom hn
    rw [count_index] at h64
    have hwhole : ctx₁.messageBlock.toList = ctx.pending ++ [b] := by
      rw [← hpending, pending, h64, List.take_of_length_le (Nat.le_of_eq Vector.length_toList)]
    refine ⟨?_, ?_, ?_, ?_, ?_⟩
    · rw [processMessageBlock_computed, count_computed]
      exact hrunning
    · rw [processMessageBlock_corrupted, hsame]
      exact hsound
    · rw [processMessageBlock_index]
      exact Nat.zero_lt_succ 63
    · have hfull : ctx.pending.length + 1 = stdCompression.size := by
        rw [hkept, ← hindex, h64, stdCompression]
      rw [hfeed, Compression.feed, if_pos hfull, processMessageBlock_digest, count_digest, count_block,
        hwhole, hdigest, pending_zero processMessageBlock_index]
    · rw [hlen, processMessageBlock_bits]
      exact hsum
  · rw [if_neg h64, count_computed]
    refine ⟨hrunning, fun hn => ?_, hlong⟩
    obtain ⟨hsum, hsame⟩ := hroom hn
    rw [count_index] at h64
    refine ⟨?_, ?_, ?_, ?_, ?_⟩
    · rw [count_computed]
      exact hrunning
    · rw [hsame]
      exact hsound
    · have hbound := h.index
      rw [count_index]
      omega
    · have hnot : ¬ ctx.pending.length + 1 = stdCompression.size := by
        rw [hkept, ← hindex]
        exact h64
      rw [hfeed, Compression.feed, if_neg hnot, count_digest, hdigest, count_pending,
        hpending]
    · rw [hlen]
      exact hsum

theorem inputLoop_corrupted (h : ctx.corrupted = true) (bs : List UInt8) :
    ctx.inputLoop bs = some ctx := by
  cases bs with
  | nil => rfl
  | cons b bs => exact if_pos h

/-- The whole array, unless it makes the message too long. -/
theorem inputLoop_absorbing (h : Absorbing ctx msg) (bs : List UInt8) :
    ∃ ctx', ctx.inputLoop bs = some ctx' ∧ ctx'.computed = false ∧
      (8 * (msg ++ bs).length < 2 ^ 64 → Absorbing ctx' (msg ++ bs)) ∧
      (2 ^ 64 ≤ 8 * (msg ++ bs).length → ctx'.corrupted = true) := by
  induction bs generalizing ctx msg with
  | nil =>
    rw [List.append_nil]
    refine ⟨ctx, rfl, h.running, fun _ => h, fun hlong => ?_⟩
    have hbits := h.length
    have hhigh := ctx.lengthHigh.isLt
    have hlow := ctx.lengthLow.isLt
    unfold bits at hbits
    omega
  | cons b bs ih =>
    have hlen : (msg ++ b :: bs).length = msg.length + 1 + bs.length := by
      rw [List.length_append, List.length_cons]
      omega
    have hgoes : ctx.inputLoop (b :: bs) = (ctx.inputByte b).bind (·.inputLoop bs) := by
      rw [inputLoop, h.sound]
      rfl
    obtain ⟨ctx₁, hbyte, hrunning, hroom, hlong⟩ := inputByte_absorbing h b
    rw [hgoes, hbyte]
    by_cases hn : 8 * (msg.length + 1) < 2 ^ 64
    · obtain ⟨ctx₂, hrest⟩ := ih (hroom hn)
      rw [List.append_assoc] at hrest
      exact ⟨ctx₂, hrest⟩
    · have hcorrupted := hlong (Nat.not_lt.mp hn)
      refine ⟨ctx₁, inputLoop_corrupted hcorrupted bs, hrunning, fun hshort => ?_, fun _ => hcorrupted⟩
      omega

/-! ## The result -/

theorem byteOf_eq {w : Word} {shift n : Nat} (h : w.toNat / 2 ^ shift % 256 = n % 256) :
    byteOf w shift = UInt8.ofNat n := by
  apply UInt8.toNat_inj.mp
  rw [UInt8.toNat_ofNat']
  show ((w >>> shift).setWidth 8).toNat = n % 2 ^ 8
  rw [BitVec.toNat_setWidth, BitVec.toNat_ushiftRight, Nat.shiftRight_eq_div_pow]
  exact h

/-- The octets that are stored are those of the length. -/
theorem lengthOctets_eq {n : Nat} (h : ctx.bits = n) : ctx.lengthOctets = octets n := by
  have hlow := ctx.lengthLow.isLt
  unfold bits at h
  have hoctets : octets n = [UInt8.ofNat (n / 256 ^ 7), UInt8.ofNat (n / 256 ^ 6),
      UInt8.ofNat (n / 256 ^ 5), UInt8.ofNat (n / 256 ^ 4), UInt8.ofNat (n / 256 ^ 3),
      UInt8.ofNat (n / 256 ^ 2), UInt8.ofNat (n / 256 ^ 1), UInt8.ofNat (n / 256 ^ 0)] := rfl
  rw [hoctets, lengthOctets]
  rw [byteOf_eq (n := n / 256 ^ 7) (by omega), byteOf_eq (n := n / 256 ^ 6) (by omega),
    byteOf_eq (n := n / 256 ^ 5) (by omega), byteOf_eq (n := n / 256 ^ 4) (by omega),
    byteOf_eq (n := n / 256 ^ 3) (by omega), byteOf_eq (n := n / 256 ^ 2) (by omega),
    byteOf_eq (n := n / 256 ^ 1) (by omega), byteOf_eq (n := n / 256 ^ 0) (by omega)]

/-- The last block. -/
theorem finish_digest {n : Nat} (h : Stored ctx bs ctx') (hindex : ctx'.messageBlockIndex = 56)
    (hbits : ctx.bits = n) :
    ctx'.storeLength.processMessageBlock.messageDigest
      = stdCompression.compress ctx.messageDigest (ctx.pending ++ bs ++ octets n) := by
  have hpending := h.pending
  rw [pending, hindex] at hpending
  rw [processMessageBlock_digest, storeLength_block, lengthOctets_eq (h.bits.trans hbits), hpending,
    storeLength_digest, h.messageDigest]

theorem Absorbing.index_eq (h : Absorbing ctx msg) : ctx.messageBlockIndex = msg.length % 64 := by
  have hlen : (stdCompression.absorb (initialDigest, []) msg).2.length = _ :=
    stdCompression.absorb_length (q := (initialDigest, [])) stdCompression.pos
  rw [h.absorbed, length_pending (Nat.le_of_lt h.index), List.length_nil, Nat.zero_add] at hlen
  exact hlen

/-- What is left of the message and its padding. -/
theorem sha1_eq (h : Absorbing ctx msg) {k : Nat}
    (hk : ctx.pending.length + (padding msg.length).length = k * 64) :
    sha1 msg = stdCompression.chain k ctx.messageDigest (ctx.pending ++ padding msg.length) := by
  have hwhole : msg.length + (padding msg.length).length = (msg.length + 72) / 64 * 64 := by
    simp only [padding, octets, List.cons_append, List.length_cons, List.length_append,
      List.length_replicate, List.length_map, List.length_range]
    omega
  have hchain := stdCompression.chain_append (s := initialDigest) (n := (msg.length + 72) / 64) (k := k)
    hwhole (by rw [h.absorbed]; exact hk)
  rw [h.absorbed] at hchain
  exact hchain

/-- The length and the one fit into the block. -/
theorem sha1_short (h : Absorbing ctx msg) (hroom : ctx.messageBlockIndex ≤ 55) :
    sha1 msg = stdCompression.compress ctx.messageDigest (ctx.pending ++
      (0x80 :: List.replicate (55 - ctx.messageBlockIndex) 0) ++ octets (8 * msg.length)) := by
  have hindex := h.index_eq
  have hkept := length_pending (Nat.le_of_lt h.index)
  have hzeros : (119 - msg.length % 64) % 64 = 55 - ctx.messageBlockIndex := by omega
  have hlast : ctx.pending ++ padding msg.length = ctx.pending ++
      (0x80 :: List.replicate (55 - ctx.messageBlockIndex) 0) ++ octets (8 * msg.length) := by
    rw [padding, hzeros, List.append_assoc]
  have hlen : (ctx.pending ++ padding msg.length).length = 64 := by
    rw [hlast]
    simp only [List.length_append, List.length_cons, List.length_replicate, octets, List.length_map,
      List.length_range]
    omega
  rw [sha1_eq h (k := 1) (by rw [← List.length_append, hlen]), ← hlast]
  show stdCompression.compress _ ((ctx.pending ++ padding msg.length).take 64) = _
  rw [List.take_of_length_le (Nat.le_of_eq hlen)]

/-- The length takes a block of its own. -/
theorem sha1_long (h : Absorbing ctx msg) (hroom : ctx.messageBlockIndex > 55) :
    sha1 msg = stdCompression.compress (stdCompression.compress ctx.messageDigest (ctx.pending ++
      (0x80 :: List.replicate (63 - ctx.messageBlockIndex) 0)))
        (List.replicate 56 0 ++ octets (8 * msg.length)) := by
  have hbound := h.index
  have hindex := h.index_eq
  have hkept := length_pending (Nat.le_of_lt h.index)
  have hzeros : (119 - msg.length % 64) % 64 = 63 - ctx.messageBlockIndex + 56 := by omega
  have hlast : ctx.pending ++ padding msg.length = (ctx.pending ++
      (0x80 :: List.replicate (63 - ctx.messageBlockIndex) 0)) ++
        (List.replicate 56 0 ++ octets (8 * msg.length)) := by
    rw [padding, hzeros, List.replicate_add]
    simp only [List.append_assoc, List.cons_append]
  have hone : (ctx.pending ++ (0x80 :: List.replicate (63 - ctx.messageBlockIndex) 0)).length = 64 := by
    rw [List.length_append, List.length_cons, List.length_replicate]
    omega
  have htwo : (List.replicate 56 (0 : UInt8) ++ octets (8 * msg.length)).length = 64 := by
    simp only [List.length_append, List.length_replicate, octets, List.length_map, List.length_range]
  rw [sha1_eq h (k := 2) (by rw [← List.length_append, hlast, List.length_append, hone, htwo]), hlast]
  show stdCompression.compress (stdCompression.compress _ (List.take 64 _)) (List.take 64 (List.drop 64 _)) = _
  rw [List.take_left' hone, List.drop_left' hone, List.take_of_length_le (Nat.le_of_eq htwo)]

/-- `SHA1PadMessage` completes the digest. -/
theorem padMessage_digest (h : Absorbing ctx msg) :
    ∃ ctx', ctx.padMessage = some ctx' ∧ ctx'.messageDigest = sha1 msg ∧ ctx'.corrupted = false := by
  have hbound := h.index
  obtain ⟨ctx₁, hstore, hone⟩ := store_stored ctx 0x80 h.index
  have hindex₁ : ctx₁.messageBlockIndex = ctx.messageBlockIndex + 1 := hone.index
  by_cases hroom : ctx.messageBlockIndex > 55
  · obtain ⟨ctx₂, hzeros, htwo⟩ := zeroUntil_stored ctx₁ (n := 64) (Nat.le_refl 64) (by omega)
    obtain ⟨ctx₃, hzeros', hthree⟩ := zeroUntil_stored ctx₂.processMessageBlock (n := 56)
      (by omega) (by rw [processMessageBlock_index]; omega)
    have hfilled := hone.trans htwo
    have hpad : ctx.padMessage = some ctx₃.storeLength.processMessageBlock := by
      rw [padMessage, padBlock, if_pos hroom, hstore, Option.bind_some, hzeros, Option.bind_some,
        hzeros', Option.map_some]
    have hindex₂ : ctx₂.messageBlockIndex = 64 := by
      rw [htwo.index, List.length_replicate]
      omega
    have hblock : ctx₂.messageBlock.toList = ctx.pending ++
        (0x80 :: List.replicate (63 - ctx.messageBlockIndex) 0) := by
      have hpending := hfilled.pending
      rw [pending, hindex₂, List.take_of_length_le (Nat.le_of_eq Vector.length_toList), hindex₁] at hpending
      rw [hpending, show 64 - (ctx.messageBlockIndex + 1) = 63 - ctx.messageBlockIndex by omega]
      rfl
    have hdigest := finish_digest hthree (n := 8 * msg.length)
      (by rw [hthree.index, processMessageBlock_index, List.length_replicate])
      (by rw [processMessageBlock_bits, hfilled.bits, h.length])
    rw [processMessageBlock_digest ctx₂, hblock, hfilled.messageDigest, pending_zero processMessageBlock_index,
      processMessageBlock_index, List.nil_append, ← sha1_long h hroom] at hdigest
    refine ⟨_, hpad, hdigest, ?_⟩
    rw [processMessageBlock_corrupted, storeLength_corrupted, hthree.corrupted,
      processMessageBlock_corrupted, hfilled.corrupted, h.sound]
  · obtain ⟨ctx₂, hzeros, htwo⟩ := zeroUntil_stored ctx₁ (n := 56) (by omega) (by omega)
    have hfilled := hone.trans htwo
    have hpad : ctx.padMessage = some ctx₂.storeLength.processMessageBlock := by
      rw [padMessage, padBlock, if_neg hroom, hstore, Option.bind_some, hzeros, Option.map_some]
    have hindex₂ : ctx₂.messageBlockIndex = 56 := by
      rw [htwo.index, List.length_replicate]
      omega
    have hdigest := finish_digest hfilled hindex₂ h.length
    rw [hindex₁, show 56 - (ctx.messageBlockIndex + 1) = 55 - ctx.messageBlockIndex by omega,
      List.singleton_append, ← sha1_short h (Nat.not_lt.mp hroom)] at hdigest
    refine ⟨_, hpad, hdigest, ?_⟩
    rw [processMessageBlock_corrupted, storeLength_corrupted, hfilled.corrupted, h.sound]

/-! ## Any order of calls -/

/-- A call of a client. -/
inductive Call where
  | reset
  | input (message : List UInt8)
  | result

/-- The context after a call. A result is the digest that may then be read, or that there is
none. -/
def call (ctx : SHA1Context) : Call → Option (SHA1Context × List (Option Digest))
  | .reset => some (ctx.reset, [])
  | .input message => (ctx.input message).map fun ctx => (ctx, [])
  | .result => ctx.result.map fun r => (r.2, [if r.1 then some r.2.messageDigest else none])

/-- One call after another. -/
def calls (ctx : SHA1Context) : List Call → Option (SHA1Context × List (Option Digest))
  | [] => some (ctx, [])
  | c :: cs => (ctx.call c).bind fun r => (r.1.calls cs).map fun r' => (r'.1, r.2 ++ r'.2)

end SHA1Context

open SHA1Context

/-- What has been input since the last reset, whether a result has been asked for, and whether
too much has been input, or anything after that. -/
structure Hashing where
  msg : List UInt8
  asked : Bool
  spoilt : Bool

/-- What a call means. -/
def Hashing.call (a : Hashing) : Call → Hashing × List (Option Digest)
  | .reset => (⟨[], false, false⟩, [])
  | .input message =>
    if message = [] then (a, [])
    else if a.asked || a.spoilt then ({ a with spoilt := true }, [])
    else (⟨a.msg ++ message, false, 2 ^ 64 ≤ 8 * (a.msg ++ message).length⟩, [])
  | .result => if a.spoilt then (a, [none]) else ({ a with asked := true }, [some (sha1 a.msg)])

def Hashing.calls (a : Hashing) : List Call → Hashing × List (Option Digest)
  | [] => (a, [])
  | c :: cs => (((a.call c).1.calls cs).1, (a.call c).2 ++ ((a.call c).1.calls cs).2)

/-- The context is in the state that is meant. -/
inductive Follows : SHA1Context → Hashing → Prop
  | absorbing {ctx : SHA1Context} {msg : List UInt8} (h : Absorbing ctx msg) :
      Follows ctx ⟨msg, false, false⟩
  | asked {ctx : SHA1Context} {msg : List UInt8} (hcomputed : ctx.computed = true)
      (hsound : ctx.corrupted = false) (hdigest : ctx.messageDigest = sha1 msg) :
      Follows ctx ⟨msg, true, false⟩
  | spoilt {ctx : SHA1Context} {msg : List UInt8} {asked : Bool} (h : ctx.corrupted = true) :
      Follows ctx ⟨msg, asked, true⟩

variable {ctx : SHA1Context} {a : Hashing}

theorem Follows.input (h : Follows ctx a) (message : List UInt8) :
    ∃ ctx', ctx.input message = some ctx' ∧ Follows ctx' (a.call (.input message)).1 := by
  by_cases hnil : message = []
  · refine ⟨ctx, if_pos hnil, ?_⟩
    rw [Hashing.call, if_pos hnil]
    exact h
  · rw [SHA1Context.input, if_neg hnil, Hashing.call, if_neg hnil]
    cases h with
    | @absorbing msg h =>
      obtain ⟨ctx', hloop, -, hroom, hlong⟩ := inputLoop_absorbing h message
      rw [h.running, h.sound]
      refine ⟨ctx', hloop, ?_⟩
      by_cases hn : 2 ^ 64 ≤ 8 * (msg ++ message).length
      · show Follows ctx' ⟨msg ++ message, false, decide (2 ^ 64 ≤ 8 * (msg ++ message).length)⟩
        rw [decide_eq_true hn]
        exact .spoilt (hlong hn)
      · show Follows ctx' ⟨msg ++ message, false, decide (2 ^ 64 ≤ 8 * (msg ++ message).length)⟩
        rw [decide_eq_false hn]
        exact .absorbing (hroom (Nat.not_le.mp hn))
    | asked hcomputed hsound hdigest =>
      rw [hcomputed]
      exact ⟨_, rfl, .spoilt rfl⟩
    | @spoilt msg asked h =>
      rw [h, Bool.or_true, Bool.or_true]
      exact ⟨_, rfl, .spoilt rfl⟩

theorem Follows.result (h : Follows ctx a) :
    ∃ r, ctx.result = some r ∧ Follows r.2 (a.call .result).1 ∧
      [if r.1 then some r.2.messageDigest else none] = (a.call .result).2 := by
  cases h with
  | @absorbing msg h =>
    obtain ⟨ctx', hpad, hdigest, hsound⟩ := padMessage_digest h
    have hresult : ctx.result = some (true, { ctx' with computed := true }) := by
      rw [SHA1Context.result, h.sound, h.running, hpad]
      rfl
    refine ⟨_, hresult, .asked rfl hsound hdigest, ?_⟩
    show [some ctx'.messageDigest] = [some (sha1 msg)]
    rw [hdigest]
  | @asked msg hcomputed hsound hdigest =>
    have hresult : ctx.result = some (true, ctx) := by
      rw [SHA1Context.result, hsound, hcomputed]
      rfl
    refine ⟨_, hresult, .asked hcomputed hsound hdigest, ?_⟩
    show [some ctx.messageDigest] = [some (sha1 msg)]
    rw [hdigest]
  | spoilt h =>
    have hresult : ctx.result = some (false, ctx) := by
      rw [SHA1Context.result, h]
      rfl
    exact ⟨_, hresult, .spoilt h, rfl⟩

/-- One call. -/
theorem Follows.call (h : Follows ctx a) (c : Call) :
    ∃ ctx', ctx.call c = some (ctx', (a.call c).2) ∧ Follows ctx' (a.call c).1 := by
  cases c with
  | reset => exact ⟨_, rfl, .absorbing (absorbing_reset ctx)⟩
  | input message =>
    obtain ⟨ctx', hinput, hfollows⟩ := h.input message
    have hsilent : (a.call (.input message)).2 = [] := by
      rw [Hashing.call]
      split
      case isTrue => rfl
      case isFalse => split <;> rfl
    refine ⟨ctx', ?_, hfollows⟩
    rw [SHA1Context.call, hinput, Option.map_some, hsilent]
  | result =>
    obtain ⟨r, hresult, hfollows, hgiven⟩ := h.result
    refine ⟨r.2, ?_, hfollows⟩
    rw [SHA1Context.call, hresult, Option.map_some, hgiven]

theorem Follows.calls (h : Follows ctx a) (cs : List Call) :
    ∃ ctx', ctx.calls cs = some (ctx', (a.calls cs).2) ∧ Follows ctx' (a.calls cs).1 := by
  induction cs generalizing ctx a with
  | nil => exact ⟨ctx, rfl, h⟩
  | cons c cs ih =>
    obtain ⟨ctx₁, hcall, hone⟩ := h.call c
    obtain ⟨ctx₂, hcalls, hall⟩ := ih hone
    refine ⟨ctx₂, ?_, hall⟩
    rw [SHA1Context.calls, hcall, Option.bind_some, hcalls, Option.map_some, Hashing.calls]

/-- **Every result is the digest of what was input**, for any calls after a reset of any
context: none of them stores behind the block, and there is no result exactly when 2^64
bits or more have been input, or anything after a result. -/
theorem digest_run (ctx : SHA1Context) (cs : List Call) :
    ∃ ctx', ctx.reset.calls cs = some (ctx', (Hashing.calls ⟨[], false, false⟩ cs).2) := by
  obtain ⟨ctx', hcalls, -⟩ := (Follows.absorbing (absorbing_reset ctx)).calls cs
  exact ⟨ctx', hcalls⟩

/-- The digest of `abc`. -/
example : ((⟨initialDigest, 0, 0, Vector.replicate 64 0, 0, false, false⟩ : SHA1Context).reset.calls
    [.input [0x61, 0x62], .input [0x63], .result]).map (·.2)
      = some [some ⟨0xA9993E36, 0x4706816A, 0xBA3E2571, 0x7850C26C, 0x9CD0D89D⟩] := by
  decide +kernel

end UchiNetworks.Router
