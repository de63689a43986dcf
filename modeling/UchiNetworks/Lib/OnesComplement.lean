import UchiNetworks.Lib.Buffer
import Mathlib.Algebra.BigOperators.Group.List.Basic
import Mathlib.Data.Nat.ModEq
import Mathlib.Data.Nat.GCD.Basic

/-!
# The ones'-complement sum of 16-bit words

The Internet checksum adds 16-bit words with an end-around carry and stores the
complement. A sum that folds the carry back at every word (`foldSum`) is a
representative of the plain sum modulo 65535, in the range `0 .. 65535`, and it
is 0 only when every word is 0. From these three facts the one that matters
follows: with the complement of the others in a field, the whole sums to
`0xffff` (`foldSum_complement`), for every list of words and every place of the
field in it.

`Checks` is the rule by which a receiver verifies a message: words in network
order, an odd last byte followed by a zero byte. A host that reads the words the
other way round verifies the same messages (`checks_iff`).
-/

namespace UchiNetworks.Lib

/-- Add one word and fold the carry back. -/
def addWord (sum word : Nat) : Nat :=
  if 65536 ≤ sum + word then (sum + word) % 65536 + 1 else sum + word

/-- The ones'-complement sum. -/
def foldSum (words : List Nat) : Nat := words.foldl addWord 0

/-- The 16-bit words of a byte string, low byte first; an odd last byte is left
out. -/
def words16 : List UInt8 → List Nat
  | lo :: hi :: rest => (lo.toNat + 256 * hi.toNat) :: words16 rest
  | _ => []

theorem addWord_le {sum word : Nat} (hs : sum ≤ 65535) (hw : word ≤ 65535) :
    addWord sum word ≤ 65535 := by
  unfold addWord
  split <;> omega

theorem addWord_modEq {sum word : Nat} (hs : sum ≤ 65535) (hw : word ≤ 65535) :
    addWord sum word ≡ sum + word [MOD 65535] := by
  unfold addWord Nat.ModEq
  split <;> omega

theorem addWord_eq_zero {sum word : Nat} : addWord sum word = 0 ↔ sum = 0 ∧ word = 0 := by
  unfold addWord
  split <;> omega

theorem foldl_addWord (words : List Nat) (hw : ∀ w ∈ words, w ≤ 65535) :
    ∀ sum ≤ 65535, words.foldl addWord sum ≤ 65535 ∧
      words.foldl addWord sum ≡ sum + words.sum [MOD 65535] ∧
      (words.foldl addWord sum = 0 ↔ sum = 0 ∧ ∀ w ∈ words, w = 0) := by
  induction words with
  | nil => intro sum hs; simp [hs, Nat.ModEq]
  | cons w ws ih =>
    intro sum hs
    have hwle : w ≤ 65535 := hw w List.mem_cons_self
    have hnext := addWord_le hs hwle
    obtain ⟨hle, hmod, hzero⟩ := ih (fun x hx => hw x (List.mem_cons_of_mem w hx)) _ hnext
    rw [List.foldl_cons, List.sum_cons]
    refine ⟨hle, ?_, ?_⟩
    · calc List.foldl addWord (addWord sum w) ws
          ≡ addWord sum w + ws.sum [MOD 65535] := hmod
        _ ≡ (sum + w) + ws.sum [MOD 65535] := (addWord_modEq hs hwle).add_right _
        _ = sum + (w + ws.sum) := by omega
    · rw [hzero, addWord_eq_zero, List.forall_mem_cons, and_assoc]

theorem foldSum_le {words : List Nat} (hw : ∀ w ∈ words, w ≤ 65535) : foldSum words ≤ 65535 :=
  (foldl_addWord words hw 0 (by omega)).1

theorem foldSum_modEq {words : List Nat} (hw : ∀ w ∈ words, w ≤ 65535) :
    foldSum words ≡ words.sum [MOD 65535] := by
  have := (foldl_addWord words hw 0 (by omega)).2.1
  rwa [Nat.zero_add] at this

theorem foldSum_eq_zero {words : List Nat} (hw : ∀ w ∈ words, w ≤ 65535) :
    foldSum words = 0 ↔ ∀ w ∈ words, w = 0 := by
  have := (foldl_addWord words hw 0 (by omega)).2.2
  simpa [foldSum] using this

/-- **The complement makes the whole verify.** Words `front`, the field, words
`back`: with 65535 minus the sum that was taken with the field at 0, the sum is
65535. -/
theorem foldSum_complement {front back : List Nat} (hf : ∀ w ∈ front, w ≤ 65535)
    (hb : ∀ w ∈ back, w ≤ 65535) :
    foldSum (front ++ (65535 - foldSum (front ++ 0 :: back)) :: back) = 65535 := by
  have hmem : ∀ x ≤ 65535, ∀ w ∈ front ++ x :: back, w ≤ 65535 := by
    intro x hx w hw
    rcases List.mem_append.mp hw with hw | hw
    · exact hf w hw
    · rcases List.mem_cons.mp hw with rfl | hw
      · exact hx
      · exact hb w hw
  have hle := foldSum_le (hmem 0 (by omega))
  have hmod := foldSum_modEq (hmem 0 (by omega))
  have hzero := foldSum_eq_zero (hmem 0 (by omega))
  generalize foldSum (front ++ 0 :: back) = s at hle hmod hzero ⊢
  have hle' := foldSum_le (hmem (65535 - s) (by omega))
  have hmod' := foldSum_modEq (hmem (65535 - s) (by omega))
  have hzero' := foldSum_eq_zero (hmem (65535 - s) (by omega))
  generalize hwhole : foldSum (front ++ (65535 - s) :: back) = t at hle' hmod' hzero' ⊢
  -- not every word is 0: either the field is not, or `s` was not
  have hpos : t ≠ 0 := by
    intro ht
    have hall := hzero'.mp ht
    have hs : s = 0 := hzero.mpr (by
      intro w hw
      rcases List.mem_append.mp hw with hw | hw
      · exact hall w (List.mem_append_left _ hw)
      · rcases List.mem_cons.mp hw with rfl | hw
        · rfl
        · exact hall w (List.mem_append_right _ (List.mem_cons_of_mem _ hw)))
    have := hall (65535 - s) (List.mem_append_right _ List.mem_cons_self)
    omega
  -- and the plain sum is a multiple of 65535
  rw [List.sum_append, List.sum_cons] at hmod hmod'
  unfold Nat.ModEq at hmod hmod'
  omega

theorem words16_le (bytes : List UInt8) : ∀ w ∈ words16 bytes, w ≤ 65535 := by
  induction bytes using words16.induct with
  | case1 lo hi rest ih =>
    intro w hw
    rcases List.mem_cons.mp hw with rfl | hw
    · have := lo.toNat_lt
      have := hi.toNat_lt
      omega
    · exact ih w hw
  | case2 bytes hne => intro w hw; simp [words16] at hw

theorem words16_append {front : List UInt8} (back : List UInt8) (h : front.length % 2 = 0) :
    words16 (front ++ back) = words16 front ++ words16 back := by
  induction front using words16.induct with
  | case1 lo hi rest ih =>
    simp only [List.length_cons] at h
    simp [words16, ih (by omega)]
  | case2 front hne =>
    cases front with
    | nil => simp [words16]
    | cons a rest =>
      cases rest with
      | nil => simp at h
      | cons b rest => exact absurd rfl (hne a b rest)

/-! ## When the sum is full -/

/-- The sum is full exactly if the words add up to a multiple of 65535 other
than 0. -/
theorem foldSum_eq_full {words : List Nat} (hw : ∀ w ∈ words, w ≤ 65535) :
    foldSum words = 65535 ↔ words.sum ≠ 0 ∧ 65535 ∣ words.sum := by
  have hle := foldSum_le hw
  have hmod := foldSum_modEq hw
  have hzero : foldSum words = 0 ↔ words.sum = 0 := by
    rw [foldSum_eq_zero hw, List.sum_eq_zero_iff_forall_eq_nat]
  unfold Nat.ModEq at hmod
  omega

/-- One word of a full sum changes: the sum is full no more, unless the new word
is the old one modulo 65535. -/
theorem foldSum_set_ne_full {words : List Nat} {j old w : Nat} (hwords : ∀ w ∈ words, w ≤ 65535)
    (hw : w ≤ 65535) (hj : words[j]? = some old) (hfull : foldSum words = 65535)
    (hne : ¬ w ≡ old [MOD 65535]) : foldSum (words.set j w) ≠ 65535 := by
  obtain ⟨hlt, hold⟩ := List.getElem?_eq_some_iff.mp hj
  have hset : ∀ x ∈ words.set j w, x ≤ 65535 := by
    intro x hx
    rcases List.mem_or_eq_of_mem_set hx with hx | rfl
    · exact hwords x hx
    · exact hw
  have hsum : (words.set j w).sum + old = words.sum + w := by
    conv_rhs => rw [← List.take_append_drop j words]
    rw [List.set_eq_take_append_cons_drop, if_pos hlt, List.drop_eq_getElem_cons hlt, hold]
    simp only [List.sum_append, List.sum_cons]
    omega
  obtain ⟨-, hdvd⟩ := (foldSum_eq_full hwords).mp hfull
  intro hfull'
  obtain ⟨-, hdvd'⟩ := (foldSum_eq_full hset).mp hfull'
  apply hne
  unfold Nat.ModEq
  omega

/-- `foldSum_complement` for a field at place `j`. -/
theorem foldSum_set_complement {words : List Nat} {j : Nat} (hw : ∀ w ∈ words, w ≤ 65535)
    (hj : words[j]? = some 0) : foldSum (words.set j (65535 - foldSum words)) = 65535 := by
  obtain ⟨hlt, hold⟩ := List.getElem?_eq_some_iff.mp hj
  have hsplit : words = words.take j ++ 0 :: words.drop (j + 1) := by
    rw [← hold, ← List.drop_eq_getElem_cons hlt, List.take_append_drop]
  have hfront : ∀ w ∈ words.take j, w ≤ 65535 := fun w hmem => hw w (List.mem_of_mem_take hmem)
  have hback : ∀ w ∈ words.drop (j + 1), w ≤ 65535 := fun w hmem =>
    hw w (List.mem_of_mem_drop hmem)
  have hfull := foldSum_complement hfront hback
  rw [← hsplit] at hfull
  rw [List.set_eq_take_append_cons_drop, if_pos hlt]
  exact hfull

theorem words16_length (bytes : List UInt8) : (words16 bytes).length = bytes.length / 2 := by
  induction bytes using words16.induct with
  | case1 lo hi rest ih => simp only [words16, List.length_cons, ih]; omega
  | case2 bytes hne =>
    cases bytes with
    | nil => rfl
    | cons a rest =>
      cases rest with
      | nil => simp [words16]
      | cons b rest => exact absurd rfl (hne a b rest)

/-- Two bytes written at an even place are one word. -/
theorem words16_write {bytes bytes' : List UInt8} {j : Nat} {lo hi : UInt8}
    (h : Buffer.write bytes (2 * j) [lo, hi] = some bytes') :
    words16 bytes' = (words16 bytes).set j (lo.toNat + 256 * hi.toNat) := by
  obtain ⟨hle, rfl⟩ := Buffer.write_eq h
  simp only [List.length_cons, List.length_nil] at hle ⊢
  have heven : (bytes.take (2 * j)).length % 2 = 0 := by rw [List.length_take]; omega
  have hlen : (words16 (bytes.take (2 * j))).length = j := by
    rw [words16_length, List.length_take]
    omega
  have hdrop : bytes.drop (2 * j) = bytes[2 * j] :: bytes[2 * j + 1] :: bytes.drop (2 * j + 2) := by
    rw [List.drop_eq_getElem_cons (by omega), List.drop_eq_getElem_cons (by omega)]
  conv_rhs => rw [← List.take_append_drop (2 * j) bytes, words16_append _ heven, hdrop]
  rw [words16_append _ heven, List.set_append_right _ _ (by omega), hlen, Nat.sub_self]
  rfl

/-! ## Verifying a message -/

/-- The 16-bit words in network order; an odd last byte is followed by zero. -/
def wordsBe : List UInt8 → List Nat
  | hi :: lo :: rest => (256 * hi.toNat + lo.toNat) :: wordsBe rest
  | [hi] => [256 * hi.toNat]
  | [] => []

/-- The message verifies. -/
def Checks (bytes : List UInt8) : Prop := foldSum (wordsBe bytes) = 65535

instance (bytes : List UInt8) : Decidable (Checks bytes) := inferInstanceAs (Decidable (_ = _))

/-- What is added to a message of odd length. -/
def padZero (bytes : List UInt8) : List UInt8 := if bytes.length % 2 = 0 then bytes else bytes ++ [0]

theorem wordsBe_le (bytes : List UInt8) : ∀ w ∈ wordsBe bytes, w ≤ 65535 := by
  induction bytes using wordsBe.induct with
  | case1 hi lo rest ih =>
    intro w hw
    rcases List.mem_cons.mp hw with rfl | hw
    · have := hi.toNat_lt
      have := lo.toNat_lt
      omega
    · exact ih w hw
  | case2 hi =>
    intro w hw
    have := hi.toNat_lt
    rw [List.mem_singleton.mp hw]
    omega
  | case3 => intro w hw; cases hw

/-- In the other order every word is 256 times as much, modulo 65535. -/
theorem wordsBe_sum (bytes : List UInt8) :
    ((wordsBe bytes).sum = 0 ↔ (words16 (padZero bytes)).sum = 0) ∧
      (wordsBe bytes).sum ≡ 256 * (words16 (padZero bytes)).sum [MOD 65535] := by
  induction bytes using wordsBe.induct with
  | case1 hi lo rest ih =>
    have hpad : padZero (hi :: lo :: rest) = hi :: lo :: padZero rest := by
      unfold padZero
      simp only [List.length_cons]
      split <;> split <;> first | rfl | omega
    obtain ⟨hzero, hmod⟩ := ih
    rw [hpad]
    simp only [wordsBe, words16, List.sum_cons]
    unfold Nat.ModEq at hmod ⊢
    omega
  | case2 hi =>
    have hpad : padZero [hi] = [hi, 0] := rfl
    rw [hpad]
    simp [wordsBe, words16, Nat.ModEq]
  | case3 => simp [wordsBe, words16, padZero, Nat.ModEq]

/-- A message verifies for a host that reads its words low byte first. -/
theorem checks_iff (bytes : List UInt8) :
    Checks bytes ↔ foldSum (words16 (padZero bytes)) = 65535 := by
  obtain ⟨hzero, hmod⟩ := wordsBe_sum bytes
  have hdvd : 65535 ∣ (wordsBe bytes).sum ↔ 65535 ∣ (words16 (padZero bytes)).sum := by
    rw [hmod.dvd_iff (Nat.dvd_refl _)]
    exact Nat.Coprime.dvd_mul_left (by decide)
  rw [Checks, foldSum_eq_full (wordsBe_le bytes), foldSum_eq_full (words16_le _), hdvd]
  exact and_congr_left fun _ => not_congr hzero

/-- An even number of bytes verify as they are. -/
theorem checks_iff_of_even {bytes : List UInt8} (heven : bytes.length % 2 = 0) :
    Checks bytes ↔ foldSum (words16 bytes) = 65535 := by
  rw [checks_iff, padZero, if_pos heven]

/-- An odd last byte that is left out of the sum is missed, unless it is 0. -/
theorem checks_odd {front : List UInt8} (heven : front.length % 2 = 0) (last : UInt8) :
    (Checks (front ++ [last]) → (foldSum (words16 front) = 65535 ↔ last = 0)) ∧
      (foldSum (words16 front) = 65535 → (Checks (front ++ [last]) ↔ last = 0)) := by
  have hpad : padZero (front ++ [last]) = front ++ [last, 0] := by
    unfold padZero
    rw [if_neg (by rw [List.length_append, List.length_singleton]; omega), List.append_assoc]
    rfl
  have hsum : (words16 (padZero (front ++ [last]))).sum = (words16 front).sum + last.toNat := by
    rw [hpad, words16_append _ heven, List.sum_append]
    simp [words16]
  have hlast := last.toNat_lt
  have hlast0 : last = 0 ↔ last.toNat = 0 := by rw [← UInt8.toNat_inj]; rfl
  rw [checks_iff, foldSum_eq_full (words16_le _), foldSum_eq_full (words16_le _), hsum, hlast0]
  constructor <;> intro h <;> omega

/-- No byte is missing from a sum over whole words: their number is even, or the
last one is 0. -/
def Summed (bytes : List UInt8) : Prop := bytes.length % 2 = 0 ∨ bytes.getLast? = some 0

instance (bytes : List UInt8) : Decidable (Summed bytes) := inferInstanceAs (Decidable (_ ∨ _))

theorem summed_append {front : List UInt8} (heven : front.length % 2 = 0) (bytes : List UInt8) :
    Summed (front ++ bytes) ↔ Summed bytes := by
  have hmod : (front.length + bytes.length) % 2 = bytes.length % 2 := by omega
  unfold Summed
  rw [List.length_append, List.getLast?_append, hmod]
  cases hlast : bytes.getLast? with
  | none =>
    rw [List.getLast?_eq_none_iff] at hlast
    subst hlast
    simp
  | some last => rw [Option.some_or]

theorem words16_dropLast {front : List UInt8} (heven : front.length % 2 = 0) (last : UInt8) :
    words16 (front ++ [last]) = words16 front := by
  rw [words16_append _ heven]
  exact List.append_nil _

/-- A message and its sum over whole words: either verifies when the other does,
if the sum has all of the message. -/
theorem checks_summed (bytes : List UInt8) :
    (Checks bytes → (foldSum (words16 bytes) = 65535 ↔ Summed bytes)) ∧
      (foldSum (words16 bytes) = 65535 → (Checks bytes ↔ Summed bytes)) := by
  by_cases heven : bytes.length % 2 = 0
  · have hsummed : Summed bytes := Or.inl heven
    rw [checks_iff_of_even heven]
    simp only [hsummed, iff_true, imp_self, and_self]
  · have hne : bytes ≠ [] := by
      intro hnil
      rw [hnil] at heven
      exact heven rfl
    -- the last byte is left out
    have hsplit := List.dropLast_concat_getLast hne
    have hfront : bytes.dropLast.length % 2 = 0 := by
      rw [List.length_dropLast]
      omega
    have hlast : Summed bytes ↔ bytes.getLast hne = 0 := by
      unfold Summed
      rw [List.getLast?_eq_some_getLast hne, Option.some.injEq]
      exact or_iff_right heven
    have hodd := checks_odd hfront (bytes.getLast hne)
    rw [← words16_dropLast hfront (bytes.getLast hne), hsplit] at hodd
    rw [hlast]
    exact hodd

end UchiNetworks.Lib
