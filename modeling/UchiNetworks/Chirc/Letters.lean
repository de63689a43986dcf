import Mathlib.Data.List.Nodup
import Mathlib.Data.List.Perm.Subperm
import UchiNetworks.Chirc.State

/-!
# chirc: mode strings as sets of letters

A mode is a set of letters, kept in a string: `strcat` adds one, the shifting
loop takes one out, `strchr` looks for one. As long as no letter is added that is
there already the string has no letter twice (`Letters`), and then the three
operations are those of a set (`hasMode_add`, `Letters.hasMode_del`).
-/

namespace UchiNetworks.Chirc

/-- No letter twice, and only letters of `allowed`. -/
structure Letters (allowed mode : CStr) : Prop where
  nodup : mode.Nodup
  subset : mode ⊆ allowed

theorem hasMode_iff {mode : CStr} {c : UInt8} : hasMode mode c = true ↔ c ∈ mode :=
  List.contains_iff_mem

theorem not_hasMode_iff {mode : CStr} {c : UInt8} : hasMode mode c = false ↔ c ∉ mode := by
  rw [← hasMode_iff, Bool.not_eq_true]

theorem letters_nil (allowed : CStr) : Letters allowed [] := ⟨List.nodup_nil, List.nil_subset _⟩

theorem Letters.length_le {allowed mode : CStr} (h : Letters allowed mode) :
    mode.length ≤ allowed.length :=
  (h.nodup.subperm h.subset).length_le

/-- A letter that is not there is added. -/
theorem Letters.add {allowed mode : CStr} {x : UInt8} (h : Letters allowed mode) (hx : x ∈ allowed)
    (hnew : hasMode mode x = false) : Letters allowed (mode ++ [x]) := by
  constructor
  · rw [List.nodup_append_comm, List.singleton_append, List.nodup_cons]
    exact ⟨not_hasMode_iff.mp hnew, h.nodup⟩
  · intro y hy
    rcases List.mem_append.mp hy with hold | hy
    · exact h.subset hold
    · rw [List.mem_singleton.mp hy]
      exact hx

theorem Letters.del {allowed mode : CStr} (h : Letters allowed mode) (x : UInt8) :
    Letters allowed (delMode mode x) :=
  ⟨h.nodup.erase x, fun _ hy => h.subset (List.mem_of_mem_erase hy)⟩

theorem hasMode_add (mode : CStr) (x y : UInt8) :
    hasMode (mode ++ [x]) y = if y = x then true else hasMode mode y := by
  by_cases hyx : y = x
  · rw [if_pos hyx, hasMode_iff]
    exact List.mem_append_right _ (List.mem_singleton.mpr hyx)
  · rw [if_neg hyx, Bool.eq_iff_iff, hasMode_iff, hasMode_iff, List.mem_append,
      List.mem_singleton]
    exact or_iff_left hyx

/-- Taking a letter out of a string that has none twice. -/
theorem Letters.hasMode_del {allowed mode : CStr} (h : Letters allowed mode) (x y : UInt8) :
    hasMode (delMode mode x) y = if y = x then false else hasMode mode y := by
  by_cases hyx : y = x
  · rw [if_pos hyx, not_hasMode_iff, hyx]
    exact h.nodup.not_mem_erase
  · rw [if_neg hyx, Bool.eq_iff_iff, hasMode_iff, hasMode_iff]
    exact List.mem_erase_of_ne hyx

/-- The set with a letter in it, or without it. -/
def setLetter (mode : CStr) (plus : Bool) (x : UInt8) : CStr :=
  if plus then if hasMode mode x then mode else mode ++ [x] else delMode mode x

/-- Setting a letter as it is changes nothing, and nothing else changes nothing. -/
theorem setLetter_eq_self {mode : CStr} {plus : Bool} {x : UInt8} :
    setLetter mode plus x = mode ↔ hasMode mode x = plus := by
  unfold setLetter
  cases plus with
  | false =>
    rw [if_neg Bool.false_ne_true, not_hasMode_iff]
    exact List.erase_eq_self_iff
  | true =>
    rw [if_pos rfl]
    by_cases hhas : hasMode mode x = true
    · rw [if_pos hhas]
      exact ⟨fun _ => hhas, fun _ => rfl⟩
    · rw [if_neg hhas]
      exact ⟨fun h => absurd h (by simp), fun h => absurd h hhas⟩

theorem Letters.set {allowed mode : CStr} {x : UInt8} (h : Letters allowed mode) (hx : x ∈ allowed)
    (plus : Bool) : Letters allowed (setLetter mode plus x) := by
  unfold setLetter
  cases plus with
  | false => exact h.del x
  | true =>
    rw [if_pos rfl]
    by_cases hhas : hasMode mode x = true
    · rw [if_pos hhas]
      exact h
    · rw [if_neg hhas]
      exact h.add hx (by simpa using hhas)

/-- **The letter is as asked for, and all others are as they were.** -/
theorem Letters.hasMode_set {allowed mode : CStr} (h : Letters allowed mode) (plus : Bool)
    (x y : UInt8) :
    hasMode (setLetter mode plus x) y = if y = x then plus else hasMode mode y := by
  unfold setLetter
  cases plus with
  | false => exact h.hasMode_del x y
  | true =>
    rw [if_pos rfl]
    by_cases hhas : hasMode mode x = true
    · rw [if_pos hhas]
      by_cases hyx : y = x
      · rw [if_pos hyx, hyx, hhas]
      · rw [if_neg hyx]
    · rw [if_neg hhas]
      exact hasMode_add mode x y

/-! ## Strings of a sign and a letter -/

/-- A sign followed by one letter; a MODE without a string asks only. -/
def signedLetter (mode : CStr) : Prop :=
  mode = [] ∨ ∃ x, mode = [chr '+', x] ∨ mode = [chr '-', x]

/-- The string asks for the letter to be set. -/
def adds (mode : CStr) : Bool := mode.head? = some (chr '+')

/-- The letter is one of those `strpbrk` looks for, for no sign is. -/
theorem anyOf_letter {sign x : UInt8} {accept : CStr} (hsign : sign ∉ accept)
    (h : anyOf [sign, x] accept = true) : x ∈ accept := by
  unfold anyOf at h
  rw [List.any_eq_true] at h
  obtain ⟨y, hy, hacc⟩ := h
  have hmem := List.contains_iff_mem.mp hacc
  rcases List.mem_cons.mp hy with heq | hy
  · rw [heq] at hmem
    exact absurd hmem hsign
  · rw [← List.mem_singleton.mp hy]
    exact hmem

/-- `params[2][1]`, and what `strcat` gets. -/
theorem modeString_add {mode : CStr} (h : signedLetter mode) (hplus : mode.head? = some (chr '+')) :
    mode.tail = [mode.getD 1 0] ∧ mode = [chr '+', mode.getD 1 0] := by
  rcases h with hnil | ⟨x, hadd | hdel⟩
  · rw [hnil] at hplus
    cases hplus
  · rw [hadd]
    exact ⟨rfl, rfl⟩
  · rw [hdel] at hplus
    exact absurd (Option.some.inj hplus) (by decide)

theorem modeString_del {mode : CStr} (h : signedLetter mode) (hminus : mode.head? = some (chr '-')) :
    mode = [chr '-', mode.getD 1 0] ∧ adds mode = false := by
  rcases h with hnil | ⟨x, hadd | hdel⟩
  · rw [hnil] at hminus
    cases hminus
  · rw [hadd] at hminus
    exact absurd (Option.some.inj hminus) (by decide)
  · rw [hdel]
    exact ⟨rfl, show decide (some (chr '-') = some (chr '+')) = false by decide⟩

end UchiNetworks.Chirc
