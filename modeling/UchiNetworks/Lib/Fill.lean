import Mathlib.Algebra.GroupWithZero.Nat
import Mathlib.Data.List.Basic

/-!
# Strings in arrays of characters

A C string has room in an array of `cap` characters if its NUL has, too: `stored`
is the string where it has room and nothing where the array is overrun. A string that
is put together by appending to what the array holds is stored piece by piece, and
what counts is the length at the end (`catIf_bind`).

`fill` is a loop that appends: it goes on while `go` says so and stops, with nothing,
at the first turn that overruns the array. `fill_iff` says when none does, for a loop
whose turns and whose test depend on nothing but the entries already dealt with.
-/

namespace UchiNetworks.Lib

variable {α β γ : Type}

/-- A string in an array of `cap` characters, if there is room for it and a NUL. -/
def stored (cap : Nat) (s : List α) : Option (List α) := if s.length < cap then some s else none

theorem stored_eq_some {cap : Nat} {s t : List α} : stored cap s = some t ↔ s.length < cap ∧ s = t := by
  unfold stored
  split
  next h => simp [h]
  next h => simp [h]

theorem stored_bind {cap : Nat} {s : List α} {f : List α → Option β} {b : β} :
    (stored cap s >>= f) = some b ↔ s.length < cap ∧ f s = some b := by
  unfold stored
  split
  next h => exact (and_iff_right h).symm
  next h => exact iff_of_false (by simp) fun hand => h hand.1

/-- `if (c) strcat(buf, s);` -/
def catIf (store : List α → Option (List α)) (c : Bool) (buf s : List α) : Option (List α) :=
  if c then store (buf ++ s) else some buf

/-- What is appended, if it is. -/
def pieceIf (c : Bool) (s : List α) : List α := if c then s else []

theorem catIf_some (c : Bool) (buf s : List α) : catIf some c buf s = some (buf ++ pieceIf c s) := by
  unfold catIf pieceIf
  cases c with
  | false => simp
  | true => rfl

theorem catIf_bind {cap : Nat} {c : Bool} {buf s : List α} {f : List α → Option β} {b : β}
    (h : buf.length < cap) : (catIf (stored cap) c buf s >>= f) = some b ↔
      (buf ++ pieceIf c s).length < cap ∧ f (buf ++ pieceIf c s) = some b := by
  unfold catIf pieceIf
  cases c with
  | false => simp [h]
  | true => exact stored_bind

/-! ## Smaller and larger arrays -/

/-- Where the first has a result, the second has the same. -/
def Below (a b : Option α) : Prop := ∀ x, a = some x → b = some x

theorem Below.refl (a : Option α) : Below a a := fun _ h => h

theorem Below.bind {a a' : Option α} {f f' : α → Option β} (h : Below a a')
    (hf : ∀ x, Below (f x) (f' x)) : Below (a >>= f) (a' >>= f') := by
  intro y hy
  obtain ⟨x, hx, hfx⟩ := Option.bind_eq_some_iff.mp hy
  exact Option.bind_eq_some_iff.mpr ⟨x, h x hx, hf x y hfx⟩

theorem stored_below {cap : Nat} {s : List α} : Below (stored cap s) (some s) := by
  intro t ht
  rw [(stored_eq_some.mp ht).2]

theorem catIf_below {cap : Nat} {c : Bool} {buf s : List α} :
    Below (catIf (stored cap) c buf s) (catIf some c buf s) := by
  unfold catIf
  cases c with
  | false => exact .refl _
  | true => exact stored_below

/-! ## Loops -/

/-- A loop over `xs` that may overrun what it fills. `go` is tested before each turn. -/
def fill (go : β → Bool) (turn : α → β → Option β) : List α → β → Option β
  | [], b => some b
  | x :: xs, b => if go b then (turn x b).bind (fill go turn xs) else some b

variable {go : β → Bool} {turn : α → β → Option β}

/-- One entry more. -/
theorem fill_concat (xs : List α) (x : α) (b : β) : fill go turn (xs ++ [x]) b =
    (fill go turn xs b).bind fun b' => if go b' then turn x b' else some b' := by
  induction xs generalizing b with
  | nil =>
    show (if go b then (turn x b).bind some else some b) = if go b then turn x b else some b
    rw [Option.bind_fun_some]
  | cons y ys ih =>
    show (if go b then (turn y b).bind (fill go turn (ys ++ [x])) else some b) =
      (if go b then (turn y b).bind (fill go turn ys) else some b).bind _
    by_cases hgo : go b
    · rw [if_pos hgo, if_pos hgo, Option.bind_assoc]
      exact congrArg _ (funext ih)
    · rw [if_neg hgo, if_neg hgo, Option.bind_some, if_neg hgo]

theorem fill_below {turn' : α → β → Option β} (h : ∀ x b, Below (turn x b) (turn' x b)) :
    ∀ (xs : List α) (b : β), Below (fill go turn xs b) (fill go turn' xs b) := by
  intro xs
  induction xs with
  | nil => exact fun b => .refl _
  | cons x xs ih =>
    intro b
    unfold fill
    by_cases hgo : go b
    · rw [if_pos hgo, if_pos hgo]
      exact (h x b).bind ih
    · rw [if_neg hgo, if_neg hgo]
      exact .refl _

/-- What each turn keeps, the loop keeps. -/
theorem fill_keeps {I : β → Prop} (h : ∀ x b b', I b → turn x b = some b' → I b') {xs : List α}
    {b b' : β} (hI : I b) (hfill : fill go turn xs b = some b') : I b' := by
  induction xs generalizing b with
  | nil => exact Option.some.inj hfill ▸ hI
  | cons x xs ih =>
    unfold fill at hfill
    by_cases hgo : go b
    · rw [if_pos hgo] at hfill
      obtain ⟨b₁, hturn, hrest⟩ := Option.bind_eq_some_iff.mp hfill
      exact ih (h x b b₁ hI hturn) hrest
    · rw [if_neg hgo] at hfill
      exact Option.some.inj hfill ▸ hI

/-- **When a loop overruns nothing.** `I pre b` ties what is there to the entries that
have been dealt with, `Goes pre` says that the loop goes on after them and `Room pre`
that there is room for them. -/
theorem fill_iff (I : List α → β → Prop) (Goes Room : List α → Prop)
    (hgo : ∀ pre b, I pre b → (go b = true ↔ Goes pre))
    (hturn : ∀ pre x b, I pre b → Goes pre → ((∃ b', turn x b = some b') ↔ Room (pre ++ [x])))
    (hkeep : ∀ pre x b b', I pre b → turn x b = some b' → I (pre ++ [x]) b')
    (hstop : ∀ pre x, Goes (pre ++ [x]) → Goes pre) {xs : List α} (pre : List α) {b : β}
    (hI : I pre b) :
    (∃ b', fill go turn xs b = some b') ↔
      ∀ ys x, ys ++ [x] <+: xs → Goes (pre ++ ys) → Room (pre ++ ys ++ [x]) := by
  have hback : ∀ ys pre, Goes (pre ++ ys) → Goes pre := by
    intro ys
    induction ys with
    | nil => exact fun pre hpre => List.append_nil pre ▸ hpre
    | cons y ys ih =>
      intro pre hpre
      rw [List.append_cons pre y ys] at hpre
      exact hstop pre y (ih _ hpre)
  induction xs generalizing pre b with
  | nil =>
    refine iff_of_true ⟨b, rfl⟩ fun ys x hprefix => ?_
    rw [List.prefix_nil] at hprefix
    exact absurd hprefix (by simp)
  | cons x xs ih =>
    unfold fill
    by_cases hgoes : go b
    · have hG : Goes pre := (hgo pre b hI).mp hgoes
      rw [if_pos hgoes]
      refine ⟨fun hfill => ?_, fun hroom => ?_⟩
      · obtain ⟨b', hfill⟩ := hfill
        obtain ⟨b₁, hone, hrest⟩ := Option.bind_eq_some_iff.mp hfill
        intro ys y hprefix hys
        cases ys with
        | nil =>
          obtain ⟨rfl, -⟩ := List.cons_prefix_cons.mp hprefix
          rw [List.append_nil]
          exact (hturn pre y b hI hG).mp ⟨b₁, hone⟩
        | cons z zs =>
          obtain ⟨rfl, hzs⟩ := List.cons_prefix_cons.mp hprefix
          rw [List.append_cons pre z zs] at hys ⊢
          exact (ih _ (hkeep pre z b b₁ hI hone)).mp ⟨b', hrest⟩ zs y hzs hys
      · have hfirst : Room (pre ++ [x]) := by
          have hnil := hroom [] x (List.cons_prefix_cons.mpr ⟨rfl, List.nil_prefix⟩)
          rw [List.append_nil] at hnil
          exact hnil hG
        obtain ⟨b₁, hone⟩ := (hturn pre x b hI hG).mpr hfirst
        rw [hone, Option.bind_some]
        refine (ih _ (hkeep pre x b b₁ hI hone)).mpr fun ys y hprefix hys => ?_
        have hcons := hroom (x :: ys) y (List.cons_prefix_cons.mpr ⟨rfl, hprefix⟩)
        rw [List.append_cons pre x ys] at hcons
        exact hcons hys
    · rw [if_neg hgoes]
      refine iff_of_true ⟨b, rfl⟩ fun ys y _ hys => ?_
      exact absurd ((hgo pre b hI).mpr (hback ys pre hys)) hgoes

/-- A loop over `xs` whose turns always go well. -/
def foldWhile (go : β → Bool) (turn : α → β → β) : List α → β → β
  | [], b => b
  | x :: xs, b => if go b then foldWhile go turn xs (turn x b) else b

theorem foldWhile_stop {turn : α → β → β} {xs : List α} {b : β} (h : xs = [] ∨ go b = false) :
    foldWhile go turn xs b = b := by
  cases xs with
  | nil => rfl
  | cons x xs =>
    have hgo : go b = false := by simpa using h
    rw [foldWhile, hgo]
    rfl

theorem foldWhile_go {turn : α → β → β} {x : α} {xs : List α} {b : β} (h : go b = true) :
    foldWhile go turn (x :: xs) b = foldWhile go turn xs (turn x b) := by
  rw [foldWhile, if_pos h]

/-! ## Words with blanks in between -/

/-- How long a line is that begins with `n` characters and then has words of these
lengths, with blanks in between. -/
def joined (n : Nat) (widths : List Nat) : Nat := n + widths.sum + (widths.length - 1)

/-- The blank before the next word, unless that is the first. -/
def gap (first : Bool) : Nat := if first then 0 else 1

theorem joined_concat (n : Nat) (widths : List Nat) (w : Nat) :
    joined n (widths ++ [w]) = joined n widths + gap widths.isEmpty + w := by
  unfold joined gap
  cases widths with
  | nil => simp
  | cons v vs => simp; omega

/-- A loop that appends a word for some of the entries: `width` is how long it is. Once
there are `limit` characters the loop stops. -/
theorem fillWords_iff {γ : Type} {cap limit : Nat} {width : α → Option Nat}
    {turn : α → List γ × Bool → Option (List γ × Bool)}
    (hskip : ∀ x b, width x = none → turn x b = some b)
    (hword : ∀ x w b, width x = some w → b.1.length < cap → ∃ s,
      (∀ b', turn x b = some b' ↔ b.1.length + gap b.2 + w < cap ∧ (s, false) = b') ∧
      (b.1.length + gap b.2 + w < cap → s.length = b.1.length + gap b.2 + w))
    {xs : List α} {s : List γ} (h : s.length < cap) :
    (∃ b, fill (fun b => b.1.length < limit) turn xs (s, true) = some b) ↔
      ∀ before x, before ++ [x] <+: xs → joined s.length (before.filterMap width) < limit →
        joined s.length ((before ++ [x]).filterMap width) < cap := by
  have hone : ∀ (pre : List α) x, (pre ++ [x]).filterMap width =
      pre.filterMap width ++ (width x).toList := by
    intro pre x
    rw [List.filterMap_append]
    cases hx : width x with
    | none => simp [hx]
    | some w => simp [hx]
  refine fill_iff (fun pre b => b.1.length = joined s.length (pre.filterMap width) ∧
      b.1.length < cap ∧ b.2 = (pre.filterMap width).isEmpty)
    (fun pre => joined s.length (pre.filterMap width) < limit)
    (fun pre => joined s.length (pre.filterMap width) < cap) ?_ ?_ ?_ ?_ [] ⟨rfl, h, rfl⟩
  · intro pre b hb
    rw [← hb.1]
    exact decide_eq_true_iff
  · intro pre x b hb _
    obtain ⟨hlen, hcap, hfirst⟩ := hb
    rw [hone]
    cases hx : width x with
    | none =>
      rw [Option.toList_none, List.append_nil, ← hlen]
      exact iff_of_true ⟨b, hskip x b hx⟩ hcap
    | some w =>
      obtain ⟨s', hturn, -⟩ := hword x w b hx hcap
      rw [Option.toList_some, joined_concat, ← hlen, ← hfirst]
      simp only [hturn, exists_and_left, exists_eq', and_true]
  · intro pre x b b' hb hturn
    obtain ⟨hlen, hcap, hfirst⟩ := hb
    rw [hone]
    cases hx : width x with
    | none =>
      rw [hskip x b hx] at hturn
      rw [Option.toList_none, List.append_nil, ← Option.some.inj hturn]
      exact ⟨hlen, hcap, hfirst⟩
    | some w =>
      obtain ⟨s', hiff, hlen'⟩ := hword x w b hx hcap
      obtain ⟨hroom, rfl⟩ := (hiff b').mp hturn
      rw [Option.toList_some, joined_concat, ← hlen, ← hfirst]
      have hroom' : s'.length < cap := by
        rw [hlen' hroom]
        exact hroom
      exact ⟨hlen' hroom, hroom', by simp⟩
  · intro pre x hgoes
    rw [hone] at hgoes
    cases hx : width x with
    | none =>
      rw [hx, Option.toList_none, List.append_nil] at hgoes
      exact hgoes
    | some w =>
      rw [hx, Option.toList_some, joined_concat] at hgoes
      omega

end UchiNetworks.Lib
