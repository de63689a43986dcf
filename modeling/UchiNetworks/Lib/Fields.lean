import Mathlib.Data.List.Basic

/-!
# Fields of a line

A line is cut into fields at each separator `sep`, up to a field that begins
with the mark `mark`: that one takes all the rest, separators and all.
`splitFields` cuts, `[sep].intercalate` joins, and `WellSplit` is the shape of
what cutting gives. Cutting and joining are inverse to each other between lines
and well split lists of fields (`join_splitFields`, `splitFields_join`), so the
cut of a line is the only one of this shape (`wellSplit_unique`).
-/

namespace UchiNetworks.Lib

variable {α : Type} [DecidableEq α]

/-- The fields of a line; `start` says that a field begins here. -/
def splitFields (sep mark : α) : Bool → List α → List (List α)
  | _, [] => [[]]
  | start, a :: s =>
    if a = sep then [] :: splitFields sep mark true s
    else if a = mark ∧ start then [a :: s]
    else (splitFields sep mark false s).modifyHead (a :: ·)

/-- What stands before the first field that begins with the mark. -/
def beforeMark (sep mark : α) : Bool → List α → List α
  | _, [] => []
  | start, a :: s =>
    if a = mark ∧ start then [] else a :: beforeMark sep mark (a = sep) s

/-- Only the last field may contain a separator, and only after a mark; no other
field begins with the mark. -/
def WellSplit (sep mark : α) : List (List α) → Prop
  | [] => False
  | [f] => sep ∈ f → f.head? = some mark
  | f :: g :: fs => sep ∉ f ∧ f.head? ≠ some mark ∧ WellSplit sep mark (g :: fs)

instance (sep mark : α) : (fs : List (List α)) → Decidable (WellSplit sep mark fs)
  | [] => inferInstanceAs (Decidable False)
  | [f] => inferInstanceAs (Decidable (sep ∈ f → f.head? = some mark))
  | f :: g :: fs =>
    have : Decidable (WellSplit sep mark (g :: fs)) := instDecidableWellSplit sep mark (g :: fs)
    inferInstanceAs (Decidable (sep ∉ f ∧ f.head? ≠ some mark ∧ WellSplit sep mark (g :: fs)))

variable {sep mark : α}

theorem splitFields_ne_nil : ∀ (start : Bool) (s : List α), splitFields sep mark start s ≠ []
  | _, [] => by simp [splitFields]
  | start, a :: s => by
    unfold splitFields
    split
    next => simp
    next =>
      split
      next => simp
      next =>
        cases h : splitFields sep mark false s with
        | nil => exact absurd h (splitFields_ne_nil false s)
        | cons f fs => simp

variable (sep mark) in
theorem exists_splitFields (start : Bool) (s : List α) :
    ∃ f fs, splitFields sep mark start s = f :: fs :=
  List.exists_cons_of_ne_nil (splitFields_ne_nil start s)

/-- Joining undoes the cut. -/
theorem join_splitFields : ∀ (start : Bool) (s : List α),
    [sep].intercalate (splitFields sep mark start s) = s
  | _, [] => by simp [splitFields]
  | start, a :: s => by
    unfold splitFields
    split
    next ha =>
      have hrest := join_splitFields true s
      rw [List.intercalate_cons_of_ne_nil (splitFields_ne_nil true s), hrest, ha]
      rfl
    next =>
      split
      next => rw [List.intercalate_singleton]
      next =>
        have hrest := join_splitFields false s
        obtain ⟨f, fs, hfs⟩ := exists_splitFields sep mark false s
        rw [hfs] at hrest ⊢
        rw [List.modifyHead_cons, List.intercalate_cons_cons_left, hrest]

omit [DecidableEq α] in
/-- A field without separator or mark may stand before well split ones. -/
theorem WellSplit.cons {f : List α} {fs : List (List α)} (hsep : sep ∉ f)
    (hmark : f.head? ≠ some mark) (h : fs = [] ∨ WellSplit sep mark fs) :
    WellSplit sep mark (f :: fs) := by
  cases fs with
  | nil => exact fun hmem => absurd hmem hsep
  | cons g gs =>
    rcases h with h | h
    · cases h
    · exact ⟨hsep, hmark, h⟩

/-- The shape of a cut. When the cut begins inside a field (`start` is `false`),
the rest of that field may begin with the mark. -/
theorem splitFields_shape : ∀ s : List α,
    (∀ f fs, splitFields sep mark false s = f :: fs →
      sep ∉ f ∧ (fs = [] ∨ WellSplit sep mark fs)) ∧
    WellSplit sep mark (splitFields sep mark true s)
  | [] => by
    refine ⟨?_, fun hmem => absurd hmem List.not_mem_nil⟩
    intro f fs h
    obtain ⟨rfl, rfl⟩ := List.cons.inj h
    exact ⟨List.not_mem_nil, Or.inl rfl⟩
  | a :: s => by
    obtain ⟨hinside, hstart⟩ := splitFields_shape s
    obtain ⟨g, gs, hgs⟩ := exists_splitFields sep mark false s
    obtain ⟨hg, hrest⟩ := hinside g gs hgs
    by_cases ha : a = sep
    · have hcut : ∀ start, splitFields sep mark start (a :: s)
          = [] :: splitFields sep mark true s := by
        intro start
        rw [splitFields, if_pos ha]
      constructor
      · intro f fs h
        rw [hcut] at h
        obtain ⟨rfl, rfl⟩ := List.cons.inj h
        exact ⟨List.not_mem_nil, Or.inr hstart⟩
      · rw [hcut]
        exact WellSplit.cons List.not_mem_nil (by simp) (Or.inr hstart)
    · have hmem : sep ∉ a :: g := by
        rw [List.mem_cons]
        exact not_or.mpr ⟨fun h => ha h.symm, hg⟩
      constructor
      · intro f fs h
        rw [splitFields, if_neg ha, if_neg (by simp), hgs] at h
        obtain ⟨rfl, rfl⟩ := List.cons.inj h
        exact ⟨hmem, hrest⟩
      · by_cases hm : a = mark
        · rw [splitFields, if_neg ha, if_pos ⟨hm, rfl⟩]
          intro _
          rw [hm]
          rfl
        · rw [splitFields, if_neg ha, if_neg (fun h => hm h.1), hgs]
          exact WellSplit.cons hmem (by simpa using hm) hrest

theorem splitFields_wellSplit (s : List α) : WellSplit sep mark (splitFields sep mark true s) :=
  (splitFields_shape s).2

omit [DecidableEq α] in
/-- No field begins with a separator. -/
theorem WellSplit.head_ne (hne : sep ≠ mark) : ∀ {fs : List (List α)}, WellSplit sep mark fs →
    ∀ f ∈ fs, f.head? ≠ some sep
  | [g], h, f, hf, hhead => by
    obtain rfl := List.mem_singleton.mp hf
    have hmark := h (List.mem_of_mem_head? hhead)
    exact hne (Option.some.inj (hhead.symm.trans hmark))
  | g :: g' :: fs, h, f, hf, hhead => by
    obtain ⟨hsep, -, hrest⟩ := h
    cases hf with
    | head => exact hsep (List.mem_of_mem_head? hhead)
    | tail _ hf => exact hrest.head_ne hne f hf hhead

/-- Inside a field the cut goes on to the next separator. -/
theorem splitFields_inside : ∀ (f s : List α), sep ∉ f →
    splitFields sep mark false (f ++ sep :: s) = f :: splitFields sep mark true s
  | [], s, _ => by rw [List.nil_append, splitFields, if_pos rfl]
  | a :: f, s, hsep => by
    obtain ⟨ha, hf⟩ := not_or.mp (mt List.mem_cons.mpr hsep)
    rw [List.cons_append, splitFields, if_neg (Ne.symm ha), if_neg (by simp),
      splitFields_inside f s hf]
    rfl

theorem splitFields_last : ∀ f : List α, sep ∉ f → splitFields sep mark false f = [f]
  | [], _ => rfl
  | a :: f, hsep => by
    obtain ⟨ha, hf⟩ := not_or.mp (mt List.mem_cons.mpr hsep)
    rw [splitFields, if_neg (Ne.symm ha), if_neg (by simp), splitFields_last f hf]
    rfl

omit [DecidableEq α] in
/-- Joining adds nothing but separators. -/
theorem not_mem_join {a : α} (ha : a ≠ sep) : ∀ fs : List (List α), (∀ f ∈ fs, a ∉ f) →
    a ∉ [sep].intercalate fs
  | [], _ => List.not_mem_nil
  | [f], h => by
    rw [List.intercalate_singleton]
    exact h f List.mem_cons_self
  | f :: g :: fs, h => by
    have ih := not_mem_join ha (g :: fs) fun f' hf' => h f' (List.mem_cons_of_mem _ hf')
    rw [List.intercalate_cons_cons]
    intro hmem
    rcases List.mem_append.mp hmem with hmem | hmem
    · rcases List.mem_append.mp hmem with hmem | hmem
      · exact h f List.mem_cons_self hmem
      · exact ha (List.mem_singleton.mp hmem)
    · exact ih hmem

/-- The cut undoes joining. -/
theorem splitFields_join (hne : sep ≠ mark) : ∀ fs : List (List α), WellSplit sep mark fs →
    splitFields sep mark true ([sep].intercalate fs) = fs
  | [], h => h.elim
  | [f], h => by
    rw [List.intercalate_singleton]
    cases f with
    | nil => rfl
    | cons a f =>
      by_cases hm : a = mark
      · rw [splitFields, if_neg (by rw [hm]; exact Ne.symm hne), if_pos ⟨hm, rfl⟩]
      · have hsep : sep ∉ a :: f := fun hmem => hm (by simpa using h hmem)
        obtain ⟨ha, hf⟩ := not_or.mp (mt List.mem_cons.mpr hsep)
        rw [splitFields, if_neg (Ne.symm ha), if_neg (fun h => hm h.1), splitFields_last f hf]
        rfl
  | f :: g :: fs, h => by
    obtain ⟨hsep, hmark, hrest⟩ := h
    have ih := splitFields_join hne (g :: fs) hrest
    rw [List.intercalate_cons_cons, List.append_assoc, List.singleton_append]
    cases f with
    | nil => rw [List.nil_append, splitFields, if_pos rfl, ih]
    | cons a f =>
      obtain ⟨ha, hf⟩ := not_or.mp (mt List.mem_cons.mpr hsep)
      have hm : a ≠ mark := fun h => hmark (by rw [h]; rfl)
      rw [List.cons_append, splitFields, if_neg (Ne.symm ha), if_neg (fun h => hm h.1),
        splitFields_inside f _ hf, ih]
      rfl

/-- **The cut is the only list of its shape that joins to the line.** -/
theorem wellSplit_unique (hne : sep ≠ mark) {s : List α} {fs : List (List α)}
    (h : WellSplit sep mark fs) (hjoin : [sep].intercalate fs = s) :
    fs = splitFields sep mark true s := by
  rw [← hjoin, splitFields_join hne fs h]

/-- There is one field more than separators before the marked field. -/
theorem splitFields_length (hne : sep ≠ mark) : ∀ (start : Bool) (s : List α),
    (splitFields sep mark start s).length = (beforeMark sep mark start s).count sep + 1
  | _, [] => by simp [splitFields, beforeMark]
  | start, a :: s => by
    unfold splitFields beforeMark
    by_cases ha : a = sep
    · have hm : ¬(a = mark ∧ start = true) := fun h => hne (ha.symm.trans h.1)
      rw [if_pos ha, if_neg hm, List.length_cons, splitFields_length hne true s, ha,
        List.count_cons_self, decide_eq_true rfl]
    · rw [if_neg ha]
      by_cases hm : a = mark ∧ start = true
      · rw [if_pos hm, if_pos hm, List.count_nil]
        rfl
      · rw [if_neg hm, if_neg hm, List.count_cons_of_ne ha, decide_eq_false ha,
          List.length_modifyHead, splitFields_length hne false s]

/-- A line that stops earlier has no more before its marked field. -/
theorem beforeMark_take : ∀ (start : Bool) (s : List α) (n : Nat),
    beforeMark sep mark start (s.take n) <+: beforeMark sep mark start s
  | _, [], n => by simp
  | start, a :: s, 0 => List.nil_prefix
  | start, a :: s, n + 1 => by
    rw [List.take_succ_cons]
    unfold beforeMark
    by_cases hm : a = mark ∧ start = true
    · simp [hm]
    · rw [if_neg hm, if_neg hm]
      exact List.cons_prefix_cons.mpr ⟨rfl, beforeMark_take _ s n⟩

end UchiNetworks.Lib
