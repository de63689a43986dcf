import Mathlib.Data.List.Basic

/-!
# Records in a stream of bytes

A stream arrives in pieces, and where it is cut says nothing. `readFull` is the
loop around a `read` that may give less than it was asked for; it depends on the
pieces only through what they add up to (`readFull_eq`).

A `Framing` puts a header in front of each record, from which the reader learns
how much is to come. `read_frame` is the round trip with the rest of the stream
left as it is, `read_short` says that a record that is not all there is not read
at all, and `records_prefix` puts both together for a stream that may end
anywhere.
-/

namespace UchiNetworks.Lib

variable {β : Type}

/-- Read `n` symbols from a stream that comes in pieces, and give what is left of
it; `none` when it ends too early. -/
def readFull (n : Nat) : List (List β) → Option (List β × List (List β))
  | [] => if n = 0 then some ([], []) else none
  | piece :: pieces =>
    if n < piece.length then some (piece.take n, piece.drop n :: pieces)
    else (readFull (n - piece.length) pieces).map fun r => (piece ++ r.1, r.2)

/-- The pieces do not matter. -/
theorem readFull_eq (n : Nat) (pieces : List (List β)) :
    (pieces.flatten.length < n ∧ readFull n pieces = none) ∨
    (n ≤ pieces.flatten.length ∧ ∃ rest, readFull n pieces = some (pieces.flatten.take n, rest) ∧
      rest.flatten = pieces.flatten.drop n) := by
  induction pieces generalizing n with
  | nil =>
    by_cases hn : n = 0
    · right
      rw [hn]
      exact ⟨Nat.le_refl _, [], rfl, rfl⟩
    · left
      exact ⟨Nat.pos_of_ne_zero hn, if_neg hn⟩
  | cons piece pieces ih =>
    rw [List.flatten_cons, List.length_append]
    by_cases hlt : n < piece.length
    · right
      refine ⟨by omega, piece.drop n :: pieces, ?_, ?_⟩
      · rw [readFull, if_pos hlt, List.take_append_of_le_length (Nat.le_of_lt hlt)]
      · rw [List.flatten_cons, List.drop_append_of_le_length (Nat.le_of_lt hlt)]
    · rcases ih (n - piece.length) with ⟨hshort, hnone⟩ | ⟨hle, rest, hsome, hrest⟩
      · left
        refine ⟨by omega, ?_⟩
        rw [readFull, if_neg hlt, hnone]
        rfl
      · right
        have htake : piece.take n = piece := List.take_of_length_le (by omega)
        have hdrop : piece.drop n = [] := List.drop_of_length_le (by omega)
        refine ⟨by omega, rest, ?_, ?_⟩
        · rw [readFull, if_neg hlt, hsome, List.take_append, htake]
          rfl
        · rw [hrest, List.drop_append, hdrop, List.nil_append]

theorem readFull_some {n : Nat} {pieces : List (List β)} {xs ys : List β}
    (h : pieces.flatten = xs ++ ys) (hn : xs.length = n) :
    ∃ rest, readFull n pieces = some (xs, rest) ∧ rest.flatten = ys := by
  rcases readFull_eq n pieces with ⟨hshort, -⟩ | ⟨-, rest, hsome, hrest⟩
  · rw [h, List.length_append] at hshort
    omega
  · rw [h, List.take_left' hn] at hsome
    rw [h, List.drop_left' hn] at hrest
    exact ⟨rest, hsome, hrest⟩

theorem readFull_none {n : Nat} {pieces : List (List β)} (h : pieces.flatten.length < n) :
    readFull n pieces = none := by
  rcases readFull_eq n pieces with ⟨-, hnone⟩ | ⟨hle, -⟩
  · exact hnone
  · omega

/-- Two streams of the same bytes are read alike. -/
theorem readFull_pieces (n : Nat) {pieces pieces' : List (List β)}
    (h : pieces.flatten = pieces'.flatten) :
    (readFull n pieces = none ∧ readFull n pieces' = none) ∨
    ∃ xs rest rest', readFull n pieces = some (xs, rest) ∧ readFull n pieces' = some (xs, rest') ∧
      rest.flatten = rest'.flatten := by
  rcases readFull_eq n pieces with ⟨hshort, hnone⟩ | ⟨hle, rest, hsome, hrest⟩
  · left
    exact ⟨hnone, readFull_none (h ▸ hshort)⟩
  · right
    obtain ⟨rest', hsome', hrest'⟩ := readFull_some
      (h.symm.trans (List.take_append_drop n _).symm) (List.length_take_of_le hle)
    exact ⟨_, rest, rest', hsome, hsome', hrest.trans hrest'.symm⟩

/-- A header of a fixed length that tells how long the record behind it is. -/
structure Framing (β : Type) where
  headLen : Nat
  header : Nat → List β
  size : List β → Nat
  header_length : ∀ n, (header n).length = headLen
  pos : 0 < headLen

namespace Framing

variable (F : Framing β)

/-- The record as it goes into the stream. -/
def frame (record : List β) : List β := F.header record.length ++ record

/-- The stream of all the records. -/
def stream (records : List (List β)) : List β := (records.map F.frame).flatten

/-- Can the record's length be told? -/
def Told (record : List β) : Prop := F.size (F.header record.length) = record.length

/-- Read one record. -/
def read (pieces : List (List β)) : Option (List β × List (List β)) :=
  (readFull F.headLen pieces).bind fun r => readFull (F.size r.1) r.2

/-- Read records until the stream ends, but no more than `fuel`. -/
def records : Nat → List (List β) → List (List β)
  | 0, _ => []
  | fuel + 1, pieces =>
    match F.read pieces with
    | none => []
    | some (record, rest) => record :: records fuel rest

variable {F}

theorem frame_length (record : List β) : (F.frame record).length = F.headLen + record.length := by
  rw [frame, List.length_append, F.header_length]

/-- **A record comes back**, whatever follows it. -/
theorem read_frame {record tail : List β} {pieces : List (List β)} (htold : F.Told record)
    (h : pieces.flatten = F.frame record ++ tail) :
    ∃ rest, F.read pieces = some (record, rest) ∧ rest.flatten = tail := by
  rw [frame, List.append_assoc] at h
  obtain ⟨body, hhead, hbody⟩ := readFull_some h (F.header_length _)
  obtain ⟨rest, hrecord, hrest⟩ := readFull_some hbody rfl
  refine ⟨rest, ?_, hrest⟩
  rw [read, hhead, Option.bind_some, htold]
  exact hrecord

/-- **Half a record is none.** -/
theorem read_short {record : List β} {pieces : List (List β)} (htold : F.Told record)
    (hpre : pieces.flatten <+: F.frame record) (hne : pieces.flatten ≠ F.frame record) :
    F.read pieces = none := by
  have hlen : pieces.flatten.length < F.headLen + record.length := by
    rw [← F.frame_length record]
    refine Nat.lt_of_le_of_ne hpre.length_le ?_
    exact fun heq => hne (hpre.eq_of_length heq)
  by_cases hhead : pieces.flatten.length < F.headLen
  · rw [read, readFull_none hhead]
    rfl
  · -- the header is there, the record is not
    obtain ⟨body, hbody⟩ := List.prefix_of_prefix_length_le (List.prefix_append _ _) hpre
      (by rw [F.header_length]; omega)
    have hshort := congrArg List.length hbody
    rw [List.length_append, F.header_length] at hshort
    obtain ⟨rest, hsome, hrest⟩ := readFull_some hbody.symm (F.header_length _)
    rw [read, hsome, Option.bind_some, htold]
    exact readFull_none (by rw [hrest]; omega)

/-- What comes before other records: half the record, or the record and a start of the
others. -/
theorem read_prefix {record tail : List β} {pieces : List (List β)} (htold : F.Told record)
    (hpre : pieces.flatten <+: F.frame record ++ tail) :
    (¬ F.frame record <+: pieces.flatten ∧ F.read pieces = none) ∨
    ∃ rest, pieces.flatten = F.frame record ++ rest.flatten ∧ rest.flatten <+: tail ∧
      F.read pieces = some (record, rest) := by
  by_cases hall : F.frame record <+: pieces.flatten
  · right
    obtain ⟨more, hmore⟩ := hall
    obtain ⟨rest, hread, hrest⟩ := read_frame htold hmore.symm
    rw [← hmore] at hpre
    refine ⟨rest, by rw [hrest, hmore], ?_, hread⟩
    rw [hrest]
    exact (List.prefix_append_right_inj _).mp hpre
  · left
    have hshort : pieces.flatten <+: F.frame record := by
      rcases List.prefix_or_prefix_of_prefix hpre (List.prefix_append _ _) with h | h
      · exact h
      · exact absurd h hall
    have hne : pieces.flatten ≠ F.frame record := fun heq => hall (heq ▸ List.prefix_rfl)
    exact ⟨hall, read_short htold hshort hne⟩

/-- A stream that may end anywhere gives the records that are all there, in order;
when all has come, it gives all of them. -/
theorem records_prefix {rs : List (List β)} {pieces : List (List β)} (htold : ∀ r ∈ rs, F.Told r)
    (hpre : pieces.flatten <+: F.stream rs) (fuel : Nat) :
    F.records fuel pieces <+: rs ∧
      (pieces.flatten = F.stream rs → rs.length ≤ fuel → F.records fuel pieces = rs) := by
  induction rs generalizing fuel pieces with
  | nil =>
    have hempty : pieces.flatten = [] := List.prefix_nil.mp hpre
    have hnone : F.read pieces = none := by
      rw [read, readFull_none (by rw [hempty]; exact F.pos)]
      rfl
    have hrecords : F.records fuel pieces = [] := by
      cases fuel with
      | zero => rfl
      | succ fuel => rw [records, hnone]
    rw [hrecords]
    exact ⟨List.prefix_rfl, fun _ _ => rfl⟩
  | cons r rs ih =>
    have hr := htold r List.mem_cons_self
    have hstream : F.stream (r :: rs) = F.frame r ++ F.stream rs := rfl
    cases fuel with
    | zero => exact ⟨List.nil_prefix, fun _ hfuel => absurd hfuel (Nat.not_succ_le_zero _)⟩
    | succ fuel =>
      rw [hstream] at hpre ⊢
      rcases read_prefix hr hpre with ⟨hall, hnone⟩ | ⟨rest, heq, hrest, hread⟩
      · rw [records, hnone]
        refine ⟨List.nil_prefix, ?_⟩
        intro heq _
        exact absurd (by rw [heq]; exact List.prefix_append _ _) hall
      · obtain ⟨hsome, hdone⟩ := ih (fun q hq => htold q (List.mem_cons_of_mem _ hq)) hrest fuel
        rw [records, hread]
        refine ⟨List.cons_prefix_cons.mpr ⟨rfl, hsome⟩, ?_⟩
        intro hwhole hfuel
        rw [heq] at hwhole
        have hrs := hdone (List.append_cancel_left hwhole) (Nat.le_of_succ_le_succ hfuel)
        simp only [hrs]

end Framing

end UchiNetworks.Lib
