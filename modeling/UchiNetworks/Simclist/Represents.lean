import UchiNetworks.Chirc.SimList
import UchiNetworks.Simclist.Stored

/-!
# simclist: the list that is in memory

`Represents` is the invariant: the entries hold the items of a list without pointers, `mid`
is at their middle, the spare entries are at most five, and an iteration session is at
the entry it is to return next. Every function of simclist keeps it, and does to the
list without pointers what its name says.
-/

namespace UchiNetworks.Simclist

open UchiNetworks.Lib
open UchiNetworks.Lib.Sentinels
open UchiNetworks.Chirc (SimList)

variable {α : Type} {as bs : List (Option α)}

/-! ## `list_findpos` -/

theorem spot_zero (head tail : Nat) (ps : List Nat) : spot head tail ps 0 = some head := rfl

theorem spot_end (head tail : Nat) (ps : List Nat) :
    spot head tail ps (ps.length + 1) = some tail := by
  have h := spot_behind head tail ps []
  rwa [List.append_nil] at h

/-- What the quarters of `list_findpos` say about the place: the first two are left of the
middle entry, the third is not. -/
theorem quarter_second {n i : Nat} (hn : n < 2 ^ 24) (hi : i ≤ n + 1)
    (h : ListT.quarter n ((i : Int) - 1) = .second) : 2 * i < n := by
  have hcast : ((i : Int) - 1 + 1).toNat = i := by omega
  simp only [ListT.quarter, hcast] at h
  split at h
  · cases h
  next hpos =>
    split at h
    · cases h
    · split at h
      next hx => exact (Single.lt_half_iff (by omega) (by omega) (Nat.pos_of_ne_zero hpos)).mp hx
      · split at h
        · cases h
        · cases h

theorem quarter_third {n i : Nat} (hn : n < 2 ^ 24)
    (h : ListT.quarter n ((i : Int) - 1) = .third) : 0 < n ∧ n ≤ 2 * i := by
  have hcast : ((i : Int) - 1 + 1).toNat = i := by omega
  simp only [ListT.quarter, hcast] at h
  split at h
  · cases h
  next hpos =>
    split at h
    · cases h
    · split at h
      · cases h
      next hx =>
        refine ⟨Nat.pos_of_ne_zero hpos, Nat.not_lt.mp fun hlt => hx ?_⟩
        exact (Single.lt_half_iff (by omega) (by omega) (Nat.pos_of_ne_zero hpos)).mpr hlt

/-- **The place that `list_findpos` finds** is the right one, whichever of its four walks
it takes. -/
theorem listFindpos_eq {l : ListT α} {ps : List Nat}
    (hb : Between l.heap l.headSentinel l.tailSentinel ps) (hn : l.numels = ps.length)
    (hmid : l.mid = ps[(ps.length - 1) / 2]?) (hsmall : ps.length < 2 ^ 24) {i : Nat}
    (hi : i ≤ ps.length + 1) :
    l.listFindpos ((i : Int) - 1) = .ok (spot l.headSentinel l.tailSentinel ps i) := by
  have hmiddle : 0 < ps.length →
      l.mid = spot l.headSentinel l.tailSentinel ps ((ps.length - 1) / 2 + 1) := by
    intro hpos
    rw [hmid, spot_succ (by omega)]
  rw [ListT.listFindpos, hn, if_neg (by omega)]
  cases hq : ListT.quarter ps.length ((i : Int) - 1) with
  | first =>
    have hwalk := hb.walk_next Fault.freed Fault.null (i := 0) (k := i) (by omega)
    rw [spot_zero, Nat.zero_add] at hwalk
    dsimp only
    rw [show ((i : Int) - 1 + 1).toNat = i by omega]
    exact hwalk
  | second =>
    have hlt := quarter_second hsmall hi hq
    dsimp only
    rw [hmiddle (by omega)]
    have hwalk := hb.walk_prev Fault.freed Fault.null (i := i)
      (k := (ps.length - 1) / 2 + 1 - i) (by omega)
    rw [show i + ((ps.length - 1) / 2 + 1 - i) = (ps.length - 1) / 2 + 1 by omega] at hwalk
    rw [show ((((ps.length - 1) / 2 : Nat) : Int) - ((i : Int) - 1)).toNat
      = (ps.length - 1) / 2 + 1 - i by omega]
    exact hwalk
  | third =>
    obtain ⟨hpos, hle⟩ := quarter_third hsmall hq
    dsimp only
    rw [hmiddle hpos]
    have hwalk := hb.walk_next Fault.freed Fault.null (i := (ps.length - 1) / 2 + 1)
      (k := i - ((ps.length - 1) / 2 + 1)) (by omega)
    rw [show (ps.length - 1) / 2 + 1 + (i - ((ps.length - 1) / 2 + 1)) = i by omega] at hwalk
    rw [show ((i : Int) - 1 - (((ps.length - 1) / 2 : Nat) : Int)).toNat
      = i - ((ps.length - 1) / 2 + 1) by omega]
    exact hwalk
  | fourth =>
    have hwalk := hb.walk_prev Fault.freed Fault.null (i := i) (k := ps.length + 1 - i) (by omega)
    rw [show i + (ps.length + 1 - i) = ps.length + 1 by omega, spot_end] at hwalk
    dsimp only
    rw [show ((ps.length : Int) - ((i : Int) - 1)).toNat = ps.length + 1 - i by omega]
    exact hwalk

/-! ## The invariant -/

/-- **The list in memory is the list `s`.** -/
structure Represents (l : ListT α) (s : SimList α) (ps : List Nat) : Prop where
  stored : Stored l.heap l.headSentinel l.tailSentinel ps l.spareels (s.items.map some)
  numels : l.numels = ps.length
  mid : l.mid = ps[(ps.length - 1) / 2]?
  few : l.spareels.length ≤ maxSpareElems
  small : ps.length < 2 ^ 24
  active : l.iterActive = s.iter.isSome
  session : ∀ pos, s.iter = some pos → pos ≤ ps.length + 1 ∧ l.iterPos = pos ∧
    l.iterCurentry = spot l.headSentinel l.tailSentinel ps (pos + 1)

theorem Represents.findpos {l : ListT α} {s : SimList α} {ps : List Nat} (h : Represents l s ps)
    {i : Nat} (hi : i ≤ ps.length + 1) :
    l.listFindpos ((i : Int) - 1) = .ok (spot l.headSentinel l.tailSentinel ps i) :=
  listFindpos_eq h.stored.links h.numels h.mid h.small hi

theorem Represents.length_eq {l : ListT α} {s : SimList α} {ps : List Nat}
    (h : Represents l s ps) : ps.length = s.items.length := by
  rw [h.stored.length_eq, List.length_map]

theorem Represents.idle {l : ListT α} {s : SimList α} {ps : List Nat} (h : Represents l s ps)
    (hidle : s.iter = none) : l.iterActive = false := by
  rw [h.active, hidle]
  rfl

/-- An idle list has no session. -/
theorem no_session {s : SimList α} (hidle : s.iter = none) {P : Prop} {pos : Nat}
    (hpos : s.iter = some pos) : P :=
  absurd (hidle.symm.trans hpos) (Option.some_ne_none pos).symm

theorem represents_init : Represents (ListT.listInit : ListT α) SimList.init [] := by
  refine ⟨⟨⟨Nat.zero_ne_one, ?_, List.nodup_nil, leads_nil.mpr rfl, leads_nil.mpr rfl, rfl, rfl⟩,
    rfl, rfl, rfl, ?_, ?_⟩, rfl, rfl, Nat.zero_le _, by norm_num, rfl, ?_⟩
  · intro p hp
    cases hp
  · show [0, 1].Nodup
    decide
  · intro p
    show _ ↔ p ∈ [0, 1]
    obtain rfl | rfl | ⟨q, rfl⟩ : p = 0 ∨ p = 1 ∨ ∃ q, p = q + 2 := by
      obtain _ | _ | q := p
      · exact Or.inl rfl
      · exact Or.inr (Or.inl rfl)
      · exact Or.inr (Or.inr ⟨q, rfl⟩)
    · exact ⟨fun _ => List.mem_cons_self, fun _ => rfl⟩
    · exact ⟨fun _ => List.mem_cons_of_mem _ List.mem_cons_self, fun _ => rfl⟩
    · refine ⟨fun h => ?_, fun h => ?_⟩
      · cases h
      · simp at h
  · intro pos hpos
    cases hpos

/-! ## The middle entry -/

/-- An entry at an inner place, found through a pointer to it. -/
theorem entryAt_eq {l : ListT α} {ps : List Nat}
    (hb : Between l.heap l.headSentinel l.tailSentinel ps) {j : Nat} (hj : j < ps.length) :
    ∃ node, l.entryAt ps[j]? = .ok node ∧ (j + 1 < ps.length → node.next = ps[j + 1]?) ∧
      (∀ k, j = k + 1 → node.prev = ps[k]?) := by
  obtain ⟨p, node, hp, hnode, hnext⟩ := hb.step_next (show j + 1 ≤ ps.length from hj)
  obtain ⟨p', node', hp', hnode', hprev⟩ := hb.step_prev (Nat.le_of_lt hj)
  obtain rfl := Option.some.inj (hp.symm.trans hp')
  obtain rfl := Option.some.inj (hnode.symm.trans hnode')
  refine ⟨node, ?_, fun hlt => ?_, fun k hk => ?_⟩
  · rw [← @spot_succ l.headSentinel l.tailSentinel ps j hj, hp, ListT.entryAt,
      getOr_some, ok_bind, hnode, getOr_some]
  · rw [hnext, spot_succ hlt]
  · rw [hprev, hk, spot_succ (by omega)]

/-- Where an entry of the list is once another one has come in. -/
theorem getElem?_around {pl pr : List Nat} {p j : Nat} :
    (pl ++ pr)[j]? = if j < pl.length then (pl ++ p :: pr)[j]? else (pl ++ p :: pr)[j + 1]? := by
  split
  next hlt => rw [List.getElem?_append_left hlt, List.getElem?_append_left hlt]
  next hge =>
    rw [List.getElem?_append_right (by omega), List.getElem?_append_right (by omega),
      show j + 1 - pl.length = j - pl.length + 1 by omega, List.getElem?_cons_succ]

theorem midAfterInsert_eq {l : ListT α} {pl pr : List Nat} {lent : Nat}
    (hb : Between l.heap l.headSentinel l.tailSentinel (pl ++ lent :: pr))
    (hn : l.numels = (pl ++ lent :: pr).length)
    (hmid : l.mid = (pl ++ pr)[((pl ++ pr).length - 1) / 2]?) :
    l.midAfterInsert lent pl.length
      = .ok (pl ++ lent :: pr)[((pl ++ lent :: pr).length - 1) / 2]? := by
  have hlen : (pl ++ lent :: pr).length = pl.length + pr.length + 1 := by
    rw [List.length_append, List.length_cons, Nat.add_assoc]
  rw [List.length_append, getElem?_around (p := lent)] at hmid
  rw [hlen] at hn
  unfold ListT.midAfterInsert
  rw [hn, hlen]
  split
  next hone =>
    have hpr := List.eq_nil_of_length_eq_zero (show pr.length = 0 by omega)
    obtain rfl := List.eq_nil_of_length_eq_zero (show pl.length = 0 by omega)
    rw [hpr]
    rfl
  next hmore =>
    split
    next hodd =>
      split
      next hright =>
        -- the entry came in behind the middle, which moves on
        rw [if_pos (by omega)] at hmid
        obtain ⟨node, hnode, hnext, -⟩ :=
          entryAt_eq hb (show (pl.length + pr.length - 1) / 2 < _ by rw [hlen]; omega)
        rw [hmid, hnode, ok_bind, hnext (by rw [hlen]; omega)]
        rw [show (pl.length + pr.length - 1) / 2 + 1 = (pl.length + pr.length + 1 - 1) / 2 by omega]
      next hleft =>
        rw [if_neg (by omega)] at hmid
        rw [hmid, show (pl.length + pr.length - 1) / 2 + 1
          = (pl.length + pr.length + 1 - 1) / 2 by omega]
    next heven =>
      split
      next hleft =>
        -- it came in before the middle, which moves back
        rw [if_neg (by omega)] at hmid
        obtain ⟨node, hnode, -, hprev⟩ :=
          entryAt_eq hb (show (pl.length + pr.length - 1) / 2 + 1 < _ by rw [hlen]; omega)
        rw [hmid, hnode, ok_bind, hprev _ rfl]
        rw [show (pl.length + pr.length - 1) / 2 = (pl.length + pr.length + 1 - 1) / 2 by omega]
      next hright =>
        rw [if_pos (by omega)] at hmid
        rw [hmid, show (pl.length + pr.length - 1) / 2
          = (pl.length + pr.length + 1 - 1) / 2 by omega]

theorem midBeforeDrop_eq {l : ListT α} {pl pr : List Nat} {p : Nat}
    (hb : Between l.heap l.headSentinel l.tailSentinel (pl ++ p :: pr))
    (hn : l.numels = (pl ++ p :: pr).length)
    (hmid : l.mid = (pl ++ p :: pr)[((pl ++ p :: pr).length - 1) / 2]?) :
    l.midBeforeDrop pl.length = .ok (pl ++ pr)[((pl ++ pr).length - 1) / 2]? := by
  have hlen : (pl ++ p :: pr).length = pl.length + pr.length + 1 := by
    rw [List.length_append, List.length_cons, Nat.add_assoc]
  rw [hlen] at hn hmid
  unfold ListT.midBeforeDrop
  rw [hn, List.length_append, getElem?_around (p := p)]
  split
  next hodd =>
    split
    next hone =>
      have hpr := List.eq_nil_of_length_eq_zero (show pr.length = 0 by omega)
      obtain rfl := List.eq_nil_of_length_eq_zero (show pl.length = 0 by omega)
      rw [hpr]
      rfl
    next hmore =>
      split
      next hright =>
        obtain ⟨node, hnode, -, hprev⟩ :=
          entryAt_eq hb (show (pl.length + pr.length + 1 - 1) / 2 < _ by rw [hlen]; omega)
        rw [hmid, hnode, ok_bind, if_pos (by omega),
          hprev ((pl.length + pr.length - 1) / 2) (by omega)]
      next hleft =>
        rw [hmid, if_neg (by omega), show (pl.length + pr.length - 1) / 2 + 1
          = (pl.length + pr.length + 1 - 1) / 2 by omega]
  next heven =>
    split
    next hleft =>
      obtain ⟨node, hnode, hnext, -⟩ :=
        entryAt_eq hb (show (pl.length + pr.length + 1 - 1) / 2 < _ by rw [hlen]; omega)
      rw [hmid, hnode, ok_bind, if_neg (by omega), hnext (by rw [hlen]; omega)]
      rw [show (pl.length + pr.length - 1) / 2 = (pl.length + pr.length + 1 - 1) / 2 by omega]
    next hright =>
      rw [hmid, if_pos (by omega), show (pl.length + pr.length - 1) / 2
        = (pl.length + pr.length + 1 - 1) / 2 by omega]

/-! ## Insertion -/

theorem asInt_eq {pos : UInt32} (h : pos.toNat < 2 ^ 24) : ListT.asInt pos = (pos.toNat : Int) := by
  rw [ListT.asInt, if_pos (by omega)]

/-- `pos-1` is the place before the first one for `pos` 0. -/
theorem asInt_pred {pos : UInt32} (h : pos.toNat < 2 ^ 24) :
    ListT.asInt (pos - 1) = (pos.toNat : Int) - 1 := by
  have hsub : (pos - 1).toNat = (2 ^ 32 - 1 + pos.toNat) % 2 ^ 32 := by
    rw [UInt32.toNat_sub]
    rfl
  unfold ListT.asInt
  rw [hsub]
  split
  · omega
  · omega

theorem asInt_succ {pos : UInt32} (h : pos.toNat < 2 ^ 24) :
    ListT.asInt pos = ((pos.toNat + 1 : Nat) : Int) - 1 := by
  rw [asInt_eq h]
  omega

/-- The entry for a new element is one that the list does not use. -/
theorem newEntry_eq {l : ListT α} {ps : List Nat} {items : List (Option α)}
    (h : Stored l.heap l.headSentinel l.tailSentinel ps l.spareels items) :
    ∃ heap spareels lent, l.newEntry = ({ l with heap := heap, spareels := spareels }, lent) ∧
      spareels.length ≤ l.spareels.length ∧
      Stored heap l.headSentinel l.tailSentinel ps (lent :: spareels) items := by
  unfold ListT.newEntry
  split
  next lent rest hspare =>
    rw [hspare] at h
    refine ⟨l.heap, rest, lent, rfl, ?_, h⟩
    rw [hspare]
    exact Nat.le_succ _
  next hspare =>
    have halloc := h.alloc { val := none, prev := none, next := none }
    rw [hspare] at halloc
    exact ⟨_, [], _, by rw [hspare], Nat.zero_le _, halloc⟩

theorem insertIdx_middle (as bs : List α) (a : α) :
    (as ++ bs).insertIdx as.length a = as ++ a :: bs := by
  induction as with
  | nil => rfl
  | cons b as ih => rw [List.cons_append, List.length_cons, List.insertIdx_succ_cons, ih,
      List.cons_append]

/-- `list_insert_at` where it does insert. -/
theorem Represents.insertAt {l : ListT α} {s : SimList α} {ps : List Nat} (h : Represents l s ps)
    (hidle : s.iter = none) {pos : UInt32} (hpos : pos.toNat ≤ s.items.length)
    (hroom : s.items.length + 1 < 2 ^ 24) (data : α) :
    ∃ l' ps', l.listInsertAt data pos = .ok (l', 1) ∧
      Represents l' { s with items := s.items.insertIdx pos.toNat data } ps' := by
  have hlen := h.length_eq
  have hactive := h.idle hidle
  -- where it comes in
  obtain ⟨pl, pr, rfl, hpl⟩ : ∃ pl pr, ps = pl ++ pr ∧ pl.length = pos.toNat :=
    ⟨_, _, (List.take_append_drop pos.toNat ps).symm, by rw [List.length_take]; omega⟩
  obtain ⟨as, bs, hitems, has⟩ : ∃ as bs, s.items = as ++ bs ∧ as.length = pos.toNat :=
    ⟨_, _, (List.take_append_drop pos.toNat s.items).symm, by rw [List.length_take]; omega⟩
  obtain ⟨heap₁, spareels, lent, hnew, hspare, hstored₁⟩ := newEntry_eq h.stored
  obtain ⟨heap₂, hwrite, hvalue, hstored₂⟩ := hstored₁.write List.mem_cons_self (some data)
  rw [hitems, List.map_append] at hstored₂
  obtain ⟨heap₃, hlink, hstored₃⟩ :=
    hstored₂.link (by rw [hpl, List.length_map, has]) hvalue
  have hfind : ListT.listFindpos { l with heap := heap₂, spareels := spareels }
      ((pos.toNat : Int) - 1) = .ok (some (pl.getLast?.getD l.headSentinel)) := by
    rw [← spot_before _ l.tailSentinel pl pr, hpl]
    exact @listFindpos_eq _ { l with heap := heap₂, spareels := spareels } _ hstored₂.links
      h.numels h.mid h.small _ (by rw [List.length_append]; omega)
  obtain ⟨node, hnode, hnext⟩ := hstored₂.links.ahead
  have hcount : (pl ++ lent :: pr).length = (pl ++ pr).length + 1 := by
    rw [List.length_append, List.length_cons, List.length_append, Nat.add_assoc]
  have hmid := @midAfterInsert_eq _
    { l with heap := heap₃, spareels := spareels, numels := l.numels + 1 } pl pr lent
    hstored₃.links (by rw [h.numels, hcount]) h.mid
  rw [hpl] at hmid
  refine ⟨{ l with heap := heap₃, spareels := spareels, numels := l.numels + 1, mid := _ },
    pl ++ lent :: pr, ?_, ⟨?_, ?_, rfl, hspare.trans h.few, ?_, h.active,
      fun _ hpos => no_session hidle hpos⟩⟩
  · rw [ListT.listInsertAt, hnew, if_neg (by rw [hactive, h.numels]; simp; omega)]
    simp only [hwrite, getOr_some, ok_bind, asInt_pred (show pos.toNat < 2 ^ 24 by omega), hfind,
      hnode, hnext, hlink]
    rw [hmid]
    rfl
  · show Stored heap₃ _ _ _ _ ((s.items.insertIdx pos.toNat data).map some)
    rw [hitems, ← has, insertIdx_middle, List.map_append]
    exact hstored₃
  · show l.numels + 1 = _
    rw [h.numels, hcount]
  · rw [hcount, hlen]
    exact hroom

/-! ## Removal -/

/-- `list_drop_elem` -/
theorem Stored.drop {l : ListT α} {pl pr : List Nat} {p : Nat} {a : Option α}
    (h : Stored l.heap l.headSentinel l.tailSentinel (pl ++ p :: pr) l.spareels (as ++ a :: bs))
    (hlen : pl.length = as.length) (hn : l.numels = (pl ++ p :: pr).length)
    (hmid : l.mid = (pl ++ p :: pr)[((pl ++ p :: pr).length - 1) / 2]?)
    (hfew : l.spareels.length ≤ maxSpareElems) :
    ∃ heap spareels, l.listDropElem (some p) pl.length = .ok { l with
        heap := heap, spareels := spareels, mid := (pl ++ pr)[((pl ++ pr).length - 1) / 2]? } ∧
      spareels.length ≤ maxSpareElems ∧
      Stored heap l.headSentinel l.tailSentinel (pl ++ pr) spareels (as ++ bs) := by
  obtain ⟨heap₁, hbypass, hstored₁⟩ := h.unlink hlen
  rw [ListT.listDropElem, midBeforeDrop_eq h.links hn hmid, ok_bind, hbypass, getOr_some, ok_bind,
    ListT.spareEntry]
  dsimp only
  split
  next hroom => exact ⟨heap₁, p :: l.spareels, rfl, hroom, hstored₁⟩
  next hfull =>
    obtain ⟨heap₂, hfree, hstored₂⟩ := hstored₁.free
    rw [hfree, getOr_some, ok_bind]
    exact ⟨heap₂, l.spareels, rfl, hfew, hstored₂⟩

theorem exists_cut {β : Type} (xs : List β) {n : Nat} (h : n < xs.length) :
    ∃ l x r, xs = l ++ x :: r ∧ l.length = n :=
  ⟨xs.take n, xs[n], xs.drop (n + 1), by rw [← List.drop_eq_getElem_cons h, List.take_append_drop],
    by rw [List.length_take]; omega⟩

theorem eraseIdx_middle {β : Type} (as bs : List β) (a : β) :
    (as ++ a :: bs).eraseIdx as.length = as ++ bs := by
  rw [List.eraseIdx_append_of_length_le (Nat.le_refl _), Nat.sub_self, List.eraseIdx_cons_zero]

/-- The list once an entry is gone. -/
theorem Represents.dropped {l : ListT α} {s : SimList α} {pl pr : List Nat} {p : Nat}
    (h : Represents l s (pl ++ p :: pr)) (hidle : s.iter = none)
    {heap : Heap (DNode (Option α))} {spareels : List Nat} {items : List α}
    (hfew : spareels.length ≤ maxSpareElems)
    (hstored : Stored heap l.headSentinel l.tailSentinel (pl ++ pr) spareels (items.map some)) :
    Represents { l with
        heap := heap, spareels := spareels, mid := (pl ++ pr)[((pl ++ pr).length - 1) / 2]?
        numels := l.numels - 1 } { s with items := items } (pl ++ pr) := by
  have hcount : (pl ++ p :: pr).length = (pl ++ pr).length + 1 := by
    rw [List.length_append, List.length_cons, List.length_append, Nat.add_assoc]
  have hsmall := h.small
  refine ⟨hstored, ?_, rfl, hfew, by omega, h.active, fun _ hpos => no_session hidle hpos⟩
  show l.numels - 1 = _
  rw [h.numels, hcount, Nat.add_sub_cancel]

theorem getElem?_middle {β : Type} (as bs : List β) (a : β) :
    (as ++ a :: bs)[as.length]? = some a := by
  rw [List.getElem?_append_right (Nat.le_refl _), Nat.sub_self]
  rfl

/-- The entry at a place of the list, which `list_findpos` finds. -/
theorem Represents.exists_at {l : ListT α} {s : SimList α} {ps : List Nat} (h : Represents l s ps)
    {pos : UInt32} (hpos : pos.toNat < s.items.length) :
    ∃ pl p pr as a bs, ps = pl ++ p :: pr ∧ pl.length = pos.toNat ∧ s.items = as ++ a :: bs ∧
      as.length = pos.toNat ∧ l.listFindpos (ListT.asInt pos) = .ok (some p) := by
  have hlen := h.length_eq
  have hsmall := h.small
  have hfind := h.findpos (i := pos.toNat + 1) (by omega)
  rw [← asInt_succ (by omega), spot_succ (by omega)] at hfind
  obtain ⟨pl, p, pr, rfl, hpl⟩ := exists_cut ps (hlen ▸ hpos)
  obtain ⟨as, a, bs, hitems, has⟩ := exists_cut s.items hpos
  rw [← hpl, getElem?_middle] at hfind
  exact ⟨pl, p, pr, as, a, bs, rfl, hpl, hitems, has, hfind⟩

/-- `list_delete_at` where it does delete. -/
theorem Represents.deleteAt {l : ListT α} {s : SimList α} {ps : List Nat} (h : Represents l s ps)
    (hidle : s.iter = none) {pos : UInt32} (hpos : pos.toNat < s.items.length) :
    ∃ l' ps', l.listDeleteAt pos = .ok (l', 0) ∧
      Represents l' { s with items := s.items.eraseIdx pos.toNat } ps' := by
  have hactive := h.idle hidle
  have hlen := h.length_eq
  obtain ⟨pl, p, pr, as, a, bs, rfl, hpl, hitems, has, hfind⟩ := h.exists_at hpos
  have hstored := h.stored
  rw [hitems, List.map_append, List.map_cons] at hstored
  obtain ⟨heap, spareels, hdrop, hfew, hstored'⟩ := hstored.drop
    (by rw [List.length_map, hpl, has]) h.numels h.mid h.few
  rw [← List.map_append] at hstored'
  rw [hitems, ← has, eraseIdx_middle]
  refine ⟨_, _, ?_, h.dropped hidle hfew hstored'⟩
  rw [ListT.listDeleteAt, if_neg (by rw [hactive, h.numels, hlen]; simp; omega), hfind, ok_bind,
    ← hpl, hdrop, ok_bind]

/-- `list_extract_at` where there is an element. -/
theorem Represents.extractAt {l : ListT α} {s : SimList α} {ps : List Nat} (h : Represents l s ps)
    (hidle : s.iter = none) {pos : UInt32} (hpos : pos.toNat < s.items.length) :
    ∃ l' ps', l.listExtractAt pos = .ok (l', s.items[pos.toNat]?) ∧
      Represents l' { s with items := s.items.eraseIdx pos.toNat } ps' := by
  have hactive := h.idle hidle
  have hlen := h.length_eq
  obtain ⟨pl, p, pr, as, a, bs, rfl, hpl, hitems, has, hfind⟩ := h.exists_at hpos
  have hstored := h.stored
  rw [hitems, List.map_append, List.map_cons] at hstored
  -- the element is taken out of the entry first
  obtain ⟨node, heap₁, hnode, hval, hwrite, hstored₁⟩ :=
    hstored.writeInner (by rw [List.length_map, hpl, has]) none
  obtain ⟨heap, spareels, hdrop, hfew, hstored'⟩ := @Stored.drop _ _ _ { l with heap := heap₁ }
    pl pr p none hstored₁ (by rw [List.length_map, hpl, has]) h.numels h.mid h.few
  rw [← List.map_append] at hstored'
  rw [hitems, ← has, eraseIdx_middle, getElem?_middle]
  refine ⟨_, _, ?_, h.dropped hidle hfew hstored'⟩
  rw [ListT.listExtractAt, if_neg (by rw [hactive, h.numels, hlen]; simp; omega), hfind, ok_bind,
    getOr_some, ok_bind, hnode, getOr_some, ok_bind, hwrite, getOr_some, ok_bind, ← hpl, hdrop,
    ok_bind, hval]

/-! ## Searching -/

/-- The first element that meets a test, and its place. -/
def scanList (test : α → Bool) : Nat → List α → Option (Nat × α)
  | _, [] => none
  | pos, a :: as => if test a then some (pos, a) else scanList test (pos + 1) as

theorem scanList_snd (test : α → Bool) (pos : Nat) (as : List α) :
    (scanList test pos as).map Prod.snd = as.find? test := by
  induction as generalizing pos with
  | nil => rfl
  | cons a as ih =>
    rw [scanList, List.find?_cons]
    cases test a with
    | true => rfl
    | false => exact ih (pos + 1)

theorem scanList_fst (test : α → Bool) (pos : Nat) (as : List α) :
    (scanList test pos as).map Prod.fst = (as.findIdx? test).map (· + pos) := by
  induction as generalizing pos with
  | nil => rfl
  | cons a as ih =>
    rw [scanList, List.findIdx?_cons]
    cases test a with
    | true => exact congrArg some (Nat.zero_add pos).symm
    | false =>
      rw [if_neg Bool.false_ne_true, if_neg Bool.false_ne_true, ih (pos + 1), Option.map_map]
      congr 1
      funext i
      show i + (pos + 1) = i + 1 + pos
      omega

theorem scanFrom_eq {l : ListT α} {pl pr rest : List Nat} {as bs : List α}
    (h : Stored l.heap l.headSentinel l.tailSentinel (pl ++ pr) rest ((as ++ bs).map some))
    (hlen : pl.length = as.length) (test : α → Bool) {fuel : Nat} (hfuel : pr.length < fuel) :
    l.scanFrom test fuel (pr.head?.getD l.tailSentinel) pl.length
      = .ok (scanList test pl.length bs) := by
  induction pr generalizing pl as bs fuel with
  | nil =>
    obtain ⟨n, rfl⟩ := Nat.exists_eq_succ_of_ne_zero (Nat.ne_zero_of_lt hfuel)
    have hcount := h.length_eq
    rw [List.length_map, List.length_append, List.length_append, List.length_nil] at hcount
    obtain rfl := List.eq_nil_of_length_eq_zero (show bs.length = 0 by omega)
    rw [ListT.scanFrom]
    exact if_pos rfl
  | cons p pr ih =>
    obtain ⟨n, rfl⟩ := Nat.exists_eq_succ_of_ne_zero (Nat.ne_zero_of_lt hfuel)
    have hcount := h.length_eq
    rw [List.length_map, List.length_append, List.length_append, List.length_cons] at hcount
    obtain ⟨a, bs, rfl⟩ := List.exists_cons_of_length_pos (show 0 < bs.length by omega)
    obtain ⟨node, hnode, -, hnext⟩ := h.links.inner
    have hp := h.links.outside p (by simp)
    have hval : node.val = some a := by
      rw [List.map_append, List.map_cons] at h
      have hvalue := h.value_eq (by rw [List.length_map, hlen])
      rw [value, hnode] at hvalue
      exact Option.some.inj hvalue
    rw [ListT.scanFrom, List.head?_cons, Option.getD_some,
      if_neg (fun heq => hp.2 (Option.some.inj heq)), ListT.entryAt, getOr_some, ok_bind, hnode,
      getOr_some, ok_bind, hval, getOr_some, ok_bind, scanList]
    cases test a with
    | true => rfl
    | false =>
      have hstep := @ih (pl ++ [p]) (as ++ [a]) bs
        (by simpa using h) (by simp [hlen]) n (by simp at hfuel; omega)
      rw [List.length_append, List.length_singleton] at hstep
      rw [if_neg Bool.false_ne_true, if_neg Bool.false_ne_true, hnext]
      exact hstep

theorem Represents.scan {l : ListT α} {s : SimList α} {ps : List Nat} (h : Represents l s ps)
    (test : α → Bool) : l.scan test = .ok (scanList test 0 s.items) := by
  obtain ⟨node, hnode, hnext⟩ := Between.ahead (l := []) (r := ps) h.stored.links
  rw [List.getLast?_nil, Option.getD_none] at hnode
  rw [ListT.scan, hnode, getOr_some, ok_bind, hnext]
  exact @scanFrom_eq _ l [] ps l.spareels [] s.items h.stored rfl test _
    (Nat.lt_succ_of_le h.stored.length_le)

/-- `list_locate` -/
theorem Represents.locate {l : ListT α} {s : SimList α} {ps : List Nat} (h : Represents l s ps)
    (same : α → Bool) :
    l.listLocate same = .ok (((s.items.findIdx? same).map Int.ofNat).getD (-1)) := by
  have hfst := scanList_fst same 0 s.items
  rw [ListT.listLocate, h.scan, ok_bind]
  cases hscan : scanList same 0 s.items with
  | none =>
    rw [hscan, Option.map_none, eq_comm, Option.map_eq_none_iff] at hfst
    rw [hfst]
    rfl
  | some x =>
    rw [hscan, Option.map_some, eq_comm, Option.map_eq_some_iff] at hfst
    obtain ⟨i, hi, hx⟩ := hfst
    rw [hi]
    exact congrArg (fun pos : Nat => Except.ok (pos : Int)) hx.symm

/-- `list_contains` -/
theorem Represents.contains {l : ListT α} {s : SimList α} {ps : List Nat} (h : Represents l s ps)
    (same : α → Bool) : l.listContains same = .ok (s.contains same) := by
  rw [ListT.listContains, h.locate, ok_bind, SimList.contains, ← List.findIdx?_isSome]
  cases s.items.findIdx? same with
  | none => rfl
  | some i => exact congrArg Except.ok (decide_eq_true (Int.natCast_nonneg i))

/-- `list_seek` -/
theorem Represents.seek {l : ListT α} {s : SimList α} {ps : List Nat} (h : Represents l s ps)
    (found : α → Bool) : l.listSeek found = .ok (s.seek found) := by
  rw [ListT.listSeek, h.scan, ok_bind, scanList_snd, SimList.seek]

/-- `list_get_at`: the sentinels hold nothing. -/
theorem Represents.getAt {l : ListT α} {s : SimList α} {ps : List Nat} (h : Represents l s ps)
    (pos : UInt32) : l.listGetAt pos = .ok s.items[pos.toNat]? := by
  have hlen := h.length_eq
  have hsmall := h.small
  have hnumels := h.numels
  by_cases hpos : pos.toNat < s.items.length
  · obtain ⟨pl, p, pr, as, a, bs, rfl, hpl, hitems, has, hfind⟩ := h.exists_at hpos
    have hstored := h.stored
    rw [hitems, List.map_append, List.map_cons] at hstored
    have hvalue := hstored.value_eq (by rw [List.length_map, hpl, has])
    obtain ⟨node, hnode, hval⟩ := Option.map_eq_some_iff.mp hvalue
    rw [ListT.listGetAt, hfind, ok_bind]
    dsimp only
    rw [hnode, getOr_some, ok_bind, hval, hitems, ← has, getElem?_middle]
  · rw [List.getElem?_eq_none (by omega)]
    by_cases hin : -1 ≤ ListT.asInt pos ∧ ListT.asInt pos ≤ ps.length
    · -- one of the sentinels
      have hend : ∃ p, l.listFindpos (ListT.asInt pos) = .ok (some p) ∧
          value l.heap p = some none := by
        have hfind := h.findpos (i := (ListT.asInt pos + 1).toNat) (by omega)
        rw [show (((ListT.asInt pos + 1).toNat : Nat) : Int) - 1 = ListT.asInt pos by omega]
          at hfind
        have hends : (ListT.asInt pos + 1).toNat = 0 ∨
            (ListT.asInt pos + 1).toNat = ps.length + 1 := by
          have hlt := pos.toNat_lt
          unfold ListT.asInt at hin ⊢
          split at hin
          · rw [if_pos ‹_›]
            omega
          · rw [if_neg ‹_›]
            omega
        cases hends with
        | inl hzero =>
          rw [hzero, spot_zero] at hfind
          exact ⟨_, hfind, h.stored.headValue⟩
        | inr hlast =>
          rw [hlast, spot_end] at hfind
          exact ⟨_, hfind, h.stored.tailValue⟩
      obtain ⟨p, hfind, hvalue⟩ := hend
      obtain ⟨node, hnode, hval⟩ := Option.map_eq_some_iff.mp hvalue
      rw [ListT.listGetAt, hfind, ok_bind]
      dsimp only
      rw [hnode, getOr_some, ok_bind, hval]
    · have hfind : l.listFindpos (ListT.asInt pos) = .ok none := by
        rw [ListT.listFindpos, if_pos (by rw [hnumels]; omega)]
      rw [ListT.listGetAt, hfind]
      rfl

/-! ## Clearing -/

/-- The first loop takes the entries `qs` and stops at the first one of `qs'`. -/
theorem spareLoop_eq {l : ListT α} {pl pr : List Nat}
    (hb : Between l.heap l.headSentinel l.tailSentinel (pl ++ pr)) {fuel : Nat}
    (hfuel : pr.length < fuel) (hfew : l.spareels.length ≤ maxSpareElems) :
    ∃ qs qs', pr = qs ++ qs' ∧ (qs.reverse ++ l.spareels).length ≤ maxSpareElems ∧
      ListT.spareLoop fuel l (pr.head?.getD l.tailSentinel) = .ok
        ({ l with spareels := qs.reverse ++ l.spareels }, qs'.head?.getD l.tailSentinel) := by
  induction pr generalizing l pl fuel with
  | nil =>
    obtain ⟨n, rfl⟩ := Nat.exists_eq_succ_of_ne_zero (Nat.ne_zero_of_lt hfuel)
    refine ⟨[], [], rfl, hfew, ?_⟩
    rw [ListT.spareLoop]
    exact if_neg fun hc => hc.2 rfl
  | cons p pr ih =>
    obtain ⟨n, rfl⟩ := Nat.exists_eq_succ_of_ne_zero (Nat.ne_zero_of_lt hfuel)
    obtain ⟨node, hnode, -, hnext⟩ := hb.inner
    have hp := hb.outside p (by simp)
    rw [ListT.spareLoop, List.head?_cons, Option.getD_some]
    by_cases hroom : l.spareels.length < maxSpareElems
    · obtain ⟨qs, qs', rfl, hcount, hloop⟩ :=
        @ih { l with spareels := p :: l.spareels } (pl ++ [p]) (by simpa using hb) n
          (by simp at hfuel; omega) hroom
      refine ⟨p :: qs, qs', rfl, by simpa using hcount, ?_⟩
      rw [if_pos ⟨hroom, fun heq => hp.2 (Option.some.inj heq)⟩, getOr_some, ok_bind, hnode,
        getOr_some, ok_bind, hnext, hloop, List.reverse_cons, List.append_assoc,
        List.singleton_append]
    · rw [if_neg fun hc => hroom hc.1]
      exact ⟨[], p :: pr, rfl, hfew, rfl⟩

/-- The second loop frees what is left. It reads the links of no entry that is freed. -/
theorem freeLoop_eq {l : ListT α} {heap : Heap (DNode (Option α))} {pl pr : List Nat}
    (hb : Between heap l.headSentinel l.tailSentinel (pl ++ pr))
    (hsame : ∀ q, q = l.tailSentinel ∨ q ∈ pr → l.heap.read q = heap.read q) {fuel : Nat}
    (hfuel : pr.length < fuel) :
    ∃ heap', ListT.freeLoop fuel l (pr.head?.getD l.tailSentinel)
        = .ok { l with heap := heap' } ∧
      ∀ q, heap'.read q = if q ∈ pr then none else l.heap.read q := by
  induction pr generalizing l pl fuel with
  | nil =>
    obtain ⟨n, rfl⟩ := Nat.exists_eq_succ_of_ne_zero (Nat.ne_zero_of_lt hfuel)
    refine ⟨l.heap, ?_, fun q => by simp⟩
    rw [ListT.freeLoop]
    exact if_pos rfl
  | cons p pr ih =>
    obtain ⟨n, rfl⟩ := Nat.exists_eq_succ_of_ne_zero (Nat.ne_zero_of_lt hfuel)
    obtain ⟨node, hnode, -, hnext⟩ := hb.inner
    have hp := hb.outside p (by simp)
    have hnodup := hb.nodup
    rw [List.nodup_middle, List.nodup_cons, List.mem_append, not_or] at hnodup
    have hrest : Between heap l.headSentinel l.tailSentinel ((pl ++ [p]) ++ pr) := by
      simpa using hb
    obtain ⟨node', hnode', hprev⟩ := hrest.back
    rw [List.getLast?_concat, Option.getD_some] at hprev
    have hread := hsame p (Or.inr List.mem_cons_self)
    have htarget : l.heap.read (pr.head?.getD l.tailSentinel)
        = heap.read (pr.head?.getD l.tailSentinel) := by
      apply hsame
      cases hpr : pr.head? with
      | none => exact Or.inl rfl
      | some q => exact Or.inr (List.mem_cons_of_mem _ (List.mem_of_head? hpr))
    obtain ⟨heap₁, hfree, -, hread₁⟩ := Heap.free_spec (hread.trans hnode)
    obtain ⟨heap', hloop, hread'⟩ := @ih { l with heap := heap₁ } (pl ++ [p]) hrest
      (fun q hq => by
        have hqp : q ≠ p := by
          intro heq
          rw [heq] at hq
          exact hq.elim hp.2 hnodup.1.2
        show heap₁.read q = _
        rw [hread₁, if_neg hqp]
        exact hsame q (hq.imp_right (List.mem_cons_of_mem _)))
      n (by simp at hfuel; omega)
    refine ⟨heap', ?_, fun q => ?_⟩
    · rw [ListT.freeLoop, List.head?_cons, Option.getD_some,
        if_neg fun heq => hp.2 (Option.some.inj heq)]
      simp only [ListT.entryAt, getOr_some, ok_bind, hread, hnode, hnext, htarget, hnode', hprev,
        hfree]
      exact hloop
    · rw [hread', hread₁]
      by_cases hqp : q = p
      · rw [hqp, if_neg hnodup.1.2, if_pos rfl, if_pos List.mem_cons_self]
      · rw [if_neg hqp]
        simp [hqp]

/-- `list_clear` where it does clear. -/
theorem Represents.clear {l : ListT α} {s : SimList α} {ps : List Nat} (h : Represents l s ps)
    (hidle : s.iter = none) :
    ∃ l', l.listClear = .ok (l', s.items.length) ∧ Represents l' { s with items := [] } [] := by
  have hactive := h.idle hidle
  obtain ⟨node, hnode, hnext⟩ := Between.ahead (l := []) (r := ps) h.stored.links
  rw [List.getLast?_nil, Option.getD_none] at hnode
  have hfuel : ps.length < l.heap.fresh + 1 := Nat.lt_succ_of_le h.stored.length_le
  obtain ⟨qs, qs', rfl, hcount, hspare⟩ :=
    @spareLoop_eq _ l [] ps h.stored.links _ hfuel h.few
  obtain ⟨heap₁, hfree, hread⟩ := @freeLoop_eq _
    { l with spareels := qs.reverse ++ l.spareels } l.heap qs qs' h.stored.links (fun _ _ => rfl)
    (l.heap.fresh + 1) (by simp at hfuel; omega)
  obtain ⟨heap₂, heap₃, hhead, htail, hstored⟩ := h.stored.cleared hread
  refine ⟨{ l with
    heap := heap₃, spareels := qs.reverse ++ l.spareels, numels := 0, mid := none }, ?_,
    hstored, rfl, rfl, hcount, by norm_num, h.active, fun _ hpos => no_session hidle hpos⟩
  rw [ListT.listClear, if_neg (by rw [hactive]; exact Bool.noConfusion), hnode]
  simp only [getOr_some, ok_bind, hnext, hspare, hfree, hhead, htail]
  rw [h.numels, h.length_eq]

/-! ## Sessions -/

/-- `list_iterator_start` -/
theorem Represents.start {l : ListT α} {s : SimList α} {ps : List Nat} (h : Represents l s ps) :
    ∃ l', l.listIteratorStart = .ok (l', if s.iter.isSome then 0 else 1) ∧
      Represents l' s.start ps := by
  rw [ListT.listIteratorStart, h.active, SimList.start]
  split
  next hactive => exact ⟨l, rfl, h⟩
  next hidle =>
    obtain ⟨p, node, hp, hnode, hnext⟩ := h.stored.links.step_next (Nat.zero_le _)
    obtain rfl := Option.some.inj hp
    rw [hnode, getOr_some, ok_bind]
    refine ⟨_, rfl, h.stored, h.numels, h.mid, h.few, h.small, rfl, fun pos hpos => ?_⟩
    obtain rfl := Option.some.inj hpos
    exact ⟨Nat.zero_le _, rfl, hnext⟩

/-- The entry that a session is at; behind the last one that is the sentinel. -/
theorem Represents.curentry {l : ListT α} {s : SimList α} {ps : List Nat} (h : Represents l s ps)
    {pos : Nat} (hpos : pos ≤ ps.length) :
    ∃ node, l.entryAt (spot l.headSentinel l.tailSentinel ps (pos + 1)) = .ok node ∧
      node.val = s.items[pos]? ∧
      node.next = spot l.headSentinel l.tailSentinel ps (pos + 2) := by
  have hlen := h.length_eq
  by_cases hin : pos < ps.length
  · obtain ⟨p, node, hp, hnode, hnext⟩ := h.stored.links.step_next (show pos + 1 ≤ _ from hin)
    obtain ⟨pl, q, pr, hps, hpl⟩ := exists_cut ps hin
    obtain ⟨as, a, bs, hitems, has⟩ := exists_cut s.items (hlen ▸ hin)
    have hstored := h.stored
    rw [hps, hitems, List.map_append, List.map_cons] at hstored
    have hvalue := hstored.value_eq (by rw [List.length_map, hpl, has])
    rw [spot_succ hin, hps, ← hpl, getElem?_middle] at hp
    obtain rfl := Option.some.inj hp
    rw [value, hnode] at hvalue
    refine ⟨node, ?_, ?_, hnext⟩
    · rw [spot_succ hin, hps, ← hpl, getElem?_middle, ListT.entryAt, getOr_some, ok_bind, hnode,
        getOr_some]
    · rw [hitems, ← has, getElem?_middle]
      exact Option.some.inj hvalue
  · obtain rfl : pos = ps.length := by omega
    obtain ⟨node, hnode, hval⟩ := Option.map_eq_some_iff.mp h.stored.tailValue
    have hbehind := h.stored.links.behind
    rw [hnode] at hbehind
    refine ⟨node, ?_, ?_, ?_⟩
    · rw [spot_end, ListT.entryAt, getOr_some, ok_bind, hnode, getOr_some]
    · rw [hval, hlen, List.getElem?_eq_none (Nat.le_refl _)]
    · rw [Option.some.inj hbehind, spot, eq_comm, List.getElem?_eq_none_iff]
      simp

/-- `list_iterator_next`, as long as the sentinel has not been returned -/
theorem Represents.next {l : ListT α} {s : SimList α} {ps : List Nat} (h : Represents l s ps)
    (hpos : ∀ pos, s.iter = some pos → pos ≤ s.items.length) :
    ∃ l', l.listIteratorNext = .ok (l', s.current) ∧ Represents l' s.next ps := by
  have hlen := h.length_eq
  unfold ListT.listIteratorNext SimList.current SimList.next
  cases hiter : s.iter with
  | none =>
    rw [if_pos (h.idle hiter)]
    refine ⟨l, rfl, h.stored, h.numels, h.mid, h.few, h.small, ?_, ?_⟩
    · exact h.idle hiter
    · intro pos hnone
      cases hnone
  | some pos =>
    obtain ⟨-, hiterPos, hcur⟩ := h.session pos hiter
    have hle : pos ≤ ps.length := by
      rw [hlen]
      exact hpos pos hiter
    obtain ⟨node, hnode, hval, hnext⟩ := h.curentry hle
    have hactive := h.active
    rw [hiter, Option.isSome_some] at hactive
    rw [if_neg (by rw [hactive]; exact Bool.noConfusion), hcur, hnode, ok_bind, hval]
    refine ⟨_, rfl, h.stored, h.numels, h.mid, h.few, h.small, hactive, fun pos' hpos' => ?_⟩
    obtain rfl := Option.some.inj hpos'
    refine ⟨?_, ?_, hnext⟩
    · rw [hlen]
      exact Nat.succ_le_succ (hpos pos hiter)
    · show l.iterPos + 1 = pos + 1
      rw [hiterPos]

/-- `list_iterator_hasnext` -/
theorem Represents.hasnext {l : ListT α} {s : SimList α} {ps : List Nat} (h : Represents l s ps) :
    l.listIteratorHasnext = s.hasNext := by
  rw [ListT.listIteratorHasnext, h.active, SimList.hasNext, h.numels, h.length_eq]
  cases hiter : s.iter with
  | none => rfl
  | some pos =>
    rw [(h.session pos hiter).2.1]
    rfl

/-- `list_iterator_stop` -/
theorem Represents.stop {l : ListT α} {s : SimList α} {ps : List Nat} (h : Represents l s ps) :
    l.listIteratorStop.2 = (if s.iter.isSome then 1 else 0) ∧
      Represents l.listIteratorStop.1 s.stop ps := by
  rw [ListT.listIteratorStop, h.active, SimList.stop]
  cases hiter : s.iter with
  | none =>
    refine ⟨rfl, h.stored, h.numels, h.mid, h.few, h.small, h.idle hiter, ?_⟩
    intro pos hpos
    cases hpos
  | some pos =>
    refine ⟨rfl, h.stored, h.numels, h.mid, h.few, h.small, rfl, ?_⟩
    intro pos hpos
    cases hpos

end UchiNetworks.Simclist
