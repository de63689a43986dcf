import UchiNetworks.Lib.LinkedList

/-!
# Lists between two sentinels

A doubly linked list whose two ends are nodes themselves: a head that nothing is
before and a tail that nothing is behind. Read as in `Lib.LinkedList`, with the
two sentinels as the one node `none` of a ring, each of the two link words is a
ring again, so that inserting and removing are the same two edits. `spot` counts
the nodes from the head on, and `walk` follows one word from spot to spot.
-/

namespace UchiNetworks.Lib

variable {φ α : Type}

namespace Sentinels

/-- Where a link word leads, `stop` being the end. -/
def hop (h : Heap (DNode α)) (word : DNode α → Option Nat) (stop p : Nat) : Option (Option Nat) :=
  ((h.read p).map word).bind fun w => w.map fun q => if q = stop then none else some q

/-- One link word as a ring; `none` stands for the sentinels. -/
def ring (h : Heap (DNode α)) (word : DNode α → Option Nat) (start stop : Nat) :
    Option Nat → Option (Option Nat)
  | none => hop h word stop start
  | some p => if p = start ∨ p = stop then none else hop h word stop p

theorem ring_congr {h h' : Heap (DNode α)} {word : DNode α → Option Nat}
    (hsame : ∀ q, (h'.read q).map word = (h.read q).map word) (start stop : Nat) (x : Option Nat) :
    ring h' word start stop x = ring h word start stop x := by
  cases x with
  | none => rw [ring, ring, hop, hop, hsame]
  | some p => rw [ring, ring, hop, hop, hsame]

/-- One word is written, in the node that `x` stands for. -/
theorem ring_write {h h' : Heap (DNode α)} {word : DNode α → Option Nat} {start stop y : Nat}
    {x : Option Nat} (hx : ∀ p, x = some p → p ≠ start ∧ p ≠ stop)
    (hword : ∀ q, (h'.read q).map word =
      if q = x.getD start then some (some y) else (h.read q).map word) (z : Option Nat) :
    ring h' word start stop z =
      if z = x then some (if y = stop then none else some y) else ring h word start stop z := by
  cases z with
  | none =>
    rw [ring, ring, hop, hop, hword]
    cases x with
    | none =>
      rw [Option.getD_none, if_pos rfl, if_pos rfl]
      rfl
    | some p =>
      rw [Option.getD_some, if_neg (Ne.symm (hx p rfl).1), if_neg (Option.some_ne_none p).symm]
  | some q =>
    rw [ring, ring]
    by_cases hq : q = start ∨ q = stop
    · rw [if_pos hq, if_pos hq, if_neg]
      intro heq
      obtain ⟨hs, ht⟩ := hx q heq.symm
      exact hq.elim hs ht
    · rw [if_neg hq, if_neg hq, hop, hop, hword]
      cases x with
      | none =>
        rw [Option.getD_none, if_neg fun heq => hq (Or.inl heq), if_neg (Option.some_ne_none q)]
      | some p =>
        rw [Option.getD_some]
        by_cases hqp : q = p
        · rw [if_pos hqp, if_pos (congrArg some hqp)]
          rfl
        · rw [if_neg hqp, if_neg fun heq => hqp (Option.some.inj heq)]

/-! ## What a list looks like -/

/-- The nodes `ps`, and no others, are linked both ways between the sentinels. -/
structure Between (h : Heap (DNode α)) (head tail : Nat) (ps : List Nat) : Prop where
  ne : head ≠ tail
  outside : ∀ p ∈ ps, p ≠ head ∧ p ≠ tail
  nodup : ps.Nodup
  forward : Leads (ring h DNode.next head tail) ps
  backward : Leads (ring h DNode.prev tail head) ps.reverse
  before : (h.read head).map DNode.prev = some none
  behind : (h.read tail).map DNode.next = some none

variable {h h' : Heap (DNode α)} {head tail : Nat} {ps l r : List Nat}

/-- What a hop says about the node. -/
theorem hop_eq {word : DNode α → Option Nat} {stop p : Nat} {x : Option Nat}
    (hhop : hop h word stop p = some x) :
    ∃ node, h.read p = some node ∧ word node = some (x.getD stop) := by
  obtain ⟨w, hw, hx⟩ := Option.bind_eq_some_iff.mp hhop
  obtain ⟨node, hnode, rfl⟩ := Option.map_eq_some_iff.mp hw
  obtain ⟨q, hq, rfl⟩ := Option.map_eq_some_iff.mp hx
  refine ⟨node, hnode, hq.trans ?_⟩
  by_cases hstop : q = stop
  · rw [if_pos hstop, hstop]
    rfl
  · rw [if_neg hstop]
    rfl

theorem ring_eq {word : DNode α → Option Nat} {start stop : Nat} {x y : Option Nat}
    (hring : ring h word start stop x = some y) :
    ∃ node, h.read (x.getD start) = some node ∧ word node = some (y.getD stop) := by
  cases x with
  | none => exact hop_eq hring
  | some p =>
    rw [ring] at hring
    split at hring
    · cases hring
    · exact hop_eq hring

/-- The node before a cut points at the node behind it. -/
theorem Between.ahead (hb : Between h head tail (l ++ r)) :
    ∃ node, h.read (l.getLast?.getD head) = some node ∧ node.next = some (r.head?.getD tail) :=
  ring_eq (hb.forward l r rfl)

/-- And the other way round. -/
theorem Between.back (hb : Between h head tail (l ++ r)) :
    ∃ node, h.read (r.head?.getD tail) = some node ∧ node.prev = some (l.getLast?.getD head) := by
  have hback := hb.backward r.reverse l.reverse (List.reverse_append)
  rw [List.getLast?_reverse, List.head?_reverse] at hback
  exact ring_eq hback

theorem Between.inner {p : Nat} (hb : Between h head tail (l ++ p :: r)) :
    ∃ node, h.read p = some node ∧ node.prev = some (l.getLast?.getD head) ∧
      node.next = some (r.head?.getD tail) := by
  obtain ⟨node, hnode, hprev⟩ := hb.back
  obtain ⟨node', hnode', hnext⟩ := Between.ahead (l := l ++ [p]) (r := r) (by simpa using hb)
  rw [List.getLast?_concat, Option.getD_some] at hnode'
  rw [List.head?_cons, Option.getD_some] at hnode
  obtain rfl := Option.some.inj (hnode.symm.trans hnode')
  exact ⟨node, hnode, hprev, hnext⟩

/-! ## Writing a link -/

/-- The same nodes are in memory, and hold the same. -/
structure Same (h h' : Heap (DNode α)) : Prop where
  val : ∀ q, (h'.read q).map DNode.val = (h.read q).map DNode.val
  fresh : h'.fresh = h.fresh

theorem Same.trans {h h' h'' : Heap (DNode α)} (h₁ : Same h h') (h₂ : Same h' h'') : Same h h'' :=
  ⟨fun q => (h₂.val q).trans (h₁.val q), h₂.fresh.trans h₁.fresh⟩

theorem Same.isSome (hsame : Same h h') (q : Nat) : (h'.read q).isSome = (h.read q).isSome := by
  rw [← Option.isSome_map (f := DNode.val), hsame.val, Option.isSome_map]

theorem setNext_spec {p : Nat} (hp : (h.read p).isSome) (y : Nat) :
    ∃ h', h.modify p (fun node => { node with next := some y }) = some h' ∧ Same h h' ∧
      (∀ q, (h'.read q).map DNode.prev = (h.read q).map DNode.prev) ∧
      ∀ q, (h'.read q).map DNode.next =
        if q = p then some (some y) else (h.read q).map DNode.next := by
  obtain ⟨node, hnode⟩ := Option.isSome_iff_exists.mp hp
  obtain ⟨h', hmod, hfresh, hread⟩ := Heap.modify_spec hnode fun node => { node with next := some y }
  refine ⟨h', hmod, ⟨Heap.view_of_modify hnode hread DNode.val rfl, hfresh⟩,
    Heap.view_of_modify hnode hread DNode.prev rfl, fun q => ?_⟩
  rw [hread]
  split
  · rfl
  · rfl

theorem setPrev_spec {p : Nat} (hp : (h.read p).isSome) (y : Nat) :
    ∃ h', h.modify p (fun node => { node with prev := some y }) = some h' ∧ Same h h' ∧
      (∀ q, (h'.read q).map DNode.next = (h.read q).map DNode.next) ∧
      ∀ q, (h'.read q).map DNode.prev =
        if q = p then some (some y) else (h.read q).map DNode.prev := by
  obtain ⟨node, hnode⟩ := Option.isSome_iff_exists.mp hp
  obtain ⟨h', hmod, hfresh, hread⟩ := Heap.modify_spec hnode fun node => { node with prev := some y }
  refine ⟨h', hmod, ⟨Heap.view_of_modify hnode hread DNode.val rfl, hfresh⟩,
    Heap.view_of_modify hnode hread DNode.next rfl, fun q => ?_⟩
  rw [hread]
  split
  · rfl
  · rfl

/-- Link a node in between two others. -/
def linkBetween (h : Heap (DNode α)) (prec lent succ : Nat) : Option (Heap (DNode α)) := do
  let h ← h.modify prec fun node => { node with next := some lent }
  let h ← h.modify lent fun node => { node with prev := some prec }
  let h ← h.modify lent fun node => { node with next := some succ }
  h.modify succ fun node => { node with prev := some lent }

/-- Make the neighbours of a node point past it. -/
def bypass (h : Heap (DNode α)) (p : Nat) : Option (Heap (DNode α)) := do
  let node ← h.read p
  let prec ← node.prev
  let succ ← node.next
  let h ← h.modify prec fun node => { node with next := some succ }
  h.modify succ fun node => { node with prev := some prec }

theorem getD_ne {x : Option Nat} {p d : Nat} (hd : d ≠ p) (hx : ∀ q, x = some q → q ≠ p) :
    x.getD d ≠ p := by
  cases x with
  | none => exact hd
  | some q => exact hx q rfl

/-- The sentinel that a ring's link to a node of the list stands for. -/
theorem Between.stop_eq (hb : Between h head tail (l ++ r)) :
    (if r.head?.getD tail = tail then none else some (r.head?.getD tail)) = r.head? := by
  cases hr : r.head? with
  | none => rw [Option.getD_none, if_pos rfl]
  | some p =>
    have hp := hb.outside p (List.mem_append_right _ (List.mem_of_head? hr))
    rw [Option.getD_some, if_neg hp.2]

theorem Between.start_eq (hb : Between h head tail (l ++ r)) :
    (if l.getLast?.getD head = head then none else some (l.getLast?.getD head)) = l.getLast? := by
  cases hl : l.getLast? with
  | none => rw [Option.getD_none, if_pos rfl]
  | some p =>
    have hp := hb.outside p (List.mem_append_left _ (List.mem_of_getLast? hl))
    rw [Option.getD_some, if_neg hp.1]

theorem prec_ne {p : Nat} (hph : p ≠ head) (hp : p ∉ l) : l.getLast?.getD head ≠ p :=
  getD_ne (Ne.symm hph) fun _ hq heq => hp (heq ▸ List.mem_of_getLast? hq)

theorem succ_ne {p : Nat} (hpt : p ≠ tail) (hp : p ∉ r) : r.head?.getD tail ≠ p :=
  getD_ne (Ne.symm hpt) fun _ hq heq => hp (heq ▸ List.mem_of_head? hq)

theorem Between.tail_not_mem (hb : Between h head tail ps) : tail ∉ ps :=
  fun hmem => (hb.outside tail hmem).2 rfl

theorem Between.head_not_mem (hb : Between h head tail ps) : head ∉ ps :=
  fun hmem => (hb.outside head hmem).1 rfl

/-- **Inserting.** A node in memory comes in at a cut. -/
theorem Between.link {p : Nat} (hb : Between h head tail (l ++ r)) (hp : (h.read p).isSome)
    (hout : p ∉ l ++ r) (hph : p ≠ head) (hpt : p ≠ tail) :
    ∃ h', linkBetween h (l.getLast?.getD head) p (r.head?.getD tail) = some h' ∧ Same h h' ∧
      Between h' head tail (l ++ p :: r) := by
  obtain ⟨node, hnode, -⟩ := hb.ahead
  obtain ⟨node', hnode', -⟩ := hb.back
  rw [List.mem_append, not_or] at hout
  have htail := hb.tail_not_mem
  have hhead := hb.head_not_mem
  rw [List.mem_append, not_or] at htail hhead
  have hnodup : (l ++ p :: r).Nodup := by
    rw [List.nodup_middle, List.nodup_cons, List.mem_append, not_or]
    exact ⟨hout, hb.nodup⟩
  -- the four writes
  obtain ⟨h₁, hw₁, hs₁, hprev₁, hnext₁⟩ := setNext_spec (by rw [hnode]; rfl) p
  obtain ⟨h₂, hw₂, hs₂, hnext₂, hprev₂⟩ :=
    setPrev_spec (by rw [hs₁.isSome]; exact hp) (l.getLast?.getD head)
  have hs₁₂ := hs₁.trans hs₂
  obtain ⟨h₃, hw₃, hs₃, hprev₃, hnext₃⟩ :=
    setNext_spec (by rw [hs₁₂.isSome]; exact hp) (r.head?.getD tail)
  have hs₁₃ := hs₁₂.trans hs₃
  obtain ⟨h₄, hw₄, hs₄, hnext₄, hprev₄⟩ :=
    setPrev_spec (by rw [hs₁₃.isSome, hnode']; rfl) p
  have hlast : ∀ q, l.getLast? = some q → q ≠ head ∧ q ≠ tail := fun q hq =>
    hb.outside q (List.mem_append_left _ (List.mem_of_getLast? hq))
  have hfirst : ∀ q, r.head? = some q → q ≠ tail ∧ q ≠ head := fun q hq =>
    (hb.outside q (List.mem_append_right _ (List.mem_of_head? hq))).symm
  have hnext : ∀ z, ring h₄ DNode.next head tail z = if z = some p then some r.head? else
      if z = l.getLast? then some (some p) else ring h DNode.next head tail z := by
    intro z
    rw [ring_congr hnext₄, ring_write (x := some p)
      (fun q hq => Option.some.inj hq ▸ ⟨hph, hpt⟩) hnext₃, hb.stop_eq, ring_congr hnext₂,
      ring_write hlast hnext₁, if_neg hpt]
  have hprev : ∀ z, ring h₄ DNode.prev tail head z = if z = r.head? then some (some p) else
      if z = some p then some l.getLast? else ring h DNode.prev tail head z := by
    intro z
    rw [ring_write hfirst hprev₄, if_neg hph, ring_congr hprev₃, ring_write (x := some p)
      (fun q hq => Option.some.inj hq ▸ ⟨hpt, hph⟩) hprev₂, hb.start_eq, ring_congr hprev₁]
  have hpl : l.getLast? ≠ some p := fun heq => hout.1 (List.mem_of_getLast? heq)
  have hpr : r.head? ≠ some p := fun heq => hout.2 (List.mem_of_head? heq)
  refine ⟨h₄, ?_, hs₁₃.trans hs₄, hb.ne, ?_, hnodup, ?_, ?_, ?_, ?_⟩
  · rw [linkBetween, hw₁]
    simp only [Option.bind_eq_bind, Option.bind_some, hw₂, hw₃, hw₄]
  · intro q hq
    obtain hq | hq := List.mem_append.mp hq
    · exact hb.outside q (List.mem_append_left _ hq)
    · obtain rfl | hq := List.mem_cons.mp hq
      · exact ⟨hph, hpt⟩
      · exact hb.outside q (List.mem_append_right _ hq)
  · apply hb.forward.insert hnodup
    · rw [hnext, if_neg hpl, if_pos rfl]
    · rw [hnext, if_pos rfl]
    · intro z hz hzp
      rw [hnext, if_neg hzp, if_neg hz]
  · have hback := hb.backward
    rw [List.reverse_append] at hback
    have hrev := List.nodup_reverse.mpr hnodup
    rw [List.reverse_append, List.reverse_cons, List.append_assoc, List.singleton_append] at hrev ⊢
    apply hback.insert hrev
    · rw [hprev, List.getLast?_reverse, if_pos rfl]
    · rw [hprev, if_neg (Ne.symm hpr), if_pos rfl, List.head?_reverse]
    · intro z hz hzp
      rw [List.getLast?_reverse] at hz
      rw [hprev, if_neg hz, if_neg hzp]
  · rw [hprev₄, if_neg (Ne.symm (succ_ne hb.ne hhead.2)), hprev₃, hprev₂, if_neg (Ne.symm hph),
      hprev₁, hb.before]
  · rw [hnext₄, hnext₃, if_neg (Ne.symm hpt), hnext₂, hnext₁,
      if_neg (Ne.symm (prec_ne (Ne.symm hb.ne) htail.1)), hb.behind]

/-- **Removing.** The node stays in memory, with its own links as they were. -/
theorem Between.unlink {p : Nat} (hb : Between h head tail (l ++ p :: r)) :
    ∃ h', bypass h p = some h' ∧ Same h h' ∧ Between h' head tail (l ++ r) := by
  obtain ⟨node, hnode, hprev, hnext⟩ := hb.inner
  have hp := hb.outside p (by simp)
  have hnodup := hb.nodup
  have hnd := hnodup
  rw [List.nodup_middle, List.nodup_cons, List.mem_append, not_or] at hnd
  have htail := hb.tail_not_mem
  have hhead := hb.head_not_mem
  rw [List.mem_append, not_or, List.mem_cons, not_or] at htail hhead
  obtain ⟨before, hbefore, -⟩ := hb.ahead
  obtain ⟨after, hafter, -⟩ := Between.back (l := l ++ [p]) (r := r) (by simpa using hb)
  obtain ⟨h₁, hw₁, hs₁, hprev₁, hnext₁⟩ := setNext_spec (by rw [hbefore]; rfl) (r.head?.getD tail)
  obtain ⟨h₂, hw₂, hs₂, hnext₂, hprev₂⟩ :=
    setPrev_spec (by rw [hs₁.isSome, hafter]; rfl) (l.getLast?.getD head)
  have hlast : ∀ q, l.getLast? = some q → q ≠ head ∧ q ≠ tail := fun q hq =>
    hb.outside q (List.mem_append_left _ (List.mem_of_getLast? hq))
  have hfirst : ∀ q, r.head? = some q → q ≠ tail ∧ q ≠ head := fun q hq =>
    (hb.outside q (List.mem_append_right _ (List.mem_cons_of_mem _ (List.mem_of_head? hq)))).symm
  have hstop := Between.stop_eq (l := l ++ [p]) (r := r) (by simpa using hb)
  have hnext' : ∀ z, ring h₂ DNode.next head tail z = if z = l.getLast? then some r.head? else
      ring h DNode.next head tail z := by
    intro z
    rw [ring_congr hnext₂, ring_write hlast hnext₁, hstop]
  have hprev' : ∀ z, ring h₂ DNode.prev tail head z = if z = r.head? then some l.getLast? else
      ring h DNode.prev tail head z := by
    intro z
    rw [ring_write hfirst hprev₂, hb.start_eq, ring_congr hprev₁]
  refine ⟨h₂, ?_, hs₁.trans hs₂, hb.ne, ?_, hnodup.sublist (by simp), ?_, ?_, ?_, ?_⟩
  · simp only [bypass, hnode, hprev, hnext, Option.bind_eq_bind, Option.bind_some, hw₁, hw₂]
  · intro q hq
    apply hb.outside q
    obtain hq | hq := List.mem_append.mp hq
    · exact List.mem_append_left _ hq
    · exact List.mem_append_right _ (List.mem_cons_of_mem _ hq)
  · apply hb.forward.remove hnodup
    · rw [hnext', if_pos rfl]
    · intro z hz _
      rw [hnext', if_neg hz]
  · have hback := hb.backward
    have hrev := List.nodup_reverse.mpr hnodup
    rw [List.reverse_append, List.reverse_cons, List.append_assoc, List.singleton_append]
      at hback hrev
    rw [List.reverse_append]
    apply hback.remove hrev
    · rw [hprev', List.getLast?_reverse, if_pos rfl, List.head?_reverse]
    · intro z hz _
      rw [List.getLast?_reverse] at hz
      rw [hprev', if_neg hz]
  · rw [hprev₂, if_neg, hprev₁, hb.before]
    exact Ne.symm (succ_ne hb.ne hhead.2.2)
  · rw [hnext₂, hnext₁, if_neg, hb.behind]
    exact Ne.symm (prec_ne (Ne.symm hb.ne) htail.1)

/-! ## What does not touch the links -/

/-- The links are what they were. -/
theorem Between.relinked (hb : Between h head tail ps)
    (hnext : ∀ q, (h'.read q).map DNode.next = (h.read q).map DNode.next)
    (hprev : ∀ q, (h'.read q).map DNode.prev = (h.read q).map DNode.prev) :
    Between h' head tail ps := by
  refine ⟨hb.ne, hb.outside, hb.nodup, ?_, ?_, by rw [hprev, hb.before], by rw [hnext, hb.behind]⟩
  · exact hb.forward.congr (ring_congr hnext _ _ _) fun p _ => ring_congr hnext _ _ _
  · exact hb.backward.congr (ring_congr hprev _ _ _) fun p _ => ring_congr hprev _ _ _

/-- Memory changes elsewhere. -/
theorem Between.congr (hb : Between h head tail ps)
    (hsame : ∀ q, q = head ∨ q = tail ∨ q ∈ ps → h'.read q = h.read q) :
    Between h' head tail ps := by
  have hh := hsame head (Or.inl rfl)
  have ht := hsame tail (Or.inr (Or.inl rfl))
  refine ⟨hb.ne, hb.outside, hb.nodup, ?_, ?_, by rw [hh, hb.before], by rw [ht, hb.behind]⟩
  · apply hb.forward.congr
    · rw [ring, ring, hop, hop, hh]
    · intro p hp
      rw [ring, ring, hop, hop, hsame p (Or.inr (Or.inr hp))]
  · apply hb.backward.congr
    · rw [ring, ring, hop, hop, ht]
    · intro p hp
      rw [ring, ring, hop, hop, hsame p (Or.inr (Or.inr (List.mem_reverse.mp hp)))]

/-! ## Spots -/

/-- The nodes counted from the head on, which is at spot 0. -/
def spot (head tail : Nat) (ps : List Nat) (i : Nat) : Option Nat := (head :: (ps ++ [tail]))[i]?

theorem spot_before (head tail : Nat) (l r : List Nat) :
    spot head tail (l ++ r) l.length = some (l.getLast?.getD head) := by
  cases l using List.reverseRecOn with
  | nil => rfl
  | append_singleton l p =>
    rw [List.getLast?_concat, Option.getD_some, spot, List.length_append, List.length_singleton,
      List.getElem?_cons_succ, List.append_assoc, List.append_assoc, List.singleton_append,
      List.getElem?_append_right (Nat.le_refl _), Nat.sub_self]
    rfl

theorem spot_behind (head tail : Nat) (l r : List Nat) :
    spot head tail (l ++ r) (l.length + 1) = some (r.head?.getD tail) := by
  rw [spot, List.getElem?_cons_succ, List.append_assoc, List.getElem?_append_right (Nat.le_refl _),
    Nat.sub_self]
  cases r with
  | nil => rfl
  | cons p r => rfl

theorem spot_succ {i : Nat} (hi : i < ps.length) : spot head tail ps (i + 1) = ps[i]? := by
  rw [spot, List.getElem?_cons_succ, List.getElem?_append_left hi]

/-- Follow a link word so many times. -/
def walk (dangling null : φ) (h : Heap (DNode α)) (word : DNode α → Option Nat) :
    Nat → Option Nat → Except φ (Option Nat)
  | 0, p => .ok p
  | k + 1, p => do
    let p ← getOr null p
    let node ← getOr dangling (h.read p)
    walk dangling null h word k (word node)

theorem Between.step_next (hb : Between h head tail ps) {i : Nat} (hi : i ≤ ps.length) :
    ∃ p node, spot head tail ps i = some p ∧ h.read p = some node ∧
      node.next = spot head tail ps (i + 1) := by
  have hcut := List.take_append_drop i ps
  rw [← hcut] at hb
  obtain ⟨node, hnode, hnext⟩ := hb.ahead
  have hbefore := spot_before head tail (ps.take i) (ps.drop i)
  have hbehind := spot_behind head tail (ps.take i) (ps.drop i)
  rw [hcut, List.length_take, Nat.min_eq_left hi] at hbefore hbehind
  exact ⟨_, node, hbefore, hnode, hnext.trans hbehind.symm⟩

theorem Between.step_prev (hb : Between h head tail ps) {i : Nat} (hi : i ≤ ps.length) :
    ∃ p node, spot head tail ps (i + 1) = some p ∧ h.read p = some node ∧
      node.prev = spot head tail ps i := by
  have hcut := List.take_append_drop i ps
  rw [← hcut] at hb
  obtain ⟨node, hnode, hprev⟩ := hb.back
  have hbefore := spot_before head tail (ps.take i) (ps.drop i)
  have hbehind := spot_behind head tail (ps.take i) (ps.drop i)
  rw [hcut, List.length_take, Nat.min_eq_left hi] at hbefore hbehind
  exact ⟨_, node, hbehind, hnode, hprev.trans hbefore.symm⟩

theorem Between.walk_next (hb : Between h head tail ps) (dangling null : φ) {i k : Nat}
    (hk : i + k ≤ ps.length + 1) :
    walk dangling null h DNode.next k (spot head tail ps i) = .ok (spot head tail ps (i + k)) := by
  induction k generalizing i with
  | zero => rfl
  | succ k ih =>
    obtain ⟨p, node, hp, hnode, hnext⟩ := hb.step_next (show i ≤ ps.length by omega)
    rw [walk, hp, getOr_some, ok_bind, hnode, getOr_some, ok_bind, hnext, ih (by omega)]
    rw [Nat.add_assoc, Nat.add_comm 1 k]

theorem Between.walk_prev (hb : Between h head tail ps) (dangling null : φ) {i k : Nat}
    (hi : i + k ≤ ps.length + 1) :
    walk dangling null h DNode.prev k (spot head tail ps (i + k)) = .ok (spot head tail ps i) := by
  induction k with
  | zero => rfl
  | succ k ih =>
    obtain ⟨p, node, hp, hnode, hprev⟩ := hb.step_prev (show i + k ≤ ps.length by omega)
    rw [← Nat.add_assoc, walk, hp, getOr_some, ok_bind, hnode, getOr_some, ok_bind, hprev,
      ih (by omega)]

end Sentinels

end UchiNetworks.Lib
