import UchiNetworks.Lib.LongestPrefix
import UchiNetworks.Router.Frame
import Mathlib.Data.List.Pairwise

/-!
# Which route a packet takes

`rt_match` goes through the table once and keeps an entry that covers the address
until one with a greater mask comes. Masks are compared in host order, so for
masks that are prefixes the greater one is the longer one (`longer_iff`), and
what the loop ends with is the first of the longest (`rtMatch_longest_prefix`).
-/

namespace UchiNetworks.Router

open UchiNetworks.Lib

/-- `sr_add_rt_entry`: a new entry goes to the end of the table. -/
def srAddRtEntry (sr : SrInstance) (dest gw mask : UInt32) (ifName : IfName) : SrInstance :=
  { sr with
    routingTable := sr.routingTable ++
      [{ dest := dest, gw := gw, mask := mask, interface := ifName.take 32 }] }

/-- The address lies in the prefix of the entry. -/
def Covers (addr : UInt32) (rt : SrRt) : Prop := rt.dest &&& rt.mask = addr &&& rt.mask

instance (addr : UInt32) (rt : SrRt) : Decidable (Covers addr rt) :=
  inferInstanceAs (Decidable (_ = _))

/-- The entries that cover the address, in table order. -/
def covering (table : List SrRt) (addr : UInt32) : List SrRt :=
  table.filter fun rt => decide (Covers addr rt)

/-- The number of one bits of the entry's mask. -/
def prefixLength (rt : SrRt) : Nat := (ntohl rt.mask).toBitVec.cpop.toNat

/-- Every mask is a contiguous prefix in network byte order. -/
def PrefixMasks (table : List SrRt) : Prop :=
  ∀ rt ∈ table, Contiguous (ntohl rt.mask).toBitVec

/-- Two entries are for the same prefix. -/
def SamePrefix (rt rt' : SrRt) : Prop :=
  rt.mask = rt'.mask ∧ rt.dest &&& rt.mask = rt'.dest &&& rt'.mask

/-! ## The loop -/

/-- An entry that is added last is looked at last. -/
theorem rtMatch_add (sr : SrInstance) (dest gw mask : UInt32) (ifName : IfName) (addr : UInt32) :
    rtMatch (srAddRtEntry sr dest gw mask ifName) addr =
      betterRoute addr (rtMatch sr addr)
        { dest := dest, gw := gw, mask := mask, interface := ifName.take 32 } := by
  simp only [rtMatch, srAddRtEntry, List.foldl_append, List.foldl_cons, List.foldl_nil]

/-- The loop of `rt_match` looks for the greatest mask among the entries that
cover the address. -/
theorem rtMatch_eq_argmax (sr : SrInstance) (addr : UInt32) :
    rtMatch sr addr =
      (covering sr.routingTable addr).argmax fun rt => (ntohl rt.mask).toNat := by
  rw [rtMatch, covering, List.argmax, List.foldl_filter]
  congr 1
  funext best curr
  by_cases hcov : Covers addr curr
  · have hstep : betterRoute addr best curr = List.argAux
        (fun b c => (ntohl c.mask).toNat < (ntohl b.mask).toNat) best curr := by
      unfold betterRoute
      cases best with
      | none => exact if_pos hcov
      | some b => exact if_pos hcov
    rw [hstep, if_pos (decide_eq_true hcov)]
  · have hstep : betterRoute addr best curr = best := by
      unfold betterRoute
      exact if_neg hcov
    rw [hstep, if_neg (by simp [hcov])]

/-! ## Masks -/

theorem ntohl_ntohl (x : UInt32) : ntohl (ntohl x) = x := by
  apply UInt32.toBitVec_inj.mp
  apply BitVec.eq_of_getLsbD_eq
  intro i hi
  rw [ntohl_getLsbD _ hi, ntohl_getLsbD _ (by omega)]
  congr 1
  omega

theorem mem_covering {table : List SrRt} {addr : UInt32} {rt : SrRt} :
    rt ∈ covering table addr ↔ rt ∈ table ∧ Covers addr rt := by
  simp [covering]

/-- The greater of two masks is the longer one. -/
theorem longer_iff {table : List SrRt} (hmasks : PrefixMasks table) {rt rt' : SrRt}
    (hrt : rt ∈ table) (hrt' : rt' ∈ table) :
    (ntohl rt.mask).toNat < (ntohl rt'.mask).toNat ↔ prefixLength rt < prefixLength rt' :=
  (hmasks rt hrt).lt_iff (hmasks rt' hrt')

/-- Two entries of one length that cover an address are for the same prefix. -/
theorem samePrefix_of_length {table : List SrRt} (hmasks : PrefixMasks table) {addr : UInt32}
    {rt rt' : SrRt} (hrt : rt ∈ covering table addr) (hrt' : rt' ∈ covering table addr)
    (hlen : prefixLength rt = prefixLength rt') : SamePrefix rt rt' := by
  obtain ⟨hmem, hcov⟩ := mem_covering.mp hrt
  obtain ⟨hmem', hcov'⟩ := mem_covering.mp hrt'
  have hhost : ntohl rt.mask = ntohl rt'.mask :=
    UInt32.toBitVec_inj.mp ((hmasks rt hmem).eq_of_cpop (hmasks rt' hmem') hlen)
  have hmask : rt.mask = rt'.mask := by
    rw [← ntohl_ntohl rt.mask, hhost, ntohl_ntohl]
  exact ⟨hmask, by rw [hcov, hcov', hmask]⟩

/-- What `rt_match` returns is an entry of the table. -/
theorem rtMatch_mem {sr : SrInstance} {addr : UInt32} {rt : SrRt}
    (h : rtMatch sr addr = some rt) : rt ∈ sr.routingTable := by
  rw [rtMatch_eq_argmax] at h
  exact (mem_covering.mp (List.argmax_mem h)).1

/-! ## The longest prefix -/

theorem rtMatch_none_iff (sr : SrInstance) (addr : UInt32) :
    rtMatch sr addr = none ↔ ∀ rt ∈ sr.routingTable, ¬ Covers addr rt := by
  rw [rtMatch_eq_argmax, List.argmax_eq_none, covering, List.filter_eq_nil_iff]
  simp

theorem rtMatch_some_iff {sr : SrInstance} (hmasks : PrefixMasks sr.routingTable) (addr : UInt32)
    (best : SrRt) :
    rtMatch sr addr = some best ↔
      FirstBest prefixLength (covering sr.routingTable addr) best := by
  have hsame : ∀ rt ∈ covering sr.routingTable addr, ∀ rt' ∈ covering sr.routingTable addr,
      (ntohl rt.mask).toNat < (ntohl rt'.mask).toNat ↔ prefixLength rt < prefixLength rt' :=
    fun rt hrt rt' hrt' => longer_iff hmasks (mem_covering.mp hrt).1 (mem_covering.mp hrt').1
  rw [rtMatch_eq_argmax, argmax_eq_some_iff_firstBest]
  constructor
  · exact FirstBest.congr hsame
  · exact FirstBest.congr fun rt hrt rt' hrt' => (hsame rt hrt rt' hrt').symm

/-- In a table without two entries for one prefix the order does not matter. -/
theorem rtMatch_perm {sr sr' : SrInstance} (hmasks : PrefixMasks sr.routingTable)
    (hdistinct : sr.routingTable.Pairwise fun rt rt' => ¬ SamePrefix rt rt')
    (hperm : sr'.routingTable.Perm sr.routingTable) (addr : UInt32) :
    rtMatch sr' addr = rtMatch sr addr := by
  have hmasks' : PrefixMasks sr'.routingTable := fun rt hrt => hmasks rt (hperm.mem_iff.mp hrt)
  have hcov : (covering sr.routingTable addr).Perm (covering sr'.routingTable addr) :=
    hperm.symm.filter _
  have hone : ∀ rt ∈ covering sr.routingTable addr, ∀ rt' ∈ covering sr.routingTable addr,
      prefixLength rt = prefixLength rt' → rt = rt' := by
    intro rt hrt rt' hrt' hlen
    by_contra hne
    have hsym : Std.Symm fun rt rt' : SrRt => ¬ SamePrefix rt rt' :=
      ⟨fun x y hxy hyx => hxy ⟨hyx.1.symm, hyx.2.symm⟩⟩
    exact hdistinct.forall (mem_covering.mp hrt).1 (mem_covering.mp hrt').1 hne
      (samePrefix_of_length hmasks hrt hrt' hlen)
  cases hbest : rtMatch sr addr with
  | none =>
    rw [rtMatch_none_iff] at hbest ⊢
    exact fun rt hrt => hbest rt (hperm.mem_iff.mp hrt)
  | some best =>
    cases hbest' : rtMatch sr' addr with
    | none =>
      -- the entry that covers the address is in both tables
      have hfirst := (rtMatch_some_iff hmasks addr best).mp hbest
      obtain ⟨hmem, hcovers⟩ := mem_covering.mp hfirst.mem
      exact absurd hcovers ((rtMatch_none_iff sr' addr).mp hbest' best (hperm.mem_iff.mpr hmem))
    | some best' =>
      have hfirst := (rtMatch_some_iff hmasks addr best).mp hbest
      have hfirst' := (rtMatch_some_iff hmasks' addr best').mp hbest'
      rw [hfirst.unique_of_perm hcov hone hfirst']

/-- **`rt_match` finds the longest prefix**: nothing if no entry covers the
address, else the first of the longest that do, whatever the order of a table
without two entries for one prefix. -/
theorem rtMatch_longest_prefix {sr : SrInstance} (hmasks : PrefixMasks sr.routingTable)
    (addr : UInt32) :
    (rtMatch sr addr = none ↔ ∀ rt ∈ sr.routingTable, ¬ Covers addr rt) ∧
    (∀ best, rtMatch sr addr = some best ↔
      FirstBest prefixLength (covering sr.routingTable addr) best) ∧
    ((sr.routingTable.Pairwise fun rt rt' => ¬ SamePrefix rt rt') →
      ∀ sr' : SrInstance, sr'.routingTable.Perm sr.routingTable →
        rtMatch sr' addr = rtMatch sr addr) :=
  ⟨rtMatch_none_iff sr addr, rtMatch_some_iff hmasks addr,
    fun hdistinct _ hperm => rtMatch_perm hmasks hdistinct hperm addr⟩

/-- `10.0.0.0/8`, `10.1.0.0/16` and a default route. -/
def threeRoutes : List SrRt :=
  [{ dest := 0, gw := 0x0700000a, mask := 0, interface := [0x65] },
   { dest := 0x0000010a, gw := 0x0100010a, mask := 0x0000ffff, interface := [0x66] },
   { dest := 0x0000000a, gw := 0x0100000a, mask := 0x000000ff, interface := [0x67] }]

/-- `10.1.2.3` lies in all three prefixes. -/
theorem threeRoutes_longest_prefix :
    FirstBest prefixLength (covering threeRoutes 0x0302010a)
      { dest := 0x0000010a, gw := 0x0100010a, mask := 0x0000ffff, interface := [0x66] } := by
  have hmasks : PrefixMasks threeRoutes := by
    intro rt hrt
    simp only [threeRoutes, List.mem_cons, List.not_mem_nil, or_false] at hrt
    rcases hrt with rfl | rfl | rfl
    · exact ⟨0, 32, rfl, by decide⟩
    · exact ⟨16, 16, rfl, by decide⟩
    · exact ⟨8, 24, rfl, by decide⟩
  let sr : SrInstance :=
    { ifList := [], routingTable := threeRoutes, heap := fun _ => 0, junkHop := 0 }
  have hbest := rtMatch_longest_prefix (show PrefixMasks sr.routingTable from hmasks) 0x0302010a
  exact (hbest.2.1 _).mp (by decide)

end UchiNetworks.Router
