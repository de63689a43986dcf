import Mathlib.Algebra.BigOperators.Group.List.Basic
import Mathlib.Algebra.Order.BigOperators.Group.List
import Mathlib.Data.List.Induction
import UchiNetworks.Lib.OnesComplement
import UchiNetworks.Stcp.NetworkIo

/-!
# STCP: the checksum of a packet

`tcp_sum.c`, as `stcp_network_send` and `stcp_network_recv` use it: the words of a
pseudo header and of the packet are added up, without that of `th_sum`, and the sum
is folded to 16 bits and inverted. The receiver does this once more and compares.

So a packet verifies exactly if its ones'-complement sum is right and `th_sum` is not
all ones (`verifies_iff`): what a sender has set verifies at the other end, and no
longer does once a word has changed (`checksum_detects`).

Mirroring notes vs the C:
- The host is little-endian: a word is read low byte first. An address is the
  `uint32_t` in host order, `word32` its bytes in memory.
- The sum is a number. Below 2^31 it is what the `int32_t` holds; a packet has at
  most `MAX_IP_PAYLOAD_LEN` bytes.
- An assertion that fails is `none`.
-/

namespace UchiNetworks.Stcp

open UchiNetworks.Lib

-- `offsetof(struct tcphdr, th_sum) >> 1`
def thSumWord : Nat := 8

/-- `pseudo_header`; 6 is `IPPROTO_TCP` -/
def pseudoHeader (src dst : BitVec 32) (len : Nat) : List UInt8 :=
  word32 src ++ word32 dst ++ [0, 6] ++ word16 (BitVec.ofNat 16 len)

/-- The last byte of a packet of odd length. -/
def oddByte (packet : List UInt8) : Nat :=
  if packet.length % 2 = 1 then (packet.getLast?.map UInt8.toNat).getD 0 else 0

/-- What the loops of `_mysock_tcp_checksum` add up. -/
def tcpSum (src dst : BitVec 32) (packet : List UInt8) : Nat :=
  (words16 (pseudoHeader src dst packet.length)).sum + ((words16 packet).eraseIdx thSumWord).sum
    + oddByte packet

/-- Fold a 32-bit sum to 16 bits and invert it. -/
def foldInvert (sum : Nat) : Nat :=
  let sum := sum / 65536 + sum % 65536
  let sum := sum + sum / 65536
  65535 - sum % 65536

/-- `_mysock_tcp_checksum` -/
def mysockTcpChecksum (src dst : BitVec 32) (packet : List UInt8) : Option Nat :=
  if packet.length < headerSize ∨ src = 0 ∨ dst = 0 then none
  else some (foldInvert (tcpSum src dst packet))

/-- `_mysock_set_checksum` between the addresses of this end and of the peer -/
def mysockSetChecksum (here peer : BitVec 32) (packet : List UInt8) : Option (List UInt8) := do
  let sum ← mysockTcpChecksum here peer packet
  Buffer.write packet (2 * thSumWord) [UInt8.ofNat sum, UInt8.ofNat (sum / 256)]

/-- `_mysock_verify_checksum` -/
def mysockVerifyChecksum (here peer : BitVec 32) (packet : List UInt8) : Option Bool := do
  let sum ← mysockTcpChecksum peer here packet
  let thSum ← (words16 packet)[thSumWord]?
  some (sum == thSum)

/-! ## The sum -/

/-- The inverted sum is what is missing to a multiple of 65535, and never all ones. -/
theorem foldInvert_spec {sum : Nat} (hpos : 0 < sum) (hsmall : sum < 2 ^ 31) :
    foldInvert sum < 65535 ∧ 65535 ∣ sum + foldInvert sum := by
  have hdiv := Nat.div_add_mod sum 65536
  have hlow := Nat.mod_lt sum (show 0 < 65536 by omega)
  have hhigh : sum / 65536 < 32768 := by omega
  unfold foldInvert
  dsimp only
  generalize sum / 65536 = high at *
  generalize sum % 65536 = low at *
  by_cases hcarry : high + low < 65536
  · rw [Nat.div_eq_of_lt hcarry, Nat.add_zero, Nat.mod_eq_of_lt hcarry]
    exact ⟨by omega, high + 1, by omega⟩
  · -- the first folding leaves a carry, the second one cannot
    have hone : (high + low) / 65536 = 1 := by omega
    have hmod : (high + low + 1) % 65536 = high + low + 1 - 65536 := by omega
    rw [hone, hmod]
    exact ⟨by omega, high + 2, by omega⟩

theorem pseudoHeader_length (src dst : BitVec 32) (len : Nat) :
    (pseudoHeader src dst len).length = 12 := rfl

/-- There is the protocol in it. -/
theorem pseudoHeader_pos (src dst : BitVec 32) (len : Nat) :
    0 < (words16 (pseudoHeader src dst len)).sum := by
  simp only [pseudoHeader, word32, word16, List.cons_append, List.nil_append, words16,
    List.sum_cons, List.sum_nil]
  have hproto : (6 : UInt8).toNat = 6 := rfl
  omega

theorem tcpSum_pos (src dst : BitVec 32) (packet : List UInt8) : 0 < tcpSum src dst packet := by
  have hpos := pseudoHeader_pos src dst packet.length
  unfold tcpSum
  omega

theorem sum_le_of_le {ws : List Nat} (h : ∀ w ∈ ws, w ≤ 65535) : ws.sum ≤ ws.length * 65535 :=
  List.sum_le_card_nsmul ws 65535 h

theorem padZero_sum (packet : List UInt8) :
    (words16 (padZero packet)).sum = (words16 packet).sum + oddByte packet := by
  unfold padZero oddByte
  by_cases heven : packet.length % 2 = 0
  · rw [if_pos heven, if_neg (by omega), Nat.add_zero]
  · rw [if_neg heven, if_pos (by omega)]
    cases packet using List.reverseRecOn with
    | nil => exact absurd rfl heven
    | append_singleton front last =>
      rw [List.length_append, List.length_singleton] at heven
      have hfront : front.length % 2 = 0 := by omega
      rw [List.append_assoc, words16_append _ hfront, words16_dropLast hfront, List.sum_append,
        List.getLast?_concat]
      simp [words16]

theorem padZero_append (src dst : BitVec 32) (len : Nat) (packet : List UInt8) :
    padZero (pseudoHeader src dst len ++ packet) = pseudoHeader src dst len ++ padZero packet := by
  have hparity : (pseudoHeader src dst len ++ packet).length % 2 = packet.length % 2 := by
    rw [List.length_append, pseudoHeader_length]
    omega
  unfold padZero
  rw [hparity]
  split
  · rfl
  · exact List.append_assoc _ _ _

/-- The words of both headers and of the data are those that were added up, and `th_sum`. -/
theorem words_sum {src dst : BitVec 32} {packet : List UInt8} {thSum : Nat}
    (hsum : (words16 packet)[thSumWord]? = some thSum) :
    (words16 (padZero (pseudoHeader src dst packet.length ++ packet))).sum
      = tcpSum src dst packet + thSum := by
  obtain ⟨hin, hget⟩ := List.getElem?_eq_some_iff.mp hsum
  have herase := List.CommMonoid.add_sum_eraseIdx hin
  rw [hget] at herase
  rw [padZero_append, words16_append _ (by rw [pseudoHeader_length]), List.sum_append, padZero_sum,
    tcpSum, ← herase]
  omega

theorem tcpSum_small (src dst : BitVec 32) {packet : List UInt8}
    (hmax : packet.length ≤ maxIpPayloadLen) : tcpSum src dst packet < 2 ^ 31 := by
  have hhead := sum_le_of_le (words16_le (pseudoHeader src dst packet.length))
  have hrest := @sum_le_of_le ((words16 packet).eraseIdx thSumWord)
    fun w hw => words16_le packet w (List.mem_of_mem_eraseIdx hw)
  have hodd : oddByte packet ≤ 65535 := by
    unfold oddByte
    split
    · cases packet.getLast? with
      | none => exact Nat.zero_le _
      | some last =>
        have hlt := last.toNat_lt
        show last.toNat ≤ 65535
        omega
    · exact Nat.zero_le _
  have hlen := (List.eraseIdx_sublist (words16 packet) thSumWord).length_le
  rw [words16_length] at hlen hhead
  rw [pseudoHeader_length] at hhead
  unfold maxIpPayloadLen at hmax
  unfold tcpSum
  have hmul : ((words16 packet).eraseIdx thSumWord).length * 65535 ≤ 750 * 65535 :=
    Nat.mul_le_mul_right _ (by omega)
  omega

theorem mysockTcpChecksum_eq {src dst : BitVec 32} {packet : List UInt8} (hsrc : src ≠ 0)
    (hdst : dst ≠ 0) (hmin : headerSize ≤ packet.length) :
    mysockTcpChecksum src dst packet = some (foldInvert (tcpSum src dst packet)) :=
  if_neg fun h => h.elim (Nat.not_lt.mpr hmin) fun h => h.elim hsrc hdst

/-- A packet with a whole header has a `th_sum`. -/
theorem exists_thSum {packet : List UInt8} (hmin : headerSize ≤ packet.length) :
    ∃ thSum, (words16 packet)[thSumWord]? = some thSum ∧ thSum ≤ 65535 := by
  have hin : thSumWord < (words16 packet).length := by
    rw [words16_length]
    unfold headerSize at hmin
    unfold thSumWord
    omega
  exact ⟨_, List.getElem?_eq_getElem hin, words16_le packet _ (List.getElem_mem hin)⟩

/-! ## What verifies -/

theorem mysockVerifyChecksum_eq {here peer : BitVec 32} {packet : List UInt8} {thSum : Nat}
    (hhere : here ≠ 0) (hpeer : peer ≠ 0) (hmin : headerSize ≤ packet.length)
    (hthSum : (words16 packet)[thSumWord]? = some thSum) :
    mysockVerifyChecksum here peer packet =
      some (foldInvert (tcpSum peer here packet) == thSum) := by
  rw [mysockVerifyChecksum, mysockTcpChecksum_eq hpeer hhere hmin, hthSum]
  rfl

theorem checks_of_verifies {here peer : BitVec 32} {packet : List UInt8} (hhere : here ≠ 0)
    (hpeer : peer ≠ 0) (hmin : headerSize ≤ packet.length)
    (hmax : packet.length ≤ maxIpPayloadLen)
    (h : mysockVerifyChecksum here peer packet = some true) :
    Checks (pseudoHeader peer here packet.length ++ packet) ∧
      (words16 packet)[thSumWord]? ≠ some 65535 := by
  obtain ⟨thSum, hthSum, -⟩ := exists_thSum hmin
  obtain ⟨hlt, hdvd⟩ := foldInvert_spec (tcpSum_pos peer here packet) (tcpSum_small peer here hmax)
  have hpos := tcpSum_pos peer here packet
  rw [mysockVerifyChecksum_eq hhere hpeer hmin hthSum] at h
  have heq : foldInvert (tcpSum peer here packet) = thSum := beq_iff_eq.mp (Option.some.inj h)
  rw [checks_iff, foldSum_eq_full (words16_le _), words_sum hthSum, hthSum, ← heq]
  simp only [ne_eq, Option.some_inj]
  exact ⟨⟨by omega, hdvd⟩, by omega⟩

/-- **A packet verifies** exactly if its ones'-complement sum, the pseudo header included,
is right and its `th_sum` is not all ones. -/
theorem verifies_iff {here peer : BitVec 32} {packet : List UInt8} (hhere : here ≠ 0)
    (hpeer : peer ≠ 0) (hmin : headerSize ≤ packet.length)
    (hmax : packet.length ≤ maxIpPayloadLen) :
    mysockVerifyChecksum here peer packet = some true ↔
      Checks (pseudoHeader peer here packet.length ++ packet) ∧
        (words16 packet)[thSumWord]? ≠ some 65535 := by
  refine ⟨checks_of_verifies hhere hpeer hmin hmax, fun hboth => ?_⟩
  obtain ⟨thSum, hthSum, hle⟩ := exists_thSum hmin
  obtain ⟨hlt, hdvd⟩ := foldInvert_spec (tcpSum_pos peer here packet) (tcpSum_small peer here hmax)
  rw [checks_iff, foldSum_eq_full (words16_le _), words_sum hthSum, hthSum] at hboth
  obtain ⟨⟨-, hfull⟩, hne⟩ := hboth
  rw [ne_eq, Option.some_inj] at hne
  rw [mysockVerifyChecksum_eq hhere hpeer hmin hthSum, Option.some_inj, beq_iff_eq]
  -- both complete the sum to a multiple of 65535, and both are below 65535
  generalize foldInvert (tcpSum peer here packet) = mySum at *
  generalize tcpSum peer here packet = sum at *
  omega

/-- A bare header from address 1 to address 2. -/
def bareHeader : List UInt8 := List.replicate 16 0 ++ [0xFF, 0xE2, 0, 0]

theorem verifies_iff_bareHeader :
    Checks (pseudoHeader 1 2 20 ++ bareHeader) ∧ (words16 bareHeader)[thSumWord]? ≠ some 65535 :=
  (@verifies_iff 2 1 bareHeader (by decide) (by decide) (by decide) (by decide)).mp rfl

/-! ## From one end to the other -/

/-- What `_mysock_set_checksum` leaves as it was. -/
theorem setChecksum_spec {here peer : BitVec 32} {packet sent : List UInt8}
    (hset : mysockSetChecksum here peer packet = some sent)
    (hmax : packet.length ≤ maxIpPayloadLen) :
    here ≠ 0 ∧ peer ≠ 0 ∧ headerSize ≤ packet.length ∧ sent.length = packet.length ∧
      tcpSum here peer sent = tcpSum here peer packet ∧
      (words16 sent)[thSumWord]? = some (foldInvert (tcpSum here peer packet)) := by
  obtain ⟨sum, hsum, hwrite⟩ := Option.bind_eq_some_iff.mp hset
  unfold mysockTcpChecksum at hsum
  split at hsum
  · cases hsum
  next hasserts =>
    rw [not_or, not_or, Nat.not_lt] at hasserts
    obtain ⟨hmin, hhere, hpeer⟩ := hasserts
    obtain rfl := Option.some.inj hsum
    obtain ⟨hlt, -⟩ := foldInvert_spec (tcpSum_pos here peer packet) (tcpSum_small here peer hmax)
    have hlen := Buffer.write_length hwrite
    have hwords := words16_write hwrite
    have hthSum : (UInt8.ofNat (foldInvert (tcpSum here peer packet))).toNat
        + 256 * (UInt8.ofNat (foldInvert (tcpSum here peer packet) / 256)).toNat
        = foldInvert (tcpSum here peer packet) := by
      rw [UInt8.toNat_ofNat', UInt8.toNat_ofNat']
      omega
    rw [hthSum] at hwords
    have hodd : oddByte sent = oddByte packet := by
      unfold headerSize at hmin
      rw [oddByte, oddByte, hlen, List.getLast?_eq_getElem?, List.getLast?_eq_getElem?, hlen,
        Buffer.write_outside hwrite (Or.inr (by simp [thSumWord]; omega))]
    obtain ⟨thSum, hin, -⟩ := exists_thSum hmin
    refine ⟨hhere, hpeer, hmin, hlen, ?_, ?_⟩
    · rw [tcpSum, tcpSum, hlen, hodd, hwords, List.eraseIdx_set_eq]
    · rw [hwords, List.getElem?_set_self (List.getElem?_eq_some_iff.mp hin).1]

/-- **What one end sends verifies at the other**, and not once a word of it has changed to
another one modulo 65535. The last byte of an odd packet is a word. -/
theorem checksum_detects {here peer : BitVec 32} {packet sent : List UInt8}
    (hset : mysockSetChecksum here peer packet = some sent)
    (hmax : packet.length ≤ maxIpPayloadLen) :
    mysockVerifyChecksum peer here sent = some true ∧
    ∀ (altered : List UInt8) (j old new : Nat), altered.length = sent.length →
      (words16 (padZero sent))[j]? = some old →
      words16 (padZero altered) = (words16 (padZero sent)).set j new →
      ¬ new ≡ old [MOD 65535] → mysockVerifyChecksum peer here altered = some false := by
  obtain ⟨hhere, hpeer, hmin, hlen, hsum, hthSum⟩ := setChecksum_spec hset hmax
  have hverifies : mysockVerifyChecksum peer here sent = some true := by
    rw [mysockVerifyChecksum, mysockTcpChecksum_eq hhere hpeer (by rw [hlen]; exact hmin), hsum,
      hthSum]
    exact congrArg some (beq_self_eq_true _)
  refine ⟨hverifies, fun altered j old new hsame hold hnew hne => ?_⟩
  have hminS : headerSize ≤ sent.length := by rw [hlen]; exact hmin
  have hmaxS : sent.length ≤ maxIpPayloadLen := by rw [hlen]; exact hmax
  have hmin' : headerSize ≤ altered.length := by rw [hsame]; exact hminS
  have hmax' : altered.length ≤ maxIpPayloadLen := by rw [hsame]; exact hmaxS
  obtain ⟨thSum, hthSum', -⟩ := exists_thSum hmin'
  -- it verifies or it does not
  have hcases : ∃ b, mysockVerifyChecksum peer here altered = some b := by
    rw [mysockVerifyChecksum, mysockTcpChecksum_eq hhere hpeer hmin', hthSum']
    exact ⟨_, rfl⟩
  obtain ⟨b, hb⟩ := hcases
  cases b with
  | false => exact hb
  | true =>
    have hchecks := (checks_of_verifies hpeer hhere hmin' hmax' hb).1
    have hchecksS := (checks_of_verifies hpeer hhere hminS hmaxS hverifies).1
    have heven : (pseudoHeader here peer sent.length).length % 2 = 0 := by
      rw [pseudoHeader_length]
    rw [checks_iff, padZero_append, hsame, words16_append _ heven, hnew] at hchecks
    rw [checks_iff, padZero_append, words16_append _ heven] at hchecksS
    have hwords : ∀ w ∈ words16 (pseudoHeader here peer sent.length) ++ words16 (padZero sent),
        w ≤ 65535 := by
      rw [← words16_append _ heven]
      exact words16_le _
    have hj : (words16 (pseudoHeader here peer sent.length) ++ words16 (padZero sent))[6 + j]?
        = some old := by
      rw [List.getElem?_append_right (Nat.le_add_right 6 j)]
      rw [← hold]
      congr 1
      exact Nat.add_sub_cancel_left 6 j
    have hnewle : new ≤ 65535 := by
      apply words16_le (padZero altered)
      rw [hnew]
      exact List.mem_of_getElem? (List.getElem?_set_self (List.getElem?_eq_some_iff.mp hold).1)
    apply absurd hchecks
    have hset' := foldSum_set_ne_full hwords hnewle hj hchecksS hne
    have hsix : (words16 (pseudoHeader here peer sent.length)).length = 6 := rfl
    rw [List.set_append_right _ _ (by rw [hsix]; exact Nat.le_add_right 6 j), hsix,
      Nat.add_sub_cancel_left] at hset'
    exact hset'

/-- A segment with one byte of data, that says which. -/
def oneByte (data : UInt8) : List UInt8 := List.replicate 16 0 ++ [0xF8, 0xE1, 0, 0, data]

theorem checksum_detects_oneByte :
    mysockVerifyChecksum 2 1 (oneByte 7) = some true ∧
      mysockVerifyChecksum 2 1 (oneByte 8) = some false := by
  have hset : mysockSetChecksum 1 2 (List.replicate 20 0 ++ [7]) = some (oneByte 7) := by decide
  obtain ⟨hverifies, hdetects⟩ := checksum_detects hset (by decide)
  exact ⟨hverifies, hdetects (oneByte 8) 10 7 8 (by decide) (by decide) (by decide) (by decide)⟩

end UchiNetworks.Stcp
