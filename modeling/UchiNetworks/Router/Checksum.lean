import UchiNetworks.Router.Header
import UchiNetworks.Router.Icmp

/-!
# What the IP checksum detects

`compute_ip_checksum` is used both ways: to fill `ip_sum` in, when the field was
zeroed before, and to check it, when it leaves the field 0. `HeaderAt` is the
header it works on, as the words it sums; everything here is about these words
(`ip_checksum`).
-/

namespace UchiNetworks.Router

open UchiNetworks.Lib

/-- The header that `compute_ip_checksum` sums: `4 * ip_hl` bytes from
`ip_header` on. -/
structure HeaderAt (f : FrameT) (ip hl : Nat) (header : Bytes) : Prop where
  place : f.ipHeader = some ip
  first : ∃ vhl, f.frame[ip]? = some vhl ∧ (vhl &&& 0x0f).toNat = hl
  bytes : Buffer.read f.frame ip (4 * hl) = some header

/-- `ip_sum` is 0. -/
def SumZero (f : FrameT) (ip : Nat) : Prop := Buffer.read f.frame (ip + 10) 2 = some [0, 0]

/-- Write the 16-bit word number `j` of the header. -/
def setWord (f : FrameT) (ip j word : Nat) : Res FrameT := do
  let frame ← getOr .bounds (Buffer.write f.frame (ip + 2 * j) (le16 word))
  .ok { f with frame := frame }

theorem le16_eq_zero {n : Nat} (h : n ≤ 65535) : le16 n = [0, 0] ↔ n = 0 := by
  constructor
  · intro heq
    simp only [le16, List.cons.injEq, and_true] at heq
    have h0 := congrArg UInt8.toNat heq.1
    have h1 := congrArg UInt8.toNat heq.2
    rw [UInt8.toNat_ofNat'] at h0 h1
    simp only [UInt8.toNat_ofNat] at h0 h1
    omega
  · intro hn
    subst hn
    rfl

/-! ## Words of the header -/

theorem HeaderAt.length {f : FrameT} {ip hl : Nat} {header : Bytes} (h : HeaderAt f ip hl header) :
    header.length = 4 * hl ∧ (words16 header).length = 2 * hl := by
  have hlen := Buffer.read_length h.bytes
  refine ⟨hlen, ?_⟩
  rw [words16_length]
  omega

theorem HeaderAt.sum {f : FrameT} {ip hl : Nat} {header : Bytes} (h : HeaderAt f ip hl header) :
    ipHeaderSum f.frame ip = some (foldSum (words16 header)) := by
  obtain ⟨vhl, hvhl, rfl⟩ := h.first
  simp only [ipHeaderSum, hvhl, Option.bind_eq_bind, Option.bind_some, h.bytes]

/-- A word other than the first is written. -/
theorem HeaderAt.setWord {f : FrameT} {ip hl : Nat} {header : Bytes}
    (h : HeaderAt f ip hl header) (j word : Nat) (hpos : 1 ≤ j) (hj : j < 2 * hl)
    (hword : word ≤ 65535) :
    ∃ g header', setWord f ip j word = .ok g ∧ HeaderAt g ip hl header' ∧
      words16 header' = (words16 header).set j word ∧
      Buffer.read g.frame (ip + 2 * j) 2 = some (le16 word) := by
  obtain ⟨hle, -⟩ := Buffer.read_eq h.bytes
  obtain ⟨frame, hframe⟩ := Buffer.write_of_le
    (show ip + 2 * j + (le16 word).length ≤ f.frame.length by rw [le16_length]; omega)
  have hread := Buffer.read_write_inside hframe h.bytes (by omega) (by rw [le16_length]; omega)
  rw [show ip + 2 * j - ip = 2 * j by omega] at hread
  obtain ⟨header', hheader'⟩ := Buffer.write_of_le
    (show 2 * j + (le16 word).length ≤ header.length by rw [le16_length, h.length.1]; omega)
  rw [hheader'] at hread
  have hwords : words16 header' = (words16 header).set j word := by
    rw [words16_write hheader', UInt8.toNat_ofNat', UInt8.toNat_ofNat']
    congr 1
    omega
  have hback := Buffer.read_write_same hframe
  rw [le16_length] at hback
  refine ⟨{ f with frame := frame }, header', by simp only [Router.setWord, hframe]; rfl,
    ⟨h.place, ?_, hread⟩, hwords, hback⟩
  obtain ⟨vhl, hvhl, hhl⟩ := h.first
  exact ⟨vhl, by rw [Buffer.write_outside hframe (by omega), hvhl], hhl⟩

/-- `compute_ip_checksum` writes the complement of the sum into word 5. -/
theorem HeaderAt.computeIpChecksum {f : FrameT} {ip hl : Nat} {header : Bytes}
    (h : HeaderAt f ip hl header) (hhl : 3 ≤ hl) :
    ∃ g header', computeIpChecksum f = .ok g ∧ HeaderAt g ip hl header' ∧
      words16 header' = (words16 header).set 5 (65535 - foldSum (words16 header)) ∧
      (SumZero g ip ↔ foldSum (words16 header) = 65535) := by
  obtain ⟨g, header', hset, hat, hwords, hread⟩ :=
    h.setWord 5 (65535 - foldSum (words16 header)) (by omega) (by omega) (by omega)
  refine ⟨g, header', ?_, hat, hwords, ?_⟩
  · -- the place is looked up in the record, not in what is written back to it
    have hplace : getOr Fault.null f.ipHeader = .ok ip := by rw [h.place, getOr_some]
    unfold Router.computeIpChecksum
    rw [hplace, ok_bind, h.sum, getOr_some, ok_bind]
    exact hset
  · have hle := foldSum_le (words16_le header)
    unfold SumZero
    rw [hread, Option.some.injEq, le16_eq_zero (by omega)]
    omega

/-- With the field zeroed the complement makes the header verify. -/
theorem HeaderAt.verifies_of_zero {f : FrameT} {ip hl : Nat} {header : Bytes}
    (h : HeaderAt f ip hl header) (hhl : 3 ≤ hl) (hzero : (words16 header)[5]? = some 0) :
    ∃ g header', Router.computeIpChecksum f = .ok g ∧ HeaderAt g ip hl header' ∧
      foldSum (words16 header') = 65535 := by
  obtain ⟨g, header', hg, hat, hwords, -⟩ := h.computeIpChecksum hhl
  refine ⟨g, header', hg, hat, ?_⟩
  rw [hwords]
  exact foldSum_set_complement (words16_le header) hzero

/-! ## The header the router makes -/

/-- `ip_header_create` writes a header of five words and fills its checksum in. -/
theorem ipHeaderCreate_eq {outgoing out : FrameT} (h : ipHeaderCreate outgoing = .ok out) :
    ∃ ip ipLen frame, outgoing.ipHeader = some ip ∧ outgoing.ipLen = some ipLen ∧
      Buffer.write outgoing.frame ip (ipHeaderBytes ipLen outgoing.fromIp outgoing.toIp)
        = some frame ∧
      HeaderAt { outgoing with frame := frame } ip 5
        (ipHeaderBytes ipLen outgoing.fromIp outgoing.toIp) ∧
      Router.computeIpChecksum { outgoing with frame := frame } = .ok out := by
  simp only [ipHeaderCreate, bind_ok, getOr_ok] at h
  obtain ⟨ip, hip, ipLen, hlen, frame, hframe, hout⟩ := h
  have hread := Buffer.read_write_same hframe
  refine ⟨ip, ipLen, frame, hip, hlen, hframe, ⟨hip, ⟨0x45, ?_, by decide⟩, hread⟩, hout⟩
  have := Buffer.write_inside hframe (Nat.le_refl ip) (by rw [ipHeaderBytes_length]; omega)
  rw [Nat.sub_self] at this
  exact this

/-- **The checksum.** Filled in on a zeroed field it verifies; on any header it
verifies exactly when the words add up to a multiple of 65535 other than 0; and
a header that verifies does so no more when a word after the first is replaced
by one that is not the same modulo 65535. A header the router makes verifies. -/
theorem ip_checksum {f : FrameT} {ip hl : Nat} {header : Bytes} (h : HeaderAt f ip hl header)
    (hhl : 5 ≤ hl) :
    (∃ zeroed filled checked, setWord f ip 5 0 = .ok zeroed ∧
      computeIpChecksum zeroed = .ok filled ∧ computeIpChecksum filled = .ok checked ∧
      SumZero checked ip) ∧
    (∃ checked, computeIpChecksum f = .ok checked ∧
      (SumZero checked ip ↔ (words16 header).sum ≠ 0 ∧ 65535 ∣ (words16 header).sum)) ∧
    (∀ checked, computeIpChecksum f = .ok checked → SumZero checked ip →
      ∀ j old word, 1 ≤ j → (words16 header)[j]? = some old → word ≤ 65535 →
        ¬ word ≡ old [MOD 65535] →
        ∃ changed checked', setWord f ip j word = .ok changed ∧
          computeIpChecksum changed = .ok checked' ∧ ¬ SumZero checked' ip) ∧
    (∀ outgoing made, ipHeaderCreate outgoing = .ok made →
      ∃ place checked, made.ipHeader = some place ∧ computeIpChecksum made = .ok checked ∧
        SumZero checked place) := by
  refine ⟨?_, ?_, ?_, ?_⟩
  · obtain ⟨zeroed, header₀, hzeroed, hat, hwords, -⟩ :=
      h.setWord 5 0 (by omega) (by omega) (by omega)
    have hfield : (words16 header₀)[5]? = some 0 := by
      rw [hwords, List.getElem?_set_self (by rw [h.length.2]; omega)]
    obtain ⟨filled, header₁, hfilled, hat₁, hfull⟩ := hat.verifies_of_zero (by omega) hfield
    obtain ⟨checked, -, hchecked, -, -, hzero⟩ := hat₁.computeIpChecksum (by omega)
    exact ⟨zeroed, filled, checked, hzeroed, hfilled, hchecked, hzero.mpr hfull⟩
  · obtain ⟨checked, -, hchecked, -, -, hzero⟩ := h.computeIpChecksum (by omega)
    exact ⟨checked, hchecked, hzero.trans (foldSum_eq_full (words16_le header))⟩
  · intro checked hchecked hsum j old word hpos hold hword hne
    obtain ⟨_, -, hchecked', -, -, hzero⟩ := h.computeIpChecksum (by omega)
    obtain rfl := Except.ok.inj (hchecked'.symm.trans hchecked)
    have hj : j < 2 * hl := by
      rw [← h.length.2]
      exact (List.getElem?_eq_some_iff.mp hold).1
    obtain ⟨changed, header', hchanged, hat, hwords, -⟩ := h.setWord j word hpos hj hword
    obtain ⟨checked', -, hchecked', -, -, hzero'⟩ := hat.computeIpChecksum (by omega)
    refine ⟨changed, checked', hchanged, hchecked', ?_⟩
    rw [hzero', hwords]
    exact foldSum_set_ne_full (words16_le header) hword hold (hzero.mp hsum) hne
  · intro outgoing made hmade
    obtain ⟨place, ipLen, frame, -, -, -, hat, hout⟩ := ipHeaderCreate_eq hmade
    obtain ⟨_, header', hout', hat', hfull⟩ := hat.verifies_of_zero (by omega) (by rfl)
    obtain rfl := Except.ok.inj (hout'.symm.trans hout)
    obtain ⟨checked, -, hchecked, -, -, hzero⟩ := hat'.computeIpChecksum (by omega)
    exact ⟨place, checked, hat'.place, hchecked, hzero.mpr hfull⟩

/-- A header of five words with its checksum, as a frame of its own. -/
def plainHeader : FrameT :=
  { frame := [69, 0, 0, 28, 0, 0, 0, 0, 64, 17, 99, 196, 10, 0, 1, 9, 10, 0, 2, 5]
    ipHeader := some 0
    arpHeader := none
    icmpHeader := none
    fromMAC := ⟨[2, 0, 0, 0, 0, 9], rfl⟩
    toMAC := none
    fromIp := 0
    toIp := 0
    iface := none
    ipHl := 20
    ipLen := some 28 }

/-- It verifies, and does so no more with another TTL. -/
theorem plainHeader_checksum :
    (∃ checked, computeIpChecksum plainHeader = .ok checked ∧ SumZero checked 0) ∧
    ∃ changed checked, setWord plainHeader 0 4 0x1141 = .ok changed ∧
      computeIpChecksum changed = .ok checked ∧ ¬ SumZero checked 0 := by
  have hat : HeaderAt plainHeader 0 5 plainHeader.frame :=
    ⟨rfl, ⟨69, rfl, by decide⟩, by decide⟩
  obtain ⟨-, ⟨checked, hchecked, hiff⟩, hdetect, -⟩ := ip_checksum hat (by omega)
  have hzero : SumZero checked 0 := hiff.mpr (by decide +kernel)
  exact ⟨⟨checked, hchecked, hzero⟩,
    hdetect checked hchecked hzero 4 0x1140 0x1141 (by omega) (by decide +kernel) (by omega)
      (by decide)⟩

end UchiNetworks.Router
