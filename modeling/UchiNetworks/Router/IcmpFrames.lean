import UchiNetworks.Router.Checksum
import UchiNetworks.Router.Invariant

/-!
# The frames the router makes up, byte for byte

`generate_icmp_echo` and `generate_icmp_error` fill a frame in piece by piece:
the ICMP message and its checksum, the IP header and its checksum, the two
hardware addresses. A frame here is these pieces one after the other, and each
function of the C replaces one of them (`computeIcmpChecksum_of`,
`ipHeaderCreate_of`, `encapsulate_of`).

Behind an IP header without options the pieces meet. `icmpError_iff` says what
comes of it for an ICMP error, for every packet.
-/

namespace UchiNetworks.Router

open UchiNetworks.Lib

/-! ## The pieces -/

/-- The Ethernet header of an IP frame. -/
def ethernetIp (dst src : Mac) : Bytes := dst.val ++ src.val ++ be16 etherTypeIP

/-- The IP header `ip_header_create` makes, with its checksum. -/
def ipHeaderFilled (ipLen : Nat) (src dst : UInt32) : Bytes :=
  [0x45, 0] ++ be16 ipLen ++ [0, 0, 0, 0, initTtl, ipProtoICMP] ++
    le16 (65535 - foldSum (words16 (ipHeaderBytes ipLen src dst))) ++ le32 src ++ le32 dst

/-- The ICMP message of a type and a code, with its checksum. -/
def icmpFilled (icmpType icmpCode : UInt8) (rest : Bytes) : Bytes :=
  [icmpType, icmpCode] ++
    le16 (65535 - foldSum (words16 ([icmpType, icmpCode, 0, 0] ++ rest))) ++ rest

theorem ethernetIp_length (dst src : Mac) : (ethernetIp dst src).length = etherSize := by
  simp only [ethernetIp, List.length_append, dst.property, src.property, be16_length]
  rfl

theorem ipHeaderFilled_length (ipLen : Nat) (src dst : UInt32) :
    (ipHeaderFilled ipLen src dst).length = ipHdrLen := rfl

theorem icmpFilled_length (icmpType icmpCode : UInt8) (rest : Bytes) :
    (icmpFilled icmpType icmpCode rest).length = 4 + rest.length := by
  simp only [icmpFilled, List.length_append, List.length_cons, List.length_nil, le16_length]

/-- The header verifies. -/
theorem ipHeaderFilled_full (ipLen : Nat) (src dst : UInt32) :
    foldSum (words16 (ipHeaderFilled ipLen src dst)) = 65535 := by
  have hwords : words16 (ipHeaderFilled ipLen src dst)
      = (words16 (ipHeaderBytes ipLen src dst)).set 5
          (65535 - foldSum (words16 (ipHeaderBytes ipLen src dst))) := by
    have hwrite : Buffer.write (ipHeaderBytes ipLen src dst) (2 * 5)
        (le16 (65535 - foldSum (words16 (ipHeaderBytes ipLen src dst))))
          = some (ipHeaderFilled ipLen src dst) := rfl
    rw [words16_write hwrite, UInt8.toNat_ofNat', UInt8.toNat_ofNat']
    congr 1
    omega
  rw [hwords]
  exact foldSum_set_complement (words16_le _) rfl

/-- So does the sum over the words of the message. -/
theorem icmpFilled_full (icmpType icmpCode : UInt8) (rest : Bytes) :
    foldSum (words16 (icmpFilled icmpType icmpCode rest)) = 65535 := by
  have hwrite : Buffer.write ([icmpType, icmpCode, 0, 0] ++ rest) (2 * 1)
      (le16 (65535 - foldSum (words16 ([icmpType, icmpCode, 0, 0] ++ rest))))
        = some (icmpFilled icmpType icmpCode rest) :=
    Buffer.write_append [icmpType, icmpCode] [0, 0] _ rest rfl rfl
  have hwords : words16 (icmpFilled icmpType icmpCode rest)
      = (words16 ([icmpType, icmpCode, 0, 0] ++ rest)).set 1
          (65535 - foldSum (words16 ([icmpType, icmpCode, 0, 0] ++ rest))) := by
    rw [words16_write hwrite, UInt8.toNat_ofNat', UInt8.toNat_ofNat']
    congr 1
    omega
  rw [hwords]
  exact foldSum_set_complement (words16_le _) rfl

/-- The message verifies if its sum has all of it. -/
theorem icmpFilled_checks (icmpType icmpCode : UInt8) (rest : Bytes) :
    Checks (icmpFilled icmpType icmpCode rest) ↔ Summed rest := by
  rw [(checks_summed _).2 (icmpFilled_full icmpType icmpCode rest), icmpFilled]
  exact summed_append (by simp) rest

theorem readU32_of_getElem? {buf : Bytes} {off : Nat} {x : UInt32}
    (h : ∀ i < 4, buf[off + i]? = (le32 x)[i]?) : readU32 buf off = some x := by
  have h0 := h 0 (by omega)
  have h1 := h 1 (by omega)
  have h2 := h 2 (by omega)
  have h3 := h 3 (by omega)
  simp only [le32, Nat.add_zero, List.getElem?_cons_zero, List.getElem?_cons_succ] at h0 h1 h2 h3
  simp only [readU32, h0, h1, h2, h3, Option.bind_eq_bind, Option.bind_some]
  rw [join_le32]

theorem readBe16_of_getElem? {buf : Bytes} {off n : Nat} (hn : n < 65536)
    (h0 : buf[off]? = (be16 n)[0]?) (h1 : buf[off + 1]? = (be16 n)[1]?) :
    readBe16 buf off = some n := by
  simp only [be16, List.getElem?_cons_zero, List.getElem?_cons_succ] at h0 h1
  simp only [readBe16, h0, h1, Option.bind_eq_bind, Option.bind_some, UInt8.toNat_ofNat']
  congr 1
  omega

/-- The two hardware addresses at the start of a frame. -/
theorem readMac_ethernetIp (dst src : Mac) (rest : Bytes) :
    readMac (ethernetIp dst src ++ rest) 0 = some dst ∧
      readMac (ethernetIp dst src ++ rest) 6 = some src := by
  have hassoc : ethernetIp dst src ++ rest = dst.val ++ (src.val ++ (be16 etherTypeIP ++ rest)) := by
    simp only [ethernetIp, List.append_assoc]
  rw [hassoc]
  exact ⟨readMac_of_read (Buffer.read_append [] _ _ rfl dst.property.symm),
    readMac_of_read (Buffer.read_append _ _ _ dst.property.symm src.property.symm)⟩

/-- And the type behind them. -/
theorem readBe16_ethernetIp (dst src : Mac) (rest : Bytes) :
    readBe16 (ethernetIp dst src ++ rest) 12 = some etherTypeIP := by
  have hlen : (dst.val ++ src.val).length = 12 := by
    rw [List.length_append, dst.property, src.property]
  have hget : ∀ i < 2, (ethernetIp dst src ++ rest)[12 + i]? = (be16 etherTypeIP)[i]? := by
    intro i hi
    rw [ethernetIp, List.append_assoc, List.getElem?_append_right (by omega), hlen,
      Nat.add_sub_cancel_left, List.getElem?_append_left (by rw [be16_length]; exact hi)]
  exact readBe16_of_getElem? (by decide) (hget 0 (by omega)) (hget 1 (by omega))

/-! ## The functions that fill them in -/

/-- An odd last byte has no part in the words. -/
theorem words16_take (bytes : Bytes) :
    words16 (bytes.take (2 * (bytes.length / 2))) = words16 bytes := by
  have heven : (bytes.take (2 * (bytes.length / 2))).length % 2 = 0 := by
    rw [List.length_take]
    omega
  have hsplit := words16_append (bytes.drop (2 * (bytes.length / 2))) heven
  have hrest : words16 (bytes.drop (2 * (bytes.length / 2))) = [] := by
    apply List.eq_nil_of_length_eq_zero
    rw [words16_length, List.length_drop]
    omega
  rw [List.take_append_drop, hrest, List.append_nil] at hsplit
  exact hsplit.symm

/-- `compute_icmp_checksum` on the message `msg`. -/
theorem computeIcmpChecksum_of {f : FrameT} {front rest tail : Bytes} {ipLen : Nat}
    {icmpType icmpCode s0 s1 : UInt8}
    (hframe : f.frame = front ++ (([icmpType, icmpCode, s0, s1] ++ rest) ++ tail))
    (hicmp : f.icmpHeader = some front.length) (hlen : f.ipLen = some ipLen)
    (hmsg : ipLen = f.ipHl + (4 + rest.length)) :
    computeIcmpChecksum f =
      .ok { f with
            frame := front ++ (([icmpType, icmpCode] ++
              le16 (65535 - foldSum (words16 ([icmpType, icmpCode, s0, s1] ++ rest))) ++ rest) ++
              tail) } := by
  have hsub : ipLen - f.ipHl = ([icmpType, icmpCode, s0, s1] ++ rest).length := by
    rw [List.length_append, hmsg]
    simp only [List.length_cons, List.length_nil]
    omega
  have hread : Buffer.read f.frame front.length ([icmpType, icmpCode, s0, s1] ++ rest).length
      = some ([icmpType, icmpCode, s0, s1] ++ rest) := by
    rw [hframe]
    exact Buffer.read_append _ _ _ rfl rfl
  have hwrite : ∀ n, Buffer.write f.frame (front.length + 2) (le16 n)
      = some (front ++ (([icmpType, icmpCode] ++ le16 n ++ rest) ++ tail)) := by
    intro n
    have h := Buffer.write_append (front ++ [icmpType, icmpCode]) [s0, s1] (le16 n) (rest ++ tail)
      (show front.length + 2 = (front ++ [icmpType, icmpCode]).length by simp) rfl
    simp only [List.append_assoc, List.cons_append, List.nil_append] at h ⊢
    rw [hframe]
    simpa only [List.append_assoc, List.cons_append, List.nil_append] using h
  have hpos : ¬ ([icmpType, icmpCode, s0, s1] ++ rest).length = 0 := by simp
  unfold computeIcmpChecksum
  rw [hicmp, getOr_some, ok_bind, hlen, getOr_some, ok_bind, if_neg (by omega), hsub]
  dsimp only
  rw [if_neg hpos, hread, getOr_some, ok_bind, words16_take, hwrite, getOr_some, ok_bind]

/-- `compute_ip_checksum` on a header of five words with the field zeroed. -/
theorem computeIpChecksum_of {f : FrameT} {front rest : Bytes} {ipLen : Nat} {src dst : UInt32}
    (hframe : f.frame = front ++ (ipHeaderBytes ipLen src dst ++ rest))
    (hip : f.ipHeader = some front.length) :
    computeIpChecksum f =
      .ok { f with frame := front ++ (ipHeaderFilled ipLen src dst ++ rest) } := by
  have hvhl : f.frame[front.length]? = some 0x45 := by
    rw [hframe, List.getElem?_append_right (Nat.le_refl _), Nat.sub_self]
    rfl
  have hread : Buffer.read f.frame front.length 20 = some (ipHeaderBytes ipLen src dst) := by
    rw [hframe]
    exact Buffer.read_append _ _ _ rfl rfl
  have hsum : ipHeaderSum f.frame front.length
      = some (foldSum (words16 (ipHeaderBytes ipLen src dst))) := by
    simp only [ipHeaderSum, hvhl, Option.bind_eq_bind, Option.bind_some]
    rw [show 4 * ((0x45 : UInt8) &&& 0x0f).toNat = 20 by decide, hread]
    rfl
  have hwrite : ∀ n, Buffer.write f.frame (front.length + 10) (le16 n)
      = some (front ++ (((ipHeaderBytes ipLen src dst).take 10 ++ le16 n ++
          (le32 src ++ le32 dst)) ++ rest)) := by
    intro n
    have hplace : front.length + 10
        = (front ++ (ipHeaderBytes ipLen src dst).take 10).length := by
      rw [List.length_append]
      rfl
    have h := Buffer.write_append (front ++ (ipHeaderBytes ipLen src dst).take 10) [0, 0] (le16 n)
      ((le32 src ++ le32 dst) ++ rest) hplace rfl
    have hbytes : ipHeaderBytes ipLen src dst
        = (ipHeaderBytes ipLen src dst).take 10 ++ ([0, 0] ++ (le32 src ++ le32 dst)) := rfl
    rw [hframe, hbytes]
    simp only [List.append_assoc] at h ⊢
    exact h
  unfold computeIpChecksum
  rw [hip, getOr_some, ok_bind, hsum, getOr_some, ok_bind, hwrite, getOr_some, ok_bind]
  rfl

/-- `ip_header_create` over 20 bytes. -/
theorem ipHeaderCreate_of {f : FrameT} {front old rest : Bytes} {ipLen : Nat}
    (hframe : f.frame = front ++ (old ++ rest)) (hold : old.length = ipHdrLen)
    (hip : f.ipHeader = some front.length) (hlen : f.ipLen = some ipLen) :
    ipHeaderCreate f =
      .ok { f with frame := front ++ (ipHeaderFilled ipLen f.fromIp f.toIp ++ rest) } := by
  have hwrite : Buffer.write f.frame front.length (ipHeaderBytes ipLen f.fromIp f.toIp)
      = some (front ++ (ipHeaderBytes ipLen f.fromIp f.toIp ++ rest)) := by
    rw [hframe]
    exact Buffer.write_append _ _ _ _ rfl hold.symm
  have hplace : getOr Fault.assertion f.ipHeader = .ok front.length := by rw [hip, getOr_some]
  have hipLen : getOr Fault.unset f.ipLen = .ok ipLen := by rw [hlen, getOr_some]
  unfold ipHeaderCreate
  rw [hplace, ok_bind, hipLen, ok_bind]
  rw [hwrite, getOr_some, ok_bind]
  exact computeIpChecksum_of (f := { f with frame := _ }) rfl hip

/-- `encapsulate` over 14 bytes. -/
theorem encapsulate_of {f : FrameT} {old rest : Bytes} {toMAC : Mac}
    (hframe : f.frame = old ++ rest) (hold : old.length = etherSize)
    (hto : f.toMAC = some toMAC) :
    encapsulate f =
      .ok { f with
            frame := toMAC.val ++ f.fromMAC.val ++
              be16 (if f.ipHeader.isSome then etherTypeIP else etherTypeARP) ++ rest } := by
  have hmac : getOr Fault.unset f.toMAC = .ok toMAC := by rw [hto, getOr_some]
  have hdst := toMAC.property
  have hsrc := f.fromMAC.property
  unfold etherSize at hold
  -- the 14 bytes are the two addresses and the type
  obtain ⟨a, b, c, ha, hb, hc, rfl⟩ : ∃ a b c : Bytes, a.length = 6 ∧ b.length = 6 ∧
      c.length = 2 ∧ old = a ++ b ++ c := by
    refine ⟨old.take 6, (old.drop 6).take 6, (old.drop 6).drop 6, ?_, ?_, ?_, ?_⟩
    · rw [List.length_take]
      omega
    · rw [List.length_take, List.length_drop]
      omega
    · rw [List.length_drop, List.length_drop]
      omega
    · rw [List.append_assoc, List.take_append_drop, List.take_append_drop]
  have h1 : Buffer.write f.frame 6 f.fromMAC.val = some (a ++ (f.fromMAC.val ++ (c ++ rest))) := by
    rw [hframe, List.append_assoc, List.append_assoc]
    exact Buffer.write_append _ _ _ _ ha.symm (hsrc.trans hb.symm)
  have h2 : Buffer.write (a ++ (f.fromMAC.val ++ (c ++ rest))) 0 toMAC.val
      = some (toMAC.val ++ (f.fromMAC.val ++ (c ++ rest))) :=
    Buffer.write_append [] _ _ _ rfl (hdst.trans ha.symm)
  have h3 : ∀ n, Buffer.write (toMAC.val ++ (f.fromMAC.val ++ (c ++ rest))) 12 (be16 n)
      = some (toMAC.val ++ f.fromMAC.val ++ be16 n ++ rest) := by
    intro n
    rw [← List.append_assoc, List.append_assoc _ (be16 n)]
    exact Buffer.write_append _ _ _ _ (by rw [List.length_append, hdst, hsrc]) hc.symm
  unfold encapsulate
  rw [hmac, ok_bind, h1, getOr_some, ok_bind, h2, getOr_some, ok_bind, h3, getOr_some, ok_bind]

/-! ## The ICMP error -/

/-- A well-formed IP packet of `total` bytes, as `create_frame_t` reads it. -/
structure WellFormed (f : FrameT) (total : Nat) : Prop where
  place : f.ipHeader = some etherSize
  header : ∃ vhl, f.frame[etherSize]? = some vhl ∧ vhl >>> 4 = 4 ∧
    f.ipHl = 4 * (vhl &&& 0x0f).toNat
  ipHl : ipHdrLen ≤ f.ipHl
  ipLen : f.ipLen = some total
  lenField : readBe16 f.frame (etherSize + 2) = some total
  fits : f.ipHl ≤ total ∧ etherSize + total ≤ f.frame.length
  dhost : f.toMAC.isSome

/-- What an ICMP error quotes: the IP header and the first 8 bytes behind it, or
all of a shorter packet. -/
def quoted (f : FrameT) (total : Nat) : Bytes :=
  (f.frame.drop etherSize).take (min total (f.ipHl + 8))

/-- An ICMP error of this type and code that quotes `quote`. -/
structure IcmpError (icmpType icmpCode : UInt8) (quote frame : Bytes) : Prop where
  length : ∃ ipLen, readBe16 frame (etherSize + 2) = some ipLen ∧
    frame.length = etherSize + ipLen
  header : frame[etherSize]? = some 0x45 ∧ frame[etherSize + 9]? = some ipProtoICMP
  icmp : frame[etherSize + ipHdrLen]? = some icmpType ∧
    frame[etherSize + ipHdrLen + 1]? = some icmpCode
  quotes : frame.drop (etherSize + ipHdrLen + icmpHdrLen) = quote
  verifies : Verifies frame
  checks : Checks (frame.drop (etherSize + ipHdrLen))

/-- The frame of an ICMP error, piece by piece. -/
def icmpErrorBytes (dst src : Mac) (fromIp toIp : UInt32) (icmpType icmpCode : UInt8)
    (quote : Bytes) : Bytes :=
  ethernetIp dst src ++ (ipHeaderFilled (ipHdrLen + icmpHdrLen + quote.length) fromIp toIp ++
    icmpFilled icmpType icmpCode ([0, 0, 0, 0] ++ quote))

theorem exists_split {l : Bytes} {n : Nat} (h : n ≤ l.length) :
    ∃ a b, a.length = n ∧ l = a ++ b :=
  ⟨l.take n, l.drop n, by rw [List.length_take]; omega, (List.take_append_drop n l).symm⟩

theorem WellFormed.quoted_length {f : FrameT} {total : Nat} (h : WellFormed f total) :
    (quoted f total).length = min total (f.ipHl + 8) := by
  have hfits := h.fits
  rw [quoted, List.length_take, List.length_drop]
  omega

theorem WellFormed.quoted_read {f : FrameT} {total : Nat} (h : WellFormed f total) :
    Buffer.read f.frame etherSize (quoted f total).length = some (quoted f total) := by
  have hfits := h.fits
  rw [h.quoted_length, Buffer.read_of_le (by omega)]
  rfl

/-- The length that `generate_icmp_error` decides on. -/
theorem WellFormed.dataLen {f : FrameT} {total : Nat} (h : WellFormed f total) :
    (if f.ipHl ≤ total ∧ total - f.ipHl < 8 then total else f.ipHl + 8)
      = (quoted f total).length := by
  have hfits := h.fits
  rw [h.quoted_length]
  split <;> omega

/-- Behind a header without options everything fits. -/
theorem generateIcmpError_of {f : FrameT} {total : Nat} {dhost : Mac} (h : WellFormed f total)
    (hplain : f.ipHl = ipHdrLen) (hto : f.toMAC = some dhost) (sr : SrInstance)
    (icmpType icmpCode : UInt8) :
    generateIcmpError sr f icmpType icmpCode =
      .ok { frame := icmpErrorBytes f.fromMAC dhost f.toIp f.fromIp icmpType icmpCode
              (quoted f total)
            ipHeader := some etherSize
            arpHeader := none
            icmpHeader := some (etherSize + ipHdrLen)
            fromMAC := dhost
            toMAC := some f.fromMAC
            fromIp := f.toIp
            toIp := f.fromIp
            iface := f.iface
            ipHl := ipHdrLen
            ipLen := some (ipHdrLen + icmpHdrLen + (quoted f total).length) } := by
  have hquote := h.quoted_read
  -- the fresh frame in four pieces
  obtain ⟨eth, rest, heth, hfresh⟩ := exists_split (l := (List.range
    (etherSize + ipHdrLen + icmpHdrLen + (quoted f total).length)).map sr.heap) (n := etherSize)
    (by rw [List.length_map, List.length_range]; omega)
  have hlen := congrArg List.length hfresh
  rw [List.length_map, List.length_range, List.length_append, heth] at hlen
  obtain ⟨iph, rest, hiph, rfl⟩ := exists_split (l := rest) (n := ipHdrLen) (by omega)
  rw [List.length_append, hiph] at hlen
  obtain ⟨icmp, data, hicmp, rfl⟩ := exists_split (l := rest) (n := icmpHdrLen) (by omega)
  rw [List.length_append, hicmp] at hlen
  have hw1 : Buffer.write (eth ++ (iph ++ (icmp ++ data))) (etherSize + ipHdrLen)
      [icmpType, icmpCode, 0, 0, 0, 0, 0, 0]
      = some ((eth ++ iph) ++ ([icmpType, icmpCode, 0, 0, 0, 0, 0, 0] ++ data)) := by
    rw [← List.append_assoc]
    exact Buffer.write_append _ _ _ _ (by rw [List.length_append, heth, hiph]) hicmp.symm
  have hw2 : Buffer.write ((eth ++ iph) ++ ([icmpType, icmpCode, 0, 0, 0, 0, 0, 0] ++ data))
      (etherSize + ipHdrLen + icmpHdrLen) (quoted f total)
      = some ((eth ++ iph) ++ (([icmpType, icmpCode, 0, 0] ++ ([0, 0, 0, 0] ++ quoted f total)) ++
          [])) := by
    have hplace : etherSize + ipHdrLen + icmpHdrLen
        = ((eth ++ iph) ++ [icmpType, icmpCode, 0, 0, 0, 0, 0, 0]).length := by
      rw [List.length_append, List.length_append, heth, hiph]
      rfl
    have hw := Buffer.write_append ((eth ++ iph) ++ [icmpType, icmpCode, 0, 0, 0, 0, 0, 0]) data
      (quoted f total) [] hplace (by omega)
    rw [List.append_nil, List.append_assoc] at hw
    rw [hw, List.append_assoc]
    rfl
  have hmac : getOr Fault.unset f.toMAC = .ok dhost := by rw [hto, getOr_some]
  have htotal : getOr Fault.unset f.ipLen = .ok total := by rw [h.ipLen, getOr_some]
  have hplace : getOr Fault.null f.ipHeader = .ok etherSize := by rw [h.place, getOr_some]
  unfold generateIcmpError
  rw [hmac, ok_bind, htotal, ok_bind, hplace, ok_bind]
  dsimp only
  rw [h.dataLen, hplain, hfresh, hw1, getOr_some, ok_bind, hquote, getOr_some, ok_bind, hw2,
    getOr_some, ok_bind]
  have hipLen : etherSize + ipHdrLen + icmpHdrLen + (quoted f total).length - etherSize
      = ipHdrLen + icmpHdrLen + (quoted f total).length := by omega
  have hmsg : ipHdrLen + icmpHdrLen + (quoted f total).length
      = ipHdrLen + (4 + ([0, 0, 0, 0] ++ quoted f total).length) := by
    unfold icmpHdrLen
    simp only [List.length_append, List.length_cons, List.length_nil]
    omega
  rw [hipLen, computeIcmpChecksum_of rfl (by rw [List.length_append, heth, hiph]) rfl hmsg, ok_bind,
    List.append_nil, List.append_assoc,
    ipHeaderCreate_of rfl hiph (show _ = some eth.length by rw [heth]) rfl, ok_bind]
  exact encapsulate_of rfl heth rfl

/-- Behind a header with options the message is moved back, and its end lies
outside of the frame that was allocated. -/
theorem generateIcmpError_options {f : FrameT} {total : Nat} (h : WellFormed f total)
    (hopt : ipHdrLen < f.ipHl) (sr : SrInstance) (icmpType icmpCode : UInt8) :
    generateIcmpError sr f icmpType icmpCode = .error .bounds := by
  obtain ⟨dhost, hto⟩ := Option.isSome_iff_exists.mp h.dhost
  have hmac : getOr Fault.unset f.toMAC = .ok dhost := by rw [hto, getOr_some]
  have htotal : getOr Fault.unset f.ipLen = .ok total := by rw [h.ipLen, getOr_some]
  have hplace : getOr Fault.null f.ipHeader = .ok etherSize := by rw [h.place, getOr_some]
  unfold generateIcmpError
  rw [hmac, ok_bind, htotal, ok_bind, hplace, ok_bind]
  dsimp only
  rw [h.dataLen]
  cases hw1 : Buffer.write ((List.range (etherSize + ipHdrLen + icmpHdrLen +
      (quoted f total).length)).map sr.heap) (etherSize + f.ipHl)
      [icmpType, icmpCode, 0, 0, 0, 0, 0, 0] with
  | none => rfl
  | some frame =>
    have hlen := Buffer.write_length hw1
    rw [List.length_map, List.length_range] at hlen
    have hw2 : Buffer.write frame (etherSize + f.ipHl + icmpHdrLen) (quoted f total) = none :=
      Buffer.write_none (by omega)
    rw [getOr_some, ok_bind, h.quoted_read, getOr_some, ok_bind, hw2]
    rfl

/-- The header verifies where it lies in a frame. -/
theorem verifies_of_header {eth rest : Bytes} (heth : eth.length = etherSize) (ipLen : Nat)
    (src dst : UInt32) : Verifies (eth ++ (ipHeaderFilled ipLen src dst ++ rest)) := by
  have hvhl : (eth ++ (ipHeaderFilled ipLen src dst ++ rest))[etherSize]? = some 0x45 := by
    rw [List.getElem?_append_right (by omega), heth, Nat.sub_self]
    rfl
  have hread : Buffer.read (eth ++ (ipHeaderFilled ipLen src dst ++ rest)) etherSize 20
      = some (ipHeaderFilled ipLen src dst) := Buffer.read_append _ _ _ heth.symm rfl
  unfold Verifies ipHeaderSum
  simp only [hvhl, Option.bind_eq_bind, Option.bind_some]
  rw [show 4 * ((0x45 : UInt8) &&& 0x0f).toNat = 20 by decide, hread, Option.bind_some,
    ipHeaderFilled_full]

/-- The bytes of the header where it lies in a frame. -/
theorem getElem?_header {eth rest : Bytes} (heth : eth.length = etherSize) (ipLen : Nat)
    (src dst : UInt32) {i : Nat} (hi : i < ipHdrLen) :
    (eth ++ (ipHeaderFilled ipLen src dst ++ rest))[etherSize + i]?
      = (ipHeaderFilled ipLen src dst)[i]? := by
  rw [List.getElem?_append_right (by omega), heth, Nat.add_sub_cancel_left,
    List.getElem?_append_left (by rw [ipHeaderFilled_length]; exact hi)]

/-- The two addresses in it. -/
theorem readU32_header {eth : Bytes} (heth : eth.length = etherSize) (rest : Bytes) (ipLen : Nat)
    (src dst : UInt32) :
    readU32 (eth ++ (ipHeaderFilled ipLen src dst ++ rest)) (etherSize + 12) = some src ∧
      readU32 (eth ++ (ipHeaderFilled ipLen src dst ++ rest)) (etherSize + 16) = some dst := by
  constructor
  · refine readU32_of_getElem? fun i hi => ?_
    rw [Nat.add_assoc, getElem?_header heth _ _ _ (by unfold ipHdrLen; omega)]
    obtain rfl | rfl | rfl | rfl : i = 0 ∨ i = 1 ∨ i = 2 ∨ i = 3 := by omega
    all_goals rfl
  · refine readU32_of_getElem? fun i hi => ?_
    rw [Nat.add_assoc, getElem?_header heth _ _ _ (by unfold ipHdrLen; omega)]
    obtain rfl | rfl | rfl | rfl : i = 0 ∨ i = 1 ∨ i = 2 ∨ i = 3 := by omega
    all_goals rfl

/-- An IP frame of the router: the addresses in it, and an IP header without
options before an ICMP message. -/
structure OwnFrame (dst src : Mac) (fromIp toIp : UInt32) (frame : Bytes) : Prop where
  macs : readMac frame 0 = some dst ∧ readMac frame 6 = some src
  etherType : readBe16 frame 12 = some etherTypeIP
  header : frame[etherSize]? = some 0x45 ∧ frame[etherSize + 9]? = some ipProtoICMP
  ips : readU32 frame (etherSize + 12) = some fromIp ∧ readU32 frame (etherSize + 16) = some toIp

/-- Whatever is behind the header. -/
theorem ownFrame_of (dst src : Mac) (ipLen : Nat) (fromIp toIp : UInt32) (rest : Bytes) :
    OwnFrame dst src fromIp toIp
      (ethernetIp dst src ++ (ipHeaderFilled ipLen fromIp toIp ++ rest)) := by
  have heth := ethernetIp_length dst src
  exact
    { macs := readMac_ethernetIp dst src _
      etherType := readBe16_ethernetIp dst src _
      header := ⟨getElem?_header (i := 0) heth ipLen fromIp toIp (by decide),
        getElem?_header (i := 9) heth ipLen fromIp toIp (by decide)⟩
      ips := readU32_header heth _ ipLen fromIp toIp }

/-- Every part of the frame is as it should be but for one: the ICMP checksum
covers an even number of bytes only. -/
theorem icmpErrorBytes_iff {dst src : Mac} {fromIp toIp : UInt32} {icmpType icmpCode : UInt8}
    {quote : Bytes} (hlen : ipHdrLen + icmpHdrLen + quote.length < 65536) :
    IcmpError icmpType icmpCode quote
        (icmpErrorBytes dst src fromIp toIp icmpType icmpCode quote) ↔ Summed quote := by
  have heth := ethernetIp_length dst src
  have hdrop : (icmpErrorBytes dst src fromIp toIp icmpType icmpCode quote).drop etherSize
      = ipHeaderFilled (ipHdrLen + icmpHdrLen + quote.length) fromIp toIp ++
          icmpFilled icmpType icmpCode ([0, 0, 0, 0] ++ quote) := List.drop_left' heth
  have hget : ∀ i, (icmpErrorBytes dst src fromIp toIp icmpType icmpCode quote)[etherSize + i]?
      = (ipHeaderFilled (ipHdrLen + icmpHdrLen + quote.length) fromIp toIp ++
          icmpFilled icmpType icmpCode ([0, 0, 0, 0] ++ quote))[i]? := by
    intro i
    rw [← hdrop, List.getElem?_drop]
  have hmsg : (icmpErrorBytes dst src fromIp toIp icmpType icmpCode quote).drop
      (etherSize + ipHdrLen) = icmpFilled icmpType icmpCode ([0, 0, 0, 0] ++ quote) := by
    rw [← List.drop_drop, hdrop]
    rfl
  have hchecks : Checks ((icmpErrorBytes dst src fromIp toIp icmpType icmpCode quote).drop
      (etherSize + ipHdrLen)) ↔ Summed quote := by
    rw [hmsg, icmpFilled_checks]
    exact summed_append rfl quote
  constructor
  · intro h
    exact hchecks.mp h.checks
  · intro h
    refine ⟨⟨ipHdrLen + icmpHdrLen + quote.length, ?_, ?_⟩, ⟨hget 0, hget 9⟩,
      ⟨hget 20, hget 21⟩, ?_, verifies_of_header heth _ _ _, hchecks.mpr h⟩
    · exact readBe16_of_getElem? hlen (hget 2) (hget 3)
    · rw [icmpErrorBytes, List.length_append, List.length_append, heth, ipHeaderFilled_length,
        icmpFilled_length, List.length_append]
      unfold icmpHdrLen
      simp only [List.length_cons, List.length_nil]
      omega
    · rw [← List.drop_drop, hmsg]
      rfl

/-- Its type and code. -/
theorem icmpErrorBytes_icmp {dst src : Mac} {fromIp toIp : UInt32} {icmpType icmpCode : UInt8}
    {quote : Bytes} :
    (icmpErrorBytes dst src fromIp toIp icmpType icmpCode quote)[etherSize + ipHdrLen]?
        = some icmpType ∧
      (icmpErrorBytes dst src fromIp toIp icmpType icmpCode quote)[etherSize + ipHdrLen + 1]?
        = some icmpCode := by
  have hdrop : (icmpErrorBytes dst src fromIp toIp icmpType icmpCode quote).drop etherSize
      = ipHeaderFilled (ipHdrLen + icmpHdrLen + quote.length) fromIp toIp ++
          icmpFilled icmpType icmpCode ([0, 0, 0, 0] ++ quote) :=
    List.drop_left' (ethernetIp_length dst src)
  rw [← List.getElem?_drop, Nat.add_assoc, ← List.getElem?_drop, hdrop]
  exact ⟨rfl, rfl⟩

/-- **An ICMP error is well formed** exactly when the packet has no IP options
and quotes an even number of bytes, or one whose last is 0: for every packet,
type and code. -/
theorem icmpError_iff {f : FrameT} {total : Nat} (h : WellFormed f total) (sr : SrInstance)
    (icmpType icmpCode : UInt8) :
    (∃ out, generateIcmpError sr f icmpType icmpCode = .ok out ∧
        IcmpError icmpType icmpCode (quoted f total) out.frame) ↔
      f.ipHl = ipHdrLen ∧ Summed (quoted f total) := by
  obtain ⟨dhost, hto⟩ := Option.isSome_iff_exists.mp h.dhost
  have hquote := h.quoted_length
  constructor
  · intro hout
    obtain ⟨out, hout, hgood⟩ := hout
    have hplain : f.ipHl = ipHdrLen := by
      have hmin := h.ipHl
      rcases Nat.lt_or_eq_of_le hmin with hlt | heq
      · rw [generateIcmpError_options h hlt] at hout
        cases hout
      · exact heq.symm
    rw [generateIcmpError_of h hplain hto] at hout
    obtain rfl := Except.ok.inj hout
    unfold ipHdrLen at hplain
    exact ⟨hplain, (icmpErrorBytes_iff (by unfold ipHdrLen icmpHdrLen; omega)).mp hgood⟩
  · intro hcond
    obtain ⟨hplain, hsummed⟩ := hcond
    have hbound : ipHdrLen + icmpHdrLen + (quoted f total).length < 65536 := by
      unfold ipHdrLen at hplain
      unfold ipHdrLen icmpHdrLen
      omega
    exact ⟨_, generateIcmpError_of h hplain hto sr icmpType icmpCode,
      (icmpErrorBytes_iff hbound).mpr hsummed⟩

/-- A frame that holds an IP packet, as `create_frame_t` reads it. -/
def ipFrame (frame : Bytes) (ipHl ipLen : Nat) : FrameT :=
  { frame := frame
    ipHeader := some etherSize
    arpHeader := none
    icmpHeader := none
    fromMAC := plainHeader.fromMAC
    toMAC := gatewayRouter.ifList.head?.map SrIf.addr
    fromIp := 0x0901000a
    toIp := 0x0502000a
    iface := none
    ipHl := ipHl
    ipLen := some ipLen }

/-- The error about a datagram without options. -/
theorem datagram_icmpError :
    ∃ out, generateIcmpError gatewayRouter (ipFrame (datagramTo 5 196) 20 28) 11 0 = .ok out ∧
      IcmpError 11 0 (quoted (ipFrame (datagramTo 5 196) 20 28) 28) out.frame :=
  (icmpError_iff
    { place := rfl, header := ⟨69, rfl, by decide, by decide⟩, ipHl := by decide, ipLen := rfl,
      lenField := by decide, fits := by decide, dhost := rfl }
    gatewayRouter 11 0).mpr ⟨rfl, by decide⟩

/-- The same datagram with one word of IP options. -/
def datagramWithOption : Bytes :=
  [2, 0, 0, 0, 0, 1, 2, 0, 0, 0, 0, 9, 8, 0, 70, 0, 0, 32, 0, 0, 0, 0, 64, 17, 96, 190,
    10, 0, 1, 9, 10, 0, 2, 5, 1, 1, 1, 1, 1, 2, 3, 4, 5, 6, 7, 8]

/-- It is well formed, and writing the error about it runs past the frame. -/
theorem option_icmpError :
    WellFormed (ipFrame datagramWithOption 24 32) 32 ∧ Verifies datagramWithOption ∧
    ¬ ∃ out, generateIcmpError gatewayRouter (ipFrame datagramWithOption 24 32) 11 0 = .ok out ∧
      IcmpError 11 0 (quoted (ipFrame datagramWithOption 24 32) 32) out.frame := by
  have hwf : WellFormed (ipFrame datagramWithOption 24 32) 32 :=
    { place := rfl, header := ⟨70, rfl, by decide, by decide⟩, ipHl := by decide, ipLen := rfl,
      lenField := by decide, fits := by decide, dhost := rfl }
  refine ⟨hwf, by decide +kernel, ?_⟩
  intro h
  obtain ⟨out, hout, -⟩ := h
  rw [generateIcmpError_options hwf (by decide)] at hout
  cases hout

end UchiNetworks.Router
