import UchiNetworks.Router.Frame

/-!
# What forwarding does to a frame

`update_ip_hdr` takes one off the TTL and computes a new checksum;
`encapsulate` then writes the two hardware addresses. `Forwarded` says what the
frame handed to `sr_send_packet` has to look like, byte for byte, and
`forwarded_of_update` that the two functions together make it so. Whether a
frame went through the queue in between makes no difference to them.
-/

namespace UchiNetworks.Router

open UchiNetworks.Lib

/-- The header's words sum to `0xffff`, so `compute_ip_checksum` leaves 0. -/
def Verifies (frame : Bytes) : Prop := ipHeaderSum frame etherSize = some 65535

instance (frame : Bytes) : Decidable (Verifies frame) :=
  inferInstanceAs (Decidable (_ = _))

/-- `after` is `before` with one off the TTL and a checksum that verifies. -/
structure TtlTaken (before after : Bytes) : Prop where
  length : after.length = before.length
  other : ∀ i, i ≠ 22 → i ≠ 24 → i ≠ 25 → after[i]? = before[i]?
  ttl : ∃ t, before[22]? = some t ∧ after[22]? = some (t - 1)
  verifies : Verifies after

/-- `after` is `before` as it leaves on an interface with address `src` towards
the hardware address `dst`. -/
structure Forwarded (src dst : Mac) (before after : Bytes) : Prop where
  length : after.length = before.length
  other : ∀ i, 12 ≤ i → i ≠ 22 → i ≠ 24 → i ≠ 25 → after[i]? = before[i]?
  dhost : readMac after 0 = some dst
  shost : readMac after 6 = some src
  ttl : ∃ t, before[22]? = some t ∧ after[22]? = some (t - 1)
  verifies : Verifies after

/-! ## The checksum -/

theorem ipHeaderSum_eq {frame : Bytes} {ip sum : Nat} (h : ipHeaderSum frame ip = some sum) :
    ∃ vhl header, frame[ip]? = some vhl ∧
      Buffer.read frame ip (4 * (vhl &&& 0x0f).toNat) = some header ∧
      sum = foldSum (words16 header) := by
  simp only [ipHeaderSum, Option.bind_eq_bind, Option.bind_eq_some_iff, Option.some.injEq] at h
  obtain ⟨vhl, hvhl, header, hheader, hsum⟩ := h
  exact ⟨vhl, header, hvhl, hheader, hsum.symm⟩

theorem ipHeaderSum_le {frame : Bytes} {ip sum : Nat} (h : ipHeaderSum frame ip = some sum) :
    sum ≤ 65535 := by
  obtain ⟨vhl, header, -, -, rfl⟩ := ipHeaderSum_eq h
  exact foldSum_le (words16_le header)

@[simp] theorem le16_length (n : Nat) : (le16 n).length = 2 := rfl

@[simp] theorem be16_length (n : Nat) : (be16 n).length = 2 := rfl

theorem words16_le16 {n : Nat} (h : n ≤ 65535) (back : Bytes) :
    words16 (le16 n ++ back) = n :: words16 back := by
  simp only [le16, List.cons_append, List.nil_append, words16, UInt8.toNat_ofNat']
  congr 1
  omega

/-- With the field zeroed before the sum was taken, the complement verifies,
wherever the header ends, as long as the field lies inside it. -/
theorem ipHeaderSum_complement {g final : Bytes} {ip sum : Nat} {vhl : UInt8}
    (h0 : g[ip + 10]? = some 0) (h1 : g[ip + 11]? = some 0) (hsum : ipHeaderSum g ip = some sum)
    (hvhl : g[ip]? = some vhl) (hin : 3 ≤ (vhl &&& 0x0f).toNat)
    (hw : Buffer.write g (ip + 10) (le16 (65535 - sum)) = some final) :
    ipHeaderSum final ip = some 65535 := by
  obtain ⟨vhl', header, hvhl', hheader, rfl⟩ := ipHeaderSum_eq hsum
  obtain rfl : vhl = vhl' := Option.some.inj (hvhl.symm.trans hvhl')
  have hlen := Buffer.read_length hheader
  -- the header is five words, the field, and the rest
  have hsplit : header = header.take 10 ++ (le16 0 ++ header.drop 12) := by
    have hd : header.drop 10 = 0 :: 0 :: header.drop 12 := by
      rw [List.drop_eq_getElem_cons (by omega), List.drop_eq_getElem_cons (by omega)]
      have e0 : header[10]? = some 0 := by rw [Buffer.read_getElem? hheader (by omega), h0]
      have e1 : header[11]? = some 0 := by
        rw [Buffer.read_getElem? hheader (by omega)]
        exact h1
      rw [List.getElem?_eq_getElem (by omega), Option.some.injEq] at e0 e1
      rw [e0, e1]
    calc header = header.take 10 ++ header.drop 10 := (List.take_append_drop 10 header).symm
      _ = header.take 10 ++ (le16 0 ++ header.drop 12) := by rw [hd]; rfl
  have htake : (header.take 10).length % 2 = 0 := by rw [List.length_take]; omega
  have hwords : words16 header = words16 (header.take 10) ++ 0 :: words16 (header.drop 12) := by
    rw [← words16_le16 (by omega) (header.drop 12), ← words16_append _ htake, ← hsplit]
  -- and after the write it is the same with the complement in the field
  have hnew := Buffer.read_write_inside hw hheader (by omega) (by rw [le16_length]; omega)
  have hpiece : Buffer.write header (ip + 10 - ip) (le16 (65535 - foldSum (words16 header)))
      = some (header.take 10 ++
          (le16 (65535 - foldSum (words16 header)) ++ header.drop 12)) := by
    rw [Nat.add_sub_cancel_left]
    simp only [Buffer.write]
    rw [if_pos (by rw [le16_length]; omega)]
    rfl
  have hsame : final[ip]? = some vhl := by
    rw [Buffer.write_outside hw (by omega), hvhl]
  have hwords' : words16 (header.take 10 ++
      (le16 (65535 - foldSum (words16 header)) ++ header.drop 12))
      = words16 (header.take 10) ++
          (65535 - foldSum (words16 header)) :: words16 (header.drop 12) := by
    rw [words16_append _ htake, words16_le16 (by omega)]
  simp only [ipHeaderSum, hsame, Option.bind_eq_bind, Option.bind_some, hnew, hpiece, hwords']
  rw [hwords, foldSum_complement (words16_le _) (words16_le _)]

/-- The sum depends on the header only. -/
theorem ipHeaderSum_congr {f g : Bytes} {ip sum : Nat} {vhl : UInt8} (hf : f[ip]? = some vhl)
    (hsum : ipHeaderSum f ip = some sum) (hlen : g.length = f.length)
    (hsame : ∀ i, ip ≤ i → i < ip + max 1 (4 * (vhl &&& 0x0f).toNat) → g[i]? = f[i]?) :
    ipHeaderSum g ip = some sum := by
  obtain ⟨vhl', header, hvhl', hheader, rfl⟩ := ipHeaderSum_eq hsum
  obtain rfl : vhl = vhl' := Option.some.inj (hf.symm.trans hvhl')
  have hg : g[ip]? = some vhl := by rw [hsame ip (by omega) (by omega), hf]
  have hread : Buffer.read g ip (4 * (vhl &&& 0x0f).toNat) = some header := by
    obtain ⟨hle, rfl⟩ := Buffer.read_eq hheader
    rw [Buffer.read_of_le (by omega)]
    congr 1
    apply List.ext_getElem?
    intro i
    by_cases hi : i < 4 * (vhl &&& 0x0f).toNat
    · rw [List.getElem?_take_of_lt hi, List.getElem?_take_of_lt hi, List.getElem?_drop,
        List.getElem?_drop, hsame _ (by omega) (by omega)]
    · rw [List.getElem?_eq_none (by rw [List.length_take]; omega),
        List.getElem?_eq_none (by rw [List.length_take]; omega)]
  simp only [ipHeaderSum, hg, Option.bind_eq_bind, Option.bind_some, hread]

/-! ## `compute_ip_checksum`, `update_ip_hdr`, `encapsulate` -/

theorem computeIpChecksum_eq {f f' : FrameT} (h : computeIpChecksum f = .ok f') :
    ∃ ip sum frame, f.ipHeader = some ip ∧ ipHeaderSum f.frame ip = some sum ∧
      Buffer.write f.frame (ip + 10) (le16 (65535 - sum)) = some frame ∧
      f' = { f with frame := frame } := by
  simp only [computeIpChecksum, bind_ok, getOr_ok, Except.ok.injEq] at h
  obtain ⟨ip, hip, sum, hsum, frame, hframe, hf⟩ := h
  exact ⟨ip, sum, frame, hip, hsum, hframe, hf.symm⟩

/-- The record `update_ip_hdr` fills in, up to the frame's bytes. -/
structure Outgoing (sr : SrInstance) (incoming outgoing : FrameT) (hop : UInt32) : Prop where
  route : ∃ rt iface, rtMatch sr incoming.toIp = some rt ∧ rt.gw = hop ∧
    getInterface sr rt.interface = some iface ∧ outgoing.iface = some iface ∧
    outgoing.fromMAC = iface.addr
  toIp : outgoing.toIp = incoming.toIp
  ipHeader : outgoing.ipHeader = some etherSize

theorem updateIpHdr_spec {sr : SrInstance} {incoming outgoing : FrameT} {hop : UInt32}
    (h : updateIpHdr sr incoming = .ok (outgoing, hop)) (hv : Verifies incoming.frame) :
    Outgoing sr incoming outgoing hop ∧ TtlTaken incoming.frame outgoing.frame := by
  simp only [updateIpHdr, bind_ok, getOr_ok] at h
  obtain ⟨rt, hrt, iface, hiface, g1, hg1, ttl, httl, g2, hg2, g3, hg3, out, hout, heq⟩ := h
  simp only [Except.ok.injEq, Prod.mk.injEq] at heq
  obtain ⟨rfl, rfl⟩ := heq
  obtain ⟨ip, sum, final, hip, hsum, hfinal, rfl⟩ := computeIpChecksum_eq hout
  obtain rfl : ip = etherSize := (Option.some.inj hip).symm
  refine ⟨⟨⟨rt, iface, hrt, rfl, hiface, rfl, rfl⟩, rfl, rfl⟩, ?_⟩
  simp only at hsum hfinal
  -- three writes: the checksum field zeroed, the TTL, the zero again
  have hother : ∀ i, i ≠ 22 → i ≠ 24 → i ≠ 25 → g3[i]? = incoming.frame[i]? := by
    intro i h22 h24 h25
    rw [Buffer.write_outside hg3 (by simp [etherSize]; omega),
      Buffer.write_outside hg2 (by simp [etherSize]; omega),
      Buffer.write_outside hg1 (by simp [etherSize]; omega)]
  have hg3len : g3.length = incoming.frame.length := by
    rw [Buffer.write_length hg3, Buffer.write_length hg2, Buffer.write_length hg1]
  obtain ⟨vhl, header, hvhl, hheader, -⟩ := ipHeaderSum_eq hv
  have hvhl3 : g3[etherSize]? = some vhl := by
    rw [hother etherSize (by decide) (by decide) (by decide), hvhl]
  constructor
  · show final.length = _
    rw [Buffer.write_length hfinal, hg3len]
  · intro i h22 h24 h25
    show final[i]? = _
    rw [Buffer.write_outside hfinal (by simp [etherSize, le16]; omega), hother i h22 h24 h25]
  · refine ⟨ttl, ?_, ?_⟩
    · rw [← Buffer.write_outside hg1 (show 22 < etherSize + 10 ∨ _ by simp [etherSize])]
      exact httl
    · show final[22]? = _
      rw [Buffer.write_outside hfinal (by simp [etherSize, le16]),
        Buffer.write_outside hg3 (by simp [etherSize]),
        Buffer.write_inside hg2 (by simp [etherSize]) (by simp [etherSize])]
      simp [etherSize]
  · show ipHeaderSum final etherSize = some 65535
    by_cases hin : 3 ≤ (vhl &&& 0x0f).toNat
    · have h0 : g3[etherSize + 10]? = some 0 := by
        rw [Buffer.write_inside hg3 (by omega) (by simp)]
        simp
      have h1 : g3[etherSize + 11]? = some 0 := by
        rw [Buffer.write_inside hg3 (by omega) (by simp)]
        simp
      exact ipHeaderSum_complement h0 h1 hsum hvhl3 hin hfinal
    · -- a header of two words or less: the sum never reached the fields that changed
      apply ipHeaderSum_congr hvhl hv
      · rw [Buffer.write_length hfinal, hg3len]
      · intro i hlo hhi
        have hi : i < 22 := by
          have : etherSize = 14 := rfl
          omega
        rw [Buffer.write_outside hfinal (by simp [etherSize]; omega),
          hother i (by omega) (by omega) (by omega)]

theorem readMac_of_read {buf : Bytes} {off : Nat} {mac : Mac}
    (hread : Buffer.read buf off 6 = some mac.val) : readMac buf off = some mac := by
  simp only [readMac]
  split
  next bytes hb =>
    rw [hread] at hb
    exact congrArg some (Subtype.ext (Option.some.inj hb).symm)
  next hb =>
    rw [hread] at hb
    cases hb

theorem encapsulate_eq {f f' : FrameT} (h : encapsulate f = .ok f') :
    ∃ toMAC frame, f.toMAC = some toMAC ∧ f' = { f with frame := frame } ∧
      frame.length = f.frame.length ∧ readMac frame 0 = some toMAC ∧
      readMac frame 6 = some f.fromMAC ∧
      (∀ i, 12 ≤ i → i ≠ 12 → i ≠ 13 → frame[i]? = f.frame[i]?) ∧
      Buffer.read frame 12 2
        = some (be16 (if f.ipHeader.isSome then etherTypeIP else etherTypeARP)) := by
  simp only [encapsulate, bind_ok, getOr_ok, Except.ok.injEq] at h
  obtain ⟨toMAC, hto, g1, hg1, g2, hg2, g3, hg3, hf⟩ := h
  have hsrc := f.fromMAC.property
  have hdst := toMAC.property
  refine ⟨toMAC, g3, hto, hf.symm, ?_, ?_, ?_, ?_, ?_⟩
  · rw [Buffer.write_length hg3, Buffer.write_length hg2, Buffer.write_length hg1]
  · have hread : Buffer.read g3 0 6 = some toMAC.val := by
      rw [Buffer.read_write_outside hg3 (by omega)]
      have := Buffer.read_write_same hg2
      rwa [hdst] at this
    exact readMac_of_read hread
  · have hread : Buffer.read g3 6 6 = some f.fromMAC.val := by
      rw [Buffer.read_write_outside hg3 (by omega), Buffer.read_write_outside hg2 (by omega)]
      have := Buffer.read_write_same hg1
      rwa [hsrc] at this
    exact readMac_of_read hread
  · intro i h12 hne12 hne13
    rw [Buffer.write_outside hg3 (by rw [be16_length]; omega), Buffer.write_outside hg2 (by omega),
      Buffer.write_outside hg1 (by omega)]
  · have := Buffer.read_write_same hg3
    rwa [be16_length] at this

theorem readBe16_eq {buf : Bytes} {off n : Nat} (h : readBe16 buf off = some n) :
    ∃ hi lo, buf[off]? = some hi ∧ buf[off + 1]? = some lo ∧ n = 256 * hi.toNat + lo.toNat := by
  simp only [readBe16, Option.bind_eq_bind, Option.bind_eq_some_iff, Option.some.injEq] at h
  obtain ⟨hi, hhi, lo, hlo, hn⟩ := h
  exact ⟨hi, lo, hhi, hlo, hn.symm⟩

theorem be16_of_readBe16 {buf : Bytes} {off n : Nat} (h : readBe16 buf off = some n) (i : Nat)
    (hi : i < 2) : (be16 n)[i]? = buf[off + i]? := by
  obtain ⟨b1, b0, h1, h0, rfl⟩ := readBe16_eq h
  have := b1.toNat_lt
  have := b0.toNat_lt
  have e1 : UInt8.ofNat ((256 * b1.toNat + b0.toNat) / 256) = b1 := by
    rw [show (256 * b1.toNat + b0.toNat) / 256 = b1.toNat by omega, UInt8.ofNat_toNat]
  have e0 : UInt8.ofNat (256 * b1.toNat + b0.toNat) = b0 := by
    apply UInt8.toNat_inj.mp
    rw [UInt8.toNat_ofNat']
    omega
  match i, hi with
  | 0, _ => simp [be16, e1, h1]
  | 1, _ => simp [be16, e0, h0]

theorem readMac_of_le {buf : Bytes} {off : Nat} (h : off + 6 ≤ buf.length) :
    ∃ mac, readMac buf off = some mac := by
  simp only [readMac]
  split
  next bytes hread => exact ⟨_, rfl⟩
  next hread =>
    rw [Buffer.read_of_le h] at hread
    cases hread

theorem getElem?_of_lt {buf : Bytes} {i : Nat} (h : i < buf.length) : ∃ b, buf[i]? = some b :=
  ⟨buf[i], List.getElem?_eq_getElem h⟩

theorem readBe16_of_lt {buf : Bytes} {off : Nat} (h : off + 1 < buf.length) :
    ∃ n, readBe16 buf off = some n := by
  obtain ⟨b1, h1⟩ := getElem?_of_lt (show off < buf.length by omega)
  obtain ⟨b0, h0⟩ := getElem?_of_lt h
  simp [readBe16, h1, h0]

theorem readU32_of_lt {buf : Bytes} {off : Nat} (h : off + 3 < buf.length) :
    ∃ n, readU32 buf off = some n := by
  obtain ⟨a, ha⟩ := getElem?_of_lt (show off < buf.length by omega)
  obtain ⟨b, hb⟩ := getElem?_of_lt (show off + 1 < buf.length by omega)
  obtain ⟨c, hc⟩ := getElem?_of_lt (show off + 2 < buf.length by omega)
  obtain ⟨d, hd⟩ := getElem?_of_lt h
  simp [readU32, ha, hb, hc, hd]

/-- **What leaves is the frame that came in, forwarded.** -/
theorem forwarded_of_update {incoming outgoing sent : FrameT} {src dst : Mac}
    (htype : readBe16 incoming.frame 12 = some etherTypeIP)
    (hupd : TtlTaken incoming.frame outgoing.frame) (hip : outgoing.ipHeader = some etherSize)
    (henc : encapsulate { outgoing with fromMAC := src, toMAC := some dst } = .ok sent) :
    Forwarded src dst incoming.frame sent.frame := by
  obtain ⟨toMAC, frame, hto, rfl, hlen, hdst, hsrc, hout, htypeW⟩ := encapsulate_eq henc
  obtain rfl : dst = toMAC := Option.some.inj hto
  simp only [hip, Option.isSome_some, if_true] at htypeW
  simp only at hlen hout hsrc
  have hafter : ∀ i, 12 ≤ i → frame[i]? = outgoing.frame[i]? := by
    intro i h12
    by_cases hi : i < 14
    · -- the ethertype is written again, and it was IP already
      have hw : (be16 etherTypeIP)[i - 12]? = frame[i]? := by
        rw [Buffer.read_getElem? htypeW (by omega)]
        congr 1
        omega
      rw [← hw, be16_of_readBe16 htype (i - 12) (by omega), hupd.other i (by omega) (by omega)
        (by omega)]
      congr 1
      omega
    · exact hout i h12 (by omega) (by omega)
  obtain ⟨t, ht, ht'⟩ := hupd.ttl
  constructor
  · show frame.length = _
    rw [hlen, hupd.length]
  · intro i h12 h22 h24 h25
    show frame[i]? = _
    rw [hafter i h12, hupd.other i h22 h24 h25]
  · exact hdst
  · exact hsrc
  · exact ⟨t, ht, by rw [← ht']; exact hafter 22 (by omega)⟩
  · obtain ⟨vhl, header, hvhl, -, -⟩ := ipHeaderSum_eq hupd.verifies
    apply ipHeaderSum_congr hvhl hupd.verifies hlen
    intro i hlo _
    have : etherSize = 14 := rfl
    exact hafter i (by omega)

end UchiNetworks.Router
