import UchiNetworks.Router.IcmpFrames

/-!
# The room for a message

`generate_icmp_error` allocates a header of five words and puts the message behind
one as long as that of the packet it answers. So it writes behind the frame it has
allocated exactly if the packet has IP options (`noStray_generateIcmpError`). Nothing
else can go wrong in it, and so it returns for the others (`hostUnreachable_returns_iff`).
-/

namespace UchiNetworks.Router

open UchiNetworks.Lib

/-- Nothing outside a frame is read or written. -/
abbrev NoStray {α : Type} (x : Res α) : Prop := Avoids Fault.bounds x

theorem noStray_bind_iff {α β : Type} {x : Res α} {f : α → Res β} :
    NoStray (x >>= f) ↔ NoStray x ∧ ∀ a, x = .ok a → NoStray (f a) := avoids_bind_iff

theorem computeIcmpChecksum_eq {f f' : FrameT} (h : computeIcmpChecksum f = .ok f') :
    ∃ frame, f' = { f with frame := frame } := by
  simp only [computeIcmpChecksum, bind_ok, getOr_ok] at h
  obtain ⟨_, -, len, -, h⟩ := h
  split at h
  · cases h
  · simp only [bind_ok, getOr_ok, Except.ok.injEq] at h
    obtain ⟨_, -, frame, -, rfl⟩ := h
    exact ⟨frame, rfl⟩

/-! ## The checksums -/

/-- `compute_ip_checksum` reads as far as the header claims to go. -/
theorem noStray_computeIpChecksum {f : FrameT} {vhl : UInt8} (hip : f.ipHeader = some etherSize)
    (hvhl : f.frame[etherSize]? = some vhl) (hlong : etherHdrLen ≤ f.frame.length) :
    NoStray (computeIpChecksum f) ↔ etherSize + 4 * (vhl &&& 0x0f).toNat ≤ f.frame.length := by
  constructor
  · intro h
    unfold computeIpChecksum at h
    rw [noStray_bind_iff] at h
    obtain ⟨sum, hsum, -⟩ := avoids_lookup.mp (h.2 etherSize (by rw [hip, getOr_some]))
    obtain ⟨vhl', header, hvhl', hheader, -⟩ := ipHeaderSum_eq hsum
    obtain rfl : vhl = vhl' := Option.some.inj (hvhl.symm.trans hvhl')
    exact (Buffer.read_eq hheader).1
  · intro hle
    obtain ⟨sum, hsum⟩ : ∃ sum, ipHeaderSum f.frame etherSize = some sum := by
      simp only [ipHeaderSum, hvhl, Option.bind_eq_bind, Option.bind_some, Buffer.read_of_le hle]
      exact ⟨_, rfl⟩
    obtain ⟨frame, hok, -⟩ := computeIpChecksum_of_sum hip hsum hlong
    rw [hok]
    exact avoids_ok _ _

/-- `compute_icmp_checksum`: the length may not be negative, and neither the copy
nor the checksum may end behind the frame. -/
theorem noStray_computeIcmpChecksum {f : FrameT} {icmp ipLen : Nat}
    (hicmp : f.icmpHeader = some icmp) (hlen : f.ipLen = some ipLen) :
    NoStray (computeIcmpChecksum f) ↔
      f.ipHl ≤ ipLen ∧ icmp + (ipLen - f.ipHl) ≤ f.frame.length ∧ icmp + 4 ≤ f.frame.length := by
  have hplace : getOr Fault.null f.icmpHeader = .ok icmp := by rw [hicmp, getOr_some]
  have hipLen : getOr Fault.unset f.ipLen = .ok ipLen := by rw [hlen, getOr_some]
  have hone : (if ipLen - f.ipHl = 0 then 1 else ipLen - f.ipHl) = max 1 (ipLen - f.ipHl) := by
    split
    · omega
    · omega
  unfold computeIcmpChecksum
  rw [hplace, ok_bind, hipLen, ok_bind]
  rcases Nat.lt_or_ge ipLen f.ipHl with hlt | hge
  · rw [if_pos hlt]
    constructor
    · intro h
      exact absurd rfl h
    · intro h
      omega
  · rw [if_neg (Nat.not_lt.mpr hge)]
    dsimp only
    rw [hone]
    constructor
    · intro h
      obtain ⟨hread, h⟩ := Buffer.avoids_read.mp h
      obtain ⟨hwrite, -⟩ := Buffer.avoids_write.mp (h _ (Buffer.read_of_le hread))
      rw [le16_length] at hwrite
      exact ⟨hge, by omega, hwrite⟩
    · intro h
      obtain ⟨-, hread, hwrite⟩ := h
      refine Buffer.avoids_read.mpr ⟨by omega, fun copy _ => Buffer.avoids_write.mpr ⟨?_, ?_⟩⟩
      · rw [le16_length]
        exact hwrite
      · exact fun frame _ => avoids_ok _ _

theorem computeIcmpChecksum_length {f f' : FrameT} (h : computeIcmpChecksum f = .ok f') :
    f'.frame.length = f.frame.length := by
  simp only [computeIcmpChecksum, bind_ok, getOr_ok] at h
  obtain ⟨_, -, len, -, h⟩ := h
  split at h
  · cases h
  · simp only [bind_ok, getOr_ok, Except.ok.injEq] at h
    obtain ⟨_, -, frame, hframe, rfl⟩ := h
    exact Buffer.write_length hframe

/-! ## The frames the router makes up -/

theorem noStray_encapsulate {f : FrameT} (h : etherSize ≤ f.frame.length) :
    NoStray (encapsulate f) := by
  unfold etherSize at h
  have hsrc := f.fromMAC.property
  refine avoids_bind (avoids_getOr (by decide) _) fun toMAC _ => ?_
  have hdst := toMAC.property
  refine Buffer.avoids_write.mpr ⟨by omega, fun frame₁ h₁ => ?_⟩
  have hlen₁ := Buffer.write_length h₁
  refine Buffer.avoids_write.mpr ⟨by omega, fun frame₂ h₂ => ?_⟩
  have hlen₂ := Buffer.write_length h₂
  refine Buffer.avoids_write.mpr ⟨?_, fun _ _ => avoids_ok _ _⟩
  rw [be16_length]
  omega

/-- `ip_header_create` writes a header of five words, and sums what it has written. -/
theorem noStray_ipHeaderCreate {f : FrameT} (hip : f.ipHeader = some etherSize)
    (hlong : etherHdrLen ≤ f.frame.length) : NoStray (ipHeaderCreate f) := by
  have hplace : getOr Fault.assertion f.ipHeader = .ok etherSize := by rw [hip, getOr_some]
  unfold etherHdrLen at hlong
  unfold ipHeaderCreate
  rw [hplace, ok_bind]
  refine avoids_bind (avoids_getOr (by decide) _) fun ipLen _ => ?_
  refine Buffer.avoids_write.mpr ⟨?_, fun frame hframe => ?_⟩
  · rw [ipHeaderBytes_length]
    unfold etherSize
    omega
  · have hvhl : frame[etherSize]? = some 0x45 := by
      rw [Buffer.write_inside hframe (Nat.le_refl _) (by rw [ipHeaderBytes_length]; omega),
        Nat.sub_self]
      rfl
    have hlen := Buffer.write_length hframe
    refine (noStray_computeIpChecksum (f := { f with frame := frame }) hip hvhl ?_).mpr ?_
    · dsimp only
      unfold etherHdrLen
      omega
    · dsimp only
      rw [show 4 * ((0x45 : UInt8) &&& 0x0f).toNat = 20 by decide, hlen]
      unfold etherSize
      omega

theorem ipHeaderCreate_length {f f' : FrameT} (h : ipHeaderCreate f = .ok f') :
    f'.frame.length = f.frame.length := by
  obtain ⟨_, _, frame, -, -, hframe, -, hout⟩ := ipHeaderCreate_eq h
  obtain ⟨_, _, frame', -, -, hframe', rfl⟩ := computeIpChecksum_eq hout
  exact (Buffer.write_length hframe').trans (Buffer.write_length hframe)

/-- The end of both functions that make a message up. -/
theorem noStray_finish {f : FrameT} {icmp ipLen : Nat} (hip : f.ipHeader = some etherSize)
    (hicmp : f.icmpHeader = some icmp) (hlen : f.ipLen = some ipLen)
    (hlong : etherHdrLen ≤ f.frame.length) :
    NoStray (computeIcmpChecksum f >>= fun f => ipHeaderCreate f >>= fun f => encapsulate f) ↔
      f.ipHl ≤ ipLen ∧ icmp + (ipLen - f.ipHl) ≤ f.frame.length ∧ icmp + 4 ≤ f.frame.length := by
  rw [noStray_bind_iff, ← noStray_computeIcmpChecksum hicmp hlen, and_iff_left_iff_imp]
  intro _ g hg
  have hglen := computeIcmpChecksum_length hg
  obtain ⟨frame, rfl⟩ := computeIcmpChecksum_eq hg
  dsimp only at hglen
  refine avoids_bind (noStray_ipHeaderCreate hip (by rw [hglen]; exact hlong)) fun out hout => ?_
  refine noStray_encapsulate ?_
  rw [ipHeaderCreate_length hout, hglen]
  exact Nat.le_trans (by decide) hlong

/-- The packet that was quoted is placed behind a header as long as its own, in a
frame with room for one without options. -/
theorem noStray_generateIcmpError {f : FrameT} (hip : f.ipHeader = some etherSize)
    (hto : f.toMAC.isSome) (hlen : f.ipLen.isSome) (hlong : etherHdrLen ≤ f.frame.length)
    (sr : SrInstance) (icmpType icmpCode : UInt8) :
    NoStray (generateIcmpError sr f icmpType icmpCode) ↔ f.ipHl ≤ ipHdrLen := by
  obtain ⟨dhost, hto⟩ := Option.isSome_iff_exists.mp hto
  obtain ⟨inLen, hlen⟩ := Option.isSome_iff_exists.mp hlen
  have hmac : getOr Fault.unset f.toMAC = .ok dhost := by rw [hto, getOr_some]
  have hinLen : getOr Fault.unset f.ipLen = .ok inLen := by rw [hlen, getOr_some]
  have hplace : getOr Fault.null f.ipHeader = .ok etherSize := by rw [hip, getOr_some]
  unfold etherHdrLen at hlong
  unfold generateIcmpError
  rw [hmac, ok_bind, hinLen, ok_bind, hplace, ok_bind]
  dsimp only
  -- it is at most the header and 8 bytes
  generalize hdata : (if f.ipHl ≤ inLen ∧ inLen - f.ipHl < 8 then inLen else f.ipHl + 8) = dataLen
  have hle : dataLen ≤ f.ipHl + 8 := by
    rw [← hdata]
    split
    · omega
    · omega
  have hblank : ((List.range (etherSize + ipHdrLen + icmpHdrLen + dataLen)).map sr.heap).length
      = 42 + dataLen := by
    rw [List.length_map, List.length_range]
    rfl
  have hether : etherSize = 14 := rfl
  have hplain : ipHdrLen = 20 := rfl
  have hmsg : icmpHdrLen = 8 := rfl
  constructor
  · intro h
    obtain ⟨hheader, h⟩ := Buffer.avoids_write.mp h
    obtain ⟨frame, hframe⟩ := Buffer.write_of_le hheader
    obtain ⟨hquote, h⟩ := Buffer.avoids_read.mp (h frame hframe)
    obtain ⟨hwrite, -⟩ := Buffer.avoids_write.mp (h _ (Buffer.read_of_le hquote))
    rw [Buffer.write_length hframe, hblank, Buffer.read_length (Buffer.read_of_le hquote)] at hwrite
    omega
  · intro hhl
    refine Buffer.avoids_write.mpr ⟨?_, fun frame hframe => ?_⟩
    · rw [hblank]
      simp only [List.length_cons, List.length_nil]
      omega
    · have hflen := Buffer.write_length hframe
      rw [hblank] at hflen
      refine Buffer.avoids_read.mpr ⟨by omega, fun quote hquote => ?_⟩
      have hqlen := Buffer.read_length hquote
      refine Buffer.avoids_write.mpr ⟨by omega, fun frame' hframe' => ?_⟩
      have hflen' := Buffer.write_length hframe'
      refine (noStray_finish rfl rfl rfl ?_).mpr ?_
      · dsimp only
        unfold etherHdrLen
        omega
      · dsimp only
        omega

/-! ## No other fault -/

theorem avoids_encapsulate {fault : Fault} (hfault : .bounds ≠ fault) {f : FrameT}
    (hto : f.toMAC.isSome) : Avoids fault (encapsulate f) := by
  refine avoids_bind (avoids_getOr_some _ _ hto) fun _ _ => ?_
  refine avoids_bind (avoids_getOr hfault _) fun _ _ => ?_
  refine avoids_bind (avoids_getOr hfault _) fun _ _ => ?_
  exact avoids_bind (avoids_getOr hfault _) fun _ _ => avoids_ok _ _

theorem avoids_computeIpChecksum {fault : Fault} (hfault : .bounds ≠ fault) {f : FrameT}
    (hip : f.ipHeader.isSome) : Avoids fault (computeIpChecksum f) := by
  refine avoids_bind (avoids_getOr_some _ _ hip) fun _ _ => ?_
  refine avoids_bind (avoids_getOr hfault _) fun _ _ => ?_
  exact avoids_bind (avoids_getOr hfault _) fun _ _ => avoids_ok _ _

theorem avoids_computeIcmpChecksum {fault : Fault} (hfault : .bounds ≠ fault) {f : FrameT}
    (hicmp : f.icmpHeader.isSome) (hlen : f.ipLen.isSome) :
    Avoids fault (computeIcmpChecksum f) := by
  refine avoids_bind (avoids_getOr_some _ _ hicmp) fun _ _ => ?_
  refine avoids_bind (avoids_getOr_some _ _ hlen) fun _ _ => ?_
  refine avoids_ite (fun _ => avoids_error hfault) fun _ => ?_
  refine avoids_bind (avoids_getOr hfault _) fun _ _ => ?_
  exact avoids_bind (avoids_getOr hfault _) fun _ _ => avoids_ok _ _

theorem avoids_ipHeaderCreate {fault : Fault} (hfault : .bounds ≠ fault) {f : FrameT}
    (hip : f.ipHeader.isSome) (hlen : f.ipLen.isSome) : Avoids fault (ipHeaderCreate f) := by
  refine avoids_bind (avoids_getOr_some _ _ hip) fun _ _ => ?_
  refine avoids_bind (avoids_getOr_some _ _ hlen) fun _ _ => ?_
  refine avoids_bind (avoids_getOr hfault _) fun _ _ => ?_
  exact avoids_computeIpChecksum hfault hip

theorem avoids_generateIcmpError {fault : Fault} (hfault : .bounds ≠ fault) {f : FrameT}
    (hip : f.ipHeader.isSome) (hto : f.toMAC.isSome) (hlen : f.ipLen.isSome) (sr : SrInstance)
    (icmpType icmpCode : UInt8) : Avoids fault (generateIcmpError sr f icmpType icmpCode) := by
  refine avoids_bind (avoids_getOr_some _ _ hto) fun _ _ => ?_
  refine avoids_bind (avoids_getOr_some _ _ hlen) fun _ _ => ?_
  refine avoids_bind (avoids_getOr_some _ _ hip) fun _ _ => ?_
  refine avoids_bind (avoids_getOr hfault _) fun _ _ => ?_
  refine avoids_bind (avoids_getOr hfault _) fun _ _ => ?_
  refine avoids_bind (avoids_getOr hfault _) fun _ _ => ?_
  refine avoids_bind (avoids_computeIcmpChecksum hfault rfl rfl) fun summed hsummed => ?_
  obtain ⟨frame, rfl⟩ := computeIcmpChecksum_eq hsummed
  refine avoids_bind (avoids_ipHeaderCreate hfault rfl rfl) fun made hmade => ?_
  obtain ⟨_, _, _, -, -, -, -, hmade⟩ := ipHeaderCreate_eq hmade
  obtain ⟨_, _, _, -, -, -, rfl⟩ := computeIpChecksum_eq hmade
  exact avoids_encapsulate hfault rfl

theorem generateIcmpError_returns_iff {f : FrameT} (hip : f.ipHeader = some etherSize)
    (hto : f.toMAC.isSome) (hlen : f.ipLen.isSome) (hlong : etherHdrLen ≤ f.frame.length)
    (sr : SrInstance) (icmpType icmpCode : UInt8) :
    (∃ out, generateIcmpError sr f icmpType icmpCode = .ok out) ↔ f.ipHl ≤ ipHdrLen := by
  rw [← noStray_generateIcmpError hip hto hlen hlong sr icmpType icmpCode]
  constructor
  · intro hout
    obtain ⟨out, hout⟩ := hout
    rw [hout]
    exact avoids_ok _ _
  · intro hstray
    cases hout : generateIcmpError sr f icmpType icmpCode with
    | ok out => exact ⟨out, rfl⟩
    | error fault =>
      by_cases hfault : .bounds = fault
      · exact absurd (hfault ▸ hout) hstray
      · exact absurd hout
          (avoids_generateIcmpError hfault (by rw [hip]; rfl) hto hlen sr icmpType icmpCode)

/-- The message about a queued packet: what `malloc` has left in its record makes no
difference. -/
theorem hostUnreachable_returns_iff {p : QueuedPacket} (hip : p.outgoing.ipHeader = some etherSize)
    (hlong : etherHdrLen ≤ p.outgoing.frame.length) (sr : SrInstance) :
    (∃ out, hostUnreachable sr p = .ok out) ↔ p.outgoing.ipHl ≤ ipHdrLen :=
  @generateIcmpError_returns_iff
    { p.outgoing with
      iface := p.fromIface
      fromMAC := p.fromMAC
      toMAC := some (p.outgoing.toMAC.getD (leftMAC sr))
      ipLen := some (p.outgoing.ipLen.getD (leftLen sr)) } hip rfl rfl hlong sr _ _

end UchiNetworks.Router
