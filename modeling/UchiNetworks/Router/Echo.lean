import UchiNetworks.Router.Flush
import UchiNetworks.Router.Incoming

/-!
# Is an echo request answered?

`sr_handlepacket` checks an ICMP message and `generate_icmp_echo` makes it into
the reply, in place: the message keeps its position, while the IP header before
it is replaced by one without options. `echo_iff` says for every echo request
when the outcome is the reply that was asked for.
-/

namespace UchiNetworks.Router

open UchiNetworks.Lib

/-- The frame holds an ICMP echo request to one of the router's addresses, and
both its checksums verify. -/
structure EchoRequest (sr : SrInstance) (packet : Bytes) (hl total : Nat) : Prop where
  ip : Ipv4 packet hl total
  length : packet.length = etherSize + total
  verifies : Verifies packet
  ours : ∃ dst iface, readU32 packet (etherSize + 16) = some dst ∧
    ifDstCheck sr dst = .ok (some iface)
  icmp : packet[etherSize + 9]? = some ipProtoICMP
  message : hl + icmpHdrLen ≤ total
  request : packet[etherSize + hl]? = some echoRequest
  checks : Checks (packet.drop (etherSize + hl))

/-- The frame holds the reply to the echo request in `packet`: addresses swapped,
identifier, sequence number and payload the same, checksums that verify. All of
it is where its own `ip_hl` says. -/
structure EchoReplyTo (packet : Bytes) (hl : Nat) (reply : Bytes) : Prop where
  macs : readMac reply 0 = readMac packet 6 ∧ readMac reply 6 = readMac packet 0
  ips : readU32 reply (etherSize + 12) = readU32 packet (etherSize + 16) ∧
    readU32 reply (etherSize + 16) = readU32 packet (etherSize + 12)
  verifies : Verifies reply
  icmp : reply[etherSize + 9]? = some ipProtoICMP
  message : ∃ hl' total', Ipv4 reply hl' total' ∧ reply.length = etherSize + total' ∧
    reply[etherSize + hl']? = some echoReply ∧
    reply.drop (etherSize + hl' + 4) = packet.drop (etherSize + hl + 4) ∧
    Checks (reply.drop (etherSize + hl'))

/-- The call sends the reply, which `sr_send_packet` takes, and nothing else for this
packet. -/
def EchoAnswered (sr : SrInstance) (st : RouterState) (packet : Bytes) (ifName : IfName)
    (now hl : Nat) : Prop :=
  ∃ queue flushed st' sent, arpQueueFlush sr now st.queue = .ok (queue, flushed) ∧
    srHandlepacket sr st packet ifName now = .ok st' ∧
    st'.wire = st.wire ++ flushed ++ [sent] ∧ sent.forwards = none ∧ sent.goesOut sr ∧
    EchoReplyTo packet hl sent.frame

/-- The reply is no shorter than an Ethernet header. -/
theorem EchoReplyTo.long {packet : Bytes} {hl : Nat} {reply : Bytes}
    (h : EchoReplyTo packet hl reply) : etherSize ≤ reply.length := by
  obtain ⟨hlt, -⟩ := List.getElem?_eq_some_iff.mp h.icmp
  omega

/-! ## The reply that is made -/

/-- The frame of the reply, piece by piece; the options stay behind the new
header. -/
def echoReplyBytes (dst src : Mac) (total : Nat) (fromIp toIp : UInt32) (options : Bytes)
    (code : UInt8) (rest : Bytes) : Bytes :=
  ethernetIp dst src ++
    (ipHeaderFilled total fromIp toIp ++ (options ++ icmpFilled echoReply code rest))

theorem readMac_echoReply (dst src : Mac) (total : Nat) (fromIp toIp : UInt32) (options : Bytes)
    (code : UInt8) (rest : Bytes) :
    readMac (echoReplyBytes dst src total fromIp toIp options code rest) 6 = some src :=
  (readMac_ethernetIp dst src _).2

/-- `generate_icmp_echo` on the pieces of a frame. -/
theorem generateIcmpEcho_of {f : FrameT} {eth iph options rest : Bytes} {hl total : Nat}
    {dhost : Mac} {icmpType code s0 s1 : UInt8}
    (hframe : f.frame = eth ++ (iph ++ (options ++ ([icmpType, code, s0, s1] ++ rest))))
    (heth : eth.length = etherSize) (hiph : iph.length = ipHdrLen) (hhl : f.ipHl = hl)
    (hoptions : hl = ipHdrLen + options.length) (hto : f.toMAC = some dhost)
    (hlen : f.ipLen = some total) (htotal : total = hl + (4 + rest.length)) :
    ∃ out, generateIcmpEcho f = .ok out ∧ out.iface = f.iface ∧
      out.frame = echoReplyBytes f.fromMAC dhost total f.toIp f.fromIp options code rest := by
  have hmac : getOr Fault.unset f.toMAC = .ok dhost := by rw [hto, getOr_some]
  have hplace : etherSize + hl = (eth ++ iph ++ options).length := by
    rw [List.length_append, List.length_append, heth, hiph, hoptions]
    omega
  -- the type and the checksum field are written over
  have hw1 : Buffer.write f.frame (etherSize + hl) [echoReply]
      = some ((eth ++ iph ++ options) ++ ([echoReply] ++ ([code, s0, s1] ++ rest))) := by
    rw [hframe, hplace]
    have h := Buffer.write_append (eth ++ iph ++ options) [icmpType] [echoReply]
      ([code, s0, s1] ++ rest) rfl rfl
    simpa only [List.append_assoc, List.cons_append, List.nil_append] using h
  have hw2 : Buffer.write ((eth ++ iph ++ options) ++ ([echoReply] ++ ([code, s0, s1] ++ rest)))
      (etherSize + hl + 2) [0, 0]
      = some ((eth ++ iph ++ options) ++ (([echoReply, code, 0, 0] ++ rest) ++ [])) := by
    have hfield : etherSize + hl + 2 = (eth ++ iph ++ options ++ [echoReply, code]).length := by
      simp only [hplace, List.length_append, List.length_cons, List.length_nil]
    have h := Buffer.write_append (eth ++ iph ++ options ++ [echoReply, code]) [s0, s1] [0, 0] rest
      hfield rfl
    simpa only [List.append_assoc, List.cons_append, List.nil_append, List.append_nil] using h
  have hpieces : (eth ++ iph ++ options) ++ (([echoReply, code] ++
      le16 (65535 - foldSum (words16 ([echoReply, code, 0, 0] ++ rest))) ++ rest) ++ [])
        = eth ++ (iph ++ (options ++ icmpFilled echoReply code rest)) := by
    simp only [icmpFilled, List.append_assoc, List.append_nil]
  unfold generateIcmpEcho
  rw [hmac, ok_bind, hhl]
  dsimp only
  rw [hw1, getOr_some, ok_bind, hw2, getOr_some, ok_bind, hlen,
    computeIcmpChecksum_of rfl (by rw [hplace]) rfl htotal, ok_bind, hpieces,
    ipHeaderCreate_of rfl hiph (by rw [heth]) rfl, ok_bind, encapsulate_of rfl heth rfl]
  exact ⟨_, rfl, rfl, rfl⟩

/-- The pieces of a frame that is as long as its IP packet and holds a message of
four bytes at least. -/
theorem ParsedIp.pieces {sr : SrInstance} {packet : Bytes} {ifName : IfName} {hl total : Nat}
    {f : FrameT} (h : ParsedIp sr packet ifName hl total f)
    (hwhole : packet.length = etherSize + total) (hmsg : hl + 4 ≤ total) :
    ∃ eth iph options icmpType code s0 s1 rest,
      f.frame = eth ++ (iph ++ (options ++ ([icmpType, code, s0, s1] ++ rest))) ∧
      eth.length = etherSize ∧ iph.length = ipHdrLen ∧ hl = ipHdrLen + options.length ∧
      total = hl + (4 + rest.length) ∧
      packet.drop (etherSize + hl) = [icmpType, code, s0, s1] ++ rest := by
  have hmin := h.wellFormed.ipHl
  have hlen := h.length
  rw [h.ipHl] at hmin
  -- the message is behind the bytes that the checks may have changed
  have hdrop : f.frame.drop (etherSize + hl) = packet.drop (etherSize + hl) := by
    refine List.ext_getElem? fun i => ?_
    rw [List.getElem?_drop, List.getElem?_drop]
    unfold etherSize ipHdrLen at *
    exact h.same _ (by omega) (by omega)
  obtain ⟨eth, b, heth, hb⟩ := exists_split (l := f.frame) (n := etherSize) (by omega)
  have hbl : b.length = total := by
    have := congrArg List.length hb
    rw [List.length_append] at this
    omega
  obtain ⟨iph, c, hiph, rfl⟩ := exists_split (l := b) (n := ipHdrLen) (by omega)
  rw [List.length_append] at hbl
  obtain ⟨options, d, hoptions, rfl⟩ := exists_split (l := c) (n := hl - ipHdrLen) (by omega)
  rw [List.length_append] at hbl
  have hd : f.frame.drop (etherSize + hl) = d := by
    rw [hb, ← List.append_assoc, ← List.append_assoc]
    exact List.drop_left' (by rw [List.length_append, List.length_append]; omega)
  match d, hbl with
  | icmpType :: code :: s0 :: s1 :: rest, hbl =>
    simp only [List.length_cons] at hbl
    exact ⟨eth, iph, options, icmpType, code, s0, s1, rest, hb, heth, hiph, by omega, by omega,
      by rw [← hdrop, hd]; rfl⟩
  | [], hbl => simp only [List.length_nil] at hbl; omega
  | [_], hbl => simp only [List.length_cons, List.length_nil] at hbl; omega
  | [_, _], hbl => simp only [List.length_cons, List.length_nil] at hbl; omega
  | [_, _, _], hbl => simp only [List.length_cons, List.length_nil] at hbl; omega

/-- What `sr_handlepacket` does with an ICMP message for the router: it looks at
the type and at the sum over whole words. -/
theorem localReply_of {f : FrameT} {eth iph options rest : Bytes} {hl total : Nat} {dhost : Mac}
    {icmpType code s0 s1 : UInt8}
    (hframe : f.frame = eth ++ (iph ++ (options ++ ([icmpType, code, s0, s1] ++ rest))))
    (heth : eth.length = etherSize) (hiph : iph.length = ipHdrLen) (hhl : f.ipHl = hl)
    (hoptions : hl = ipHdrLen + options.length) (hto : f.toMAC = some dhost)
    (hlen : f.ipLen = some total) (htotal : total = hl + (4 + rest.length))
    (hicmp : f.icmpHeader = some (etherSize + hl)) (sr : SrInstance) :
    (icmpType = echoRequest ∧ foldSum (words16 ([icmpType, code, s0, s1] ++ rest)) = 65535 →
      ∃ out, localReply sr f = .ok (some out) ∧ out.iface = f.iface ∧
        out.frame = echoReplyBytes f.fromMAC dhost total f.toIp f.fromIp options code rest) ∧
    (¬(icmpType = echoRequest ∧ foldSum (words16 ([icmpType, code, s0, s1] ++ rest)) = 65535) →
      localReply sr f = .ok none) := by
  have hplace : etherSize + hl = (eth ++ iph ++ options).length := by
    rw [List.length_append, List.length_append, heth, hiph, hoptions]
    omega
  have hsplit : f.frame
      = (eth ++ iph ++ options) ++ (([icmpType, code, s0, s1] ++ rest) ++ []) := by
    rw [hframe]
    simp only [List.append_assoc, List.append_nil]
  -- the sum takes the place of the checksum
  obtain ⟨n, hn⟩ : ∃ n, n = 65535 - foldSum (words16 ([icmpType, code, s0, s1] ++ rest)) := ⟨_, rfl⟩
  have hle := foldSum_le (words16_le ([icmpType, code, s0, s1] ++ rest))
  have hsum : computeIcmpChecksum f = .ok { f with
      frame := eth ++ (iph ++ (options ++ ([icmpType, code, UInt8.ofNat n, UInt8.ofNat (n / 256)] ++
        rest))) } := by
    rw [computeIcmpChecksum_of hsplit (by rw [hicmp, hplace]) hlen (by rw [hhl]; exact htotal),
      ← hn, le16]
    simp only [List.append_assoc, List.append_nil, List.cons_append, List.nil_append]
  have htype : (eth ++ (iph ++ (options ++ ([icmpType, code, UInt8.ofNat n, UInt8.ofNat (n / 256)] ++
      rest))))[etherSize + hl]? = some icmpType := by
    rw [← List.append_assoc, ← List.append_assoc, hplace,
      List.getElem?_append_right (Nat.le_refl _), Nat.sub_self]
    rfl
  have hfield : Buffer.read (eth ++ (iph ++ (options ++ ([icmpType, code, UInt8.ofNat n,
      UInt8.ofNat (n / 256)] ++ rest)))) (etherSize + hl + 2) 2 = some (le16 n) := by
    have hplace' : etherSize + hl + 2 = (eth ++ iph ++ options ++ [icmpType, code]).length := by
      simp only [hplace, List.length_append, List.length_cons, List.length_nil]
    have h := Buffer.read_append (eth ++ iph ++ options ++ [icmpType, code]) (le16 n) rest
      hplace' (show 2 = (le16 n).length from rfl)
    simpa only [le16, List.append_assoc, List.cons_append, List.nil_append] using h
  have hzero : le16 n = [0, 0] ↔
      foldSum (words16 ([icmpType, code, s0, s1] ++ rest)) = 65535 := by
    rw [le16_eq_zero (by omega)]
    omega
  unfold localReply
  rw [hicmp]
  dsimp only
  rw [hsum, ok_bind]
  dsimp only
  rw [htype, getOr_some, ok_bind, hfield, getOr_some, ok_bind]
  constructor
  · intro hgood
    obtain ⟨out, hout, hiface, hbytes⟩ := generateIcmpEcho_of (f := { f with frame := _ })
      rfl heth hiph hhl hoptions hto hlen htotal
    rw [if_pos ⟨hgood.1, hzero.mpr hgood.2⟩, hout, ok_bind]
    exact ⟨out, rfl, hiface, hbytes⟩
  · intro hbad
    rw [if_neg fun h => hbad ⟨h.1, hzero.mp h.2⟩]

/-! ## The reply that was asked for -/

/-- The pieces of the reply meet if there were no options before the message,
and its sum has all of it. -/
theorem echoReplyBytes_iff {packet options rest : Bytes} {hl total : Nat} {dst src : Mac}
    {fromIp toIp : UInt32} {icmpType code s0 s1 : UInt8}
    (hshost : readMac packet 6 = some dst) (hdhost : readMac packet 0 = some src)
    (hdst : readU32 packet (etherSize + 16) = some fromIp)
    (hsrc : readU32 packet (etherSize + 12) = some toIp)
    (hoptions : hl = ipHdrLen + options.length) (htotal : total = hl + (4 + rest.length))
    (hbound : total < 65536) (hwhole : packet.length = etherSize + total)
    (hdrop : packet.drop (etherSize + hl) = [icmpType, code, s0, s1] ++ rest) :
    EchoReplyTo packet hl (echoReplyBytes dst src total fromIp toIp options code rest) ↔
      hl = ipHdrLen ∧ Summed rest := by
  have heth := ethernetIp_length dst src
  have hlen : (echoReplyBytes dst src total fromIp toIp options code rest).length
      = etherSize + total := by
    rw [echoReplyBytes, List.length_append, List.length_append, List.length_append, heth,
      ipHeaderFilled_length, icmpFilled_length, htotal, hoptions]
    omega
  have hget : ∀ i < ipHdrLen,
      (echoReplyBytes dst src total fromIp toIp options code rest)[etherSize + i]?
        = (ipHeaderFilled total fromIp toIp)[i]? := fun i hi => getElem?_header heth _ _ _ hi
  constructor
  · intro h
    obtain ⟨hl', total', hipv4, -, -, hsame, hchecks⟩ := h.message
    -- the header the reply begins with has no options
    have hplain : hl' = ipHdrLen := by
      obtain ⟨vhl, hvhl, -, hhl'⟩ := hipv4.header
      obtain rfl : (0x45 : UInt8) = vhl := Option.some.inj ((hget 0 (by decide)).symm.trans hvhl)
      rw [hhl']
      rfl
    have hend := congrArg List.length hsame
    rw [List.length_drop, List.length_drop, hlen, hwhole] at hend
    have hhl : hl = ipHdrLen := by omega
    obtain rfl : options = [] := List.eq_nil_of_length_eq_zero (by omega)
    refine ⟨hhl, (icmpFilled_checks echoReply code rest).mp ?_⟩
    rw [hplain, ← List.drop_drop, echoReplyBytes, List.drop_left' heth] at hchecks
    exact hchecks
  · intro hcond
    obtain ⟨hhl, hsummed⟩ := hcond
    obtain rfl : options = [] := List.eq_nil_of_length_eq_zero (by omega)
    obtain ⟨hto, hfrom⟩ := readMac_ethernetIp dst src
      (ipHeaderFilled total fromIp toIp ++ ([] ++ icmpFilled echoReply code rest))
    have hmsg : (echoReplyBytes dst src total fromIp toIp [] code rest).drop
        (etherSize + ipHdrLen) = icmpFilled echoReply code rest := by
      rw [← List.drop_drop, echoReplyBytes, List.drop_left' heth]
      rfl
    obtain ⟨hreadFrom, hreadTo⟩ := readU32_header heth ([] ++ icmpFilled echoReply code rest)
      total fromIp toIp
    have hver : (0x45 : UInt8) >>> 4 = 4 ∧ ipHdrLen = 4 * ((0x45 : UInt8) &&& 0x0f).toNat := by
      decide
    have hipv4 : Ipv4 (echoReplyBytes dst src total fromIp toIp [] code rest) ipHdrLen total :=
      { etherType := readBe16_ethernetIp dst src _
        header := ⟨0x45, hget 0 (by decide), hver⟩
        minLen := Nat.le_refl _
        lenField := readBe16_of_getElem? hbound (hget 2 (by decide)) (hget 3 (by decide))
        fits := ⟨by omega, by omega⟩ }
    refine
      { macs := ⟨hto.trans hshost.symm, hfrom.trans hdhost.symm⟩
        ips := ⟨hreadFrom.trans hdst.symm, hreadTo.trans hsrc.symm⟩
        verifies := verifies_of_header heth _ _ _
        icmp := hget 9 (by decide)
        message := ⟨ipHdrLen, total, hipv4, hlen, ?_, ?_, ?_⟩ }
    · rw [← Nat.add_zero (etherSize + ipHdrLen), ← List.getElem?_drop, hmsg]
      rfl
    · have h := congrArg (List.drop 4) hmsg
      have h' := congrArg (List.drop 4) hdrop
      rw [List.drop_drop] at h h'
      exact h.trans h'.symm
    · rw [hmsg]
      exact (icmpFilled_checks echoReply code rest).mpr hsummed

/-- **An echo request is answered** exactly when it has no IP options, its ICMP
message has an even number of bytes or a last byte of 0, its frame was sent to the
interface it came in on and the flush of the queue returns: for every request, in
every state that can be reached. -/
theorem echo_iff {sr : SrInstance} {hist : List Event} {st : RouterState} {packet : Bytes}
    {hl total : Nat} (hrun : run (step sr) (some (srInit sr)) hist = some st)
    (h : EchoRequest sr packet hl total) (ifName : IfName) (now : Nat) :
    EchoAnswered sr st packet ifName now hl ↔
      hl = ipHdrLen ∧ Summed (packet.drop (etherSize + hl)) ∧
        ToInterface sr packet ifName ∧ Flushable now st.queue := by
  have hmin := h.ip.minLen
  have hmsg := h.message
  have hlong : etherHdrLen ≤ packet.length := by
    rw [h.length]
    unfold etherHdrLen etherSize
    unfold ipHdrLen at hmin
    unfold icmpHdrLen at hmsg
    omega
  obtain ⟨f, hpassed, hparsed⟩ := h.ip.passed h.verifies hlong sr ifName
  have hcall := hpassed.call st now
  obtain ⟨eth, iph, options, icmpType, code, s0, s1, rest, hframe, heth, hiph, hoptions, htotal,
    hdrop⟩ := hparsed.pieces h.length (by unfold icmpHdrLen at hmsg; omega)
  obtain ⟨dhost, hto⟩ := Option.isSome_iff_exists.mp hparsed.wellFormed.dhost
  obtain ⟨proto, hproto, hicmp⟩ := hparsed.icmpHeader
  obtain rfl : proto = ipProtoICMP := Option.some.inj (hproto.symm.trans h.icmp)
  rw [if_pos rfl] at hicmp
  obtain ⟨dst, target, hdst, hours⟩ := h.ours
  obtain rfl : dst = f.toIp := Option.some.inj (hdst.symm.trans hparsed.toIp)
  have hroute : ∀ s a, routeIp sr s a f
      = localReply sr f >>= fun outgoing => sendDatagram s outgoing none := by
    intro s a
    unfold routeIp
    rw [hours, ok_bind]
  obtain ⟨hgood, hbad⟩ := localReply_of hframe heth hiph hparsed.ipHl hoptions hto
    hparsed.wellFormed.ipLen htotal hicmp sr
  have htype : icmpType = echoRequest := by
    have := h.request
    rw [← Nat.add_zero (etherSize + hl), ← List.getElem?_drop, hdrop] at this
    exact Option.some.inj this
  have hchecks := h.checks
  rw [hdrop] at hchecks
  have hsum := (checks_summed _).1 hchecks
  have hrest : Summed ([icmpType, code, s0, s1] ++ rest) ↔ Summed rest :=
    summed_append (by simp) rest
  have hreply := echoReplyBytes_iff hparsed.shost (hparsed.dhost.trans hto) hparsed.toIp
    hparsed.fromIp hoptions htotal h.ip.total_lt h.length hdrop
  have hfrom := readMac_echoReply f.fromMAC dhost total f.toIp f.fromIp options code rest
  rw [hdrop, hrest, ← (inv_run hrun).flush_returns_iff now]
  constructor
  · intro hans
    obtain ⟨queue, flushed, st', sent, hflush, hst', hwire, -, hgoes, hsent⟩ := hans
    rw [hcall, hflush, ok_bind, hroute] at hst'
    by_cases hfull : icmpType = echoRequest ∧
        foldSum (words16 ([icmpType, code, s0, s1] ++ rest)) = 65535
    · obtain ⟨out, hout, hiface, hbytes⟩ := hgood hfull
      rw [hout, ok_bind] at hst'
      rcases sendDatagram_eq hst' with ⟨hnone, -⟩ | ⟨out', sent', hsome, hsend, rfl⟩
      · cases hnone
      · obtain rfl := Option.some.inj hsome
        obtain ⟨hout', hframe', -⟩ := sendPacket_eq hsend
        have hlast := List.append_cancel_left hwire
        obtain rfl : sent' = sent := (List.cons.inj hlast).1
        rw [hiface, hparsed.iface] at hout'
        have hto' := (goesOut_reply_iff hout' rfl hsent.long
          (by rw [hframe', hbytes, hfrom, hparsed.dhost, hto])).mp hgoes
        rw [hframe', hbytes, hreply] at hsent
        exact ⟨hsent.1, hsent.2, hto', _, hflush⟩
    · -- nothing is sent
      rw [hbad hfull, ok_bind] at hst'
      obtain rfl := Except.ok.inj hst'
      have hlen := congrArg List.length hwire
      simp only [flushedState, List.length_append, List.length_singleton] at hlen
      omega
  · intro hcond
    obtain ⟨hhl, hsummed, htaken, ⟨⟨queue, flushed⟩, hflush⟩⟩ := hcond
    obtain ⟨out, hout, hiface, hbytes⟩ := hgood ⟨htype, hsum.mpr (hrest.mpr hsummed)⟩
    obtain ⟨iface, hknown, -⟩ := id htaken
    have hfound := hknown
    rw [← hparsed.iface, ← hiface] at hfound
    rw [hflush, ok_bind, hroute, hout, ok_bind, sendDatagram_of hfound] at hcall
    have hsent : EchoReplyTo packet hl out.frame := by
      rw [hbytes]
      exact hreply.mpr ⟨hhl, hsummed⟩
    refine ⟨queue, flushed, _, _, hflush, hcall, rfl, rfl, ?_, hsent⟩
    exact (goesOut_reply_iff hknown rfl hsent.long
      (by rw [hbytes, hfrom, hparsed.dhost, hto])).mpr htaken

/-- `10.0.0.9` asks `10.0.0.1` for an echo of this payload. -/
def echoRequestFrame (ipSum icmpSum : UInt8 × UInt8) (payload : Bytes) : Bytes :=
  [2, 0, 0, 0, 0, 1, 2, 0, 0, 0, 0, 9, 8, 0, 69, 0] ++ be16 (28 + payload.length) ++
    [0, 0, 0, 0, 64, 1, ipSum.1, ipSum.2, 10, 0, 0, 9, 10, 0, 0, 1, 8, 0, icmpSum.1, icmpSum.2,
      0, 1, 0, 2] ++ payload

/-- With two bytes it is answered. -/
theorem evenEcho_answered :
    EchoAnswered gatewayRouter (srInit gatewayRouter)
      (echoRequestFrame (102, 214) (246, 250) [1, 2]) [0x65] 100 20 :=
  (echo_iff (show run _ _ [] = some (srInit gatewayRouter) from rfl)
    { ip :=
        { etherType := rfl, header := ⟨69, rfl, by decide, by decide⟩, minLen := by decide,
          lenField := rfl, fits := by decide }
      length := rfl
      verifies := by decide +kernel
      ours := ⟨0x0100000a, _, rfl, rfl⟩
      icmp := rfl
      message := by decide
      request := rfl
      checks := by decide +kernel } [0x65] 100).mpr
    ⟨rfl, by decide, ⟨_, rfl, rfl⟩, fun entry hentry hgiven => by
      rw [List.mem_singleton.mp hentry] at hgiven
      exact absurd hgiven (by decide)⟩

/-- With three it is not. -/
theorem oddEcho_not_answered :
    EchoRequest gatewayRouter (echoRequestFrame (102, 213) (243, 250) [1, 2, 3]) 20 31 ∧
      ¬ EchoAnswered gatewayRouter (srInit gatewayRouter)
        (echoRequestFrame (102, 213) (243, 250) [1, 2, 3]) [0x65] 100 20 := by
  constructor
  · exact
      { ip :=
          { etherType := rfl, header := ⟨69, rfl, by decide, by decide⟩, minLen := by decide,
            lenField := rfl, fits := by decide }
        length := rfl
        verifies := by decide +kernel
        ours := ⟨0x0100000a, _, rfl, rfl⟩
        icmp := rfl
        message := by decide
        request := rfl
        checks := by decide +kernel }
  · intro h
    obtain ⟨queue, flushed, st', sent, -, hcall, hwire, -⟩ := h
    -- the call returns and has sent nothing
    have hquiet : (srHandlepacket gatewayRouter (srInit gatewayRouter)
        (echoRequestFrame (102, 213) (243, 250) [1, 2, 3]) [0x65] 100).toOption.map
          RouterState.wire = some [] := by
      decide +kernel
    rw [hcall] at hquiet
    have hempty : st'.wire = [] := Option.some.inj hquiet
    rw [hempty] at hwire
    exact absurd hwire.symm (by simp)

end UchiNetworks.Router
