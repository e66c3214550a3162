/-
Elise/Conn/RoundTrip.lean

What the encoders of the PROXY protocol write is what the decoders read
(src/conn/proxy_protocol.rs).

A v2 header is a frame: the signature, two bytes, the length of a payload and
the payload.  The stream decoder reads it by offsets from the start of the
header, the datagram decoder by offsets from the start of the payload; both
find the fields where the encoder put them (`v4_fields`, `v6_fields`), and
nothing behind the frame matters to either.  A v1 header is a line of words
that are separated by single spaces; none of them holds white space or a
carriage return, so that the line ends at its own CRLF and falls apart into
the same words, whatever follows it.
-/
import Elise.Conn.Segmentation

namespace Elise

open Net

/-- The address and the port alone, without flow info and scope id. -/
def withoutScope (addr : SocketAddr) : SocketAddr := .new addr.ip addr.port

/-- Both addresses are of one family. -/
def SameFamily : SocketAddr → SocketAddr → Prop
  | .v4 .., .v4 .. => True
  | .v6 .., .v6 .. => True
  | _, _ => False

/-! ### The v2 frame -/

def v2Frame (versionCmd famTrans : UInt8) (payload : List UInt8) : List UInt8 :=
  v2Signature ++ ([versionCmd, famTrans] ++ (toBeBytes 2 payload.length ++ payload))

/-- The four fields of a payload with addresses. -/
def v2Payload (src dst : List UInt8) (srcPort dstPort : UInt16) : List UInt8 :=
  src ++ (dst ++ (toBeBytes 2 srcPort.toNat ++ toBeBytes 2 dstPort.toNat))

theorem length_v2Payload (src dst : List UInt8) (srcPort dstPort : UInt16) :
    (v2Payload src dst srcPort dstPort).length = src.length + dst.length + 4 := by
  simp only [v2Payload, List.length_append, length_toBeBytes]
  omega

theorem encodeV2_v4 (sIp dIp : Ipv4Addr) (sPort dPort : UInt16) :
    encodeProxyProtocolV2 (.v4 sIp sPort) (.v4 dIp dPort) =
      v2Frame 0x21 0x11 (v2Payload sIp.octets dIp.octets sPort dPort) := by
  rw [v2Frame, length_v2Payload, sIp.length_octets, dIp.length_octets]
  simp [encodeProxyProtocolV2, v2Payload]

theorem encodeV2_v6 (sIp dIp : Ipv6Addr) (sPort dPort : UInt16) (sFlow sScope dFlow dScope : UInt32) :
    encodeProxyProtocolV2 (.v6 sIp sPort sFlow sScope) (.v6 dIp dPort dFlow dScope) =
      v2Frame 0x21 0x21 (v2Payload sIp.octets dIp.octets sPort dPort) := by
  rw [v2Frame, length_v2Payload, sIp.length_octets, dIp.length_octets]
  simp [encodeProxyProtocolV2, v2Payload]

theorem encodeV2_mixed {src dst : SocketAddr} (h : ¬ SameFamily src dst) :
    encodeProxyProtocolV2 src dst = v2Frame 0x20 0x00 [] := by
  cases src <;> cases dst
  · exact absurd trivial h
  · rfl
  · rfl
  · exact absurd trivial h

section

variable (versionCmd famTrans : UInt8) (payload p : List UInt8)

theorem length_v2Frame : (v2Frame versionCmd famTrans payload).length = 16 + payload.length := by
  simp only [v2Frame, List.length_append, length_toBeBytes]
  show 12 + (2 + (2 + payload.length)) = _
  omega

theorem byteAt_12_v2Frame : byteAt (v2Frame versionCmd famTrans payload ++ p) 12 = versionCmd :=
  rfl

theorem byteAt_13_v2Frame : byteAt (v2Frame versionCmd famTrans payload ++ p) 13 = famTrans :=
  rfl

theorem u16At_v2Frame (h : payload.length < 65536) :
    (u16At (v2Frame versionCmd famTrans payload ++ p) 14).toNat = payload.length := by
  have hn : (UInt16.ofNat payload.length).toNat = payload.length := UInt16.toNat_ofNat_of_lt h
  have hframe : v2Frame versionCmd famTrans payload ++ p =
      (v2Signature ++ [versionCmd, famTrans]) ++
        (toBeBytes 2 (UInt16.ofNat payload.length).toNat ++ (payload ++ p)) := by
    rw [hn]
    simp [v2Frame]
  have hbefore : (v2Signature ++ [versionCmd, famTrans]).length = 14 := rfl
  rw [hframe, u16At_append _ hbefore, hn]

theorem totalV2Len_v2Frame (h : payload.length < 65536) :
    totalV2Len (v2Frame versionCmd famTrans payload ++ p) =
      (v2Frame versionCmd famTrans payload).length := by
  rw [totalV2Len, u16At_v2Frame _ _ _ _ h, length_v2Frame]

theorem drop_16_v2Frame : (v2Frame versionCmd famTrans payload).drop 16 = payload := by
  have hframe : v2Frame versionCmd famTrans payload =
      (v2Signature ++ [versionCmd, famTrans] ++ toBeBytes 2 payload.length) ++ payload := by
    simp [v2Frame]
  rw [hframe]
  exact List.drop_left' (by simp [length_toBeBytes, v2Signature])

/-- The stream decoder takes the frame off and keeps the rest. -/
theorem v2Outcome_v2Frame (mode : ProxyProtocolMode) (trusted : Bool) (connMeta : ConnectionMeta)
    (h : payload.length < 65536) (hversion : versionCmd >>> 4 = 2) :
    v2Outcome mode trusted connMeta (v2Frame versionCmd famTrans payload ++ p) =
      match v2Addresses (v2Frame versionCmd famTrans payload ++ p) with
      | some (client, dest) => announceOutcome mode trusted connMeta 2 client dest p
      | none => some ({ connMeta with proxyProtocolVersion := some 2 }, p) := by
  have hlen : ¬ (v2Frame versionCmd famTrans payload ++ p).length < 16 := by
    rw [List.length_append, length_v2Frame]
    omega
  have hver : v2Version (v2Frame versionCmd famTrans payload ++ p) = 2 := hversion
  have htotal := totalV2Len_v2Frame versionCmd famTrans payload p h
  have hshort : ¬ (v2Frame versionCmd famTrans payload ++ p).length <
      totalV2Len (v2Frame versionCmd famTrans payload ++ p) := by
    rw [htotal, List.length_append]
    omega
  have hrest : (v2Frame versionCmd famTrans payload ++ p).drop
      (totalV2Len (v2Frame versionCmd famTrans payload ++ p)) = p := by
    rw [htotal, List.drop_left]
  rw [v2Outcome, if_neg hlen, if_neg (not_not_intro hver), if_neg hshort]
  cases v2Addresses (v2Frame versionCmd famTrans payload ++ p) with
  | none => exact congrArg (fun rest => some (_, rest)) hrest
  | some pair => exact congrArg (announceOutcome mode trusted connMeta 2 pair.1 pair.2) hrest

/-- The datagram decoder takes the frame off and keeps the rest. -/
theorem datagram_v2Frame {mode : ProxyProtocolMode} (hmode : mode ≠ .off)
    (h : payload.length < 65536) (hversion : versionCmd >>> 4 = 2) :
    parseProxyProtocolDatagram (v2Frame versionCmd famTrans payload ++ p) mode =
      .ok (datagramSource (versionCmd &&& 0x0F) famTrans payload, p) := by
  have hlen : ¬ (mode = .off ∨ (v2Frame versionCmd famTrans payload ++ p).length < 16) := by
    rw [List.length_append, length_v2Frame]
    rintro (hoff | hlt)
    · exact hmode hoff
    · omega
  have hsig : v2Signature.isPrefixOf (v2Frame versionCmd famTrans payload ++ p) = true := by
    rw [List.isPrefixOf_iff_prefix, v2Frame, List.append_assoc]
    exact List.prefix_append ..
  have hver : ¬ (byteAt (v2Frame versionCmd famTrans payload ++ p) 12 >>> 4 ≠ 2) :=
    not_not_intro hversion
  have htotal : 16 + (u16At (v2Frame versionCmd famTrans payload ++ p) 14).toNat =
      (v2Frame versionCmd famTrans payload).length :=
    totalV2Len_v2Frame versionCmd famTrans payload p h
  have hshort : ¬ (v2Frame versionCmd famTrans payload ++ p).length <
      (v2Frame versionCmd famTrans payload).length := by
    rw [List.length_append]
    omega
  rw [parseProxyProtocolDatagram]
  rw [if_neg hlen, if_pos hsig]
  dsimp only
  rw [if_neg hver, htotal, if_neg hshort, List.take_left, List.drop_left, drop_16_v2Frame]
  rfl

end

/-! ### The fields of a payload -/

section

variable (before p : List UInt8) (sPort dPort : UInt16)

/-- The fields are at their offsets, wherever the payload starts and whatever
follows it. -/
theorem v2Payload_fields {src dst : List UInt8} {k n : Nat} (hk : before.length = k)
    (hs : src.length = n) (hd : dst.length = n) :
    let bs := before ++ (v2Payload src dst sPort dPort ++ p)
    bytesAt bs k n = src ∧ bytesAt bs (k + n) n = dst ∧
      u16At bs (k + 2 * n) = sPort ∧ u16At bs (k + 2 * n + 2) = dPort := by
  intro bs
  -- the same bytes, cut in front of each field
  have hport := length_toBeBytes 2 sPort.toNat
  obtain ⟨ports, hports⟩ : ∃ ports, ports = toBeBytes 2 sPort.toNat := ⟨_, rfl⟩
  obtain ⟨portd, hportd⟩ : ∃ portd, portd = toBeBytes 2 dPort.toNat := ⟨_, rfl⟩
  have hbs : bs = before ++ (src ++ (dst ++ (ports ++ (portd ++ p)))) := by
    simp only [bs, v2Payload, hports, hportd, List.append_assoc]
  have hbs₁ : bs = (before ++ src) ++ (dst ++ (ports ++ (portd ++ p))) := by
    simp only [hbs, List.append_assoc]
  have hbs₂ : bs = (before ++ (src ++ dst)) ++ (ports ++ (portd ++ p)) := by
    simp only [hbs, List.append_assoc]
  have hbs₃ : bs = (before ++ (src ++ (dst ++ ports))) ++ (portd ++ p) := by
    simp only [hbs, List.append_assoc]
  rw [← hports] at hport
  refine ⟨?_, ?_, ?_, ?_⟩
  · rw [hbs]
    exact bytesAt_append hk hs
  · rw [hbs₁]
    exact bytesAt_append (by simp only [List.length_append]; omega) hd
  · rw [hbs₂, hports]
    exact u16At_append sPort (by simp only [List.length_append]; omega)
  · rw [hbs₃, hportd]
    exact u16At_append dPort (by simp only [List.length_append]; omega)

theorem v4_fields {k : Nat} (sIp dIp : Ipv4Addr) (hk : before.length = k) :
    let bs := before ++ (v2Payload sIp.octets dIp.octets sPort dPort ++ p)
    ipv4At bs k = sIp ∧ ipv4At bs (k + 4) = dIp ∧ u16At bs (k + 8) = sPort ∧
      u16At bs (k + 10) = dPort := by
  obtain ⟨hs, hd, hports⟩ :=
    v2Payload_fields before p sPort dPort hk sIp.length_octets dIp.length_octets
  exact ⟨Ipv4Addr.ext hs, Ipv4Addr.ext hd, hports⟩

theorem v6_fields {k : Nat} (sIp dIp : Ipv6Addr) (hk : before.length = k) :
    let bs := before ++ (v2Payload sIp.octets dIp.octets sPort dPort ++ p)
    ipv6At bs k = sIp ∧ ipv6At bs (k + 16) = dIp ∧ u16At bs (k + 32) = sPort ∧
      u16At bs (k + 34) = dPort := by
  obtain ⟨hs, hd, hports⟩ :=
    v2Payload_fields before p sPort dPort hk sIp.length_octets dIp.length_octets
  exact ⟨Ipv6Addr.ext hs, Ipv6Addr.ext hd, hports⟩

end

/-- A frame with a payload behind its first 16 bytes. -/
theorem v2Frame_append (versionCmd famTrans : UInt8) (payload p : List UInt8) :
    v2Frame versionCmd famTrans payload ++ p =
      (v2Signature ++ [versionCmd, famTrans] ++ toBeBytes 2 payload.length) ++ (payload ++ p) := by
  simp only [v2Frame, List.append_assoc]

theorem v2Addresses_v4 (sIp dIp : Ipv4Addr) (sPort dPort : UInt16) (p : List UInt8) :
    v2Addresses (v2Frame 0x21 0x11 (v2Payload sIp.octets dIp.octets sPort dPort) ++ p) =
      some (.v4 sIp sPort, .v4 dIp dPort) := by
  have hlen : (v2Payload sIp.octets dIp.octets sPort dPort).length = 12 := by
    rw [length_v2Payload, sIp.length_octets, dIp.length_octets]
  have hu16 := u16At_v2Frame 0x21 0x11 (v2Payload sIp.octets dIp.octets sPort dPort) p (by omega)
  obtain ⟨hs, hd, hsp, hdp⟩ := @v4_fields (v2Signature ++ [0x21, 0x11] ++
    toBeBytes 2 (v2Payload sIp.octets dIp.octets sPort dPort).length) p sPort dPort 16 sIp dIp
    (by rw [hlen]; rfl)
  rw [← v2Frame_append] at hs hd hsp hdp
  rw [v2Addresses]
  rw [byteAt_12_v2Frame, byteAt_13_v2Frame, hu16, hlen, hs, hd, hsp, hdp]
  exact (if_pos (by decide)).trans (if_pos (by decide))

theorem v2Addresses_v6 (sIp dIp : Ipv6Addr) (sPort dPort : UInt16) (p : List UInt8) :
    v2Addresses (v2Frame 0x21 0x21 (v2Payload sIp.octets dIp.octets sPort dPort) ++ p) =
      some (.v6 sIp sPort 0 0, .v6 dIp dPort 0 0) := by
  have hlen : (v2Payload sIp.octets dIp.octets sPort dPort).length = 36 := by
    rw [length_v2Payload, sIp.length_octets, dIp.length_octets]
  have hu16 := u16At_v2Frame 0x21 0x21 (v2Payload sIp.octets dIp.octets sPort dPort) p (by omega)
  obtain ⟨hs, hd, hsp, hdp⟩ := @v6_fields (v2Signature ++ [0x21, 0x21] ++
    toBeBytes 2 (v2Payload sIp.octets dIp.octets sPort dPort).length) p sPort dPort 16 sIp dIp
    (by rw [hlen]; rfl)
  rw [← v2Frame_append] at hs hd hsp hdp
  rw [v2Addresses]
  rw [byteAt_12_v2Frame, byteAt_13_v2Frame, hu16, hlen, hs, hd, hsp, hdp]
  exact (if_pos (by decide)).trans ((if_neg (by decide)).trans (if_pos (by decide)))

theorem v2Addresses_local (payload p : List UInt8) :
    v2Addresses (v2Frame 0x20 0x00 payload ++ p) = none := by
  rw [v2Addresses]
  rw [byteAt_12_v2Frame]
  exact if_neg (by decide)

theorem datagramSource_v4 (sIp dIp : Ipv4Addr) (sPort dPort : UInt16) :
    datagramSource 0x01 0x11 (v2Payload sIp.octets dIp.octets sPort dPort) =
      some (.v4 sIp sPort) := by
  have hlen : (v2Payload sIp.octets dIp.octets sPort dPort).length = 12 := by
    rw [length_v2Payload, sIp.length_octets, dIp.length_octets]
  obtain ⟨hs, -, hsp, -⟩ := @v4_fields [] [] sPort dPort 0 sIp dIp rfl
  rw [List.nil_append, List.append_nil] at hs hsp
  rw [datagramSource]
  rw [hlen, hs, hsp]
  exact (if_pos (by decide)).trans (if_pos (by decide))

theorem datagramSource_v6 (sIp dIp : Ipv6Addr) (sPort dPort : UInt16) :
    datagramSource 0x01 0x21 (v2Payload sIp.octets dIp.octets sPort dPort) =
      some (.v6 sIp sPort 0 0) := by
  have hlen : (v2Payload sIp.octets dIp.octets sPort dPort).length = 36 := by
    rw [length_v2Payload, sIp.length_octets, dIp.length_octets]
  obtain ⟨hs, -, hsp, -⟩ := @v6_fields [] [] sPort dPort 0 sIp dIp rfl
  rw [List.nil_append, List.append_nil] at hs hsp
  rw [datagramSource]
  rw [hlen, hs, hsp]
  exact (if_pos (by decide)).trans ((if_neg (by decide)).trans (if_pos (by decide)))

/-! ### The v1 line -/

/-- The first CRLF is the one after a text without carriage returns. -/
theorem findCrlf_line {line : List UInt8} (h : ∀ b ∈ line, b ≠ 0x0D) (p : List UInt8) :
    findCrlf (line ++ 0x0D :: 0x0A :: p) = some line.length := by
  induction line with
  | nil => rfl
  | cons a line ih =>
      have ha : a ≠ 0x0D := h a (by simp)
      have hrest := ih fun b hb => h b (List.mem_cons_of_mem _ hb)
      cases line with
      | nil => simp [findCrlf, ha]
      | cons b line =>
          simp only [List.cons_append, findCrlf, ha, false_and, if_false] at hrest ⊢
          rw [hrest]
          rfl

/-- The header with a line of words. -/
def v1Header (words : List (List Char)) : List UInt8 :=
  Text.toUtf8 ([' '].intercalate words) ++ [0x0D, 0x0A]

theorem toUtf8_crlf (cs : List Char) :
    Text.toUtf8 (cs ++ ['\r', '\n']) = Text.toUtf8 cs ++ [0x0D, 0x0A] :=
  Text.toUtf8_append cs ['\r', '\n']

theorem encodeV1_v4 (sIp dIp : Ipv4Addr) (sPort dPort : UInt16) :
    encodeProxyProtocolV1 (.v4 sIp sPort) (.v4 dIp dPort) =
      v1Header ["PROXY".toList, "TCP4".toList, sIp.chars, dIp.chars,
        Nat.toDigits 10 sPort.toNat, Nat.toDigits 10 dPort.toNat] :=
  toUtf8_crlf _

theorem encodeV1_v6 (sIp dIp : Ipv6Addr) (sPort dPort : UInt16) (sFlow sScope dFlow dScope : UInt32) :
    encodeProxyProtocolV1 (.v6 sIp sPort sFlow sScope) (.v6 dIp dPort dFlow dScope) =
      v1Header ["PROXY".toList, "TCP6".toList, sIp.chars, dIp.chars,
        Nat.toDigits 10 sPort.toNat, Nat.toDigits 10 dPort.toNat] :=
  toUtf8_crlf _

theorem encodeV1_mixed {src dst : SocketAddr} (h : ¬ SameFamily src dst) :
    encodeProxyProtocolV1 src dst = v1Header ["PROXY".toList, "UNKNOWN".toList] := by
  cases src <;> cases dst
  · exact absurd trivial h
  · rfl
  · rfl
  · exact absurd trivial h

/-- Words of graphic characters, the first of them `PROXY` and not the only
one. -/
structure V1Words (words : List (List Char)) : Prop where
  isWord : ∀ word ∈ words, Text.IsWord word
  start : ∃ word rest, words = "PROXY".toList :: word :: rest

theorem V1Words.ne_nil {words : List (List Char)} (h : V1Words words) : words ≠ [] := by
  obtain ⟨word, rest, rfl⟩ := h.start
  exact List.cons_ne_nil _ _

theorem V1Words.take_header {words : List (List Char)} (h : V1Words words) (p : List UInt8) :
    (v1Header words ++ p).take 6 = v1Start := by
  obtain ⟨word, rest, rfl⟩ := h.start
  have hline : [' '].intercalate ("PROXY".toList :: word :: rest) =
      "PROXY ".toList ++ [' '].intercalate (word :: rest) := by
    rw [List.intercalate_cons_cons]
    rfl
  rw [v1Header, hline, Text.toUtf8_append, List.append_assoc, List.append_assoc]
  rfl

theorem V1Words.no_cr {words : List (List Char)} (h : V1Words words) :
    ∀ b ∈ Text.toUtf8 ([' '].intercalate words), b ≠ 0x0D := by
  have hchars : ∀ c ∈ [' '].intercalate words, 0x20 ≤ c.toNat ∧ c.toNat ≤ 0x7E := by
    refine Text.forall_mem_intercalate (P := fun c => 0x20 ≤ c.toNat ∧ c.toNat ≤ 0x7E)
      (by decide) ?_
    intro word hword c hc
    have hgraphic := (h.isWord word hword).graphic c hc
    exact ⟨Nat.le_of_succ_le hgraphic.1, hgraphic.2⟩
  intro b hb
  rw [Text.toUtf8_ascii fun c hc => Nat.lt_of_le_of_lt (hchars c hc).2 (by decide)] at hb
  obtain ⟨c, hc, rfl⟩ := List.mem_map.mp hb
  obtain ⟨hlow, hhigh⟩ := hchars c hc
  intro hcr
  have hnat : (UInt8.ofNat c.toNat).toNat = 13 := congrArg UInt8.toNat hcr
  rw [UInt8.toNat_ofNat', Nat.mod_eq_of_lt (by omega)] at hnat
  omega

section

variable (parseIp : List Char → Option IpAddr) (mode : ProxyProtocolMode) (trusted : Bool)
variable (connMeta : ConnectionMeta)

theorem V1Words.parse {words : List (List Char)} (h : V1Words words) :
    parseV1Line parseIp (Text.toUtf8 ([' '].intercalate words)) = parseV1Parts parseIp words := by
  rw [parseV1Line, Text.fromUtf8_toUtf8]
  dsimp only
  rw [Text.splitWhitespace_intercalate h.isWord h.ne_nil]

theorem V1Words.findCrlf_header {words : List (List Char)} (h : V1Words words) (p : List UInt8) :
    findCrlf (v1Header words ++ p) = some (Text.toUtf8 ([' '].intercalate words)).length := by
  rw [v1Header, List.append_assoc]
  exact findCrlf_line h.no_cr p

/-- The stream decoder takes the line apart into its words and keeps the
rest. -/
theorem V1Words.headerOutcome {words : List (List Char)} (h : V1Words words) (p : List UInt8)
    (hparts : parseV1Parts parseIp words ≠ .malformed) :
    headerOutcome parseIp mode trusted connMeta (v1Header words ++ p) =
      match parseV1Parts parseIp words with
      | .announced client dest => announceOutcome mode trusted connMeta 1 client dest p
      | _ => some ({ connMeta with proxyProtocolVersion := some 1 }, p) := by
  obtain ⟨line, hline⟩ : ∃ line, line = Text.toUtf8 ([' '].intercalate words) := ⟨_, rfl⟩
  have hsig := take_ne_v2Signature (h.take_header p)
  have htake : (v1Header words ++ p).take line.length = line := by
    rw [v1Header, ← hline, List.append_assoc, List.take_left]
  have hdrop : (v1Header words ++ p).drop (line.length + 2) = p := by
    apply List.drop_left'
    rw [v1Header, ← hline, List.length_append]
    rfl
  rw [Elise.headerOutcome, if_neg hsig, h.findCrlf_header p, ← hline]
  dsimp only
  rw [v1Outcome, htake, hdrop, hline, h.parse parseIp]
  cases hwords : parseV1Parts parseIp words with
  | announced client dest => rfl
  | unknown => rfl
  | malformed => exact absurd hwords hparts

end

theorem parseU16_toDigits (port : UInt16) : parseU16 (Nat.toDigits 10 port.toNat) = some port := by
  have hle : port.toNat ≤ 65535 := Nat.le_of_lt_succ port.toNat_lt
  rw [parseU16, ← Nat.toList_repr, Text.parseUnsigned_repr hle, Option.map_some, UInt16.ofNat_toNat]

/-- Six words with a TCP family announce the addresses that they spell. -/
theorem parseV1Parts_tcp {parseIp : List Char → Option IpAddr} {family : List Char}
    {srcIp dstIp : IpAddr} (sPort dPort : UInt16)
    (hfamily : family = "TCP4".toList ∨ family = "TCP6".toList)
    (hsrc : parseIp srcIp.chars = some srcIp) (hdst : parseIp dstIp.chars = some dstIp) :
    parseV1Parts parseIp ["PROXY".toList, family, srcIp.chars, dstIp.chars,
        Nat.toDigits 10 sPort.toNat, Nat.toDigits 10 dPort.toNat] =
      .announced (.new srcIp sPort) (.new dstIp dPort) := by
  rw [parseV1Parts]
  simp only [List.getD_cons_succ, List.getD_cons_zero]
  rw [if_pos ⟨by simp, hfamily⟩, hsrc, hdst, parseU16_toDigits, parseU16_toDigits]

theorem parseV1Parts_unknown (parseIp : List Char → Option IpAddr) :
    parseV1Parts parseIp ["PROXY".toList, "UNKNOWN".toList] = .unknown := rfl

theorem v1Words_tcp {family : List Char} (srcIp dstIp : IpAddr) (sPort dPort : UInt16)
    (hfamily : family = "TCP4".toList ∨ family = "TCP6".toList) :
    V1Words ["PROXY".toList, family, srcIp.chars, dstIp.chars,
      Nat.toDigits 10 sPort.toNat, Nat.toDigits 10 dPort.toNat] where
  start := ⟨_, _, rfl⟩
  isWord := by
    have hproxy : Text.IsWord "PROXY".toList := by decide
    have hfam : Text.IsWord family := by
      rcases hfamily with rfl | rfl <;> decide
    have hport := fun port : UInt16 =>
      Text.isWord_toDigits 10 port.toNat (by decide) (by decide)
    simp only [List.mem_cons, List.not_mem_nil, or_false, forall_eq_or_imp, forall_eq]
    exact ⟨hproxy, hfam, srcIp.isWord_chars, dstIp.isWord_chars, hport sPort, hport dPort⟩

theorem v1Words_unknown : V1Words ["PROXY".toList, "UNKNOWN".toList] where
  start := ⟨_, _, rfl⟩
  isWord := by
    simp only [List.mem_cons, List.not_mem_nil, or_false, forall_eq_or_imp, forall_eq]
    exact ⟨by decide, by decide⟩

/-! ### Reading what was encoded -/

/-- A successful read with this client, this destination and this rest. -/
def Yields (r : ReadResult) (client : SocketAddr) (dest : Option SocketAddr)
    (rest : List UInt8) : Prop :=
  ∃ connMeta s, r = .ok (connMeta, s) ∧ connMeta.clientAddr = client ∧
    connMeta.proxyDestinationAddr = dest ∧ s.bytes = rest

theorem yields_of_outcome {r : ReadResult} {connMeta : ConnectionMeta} {rest : List UInt8}
    (h : outcome r = some (connMeta, rest)) :
    Yields r connMeta.clientAddr connMeta.proxyDestinationAddr rest := by
  rcases r with e | ⟨connMeta', s⟩
  · cases h
  · obtain ⟨rfl, hbytes⟩ := Prod.mk.inj (Option.some.inj h)
    exact ⟨connMeta', s, rfl, rfl, rfl, hbytes⟩

section

variable {IpNet : Type} (contains : IpNet → IpAddr → Bool)
variable (parseIp : List Char → Option IpAddr)
variable (peerAddr : SocketAddr) {mode : ProxyProtocolMode} (trustedProxies : Option (List IpNet))
variable {s : ByteStream} {p : List UInt8}

theorem outcome_v1Header {words : List (List Char)} (h : V1Words words) (hmode : mode ≠ .off)
    (hbytes : s.bytes = v1Header words ++ p) (hread : (v1Header words).length ≤ firstReadLen s)
    (hparts : parseV1Parts parseIp words ≠ .malformed) :
    outcome (readProxyProtocolWithMeta contains parseIp s peerAddr mode trustedProxies) =
      match parseV1Parts parseIp words with
      | .announced client dest =>
          announceOutcome mode (isTrusted contains peerAddr trustedProxies) (.new peerAddr) 1
            client dest p
      | _ => some ({ ConnectionMeta.new peerAddr with proxyProtocolVersion := some 1 }, p) := by
  -- the first read holds the line with its CRLF, so the header is found
  have hlen : (v1Header words).length = (Text.toUtf8 ([' '].intercalate words)).length + 2 :=
    List.length_append
  have hsix : 6 ≤ (v1Header words).length := by
    have htake := congrArg List.length (h.take_header [])
    rw [List.append_nil, List.length_take] at htake
    have hstart : v1Start.length = 6 := rfl
    omega
  have hne : s.bytes ≠ [] := by
    rw [hbytes]
    intro hnil
    rw [(List.append_eq_nil_iff.mp hnil).1] at hsix
    exact absurd hsix (by decide)
  have hreach : Reaches s.bytes (firstReadLen s) := by
    rw [hbytes]
    refine .inr ⟨h.take_header p, by omega, _, h.findCrlf_header p, ?_⟩
    omega
  rw [outcome_read_of_reaches contains parseIp peerAddr trustedProxies hmode hne hreach, hbytes,
    h.headerOutcome parseIp _ _ _ p hparts]

theorem outcome_v2Frame {versionCmd famTrans : UInt8} {payload : List UInt8}
    (hmode : mode ≠ .off) (hbytes : s.bytes = v2Frame versionCmd famTrans payload ++ p)
    (hread : (v2Frame versionCmd famTrans payload).length ≤ firstReadLen s)
    (h : payload.length < 65536) (hversion : versionCmd >>> 4 = 2) :
    outcome (readProxyProtocolWithMeta contains parseIp s peerAddr mode trustedProxies) =
      match v2Addresses (v2Frame versionCmd famTrans payload ++ p) with
      | some (client, dest) =>
          announceOutcome mode (isTrusted contains peerAddr trustedProxies) (.new peerAddr) 2
            client dest p
      | none => some ({ ConnectionMeta.new peerAddr with proxyProtocolVersion := some 2 }, p) := by
  rw [length_v2Frame] at hread
  have hsig : s.bytes.take 12 = v2Signature := by
    rw [hbytes]
    rfl
  have hne : s.bytes ≠ [] := by
    intro hnil
    rw [hnil] at hsig
    cases hsig
  rw [outcome_read_of_reaches contains parseIp peerAddr trustedProxies hmode hne
    (.inl ⟨hsig, by omega⟩), headerOutcome, if_pos hsig, hbytes]
  exact v2Outcome_v2Frame versionCmd famTrans payload p mode _ _ h hversion

theorem announceOutcome_trusted (mode : ProxyProtocolMode) (connMeta : ConnectionMeta)
    (version : UInt8) (client dest : SocketAddr) (rest : List UInt8) :
    announceOutcome mode true connMeta version client dest rest =
      some ({ connMeta with
                clientAddr := client
                proxyDestinationAddr := some dest
                proxyProtocolVersion := some version }, rest) := rfl

variable {contains peerAddr trustedProxies}

theorem yields_v1_tcp {family : List Char} {srcIp dstIp : IpAddr} {sPort dPort : UInt16}
    (hmode : mode ≠ .off) (htrusted : isTrusted contains peerAddr trustedProxies = true)
    (hfamily : family = "TCP4".toList ∨ family = "TCP6".toList)
    (hsrc : parseIp srcIp.chars = some srcIp) (hdst : parseIp dstIp.chars = some dstIp)
    (hbytes : s.bytes = v1Header ["PROXY".toList, family, srcIp.chars, dstIp.chars,
      Nat.toDigits 10 sPort.toNat, Nat.toDigits 10 dPort.toNat] ++ p)
    (hread : (v1Header ["PROXY".toList, family, srcIp.chars, dstIp.chars,
      Nat.toDigits 10 sPort.toNat, Nat.toDigits 10 dPort.toNat]).length ≤ firstReadLen s) :
    Yields (readProxyProtocolWithMeta contains parseIp s peerAddr mode trustedProxies)
      (.new srcIp sPort) (some (.new dstIp dPort)) p := by
  have hparts := parseV1Parts_tcp sPort dPort hfamily hsrc hdst
  have hout := outcome_v1Header contains parseIp peerAddr trustedProxies
    (v1Words_tcp srcIp dstIp sPort dPort hfamily) hmode hbytes hread
    (by rw [hparts]; exact V1Line.noConfusion)
  rw [hparts, htrusted] at hout
  exact yields_of_outcome (hout.trans (announceOutcome_trusted ..))

theorem yields_v2_addresses {famTrans : UInt8} {payload : List UInt8} {client dest : SocketAddr}
    (hmode : mode ≠ .off) (htrusted : isTrusted contains peerAddr trustedProxies = true)
    (hbytes : s.bytes = v2Frame 0x21 famTrans payload ++ p)
    (hread : (v2Frame 0x21 famTrans payload).length ≤ firstReadLen s)
    (h : payload.length < 65536)
    (haddr : v2Addresses (v2Frame 0x21 famTrans payload ++ p) = some (client, dest)) :
    Yields (readProxyProtocolWithMeta contains parseIp s peerAddr mode trustedProxies)
      client (some dest) p := by
  have hout := outcome_v2Frame contains parseIp peerAddr trustedProxies hmode hbytes hread h rfl
  rw [haddr, htrusted] at hout
  exact yields_of_outcome (hout.trans (announceOutcome_trusted ..))

end

/-- **One family.**  The three decoders agree on a line and a frame that spell
the same addresses. -/
theorem decoders_agree {IpNet : Type} {contains : IpNet → IpAddr → Bool}
    {parseIp : List Char → Option IpAddr} {peerAddr : SocketAddr} {mode : ProxyProtocolMode}
    {trustedProxies : Option (List IpNet)} {s₁ s₂ : ByteStream} {p : List UInt8}
    {family : List Char} {famTrans : UInt8} {payload : List UInt8} {srcIp dstIp : IpAddr}
    {sPort dPort : UInt16} (hmode : mode ≠ .off)
    (htrusted : isTrusted contains peerAddr trustedProxies = true)
    (hfamily : family = "TCP4".toList ∨ family = "TCP6".toList)
    (hsrc : parseIp srcIp.chars = some srcIp) (hdst : parseIp dstIp.chars = some dstIp)
    (hbytes₁ : s₁.bytes = v1Header ["PROXY".toList, family, srcIp.chars, dstIp.chars,
      Nat.toDigits 10 sPort.toNat, Nat.toDigits 10 dPort.toNat] ++ p)
    (hread₁ : (v1Header ["PROXY".toList, family, srcIp.chars, dstIp.chars,
      Nat.toDigits 10 sPort.toNat, Nat.toDigits 10 dPort.toNat]).length ≤ firstReadLen s₁)
    (hbytes₂ : s₂.bytes = v2Frame 0x21 famTrans payload ++ p)
    (hread₂ : (v2Frame 0x21 famTrans payload).length ≤ firstReadLen s₂)
    (hlen : payload.length < 65536)
    (haddr : v2Addresses (v2Frame 0x21 famTrans payload ++ p) =
      some (.new srcIp sPort, .new dstIp dPort))
    (hdatagram : datagramSource 0x01 famTrans payload = some (.new srcIp sPort)) :
    Yields (readProxyProtocolWithMeta contains parseIp s₁ peerAddr mode trustedProxies)
        (.new srcIp sPort) (some (.new dstIp dPort)) p ∧
      Yields (readProxyProtocolWithMeta contains parseIp s₂ peerAddr mode trustedProxies)
        (.new srcIp sPort) (some (.new dstIp dPort)) p ∧
      parseProxyProtocolDatagram (v2Frame 0x21 famTrans payload ++ p) mode =
        .ok (some (.new srcIp sPort), p) := by
  refine ⟨?_, ?_, ?_⟩
  · exact yields_v1_tcp parseIp hmode htrusted hfamily hsrc hdst hbytes₁ hread₁
  · exact yields_v2_addresses parseIp hmode htrusted hbytes₂ hread₂ hlen haddr
  · rw [datagram_v2Frame _ _ _ _ hmode hlen rfl]
    show Except.ok (datagramSource 0x01 famTrans payload, p) = _
    rw [hdatagram]

/-- **Mixed families.**  Neither header announces a source. -/
theorem outcome_mixed {IpNet : Type} (contains : IpNet → IpAddr → Bool)
    (parseIp : List Char → Option IpAddr) (peerAddr : SocketAddr) {mode : ProxyProtocolMode}
    (trustedProxies : Option (List IpNet)) {src dst : SocketAddr} {s : ByteStream}
    {header p : List UInt8} (hmode : mode ≠ .off) (h : ¬ SameFamily src dst)
    (hheader : header = encodeProxyProtocolV1 src dst ∨ header = encodeProxyProtocolV2 src dst)
    (hbytes : s.bytes = header ++ p) (hread : header.length ≤ firstReadLen s) :
    ∃ version,
      outcome (readProxyProtocolWithMeta contains parseIp s peerAddr mode trustedProxies) =
        some ({ ConnectionMeta.new peerAddr with proxyProtocolVersion := some version }, p) := by
  rcases hheader with rfl | rfl
  · rw [encodeV1_mixed h] at hbytes hread
    have hout := outcome_v1Header contains parseIp peerAddr trustedProxies v1Words_unknown hmode
      hbytes hread (by rw [parseV1Parts_unknown]; exact V1Line.noConfusion)
    exact ⟨1, hout⟩
  · rw [encodeV2_mixed h] at hbytes hread
    have hout := outcome_v2Frame contains parseIp peerAddr trustedProxies hmode hbytes hread
      (by decide) rfl
    rw [v2Addresses_local] at hout
    exact ⟨2, hout⟩

/-- Nothing was announced, so that there is no source. -/
theorem readProxyProtocol_none {IpNet : Type} (contains : IpNet → IpAddr → Bool)
    (parseIp : List Char → Option IpAddr) {mode : ProxyProtocolMode} {s : ByteStream}
    {p : List UInt8} {version : UInt8}
    (h : outcome (readProxyProtocolWithMeta contains parseIp s (.v4 (.new 0 0 0 0) 0) mode none) =
      some ({ ConnectionMeta.new (.v4 (.new 0 0 0 0) 0) with
                proxyProtocolVersion := some version }, p)) :
    ∃ s', readProxyProtocol contains parseIp s mode = .ok (none, s') ∧ s'.bytes = p := by
  rw [readProxyProtocol]
  dsimp only
  generalize readProxyProtocolWithMeta contains parseIp s (.v4 (.new 0 0 0 0) 0) mode none = r
    at h ⊢
  rcases r with e | ⟨connMeta, s'⟩
  · cases h
  · obtain ⟨rfl, hbytes⟩ := Prod.mk.inj (Option.some.inj h)
    exact ⟨s', by simp [ConnectionMeta.new], hbytes⟩

/-- **Round trip.**  A header that was encoded for two addresses of one family
announces them to the stream decoder and to the datagram decoder, in front of
exactly the payload; for mixed families there is no source, and the payload is
the same.  `parseIp` reads back the text of the two addresses. -/
theorem proxy_protocol_round_trip {IpNet : Type} (contains : IpNet → IpAddr → Bool)
    (parseIp : List Char → Option IpAddr) (peerAddr : SocketAddr) (mode : ProxyProtocolMode)
    (trustedProxies : Option (List IpNet)) (src dst : SocketAddr) (p : List UInt8)
    (s₁ s₂ : ByteStream) (hmode : mode ≠ .off)
    (htrusted : isTrusted contains peerAddr trustedProxies = true)
    (hsrc : parseIp src.ip.chars = some src.ip) (hdst : parseIp dst.ip.chars = some dst.ip)
    (hbytes₁ : s₁.bytes = encodeProxyProtocolV1 src dst ++ p)
    (hread₁ : (encodeProxyProtocolV1 src dst).length ≤ firstReadLen s₁)
    (hbytes₂ : s₂.bytes = encodeProxyProtocolV2 src dst ++ p)
    (hread₂ : (encodeProxyProtocolV2 src dst).length ≤ firstReadLen s₂) :
    (SameFamily src dst →
      Yields (readProxyProtocolWithMeta contains parseIp s₁ peerAddr mode trustedProxies)
          (withoutScope src) (some (withoutScope dst)) p ∧
        Yields (readProxyProtocolWithMeta contains parseIp s₂ peerAddr mode trustedProxies)
          (withoutScope src) (some (withoutScope dst)) p ∧
        parseProxyProtocolDatagram (encodeProxyProtocolV2 src dst ++ p) mode =
          .ok (some (withoutScope src), p)) ∧
    (¬ SameFamily src dst →
      (∀ s, s = s₁ ∨ s = s₂ →
        Yields (readProxyProtocolWithMeta contains parseIp s peerAddr mode trustedProxies)
            peerAddr none p ∧
          ∃ s', readProxyProtocol contains parseIp s mode = .ok (none, s') ∧ s'.bytes = p) ∧
        parseProxyProtocolDatagram (encodeProxyProtocolV2 src dst ++ p) mode = .ok (none, p)) := by
  constructor
  · intro hsame
    match src, dst with
    | .v4 sIp sPort, .v4 dIp dPort =>
        rw [encodeV1_v4] at hbytes₁ hread₁
        rw [encodeV2_v4] at hbytes₂ hread₂ ⊢
        exact decoders_agree hmode htrusted (.inl rfl) hsrc hdst hbytes₁ hread₁ hbytes₂ hread₂
          (by rw [length_v2Payload, sIp.length_octets, dIp.length_octets]; decide)
          (v2Addresses_v4 sIp dIp sPort dPort p) (datagramSource_v4 sIp dIp sPort dPort)
    | .v6 sIp sPort _ _, .v6 dIp dPort _ _ =>
        rw [encodeV1_v6] at hbytes₁ hread₁
        rw [encodeV2_v6] at hbytes₂ hread₂ ⊢
        exact decoders_agree hmode htrusted (.inr rfl) hsrc hdst hbytes₁ hread₁ hbytes₂ hread₂
          (by rw [length_v2Payload, sIp.length_octets, dIp.length_octets]; decide)
          (v2Addresses_v6 sIp dIp sPort dPort p) (datagramSource_v6 sIp dIp sPort dPort)
    | .v4 .., .v6 .. => exact hsame.elim
    | .v6 .., .v4 .. => exact hsame.elim
  · intro hmixed
    refine ⟨?_, ?_⟩
    · intro s hs
      obtain ⟨header, hheader, hbytes, hread⟩ :
          ∃ header, (header = encodeProxyProtocolV1 src dst ∨
            header = encodeProxyProtocolV2 src dst) ∧
            s.bytes = header ++ p ∧ header.length ≤ firstReadLen s := by
        rcases hs with rfl | rfl
        · exact ⟨_, .inl rfl, hbytes₁, hread₁⟩
        · exact ⟨_, .inr rfl, hbytes₂, hread₂⟩
      obtain ⟨version, hout⟩ := outcome_mixed contains parseIp peerAddr trustedProxies hmode hmixed
        hheader hbytes hread
      obtain ⟨version', hout'⟩ := outcome_mixed contains parseIp (.v4 (.new 0 0 0 0) 0) none hmode
        hmixed hheader hbytes hread
      exact ⟨yields_of_outcome hout, readProxyProtocol_none contains parseIp hout'⟩
    · rw [encodeV2_mixed hmixed, datagram_v2Frame _ _ _ _ hmode (by decide) rfl]
      rfl

/-- Reads the texts of two addresses. -/
def sampleParseIp (cs : List Char) : Option IpAddr :=
  if cs = "1.2.3.4".toList then some (.v4 (.new 1 2 3 4))
  else if cs = "5.6.7.8".toList then some (.v4 (.new 5 6 7 8))
  else none

theorem proxy_protocol_round_trip_v4 :
    let src := SocketAddr.v4 (.new 1 2 3 4) 12345
    let dst := SocketAddr.v4 (.new 5 6 7 8) 80
    let peerAddr := SocketAddr.v4 (.new 10 0 0 5) 8888
    let read := fun s => readProxyProtocolWithMeta (fun net ip => decide (net = ip)) sampleParseIp s
      peerAddr .strict (some [peerAddr.ip])
    Yields (read (.single (encodeProxyProtocolV1 src dst ++ [0x05, 0x01]) (by decide)))
        src (some dst) [0x05, 0x01] ∧
      Yields (read (.single (encodeProxyProtocolV2 src dst ++ [0x05, 0x01]) (by decide)))
        src (some dst) [0x05, 0x01] ∧
      parseProxyProtocolDatagram (encodeProxyProtocolV2 src dst ++ [0x05, 0x01]) .strict =
        .ok (some src, [0x05, 0x01]) := by
  intro src dst peerAddr read
  apply (proxy_protocol_round_trip _ sampleParseIp peerAddr .strict (some [peerAddr.ip]) src dst
    [0x05, 0x01] (.single _ (by decide)) (.single _ (by decide)) (by decide) (by decide) (by decide)
    (by decide) (by decide) (by decide) (by decide) (by decide)).1
  trivial

end Elise
