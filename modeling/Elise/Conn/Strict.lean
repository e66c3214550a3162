/-
Elise/Conn/Strict.lean

What strict mode admits (src/conn/proxy_protocol.rs).

`HasHeader` says what a PROXY header is: a v2 header that is complete and whose command,
family and length fit together, or a v1 line with its CRLF.  Strict mode is meant to let a
connection through only behind such a header, and only from a trusted peer.

For a v1 line the grammar is that of the reader, and wider than that of the protocol: the
words may be apart by any white space and more of them may follow, a `TCP4` line may have IPv6
addresses, and a line may be longer than 107 bytes.

The reader checks the peer where a header announces addresses.  It does not
where a header announces none (`LOCAL`, a family it does not know, a payload
that is too short, an `UNKNOWN` line), and it checks nothing at all where the
peer closes the stream without a byte; the decoder for datagrams lets through
whatever is shorter than 16 bytes.  `strict_admits_exact` says that these are
all the ways around strict mode.  The program itself decodes no datagram in strict
mode: its one call of the decoder has `Auto`.
-/
import Elise.Conn.Segmentation

namespace Elise

open Net

/-! ### What a header is -/

def v2Command (bs : List UInt8) : UInt8 := byteAt bs 12 &&& 0x0F

def v2Family (bs : List UInt8) : UInt8 := (byteAt bs 13 >>> 4) &&& 0x0F

def v2PayloadLen (bs : List UInt8) : Nat := (u16At bs 14).toNat

/-- The bytes begin with a complete v2 header. -/
structure CompleteV2 (bs : List UInt8) : Prop where
  signature : bs.take 12 = v2Signature
  first : 16 ≤ bs.length
  version : v2Version bs = 2
  payload : totalV2Len bs ≤ bs.length

/-- `LOCAL`, or `PROXY` with a family of the protocol whose addresses are
there. -/
def V2Fields (bs : List UInt8) : Prop :=
  v2Command bs = 0 ∨
    (v2Command bs = 1 ∧
      (v2Family bs = 0 ∨ (v2Family bs = 1 ∧ 12 ≤ v2PayloadLen bs) ∨
        (v2Family bs = 2 ∧ 36 ≤ v2PayloadLen bs) ∨ (v2Family bs = 3 ∧ 216 ≤ v2PayloadLen bs)))

section

variable (parseIp : List Char → Option IpAddr)

/-- The words of a v1 line, as the reader takes them. -/
inductive V1Grammar : List (List Char) → Prop
  | tcp {start family src dst srcPort dstPort : List Char} {more : List (List Char)} :
      family = "TCP4".toList ∨ family = "TCP6".toList →
      (parseIp src).isSome → (parseIp dst).isSome →
      (parseU16 srcPort).isSome → (parseU16 dstPort).isSome →
      V1Grammar (start :: family :: src :: dst :: srcPort :: dstPort :: more)
  | unknown {start : List Char} {more : List (List Char)} :
      V1Grammar (start :: "UNKNOWN".toList :: more)

/-- The bytes begin with a v1 header. -/
def HasV1Header (bs : List UInt8) : Prop :=
  bs.take 6 = v1Start ∧
    ∃ pos text, findCrlf bs = some pos ∧ Text.fromUtf8 (bs.take pos) = some text ∧
      V1Grammar parseIp (Text.splitWhitespace text)

def HasHeader (bs : List UInt8) : Prop :=
  (CompleteV2 bs ∧ V2Fields bs) ∨ HasV1Header parseIp bs

end

/-! ### The reader against it -/

/-- Where addresses are found, the fields fit together. -/
theorem V2Fields.of_addresses {bs : List UInt8} (h : (v2Addresses bs).isSome) : V2Fields bs := by
  unfold v2Addresses at h
  dsimp only at h
  split at h
  · rename_i hcmd
    split at h
    · rename_i hv4
      exact .inr ⟨hcmd, .inr (.inl hv4)⟩
    · split at h
      · rename_i hv6
        exact .inr ⟨hcmd, .inr (.inr (.inl hv6))⟩
      · cases h
  · cases h

section

variable {parseIp : List Char → Option IpAddr}

/-- A line that is not malformed is in the grammar. -/
theorem V1Grammar.of_parse {parts : List (List Char)}
    (h : parseV1Parts parseIp parts ≠ .malformed) : V1Grammar parseIp parts := by
  unfold parseV1Parts at h
  dsimp only at h
  split at h
  · rename_i htcp
    obtain ⟨hlen, hfamily⟩ := htcp
    match parts, hlen with
    | start :: family :: src :: dst :: srcPort :: dstPort :: more, _ =>
        simp only [List.getD_cons_succ, List.getD_cons_zero] at h hfamily
        split at h
        · rename_i hsrc hdst hsrcPort hdstPort
          refine .tcp hfamily ?_ ?_ ?_ ?_
          · rw [hsrc]; rfl
          · rw [hdst]; rfl
          · rw [hsrcPort]; rfl
          · rw [hdstPort]; rfl
        · exact absurd rfl h
  · split at h
    · rename_i hunknown
      obtain ⟨hlen, hword⟩ := hunknown
      match parts, hlen with
      | start :: word :: more, _ =>
          simp only [List.getD_cons_succ, List.getD_cons_zero] at hword
          rw [hword]
          exact .unknown
    · exact absurd rfl h

theorem HasV1Header.of_parse {bs : List UInt8} {pos : Nat} (hstart : bs.take 6 = v1Start)
    (hpos : findCrlf bs = some pos) (h : parseV1Line parseIp (bs.take pos) ≠ .malformed) :
    HasV1Header parseIp bs := by
  unfold parseV1Line at h
  split at h
  · rename_i text htext
    exact ⟨hstart, pos, text, hpos, htext, .of_parse h⟩
  · exact absurd rfl h

end

theorem outcome_isSome_iff (r : ReadResult) :
    (outcome r).isSome ↔ ∃ connMeta s, r = .ok (connMeta, s) := by
  cases r with
  | error e => simp [outcome]
  | ok res =>
      obtain ⟨connMeta, s⟩ := res
      simp [outcome]

section

variable (trusted : Bool) (connMeta : ConnectionMeta)

theorem announceOutcome_strict_isSome (version : UInt8) (client dest : SocketAddr)
    (rest : List UInt8) :
    (announceOutcome .strict trusted connMeta version client dest rest).isSome = trusted := by
  cases trusted <;> rfl

theorem v2Outcome_strict_isSome_iff {bs : List UInt8} (hsig : bs.take 12 = v2Signature) :
    (v2Outcome .strict trusted connMeta bs).isSome ↔
      CompleteV2 bs ∧ ((v2Addresses bs).isSome → trusted = true) := by
  rw [v2Outcome]
  split_ifs with h16 hversion hshort
  · refine iff_of_false (by simp) ?_
    rintro ⟨h, -⟩
    exact absurd h.first (Nat.not_le_of_lt h16)
  · refine iff_of_false (by simp [plainOutcome]) ?_
    rintro ⟨h, -⟩
    exact hversion h.version
  · refine iff_of_false (by simp) ?_
    rintro ⟨h, -⟩
    exact absurd h.payload (Nat.not_le_of_lt hshort)
  · have hcomplete : CompleteV2 bs :=
      ⟨hsig, Nat.le_of_not_lt h16, not_not.mp hversion, Nat.le_of_not_lt hshort⟩
    cases v2Addresses bs with
    | none => simp [hcomplete]
    | some addresses =>
        dsimp only
        rw [announceOutcome_strict_isSome]
        simp [hcomplete]

theorem v1Outcome_strict_isSome_iff (parseIp : List Char → Option IpAddr) (bs : List UInt8)
    (pos : Nat) :
    (v1Outcome parseIp .strict trusted connMeta bs pos).isSome ↔
      parseV1Line parseIp (bs.take pos) ≠ .malformed ∧
        (parseV1Line parseIp (bs.take pos) ≠ .unknown → trusted = true) := by
  rw [v1Outcome]
  cases parseV1Line parseIp (bs.take pos) with
  | announced client dest =>
      dsimp only
      rw [announceOutcome_strict_isSome]
      simp
  | unknown => simp
  | malformed => simp [plainOutcome]

end

/-! ### The ways around strict mode -/

/-- A v2 header that a first read of `n` bytes finds and that announces no
addresses. -/
def SilentV2 (bs : List UInt8) (n : Nat) : Prop :=
  12 ≤ n ∧ CompleteV2 bs ∧ v2Addresses bs = none

/-- A v1 line that a first read of `n` bytes finds and that says `UNKNOWN`. -/
def SilentV1 (parseIp : List Char → Option IpAddr) (bs : List UInt8) (n : Nat) : Prop :=
  bs.take 6 = v1Start ∧ 6 ≤ n ∧
    ∃ pos, findCrlf bs = some pos ∧ pos + 2 ≤ max n 108 ∧
      parseV1Line parseIp (bs.take pos) = .unknown

section

variable {IpNet : Type} (contains : IpNet → IpAddr → Bool)
variable (parseIp : List Char → Option IpAddr)
variable (s : ByteStream) (peerAddr : SocketAddr) (trustedProxies : Option (List IpNet))

/-- Strict mode lets a connection through only behind a header and from a
trusted peer. -/
def StrictAdmits : Prop :=
  ∀ connMeta s',
    readProxyProtocolWithMeta contains parseIp s peerAddr .strict trustedProxies =
        .ok (connMeta, s') →
      HasHeader parseIp s.bytes ∧ isTrusted contains peerAddr trustedProxies = true

theorem strictAdmits_iff :
    StrictAdmits contains parseIp s peerAddr trustedProxies ↔
      ((outcome (readProxyProtocolWithMeta contains parseIp s peerAddr .strict
          trustedProxies)).isSome →
        HasHeader parseIp s.bytes ∧ isTrusted contains peerAddr trustedProxies = true) := by
  rw [outcome_isSome_iff]
  constructor
  · rintro h ⟨connMeta, s', hok⟩
    exact h connMeta s' hok
  · intro h connMeta s' hok
    exact h ⟨connMeta, s', hok⟩

variable {s}

/-- Behind a v2 signature there is no v1 line. -/
theorem strictAdmits_v2 (hne : s.bytes ≠ []) (hsig : s.bytes.take 12 = v2Signature)
    (hlen : 12 ≤ firstReadLen s) :
    StrictAdmits contains parseIp s peerAddr trustedProxies ↔
      (SilentV2 s.bytes (firstReadLen s) →
        V2Fields s.bytes ∧ isTrusted contains peerAddr trustedProxies = true) := by
  have hstart : s.bytes.take 6 ≠ v1Start := fun hstart => take_ne_v2Signature hstart hsig
  have hheader : HasHeader parseIp s.bytes ↔ CompleteV2 s.bytes ∧ V2Fields s.bytes :=
    or_iff_left fun hv1 => hstart hv1.1
  have hsilent : SilentV2 s.bytes (firstReadLen s) ↔
      CompleteV2 s.bytes ∧ v2Addresses s.bytes = none := and_iff_right hlen
  rw [strictAdmits_iff, outcome_read_of_reaches contains parseIp peerAddr trustedProxies (by decide)
    hne (.inl ⟨hsig, hlen⟩), headerOutcome, if_pos hsig, v2Outcome_strict_isSome_iff _ _ hsig,
    hheader, hsilent]
  cases haddr : v2Addresses s.bytes with
  | none =>
      simp only [Option.isSome_none, Bool.false_eq_true, false_implies]
      tauto
  | some addresses =>
      have hfields : V2Fields s.bytes := .of_addresses (by simp [haddr])
      simp only [Option.isSome_some, reduceCtorEq]
      tauto

theorem strictAdmits_v1 {pos : Nat} (hne : s.bytes ≠ []) (hstart : s.bytes.take 6 = v1Start)
    (hlen : 6 ≤ firstReadLen s) (hpos : findCrlf s.bytes = some pos)
    (hle : pos + 2 ≤ max (firstReadLen s) 108) :
    StrictAdmits contains parseIp s peerAddr trustedProxies ↔
      (SilentV1 parseIp s.bytes (firstReadLen s) →
        isTrusted contains peerAddr trustedProxies = true) := by
  have hsilent : SilentV1 parseIp s.bytes (firstReadLen s) ↔
      parseV1Line parseIp (s.bytes.take pos) = .unknown := by
    constructor
    · rintro ⟨-, -, pos', hpos', -, hline⟩
      obtain rfl := Option.some.inj (hpos.symm.trans hpos')
      exact hline
    · intro hline
      exact ⟨hstart, hlen, pos, hpos, hle, hline⟩
  have hheader : parseV1Line parseIp (s.bytes.take pos) ≠ .malformed →
      HasHeader parseIp s.bytes := fun hline => .inr (.of_parse hstart hpos hline)
  rw [strictAdmits_iff, outcome_read_of_reaches contains parseIp peerAddr trustedProxies (by decide)
    hne (.inr ⟨hstart, hlen, pos, hpos, hle⟩), headerOutcome, if_neg (take_ne_v2Signature hstart),
    hpos]
  dsimp only
  rw [v1Outcome_strict_isSome_iff, hsilent]
  cases hline : parseV1Line parseIp (s.bytes.take pos) with
  | announced client dest => simp [hheader (by simp [hline])]
  | unknown => simp [hheader (by simp [hline])]
  | malformed => simp

/-- Where no header is found, strict mode refuses. -/
theorem strictAdmits_plain (hne : s.bytes ≠ []) (hreach : ¬ Reaches s.bytes (firstReadLen s)) :
    StrictAdmits contains parseIp s peerAddr trustedProxies := by
  rw [strictAdmits_iff, outcome_read_of_not_reaches contains parseIp peerAddr trustedProxies
    (by decide) hne hreach]
  simp [plainOutcome]

variable (s)

/-- A header behind which nothing is announced is where trust is not asked
for. -/
theorem strictAdmits_of_ne_nil (hne : s.bytes ≠ []) :
    StrictAdmits contains parseIp s peerAddr trustedProxies ↔
      (SilentV2 s.bytes (firstReadLen s) →
          V2Fields s.bytes ∧ isTrusted contains peerAddr trustedProxies = true) ∧
        (SilentV1 parseIp s.bytes (firstReadLen s) →
          isTrusted contains peerAddr trustedProxies = true) := by
  by_cases hreach : Reaches s.bytes (firstReadLen s)
  · rcases hreach with ⟨hsig, hlen⟩ | ⟨hstart, hlen, pos, hpos, hle⟩
    · have hv1 : ¬ SilentV1 parseIp s.bytes (firstReadLen s) :=
        fun hv1 => take_ne_v2Signature hv1.1 hsig
      rw [strictAdmits_v2 contains parseIp peerAddr trustedProxies hne hsig hlen]
      exact (and_iff_left fun h => absurd h hv1).symm
    · have hv2 : ¬ SilentV2 s.bytes (firstReadLen s) :=
        fun hv2 => take_ne_v2Signature hstart hv2.2.1.signature
      rw [strictAdmits_v1 contains parseIp peerAddr trustedProxies hne hstart hlen hpos hle]
      exact (and_iff_right fun h => absurd h hv2).symm
  · refine iff_of_true (strictAdmits_plain contains parseIp peerAddr trustedProxies hne hreach) ?_
    constructor
    · intro hv2
      exact absurd (.inl ⟨hv2.2.1.signature, hv2.1⟩) hreach
    · rintro ⟨hstart, hlen, pos, hpos, hle, -⟩
      exact absurd (.inr ⟨hstart, hlen, pos, hpos, hle⟩) hreach

end

/-! ### The client address -/

section

variable {mode : ProxyProtocolMode} {connMeta m : ConnectionMeta} {bs rest : List UInt8}

/-- What the metadata of an untrusted peer may say: addresses are those of the
peer. -/
def FromPeer (connMeta m : ConnectionMeta) : Prop :=
  m.transportPeerAddr = connMeta.transportPeerAddr ∧ m.clientAddr = connMeta.clientAddr

theorem plainOutcome_fromPeer (h : plainOutcome mode connMeta bs = some (m, rest)) :
    FromPeer connMeta m := by
  rw [plainOutcome] at h
  split_ifs at h
  obtain ⟨rfl, -⟩ := Prod.mk.inj (Option.some.inj h)
  exact ⟨rfl, rfl⟩

theorem v2Outcome_fromPeer (h : v2Outcome mode false connMeta bs = some (m, rest)) :
    FromPeer connMeta m := by
  rw [v2Outcome] at h
  split_ifs at h
  · exact plainOutcome_fromPeer h
  · split at h
    · exact plainOutcome_fromPeer h
    · obtain ⟨rfl, -⟩ := Prod.mk.inj (Option.some.inj h)
      exact ⟨rfl, rfl⟩

theorem v1Outcome_fromPeer {parseIp : List Char → Option IpAddr} {pos : Nat}
    (h : v1Outcome parseIp mode false connMeta bs pos = some (m, rest)) :
    FromPeer connMeta m := by
  rw [v1Outcome] at h
  split at h
  · exact plainOutcome_fromPeer h
  · obtain ⟨rfl, -⟩ := Prod.mk.inj (Option.some.inj h)
    exact ⟨rfl, rfl⟩
  · exact plainOutcome_fromPeer h

theorem headerOutcome_fromPeer {parseIp : List Char → Option IpAddr}
    (h : headerOutcome parseIp mode false connMeta bs = some (m, rest)) :
    FromPeer connMeta m := by
  rw [headerOutcome] at h
  split_ifs at h
  · exact v2Outcome_fromPeer h
  · split at h
    · exact v1Outcome_fromPeer h
    · exact plainOutcome_fromPeer h

end

section

variable {IpNet : Type} {contains : IpNet → IpAddr → Bool}
variable {parseIp : List Char → Option IpAddr}
variable {s : ByteStream} {peerAddr : SocketAddr} {mode : ProxyProtocolMode}
variable {trustedProxies : Option (List IpNet)} {m : ConnectionMeta} {s' : PrefixedStream}

/-- Where the metadata comes from: an empty stream, a header, or a stream in
which none is found. -/
theorem read_ok_cases (hmode : mode ≠ .off)
    (hok : readProxyProtocolWithMeta contains parseIp s peerAddr mode trustedProxies =
      .ok (m, s')) :
    (s.bytes = [] ∧ m = .new peerAddr) ∨
    (Reaches s.bytes (firstReadLen s) ∧
      headerOutcome parseIp mode (isTrusted contains peerAddr trustedProxies) (.new peerAddr)
        s.bytes = some (m, s'.bytes)) ∨
    (¬ Reaches s.bytes (firstReadLen s) ∧
      plainOutcome mode (.new peerAddr) s.bytes = some (m, s'.bytes)) := by
  have hout := congrArg outcome hok
  by_cases hnil : s.bytes = []
  · rw [outcome_read_nil contains parseIp peerAddr trustedProxies hmode hnil] at hout
    obtain ⟨rfl, -⟩ := Prod.mk.inj (Option.some.inj hout)
    exact .inl ⟨hnil, rfl⟩
  · by_cases hreach : Reaches s.bytes (firstReadLen s)
    · rw [outcome_read_of_reaches contains parseIp peerAddr trustedProxies hmode hnil
        hreach] at hout
      exact .inr (.inl ⟨hreach, hout⟩)
    · rw [outcome_read_of_not_reaches contains parseIp peerAddr trustedProxies hmode hnil
        hreach] at hout
      exact .inr (.inr ⟨hreach, hout⟩)

/-- **An untrusted peer cannot announce a client**, in any mode. -/
theorem fromPeer_of_untrusted
    (hok : readProxyProtocolWithMeta contains parseIp s peerAddr mode trustedProxies =
      .ok (m, s'))
    (htrust : isTrusted contains peerAddr trustedProxies = false) :
    FromPeer (.new peerAddr) m := by
  by_cases hmode : mode = .off
  · rw [readProxyProtocolWithMeta, if_pos hmode] at hok
    obtain ⟨rfl, -⟩ := Prod.mk.inj (Except.ok.inj hok)
    exact ⟨rfl, rfl⟩
  · rcases read_ok_cases hmode hok with ⟨-, rfl⟩ | ⟨-, hheader⟩ | ⟨-, hplain⟩
    · exact ⟨rfl, rfl⟩
    · rw [htrust] at hheader
      exact headerOutcome_fromPeer hheader
    · exact plainOutcome_fromPeer hplain

end

/-! ### Datagrams -/

theorem isPrefixOf_iff_take (bs data : List UInt8) :
    bs.isPrefixOf data = true ↔ data.take bs.length = bs := by
  rw [List.isPrefixOf_iff_prefix, List.prefix_iff_eq_take]
  exact eq_comm

/-- Among datagrams of at least 16 bytes, strict mode lets through those that
begin with a complete header. -/
theorem datagram_strict_isOk_iff {data : List UInt8} (h16 : 16 ≤ data.length) :
    (∃ res, parseProxyProtocolDatagram data .strict = .ok res) ↔ CompleteV2 data := by
  have hshort : ¬ (ProxyProtocolMode.strict = .off ∨ data.length < 16) := by
    rintro (hmode | hlen)
    · cases hmode
    · omega
  rw [parseProxyProtocolDatagram]
  simp only [hshort, if_false, if_true]
  split_ifs with hsig hversion hlen
  · refine iff_of_false (by simp) ?_
    intro h
    exact hversion h.version
  · refine iff_of_false (by simp) ?_
    intro h
    exact absurd h.payload (Nat.not_le_of_lt hlen)
  · have htake := (isPrefixOf_iff_take v2Signature data).mp hsig
    exact iff_of_true ⟨_, rfl⟩ ⟨htake, h16, not_not.mp hversion, Nat.le_of_not_lt hlen⟩
  · refine iff_of_false (by simp) ?_
    intro h
    exact hsig ((isPrefixOf_iff_take v2Signature data).mpr h.signature)

/-- Strict mode lets a datagram through only behind a complete header. -/
def DatagramStrict (data : List UInt8) : Prop :=
  ∀ res, parseProxyProtocolDatagram data .strict = .ok res → CompleteV2 data

theorem datagramStrict_iff (data : List UInt8) : DatagramStrict data ↔ 16 ≤ data.length := by
  by_cases h16 : 16 ≤ data.length
  · refine iff_of_true ?_ h16
    intro res hok
    exact (datagram_strict_isOk_iff h16).mp ⟨res, hok⟩
  · refine iff_of_false ?_ h16
    intro h
    have hok : parseProxyProtocolDatagram data .strict = .ok (none, data) := by
      rw [parseProxyProtocolDatagram, if_pos (.inr (Nat.lt_of_not_le h16))]
    exact h16 (h _ hok).first

/-! ### Strict mode -/

section

variable {IpNet : Type} (contains : IpNet → IpAddr → Bool)
variable (parseIp : List Char → Option IpAddr)

/-- **Strict mode.**  A stream is let through only behind a header and from a
trusted peer exactly if the stream is not empty and every header without
addresses that is found comes from a trusted peer and, for v2, fits together.
A datagram is let through only behind a complete header exactly if it has 16
bytes.  In every mode the client differs from the peer only if the peer is
trusted. -/
theorem strict_admits_exact (s : ByteStream) (peerAddr : SocketAddr)
    (trustedProxies : Option (List IpNet)) (data : List UInt8) :
    (StrictAdmits contains parseIp s peerAddr trustedProxies ↔
      s.bytes ≠ [] ∧
        (SilentV2 s.bytes (firstReadLen s) →
          V2Fields s.bytes ∧ isTrusted contains peerAddr trustedProxies = true) ∧
        (SilentV1 parseIp s.bytes (firstReadLen s) →
          isTrusted contains peerAddr trustedProxies = true)) ∧
    (DatagramStrict data ↔ 16 ≤ data.length) ∧
    (∀ mode connMeta s',
      readProxyProtocolWithMeta contains parseIp s peerAddr mode trustedProxies =
          .ok (connMeta, s') →
        connMeta.clientAddr ≠ connMeta.transportPeerAddr →
          isTrusted contains peerAddr trustedProxies = true) := by
  refine ⟨?_, datagramStrict_iff data, ?_⟩
  · by_cases hnil : s.bytes = []
    · -- the empty stream has no header, and is let through
      refine iff_of_false ?_ (fun h => h.1 hnil)
      rw [strictAdmits_iff]
      intro h
      have hread := @outcome_read_nil IpNet contains parseIp peerAddr .strict trustedProxies s
        (by decide) hnil
      obtain ⟨hheader, -⟩ := h (by rw [hread]; rfl)
      rw [hnil] at hheader
      rcases hheader with ⟨hv2, -⟩ | ⟨hstart, -⟩
      · exact absurd hv2.first (by simp)
      · exact absurd hstart (by decide)
    · rw [strictAdmits_of_ne_nil contains parseIp s peerAddr trustedProxies hnil]
      exact (and_iff_right hnil).symm
  · intro mode connMeta s' hok hne
    by_contra htrust
    obtain ⟨htransport, hclient⟩ := fromPeer_of_untrusted hok (Bool.not_eq_true _ ▸ htrust)
    rw [htransport, hclient] at hne
    exact hne rfl

end

/-- A v2 header with the command `LOCAL`. -/
def localHeader : List UInt8 := v2Signature ++ [0x20, 0x00, 0x00, 0x00]

/-- With 10.0.0.1 as the only trusted proxy, strict mode lets through a peer
that sends nothing and one that is not trusted but says `LOCAL`, and a
datagram of two bytes. -/
theorem strict_mode_bypassed :
    ¬ StrictAdmits (fun net ip : IpAddr => decide (net = ip)) (fun _ => none) .empty
        (.v4 (.new 10 0 0 1) 4444) (some [.v4 (.new 10 0 0 1)]) ∧
    ¬ StrictAdmits (fun net ip : IpAddr => decide (net = ip)) (fun _ => none)
        (.single localHeader (by decide)) (.v4 (.new 192 0 2 7) 4444)
        (some [.v4 (.new 10 0 0 1)]) ∧
    ¬ DatagramStrict [0x01, 0x02] := by
  refine ⟨?_, ?_, ?_⟩
  · intro h
    have hok : readProxyProtocolWithMeta (fun net ip : IpAddr => decide (net = ip)) (fun _ => none)
        .empty (.v4 (.new 10 0 0 1) 4444) .strict (some [.v4 (.new 10 0 0 1)]) =
          .ok (.new (.v4 (.new 10 0 0 1) 4444), .new .empty none) := rfl
    obtain ⟨hheader, -⟩ := h _ _ hok
    rcases hheader with ⟨hv2, -⟩ | ⟨hstart, -⟩
    · exact absurd hv2.first (by decide)
    · exact absurd hstart (by decide)
  · intro h
    obtain ⟨connMeta, s', hok⟩ := (outcome_isSome_iff (readProxyProtocolWithMeta
      (fun net ip : IpAddr => decide (net = ip)) (fun _ => none)
      (.single localHeader (by decide)) (.v4 (.new 192 0 2 7) 4444) .strict
      (some [.v4 (.new 10 0 0 1)]))).mp (by decide)
    exact absurd (h connMeta s' hok).2 (by decide)
  · intro h
    exact absurd (h (none, [0x01, 0x02]) rfl).first (by decide)

end Elise
