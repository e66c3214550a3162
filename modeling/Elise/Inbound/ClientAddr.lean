/-
Elise/Inbound/ClientAddr.lean

The client address that a TCP inbound goes on with: the front part of the
`handle_connection` of VLESS, VMess, Trojan, Shadowsocks and ShadowsocksR
(src/protocol/*/), and of SOCKS for comparison.

SOCKS hands the list of trusted proxies to the reader of the header.  The five
others call `read_proxy_protocol`, which has no list and trusts every peer:
whoever announces a source is taken at its word (`client_addr_exact`).
-/
import Elise.Config.Global
import Elise.Conn.Strict

namespace Elise

open Net

/-! ### The source that a header announces -/

section

variable (parseIp : List Char → Option IpAddr)

/-- A header that a first read of `n` bytes finds announces the source
`src`. -/
def Announces (bs : List UInt8) (n : Nat) (src : SocketAddr) : Prop :=
  (12 ≤ n ∧ CompleteV2 bs ∧ ∃ dest, v2Addresses bs = some (src, dest)) ∨
    (bs.take 6 = v1Start ∧ 6 ≤ n ∧
      ∃ pos dest, findCrlf bs = some pos ∧ pos + 2 ≤ max n 108 ∧
        parseV1Line parseIp (bs.take pos) = .announced src dest)

theorem Announces.reaches {parseIp : List Char → Option IpAddr} {bs : List UInt8} {n : Nat}
    {src : SocketAddr} (h : Announces parseIp bs n src) : Reaches bs n := by
  rcases h with ⟨hlen, hv2, -⟩ | ⟨hstart, hlen, pos, dest, hpos, hle, -⟩
  · exact .inl ⟨hv2.signature, hlen⟩
  · exact .inr ⟨hstart, hlen, pos, hpos, hle⟩

theorem Announces.ne_nil {parseIp : List Char → Option IpAddr} {bs : List UInt8} {n : Nat}
    {src : SocketAddr} (h : Announces parseIp bs n src) : bs ≠ [] := by
  rintro rfl
  rcases h with ⟨-, hv2, -⟩ | ⟨hstart, -⟩
  · exact absurd hv2.first (by simp)
  · exact absurd hstart (by decide)

/-- A header announces one source. -/
theorem announces_unique {parseIp : List Char → Option IpAddr} {bs : List UInt8} {n : Nat}
    {src src' : SocketAddr} (h : Announces parseIp bs n src) (h' : Announces parseIp bs n src') :
    src = src' := by
  rcases h with ⟨-, hv2, dest, haddr⟩ | ⟨hstart, -, pos, dest, hpos, -, hline⟩
  · rcases h' with ⟨-, -, dest', haddr'⟩ | ⟨hstart', -⟩
    · exact (Prod.mk.inj (Option.some.inj (haddr.symm.trans haddr'))).1
    · exact absurd hv2.signature (take_ne_v2Signature hstart')
  · rcases h' with ⟨-, hv2', -⟩ | ⟨-, -, pos', dest', hpos', -, hline'⟩
    · exact absurd hv2'.signature (take_ne_v2Signature hstart)
    · obtain rfl := Option.some.inj (hpos.symm.trans hpos')
      exact (V1Line.announced.inj (hline.symm.trans hline')).1

variable {mode : ProxyProtocolMode} {connMeta m : ConnectionMeta} {bs rest : List UInt8} {n : Nat}

/-- What the metadata behind a header says: the source that it announces, or
the peer. -/
def MetaOf (connMeta : ConnectionMeta) (bs : List UInt8) (n : Nat) (m : ConnectionMeta) : Prop :=
  (Announces parseIp bs n m.clientAddr ∧ m.proxyProtocolVersion.isSome) ∨
    ((∀ src, ¬ Announces parseIp bs n src) ∧ m.clientAddr = connMeta.clientAddr)

variable {parseIp}

theorem metaOf_plain (hplain : ∀ src, ¬ Announces parseIp bs n src)
    (h : plainOutcome mode connMeta bs = some (m, rest)) : MetaOf parseIp connMeta bs n m :=
  .inr ⟨hplain, (plainOutcome_fromPeer h).2⟩

theorem metaOf_v2 (hlen : 12 ≤ n) (hsig : bs.take 12 = v2Signature)
    (h : v2Outcome mode true connMeta bs = some (m, rest)) : MetaOf parseIp connMeta bs n m := by
  have hstart : bs.take 6 ≠ v1Start := fun hstart => take_ne_v2Signature hstart hsig
  have hiff : ∀ src, Announces parseIp bs n src ↔
      CompleteV2 bs ∧ ∃ dest, v2Addresses bs = some (src, dest) := by
    intro src
    simp [Announces, hlen, hstart]
  rw [v2Outcome] at h
  split_ifs at h with h16 hversion hshort
  · refine metaOf_plain ?_ h
    intro src hsrc
    exact hversion ((hiff src).mp hsrc).1.version
  · have hcomplete : CompleteV2 bs :=
      ⟨hsig, Nat.le_of_not_lt h16, not_not.mp hversion, Nat.le_of_not_lt hshort⟩
    split at h
    · rename_i client dest haddr
      obtain ⟨rfl, -⟩ := Prod.mk.inj (Option.some.inj h)
      exact .inl ⟨(hiff client).mpr ⟨hcomplete, dest, haddr⟩, rfl⟩
    · rename_i haddr
      obtain ⟨rfl, -⟩ := Prod.mk.inj (Option.some.inj h)
      refine .inr ⟨?_, rfl⟩
      intro src hsrc
      obtain ⟨-, dest, hdest⟩ := (hiff src).mp hsrc
      cases haddr.symm.trans hdest

theorem metaOf_v1 {pos : Nat} (hlen : 6 ≤ n) (hstart : bs.take 6 = v1Start)
    (hpos : findCrlf bs = some pos) (hle : pos + 2 ≤ max n 108)
    (h : v1Outcome parseIp mode true connMeta bs pos = some (m, rest)) :
    MetaOf parseIp connMeta bs n m := by
  have hsig := take_ne_v2Signature hstart
  have hiff : ∀ src, Announces parseIp bs n src ↔
      ∃ dest, parseV1Line parseIp (bs.take pos) = .announced src dest := by
    intro src
    constructor
    · rintro (⟨-, hv2, -⟩ | ⟨-, -, pos', dest, hpos', -, hline⟩)
      · exact absurd hv2.signature hsig
      · obtain rfl := Option.some.inj (hpos.symm.trans hpos')
        exact ⟨dest, hline⟩
    · rintro ⟨dest, hline⟩
      exact .inr ⟨hstart, hlen, pos, dest, hpos, hle, hline⟩
  have hnone : (∀ client dest, parseV1Line parseIp (bs.take pos) ≠ .announced client dest) →
      ∀ src, ¬ Announces parseIp bs n src := by
    intro hline src hsrc
    obtain ⟨dest, hdest⟩ := (hiff src).mp hsrc
    exact hline src dest hdest
  rw [v1Outcome] at h
  split at h
  · rename_i client dest hline
    obtain ⟨rfl, -⟩ := Prod.mk.inj (Option.some.inj h)
    exact .inl ⟨(hiff client).mpr ⟨dest, hline⟩, rfl⟩
  · rename_i hline
    obtain ⟨rfl, -⟩ := Prod.mk.inj (Option.some.inj h)
    exact .inr ⟨hnone (by simp [hline]), rfl⟩
  · rename_i hline
    exact metaOf_plain (hnone (by simp [hline])) h

theorem metaOf_header (hreach : Reaches bs n)
    (h : headerOutcome parseIp mode true connMeta bs = some (m, rest)) :
    MetaOf parseIp connMeta bs n m := by
  rw [headerOutcome] at h
  rcases hreach with ⟨hsig, hlen⟩ | ⟨hstart, hlen, pos, hpos, hle⟩
  · rw [if_pos hsig] at h
    exact metaOf_v2 hlen hsig h
  · rw [if_neg (take_ne_v2Signature hstart), hpos] at h
    exact metaOf_v1 hlen hstart hpos hle h

/-- A header that announces a source is not refused from a trusted peer. -/
theorem headerOutcome_isSome_of_announces {src : SocketAddr} (h : Announces parseIp bs n src) :
    (headerOutcome parseIp mode true connMeta bs).isSome := by
  rw [headerOutcome]
  rcases h with ⟨-, hv2, dest, haddr⟩ | ⟨hstart, -, pos, dest, hpos, -, hline⟩
  · rw [if_pos hv2.signature, v2Outcome, if_neg (Nat.not_lt_of_le hv2.first),
      if_neg (not_not.mpr hv2.version), if_neg (Nat.not_lt_of_le hv2.payload), haddr]
    rfl
  · rw [if_neg (take_ne_v2Signature hstart), hpos]
    dsimp only
    rw [v1Outcome, hline]
    rfl

end

section

variable {IpNet : Type} {contains : IpNet → IpAddr → Bool}
variable {parseIp : List Char → Option IpAddr}
variable {s : ByteStream} {mode : ProxyProtocolMode}

/-- The peer that `read_proxy_protocol` gives to the reader of the header. -/
def dummyAddr : SocketAddr := .v4 (.new 0 0 0 0) 0

theorem metaOf_read {peerAddr : SocketAddr} {m : ConnectionMeta} {s' : PrefixedStream}
    (hmode : mode ≠ .off)
    (hok : readProxyProtocolWithMeta contains parseIp s peerAddr mode none = .ok (m, s')) :
    MetaOf parseIp (.new peerAddr) s.bytes (firstReadLen s) m := by
  rcases read_ok_cases hmode hok with ⟨hnil, rfl⟩ | ⟨hreach, hheader⟩ | ⟨hreach, hplain⟩
  · exact .inr ⟨fun src hsrc => hsrc.ne_nil hnil, rfl⟩
  · exact metaOf_header hreach hheader
  · exact metaOf_plain (fun src hsrc => hreach hsrc.reaches) hplain

/-- A source that `read_proxy_protocol` returns was announced. -/
theorem announces_of_readProxyProtocol {src : SocketAddr} {s' : PrefixedStream}
    (hmode : mode ≠ .off)
    (hok : readProxyProtocol contains parseIp s mode = .ok (some src, s')) :
    Announces parseIp s.bytes (firstReadLen s) src ∧ src ≠ dummyAddr := by
  rw [readProxyProtocol] at hok
  dsimp only at hok
  split at hok
  · cases hok
  · rename_i m s'' hread
    obtain ⟨hsrc, -⟩ := Prod.mk.inj (Except.ok.inj hok)
    split at hsrc
    · rename_i hcond
      obtain rfl := Option.some.inj hsrc
      rcases metaOf_read hmode hread with ⟨hann, -⟩ | ⟨-, hclient⟩
      · exact ⟨hann, hcond.2⟩
      · exact absurd hclient hcond.2
    · cases hsrc

/-- **Every announced source is returned**, but for 0.0.0.0:0. -/
theorem readProxyProtocol_of_announces {src : SocketAddr} (hmode : mode ≠ .off)
    (h : Announces parseIp s.bytes (firstReadLen s) src) (hne : src ≠ dummyAddr) :
    ∃ s', readProxyProtocol contains parseIp s mode = .ok (some src, s') := by
  have hsome : (outcome
      (readProxyProtocolWithMeta contains parseIp s dummyAddr mode none)).isSome := by
    rw [outcome_read_of_reaches contains parseIp dummyAddr none hmode h.ne_nil h.reaches]
    exact headerOutcome_isSome_of_announces h
  obtain ⟨m, s', hread⟩ := (outcome_isSome_iff _).mp hsome
  -- the reader is a function: the source that it found is `src`
  have hclient : m.clientAddr = src ∧ m.proxyProtocolVersion.isSome := by
    rcases metaOf_read hmode hread with ⟨hann, hversion⟩ | ⟨hnone, -⟩
    · exact ⟨announces_unique hann h, hversion⟩
    · exact absurd h (hnone src)
  refine ⟨s', ?_⟩
  rw [readProxyProtocol]
  dsimp only
  rw [show SocketAddr.v4 (.new 0 0 0 0) 0 = dummyAddr from rfl, hread]
  dsimp only
  rw [if_pos ⟨hclient.2, hclient.1 ▸ hne⟩, hclient.1]

end

/-! ### The handlers -/

/-- The address and the stream that a handler goes on with; it gives up on a
failure. -/
abbrev Accepted := Except IoError (SocketAddr × PrefixedStream)

/-- `accept_proxy_protocol` of the settings of a transport. -/
structure StreamSettings where
  acceptProxyProtocol : Bool

section

variable {IpNet : Type} (contains : IpNet → IpAddr → Bool)
variable (parseIp : List Char → Option IpAddr)

/-- `read_proxy_protocol`, and the source that it returns in place of the
peer. -/
def acceptFrom (mode : ProxyProtocolMode) (s : ByteStream) (remoteAddr : SocketAddr) : Accepted :=
  match readProxyProtocol contains parseIp s mode with
  | .error e => .error e
  | .ok (srcOpt, s) => .ok (srcOpt.getD remoteAddr, s)

variable (cfg : GlobalConfig IpNet) (settings : StreamSettings)
variable (s : ByteStream) (remoteAddr : SocketAddr)

def Vless.handleConnection : Accepted :=
  acceptFrom contains parseIp cfg.getProxyProtocolMode s remoteAddr

def Vmess.handleConnection : Accepted :=
  let proxyMode :=
    if settings.acceptProxyProtocol then ProxyProtocolMode.strict else cfg.getProxyProtocolMode
  acceptFrom contains parseIp proxyMode s remoteAddr

def Trojan.handleConnectionInner : Accepted :=
  if settings.acceptProxyProtocol || cfg.proxyProtocol then
    acceptFrom contains parseIp cfg.getProxyProtocolMode s remoteAddr
  else .ok (remoteAddr, .new s none)

def Shadowsocks.handleConnection : Accepted :=
  acceptFrom contains parseIp cfg.getProxyProtocolMode s remoteAddr

def ShadowsocksR.handleConnection : Accepted :=
  acceptFrom contains parseIp cfg.getProxyProtocolMode s remoteAddr

def Socks.handleConnection : Accepted :=
  match readProxyProtocolWithMeta contains parseIp s remoteAddr cfg.getProxyProtocolMode
      cfg.trustedProxies with
  | .error e => .error e
  | .ok (connMeta, s) => .ok (connMeta.clientAddr, s)

/-- The inbounds that read the header without the list. -/
inductive TcpInbound where
  | vless
  | vmess
  | trojan
  | shadowsocks
  | shadowsocksR
  deriving DecidableEq

def TcpInbound.handleConnection : TcpInbound → Accepted
  | .vless => Vless.handleConnection contains parseIp cfg s remoteAddr
  | .vmess => Vmess.handleConnection contains parseIp cfg settings s remoteAddr
  | .trojan => Trojan.handleConnectionInner contains parseIp cfg settings s remoteAddr
  | .shadowsocks => Shadowsocks.handleConnection contains parseIp cfg s remoteAddr
  | .shadowsocksR => ShadowsocksR.handleConnection contains parseIp cfg s remoteAddr

end

section

variable {IpNet : Type} {contains : IpNet → IpAddr → Bool}
variable {parseIp : List Char → Option IpAddr}
variable {mode : ProxyProtocolMode} {s : ByteStream} {peerAddr : SocketAddr}

/-- Every connection that is accepted comes from `peerAddr`. -/
def FromPeerOnly (peerAddr : SocketAddr) (accepted : Accepted) : Prop :=
  ∀ addr s', accepted = .ok (addr, s') → addr = peerAddr

/-- The announced source is the peer's own, or the one that counts as none. -/
def AnnouncesNoOther (parseIp : List Char → Option IpAddr) (s : ByteStream)
    (peerAddr : SocketAddr) : Prop :=
  ∀ src, Announces parseIp s.bytes (firstReadLen s) src → src = peerAddr ∨ src = dummyAddr

theorem acceptFrom_fromPeerOnly_iff (hmode : mode ≠ .off) :
    FromPeerOnly peerAddr (acceptFrom contains parseIp mode s peerAddr) ↔
      AnnouncesNoOther parseIp s peerAddr := by
  constructor
  · intro h src hsrc
    by_cases hdummy : src = dummyAddr
    · exact .inr hdummy
    · obtain ⟨s', hok⟩ := readProxyProtocol_of_announces hmode hsrc hdummy
      refine .inl (h src s' ?_)
      rw [acceptFrom, hok]
      rfl
  · intro h addr s' hok
    rw [acceptFrom] at hok
    split at hok
    · cases hok
    · rename_i srcOpt s'' hread
      obtain ⟨rfl, -⟩ := Prod.mk.inj (Except.ok.inj hok)
      cases srcOpt with
      | none => rfl
      | some src =>
          obtain ⟨hann, hne⟩ := announces_of_readProxyProtocol hmode hread
          exact (h src hann).resolve_right hne

variable {cfg : GlobalConfig IpNet} {settings : StreamSettings}

/-- Trojan takes no header off unless it is told to. -/
def SkipsHeader (cfg : GlobalConfig IpNet) (settings : StreamSettings) (inbound : TcpInbound) :
    Prop :=
  inbound = .trojan ∧ settings.acceptProxyProtocol = false ∧ cfg.proxyProtocol = false

/-- An inbound that does not skip the header reads it in some mode, without the
list. -/
theorem handleConnection_eq_acceptFrom {inbound : TcpInbound} (hlist : cfg.trustedProxies.isSome)
    (hskip : ¬ SkipsHeader cfg settings inbound) :
    ∃ mode, mode ≠ .off ∧ inbound.handleConnection contains parseIp cfg settings s peerAddr =
      acceptFrom contains parseIp mode s peerAddr := by
  have hmode := GlobalConfig.getProxyProtocolMode_ne_off hlist
  cases inbound with
  | vless => exact ⟨_, hmode, rfl⟩
  | vmess =>
      refine ⟨_, ?_, rfl⟩
      split_ifs
      · decide
      · exact hmode
  | trojan =>
      refine ⟨_, hmode, if_pos ?_⟩
      by_contra htold
      exact hskip ⟨rfl, by simpa using htold⟩
  | shadowsocks => exact ⟨_, hmode, rfl⟩
  | shadowsocksR => exact ⟨_, hmode, rfl⟩

theorem handleConnection_of_skips {inbound : TcpInbound}
    (hskip : SkipsHeader cfg settings inbound) :
    inbound.handleConnection contains parseIp cfg settings s peerAddr =
      .ok (peerAddr, .new s none) := by
  obtain ⟨rfl, haccept, hpp⟩ := hskip
  exact if_neg (by simp [haccept, hpp])

theorem handleConnection_fromPeerOnly_iff (inbound : TcpInbound)
    (hlist : cfg.trustedProxies.isSome) :
    FromPeerOnly peerAddr
        (inbound.handleConnection contains parseIp cfg settings s peerAddr) ↔
      SkipsHeader cfg settings inbound ∨ AnnouncesNoOther parseIp s peerAddr := by
  by_cases hskip : SkipsHeader cfg settings inbound
  · refine iff_of_true ?_ (.inl hskip)
    intro addr s' hok
    rw [handleConnection_of_skips hskip] at hok
    exact (Prod.mk.inj (Except.ok.inj hok)).1.symm
  · obtain ⟨mode, hmode, heq⟩ : ∃ mode, mode ≠ .off ∧
        inbound.handleConnection contains parseIp cfg settings s peerAddr =
          acceptFrom contains parseIp mode s peerAddr := handleConnection_eq_acceptFrom hlist hskip
    rw [heq, or_iff_right hskip]
    exact acceptFrom_fromPeerOnly_iff hmode

theorem isTrusted_eq_false {nets : List IpNet}
    (hout : ∀ net ∈ nets, contains net peerAddr.ip = false) :
    isTrusted contains peerAddr (some nets) = false := by
  rw [isTrusted, List.any_eq_false]
  intro net hmem
  rw [hout net hmem]
  decide

/-- **SOCKS honours the list**: an untrusted peer is its own client. -/
theorem socks_fromPeerOnly {nets : List IpNet} (hnets : cfg.trustedProxies = some nets)
    (hout : ∀ net ∈ nets, contains net peerAddr.ip = false) :
    FromPeerOnly peerAddr (Socks.handleConnection contains parseIp cfg s peerAddr) := by
  intro addr s' hok
  rw [Socks.handleConnection, hnets] at hok
  split at hok
  · cases hok
  · rename_i connMeta s'' hread
    obtain ⟨rfl, -⟩ := Prod.mk.inj (Except.ok.inj hok)
    exact (fromPeer_of_untrusted hread (isTrusted_eq_false hout)).2

end

section

variable {IpNet : Type} (contains : IpNet → IpAddr → Bool) (lower : List Char → List Char)
variable (parseNet : List Char → Option IpNet) (parseIp : List Char → Option IpAddr)
variable (ofIp : IpAddr → IpNet)

/-- **The list of trusted proxies and the five inbounds.**  For a peer outside
the networks of the list, the address that an inbound goes on with is always
the peer's own exactly if no header is taken off or the one that is found
announces no other source.  The reader with the list decides for the peer in
any case. -/
theorem client_addr_exact (content : List Char) (vars : List (List Char × List Char))
    (nodeProxyProtocol : Option Bool) (nets : List IpNet) (inbound : TcpInbound)
    (settings : StreamSettings) (s : ByteStream) (peerAddr : SocketAddr)
    (hnets : (GlobalConfig.load lower parseNet parseIp ofIp content vars).trustedProxies =
      some nets)
    (hout : ∀ net ∈ nets, contains net peerAddr.ip = false) :
    (FromPeerOnly peerAddr
        (inbound.handleConnection contains parseIp
          ((GlobalConfig.load lower parseNet parseIp ofIp content vars).forNode nodeProxyProtocol)
          settings s peerAddr) ↔
      SkipsHeader
          ((GlobalConfig.load lower parseNet parseIp ofIp content vars).forNode nodeProxyProtocol)
          settings inbound ∨
        AnnouncesNoOther parseIp s peerAddr) ∧
    ∀ mode connMeta s',
      readProxyProtocolWithMeta contains parseIp s peerAddr mode (some nets) =
        .ok (connMeta, s') → connMeta.clientAddr = peerAddr := by
  refine ⟨?_, ?_⟩
  · apply handleConnection_fromPeerOnly_iff
    rw [GlobalConfig.trustedProxies_forNode, hnets]
    rfl
  · intro mode connMeta s' hok
    exact (fromPeer_of_untrusted hok (isTrusted_eq_false hout)).2

end

/-- An address reader that knows 10.0.0.1. -/
def parseProxyIp (cs : List Char) : Option IpAddr :=
  if cs = "10.0.0.1".toList then some (.v4 (.new 10 0 0 1)) else none

/-- The configuration that trusts 10.0.0.1 only; networks are single
addresses. -/
def proxyConfig : GlobalConfig IpAddr :=
  .load Text.toAsciiLowercase (fun _ => none) parseProxyIp id
    "# front proxy\ntrusted_proxies = 10.0.0.1\n".toList []

/-- A v2 header for a connection from 192.0.2.7:4444. -/
def ownHeader : List UInt8 := encodeProxyProtocolV2 (.v4 (.new 192 0 2 7) 4444) (.v4 (.new 5 6 7 8) 80)

/-- 192.0.2.7 is not trusted, and announces itself. -/
theorem client_addr_exact_own :
    proxyConfig.trustedProxies = some [.v4 (.new 10 0 0 1)] ∧
      FromPeerOnly (.v4 (.new 192 0 2 7) 4444)
        (TcpInbound.vless.handleConnection (fun net ip : IpAddr => decide (net = ip)) parseProxyIp
          proxyConfig ⟨false⟩ (.single ownHeader (by decide)) (.v4 (.new 192 0 2 7) 4444)) := by
  refine ⟨by decide, ?_⟩
  apply (client_addr_exact _ Text.toAsciiLowercase (fun _ => none) parseProxyIp id
    "# front proxy\ntrusted_proxies = 10.0.0.1\n".toList [] none [.v4 (.new 10 0 0 1)] .vless
    ⟨false⟩ (.single ownHeader (by decide)) (.v4 (.new 192 0 2 7) 4444) (by decide) (by decide)).1.mpr
  right
  intro src hsrc
  rcases hsrc with ⟨-, -, dest, hdest⟩ | ⟨hstart, -⟩
  · -- the header announces one source
    have hown : v2Addresses (ByteStream.single ownHeader (by decide)).bytes =
        some (.v4 (.new 192 0 2 7) 4444, .v4 (.new 5 6 7 8) 80) := by decide
    exact .inl (Prod.mk.inj (Option.some.inj (hdest.symm.trans hown))).1
  · exact absurd hstart (by decide)

/-- 192.0.2.7 is not trusted and says that it is 1.2.3.4: each of the five
inbounds believes it. -/
theorem spoofed_client_addr :
    proxyConfig.trustedProxies = some [.v4 (.new 10 0 0 1)] ∧
      ∀ inbound : TcpInbound, ¬ FromPeerOnly (.v4 (.new 192 0 2 7) 4444)
        (inbound.handleConnection (fun net ip : IpAddr => decide (net = ip)) parseProxyIp
          proxyConfig ⟨false⟩ (.single sampleHeader (by decide)) (.v4 (.new 192 0 2 7) 4444)) := by
  refine ⟨by decide, ?_⟩
  intro inbound h
  have hsrc : Announces parseProxyIp (ByteStream.single sampleHeader (by decide)).bytes
      (firstReadLen (.single sampleHeader (by decide))) (.v4 (.new 1 2 3 4) 12345) :=
    .inl ⟨by decide, ⟨by decide, by decide, by decide, by decide⟩,
      .v4 (.new 5 6 7 8) 80, by decide⟩
  rcases (handleConnection_fromPeerOnly_iff inbound (by decide)).mp h with hskip | hann
  · exact absurd hskip.2.2 (by decide)
  · exact absurd (hann _ hsrc) (by decide)

end Elise
