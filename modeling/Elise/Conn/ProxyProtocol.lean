/-
Elise/Conn/ProxyProtocol.lean

The PROXY protocol in front of a connection (src/conn/proxy_protocol.rs).

The first read decides which header is looked for.  A v2 header is then completed by
`read_exact`, a v1 line byte by byte until its CRLF or until 108 bytes are there.  What was
read beyond the header is put in front of the stream again: a `PrefixedStream`, whose reads
neither lose nor repeat a byte (`polls_append`).  Its `into_inner`, which nothing calls, gives
back all that was put in front, also what has been read, and so is right before the first of
these bytes is read and after the last (`intoInner_lossless_iff`).

The two encoders and the decoder for datagrams are here, too.  Parameters: `contains`, the
membership test of the networks in the list of trusted proxies, and `parseIp`, the reader of
an address in a v1 line.
-/
import Elise.Lib.ByteStream
import Elise.Lib.Net

namespace Elise

open Net

/-- `V2_SIGNATURE`. -/
def v2Signature : List UInt8 :=
  [0x0D, 0x0A, 0x0D, 0x0A, 0x00, 0x0D, 0x0A, 0x51, 0x55, 0x49, 0x54, 0x0A]

/-- `b"PROXY "`. -/
def v1Start : List UInt8 := [0x50, 0x52, 0x4F, 0x58, 0x59, 0x20]

inductive ProxyProtocolMode where
  | off
  | auto
  | strict
  deriving DecidableEq

/-! ### Errors -/

inductive ErrorKind where
  | invalidData
  | permissionDenied
  | unexpectedEof
  deriving DecidableEq

structure IoError where
  kind : ErrorKind
  message : String
  deriving DecidableEq

/-- What `read_exact` returns at the end of the stream. -/
def earlyEof : IoError := ⟨.unexpectedEof, "early eof"⟩

/-! ### The stream that is handed on -/

structure PrefixedStream where
  inner : ByteStream
  pre : Option (List UInt8)
  pos : Nat

namespace PrefixedStream

def new (inner : ByteStream) (pre : Option (List UInt8)) : PrefixedStream := ⟨inner, pre, 0⟩

/-- `poll_read` into a buffer with room for `cap` bytes. -/
def pollRead (s : PrefixedStream) (cap : Nat) : List UInt8 × PrefixedStream :=
  match s.pre with
  | some pre =>
      if s.pos < pre.length then
        let toCopy := min (pre.length - s.pos) cap
        let pos := s.pos + toCopy
        ((pre.drop s.pos).take toCopy,
          { s with pre := if pre.length ≤ pos then none else some pre, pos := pos })
      else
        let (chunk, inner) := s.inner.read cap
        (chunk, { s with inner := inner })
  | none =>
      let (chunk, inner) := s.inner.read cap
      (chunk, { s with inner := inner })

/-- One read after the other, with room for each of `caps` in turn. -/
def pollReads (s : PrefixedStream) : List Nat → List UInt8 × PrefixedStream
  | [] => ([], s)
  | cap :: caps =>
      let (chunk, s) := s.pollRead cap
      let (chunks, s) := s.pollReads caps
      (chunk ++ chunks, s)

/-- What is still in front of the inner stream. -/
def pending (s : PrefixedStream) : List UInt8 :=
  match s.pre with
  | some pre => pre.drop s.pos
  | none => []

/-- The bytes that the stream has still to deliver. -/
def bytes (s : PrefixedStream) : List UInt8 := s.pending ++ s.inner.bytes

@[simp] theorem bytes_new_none (s : ByteStream) : (new s none).bytes = s.bytes := rfl

/-- A read takes its bytes from the pending ones or, when there are none, from
the inner stream. -/
theorem pollRead_cases (s : PrefixedStream) (cap : Nat) :
    (s.pending ≠ [] ∧ (s.pollRead cap).1 = s.pending.take cap ∧
        (s.pollRead cap).2.pending = s.pending.drop cap ∧ (s.pollRead cap).2.inner = s.inner) ∨
      (s.pending = [] ∧ (s.pollRead cap).1 = (s.inner.read cap).1 ∧
        (s.pollRead cap).2.pending = [] ∧ (s.pollRead cap).2.inner = (s.inner.read cap).2) := by
  obtain ⟨inner, pre, pos⟩ := s
  -- as the source tells them apart: a prefix that is not used up, or none
  cases pre with
  | none => exact .inr ⟨rfl, rfl, rfl, rfl⟩
  | some pre =>
      by_cases hpos : pos < pre.length
      · refine .inl ?_
        have hpending : pending ⟨inner, some pre, pos⟩ = pre.drop pos := rfl
        have hlen : (pre.drop pos).length = pre.length - pos := List.length_drop
        simp only [pollRead, hpos, if_true, hpending]
        refine ⟨?_, ?_, ?_, trivial⟩
        · intro hnil
          rw [hnil] at hlen
          simp only [List.length_nil] at hlen
          omega
        · rw [← hlen, Nat.min_comm]
          exact (List.take_eq_take_min ..).symm
        · -- the prefix is dropped as soon as it is used up
          by_cases hdone : pre.length ≤ pos + min (pre.length - pos) cap
          · have hcap : (pre.drop pos).length ≤ cap := by omega
            rw [if_pos hdone, List.drop_of_length_le hcap]
            rfl
          · have hcap : min (pre.length - pos) cap = cap := by omega
            rw [if_neg hdone, hcap]
            show pre.drop (pos + cap) = _
            rw [List.drop_drop]
      · refine .inr ?_
        have hnil : pre.drop pos = [] := List.drop_of_length_le (by omega)
        simp only [pollRead, hpos, if_false]
        exact ⟨hnil, trivial, hnil, trivial⟩

theorem pollRead_append (s : PrefixedStream) (cap : Nat) :
    (s.pollRead cap).1 ++ (s.pollRead cap).2.bytes = s.bytes := by
  rcases pollRead_cases s cap with ⟨-, hread, hpending, hinner⟩ | ⟨hnil, hread, hpending, hinner⟩
  · rw [bytes, hread, hpending, hinner, ← List.append_assoc, List.take_append_drop]
    rfl
  · rw [bytes, bytes, hread, hpending, hinner, hnil]
    exact s.inner.read_append cap

/-- A read with room returns nothing only at the end. -/
theorem pollRead_eq_nil_iff {s : PrefixedStream} {cap : Nat} (hcap : 0 < cap) :
    (s.pollRead cap).1 = [] ↔ s.bytes = [] := by
  rcases pollRead_cases s cap with ⟨hne, hread, -, -⟩ | ⟨hnil, hread, -, -⟩
  · have hcap' : cap ≠ 0 := Nat.pos_iff_ne_zero.mp hcap
    simp [hread, bytes, List.take_eq_nil_iff, hne, hcap']
  · rw [hread, bytes, hnil]
    exact ByteStream.read_eq_nil_iff hcap

theorem pollReads_append (s : PrefixedStream) (caps : List Nat) :
    (s.pollReads caps).1 ++ (s.pollReads caps).2.bytes = s.bytes := by
  induction caps generalizing s with
  | nil => rfl
  | cons cap caps ih =>
      simp only [pollReads]
      rw [List.append_assoc, ih, pollRead_append]

/-- **Reading on delivers exactly `bytes`.**  As many reads with room as there
are bytes bring all of them, in order. -/
theorem pollReads_all {s : PrefixedStream} {caps : List Nat} (hcaps : ∀ cap ∈ caps, 0 < cap)
    (hlen : s.bytes.length ≤ caps.length) : (s.pollReads caps).1 = s.bytes := by
  induction caps generalizing s with
  | nil =>
      have hnil : s.bytes = [] := List.length_eq_zero_iff.mp (Nat.le_zero.mp hlen)
      rw [hnil]
      rfl
  | cons cap caps ih =>
      have hcap : 0 < cap := hcaps cap (by simp)
      have happ := pollRead_append s cap
      -- a read that returns nothing has reached the end, any other one makes progress
      have hle : (s.pollRead cap).2.bytes.length ≤ caps.length := by
        by_cases hnil : (s.pollRead cap).1 = []
        · rw [hnil, List.nil_append, (pollRead_eq_nil_iff hcap).mp hnil] at happ
          simp [happ]
        · have hpos := List.length_pos_iff.mpr hnil
          have hsum := congrArg List.length happ
          rw [List.length_append] at hsum
          rw [List.length_cons] at hlen
          omega
      simp only [pollReads]
      rw [ih (fun cap hmem => hcaps cap (List.mem_cons_of_mem _ hmem)) hle, happ]

end PrefixedStream

/-! ### Reading a header -/

structure ConnectionMeta where
  transportPeerAddr : SocketAddr
  clientAddr : SocketAddr
  proxyDestinationAddr : Option SocketAddr
  proxyProtocolVersion : Option UInt8
  deriving DecidableEq

def ConnectionMeta.new (peerAddr : SocketAddr) : ConnectionMeta := ⟨peerAddr, peerAddr, none, none⟩

/-- Where the first CRLF starts. -/
def findCrlf : List UInt8 → Option Nat
  | a :: b :: rest =>
      if a = 0x0D ∧ b = 0x0A then some 0 else (findCrlf (b :: rest)).map (· + 1)
  | _ => none

/-- Push `k` bytes of the stream, each by a `read_exact` of its own. -/
def pushBytes : Nat → List UInt8 → ByteStream → Except IoError (List UInt8 × ByteStream)
  | 0, buf, s => .ok (buf, s)
  | k + 1, buf, s =>
      match s.readExact 1 with
      | none => .error earlyEof
      | some (b, s) => pushBytes k (buf ++ b) s

/-- Push bytes of the stream until a CRLF is there, at most `k` and as long as
there are any. -/
def completeLine : Nat → List UInt8 → ByteStream → List UInt8 × ByteStream
  | 0, buf, s => (buf, s)
  | k + 1, buf, s =>
      if (findCrlf buf).isSome then (buf, s)
      else
        match s.readExact 1 with
        | none => (buf, s)
        | some (b, s) => completeLine k (buf ++ b) s

/-- What is put in front of the stream again: the bytes from `n` on, if any. -/
def beyond (buf : List UInt8) (n : Nat) : Option (List UInt8) :=
  if n < buf.length then some (buf.drop n) else none

/-- The version in a v2 header. -/
def v2Version (buf : List UInt8) : UInt8 := byteAt buf 12 >>> 4

/-- The length of a v2 header: its first part and its payload. -/
def totalV2Len (buf : List UInt8) : Nat := 16 + (u16At buf 14).toNat

/-- The source and the destination that a v2 header announces, if its command
is `PROXY` and its family and length are those of TCP addresses. -/
def v2Addresses (buf : List UInt8) : Option (SocketAddr × SocketAddr) :=
  let payloadLen := (u16At buf 14).toNat
  let cmd := byteAt buf 12 &&& 0x0F
  let fam := (byteAt buf 13 >>> 4) &&& 0x0F
  if cmd = 0x01 then
    if fam = 0x01 ∧ 12 ≤ payloadLen then
      let srcIp := ipv4At buf 16
      let dstIp := ipv4At buf 20
      let srcPort := u16At buf 24
      let dstPort := u16At buf 26
      some (.new (.v4 srcIp) srcPort, .new (.v4 dstIp) dstPort)
    else if fam = 0x02 ∧ 36 ≤ payloadLen then
      let srcIp := ipv6At buf 16
      let dstIp := ipv6At buf 32
      let srcPort := u16At buf 48
      let dstPort := u16At buf 50
      some (.new (.v6 srcIp) srcPort, .new (.v6 dstIp) dstPort)
    else none
  else none

/-- What the line of a v1 header says. -/
inductive V1Line where
  | announced (client dest : SocketAddr)
  | unknown
  | malformed
  deriving DecidableEq

/-- `parse::<u16>()`. -/
def parseU16 (cs : List Char) : Option UInt16 := (Text.parseUnsigned 65535 cs).map UInt16.ofNat

section

variable {IpNet : Type} (contains : IpNet → IpAddr → Bool)
variable (parseIp : List Char → Option IpAddr)

def parseV1Parts (parts : List (List Char)) : V1Line :=
  -- `parts[i]`; the lengths are checked first
  let part := fun i => parts.getD i []
  if 6 ≤ parts.length ∧ (part 1 = "TCP4".toList ∨ part 1 = "TCP6".toList) then
    match parseIp (part 2), parseIp (part 3), parseU16 (part 4), parseU16 (part 5) with
    | some srcIp, some dstIp, some srcPort, some dstPort =>
        .announced (.new srcIp srcPort) (.new dstIp dstPort)
    | _, _, _, _ => .malformed
  else if 2 ≤ parts.length ∧ part 1 = "UNKNOWN".toList then .unknown
  else .malformed

def parseV1Line (line : List UInt8) : V1Line :=
  match Text.fromUtf8 line with
  | some text => parseV1Parts parseIp (Text.splitWhitespace text)
  | none => .malformed

/-- `is_trusted`: without a list every peer is. -/
def isTrusted (peerAddr : SocketAddr) : Option (List IpNet) → Bool
  | some trusted => trusted.any fun net => contains net peerAddr.ip
  | none => true

/-- A header that announces addresses counts if the peer is trusted. -/
def announce (version : UInt8) (mode : ProxyProtocolMode) (trusted : Bool)
    (connMeta : ConnectionMeta) (client dest : SocketAddr) (s : PrefixedStream) :
    Except IoError (ConnectionMeta × PrefixedStream) :=
  if trusted then
    .ok ({ connMeta with
            clientAddr := client
            proxyDestinationAddr := some dest
            proxyProtocolVersion := some version }, s)
  else if mode = .strict then
    .error ⟨.permissionDenied, "PROXY v" ++ version.toNat.repr ++ " from untrusted peer "
      ++ connMeta.transportPeerAddr.display ++ " rejected"⟩
  else .ok (connMeta, s)

/-- The v2 header once its first 16 bytes are there. -/
def readV2Payload (mode : ProxyProtocolMode) (trusted : Bool) (connMeta : ConnectionMeta)
    (buf : List UInt8) (s : ByteStream) : Except IoError (ConnectionMeta × PrefixedStream) :=
  if v2Version buf ≠ 2 then
    if mode = .strict then
      .error ⟨.invalidData, "Unsupported PROXY protocol version in v2 signature"⟩
    else .ok (connMeta, .new s (some buf))
  else
    let total := totalV2Len buf
    -- the loop runs at most once: `read_exact` brings all that is needed, or fails
    match s.readExact (total - buf.length) with
    | none => .error earlyEof
    | some (temp, s) =>
        let buf := buf ++ temp
        let rest := beyond buf total
        match v2Addresses buf with
        | some (client, dest) => announce 2 mode trusted connMeta client dest (.new s rest)
        | none => .ok ({ connMeta with proxyProtocolVersion := some 2 }, .new s rest)

/-- The rest of `read_proxy_protocol_with_meta` once the first bytes are the
v2 signature. -/
def readV2 (mode : ProxyProtocolMode) (trusted : Bool) (connMeta : ConnectionMeta)
    (buf : List UInt8) (s : ByteStream) : Except IoError (ConnectionMeta × PrefixedStream) :=
  match pushBytes (16 - buf.length) buf s with
  | .error e => .error e
  | .ok (buf, s) => readV2Payload mode trusted connMeta buf s

/-- The end of `read_proxy_protocol_with_meta`: no header was found. -/
def headerNotFound (mode : ProxyProtocolMode) (connMeta : ConnectionMeta) (buf : List UInt8)
    (s : ByteStream) : Except IoError (ConnectionMeta × PrefixedStream) :=
  if mode = .strict then
    .error ⟨.invalidData, "PROXY protocol header required but not found"⟩
  else .ok (connMeta, .new s (some buf))

/-- The rest of `read_proxy_protocol_with_meta` once the first bytes are
`PROXY `. -/
def readV1 (mode : ProxyProtocolMode) (trusted : Bool) (connMeta : ConnectionMeta)
    (buf : List UInt8) (s : ByteStream) : Except IoError (ConnectionMeta × PrefixedStream) :=
  let (buf, s) := completeLine (108 - buf.length) buf s
  match findCrlf buf with
  | some pos =>
      let rest := beyond buf (pos + 2)
      match parseV1Line parseIp (buf.take pos) with
      | .announced client dest => announce 1 mode trusted connMeta client dest (.new s rest)
      | .unknown => .ok ({ connMeta with proxyProtocolVersion := some 1 }, .new s rest)
      | .malformed =>
          if mode = .strict then .error ⟨.invalidData, "Malformed PROXY protocol v1 header"⟩
          else headerNotFound mode connMeta buf s
  | none => headerNotFound mode connMeta buf s

def readProxyProtocolWithMeta (s : ByteStream) (peerAddr : SocketAddr) (mode : ProxyProtocolMode)
    (trustedProxies : Option (List IpNet)) : Except IoError (ConnectionMeta × PrefixedStream) :=
  let connMeta := ConnectionMeta.new peerAddr
  if mode = .off then .ok (connMeta, .new s none)
  else
    let trusted := isTrusted contains peerAddr trustedProxies
    -- only this first read is looked at for a signature
    let (buf, s) := s.read 1024
    if buf.length = 0 then .ok (connMeta, .new s none)
    else if 12 ≤ buf.length ∧ buf.take 12 = v2Signature then readV2 mode trusted connMeta buf s
    else if 6 ≤ buf.length ∧ buf.take 6 = v1Start then
      readV1 parseIp mode trusted connMeta buf s
    else headerNotFound mode connMeta buf s

/-- Without a peer: the source that was announced, if any. -/
def readProxyProtocol (s : ByteStream) (mode : ProxyProtocolMode) :
    Except IoError (Option SocketAddr × PrefixedStream) :=
  let dummyAddr := SocketAddr.v4 (.new 0 0 0 0) 0
  match readProxyProtocolWithMeta contains parseIp s dummyAddr mode none with
  | .error e => .error e
  | .ok (connMeta, s) =>
      let src :=
        if connMeta.proxyProtocolVersion.isSome ∧ connMeta.clientAddr ≠ dummyAddr then
          some connMeta.clientAddr
        else none
      .ok (src, s)

end

/-! ### Encoders -/

/-- The line of a v1 header with addresses. -/
def v1Text (family : List Char) (srcIp dstIp : IpAddr) (srcPort dstPort : UInt16) : List Char :=
  [' '].intercalate ["PROXY".toList, family, srcIp.chars, dstIp.chars,
    Nat.toDigits 10 srcPort.toNat, Nat.toDigits 10 dstPort.toNat]

def encodeProxyProtocolV1 (src dst : SocketAddr) : List UInt8 :=
  match src, dst with
  | .v4 sIp sPort, .v4 dIp dPort =>
      Text.toUtf8 (v1Text "TCP4".toList (.v4 sIp) (.v4 dIp) sPort dPort ++ ['\r', '\n'])
  | .v6 sIp sPort _ _, .v6 dIp dPort _ _ =>
      Text.toUtf8 (v1Text "TCP6".toList (.v6 sIp) (.v6 dIp) sPort dPort ++ ['\r', '\n'])
  | _, _ => Text.toUtf8 "PROXY UNKNOWN\r\n".toList

def encodeProxyProtocolV2 (src dst : SocketAddr) : List UInt8 :=
  v2Signature ++
    match src, dst with
    | .v4 sIp sPort, .v4 dIp dPort =>
        [0x21, 0x11] ++ toBeBytes 2 12 ++ sIp.octets ++ dIp.octets ++
          toBeBytes 2 sPort.toNat ++ toBeBytes 2 dPort.toNat
    | .v6 sIp sPort _ _, .v6 dIp dPort _ _ =>
        [0x21, 0x21] ++ toBeBytes 2 36 ++ sIp.octets ++ dIp.octets ++
          toBeBytes 2 sPort.toNat ++ toBeBytes 2 dPort.toNat
    | _, _ => [0x20, 0x00] ++ toBeBytes 2 0

/-! ### Datagrams -/

/-- The source that the payload of a v2 header announces. -/
def datagramSource (cmd famTrans : UInt8) (payload : List UInt8) : Option SocketAddr :=
  let fam := (famTrans >>> 4) &&& 0x0F
  if cmd = 0x01 then
    if fam = 0x01 ∧ 12 ≤ payload.length then
      some (.new (.v4 (ipv4At payload 0)) (u16At payload 8))
    else if fam = 0x02 ∧ 36 ≤ payload.length then
      some (.new (.v6 (ipv6At payload 0)) (u16At payload 32))
    else none
  else none

def parseProxyProtocolDatagram (data : List UInt8) (mode : ProxyProtocolMode) :
    Except IoError (Option SocketAddr × List UInt8) :=
  if mode = .off ∨ data.length < 16 then .ok (none, data)
  else if v2Signature.isPrefixOf data then
    let versionCmd := byteAt data 12
    let famTrans := byteAt data 13
    let totalHeaderLen := 16 + (u16At data 14).toNat
    if versionCmd >>> 4 ≠ 2 then
      if mode = .strict then .error ⟨.invalidData, "Invalid PROXY v2 version in datagram"⟩
      else .ok (none, data)
    else if data.length < totalHeaderLen then
      if mode = .strict then .error ⟨.unexpectedEof, "Truncated PROXY v2 datagram header"⟩
      else .ok (none, data)
    else
      let payload := (data.take totalHeaderLen).drop 16
      let rest := data.drop totalHeaderLen
      .ok (datagramSource (versionCmd &&& 0x0F) famTrans payload, rest)
  else if mode = .strict then
    .error ⟨.invalidData, "PROXY header required for datagram in strict mode"⟩
  else .ok (none, data)

namespace PrefixedStream

variable {s : PrefixedStream} {inner : ByteStream} {pre : List UInt8}

/-! ### Calls -/

/-- A call of `poll_read` with room for `cap` bytes; `ready` says whether the inner
stream has an answer for it. -/
structure ReadCall where
  cap : Nat
  ready : Bool

/-- Whether a call goes to the inner stream. -/
def asksInner (s : PrefixedStream) : Bool :=
  match s.pre with
  | some pre => pre.length ≤ s.pos
  | none => true

/-- An inner stream that is pending, or fails, leaves everything as it is. -/
def poll (s : PrefixedStream) (call : ReadCall) : List UInt8 × PrefixedStream :=
  if s.asksInner && !call.ready then ([], s) else s.pollRead call.cap

def polls (s : PrefixedStream) : List ReadCall → List UInt8 × PrefixedStream
  | [] => ([], s)
  | call :: calls =>
      let (chunk, s) := s.poll call
      let (chunks, s) := s.polls calls
      (chunk ++ chunks, s)

/-- The room in all calls together. -/
def room (calls : List ReadCall) : Nat := (calls.map (·.cap)).sum

def intoInner (s : PrefixedStream) : ByteStream × Option (List UInt8) := (s.inner, s.pre)

/-! ### Nothing is lost -/

theorem poll_append (s : PrefixedStream) (call : ReadCall) :
    (s.poll call).1 ++ (s.poll call).2.bytes = s.bytes := by
  rw [poll]
  split
  · rfl
  · exact pollRead_append s call.cap

theorem polls_append (s : PrefixedStream) (calls : List ReadCall) :
    (s.polls calls).1 ++ (s.polls calls).2.bytes = s.bytes := by
  induction calls generalizing s with
  | nil => rfl
  | cons call calls ih =>
      simp only [polls]
      rw [List.append_assoc, ih, poll_append]

/-! ### How far the bytes in front are read -/

/-- None of the bytes in front is left. -/
def UsedUp (s : PrefixedStream) : Prop := s.pre.getD [] = []

theorem UsedUp.poll (h : s.UsedUp) (call : ReadCall) : (s.poll call).2.UsedUp := by
  obtain ⟨inner, pre, pos⟩ := s
  rw [PrefixedStream.poll]
  split
  · exact h
  · cases pre with
    | none => rfl
    | some pre =>
        obtain rfl : pre = [] := h
        rfl

theorem UsedUp.polls (h : s.UsedUp) (calls : List ReadCall) : (s.polls calls).2.UsedUp := by
  induction calls generalizing s with
  | nil => exact h
  | cons call calls ih => exact ih (h.poll call)

/-- A call while bytes are in front. -/
theorem poll_front {pos : Nat} (hpos : pos < pre.length) (call : ReadCall) :
    poll ⟨inner, some pre, pos⟩ call = pollRead ⟨inner, some pre, pos⟩ call.cap := by
  have hasks : asksInner ⟨inner, some pre, pos⟩ = false := decide_eq_false (Nat.not_le.mpr hpos)
  rw [poll, hasks]
  rfl

theorem pollRead_within {pos cap : Nat} (h : pos + cap < pre.length) :
    pollRead ⟨inner, some pre, pos⟩ cap = ((pre.drop pos).take cap, ⟨inner, some pre, pos + cap⟩) := by
  have hmin : min (pre.length - pos) cap = cap := by omega
  simp only [pollRead]
  rw [if_pos (by omega), hmin, if_neg (by omega)]

theorem pollRead_beyond {pos cap : Nat} (hpos : pos < pre.length) (h : pre.length ≤ pos + cap) :
    (pollRead ⟨inner, some pre, pos⟩ cap).2.UsedUp := by
  have hmin : min (pre.length - pos) cap = pre.length - pos := by omega
  simp only [pollRead]
  rw [if_pos hpos, hmin, if_pos (by omega)]
  rfl

/-- As long as the room is less than what is in front, the calls fill all of it. -/
theorem polls_within {calls : List ReadCall} {pos : Nat} (h : pos + room calls < pre.length) :
    polls ⟨inner, some pre, pos⟩ calls =
      ((pre.drop pos).take (room calls), ⟨inner, some pre, pos + room calls⟩) := by
  induction calls generalizing pos with
  | nil => simp [polls, room]
  | cons call calls ih =>
      have hroom : room (call :: calls) = call.cap + room calls := by simp [room]
      rw [hroom] at h ⊢
      simp only [polls]
      rw [poll_front (by omega), pollRead_within (by omega)]
      dsimp only
      rw [ih (by omega), ← List.drop_drop, ← List.take_add]
      simp only [Nat.add_assoc]

/-- With more room all of it is used up. -/
theorem usedUp_polls {calls : List ReadCall} {pos : Nat} (hpos : pos < pre.length)
    (h : pre.length ≤ pos + room calls) : (polls ⟨inner, some pre, pos⟩ calls).2.UsedUp := by
  induction calls generalizing pos with
  | nil =>
      have hroom : room [] = 0 := rfl
      omega
  | cons call calls ih =>
      have hroom : room (call :: calls) = call.cap + room calls := by simp [room]
      show (polls (poll ⟨inner, some pre, pos⟩ call).2 calls).2.UsedUp
      rw [poll_front hpos]
      by_cases hcap : pos + call.cap < pre.length
      · rw [pollRead_within hcap]
        exact ih hcap (by omega)
      · exact (pollRead_beyond hpos (by omega)).polls calls

/-! ### What `into_inner` gives back -/

/-- With nothing in front left, the stream has still to deliver the inner bytes. -/
theorem UsedUp.bytes (h : s.UsedUp) : s.bytes = s.inner.bytes := by
  obtain ⟨inner, pre, pos⟩ := s
  cases pre with
  | none => rfl
  | some pre =>
      obtain rfl : pre = [] := h
      show List.drop pos [] ++ inner.bytes = inner.bytes
      rw [List.drop_nil, List.nil_append]

/-- **The reads are lossless; `into_inner` is when nothing in front has been read, or all
of it.** -/
theorem intoInner_lossless_iff (inner : ByteStream) (pre : Option (List UInt8))
    (calls : List ReadCall) :
    ((new inner pre).polls calls).1 ++ ((new inner pre).polls calls).2.bytes =
        pre.getD [] ++ inner.bytes ∧
      (∀ caps, (∀ cap ∈ caps, 0 < cap) →
        ((new inner pre).polls calls).2.bytes.length ≤ caps.length →
        (((new inner pre).polls calls).2.pollReads caps).1 = ((new inner pre).polls calls).2.bytes) ∧
      (((new inner pre).polls calls).1 ++ ((new inner pre).polls calls).2.intoInner.2.getD [] ++
            ((new inner pre).polls calls).2.intoInner.1.bytes = pre.getD [] ++ inner.bytes ↔
          room calls = 0 ∨ (pre.getD []).length ≤ room calls) := by
  have hbytes : (new inner pre).bytes = pre.getD [] ++ inner.bytes := by cases pre <;> rfl
  have hall := (polls_append (new inner pre) calls).trans hbytes
  refine ⟨hall, fun caps hcaps hlen => pollReads_all hcaps hlen, ?_⟩
  by_cases hroom : (pre.getD []).length ≤ room calls
  · -- all of it is used up
    have hused : ((new inner pre).polls calls).2.UsedUp := by
      by_cases hnil : pre.getD [] = []
      · exact UsedUp.polls (s := new inner pre) hnil calls
      · cases pre with
        | none => exact absurd rfl hnil
        | some pre => exact usedUp_polls (List.length_pos_iff.mpr hnil) (by simpa using hroom)
    refine iff_of_true ?_ (.inr hroom)
    rw [show ((new inner pre).polls calls).2.intoInner.2.getD [] = [] from hused, List.append_nil]
    show _ ++ ((new inner pre).polls calls).2.inner.bytes = _
    rw [← hused.bytes]
    exact hall
  · cases pre with
    | none => exact absurd (Nat.zero_le _) hroom
    | some pre =>
        have hlt : 0 + room calls < pre.length := by simpa using hroom
        show (polls ⟨inner, some pre, 0⟩ calls).1 ++ (polls ⟨inner, some pre, 0⟩ calls).2.pre.getD [] ++
            (polls ⟨inner, some pre, 0⟩ calls).2.inner.bytes = pre ++ inner.bytes ↔
          room calls = 0 ∨ pre.length ≤ room calls
        rw [polls_within hlt]
        show (pre.drop 0).take (room calls) ++ pre ++ inner.bytes = pre ++ inner.bytes ↔ _
        constructor
        · intro heq
          -- what was read stands in front once more, so nothing was read
          have hlen := congrArg List.length heq
          simp only [List.length_append, List.length_take, List.length_drop] at hlen
          exact .inl (by omega)
        · rintro (hzero | hle)
          · rw [hzero]
            rfl
          · omega

/-- One of two bytes is read, and given back once more. -/
theorem intoInner_repeats :
    ((new .empty (some [1, 2])).polls [⟨1, true⟩]).1 ++
        ((new .empty (some [1, 2])).polls [⟨1, true⟩]).2.intoInner.2.getD [] ++
        ((new .empty (some [1, 2])).polls [⟨1, true⟩]).2.intoInner.1.bytes ≠
      [1, 2] ++ ByteStream.empty.bytes := by
  decide

end PrefixedStream

end Elise
