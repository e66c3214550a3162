/-
Elise/Security/Fallback.lean

Who is not let in is passed on to the destination (`RealityServer::accept` and
`RealityServer::fallback` in src/security/reality.rs).

The destination should not be able to tell the relay from the client, nor the client
the relay from the destination.  This holds when the first record arrives whole or is
refused by its header (`accept_transparent_iff`).  A stream that ends within the header
reaches the destination with zeros up to five bytes, one that ends within the record
reaches it not at all.

Parameters: the cryptography, and `copyBidirectional` of the runtime, of which the
results say that it copies what either side sends, and the end behind it.
-/
import Elise.Security.Admission
import Elise.Conn.ProxyProtocol

namespace Elise

namespace Security

open Net

/-! ### The relay -/

/-- What reaches the two ends. -/
structure Relayed where
  toDest : List UInt8
  destEnds : Bool
  toClient : List UInt8
  clientEnds : Bool
  deriving DecidableEq

/-- A destination that takes the connection: its address, if it has one, and what it
sends. -/
structure Destination where
  peerAddr : Option SocketAddr
  stream : ByteStream

/-- The PROXY header that goes first. -/
def proxyHeader (xver : UInt8) (remoteAddr : SocketAddr) (peerAddr : Option SocketAddr) : List UInt8 :=
  let destAddr := peerAddr.getD remoteAddr
  if xver = 1 then encodeProxyProtocolV1 remoteAddr destAddr
  else if xver = 2 then encodeProxyProtocolV2 remoteAddr destAddr
  else []

/-- What an acceptor is asked for: the configuration, and the destination as it answers a
connection. -/
structure RealityServer where
  config : RealityServerConfig
  xver : UInt8
  connected : Except IoError Destination

/-- How `accept` ends.  Behind `authenticated` is the TLS handshake, on the record and
what follows it. -/
inductive Accepted where
  | authenticated (authKey : List UInt8) (stream : PrefixedStream)
  | fallbacked (relayed : Option Relayed)
  | failed (e : IoError)

section

variable (copyBidirectional : (client dest : ByteStream) → Relayed)

def fallback (server : RealityServer) (clientStream : ByteStream) (remoteAddr : SocketAddr)
    (bufferedBytes : List UInt8) : Accepted :=
  match server.connected with
  | .error e => .failed e
  | .ok dest =>
      let written := proxyHeader server.xver remoteAddr dest.peerAddr ++ bufferedBytes
      let copied := copyBidirectional clientStream dest.stream
      .fallbacked (some { copied with toDest := written ++ copied.toDest })

/-! ### `accept` -/

/-- `read_exact` into zeros: the buffer, what is left, and whether it was filled. -/
def readInto (s : ByteStream) (n : Nat) : List UInt8 × ByteStream × Bool :=
  match s.readExact n with
  | some (bs, s) => (bs, s, true)
  | none => (s.bytes ++ List.replicate (n - s.bytes.length) 0, .empty, false)

variable (crypto : RealityCrypto)

def accept (server : RealityServer) (seconds : UInt64) (stream : ByteStream)
    (remoteAddr : SocketAddr) : Option Accepted :=
  let (header, stream, filled) := readInto stream 5
  if !filled || byteAt header 0 != 0x16 then
    some (fallback copyBidirectional server stream remoteAddr header)
  else
    let recordLen := (u16At header 3).toNat
    if 16384 < recordLen then some (fallback copyBidirectional server stream remoteAddr header)
    else
      let (body, stream, filled) := readInto stream recordLen
      if !filled then some (.fallbacked none)
      else
        let clientHelloRecord := header ++ body
        (verifyClientHello crypto server.config seconds clientHelloRecord).map fun
          | .ok authKey => .authenticated authKey (.new stream (some clientHelloRecord))
          | .error _ => fallback copyBidirectional server stream remoteAddr clientHelloRecord

end

/-! ### Reading into a buffer -/

theorem readInto_filled {s : ByteStream} {n : Nat} (h : n ≤ s.bytes.length) :
    ∃ s', readInto s n = (s.bytes.take n, s', true) ∧ s'.bytes = s.bytes.drop n := by
  obtain ⟨s', hread, hbytes⟩ := ByteStream.readExact_eq_some h
  refine ⟨s', ?_, hbytes⟩
  rw [readInto, hread]

theorem readInto_short {s : ByteStream} {n : Nat} (h : s.bytes.length < n) :
    readInto s n = (s.bytes ++ List.replicate (n - s.bytes.length) 0, .empty, false) := by
  rw [readInto, ByteStream.readExact_eq_none h]

/-- The header says what the first bytes say. -/
theorem header_take {bytes : List UInt8} (h : 5 ≤ bytes.length) :
    byteAt (bytes.take 5) 0 = byteAt bytes 0 ∧ u16At (bytes.take 5) 3 = u16At bytes 3 := by
  have hlen : (bytes.take 5).length = 5 := List.length_take_of_le h
  have hkind : byteAt (bytes.take 5 ++ bytes.drop 5) 0 = byteAt (bytes.take 5) 0 :=
    byteAt_append_left _ (by omega)
  have hrecord : u16At (bytes.take 5 ++ bytes.drop 5) 3 = u16At (bytes.take 5) 3 :=
    u16At_append_left _ (by omega)
  rw [List.take_append_drop] at hkind hrecord
  exact ⟨hkind.symm, hrecord.symm⟩

/-! ### Transparency -/

/-- The destination is sent the header and what the client sends, the client what the
destination sends, and both the end. -/
def Transparent (server : RealityServer) (remoteAddr : SocketAddr) (client : List UInt8)
    (dest : Destination) (result : Option Accepted) : Prop :=
  result = some (.fallbacked (some
    ⟨proxyHeader server.xver remoteAddr dest.peerAddr ++ client, true, dest.stream.bytes, true⟩))

/-- The first record arrives whole, or its header says that it is none that is read. -/
def FirstRecord (client : List UInt8) : Prop :=
  5 ≤ client.length ∧
    (byteAt client 0 ≠ 0x16 ∨ 16384 < (u16At client 3).toNat ∨
      5 + (u16At client 3).toNat ≤ client.length)

instance (client : List UInt8) : Decidable (FirstRecord client) := by
  unfold FirstRecord
  infer_instance

section

variable {copyBidirectional : (client dest : ByteStream) → Relayed}
  (hcopy : ∀ client dest, copyBidirectional client dest = ⟨client.bytes, true, dest.bytes, true⟩)
  {server : RealityServer} {dest : Destination} (hdest : server.connected = .ok dest)
  {crypto : RealityCrypto} {seconds : UInt64} {stream : ByteStream} {remoteAddr : SocketAddr}

include hcopy hdest

theorem fallback_eq (clientStream : ByteStream) (bufferedBytes : List UInt8) :
    fallback copyBidirectional server clientStream remoteAddr bufferedBytes =
      .fallbacked (some ⟨proxyHeader server.xver remoteAddr dest.peerAddr ++
        (bufferedBytes ++ clientStream.bytes), true, dest.stream.bytes, true⟩) := by
  rw [fallback, hdest]
  dsimp only
  rw [hcopy, List.append_assoc]

/-- The fallback is transparent when buffer and stream are what the client sent. -/
theorem transparent_fallback_iff {clientStream : ByteStream} {bufferedBytes client : List UInt8} :
    Transparent server remoteAddr client dest
        (some (fallback copyBidirectional server clientStream remoteAddr bufferedBytes)) ↔
      bufferedBytes ++ clientStream.bytes = client := by
  rw [fallback_eq hcopy hdest, Transparent]
  simp

/-- **The fallback is transparent when the first record arrives whole, or is refused by its
header.** -/
theorem accept_transparent_iff
    (hnot : ∀ authKey s, accept copyBidirectional crypto server seconds stream remoteAddr ≠
      some (.authenticated authKey s)) :
    Transparent server remoteAddr stream.bytes dest
        (accept copyBidirectional crypto server seconds stream remoteAddr) ↔
      FirstRecord stream.bytes := by
  by_cases hlen : 5 ≤ stream.bytes.length
  swap
  · -- the header is filled with zeros
    refine iff_of_false ?_ fun h => hlen h.1
    rw [accept, readInto_short (Nat.lt_of_not_le hlen)]
    simp only [Bool.not_false, Bool.true_or, if_true]
    rw [transparent_fallback_iff hcopy hdest]
    intro heq
    have hlen' := congrArg List.length heq
    simp only [List.length_append, List.length_replicate] at hlen'
    omega
  · obtain ⟨rest, hheader, hrest⟩ := readInto_filled hlen
    have hsplit : stream.bytes.take 5 ++ rest.bytes = stream.bytes := by
      rw [hrest, List.take_append_drop]
    obtain ⟨hkind, hrecord⟩ := header_take hlen
    rw [accept, hheader] at hnot ⊢
    simp only [Bool.not_true, Bool.false_or, hkind, hrecord, bne_iff_ne] at hnot ⊢
    by_cases hkind : byteAt stream.bytes 0 = 0x16
    swap
    · -- no TLS: the header and the rest
      rw [if_pos hkind, transparent_fallback_iff hcopy hdest]
      exact iff_of_true hsplit ⟨hlen, .inl hkind⟩
    rw [if_neg (not_not_intro hkind)] at hnot ⊢
    by_cases hlarge : 16384 < (u16At stream.bytes 3).toNat
    · rw [if_pos hlarge, transparent_fallback_iff hcopy hdest]
      exact iff_of_true hsplit ⟨hlen, .inr (.inl hlarge)⟩
    rw [if_neg hlarge] at hnot ⊢
    have hrestlen : rest.bytes.length = stream.bytes.length - 5 := by rw [hrest, List.length_drop]
    by_cases hwhole : (u16At stream.bytes 3).toNat ≤ rest.bytes.length
    swap
    · -- nothing is passed on
      rw [readInto_short (Nat.lt_of_not_le hwhole)]
      refine iff_of_false (by simp [Transparent]) ?_
      rintro ⟨-, hne | hgt | hle⟩
      · exact hne hkind
      · exact hlarge hgt
      · omega
    obtain ⟨rest', hbody, hrest'⟩ := readInto_filled hwhole
    rw [hbody] at hnot ⊢
    simp only [Bool.not_true, Bool.false_eq_true, if_false] at hnot ⊢
    obtain ⟨verdict, hverdict⟩ := safe_verifyClientHello crypto server.config seconds
      (stream.bytes.take 5 ++ rest.bytes.take (u16At stream.bytes 3).toNat)
    rw [hverdict] at hnot ⊢
    cases verdict with
    | ok authKey => exact absurd rfl (hnot authKey _)
    | error e =>
        show Transparent server remoteAddr stream.bytes dest (some (fallback _ _ _ _ _)) ↔ _
        rw [transparent_fallback_iff hcopy hdest]
        refine iff_of_true ?_ ⟨hlen, .inr (.inr (by omega))⟩
        rw [List.append_assoc, hrest', List.take_append_drop, hsplit]

end

/-! ### Three clients -/

/-- What `copy_bidirectional` copies between streams that end. -/
def sampleCopy (client dest : ByteStream) : Relayed := ⟨client.bytes, true, dest.bytes, true⟩

theorem sampleCopy_eq (client dest : ByteStream) :
    sampleCopy client dest = ⟨client.bytes, true, dest.bytes, true⟩ := rfl

def sampleDestination : Destination :=
  ⟨some (.v4 (.new 192 0 2 1) 443), .single (Text.toUtf8 "HTTP/1.1 400\r\n\r\n".toList) (by decide)⟩

/-- A PROXY header goes first. -/
def sampleServer : RealityServer := ⟨sampleConfig, 1, .ok sampleDestination⟩

theorem connected_sampleServer : sampleServer.connected = .ok sampleDestination := rfl

def sampleRemote : SocketAddr := .v4 (.new 198 51 100 7) 50000

/-- A client that speaks HTTP, in two segments. -/
def plainClient : ByteStream :=
  ⟨[[71, 69], [84, 32, 47, 32, 72, 84, 84, 80, 47, 49, 46, 49, 13, 10, 13, 10]], by decide⟩

theorem accept_transparent_plain :
    Transparent sampleServer sampleRemote plainClient.bytes sampleDestination
      (accept sampleCopy sampleCrypto sampleServer 1700000005 plainClient sampleRemote) := by
  refine (accept_transparent_iff sampleCopy_eq connected_sampleServer ?_).mpr (by decide +kernel)
  intro authKey s
  have hfallback : accept sampleCopy sampleCrypto sampleServer 1700000005 plainClient sampleRemote =
      some (fallback sampleCopy sampleServer (readInto plainClient 5).2.1 sampleRemote
        (readInto plainClient 5).1) := rfl
  rw [hfallback, fallback_eq sampleCopy_eq connected_sampleServer]
  simp

/-- A client that sends three bytes and ends reaches the destination with two zeros, one
that ends within its first record not at all. -/
theorem short_clients_not_transparent :
    (∃ relayed, accept sampleCopy sampleCrypto sampleServer 1700000005
          (.single [22, 3, 1] (by decide)) sampleRemote = some (.fallbacked (some relayed)) ∧
        relayed.toDest =
          proxyHeader 1 sampleRemote sampleDestination.peerAddr ++ [22, 3, 1, 0, 0]) ∧
      accept sampleCopy sampleCrypto sampleServer 1700000005
          (.single [22, 3, 1, 0, 2, 1] (by decide)) sampleRemote = some (.fallbacked none) ∧
      ¬ Transparent sampleServer sampleRemote [22, 3, 1] sampleDestination
        (accept sampleCopy sampleCrypto sampleServer 1700000005 (.single [22, 3, 1] (by decide))
          sampleRemote) ∧
      ¬ Transparent sampleServer sampleRemote [22, 3, 1, 0, 2, 1] sampleDestination
        (accept sampleCopy sampleCrypto sampleServer 1700000005
          (.single [22, 3, 1, 0, 2, 1] (by decide)) sampleRemote) := by
  have hwithin : accept sampleCopy sampleCrypto sampleServer 1700000005
      (.single [22, 3, 1, 0, 2, 1] (by decide)) sampleRemote = some (.fallbacked none) := rfl
  have hshort : accept sampleCopy sampleCrypto sampleServer 1700000005
      (.single [22, 3, 1] (by decide)) sampleRemote =
        some (fallback sampleCopy sampleServer .empty sampleRemote [22, 3, 1, 0, 0]) := rfl
  refine ⟨⟨_, hshort, rfl⟩, hwithin, ?_, ?_⟩
  · rw [hshort, transparent_fallback_iff sampleCopy_eq connected_sampleServer]
    decide
  · rw [hwithin]
    simp [Transparent]

end Security

end Elise
