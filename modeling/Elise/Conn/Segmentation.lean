/-
Elise/Conn/Segmentation.lean

What the detection of a PROXY header makes of the way the transport cuts its
stream into reads (src/conn/proxy_protocol.rs).

`outcome` is what a caller sees of `read_proxy_protocol_with_meta`: a failure,
or the metadata and the bytes that the returned stream delivers.  It depends on
the bytes of the stream and on one number, the length of the first read
(`outcome_read`):

* if that read reaches over the signature of the header, and over the CRLF of a
  v1 line that is longer than 108 bytes, the outcome is `headerOutcome`;
* otherwise the bytes are taken for a connection without a header.

`read_exact` completes the rest of a header wherever it was cut, so two ways to
cut the same bytes give different outcomes exactly if one first read reaches
that far, the other does not, and the header makes a difference
(`segmentation_exact`).
-/
import Elise.Conn.ProxyProtocol

namespace Elise

open Net

abbrev ReadResult := Except IoError (ConnectionMeta × PrefixedStream)

/-- What a caller sees of a result: `none` for a failure. -/
def outcome : ReadResult → Option (ConnectionMeta × List UInt8)
  | .error _ => none
  | .ok (connMeta, s) => some (connMeta, s.bytes)

/-- Both fail, or both return the same metadata and a stream that delivers the
same bytes. -/
def SameOutcome : ReadResult → ReadResult → Prop
  | .error _, .error _ => True
  | .ok (connMeta₁, s₁), .ok (connMeta₂, s₂) => connMeta₁ = connMeta₂ ∧ s₁.bytes = s₂.bytes
  | _, _ => False

theorem sameOutcome_iff {r₁ r₂ : ReadResult} : SameOutcome r₁ r₂ ↔ outcome r₁ = outcome r₂ := by
  rcases r₁ with e₁ | ⟨connMeta₁, s₁⟩ <;> rcases r₂ with e₂ | ⟨connMeta₂, s₂⟩ <;>
    simp [SameOutcome, outcome]

/-! ### The loops depend on the bytes alone -/

theorem pushBytes_eq_ok {k : Nat} {buf : List UInt8} {s : ByteStream} (h : k ≤ s.bytes.length) :
    ∃ s', pushBytes k buf s = .ok (buf ++ s.bytes.take k, s') ∧ s'.bytes = s.bytes.drop k := by
  induction k generalizing buf s with
  | zero => exact ⟨s, by simp [pushBytes], rfl⟩
  | succ k ih =>
      obtain ⟨s₁, hread, hbytes⟩ := ByteStream.readExact_eq_some (n := 1) (s := s) (by omega)
      have hk : k ≤ s₁.bytes.length := by
        rw [hbytes, List.length_drop]
        omega
      obtain ⟨s₂, hpush, hbytes₂⟩ := @ih (buf ++ s.bytes.take 1) s₁ hk
      refine ⟨s₂, ?_, ?_⟩
      · simp only [pushBytes, hread, hpush, hbytes]
        rw [List.append_assoc, ← List.take_add, Nat.add_comm 1 k]
      · rw [hbytes₂, hbytes, List.drop_drop, Nat.add_comm 1 k]

theorem pushBytes_eq_error {k : Nat} {buf : List UInt8} {s : ByteStream}
    (h : s.bytes.length < k) : pushBytes k buf s = .error earlyEof := by
  induction k generalizing buf s with
  | zero => omega
  | succ k ih =>
      rcases Nat.eq_zero_or_pos s.bytes.length with hzero | hpos
      · have hread : s.readExact 1 = none := ByteStream.readExact_eq_none (by omega)
        simp only [pushBytes, hread]
      · obtain ⟨s₁, hread, hbytes⟩ := ByteStream.readExact_eq_some (n := 1) (s := s) hpos
        have hk : s₁.bytes.length < k := by
          rw [hbytes, List.length_drop]
          omega
        simp only [pushBytes, hread]
        exact ih hk

theorem bytes_new_beyond {s : ByteStream} {buf : List UInt8} {n : Nat} (h : n ≤ buf.length) :
    (PrefixedStream.new s (beyond buf n)).bytes = (buf ++ s.bytes).drop n := by
  rw [List.drop_append_of_le_length h]
  rw [beyond]
  split
  · rfl
  · rename_i hle
    rw [List.drop_of_length_le (Nat.le_of_not_lt hle)]
    rfl

/-- The first CRLF of a first part of the bytes. -/
theorem findCrlf_take (bs : List UInt8) (n : Nat) :
    findCrlf (bs.take n) = (findCrlf bs).filter fun pos => pos + 2 ≤ n := by
  induction bs generalizing n with
  | nil => simp [findCrlf]
  | cons a bs ih =>
      match bs, n with
      | [], 0 => rfl
      | [], n + 1 => simp [findCrlf]
      | b :: bs, 0 => simp [findCrlf]
      | b :: bs, 1 => simp [findCrlf]
      | b :: bs, n + 2 =>
          have hrest := ih (n + 1)
          simp only [List.take_succ_cons, findCrlf] at hrest ⊢
          split
          · simp [Option.filter]
          · rw [hrest]
            cases findCrlf (b :: bs) with
            | none => rfl
            | some pos => simp [Option.filter]

/-- `completeLine` leaves the bytes as they are and finds the first CRLF if it
ends within the bytes that were there and `k` more. -/
theorem completeLine_spec (k : Nat) (buf : List UInt8) (s : ByteStream) :
    (completeLine k buf s).1 ++ (completeLine k buf s).2.bytes = buf ++ s.bytes ∧
      findCrlf (completeLine k buf s).1 =
        (findCrlf (buf ++ s.bytes)).filter fun pos => pos + 2 ≤ buf.length + k := by
  -- what is found in the buffer is the first CRLF of all bytes, if it ends there
  have hfind : findCrlf buf =
      (findCrlf (buf ++ s.bytes)).filter fun pos => pos + 2 ≤ buf.length := by
    rw [← findCrlf_take, List.take_left]
  induction k generalizing buf s with
  | zero => exact ⟨rfl, hfind⟩
  | succ k ih =>
      simp only [completeLine]
      split
      · -- the CRLF is there already
        rename_i hsome
        refine ⟨rfl, ?_⟩
        obtain ⟨pos, hpos⟩ := Option.isSome_iff_exists.mp hsome
        rw [hpos] at hfind ⊢
        obtain ⟨hall, hle⟩ := Option.filter_eq_some_iff.mp hfind.symm
        have hle' : pos + 2 ≤ buf.length + (k + 1) := by
          have := of_decide_eq_true hle
          omega
        rw [hall]
        symm
        exact Option.filter_some_pos (decide_eq_true hle')
      · rename_i hnone
        rw [Option.not_isSome_iff_eq_none] at hnone
        rcases Nat.eq_zero_or_pos s.bytes.length with hzero | hpos
        · -- the stream has ended: there is no CRLF at all
          have hread : s.readExact 1 = none := ByteStream.readExact_eq_none (by omega)
          have hnil : s.bytes = [] := List.length_eq_zero_iff.mp hzero
          rw [hread]
          refine ⟨rfl, ?_⟩
          show findCrlf buf = _
          rw [hnil, List.append_nil, hnone]
          rfl
        · obtain ⟨s₁, hread, hbytes⟩ := ByteStream.readExact_eq_some (n := 1) (s := s) hpos
          have hall : buf ++ s.bytes.take 1 ++ s₁.bytes = buf ++ s.bytes := by
            rw [hbytes, List.append_assoc, List.take_append_drop]
          have hlen : (buf ++ s.bytes.take 1).length = buf.length + 1 := by
            rw [List.length_append, List.length_take]
            omega
          have hstep := ih (buf ++ s.bytes.take 1) s₁ (by rw [← findCrlf_take, List.take_left])
          rw [hall, hlen, Nat.add_assoc, Nat.add_comm 1 k] at hstep
          rw [hread]
          exact hstep

/-! ### The outcome as a function of the bytes -/

section

variable {IpNet : Type} (contains : IpNet → IpAddr → Bool)
variable (parseIp : List Char → Option IpAddr)
variable (mode : ProxyProtocolMode) (trusted : Bool) (connMeta : ConnectionMeta)

/-- No header: a failure in strict mode, otherwise all bytes are delivered. -/
def plainOutcome (bs : List UInt8) : Option (ConnectionMeta × List UInt8) :=
  if mode = .strict then none else some (connMeta, bs)

/-- Addresses were announced in front of `rest`. -/
def announceOutcome (version : UInt8) (client dest : SocketAddr) (rest : List UInt8) :
    Option (ConnectionMeta × List UInt8) :=
  if trusted then
    some ({ connMeta with
              clientAddr := client
              proxyDestinationAddr := some dest
              proxyProtocolVersion := some version }, rest)
  else plainOutcome mode connMeta rest

def v2Outcome (bs : List UInt8) : Option (ConnectionMeta × List UInt8) :=
  if bs.length < 16 then none
  else if v2Version bs ≠ 2 then plainOutcome mode connMeta bs
  else if bs.length < totalV2Len bs then none
  else
    match v2Addresses bs with
    | some (client, dest) =>
        announceOutcome mode trusted connMeta 2 client dest (bs.drop (totalV2Len bs))
    | none => some ({ connMeta with proxyProtocolVersion := some 2 }, bs.drop (totalV2Len bs))

/-- The outcome for a v1 line that ends at `pos`. -/
def v1Outcome (bs : List UInt8) (pos : Nat) : Option (ConnectionMeta × List UInt8) :=
  match parseV1Line parseIp (bs.take pos) with
  | .announced client dest =>
      announceOutcome mode trusted connMeta 1 client dest (bs.drop (pos + 2))
  | .unknown => some ({ connMeta with proxyProtocolVersion := some 1 }, bs.drop (pos + 2))
  | .malformed => plainOutcome mode connMeta bs

theorem outcome_announce (version : UInt8) (client dest : SocketAddr) (s : PrefixedStream) :
    outcome (announce version mode trusted connMeta client dest s) =
      announceOutcome mode trusted connMeta version client dest s.bytes := by
  rw [announce, announceOutcome, plainOutcome]
  split_ifs <;> rfl

/-- Which failure it is in strict mode does not matter. -/
theorem outcome_plain (e : IoError) (buf : List UInt8) (s : ByteStream) :
    outcome (if mode = .strict then .error e else .ok (connMeta, .new s (some buf))) =
      plainOutcome mode connMeta (buf ++ s.bytes) := by
  rw [plainOutcome]
  split_ifs <;> rfl

theorem outcome_headerNotFound (buf : List UInt8) (s : ByteStream) :
    outcome (headerNotFound mode connMeta buf s) = plainOutcome mode connMeta (buf ++ s.bytes) :=
  outcome_plain mode connMeta _ buf s

theorem v2Version_append {buf : List UInt8} (more : List UInt8) (h : 16 ≤ buf.length) :
    v2Version (buf ++ more) = v2Version buf := by
  rw [v2Version, v2Version, byteAt_append_left more (by omega)]

theorem totalV2Len_append {buf : List UInt8} (more : List UInt8) (h : 16 ≤ buf.length) :
    totalV2Len (buf ++ more) = totalV2Len buf := by
  rw [totalV2Len, totalV2Len, u16At_append_left more (by omega)]

/-- The addresses are within the header. -/
theorem v2Addresses_append {buf : List UInt8} (more : List UInt8) (h : 16 ≤ buf.length)
    (htotal : totalV2Len buf ≤ buf.length) : v2Addresses (buf ++ more) = v2Addresses buf := by
  unfold totalV2Len at htotal
  unfold v2Addresses
  rw [byteAt_append_left more (by omega), byteAt_append_left more (by omega),
    u16At_append_left more (by omega)]
  dsimp only
  split
  · split
    · rename_i hfam
      rw [ipv4At_append_left more (by omega), ipv4At_append_left more (by omega),
        u16At_append_left more (by omega), u16At_append_left more (by omega)]
    · split
      · rename_i hfam
        rw [ipv6At_append_left more (by omega), ipv6At_append_left more (by omega),
          u16At_append_left more (by omega), u16At_append_left more (by omega)]
      · rfl
  · rfl

theorem outcome_readV2Payload {buf : List UInt8} (s : ByteStream) (h : 16 ≤ buf.length) :
    outcome (readV2Payload mode trusted connMeta buf s) =
      v2Outcome mode trusted connMeta (buf ++ s.bytes) := by
  have h16 : ¬ (buf ++ s.bytes).length < 16 := by
    rw [List.length_append]
    omega
  rw [readV2Payload, v2Outcome]
  rw [if_neg h16, v2Version_append _ h, totalV2Len_append _ h]
  split
  · exact outcome_plain mode connMeta _ buf s
  · dsimp only
    by_cases hshort : (buf ++ s.bytes).length < totalV2Len buf
    · rw [List.length_append] at hshort
      have hread : s.readExact (totalV2Len buf - buf.length) = none :=
        ByteStream.readExact_eq_none (by omega)
      rw [hread, if_pos (by rwa [List.length_append])]
      rfl
    · rw [if_neg hshort]
      rw [List.length_append] at hshort
      obtain ⟨s', hread, hbytes⟩ :=
        @ByteStream.readExact_eq_some s (totalV2Len buf - buf.length) (by omega)
      -- the buffer with what was read is a first part of the bytes
      obtain ⟨temp, htemp⟩ : ∃ temp, temp = s.bytes.take (totalV2Len buf - buf.length) := ⟨_, rfl⟩
      have hall : buf ++ s.bytes = buf ++ temp ++ s'.bytes := by
        rw [htemp, hbytes, List.append_assoc, List.take_append_drop]
      have hlen : totalV2Len buf ≤ (buf ++ temp).length := by
        rw [htemp, List.length_append, List.length_take]
        omega
      have hbuf : 16 ≤ (buf ++ temp).length := by
        rw [List.length_append]
        omega
      have haddr : v2Addresses (buf ++ temp ++ s'.bytes) = v2Addresses (buf ++ temp) := by
        apply v2Addresses_append _ hbuf
        rwa [totalV2Len_append _ h]
      rw [hread, ← htemp, hall, haddr]
      dsimp only
      cases v2Addresses (buf ++ temp) with
      | none =>
          show some (_, _) = some (_, _)
          rw [bytes_new_beyond hlen]
      | some addresses =>
          dsimp only
          rw [outcome_announce, bytes_new_beyond hlen]

/-- **A v2 header is read the same way wherever it was cut.** -/
theorem outcome_readV2 (buf : List UInt8) (s : ByteStream) :
    outcome (readV2 mode trusted connMeta buf s) =
      v2Outcome mode trusted connMeta (buf ++ s.bytes) := by
  rw [readV2]
  by_cases h16 : (buf ++ s.bytes).length < 16
  · rw [v2Outcome, if_pos h16]
    rw [List.length_append] at h16
    rw [pushBytes_eq_error (by omega)]
    rfl
  · rw [List.length_append] at h16
    obtain ⟨s', hpush, hbytes⟩ := @pushBytes_eq_ok (16 - buf.length) buf s (by omega)
    have hlen : 16 ≤ (buf ++ s.bytes.take (16 - buf.length)).length := by
      rw [List.length_append, List.length_take]
      omega
    rw [hpush]
    dsimp only
    rw [outcome_readV2Payload mode trusted connMeta s' hlen, hbytes, List.append_assoc,
      List.take_append_drop]

/-- **A v1 line is read the same way wherever it was cut**, if its end is
within the first read or the first 108 bytes. -/
theorem outcome_readV1 (buf : List UInt8) (s : ByteStream) :
    outcome (readV1 parseIp mode trusted connMeta buf s) =
      match (findCrlf (buf ++ s.bytes)).filter fun pos => pos + 2 ≤ max buf.length 108 with
      | some pos => v1Outcome parseIp mode trusted connMeta (buf ++ s.bytes) pos
      | none => plainOutcome mode connMeta (buf ++ s.bytes) := by
  -- the line is completed up to 108 bytes, or not at all if more are there
  obtain ⟨hall, hfind⟩ := completeLine_spec (108 - buf.length) buf s
  have hmax : buf.length + (108 - buf.length) = max buf.length 108 := by omega
  rw [hmax] at hfind
  rw [readV1]
  generalize completeLine (108 - buf.length) buf s = line at hall hfind ⊢
  obtain ⟨buf', s'⟩ := line
  dsimp only at hall hfind ⊢
  rw [← hfind, ← hall]
  cases hpos : findCrlf buf' with
  | none => exact outcome_headerNotFound mode connMeta buf' s'
  | some pos =>
      have hlen : pos + 2 ≤ buf'.length := by
        have htake := findCrlf_take buf' buf'.length
        rw [List.take_length, hpos] at htake
        exact of_decide_eq_true (Option.filter_eq_some_iff.mp htake.symm).2
      have hline : (buf' ++ s'.bytes).take pos = buf'.take pos :=
        List.take_append_of_le_length (by omega)
      dsimp only
      rw [v1Outcome, hline]
      cases parseV1Line parseIp (buf'.take pos) with
      | announced client dest =>
          dsimp only
          rw [outcome_announce, bytes_new_beyond hlen]
      | unknown =>
          show some (_, _) = some (_, _)
          rw [bytes_new_beyond hlen]
      | malformed =>
          dsimp only
          rw [← outcome_headerNotFound]
          rw [headerNotFound]
          split_ifs <;> rfl

/-! ### The first read -/

/-- How many bytes the first read brings. -/
def firstReadLen (s : ByteStream) : Nat := (s.read 1024).1.length

/-- A first read of `n` bytes reaches over the signature of the header, and a
v1 line ends within that read or within 108 bytes. -/
def Reaches (bs : List UInt8) (n : Nat) : Prop :=
  (bs.take 12 = v2Signature ∧ 12 ≤ n) ∨
    (bs.take 6 = v1Start ∧ 6 ≤ n ∧ ∃ pos, findCrlf bs = some pos ∧ pos + 2 ≤ max n 108)

/-- The outcome if the header is found. -/
def headerOutcome (bs : List UInt8) : Option (ConnectionMeta × List UInt8) :=
  if bs.take 12 = v2Signature then v2Outcome mode trusted connMeta bs
  else
    match findCrlf bs with
    | some pos => v1Outcome parseIp mode trusted connMeta bs pos
    | none => plainOutcome mode connMeta bs

theorem take_ne_v2Signature {bs : List UInt8} (h : bs.take 6 = v1Start) :
    bs.take 12 ≠ v2Signature := by
  intro hsig
  have hsix := congrArg (List.take 6) hsig
  rw [List.take_take, Nat.min_eq_left (by decide), h] at hsix
  revert hsix
  decide

end

section

variable {IpNet : Type} (contains : IpNet → IpAddr → Bool)
variable (parseIp : List Char → Option IpAddr)
variable (peerAddr : SocketAddr) {mode : ProxyProtocolMode} (trustedProxies : Option (List IpNet))

theorem outcome_read_nil {s : ByteStream} (hmode : mode ≠ .off) (hnil : s.bytes = []) :
    outcome (readProxyProtocolWithMeta contains parseIp s peerAddr mode trustedProxies) =
      some (.new peerAddr, []) := by
  have happ := s.read_append 1024
  have hread := (@ByteStream.read_eq_nil_iff s 1024 (by decide)).mpr hnil
  rw [readProxyProtocolWithMeta]
  rw [if_neg hmode]
  rw [hread, hnil, List.nil_append] at happ
  simp [hread, outcome, happ]

theorem outcome_read (s : ByteStream) (hmode : mode ≠ .off) (hne : s.bytes ≠ []) :
    outcome (readProxyProtocolWithMeta contains parseIp s peerAddr mode trustedProxies) =
      if 12 ≤ firstReadLen s ∧ s.bytes.take 12 = v2Signature then
        v2Outcome mode (isTrusted contains peerAddr trustedProxies) (.new peerAddr) s.bytes
      else if 6 ≤ firstReadLen s ∧ s.bytes.take 6 = v1Start then
        match (findCrlf s.bytes).filter fun pos => pos + 2 ≤ max (firstReadLen s) 108 with
        | some pos =>
            v1Outcome parseIp mode (isTrusted contains peerAddr trustedProxies) (.new peerAddr)
              s.bytes pos
        | none => plainOutcome mode (.new peerAddr) s.bytes
      else plainOutcome mode (.new peerAddr) s.bytes := by
  have happ := s.read_append 1024
  have hnil := @ByteStream.read_eq_nil_iff s 1024 (by decide)
  rw [readProxyProtocolWithMeta, firstReadLen]
  rw [if_neg hmode]
  generalize s.read 1024 = r at happ hnil ⊢
  obtain ⟨buf, s'⟩ := r
  dsimp only at happ hnil ⊢
  have hpos : ¬ buf.length = 0 := by
    intro hzero
    exact hne (hnil.mp (List.length_eq_zero_iff.mp hzero))
  -- the bytes that are looked at are in the first read
  have htake : ∀ k, k ≤ buf.length → buf.take k = s.bytes.take k := by
    intro k hk
    rw [← happ, List.take_append_of_le_length hk]
  have hlook : ∀ (k : Nat) (text : List UInt8),
      (k ≤ buf.length ∧ buf.take k = text) ↔ (k ≤ buf.length ∧ s.bytes.take k = text) := by
    intro k text
    apply and_congr_right
    intro hk
    rw [htake k hk]
  rw [if_neg hpos]
  simp only [hlook]
  split_ifs
  · rw [outcome_readV2, happ]
  · rw [outcome_readV1, happ]
  · rw [outcome_headerNotFound, happ]

theorem outcome_read_of_reaches {s : ByteStream} (hmode : mode ≠ .off) (hne : s.bytes ≠ [])
    (h : Reaches s.bytes (firstReadLen s)) :
    outcome (readProxyProtocolWithMeta contains parseIp s peerAddr mode trustedProxies) =
      headerOutcome parseIp mode (isTrusted contains peerAddr trustedProxies) (.new peerAddr)
        s.bytes := by
  rw [outcome_read contains parseIp peerAddr trustedProxies s hmode hne, headerOutcome]
  rcases h with ⟨hsig, hlen⟩ | ⟨hstart, hlen, pos, hpos, hle⟩
  · rw [if_pos ⟨hlen, hsig⟩, if_pos hsig]
  · have hsig := take_ne_v2Signature hstart
    rw [if_neg fun hv2 => hsig hv2.2, if_pos ⟨hlen, hstart⟩, if_neg hsig, hpos,
      Option.filter_some_pos (by simpa using hle)]

theorem outcome_read_of_not_reaches {s : ByteStream} (hmode : mode ≠ .off) (hne : s.bytes ≠ [])
    (h : ¬ Reaches s.bytes (firstReadLen s)) :
    outcome (readProxyProtocolWithMeta contains parseIp s peerAddr mode trustedProxies) =
      plainOutcome mode (.new peerAddr) s.bytes := by
  rw [outcome_read contains parseIp peerAddr trustedProxies s hmode hne]
  have hv2 : ¬ (12 ≤ firstReadLen s ∧ s.bytes.take 12 = v2Signature) :=
    fun hv2 => h (.inl ⟨hv2.2, hv2.1⟩)
  rw [if_neg hv2]
  split_ifs with hv1
  · cases hfind : (findCrlf s.bytes).filter fun pos => pos + 2 ≤ max (firstReadLen s) 108 with
    | none => rfl
    | some pos =>
        obtain ⟨hpos, hle⟩ := Option.filter_eq_some_iff.mp hfind
        exact absurd (.inr ⟨hv1.2, hv1.1, pos, hpos, of_decide_eq_true hle⟩) h
  · rfl

end

/-! ### When the header makes no difference -/

section

variable (parseIp : List Char → Option IpAddr) (mode : ProxyProtocolMode) (trusted : Bool)

/-- A v2 header whose version is not 2, or that strict mode refuses for
another reason: it is cut short, or its addresses come from an untrusted
peer. -/
def V2Inert (bs : List UInt8) : Prop :=
  (16 ≤ bs.length ∧ v2Version bs ≠ 2) ∨
    (mode = .strict ∧
      (bs.length < 16 ∨ bs.length < totalV2Len bs ∨
        ((v2Addresses bs).isSome = true ∧ trusted = false)))

/-- A v1 line that is malformed, or refused anyway. -/
def V1Inert (bs : List UInt8) : Prop :=
  ∃ pos, findCrlf bs = some pos ∧
    (parseV1Line parseIp (bs.take pos) = .malformed ∨
      (mode = .strict ∧ trusted = false ∧
        ∃ client dest, parseV1Line parseIp (bs.take pos) = .announced client dest))

/-- The header of `bs`, found or not, leads to the same outcome. -/
def HeaderInert (bs : List UInt8) : Prop :=
  (bs.take 12 = v2Signature ∧ V2Inert mode trusted bs) ∨
    (bs.take 6 = v1Start ∧ V1Inert parseIp mode trusted bs)

variable {mode} (connMeta : ConnectionMeta)

/-- A shorter rest is not what the caller gets without a header. -/
theorem some_drop_ne_plain {bs : List UInt8} {k : Nat} {m : ConnectionMeta} (hk : 0 < k)
    (hne : bs ≠ []) : some (m, bs.drop k) ≠ plainOutcome mode connMeta bs := by
  rw [plainOutcome]
  split
  · exact Option.some_ne_none _
  · intro heq
    have hlen := congrArg List.length (Prod.mk.inj (Option.some.inj heq)).2
    have hpos := List.length_pos_iff.mpr hne
    rw [List.length_drop] at hlen
    omega

/-- Announced addresses make no difference only where they are refused. -/
theorem announce_eq_plain_iff {bs : List UInt8} {k : Nat} (version : UInt8)
    (client dest : SocketAddr) (hk : 0 < k) (hne : bs ≠ []) :
    announceOutcome mode trusted connMeta version client dest (bs.drop k) =
        plainOutcome mode connMeta bs ↔
      mode = .strict ∧ trusted = false := by
  rw [announceOutcome]
  cases trusted with
  | true => simpa using some_drop_ne_plain connMeta hk hne
  | false =>
      by_cases hstrict : mode = .strict
      · simp [plainOutcome, hstrict]
      · have hdrop := @some_drop_ne_plain mode connMeta bs k connMeta hk hne
        simpa [plainOutcome, hstrict] using hdrop

theorem none_eq_plain_iff {bs : List UInt8} :
    none = plainOutcome mode connMeta bs ↔ mode = .strict := by
  rw [plainOutcome]
  split_ifs with h <;> simp [h]

theorem v2Outcome_eq_plain_iff {bs : List UInt8} (hne : bs ≠ []) :
    v2Outcome mode trusted connMeta bs = plainOutcome mode connMeta bs ↔
      V2Inert mode trusted bs := by
  have htotal : 0 < totalV2Len bs := by
    rw [totalV2Len]
    omega
  rw [v2Outcome, V2Inert]
  split_ifs with h16 hversion hshort
  · rw [none_eq_plain_iff]
    constructor
    · intro hstrict
      exact .inr ⟨hstrict, .inl h16⟩
    · rintro (⟨hlen, -⟩ | ⟨hstrict, -⟩)
      · omega
      · exact hstrict
  · exact iff_of_true rfl (.inl ⟨Nat.le_of_not_lt h16, hversion⟩)
  · rw [none_eq_plain_iff]
    constructor
    · intro hstrict
      exact .inr ⟨hstrict, .inr (.inl hshort)⟩
    · rintro (⟨-, hne2⟩ | ⟨hstrict, -⟩)
      · exact absurd hne2 hversion
      · exact hstrict
  · -- the header is complete: only refused addresses make no difference
    have hiff : (16 ≤ bs.length ∧ v2Version bs ≠ 2) ∨ (mode = .strict ∧ (bs.length < 16 ∨
          bs.length < totalV2Len bs ∨ ((v2Addresses bs).isSome = true ∧ trusted = false))) ↔
        (v2Addresses bs).isSome = true ∧ mode = .strict ∧ trusted = false := by
      tauto
    rw [hiff]
    cases v2Addresses bs with
    | none => simpa using some_drop_ne_plain connMeta htotal hne
    | some addresses =>
        simpa using announce_eq_plain_iff trusted connMeta 2 addresses.1 addresses.2 htotal hne

theorem v1Outcome_eq_plain_iff {bs : List UInt8} {pos : Nat} (hne : bs ≠ [])
    (hpos : findCrlf bs = some pos) :
    v1Outcome parseIp mode trusted connMeta bs pos = plainOutcome mode connMeta bs ↔
      V1Inert parseIp mode trusted bs := by
  have hinert : V1Inert parseIp mode trusted bs ↔
      (parseV1Line parseIp (bs.take pos) = .malformed ∨
        (mode = .strict ∧ trusted = false ∧
          ∃ client dest, parseV1Line parseIp (bs.take pos) = .announced client dest)) := by
    simp [V1Inert, hpos]
  rw [hinert]
  rw [v1Outcome]
  cases parseV1Line parseIp (bs.take pos) with
  | announced client dest =>
      simpa using announce_eq_plain_iff trusted connMeta 1 client dest (Nat.succ_pos _) hne
  | unknown => simpa using some_drop_ne_plain connMeta (Nat.succ_pos _) hne
  | malformed => simp

/-- **A header that can be found makes no difference exactly if it is
inert.** -/
theorem headerOutcome_eq_plain_iff {bs : List UInt8} {n : Nat} (hne : bs ≠ [])
    (h : Reaches bs n) :
    headerOutcome parseIp mode trusted connMeta bs = plainOutcome mode connMeta bs ↔
      HeaderInert parseIp mode trusted bs := by
  rw [headerOutcome, HeaderInert]
  rcases h with ⟨hsig, -⟩ | ⟨hstart, -, pos, hpos, -⟩
  · have hstart : bs.take 6 ≠ v1Start := fun hstart => take_ne_v2Signature hstart hsig
    rw [if_pos hsig, v2Outcome_eq_plain_iff trusted connMeta hne]
    simp [hsig, hstart]
  · have hsig := take_ne_v2Signature hstart
    rw [if_neg hsig, hpos]
    dsimp only
    rw [v1Outcome_eq_plain_iff parseIp trusted connMeta hne hpos]
    simp [hsig, hstart]

end

/-! ### Two ways to cut the same bytes -/

/-- **Segmentation.**  Two streams with the same bytes have the same outcome
exactly if the header is not looked for, or both first reads reach over it, or
neither does, or it makes no difference. -/
theorem segmentation_exact {IpNet : Type} (contains : IpNet → IpAddr → Bool)
    (parseIp : List Char → Option IpAddr) (peerAddr : SocketAddr) (mode : ProxyProtocolMode)
    (trustedProxies : Option (List IpNet)) (s₁ s₂ : ByteStream) (h : s₁.bytes = s₂.bytes) :
    SameOutcome (readProxyProtocolWithMeta contains parseIp s₁ peerAddr mode trustedProxies)
        (readProxyProtocolWithMeta contains parseIp s₂ peerAddr mode trustedProxies) ↔
      mode = .off ∨
        (Reaches s₁.bytes (firstReadLen s₁) ↔ Reaches s₁.bytes (firstReadLen s₂)) ∨
        HeaderInert parseIp mode (isTrusted contains peerAddr trustedProxies) s₁.bytes := by
  rw [sameOutcome_iff]
  -- without a mode nothing is read, and without bytes nothing is looked for
  by_cases hmode : mode = .off
  · subst hmode
    exact iff_of_true (congrArg (fun bs => some (_, bs)) h) (.inl rfl)
  by_cases hnil : s₁.bytes = []
  · have hreach : ∀ n, ¬ Reaches [] n := by
      intro n
      simp [Reaches, v2Signature, v1Start]
    rw [outcome_read_nil contains parseIp peerAddr trustedProxies hmode hnil,
      outcome_read_nil contains parseIp peerAddr trustedProxies hmode (h ▸ hnil), hnil]
    exact iff_of_true rfl (.inr (.inl (iff_of_false (hreach _) (hreach _))))
  have hnil₂ : s₂.bytes ≠ [] := h ▸ hnil
  have hfound := fun (s : ByteStream) (hne : s.bytes ≠ []) =>
    @outcome_read_of_reaches IpNet contains parseIp peerAddr mode trustedProxies s hmode hne
  have hmissed := fun (s : ByteStream) (hne : s.bytes ≠ []) =>
    @outcome_read_of_not_reaches IpNet contains parseIp peerAddr mode trustedProxies s hmode hne
  rw [or_iff_right hmode]
  -- each stream finds the header or misses it
  by_cases h₁ : Reaches s₁.bytes (firstReadLen s₁) <;>
    by_cases h₂ : Reaches s₁.bytes (firstReadLen s₂)
  · rw [hfound s₁ hnil h₁, hfound s₂ hnil₂ (h ▸ h₂), h]
    exact iff_of_true rfl (.inl (iff_of_true (h ▸ h₁) (h ▸ h₂)))
  · -- only the first of the two finds the header
    rw [hfound s₁ hnil h₁, hmissed s₂ hnil₂ (h ▸ h₂), ← h,
      headerOutcome_eq_plain_iff parseIp _ _ hnil h₁]
    simp [h₁, h₂]
  · rw [hmissed s₁ hnil h₁, hfound s₂ hnil₂ (h ▸ h₂), ← h, eq_comm,
      headerOutcome_eq_plain_iff parseIp _ _ hnil h₂]
    simp [h₁, h₂]
  · rw [hmissed s₁ hnil h₁, hmissed s₂ hnil₂ (h ▸ h₂), h]
    exact iff_of_true rfl (.inl (iff_of_false (h ▸ h₁) (h ▸ h₂)))

/-- The v2 header for a connection from 1.2.3.4:12345 to 5.6.7.8:80. -/
def sampleHeader : List UInt8 :=
  encodeProxyProtocolV2 (.v4 (.new 1 2 3 4) 12345) (.v4 (.new 5 6 7 8) 80)

/-- That header, cut after `n` bytes. -/
def cutHeader (n : Nat) (h : 0 < n ∧ n < 28) : ByteStream where
  segments := [sampleHeader.take n, sampleHeader.drop n]
  nonempty := by
    intro segment hmem
    apply List.ne_nil_of_length_pos
    have hlen : sampleHeader.length = 28 := rfl
    simp only [List.mem_cons, List.not_mem_nil, or_false] at hmem
    rcases hmem with rfl | rfl
    · rw [List.length_take, hlen]
      omega
    · rw [List.length_drop, hlen]
      omega

theorem segmentation_exact_after_signature :
    (cutHeader 12 (by decide)).bytes = (cutHeader 20 (by decide)).bytes ∧
      SameOutcome
        (readProxyProtocolWithMeta (fun (_ : Empty) _ => false) (fun _ => none)
          (cutHeader 12 (by decide)) (.v4 (.new 10 0 0 5) 8888) .auto none)
        (readProxyProtocolWithMeta (fun (_ : Empty) _ => false) (fun _ => none)
          (cutHeader 20 (by decide)) (.v4 (.new 10 0 0 5) 8888) .auto none) := by
  refine ⟨by decide, ?_⟩
  apply (segmentation_exact _ _ _ _ _ _ _ (by decide)).mpr
  exact .inr (.inl (iff_of_true (.inl ⟨by decide, by decide⟩) (.inl ⟨by decide, by decide⟩)))

/-- Cut one byte before the end of its signature, the header is not found: the
connection is taken to come from the proxy itself. -/
theorem header_missed_when_cut :
    (cutHeader 11 (by decide)).bytes = (cutHeader 12 (by decide)).bytes ∧
      ¬ SameOutcome
        (readProxyProtocolWithMeta (fun (_ : Empty) _ => false) (fun _ => none)
          (cutHeader 11 (by decide)) (.v4 (.new 10 0 0 5) 8888) .auto none)
        (readProxyProtocolWithMeta (fun (_ : Empty) _ => false) (fun _ => none)
          (cutHeader 12 (by decide)) (.v4 (.new 10 0 0 5) 8888) .auto none) := by
  rw [sameOutcome_iff]
  decide

end Elise
