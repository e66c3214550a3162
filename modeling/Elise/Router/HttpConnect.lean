/-
Elise/Router/HttpConnect.lean

A connection through an HTTP proxy: `dial_http_connect` of src/proxy/router/outbound.rs.

The reply is what one read returns, at most 1024 bytes.  So the head of the reply and the first
bytes of the tunnel are told apart only where the network cuts them: less than the status line is
taken for a refusal, the rest of a longer head is left in the tunnel, and tunnel bytes in the same
segment are lost.
-/
import Elise.Lib.ByteStream
import Elise.Lib.HostText
import Elise.Lib.Lines

namespace Elise

open Net Text

namespace OutboundDialer

/-- The 64 digits. -/
def charset : List Char :=
  "ABCDEFGHIJKLMNOPQRSTUVWXYZabcdefghijklmnopqrstuvwxyz0123456789+/".toList

def digit (n : Nat) : Char := charset.getD n '='

def base64Encode : List UInt8 → List Char
  | [] => []
  | [b0] => [digit (b0.toNat >>> 2), digit ((b0.toNat &&& 3) <<< 4), '=', '=']
  | [b0, b1] =>
      [digit (b0.toNat >>> 2), digit (((b0.toNat &&& 3) <<< 4) ||| (b1.toNat >>> 4)),
        digit ((b1.toNat &&& 15) <<< 2), '=']
  | b0 :: b1 :: b2 :: rest =>
      digit (b0.toNat >>> 2) :: digit (((b0.toNat &&& 3) <<< 4) ||| (b1.toNat >>> 4)) ::
        digit (((b1.toNat &&& 15) <<< 2) ||| (b2.toNat >>> 6)) :: digit (b2.toNat &&& 63) ::
          base64Encode rest

example : base64Encode (toUtf8 "user:pass!".toList) = "dXNlcjpwYXNzIQ==".toList := by decide +kernel

/-- What is asked of a proxy. -/
structure ConnectRequest where
  targetHost : List Char
  targetPort : UInt16
  username : Option (List Char)
  password : Option (List Char)

def ConnectRequest.text (req : ConnectRequest) : List Char :=
  let target := req.targetHost ++ ':' :: Nat.toDigits 10 req.targetPort.toNat
  let auth :=
    match req.username, req.password with
    | some u, some p =>
        "Proxy-Authorization: Basic ".toList ++ base64Encode (toUtf8 (u ++ ':' :: p)) ++ ['\r', '\n']
    | _, _ => []
  "CONNECT ".toList ++ target ++ " HTTP/1.1\r\nHost: ".toList ++ target ++
    "\r\nProxy-Connection: Keep-Alive\r\n".toList ++ auth ++ ['\r', '\n']

/-- The message of a `ConnectionRefused`. -/
structure ConnectionRefused where
  message : List Char
  deriving DecidableEq, Repr

/-- What has been written to the proxy, and the stream that is returned. -/
structure Dialed where
  written : List UInt8
  out : Except ConnectionRefused ByteStream

/-- The reply is taken for a success. -/
def isAccepted (respStr : List Char) : Bool :=
  "HTTP/1.1 200".toList.isPrefixOf respStr || "HTTP/1.0 200".toList.isPrefixOf respStr

/-- On a connection to the proxy. -/
def dialHttpConnect (req : ConnectRequest) (stream : ByteStream) : Dialed :=
  let resp := stream.read 1024
  let respStr := fromUtf8Lossy resp.1
  { written := toUtf8 req.text
    out :=
      if isAccepted respStr then .ok resp.2
      else .error ⟨"HTTP Proxy CONNECT rejected: ".toList ++ (lines respStr).head?.getD []⟩ }

/-! ### Replies -/

/-- The status line up to the code. -/
def status (minor : Char) (code : List Char) : List Char :=
  ['H', 'T', 'T', 'P', '/', '1', '.', minor, ' '] ++ code

/-- A reply of a proxy: the head of an HTTP/1.x response, and what comes through the tunnel. -/
structure ConnectReply where
  minor : Char
  code : List Char
  /-- The rest of the status line. -/
  reason : List UInt8
  headers : List (List UInt8)
  tunnel : List UInt8
  minor_digit : minor.isDigit = true
  code_digits : code.length = 3 ∧ ∀ c ∈ code, c.isDigit = true
  reason_space : reason = [] ∨ reason.head? = some 32
  isHead : Lines.IsHead 13 10 ((toUtf8 (status minor code) ++ reason) :: headers)

namespace ConnectReply

variable (r : ConnectReply)

def status : List Char := OutboundDialer.status r.minor r.code

def head : List UInt8 := Lines.headOf 13 10 ((toUtf8 r.status ++ r.reason) :: r.headers)

/-- The status line stands in front. -/
theorem head_eq : ∃ rest, r.head = toUtf8 r.status ++ rest := by
  rw [head, Lines.headOf]
  rcases r.headers with - | ⟨header, headers⟩
  · rw [Lines.joined, List.intercalate_singleton, List.append_assoc]
    exact ⟨_, rfl⟩
  · rw [Lines.joined_cons (List.cons_ne_nil header headers), List.append_assoc, List.append_assoc]
    exact ⟨_, rfl⟩

theorem length_status : r.status.length = 12 := by
  rw [status, OutboundDialer.status, List.length_append, r.code_digits.1]
  rfl

theorem status_ascii : ∀ c ∈ r.status, c.toNat < 128 := by
  have hdigit : ∀ c : Char, c.isDigit = true → c.toNat < 128 := fun c hc =>
    Nat.lt_of_le_of_lt (Char.isDigit_iff_toNat.mp hc).2 (by decide)
  have hminor := hdigit r.minor r.minor_digit
  intro c hc
  rcases List.mem_append.mp hc with hc | hc
  · simp only [List.mem_cons, List.not_mem_nil, or_false] at hc
    rcases hc with rfl | rfl | rfl | rfl | rfl | rfl | rfl | rfl | rfl
    all_goals first | exact hminor | decide
  · exact hdigit c (r.code_digits.2 c hc)

/-- A part of a reply begins with a status line up to the code if it has that much of its own, and
it is the same. -/
theorem begins_iff {part more rest : List UInt8} (h : part ++ more = toUtf8 r.status ++ rest)
    {minor : Char} {code : List Char} (hcode : code.length = 3) :
    OutboundDialer.status minor code <+: fromUtf8Lossy part ↔
      12 ≤ part.length ∧ r.minor = minor ∧ r.code = code := by
  have hlen : (toUtf8 r.status).length = 12 := by
    rw [toUtf8_ascii r.status_ascii, List.length_map, r.length_status]
  have hlength : (OutboundDialer.status minor code).length = r.status.length := by
    rw [r.length_status, OutboundDialer.status, List.length_append, hcode]
    rfl
  have hsame : OutboundDialer.status minor code = r.status ↔ r.minor = minor ∧ r.code = code := by
    simp [status, OutboundDialer.status, eq_comm]
  rcases List.append_eq_append_iff.mp h with ⟨missing, hstatus, -⟩ | ⟨tail, rfl, -⟩
  · -- the part ends within the status line
    have hpart : part = toUtf8 (r.status.take part.length) := by
      rw [toUtf8_ascii fun c hc => r.status_ascii c (List.mem_of_mem_take hc), List.map_take,
        ← toUtf8_ascii r.status_ascii, hstatus, List.take_left]
    have hread : fromUtf8Lossy part = r.status.take part.length := by
      conv_lhs => rw [hpart]
      exact fromUtf8Lossy_toUtf8 _
    rw [hread, ← hsame]
    constructor
    · intro hbegins
      have hle := hbegins.length_le
      rw [hlength, List.length_take, r.length_status] at hle
      have hall : 12 ≤ part.length := hle.trans (Nat.min_le_left _ _)
      rw [List.take_of_length_le (by rw [r.length_status]; exact hall)] at hbegins
      exact ⟨hall, hbegins.eq_of_length hlength⟩
    · rintro ⟨hall, hequal⟩
      rw [List.take_of_length_le (by rw [r.length_status]; exact hall), hequal]
  · -- the part goes on behind it
    have hall : 12 ≤ (toUtf8 r.status ++ tail).length := by
      rw [List.length_append, hlen]
      exact Nat.le_add_right _ _
    rw [fromUtf8Lossy_toUtf8_append, ← hsame, and_iff_right hall]
    constructor
    · intro hbegins
      exact (List.prefix_of_prefix_length_le hbegins (List.prefix_append _ _)
        (Nat.le_of_eq hlength)).eq_of_length hlength
    · intro hequal
      rw [hequal]
      exact List.prefix_append _ _

/-- When a part of a reply is taken for a success. -/
theorem isAccepted_iff {part more rest : List UInt8} (h : part ++ more = toUtf8 r.status ++ rest) :
    isAccepted (fromUtf8Lossy part) = true ↔
      12 ≤ part.length ∧ r.code = ['2', '0', '0'] ∧ (r.minor = '0' ∨ r.minor = '1') := by
  have hone : "HTTP/1.1 200".toList = OutboundDialer.status '1' ['2', '0', '0'] := rfl
  have hzero : "HTTP/1.0 200".toList = OutboundDialer.status '0' ['2', '0', '0'] := rfl
  rw [isAccepted, Bool.or_eq_true, List.isPrefixOf_iff_prefix, List.isPrefixOf_iff_prefix, hone,
    hzero, r.begins_iff h rfl, r.begins_iff h rfl]
  tauto

end ConnectReply

/-! ### What is lost -/

/-- The first segment that the network delivers. -/
def firstSegment (stream : ByteStream) : List UInt8 := stream.segments.headD []

theorem length_read (stream : ByteStream) (cap : Nat) :
    (stream.read cap).1.length = min (firstSegment stream).length cap := by
  obtain ⟨segments, hne⟩ := stream
  rcases segments with - | ⟨segment, rest⟩
  · exact (Nat.zero_min cap).symm
  · rw [firstSegment, Nat.min_comm]
    exact List.length_take

/-- **A tunnel is opened without loss if the first read is the head and nothing else**, of a reply in
version 1.0 or 1.1.  Any other status is refused, however the reply is segmented. -/
theorem http_connect_lossless_iff (req : ConnectRequest) (r : ConnectReply) (stream : ByteStream)
    (hstream : stream.bytes = r.head ++ r.tunnel) :
    (r.code = "200".toList →
      ((∃ s, (dialHttpConnect req stream).out = .ok s ∧ s.bytes = r.tunnel) ↔
        (r.minor = '0' ∨ r.minor = '1') ∧
          min (firstSegment stream).length 1024 = r.head.length)) ∧
      (r.code ≠ "200".toList → ∃ e, (dialHttpConnect req stream).out = .error e) := by
  obtain ⟨rest, hhead⟩ := r.head_eq
  have hread := stream.read_append 1024
  rw [hstream] at hread
  have hfront := hread
  rw [hhead, List.append_assoc] at hfront
  have haccepted := r.isAccepted_iff hfront
  rw [← length_read, show "200".toList = ['2', '0', '0'] from rfl]
  constructor
  · intro hcode
    constructor
    · rintro ⟨s, hout, hbytes⟩
      rw [dialHttpConnect] at hout
      simp only at hout
      split at hout
      · rename_i hok
        obtain rfl := Except.ok.inj hout
        refine ⟨(haccepted.mp hok).2.2, ?_⟩
        have hlen := congrArg List.length hread
        rw [hbytes, List.length_append, List.length_append] at hlen
        omega
      · cases hout
    · rintro ⟨hminor, hlen⟩
      have hstatus : 12 ≤ (stream.read 1024).1.length := by
        rw [hlen, hhead, List.length_append, toUtf8_ascii r.status_ascii, List.length_map,
          r.length_status]
        exact Nat.le_add_right _ _
      have hok := haccepted.mpr ⟨hstatus, hcode, hminor⟩
      refine ⟨(stream.read 1024).2, ?_, (List.append_inj hread hlen).2⟩
      rw [dialHttpConnect]
      simp only
      rw [if_pos hok]
  · intro hcode
    have hno : ¬ isAccepted (fromUtf8Lossy (stream.read 1024).1) = true := fun hok =>
      hcode (haccepted.mp hok).2.1
    rw [dialHttpConnect]
    simp only
    rw [if_neg hno]
    exact ⟨_, rfl⟩

/-! ### A reply in one segment, in two, and cut at its end -/

section Samples

def sampleRequest : ConnectRequest := ⟨"192.0.2.1".toList, 443, none, none⟩

/-- The proxy opens the tunnel, and the server behind it says `hi` first. -/
def sampleReply : ConnectReply where
  minor := '1'
  code := ['2', '0', '0']
  reason := toUtf8 " Connection established".toList
  headers := []
  tunnel := [104, 105]
  minor_digit := by decide
  code_digits := ⟨rfl, by simp⟩
  reason_space := by decide +kernel
  isHead := ⟨List.cons_ne_nil _ _, by decide +kernel⟩

def cutAtHead : ByteStream := ⟨[sampleReply.head, sampleReply.tunnel], by decide +kernel⟩

theorem tunnel_cut_at_head :
    ∃ s, (dialHttpConnect sampleRequest cutAtHead).out = .ok s ∧ s.bytes = sampleReply.tunnel :=
  ((http_connect_lossless_iff sampleRequest sampleReply cutAtHead (by decide +kernel)).1 rfl).mpr
    ⟨.inr rfl, by decide +kernel⟩

def coalesced : ByteStream := ⟨[sampleReply.head ++ sampleReply.tunnel], by decide +kernel⟩

/-- After `HTTP/1.1 2`. -/
def cutInStatus : ByteStream :=
  ⟨[sampleReply.head.take 10, sampleReply.head.drop 10 ++ sampleReply.tunnel], by decide +kernel⟩

/-- Of one reply, the first two bytes of the tunnel are lost in one segmentation, and the tunnel is
refused in another. -/
theorem segments_decide :
    (coalesced.bytes = sampleReply.head ++ sampleReply.tunnel ∧
      ¬ ∃ s, (dialHttpConnect sampleRequest coalesced).out = .ok s ∧
        s.bytes = sampleReply.tunnel) ∧
    cutInStatus.bytes = sampleReply.head ++ sampleReply.tunnel ∧
      ¬ ∃ s, (dialHttpConnect sampleRequest cutInStatus).out = .ok s := by
  have hlost : (dialHttpConnect sampleRequest coalesced).out.map ByteStream.bytes = .ok [] := by
    decide +kernel
  have hrefused : (dialHttpConnect sampleRequest cutInStatus).out.map ByteStream.bytes =
      .error ⟨"HTTP Proxy CONNECT rejected: HTTP/1.1 2".toList⟩ := by
    decide +kernel
  refine ⟨⟨by decide +kernel, ?_⟩, by decide +kernel, ?_⟩
  · rintro ⟨s, hout, hbytes⟩
    rw [hout] at hlost
    have hnil : s.bytes = [] := Except.ok.inj hlost
    rw [hnil] at hbytes
    cases hbytes
  · rintro ⟨s, hout⟩
    rw [hout] at hrefused
    cases hrefused

end Samples

end OutboundDialer

end Elise
