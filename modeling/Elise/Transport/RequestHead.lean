/-
Elise/Transport/RequestHead.lean

The heads of requests over HTTP/1.1 (`apply_xhttp_http1` in src/transport/xhttp.rs and
`apply_h2_http1` in src/transport/h2.rs).

The head is read up to an empty line, looked at, and answered; what came behind it is read
again first.  The length of the buffer is looked at before the empty line is searched, and the
buffer may hold bytes of the body by then.  So a head is found exactly where a read ends
behind it and within the limit (`readHead_ok_iff`), and two ways of cutting the same bytes
come to the same exactly where they agree on that, unless the head is refused anyway
(`heads_same_iff`).
-/
import Elise.Conn.ProxyProtocol
import Elise.Lib.HostText
import Elise.Transport.Malformed

namespace Elise

namespace Transport

namespace HttpHead

open Text

/-! ### Reading a head -/

inductive HeadErrorKind where
  | unexpectedEof
  | invalidData
  | notFound
  | other
  deriving DecidableEq

structure HeadError where
  kind : HeadErrorKind
  message : List Char
  deriving DecidableEq

def doubleCrlf : List UInt8 := [13, 10, 13, 10]

def maxHeaderLength : Nat := 12288

/-- The loop that reads the head: where it ends, and what has been read. -/
def readHead (stream : ByteStream) (headerBuf : List UInt8) :
    Except HeadError (Nat × List UInt8 × ByteStream) :=
  if _hlong : headerBuf.length < maxHeaderLength then
    match Lines.find doubleCrlf headerBuf with
    | some pos => .ok (pos, headerBuf, stream)
    | none =>
        let read := stream.read 1024
        if _heof : read.1 = [] then
          .error ⟨.unexpectedEof, "connection closed before HTTP/1.1 request completed".toList⟩
        else readHead read.2 (headerBuf ++ read.1)
  else .error ⟨.invalidData, "HTTP request headers exceeded max length (12288 bytes)".toList⟩
termination_by maxHeaderLength - headerBuf.length
decreasing_by
  have hpos : 0 < (stream.read 1024).1.length := List.length_pos_iff.mpr _heof
  rw [List.length_append]
  omega

/-! ### Looking at it -/

/-- The path of the request, and the lines behind the first one. -/
def requestPath (lines : List (List Char)) : Except HeadError (List Char × List (List Char)) :=
  match lines with
  | [] => .error ⟨.invalidData, "empty HTTP request".toList⟩
  | requestLine :: lines =>
      match splitWhitespace requestLine with
      | _ :: reqPath :: _ :: _ => .ok (reqPath, lines)
      | _ => .error ⟨.invalidData, "invalid HTTP request line: ".toList ++ requestLine⟩

/-- The configured path is one of the root, or in front of the path of the request; slashes
at the ends do not matter. -/
def pathAccepted (configPath reqPath : List Char) : Bool :=
  let normConfig := if ['/'].isPrefixOf configPath then configPath else '/' :: configPath
  let normalizedConfigPath := normConfig.rdropWhile (· = '/')
  let normalizedReqPath := reqPath.rdropWhile (· = '/')
  normalizedConfigPath.isEmpty || normalizedReqPath == normalizedConfigPath ||
    normalizedConfigPath.isPrefixOf normalizedReqPath

/-- The value of the first header `Host`. -/
def hostHeader (lines : List (List Char)) : Option (List Char) :=
  lines.findSome? fun line =>
    match splitOnce ':' line with
    | some (k, v) => if eqIgnoreAsciiCase (trim k) "host".toList then some (trim v) else none
    | none => none

/-- What is before the first colon. -/
def beforeColon (host : List Char) : List Char := host.takeWhile (· ≠ ':')

structure XHttpTransportConfig where
  host : Option (List Char)
  path : List Char

structure Http2TransportConfig where
  host : List (List Char)
  path : List Char

/-- Whether a request over XHTTP is accepted. -/
def XHttpTransportConfig.check (config : XHttpTransportConfig) (lines : List (List Char)) :
    Except HeadError Unit :=
  match requestPath lines with
  | .error e => .error e
  | .ok (reqPath, lines) =>
      if !pathAccepted config.path reqPath then
        .error ⟨.notFound, "XHTTP path mismatch: expected prefix '".toList ++ config.path ++
          "', got '".toList ++ reqPath ++ "'".toList⟩
      else
        match config.host with
        | none => .ok ()
        | some expectedHost =>
            let cleanExpected := trim expectedHost
            if cleanExpected.isEmpty then .ok ()
            else
              match hostHeader lines with
              | none => .ok ()
              | some hostVal =>
                  if eqIgnoreAsciiCase (beforeColon hostVal) (beforeColon cleanExpected) then .ok ()
                  else .error ⟨.notFound, "XHTTP host mismatch: expected '".toList ++ expectedHost ++
                    "', got '".toList ++ hostVal ++ "'".toList⟩

/-- Whether a request over the old HTTP/2 transport is accepted.  The configured hosts are
compared as they are. -/
def Http2TransportConfig.check (config : Http2TransportConfig) (lines : List (List Char)) :
    Except HeadError Unit :=
  match requestPath lines with
  | .error e => .error e
  | .ok (reqPath, lines) =>
      if !pathAccepted config.path reqPath then
        .error ⟨.notFound, "HTTP path mismatch: expected '".toList ++ config.path ++
          "', got '".toList ++ reqPath ++ "'".toList⟩
      else
        let effectiveHosts := config.host.filter fun h => !(trim h).isEmpty
        if effectiveHosts.isEmpty then .ok ()
        else
          match hostHeader lines with
          | none => .ok ()
          | some hostVal =>
              if effectiveHosts.any fun h => beforeColon h == beforeColon hostVal then .ok ()
              else .error ⟨.notFound, "HTTP host mismatch: got '".toList ++ hostVal ++ "'".toList⟩

/-! ### The transports -/

def resp404 : List UInt8 :=
  toUtf8 "HTTP/1.1 404 Not Found\r\nConnection: close\r\nContent-Length: 0\r\n\r\n".toList

def xhttpResponse : List UInt8 :=
  toUtf8 "HTTP/1.1 200 OK\r\nContent-Type: text/event-stream\r\nCache-Control: no-store\r\nX-Accel-Buffering: no\r\nTransfer-Encoding: chunked\r\n\r\n".toList

def h2Response : List UInt8 :=
  toUtf8 "HTTP/1.1 200 OK\r\nConnection: keep-alive\r\nContent-Type: application/octet-stream\r\n\r\n".toList

/-- What the client is told, and what comes of the connection. -/
structure Applied (σ : Type) where
  written : List UInt8
  result : Except HeadError σ

/-- The lines of a head that ends at `endIdx`. -/
def headLines (headerBuf : List UInt8) (endIdx : Nat) : List (List Char) :=
  lines (fromUtf8Lossy (headerBuf.take endIdx))

/-- What both transports do: the head is read and checked, and answered.  What comes of writing
the response is `wrote`; whether the other one is written does not matter. -/
def applyHttp1 {σ : Type} (check : List (List Char) → Except HeadError Unit) (response : List UInt8)
    (wrote : Except HeadError Unit) (open' : List UInt8 → ByteStream → σ) (initialBytes : List UInt8)
    (stream : ByteStream) : Applied σ :=
  match readHead stream initialBytes with
  | .error e => ⟨[], .error e⟩
  | .ok (endIdx, headerBuf, stream) =>
      match check (headLines headerBuf endIdx) with
      | .error e => ⟨if e.kind = .notFound then resp404 else [], .error e⟩
      | .ok () =>
          match wrote with
          | .error e => ⟨response, .error e⟩
          | .ok () => ⟨response, .ok (open' (headerBuf.drop (endIdx + 4)) stream)⟩

/-- The body is read by the chunked coding. -/
def applyXHttpHttp1 (config : XHttpTransportConfig) (wrote : Except HeadError Unit) :
    (initialBytes : List UInt8) → ByteStream → Applied (XHttpChunkedStream × ByteStream) :=
  applyHttp1 config.check xhttpResponse wrote fun unconsumed stream => (.new unconsumed, stream)

/-- The stream that is handed on, with bytes in front of it if there are any. -/
inductive H2Http1Stream where
  | prefixed (stream : PrefixedStream)
  | bare (stream : ByteStream)

/-- The body is read as it is. -/
def applyH2Http1 (config : Http2TransportConfig) (wrote : Except HeadError Unit) :
    (initialBytes : List UInt8) → ByteStream → Applied H2Http1Stream :=
  applyHttp1 config.check h2Response wrote fun unconsumed stream =>
    if !unconsumed.isEmpty then .prefixed (.new stream (some unconsumed)) else .bare stream

/-! ### What the streams deliver -/

open Poll Serving

/-- The stream hands out these data, all of them before it comes to this ending, whenever the
segments come and whatever room the caller has; and it does come to it. -/
def XDelivers (s : XHttpChunkedStream × ByteStream) (data : List UInt8) (e : Ending) : Prop :=
  ∀ (a : Arrivals UInt8) (caps : List Nat), a.Proper → a.items = s.2.bytes →
    (∀ r, Run.exec (Serving.step XHttpChunkedStream.pollRead) ⟨(s.1, a), []⟩ caps = some r →
      r.delivered <+: data ∧ ∀ cap, 0 < cap →
        ((XHttpChunkedStream.pollRead r.reader cap).1 = .ready [] → r.delivered = data ∧ e = .eof) ∧
        ((XHttpChunkedStream.pollRead r.reader cap).1 = .error → r.delivered = data ∧ e = .broken)) ∧
    (e = .eof → data.length + a.delays ≤ caps.countP (0 < ·) →
      ∃ r, Run.exec (Serving.step XHttpChunkedStream.pollRead) ⟨(s.1, a), []⟩ caps = some r ∧
        r.delivered = data ∧ ∀ cap, (XHttpChunkedStream.pollRead r.reader cap).1 = .ready []) ∧
    (e = .broken → data.length + a.delays < caps.countP (0 < ·) →
      Run.exec (Serving.step XHttpChunkedStream.pollRead) ⟨(s.1, a), []⟩ caps = none)

def H2Http1Stream.pollRead : H2Http1Stream → (cap : Nat) → List UInt8 × H2Http1Stream
  | .prefixed s, cap => ((s.pollRead cap).1, .prefixed (s.pollRead cap).2)
  | .bare s, cap => ((s.read cap).1, .bare (s.read cap).2)

def H2Http1Stream.pollReads (s : H2Http1Stream) : List Nat → List UInt8
  | [] => []
  | cap :: caps => (s.pollRead cap).1 ++ pollReads (s.pollRead cap).2 caps

/-- The stream hands out these bytes, and all of them after enough reads. -/
def H2Delivers (s : H2Http1Stream) (bytes : List UInt8) : Prop :=
  ∀ caps, s.pollReads caps <+: bytes ∧
    ((∀ cap ∈ caps, 0 < cap) → bytes.length ≤ caps.length → s.pollReads caps = bytes)

/-- Both fail, or both succeed with streams that deliver the same. -/
def Same {σ δ : Type} (Delivers : σ → δ → Prop) (r r' : Except HeadError σ) : Prop :=
  match r, r' with
  | .error _, .error _ => True
  | .ok s, .ok s' => ∃ d, Delivers s d ∧ Delivers s' d
  | _, _ => False

/-! ### When the head is found -/

/-- The buffer has this length after some reads. -/
inductive Buffered : ByteStream → (len mark : Nat) → Prop
  | here (stream : ByteStream) (len : Nat) : Buffered stream len len
  | read {stream : ByteStream} {len mark : Nat} : (stream.read 1024).1 ≠ [] →
      Buffered (stream.read 1024).2 (len + (stream.read 1024).1.length) mark → Buffered stream len mark

/-- A read ends behind the head, within the limit. -/
def Fits (initialBytes : List UInt8) (stream : ByteStream) (pos : Nat) : Prop :=
  ∃ mark, Buffered stream initialBytes.length mark ∧ pos + 4 ≤ mark ∧ mark < maxHeaderLength

section

variable {stream : ByteStream} {headerBuf total : List UInt8} {pos : Nat}

theorem length_doubleCrlf : doubleCrlf.length = 4 := rfl

theorem Buffered.le {len mark : Nat} (h : Buffered stream len mark) : len ≤ mark := by
  induction h with
  | here => exact Nat.le_refl _
  | read _ _ ih => exact Nat.le_trans (Nat.le_add_right _ _) ih

/-- What the loop reads is a part of the bytes from the front, and the head is in it. -/
theorem readHead_ok {found : Nat × List UInt8 × ByteStream} (hbytes : headerBuf ++ stream.bytes = total)
    (hfind : Lines.find doubleCrlf total = some pos) (h : readHead stream headerBuf = .ok found) :
    found.1 = pos ∧ found.2.1 ++ found.2.2.bytes = total ∧ pos + 4 ≤ found.2.1.length ∧
      found.2.1.length < maxHeaderLength ∧ Buffered stream headerBuf.length found.2.1.length := by
  fun_induction readHead stream headerBuf with
  | case1 stream headerBuf hlong pos' hfound =>
      obtain rfl := Except.ok.inj h
      have hwhole := Lines.find_append hfound stream.bytes
      rw [hbytes, hfind] at hwhole
      obtain rfl := Option.some.inj hwhole
      have hle := Lines.length_le_of_find hfound
      rw [length_doubleCrlf] at hle
      exact ⟨rfl, hbytes, hle, hlong, .here stream _⟩
  | case2 => cases h
  | case3 stream headerBuf hlong hnone read heof ih =>
      have hbytes' : headerBuf ++ read.1 ++ read.2.bytes = total := by
        rw [List.append_assoc, ByteStream.read_append, hbytes]
      obtain ⟨hpos, hsame, hle, hlt, hbuffered⟩ := ih hbytes' h
      rw [List.length_append] at hbuffered
      exact ⟨hpos, hsame, hle, hlt, .read heof hbuffered⟩
  | case4 => cases h

/-- **The head is found where a read ends behind it, within the limit.** -/
theorem readHead_ok_iff (hbytes : headerBuf ++ stream.bytes = total)
    (hfind : Lines.find doubleCrlf total = some pos) :
    (∃ found, readHead stream headerBuf = .ok found) ↔ Fits headerBuf stream pos := by
  constructor
  · rintro ⟨found, h⟩
    obtain ⟨-, -, hle, hlt, hbuffered⟩ := readHead_ok hbytes hfind h
    exact ⟨_, hbuffered, hle, hlt⟩
  · rintro ⟨mark, hbuffered, hle, hlt⟩
    generalize hlen : headerBuf.length = len at hbuffered
    induction hbuffered generalizing headerBuf with
    | here stream len =>
        subst hlen
        have hfound := hfind
        rw [← hbytes] at hfound
        have hfront := Lines.find_front (by decide) hfound
        rw [length_doubleCrlf, if_pos hle] at hfront
        rw [readHead, dif_pos hlt, hfront]
        exact ⟨_, rfl⟩
    | @read stream len mark hread hlater ih =>
        subst hlen
        have hfar := hlater.le
        rw [readHead, dif_pos (by omega)]
        cases hfront : Lines.find doubleCrlf headerBuf with
        | some pos' => exact ⟨_, rfl⟩
        | none =>
            dsimp only
            rw [dif_neg hread]
            apply ih
            · rw [List.append_assoc, ByteStream.read_append, hbytes]
            · exact hle
            · exact hlt
            · rw [List.length_append]

end

/-! ### The streams -/

theorem XDelivers.of_yields {unconsumed body data : List UInt8} {e : Ending} {stream : ByteStream}
    (hbody : unconsumed ++ stream.bytes = body) (h : Chunked.Yields .readingLength body data e) :
    XDelivers (.new unconsumed, stream) data e := by
  intro a caps hproper hitems
  have hyields : Chunked.Yields .readingLength (unconsumed ++ a.items) data e := by
    rw [hitems]
    dsimp only
    rw [hbody]
    exact h
  have hleft := Chunked.left_new hproper hyields
  refine ⟨fun r hr => run_delivered Chunked.serves_left hleft hr, ?_, ?_⟩
  · rintro rfl hmany
    obtain ⟨r, hrun, -, -, hall⟩ :=
      run_clean Chunked.serves_left (s := ⟨(.new unconsumed, a), []⟩) caps hleft
    exact ⟨r, hrun, hall hmany⟩
  · rintro rfl hmany
    exact (run_broken Chunked.serves_left (s := ⟨(.new unconsumed, a), []⟩) caps hleft).2 hmany

theorem pollReads_prefixed (s : PrefixedStream) (caps : List Nat) :
    (H2Http1Stream.prefixed s).pollReads caps = (s.pollReads caps).1 := by
  induction caps generalizing s with
  | nil => rfl
  | cons cap caps ih =>
      rw [H2Http1Stream.pollReads, PrefixedStream.pollReads]
      exact congrArg _ (ih _)

/-- A stream with nothing in front of it. -/
theorem pollReads_bare (s : ByteStream) (caps : List Nat) :
    (H2Http1Stream.bare s).pollReads caps = ((PrefixedStream.new s none).pollReads caps).1 := by
  induction caps generalizing s with
  | nil => rfl
  | cons cap caps ih =>
      rw [H2Http1Stream.pollReads, PrefixedStream.pollReads]
      exact congrArg _ (ih _)

theorem h2Delivers_prefixed (s : PrefixedStream) : H2Delivers (.prefixed s) s.bytes := by
  intro caps
  rw [pollReads_prefixed]
  exact ⟨⟨_, s.pollReads_append caps⟩, fun hcaps hlen => PrefixedStream.pollReads_all hcaps hlen⟩

theorem h2Delivers_bare (s : ByteStream) : H2Delivers (.bare s) s.bytes := by
  intro caps
  rw [pollReads_bare]
  have hprefixed := h2Delivers_prefixed (.new s none) caps
  rwa [pollReads_prefixed] at hprefixed

/-! ### Two ways of cutting -/

section

variable {σ δ : Type} {Delivers : σ → δ → Prop} {check : List (List Char) → Except HeadError Unit}
  {response : List UInt8} {wrote : Except HeadError Unit} {open' : List UInt8 → ByteStream → σ}
  {initialBytes total : List UInt8} {stream cut cut' : ByteStream} {pos : Nat}

/-- The head is refused, or cannot be answered. -/
def Refused (check : List (List Char) → Except HeadError Unit) (wrote : Except HeadError Unit)
    (total : List UInt8) (pos : Nat) : Prop :=
  (∃ e, check (headLines total pos) = .error e) ∨ ∃ e, wrote = .error e

/-- What comes of the connection depends on the bytes, where the head is found. -/
theorem result_applyHttp1 (check : List (List Char) → Except HeadError Unit) (response : List UInt8)
    (wrote : Except HeadError Unit) (open' : List UInt8 → ByteStream → σ) (hbytes : initialBytes ++ stream.bytes = total)
    (hfind : Lines.find doubleCrlf total = some pos) :
    (¬ Fits initialBytes stream pos ∨ Refused check wrote total pos) ∧
        (∃ e, (applyHttp1 check response wrote open' initialBytes stream).result = .error e) ∨
      (Fits initialBytes stream pos ∧ ¬ Refused check wrote total pos) ∧
        ∃ unconsumed rest, unconsumed ++ ByteStream.bytes rest = total.drop (pos + 4) ∧
          (applyHttp1 check response wrote open' initialBytes stream).result =
            .ok (open' unconsumed rest) := by
  rw [applyHttp1]
  cases hread : readHead stream initialBytes with
  | error e =>
      refine .inl ⟨.inl ?_, e, rfl⟩
      intro hfits
      obtain ⟨found, hfound⟩ := (readHead_ok_iff hbytes hfind).mpr hfits
      cases hread.symm.trans hfound
  | ok found =>
      have hfits := (readHead_ok_iff hbytes hfind).mp ⟨found, hread⟩
      obtain ⟨endIdx, headerBuf, rest⟩ := found
      obtain ⟨hpos, hsame, hle, -, -⟩ := readHead_ok hbytes hfind hread
      dsimp only at hpos hsame hle
      subst hpos
      have hlines : headLines headerBuf endIdx = headLines total endIdx := by
        rw [headLines, headLines, ← hsame, List.take_append_of_le_length (by omega)]
      dsimp only
      rw [hlines]
      cases hcheck : check (headLines total endIdx) with
      | error e => exact .inl ⟨.inr (.inl ⟨e, hcheck⟩), e, rfl⟩
      | ok u =>
          cases hwrote : wrote with
          | error e => exact .inl ⟨.inr (.inr ⟨e, rfl⟩), e, rfl⟩
          | ok u =>
              refine .inr ⟨⟨hfits, ?_⟩, headerBuf.drop (endIdx + 4), rest, ?_, rfl⟩
              · rintro (⟨e, he⟩ | ⟨e, he⟩)
                · cases hcheck.symm.trans he
                · cases he
              · rw [← hsame, List.drop_append_of_le_length hle]

/-- **Two ways of cutting come to the same** where both find the head or none does, or where it
is refused. -/
theorem same_applyHttp1_iff
    (hopen : ∀ body, ∃ d, ∀ unconsumed rest, unconsumed ++ ByteStream.bytes rest = body →
      Delivers (open' unconsumed rest) d)
    (hcut : initialBytes ++ cut.bytes = total) (hcut' : initialBytes ++ cut'.bytes = total)
    (hfind : Lines.find doubleCrlf total = some pos) :
    Same Delivers (applyHttp1 check response wrote open' initialBytes cut).result
        (applyHttp1 check response wrote open' initialBytes cut').result ↔
      ((Fits initialBytes cut pos ↔ Fits initialBytes cut' pos) ∨ Refused check wrote total pos) := by
  rcases result_applyHttp1 check response wrote open' hcut hfind with ⟨hwhy, e, he⟩ | ⟨⟨hfits, hnot⟩, unconsumed, rest, hbody, hok⟩ <;>
    rcases result_applyHttp1 check response wrote open' hcut' hfind with ⟨hwhy', e', he'⟩ | ⟨⟨hfits', hnot'⟩, unconsumed', rest', hbody', hok'⟩
  · rw [he, he']
    refine iff_of_true trivial ?_
    rcases hwhy with hnone | hrefused
    · rcases hwhy' with hnone' | hrefused'
      · exact .inl (iff_of_false hnone hnone')
      · exact .inr hrefused'
    · exact .inr hrefused
  · rw [he, hok']
    refine iff_of_false (fun h => h) ?_
    rintro (hiff | hrefused)
    · rcases hwhy with hnone | hrefused
      · exact hnone (hiff.mpr hfits')
      · exact hnot' hrefused
    · exact hnot' hrefused
  · rw [hok, he']
    refine iff_of_false (fun h => h) ?_
    rintro (hiff | hrefused)
    · rcases hwhy' with hnone | hrefused
      · exact hnone (hiff.mp hfits)
      · exact hnot hrefused
    · exact hnot hrefused
  · rw [hok, hok']
    obtain ⟨d, hd⟩ := hopen (total.drop (pos + 4))
    exact iff_of_true ⟨d, hd _ _ hbody, hd _ _ hbody'⟩ (.inl (iff_of_true hfits hfits'))

end

/-- What the chunked coding delivers is fixed by the body. -/
theorem exists_xDelivers (body : List UInt8) :
    ∃ d : List UInt8 × Ending, ∀ unconsumed rest, unconsumed ++ ByteStream.bytes rest = body →
      XDelivers (.new unconsumed, rest) d.1 d.2 := by
  obtain ⟨data, e, hyields⟩ := Chunked.exists_yields body
  exact ⟨(data, e), fun unconsumed rest hbody => XDelivers.of_yields hbody hyields⟩

/-- The body is delivered as it is. -/
theorem exists_h2Delivers (body : List UInt8) :
    ∃ d, ∀ unconsumed rest, unconsumed ++ ByteStream.bytes rest = body →
      H2Delivers (if !unconsumed.isEmpty then .prefixed (.new rest (some unconsumed)) else .bare rest) d := by
  refine ⟨body, fun unconsumed rest hbody => ?_⟩
  subst hbody
  by_cases hempty : unconsumed = []
  · subst hempty
    exact h2Delivers_bare rest
  · have hsome : (!unconsumed.isEmpty) = true := by simpa using hempty
    rw [if_pos hsome]
    exact h2Delivers_prefixed (.new rest (some unconsumed))

/-- **When heads are read independently of segmentation.**  Two ways of cutting the same bytes,
with a head, come to the same exactly where a read ends behind the head
and within the limit in both or in neither, or where the head is refused or cannot be
answered. -/
theorem heads_same_iff (config : XHttpTransportConfig) (config' : Http2TransportConfig)
    (wrote : Except HeadError Unit) (initialBytes : List UInt8) (cut cut' : ByteStream) (pos : Nat)
    (hbytes : cut.bytes = cut'.bytes)
    (hfind : Lines.find doubleCrlf (initialBytes ++ cut.bytes) = some pos) :
    (Same (fun s (d : List UInt8 × Ending) => XDelivers s d.1 d.2) (applyXHttpHttp1 config wrote initialBytes cut).result
          (applyXHttpHttp1 config wrote initialBytes cut').result ↔
        ((Fits initialBytes cut pos ↔ Fits initialBytes cut' pos) ∨
          Refused config.check wrote (initialBytes ++ cut.bytes) pos)) ∧
      (Same H2Delivers (applyH2Http1 config' wrote initialBytes cut).result
          (applyH2Http1 config' wrote initialBytes cut').result ↔
        ((Fits initialBytes cut pos ↔ Fits initialBytes cut' pos) ∨
          Refused config'.check wrote (initialBytes ++ cut.bytes) pos)) := by
  have hcut' : initialBytes ++ cut'.bytes = initialBytes ++ cut.bytes := by rw [hbytes]
  exact ⟨same_applyHttp1_iff exists_xDelivers rfl hcut' hfind,
    same_applyHttp1_iff exists_h2Delivers rfl hcut' hfind⟩

/-! ### Heads near the limit -/

/-- Where the reads of one segment end. -/
theorem buffered_segment {segment : List UInt8} {rest : List (List UInt8)}
    (h : ∀ seg ∈ segment :: rest, seg ≠ []) (len : Nat) :
    Buffered ⟨segment :: rest, h⟩ len (len + segment.length) := by
  induction hn : segment.length using Nat.strongRecOn generalizing segment len with
  | ind n ih =>
      subst hn
      have hne : segment ≠ [] := h segment List.mem_cons_self
      have hpos := List.length_pos_iff.mpr hne
      have htake : segment.take 1024 ≠ [] := by
        rw [Ne, List.take_eq_nil_iff]
        rintro (hzero | hnil)
        · cases hzero
        · exact hne hnil
      refine .read htake ?_
      show Buffered (ByteStream.push (segment.drop 1024) ⟨rest, ByteStream.nonempty_tail h⟩)
        (len + (segment.take 1024).length) (len + segment.length)
      have hsplit : (segment.take 1024).length + (segment.drop 1024).length = segment.length := by
        rw [← List.length_append, List.take_append_drop]
      rw [ByteStream.push]
      split
      · rename_i hnil
        rw [hnil, List.length_nil, Nat.add_zero] at hsplit
        rw [hsplit]
        exact .here _ _
      · rename_i hsome
        have hless : (segment.drop 1024).length < segment.length := by
          have hlen := List.length_pos_iff.mpr htake
          omega
        have hrest : ∀ seg ∈ segment.drop 1024 :: rest, seg ≠ [] := by
          intro seg hmem
          rcases List.mem_cons.mp hmem with rfl | hmem
          · exact hsome
          · exact h seg (List.mem_cons_of_mem _ hmem)
        have hlater := ih _ hless hrest (len + (segment.take 1024).length) rfl
        rw [Nat.add_assoc, hsplit] at hlater
        exact hlater

/-- The reads of the only segment are full, but for the last one. -/
theorem Buffered.of_single {stream : ByteStream} {len mark : Nat} (h : Buffered stream len mark)
    {segment : List UInt8} (hsingle : stream.segments = [segment] ∨ stream.segments = [] ∧ segment = []) :
    mark = len + segment.length ∨ ∃ k, mark = len + 1024 * k ∧ 1024 * k ≤ segment.length := by
  induction h generalizing segment with
  | here stream len => exact .inr ⟨0, rfl, Nat.zero_le _⟩
  | @read stream len mark hread _ ih =>
      obtain ⟨segments, hne⟩ := stream
      rcases hsingle with hone | ⟨hnone, -⟩
      · obtain rfl : segments = [segment] := hone
        have hrest : ByteStream.read ⟨[segment], hne⟩ 1024 =
            (segment.take 1024, ByteStream.push (segment.drop 1024) ⟨[], ByteStream.nonempty_tail hne⟩) :=
          rfl
        have hafter : (ByteStream.read ⟨[segment], hne⟩ 1024).2.segments = [segment.drop 1024] ∨
            (ByteStream.read ⟨[segment], hne⟩ 1024).2.segments = [] ∧ segment.drop 1024 = [] := by
          rw [hrest, ByteStream.push]
          by_cases hnil : segment.drop 1024 = []
          · rw [dif_pos hnil]
            exact .inr ⟨rfl, hnil⟩
          · rw [dif_neg hnil]
            exact .inl rfl
        have hlen : (ByteStream.read ⟨[segment], hne⟩ 1024).1.length = min 1024 segment.length := by
          rw [hrest, List.length_take]
        rcases ih hafter with hlast | ⟨k, hk, hle⟩
        · rw [hlen, List.length_drop] at hlast
          left
          omega
        · rw [hlen] at hk
          rw [List.length_drop] at hle
          by_cases hfull : 1024 ≤ segment.length
          · exact .inr ⟨k + 1, by omega, by omega⟩
          · left
            omega
      · obtain rfl : segments = [] := hnone
        exact absurd rfl hread

/-- `hello`, in the chunked coding. -/
def helloChunk : List UInt8 := [53, 13, 10, 104, 101, 108, 108, 111, 13, 10, 48, 13, 10, 13, 10]

/-- A short head with a body comes to the same, in one segment or in three. -/
theorem short_head_same :
    Same (fun s (d : List UInt8 × Ending) => XDelivers s d.1 d.2)
        (applyXHttpHttp1 ⟨none, ['/']⟩ (.ok ()) [71, 69, 84, 32]
          ⟨[[47, 32, 72, 13, 10, 13, 10] ++ helloChunk], by decide⟩).result
        (applyXHttpHttp1 ⟨none, ['/']⟩ (.ok ()) [71, 69, 84, 32]
          ⟨[[47, 32], [72, 13, 10, 13, 10], helloChunk], by decide⟩).result ∧
      Same H2Delivers
        (applyH2Http1 ⟨[], ['/']⟩ (.ok ()) [71, 69, 84, 32]
          ⟨[[47, 32, 72, 13, 10, 13, 10] ++ helloChunk], by decide⟩).result
        (applyH2Http1 ⟨[], ['/']⟩ (.ok ()) [71, 69, 84, 32]
          ⟨[[47, 32], [72, 13, 10, 13, 10], helloChunk], by decide⟩).result := by
  have hiff := heads_same_iff ⟨none, ['/']⟩ ⟨[], ['/']⟩ (.ok ()) [71, 69, 84, 32]
    ⟨[[47, 32, 72, 13, 10, 13, 10] ++ helloChunk], by decide⟩
    ⟨[[47, 32], [72, 13, 10, 13, 10], helloChunk], by decide⟩ 7 (by decide) (by decide)
  have hfits : Fits [71, 69, 84, 32] ⟨[[47, 32, 72, 13, 10, 13, 10] ++ helloChunk], by decide⟩ 7 :=
    ⟨26, buffered_segment _ 4, by decide, by decide⟩
  have hfits' : Fits [71, 69, 84, 32] ⟨[[47, 32], [72, 13, 10, 13, 10], helloChunk], by decide⟩ 7 := by
    refine ⟨11, .read (by decide) ?_, by decide, by decide⟩
    exact @buffered_segment [72, 13, 10, 13, 10] [helloChunk] (by decide) 6
  exact ⟨hiff.1.mpr (.inl (iff_of_true hfits hfits')), hiff.2.mpr (.inl (iff_of_true hfits hfits'))⟩

/-- A request line with a long last word. -/
def longLine (n : Nat) : List Char := [' '].intercalate [['G', 'E', 'T'], ['/'], List.replicate (n + 1) 'H']

section

variable {n : Nat}

theorem longLine_eq (n : Nat) :
    longLine n = ['G', 'E', 'T', ' ', '/', ' '] ++ List.replicate (n + 1) 'H' := by
  rw [longLine, List.intercalate_cons_cons, List.intercalate_cons_cons, List.intercalate_singleton]
  rfl

theorem longLine_ascii : ∀ c ∈ longLine n, c.toNat < 128 ∧ c ≠ '\n' ∧ c ≠ '\r' := by
  intro c hmem
  rw [longLine_eq, List.mem_append] at hmem
  have hshort : ∀ c ∈ ['G', 'E', 'T', ' ', '/', ' '], c.toNat < 128 ∧ c ≠ '\n' ∧ c ≠ '\r' := by
    simp
  rcases hmem with hmem | hmem
  · exact hshort c hmem
  · rw [List.eq_of_mem_replicate hmem]
    decide

theorem toUtf8_longLine : toUtf8 (longLine n) = [71, 69, 84, 32] ++ ([47, 32] ++ List.replicate (n + 1) 72) := by
  rw [toUtf8_ascii fun c hmem => (longLine_ascii c hmem).1, longLine_eq, List.map_append,
    List.map_replicate]
  rfl

theorem length_longLine : (toUtf8 (longLine n)).length = n + 7 := by
  rw [toUtf8_longLine, List.length_append, List.length_append, List.length_replicate]
  simp only [List.length_cons, List.length_nil]
  omega

/-- Its end is found. -/
theorem find_longLine (behind : List UInt8) :
    Lines.find doubleCrlf (toUtf8 (longLine n) ++ (doubleCrlf ++ behind)) = some (n + 7) := by
  have hhead : Lines.IsHead 13 10 [toUtf8 (longLine n)] := by
    refine ⟨List.cons_ne_nil _ _, fun l hmem => ?_⟩
    obtain rfl := List.mem_singleton.mp hmem
    refine ⟨fun hnil => ?_, Lines.isLine_of_not_mem fun hcr => ?_⟩
    · have hlen := length_longLine (n := n)
      rw [hnil] at hlen
      cases hlen
    · rw [toUtf8_longLine, ← List.append_assoc, List.mem_append] at hcr
      rcases hcr with hcr | hcr
      · exact absurd hcr (by decide)
      · cases List.eq_of_mem_replicate hcr
  have hhead' : Lines.headOf 13 10 [toUtf8 (longLine n)] = toUtf8 (longLine n) ++ doubleCrlf := by
    rw [Lines.headOf, Lines.joined, List.intercalate_singleton]
    rfl
  have hbuf : toUtf8 (longLine n) ++ (doubleCrlf ++ behind) ++ [] =
      Lines.headOf 13 10 [toUtf8 (longLine n)] ++ behind := by
    rw [hhead', List.append_nil, List.append_assoc]
  have hfind := Lines.find_headOf (by decide) hhead hbuf
  rw [hhead', Lines.joined, List.intercalate_singleton, length_longLine, if_pos] at hfind
  · exact hfind
  · simp only [List.length_append]
    omega

theorem headLines_longLine (behind : List UInt8) :
    headLines (toUtf8 (longLine n) ++ behind) (n + 7) = [longLine n] := by
  have hone : (longLine n).splitOn '\n' = [longLine n] := by
    rw [List.splitOn_eq_splitOnP]
    refine List.splitOnP_eq_singleton fun c hmem => ?_
    simpa using (longLine_ascii c hmem).2.1
  have hsome : ¬ (longLine n).isEmpty = true := by
    rw [longLine_eq]
    exact Bool.false_ne_true
  rw [headLines, List.take_left' length_longLine, fromUtf8Lossy_toUtf8, lines, hone,
    List.dropLast_singleton, List.getLast?_singleton, Option.getD_some, List.map_nil, List.nil_append,
    if_neg hsome]

theorem requestPath_longLine : requestPath [longLine n] = .ok (['/'], []) := by
  have hwords : ∀ word ∈ [['G', 'E', 'T'], ['/'], List.replicate (n + 1) 'H'], IsWord word := by
    intro word hmem
    rcases List.mem_cons.mp hmem with rfl | hmem
    · decide
    rcases List.mem_cons.mp hmem with rfl | hmem
    · decide
    obtain rfl := List.mem_singleton.mp hmem
    refine ⟨List.cons_ne_nil _ _, fun c hc => ?_⟩
    rw [List.eq_of_mem_replicate hc]
    decide
  rw [requestPath, longLine, splitWhitespace_intercalate hwords (List.cons_ne_nil _ _)]

end

/-- Eight bytes of a body that come with the end of a head of 12280 bytes: together they reach
the limit, and the head is lost. -/
theorem body_breaks_head :
    ∃ cut cut' : ByteStream, cut.bytes = cut'.bytes ∧
      Lines.find doubleCrlf ([71, 69, 84, 32] ++ cut.bytes) = some 12276 ∧
      ¬ Same (fun s (d : List UInt8 × Ending) => XDelivers s d.1 d.2)
        (applyXHttpHttp1 ⟨none, ['/']⟩ (.ok ()) [71, 69, 84, 32] cut).result
        (applyXHttpHttp1 ⟨none, ['/']⟩ (.ok ()) [71, 69, 84, 32] cut').result ∧
      ¬ Same H2Delivers (applyH2Http1 ⟨[], ['/']⟩ (.ok ()) [71, 69, 84, 32] cut).result
        (applyH2Http1 ⟨[], ['/']⟩ (.ok ()) [71, 69, 84, 32] cut').result := by
  obtain ⟨front, hfront⟩ : ∃ front, front = [47, 32] ++ List.replicate (12269 + 1) (72 : UInt8) ++ doubleCrlf :=
    ⟨_, rfl⟩
  have hlen : front.length = 12276 := by
    rw [hfront, List.length_append, List.length_append, List.length_replicate, length_doubleCrlf]
    rfl
  have hne : front ≠ [] := List.ne_nil_of_length_pos (by omega)
  let body : List UInt8 := [53, 13, 10, 104, 101, 108, 108, 111]
  have hcut : ∀ seg ∈ [front, body], seg ≠ [] := by
    intro seg hmem
    rcases List.mem_cons.mp hmem with rfl | hmem
    · exact hne
    · rw [List.mem_singleton.mp hmem]
      exact List.cons_ne_nil _ _
  have hcut' : ∀ seg ∈ [front ++ body], seg ≠ [] := by
    intro seg hmem
    rw [List.mem_singleton.mp hmem]
    exact List.append_ne_nil_of_left_ne_nil hne body
  have hbytes : ByteStream.bytes ⟨[front, body], hcut⟩ = ByteStream.bytes ⟨[front ++ body], hcut'⟩ := by
    simp only [ByteStream.bytes, List.flatten_cons, List.flatten_nil, List.append_nil]
  have htotal : [71, 69, 84, 32] ++ ByteStream.bytes ⟨[front, body], hcut⟩ =
      toUtf8 (longLine 12269) ++ (doubleCrlf ++ body) := by
    simp only [ByteStream.bytes, List.flatten_cons, List.flatten_nil, List.append_nil]
    rw [toUtf8_longLine, hfront]
    simp only [List.append_assoc]
  have hfind : Lines.find doubleCrlf ([71, 69, 84, 32] ++ ByteStream.bytes ⟨[front, body], hcut⟩) =
      some 12276 := by
    rw [htotal]
    exact find_longLine body
  -- the head in a segment of its own, and with the body behind it
  have hfits : Fits [71, 69, 84, 32] ⟨[front, body], hcut⟩ 12276 := by
    refine ⟨4 + front.length, buffered_segment hcut 4, ?_, ?_⟩
    · omega
    · rw [hlen]
      decide
  have hlost : ¬ Fits [71, 69, 84, 32] ⟨[front ++ body], hcut'⟩ 12276 := by
    rintro ⟨mark, hbuffered, hle, hlt⟩
    rw [maxHeaderLength] at hlt
    rcases hbuffered.of_single (.inl rfl) with hmark | ⟨k, hmark, hk⟩
    · rw [List.length_append, hlen] at hmark
      simp only [body, List.length_cons, List.length_nil] at hmark
      omega
    · simp only [List.length_cons, List.length_nil] at hmark
      omega
  have hlines : headLines ([71, 69, 84, 32] ++ ByteStream.bytes ⟨[front, body], hcut⟩) 12276 =
      [longLine 12269] := by
    rw [htotal]
    exact headLines_longLine _
  have hcheck : XHttpTransportConfig.check ⟨none, ['/']⟩ [longLine 12269] = .ok () := by
    rw [XHttpTransportConfig.check, requestPath_longLine]
    rfl
  have hcheck' : Http2TransportConfig.check ⟨[], ['/']⟩ [longLine 12269] = .ok () := by
    rw [Http2TransportConfig.check, requestPath_longLine]
    rfl
  have hsplit : ∀ check : List (List Char) → Except HeadError Unit, check [longLine 12269] = .ok () →
      ¬ ((Fits [71, 69, 84, 32] ⟨[front, body], hcut⟩ 12276 ↔
            Fits [71, 69, 84, 32] ⟨[front ++ body], hcut'⟩ 12276) ∨
          Refused check (.ok ()) ([71, 69, 84, 32] ++ ByteStream.bytes ⟨[front, body], hcut⟩) 12276) := by
    rintro check hok (hiff | ⟨e, he⟩ | ⟨e, he⟩)
    · exact hlost (hiff.mp hfits)
    · rw [hlines, hok] at he
      cases he
    · cases he
  have hsame : [71, 69, 84, 32] ++ ByteStream.bytes ⟨[front ++ body], hcut'⟩ =
      [71, 69, 84, 32] ++ ByteStream.bytes ⟨[front, body], hcut⟩ := by rw [hbytes]
  refine ⟨_, _, hbytes, hfind, ?_, ?_⟩
  · exact fun h => hsplit _ hcheck ((same_applyHttp1_iff exists_xDelivers rfl hsame hfind).mp h)
  · exact fun h => hsplit _ hcheck' ((same_applyHttp1_iff exists_h2Delivers rfl hsame hfind).mp h)

end HttpHead

end Transport

end Elise
