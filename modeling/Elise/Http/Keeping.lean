/-
Elise/Http/Keeping.lean

A connection of the HTTP proxy (src/protocol/http/), and what the proxy keeps from the server.

The head of a request is read, its user is looked up, and the headers that are meant for the
proxy are taken out of it; the audit is asked about its target.  Then the connection is relayed:
what is written to the server is the new head, what came behind the head, and whatever the
client sends from then on.

A client sends one request behind the other, and only the first is treated so
(`forwarded_spec`); those behind it pass as they are.  The proxy keeps what it has to keep
exactly if there was nothing to keep behind the first request (`keeps_iff`).

Parameters: the two decoders of base64, the verdicts of the limiters, whether a connection can
be opened, and which outbound a balancer picks.
-/
import Elise.Conn.Copying
import Elise.Conn.Relay
import Elise.Inbound.Sniffed
import Elise.Lib.Ascii
import Elise.Lib.AssocMap
import Elise.Lib.Lines
import Elise.Panel.Client

namespace Elise

namespace Http

open Text

/-! ### Who asks -/

inductive AuthError where
  | missing
  | malformed
  | invalidCredentials
  deriving DecidableEq, Repr

/-- `base64` decodes, with padding or without. -/
def verifyBasicAuth (base64 : (padded : Bool) → List Char → Option (List UInt8))
    (authHeader : Option (List Char)) (users : AssocMap (List Char) PanelUser) :
    Except AuthError PanelUser :=
  match authHeader with
  | none => .error .missing
  | some header =>
      let trimmed := trim header
      if !"basic ".toList.isPrefixOf (toAsciiLowercase trimmed) then .error .malformed
      else
        let payload := trim (trimmed.drop 6)
        match (base64 true payload).or (base64 false payload) with
        | none => .error .malformed
        | some decoded =>
            match (fromUtf8 decoded).bind (splitOnce ':') with
            | none => .error .malformed
            | some (username, password) =>
                match users.get (username ++ ':' :: password) with
                | some user => .ok user
                | none =>
                    let fits := fun user : PanelUser =>
                      (user.id.toNat.repr.toList == username || user.uuid == username) &&
                        user.password.getD user.uuid == password
                    match (users.pairs.map Prod.snd).find? fits with
                    | some user => .ok user
                    | none => .error .invalidCredentials

/-! ### What is asked for -/

def isHopByHopHeader (name : List Char) : Bool :=
  toAsciiLowercase name ∈
    ["proxy-authorization".toList, "proxy-connection".toList, "proxy-authenticate".toList,
      "connection".toList, "keep-alive".toList, "upgrade".toList, "trailer".toList, "te".toList]

/-- What stands before and after the last `c`. -/
def splitLast (c : Char) (cs : List Char) : Option (List Char × List Char) :=
  (splitOnce c cs.reverse).map fun parts => (parts.2.reverse, parts.1.reverse)

/-- Host, port and path. -/
def parseTargetAndPath (target : List Char) (hostHeader : Option (List Char)) :
    Option (List Char × UInt16 × List Char) :=
  let trimmed := trim target
  match "http://".toList.isPrefixOf? trimmed with
  | some stripped =>
      let authority := stripped.takeWhile (· ≠ '/')
      let path := if '/' ∈ stripped then stripped.dropWhile (· ≠ '/') else ['/']
      match splitLast ':' authority with
      | some (h, p) => (parseU16 p).map fun port => (h, port, path)
      | none => some (authority, 80, path)
  | none =>
      match hostHeader with
      | some value =>
          let path := if ['/'].isPrefixOf trimmed then trimmed else '/' :: trimmed
          match splitLast ':' value with
          | some (h, p) => some (h, (parseU16 p).getD 80, path)
          | none => some (value, 80, path)
      | none => none

abbrev Headers := List (List Char × List Char)

def hostHeader (headers : Headers) : Option (List Char) :=
  (headers.find? fun h => eqIgnoreAsciiCase h.1 "host".toList).map Prod.snd

/-- The lines of the head that is written to the server. -/
def rewrittenLines (method path version : List Char) (headers : Headers) (host : List Char)
    (port : UInt16) : List (List Char) :=
  let kept := headers.filter fun h => !isHopByHopHeader h.1
  let hasHost := kept.any fun h => eqIgnoreAsciiCase h.1 "host".toList
  (method ++ ' ' :: path ++ ' ' :: version) ::
    (kept.map fun h => h.1 ++ ": ".toList ++ h.2) ++
    (if hasHost then [] else ["Host: ".toList ++ host ++ ':' :: port.toNat.repr.toList]) ++
    ["Connection: close".toList]

def rewrittenReq (lines : List (List Char)) : List UInt8 :=
  toUtf8 (lines.flatMap (· ++ ['\r', '\n']) ++ ['\r', '\n'])

/-! ### The connection -/

def resp400BadRequest : String :=
  "HTTP/1.1 400 Bad Request\r\nContent-Type: text/plain; charset=utf-8\r\nContent-Length: 12\r\nConnection: close\r\n\r\nBad Request\n"

def resp407AuthRequired : String :=
  "HTTP/1.1 407 Proxy Authentication Required\r\nProxy-Authenticate: Basic realm=\"Elise\"\r\nContent-Type: text/plain; charset=utf-8\r\nContent-Length: 30\r\nConnection: close\r\n\r\nProxy Authentication Required\n"

def resp502BadGateway : String :=
  "HTTP/1.1 502 Bad Gateway\r\nContent-Type: text/plain; charset=utf-8\r\nContent-Length: 12\r\nConnection: close\r\n\r\nBad Gateway\n"

/-- What the handler reads of its context, and what it is answered. -/
structure Inbound (env : Matching) where
  ctx : InboundContext env
  users : AssocMap (List Char) PanelUser
  base64 : (padded : Bool) → List Char → Option (List UInt8)
  /-- The verdict of the device limiter. -/
  checkAndRecord : UInt32 → Bool
  /-- Whether the connection limiter has room. -/
  tryAcquire : UInt32 → Bool
  roll : Nat
  /-- Whether the connection is opened. -/
  dial : DialCall → Bool
  tcpTimeout : Nat

/-- A connection that is relayed. -/
structure Forwarded where
  call : DialCall
  userId : UInt32
  client : PrefixedStream
  tcpTimeout : Nat

inductive Outcome where
  /-- The client has left before its head was there. -/
  | left
  /-- An error of the stream, or the head was not there in time. -/
  | broken
  | answered (response : String)
  /-- An error without an answer. -/
  | refused (message : String)
  /-- A tunnel is asked for. -/
  | connect (target : List Char) (leftover : List UInt8) (client : ByteStream)
  | forwarded (f : Forwarded)

section

variable {env : Matching} (inbound : Inbound env)

def handleForward (client : ByteStream) (method target version : List Char) (headers : Headers)
    (leftover : List UInt8) (user : PanelUser) : Outcome :=
  match parseTargetAndPath target (hostHeader headers) with
  | none => .answered resp502BadGateway
  | some (host, port, path) =>
      let pre := rewrittenReq (rewrittenLines method path version headers host port) ++ leftover
      match relay inbound.ctx ⟨host, env.parseIp host, port⟩ inbound.roll pre with
      | none => .answered resp502BadGateway
      | some call =>
          if inbound.dial call then
            .forwarded ⟨call, user.id, .new client (some pre), inbound.tcpTimeout⟩
          else .answered resp502BadGateway

def findHeaderEnd (buf : List UInt8) : Option Nat := Lines.find [13, 10, 13, 10] buf

/-- How reading a head ends. -/
inductive HeadRead where
  | left
  | broken
  | tooLarge
  | found (buf : List UInt8) (endIdx : Nat) (client : ByteStream)

/-- Read until a head is there, as often as there is time for. -/
def readHead : (reads : Nat) → List UInt8 → ByteStream → HeadRead
  | 0, buf, _ => if buf.length < 65536 then .broken else .tooLarge
  | reads + 1, buf, client =>
      if buf.length < 65536 then
        let (bytes, client) := client.read 2048
        if bytes.isEmpty then .left
        else
          match findHeaderEnd (buf ++ bytes) with
          | some pos => .found (buf ++ bytes) pos client
          | none => readHead reads (buf ++ bytes) client
      else .tooLarge

/-- The header in a line, if there is one. -/
def headerIn (line : List Char) : Option (List Char × List Char) :=
  (splitOnce ':' line).map fun parts => (trim parts.1, trim parts.2)

/-- The methods that are forwarded. -/
def forwardedMethods : List (List Char) :=
  ["GET".toList, "POST".toList, "HEAD".toList, "PUT".toList, "DELETE".toList, "OPTIONS".toList,
    "PATCH".toList, "TRACE".toList]

/-- A request with its head in lines. -/
def handleRequest (client : ByteStream) (requestLine : List Char) (lines : List (List Char))
    (leftover : List UInt8) : Outcome :=
  let parts := splitWhitespace requestLine
  let method := parts.getD 0 []
  let target := parts.getD 1 []
  let version := parts.getD 2 "HTTP/1.1".toList
  if method.isEmpty || target.isEmpty then .answered resp400BadRequest
  else
    let headers := lines.filterMap headerIn
    -- the last of them counts
    let proxyAuth :=
      (headers.reverse.find? fun h => eqIgnoreAsciiCase h.1 "proxy-authorization".toList).map Prod.snd
    match verifyBasicAuth inbound.base64 proxyAuth inbound.users with
    | .error _ => .answered resp407AuthRequired
    | .ok user =>
        if !inbound.checkAndRecord user.id then .refused "Device limit exceeded"
        else if !inbound.tryAcquire user.id then .refused "Connection limit exceeded"
        else if eqIgnoreAsciiCase method "CONNECT".toList then .connect target leftover client
        else if env.upper method ∈ forwardedMethods then
          handleForward inbound client method target version headers leftover user
        else .answered resp400BadRequest

/-- `handle_http_connection`, with time for so many reads of the head. -/
def handleHttpConnection (reads : Nat) (client : ByteStream) : Outcome :=
  match readHead reads [] client with
  | .left => .left
  | .broken => .broken
  | .tooLarge => .answered resp400BadRequest
  | .found buf endIdx client =>
      match fromUtf8 (buf.take endIdx) with
      | none => .answered resp400BadRequest
      | some header =>
          let lines := Lines.split '\r' '\n' header
          handleRequest inbound client (lines.headD []) lines.tail (buf.drop (endIdx + 4))

end

/-- The relay writes `w` to the server: it reads the stream from its start, however
far it gets. -/
def Forwarded.Writes (f : Forwarded) (w : List UInt8) : Prop :=
  ∃ now es s,
    Run.exec (Conn.Relay.step ⟨f.userId, true, f.tcpTimeout⟩)
        (Conn.Relay.start ⟨f.userId, true, f.tcpTimeout⟩ now) es = some s ∧
      (s.side .aToB).reads <+: f.client.bytes ∧ (s.side .aToB).written = w

open Lines

/-! ### Requests -/

/-- A text, if it is one. -/
def decoded (bytes : List UInt8) : List Char := (fromUtf8 bytes).getD []

/-- The header in a line of bytes. -/
def headerOf (line : List UInt8) : Option (List Char × List Char) :=
  match line.span (· ≠ 58) with
  | (_, []) => none
  | (name, _ :: value) => some (trim (decoded name), trim (decoded value))

/-- A request as a client sends it: lines, an empty one behind them, and a body. -/
structure Request where
  line : List UInt8
  headers : List (List UInt8)
  body : List UInt8
  isHead : IsHead 13 10 (line :: headers)

namespace Request

instance (ls : List (List UInt8)) : Decidable (IsHead 13 10 ls) :=
  decidable_of_iff (ls ≠ [] ∧ ∀ l ∈ ls, l ≠ [] ∧ IsLine 13 10 l)
    ⟨fun h => ⟨h.1, h.2⟩, fun h => ⟨h.ne_nil, h.isLine⟩⟩

def bytes (r : Request) : List UInt8 := headOf 13 10 (r.line :: r.headers) ++ r.body

def target (r : Request) : List Char := (splitWhitespace (decoded r.line)).getD 1 []

def hostHeader (r : Request) : Option (List Char) := Http.hostHeader (r.headers.filterMap headerOf)

/-- The target of the request is a host that the audit blocks. -/
def Blocked {env : Matching} (ctx : InboundContext env) (r : Request) : Prop :=
  ∃ t ∈ parseTargetAndPath r.target r.hostHeader,
    ctx.audit.shouldBlock ctx.geo t.1 (env.parseIp t.1) t.2.1 = true

instance {env : Matching} (ctx : InboundContext env) (r : Request) : Decidable (r.Blocked ctx) :=
  inferInstanceAs (Decidable (∃ t ∈ parseTargetAndPath r.target r.hostHeader, _))

end Request

/-- There is no header of the hop. -/
def Clean (headers : List (List UInt8)) : Prop :=
  ∀ line ∈ headers, ∀ h ∈ headerOf line, isHopByHopHeader h.1 = false

instance (headers : List (List UInt8)) : Decidable (Clean headers) :=
  inferInstanceAs (Decidable (∀ line ∈ headers, ∀ h ∈ headerOf line, _))

/-- What may be written to a server of the requests of a connection: of one after the
other a head without headers of the hop, and the body, and nothing from a request for
a blocked host on.  The proxy adds lines of its own to the head that it writes
itself. -/
inductive Keeps (blocked : Request → Prop) : (own : List (List UInt8)) → List Request → List UInt8 → Prop
  | stops {own : List (List UInt8)} {rs : List Request} : Keeps blocked own rs []
  | part {own : List (List UInt8)} {r : Request} {rs : List Request} {line : List UInt8}
      {headers : List (List UInt8)} {w : List UInt8} :
      ¬ blocked r → Clean headers → IsHead 13 10 (line :: headers ++ own) →
        w <+: headOf 13 10 (line :: headers ++ own) ++ r.body → Keeps blocked own (r :: rs) w
  | whole {own : List (List UInt8)} {r : Request} {rs : List Request} {line : List UInt8}
      {headers : List (List UInt8)} {w : List UInt8} :
      ¬ blocked r → Clean headers → IsHead 13 10 (line :: headers ++ own) → Keeps blocked [] rs w →
        Keeps blocked own (r :: rs) (headOf 13 10 (line :: headers ++ own) ++ r.body ++ w)

variable {blocked : Request → Prop} {own ls : List (List UInt8)} {r : Request} {rs : List Request}
  {w : List UInt8}

/-- **What is written tells what it was**: its head, and the rest. -/
theorem keeps_cons_iff (hls : IsHead 13 10 ls) :
    Keeps blocked own (r :: rs) (headOf 13 10 ls ++ r.body ++ w) ↔
      (¬ blocked r ∧ ∃ line headers, ls = line :: headers ++ own ∧ Clean headers) ∧
        Keeps blocked [] rs w := by
  constructor
  · generalize hwhole : headOf 13 10 ls ++ r.body ++ w = whole
    intro h
    cases h with
    | stops =>
        rw [headOf] at hwhole
        simp at hwhole
    | @part _ _ _ line headers _ hopen hclean hhead hpart =>
        obtain ⟨more, hmore⟩ := hpart
        rw [← hwhole, List.append_assoc, List.append_assoc] at hmore
        obtain ⟨rfl, hrest⟩ := headOf_append_inj (by decide) hls hhead hmore
        have hnil : w ++ more = [] := List.append_cancel_left (hrest.trans (List.append_nil _).symm)
        rw [(List.append_eq_nil_iff.mp hnil).1]
        exact ⟨⟨hopen, line, headers, rfl, hclean⟩, .stops⟩
    | @whole _ _ _ line headers w' hopen hclean hhead hrest =>
        rw [List.append_assoc, List.append_assoc] at hwhole
        obtain ⟨rfl, hbody⟩ := headOf_append_inj (by decide) hls hhead hwhole
        rw [List.append_cancel_left hbody]
        exact ⟨⟨hopen, line, headers, rfl, hclean⟩, hrest⟩
  · rintro ⟨⟨hopen, line, headers, rfl, hclean⟩, hrest⟩
    exact .whole hopen hclean hls hrest

/-- A beginning of what may be written may be written. -/
theorem Keeps.begins (h : Keeps blocked own rs w) {w' : List UInt8} (hle : w' <+: w) :
    Keeps blocked own rs w' := by
  induction h generalizing w' with
  | stops =>
      rw [List.prefix_nil.mp hle]
      exact .stops
  | part hopen hclean hhead hpart => exact .part hopen hclean hhead (hle.trans hpart)
  | @whole own r rs line headers w hopen hclean hhead hrest ih =>
      rcases List.prefix_or_prefix_of_prefix hle (List.prefix_append _ w) with hpart | ⟨rest, rfl⟩
      · exact .part hopen hclean hhead hpart
      · exact .whole hopen hclean hhead (ih ((List.prefix_append_right_inj _).mp hle))

/-- Requests that are passed as they are. -/
theorem keeps_bytes_iff (rs : List Request) :
    Keeps blocked [] rs (rs.flatMap Request.bytes) ↔
      ∀ r ∈ rs, ¬ blocked r ∧ Clean r.headers := by
  induction rs with
  | nil => exact ⟨fun _ => nofun, fun _ => .stops⟩
  | cons r rs ih =>
      rw [List.flatMap_cons, Request.bytes, keeps_cons_iff r.isHead, ih, List.forall_mem_cons]
      apply and_congr_left'
      apply and_congr_right
      intro _
      constructor
      · rintro ⟨line, headers, heq, hclean⟩
        rw [List.append_nil] at heq
        rw [(List.cons.inj heq).2]
        exact hclean
      · intro hclean
        exact ⟨r.line, r.headers, (List.append_nil _).symm, hclean⟩

/-! ### The first head -/

/-- A header is the same in the bytes of a line. -/
theorem headerOf_toUtf8 (line : List Char) : headerOf (toUtf8 line) = headerIn line := by
  rw [headerOf, headerIn]
  rcases hsplit : splitOnce ':' line with - | ⟨name, value⟩
  · have hnot : ∀ b ∈ toUtf8 line, decide (b ≠ 58) = true := by
      intro b hmem
      apply decide_eq_true
      rintro rfl
      exact splitOnce_eq_none hsplit (mem_of_mem_toUtf8 (by decide) hmem)
    rw [List.span_eq_takeWhile_dropWhile, List.dropWhile_eq_nil_iff.mpr hnot]
    rfl
  · obtain ⟨rfl, hname⟩ := splitOnce_eq_some hsplit
    have hcut := span_toUtf8 (c := ':') (b := 58) (by decide) rfl hname value
    rw [hcut]
    simp only [decoded, fromUtf8_toUtf8, Option.getD_some, Option.map_some]

/-- A header that is written behind its name. -/
theorem headerIn_append {name : List Char} (h : ':' ∉ name) (value : List Char) :
    headerIn (name ++ ':' :: value) = some (trim name, trim value) := by
  rw [headerIn, splitOnce_append h]
  rfl

/-- The names and values of headers are within their lines. -/
theorem of_headerIn {line : List Char} {header : List Char × List Char} (h : headerIn line = some header) :
    ':' ∉ header.1 ∧ trim header.1 = header.1 ∧ header.1 <:+: line ∧ header.2 <:+: line := by
  obtain ⟨⟨name, value⟩, hsplit, rfl⟩ := Option.map_eq_some_iff.mp h
  obtain ⟨rfl, hname⟩ := splitOnce_eq_some hsplit
  refine ⟨?_, trim_trim name, ?_, ?_⟩
  · intro hmem
    exact hname ((infix_trim name).subset hmem)
  · exact (infix_trim name).trans (List.prefix_append _ _).isInfix
  · refine (infix_trim value).trans ?_
    exact ((List.suffix_cons ':' value).trans (List.suffix_append _ _)).isInfix

theorem of_splitLast {c : Char} {cs before after : List Char}
    (h : splitLast c cs = some (before, after)) : ∀ d ∈ before, d ∈ cs := by
  obtain ⟨⟨left, right⟩, hsplit, heq⟩ := Option.map_eq_some_iff.mp h
  obtain ⟨rfl, rfl⟩ := Prod.mk.inj heq
  intro d hmem
  rw [← List.mem_reverse, (splitOnce_eq_some hsplit).1]
  exact List.mem_append_right _ (List.mem_cons_of_mem _ (List.mem_reverse.mp hmem))

/-- Path and host are made of the target. -/
theorem of_parseTargetAndPath {target : List Char} {hostHeader : Option (List Char)}
    {t : List Char × UInt16 × List Char} (h : parseTargetAndPath target hostHeader = some t) :
    (∀ c ∈ t.2.2, c ∈ target ∨ c = '/') ∧ (hostHeader = none → ∀ c ∈ t.1, c ∈ target) := by
  have htrim : ∀ c ∈ trim target, c ∈ target := fun c hmem => (infix_trim target).subset hmem
  unfold parseTargetAndPath at h
  dsimp only at h
  split at h
  · rename_i stripped hstripped
    have hmem : ∀ c ∈ stripped, c ∈ target := by
      intro c hc
      have happ := List.isPrefixOf?_eq_some_iff_append_eq.mp hstripped
      exact htrim c (happ ▸ List.mem_append_right _ hc)
    have hpath : ∀ c ∈ (if '/' ∈ stripped then stripped.dropWhile (· ≠ '/') else ['/']),
        c ∈ target ∨ c = '/' := by
      intro c hc
      split at hc
      · exact .inl (hmem c ((List.dropWhile_suffix _).subset hc))
      · exact .inr (List.mem_singleton.mp hc)
    have hauthority : ∀ c ∈ stripped.takeWhile (· ≠ '/'), c ∈ target :=
      fun c hc => hmem c ((List.takeWhile_prefix _).subset hc)
    split at h
    · rename_i host port hlast
      obtain ⟨value, -, rfl⟩ := Option.map_eq_some_iff.mp h
      exact ⟨hpath, fun _ c hc => hauthority c (of_splitLast hlast c hc)⟩
    · obtain rfl := Option.some.inj h
      exact ⟨hpath, fun _ => hauthority⟩
  · split at h
    · rename_i value
      have hpath : ∀ c ∈ (if ['/'].isPrefixOf (trim target) then trim target else '/' :: trim target),
          c ∈ target ∨ c = '/' := by
        intro c hc
        split at hc
        · exact .inl (htrim c hc)
        · rcases List.mem_cons.mp hc with rfl | hc
          · exact .inr rfl
          · exact .inl (htrim c hc)
      split at h
      · obtain rfl := Option.some.inj h
        exact ⟨hpath, fun hnone => absurd hnone (Option.some_ne_none _)⟩
      · obtain rfl := Option.some.inj h
        exact ⟨hpath, fun hnone => absurd hnone (Option.some_ne_none _)⟩
    · cases h

theorem isLine_of_blankless {cs : List Char} (h : ∀ c ∈ cs, isWhitespace c = false) :
    IsLine '\r' '\n' cs := by
  apply isLine_of_not_mem
  intro hmem
  exact absurd (h _ hmem) (by decide)

/-- If no host is kept, there was none: it is no header of the hop. -/
theorem hostHeader_of_kept {headers : Headers}
    (h : ¬ (headers.filter fun h => !isHopByHopHeader h.1).any
      (fun h => eqIgnoreAsciiCase h.1 "host".toList) = true) : hostHeader headers = none := by
  rw [hostHeader, Option.map_eq_none_iff, List.find?_eq_none]
  intro header hmem hname
  apply h
  apply List.any_eq_true.mpr
  refine ⟨header, List.mem_filter.mpr ⟨hmem, ?_⟩, hname⟩
  have hlower : toAsciiLowercase header.1 = toAsciiLowercase "host".toList := by
    simpa [eqIgnoreAsciiCase] using hname
  rw [isHopByHopHeader, hlower]
  decide

/-- **The head that is written to the server**: lines, the last of them the proxy's own
and none of the others a header of the hop. -/
theorem rewrittenLines_spec {method path version : List Char} {headers : Headers} {host : List Char}
    (port : UInt16) (hmethod : ∀ c ∈ method, isWhitespace c = false)
    (hpath : ∀ c ∈ path, isWhitespace c = false) (hversion : ∀ c ∈ version, isWhitespace c = false)
    (hheaders : ∀ h ∈ headers, ∃ line, IsLine '\r' '\n' line ∧ headerIn line = some h)
    (hhost : hostHeader headers = none → ∀ c ∈ host, isWhitespace c = false) :
    ∃ line kept,
      rewrittenLines method path version headers host port =
          line :: kept ++ ["Connection: close".toList] ∧
        (∀ l ∈ line :: kept, l ≠ [] ∧ IsLine '\r' '\n' l) ∧ Clean (kept.map toUtf8) := by
  refine ⟨_, _, rfl, ?_, ?_⟩
  · intro l hmem
    rcases List.mem_cons.mp hmem with rfl | hmem
    · refine ⟨by simp, ?_⟩
      have hfirst : IsLine '\r' '\n' (method ++ ' ' :: path) :=
        .append_cons (by decide) (by decide) (isLine_of_blankless hmethod) (isLine_of_blankless hpath)
      exact hfirst.append_cons (by decide) (by decide) (isLine_of_blankless hversion)
    · rcases List.mem_append.mp hmem with hmem | hmem
      · obtain ⟨header, hheader, rfl⟩ := List.mem_map.mp hmem
        obtain ⟨line, hline, hin⟩ := hheaders header (List.mem_of_mem_filter hheader)
        obtain ⟨-, -, hname, hvalue⟩ := of_headerIn hin
        refine ⟨by simp, ?_⟩
        rw [List.append_assoc]
        have hpart : ∀ part, part <:+: line → IsLine '\r' '\n' part := fun part h =>
          List.IsChain.infix hline h
        refine .append_cons (by decide) (by decide) (hpart _ hname) ?_
        exact .append_cons (l := []) (by decide) (by decide) .nil (hpart _ hvalue)
      · split at hmem
        · cases hmem
        · rename_i hnone
          obtain rfl := List.mem_singleton.mp hmem
          refine ⟨by simp, ?_⟩
          apply IsLine.append_cons (by decide) (by decide)
          · apply isLine_of_not_mem
            intro hmem
            rcases List.mem_append.mp hmem with hmem | hmem
            · exact absurd hmem (by decide)
            · exact absurd (hhost (hostHeader_of_kept hnone) _ hmem) (by decide)
          · apply isLine_of_not_mem
            intro hmem
            exact absurd (isDigit_of_mem_repr hmem) (by decide)
  · intro l hmem h hh
    obtain ⟨text, htext, rfl⟩ := List.mem_map.mp hmem
    rw [headerOf_toUtf8] at hh
    rcases List.mem_append.mp htext with hkept | hown
    · obtain ⟨header, hheader, rfl⟩ := List.mem_map.mp hkept
      obtain ⟨hmem, hkeep⟩ := List.mem_filter.mp hheader
      obtain ⟨line, -, hin⟩ := hheaders header hmem
      obtain ⟨hcolon, htrim, -⟩ := of_headerIn hin
      rw [List.append_assoc] at hh
      obtain rfl := Option.some.inj ((headerIn_append hcolon _).symm.trans hh)
      simpa [htrim] using hkeep
    · split at hown
      · cases hown
      · obtain rfl := List.mem_singleton.mp hown
        have hname : headerIn ("Host".toList ++ ':' :: (' ' :: host ++ ':' :: port.toNat.repr.toList)) =
            some (trim "Host".toList, _) := headerIn_append (by decide) _
        obtain rfl := Option.some.inj (hname.symm.trans hh)
        show isHopByHopHeader (trim "Host".toList) = false
        decide

theorem rewrittenReq_eq {ls : List (List Char)} (hls : ls ≠ []) :
    rewrittenReq ls = headOf 13 10 (ls.map toUtf8) := by
  have htext : ls.flatMap (· ++ ['\r', '\n']) ++ ['\r', '\n'] =
      joined '\r' '\n' ls ++ ['\r', '\n', '\r', '\n'] := flatMap_ends hls
  rw [rewrittenReq, htext, toUtf8_append, toUtf8_joined]
  rfl

theorem isHead_toUtf8 {ls : List (List Char)} (hls : ls ≠ [])
    (hlines : ∀ l ∈ ls, l ≠ [] ∧ IsLine '\r' '\n' l) : IsHead 13 10 (ls.map toUtf8) := by
  refine ⟨by simpa using hls, ?_⟩
  intro l hmem
  obtain ⟨text, htext, rfl⟩ := List.mem_map.mp hmem
  obtain ⟨hne, hline⟩ := hlines text htext
  refine ⟨?_, isLine_toUtf8 hline⟩
  intro hnil
  have hback := fromUtf8_toUtf8 text
  rw [hnil] at hback
  exact hne (Option.some.inj hback).symm

/-! ### The connection -/

/-- Nothing is lost while a head is read. -/
theorem of_readHead {reads : Nat} {buf buf' : List UInt8} {client client' : ByteStream} {endIdx : Nat}
    (h : readHead reads buf client = .found buf' endIdx client') :
    findHeaderEnd buf' = some endIdx ∧ buf' ++ client'.bytes = buf ++ client.bytes := by
  induction reads generalizing buf client with
  | zero =>
      rw [readHead] at h
      split at h <;> cases h
  | succ reads ih =>
      have hread := ByteStream.read_append client 2048
      rw [readHead] at h
      split at h
      · dsimp only at h
        split at h
        · cases h
        · split at h
          · rename_i pos hpos
            obtain ⟨rfl, rfl, rfl⟩ := HeadRead.found.inj h
            refine ⟨hpos, ?_⟩
            rw [List.append_assoc, hread]
          · obtain ⟨hend, hbytes⟩ := ih h
            refine ⟨hend, ?_⟩
            rw [hbytes, List.append_assoc, hread]
      · cases h

section

variable {env : Matching} {inbound : Inbound env} {f : Forwarded}

theorem of_handleForward {client : ByteStream} {method target version : List Char} {headers : Headers}
    {leftover : List UInt8} {user : PanelUser}
    (h : handleForward inbound client method target version headers leftover user = .forwarded f) :
    ∃ t, parseTargetAndPath target (hostHeader headers) = some t ∧
      inbound.ctx.audit.shouldBlock inbound.ctx.geo t.1 (env.parseIp t.1) t.2.1 = false ∧
      f.client.bytes =
        rewrittenReq (rewrittenLines method t.2.2 version headers t.1 t.2.1) ++ leftover ++ client.bytes := by
  rw [handleForward] at h
  split at h
  · cases h
  rename_i host port path hparse
  dsimp only at h
  split at h
  · cases h
  rename_i call hcall
  split at h
  · obtain rfl := Outcome.forwarded.inj h
    refine ⟨_, hparse, ?_, rfl⟩
    by_contra hblocked
    rw [httpRelay_eq_none _ (by simpa using hblocked)] at hcall
    cases hcall
  · cases h

/-- A word of a line, or what stands for it. -/
theorem blankless_getD {line other : List Char} (hother : ∀ c ∈ other, isWhitespace c = false) (i : Nat) :
    ∀ c ∈ (splitWhitespace line).getD i other, isWhitespace c = false := by
  rw [List.getD_eq_getElem?_getD]
  rcases hword : (splitWhitespace line)[i]? with - | word
  · exact hother
  · exact of_mem_splitWhitespace (List.mem_of_getElem? hword)

theorem of_handleRequest {client : ByteStream} {line : List Char} {lines : List (List Char)}
    {leftover : List UInt8}
    (h : handleRequest inbound client line lines leftover = .forwarded f) :
    ∃ user, handleForward inbound client ((splitWhitespace line).getD 0 [])
      ((splitWhitespace line).getD 1 []) ((splitWhitespace line).getD 2 "HTTP/1.1".toList)
      (lines.filterMap headerIn) leftover user = .forwarded f := by
  rw [handleRequest] at h
  dsimp only at h
  split at h
  · cases h
  split at h
  · cases h
  rename_i user huser
  split_ifs at h
  exact ⟨user, h⟩

/-- **A connection that is relayed**: the first request is not for a blocked host, and
what the server gets is a clean head, the body, and all that comes behind it. -/
theorem forwarded_spec {reads : Nat} {client : ByteStream} {r : Request} {rest : List UInt8}
    (hbytes : client.bytes = r.bytes ++ rest)
    (h : handleHttpConnection inbound reads client = .forwarded f) :
    ¬ r.Blocked inbound.ctx ∧ ∃ line headers,
      IsHead 13 10 (line :: headers ++ [toUtf8 "Connection: close".toList]) ∧ Clean headers ∧
        f.client.bytes =
          headOf 13 10 (line :: headers ++ [toUtf8 "Connection: close".toList]) ++ r.body ++ rest := by
  rw [handleHttpConnection] at h
  split at h
  · cases h
  · cases h
  · cases h
  rename_i buf endIdx client' hread
  obtain ⟨hend, hbuf⟩ := of_readHead hread
  rw [List.nil_append, hbytes, Request.bytes, List.append_assoc] at hbuf
  -- the head that is found is the head of the first request
  rw [findHeaderEnd, find_headOf (by decide) r.isHead hbuf] at hend
  split at hend
  swap
  · cases hend
  rename_i hle
  obtain rfl := Option.some.inj hend
  obtain ⟨leftover, rfl⟩ : headOf 13 10 (r.line :: r.headers) <+: buf :=
    List.prefix_of_prefix_length_le (List.prefix_append _ (r.body ++ rest)) ⟨client'.bytes, hbuf⟩ hle
  have hmore : leftover ++ client'.bytes = r.body ++ rest := by
    rw [List.append_assoc] at hbuf
    exact List.append_cancel_left hbuf
  rw [headOf, List.append_assoc, List.take_left' rfl] at h
  split at h
  · cases h
  rename_i header hheader
  have hlines := split_of_fromUtf8 r.isHead.ne_nil (fun l hmem => (r.isHead.isLine l hmem).2) hheader
  have hsplit := fun (l : List Char) (hmem : l ∈ split '\r' '\n' header) => isLine_of_mem_split hmem
  generalize split '\r' '\n' header = lines at h hlines hsplit
  cases lines with
  | nil => cases hlines
  | cons first others =>
      obtain ⟨hfirst, hothers⟩ := List.cons.inj hlines
      rw [← List.drop_drop, List.drop_left' rfl, List.drop_left' (by rfl)] at h
      replace h : handleRequest inbound client' first others leftover = .forwarded f := h
      obtain ⟨user, hforward⟩ := of_handleRequest h
      obtain ⟨t, hparse, hopen, hclient⟩ := of_handleForward hforward
      have htarget : r.target = (splitWhitespace first).getD 1 [] := by
        rw [Request.target, ← hfirst, decoded, fromUtf8_toUtf8]
        rfl
      have hhost : r.hostHeader = hostHeader (others.filterMap headerIn) := by
        have hsame : headerOf ∘ toUtf8 = headerIn := by
          funext l
          exact headerOf_toUtf8 l
        rw [Request.hostHeader, ← hothers, List.filterMap_map, hsame]
      have hword : ∀ i, ∀ c ∈ (splitWhitespace first).getD i [], isWhitespace c = false :=
        fun i => blankless_getD (by simp) i
      have hversion : ∀ c ∈ (splitWhitespace first).getD 2 "HTTP/1.1".toList, isWhitespace c = false := by
        have hall : ("HTTP/1.1".toList.all fun c => !isWhitespace c) = true := by decide
        apply blankless_getD
        simpa using hall
      obtain ⟨hpath, hauthority⟩ := of_parseTargetAndPath hparse
      have hpath' : ∀ c ∈ t.2.2, isWhitespace c = false := by
        intro c hmem
        rcases hpath c hmem with hmem | rfl
        · exact hword 1 c hmem
        · decide
      have hheaders : ∀ h ∈ others.filterMap headerIn,
          ∃ line, IsLine '\r' '\n' line ∧ headerIn line = some h := by
        intro h hmem
        obtain ⟨line, hline, hin⟩ := List.mem_filterMap.mp hmem
        exact ⟨line, hsplit line (List.mem_cons_of_mem _ hline), hin⟩
      obtain ⟨line, kept, hrewritten, hkept, hclean⟩ :=
        rewrittenLines_spec t.2.1 (hword 0) hpath' hversion hheaders
          fun hnone c hmem => hword 1 c (hauthority hnone c hmem)
      refine ⟨?_, toUtf8 line, kept.map toUtf8, ?_, hclean, ?_⟩
      · rintro ⟨t', ht', hblocked⟩
        rw [htarget, hhost, hparse] at ht'
        obtain rfl := Option.some.inj ht'
        rw [hopen] at hblocked
        cases hblocked
      · have hall : ∀ l ∈ line :: kept ++ ["Connection: close".toList], l ≠ [] ∧ IsLine '\r' '\n' l := by
          intro l hmem
          rcases List.mem_append.mp hmem with hmem | hmem
          · exact hkept l hmem
          · obtain rfl := List.mem_singleton.mp hmem
            decide
        have hhead := isHead_toUtf8 (by simp) hall
        rw [List.map_append] at hhead
        exact hhead
      · rw [hclient, hrewritten, rewrittenReq_eq (by simp), List.append_assoc, hmore, ← List.append_assoc,
          List.map_append]
        rfl

end

/-! ### Every connection -/

theorem writes_iff {f : Forwarded} {w : List UInt8} : f.Writes w ↔ w <+: f.client.bytes := by
  constructor
  · rintro ⟨now, es, s, hrun, hreads, rfl⟩
    exact ((Conn.Relay.accounts_of_run hrun).written_of_reads .aToB).trans hreads
  · intro hle
    obtain ⟨es, s, hrun, hreads, hwritten⟩ :=
      Conn.Relay.exists_run_copying ⟨f.userId, true, f.tcpTimeout⟩ 0 w
    exact ⟨0, es, s, hrun, by rw [hreads]; exact hle, hwritten⟩

/-- **What the proxy keeps from the server.**  On a connection that is relayed, whatever
the relay writes and however the client's bytes come, nothing is written that the proxy
has to keep to itself, no header of the hop and nothing of a request for a blocked host,
exactly if no request behind the first has a header of the hop or is for a blocked
host. -/
theorem keeps_iff {env : Matching} (inbound : Inbound env) (reads : Nat) (client : ByteStream)
    (f : Forwarded) (r : Request) (rs : List Request)
    (hbytes : client.bytes = r.bytes ++ rs.flatMap Request.bytes)
    (hforwarded : handleHttpConnection inbound reads client = .forwarded f) :
    (∀ w, f.Writes w →
        Keeps (Request.Blocked inbound.ctx) [toUtf8 "Connection: close".toList] (r :: rs) w) ↔
      ∀ later ∈ rs, ¬ later.Blocked inbound.ctx ∧ Clean later.headers := by
  obtain ⟨hopen, line, headers, hhead, hclean, hclient⟩ := forwarded_spec hbytes hforwarded
  rw [← keeps_bytes_iff]
  constructor
  · intro hall
    have hwhole := hall f.client.bytes (writes_iff.mpr (List.prefix_refl _))
    rw [hclient, keeps_cons_iff hhead] at hwhole
    exact hwhole.2
  · intro hlater w hwrites
    refine Keeps.begins ?_ (writes_iff.mp hwrites)
    rw [hclient, keeps_cons_iff hhead]
    exact ⟨⟨hopen, line, headers, rfl, hclean⟩, hlater⟩

/-- One user, whose name and password are `u:p`; 1.2.3.4 is blocked. -/
def sampleInbound : Inbound sampleMatching where
  ctx := relayContext
  users := .ofPairs [("u:p".toList, ⟨⟨7, 0, 0⟩, "u".toList, some "p".toList, none, none, none⟩)]
  base64 _ text := if text = "dTpw".toList then some (toUtf8 "u:p".toList) else none
  checkAndRecord _ := true
  tryAcquire _ := true
  roll := 0
  dial _ := true
  tcpTimeout := 300

/-- A request without a body. -/
def sampleRequest (line : String) (headers : List String)
    (h : IsHead 13 10 (toUtf8 line.toList :: headers.map fun header => toUtf8 header.toList)) : Request :=
  ⟨_, _, [], h⟩

def credentials : String := "Proxy-Authorization: Basic dTpw"

def firstRequest : Request :=
  sampleRequest "GET http://good.example/ HTTP/1.1" [credentials] (by decide)

def cleanRequest : Request := sampleRequest "GET /b HTTP/1.1" ["Host: good.example"] (by decide)

def blockedRequest : Request :=
  sampleRequest "GET http://1.2.3.4/ HTTP/1.1" [credentials] (by decide)

def Outcome.isForwarded : Outcome → Bool
  | forwarded _ => true
  | _ => false

theorem Outcome.exists_of_isForwarded {o : Outcome} (h : o.isForwarded = true) :
    ∃ f, o = .forwarded f := by
  cases o with
  | forwarded f => exact ⟨f, rfl⟩
  | _ => cases h

theorem keeps_iff_clean_request :
    ∃ f, handleHttpConnection sampleInbound 1
          (.single (firstRequest.bytes ++ cleanRequest.bytes) (by decide)) = .forwarded f ∧
      ∀ w, f.Writes w →
        Keeps (Request.Blocked relayContext) [toUtf8 "Connection: close".toList]
          [firstRequest, cleanRequest] w := by
  obtain ⟨f, hf⟩ : ∃ f, handleHttpConnection sampleInbound 1
      (.single (firstRequest.bytes ++ cleanRequest.bytes) (by decide)) = .forwarded f := by
    apply Outcome.exists_of_isForwarded
    decide +kernel
  refine ⟨f, hf, ?_⟩
  apply (keeps_iff sampleInbound 1 _ f firstRequest [cleanRequest] (by decide) hf).mpr
  intro later hmem
  obtain rfl := List.mem_singleton.mp hmem
  exact ⟨by decide +kernel, by decide +kernel⟩

/-- Behind a request for good.example, a request for the blocked 1.2.3.4 is written to
the server of good.example, with the credentials for the proxy in it. -/
theorem second_request_leaks :
    blockedRequest.Blocked relayContext ∧
      toUtf8 credentials.toList <:+: blockedRequest.bytes ∧
      ∃ f, handleHttpConnection sampleInbound 1
            (.single (firstRequest.bytes ++ blockedRequest.bytes) (by decide)) = .forwarded f ∧
        ∃ w, f.Writes w ∧ blockedRequest.bytes <:+ w ∧
          ¬ Keeps (Request.Blocked relayContext) [toUtf8 "Connection: close".toList]
            [firstRequest, blockedRequest] w := by
  have hblocked : blockedRequest.Blocked relayContext := by decide +kernel
  refine ⟨hblocked, by decide, ?_⟩
  obtain ⟨f, hf⟩ : ∃ f, handleHttpConnection sampleInbound 1
      (.single (firstRequest.bytes ++ blockedRequest.bytes) (by decide)) = .forwarded f := by
    apply Outcome.exists_of_isForwarded
    decide +kernel
  have hbytes : (ByteStream.single (firstRequest.bytes ++ blockedRequest.bytes) (by decide)).bytes =
      firstRequest.bytes ++ blockedRequest.bytes := by decide
  obtain ⟨-, line, headers, hhead, -, hclient⟩ := forwarded_spec hbytes hf
  refine ⟨f, hf, f.client.bytes, writes_iff.mpr (List.prefix_refl _), ?_, ?_⟩
  · rw [hclient]
    exact List.suffix_append _ _
  · rw [hclient, keeps_cons_iff hhead]
    rintro ⟨-, hkeeps⟩
    have hall : Keeps (Request.Blocked relayContext) [] [blockedRequest]
        ([blockedRequest].flatMap Request.bytes) := hkeeps
    exact ((keeps_bytes_iff _).mp hall blockedRequest (List.mem_singleton_self _)).1 hblocked

end Http

end Elise
