/-
Elise/Transport/HostPolicy.lean

Hosts and paths of requests over HTTP/1.1 and over HTTP/2 (src/transport/h2.rs and xhttp.rs).

Both transports look at the path in the same way (`pathAccepted`).  The host is looked at by
four pieces of code.  Over HTTP/1.1 it ends at its first colon; the authority of a request over HTTP/2
keeps an IPv6 address in its brackets, and then fits no configured host.  The old HTTP/2
transport accepts a request without a host, or compares letters as they are, only over HTTP/1.1.
`variants_agree_iff` says on which requests the two versions agree all the same.
-/
import Elise.Lib.Authority
import Elise.Lib.LetterCase
import Elise.Transport.RequestHead

namespace Elise

namespace Transport

namespace HttpHead

open Text

/-! ### Requests in frames -/

/-- The path, the authority, and the first header `host` (crates `h2` and `http`). -/
structure FramedRequest where
  path : List Char
  authority : Option Uri.Parsed
  host : Option (List UInt8)

/-- `HeaderValue::to_str`. -/
def toStr (value : List UInt8) : Option (List Char) :=
  if value.all fun b => b = 9 || 32 ≤ b && b < 127 then fromUtf8 value else none

/-- The host that is looked at. -/
def FramedRequest.requestHost (request : FramedRequest) : Option (List Char) :=
  (request.authority.map (·.host)).or ((request.host.bind toStr).map beforeColon)

def validateH2Path (path configPath : List Char) : Bool := pathAccepted configPath path

def effectiveHosts (hosts : List (List Char)) : List (List Char) := hosts.filter fun h => !(trim h).isEmpty

def validateH2Host (request : FramedRequest) (hosts : List (List Char)) : Bool :=
  if !(effectiveHosts hosts).isEmpty then
    match request.requestHost with
    | some cleanReq => (effectiveHosts hosts).any fun h => eqIgnoreAsciiCase (beforeColon h) cleanReq
    | none => false
  else true

/-- What `apply_h2_framed` says to a request. -/
def Http2TransportConfig.checkFramed (config : Http2TransportConfig) (request : FramedRequest) :
    Except HeadError Unit :=
  if !validateH2Path request.path config.path then
    .error ⟨.notFound, "Legacy H2 path mismatch: expected '".toList ++ config.path ++
      "', got '".toList ++ request.path ++ "'".toList⟩
  else if !validateH2Host request config.host then .error ⟨.notFound, "Legacy H2 host mismatch".toList⟩
  else .ok ()

/-- What `apply_xhttp_h2` says to a request. -/
def XHttpTransportConfig.checkFramed (config : XHttpTransportConfig) (request : FramedRequest) :
    Except HeadError Unit :=
  if !pathAccepted config.path request.path then
    .error ⟨.notFound, "XHTTP path mismatch: expected prefix '".toList ++ config.path ++
      "', got '".toList ++ request.path ++ "'".toList⟩
  else
    match config.host with
    | none => .ok ()
    | some expectedHost =>
        let cleanExpected := trim expectedHost
        if cleanExpected.isEmpty then .ok ()
        else
          match request.requestHost with
          | none => .ok ()
          | some cleanReq =>
              if eqIgnoreAsciiCase cleanReq (beforeColon cleanExpected) then .ok ()
              else .error ⟨.notFound, "XHTTP host mismatch: expected '".toList ++ expectedHost ++
                "', got '".toList ++ cleanReq ++ "'".toList⟩

/-! ### One request, twice -/

/-- Where a request over HTTP/2 has its host. -/
inductive HostField where
  | authority
  | header
  deriving DecidableEq

/-- The request over HTTP/2; `uri` reads authorities. -/
def framed (uri : List Char → Option Uri.Parsed) (field : HostField) (path : List Char)
    (host : Option Uri.Authority) : FramedRequest :=
  match field with
  | .authority => ⟨path, host.bind fun a => uri a.text, none⟩
  | .header => ⟨path, none, host.map fun a => toUtf8 a.text⟩

/-- The lines are a head over HTTP/1.1 with this path and this host. -/
def Carries (lines : List (List Char)) (path : List Char) (host : Option Uri.Authority) : Prop :=
  ∃ rest, requestPath lines = .ok (path, rest) ∧ hostHeader rest = host.map Uri.Authority.text

/-- Brackets come through. -/
def Bracketed (field : HostField) (a : Uri.Authority) : Prop :=
  field = .authority ∧ ∃ chars, a.host = .ipv6 chars

/-- No host is configured or the path is refused anyway, or the host is given and is written like a
configured one, if it is like one up to case; an address in brackets is like none in front of the colon. -/
def Http2TransportConfig.Agrees (config : Http2TransportConfig) (field : HostField) (path : List Char)
    (host : Option Uri.Authority) : Prop :=
  pathAccepted config.path path = false ∨ effectiveHosts config.host = [] ∨
    ∃ a, host = some a ∧
      ((∃ h ∈ effectiveHosts config.host, beforeColon h = beforeColon a.text) → ¬ Bracketed field a) ∧
      ((∃ h ∈ effectiveHosts config.host, eqIgnoreAsciiCase (beforeColon h) (beforeColon a.text) = true) →
        ¬ Bracketed field a → ∃ h ∈ effectiveHosts config.host, beforeColon h = beforeColon a.text)

/-- The host is not an address in brackets that fits the configured host in front of the colon,
unless the path is refused anyway. -/
def XHttpTransportConfig.Agrees (config : XHttpTransportConfig) (field : HostField) (path : List Char)
    (host : Option Uri.Authority) : Prop :=
  pathAccepted config.path path = true → ∀ a ∈ host, Bracketed field a → ∀ expected ∈ config.host,
    (trim expected).isEmpty = false →
    eqIgnoreAsciiCase (beforeColon a.text) (beforeColon (trim expected)) = false

/-! ### Hosts up to the colon -/

theorem beforeColon_of_name {a : Uri.Authority} {chars : List Char} (h : a.host = .name chars) :
    beforeColon a.text = a.host.text := by
  have hvalid := a.host_valid
  rw [h] at hvalid
  rw [beforeColon, Uri.Authority.text, h]
  apply Uri.takeWhile_append_stop
  · intro c hc
    simp [Uri.ne_of_isNameChar (hvalid.2 c hc) (show Uri.isNameChar ':' = false by decide)]
  · intro c hc
    simp [a.head_port c hc]

/-- The text of an address in brackets has a colon. -/
theorem colon_mem_text {a : Uri.Authority} {chars : List Char} (h : a.host = .ipv6 chars) : ':' ∈ a.host.text := by
  have hvalid := a.host_valid
  rw [h] at hvalid
  rw [h]
  exact List.mem_cons_of_mem _ (List.mem_append_left _ hvalid.1)

theorem colon_not_mem_beforeColon (host : List Char) : ':' ∉ beforeColon host := by
  intro hmem
  have hne := List.mem_takeWhile_imp hmem
  simp at hne

/-- What ends at a colon is not like a text with a colon. -/
theorem eqIgnoreAsciiCase_beforeColon {host text : List Char} (h : ':' ∈ text) :
    eqIgnoreAsciiCase (beforeColon host) text = false := by
  rw [Bool.eq_false_iff]
  intro heq
  have hmem : Char.toLower ':' ∈ toAsciiLowercase (beforeColon host) := by
    rw [eq_of_beq heq]
    exact List.mem_map_of_mem h
  obtain ⟨c, hc, hlower⟩ := List.mem_map.mp hmem
  have halpha : c.isAlpha = false := by
    rw [← isAlpha_toLower, hlower]
    rfl
  rw [toLower_of_isAlpha halpha] at hlower
  subst hlower
  exact colon_not_mem_beforeColon host hc

theorem eqIgnoreAsciiCase_comm (cs ds : List Char) : eqIgnoreAsciiCase cs ds = eqIgnoreAsciiCase ds cs :=
  Bool.beq_comm

/-! ### Which requests are accepted -/

section Accepted

variable {uri : List Char → Option Uri.Parsed} {field : HostField} {path : List Char}
variable {lines : List (List Char)}

theorem toStr_text (a : Uri.Authority) : toStr (toUtf8 a.text) = some a.text := by
  have hvisible : ((toUtf8 a.text).all fun b => b = 9 || 32 ≤ b && b < 127) = true := by
    rw [toUtf8_ascii fun c hc => (a.isGraphic_of_mem_text c hc).2.trans_lt (by decide), List.all_eq_true]
    intro b hb
    obtain ⟨c, hc, rfl⟩ := List.mem_map.mp hb
    obtain ⟨hlow, hhigh⟩ := a.isGraphic_of_mem_text c hc
    have hbyte : (UInt8.ofNat c.toNat).toNat = c.toNat := UInt8.toNat_ofNat_of_lt' (hhigh.trans_lt (by decide))
    simp only [Bool.or_eq_true, Bool.and_eq_true, decide_eq_true_eq, UInt8.le_iff_toNat_le,
      UInt8.lt_iff_toNat_lt, hbyte]
    exact .inr ⟨(show 32 ≤ 33 by decide).trans hlow, hhigh.trans_lt (by decide)⟩
  rw [toStr, if_pos hvisible, fromUtf8_toUtf8]

theorem requestHost_none : (framed uri field path none).requestHost = none := by
  cases field <;> rfl

theorem requestHost_of_bracketed (huri : Uri.Lawful uri) {a : Uri.Authority} (h : Bracketed field a) :
    (framed uri field path (some a)).requestHost = some a.host.text := by
  obtain ⟨rfl, -⟩ := h
  simp only [FramedRequest.requestHost, framed, Option.bind_some, huri a, Option.map_some, Option.some_or]

theorem requestHost_of_not_bracketed (huri : Uri.Lawful uri) {a : Uri.Authority} (h : ¬ Bracketed field a) :
    (framed uri field path (some a)).requestHost = some (beforeColon a.text) := by
  rcases field with - | -
  · have hname : ∃ chars, a.host = .name chars := by
      rcases hhost : a.host with chars | chars
      · exact ⟨chars, rfl⟩
      · exact absurd ⟨rfl, chars, hhost⟩ h
    obtain ⟨chars, hchars⟩ := hname
    simp only [FramedRequest.requestHost, framed, Option.bind_some, huri a, Option.map_some, Option.some_or,
      beforeColon_of_name hchars]
  · simp only [FramedRequest.requestHost, framed, Option.map_none, Option.none_or, Option.map_some,
      Option.bind_some, toStr_text]

theorem path_framed (host : Option Uri.Authority) : (framed uri field path host).path = path := by
  cases field <;> rfl

theorem refuse_eq_ok_iff {b : Bool} {e : HeadError} {r : Except HeadError Unit} :
    (if b then .error e else r) = .ok () ↔ b = false ∧ r = .ok () := by
  cases b <;> simp

theorem accept_eq_ok_iff {b : Bool} {e : HeadError} {r : Except HeadError Unit} :
    (if b then r else .error e) = .ok () ↔ b = true ∧ r = .ok () := by
  cases b <;> simp

theorem Http2TransportConfig.check_iff (config : Http2TransportConfig) {host : Option Uri.Authority}
    (h : Carries lines path host) :
    config.check lines = .ok () ↔ pathAccepted config.path path = true ∧
      (effectiveHosts config.host = [] ∨
        ∀ a ∈ host, ∃ h ∈ effectiveHosts config.host, beforeColon h = beforeColon a.text) := by
  obtain ⟨rest, hpath, hhost⟩ := h
  have heff : (config.host.filter fun h => !(trim h).isEmpty) = effectiveHosts config.host := rfl
  rw [check, hpath]
  simp only [hhost, heff]
  rw [refuse_eq_ok_iff, Bool.not_eq_false']
  apply and_congr_right'
  rcases he : effectiveHosts config.host with - | ⟨h₀, hs⟩
  · exact ⟨fun _ => .inl rfl, fun _ => rfl⟩
  · rw [if_neg (by simp), or_iff_right (List.cons_ne_nil _ _)]
    rcases host with - | a
    · exact ⟨fun _ a ha => absurd ha (Option.not_mem_none a), fun _ => rfl⟩
    · show (if (h₀ :: hs).any (fun h => beforeColon h == beforeColon a.text) then _ else _) = _ ↔ _
      rw [accept_eq_ok_iff, List.any_eq_true]
      constructor
      · rintro ⟨⟨h, hmem, heq⟩, -⟩ a' ha'
        obtain rfl := Option.some.inj ha'
        exact ⟨h, hmem, eq_of_beq heq⟩
      · intro hall
        obtain ⟨h, hmem, heq⟩ := hall a rfl
        exact ⟨⟨h, hmem, beq_iff_eq.mpr heq⟩, rfl⟩

theorem Http2TransportConfig.checkFramed_iff (config : Http2TransportConfig) (request : FramedRequest) :
    config.checkFramed request = .ok () ↔ pathAccepted config.path request.path = true ∧
      (effectiveHosts config.host = [] ∨ ∃ name, request.requestHost = some name ∧
        ∃ h ∈ effectiveHosts config.host, eqIgnoreAsciiCase (beforeColon h) name = true) := by
  have hhost : validateH2Host request config.host = true ↔ effectiveHosts config.host = [] ∨
      ∃ name, request.requestHost = some name ∧
        ∃ h ∈ effectiveHosts config.host, eqIgnoreAsciiCase (beforeColon h) name = true := by
    rw [validateH2Host]
    rcases he : effectiveHosts config.host with - | ⟨h₀, hs⟩
    · exact ⟨fun _ => .inl rfl, fun _ => rfl⟩
    · rw [or_iff_right (List.cons_ne_nil _ _)]
      rcases request.requestHost with - | name
      · exact ⟨fun h => (nomatch h), fun ⟨_, h, _⟩ => (nomatch h)⟩
      · show (h₀ :: hs).any (fun h => eqIgnoreAsciiCase (beforeColon h) name) = true ↔ _
        rw [List.any_eq_true]
        constructor
        · exact fun h => ⟨name, rfl, h⟩
        · rintro ⟨_, ⟨⟩, h⟩
          exact h
  rw [checkFramed, refuse_eq_ok_iff, refuse_eq_ok_iff, Bool.not_eq_false', Bool.not_eq_false', hhost,
    and_iff_left rfl]
  rfl

theorem XHttpTransportConfig.check_iff (config : XHttpTransportConfig) {host : Option Uri.Authority}
    (h : Carries lines path host) :
    config.check lines = .ok () ↔ pathAccepted config.path path = true ∧
      ∀ expected ∈ config.host, (trim expected).isEmpty = false →
        ∀ a ∈ host, eqIgnoreAsciiCase (beforeColon a.text) (beforeColon (trim expected)) = true := by
  obtain ⟨rest, hpath, hhost⟩ := h
  rw [check, hpath]
  simp only [hhost]
  rw [refuse_eq_ok_iff, Bool.not_eq_false']
  apply and_congr_right'
  rcases config.host with - | expected
  · exact ⟨fun _ expected h => absurd h (Option.not_mem_none expected), fun _ => rfl⟩
  · simp only [Option.mem_some_iff, forall_eq']
    rcases he : (trim expected).isEmpty with - | -
    · rcases host with - | a
      · exact ⟨fun _ _ a ha => absurd ha (Option.not_mem_none a), fun _ => rfl⟩
      · simp only [Option.map_some, Bool.false_eq_true, if_false, Option.mem_some_iff, forall_eq', forall_const]
        rw [accept_eq_ok_iff, and_iff_left rfl]
    · exact ⟨fun _ h => absurd h.symm Bool.false_ne_true, fun _ => rfl⟩

theorem XHttpTransportConfig.checkFramed_iff (config : XHttpTransportConfig) (request : FramedRequest) :
    config.checkFramed request = .ok () ↔ pathAccepted config.path request.path = true ∧
      ∀ expected ∈ config.host, (trim expected).isEmpty = false →
        ∀ name ∈ request.requestHost, eqIgnoreAsciiCase name (beforeColon (trim expected)) = true := by
  rw [checkFramed, refuse_eq_ok_iff, Bool.not_eq_false']
  apply and_congr_right'
  rcases config.host with - | expected
  · exact ⟨fun _ expected h => (nomatch h), fun _ => rfl⟩
  · simp only [Option.mem_some_iff, forall_eq']
    rcases he : (trim expected).isEmpty with - | -
    · rcases request.requestHost with - | name
      · exact ⟨fun _ _ a ha => (nomatch ha), fun _ => rfl⟩
      · simp only [Bool.false_eq_true, if_false, Option.mem_some_iff, forall_eq', forall_const]
        rw [accept_eq_ok_iff, and_iff_left rfl]
    · exact ⟨fun _ h => (nomatch h), fun _ => rfl⟩

end Accepted

/-! ### Where they agree -/

theorem Http2TransportConfig.agrees_iff (config : Http2TransportConfig)
    {uri : List Char → Option Uri.Parsed} (huri : Uri.Lawful uri) (field : HostField) {path : List Char}
    {host : Option Uri.Authority} {lines : List (List Char)} (h : Carries lines path host) :
    (config.check lines = .ok () ↔ config.checkFramed (framed uri field path host) = .ok ()) ↔
      config.Agrees field path host := by
  rw [config.check_iff h, config.checkFramed_iff, path_framed, Agrees]
  rcases hp : pathAccepted config.path path with - | -
  · simp only [Bool.false_eq_true, false_and, true_or]
  · simp only [true_and, Bool.true_eq_false, false_or]
    by_cases he : effectiveHosts config.host = []
    · simp only [he, true_or]
    · simp only [he, false_or]
      rcases host with - | a
      · simp [requestHost_none]
      · simp only [Option.mem_some_iff, forall_eq', Option.some.injEq, exists_eq_left']
        have hexact : ∀ {h : List Char}, beforeColon h = beforeColon a.text →
            eqIgnoreAsciiCase (beforeColon h) (beforeColon a.text) = true := by
          intro h heq
          rw [heq]
          exact beq_self_eq_true _
        by_cases hb : Bracketed field a
        · obtain ⟨-, chars, hchars⟩ := id hb
          simp only [requestHost_of_bracketed huri hb, Option.some.injEq, exists_eq_left',
            eqIgnoreAsciiCase_beforeColon (colon_mem_text hchars)]
          simp [hb]
        · simp only [requestHost_of_not_bracketed huri hb, Option.some.injEq, exists_eq_left']
          constructor
          · exact fun hiff => ⟨fun _ => hb, fun hlike _ => hiff.mpr hlike⟩
          · rintro ⟨-, hlike⟩
            exact ⟨fun ⟨h, hmem, heq⟩ => ⟨h, hmem, hexact heq⟩, fun h => hlike h hb⟩

theorem XHttpTransportConfig.agrees_iff (config : XHttpTransportConfig)
    {uri : List Char → Option Uri.Parsed} (huri : Uri.Lawful uri) (field : HostField) {path : List Char}
    {host : Option Uri.Authority} {lines : List (List Char)} (h : Carries lines path host) :
    (config.check lines = .ok () ↔ config.checkFramed (framed uri field path host) = .ok ()) ↔
      config.Agrees field path host := by
  rw [config.check_iff h, config.checkFramed_iff, path_framed, Agrees]
  rcases hp : pathAccepted config.path path with - | -
  · simp
  · simp only [true_and, forall_const]
    rcases host with - | a
    · simp [requestHost_none]
    · simp only [Option.mem_some_iff, forall_eq']
      by_cases hb : Bracketed field a
      · obtain ⟨-, chars, hchars⟩ := id hb
        have hnever : ∀ expected : List Char,
            eqIgnoreAsciiCase a.host.text (beforeColon (trim expected)) = false := by
          intro expected
          rw [eqIgnoreAsciiCase_comm]
          exact eqIgnoreAsciiCase_beforeColon (colon_mem_text hchars)
        simp only [requestHost_of_bracketed huri hb, Option.mem_some_iff, forall_eq', hnever, hb, forall_const]
        rcases config.host with - | expected
        · simp
        · simp only [Option.mem_some_iff, forall_eq']
          rcases (trim expected).isEmpty with - | -
          · cases eqIgnoreAsciiCase (beforeColon a.text) (beforeColon (trim expected)) <;> simp
          · simp
      · simp only [requestHost_of_not_bracketed huri hb, Option.mem_some_iff, forall_eq', hb, false_imp_iff]

/-- Both versions of each transport accept the same requests exactly on these. -/
theorem variants_agree_iff {uri : List Char → Option Uri.Parsed} (huri : Uri.Lawful uri) (field : HostField)
    {path : List Char} {host : Option Uri.Authority} {lines : List (List Char)} (h : Carries lines path host) :
    (∀ config : Http2TransportConfig,
        (config.check lines = .ok () ↔ config.checkFramed (framed uri field path host) = .ok ()) ↔
          config.Agrees field path host) ∧
      ∀ config : XHttpTransportConfig,
        (config.check lines = .ok () ↔ config.checkFramed (framed uri field path host) = .ok ()) ↔
          config.Agrees field path host :=
  ⟨fun config => config.agrees_iff huri field h, fun config => config.agrees_iff huri field h⟩

/-! ### A request for EXAMPLE.com -/

theorem noPort_digits : ∀ p ∈ (none : Option (List Char)), p ≠ [] ∧ ∀ c ∈ p, c.isDigit = true := by simp

theorem noPort_range : ∀ p ∈ (none : Option (List Char)),
    0 < Nat.ofDigitChars 10 p 0 ∧ Nat.ofDigitChars 10 p 0 ≤ 65535 := by simp

def exampleAuthority : Uri.Authority where
  host := .name "EXAMPLE.com".toList
  port := none
  host_valid := ⟨by decide, List.all_eq_true.mp (by decide)⟩
  port_digits := noPort_digits
  port_range := noPort_range

def exampleLines : List (List Char) := ["GET /ray HTTP/1.1".toList, "Host: EXAMPLE.com".toList]

theorem exampleLines_carries : Carries exampleLines "/ray".toList (some exampleAuthority) :=
  ⟨["Host: EXAMPLE.com".toList], by decide +kernel, by decide +kernel⟩

def exampleConfig : Http2TransportConfig := ⟨["example.com".toList], "/ray".toList⟩

/-- Spelled as in the configuration it is accepted by both. -/
theorem variants_agree_iff_spelled :
    (Http2TransportConfig.check ⟨["EXAMPLE.com:443".toList], "/ray".toList⟩ exampleLines = .ok () ↔
      Http2TransportConfig.checkFramed ⟨["EXAMPLE.com:443".toList], "/ray".toList⟩
        (framed Uri.read .authority "/ray".toList (some exampleAuthority)) = .ok ()) := by
  apply ((variants_agree_iff Uri.read_lawful .authority exampleLines_carries).1 _).mpr
  refine .inr (.inr ⟨exampleAuthority, rfl, ?_, ?_⟩)
  · rintro - ⟨-, chars, hchars⟩
    cases hchars
  · intro _ _
    exact ⟨"EXAMPLE.com:443".toList, by decide +kernel, by decide +kernel⟩

/-- The letters of the host make a difference over HTTP/1.1 only, and there no host is needed. -/
theorem variants_differ :
    (exampleConfig.check exampleLines ≠ .ok () ∧
      exampleConfig.checkFramed (framed Uri.read .authority "/ray".toList (some exampleAuthority)) = .ok ()) ∧
      exampleConfig.check ["GET /ray HTTP/1.1".toList] = .ok () ∧
        exampleConfig.checkFramed (framed Uri.read .authority "/ray".toList none) ≠ .ok () := by
  decide +kernel

end HttpHead

end Transport

end Elise
