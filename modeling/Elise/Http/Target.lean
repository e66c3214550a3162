/-
Elise/Http/Target.lean

Where requests of the HTTP proxy go (`handle_connect` in src/protocol/http/connect.rs and
`handle_forward` in forward.rs).

A tunnel is asked for with an authority, which the crate `http` reads; what is forwarded is asked
for with a URI, whose authority is cut off by hand.  The two come to the same target, the path and
the query are kept and the header `Host` says the same exactly where `goesWhereAsked_iff` says so:
the authority is no address in brackets, the query is not without a path, and the client sends no
other host along.
-/
import Elise.Http.Keeping
import Elise.Lib.Authority

namespace Elise

namespace Http

open Text

/-! ### The two handlers -/

section Handlers

variable (env : Matching) (uri : List Char → Option Uri.Parsed)

/-- What a tunnel is opened to; `uri` reads authorities. -/
def connectTarget (target : List Char) : Except String Target :=
  match uri target with
  | none => .error "Invalid CONNECT authority"
  | some authority =>
      match authority.port.filter fun p => 0 < p with
      | none => .error "CONNECT requires a valid port"
      | some port =>
          let host := (authority.host.dropWhile (· = '[')).rdropWhile (· = ']')
          .ok ⟨host, env.parseIp host, port⟩

/-- What a request is forwarded to, and the path that is asked for there. -/
def forwardTarget (target : List Char) (headers : Headers) : Option (Target × List Char) :=
  (parseTargetAndPath target (hostHeader headers)).map fun (host, port, path) =>
    (⟨host, env.parseIp host, port⟩, path)

variable {env} (inbound : Inbound env) (client : ByteStream) (user : PanelUser)

/-- The end of both handlers. -/
def relayed (target : Target) (pre : List UInt8) : Outcome :=
  match relay inbound.ctx target inbound.roll pre with
  | none => .answered resp502BadGateway
  | some call =>
      if inbound.dial call then .forwarded ⟨call, user.id, .new client (some pre), inbound.tcpTimeout⟩
      else .answered resp502BadGateway

/-- A client whose tunnel is open is told so before anything is relayed. -/
def handleConnect (target : List Char) (leftover : List UInt8) : Outcome :=
  match connectTarget env uri target with
  | .error message => .refused message
  | .ok target => relayed inbound client user target leftover

theorem handleForward_eq (method target version : List Char) (headers : Headers) (leftover : List UInt8) :
    handleForward inbound client method target version headers leftover user =
      match forwardTarget env target headers with
      | none => .answered resp502BadGateway
      | some (dest, path) =>
          relayed inbound client user dest
            (rewrittenReq (rewrittenLines method path version headers dest.host dest.port) ++ leftover) := by
  rw [handleForward, forwardTarget]
  rcases parseTargetAndPath target (hostHeader headers) with - | ⟨host, port, path⟩
  · rfl
  · rfl

end Handlers

/-! ### Requests in absolute form -/

/-- The URI in the first line of a request that is forwarded. -/
structure AbsoluteForm where
  authority : Uri.Authority
  path : List Char
  query : Option (List Char)
  path_slash : path = [] ∨ path.head? = some '/'
  path_graphic : ∀ c ∈ path, IsGraphic c ∧ c ≠ '?'
  query_graphic : ∀ q ∈ query, ∀ c ∈ q, IsGraphic c

namespace AbsoluteForm

variable (a : AbsoluteForm)

def queryText : List Char := (a.query.map ('?' :: ·)).getD []

def text : List Char := "http://".toList ++ (a.authority.text ++ (a.path ++ a.queryText))

/-- What is asked for at the server. -/
def pathAndQuery : List Char := (if a.path = [] then ['/'] else a.path) ++ a.queryText

end AbsoluteForm

/-- The same authority, with a port. -/
def withDefaultPort (a : Uri.Authority) : Uri.Authority := a.withPort ['8', '0'] ⟨by decide, by simp⟩ (by decide)

/-- The values of the headers `Host`. -/
def hostValues (headers : Headers) : List (List Char) :=
  (headers.filter fun h => eqIgnoreAsciiCase h.1 "host".toList).map Prod.snd

/-- A value of `Host` that names the authority: the host up to case, and the port. -/
def Names (value : List Char) (a : Uri.Authority) : Prop :=
  ∃ b : Uri.Authority, value = b.text ∧ eqIgnoreAsciiCase b.host.text a.host.text = true ∧
    b.portNumber.getD 80 = a.portNumber.getD 80

/-- A request goes where its URI says: to the target of a tunnel to the same authority, with the path and
the query in its first line, and with this host alone. -/
def GoesWhereAsked (env : Matching) (uri : List Char → Option Uri.Parsed) (a : AbsoluteForm)
    (method version : List Char) (headers : Headers) : Prop :=
  ∃ target path, forwardTarget env a.text headers = some (target, path) ∧
    connectTarget env uri (withDefaultPort a.authority).text = .ok target ∧
    let lines := rewrittenLines method path version headers target.host target.port
    lines.head? = some (method ++ ' ' :: a.pathAndQuery ++ ' ' :: version) ∧
      ∃ value, hostValues (lines.tail.filterMap headerIn) = [value] ∧ Names value a.authority

/-! ### Texts -/

theorem trim_of_blankless {cs : List Char} (h : ∀ c ∈ cs, isWhitespace c = false) : trim cs = cs := by
  have hfront : cs.dropWhile isWhitespace = cs := by
    apply List.dropWhile_eq_self_iff.mpr
    intro hpos
    rw [h _ (List.getElem_mem hpos)]
    exact Bool.false_ne_true
  rw [trim, trimMatches, hfront, List.rdropWhile_eq_self_iff]
  intro hne
  rw [h _ (List.getLast_mem hne)]
  exact Bool.false_ne_true

/-- What is no digit is in no number. -/
theorem parseU16_eq_none {cs : List Char} {c : Char} (hmem : c ∈ cs) (hplus : c ≠ '+') (hdigit : c.isDigit = false) :
    parseU16 cs = none := by
  have hkept : c ∈ dropPlus cs := by
    unfold dropPlus
    split
    · rcases List.mem_cons.mp hmem with rfl | hmem
      · exact absurd rfl hplus
      · exact hmem
    · exact hmem
  have hall : (dropPlus cs).all Char.isDigit = false := by
    rw [List.all_eq_false]
    exact ⟨c, hkept, by simp [hdigit]⟩
  rw [parseU16, parseUnsigned, hall, Bool.not_false, Bool.or_true, if_pos rfl]
  rfl

theorem splitLast_append {c : Char} {after : List Char} (h : c ∉ after) (before : List Char) :
    splitLast c (before ++ c :: after) = some (before, after) := by
  have hback : (before ++ c :: after).reverse = after.reverse ++ c :: before.reverse := by simp
  rw [splitLast, hback, splitOnce_append (by simpa using h)]
  simp

theorem splitLast_eq_some {c : Char} {cs before after : List Char} (h : splitLast c cs = some (before, after)) :
    cs = before ++ c :: after ∧ c ∉ after := by
  obtain ⟨⟨left, right⟩, hsplit, heq⟩ := Option.map_eq_some_iff.mp h
  obtain ⟨rfl, rfl⟩ := Prod.mk.inj heq
  obtain ⟨hcs, hmem⟩ := splitOnce_eq_some hsplit
  refine ⟨?_, by simpa using hmem⟩
  rw [← List.reverse_reverse cs, hcs]
  simp

theorem splitLast_eq_none {c : Char} {cs : List Char} (h : c ∉ cs) : splitLast c cs = none := by
  rcases hsplit : splitLast c cs with - | ⟨before, after⟩
  · rfl
  · rw [(splitLast_eq_some hsplit).1] at h
    exact absurd (List.mem_append_right _ List.mem_cons_self) h

/-! ### Tunnels -/

section Targets

variable {env : Matching} {uri : List Char → Option Uri.Parsed} {headers : Headers}

theorem strip_host {host : Uri.Host} (hvalid : host.Valid) :
    (host.text.dropWhile (· = '[')).rdropWhile (· = ']') = host.bare := by
  have hback : ∀ {cs : List Char}, (∀ c ∈ cs, c ≠ ']') → cs.rdropWhile (· = ']') = cs := by
    intro cs hcs
    rw [List.rdropWhile_eq_self_iff]
    intro hne
    simpa using hcs _ (List.getLast_mem hne)
  rcases host with chars | chars
  · obtain ⟨hne, hchars⟩ := hvalid
    obtain ⟨c, rest, rfl⟩ := List.exists_cons_of_ne_nil hne
    have hc : c ≠ '[' := Uri.ne_of_isNameChar (hchars c List.mem_cons_self) (by decide)
    show ((c :: rest).dropWhile (· = '[')).rdropWhile (· = ']') = c :: rest
    rw [List.dropWhile_cons_of_neg (by simpa using hc)]
    exact hback fun d hd => Uri.ne_of_isNameChar (hchars d hd) (by decide)
  · obtain ⟨hcolon, hchars⟩ := hvalid
    obtain ⟨c, rest, rfl⟩ := List.exists_cons_of_ne_nil (List.ne_nil_of_mem hcolon)
    have hc : c ≠ '[' := Uri.ne_of_isIpv6Char (hchars c List.mem_cons_self) (by decide)
    show (('[' :: (c :: rest ++ [']'])).dropWhile (· = '[')).rdropWhile (· = ']') = c :: rest
    rw [List.dropWhile_cons_of_pos (by simp), List.cons_append, List.dropWhile_cons_of_neg (by simpa using hc),
      ← List.cons_append, List.rdropWhile_concat_pos _ _ _ (by simp)]
    exact hback fun d hd => Uri.ne_of_isIpv6Char (hchars d hd) (by decide)

theorem portNumber_withDefaultPort (a : Uri.Authority) :
    (withDefaultPort a).portNumber = some (a.portNumber.getD 80) := by
  rw [Uri.Authority.portNumber, Uri.Authority.portNumber]
  show some (UInt16.ofNat (Nat.ofDigitChars 10 (a.port.getD ['8', '0']) 0)) = _
  rcases a.port with - | digits <;> rfl

theorem portNumber_pos (a : Uri.Authority) : 0 < a.portNumber.getD 80 := by
  rw [Uri.Authority.portNumber]
  rcases hport : a.port with - | digits
  · decide
  · obtain ⟨hpos, hle⟩ := a.port_range digits hport
    rw [Option.map_some, Option.getD_some, UInt16.lt_iff_toNat_lt, UInt16.toNat_ofNat_of_lt' (hle.trans_lt (by decide))]
    exact hpos

theorem connectTarget_withDefaultPort (huri : Uri.Lawful uri) (a : Uri.Authority) :
    connectTarget env uri (withDefaultPort a).text =
      .ok ⟨a.host.bare, env.parseIp a.host.bare, a.portNumber.getD 80⟩ := by
  have hhost : (withDefaultPort a).host = a.host := rfl
  rw [connectTarget, huri, portNumber_withDefaultPort, hhost]
  simp only [Option.filter_some, decide_eq_true (portNumber_pos a), if_true, strip_host a.host_valid]

/-! ### Requests that are forwarded -/

variable (a : AbsoluteForm)

theorem isGraphic_of_mem_queryText : ∀ c ∈ a.queryText, IsGraphic c := by
  intro c hc
  rcases hquery : a.query with - | q
  · rw [AbsoluteForm.queryText, hquery] at hc
    cases hc
  · rw [AbsoluteForm.queryText, hquery] at hc
    rcases List.mem_cons.mp hc with rfl | hc
    · decide
    · exact a.query_graphic q hquery c hc

theorem trim_text : trim a.text = a.text := by
  have hscheme : ∀ c ∈ "http://".toList, IsGraphic c := by simp [IsGraphic]
  apply trim_of_blankless
  intro c hc
  apply isWhitespace_of_isGraphic
  rcases List.mem_append.mp hc with hc | hc
  · exact hscheme c hc
  · rcases List.mem_append.mp hc with hc | hc
    · exact a.authority.isGraphic_of_mem_text c hc
    · rcases List.mem_append.mp hc with hc | hc
      · exact (a.path_graphic c hc).1
      · exact isGraphic_of_mem_queryText a c hc

/-- What is read of a URI behind its scheme. -/
theorem parseTargetAndPath_text (hostHeader : Option (List Char)) :
    parseTargetAndPath a.text hostHeader =
      let stripped := a.authority.text ++ (a.path ++ a.queryText)
      let authority := stripped.takeWhile (· ≠ '/')
      let path := if '/' ∈ stripped then stripped.dropWhile (· ≠ '/') else ['/']
      match splitLast ':' authority with
      | some (h, p) => (parseU16 p).map fun port => (h, port, path)
      | none => some (authority, 80, path) := by
  have hscheme : "http://".toList.isPrefixOf? a.text = some (a.authority.text ++ (a.path ++ a.queryText)) :=
    List.isPrefixOf?_eq_some_iff_append_eq.mpr rfl
  simp only [parseTargetAndPath, trim_text]
  exact hscheme ▸ rfl

/-- The authority of a URI is cut off where it ends, unless a query follows it. -/
theorem cut_text (h : a.path = [] → a.query = none) :
    (a.authority.text ++ (a.path ++ a.queryText)).takeWhile (· ≠ '/') = a.authority.text ∧
      (if '/' ∈ a.authority.text ++ (a.path ++ a.queryText) then
        (a.authority.text ++ (a.path ++ a.queryText)).dropWhile (· ≠ '/') else ['/']) = a.pathAndQuery := by
  have hauthority : ∀ c ∈ a.authority.text, decide (c ≠ '/') = true :=
    fun c hc => decide_eq_true (Uri.ne_of_isAuthorityChar (a.authority.isAuthorityChar_of_mem_text c hc) (by decide))
  rcases a.path_slash with hpath | hpath
  · have hquery : a.queryText = [] := by
      rw [AbsoluteForm.queryText, h hpath]
      rfl
    rw [AbsoluteForm.pathAndQuery, hpath, hquery, List.append_nil, List.append_nil, if_neg]
    · exact ⟨List.takeWhile_eq_self_iff.mpr hauthority, rfl⟩
    · intro hmem
      exact Uri.ne_of_isAuthorityChar (a.authority.isAuthorityChar_of_mem_text _ hmem) (by decide) rfl
  · obtain ⟨rest, hrest⟩ := List.head?_eq_some_iff.mp hpath
    have hne : a.path ≠ [] := by
      rw [hrest]
      exact List.cons_ne_nil _ _
    rw [AbsoluteForm.pathAndQuery, if_neg hne, hrest, List.takeWhile_append_of_pos hauthority,
      List.dropWhile_append_of_pos hauthority, if_pos (by simp)]
    simp

theorem forwardTarget_of_name {chars : List Char} (hname : a.authority.host = .name chars)
    (h : a.path = [] → a.query = none) :
    forwardTarget env a.text headers =
      some (⟨chars, env.parseIp chars, a.authority.portNumber.getD 80⟩, a.pathAndQuery) := by
  have hvalid := a.authority.host_valid
  rw [hname] at hvalid
  have hcolon : ':' ∉ chars := fun hmem => Uri.ne_of_isNameChar (hvalid.2 _ hmem) (by decide) rfl
  obtain ⟨hcut, hpath⟩ := cut_text a h
  rw [forwardTarget, parseTargetAndPath_text]
  simp only [hcut, hpath]
  have htext : a.authority.text = chars ++ (a.authority.port.map (':' :: ·)).getD [] := by
    rw [Uri.Authority.text, hname]
    rfl
  rw [htext, Uri.Authority.portNumber]
  rcases hport : a.authority.port with - | digits
  · simp only [Option.map_none, Option.getD_none, List.append_nil, splitLast_eq_none hcolon, Option.map_some]
  · obtain ⟨hne, hdigits⟩ := a.authority.port_digits digits hport
    have hlast : ':' ∉ digits := fun hmem => Uri.ne_of_isDigit (hdigits _ hmem) (by decide) rfl
    simp only [Option.map_some, Option.getD_some, splitLast_append hlast, parseU16,
      parseUnsigned_digits hne hdigits, if_pos (a.authority.port_range digits hport).2]

/-- The host of what a request is forwarded to is cut off at a colon, or all that is before the first slash. -/
theorem host_of_forwardTarget {target : Target} {path : List Char}
    (h : forwardTarget env a.text headers = some (target, path)) :
    let authority := (a.authority.text ++ (a.path ++ a.queryText)).takeWhile (· ≠ '/')
    target.host = authority ∨ ∃ p port, authority = target.host ++ ':' :: p ∧ parseU16 p = some port := by
  rw [forwardTarget, parseTargetAndPath_text, Option.map_eq_some_iff] at h
  obtain ⟨⟨host, port, path'⟩, hparse, heq⟩ := h
  obtain ⟨rfl, -⟩ := Prod.mk.inj heq
  dsimp only at hparse ⊢
  split at hparse
  · rename_i h p hlast
    obtain ⟨value, hvalue, heq⟩ := Option.map_eq_some_iff.mp hparse
    obtain ⟨rfl, -⟩ := Prod.mk.inj heq
    exact .inr ⟨p, value, (splitLast_eq_some hlast).1, hvalue⟩
  · obtain ⟨rfl, -⟩ := Prod.mk.inj (Option.some.inj hparse)
    exact .inl rfl

theorem head_bare {host : Uri.Host} (hvalid : host.Valid) : ∀ c ∈ host.bare, c ≠ '[' ∧ c ≠ '?' := by
  intro c hc
  rcases host with chars | chars
  · exact ⟨Uri.ne_of_isNameChar (hvalid.2 c hc) (by decide), Uri.ne_of_isNameChar (hvalid.2 c hc) (by decide)⟩
  · exact ⟨Uri.ne_of_isIpv6Char (hvalid.2 c hc) (by decide), Uri.ne_of_isIpv6Char (hvalid.2 c hc) (by decide)⟩

/-- An address in brackets is forwarded to with its brackets. -/
theorem bracket_mem_host {chars : List Char} (hhost : a.authority.host = .ipv6 chars) {target : Target}
    {path : List Char} (h : forwardTarget env a.text headers = some (target, path)) : '[' ∈ target.host := by
  have hcut : ∃ rest, (a.authority.text ++ (a.path ++ a.queryText)).takeWhile (· ≠ '/') = '[' :: rest := by
    rw [Uri.Authority.text, hhost]
    exact ⟨_, List.takeWhile_cons_of_pos (by decide)⟩
  obtain ⟨rest, hrest⟩ := hcut
  rcases host_of_forwardTarget a h with hall | ⟨p, port, hcolon, -⟩
  · rw [hall, hrest]
    exact List.mem_cons_self
  · rw [hrest] at hcolon
    rcases hnil : target.host with - | ⟨c, cs⟩
    · rw [hnil] at hcolon
      exact absurd (List.cons.inj hcolon).1 (by decide)
    · rw [hnil] at hcolon
      rw [(List.cons.inj hcolon).1]
      exact List.mem_cons_self

/-- A query that follows the authority is taken for a part of the host. -/
theorem question_mem_host {q : List Char} (hpath : a.path = []) (hquery : a.query = some q) {target : Target}
    {path : List Char} (h : forwardTarget env a.text headers = some (target, path)) : '?' ∈ target.host := by
  have hcut : '?' ∈ (a.authority.text ++ (a.path ++ a.queryText)).takeWhile (· ≠ '/') := by
    have hauthority : ∀ c ∈ a.authority.text, decide (c ≠ '/') = true :=
      fun c hc => decide_eq_true (Uri.ne_of_isAuthorityChar (a.authority.isAuthorityChar_of_mem_text c hc) (by decide))
    rw [AbsoluteForm.queryText, hpath, hquery, List.takeWhile_append_of_pos hauthority]
    exact List.mem_append_right _ (by simp)
  rcases host_of_forwardTarget a h with hall | ⟨p, port, hcolon, hport⟩
  · rw [hall]
    exact hcut
  · rw [hcolon] at hcut
    rcases List.mem_append.mp hcut with hmem | hmem
    · exact hmem
    · rcases List.mem_cons.mp hmem with heq | hmem
      · exact absurd heq (by decide)
      · rw [parseU16_eq_none hmem (by decide) (by decide)] at hport
        cases hport

/-! ### The header `Host` -/

theorem trim_blank (cs : List Char) : trim (' ' :: cs) = trim cs := by
  rw [trim, trimMatches, List.dropWhile_cons_of_pos (by decide)]
  rfl

/-- A header that has been read is read again where it is written. -/
theorem headerIn_written {h : List Char × List Char} {line : List Char} (hread : headerIn line = some h) :
    headerIn (h.1 ++ ": ".toList ++ h.2) = some h := by
  obtain ⟨hcolon, hname, -⟩ := of_headerIn hread
  obtain ⟨⟨name, value⟩, -, rfl⟩ := Option.map_eq_some_iff.mp hread
  have hline : trim name ++ ": ".toList ++ trim value = trim name ++ ':' :: ' ' :: trim value := by
    rw [List.append_assoc]
    rfl
  rw [hline, headerIn_append hcolon, hname, trim_blank, trim_trim]

theorem hostValues_append (xs ys : Headers) : hostValues (xs ++ ys) = hostValues xs ++ hostValues ys := by
  rw [hostValues, List.filter_append, List.map_append]
  rfl

/-- `Host` is no header of the hop. -/
theorem hostValues_kept (headers : Headers) :
    hostValues (headers.filter fun h => !isHopByHopHeader h.1) = hostValues headers := by
  rw [hostValues, List.filter_filter]
  refine congrArg (List.map Prod.snd) (List.filter_congr ?_)
  intro h _
  rcases hname : eqIgnoreAsciiCase h.1 "host".toList with - | -
  · rfl
  · have hlower : toAsciiLowercase h.1 = toAsciiLowercase "host".toList := by
      simpa [eqIgnoreAsciiCase] using hname
    rw [isHopByHopHeader, hlower]
    decide

theorem any_host_iff (headers : Headers) :
    (headers.any fun h => eqIgnoreAsciiCase h.1 "host".toList) = false ↔ hostValues headers = [] := by
  rw [hostValues, List.map_eq_nil_iff, List.filter_eq_nil_iff, List.any_eq_false]

/-- The headers `Host` of the new head are those of the client, or one of the proxy. -/
theorem hostValues_rewrittenLines (lines : List (List Char)) (method path version host : List Char)
    (port : UInt16) :
    hostValues ((rewrittenLines method path version (lines.filterMap headerIn) host port).tail.filterMap headerIn) =
      if hostValues (lines.filterMap headerIn) = [] then [trim (host ++ ':' :: port.toNat.repr.toList)]
      else hostValues (lines.filterMap headerIn) := by
  have hwritten : (((lines.filterMap headerIn).filter fun h => !isHopByHopHeader h.1).map
      fun h => h.1 ++ ": ".toList ++ h.2).filterMap headerIn =
        (lines.filterMap headerIn).filter fun h => !isHopByHopHeader h.1 := by
    rw [List.filterMap_map]
    conv_rhs => rw [← List.filterMap_some (l := (lines.filterMap headerIn).filter _)]
    apply List.filterMap_congr
    intro h hmem
    obtain ⟨line, -, hread⟩ := List.mem_filterMap.mp (List.mem_of_mem_filter hmem)
    exact headerIn_written hread
  have hclose : hostValues (["Connection: close".toList].filterMap headerIn) = [] := by decide
  have hown : hostValues (["Host: ".toList ++ host ++ ':' :: port.toNat.repr.toList].filterMap headerIn) =
      [trim (host ++ ':' :: port.toNat.repr.toList)] := by
    have hline : "Host: ".toList ++ host ++ ':' :: port.toNat.repr.toList =
        "Host".toList ++ ':' :: ' ' :: (host ++ ':' :: port.toNat.repr.toList) := by
      simp
    rw [hline, List.filterMap_cons, headerIn_append (by decide), trim_blank]
    rfl
  rw [rewrittenLines]
  simp only [List.cons_append, List.tail_cons, List.filterMap_append, hostValues_append, hwritten,
    hostValues_kept, hclose, List.append_nil]
  rcases hnone : ((lines.filterMap headerIn).filter fun h => !isHopByHopHeader h.1).any
    fun h => eqIgnoreAsciiCase h.1 "host".toList with - | -
  · have hnil := (any_host_iff _).mp hnone
    rw [hostValues_kept] at hnil
    rw [if_pos hnil, hnil, if_neg (by rw [hnone]; exact Bool.false_ne_true), hown, List.nil_append]
  · have hsome : hostValues (lines.filterMap headerIn) ≠ [] := by
      rw [← hostValues_kept]
      intro hnil
      rw [(any_host_iff _).mpr hnil] at hnone
      cases hnone
    rw [if_neg hsome, if_pos hnone]
    exact List.append_nil _

/-- The header of the proxy names the authority. -/
theorem names_own {a : Uri.Authority} {chars : List Char} (hname : a.host = .name chars) :
    Names (trim (chars ++ ':' :: (a.portNumber.getD 80).toNat.repr.toList)) a := by
  have hvalid := a.host_valid
  have hport := portNumber_pos a
  rw [UInt16.lt_iff_toNat_lt] at hport
  have hlt := (a.portNumber.getD 80).toNat_lt
  have hvalue : Nat.ofDigitChars 10 (a.portNumber.getD 80).toNat.repr.toList 0 = (a.portNumber.getD 80).toNat := by
    rw [Nat.toList_repr]
    exact Nat.ofDigitChars_ten_toDigits
  have hne : (a.portNumber.getD 80).toNat.repr.toList ≠ [] := by
    rw [Nat.toList_repr]
    exact Nat.toDigits_ne_nil
  let b : Uri.Authority :=
    { host := a.host
      port := some (a.portNumber.getD 80).toNat.repr.toList
      host_valid := hvalid
      port_digits := by
        intro digits hdigits
        obtain rfl := Option.some.inj hdigits
        exact ⟨hne, fun c hc => isDigit_of_mem_repr hc⟩
      port_range := by
        intro digits hdigits
        obtain rfl := Option.some.inj hdigits
        rw [hvalue]
        exact ⟨hport, Nat.le_of_lt_succ hlt⟩ }
  have htext : b.text = chars ++ ':' :: (a.portNumber.getD 80).toNat.repr.toList := by
    rw [Uri.Authority.text]
    show a.host.text ++ _ = _
    rw [hname]
    rfl
  refine ⟨b, ?_, beq_self_eq_true _, ?_⟩
  · rw [htext]
    apply trim_of_blankless
    intro c hc
    rw [← htext] at hc
    exact isWhitespace_of_isGraphic (b.isGraphic_of_mem_text c hc)
  · show UInt16.ofNat (Nat.ofDigitChars 10 (a.portNumber.getD 80).toNat.repr.toList 0) = _
    rw [hvalue, UInt16.ofNat_toNat]

/-- **Where a request goes.** -/
theorem goesWhereAsked_iff (env : Matching) (huri : Uri.Lawful uri) (method version : List Char)
    (lines : List (List Char)) :
    GoesWhereAsked env uri a method version (lines.filterMap headerIn) ↔
      (∃ chars, a.authority.host = .name chars) ∧ (a.path = [] → a.query = none) ∧
        (hostValues (lines.filterMap headerIn) = [] ∨
          ∃ value, hostValues (lines.filterMap headerIn) = [value] ∧ Names value a.authority) := by
  have hconnect := @connectTarget_withDefaultPort env _ huri a.authority
  constructor
  · rintro ⟨target, path, hforward, htunnel, hline, value, hvalues, hnames⟩
    obtain rfl := Except.ok.inj (hconnect.symm.trans htunnel)
    refine ⟨?_, ?_, ?_⟩
    · rcases hhost : a.authority.host with chars | chars
      · exact ⟨chars, rfl⟩
      · exact absurd rfl (head_bare a.authority.host_valid _ (bracket_mem_host a hhost hforward)).1
    · intro hpath
      rcases hquery : a.query with - | q
      · rfl
      · exact absurd rfl (head_bare a.authority.host_valid _ (question_mem_host a hpath hquery hforward)).2
    · rw [hostValues_rewrittenLines] at hvalues
      split at hvalues
      · rename_i hnil
        exact .inl hnil
      · exact .inr ⟨value, hvalues, hnames⟩
  · rintro ⟨⟨chars, hname⟩, hquery, hhosts⟩
    rw [hname] at hconnect
    refine ⟨_, _, forwardTarget_of_name a hname hquery, hconnect, rfl, ?_⟩
    rw [hostValues_rewrittenLines]
    rcases hhosts with hnil | ⟨value, hvalue, hnames⟩
    · rw [if_pos hnil]
      exact ⟨_, rfl, names_own hname⟩
    · rw [if_neg (by rw [hvalue]; exact List.cons_ne_nil _ _)]
      exact ⟨value, hvalue, hnames⟩

end Targets

/-! ### Two requests -/

def namedForm : AbsoluteForm where
  authority :=
    { host := .name "example.com".toList
      port := none
      host_valid := ⟨by decide, List.all_eq_true.mp (by decide)⟩
      port_digits := by simp
      port_range := by simp }
  path := "/search".toList
  query := some "q=/x".toList
  path_slash := .inr rfl
  path_graphic := by simp [IsGraphic]
  query_graphic := by simp [IsGraphic]

theorem goesWhereAsked_named :
    GoesWhereAsked sampleMatching Uri.read namedForm "GET".toList "HTTP/1.1".toList
      (["Host: example.com".toList, "Proxy-Connection: keep-alive".toList].filterMap headerIn) := by
  apply (goesWhereAsked_iff namedForm sampleMatching Uri.read_lawful _ _ _).mpr
  refine ⟨⟨_, rfl⟩, ?_, .inr ⟨"example.com".toList, by decide, namedForm.authority, by decide, by decide, rfl⟩⟩
  intro hpath
  exact absurd hpath (by decide)

/-- `http://[::1]:8080/`. -/
def bracketForm : AbsoluteForm where
  authority :=
    { host := .ipv6 "::1".toList
      port := some "8080".toList
      host_valid := ⟨by decide, List.all_eq_true.mp (by decide)⟩
      port_digits := by simp
      port_range := by simp +decide }
  path := ['/']
  query := none
  path_slash := .inr rfl
  path_graphic := by simp [IsGraphic]
  query_graphic := by simp

/-- The brackets make a name of the address. -/
theorem bracketForm_goes_elsewhere :
    ¬ GoesWhereAsked sampleMatching Uri.read bracketForm "GET".toList "HTTP/1.1".toList [] := by
  rintro ⟨target, path, hforward, htunnel, -⟩
  have hconnect := @connectTarget_withDefaultPort sampleMatching _ Uri.read_lawful bracketForm.authority
  obtain rfl := Except.ok.inj (hconnect.symm.trans htunnel)
  have hbracket := bracket_mem_host bracketForm (by rfl) hforward
  exact absurd hbracket (by decide)

end Http

end Elise
