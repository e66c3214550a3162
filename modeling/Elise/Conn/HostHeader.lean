/-
Elise/Conn/HostHeader.lean

The host of an HTTP request, and what the sniffer makes of it (src/conn/sniffer.rs).

A request is written here as the standard has it: a request line, header fields, of which
exactly one has the name `host` in any letter case, and an empty line; any bytes follow as the
body (`Request.head`).

The sniffer goes through the lines of the whole buffer as text.  A line is the host header for
it when it begins with `Host:`, spelled like that, and the host ends at the first colon.  So the
host is found, whatever the body is, when the buffer is UTF-8, the name is spelled so, and the
host is not an IPv6 address in brackets, and only then (`findsHost_iff`).
-/
import Elise.Conn.Sniffer
import Elise.Lib.LetterCase

namespace Elise

namespace HostHeader

open Text Net

/-! ### Requests -/

/-- A header field. -/
structure Header where
  name : List Char
  /-- With the blanks around it. -/
  value : List UInt8
  isWord_name : IsWord name
  colon_not_mem : ':' ∉ name
  lf_not_mem : 10 ∉ value

def Header.bytes (h : Header) : List UInt8 := toUtf8 (h.name ++ [':']) ++ (h.value ++ [13, 10])

/-- A name or an IPv4 address, or an IPv6 address. -/
inductive Host where
  | plain (text : List Char) (isWord : IsWord text) (colon_not_mem : ':' ∉ text)
      (bracket_not_mem : '[' ∉ text)
  | ipv6 (text : List Char) (isWord : IsWord text) (bracket_not_mem : '[' ∉ text)

namespace Host

/-- Without the brackets. -/
def text : Host → List Char
  | plain text _ _ _ => text
  | ipv6 text _ _ => text

def spelled : Host → List Char
  | plain text _ _ _ => text
  | ipv6 text _ _ => '[' :: (text ++ [']'])

def IsPlain : Host → Prop
  | plain _ _ _ _ => True
  | ipv6 _ _ _ => False

end Host

/-- The header field with the host. -/
structure HostField where
  name : List Char
  before : List Char
  host : Host
  port : Option (List Char)
  after : List Char
  name_eq : toAsciiLowercase name = "host".toList
  before_blank : ∀ c ∈ before, c = ' ' ∨ c = '\t'
  after_blank : ∀ c ∈ after, c = ' ' ∨ c = '\t'
  port_digits : ∀ digits ∈ port, ∀ c ∈ digits, c.isDigit = true

namespace HostField

/-- The host with the port. -/
def core (f : HostField) : List Char :=
  f.host.spelled ++ match f.port with
    | none => []
    | some digits => ':' :: digits

def chars (f : HostField) : List Char := f.name ++ ':' :: (f.before ++ (f.core ++ f.after))

def bytes (f : HostField) : List UInt8 := toUtf8 f.chars ++ [13, 10]

end HostField

structure Request where
  method : List Char
  target : List UInt8
  front : List Header
  field : HostField
  back : List Header
  method_mem : method ∈
    ["GET", "POST", "HEAD", "CONNECT", "OPTIONS", "PUT", "DELETE"].map String.toList
  lf_not_mem : 10 ∉ target
  front_ne : ∀ h ∈ front, toAsciiLowercase h.name ≠ "host".toList
  back_ne : ∀ h ∈ back, toAsciiLowercase h.name ≠ "host".toList

def Request.head (r : Request) : List UInt8 :=
  toUtf8 (r.method ++ [' ']) ++ (r.target ++ (toUtf8 " HTTP/1.1\r\n".toList ++
    (r.front.flatMap Header.bytes ++ (r.field.bytes ++ (r.back.flatMap Header.bytes ++ [13, 10])))))

/-- The host is found, without port and brackets, and the body has no say in it. -/
structure FindsHost (r : Request) (body : List UInt8) : Prop where
  found : sniffDomain (r.head ++ body) = some (r.field.host.text, .http)
  settled : sniffDomain (r.head ++ body) = sniffDomain r.head

/-! ### Lines of a text -/

/-- What a line tells. -/
def hostOfLine (line : List Char) : Option (List Char) :=
  match stripAny ["Host:".toList] (trim line) with
  | none => none
  | some hostVal => ((trim hostVal).splitOn ':').head?

theorem hostOfLine_nil : hostOfLine [] = none := by decide

theorem hostOfLine_stripCr (line : List Char) : hostOfLine (stripCr line) = hostOfLine line := by
  rw [hostOfLine, hostOfLine, trim_stripCr]

/-- The first line that tells a host. -/
def hostOfText (text : List Char) : Option (List Char) := (text.splitOn '\n').findSome? hostOfLine

theorem parseHttpHost_eq (buf : List UInt8) : parseHttpHost buf = (fromUtf8 buf).bind hostOfText := by
  rw [parseHttpHost]
  cases fromUtf8 buf with
  | none => rfl
  | some text =>
      obtain ⟨parts, hparts⟩ : ∃ parts, parts = text.splitOn '\n' := ⟨_, rfl⟩
      have hne : parts ≠ [] := hparts ▸ List.splitOn_ne_nil '\n' text
      have hsplit := List.dropLast_append_getLast hne
      show (lines text).findSome? hostOfLine = hostOfText text
      rw [lines, hostOfText, ← hparts, List.findSome?_append, List.findSome?_map]
      conv_rhs => rw [← hsplit, List.findSome?_append]
      have hlast : parts.getLast?.getD [] = parts.getLast hne := by
        rw [List.getLast?_eq_some_getLast hne]
        rfl
      have hstrip : hostOfLine ∘ stripCr = hostOfLine := funext hostOfLine_stripCr
      rw [hlast, hstrip]
      congr 1
      split
      · rename_i hempty
        rw [List.isEmpty_iff.mp hempty, List.findSome?_singleton, hostOfLine_nil]
        rfl
      · rfl

theorem hostOfText_line {line : List Char} (h : '\n' ∉ line) (rest : List Char) :
    hostOfText (line ++ '\n' :: rest) = (hostOfLine line).or (hostOfText rest) := by
  rw [hostOfText, List.splitOn_append_cons_self_of_not_mem h, List.findSome?_cons]
  cases hostOfLine line with
  | none => rfl
  | some host => rfl

theorem lf_mem_toUtf8 {line : List Char} (h : '\n' ∈ line) : 10 ∈ toUtf8 line :=
  List.mem_flatMap.mpr ⟨'\n', h, List.mem_cons_self⟩

/-- One line of a buffer that is text. -/
theorem parse_line {l rest : List UInt8} (hl : 10 ∉ l) (htext : fromUtf8 (l ++ 10 :: rest) ≠ none) :
    ∃ line, fromUtf8 l = some line ∧ fromUtf8 rest ≠ none ∧
      parseHttpHost (l ++ 10 :: rest) = (hostOfLine line).or (parseHttpHost rest) := by
  rw [parseHttpHost_eq, parseHttpHost_eq]
  rw [fromUtf8_line] at htext ⊢
  cases hline : fromUtf8 l with
  | none =>
      rw [hline] at htext
      cases htext rfl
  | some line =>
      have hfeed : '\n' ∉ line := by
        intro hmem
        have hbyte := lf_mem_toUtf8 hmem
        rw [toUtf8_of_fromUtf8 hline] at hbyte
        exact hl hbyte
      rw [hline] at htext
      cases hrest : fromUtf8 rest with
      | none =>
          rw [hrest] at htext
          cases htext rfl
      | some more => exact ⟨line, rfl, Option.some_ne_none more, hostOfText_line hfeed more⟩

/-! ### The line of a header field -/

theorem rdropWhile_append_of_neg {p : Char → Bool} (front : List Char) {c : Char} (hc : p c = false)
    (v : List Char) : (front ++ c :: v).rdropWhile p = front ++ c :: v.rdropWhile p := by
  induction v using List.reverseRecOn with
  | nil =>
      rw [List.rdropWhile_nil]
      exact List.rdropWhile_concat_neg _ _ _ (by rw [hc]; decide)
  | append_singleton v x ih =>
      have hassoc : front ++ c :: (v ++ [x]) = (front ++ c :: v) ++ [x] := by simp
      rw [hassoc, List.rdropWhile_concat, List.rdropWhile_concat]
      split
      · exact ih
      · exact hassoc.symm

theorem dropWhile_word {word : List Char} (h : IsWord word) (rest : List Char) :
    (word ++ rest).dropWhile isWhitespace = word ++ rest := by
  obtain ⟨c, word, rfl⟩ := List.exists_cons_of_ne_nil h.ne_nil
  exact List.dropWhile_cons_of_neg
    (by rw [isWhitespace_of_isGraphic (h.graphic c List.mem_cons_self)]; decide)

theorem rdropWhile_word {word : List Char} (h : IsWord word) (front : List Char) :
    (front ++ word).rdropWhile isWhitespace = front ++ word := by
  obtain ⟨c, hc⟩ : ∃ c, c ∈ word.getLast? := by
    rw [List.getLast?_eq_some_getLast h.ne_nil]
    exact ⟨_, rfl⟩
  obtain ⟨word', rfl⟩ := List.getLast?_eq_some_iff.mp hc
  have hspace := isWhitespace_of_isGraphic (h.graphic c (List.mem_append_right word' List.mem_cons_self))
  have hdrop := rdropWhile_append_of_neg (front ++ word') hspace []
  rw [List.rdropWhile_nil, List.append_assoc] at hdrop
  exact hdrop

theorem rdropWhile_blanks {blanks : List Char} (h : ∀ c ∈ blanks, isWhitespace c = true)
    (front : List Char) : (front ++ blanks).rdropWhile isWhitespace = front.rdropWhile isWhitespace := by
  rw [List.rdropWhile, List.rdropWhile, List.reverse_append,
    List.dropWhile_append_of_pos fun c hc => h c (List.mem_reverse.mp hc)]

/-- Words that are cut at the same symbol. -/
theorem append_cons_inj {c : Char} {front front' back back' : List Char} (h : c ∉ front) (h' : c ∉ front')
    (heq : front ++ c :: back = front' ++ c :: back') : front = front' ∧ back = back' := by
  have hcut := splitOnce_append h back
  rw [heq, splitOnce_append h'] at hcut
  obtain ⟨hfront, hback⟩ := Prod.mk.inj (Option.some.inj hcut)
  exact ⟨hfront.symm, hback.symm⟩

/-- Another header field tells nothing. -/
theorem hostOfLine_other {name : List Char} (hword : IsWord name) (hcolon : ':' ∉ name)
    (hname : name ≠ "Host".toList) (v : List Char) : hostOfLine (name ++ ':' :: v) = none := by
  have htrim : trim (name ++ ':' :: v) = name ++ ':' :: v.rdropWhile isWhitespace := by
    rw [trim, trimMatches, dropWhile_word hword, rdropWhile_append_of_neg name (by decide)]
  rw [hostOfLine, htrim]
  cases hstrip : stripAny ["Host:".toList] (name ++ ':' :: v.rdropWhile isWhitespace) with
  | none => rfl
  | some rest =>
      obtain ⟨head, hmem, hcs⟩ := stripAny_eq_some hstrip
      obtain rfl := List.mem_singleton.mp hmem
      have hinj := append_cons_inj hcolon (by decide : ':' ∉ "Host".toList)
        (show name ++ ':' :: v.rdropWhile isWhitespace = "Host".toList ++ ':' :: rest from hcs)
      exact absurd hinj.1 hname

/-- The header field that is spelled as the sniffer wants it. -/
theorem hostOfLine_host {before core after : List Char} (hbefore : ∀ c ∈ before, isWhitespace c = true)
    (hcore : IsWord core) (hafter : ∀ c ∈ after, isWhitespace c = true) :
    hostOfLine ("Host".toList ++ ':' :: (before ++ (core ++ after))) = (core.splitOn ':').head? := by
  have hline : trim ("Host".toList ++ ':' :: (before ++ (core ++ after))) =
      "Host:".toList ++ (before ++ core) := by
    have hassoc : "Host".toList ++ ':' :: (before ++ (core ++ after)) =
        (("Host:".toList ++ before) ++ core) ++ after := by simp
    rw [trim, trimMatches, dropWhile_word (by decide), hassoc, rdropWhile_blanks hafter,
      rdropWhile_word hcore, List.append_assoc]
  have hvalue : trim (before ++ core) = core := by
    have hfront := dropWhile_word hcore []
    have hback := rdropWhile_word hcore []
    rw [List.append_nil] at hfront
    rw [trim, trimMatches, List.dropWhile_append_of_pos hbefore, hfront]
    exact hback
  rw [hostOfLine, hline, stripAny_singleton_append]
  exact congrArg (fun value => (value.splitOn ':').head?) hvalue

/-! ### The header of a request -/

theorem isWord_core (f : HostField) : IsWord f.core := by
  have hhost : IsWord f.host.spelled := by
    cases f.host with
    | plain text isWord _ _ => exact isWord
    | ipv6 text isWord _ =>
        refine ⟨List.cons_ne_nil _ _, ?_⟩
        intro c hc
        rcases List.mem_cons.mp hc with rfl | hc
        · decide
        · rcases List.mem_append.mp hc with hc | hc
          · exact isWord.graphic c hc
          · obtain rfl := List.mem_singleton.mp hc
            decide
  refine ⟨?_, ?_⟩
  · intro hnil
    exact hhost.ne_nil (List.append_eq_nil_iff.mp hnil).1
  · intro c hc
    rcases List.mem_append.mp hc with hc | hc
    · exact hhost.graphic c hc
    · cases hport : f.port with
      | none =>
          rw [hport] at hc
          cases hc
      | some digits =>
          rw [hport] at hc
          rcases List.mem_cons.mp hc with rfl | hc
          · decide
          · exact isGraphic_of_isDigit (f.port_digits digits hport c hc)

/-- What stands before the first colon of the host with the port. -/
theorem head?_splitOn_core (f : HostField) :
    (f.core.splitOn ':').head? = some f.host.text ↔ f.host.IsPlain := by
  rw [HostField.core]
  cases hhost : f.host with
  | plain text isWord hcolon hbracket =>
      refine iff_of_true ?_ trivial
      show ((text ++ _).splitOn ':').head? = some text
      cases f.port with
      | none =>
          rw [List.append_nil, List.splitOn_eq_singleton hcolon]
          rfl
      | some digits =>
          rw [List.splitOn_append_cons_self_of_not_mem hcolon]
          rfl
  | ipv6 text isWord hbracket =>
      refine iff_of_false ?_ id
      intro h
      -- the first part begins with the bracket
      obtain ⟨first, parts, hparts⟩ := List.exists_cons_of_ne_nil
        (List.splitOn_ne_nil ':' ((text ++ [']']) ++ match f.port with
          | none => []
          | some digits => ':' :: digits))
      have hsplit := List.splitOn_cons_eq_if_modifyHead (a := ':') '[' ((text ++ [']']) ++ match f.port with
          | none => []
          | some digits => ':' :: digits)
      rw [if_neg (by decide), hparts] at hsplit
      have htext : some ('[' :: first) = some text := (congrArg List.head? hsplit).symm.trans h
      obtain rfl := Option.some.inj htext
      exact hbracket List.mem_cons_self

/-- A name that differs from `host` in the letter case only. -/
theorem isWord_of_lower {name : List Char} (h : toAsciiLowercase name = "host".toList) :
    IsWord name ∧ ':' ∉ name := by
  have hchar : ∀ c : Char, c.toLower ∈ ['h', 'o', 's', 't'] → IsGraphic c ∧ c ≠ ':' := by
    apply forall_char (P := fun c => c.toLower ∈ ['h', 'o', 's', 't'] → IsGraphic c ∧ c ≠ ':')
      (by decide +kernel)
    intro c hc hmem
    rw [toLower_of_le hc] at hmem
    have hlow : c.toNat < 128 := by
      simp only [List.mem_cons, List.not_mem_nil, or_false] at hmem
      rcases hmem with rfl | rfl | rfl | rfl <;> decide
    omega
  have hmem : ∀ c ∈ name, c.toLower ∈ ['h', 'o', 's', 't'] := by
    intro c hc
    have hin : c.toLower ∈ toAsciiLowercase name := List.mem_map_of_mem hc
    rw [h] at hin
    exact hin
  refine ⟨⟨?_, fun c hc => (hchar c (hmem c hc)).1⟩, fun hc => (hchar ':' (hmem ':' hc)).2 rfl⟩
  rintro rfl
  cases h

/-- The header field of the host, and what follows. -/
theorem parse_field (f : HostField) {rest : List UInt8} (htext : fromUtf8 (f.bytes ++ rest) ≠ none) :
    fromUtf8 rest ≠ none ∧ parseHttpHost (f.bytes ++ rest) =
      (if f.name = "Host".toList then (f.core.splitOn ':').head? else none).or (parseHttpHost rest) := by
  obtain ⟨hname, hcolon⟩ := isWord_of_lower f.name_eq
  have hcore := isWord_core f
  have hbytes : f.bytes ++ rest = toUtf8 (f.chars ++ ['\r']) ++ 10 :: rest := by
    rw [HostField.bytes, toUtf8_append, List.append_assoc, List.append_assoc]
    rfl
  have hl : 10 ∉ toUtf8 (f.chars ++ ['\r']) := by
    intro hmem
    have hc : '\n' ∈ f.chars ++ ['\r'] := mem_of_mem_toUtf8 (by decide) hmem
    simp only [HostField.chars, List.mem_append, List.mem_cons, List.not_mem_nil, or_false] at hc
    rcases hc with (hc | hc | hc | hc | hc) | hc
    · exact absurd (hname.graphic _ hc) (by decide)
    · cases hc
    · exact absurd (f.before_blank _ hc) (by decide)
    · exact absurd (hcore.graphic _ hc) (by decide)
    · exact absurd (f.after_blank _ hc) (by decide)
    · cases hc
  rw [hbytes] at htext ⊢
  obtain ⟨line, hline, hrest, hparse⟩ := parse_line hl htext
  rw [fromUtf8_toUtf8] at hline
  obtain rfl := Option.some.inj hline
  refine ⟨hrest, ?_⟩
  rw [hparse]
  congr 1
  have hassoc : f.chars ++ ['\r'] = f.name ++ ':' :: (f.before ++ (f.core ++ (f.after ++ ['\r']))) := by
    simp [HostField.chars]
  rw [hassoc]
  split
  · rename_i hhost
    rw [hhost]
    apply hostOfLine_host _ hcore
    · intro c hc
      rcases List.mem_append.mp hc with hc | hc
      · rcases f.after_blank c hc with rfl | rfl <;> decide
      · obtain rfl := List.mem_singleton.mp hc
        decide
    · intro c hc
      rcases f.before_blank c hc with rfl | rfl <;> decide
  · rename_i hhost
    exact hostOfLine_other hname hcolon hhost _

/-- Another header field, and what follows. -/
theorem parse_header (h : Header) (hne : toAsciiLowercase h.name ≠ "host".toList) {rest : List UInt8}
    (htext : fromUtf8 (h.bytes ++ rest) ≠ none) :
    fromUtf8 rest ≠ none ∧ parseHttpHost (h.bytes ++ rest) = parseHttpHost rest := by
  have hascii : ∀ c ∈ h.name ++ [':'], c.toNat < 128 := by
    intro c hc
    rcases List.mem_append.mp hc with hc | hc
    · have hle := (h.isWord_name.graphic c hc).2
      omega
    · obtain rfl := List.mem_singleton.mp hc
      decide
  have hbytes : h.bytes ++ rest = (toUtf8 (h.name ++ [':']) ++ (h.value ++ [13])) ++ 10 :: rest := by
    simp [Header.bytes]
  have hl : 10 ∉ toUtf8 (h.name ++ [':']) ++ (h.value ++ [13]) := by
    intro hmem
    rcases List.mem_append.mp hmem with hmem | hmem
    · have hc : '\n' ∈ h.name ++ [':'] := mem_of_mem_toUtf8 (by decide) hmem
      rcases List.mem_append.mp hc with hc | hc
      · exact absurd (h.isWord_name.graphic _ hc) (by decide)
      · cases List.mem_singleton.mp hc
    · rcases List.mem_append.mp hmem with hmem | hmem
      · exact h.lf_not_mem hmem
      · cases List.mem_singleton.mp hmem
  rw [hbytes] at htext ⊢
  obtain ⟨line, hline, hrest, hparse⟩ := parse_line hl htext
  rw [fromUtf8_ascii hascii] at hline
  obtain ⟨value, -, rfl⟩ := Option.map_eq_some_iff.mp hline
  refine ⟨hrest, ?_⟩
  have hnone : hostOfLine (h.name ++ [':'] ++ value) = none := by
    rw [List.append_assoc]
    apply hostOfLine_other h.isWord_name h.colon_not_mem
    rintro hname
    exact hne (by rw [hname]; decide)
  rw [hparse, hnone]
  rfl

theorem parse_headers {headers : List Header}
    (hne : ∀ h ∈ headers, toAsciiLowercase h.name ≠ "host".toList) {rest : List UInt8}
    (htext : fromUtf8 (headers.flatMap Header.bytes ++ rest) ≠ none) :
    fromUtf8 rest ≠ none ∧ parseHttpHost (headers.flatMap Header.bytes ++ rest) = parseHttpHost rest := by
  induction headers with
  | nil => exact ⟨htext, rfl⟩
  | cons h headers ih =>
      rw [List.flatMap_cons, List.append_assoc] at htext ⊢
      obtain ⟨hrest, hparse⟩ := parse_header h (hne h List.mem_cons_self) htext
      obtain ⟨hrest', hparse'⟩ := ih (fun h' hh => hne h' (List.mem_cons_of_mem h hh)) hrest
      exact ⟨hrest', hparse.trans hparse'⟩

/-- A method is no header for a host. -/
theorem method_cases {method : List Char} (h : method ∈
    ["GET", "POST", "HEAD", "CONNECT", "OPTIONS", "PUT", "DELETE"].map String.toList) :
    IsWord method ∧ ∀ rest, ¬ "Host:".toList <+: method ++ rest := by
  simp only [List.map_cons, List.map_nil, List.mem_cons, List.not_mem_nil, or_false] at h
  rcases h with rfl | rfl | rfl | rfl | rfl | rfl | rfl <;> refine ⟨by decide, ?_⟩ <;>
    rintro rest ⟨t, ht⟩ <;> simp at ht

/-- The request line, and what follows. -/
theorem parse_requestLine (r : Request) {rest : List UInt8}
    (htext : fromUtf8 (toUtf8 (r.method ++ [' ']) ++
      (r.target ++ (toUtf8 " HTTP/1.1\r\n".toList ++ rest))) ≠ none) :
    fromUtf8 rest ≠ none ∧
      parseHttpHost (toUtf8 (r.method ++ [' ']) ++
        (r.target ++ (toUtf8 " HTTP/1.1\r\n".toList ++ rest))) = parseHttpHost rest := by
  obtain ⟨hword, hhost⟩ := method_cases r.method_mem
  have hascii : ∀ c ∈ r.method ++ [' '], c.toNat < 128 := by
    intro c hc
    rcases List.mem_append.mp hc with hc | hc
    · have hle := (hword.graphic c hc).2
      omega
    · obtain rfl := List.mem_singleton.mp hc
      decide
  have hbytes : toUtf8 (r.method ++ [' ']) ++ (r.target ++ (toUtf8 " HTTP/1.1\r\n".toList ++ rest)) =
      (toUtf8 (r.method ++ [' ']) ++ (r.target ++ toUtf8 " HTTP/1.1\r".toList)) ++ 10 :: rest := by
    have hend : toUtf8 " HTTP/1.1\r\n".toList = toUtf8 " HTTP/1.1\r".toList ++ [10] := by decide
    rw [hend]
    simp only [List.append_assoc, List.singleton_append]
  have hl : 10 ∉ toUtf8 (r.method ++ [' ']) ++ (r.target ++ toUtf8 " HTTP/1.1\r".toList) := by
    intro hmem
    rcases List.mem_append.mp hmem with hmem | hmem
    · have hc : '\n' ∈ r.method ++ [' '] := mem_of_mem_toUtf8 (by decide) hmem
      rcases List.mem_append.mp hc with hc | hc
      · exact absurd (hword.graphic _ hc) (by decide)
      · cases List.mem_singleton.mp hc
    · rcases List.mem_append.mp hmem with hmem | hmem
      · exact r.lf_not_mem hmem
      · exact absurd hmem (by decide)
  rw [hbytes] at htext ⊢
  obtain ⟨line, hline, hrest, hparse⟩ := parse_line hl htext
  rw [fromUtf8_ascii hascii] at hline
  obtain ⟨value, -, rfl⟩ := Option.map_eq_some_iff.mp hline
  refine ⟨hrest, ?_⟩
  have hnone : hostOfLine (r.method ++ [' '] ++ value) = none := by
    rw [List.append_assoc, hostOfLine]
    cases hstrip : stripAny ["Host:".toList] (trim (r.method ++ ([' '] ++ value))) with
    | none => rfl
    | some rest' =>
        obtain ⟨head, hmem, hcs⟩ := stripAny_eq_some hstrip
        obtain rfl := List.mem_singleton.mp hmem
        have hprefix : "Host:".toList <+: r.method ++ ([' '] ++ value) := by
          have htrim : trim (r.method ++ ([' '] ++ value)) <+: r.method ++ ([' '] ++ value) := by
            rw [trim, trimMatches, dropWhile_word hword]
            exact List.rdropWhile_prefix _ _
          exact List.IsPrefix.trans (hcs ▸ List.prefix_append _ _) htrim
        exact absurd hprefix (hhost _)
  rw [hparse, hnone]
  rfl

/-- **What is found in a request**, with a body that leaves it a text. -/
theorem parse_request (r : Request) {body : List UInt8} (htext : fromUtf8 (r.head ++ body) ≠ none) :
    parseHttpHost (r.head ++ body) =
      (if r.field.name = "Host".toList then (r.field.core.splitOn ':').head? else none).or
        (parseHttpHost body) := by
  have hassoc : r.head ++ body = toUtf8 (r.method ++ [' ']) ++ (r.target ++
      (toUtf8 " HTTP/1.1\r\n".toList ++ (r.front.flatMap Header.bytes ++ (r.field.bytes ++ (r.back.flatMap Header.bytes ++
        ([13] ++ 10 :: body)))))) := by
    simp [Request.head]
  rw [hassoc] at htext ⊢
  obtain ⟨hfront, hparse⟩ := parse_requestLine r htext
  obtain ⟨hfield, hparse'⟩ := parse_headers r.front_ne hfront
  obtain ⟨hback, hhost⟩ := parse_field r.field hfield
  obtain ⟨hlast, hparse''⟩ := parse_headers r.back_ne hback
  obtain ⟨line, hline, -, hend⟩ := parse_line (l := [13]) (by decide) hlast
  have hcr : fromUtf8 [13] = some ['\r'] := fromUtf8_toUtf8 ['\r']
  obtain rfl := Option.some.inj (hcr.symm.trans hline)
  have hnone : hostOfLine ['\r'] = none := by decide
  rw [hparse, hparse', hhost, hparse'', hend, hnone]
  rfl

/-! ### The whole buffer -/

/-- Only the host header is looked for. -/
theorem sniffDomain_request (r : Request) (body : List UInt8) :
    sniffDomain (r.head ++ body) = (parseHttpHost (r.head ++ body)).map (·, .http) := by
  have hfront : ∃ rest, r.head ++ body = toUtf8 (r.method ++ [' ']) ++ rest :=
    ⟨_, List.append_assoc _ _ _⟩
  obtain ⟨rest, hfront⟩ := hfront
  have hmethod := r.method_mem
  rw [hfront]
  generalize r.method = method at hmethod
  have hstart : httpMethods.any (·.isPrefixOf (toUtf8 (method ++ [' ']) ++ rest)) = true ∧
      (toUtf8 (method ++ [' ']) ++ rest).isEmpty = false ∧
      byteAt (toUtf8 (method ++ [' ']) ++ rest) 0 = (toUtf8 method).headD 0 ∧
      (toUtf8 method).headD 0 ≠ 0x16 ∧ (toUtf8 method).headD 0 &&& 0x80 = 0 := by
    simp only [List.map_cons, List.map_nil, List.mem_cons, List.not_mem_nil, or_false] at hmethod
    rcases hmethod with rfl | rfl | rfl | rfl | rfl | rfl | rfl <;>
      exact ⟨rfl, rfl, rfl, by decide, by decide⟩
  obtain ⟨hany, hsome, hb, hfirst, hbit⟩ := hstart
  rw [sniffDomain, hsome, if_neg (by decide), hb, if_neg (fun h => hfirst h.1), hany, if_pos rfl,
    if_neg (fun h => h.1 hbit)]
  cases parseHttpHost (toUtf8 (method ++ [' ']) ++ rest) with
  | none => rfl
  | some host => rfl

/-- **The host is found if and only if** head and body are text, the name is spelled `Host`, and
the host has no brackets. -/
theorem findsHost_iff (r : Request) (body : List UInt8) : FindsHost r body ↔
    fromUtf8 (r.head ++ body) ≠ none ∧ r.field.name = "Host".toList ∧ r.field.host.IsPlain := by
  have hwhole := sniffDomain_request r body
  have halone : sniffDomain r.head = (parseHttpHost r.head).map (·, .http) := by
    have hnil := sniffDomain_request r []
    rwa [List.append_nil] at hnil
  constructor
  · intro h
    have hfound := h.found
    rw [hwhole] at hfound
    have htext : fromUtf8 (r.head ++ body) ≠ none := by
      intro hnone
      rw [parseHttpHost_eq, hnone] at hfound
      cases hfound
    have hsettled := h.settled
    rw [hwhole, hfound, halone] at hsettled
    have htext' : fromUtf8 r.head ≠ none := by
      intro hnone
      rw [parseHttpHost_eq, hnone] at hsettled
      cases hsettled
    have hhead := @parse_request r [] (by rwa [List.append_nil])
    rw [List.append_nil] at hhead
    have hempty : parseHttpHost [] = none := by decide
    rw [hhead, hempty, Option.or_none] at hsettled
    refine ⟨htext, ?_⟩
    by_cases hname : r.field.name = "Host".toList
    · rw [if_pos hname] at hsettled
      refine ⟨hname, (head?_splitOn_core r.field).mp ?_⟩
      cases hhost : (r.field.core.splitOn ':').head? with
      | none =>
          rw [hhost] at hsettled
          cases hsettled
      | some host =>
          rw [hhost] at hsettled
          exact congrArg some (Prod.mk.inj (Option.some.inj hsettled)).1.symm
    · rw [if_neg hname] at hsettled
      cases hsettled
  · rintro ⟨htext, hname, hplain⟩
    have hhost := (head?_splitOn_core r.field).mpr hplain
    -- the head ends in a line feed, so it is a text by itself
    have htext' : fromUtf8 r.head ≠ none := by
      obtain ⟨front, hfront⟩ : ∃ front, r.head = front ++ 10 :: [] := by
        refine ⟨toUtf8 (r.method ++ [' ']) ++ (r.target ++ (toUtf8 " HTTP/1.1\r\n".toList ++
          (r.front.flatMap Header.bytes ++ (r.field.bytes ++ (r.back.flatMap Header.bytes ++ [13]))))), ?_⟩
        simp [Request.head]
      rw [hfront, List.append_assoc, List.cons_append, fromUtf8_line] at htext
      rw [hfront, fromUtf8_line]
      cases hline : fromUtf8 front with
      | none =>
          rw [hline] at htext
          cases htext rfl
      | some line => exact Option.some_ne_none _
    have hparse := parse_request r htext
    have hparse' := @parse_request r [] (by rwa [List.append_nil])
    rw [if_pos hname, hhost] at hparse hparse'
    rw [List.append_nil] at hparse'
    constructor
    · rw [hwhole, hparse]
      rfl
    · rw [hwhole, halone, hparse, hparse']
      rfl

/-- A request with the name in lower case. -/
def lowerRequest : Request where
  method := "GET".toList
  target := [47]
  front := []
  field :=
    { name := "host".toList
      before := [' ']
      host := .plain "a.example".toList (by decide) (by decide) (by decide)
      port := none
      after := []
      name_eq := by decide
      before_blank := fun _ hc => .inl (List.mem_singleton.mp hc)
      after_blank := nofun
      port_digits := nofun }
  back := []
  method_mem := by decide
  lf_not_mem := by decide
  front_ne := nofun
  back_ne := nofun

/-- No host is found in it. -/
theorem lowerRequest_unfound :
    sniffDomain (lowerRequest.head ++ []) = none ∧ ¬ FindsHost lowerRequest [] := by
  have hnone : sniffDomain (lowerRequest.head ++ []) = none := by decide +kernel
  refine ⟨hnone, fun h => ?_⟩
  have hfound := h.found
  rw [hnone] at hfound
  cases hfound

end HostHeader

end Elise
