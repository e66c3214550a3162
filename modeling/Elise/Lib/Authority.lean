/-
Elise/Lib/Authority.lean

Authorities of URIs: a host, and a port or none.

A host is a registered name, an IPv4 address, or an IPv6 address in brackets; a port is
a decimal number from 1 to 65535.  A reader of authorities is lawful when it gives the host
with its brackets and the number of the port back (`Lawful`), as `read` does.
-/
import Elise.Lib.Text

namespace Uri

open Text

/-- The characters of registered names that are no letters or digits; 39 is the apostrophe. -/
def nameMarks : List Char :=
  [Char.ofNat 39, '-', '.', '_', '~', '!', '$', '&', '(', ')', '*', '+', ',', ';', '=']

/-- The characters of registered names and of IPv4 addresses. -/
def isNameChar (c : Char) : Bool :=
  c.isAlphanum || c ∈ nameMarks

def ipv6Marks : List Char := ['a', 'b', 'c', 'd', 'e', 'f', 'A', 'B', 'C', 'D', 'E', 'F', ':', '.']

/-- The characters of IPv6 addresses. -/
def isIpv6Char (c : Char) : Bool := c.isDigit || c ∈ ipv6Marks

inductive Host where
  | name (chars : List Char)
  | ipv6 (chars : List Char)
  deriving DecidableEq

namespace Host

def Valid : Host → Prop
  | name chars => chars ≠ [] ∧ ∀ c ∈ chars, isNameChar c = true
  | ipv6 chars => ':' ∈ chars ∧ ∀ c ∈ chars, isIpv6Char c = true

/-- As it stands in an authority. -/
def text : Host → List Char
  | name chars => chars
  | ipv6 chars => '[' :: (chars ++ [']'])

/-- Without brackets. -/
def bare : Host → List Char
  | name chars => chars
  | ipv6 chars => chars

end Host

structure Authority where
  host : Host
  port : Option (List Char)
  host_valid : host.Valid
  port_digits : ∀ digits ∈ port, digits ≠ [] ∧ ∀ c ∈ digits, c.isDigit = true
  port_range : ∀ digits ∈ port, 0 < Nat.ofDigitChars 10 digits 0 ∧ Nat.ofDigitChars 10 digits 0 ≤ 65535

/-- What a reader of authorities gives. -/
structure Parsed where
  host : List Char
  port : Option UInt16
  deriving DecidableEq

namespace Authority

variable (a : Authority)

def text : List Char := a.host.text ++ (a.port.map (':' :: ·)).getD []

def portNumber : Option UInt16 := a.port.map fun digits => UInt16.ofNat (Nat.ofDigitChars 10 digits 0)

/-- The same with a port, if there is none. -/
def withPort (digits : List Char) (hdigits : digits ≠ [] ∧ ∀ c ∈ digits, c.isDigit = true)
    (hrange : 0 < Nat.ofDigitChars 10 digits 0 ∧ Nat.ofDigitChars 10 digits 0 ≤ 65535) : Authority where
  host := a.host
  port := some (a.port.getD digits)
  host_valid := a.host_valid
  port_digits := by
    intro d hd
    obtain rfl := Option.some.inj hd
    rcases hport : a.port with - | d'
    · exact hdigits
    · exact a.port_digits d' hport
  port_range := by
    intro d hd
    obtain rfl := Option.some.inj hd
    rcases hport : a.port with - | d'
    · exact hrange
    · exact a.port_range d' hport

end Authority

def Lawful (parse : List Char → Option Parsed) : Prop :=
  ∀ a : Authority, parse a.text = some ⟨a.host.text, a.portNumber⟩

/-! ### Characters -/

theorem ne_of_isNameChar {c d : Char} (hc : isNameChar c = true) (hd : isNameChar d = false) : c ≠ d := by
  rintro rfl
  rw [hc] at hd
  cases hd

theorem ne_of_isIpv6Char {c d : Char} (hc : isIpv6Char c = true) (hd : isIpv6Char d = false) : c ≠ d := by
  rintro rfl
  rw [hc] at hd
  cases hd

theorem ne_of_isDigit {c d : Char} (hc : c.isDigit = true) (hd : d.isDigit = false) : c ≠ d := by
  rintro rfl
  rw [hc] at hd
  cases hd

/-- The characters of authorities. -/
def isAuthorityChar (c : Char) : Bool := isNameChar c || isIpv6Char c || c == '[' || c == ']'

theorem ne_of_isAuthorityChar {c d : Char} (hc : isAuthorityChar c = true) (hd : isAuthorityChar d = false) : c ≠ d := by
  rintro rfl
  rw [hc] at hd
  cases hd

theorem Host.isAuthorityChar_of_mem_text {host : Host} (hvalid : host.Valid) :
    ∀ c ∈ host.text, isAuthorityChar c = true := by
  intro c hc
  rcases host with chars | chars
  · simp [isAuthorityChar, hvalid.2 c hc]
  · rcases List.mem_cons.mp hc with rfl | hc
    · decide
    · rcases List.mem_append.mp hc with hc | hc
      · simp [isAuthorityChar, hvalid.2 c hc]
      · obtain rfl := List.mem_singleton.mp hc
        decide

theorem Authority.isAuthorityChar_of_mem_text (a : Authority) : ∀ c ∈ a.text, isAuthorityChar c = true := by
  intro c hc
  rcases List.mem_append.mp hc with hc | hc
  · exact Host.isAuthorityChar_of_mem_text a.host_valid c hc
  · rcases hport : a.port with - | digits
    · rw [hport] at hc
      cases hc
    · rw [hport] at hc
      rcases List.mem_cons.mp hc with rfl | hc
      · decide
      · simp [isAuthorityChar, isIpv6Char, (a.port_digits digits hport).2 c hc]

theorem isGraphic_of_isAlphanum {c : Char} (h : c.isAlphanum = true) : IsGraphic c := by
  have hrange : (65 ≤ c.toNat ∧ c.toNat ≤ 90) ∨ (97 ≤ c.toNat ∧ c.toNat ≤ 122) ∨
      (48 ≤ c.toNat ∧ c.toNat ≤ 57) := by
    simpa [Char.isAlphanum, Char.isAlpha, Char.isUpper, Char.isLower, Char.isDigit, UInt32.le_iff_toNat_le,
      or_assoc] using h
  unfold IsGraphic
  omega

theorem isGraphic_of_isNameChar {c : Char} (h : isNameChar c = true) : IsGraphic c := by
  have hmarks : ∀ c ∈ nameMarks, IsGraphic c := by simp [nameMarks, IsGraphic]
  simp only [isNameChar, Bool.or_eq_true, decide_eq_true_eq] at h
  rcases h with h | h
  · exact isGraphic_of_isAlphanum h
  · exact hmarks c h

theorem isGraphic_of_isIpv6Char {c : Char} (h : isIpv6Char c = true) : IsGraphic c := by
  have hmarks : ∀ c ∈ ipv6Marks, IsGraphic c := by simp [ipv6Marks, IsGraphic]
  simp only [isIpv6Char, Bool.or_eq_true, decide_eq_true_eq] at h
  rcases h with h | h
  · exact isGraphic_of_isDigit h
  · exact hmarks c h

theorem isGraphic_of_isAuthorityChar {c : Char} (h : isAuthorityChar c = true) : IsGraphic c := by
  simp only [isAuthorityChar, Bool.or_eq_true, beq_iff_eq] at h
  rcases h with ((h | h) | rfl) | rfl
  · exact isGraphic_of_isNameChar h
  · exact isGraphic_of_isIpv6Char h
  · decide
  · decide

theorem Authority.isGraphic_of_mem_text (a : Authority) : ∀ c ∈ a.text, IsGraphic c :=
  fun c hc => isGraphic_of_isAuthorityChar (a.isAuthorityChar_of_mem_text c hc)

/-! ### Reading an authority -/

/-- Up to the bracket, or else up to the colon. -/
def readHost : List Char → List Char
  | '[' :: rest => '[' :: (rest.takeWhile (· ≠ ']') ++ [']'])
  | text => text.takeWhile (· ≠ ':')

def readPort : List Char → Option UInt16
  | ':' :: digits => (parseUnsigned 65535 digits).map UInt16.ofNat
  | _ => none

def read (text : List Char) : Option Parsed :=
  some ⟨readHost text, readPort (text.drop (readHost text).length)⟩

theorem takeWhile_append_stop {p : Char → Bool} {cs rest : List Char} (hcs : ∀ c ∈ cs, p c = true)
    (hrest : ∀ c ∈ rest.head?, p c = false) : (cs ++ rest).takeWhile p = cs := by
  rw [List.takeWhile_append_of_pos hcs]
  rcases rest with - | ⟨c, rest⟩
  · rw [List.takeWhile_nil, List.append_nil]
  · rw [List.takeWhile_cons_of_neg (by simp [hrest c rfl]), List.append_nil]

namespace Authority

variable (a : Authority)

theorem head_port : ∀ c ∈ ((a.port.map (':' :: ·)).getD []).head?, c = ':' := by
  rcases a.port with - | digits
  · intro c hc
    cases hc
  · intro c hc
    exact (Option.some.inj hc).symm

theorem readHost_text : readHost a.text = a.host.text := by
  have hvalid := a.host_valid
  rw [text]
  rcases hhost : a.host with chars | chars
  · obtain ⟨hne, hchars⟩ := hhost ▸ hvalid
    obtain ⟨c, rest, rfl⟩ := List.exists_cons_of_ne_nil hne
    have hc : c ≠ '[' := ne_of_isNameChar (hchars c List.mem_cons_self) (by decide)
    have hhead : readHost (c :: (rest ++ (a.port.map (':' :: ·)).getD [])) =
        (c :: rest ++ (a.port.map (':' :: ·)).getD []).takeWhile (· ≠ ':') := by
      rw [readHost.eq_2 _ (by rintro r hr; exact hc (List.cons.inj hr).1), List.cons_append]
    show readHost (c :: (rest ++ (a.port.map (':' :: ·)).getD [])) = c :: rest
    rw [hhead]
    apply takeWhile_append_stop
    · intro d hd
      simp [ne_of_isNameChar (hchars d hd) (show isNameChar ':' = false by decide)]
    · intro d hd
      simp [a.head_port d hd]
  · obtain ⟨-, hchars⟩ := hhost ▸ hvalid
    show '[' :: ((chars ++ [']'] ++ (a.port.map (':' :: ·)).getD []).takeWhile (· ≠ ']') ++ [']']) = _
    rw [List.append_assoc, takeWhile_append_stop]
    · rfl
    · intro d hd
      simp [ne_of_isIpv6Char (hchars d hd) (show isIpv6Char ']' = false by decide)]
    · intro d hd
      simpa using hd.symm

theorem readPort_text : readPort (a.text.drop (readHost a.text).length) = a.portNumber := by
  rw [readHost_text, text, List.drop_left, portNumber]
  rcases hport : a.port with - | digits
  · rfl
  · obtain ⟨hne, hdigits⟩ := a.port_digits digits hport
    show (parseUnsigned 65535 digits).map UInt16.ofNat = _
    rw [parseUnsigned_digits hne hdigits, if_pos (a.port_range digits hport).2]
    rfl

end Authority

theorem read_lawful : Lawful read := by
  intro a
  rw [read, a.readPort_text, a.readHost_text]

end Uri
