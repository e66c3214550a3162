/-
Elise/Lib/Text.lean

Text as lists of characters: decimal and hexadecimal numbers, words, lines and UTF-8.

`parseUnsigned bound` is the decimal reader of an unsigned integer type whose largest value is
`bound`: an optional `+`, at least one ASCII digit, nothing else, and no value above the bound.
It inverts the decimal writer `Nat.repr`.

`splitWhitespace` takes a text apart at runs of Unicode white space, and `fromUtf8` reads a text
from its bytes.  Words of graphic ASCII characters that were joined by single spaces come back
from both.  What readers of configuration files do to a text is here as well: cut it into lines,
trim it, split it at a character.
-/
import Mathlib

namespace Text

/-! ### Decimal numbers -/

theorem repr_injective : Function.Injective Nat.repr := by
  intro m n h
  have hd : Nat.toDigits 10 m = Nat.toDigits 10 n := by
    rw [← Nat.toList_repr, ← Nat.toList_repr, h]
  have hv := congrArg (fun l => Nat.ofDigitChars 10 l 0) hd
  simpa only [Nat.ofDigitChars_ten_toDigits] using hv

/-- Drop one leading `+`. -/
def dropPlus : List Char → List Char
  | '+' :: rest => rest
  | cs => cs

/-- Read a decimal number of at most `bound`. -/
def parseUnsigned (bound : Nat) (cs : List Char) : Option Nat :=
  let digits := dropPlus cs
  if digits.isEmpty || !digits.all Char.isDigit then none
  else
    let n := Nat.ofDigitChars 10 digits 0
    if n ≤ bound then some n else none

theorem dropPlus_of_isDigit {cs : List Char} (h : ∀ c ∈ cs, c.isDigit = true) :
    dropPlus cs = cs := by
  unfold dropPlus
  split
  · rename_i rest
    have := h '+' (by simp)
    simp [Char.isDigit] at this
  · rfl

theorem isDigit_of_mem_repr {n : Nat} {c : Char} (h : c ∈ n.repr.toList) :
    c.isDigit = true := by
  rw [Nat.toList_repr] at h
  exact Nat.isDigit_of_mem_toDigits (by decide) (by decide) h

/-- A non-empty run of digits is read as its value. -/
theorem parseUnsigned_digits {bound : Nat} {cs : List Char} (hne : cs ≠ [])
    (hd : ∀ c ∈ cs, c.isDigit = true) :
    parseUnsigned bound cs =
      if Nat.ofDigitChars 10 cs 0 ≤ bound then some (Nat.ofDigitChars 10 cs 0) else none := by
  have hall : cs.all Char.isDigit = true := List.all_eq_true.mpr hd
  have hemp : cs.isEmpty = false := List.isEmpty_eq_false_iff.mpr hne
  simp only [parseUnsigned, dropPlus_of_isDigit hd, hall, hemp, Bool.not_true, Bool.or_self,
    Bool.false_eq_true, if_false]

/-- Reading back what `Nat.repr` wrote. -/
theorem parseUnsigned_repr {bound n : Nat} (h : n ≤ bound) :
    parseUnsigned bound n.repr.toList = some n := by
  have hne : n.repr.toList ≠ [] := by
    rw [Nat.toList_repr]
    exact Nat.toDigits_ne_nil
  have hval : Nat.ofDigitChars 10 n.repr.toList 0 = n := by
    rw [Nat.toList_repr]
    exact Nat.ofDigitChars_ten_toDigits
  rw [parseUnsigned_digits hne fun c hc => isDigit_of_mem_repr hc, hval, if_pos h]

/-! ### Graphic characters -/

/-- The printing ASCII characters other than the space. -/
def IsGraphic (c : Char) : Prop := 0x21 ≤ c.toNat ∧ c.toNat ≤ 0x7E

instance (c : Char) : Decidable (IsGraphic c) := inferInstanceAs (Decidable (_ ∧ _))

theorem isGraphic_of_isDigit {c : Char} (h : c.isDigit = true) : IsGraphic c := by
  rw [Char.isDigit, Bool.and_eq_true, decide_eq_true_iff, decide_eq_true_iff] at h
  have hlow : 48 ≤ c.toNat := UInt32.le_iff_toNat_le.mp h.1
  have hhigh : c.toNat ≤ 57 := UInt32.le_iff_toNat_le.mp h.2
  constructor <;> omega

theorem isGraphic_digitChar {d : Nat} (h : d < 16) : IsGraphic (Nat.digitChar d) := by
  have hall : ∀ d : Fin 16, IsGraphic (Nat.digitChar d) := by decide
  exact hall ⟨d, h⟩

theorem isGraphic_of_mem_toDigits {b n : Nat} {c : Char} (hb : 1 < b) (hb' : b ≤ 16)
    (h : c ∈ Nat.toDigits b n) : IsGraphic c := by
  -- the last digit is graphic, the others are those of `n / b`
  induction n using Nat.strongRecOn with
  | ind n ih =>
      rw [Nat.toDigits_eq_if hb] at h
      split at h
      · obtain rfl := List.mem_singleton.mp h
        exact isGraphic_digitChar (by omega)
      · rename_i hn
        have hmod : n % b < b := Nat.mod_lt n (by omega)
        rcases List.mem_append.mp h with h | h
        · exact ih (n / b) (Nat.div_lt_self (by omega) hb) h
        · obtain rfl := List.mem_singleton.mp h
          exact isGraphic_digitChar (by omega)

/-! ### Words -/

/-- Unicode `White_Space`. -/
def isWhitespace (c : Char) : Bool :=
  let n := c.toNat
  (0x09 ≤ n && n ≤ 0x0D) || n = 0x20 || n = 0x85 || n = 0xA0 || n = 0x1680
    || (0x2000 ≤ n && n ≤ 0x200A) || n = 0x2028 || n = 0x2029 || n = 0x202F
    || n = 0x205F || n = 0x3000

/-- The maximal runs of characters that are not white space. -/
def splitWhitespace (cs : List Char) : List (List Char) :=
  (cs.splitOnP isWhitespace).filter fun word => !word.isEmpty

theorem isWhitespace_of_isGraphic {c : Char} (h : IsGraphic c) : isWhitespace c = false := by
  obtain ⟨hlow, hhigh⟩ := h
  simp [isWhitespace]
  omega

/-- A word: graphic characters, at least one. -/
structure IsWord (cs : List Char) : Prop where
  ne_nil : cs ≠ []
  graphic : ∀ c ∈ cs, IsGraphic c

instance (cs : List Char) : Decidable (IsWord cs) :=
  decidable_of_iff (cs.isEmpty = false ∧ cs.all (fun c => decide (IsGraphic c)) = true)
    ⟨fun h => ⟨fun hnil => by simp [hnil] at h, by simpa using h.2⟩,
      fun h => ⟨by simpa using h.ne_nil, by simpa using h.graphic⟩⟩

theorem isWord_toDigits (b n : Nat) (hb : 1 < b) (hb' : b ≤ 16) : IsWord (Nat.toDigits b n) :=
  ⟨Nat.toDigits_ne_nil, fun _ hc => isGraphic_of_mem_toDigits hb hb' hc⟩

theorem IsWord.append {cs ds : List Char} (h : IsWord cs) (hd : ∀ c ∈ ds, IsGraphic c) :
    IsWord (cs ++ ds) := by
  refine ⟨fun hnil => h.ne_nil (List.append_eq_nil_iff.mp hnil).1, ?_⟩
  intro c hc
  rcases List.mem_append.mp hc with hc | hc
  · exact h.graphic c hc
  · exact hd c hc

/-- What holds of the separator and of the characters of the words holds of
the characters of the text. -/
theorem forall_mem_intercalate {P : Char → Prop} {sep : Char} {words : List (List Char)}
    (hsep : P sep) (h : ∀ w ∈ words, ∀ c ∈ w, P c) : ∀ c ∈ [sep].intercalate words, P c := by
  induction words with
  | nil => simp
  | cons word rest ih =>
      have hword := h word (by simp)
      cases rest with
      | nil =>
          rw [List.intercalate_singleton]
          exact hword
      | cons next rest =>
          have hrest := ih fun w hw => h w (List.mem_cons_of_mem _ hw)
          rw [List.intercalate_cons_cons]
          intro c hc
          rcases List.mem_append.mp hc with hc | hc
          · rcases List.mem_append.mp hc with hc | hc
            · exact hword c hc
            · obtain rfl := List.mem_singleton.mp hc
              exact hsep
          · exact hrest c hc

/-- Words joined by a graphic separator are one word. -/
theorem isWord_intercalate {sep : Char} {words : List (List Char)} (hsep : IsGraphic sep)
    (h : ∀ w ∈ words, IsWord w) (hne : words ≠ []) : IsWord ([sep].intercalate words) := by
  refine ⟨?_, forall_mem_intercalate hsep fun w hw => (h w hw).graphic⟩
  obtain ⟨word, rest, rfl⟩ := List.exists_cons_of_ne_nil hne
  have hword : word ≠ [] := (h word (by simp)).ne_nil
  cases rest with
  | nil => rwa [List.intercalate_singleton]
  | cons next rest =>
      rw [List.intercalate_cons_cons]
      simp [hword]

theorem splitWhitespace_word {word : List Char} (h : IsWord word) :
    splitWhitespace word = [word] := by
  have hno : ∀ c ∈ word, isWhitespace c = false := fun c hc =>
    isWhitespace_of_isGraphic (h.graphic c hc)
  have hemp : word.isEmpty = false := List.isEmpty_eq_false_iff.mpr h.ne_nil
  rw [splitWhitespace, List.splitOnP_eq_singleton hno]
  simp [hemp]

/-- Words joined by single spaces are taken apart again. -/
theorem splitWhitespace_intercalate {words : List (List Char)} (h : ∀ w ∈ words, IsWord w)
    (hne : words ≠ []) : splitWhitespace ([' '].intercalate words) = words := by
  induction words with
  | nil => exact absurd rfl hne
  | cons word rest ih =>
      have hword : IsWord word := h word (by simp)
      cases rest with
      | nil =>
          rw [List.intercalate_singleton]
          exact splitWhitespace_word hword
      | cons next rest =>
          have hrest := ih (fun w hw => h w (List.mem_cons_of_mem _ hw)) (by simp)
          have hspace : isWhitespace ' ' = true := by decide
          have happ : [' '].intercalate (word :: next :: rest) =
              word ++ ' ' :: [' '].intercalate (next :: rest) := by
            rw [List.intercalate_cons_cons, List.append_assoc]
            rfl
          rw [happ, splitWhitespace, List.splitOnP_append_cons _ _ hspace, List.filter_append]
          change splitWhitespace word ++ splitWhitespace _ = _
          rw [splitWhitespace_word hword, hrest]
          rfl

/-! ### UTF-8 -/

/-- The text that bytes spell, if they are well-formed UTF-8. -/
def fromUtf8 (bytes : List UInt8) : Option (List Char) :=
  (ByteArray.utf8Decode? ⟨bytes.toArray⟩).map Array.toList

/-- The bytes of a text. -/
def toUtf8 (cs : List Char) : List UInt8 := cs.flatMap String.utf8EncodeChar

theorem fromUtf8_toUtf8 (cs : List Char) : fromUtf8 (toUtf8 cs) = some cs := by
  have hbytes : (⟨(toUtf8 cs).toArray⟩ : ByteArray) = cs.utf8Encode := by
    apply ByteArray.ext
    rw [List.utf8Encode, List.data_toByteArray]
    rfl
  rw [fromUtf8, hbytes, List.utf8Decode?_utf8Encode]
  rfl

theorem toUtf8_append (cs ds : List Char) : toUtf8 (cs ++ ds) = toUtf8 cs ++ toUtf8 ds :=
  List.flatMap_append

/-- A byte of an ASCII text is the code of one of its characters. -/
theorem toUtf8_ascii {cs : List Char} (h : ∀ c ∈ cs, c.toNat < 128) :
    toUtf8 cs = cs.map fun c => UInt8.ofNat c.toNat := by
  induction cs with
  | nil => rfl
  | cons c cs ih =>
      have hc : c.toNat < 128 := h c (by simp)
      have hsize : c.utf8Size = 1 := by
        have hle : c.val ≤ 0x7F := by
          rw [UInt32.le_iff_toNat_le]
          show c.toNat ≤ 127
          omega
        simp [Char.utf8Size, hle]
      have hone : String.utf8EncodeChar c = [UInt8.ofNat c.toNat] := by
        rw [String.utf8EncodeChar_eq_singleton hsize]
        rfl
      rw [toUtf8, List.flatMap_cons, hone, List.map_cons]
      exact congrArg _ (ih fun d hd => h d (List.mem_cons_of_mem _ hd))

/-! ### Cutting and trimming -/

/-- Without what satisfies `p` at both ends. -/
def trimMatches (p : Char → Bool) (cs : List Char) : List Char :=
  (cs.dropWhile p).rdropWhile p

def trim (cs : List Char) : List Char := trimMatches isWhitespace cs

/-- Without a carriage return at the end. -/
def stripCr (cs : List Char) : List Char :=
  if cs.getLast? = some '\r' then cs.dropLast else cs

/-- The lines of a text: they end in a line feed, maybe after a carriage
return, and the last one may do without. -/
def lines (cs : List Char) : List (List Char) :=
  let parts := cs.splitOn '\n'
  let last := parts.getLast?.getD []
  parts.dropLast.map stripCr ++ if last.isEmpty then [] else [last]

/-- What stands before and after the first `c`. -/
def splitOnce (c : Char) (cs : List Char) : Option (List Char × List Char) :=
  match cs.span (· ≠ c) with
  | (_, []) => none
  | (before, _ :: after) => some (before, after)

/-- `needle` stands somewhere in `cs`. -/
def contains (cs needle : List Char) : Bool := decide (needle <:+: cs)

/-- `cs` is `suffix`, or ends in `.suffix`. -/
def underDomain (suffix cs : List Char) : Bool :=
  cs == suffix || ('.' :: suffix).isSuffixOf cs

/-- The rest of a text that begins with the first of `heads` that fits. -/
def stripAny (heads : List (List Char)) (cs : List Char) : Option (List Char) :=
  heads.findSome? fun head => head.isPrefixOf? cs

theorem isPrefixOf?_eq_some_iff {head cs rest : List Char} :
    head.isPrefixOf? cs = some rest ↔ cs = head ++ rest := by
  induction head generalizing cs with
  | nil =>
      rw [List.isPrefixOf?, Option.some.injEq]
      rfl
  | cons c head ih =>
      cases cs with
      | nil => simp [List.isPrefixOf?]
      | cons d cs =>
          rw [List.isPrefixOf?]
          by_cases hcd : c = d
          · subst hcd
            rw [if_pos (beq_self_eq_true c), ih, List.cons_append, List.cons.injEq, and_iff_right rfl]
          · have hne : ¬ (c == d) = true := by simpa using hcd
            rw [if_neg hne, List.cons_append, List.cons.injEq]
            exact iff_of_false (by simp) fun h => hcd h.1.symm

/-- What is stripped is one of the heads. -/
theorem stripAny_eq_some {heads : List (List Char)} {cs rest : List Char}
    (h : stripAny heads cs = some rest) : ∃ head ∈ heads, cs = head ++ rest := by
  obtain ⟨head, hmem, hstrip⟩ := List.exists_of_findSome?_eq_some h
  exact ⟨head, hmem, isPrefixOf?_eq_some_iff.mp hstrip⟩

/-- A text with one of some heads has none of the others. -/
theorem stripAny_eq_none {heads heads' : List (List Char)} {cs rest : List Char}
    (h : stripAny heads cs = some rest)
    (hne : ∀ head ∈ heads, ∀ head' ∈ heads', ¬ head <+: head' ∧ ¬ head' <+: head) :
    stripAny heads' cs = none := by
  obtain ⟨head, hmem, hcs⟩ := stripAny_eq_some h
  rcases hother : stripAny heads' cs with - | rest'
  · rfl
  · obtain ⟨head', hmem', hcs'⟩ := stripAny_eq_some hother
    have hfront : head <+: cs := by
      rw [hcs]
      exact List.prefix_append head rest
    have hfront' : head' <+: cs := by
      rw [hcs']
      exact List.prefix_append head' rest'
    rcases List.prefix_or_prefix_of_prefix hfront hfront' with hle | hle
    · exact absurd hle (hne head hmem head' hmem').1
    · exact absurd hle (hne head hmem head' hmem').2

theorem stripAny_eq_none_of_subset {heads heads' : List (List Char)} {cs : List Char}
    (h : stripAny heads cs = none) (hsub : heads' ⊆ heads) : stripAny heads' cs = none := by
  apply List.findSome?_eq_none_iff.mpr
  intro head hmem
  exact List.findSome?_eq_none_iff.mp h head (hsub hmem)

theorem stripAny_singleton_append (head rest : List Char) :
    stripAny [head] (head ++ rest) = some rest := by
  rw [stripAny, List.findSome?_cons, isPrefixOf?_eq_some_iff.mpr rfl]

def toAsciiLowercase (cs : List Char) : List Char := cs.map Char.toLower

def eqIgnoreAsciiCase (cs ds : List Char) : Bool := toAsciiLowercase cs == toAsciiLowercase ds

end Text

namespace Text

/-- The value of a digit, of either case. -/
def hexDigit (c : Char) : Option Nat :=
  if '0' ≤ c ∧ c ≤ '9' then some (c.toNat - 48)
  else if 'a' ≤ c ∧ c ≤ 'f' then some (c.toNat - 87)
  else if 'A' ≤ c ∧ c ≤ 'F' then some (c.toNat - 55)
  else none

def IsHex (cs : List Char) : Prop := ∀ c ∈ cs, (hexDigit c).isSome = true

/-- What digits are worth behind others. -/
def hexValue (n : Nat) (cs : List Char) : Nat :=
  cs.foldl (fun n c => n * 16 + (hexDigit c).getD 0) n

/-- Read digits behind others, as long as the number stays below `bound`. -/
def readHex (bound : Nat) : Nat → List Char → Option Nat
  | n, [] => some n
  | n, c :: cs =>
      match hexDigit c with
      | none => none
      | some digit => if n * 16 + digit < bound then readHex bound (n * 16 + digit) cs else none

/-- Read a hexadecimal number below `bound`; leading zeros do not matter. -/
def parseHex (bound : Nat) (cs : List Char) : Option Nat :=
  let digits := dropPlus cs
  if digits.isEmpty then none else readHex bound 0 digits

/-- A number in capital letters. -/
def upperHex (n : Nat) : List Char := (Nat.toDigits 16 n).map Char.toUpper

/-- Two digits for each byte. -/
def hexEncode (bytes : List UInt8) : List Char :=
  bytes.flatMap fun b => [Nat.digitChar (b.toNat / 16), Nat.digitChar (b.toNat % 16)]

theorem le_hexValue (n : Nat) (cs : List Char) : n ≤ hexValue n cs := by
  induction cs generalizing n with
  | nil => exact Nat.le_refl _
  | cons c cs ih => exact Nat.le_trans (by omega) (ih (n * 16 + (hexDigit c).getD 0))

theorem hexValue_append (n : Nat) (cs ds : List Char) :
    hexValue n (cs ++ ds) = hexValue (hexValue n cs) ds := List.foldl_append

theorem readHex_of_isHex {bound : Nat} {cs : List Char} (h : IsHex cs) {n : Nat}
    (hlt : hexValue n cs < bound) : readHex bound n cs = some (hexValue n cs) := by
  induction cs generalizing n with
  | nil => rfl
  | cons c cs ih =>
      obtain ⟨digit, hdigit⟩ := Option.isSome_iff_exists.mp (h c List.mem_cons_self)
      have hvalue : hexValue n (c :: cs) = hexValue (n * 16 + digit) cs := by
        show hexValue (n * 16 + (hexDigit c).getD 0) cs = _
        rw [hdigit]
        rfl
      rw [hvalue] at hlt ⊢
      have hle := le_hexValue (n * 16 + digit) cs
      rw [readHex, hdigit]
      dsimp only
      rw [if_pos (by omega)]
      exact ih (fun d hmem => h d (List.mem_cons_of_mem _ hmem)) hlt

theorem IsHex.ne_plus {cs : List Char} (h : IsHex cs) : dropPlus cs = cs := by
  unfold dropPlus
  split
  · exact absurd (h '+' List.mem_cons_self) (by decide)
  · rfl

/-- A number is read as what its digits are worth. -/
theorem parseHex_of_isHex {bound : Nat} {cs : List Char} (h : IsHex cs) (hne : cs ≠ [])
    (hlt : hexValue 0 cs < bound) : parseHex bound cs = some (hexValue 0 cs) := by
  have hnot : ¬ cs.isEmpty = true := by simpa using hne
  rw [parseHex, h.ne_plus, if_neg hnot, readHex_of_isHex h hlt]

theorem hexDigit_toUpper {d : Nat} (h : d < 16) : hexDigit d.digitChar.toUpper = some d := by
  have hall : ∀ d < 16, hexDigit (Nat.digitChar d).toUpper = some d := by decide
  exact hall d h

theorem isHex_upperHex (n : Nat) : IsHex (upperHex n) := by
  induction n using Nat.strongRecOn with
  | ind n ih =>
      rcases Nat.lt_or_ge n 16 with hlt | hge
      · rw [upperHex, Nat.toDigits_of_lt_base hlt]
        intro c hmem
        rw [List.mem_singleton.mp hmem, hexDigit_toUpper hlt]
        rfl
      · rw [upperHex, Nat.toDigits_of_base_le (by decide) hge, List.map_append]
        intro c hmem
        rcases List.mem_append.mp hmem with hmem | hmem
        · exact ih (n / 16) (by omega) c hmem
        · rw [List.mem_singleton.mp hmem, hexDigit_toUpper (by omega)]
          rfl

/-- Capital digits are worth their number. -/
theorem hexValue_upperHex (n : Nat) : hexValue 0 (upperHex n) = n := by
  induction n using Nat.strongRecOn with
  | ind n ih =>
      rcases Nat.lt_or_ge n 16 with hlt | hge
      · rw [upperHex, Nat.toDigits_of_lt_base hlt]
        show 0 * 16 + (hexDigit n.digitChar.toUpper).getD 0 = n
        rw [hexDigit_toUpper hlt, Option.getD_some]
        omega
      · have hbefore := ih (n / 16) (by omega)
        rw [upperHex] at hbefore
        rw [upperHex, Nat.toDigits_of_base_le (by decide) hge, List.map_append, hexValue_append,
          hbefore]
        show n / 16 * 16 + (hexDigit (n % 16).digitChar.toUpper).getD 0 = n
        rw [hexDigit_toUpper (by omega), Option.getD_some]
        omega

theorem upperHex_ne_nil (n : Nat) : upperHex n ≠ [] := by
  rw [upperHex, Ne, List.map_eq_nil_iff]
  exact Nat.toDigits_ne_nil

end Text
