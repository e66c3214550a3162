/-
Elise/Lib/Ascii.lean

ASCII symbols in the bytes of a text.

The bytes of a character are its code or are all beyond ASCII, so an ASCII symbol
stands in the bytes of a text where it stands in the text: the bytes of a line are
a line (`isLine_toUtf8`), and they are cut where the text is (`span_toUtf8`).
-/
import Elise.Lib.Lines
import Elise.Lib.Text

namespace Text

open Lines

theorem utf8EncodeChar_cases (c : Char) :
    (c.toNat < 128 ∧ String.utf8EncodeChar c = [UInt8.ofNat c.toNat]) ∨
      (128 ≤ c.toNat ∧ ∀ b ∈ String.utf8EncodeChar c, 128 ≤ b.toNat) := by
  fun_cases String.utf8EncodeChar c with
  | case1 v hle => exact .inl ⟨by show v < 128; omega, rfl⟩
  | case2 v h1 h2 =>
      refine .inr ⟨by show 128 ≤ v; omega, ?_⟩
      simp [UInt8.toNat_ofNat']
      omega
  | case3 v h1 h2 h3 =>
      refine .inr ⟨by show 128 ≤ v; omega, ?_⟩
      simp [UInt8.toNat_ofNat']
      omega
  | case4 v h1 h2 h3 =>
      refine .inr ⟨by show 128 ≤ v; omega, ?_⟩
      simp [UInt8.toNat_ofNat']
      omega

/-- What was read is written back. -/
theorem toUtf8_of_fromUtf8 {bytes : List UInt8} {cs : List Char} (h : fromUtf8 bytes = some cs) :
    toUtf8 cs = bytes := by
  obtain ⟨array, harray, rfl⟩ := Option.map_eq_some_iff.mp h
  have hsome : (ByteArray.utf8Decode? ⟨bytes.toArray⟩).isSome = true := by rw [harray]; rfl
  have hback := ByteArray.utf8Encode_get_utf8Decode? (h := hsome)
  simp only [harray, Option.get_some] at hback
  have hdata := congrArg (fun b : ByteArray => b.data.toList) hback
  rw [List.utf8Encode, List.data_toByteArray] at hdata
  exact hdata

/-- An ASCII symbol in the bytes of a text stands in the text. -/
theorem mem_of_mem_toUtf8 {b : UInt8} {cs : List Char} (hb : b.toNat < 128) (h : b ∈ toUtf8 cs) :
    Char.ofNat b.toNat ∈ cs := by
  obtain ⟨c, hc, hmem⟩ := List.mem_flatMap.mp h
  rcases utf8EncodeChar_cases c with ⟨hlow, henc⟩ | ⟨-, hhigh⟩
  · rw [henc] at hmem
    obtain rfl := List.mem_singleton.mp hmem
    rw [UInt8.toNat_ofNat_of_lt' (by show c.toNat < 256; omega), Char.ofNat_toNat]
    exact hc
  · have hle := hhigh b hmem
    omega

/-- The first byte of a text, where it is an ASCII symbol. -/
theorem head?_toUtf8 {b : UInt8} {cs : List Char} (hb : b.toNat < 128) (h : b ∈ (toUtf8 cs).head?) :
    Char.ofNat b.toNat ∈ cs.head? := by
  cases cs with
  | nil => cases h
  | cons c cs =>
      have hfirst : b ∈ (String.utf8EncodeChar c).head? := by
        rcases henc : String.utf8EncodeChar c with - | ⟨first, others⟩
        · exact absurd henc String.utf8EncodeChar_ne_nil
        · rw [toUtf8, List.flatMap_cons, henc] at h
          exact h
      have hmem : b ∈ toUtf8 [c] := List.mem_flatMap.mpr ⟨c, List.mem_singleton_self c, List.mem_of_mem_head? hfirst⟩
      rw [List.mem_singleton.mp (mem_of_mem_toUtf8 hb hmem)]
      rfl

/-- The bytes of a line are a line. -/
theorem isLine_toUtf8 {cs : List Char} (h : IsLine '\r' '\n' cs) : IsLine 13 10 (toUtf8 cs) := by
  induction cs with
  | nil => exact .nil
  | cons c cs ih =>
      obtain ⟨hhead, htail⟩ := List.isChain_cons.mp h
      show IsLine 13 10 (String.utf8EncodeChar c ++ toUtf8 cs)
      apply List.isChain_append.mpr
      refine ⟨?_, ih htail, ?_⟩
      · -- a character of more than one byte has no ASCII symbol in it
        rcases utf8EncodeChar_cases c with ⟨-, henc⟩ | ⟨-, hhigh⟩
        · rw [henc]
          exact .singleton _
        · apply isLine_of_not_mem
          intro hmem
          exact absurd (hhigh 13 hmem) (by decide)
      · rintro x hx y hy ⟨rfl, rfl⟩
        have hmem : (13 : UInt8) ∈ toUtf8 [c] :=
          List.mem_flatMap.mpr ⟨c, List.mem_singleton_self c, List.mem_of_getLast? hx⟩
        have hc := List.mem_singleton.mp (mem_of_mem_toUtf8 (by decide) hmem)
        exact hhead _ (head?_toUtf8 (by decide) hy) ⟨hc.symm, rfl⟩

/-- **A text is cut at an ASCII symbol where its bytes are.** -/
theorem span_toUtf8 {c : Char} {b : UInt8} (hb : b.toNat < 128) (hc : Char.ofNat b.toNat = c)
    {before : List Char} (hbefore : c ∉ before) (after : List Char) :
    (toUtf8 (before ++ c :: after)).span (· ≠ b) = (toUtf8 before, b :: toUtf8 after) := by
  have hcode : c.toNat = b.toNat := by
    rw [← hc, Char.toNat_ofNat, if_pos (.inl (by omega))]
  have hcut : toUtf8 (before ++ c :: after) = toUtf8 before ++ b :: toUtf8 after := by
    rw [toUtf8_append]
    rcases utf8EncodeChar_cases c with ⟨-, henc⟩ | ⟨hhigh, -⟩
    · show _ ++ (String.utf8EncodeChar c ++ toUtf8 after) = _
      rw [henc, hcode, UInt8.ofNat_toNat]
      rfl
    · omega
  have hnot : ∀ x ∈ toUtf8 before, decide (x ≠ b) = true := by
    intro x hmem
    apply decide_eq_true
    rintro rfl
    exact hbefore (hc ▸ mem_of_mem_toUtf8 hb hmem)
  rw [hcut, List.span_eq_takeWhile_dropWhile, List.takeWhile_append_of_pos hnot,
    List.dropWhile_append_of_pos hnot]
  simp

theorem splitOnce_eq_some {c : Char} {cs before after : List Char}
    (h : splitOnce c cs = some (before, after)) : cs = before ++ c :: after ∧ c ∉ before := by
  rw [splitOnce, List.span_eq_takeWhile_dropWhile] at h
  rcases hdrop : cs.dropWhile (· ≠ c) with - | ⟨d, rest⟩
  · rw [hdrop] at h
    cases h
  · rw [hdrop] at h
    obtain ⟨rfl, rfl⟩ := Prod.mk.inj (Option.some.inj h)
    have hd : d = c := by
      have hself := List.dropWhile_idempotent (· ≠ c) cs
      rw [hdrop] at hself
      have hnot := List.dropWhile_eq_self_iff.mp hself (Nat.zero_lt_succ _)
      simpa using hnot
    refine ⟨?_, ?_⟩
    · conv_lhs => rw [← List.takeWhile_append_dropWhile (p := (· ≠ c)) (l := cs), hdrop, hd]
    · intro hmem
      simpa using List.mem_takeWhile_imp hmem

theorem splitOnce_eq_none {c : Char} {cs : List Char} (h : splitOnce c cs = none) : c ∉ cs := by
  rw [splitOnce, List.span_eq_takeWhile_dropWhile] at h
  rcases hdrop : cs.dropWhile (· ≠ c) with - | ⟨d, rest⟩
  · intro hmem
    simpa using List.dropWhile_eq_nil_iff.mp hdrop c hmem
  · rw [hdrop] at h
    cases h

theorem splitOnce_append {c : Char} {before : List Char} (h : c ∉ before) (after : List Char) :
    splitOnce c (before ++ c :: after) = some (before, after) := by
  have hall : ∀ d ∈ before, decide (d ≠ c) = true := by
    intro d hmem
    apply decide_eq_true
    rintro rfl
    exact h hmem
  rw [splitOnce, List.span_eq_takeWhile_dropWhile, List.takeWhile_append_of_pos hall,
    List.dropWhile_append_of_pos hall]
  simp

/-! ### Lines -/

theorem toUtf8_joined (ls : List (List Char)) :
    toUtf8 (joined '\r' '\n' ls) = joined 13 10 (ls.map toUtf8) := by
  induction ls with
  | nil => rfl
  | cons l ls ih =>
      by_cases hls : ls = []
      · subst hls
        rw [joined, List.intercalate_singleton, List.map_singleton, joined, List.intercalate_singleton]
      · have hmap : ls.map toUtf8 ≠ [] := by simpa using hls
        rw [joined_cons hls, toUtf8_append, List.map_cons, joined_cons hmap, ← ih]
        rfl

/-- **The lines of a text are the lines of its bytes.** -/
theorem split_of_fromUtf8 {ls : List (List UInt8)} {text : List Char} (hls : ls ≠ [])
    (hlines : ∀ l ∈ ls, IsLine 13 10 l) (h : fromUtf8 (joined 13 10 ls) = some text) :
    (split '\r' '\n' text).map toUtf8 = ls := by
  have hbytes := toUtf8_of_fromUtf8 h
  rw [← joined_split '\r' '\n' text, toUtf8_joined] at hbytes
  have hparts : (split '\r' '\n' text).map toUtf8 ≠ [] := by
    simpa using split_ne_nil text
  refine joined_inj (by decide) hparts hls ?_ hlines hbytes
  intro l hmem
  obtain ⟨part, hpart, rfl⟩ := List.mem_map.mp hmem
  exact isLine_toUtf8 (isLine_of_mem_split hpart)

/-! ### Parts of a text -/

/-- A text that is cut at a line feed. -/
theorem fromUtf8_first {l rest : List UInt8} (hl : 10 ∉ l) : fromUtf8 (l ++ 10 :: rest) =
    (fromUtf8 l).bind fun line => (fromUtf8 rest).map fun more => line ++ '\n' :: more := by
  cases htext : fromUtf8 (l ++ 10 :: rest) with
  | none =>
      cases hline : fromUtf8 l with
      | none => rfl
      | some line =>
          cases hmore : fromUtf8 rest with
          | none => rfl
          | some more =>
              have hbytes : toUtf8 (line ++ '\n' :: more) = l ++ 10 :: rest := by
                rw [toUtf8_append, toUtf8_of_fromUtf8 hline, ← toUtf8_of_fromUtf8 hmore]
                rfl
              rw [← hbytes, fromUtf8_toUtf8] at htext
              cases htext
  | some text =>
      have hbytes := toUtf8_of_fromUtf8 htext
      have hfeed : '\n' ∈ text := by
        apply mem_of_mem_toUtf8 (b := 10) (by decide)
        rw [hbytes]
        exact List.mem_append_right l List.mem_cons_self
      cases hsplit : splitOnce '\n' text with
      | none => exact absurd hfeed (splitOnce_eq_none hsplit)
      | some parts =>
          obtain ⟨line, more⟩ := parts
          obtain ⟨rfl, hline⟩ := splitOnce_eq_some hsplit
          have hspan : (toUtf8 (line ++ '\n' :: more)).span (· ≠ 10) = _ :=
            span_toUtf8 (by decide) (by decide) hline more
          have hall : ∀ b ∈ l, decide (b ≠ 10) = true := by
            intro b hb
            apply decide_eq_true
            rintro rfl
            exact hl hb
          rw [hbytes, List.span_eq_takeWhile_dropWhile, List.takeWhile_append_of_pos hall,
            List.dropWhile_append_of_pos hall] at hspan
          obtain ⟨hfront, hback⟩ := Prod.mk.inj hspan
          have hl' : l = toUtf8 line := by simpa using hfront
          have hrest : rest = toUtf8 more := by simpa using hback
          rw [hl', hrest, fromUtf8_toUtf8, fromUtf8_toUtf8]
          rfl

/-- Both parts of a text that is cut at a line feed are texts. -/
theorem fromUtf8_line (l rest : List UInt8) : fromUtf8 (l ++ 10 :: rest) =
    (fromUtf8 l).bind fun line => (fromUtf8 rest).map fun more => line ++ '\n' :: more := by
  induction hn : l.length using Nat.strongRecOn generalizing l with
  | ind n ih =>
      subst hn
      by_cases hl : 10 ∈ l
      · obtain ⟨first, others, hfirst, rfl⟩ : ∃ first others, 10 ∉ first ∧ l = first ++ 10 :: others := by
          obtain ⟨first, others, heq, hnot⟩ := List.eq_append_cons_of_mem hl
          exact ⟨first, others, hnot, heq⟩
        have hless : others.length < (first ++ 10 :: others).length := by
          rw [List.length_append, List.length_cons]
          omega
        rw [List.append_assoc, List.cons_append, fromUtf8_first hfirst, ih _ hless others rfl,
          fromUtf8_first hfirst]
        cases fromUtf8 first with
        | none => rfl
        | some line =>
            cases fromUtf8 others with
            | none => rfl
            | some line' =>
                cases fromUtf8 rest with
                | none => rfl
                | some more => simp
      · exact fromUtf8_first hl

/-- A byte that is an ASCII symbol is a character. -/
theorem fromUtf8_cons {b : UInt8} (hb : b.toNat < 128) (rest : List UInt8) :
    fromUtf8 (b :: rest) = (fromUtf8 rest).map fun cs => Char.ofNat b.toNat :: cs := by
  have hencode : String.utf8EncodeChar (Char.ofNat b.toNat) = [b] := by
    have hcode : (Char.ofNat b.toNat).toNat = b.toNat := by
      rw [Char.toNat_ofNat, if_pos (.inl (by omega))]
    rcases utf8EncodeChar_cases (Char.ofNat b.toNat) with ⟨-, henc⟩ | ⟨hhigh, -⟩
    · rw [henc, hcode, UInt8.ofNat_toNat]
    · omega
  cases htext : fromUtf8 (b :: rest) with
  | none =>
      cases hrest : fromUtf8 rest with
      | none => rfl
      | some cs =>
          have hbytes : toUtf8 (Char.ofNat b.toNat :: cs) = b :: rest := by
            rw [toUtf8, List.flatMap_cons, hencode, ← toUtf8_of_fromUtf8 hrest]
            rfl
          rw [← hbytes, fromUtf8_toUtf8] at htext
          cases htext
  | some text =>
      have hbytes := toUtf8_of_fromUtf8 htext
      have hhead := @head?_toUtf8 b text hb (by rw [hbytes]; rfl)
      cases text with
      | nil => cases hhead
      | cons c cs =>
          obtain rfl := Option.some.inj hhead
          rw [toUtf8, List.flatMap_cons, hencode] at hbytes
          have hrest : rest = toUtf8 cs := (List.cons.inj hbytes).2.symm
          rw [hrest, fromUtf8_toUtf8]
          rfl

/-- ASCII symbols in front of a text. -/
theorem fromUtf8_ascii {front : List Char} (hfront : ∀ c ∈ front, c.toNat < 128) (rest : List UInt8) :
    fromUtf8 (toUtf8 front ++ rest) = (fromUtf8 rest).map (front ++ ·) := by
  induction front with
  | nil => exact Option.map_id'.symm
  | cons c front ih =>
      have hc := hfront c List.mem_cons_self
      have hbyte : (UInt8.ofNat c.toNat).toNat = c.toNat :=
        UInt8.toNat_ofNat_of_lt' (by show c.toNat < 256; omega)
      have hencode : toUtf8 (c :: front) = UInt8.ofNat c.toNat :: toUtf8 front := by
        rw [toUtf8_ascii hfront, toUtf8_ascii fun d hd => hfront d (List.mem_cons_of_mem c hd)]
        rfl
      rw [hencode, List.cons_append, fromUtf8_cons (by rw [hbyte]; exact hc),
        ih fun d hd => hfront d (List.mem_cons_of_mem c hd), hbyte, Char.ofNat_toNat, Option.map_map]
      rfl

/-! ### Words and blanks -/

theorem of_mem_splitOnP {p : Char → Bool} {cs part : List Char} (h : part ∈ cs.splitOnP p) :
    ∀ c ∈ part, p c = false := by
  induction cs generalizing part with
  | nil =>
      obtain rfl := List.mem_singleton.mp h
      exact nofun
  | cons d cs ih =>
      rw [List.splitOnP_cons_eq_if_modifyHead] at h
      split at h
      · rcases List.mem_cons.mp h with rfl | hmem
        · exact nofun
        · exact ih hmem
      · rename_i hd
        obtain ⟨first, rest, hparts⟩ := List.exists_cons_of_ne_nil (List.splitOnP_ne_nil p cs)
        rw [hparts] at h
        rcases List.mem_cons.mp h with rfl | hmem
        · intro c hc
          rcases List.mem_cons.mp hc with rfl | hc
          · simpa using hd
          · exact ih (hparts ▸ List.mem_cons_self) c hc
        · exact ih (hparts ▸ List.mem_cons_of_mem _ hmem)

/-- There are no blanks in a word. -/
theorem of_mem_splitWhitespace {cs word : List Char} (h : word ∈ splitWhitespace cs) :
    ∀ c ∈ word, isWhitespace c = false :=
  of_mem_splitOnP (List.mem_of_mem_filter h)

theorem infix_trim (cs : List Char) : trim cs <:+: cs := by
  have hback : trim cs <+: cs.dropWhile isWhitespace := List.rdropWhile_prefix _ _
  exact hback.isInfix.trans (List.dropWhile_suffix _).isInfix

/-- Trimming once is enough. -/
theorem trim_trim (cs : List Char) : trim (trim cs) = trim cs := by
  have hfront : (trim cs).dropWhile isWhitespace = trim cs := by
    apply List.dropWhile_eq_self_iff.mpr
    intro hpos
    have hback : trim cs <+: cs.dropWhile isWhitespace := List.rdropWhile_prefix _ _
    have hlen := Nat.lt_of_lt_of_le hpos hback.length_le
    have hnot := List.dropWhile_get_zero_not isWhitespace cs hlen
    rw [hback.getElem hpos]
    exact hnot
  rw [trim.eq_def (trim cs), trimMatches, hfront]
  exact List.rdropWhile_idempotent _ _

end Text
