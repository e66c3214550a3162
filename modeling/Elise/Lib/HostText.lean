/-
Elise/Lib/HostText.lean

Host names as bytes: how they are read when they need not be well formed, and
the text of an address as a host name.

`fromUtf8Lossy` puts a replacement character in place of each longest run of
bytes that begins a character and does not go on as one.  A text comes back as it
is (`fromUtf8Lossy_toUtf8`).  The text of an address is short enough for a length
of one byte (`IpAddr.length_chars_lt`).
-/
import Elise.Lib.Net

namespace Text

/-- U+FFFD. -/
def replacement : Char := Char.ofNat 0xFFFD

/-- A byte that continues a character. -/
def isContinuation (b : UInt8) : Bool := 0x80 ≤ b && b ≤ 0xBF

/-- The second byte of a character of three or four bytes. -/
def isSecond (first second : UInt8) : Bool :=
  if first = 0xE0 then 0xA0 ≤ second && second ≤ 0xBF
  else if first = 0xED then 0x80 ≤ second && second ≤ 0x9F
  else if first = 0xF0 then 0x90 ≤ second && second ≤ 0xBF
  else if first = 0xF4 then 0x80 ≤ second && second ≤ 0x8F
  else isContinuation second

/-- How many bytes a character with this first byte has; 0 where there is
none. -/
def charWidth (first : UInt8) : Nat :=
  if first < 0x80 then 1
  else if 0xC2 ≤ first ∧ first ≤ 0xDF then 2
  else if 0xE0 ≤ first ∧ first ≤ 0xEF then 3
  else if 0xF0 ≤ first ∧ first ≤ 0xF4 then 4
  else 0

/-- The six low bits. -/
def low6 (b : UInt8) : Nat := b.toNat % 64

/-- The character that begins with `b₀`, or a replacement, and how many of the
following bytes belong to it. -/
def decodeHead (b₀ : UInt8) (rest : List UInt8) : Char × Nat :=
  if charWidth b₀ = 1 then (Char.ofNat b₀.toNat, 0)
  else if charWidth b₀ = 2 then
    match rest with
    | b₁ :: _ =>
        if isContinuation b₁ then (Char.ofNat (b₀.toNat % 32 * 64 + low6 b₁), 1)
        else (replacement, 0)
    | [] => (replacement, 0)
  else if charWidth b₀ = 3 then
    match rest with
    | b₁ :: b₂ :: _ =>
        if isSecond b₀ b₁ then
          if isContinuation b₂ then
            (Char.ofNat ((b₀.toNat % 16 * 64 + low6 b₁) * 64 + low6 b₂), 2)
          else (replacement, 1)
        else (replacement, 0)
    | [b₁] => (replacement, if isSecond b₀ b₁ then 1 else 0)
    | [] => (replacement, 0)
  else if charWidth b₀ = 4 then
    match rest with
    | b₁ :: b₂ :: b₃ :: _ =>
        if isSecond b₀ b₁ then
          if isContinuation b₂ then
            if isContinuation b₃ then
              (Char.ofNat (((b₀.toNat % 8 * 64 + low6 b₁) * 64 + low6 b₂) * 64 + low6 b₃), 3)
            else (replacement, 2)
          else (replacement, 1)
        else (replacement, 0)
    | [b₁, b₂] =>
        (replacement, if isSecond b₀ b₁ then if isContinuation b₂ then 2 else 1 else 0)
    | [b₁] => (replacement, if isSecond b₀ b₁ then 1 else 0)
    | [] => (replacement, 0)
  else (replacement, 0)

/-- The characters, after bytes that belong to the character before. -/
def decodeLossy : Nat → List UInt8 → List Char
  | _, [] => []
  | skip + 1, _ :: rest => decodeLossy skip rest
  | 0, b₀ :: rest => (decodeHead b₀ rest).1 :: decodeLossy (decodeHead b₀ rest).2 rest

/-- `String::from_utf8_lossy`. -/
def fromUtf8Lossy (bytes : List UInt8) : List Char := decodeLossy 0 bytes

theorem charWidth_toNat (b : UInt8) : charWidth b =
    if b.toNat < 128 then 1 else if 194 ≤ b.toNat ∧ b.toNat ≤ 223 then 2
    else if 224 ≤ b.toNat ∧ b.toNat ≤ 239 then 3 else if 240 ≤ b.toNat ∧ b.toNat ≤ 244 then 4 else 0 := by
  simp only [charWidth, UInt8.lt_iff_toNat_lt, UInt8.le_iff_toNat_le]
  rfl

theorem isContinuation_toNat (b : UInt8) : isContinuation b = (decide (128 ≤ b.toNat) && decide (b.toNat ≤ 191)) := by
  simp only [isContinuation, UInt8.le_iff_toNat_le]
  rfl

theorem isSecond_toNat (b b' : UInt8) : isSecond b b' =
    if b.toNat = 224 then decide (160 ≤ b'.toNat) && decide (b'.toNat ≤ 191)
    else if b.toNat = 237 then decide (128 ≤ b'.toNat) && decide (b'.toNat ≤ 159)
    else if b.toNat = 240 then decide (144 ≤ b'.toNat) && decide (b'.toNat ≤ 191)
    else if b.toNat = 244 then decide (128 ≤ b'.toNat) && decide (b'.toNat ≤ 143)
    else decide (128 ≤ b'.toNat) && decide (b'.toNat ≤ 191) := by
  simp only [isSecond, isContinuation, UInt8.le_iff_toNat_le, ← UInt8.toNat_inj]
  rfl

/-- The first byte of a character tells its width, and the others follow. -/
theorem decodeHead_utf8EncodeChar (c : Char) (rest : List UInt8) : ∃ b more,
    String.utf8EncodeChar c = b :: more ∧ decodeHead b (more ++ rest) = (c, more.length) := by
  have hvalid : c.toNat < 0xD800 ∨ (0xDFFF < c.toNat ∧ c.toNat < 0x110000) := c.valid
  have hbyte : ∀ n < 256, (UInt8.ofNat n).toNat = n := fun n hn => UInt8.toNat_ofNat_of_lt' hn
  have hval : c.val.toNat = c.toNat := rfl
  have hc := Char.ofNat_toNat c
  rw [String.utf8EncodeChar, hval]
  generalize c.toNat = v at *
  split_ifs with h1 h2 h3
  · refine ⟨_, _, rfl, ?_⟩
    have hwidth : charWidth (UInt8.ofNat v) = 1 := by
      rw [charWidth_toNat, hbyte v (by omega), if_pos (by omega)]
    unfold decodeHead
    rw [if_pos hwidth, hbyte v (by omega), hc]
    rfl
  · refine ⟨_, _, rfl, ?_⟩
    have hwidth : charWidth (UInt8.ofNat (v / 64 % 32 + 192)) = 2 := by
      rw [charWidth_toNat, hbyte _ (by omega), if_neg (by omega), if_pos (by omega)]
    have hcont : isContinuation (UInt8.ofNat (v % 64 + 128)) = true := by
      rw [isContinuation_toNat, hbyte _ (by omega), Bool.and_eq_true, decide_eq_true_iff, decide_eq_true_iff]
      omega
    have hvalue : (v / 64 % 32 + 192) % 32 * 64 + (v % 64 + 128) % 64 = v := by omega
    unfold decodeHead
    rw [hwidth, if_neg (by decide), if_pos rfl, List.cons_append]
    dsimp only
    rw [hcont, if_pos rfl, low6, hbyte _ (by omega), hbyte _ (by omega), hvalue, hc]
    rfl
  · refine ⟨_, _, rfl, ?_⟩
    have hwidth : charWidth (UInt8.ofNat (v / 4096 % 16 + 224)) = 3 := by
      rw [charWidth_toNat, hbyte _ (by omega), if_neg (by omega), if_neg (by omega), if_pos (by omega)]
    have hsecond : isSecond (UInt8.ofNat (v / 4096 % 16 + 224)) (UInt8.ofNat (v / 64 % 64 + 128)) = true := by
      rw [isSecond_toNat, hbyte _ (by omega), hbyte _ (by omega)]
      split_ifs <;> rw [Bool.and_eq_true, decide_eq_true_iff, decide_eq_true_iff] <;> omega
    have hcont : isContinuation (UInt8.ofNat (v % 64 + 128)) = true := by
      rw [isContinuation_toNat, hbyte _ (by omega), Bool.and_eq_true, decide_eq_true_iff, decide_eq_true_iff]
      omega
    have hvalue : ((v / 4096 % 16 + 224) % 16 * 64 + (v / 64 % 64 + 128) % 64) * 64 + (v % 64 + 128) % 64 = v := by
      omega
    unfold decodeHead
    rw [hwidth, if_neg (by decide), if_neg (by decide), if_pos rfl, List.cons_append, List.cons_append]
    dsimp only
    rw [hsecond, if_pos rfl, hcont, if_pos rfl, low6, low6, hbyte _ (by omega), hbyte _ (by omega),
      hbyte _ (by omega), hvalue, hc]
    rfl
  · refine ⟨_, _, rfl, ?_⟩
    have hwidth : charWidth (UInt8.ofNat (v / 262144 % 8 + 240)) = 4 := by
      rw [charWidth_toNat, hbyte _ (by omega), if_neg (by omega), if_neg (by omega), if_neg (by omega),
        if_pos (by omega)]
    have hsecond : isSecond (UInt8.ofNat (v / 262144 % 8 + 240)) (UInt8.ofNat (v / 4096 % 64 + 128)) = true := by
      rw [isSecond_toNat, hbyte _ (by omega), hbyte _ (by omega)]
      split_ifs <;> rw [Bool.and_eq_true, decide_eq_true_iff, decide_eq_true_iff] <;> omega
    have hcont : ∀ n, isContinuation (UInt8.ofNat (n % 64 + 128)) = true := by
      intro n
      rw [isContinuation_toNat, hbyte _ (by omega), Bool.and_eq_true, decide_eq_true_iff, decide_eq_true_iff]
      omega
    have hvalue : (((v / 262144 % 8 + 240) % 8 * 64 + (v / 4096 % 64 + 128) % 64) * 64 +
        (v / 64 % 64 + 128) % 64) * 64 + (v % 64 + 128) % 64 = v := by
      omega
    unfold decodeHead
    rw [hwidth, if_neg (by decide), if_neg (by decide), if_neg (by decide), if_pos rfl,
      List.cons_append, List.cons_append, List.cons_append]
    dsimp only
    rw [hsecond, if_pos rfl, hcont, if_pos rfl, hcont, if_pos rfl, low6, low6, low6, hbyte _ (by omega),
      hbyte _ (by omega), hbyte _ (by omega), hbyte _ (by omega), hvalue, hc]
    rfl

theorem decodeLossy_append {n : Nat} {more : List UInt8} (h : more.length = n) (rest : List UInt8) :
    decodeLossy n (more ++ rest) = decodeLossy 0 rest := by
  induction more generalizing n with
  | nil => rw [← h]; rfl
  | cons b more ih =>
      rw [← h, List.cons_append]
      exact ih rfl

/-- A text in front is read as it is. -/
theorem fromUtf8Lossy_toUtf8_append (cs : List Char) (bytes : List UInt8) :
    fromUtf8Lossy (toUtf8 cs ++ bytes) = cs ++ fromUtf8Lossy bytes := by
  rw [fromUtf8Lossy, fromUtf8Lossy, toUtf8]
  induction cs with
  | nil => rfl
  | cons c cs ih =>
      rw [List.flatMap_cons, List.append_assoc]
      obtain ⟨b, more, hencode, hdecode⟩ :=
        decodeHead_utf8EncodeChar c (cs.flatMap String.utf8EncodeChar ++ bytes)
      rw [hencode, List.cons_append, decodeLossy, hdecode, decodeLossy_append rfl, ih]
      rfl

/-- **A text is read as it is.** -/
theorem fromUtf8Lossy_toUtf8 (cs : List Char) : fromUtf8Lossy (toUtf8 cs) = cs := by
  have hread := fromUtf8Lossy_toUtf8_append cs []
  rw [List.append_nil] at hread
  exact hread.trans (List.append_nil cs)

example : fromUtf8Lossy [0x61, 0xC3, 0xA9, 0xE2, 0x82, 0x62, 0xFF] = ['a', 'é', replacement, 'b', replacement] := by
  decide

theorem IsWord.ascii {cs : List Char} (h : IsWord cs) : ∀ c ∈ cs, c.toNat < 128 := by
  intro c hc
  have := (h.graphic c hc).2
  omega

theorem length_intercalate_le (sep : Char) (words : List (List Char)) {n : Nat}
    (h : ∀ w ∈ words, w.length ≤ n) :
    ([sep].intercalate words).length ≤ (n + 1) * words.length := by
  induction words with
  | nil => simp [List.intercalate]
  | cons w words ih =>
      have hw := h w (by simp)
      have hrest := ih fun v hv => h v (List.mem_cons_of_mem _ hv)
      cases words with
      | nil => simp [List.intercalate] at hrest ⊢; omega
      | cons v words =>
          have hcons : [sep].intercalate (w :: v :: words) =
              w ++ [sep] ++ [sep].intercalate (v :: words) := by simp [List.intercalate]
          rw [hcons]
          simp only [List.length_append, List.length_cons, List.length_nil, Nat.mul_add] at hrest ⊢
          omega

end Text

namespace Net

theorem Ipv4Addr.length_chars_le (addr : Ipv4Addr) : addr.chars.length ≤ 16 := by
  have hwords : ∀ w ∈ addr.octets.map (fun octet => Nat.toDigits 10 octet.toNat), w.length ≤ 3 := by
    intro w hw
    obtain ⟨octet, -, rfl⟩ := List.mem_map.mp hw
    refine (Nat.length_toDigits_le_iff (by decide) (by decide)).mpr ?_
    have := octet.toNat_lt
    omega
  have hlen := Text.length_intercalate_le '.' _ hwords
  rw [List.length_map, addr.length_octets] at hlen
  exact hlen

theorem segmentsOf_bounds (octets : List UInt8) :
    (segmentsOf octets).length ≤ octets.length ∧ ∀ s ∈ segmentsOf octets, s < 65536 := by
  fun_induction segmentsOf octets with
  | case1 hi lo rest ih =>
      refine ⟨by simp only [List.length_cons]; omega, ?_⟩
      intro s hs
      rcases List.mem_cons.mp hs with rfl | hs
      · have := hi.toNat_lt
        have := lo.toNat_lt
        omega
      · exact ih.2 s hs
  | case2 => simp

theorem length_segmentChars_le {segments : List Nat} (h : ∀ s ∈ segments, s < 65536) :
    (segmentChars segments).length ≤ 5 * segments.length := by
  have hwords : ∀ w ∈ segments.map (fun segment => Nat.toDigits 16 segment), w.length ≤ 4 := by
    intro w hw
    obtain ⟨segment, hmem, rfl⟩ := List.mem_map.mp hw
    exact (Nat.length_toDigits_le_iff (by decide) (by decide)).mpr (h segment hmem)
  have hlen := Text.length_intercalate_le ':' _ hwords
  rw [List.length_map] at hlen
  exact hlen

theorem Ipv6Addr.length_chars_le (addr : Ipv6Addr) : addr.chars.length ≤ 162 := by
  obtain ⟨hlen, hsmall⟩ := segmentsOf_bounds addr.octets
  rw [addr.length_octets] at hlen
  have hall : addr.segments.length ≤ 16 := hlen
  rw [Ipv6Addr.chars]
  split
  · rename_i mapped hmapped
    have := mapped.length_chars_le
    rw [List.length_append]
    have hlead : "::ffff:".toList.length = 7 := by decide
    omega
  · dsimp only
    split
    · set zeros := longestZeros addr.segments
      have htake := @length_segmentChars_le (addr.segments.take zeros.start)
        fun s hs => hsmall s (List.mem_of_mem_take hs)
      have hdrop := @length_segmentChars_le (addr.segments.drop (zeros.start + zeros.len))
        fun s hs => hsmall s (List.mem_of_mem_drop hs)
      simp only [List.length_append, List.length_cons, List.length_nil, List.length_take,
        List.length_drop] at htake hdrop ⊢
      omega
    · have := length_segmentChars_le hsmall
      have hseg : (segmentChars addr.segments).length ≤ 5 * addr.segments.length := this
      omega

/-- The text of an address, as a host name. -/
def IpAddr.textBytes (addr : IpAddr) : List UInt8 := Text.toUtf8 addr.chars

theorem IpAddr.length_textBytes_lt (addr : IpAddr) : addr.textBytes.length < 256 := by
  rw [textBytes, Text.toUtf8_ascii addr.isWord_chars.ascii, List.length_map]
  cases addr with
  | v4 addr =>
      have := addr.length_chars_le
      show addr.chars.length < 256
      omega
  | v6 addr =>
      have := addr.length_chars_le
      show addr.chars.length < 256
      omega

theorem IpAddr.fromUtf8Lossy_textBytes (addr : IpAddr) :
    Text.fromUtf8Lossy addr.textBytes = addr.chars :=
  Text.fromUtf8Lossy_toUtf8 addr.chars

end Net
