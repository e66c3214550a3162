/-
Elise/Transport/Chunked.lean

The chunked coding as a channel.

Each state of the reader stands somewhere in a body (`Stands`), whatever of it has
come so far; what it does keeps to that (`next_right`), so the data are handed out.
The writer sends the coding of what it accepts (`Sends`).
-/
import Elise.Lib.Serving
import Elise.Transport.XHttp

namespace Elise

namespace Transport

namespace Chunked

open Poll Serving Text

/-! ### Lines -/

/-- Of a buffer that begins with a line, or with a part of it, the line is found when
it is there with its end. -/
theorem findSubslice_line {line rest buf more : List UInt8} (hline : ¬ crlf <:+: line)
    (h : buf ++ more = line ++ (crlf ++ rest)) :
    findSubslice crlf buf = if line.length + 2 ≤ buf.length then some line.length else none := by
  have hfirst : ¬ crlf <:+: line ++ [13] := by
    rintro ⟨before, after, heq⟩
    rcases List.eq_nil_or_concat after with rfl | ⟨after, last, rfl⟩
    · rw [List.append_nil] at heq
      have hlast := congrArg List.getLast? heq
      simp [crlf] at hlast
    · rw [List.concat_eq_append, ← List.append_assoc] at heq
      obtain ⟨rfl, -⟩ := List.append_inj' heq rfl
      exact hline ⟨before, after, rfl⟩
  exact Lines.find_first (List.cons_ne_nil _ _) hfirst h

theorem isGraphic_of_hexDigit {c : Char} (h : (hexDigit c).isSome = true) :
    IsGraphic c ∧ c ≠ ';' := by
  have hbounds : ∀ {lo hi : Char}, lo ≤ c ∧ c ≤ hi → lo.toNat ≤ c.toNat ∧ c.toNat ≤ hi.toNat :=
    fun h => ⟨UInt32.le_iff_toNat_le.mp h.1, UInt32.le_iff_toNat_le.mp h.2⟩
  rw [IsGraphic]
  unfold hexDigit at h
  split_ifs at h with h0 h1 h2
  · have hb := hbounds h0
    have hlo : '0'.toNat = 48 := rfl
    have hhi : '9'.toNat = 57 := rfl
    refine ⟨by omega, ?_⟩
    rintro rfl
    have hsemi : ';'.toNat = 59 := rfl
    omega
  · have hb := hbounds h1
    have hlo : 'a'.toNat = 97 := rfl
    have hhi : 'f'.toNat = 102 := rfl
    refine ⟨by omega, ?_⟩
    rintro rfl
    have hsemi : ';'.toNat = 59 := rfl
    omega
  · have hb := hbounds h2
    have hlo : 'A'.toNat = 65 := rfl
    have hhi : 'F'.toNat = 70 := rfl
    refine ⟨by omega, ?_⟩
    rintro rfl
    have hsemi : ';'.toNat = 59 := rfl
    omega
  · cases h

/-- Blanks behind a text without any are trimmed. -/
theorem trim_append {text blank : List Char} (hne : text ≠ [])
    (htext : ∀ c ∈ text, isWhitespace c = false) (hblank : ∀ c ∈ blank, isWhitespace c = true) :
    trim (text ++ blank) = text := by
  have hfront : (text ++ blank).dropWhile isWhitespace = text ++ blank := by
    cases text with
    | nil => exact absurd rfl hne
    | cons c text =>
        rw [List.cons_append, List.dropWhile_cons_of_neg]
        simp [htext c List.mem_cons_self]
  have hback : text.reverse.dropWhile isWhitespace = text.reverse := by
    cases hrev : text.reverse with
    | nil => rfl
    | cons c others =>
        rw [List.dropWhile_cons_of_neg]
        have hmem : c ∈ text := List.mem_reverse.mp (hrev ▸ List.mem_cons_self)
        simp [htext c hmem]
  rw [trim, trimMatches, hfront, List.rdropWhile, List.reverse_append,
    List.dropWhile_append_of_pos (fun c hmem => hblank c (List.mem_reverse.mp hmem)), hback,
    List.reverse_reverse]

/-- The line in front of a chunk: a number, blanks, and extensions, if there are any,
behind a semicolon. -/
structure SizeLine where
  digits : List Char
  blank : List Char
  extensions : List Char
  digits_ne : digits ≠ []
  digits_hex : IsHex digits
  blank_white : ∀ c ∈ blank, isWhitespace c = true
  semicolon : ∀ c ∈ extensions.head?, c = ';'
  short : hexValue 0 digits < 2 ^ 64
  oneLine : ¬ crlf <:+: toUtf8 (digits ++ blank ++ extensions)

def SizeLine.bytes (line : SizeLine) : List UInt8 :=
  toUtf8 (line.digits ++ line.blank ++ line.extensions)

def SizeLine.size (line : SizeLine) : Nat := hexValue 0 line.digits

/-- **The length in a line is read.** -/
theorem SizeLine.chunkLen_bytes (line : SizeLine) :
    XHttpChunkedStream.chunkLen line.bytes = some line.size := by
  have hdigits : ∀ c ∈ line.digits, isWhitespace c = false ∧ c ≠ ';' := by
    intro c hmem
    obtain ⟨hgraphic, hne⟩ := isGraphic_of_hexDigit (line.digits_hex c hmem)
    exact ⟨isWhitespace_of_isGraphic hgraphic, hne⟩
  have hblank : ∀ c ∈ line.blank, c ≠ ';' := by
    rintro c hmem rfl
    exact absurd (line.blank_white ';' hmem) (by decide)
  have hextensions : line.extensions.takeWhile (· ≠ ';') = [] := by
    have hhead := line.semicolon
    generalize line.extensions = extensions at hhead
    cases extensions with
    | nil => rfl
    | cons c extensions =>
        obtain rfl : c = ';' := hhead c rfl
        rfl
  have hsplit : (line.digits ++ line.blank ++ line.extensions).takeWhile (· ≠ ';') =
      line.digits ++ line.blank := by
    rw [List.takeWhile_append_of_pos, hextensions, List.append_nil]
    intro c hmem
    rcases List.mem_append.mp hmem with hmem | hmem
    · simpa using (hdigits c hmem).2
    · simpa using hblank c hmem
  rw [XHttpChunkedStream.chunkLen, bytes, fromUtf8_toUtf8]
  dsimp only
  rw [hsplit, trim_append line.digits_ne (fun c hmem => (hdigits c hmem).1) line.blank_white,
    parseHex_of_isHex line.digits_hex line.digits_ne line.short]
  rfl

/-! ### The coding -/

structure Chunk where
  line : SizeLine
  data : List UInt8
  data_ne : data ≠ []
  sized : line.size = data.length

def Chunk.bytes (c : Chunk) : List UInt8 := c.line.bytes ++ (crlf ++ (c.data ++ crlf))

/-- The chunk without bytes, and the trailers. -/
structure Last where
  line : SizeLine
  trailers : List (List UInt8)
  zero : line.size = 0
  trailers_ne : ∀ trailer ∈ trailers, trailer ≠ []
  oneLine : ∀ trailer ∈ trailers, ¬ crlf <:+: trailer

def trailerBytes (trailers : List (List UInt8)) : List UInt8 :=
  (trailers.map (· ++ crlf)).flatten ++ crlf

def Last.bytes (l : Last) : List UInt8 := l.line.bytes ++ (crlf ++ trailerBytes l.trailers)

/-- What the chunks hold. -/
def dataOf (cs : List Chunk) : List UInt8 := (cs.map Chunk.data).flatten

/-- A body, and what comes behind it. -/
def bodyBytes (cs : List Chunk) (l : Last) (behind : List UInt8) : List UInt8 :=
  (cs.map Chunk.bytes).flatten ++ (l.bytes ++ behind)

theorem bodyBytes_cons (c : Chunk) (cs : List Chunk) (l : Last) (behind : List UInt8) :
    bodyBytes (c :: cs) l behind =
      c.line.bytes ++ (crlf ++ (c.data ++ (crlf ++ bodyBytes cs l behind))) := by
  simp only [bodyBytes, List.map_cons, List.flatten_cons, Chunk.bytes, List.append_assoc]

theorem bodyBytes_nil (l : Last) (behind : List UInt8) :
    bodyBytes [] l behind = l.line.bytes ++ (crlf ++ (trailerBytes l.trailers ++ behind)) := by
  simp only [bodyBytes, List.map_nil, List.flatten_nil, List.nil_append, Last.bytes,
    List.append_assoc]

theorem trailerBytes_cons (trailer : List UInt8) (trailers : List (List UInt8)) (behind : List UInt8) :
    trailerBytes (trailer :: trailers) ++ behind =
      trailer ++ (crlf ++ (trailerBytes trailers ++ behind)) := by
  simp only [trailerBytes, List.map_cons, List.flatten_cons, List.append_assoc]

/-! ### Reading -/

/-- Where a state stands in a body: the bytes before it, and the data that they
hold. -/
inductive Stands : ChunkState → (bytes rest : List UInt8) → Prop
  | length (cs : List Chunk) (l : Last) (behind : List UInt8) :
      Stands .readingLength (bodyBytes cs l behind) (dataOf cs)
  | data {data : List UInt8} (hne : data ≠ []) (cs : List Chunk) (l : Last) (behind : List UInt8) :
      Stands (.readingData data.length) (data ++ (crlf ++ bodyBytes cs l behind)) (data ++ dataOf cs)
  | crlf (cs : List Chunk) (l : Last) (behind : List UInt8) :
      Stands .readingCrlf (Transport.crlf ++ bodyBytes cs l behind) (dataOf cs)
  | trailer {trailers : List (List UInt8)} (hne : ∀ trailer ∈ trailers, trailer ≠ [])
      (hline : ∀ trailer ∈ trailers, ¬ Transport.crlf <:+: trailer) (behind : List UInt8) :
      Stands .readingTrailer (trailerBytes trailers ++ behind) []
  | eof (bytes : List UInt8) : Stands .eof bytes []

variable {s : XHttpChunkedStream} {incoming rest : List UInt8} {cap : Nat}

/-- What a state may do before the bytes that are still to come. -/
inductive Right (s : XHttpChunkedStream) (incoming rest : List UInt8) (cap : Nat) :
    XHttpChunkedStream.Next → Prop
  | fetch {size : Nat} {result : Result (List UInt8)} {ended : XHttpChunkedStream} :
      0 < size → incoming ≠ [] → Right s incoming rest cap (.fetch size result ended)
  | again {s' : XHttpChunkedStream} :
      Stands s'.state (s'.readBuf ++ incoming) rest → s'.readBuf.length < s.readBuf.length →
        Right s incoming rest cap (.again s')
  | answer {s' : XHttpChunkedStream} {out rest' : List UInt8} :
      rest = out ++ rest' → out.length ≤ cap → Stands s'.state (s'.readBuf ++ incoming) rest' →
        (out = [] → rest = [] ∧ s'.state = .eof) →
          Right s incoming rest cap (.answer (.ready out) s')

/-- A line is in the buffer, with what is behind it; or more of it is to come. -/
theorem line_cases {buf line more : List UInt8} (hline : ¬ crlf <:+: line)
    (h : buf ++ incoming = line ++ (crlf ++ more)) :
    (findSubslice crlf buf = some line.length ∧ buf.take line.length = line ∧
      buf.drop (line.length + 2) ++ incoming = more ∧ line.length + 2 ≤ buf.length) ∨
      (findSubslice crlf buf = none ∧ incoming ≠ []) := by
  have hfind := findSubslice_line hline h
  by_cases hle : line.length + 2 ≤ buf.length
  · rw [if_pos hle] at hfind
    refine .inl ⟨hfind, ?_, ?_, hle⟩
    · have htake := congrArg (List.take line.length) h
      rw [List.take_append_of_le_length (by omega), List.take_left] at htake
      exact htake
    · have hdrop := congrArg (List.drop (line.length + 2)) h
      rw [List.drop_append_of_le_length hle, ← List.append_assoc,
        List.drop_left' (by rw [List.length_append]; rfl)] at hdrop
      exact hdrop
  · rw [if_neg hle] at hfind
    refine .inr ⟨hfind, ?_⟩
    rintro rfl
    have hlen := congrArg List.length h
    simp only [List.length_append, List.length_nil, crlf, List.length_cons] at hlen
    omega

theorem right_length (hstate : s.state = .readingLength) {line : SizeLine} {more : List UInt8}
    (h : s.readBuf ++ incoming = line.bytes ++ (crlf ++ more))
    (hafter : Stands (if line.size = 0 then .readingTrailer else .readingData line.size) more rest) :
    Right s incoming rest cap (s.next cap) := by
  rw [XHttpChunkedStream.next.eq_def, hstate]
  dsimp only
  rcases line_cases line.oneLine h with ⟨hfind, htake, hdrop, hle⟩ | ⟨hfind, hmore⟩
  · rw [hfind]
    dsimp only
    rw [htake, show XHttpChunkedStream.chunkLen (toUtf8 _) = _ from line.chunkLen_bytes]
    refine .again ?_ ?_
    · show Stands _ (s.readBuf.drop (_ + 2) ++ incoming) rest
      rw [hdrop]
      exact hafter
    · show (s.readBuf.drop (_ + 2)).length < s.readBuf.length
      rw [List.length_drop]
      omega
  · rw [hfind]
    exact .fetch (by decide) hmore

/-- **What a state does**, when there is room. -/
theorem next_right (hcap : 0 < cap) (h : Stands s.state (s.readBuf ++ incoming) rest) :
    Right s incoming rest cap (s.next cap) := by
  generalize hstate : s.state = state at h
  generalize hbytes : s.readBuf ++ incoming = bytes at h
  cases h with
  | length cs l behind =>
      cases cs with
      | nil =>
          rw [bodyBytes_nil] at hbytes
          apply right_length hstate hbytes
          rw [if_pos l.zero]
          exact .trailer l.trailers_ne l.oneLine behind
      | cons c cs =>
          rw [bodyBytes_cons] at hbytes
          apply right_length hstate hbytes
          have hpos := List.length_pos_iff.mpr c.data_ne
          rw [c.sized, if_neg (by omega)]
          exact .data c.data_ne cs l behind
  | @data data hne cs l behind =>
      rw [XHttpChunkedStream.next.eq_def, hstate]
      dsimp only
      have hpos := List.length_pos_iff.mpr hne
      split
      · rename_i hsome
        have hbuf : s.readBuf ≠ [] := by simpa using hsome
        have hbufpos := List.length_pos_iff.mpr hbuf
        generalize hcopy : min (min cap s.readBuf.length) data.length = toCopy
        have htake : s.readBuf.take toCopy = data.take toCopy := by
          have htake := congrArg (List.take toCopy) hbytes
          rwa [List.take_append_of_le_length (by omega), List.take_append_of_le_length (by omega)]
            at htake
        have hdrop : s.readBuf.drop toCopy ++ incoming =
            data.drop toCopy ++ (crlf ++ bodyBytes cs l behind) := by
          have hdrop := congrArg (List.drop toCopy) hbytes
          rwa [List.drop_append_of_le_length (by omega), List.drop_append_of_le_length (by omega)]
            at hdrop
        have hrest : data ++ dataOf cs = s.readBuf.take toCopy ++ (data.drop toCopy ++ dataOf cs) := by
          rw [htake, ← List.append_assoc, List.take_append_drop]
        refine .answer hrest ?_ ?_ ?_
        · rw [List.length_take]
          omega
        · show Stands (if data.length - toCopy = 0 then .readingCrlf
            else .readingData (data.length - toCopy)) (s.readBuf.drop toCopy ++ incoming) _
          rw [hdrop]
          by_cases hall : data.length - toCopy = 0
          · rw [if_pos hall, List.drop_eq_nil_of_le (by omega)]
            exact .crlf cs l behind
          · rw [if_neg hall, ← List.length_drop]
            refine .data ?_ cs l behind
            rw [Ne, List.drop_eq_nil_iff]
            omega
        · intro hnil
          have hlen := congrArg List.length hnil
          rw [List.length_take, List.length_nil] at hlen
          omega
      · rename_i hempty
        have hbuf : s.readBuf = [] := by simpa using hempty
        refine .fetch (by decide) ?_
        rintro rfl
        rw [hbuf] at hbytes
        have hlen := congrArg List.length hbytes
        simp only [List.length_append, List.length_nil] at hlen
        omega
  | crlf cs l behind =>
      rw [XHttpChunkedStream.next.eq_def, hstate]
      dsimp only
      split
      · rename_i hle
        refine .again ?_ ?_
        · have hdrop := congrArg (List.drop 2) hbytes
          rw [List.drop_append_of_le_length hle] at hdrop
          show Stands .readingLength (s.readBuf.drop 2 ++ incoming) (dataOf cs)
          rw [hdrop]
          exact .length cs l behind
        · show (s.readBuf.drop 2).length < s.readBuf.length
          rw [List.length_drop]
          omega
      · rename_i hlt
        refine .fetch (by decide) ?_
        rintro rfl
        have hlen := congrArg List.length hbytes
        simp only [List.length_append, List.length_nil, Transport.crlf, List.length_cons] at hlen
        omega
  | @trailer trailers hne hline behind =>
      rw [XHttpChunkedStream.next.eq_def, hstate]
      dsimp only
      cases trailers with
      | nil =>
          have hend : s.readBuf ++ incoming = [] ++ (Transport.crlf ++ behind) := hbytes
          rcases line_cases (show ¬ Transport.crlf <:+: [] by decide) hend with ⟨hfind, -, hdrop, -⟩ | ⟨hfind, hmore⟩
          · rw [hfind]
            exact .answer rfl (Nat.zero_le _) (.eof _) fun _ => ⟨rfl, rfl⟩
          · rw [hfind]
            exact .fetch (by decide) hmore
      | cons trailer trailers =>
          rw [trailerBytes_cons] at hbytes
          have hpos := List.length_pos_iff.mpr (hne trailer List.mem_cons_self)
          rcases line_cases (hline trailer List.mem_cons_self) hbytes with
            ⟨hfind, -, hdrop, hle⟩ | ⟨hfind, hmore⟩
          · rw [hfind]
            dsimp only
            rw [if_neg (by omega)]
            refine .again ?_ ?_
            · show Stands .readingTrailer (s.readBuf.drop (trailer.length + 2) ++ incoming) []
              rw [hdrop]
              exact .trailer (fun t hmem => hne t (List.mem_cons_of_mem _ hmem))
                (fun t hmem => hline t (List.mem_cons_of_mem _ hmem)) behind
            · show (s.readBuf.drop (trailer.length + 2)).length < s.readBuf.length
              rw [List.length_drop]
              omega
          · rw [hfind]
            exact .fetch (by decide) hmore
  | eof bytes =>
      rw [XHttpChunkedStream.next.eq_def, hstate]
      refine .answer rfl (Nat.zero_le _) ?_ fun _ => ⟨rfl, hstate⟩
      rw [hstate]
      exact .eof _

/-- Where the reader stands; at the end it does not wait any more. -/
def Holds (r : XHttpChunkedStream × Arrivals UInt8) (rest : List UInt8) (n : Nat) (e : Ending) :
    Prop :=
  r.2.Proper ∧ n = (if r.1.state = .eof then 0 else r.2.delays) ∧ e = .eof ∧
    Stands r.1.state (r.1.readBuf ++ r.2.items) rest

theorem Holds.of_stands {a : Arrivals UInt8} {n : Nat} (hproper : a.Proper) (hle : a.delays ≤ n)
    (h : Stands s.state (s.readBuf ++ a.items) rest) :
    ∃ m ≤ n, Holds (s, a) rest m .eof := by
  refine ⟨if s.state = .eof then 0 else a.delays, ?_, hproper, rfl, rfl, h⟩
  split
  · exact Nat.zero_le _
  · exact hle

/-- A call goes on until it can answer, or has to wait. -/
theorem readLoop_answered (hcap : 0 < cap) {fuel : Nat} {a : Arrivals UInt8} {n : Nat}
    (hproper : a.Proper) (hle : a.delays ≤ n) (h : Stands s.state (s.readBuf ++ a.items) rest)
    (hfuel : s.readBuf.length + 2 * a.items.length < fuel) :
    Answered Holds rest n .eof cap (XHttpChunkedStream.readLoop fuel s a cap) := by
  induction fuel generalizing s a with
  | zero => cases hfuel
  | succ fuel ih =>
      rw [XHttpChunkedStream.readLoop]
      have hright := next_right hcap h
      generalize s.next cap = what at hright
      cases hright with
      | answer hrest hlen hstands hend =>
          rename_i s' out rest'
          refine ⟨rest', if s'.state = .eof then 0 else a.delays, ?_, hrest, hlen,
            ⟨hproper, rfl, rfl, hstands⟩, ?_⟩
          · split
            · exact Nat.zero_le _
            · exact hle
          · intro _ hnil
            obtain ⟨hrest, heof⟩ := hend hnil
            exact ⟨hrest, rfl, if_pos heof⟩
      | again hstands hless => exact ih hproper hle hstands (by omega)
      | @fetch size result ended hsize hmore =>
          dsimp only
          rcases Arrivals.poll_cases hproper hsize with
            ⟨arrivals, hpoll, hproper', hitems, hdelays⟩ | ⟨rfl, hpoll⟩ |
            ⟨bytes, arrivals, hpoll, hproper', hne, -, hitems, hdelays⟩
          · rw [hpoll]
            rw [← hitems] at h
            obtain ⟨m, hm, hholds⟩ := Holds.of_stands hproper' (Nat.le_refl _) h
            exact ⟨m, by omega, hholds⟩
          · exact absurd rfl hmore
          · have hnot : ¬ bytes.isEmpty = true := by simpa using hne
            have hpos := List.length_pos_iff.mpr hne
            have hlen := congrArg List.length hitems
            rw [List.length_append] at hlen
            rw [hpoll]
            simp only [if_neg hnot]
            apply ih hproper' (hdelays.trans_le hle)
            · show Stands s.state (s.readBuf ++ bytes ++ arrivals.items) rest
              rw [List.append_assoc, ← hitems]
              exact h
            · show (s.readBuf ++ bytes).length + 2 * arrivals.items.length < fuel
              rw [List.length_append]
              omega

/-- **Every poll answers rightly.** -/
theorem serves_pollRead : Serves XHttpChunkedStream.pollRead Holds := by
  intro r rest n e h cap
  obtain ⟨s, a⟩ := r
  rw [XHttpChunkedStream.pollRead]
  split
  · rename_i hzero
    subst hzero
    exact answered_zero h
  rename_i hcap
  have hcap : 0 < cap := Nat.pos_of_ne_zero hcap
  obtain ⟨hproper, hn, rfl, hstands⟩ := id h
  dsimp only at hproper hn hstands
  by_cases heof : s.state = .eof
  · have hnext : s.next cap = .answer (.ready []) s := by
      rw [XHttpChunkedStream.next.eq_def, heof]
    rw [if_pos heof] at hn
    rw [heof] at hstands
    cases hstands
    rw [XHttpChunkedStream.readLoop, hnext]
    exact ⟨[], n, Nat.le_refl _, rfl, Nat.zero_le _, h, fun _ _ => ⟨rfl, rfl, hn⟩⟩
  · rw [if_neg heof] at hn
    exact readLoop_answered hcap hproper (Nat.le_of_eq hn.symm) hstands (Nat.lt_succ_self _)

/-! ### Writing -/

/-- What the writer makes of some data. -/
def encoded (accepted : List (List UInt8)) : List UInt8 :=
  (accepted.map XHttpChunkedStream.chunk).flatten

/-- What was written and what is left are the buffer. -/
theorem writeOut_append (answers : List Wrote) (buf : List UInt8) :
    (XHttpChunkedStream.writeOut answers buf).written ++
      (XHttpChunkedStream.writeOut answers buf).left = buf := by
  fun_induction XHttpChunkedStream.writeOut answers buf with
  | case5 answers n buf hne rest ih => rw [List.append_assoc, ih, List.take_append_drop]
  | _ => simp

theorem left_eq_nil_of_done {answers : List Wrote} {buf : List UInt8}
    (h : (XHttpChunkedStream.writeOut answers buf).verdict = .done) :
    (XHttpChunkedStream.writeOut answers buf).left = [] := by
  fun_induction XHttpChunkedStream.writeOut answers buf with
  | case1 => rfl
  | case5 answers n buf hne rest ih => exact ih h
  | _ => cases h

/-- Without an error everything is written, or waits. -/
theorem writeOut_willing {answers : List Wrote} (h : Wrote.error ∉ answers) (buf : List UInt8) :
    ((XHttpChunkedStream.writeOut answers buf).verdict = .done ∨
      (XHttpChunkedStream.writeOut answers buf).verdict = .pending) ∧
      Wrote.error ∉ (XHttpChunkedStream.writeOut answers buf).answers := by
  fun_induction XHttpChunkedStream.writeOut answers buf with
  | case1 answers => exact ⟨.inl rfl, h⟩
  | case2 => exact ⟨.inr rfl, h⟩
  | case3 => exact ⟨.inr rfl, fun hmem => h (List.mem_cons_of_mem _ hmem)⟩
  | case4 => exact absurd List.mem_cons_self h
  | case5 answers n buf hne rest ih => exact ih fun hmem => h (List.mem_cons_of_mem _ hmem)

/-- What a caller is told to be written. -/
def taken (data : List UInt8) : Result Nat → List (List UInt8)
  | .ready (n + 1) => [data.take (n + 1)]
  | _ => []

theorem taken_take {data : List UInt8} {n : Nat} (hne : data ≠ []) (hn : 0 < n) :
    taken data (.ready (data.take n).length) = [data.take n] := by
  have hpos := List.length_pos_iff.mpr hne
  obtain ⟨m, hm⟩ := Nat.exists_eq_add_of_lt (show 0 < (data.take n).length by
    rw [List.length_take]
    omega)
  rw [Nat.zero_add] at hm
  rw [hm, taken, ← hm]
  congr 1
  rw [List.length_take, List.take_eq_take_iff]
  omega

/-- **What a call to write sends**: what waited, and the chunk that the caller is told
of. -/
theorem pollWrite_append (s : XHttpChunkedStream) (data : List UInt8) {answers : List Wrote}
    (h : Wrote.error ∉ answers) :
    (s.pollWrite data answers).written ++ (s.pollWrite data answers).stream.writeBuf =
        s.writeBuf ++ encoded (taken data (s.pollWrite data answers).result) ∧
      (s.pollWrite data answers).stream.hasSentEof = s.hasSentEof := by
  have hflushed := writeOut_append answers s.writeBuf
  obtain ⟨hverdict, hanswers⟩ := writeOut_willing h s.writeBuf
  rw [XHttpChunkedStream.pollWrite]
  dsimp only
  rcases hverdict with hdone | hpending
  · have hempty := left_eq_nil_of_done hdone
    rw [hempty, List.append_nil] at hflushed
    simp only [hdone, hempty]
    split
    · exact ⟨by rw [hflushed]; rfl, rfl⟩
    · rename_i hdata
      have hdata : data ≠ [] := by simpa using hdata
      generalize (XHttpChunkedStream.writeOut answers s.writeBuf).answers = later at hanswers ⊢
      have hsent := writeOut_append later ([] ++ XHttpChunkedStream.chunk (data.take 65536))
      have hencoded : encoded [data.take 65536] = XHttpChunkedStream.chunk (data.take 65536) := by
        rw [encoded, List.map_singleton, List.flatten_singleton]
      -- the caller is told of the chunk, written or not
      rcases (writeOut_willing hanswers
        ([] ++ XHttpChunkedStream.chunk (data.take 65536))).1 with hnow | hlater
      · simp only [hnow]
        refine ⟨?_, trivial⟩
        rw [taken_take hdata (by decide), hencoded, List.append_assoc, hsent, hflushed]
        rfl
      · simp only [hlater]
        refine ⟨?_, trivial⟩
        rw [taken_take hdata (by decide), hencoded, List.append_assoc, hsent, hflushed]
        rfl
  · simp only [hpending]
    refine ⟨?_, trivial⟩
    rw [hflushed]
    exact (List.append_nil _).symm

/-- A flush that is ready leaves nothing behind. -/
theorem pollFlush_append (s : XHttpChunkedStream) (answers : List Wrote) (inner : Result Unit) :
    (s.pollFlush answers inner).written ++ (s.pollFlush answers inner).stream.writeBuf =
        s.writeBuf ∧
      (s.pollFlush answers inner).stream.hasSentEof = s.hasSentEof ∧
      ((s.pollFlush answers inner).result = .ready () →
        (s.pollFlush answers inner).stream.writeBuf = []) := by
  have hflushed := writeOut_append answers s.writeBuf
  rw [XHttpChunkedStream.pollFlush]
  split
  · exact ⟨hflushed, rfl, nofun⟩
  · exact ⟨hflushed, rfl, nofun⟩
  · exact ⟨hflushed, rfl, nofun⟩
  · rename_i hdone
    exact ⟨hflushed, rfl, fun _ => left_eq_nil_of_done hdone⟩

/-- The last chunk is sent by the first call to shut down. -/
theorem pollShutdown_append (s : XHttpChunkedStream) (answers : List Wrote) (inner : Result Unit) :
    (s.pollShutdown answers inner).written ++ (s.pollShutdown answers inner).stream.writeBuf =
        s.writeBuf ++ (if s.hasSentEof then [] else XHttpChunkedStream.lastChunk) ∧
      (s.pollShutdown answers inner).stream.hasSentEof = true ∧
      ((s.pollShutdown answers inner).result = .ready () →
        (s.pollShutdown answers inner).stream.writeBuf = []) := by
  rw [XHttpChunkedStream.pollShutdown]
  cases heof : s.hasSentEof with
  | false =>
      obtain ⟨hwritten, hsame, hready⟩ := pollFlush_append
        { s with hasSentEof := true, writeBuf := s.writeBuf ++ XHttpChunkedStream.lastChunk }
        answers inner
      exact ⟨hwritten, hsame, hready⟩
  | true =>
      obtain ⟨hwritten, hsame, hready⟩ := pollFlush_append s answers inner
      exact ⟨hwritten.trans (List.append_nil _).symm, hsame.trans heof, hready⟩

/-! ### Every run of the writer -/

structure Channel where
  stream : XHttpChunkedStream
  /-- What the inner stream was given. -/
  inner : List UInt8
  /-- What was accepted, before a call to shut down and after it. -/
  accepted : List (List UInt8)
  late : List (List UInt8)

inductive Call where
  | write (data : List UInt8) (answers : List Wrote)
  | flush (answers : List Wrote) (inner : Result Unit)
  | shutdown (answers : List Wrote) (inner : Result Unit)

namespace Call

/-- The inner stream waits, or takes some bytes. -/
def Willing : Call → Prop
  | .write _ answers | .flush answers _ | .shutdown answers _ => Wrote.error ∉ answers

def isShutdown : Call → Bool
  | .shutdown .. => true
  | _ => false

/-- There is something to write. -/
def offers : Call → Bool
  | .write data _ => !data.isEmpty
  | _ => false

end Call

namespace Channel

def new (unconsumed : List UInt8) : Channel := ⟨.new unconsumed, [], [], []⟩

def step (s : Channel) : Call → Option Channel
  | .write data answers =>
      let polled := s.stream.pollWrite data answers
      let now := taken data polled.result
      some {
        stream := polled.stream
        inner := s.inner ++ polled.written
        accepted := if s.stream.hasSentEof then s.accepted else s.accepted ++ now
        late := if s.stream.hasSentEof then s.late ++ now else s.late }
  | .flush answers inner =>
      let polled := s.stream.pollFlush answers inner
      some { s with stream := polled.stream, inner := s.inner ++ polled.written }
  | .shutdown answers inner =>
      let polled := s.stream.pollShutdown answers inner
      some { s with stream := polled.stream, inner := s.inner ++ polled.written }

/-- What is on its way is the coding of what was accepted. -/
structure Sends (s : Channel) : Prop where
  sent : s.inner ++ s.stream.writeBuf = encoded s.accepted ++
    (if s.stream.hasSentEof then XHttpChunkedStream.lastChunk ++ encoded s.late else [])
  late : s.stream.hasSentEof = false → s.late = []
  sized : ∀ data ∈ s.accepted, data ≠ [] ∧ data.length ≤ 65536

variable {s s' : Channel}

theorem mem_taken {data : List UInt8} {s : XHttpChunkedStream} {answers : List Wrote}
    {other : List UInt8} (h : Wrote.error ∉ answers)
    (hmem : other ∈ taken data (s.pollWrite data answers).result) :
    other ≠ [] ∧ other.length ≤ 65536 := by
  obtain ⟨hverdict, hanswers⟩ := writeOut_willing h s.writeBuf
  rw [XHttpChunkedStream.pollWrite] at hmem
  dsimp only at hmem
  rcases hverdict with hdone | hpending
  · simp only [hdone] at hmem
    split at hmem
    · cases hmem
    · rename_i hdata
      have hdata : data ≠ [] := by simpa using hdata
      have hchunk : other = data.take 65536 := by
        generalize XHttpChunkedStream.writeOut _ (_ ++ _) = sent at hmem
        rcases sent with ⟨later, written, left, verdict⟩
        cases verdict <;> simp only at hmem
        · rw [taken_take hdata (by decide)] at hmem
          exact List.mem_singleton.mp hmem
        · rw [taken_take hdata (by decide)] at hmem
          exact List.mem_singleton.mp hmem
        · cases hmem
        · cases hmem
      refine ⟨?_, ?_⟩
      · rw [hchunk, Ne, List.take_eq_nil_iff]
        rintro (hzero | hnil)
        · cases hzero
        · exact hdata hnil
      · rw [hchunk, List.length_take]
        exact Nat.min_le_left _ _
  · simp only [hpending] at hmem
    cases hmem

theorem encoded_append (before after : List (List UInt8)) :
    encoded (before ++ after) = encoded before ++ encoded after := by
  rw [encoded, List.map_append, List.flatten_append]
  rfl

theorem Sends.step (h : Sends s) {call : Call} (hcall : call.Willing) (hstep : s.step call = some s') :
    Sends s' := by
  cases call with
  | write data answers =>
      obtain rfl := Option.some.inj hstep
      obtain ⟨hsent, hsame⟩ := pollWrite_append s.stream data hcall
      have hbefore := h.sent
      refine ⟨?_, ?_, ?_⟩
      · show s.inner ++ _ ++ _ = encoded (if s.stream.hasSentEof then _ else _) ++
          (if _ then _ ++ encoded (if s.stream.hasSentEof then _ else _) else _)
        rw [hsame, List.append_assoc, hsent, ← List.append_assoc, hbefore]
        cases heof : s.stream.hasSentEof with
        | false => simp only [Bool.false_eq_true, if_false, List.append_nil, encoded_append]
        | true => simp only [if_true, encoded_append, List.append_assoc]
      · intro hnot
        have heof := hsame.symm.trans hnot
        show (if s.stream.hasSentEof then _ else _) = _
        rw [heof]
        exact h.late heof
      · intro other hmem
        have hmem' : other ∈ s.accepted ++ taken data (s.stream.pollWrite data answers).result := by
          revert hmem
          show other ∈ (if s.stream.hasSentEof then _ else _) → _
          split
          · exact fun hmem => List.mem_append_left _ hmem
          · exact id
        rcases List.mem_append.mp hmem' with hmem | hmem
        · exact h.sized other hmem
        · exact mem_taken hcall hmem
  | flush answers inner =>
      obtain rfl := Option.some.inj hstep
      obtain ⟨hwritten, hsame, -⟩ := pollFlush_append s.stream answers inner
      refine ⟨?_, fun hnot => h.late (hsame.symm.trans hnot), h.sized⟩
      show s.inner ++ _ ++ _ = encoded s.accepted ++ (if _ then _ else _)
      rw [hsame, List.append_assoc, hwritten]
      exact h.sent
  | shutdown answers inner =>
      obtain rfl := Option.some.inj hstep
      obtain ⟨hwritten, hsame, -⟩ := pollShutdown_append s.stream answers inner
      refine ⟨?_, fun hnot => absurd (hsame.symm.trans hnot) (by decide), h.sized⟩
      show s.inner ++ _ ++ _ = encoded s.accepted ++ (if _ then _ ++ encoded s.late else _)
      rw [hsame, List.append_assoc, hwritten, ← List.append_assoc, h.sent]
      cases heof : s.stream.hasSentEof with
      | false =>
          rw [h.late heof]
          simp [encoded]
      | true => simp

theorem sends_new (unconsumed : List UInt8) : Sends (.new unconsumed) := ⟨rfl, fun _ => rfl, nofun⟩

theorem step_hasSentEof {call : Call} (hcall : call.Willing) (hstep : s.step call = some s') :
    s'.stream.hasSentEof = (s.stream.hasSentEof || call.isShutdown) := by
  cases call with
  | write data answers =>
      obtain rfl := Option.some.inj hstep
      exact (pollWrite_append s.stream data hcall).2.trans (Bool.or_false _).symm
  | flush answers inner =>
      obtain rfl := Option.some.inj hstep
      exact (pollFlush_append s.stream answers inner).2.1.trans (Bool.or_false _).symm
  | shutdown answers inner =>
      obtain rfl := Option.some.inj hstep
      exact (pollShutdown_append s.stream answers inner).2.1.trans (Bool.or_true _).symm

theorem run_hasSentEof {calls : List Call} (hcalls : ∀ call ∈ calls, call.Willing)
    (hrun : Run.exec step s calls = some s') :
    s'.stream.hasSentEof = (s.stream.hasSentEof || calls.any Call.isShutdown) := by
  induction calls generalizing s with
  | nil =>
      obtain rfl := Option.some.inj hrun
      exact (Bool.or_false _).symm
  | cons call calls ih =>
      obtain ⟨t, hstep, hrest⟩ := Run.exec_cons_eq_some.mp hrun
      rw [ih (fun c hmem => hcalls c (List.mem_cons_of_mem _ hmem)) hrest,
        step_hasSentEof (hcalls call List.mem_cons_self) hstep, List.any_cons, Bool.or_assoc]

/-- A call that offers nothing has nothing accepted. -/
theorem step_late {call : Call} (hcall : call.Willing) (hoffers : call.offers = false)
    (hlate : s.late = []) (hstep : s.step call = some s') : s'.late = [] := by
  cases call with
  | write data answers =>
      obtain rfl := Option.some.inj hstep
      have hdata : data.isEmpty = true := by simpa [Call.offers] using hoffers
      have htaken : taken data (s.stream.pollWrite data answers).result = [] := by
        by_contra hne
        obtain ⟨other, hmem⟩ := List.exists_mem_of_ne_nil _ hne
        rw [XHttpChunkedStream.pollWrite] at hmem
        dsimp only at hmem
        rw [if_pos hdata] at hmem
        split at hmem <;> cases hmem
      show (if s.stream.hasSentEof then s.late ++ _ else s.late) = []
      rw [htaken, hlate]
      split <;> rfl
  | flush answers inner =>
      obtain rfl := Option.some.inj hstep
      exact hlate
  | shutdown answers inner =>
      obtain rfl := Option.some.inj hstep
      exact hlate

end Channel

/-! ### Both ends -/

/-- The line that the writer makes. -/
theorem oneLine_upperHex (n : Nat) : ¬ crlf <:+: toUtf8 (upperHex n ++ [] ++ []) := by
  rw [List.append_nil, List.append_nil]
  have hgraphic : ∀ c ∈ upperHex n, IsGraphic c :=
    fun c hmem => (isGraphic_of_hexDigit (isHex_upperHex n c hmem)).1
  rw [toUtf8_ascii (fun c hmem => Nat.lt_of_le_of_lt (hgraphic c hmem).2 (by decide))]
  intro hcrlf
  have hmem : (13 : UInt8) ∈ crlf := List.mem_cons_self
  obtain ⟨c, hc, hcode⟩ := List.mem_map.mp (hcrlf.subset hmem)
  obtain ⟨hlo, hhi⟩ := hgraphic c hc
  have hnat := congrArg UInt8.toNat hcode
  rw [UInt8.toNat_ofNat'] at hnat
  have hcr : (13 : UInt8).toNat = 13 := rfl
  omega

/-- A line without blanks and extensions. -/
def sizeLine (n : Nat) (h : n < 2 ^ 64) : SizeLine where
  digits := upperHex n
  blank := []
  extensions := []
  digits_ne := upperHex_ne_nil n
  digits_hex := isHex_upperHex n
  blank_white := nofun
  semicolon := nofun
  short := by
    rw [hexValue_upperHex]
    exact h
  oneLine := oneLine_upperHex n

theorem bytes_sizeLine (n : Nat) (h : n < 2 ^ 64) : (sizeLine n h).bytes = toUtf8 (upperHex n) := by
  rw [SizeLine.bytes]
  show toUtf8 (upperHex n ++ [] ++ []) = _
  rw [List.append_nil, List.append_nil]

/-- **What the writer makes is a body.** -/
theorem exists_chunks {accepted : List (List UInt8)}
    (h : ∀ data ∈ accepted, data ≠ [] ∧ data.length ≤ 65536) :
    ∃ cs : List Chunk, cs.map Chunk.data = accepted ∧
      encoded accepted = (cs.map Chunk.bytes).flatten := by
  induction accepted with
  | nil => exact ⟨[], rfl, rfl⟩
  | cons data accepted ih =>
      obtain ⟨cs, hdata, hbytes⟩ := ih fun other hmem => h other (List.mem_cons_of_mem _ hmem)
      obtain ⟨hne, hlen⟩ := h data List.mem_cons_self
      have hshort : data.length < 2 ^ 64 := by omega
      refine ⟨⟨sizeLine data.length hshort, data, hne, hexValue_upperHex _⟩ :: cs, ?_, ?_⟩
      · rw [List.map_cons, hdata]
      · have hchunk : encoded (data :: accepted) =
            XHttpChunkedStream.chunk data ++ encoded accepted := by
          rw [encoded, List.map_cons, List.flatten_cons]
          rfl
        rw [hchunk, hbytes, List.map_cons, List.flatten_cons, Chunk.bytes, bytes_sizeLine,
          XHttpChunkedStream.chunk]
        simp only [List.append_assoc]

/-- The end that the writer makes. -/
def lastOfWriter : Last where
  line := sizeLine 0 (by decide)
  trailers := []
  zero := hexValue_upperHex 0
  trailers_ne := nofun
  oneLine := nofun

theorem bytes_lastOfWriter : lastOfWriter.bytes = XHttpChunkedStream.lastChunk := by
  rw [Last.bytes, lastOfWriter, bytes_sizeLine]
  decide

/-- **The chunked coding is a lossless channel.**  After any calls, over an inner stream
that waits or takes some bytes, what this was given is a beginning of the coding of
what was accepted, of which what waits is the rest; with the first call to shut down
the last chunk is behind it, once, and behind that what is still accepted, which is
nothing unless it is offered.  A call that is ready leaves nothing behind.  And of
every body, whatever its lines, its segments and the room of the caller, the data are
handed out, and then the end, for ever. -/
theorem chunked_coding_lossless (unconsumed : List UInt8) (calls : List Call) (s : Channel)
    (hcalls : ∀ call ∈ calls, call.Willing)
    (hrun : Run.exec Channel.step (.new unconsumed) calls = some s) :
    s.inner ++ s.stream.writeBuf = encoded s.accepted ++
        (if calls.any Call.isShutdown then XHttpChunkedStream.lastChunk ++ encoded s.late else []) ∧
      (∀ writes closing, calls = writes ++ closing → (∀ call ∈ writes, call.isShutdown = false) →
        (∀ call ∈ closing, call.offers = false) → s.late = []) ∧
      (∀ answers inner, (s.stream.pollFlush answers inner).result = .ready () →
        (s.stream.pollFlush answers inner).stream.writeBuf = []) ∧
      (∀ answers inner, (s.stream.pollShutdown answers inner).result = .ready () →
        (s.stream.pollShutdown answers inner).stream.writeBuf = []) ∧
      (∃ cs l, cs.map Chunk.data = s.accepted ∧
        encoded s.accepted ++ XHttpChunkedStream.lastChunk = bodyBytes cs l []) ∧
      ∀ (cs : List Chunk) (l : Last) (behind before : List UInt8) (a : Arrivals UInt8)
        (caps : List Nat), a.Proper → before ++ a.items = bodyBytes cs l behind →
        ∃ r, Run.exec (Serving.step XHttpChunkedStream.pollRead) ⟨(.new before, a), []⟩ caps = some r ∧
          r.delivered <+: dataOf cs ∧
          (∀ cap, 0 < cap → (XHttpChunkedStream.pollRead r.reader cap).1 = .ready [] →
            r.delivered = dataOf cs) ∧
          ((dataOf cs).length + a.delays ≤ caps.countP (0 < ·) → r.delivered = dataOf cs ∧
            ∀ cap, (XHttpChunkedStream.pollRead r.reader cap).1 = .ready []) := by
  have hsends : s.Sends := Run.exec_invariant (fun h hcall hstep => Channel.Sends.step h hcall hstep)
    hrun (Run.along_of_mem hcalls _) (Channel.sends_new unconsumed)
  refine ⟨?_, ?_, ?_, ?_, ?_, ?_⟩
  · have heof := Channel.run_hasSentEof hcalls hrun
    rw [Channel.new, XHttpChunkedStream.new, Bool.false_or] at heof
    rw [← heof]
    exact hsends.sent
  · rintro writes closing rfl hwrites hclosing
    rw [Run.exec_append] at hrun
    obtain ⟨t, hbefore, hafter⟩ := Option.bind_eq_some_iff.mp hrun
    have hwilling : ∀ call ∈ writes, call.Willing :=
      fun call hmem => hcalls call (List.mem_append_left _ hmem)
    have hlate : t.late = [] := by
      have ht : t.Sends := Run.exec_invariant (fun h hcall hstep => Channel.Sends.step h hcall hstep)
        hbefore (Run.along_of_mem hwilling _) (Channel.sends_new unconsumed)
      apply ht.late
      rw [Channel.run_hasSentEof hwilling hbefore]
      exact Bool.or_eq_false_iff.mpr ⟨rfl, List.any_eq_false.mpr fun call hmem =>
        Bool.not_eq_true _ ▸ hwrites call hmem⟩
    have hclosing' : ∀ call ∈ closing, call.Willing ∧ call.offers = false :=
      fun call hmem => ⟨hcalls call (List.mem_append_right _ hmem), hclosing call hmem⟩
    have hkeep : ∀ {s : Channel} {call : Call} {s' : Channel}, s.late = [] →
        (call.Willing ∧ call.offers = false) → s.step call = some s' → s'.late = [] :=
      fun hnone hcall hstep => Channel.step_late hcall.1 hcall.2 hnone hstep
    exact Run.exec_invariant hkeep hafter (Run.along_of_mem hclosing' _) hlate
  · intro answers inner
    exact (pollFlush_append s.stream answers inner).2.2
  · intro answers inner
    exact (pollShutdown_append s.stream answers inner).2.2
  · obtain ⟨cs, hdata, hbytes⟩ := exists_chunks hsends.sized
    refine ⟨cs, lastOfWriter, hdata, ?_⟩
    rw [hbytes, bodyBytes, bytes_lastOfWriter, List.append_nil]
  · intro cs l behind before a caps hproper hitems
    refine run_clean serves_pollRead caps ⟨hproper, ?_, rfl, ?_⟩
    · exact (if_neg nofun).symm
    · show Stands .readingLength (before ++ a.items) (dataOf cs)
      rw [hitems]
      exact .length cs l behind

/-- Two writes, of which the second has to wait, and the end. -/
theorem two_chunks_sent :
    ∃ s, Run.exec Channel.step (.new [])
        [.write [65, 66] [.some 3, .some 9], .write [67] [.pending], .shutdown [.some 99] (.ready ())] =
          some s ∧
      s.inner = [50, 13, 10, 65, 66, 13, 10, 49, 13, 10, 67, 13, 10, 48, 13, 10, 13, 10] ∧
      s.late = [] := by
  have hwilling : ∀ call ∈ [Call.write [65, 66] [.some 3, .some 9], .write [67] [.pending],
      .shutdown [.some 99] (.ready ())], call.Willing := by
    simp [Call.Willing]
  obtain ⟨hsent, hlate, -⟩ := chunked_coding_lossless [] _ _ hwilling rfl
  refine ⟨_, rfl, by decide, ?_⟩
  exact hlate [.write [65, 66] [.some 3, .some 9], .write [67] [.pending]]
    [.shutdown [.some 99] (.ready ())] rfl (by decide) (by decide)

/-- What is written behind a shutdown goes behind the last chunk; and an extension
that is no UTF-8 is an error. -/
theorem write_after_shutdown :
    (∃ s, Run.exec Channel.step (.new [])
        [.shutdown [.some 5] (.ready ()), .write [65] [.some 6]] = some s ∧
      s.inner = XHttpChunkedStream.lastChunk ++ XHttpChunkedStream.chunk [65] ∧
      s.late = [[65]]) ∧
    (XHttpChunkedStream.pollRead (.new [49, 59, 97, 61, 34, 255, 34, 13, 10, 65, 13, 10,
      48, 13, 10, 13, 10], []) 9).1 = .error :=
  ⟨⟨_, rfl, by decide, rfl⟩, by decide +kernel⟩

end Chunked

end Transport

end Elise
