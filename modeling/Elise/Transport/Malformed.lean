/-
Elise/Transport/Malformed.lean

What the reader of the chunked coding makes of any bytes at all.

From each of its states the reader hands out some bytes and then ends or fails, and this is
fixed by the bytes alone (`Yields`, `exists_yields`): it does not matter how they are cut
(`serves_yields`).  It ends on more bodies than those that are well formed.  A line with a
length may have blanks and a plus sign about its digits, any two bytes stand behind the data,
and the body may end inside a line with a length or inside the trailers (`Loose`).
-/
import Elise.Transport.Chunked

namespace Elise

namespace Transport

namespace Chunked

open Poll Serving Text

/-! ### What a body yields -/

/-- What a state hands out of the bytes, and whether it ends or fails behind that. -/
inductive Yields : ChunkState → (bytes data : List UInt8) → Ending → Prop
  | size {line more data : List UInt8} {len : Nat} {e : Ending} :
      ¬ crlf <:+: line → XHttpChunkedStream.chunkLen line = some len →
      Yields (if len = 0 then .readingTrailer else .readingData len) more data e →
        Yields .readingLength (line ++ (crlf ++ more)) data e
  | badSize {line : List UInt8} (more : List UInt8) :
      ¬ crlf <:+: line → XHttpChunkedStream.chunkLen line = none →
        Yields .readingLength (line ++ (crlf ++ more)) [] .broken
  | noSize {bytes : List UInt8} : ¬ crlf <:+: bytes → Yields .readingLength bytes [] .eof
  | data {chunk more data : List UInt8} {e : Ending} : chunk ≠ [] →
      Yields .readingCrlf more data e →
        Yields (.readingData chunk.length) (chunk ++ more) (chunk ++ data) e
  | shortData {bytes : List UInt8} {rem : Nat} : bytes.length < rem →
      Yields (.readingData rem) bytes bytes .broken
  | gap {gap more data : List UInt8} {e : Ending} : gap.length = 2 →
      Yields .readingLength more data e → Yields .readingCrlf (gap ++ more) data e
  | shortGap {bytes : List UInt8} : bytes.length < 2 → Yields .readingCrlf bytes [] .broken
  | trailer {line more data : List UInt8} {e : Ending} : line ≠ [] → ¬ crlf <:+: line →
      Yields .readingTrailer more data e → Yields .readingTrailer (line ++ (crlf ++ more)) data e
  | lastTrailer (more : List UInt8) : Yields .readingTrailer (crlf ++ more) [] .eof
  | noTrailer {bytes : List UInt8} : ¬ crlf <:+: bytes → Yields .readingTrailer bytes [] .eof
  | eof (bytes : List UInt8) : Yields .eof bytes [] .eof

/-- Bytes have a first line, or no end of one. -/
theorem exists_line (bytes : List UInt8) :
    (∃ line more, bytes = line ++ (crlf ++ more) ∧ ¬ crlf <:+: line) ∨ ¬ crlf <:+: bytes := by
  rw [or_iff_not_imp_right, not_not]
  intro hinfix
  induction bytes with
  | nil => exact absurd (List.infix_nil.mp hinfix) (List.cons_ne_nil _ _)
  | cons b bytes ih =>
      rcases List.infix_cons_iff.mp hinfix with ⟨more, hfront⟩ | hlater
      · exact ⟨[], more, hfront.symm, fun h => absurd (List.infix_nil.mp h) (List.cons_ne_nil _ _)⟩
      · obtain ⟨line, more, rfl, hline⟩ := ih hlater
        by_cases hfront : crlf <+: b :: (line ++ (crlf ++ more))
        · obtain ⟨rest, hrest⟩ := hfront
          exact ⟨[], rest, hrest.symm,
            fun h => absurd (List.infix_nil.mp h) (List.cons_ne_nil _ _)⟩
        · refine ⟨b :: line, more, rfl, fun h => ?_⟩
          rcases List.infix_cons_iff.mp h with hprefix | hin
          · exact hfront (List.IsPrefix.trans hprefix (List.prefix_append (b :: line) _))
          · exact hline hin

theorem exists_yields_trailer (bytes : List UInt8) : ∃ data, Yields .readingTrailer bytes data .eof := by
  induction hn : bytes.length using Nat.strongRecOn generalizing bytes with
  | ind n ih =>
      subst hn
      rcases exists_line bytes with ⟨line, more, rfl, hline⟩ | hnone
      · cases line with
        | nil => exact ⟨[], .lastTrailer more⟩
        | cons b line =>
            obtain ⟨data, hyields⟩ := ih _ (by
              simp only [List.length_append, crlf, List.length_cons]
              omega) more rfl
            exact ⟨data, .trailer (List.cons_ne_nil b line) hline hyields⟩
      · exact ⟨[], .noTrailer hnone⟩

/-- **Every body yields something.** -/
theorem exists_yields (bytes : List UInt8) : ∃ data e, Yields .readingLength bytes data e := by
  induction hn : bytes.length using Nat.strongRecOn generalizing bytes with
  | ind n ih =>
      subst hn
      rcases exists_line bytes with ⟨line, more, rfl, hline⟩ | hnone
      · cases hlen : XHttpChunkedStream.chunkLen line with
        | none => exact ⟨[], .broken, .badSize more hline hlen⟩
        | some len =>
            by_cases hzero : len = 0
            · obtain ⟨data, hyields⟩ := exists_yields_trailer more
              exact ⟨data, .eof, .size hline hlen ((if_pos hzero).symm ▸ hyields)⟩
            · have hafter : ∃ data e, Yields (.readingData len) more data e := by
                by_cases hshort : more.length < len
                · exact ⟨more, .broken, .shortData hshort⟩
                · have hchunk : (more.take len).length = len := by
                    rw [List.length_take]
                    omega
                  have hne : more.take len ≠ [] := fun hnil => by
                    rw [hnil] at hchunk
                    exact hzero hchunk.symm
                  obtain ⟨data, e, hcrlf⟩ :
                      ∃ data e, Yields .readingCrlf (more.drop len) data e := by
                    by_cases hend : (more.drop len).length < 2
                    · exact ⟨[], .broken, .shortGap hend⟩
                    · have hgap : ((more.drop len).take 2).length = 2 := by
                        rw [List.length_take]
                        omega
                      obtain ⟨data, e, hyields⟩ := ih _ (by
                        simp only [List.length_append, List.length_drop, crlf, List.length_cons]
                        omega) ((more.drop len).drop 2) rfl
                      have hall := Yields.gap hgap hyields
                      rw [List.take_append_drop] at hall
                      exact ⟨data, e, hall⟩
                  have hall := Yields.data hne hcrlf
                  rw [List.take_append_drop, hchunk] at hall
                  exact ⟨_, e, hall⟩
              obtain ⟨data, e, hyields⟩ := hafter
              exact ⟨data, e, .size hline hlen ((if_neg hzero).symm ▸ hyields)⟩
      · exact ⟨[], .eof, .noSize hnone⟩

/-! ### Reading -/

variable {s : XHttpChunkedStream} {incoming rest : List UInt8} {e : Ending} {cap : Nat}

/-- What a state may do before the bytes that are still to come; where nothing comes, it
is the end or a failure. -/
inductive Apt (s : XHttpChunkedStream) (incoming rest : List UInt8) (e : Ending) (cap : Nat) :
    XHttpChunkedStream.Next → Prop
  | fetch {size : Nat} {result : Result (List UInt8)} {ended : XHttpChunkedStream} : 0 < size →
      (incoming = [] → rest = [] ∧
        ((e = .eof ∧ result = .ready [] ∧ Yields ended.state ended.readBuf [] .eof) ∨
          (e = .broken ∧ result = .error))) →
        Apt s incoming rest e cap (.fetch size result ended)
  | again {s' : XHttpChunkedStream} : Yields s'.state (s'.readBuf ++ incoming) rest e →
      s'.readBuf.length < s.readBuf.length → Apt s incoming rest e cap (.again s')
  | answer {s' : XHttpChunkedStream} {out rest' : List UInt8} : rest = out ++ rest' →
      out.length ≤ cap → Yields s'.state (s'.readBuf ++ incoming) rest' e →
      (out = [] → rest = [] ∧ e = .eof ∧ s'.state = .eof) →
        Apt s incoming rest e cap (.answer (.ready out) s')
  | fail {s' : XHttpChunkedStream} : rest = [] → e = .broken →
      Apt s incoming rest e cap (.answer .error s')

/-- Where there is no line, none is found. -/
theorem findSubslice_none {buf more : List UInt8} (h : ¬ crlf <:+: buf ++ more) :
    findSubslice crlf buf = none := by
  apply Option.eq_none_iff_forall_ne_some.mpr
  intro pos hfind
  exact h ((Lines.infix_of_find hfind).trans (List.prefix_append buf more).isInfix)

/-- Data in the buffer are handed out as far as there is room. -/
theorem apt_data (hcap : 0 < cap) {rem : Nat} (hstate : s.state = .readingData rem) (hrem : 0 < rem)
    (hbuf : s.readBuf ≠ [])
    (hafter : ∀ k, 0 < k → k ≤ rem → k ≤ s.readBuf.length → ∃ rest', rest = s.readBuf.take k ++ rest' ∧
      Yields (if rem - k = 0 then .readingCrlf else .readingData (rem - k))
        (s.readBuf.drop k ++ incoming) rest' e) :
    Apt s incoming rest e cap (s.next cap) := by
  have hpos := List.length_pos_iff.mpr hbuf
  have hsome : (!s.readBuf.isEmpty) = true := by simpa using hbuf
  rw [XHttpChunkedStream.next.eq_def, hstate]
  dsimp only
  rw [if_pos hsome]
  generalize hcopy : min (min cap s.readBuf.length) rem = k
  obtain ⟨rest', hrest, hyields⟩ := hafter k (by omega) (by omega) (by omega)
  refine .answer hrest ?_ hyields ?_
  · rw [List.length_take]
    omega
  · intro hnil
    rcases List.take_eq_nil_iff.mp hnil with hzero | hnil
    · omega
    · exact absurd hnil hbuf

/-- **What a state does**, when there is room. -/
theorem next_apt (hcap : 0 < cap) (h : Yields s.state (s.readBuf ++ incoming) rest e) :
    Apt s incoming rest e cap (s.next cap) := by
  generalize hstate : s.state = state at h
  generalize hbytes : s.readBuf ++ incoming = bytes at h
  cases h with
  | @size line more data len e hline hlen hafter =>
      rw [XHttpChunkedStream.next.eq_def, hstate]
      dsimp only
      rcases line_cases hline hbytes with ⟨hfind, htake, hdrop, hle⟩ | ⟨hfind, hmore⟩
      · rw [hfind]
        dsimp only
        rw [htake, hlen]
        refine .again ?_ ?_
        · show Yields _ (s.readBuf.drop (line.length + 2) ++ incoming) rest e
          rw [hdrop]
          exact hafter
        · show (s.readBuf.drop (line.length + 2)).length < s.readBuf.length
          rw [List.length_drop]
          omega
      · rw [hfind]
        exact .fetch (by decide) fun hnil => absurd hnil hmore
  | @badSize line more hline hlen =>
      rw [XHttpChunkedStream.next.eq_def, hstate]
      dsimp only
      rcases line_cases hline hbytes with ⟨hfind, htake, -, -⟩ | ⟨hfind, hmore⟩
      · rw [hfind]
        dsimp only
        rw [htake, hlen]
        exact .fail rfl rfl
      · rw [hfind]
        exact .fetch (by decide) fun hnil => absurd hnil hmore
  | noSize hnone =>
      rw [← hbytes] at hnone
      rw [XHttpChunkedStream.next.eq_def, hstate]
      dsimp only
      rw [findSubslice_none hnone]
      refine .fetch (by decide) fun hnil => ⟨rfl, .inl ⟨rfl, rfl, ?_⟩⟩
      rw [hnil, List.append_nil] at hnone
      rw [hstate]
      exact .noSize hnone
  | @data chunk more data e hne hafter =>
      have hpos := List.length_pos_iff.mpr hne
      by_cases hbuf : s.readBuf = []
      · have hnone : ¬ (!s.readBuf.isEmpty) = true := by simp [hbuf]
        rw [XHttpChunkedStream.next.eq_def, hstate]
        dsimp only
        rw [if_neg hnone]
        refine .fetch (by decide) fun hnil => ?_
        have hlen := congrArg List.length hbytes
        rw [hbuf, hnil, List.length_append, List.length_append] at hlen
        simp only [List.length_nil] at hlen
        omega
      · refine apt_data hcap hstate hpos hbuf ?_
        intro k hk hle hlen
        have htake := congrArg (List.take k) hbytes
        rw [List.take_append_of_le_length hlen, List.take_append_of_le_length hle] at htake
        have hdrop := congrArg (List.drop k) hbytes
        rw [List.drop_append_of_le_length hlen, List.drop_append_of_le_length hle] at hdrop
        refine ⟨chunk.drop k ++ data, ?_, ?_⟩
        · rw [htake, ← List.append_assoc, List.take_append_drop]
        · rw [hdrop]
          by_cases hall : chunk.length - k = 0
          · rw [if_pos hall, List.drop_eq_nil_of_le (by omega)]
            exact hafter
          · rw [if_neg hall, ← List.length_drop]
            refine .data ?_ hafter
            rw [Ne, List.drop_eq_nil_iff]
            omega
  | @shortData rem hshort =>
      have hlen := congrArg List.length hbytes
      rw [List.length_append] at hlen
      by_cases hbuf : s.readBuf = []
      · have hnone : ¬ (!s.readBuf.isEmpty) = true := by simp [hbuf]
        rw [XHttpChunkedStream.next.eq_def, hstate]
        dsimp only
        rw [if_neg hnone]
        refine .fetch (by decide) fun hnil => ⟨?_, .inr ⟨rfl, rfl⟩⟩
        rw [← hbytes, hbuf, hnil]
        rfl
      · refine apt_data hcap hstate (by omega) hbuf ?_
        intro k hk hle hbound
        refine ⟨s.readBuf.drop k ++ incoming, ?_, ?_⟩
        · rw [← hbytes, ← List.append_assoc, List.take_append_drop]
        · rw [if_neg (by omega)]
          refine .shortData ?_
          rw [List.length_append, List.length_drop]
          omega
  | @gap gap more data e hgap hafter =>
      rw [XHttpChunkedStream.next.eq_def, hstate]
      dsimp only
      by_cases hle : 2 ≤ s.readBuf.length
      · rw [if_pos hle]
        refine .again ?_ ?_
        · have hdrop := congrArg (List.drop 2) hbytes
          rw [List.drop_append_of_le_length hle, List.drop_left' hgap] at hdrop
          show Yields .readingLength (s.readBuf.drop 2 ++ incoming) rest e
          rw [hdrop]
          exact hafter
        · show (s.readBuf.drop 2).length < s.readBuf.length
          rw [List.length_drop]
          omega
      · rw [if_neg hle]
        refine .fetch (by decide) fun hnil => ?_
        have hlen := congrArg List.length hbytes
        rw [hnil, List.append_nil, List.length_append] at hlen
        omega
  | shortGap hshort =>
      have hlen := congrArg List.length hbytes
      rw [List.length_append] at hlen
      rw [XHttpChunkedStream.next.eq_def, hstate]
      dsimp only
      rw [if_neg (by omega)]
      exact .fetch (by decide) fun _ => ⟨rfl, .inr ⟨rfl, rfl⟩⟩
  | @trailer line more data e hne hline hafter =>
      have hpos := List.length_pos_iff.mpr hne
      rw [XHttpChunkedStream.next.eq_def, hstate]
      dsimp only
      rcases line_cases hline hbytes with ⟨hfind, -, hdrop, hle⟩ | ⟨hfind, hmore⟩
      · rw [hfind]
        dsimp only
        rw [if_neg (by omega)]
        refine .again ?_ ?_
        · show Yields .readingTrailer (s.readBuf.drop (line.length + 2) ++ incoming) rest e
          rw [hdrop]
          exact hafter
        · show (s.readBuf.drop (line.length + 2)).length < s.readBuf.length
          rw [List.length_drop]
          omega
      · rw [hfind]
        exact .fetch (by decide) fun hnil => absurd hnil hmore
  | lastTrailer more =>
      rw [XHttpChunkedStream.next.eq_def, hstate]
      dsimp only
      have hempty : ¬ crlf <:+: ([] : List UInt8) :=
        fun h => absurd (List.infix_nil.mp h) (List.cons_ne_nil _ _)
      rcases line_cases hempty (h := hbytes) with ⟨hfind, -, -, -⟩ | ⟨hfind, hmore⟩
      · rw [hfind]
        exact .answer rfl (Nat.zero_le _) (.eof _) fun _ => ⟨rfl, rfl, rfl⟩
      · rw [hfind]
        exact .fetch (by decide) fun hnil => absurd hnil hmore
  | noTrailer hnone =>
      rw [← hbytes] at hnone
      rw [XHttpChunkedStream.next.eq_def, hstate]
      dsimp only
      rw [findSubslice_none hnone]
      exact .fetch (by decide) fun _ => ⟨rfl, .inl ⟨rfl, rfl, .eof _⟩⟩
  | eof bytes =>
      rw [XHttpChunkedStream.next.eq_def, hstate]
      refine .answer rfl (Nat.zero_le _) ?_ fun _ => ⟨rfl, rfl, hstate⟩
      rw [hstate]
      exact .eof _

/-- What the reader will hand out; at the end it does not wait any more. -/
def Left (r : XHttpChunkedStream × Arrivals UInt8) (rest : List UInt8) (n : Nat) (e : Ending) : Prop :=
  r.2.Proper ∧ n = (if r.1.state = .eof then 0 else r.2.delays) ∧
    Yields r.1.state (r.1.readBuf ++ r.2.items) rest e

/-- A call goes on until it can answer, or has to wait. -/
theorem readLoop_left (hcap : 0 < cap) {fuel : Nat} {a : Arrivals UInt8} {n : Nat}
    (hproper : a.Proper) (hle : a.delays ≤ n) (h : Yields s.state (s.readBuf ++ a.items) rest e)
    (hfuel : s.readBuf.length + 2 * a.items.length < fuel) :
    Answered Left rest n e cap (XHttpChunkedStream.readLoop fuel s a cap) := by
  induction fuel generalizing s a with
  | zero => cases hfuel
  | succ fuel ih =>
      have hcount : ∀ {s' : XHttpChunkedStream},
          (if s'.state = .eof then 0 else a.delays) ≤ n := by
        intro s'
        split
        · exact Nat.zero_le _
        · exact hle
      rw [XHttpChunkedStream.readLoop]
      have hapt := next_apt hcap h
      generalize s.next cap = what at hapt
      cases hapt with
      | answer hrest hlen hyields hend =>
          refine ⟨_, _, hcount, hrest, hlen, ⟨hproper, rfl, hyields⟩, ?_⟩
          intro _ hnil
          obtain ⟨hrest, heof, hstate⟩ := hend hnil
          exact ⟨hrest, heof, if_pos hstate⟩
      | fail hrest he => exact ⟨hrest, he⟩
      | again hyields hless => exact ih hproper hle hyields (by omega)
      | @fetch size result ended hsize hend =>
          dsimp only
          rcases Arrivals.poll_cases hproper hsize with
            ⟨arrivals, hpoll, hproper', hitems, hdelays⟩ | ⟨rfl, hpoll⟩ |
            ⟨bytes, arrivals, hpoll, hproper', hne, -, hitems, hdelays⟩
          · rw [hpoll]
            rw [← hitems] at h
            refine ⟨_, ?_, hproper', rfl, h⟩
            dsimp only
            split <;> omega
          · obtain ⟨rfl, ⟨rfl, rfl, hyields⟩ | ⟨rfl, rfl⟩⟩ := hend rfl
            · rw [hpoll]
              refine ⟨[], 0, Nat.zero_le _, rfl, Nat.zero_le _, ⟨hproper, ?_, ?_⟩,
                fun _ _ => ⟨rfl, rfl, rfl⟩⟩
              · exact (ite_self 0).symm
              · show Yields ended.state (ended.readBuf ++ []) [] .eof
                rw [List.append_nil]
                exact hyields
            · rw [hpoll]
              exact ⟨rfl, rfl⟩
          · have hnot : ¬ bytes.isEmpty = true := by simpa using hne
            have hpos := List.length_pos_iff.mpr hne
            have hlen := congrArg List.length hitems
            rw [List.length_append] at hlen
            rw [hpoll]
            simp only [if_neg hnot]
            apply ih hproper' (hdelays.trans_le hle)
            · show Yields s.state (s.readBuf ++ bytes ++ arrivals.items) rest e
              rw [List.append_assoc, ← hitems]
              exact h
            · show (s.readBuf ++ bytes).length + 2 * arrivals.items.length < fuel
              rw [List.length_append]
              omega

/-- **Every poll answers rightly**, whatever the body is. -/
theorem serves_left : Serves XHttpChunkedStream.pollRead Left := by
  intro r rest n e h cap
  obtain ⟨s, a⟩ := r
  rw [XHttpChunkedStream.pollRead]
  split
  · rename_i hzero
    subst hzero
    exact answered_zero h
  rename_i hcap
  have hcap : 0 < cap := Nat.pos_of_ne_zero hcap
  obtain ⟨hproper, hn, hyields⟩ := id h
  dsimp only at hproper hn hyields
  by_cases heof : s.state = .eof
  · have hnext : s.next cap = .answer (.ready []) s := by
      rw [XHttpChunkedStream.next.eq_def, heof]
    rw [if_pos heof] at hn
    rw [heof] at hyields
    cases hyields
    rw [XHttpChunkedStream.readLoop, hnext]
    exact ⟨[], n, Nat.le_refl _, rfl, Nat.zero_le _, h, fun _ _ => ⟨rfl, rfl, hn⟩⟩
  · rw [if_neg heof] at hn
    exact readLoop_left hcap hproper (Nat.le_of_eq hn.symm) hyields (Nat.lt_succ_self _)

theorem left_new {before data : List UInt8} {a : Arrivals UInt8} (hproper : a.Proper)
    (h : Yields .readingLength (before ++ a.items) data e) :
    Left (.new before, a) data a.delays e :=
  ⟨hproper, (if_neg nofun).symm, h⟩

/-! ### Bodies -/

/-- Trailers, each with its end. -/
def TrailerLines (trailers : List (List UInt8)) : Prop :=
  ∀ trailer ∈ trailers, trailer ≠ [] ∧ ¬ crlf <:+: trailer

/-- A line of hexadecimal digits, and an extension, if there is one, behind a semicolon. -/
structure IsSize (line : List UInt8) (size : Nat) : Prop where
  digits : ∃ digits extension, line = toUtf8 digits ++ extension ∧ digits ≠ [] ∧ IsHex digits ∧
    hexValue 0 digits = size ∧ ∀ b ∈ extension.head?, b = 59
  oneLine : ¬ crlf <:+: line

/-- A well-formed body: chunks, and behind them the end, or the last chunk with trailers and
an empty line, and what is not read any more. -/
inductive WellFormed : List UInt8 → Prop
  | ended : WellFormed []
  | last {line : List UInt8} {trailers : List (List UInt8)} (behind : List UInt8) : IsSize line 0 →
      TrailerLines trailers →
        WellFormed (line ++ (crlf ++ ((trailers.map (· ++ crlf)).flatten ++ (crlf ++ behind))))
  | chunk {line data rest : List UInt8} : IsSize line data.length → data ≠ [] → WellFormed rest →
      WellFormed (line ++ (crlf ++ (data ++ (crlf ++ rest))))

/-- A body that the reader ends on.  The length is what the line is read as, any two bytes
are behind the data, and the body may end before the end of a line with a length or of a
trailer. -/
inductive Loose : List UInt8 → Prop
  | cut {line : List UInt8} : ¬ crlf <:+: line → Loose line
  | last {line behind : List UInt8} {trailers : List (List UInt8)} : ¬ crlf <:+: line →
      XHttpChunkedStream.chunkLen line = some 0 → TrailerLines trailers →
      (crlf <+: behind ∨ ¬ crlf <:+: behind) →
        Loose (line ++ (crlf ++ ((trailers.map (· ++ crlf)).flatten ++ behind)))
  | chunk {line data gap rest : List UInt8} : ¬ crlf <:+: line →
      XHttpChunkedStream.chunkLen line = some data.length → data ≠ [] → gap.length = 2 → Loose rest →
        Loose (line ++ (crlf ++ (data ++ (gap ++ rest))))

theorem yields_trailers {trailers : List (List UInt8)} {behind : List UInt8}
    (htrailers : TrailerLines trailers) (hbehind : crlf <+: behind ∨ ¬ crlf <:+: behind) :
    Yields .readingTrailer ((trailers.map (· ++ crlf)).flatten ++ behind) [] .eof := by
  induction trailers with
  | nil =>
      rcases hbehind with ⟨more, rfl⟩ | hnone
      · exact .lastTrailer more
      · exact .noTrailer hnone
  | cons trailer trailers ih =>
      obtain ⟨hne, hline⟩ := htrailers trailer List.mem_cons_self
      have hyields := Yields.trailer hne hline
        (ih fun other hmem => htrailers other (List.mem_cons_of_mem _ hmem))
      rw [List.map_cons, List.flatten_cons, List.append_assoc, List.append_assoc]
      exact hyields

theorem trailers_of_yields {bytes data : List UInt8} {e : Ending}
    (h : Yields .readingTrailer bytes data e) :
    ∃ trailers behind, bytes = (trailers.map (· ++ crlf)).flatten ++ behind ∧
      TrailerLines trailers ∧ (crlf <+: behind ∨ ¬ crlf <:+: behind) := by
  generalize hstate : ChunkState.readingTrailer = state at h
  induction h with
  | @trailer line more data e hne hline _ ih =>
      obtain ⟨trailers, behind, rfl, htrailers, hbehind⟩ := ih rfl
      refine ⟨line :: trailers, behind, ?_, ?_, hbehind⟩
      · rw [List.map_cons, List.flatten_cons, List.append_assoc, List.append_assoc]
      · intro trailer hmem
        rcases List.mem_cons.mp hmem with rfl | hmem
        · exact ⟨hne, hline⟩
        · exact htrailers trailer hmem
  | lastTrailer more =>
      exact ⟨[], crlf ++ more, rfl, List.forall_mem_nil _, .inl (List.prefix_append _ _)⟩
  | @noTrailer bytes hnone => exact ⟨[], bytes, rfl, List.forall_mem_nil _, .inr hnone⟩
  | _ => cases hstate

theorem Loose.yields {body : List UInt8} (h : Loose body) :
    ∃ data, Yields .readingLength body data .eof := by
  induction h with
  | cut hnone => exact ⟨[], .noSize hnone⟩
  | last hline hlen htrailers hbehind =>
      exact ⟨[], .size hline hlen (yields_trailers htrailers hbehind)⟩
  | @chunk line data gap rest hline hlen hne hgap _ ih =>
      obtain ⟨more, hyields⟩ := ih
      have hpos := List.length_pos_iff.mpr hne
      refine ⟨data ++ more, .size hline hlen ?_⟩
      rw [if_neg (by omega)]
      exact .data hne (.gap hgap hyields)

/-- **The bodies that the reader ends on.** -/
theorem loose_of_yields {body data : List UInt8} (h : Yields .readingLength body data .eof) :
    Loose body := by
  induction hn : body.length using Nat.strongRecOn generalizing body data with
  | ind n ih =>
      subst hn
      cases h with
      | noSize hnone => exact .cut hnone
      | @size line more data len _ hline hlen hafter =>
          by_cases hzero : len = 0
          · subst hzero
            rw [if_pos rfl] at hafter
            obtain ⟨trailers, behind, rfl, htrailers, hbehind⟩ := trailers_of_yields hafter
            exact .last hline hlen htrailers hbehind
          · rw [if_neg hzero] at hafter
            cases hafter with
            | @data chunk more data _ hne hcrlf =>
                cases hcrlf with
                | @gap gap more data _ hgap hrest =>
                    refine .chunk hline hlen hne hgap (ih _ ?_ hrest rfl)
                    simp only [List.length_append]
                    simp only [crlf, List.length_cons]
                    omega

/-! ### Every segmentation -/

/-- A reader over a body, of which some has been read before. -/
abbrev Segmented := List UInt8 × Arrivals UInt8

/-- The body is cut like this; there is no end before its last segment. -/
def Segmented.Cuts (cut : Segmented) (body : List UInt8) : Prop :=
  cut.2.Proper ∧ cut.1 ++ cut.2.items = body

/-- The polls of the reader. -/
def Segmented.run (cut : Segmented) (caps : List Nat) :
    Option (Served (XHttpChunkedStream × Arrivals UInt8) UInt8) :=
  Run.exec (Serving.step XHttpChunkedStream.pollRead) ⟨(.new cut.1, cut.2), []⟩ caps

/-- After some polls the end is reported. -/
def Segmented.Ends (cut : Segmented) : Prop :=
  ∃ caps r cap, cut.run caps = some r ∧ 0 < cap ∧
    (XHttpChunkedStream.pollRead r.reader cap).1 = .ready []

/-- Among enough polls there is one that fails. -/
def Segmented.Fails (cut : Segmented) : Prop :=
  ∃ k, ∀ caps : List Nat, k < caps.countP (0 < ·) → cut.run caps = none

theorem Segmented.ends_of_yields {cut : Segmented} {body data : List UInt8} (hcut : cut.Cuts body)
    (h : Yields .readingLength body data .eof) : cut.Ends ∧ ¬ cut.Fails := by
  obtain ⟨hproper, rfl⟩ := hcut
  have hrun := fun caps => run_clean serves_left (s := ⟨(.new cut.1, cut.2), []⟩) caps
    (left_new hproper h)
  refine ⟨?_, ?_⟩
  · obtain ⟨r, hexec, -, -, hall⟩ := hrun (List.replicate (data.length + cut.2.delays) 1)
    refine ⟨_, r, 1, hexec, Nat.one_pos, (hall ?_).2 1⟩
    rw [List.countP_replicate, if_pos (by decide)]
  · rintro ⟨k, hfails⟩
    obtain ⟨r, hexec, -⟩ := hrun (List.replicate (k + 1) 1)
    have hnone := hfails (List.replicate (k + 1) 1) (by
      rw [List.countP_replicate, if_pos (by decide)]
      exact Nat.lt_succ_self k)
    cases hexec.symm.trans hnone

theorem Segmented.fails_of_yields {cut : Segmented} {body data : List UInt8} (hcut : cut.Cuts body)
    (h : Yields .readingLength body data .broken) : cut.Fails ∧ ¬ cut.Ends := by
  obtain ⟨hproper, rfl⟩ := hcut
  have hrun := fun caps => run_broken serves_left (s := ⟨(.new cut.1, cut.2), []⟩) caps
    (left_new hproper h)
  refine ⟨⟨_, fun caps hmany => (hrun caps).2 hmany⟩, ?_⟩
  rintro ⟨caps, r, cap, hexec, hcap, hend⟩
  exact (((hrun caps).1 r hexec).2 cap hcap).1 hend

/-- The reader ends on this body, however it is cut, or fails on it. -/
theorem Segmented.ends_iff {cut : Segmented} {body : List UInt8} (hcut : cut.Cuts body) :
    (cut.Ends ↔ Loose body) ∧ (cut.Fails ↔ ¬ Loose body) := by
  obtain ⟨data, e, hyields⟩ := exists_yields body
  cases e with
  | eof =>
      have hloose := loose_of_yields hyields
      obtain ⟨hends, hnot⟩ := ends_of_yields hcut hyields
      exact ⟨iff_of_true hends hloose, iff_of_false hnot (not_not_intro hloose)⟩
  | broken =>
      obtain ⟨hfails, hnot⟩ := fails_of_yields hcut hyields
      have htight : ¬ Loose body := fun hloose => by
        obtain ⟨more, heof⟩ := hloose.yields
        exact hnot (ends_of_yields hcut heof).1
      exact ⟨iff_of_false hnot htight, iff_of_true hfails htight⟩

/-- **When malformed framing is rejected.**  Whether the reader ends or fails does not depend
on how a body is cut.  It ends on well-formed bodies only, and fails on all the others,
exactly where the body is not one of the loose ones that are not well formed. -/
theorem chunked_framing_strict_iff (body : List UInt8) :
    ((∀ cut : Segmented, cut.Cuts body →
          (cut.Ends → WellFormed body) ∧ (¬ WellFormed body → cut.Fails)) ∧
        ∀ cut cut' : Segmented, cut.Cuts body → cut'.Cuts body → (cut.Fails ↔ cut'.Fails)) ↔
      ¬ (Loose body ∧ ¬ WellFormed body) := by
  constructor
  · rintro ⟨hstrict, -⟩ ⟨hloose, hmalformed⟩
    have hcut : Segmented.Cuts (body, []) body := ⟨List.not_mem_nil, List.append_nil body⟩
    exact hmalformed ((hstrict _ hcut).1 ((Segmented.ends_iff hcut).1.mpr hloose))
  · intro hfine
    refine ⟨fun cut hcut => ⟨?_, ?_⟩, ?_⟩
    · intro hends
      by_contra hmalformed
      exact hfine ⟨(Segmented.ends_iff hcut).1.mp hends, hmalformed⟩
    · intro hmalformed
      exact (Segmented.ends_iff hcut).2.mpr fun hloose => hfine ⟨hloose, hmalformed⟩
    · intro cut cut' hcut hcut'
      rw [(Segmented.ends_iff hcut).2, (Segmented.ends_iff hcut').2]

/-- The body is cut inside its first line, and the reader reports its end. -/
theorem cut_size_line_ends :
    Segmented.Cuts ([49], []) [49] ∧ Segmented.Ends ([49], []) ∧ ¬ WellFormed [49] := by
  have hcut : Segmented.Cuts ([49], []) [49] := ⟨List.not_mem_nil, rfl⟩
  refine ⟨hcut, (Segmented.ends_iff hcut).1.mpr (.cut (by decide)), ?_⟩
  intro h
  generalize hbody : [(49 : UInt8)] = body at h
  have hlen := congrArg List.length hbody
  cases h with
  | ended => cases hbody
  | last behind _ _ =>
      simp only [List.length_append, crlf, List.length_cons, List.length_nil] at hlen
      omega
  | chunk _ _ _ =>
      simp only [List.length_append, crlf, List.length_cons, List.length_nil] at hlen
      omega

end Chunked

end Transport

end Elise
