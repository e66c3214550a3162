/-
Elise/Hysteria/QpackSafe.lean

Hostile header blocks (`parse_qpack_headers` of src/protocol/hysteria/qpack.rs).

The parser has no bound on the continuation bytes of an integer, and it makes room
for a string before it looks how much there is to read.  So it is safe exactly on
the payloads whose integers, read by their mathematical values (`exact`), have at
most ten continuation bytes and fit 64 bits, and whose strings are there
(`qpackParsing_safe_iff`).
-/
import Elise.Hysteria.Qpack

namespace Elise

namespace Hysteria

/-! ### What is safe -/

/-- No shift by 64 or more, nothing wraps, what is accepted is what is meant, and
there is no more room than bytes. -/
def QpackOp.Safe : QpackOp → Prop
  | .shift value amount => amount < 64 ∧ value * 2 ^ amount < 2 ^ 64
  | .add a b => a + b < 2 ^ 64
  | .count m => m + 7 < 2 ^ 31
  | .accept value meaning => value = meaning
  | .alloc len remaining => len ≤ remaining

instance : DecidablePred QpackOp.Safe
  | .shift _ _ => inferInstanceAs (Decidable (_ ∧ _))
  | .add _ _ => inferInstanceAs (Decidable (_ < _))
  | .count _ => inferInstanceAs (Decidable (_ < _))
  | .accept _ _ => inferInstanceAs (Decidable (_ = _))
  | .alloc _ _ => inferInstanceAs (Decidable (_ ≤ _))

/-! ### Reading by the values -/

/-- What there is in a payload. -/
inductive QpackItem where
  /-- The continuation bytes of an integer, and its value. -/
  | integer (bytes : List UInt8) (value : Nat)
  /-- The length of a string, and how many bytes there are. -/
  | string (len remaining : Nat)
  deriving DecidableEq, Repr

/-- What a `usize` and the payload have room for. -/
def QpackItem.Fits : QpackItem → Prop
  | .integer bytes value => bytes.length ≤ 10 ∧ value < 2 ^ 64
  | .string len remaining => len ≤ remaining

/-- The continuation bytes of an integer, and what comes after them. -/
def continuationBytes : List UInt8 → List UInt8 × Except QpackError (List UInt8)
  | [] => ([], .error .unexpectedEof)
  | b :: rest =>
      if b &&& 0x80 = 0 then ([b], .ok rest)
      else (b :: (continuationBytes rest).1, (continuationBytes rest).2)

/-- Unbounded integers. -/
def exact : IntReader QpackItem where
  continuation init := fun bytes =>
    let read := continuationBytes bytes
    let value := init + groupsValue read.1
    ([.integer read.1 value], read.2.map fun rest => (value, rest))
  alloc := .string

theorem continuationBytes_append {bytes rest : List UInt8} (h : (continuationBytes bytes).2 = .ok rest) :
    bytes = (continuationBytes bytes).1 ++ rest := by
  induction bytes with
  | nil => cases h
  | cons b bytes ih =>
      rw [continuationBytes] at h ⊢
      split
      · rename_i hends
        rw [if_pos hends] at h
        obtain rfl := Except.ok.inj h
        rfl
      · rename_i hgoes
        rw [if_neg hgoes] at h
        show b :: bytes = b :: ((continuationBytes bytes).1 ++ rest)
        rw [← ih h]

/-! ### The loop -/

theorem groupsValue_singleton (b : UInt8) : groupsValue [b] = (b &&& 0x7f).toNat := rfl

/-- Whether the operations on one byte are safe, where the shift is small enough. -/
theorem safe_ops_iff {k val group : Nat} (hk : k ≤ 9) :
    (∀ o ∈ [QpackOp.shift group (7 * k), .add val (group <<< (7 * k % 64) % 2 ^ 64), .count (7 * k)],
      o.Safe) ↔ val + group * 2 ^ (7 * k) < 2 ^ 64 := by
  have hmod : 7 * k % 64 = 7 * k := Nat.mod_eq_of_lt (by omega)
  rw [hmod, Nat.shiftLeft_eq]
  simp only [List.forall_mem_cons, List.not_mem_nil, false_implies, implies_true, and_true, QpackOp.Safe]
  constructor
  · rintro ⟨⟨-, hshift⟩, hadd, -⟩
    rwa [Nat.mod_eq_of_lt hshift] at hadd
  · intro h
    have hshift : group * 2 ^ (7 * k) < 2 ^ 64 := Nat.lt_of_le_of_lt (Nat.le_add_left _ _) h
    refine ⟨⟨by omega, hshift⟩, ?_, by omega⟩
    rwa [Nat.mod_eq_of_lt hshift]

/-- From the `k`-th byte on. -/
theorem continueInt_spec {k val : Nat} (hk : k ≤ 10) (hval : val < 2 ^ 64) (bytes : List UInt8) :
    ((∀ o ∈ (continueInt (7 * k) val bytes).1, o.Safe) ↔
      k + (continuationBytes bytes).1.length ≤ 10 ∧
        val + groupsValue (continuationBytes bytes).1 * 2 ^ (7 * k) < 2 ^ 64) ∧
    (k + (continuationBytes bytes).1.length ≤ 10 →
      val + groupsValue (continuationBytes bytes).1 * 2 ^ (7 * k) < 2 ^ 64 →
      (continueInt (7 * k) val bytes).2 = (continuationBytes bytes).2.map fun rest =>
        (val + groupsValue (continuationBytes bytes).1 * 2 ^ (7 * k), rest)) := by
  induction bytes generalizing k val with
  | nil =>
      refine ⟨iff_of_true (by rintro o ⟨⟩) ⟨hk, ?_⟩, fun _ _ => rfl⟩
      show val + 0 * 2 ^ (7 * k) < 2 ^ 64
      rwa [Nat.zero_mul]
  | cons b bytes ih =>
      have hpos : 0 < (continuationBytes (b :: bytes)).1.length := by
        rw [continuationBytes]
        split
        · exact Nat.one_pos
        · exact Nat.succ_pos _
      by_cases hten : k = 10
      · -- the shift is by 70
        have hfalse : ¬ k + (continuationBytes (b :: bytes)).1.length ≤ 10 := by omega
        refine ⟨iff_of_false ?_ (fun h => hfalse h.1), fun h => absurd h hfalse⟩
        intro h
        have hmem : QpackOp.shift (b &&& 0x7f).toNat (7 * k) ∈ (continueInt (7 * k) val (b :: bytes)).1 := by
          rw [continueInt]
          dsimp only
          split
          · exact List.mem_cons_self
          · exact List.mem_append_left _ List.mem_cons_self
        have hsafe := (h _ hmem).1
        omega
      · have hnine : k ≤ 9 := by omega
        have hops := @safe_ops_iff k val (b &&& 0x7f).toNat hnine
        have hshifted : val + (b &&& 0x7f).toNat * 2 ^ (7 * k) < 2 ^ 64 →
            (val + (b &&& 0x7f).toNat <<< (7 * k % 64) % 2 ^ 64) % 2 ^ 64 =
              val + (b &&& 0x7f).toNat * 2 ^ (7 * k) := by
          intro h
          rw [Nat.mod_eq_of_lt (by omega : 7 * k < 64), Nat.shiftLeft_eq,
            Nat.mod_eq_of_lt (Nat.lt_of_le_of_lt (Nat.le_add_left _ _) h), Nat.mod_eq_of_lt h]
        rw [continueInt, continuationBytes]
        dsimp only
        by_cases hends : b &&& 0x80 = 0
        · rw [if_pos hends, if_pos hends, groupsValue_singleton, hops]
          refine ⟨⟨fun h => ⟨by show k + 1 ≤ 10; omega, h⟩, fun h => h.2⟩, ?_⟩
          intro _ h
          rw [hshifted h]
          rfl
        · rw [if_neg hends, if_neg hends]
          have hpow : 2 ^ (7 * (k + 1)) = 2 ^ (7 * k) * 128 := Nat.pow_add 2 (7 * k) 7
          have hvalue : ∀ more, val + (b &&& 0x7f).toNat * 2 ^ (7 * k) + groupsValue more * 2 ^ (7 * (k + 1)) =
              val + groupsValue (b :: more) * 2 ^ (7 * k) := by
            intro more
            show _ = val + ((b &&& 0x7f).toNat + 128 * groupsValue more) * 2 ^ (7 * k)
            rw [hpow]
            ring
          rw [List.forall_mem_append, hops, List.length_cons]
          by_cases hone : val + (b &&& 0x7f).toNat * 2 ^ (7 * k) < 2 ^ 64
          · obtain ⟨hlog, hresult⟩ := ih (by omega : k + 1 ≤ 10) hone
            rw [hshifted hone]
            rw [hvalue] at hlog hresult
            have hcount : k + 1 + (continuationBytes bytes).1.length =
                k + ((continuationBytes bytes).1.length + 1) := by omega
            rw [hcount] at hlog hresult
            exact ⟨⟨fun h => hlog.mp h.2, fun h => ⟨hone, hlog.mpr h⟩⟩, hresult⟩
          · have hmore : ¬ val + groupsValue (b :: (continuationBytes bytes).1) * 2 ^ (7 * k) < 2 ^ 64 := by
              rw [← hvalue]
              exact fun h => hone (Nat.lt_of_le_of_lt (Nat.le_add_right _ _) h)
            exact ⟨iff_of_false (fun h => hone h.1) (fun h => hmore h.2), fun _ h => absurd h hmore⟩

theorem machine_of_error {init : Nat} {bytes : List UInt8} {ops : List QpackOp} {e : QpackError}
    (h : continueInt 0 init bytes = (ops, .error e)) : machine.continuation init bytes = (ops, .error e) := by
  simp only [machine, h]

theorem machine_of_ok {init val : Nat} {bytes rest : List UInt8} {ops : List QpackOp}
    (h : continueInt 0 init bytes = (ops, .ok (val, rest))) : machine.continuation init bytes =
      (ops ++ [.accept val (init + groupsValue (bytes.take (bytes.length - rest.length)))],
        .ok (val, rest)) := by
  simp only [machine, h]

/-- The source does what the values say, as long as they fit. -/
theorem agrees_continuation {init : Nat} (hinit : init < 2 ^ 64) :
    LogReader.Agrees QpackOp.Safe QpackItem.Fits (machine.continuation init) (exact.continuation init) := by
  intro bytes
  obtain ⟨hlog, hresult⟩ := continueInt_spec (k := 0) (by decide) hinit bytes
  rw [Nat.mul_zero, Nat.pow_zero, Nat.mul_one, Nat.zero_add] at hlog hresult
  have hfits : (∀ o ∈ (exact.continuation init).log bytes, o.Fits) ↔
      (continuationBytes bytes).1.length ≤ 10 ∧ init + groupsValue (continuationBytes bytes).1 < 2 ^ 64 :=
    List.forall_mem_singleton
  rw [hfits, LogReader.log, LogReader.result]
  rcases hloop : continueInt 0 init bytes with ⟨ops, (e | ⟨val, rest⟩)⟩
  · rw [hloop] at hlog hresult
    rw [machine_of_error hloop]
    exact ⟨hlog, fun h => hresult h.1 h.2⟩
  · rw [hloop] at hlog hresult
    rw [machine_of_ok hloop]
    refine ⟨?_, fun h => hresult h.1 h.2⟩
    show (∀ o ∈ ops ++ [QpackOp.accept val _], o.Safe) ↔ _
    rw [List.forall_mem_append, List.forall_mem_singleton, hlog]
    apply and_iff_left_of_imp
    intro h
    -- the bytes that are gone are those of the integer
    have hok := hresult h.1 h.2
    cases hread : (continuationBytes bytes).2 with
    | error e =>
        rw [hread] at hok
        cases hok
    | ok after =>
        rw [hread] at hok
        obtain ⟨rfl, rfl⟩ := Prod.mk.inj (Except.ok.inj hok)
        have happend := continuationBytes_append hread
        have htake : bytes.take (bytes.length - rest.length) = (continuationBytes bytes).1 := by
          conv_lhs => rw [happend]
          rw [List.length_append, Nat.add_sub_cancel, List.take_left]
        show init + groupsValue (continuationBytes bytes).1 =
          init + groupsValue (bytes.take (bytes.length - rest.length))
        rw [htake]

/-! ### The parser -/

theorem agrees_ofExcept {α : Type} (r : Except QpackError α) :
    LogReader.Agrees QpackOp.Safe QpackItem.Fits (ofExcept r) (ofExcept r) := by
  cases r with
  | error e => exact LogReader.Agrees.fail e
  | ok a => exact LogReader.Agrees.pure a

theorem agrees_readBuf (len : Nat) :
    LogReader.Agrees QpackOp.Safe QpackItem.Fits (LogReader.readBuf machine.alloc .unexpectedEof len)
      (LogReader.readBuf exact.alloc QpackError.unexpectedEof len) := by
  apply LogReader.Agrees.readBuf
  intro n remaining
  rfl

theorem agrees_readQpackInt (firstByte : UInt8) (prefixBits : Nat) :
    LogReader.Agrees QpackOp.Safe QpackItem.Fits (readQpackInt machine firstByte prefixBits)
      (readQpackInt exact firstByte prefixBits) := by
  rw [readQpackInt, readQpackInt]
  split
  · apply agrees_continuation
    exact Nat.lt_trans (UInt8.toNat_lt _) (by decide)
  · exact LogReader.Agrees.pure _

theorem agrees_readQpackString (firstByte : UInt8) (prefixBits : Nat) :
    LogReader.Agrees QpackOp.Safe QpackItem.Fits (readQpackString machine firstByte prefixBits)
      (readQpackString exact firstByte prefixBits) := by
  apply (agrees_readQpackInt firstByte prefixBits).bind
  intro len
  apply (agrees_readBuf len).bind
  intro raw
  exact agrees_ofExcept _

theorem agrees_readFieldLine (req : Http3Request) (byte : UInt8) :
    LogReader.Agrees QpackOp.Safe QpackItem.Fits (readFieldLine machine req byte)
      (readFieldLine exact req byte) := by
  rw [readFieldLine, readFieldLine]
  split
  · -- an index
    apply (agrees_readQpackInt byte 6).bind
    intro idx
    split
    · exact LogReader.Agrees.pure _
    · exact LogReader.Agrees.pure _
  split
  · -- the index of a name
    apply (agrees_readQpackInt byte 4).bind
    intro nameIdx
    apply (LogReader.Agrees.readByte _).bind
    intro lenByte
    apply (agrees_readQpackString lenByte 7).bind
    intro value
    exact LogReader.Agrees.pure _
  split
  · -- a name
    apply (agrees_readQpackString byte 3).bind
    intro name
    apply (LogReader.Agrees.readByte _).bind
    intro valByte
    apply (agrees_readQpackString valByte 7).bind
    intro value
    exact LogReader.Agrees.pure _
  · exact LogReader.Agrees.pure _

theorem agrees_readFieldLines (fuel : Nat) (req : Http3Request) :
    LogReader.Agrees QpackOp.Safe QpackItem.Fits (readFieldLines machine fuel req)
      (readFieldLines exact fuel req) := by
  induction fuel generalizing req with
  | zero => exact LogReader.Agrees.fail _
  | succ fuel ih =>
      intro bytes
      cases bytes with
      | nil => exact LogReader.Agrees.pure req []
      | cons byte rest =>
          refine (agrees_readFieldLine req byte).bind ?_ rest
          intro next
          cases next with
          | none => exact LogReader.Agrees.pure req
          | some req => exact ih req

theorem agrees_readBlockPrefix :
    LogReader.Agrees QpackOp.Safe QpackItem.Fits (readBlockPrefix machine) (readBlockPrefix exact) := by
  rw [readBlockPrefix, readBlockPrefix]
  apply (LogReader.Agrees.readByte _).bind
  intro first
  have hrest : LogReader.Agrees QpackOp.Safe QpackItem.Fits
      (do
        let deltaBase ← LogReader.readByte .unexpectedEof
        if deltaBase &&& 0x7f = 0x7f then
          let _ ← machine.continuation 0x7f : QpackReader QpackOp Unit)
      (do
        let deltaBase ← LogReader.readByte .unexpectedEof
        if deltaBase &&& 0x7f = 0x7f then
          let _ ← exact.continuation 0x7f : QpackReader QpackItem Unit) := by
    apply (LogReader.Agrees.readByte _).bind
    intro deltaBase
    split
    · apply (agrees_continuation (by decide)).bind
      intro _
      exact LogReader.Agrees.pure ()
    · exact LogReader.Agrees.pure ()
  split
  · apply (agrees_continuation (by decide)).bind
    intro _
    exact hrest
  · exact hrest

/-! ### Termination -/

theorem decodeString_ne_stuck (isHuffman : Bool) (raw : List UInt8) :
    decodeString isHuffman raw ≠ .error .stuck := by
  have htext : ∀ bytes, decodeString false bytes ≠ .error .stuck := by
    intro bytes
    rw [decodeString]
    simp only [Bool.false_eq_true, if_false]
    cases Text.fromUtf8 bytes with
    | none => rintro ⟨⟩
    | some text => rintro ⟨⟩
  cases isHuffman with
  | false => exact htext raw
  | true =>
      rw [decodeString]
      rcases decodeHuffman_spec raw with ⟨xs, k, hok, -⟩ | ⟨hinvalid, -⟩
      · rw [hok]
        exact htext xs
      · rw [hinvalid]
        rintro ⟨⟩

section

variable {ω : Type} {I : IntReader ω} (hI : ∀ init bytes, (I.continuation init).Ends .stuck bytes)

include hI

theorem ends_readQpackInt (firstByte : UInt8) (prefixBits : Nat) (bytes : List UInt8) :
    (readQpackInt I firstByte prefixBits).Ends .stuck bytes := by
  rw [readQpackInt]
  split
  · exact hI _ bytes
  · exact LogReader.Ends.pure _

theorem ends_readQpackString (firstByte : UInt8) (prefixBits : Nat) (bytes : List UInt8) :
    (readQpackString I firstByte prefixBits).Ends .stuck bytes := by
  apply (ends_readQpackInt hI firstByte prefixBits bytes).bind
  intro len rest _
  apply (LogReader.Ends.readBuf (by decide) _ len).bind
  intro raw rest _
  have hne := decodeString_ne_stuck (decide (firstByte &&& UInt8.ofNat (1 <<< prefixBits) ≠ 0)) raw
  cases hdecode : decodeString (decide (firstByte &&& UInt8.ofNat (1 <<< prefixBits) ≠ 0)) raw with
  | error e =>
      apply LogReader.Ends.fail
      rintro rfl
      exact hne hdecode
  | ok text => exact LogReader.Ends.pure text

theorem ends_readFieldLine (req : Http3Request) (byte : UInt8) (bytes : List UInt8) :
    (readFieldLine I req byte).Ends .stuck bytes := by
  rw [readFieldLine]
  split
  · apply (ends_readQpackInt hI byte 6 bytes).bind
    intro idx rest _
    split
    · exact LogReader.Ends.pure _
    · exact LogReader.Ends.pure _
  split
  · apply (ends_readQpackInt hI byte 4 bytes).bind
    intro nameIdx rest _
    apply (LogReader.Ends.readByte (by decide)).bind
    intro lenByte rest _
    apply (ends_readQpackString hI lenByte 7 rest).bind
    intro value rest _
    exact LogReader.Ends.pure _
  split
  · apply (ends_readQpackString hI byte 3 bytes).bind
    intro name rest _
    apply (LogReader.Ends.readByte (by decide)).bind
    intro valByte rest _
    apply (ends_readQpackString hI valByte 7 rest).bind
    intro value rest _
    exact LogReader.Ends.pure _
  · exact LogReader.Ends.pure _

/-- Each line takes a byte, so the fuel is enough. -/
theorem ends_readFieldLines {fuel : Nat} {bytes : List UInt8} (hfuel : bytes.length < fuel)
    (req : Http3Request) : (readFieldLines I fuel req).Ends .stuck bytes := by
  induction fuel generalizing bytes req with
  | zero => exact absurd hfuel (Nat.not_lt_zero _)
  | succ fuel ih =>
      cases bytes with
      | nil => exact LogReader.Ends.pure req
      | cons byte rest =>
          have hline : LogReader.Ends .stuck (fun bytes => readFieldLines I (fuel + 1) req (byte :: bytes))
              rest := by
            apply (ends_readFieldLine hI req byte rest).bind
            intro next after hless
            cases next with
            | none => exact LogReader.Ends.pure req
            | some req => exact ih (Nat.lt_of_le_of_lt hless (Nat.lt_of_succ_lt_succ hfuel)) req
          exact ⟨hline.1, fun req' after heq => Nat.le_succ_of_le (hline.2 req' after heq)⟩

theorem ends_readBlockPrefix (bytes : List UInt8) : (readBlockPrefix I).Ends .stuck bytes := by
  have hrest : ∀ bytes, (do
      let deltaBase ← LogReader.readByte .unexpectedEof
      if deltaBase &&& 0x7f = 0x7f then
        let _ ← I.continuation 0x7f : QpackReader ω Unit).Ends .stuck bytes := by
    intro bytes
    apply (LogReader.Ends.readByte (by decide)).bind
    intro deltaBase rest _
    split
    · apply (hI _ rest).bind
      intro _ rest _
      exact LogReader.Ends.pure ()
    · exact LogReader.Ends.pure ()
  apply (LogReader.Ends.readByte (by decide)).bind
  intro first rest _
  split
  · apply (hI _ rest).bind
    intro _ rest _
    exact hrest rest
  · exact hrest rest

theorem parseBlock_ne_stuck (payload : List UInt8) : (parseBlock I payload).2 ≠ .error .stuck := by
  rw [parseBlock]
  split
  · rintro ⟨⟩
  · have hends : (readBlockPrefix I >>= fun _ =>
        readFieldLines I (payload.length + 1) ⟨[], [], [], []⟩).Ends .stuck payload := by
      apply (ends_readBlockPrefix hI payload).bind
      intro _ rest hless
      exact ends_readFieldLines hI (Nat.lt_succ_of_le hless) _
    have hne := hends.1
    show Except.map Prod.fst (LogReader.result _ payload) ≠ _
    cases hresult : (readBlockPrefix I >>= fun _ =>
        readFieldLines I (payload.length + 1) ⟨[], [], [], []⟩).result payload with
    | error e =>
        intro heq
        rw [hresult] at hne
        exact hne (congrArg _ (Except.error.inj heq))
    | ok p => rintro ⟨⟩

end

/-- The loop takes bytes and stops. -/
theorem ends_continueInt (m val : Nat) (bytes : List UInt8) : (continueInt m val).Ends .stuck bytes := by
  induction bytes generalizing m val with
  | nil => exact LogReader.Ends.fail (by decide)
  | cons b bytes ih =>
      rw [LogReader.Ends, LogReader.result, continueInt]
      dsimp only
      split_ifs
      · constructor
        · rintro ⟨⟩
        · rintro _ _ ⟨⟩
          exact Nat.le_succ _
      · obtain ⟨hne, hless⟩ := ih (m + 7) ((val + (b &&& 0x7f).toNat <<< (m % 64) % 2 ^ 64) % 2 ^ 64)
        exact ⟨hne, fun a rest heq => Nat.le_succ_of_le (hless a rest heq)⟩

theorem result_machine_continuation (init : Nat) (bytes : List UInt8) :
    (machine.continuation init).result bytes = (continueInt 0 init bytes).2 := by
  rw [LogReader.result]
  rcases hloop : continueInt 0 init bytes with ⟨ops, (e | ⟨val, rest⟩)⟩
  · rw [machine_of_error hloop]
  · rw [machine_of_ok hloop]

theorem parseQpackHeaders_ne_stuck (payload : List UInt8) : parseQpackHeaders payload ≠ .error .stuck := by
  apply parseBlock_ne_stuck
  intro init bytes
  rw [LogReader.Ends, result_machine_continuation]
  exact ends_continueInt 0 init bytes

/-! ### Safety -/

/-- **A payload is parsed safely just if its integers and strings fit**: each
integer has at most ten continuation bytes and a value of 64 bits, and each string
is no longer than what there is.  The parser always stops, and on such a payload
it reads what the values say. -/
theorem qpackParsing_safe_iff (payload : List UInt8) :
    parseQpackHeaders payload ≠ .error .stuck ∧
    ((∀ o ∈ (parseBlock machine payload).1, o.Safe) ↔ ∀ item ∈ (parseBlock exact payload).1, item.Fits) ∧
    ((∀ o ∈ (parseBlock machine payload).1, o.Safe) →
      parseQpackHeaders payload = (parseBlock exact payload).2) := by
  refine ⟨parseQpackHeaders_ne_stuck payload, ?_⟩
  have hagrees : LogReader.Agrees QpackOp.Safe QpackItem.Fits
      (readBlockPrefix machine >>= fun _ => readFieldLines machine (payload.length + 1) ⟨[], [], [], []⟩)
      (readBlockPrefix exact >>= fun _ => readFieldLines exact (payload.length + 1) ⟨[], [], [], []⟩) := by
    apply agrees_readBlockPrefix.bind
    intro _
    exact agrees_readFieldLines _ _
  obtain ⟨hlog, hresult⟩ := hagrees payload
  rw [parseQpackHeaders, parseBlock, parseBlock]
  split
  · exact ⟨Iff.rfl.trans (iff_of_true (by rintro o ⟨⟩) (by rintro o ⟨⟩)), fun _ => rfl⟩
  · refine ⟨hlog, ?_⟩
    intro hsafe
    show Except.map Prod.fst (LogReader.result _ payload) = Except.map Prod.fst (LogReader.result _ payload)
    rw [hresult (hlog.mp hsafe)]

/-- An integer whose last byte is shifted by 70, room for 268435462 bytes where
there are none, and an integer that wraps: `2 ^ 64 + 7` is accepted as 7. -/
theorem hostile_payloads :
    QpackOp.shift 0 70 ∈ (parseBlock machine ([0xff] ++ List.replicate 10 0xff ++ [0x00, 0x00])).1 ∧
    QpackOp.alloc 268435462 0 ∈ (parseBlock machine [0, 0, 0x27, 0xff, 0xff, 0xff, 0x7f]).1 ∧
    QpackOp.accept 7 (2 ^ 64 + 7) ∈
      (parseBlock machine ([0, 0, 0x27] ++ List.replicate 9 0x80 ++ [0x02] ++ List.replicate 7 0x61 ++ [0])).1 ∧
    parseQpackHeaders ([0, 0, 0x27] ++ List.replicate 9 0x80 ++ [0x02] ++ List.replicate 7 0x61 ++ [0]) =
      .ok ⟨[], [], [], [("aaaaaaa".toList, [])]⟩ := by
  decide +kernel

end Hysteria

end Elise
