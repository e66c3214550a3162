/-
Elise/Mieru/Transports.lean

When the two transports read the same frame alike.

Both find the payload at the same place and open it under the same nonce, but
the bridge checks neither the time nor the session of a frame and does not wait
for the padding behind it, and it takes a low-entropy frame the other way round:
the reader decodes and then opens, the bridge opens and then decodes.  The two
texts are of different lengths (`texts_ne`) and a sender seals one of them, so of a
low-entropy frame with a payload at most one transport makes something.
`transports_alike_exact` says when they agree.

The program reads frames by TCP only: `MieruInbound::start` refuses the transport UDP.
-/
import Elise.Mieru.Frame

namespace Elise

namespace Mieru

open Net

variable (c : XChaCha)

/-! ### Conditions on a frame -/

/-- The time is within a minute and the session is one. -/
def Timely (nowMinutes : Nat) (m : Metadata) : Prop :=
  ¬ (1 < (nowMinutes - m.timestamp) + (m.timestamp - nowMinutes) ∨ m.sessionId = 0)

instance (nowMinutes : Nat) (m : Metadata) : Decidable (Timely nowMinutes m) :=
  inferInstanceAs (Decidable ¬ _)

/-- The frame has a payload, and it is there with its tag. -/
def HasPayload (m : Metadata) (bytes : List UInt8) : Prop :=
  0 < m.payloadLen ∧ m.prefixLen + m.payloadLen + overhead ≤ bytes.length

/-- The padding behind the payload is there. -/
def HasSuffix (m : Metadata) (bytes : List UInt8) : Prop :=
  m.prefixLen + m.payloadLen + overhead + m.suffixLen ≤ bytes.length

/-- The payload on the wire, with its tag. -/
def wireOf (m : Metadata) (bytes : List UInt8) : List UInt8 :=
  (bytes.drop m.prefixLen).take (m.payloadLen + overhead)

/-- A text that is opened: what is sealed, and the tag. -/
def openAt (key nonce text : List UInt8) (len : Nat) : Option (List UInt8) :=
  c.decrypt key nonce (text.take len) ((text.drop len).take overhead)

/-- The payload is sealed, and what was sealed is encoded. -/
def SealedThenEncoded (key nonce : List UInt8) (m : Metadata) (bytes : List UInt8) : Prop :=
  ∃ text, m.decode (wireOf m bytes) (m.extractedLen + overhead) = .ok text ∧
    (openAt c key nonce text m.extractedLen).isSome = true

/-- The payload is encoded, and what was encoded is sealed. -/
def EncodedThenSealed (key nonce : List UInt8) (m : Metadata) (bytes : List UInt8) : Prop :=
  ∃ plain, openAt c key nonce (wireOf m bytes) m.payloadLen = some plain ∧
    ∃ raw, m.decode plain m.extractedLen = .ok raw

/-- A low-entropy frame carries nothing, or neither transport can read it. -/
def LowEntropyAlike (key nonce : List UInt8) (nowMinutes : Nat) (m : Metadata) (bytes : List UInt8) :
    Prop :=
  m.extractedLen = 0 ∨
    ¬ (Timely nowMinutes m ∧ HasSuffix m bytes ∧ SealedThenEncoded c key nonce m bytes) ∧
      ¬ EncodedThenSealed c key nonce m bytes

/-- Plain data that opens is timely and complete; a low-entropy frame carries
nothing, or neither transport can read it. -/
def ReadAlike (key nonce : List UInt8) (nowMinutes : Nat) (m : Metadata) (bytes : List UInt8) :
    Prop :=
  HasPayload m bytes →
    if m.protocol = protocolDataC2SLowEntropy then LowEntropyAlike c key nonce nowMinutes m bytes
    else
      (openAt c key nonce (wireOf m bytes) m.payloadLen).isSome = true →
        Timely nowMinutes m ∧ HasSuffix m bytes

/-- The session gets the payload that the reader returns, and nothing that the
reader does not return. -/
def Alike (tcp : Except FrameError (List UInt8)) (written : List UInt8) : Prop :=
  (∀ payload, tcp = .ok payload → written = payload) ∧ (written ≠ [] → tcp = .ok written)

/-- Of a low-entropy frame the transports open two texts, the decoded one and the one on the
wire.  If both open, they are the same: the sender has sealed one text under the nonce. -/
def OneText (key nonce : List UInt8) (m : Metadata) (bytes : List UInt8) : Prop :=
  m.protocol = protocolDataC2SLowEntropy →
    ∀ text, m.decode (wireOf m bytes) (m.extractedLen + overhead) = .ok text →
      (openAt c key nonce text m.extractedLen).isSome = true →
      (openAt c key nonce (wireOf m bytes) m.payloadLen).isSome = true →
      text.take m.extractedLen = (wireOf m bytes).take m.payloadLen

variable {c} {key nonce bytes : List UInt8} {m : Metadata} {nowMinutes : Nat}

/-! ### The reader -/

theorem decryptPayload_eq_ok {wire payload : List UInt8} {len : Nat}
    (hlen : len + overhead ≤ wire.length) :
    decryptPayload c key nonce wire len = .ok payload ↔
      openAt c key nonce wire len = some payload := by
  rw [decryptPayload, if_neg (Nat.not_lt.mpr hlen), openAt]
  rcases c.decrypt key nonce (wire.take len) ((wire.drop len).take overhead) with - | plain <;> simp

/-- What the reader returns of a frame with data. -/
theorem readPayload_eq_ok_iff {payload : List UInt8}
    (hdata : m.protocol = protocolDataC2S ∨ m.protocol = protocolDataC2SLowEntropy) :
    readPayload c key nonce nowMinutes m bytes = .ok payload ↔
      Timely nowMinutes m ∧
        if 0 < m.payloadLen then
          HasPayload m bytes ∧ HasSuffix m bytes ∧
            tcpPayload c key nonce m (wireOf m bytes) m.payloadLen = .ok payload
        else m.prefixLen + m.suffixLen ≤ bytes.length ∧ payload = [] := by
  have hlayout : frameLayout m = .ok (m.prefixLen, m.payloadLen, m.suffixLen) := by
    rw [frameLayout]
    rcases hdata with h | h
    · rw [h, if_neg (by decide), if_pos (by decide)]
    · rw [h, if_neg (by decide), if_pos (by decide)]
  rw [readPayload]
  by_cases htimely : Timely nowMinutes m
  · rw [if_neg htimely, hlayout]
    simp only [htimely, true_and]
    -- the reader waits for the prefix, for the payload with its tag, and for the suffix
    by_cases hpos : 0 < m.payloadLen
    · simp only [if_pos hpos, List.length_drop]
      simp only [HasPayload, HasSuffix, hpos, true_and, wireOf]
      by_cases hprefix : bytes.length < m.prefixLen
      · rw [if_pos hprefix]
        simp only [reduceCtorEq, false_iff]
        omega
      · rw [if_neg hprefix]
        by_cases hwire : bytes.length - m.prefixLen < m.payloadLen + overhead
        · rw [if_pos hwire]
          simp only [reduceCtorEq, false_iff]
          omega
        · rw [if_neg hwire]
          have hfits : m.prefixLen + m.payloadLen + overhead ≤ bytes.length := by omega
          rcases tcpPayload c key nonce m ((bytes.drop m.prefixLen).take (m.payloadLen + overhead))
            m.payloadLen with e | plain
          · simp
          · simp only [hfits, true_and, Except.ok.injEq]
            by_cases hsuffix : bytes.length - m.prefixLen < m.payloadLen + overhead + m.suffixLen
            · rw [if_pos hsuffix]
              simp only [reduceCtorEq, false_iff]
              omega
            · rw [if_neg hsuffix]
              simp only [Except.ok.injEq]
              exact ⟨fun h => ⟨by omega, h⟩, fun h => h.2⟩
    · simp only [if_neg hpos, List.length_drop, Nat.zero_add, Nat.not_lt_zero, if_false]
      by_cases hprefix : bytes.length < m.prefixLen
      · rw [if_pos hprefix]
        simp only [reduceCtorEq, false_iff]
        omega
      · rw [if_neg hprefix]
        by_cases hsuffix : bytes.length - m.prefixLen < m.suffixLen
        · rw [if_pos hsuffix]
          simp only [reduceCtorEq, false_iff]
          omega
        · rw [if_neg hsuffix]
          simp only [Except.ok.injEq]
          exact ⟨fun h => ⟨by omega, h.symm⟩, fun h => h.2.symm⟩
  · rw [if_pos (not_not.mp htimely)]
    simp [htimely]

/-! ### The bridge -/

section Bridge

variable {sealedMeta metaBuf : List UInt8}

/-- The datagram: the nonce, the sealed metadata, and what follows. -/
def datagramOf (nonce sealedMeta bytes : List UInt8) : List UInt8 := nonce ++ (sealedMeta ++ bytes)

theorem drop_datagramOf (hnonce : nonce.length = 24) (hsealed : sealedMeta.length = 48) (n : Nat) :
    (datagramOf nonce sealedMeta bytes).drop (72 + n) = bytes.drop n := by
  have hfront : (nonce ++ sealedMeta).length = 72 := by
    rw [List.length_append]
    omega
  rw [datagramOf, ← List.append_assoc, ← List.drop_drop, List.drop_left' hfront]

theorem length_datagramOf (hnonce : nonce.length = 24) (hsealed : sealedMeta.length = 48) :
    (datagramOf nonce sealedMeta bytes).length = 72 + bytes.length := by
  simp only [datagramOf, List.length_append]
  omega

/-- The bridge opens the payload on the wire. -/
theorem udpOpen_datagramOf (hnonce : nonce.length = 24) (hsealed : sealedMeta.length = 48)
    (next : List UInt8) :
    udpOpen c key next m (datagramOf nonce sealedMeta bytes) =
      if 0 < m.payloadLen ∧ m.prefixLen + m.payloadLen + overhead ≤ bytes.length then
        openAt c key next (wireOf m bytes) m.payloadLen
      else none := by
  have hfits : (0 < m.payloadLen ∧
      72 + m.prefixLen + m.payloadLen + overhead ≤ (datagramOf nonce sealedMeta bytes).length) ↔
      (0 < m.payloadLen ∧ m.prefixLen + m.payloadLen + overhead ≤ bytes.length) := by
    rw [length_datagramOf hnonce hsealed]
    omega
  have htext : ((bytes.drop m.prefixLen).take (m.payloadLen + overhead)).take m.payloadLen =
      (bytes.drop m.prefixLen).take m.payloadLen := by
    rw [List.take_take, Nat.min_eq_left (Nat.le_add_right _ _)]
  have htag : (((bytes.drop m.prefixLen).take (m.payloadLen + overhead)).drop m.payloadLen).take
      overhead = (bytes.drop (m.prefixLen + m.payloadLen)).take overhead := by
    rw [List.drop_take, Nat.add_sub_cancel_left, List.take_take, Nat.min_self, List.drop_drop]
  simp only [udpOpen, hfits]
  split
  · rw [Nat.add_assoc, drop_datagramOf hnonce hsealed, drop_datagramOf hnonce hsealed, openAt,
      wireOf, htext, htag]
  · rfl

/-- The bridge writes what it makes of the payload. -/
theorem bridgePacket_datagramOf (hnonce : nonce.length = 24) (hsealed : sealedMeta.length = 48)
    (hmeta : c.decrypt key nonce (sealedMeta.take metadataLength) (sealedMeta.drop metadataLength) =
      some m.bytes)
    (hdata : m.protocol = protocolDataC2S ∨ m.protocol = protocolDataC2SLowEntropy) :
    bridgePacket c key (datagramOf nonce sealedMeta bytes) =
      .frame m.seq (udpPayload c key (incrementNonce nonce) m
        (datagramOf nonce sealedMeta bytes)) := by
  have hlong : ¬ (datagramOf nonce sealedMeta bytes).length < 72 := by
    rw [length_datagramOf hnonce hsealed]
    omega
  have hnonce' : (datagramOf nonce sealedMeta bytes).take nonceSize = nonce := List.take_left' hnonce
  have hdrop : (datagramOf nonce sealedMeta bytes).drop 24 = sealedMeta ++ bytes :=
    List.drop_left' hnonce
  have hbuf : ((datagramOf nonce sealedMeta bytes).drop 24).take metadataLength =
      sealedMeta.take metadataLength := by
    rw [hdrop, List.take_append_of_le_length (by rw [hsealed]; decide)]
  have htag : ((datagramOf nonce sealedMeta bytes).drop 56).take overhead =
      sealedMeta.drop metadataLength := by
    have hsplit : (datagramOf nonce sealedMeta bytes).drop 56 =
        (sealedMeta ++ bytes).drop metadataLength := by
      rw [← hdrop, List.drop_drop]
      rfl
    rw [hsplit, List.drop_append_of_le_length (by rw [hsealed]; decide), List.take_left']
    rw [List.length_drop, hsealed]
    rfl
  have hproto : (⟨m.bytes⟩ : Metadata) = m := rfl
  rw [bridgePacket, if_neg hlong]
  simp only [hnonce', hbuf, htag, hmeta, hproto, if_pos hdata]

/-- The session gets nothing of a frame without a payload. -/
theorem written_of_not_hasPayload (hnonce : nonce.length = 24) (hsealed : sealedMeta.length = 48)
    (hmeta : c.decrypt key nonce (sealedMeta.take metadataLength) (sealedMeta.drop metadataLength) =
      some m.bytes)
    (hdata : m.protocol = protocolDataC2S ∨ m.protocol = protocolDataC2SLowEntropy)
    (hnone : ¬ HasPayload m bytes) :
    (bridgePacket c key (datagramOf nonce sealedMeta bytes)).written = [] := by
  have hfits : ¬ (0 < m.payloadLen ∧ m.prefixLen + m.payloadLen + overhead ≤ bytes.length) := hnone
  rw [bridgePacket_datagramOf hnonce hsealed hmeta hdata, Bridged.written, udpPayload,
    udpOpen_datagramOf hnonce hsealed, if_neg hfits]

theorem written_plain (hnonce : nonce.length = 24) (hsealed : sealedMeta.length = 48)
    (hmeta : c.decrypt key nonce (sealedMeta.take metadataLength) (sealedMeta.drop metadataLength) =
      some m.bytes)
    (hplain : m.protocol = protocolDataC2S) (hpayload : HasPayload m bytes) :
    (bridgePacket c key (datagramOf nonce sealedMeta bytes)).written =
      (openAt c key (incrementNonce nonce) (wireOf m bytes) m.payloadLen).getD [] := by
  have hnotlow : ¬ m.protocol = protocolDataC2SLowEntropy := by
    rw [hplain]
    decide
  have hfits : 0 < m.payloadLen ∧ m.prefixLen + m.payloadLen + overhead ≤ bytes.length := hpayload
  rw [bridgePacket_datagramOf hnonce hsealed hmeta (.inl hplain), Bridged.written, udpPayload,
    udpOpen_datagramOf hnonce hsealed, if_pos hfits]
  rcases openAt c key (incrementNonce nonce) (wireOf m bytes) m.payloadLen with - | plain
  · rfl
  · simp only [if_neg hnotlow, Option.getD_some]

/-- What the bridge makes of an opened low-entropy payload. -/
def decodedOrNothing (m : Metadata) : Option (List UInt8) → List UInt8
  | none => []
  | some plain =>
      match m.decode plain m.extractedLen with
      | .error _ => []
      | .ok raw => raw

theorem written_lowEntropy (hnonce : nonce.length = 24) (hsealed : sealedMeta.length = 48)
    (hmeta : c.decrypt key nonce (sealedMeta.take metadataLength) (sealedMeta.drop metadataLength) =
      some m.bytes)
    (hlow : m.protocol = protocolDataC2SLowEntropy) (hpayload : HasPayload m bytes) :
    (bridgePacket c key (datagramOf nonce sealedMeta bytes)).written =
      decodedOrNothing m (openAt c key (incrementNonce nonce) (wireOf m bytes) m.payloadLen) := by
  have hfits : 0 < m.payloadLen ∧ m.prefixLen + m.payloadLen + overhead ≤ bytes.length := hpayload
  rw [bridgePacket_datagramOf hnonce hsealed hmeta (.inr hlow), Bridged.written, udpPayload,
    udpOpen_datagramOf hnonce hsealed, if_pos hfits]
  rcases openAt c key (incrementNonce nonce) (wireOf m bytes) m.payloadLen with - | plain
  · rfl
  · simp only [if_pos hlow]
    rfl

end Bridge

/-! ### Both transports -/

theorem openAt_length (hlawful : c.Lawful) {text plain : List UInt8} {len : Nat}
    (hlen : len ≤ text.length) (h : openAt c key nonce text len = some plain) :
    plain.length = len := by
  rw [hlawful _ _ _ _ _ h, List.length_take, Nat.min_eq_left hlen]

theorem length_wireOf (h : HasPayload m bytes) :
    (wireOf m bytes).length = m.payloadLen + overhead := by
  have hfits := h.2
  rw [wireOf, List.length_take, List.length_drop]
  omega

/-- The reader's payload of a low-entropy frame. -/
theorem tcpPayload_lowEntropy_eq_ok {payload : List UInt8} {len : Nat} {wire : List UInt8}
    (hlow : m.protocol = protocolDataC2SLowEntropy) :
    tcpPayload c key nonce m wire len = .ok payload ↔
      ∃ text, m.decode wire (m.extractedLen + overhead) = .ok text ∧
        openAt c key nonce text m.extractedLen = some payload := by
  rw [tcpPayload, if_pos hlow]
  rcases hdecode : m.decode wire (m.extractedLen + overhead) with e | text
  · simp
  · have hlen := (decodeLowEntropy_eq_ok hdecode).1
    simp only [Except.ok.injEq, exists_eq_left']
    exact decryptPayload_eq_ok hlen.ge

/-- The two texts are different ones: the decoded one is shorter. -/
theorem texts_ne (hpayload : HasPayload m bytes) {text : List UInt8}
    (hdecode : m.decode (wireOf m bytes) (m.extractedLen + overhead) = .ok text) :
    text.take m.extractedLen ≠ (wireOf m bytes).take m.payloadLen := by
  intro hsame
  have hlen := congrArg List.length hsame
  obtain ⟨htext, -, hlt⟩ := decodeLowEntropy_eq_ok hdecode
  rw [length_wireOf hpayload] at hlt
  rw [List.length_take, List.length_take, htext, length_wireOf hpayload] at hlen
  omega

/-- Of a low-entropy frame one transport at most makes something. -/
theorem not_both_lowEntropy (hone : OneText c key nonce m bytes)
    (hlow : m.protocol = protocolDataC2SLowEntropy) (hpayload : HasPayload m bytes)
    (htcp : SealedThenEncoded c key nonce m bytes) : ¬ EncodedThenSealed c key nonce m bytes := by
  obtain ⟨text, hdecode, hopen⟩ := htcp
  rintro ⟨plain, hopen', -⟩
  exact texts_ne hpayload hdecode (hone hlow text hdecode hopen (by rw [hopen']; rfl))

/-- Without a payload there is nothing to differ about. -/
theorem alike_of_not_hasPayload (hdata : m.protocol = protocolDataC2S ∨
      m.protocol = protocolDataC2SLowEntropy) (hnone : ¬ HasPayload m bytes) :
    Alike (readPayload c key nonce nowMinutes m bytes) [] := by
  refine ⟨?_, fun hne => absurd rfl hne⟩
  intro payload hok
  obtain ⟨-, hrest⟩ := (readPayload_eq_ok_iff hdata).mp hok
  split at hrest
  · exact absurd hrest.1 hnone
  · exact hrest.2.symm

theorem alike_plain_iff (hlawful : c.Lawful) (hplain : m.protocol = protocolDataC2S)
    (hpayload : HasPayload m bytes) :
    Alike (readPayload c key nonce nowMinutes m bytes)
        ((openAt c key nonce (wireOf m bytes) m.payloadLen).getD []) ↔
      ((openAt c key nonce (wireOf m bytes) m.payloadLen).isSome = true →
        Timely nowMinutes m ∧ HasSuffix m bytes) := by
  have hread : ∀ payload, readPayload c key nonce nowMinutes m bytes = .ok payload ↔
      (Timely nowMinutes m ∧ HasSuffix m bytes) ∧
        openAt c key nonce (wireOf m bytes) m.payloadLen = some payload := by
    intro payload
    have hlow : ¬ m.protocol = protocolDataC2SLowEntropy := by
      rw [hplain]
      decide
    rw [readPayload_eq_ok_iff (.inl hplain), if_pos hpayload.1, tcpPayload, if_neg hlow,
      decryptPayload_eq_ok (length_wireOf hpayload).ge, and_assoc]
    simp only [hpayload, true_and]
  rcases hopen : openAt c key nonce (wireOf m bytes) m.payloadLen with - | plain
  · simp only [Option.getD_none, Option.isSome_none, Bool.false_eq_true, false_implies, iff_true]
    refine ⟨?_, fun hne => absurd rfl hne⟩
    intro payload hok
    have hsome := ((hread payload).mp hok).2
    rw [hopen] at hsome
    cases hsome
  · have hne : plain ≠ [] := by
      intro hnil
      have hlen := openAt_length hlawful (by rw [length_wireOf hpayload]; omega) hopen
      rw [hnil, List.length_nil] at hlen
      exact absurd hlen.symm (Nat.ne_of_gt hpayload.1)
    simp only [Option.getD_some, Option.isSome_some, forall_const]
    constructor
    · intro halike
      exact ((hread plain).mp (halike.2 hne)).1
    · intro hchecks
      refine ⟨?_, fun _ => (hread plain).mpr ⟨hchecks, hopen⟩⟩
      intro payload hok
      have hsome := ((hread payload).mp hok).2
      rw [hopen] at hsome
      exact Option.some.inj hsome

theorem decodedOrNothing_ne_nil {opened : Option (List UInt8)} (h : decodedOrNothing m opened ≠ []) :
    ∃ plain, opened = some plain ∧ m.decode plain m.extractedLen = .ok (decodedOrNothing m opened) := by
  rcases opened with - | plain
  · exact absurd rfl h
  · refine ⟨plain, rfl, ?_⟩
    rw [decodedOrNothing] at h ⊢
    rcases hdecode : m.decode plain m.extractedLen with e | raw
    · rw [hdecode] at h
      exact absurd rfl h
    · rfl

theorem readPayload_lowEntropy_eq_ok (hlow : m.protocol = protocolDataC2SLowEntropy)
    (hpayload : HasPayload m bytes) {payload : List UInt8} :
    readPayload c key nonce nowMinutes m bytes = .ok payload ↔
      (Timely nowMinutes m ∧ HasSuffix m bytes) ∧
        ∃ text, m.decode (wireOf m bytes) (m.extractedLen + overhead) = .ok text ∧
          openAt c key nonce text m.extractedLen = some payload := by
  rw [readPayload_eq_ok_iff (.inr hlow), if_pos hpayload.1, tcpPayload_lowEntropy_eq_ok hlow, and_assoc]
  simp only [hpayload, true_and]

theorem length_readPayload_lowEntropy (hlawful : c.Lawful)
    (hlow : m.protocol = protocolDataC2SLowEntropy) (hpayload : HasPayload m bytes)
    {payload : List UInt8} (hok : readPayload c key nonce nowMinutes m bytes = .ok payload) :
    payload.length = m.extractedLen := by
  obtain ⟨-, text, hdecode, hopen⟩ := (readPayload_lowEntropy_eq_ok hlow hpayload).mp hok
  refine openAt_length hlawful ?_ hopen
  rw [(decodeLowEntropy_eq_ok hdecode).1]
  exact Nat.le_add_right _ _

/-- The bridge writes something exactly if the payload was encoded first. -/
theorem encodedThenSealed_iff : EncodedThenSealed c key nonce m bytes ↔
    decodedOrNothing m (openAt c key nonce (wireOf m bytes) m.payloadLen) ≠ [] := by
  constructor
  · rintro ⟨plain, hopen, raw, hdecode⟩ hnil
    rw [hopen, decodedOrNothing, hdecode] at hnil
    obtain ⟨hlen, hpos, -⟩ := decodeLowEntropy_eq_ok hdecode
    rw [show raw = [] from hnil, List.length_nil] at hlen
    omega
  · intro hne
    obtain ⟨plain, hopen, hdecode⟩ := decodedOrNothing_ne_nil hne
    exact ⟨plain, hopen, _, hdecode⟩

theorem lowEntropyAlike_of_alike (hlawful : c.Lawful) (hone : OneText c key nonce m bytes)
    (hlow : m.protocol = protocolDataC2SLowEntropy) (hpayload : HasPayload m bytes)
    (halike : Alike (readPayload c key nonce nowMinutes m bytes)
      (decodedOrNothing m (openAt c key nonce (wireOf m bytes) m.payloadLen))) :
    LowEntropyAlike c key nonce nowMinutes m bytes := by
  rcases Nat.eq_zero_or_pos m.extractedLen with hzero | hpos
  · exact .inl hzero
  · right
    have hudp : ¬ EncodedThenSealed c key nonce m bytes := by
      intro hencoded
      obtain ⟨-, text, hdecode, hopen⟩ := (readPayload_lowEntropy_eq_ok hlow hpayload).mp
        (halike.2 (encodedThenSealed_iff.mp hencoded))
      exact not_both_lowEntropy hone hlow hpayload ⟨text, hdecode, by rw [hopen]; rfl⟩ hencoded
    refine ⟨?_, hudp⟩
    rintro ⟨htimely, hsuffix, text, hdecode, hsome⟩
    obtain ⟨payload, hopen⟩ := Option.isSome_iff_exists.mp hsome
    have hok := (readPayload_lowEntropy_eq_ok hlow hpayload).mpr ⟨⟨htimely, hsuffix⟩, text, hdecode, hopen⟩
    have hsame := halike.1 payload hok
    rw [encodedThenSealed_iff, not_not] at hudp
    have hlen := length_readPayload_lowEntropy hlawful hlow hpayload hok
    rw [← hsame, hudp, List.length_nil] at hlen
    omega

theorem alike_of_lowEntropyAlike (hlawful : c.Lawful) (hlow : m.protocol = protocolDataC2SLowEntropy)
    (hpayload : HasPayload m bytes) (h : LowEntropyAlike c key nonce nowMinutes m bytes) :
    Alike (readPayload c key nonce nowMinutes m bytes)
      (decodedOrNothing m (openAt c key nonce (wireOf m bytes) m.payloadLen)) := by
  rcases h with hzero | ⟨htcp, hudp⟩
  · have hnil : decodedOrNothing m (openAt c key nonce (wireOf m bytes) m.payloadLen) = [] := by
      by_contra hne
      obtain ⟨plain, -, hdecode⟩ := decodedOrNothing_ne_nil hne
      have hpos := (decodeLowEntropy_eq_ok hdecode).2.1
      omega
    rw [hnil]
    refine ⟨?_, fun hne => absurd rfl hne⟩
    intro payload hok
    have hlen := length_readPayload_lowEntropy hlawful hlow hpayload hok
    rw [hzero] at hlen
    exact (List.length_eq_zero_iff.mp hlen).symm
  · rw [encodedThenSealed_iff, not_not] at hudp
    rw [hudp]
    refine ⟨?_, fun hne => absurd rfl hne⟩
    intro payload hok
    obtain ⟨⟨htimely, hsuffix⟩, text, hdecode, hopen⟩ := (readPayload_lowEntropy_eq_ok hlow hpayload).mp hok
    exact absurd ⟨htimely, hsuffix, text, hdecode, by rw [hopen]; rfl⟩ htcp

/-- **When the transports read a frame alike**: if plain data that opens passes the checks
of the reader, and a low-entropy frame carries nothing or can be read by neither; and only
then, as the sender has sealed one text under the nonce. -/
theorem transports_alike_exact (hlawful : c.Lawful) {sealedMeta : List UInt8}
    (hnonce : nonce.length = 24) (hsealed : sealedMeta.length = 48)
    (hmeta : c.decrypt key nonce (sealedMeta.take metadataLength) (sealedMeta.drop metadataLength) =
      some m.bytes)
    (hdata : m.protocol = protocolDataC2S ∨ m.protocol = protocolDataC2SLowEntropy) :
    (ReadAlike c key (incrementNonce nonce) nowMinutes m bytes →
      Alike (readPayload c key (incrementNonce nonce) nowMinutes m bytes)
        (bridgePacket c key (datagramOf nonce sealedMeta bytes)).written) ∧
    (OneText c key (incrementNonce nonce) m bytes →
      Alike (readPayload c key (incrementNonce nonce) nowMinutes m bytes)
        (bridgePacket c key (datagramOf nonce sealedMeta bytes)).written →
      ReadAlike c key (incrementNonce nonce) nowMinutes m bytes) := by
  by_cases hpayload : HasPayload m bytes
  · simp only [ReadAlike, hpayload, forall_const]
    rcases hdata with hplain | hlow
    · have hnotlow : ¬ m.protocol = protocolDataC2SLowEntropy := by
        rw [hplain]
        decide
      rw [if_neg hnotlow, written_plain hnonce hsealed hmeta hplain hpayload]
      exact ⟨(alike_plain_iff hlawful hplain hpayload).mpr, fun _ =>
        (alike_plain_iff hlawful hplain hpayload).mp⟩
    · rw [if_pos hlow, written_lowEntropy hnonce hsealed hmeta hlow hpayload]
      exact ⟨alike_of_lowEntropyAlike hlawful hlow hpayload, fun hone =>
        lowEntropyAlike_of_alike hlawful hone hlow hpayload⟩
  · rw [written_of_not_hasPayload hnonce hsealed hmeta hdata hpayload]
    exact ⟨fun _ => alike_of_not_hasPayload hdata hpayload, fun _ _ hsome => absurd hsome hpayload⟩

section Samples

def pingKey : List UInt8 :=
  [128, 129, 130, 131, 132, 133, 134, 135, 136, 137, 138, 139, 140, 141, 142, 143, 144, 145, 146,
    147, 148, 149, 150, 151, 152, 153, 154, 155, 156, 157, 158, 159]

def sampleNonce : List UInt8 :=
  [64, 65, 66, 67, 68, 69, 70, 71, 72, 73, 74, 75, 76, 77, 78, 79, 80, 81, 82, 83, 84, 85, 86, 87]

/-- Data of session 7 with four bytes of payload, at minute 28333333. -/
def plainMeta : Sealed where
  key := pingKey
  nonce := sampleNonce
  buf := [247, 12, 114, 68, 14, 229, 244, 90, 251, 21, 119, 211, 246, 175, 157, 85, 50, 71, 114, 110,
    5, 68, 156, 232, 202, 186, 245, 12, 66, 85, 13, 200]
  tag := [187, 242, 187, 172, 208, 178, 195, 171, 187, 43, 87, 28, 163, 115, 220, 87]
  plain := [6, 0, 1, 176, 85, 21, 0, 0, 0, 7, 0, 0, 0, 1, 0, 0, 0, 0, 0, 0, 0, 0, 0, 4, 0, 0, 0, 0, 0,
    0, 0, 0]

/-- The same in low entropy: mode 1, half mask `0xFFFF`, no rotation. -/
def lowEntropyMeta : Sealed where
  key := pingKey
  nonce := sampleNonce
  buf := [251, 13, 114, 68, 14, 229, 244, 90, 251, 21, 119, 211, 246, 175, 157, 85, 50, 71, 115, 110,
    5, 68, 156, 244, 202, 186, 245, 243, 189, 85, 9, 200]
  tag := [50, 82, 34, 157, 224, 15, 78, 238, 253, 208, 233, 249, 30, 12, 51, 246]
  plain := [10, 1, 1, 176, 85, 21, 0, 0, 0, 7, 0, 0, 0, 1, 0, 0, 0, 0, 1, 0, 0, 0, 0, 24, 0, 0, 0, 255,
    255, 0, 4, 0]

/-- The payload `ping`. -/
def pingPayload : Sealed where
  key := pingKey
  nonce := incrementNonce sampleNonce
  buf := [89, 11, 37, 44]
  tag := [58, 90, 146, 18, 187, 25, 194, 231, 112, 131, 102, 133, 157, 11, 162, 99]
  plain := [112, 105, 110, 103]

def sampleCipher : XChaCha := xchachaOf [plainMeta, lowEntropyMeta, pingPayload]

theorem sampleCipher_lawful : sampleCipher.Lawful := xchachaOf_lawful (by decide)

/-- Plain data, on time: both transports deliver `ping`. -/
theorem plain_ping_alike :
    readPayload sampleCipher pingKey (incrementNonce sampleNonce) 28333333 ⟨plainMeta.plain⟩
        (pingPayload.buf ++ pingPayload.tag) = .ok pingPayload.plain ∧
      (bridgePacket sampleCipher pingKey (datagramOf sampleNonce (plainMeta.buf ++ plainMeta.tag)
        (pingPayload.buf ++ pingPayload.tag))).written = pingPayload.plain ∧
      ReadAlike sampleCipher pingKey (incrementNonce sampleNonce) 28333333 ⟨plainMeta.plain⟩
        (pingPayload.buf ++ pingPayload.tag) := by
  have hread : readPayload sampleCipher pingKey (incrementNonce sampleNonce) 28333333
      ⟨plainMeta.plain⟩ (pingPayload.buf ++ pingPayload.tag) = .ok pingPayload.plain := by decide
  obtain ⟨hsufficient, hnecessary⟩ := @transports_alike_exact sampleCipher pingKey sampleNonce
    (pingPayload.buf ++ pingPayload.tag) ⟨plainMeta.plain⟩ 28333333 sampleCipher_lawful
    (plainMeta.buf ++ plainMeta.tag) (by decide) (by decide) (by decide) (.inl (by decide))
  have halike := hsufficient (by
    intro _
    rw [if_neg (by decide)]
    intro _
    refine ⟨by decide, ?_⟩
    show _ ≤ _
    decide)
  exact ⟨hread, halike.1 _ hread, hnecessary (fun hlow => absurd hlow (by decide)) halike⟩

/-- The reader delivers `ping` from a low-entropy frame, the bridge nothing. -/
theorem lowEntropy_ping_lost :
    ∃ bytes, readPayload sampleCipher pingKey (incrementNonce sampleNonce) 28333333
        ⟨lowEntropyMeta.plain⟩ bytes = .ok pingPayload.plain ∧
      bridgePacket sampleCipher pingKey
        (datagramOf sampleNonce (lowEntropyMeta.buf ++ lowEntropyMeta.tag) bytes) = .frame 1 [] ∧
      ¬ Alike (readPayload sampleCipher pingKey (incrementNonce sampleNonce) 28333333
          ⟨lowEntropyMeta.plain⟩ bytes)
        (bridgePacket sampleCipher pingKey
          (datagramOf sampleNonce (lowEntropyMeta.buf ++ lowEntropyMeta.tag) bytes)).written := by
  refine ⟨[0, 0, 89, 11, 0, 0, 37, 44, 0, 0, 58, 90, 0, 0, 146, 18, 0, 0, 187, 25, 0, 0, 194, 231, 0,
    0, 112, 131, 0, 0, 102, 133, 0, 0, 157, 11, 0, 0, 162, 99], ?_, ?_, ?_⟩
  · decide
  · decide
  · intro halike
    have hread := halike.1 pingPayload.plain (by decide)
    revert hread
    decide

end Samples

end Mieru

end Elise
