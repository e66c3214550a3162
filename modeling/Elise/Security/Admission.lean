/-
Elise/Security/Admission.lean

Whom REALITY lets in (`verify_client_hello`, `parse_x25519_key_share` and
`log_client_hello_info` in src/security/reality.rs, `RealityServerConfig` in
src/transport/types.rs).

A client authenticates itself in its ClientHello: the session id is a ciphertext under a key
that its key share and the server's private key agree on, and holds a time and a short id.
Whoever is let in has sealed these under the key that the share in its record agrees on
(`admitted_of_ok`); the server's names and the bounds of the client's version have no part in
it.

What breaks, an access out of bounds or a loop that does not end, is `none`, and no ClientHello
breaks the check: the walks stay within the record (`safe_verifyClientHello`).  Parameters:
X25519, HKDF and AES-GCM.
-/
import Elise.Lib.Checked
import Elise.Lib.Text

namespace Elise

namespace Security

open Checked

/-- What the check reads of the configuration, and what it could read. -/
structure RealityServerConfig where
  serverNames : List (List Char)
  privateKey : List UInt8
  shortIds : List (List UInt8)
  maxTimeDiffMs : UInt64
  minClientVer : Option (List Char)
  maxClientVer : Option (List Char)

/-- The cryptography. -/
structure RealityCrypto where
  diffieHellman : (secret share : List UInt8) → List UInt8
  /-- HKDF-SHA256 for `REALITY`, 32 bytes; it may fail. -/
  hkdf : (salt ikm : List UInt8) → Except String (List UInt8)
  /-- AES-256-GCM. -/
  decrypt : (key nonce msg aad : List UInt8) → Option (List UInt8)

/-! ### The extensions of a ClientHello -/

/-- From where to where the extensions go: behind the session id, the cipher suites
and the compression methods. -/
def locateExtensions (handshake : List UInt8) : Option (Except String (Nat × Nat)) :=
  if handshake.length < 39 then some (.error "Handshake truncated")
  else
    (index handshake 38).bind fun sidLen =>
      let pos := 39 + sidLen.toNat
      if handshake.length < pos + 2 then some (.error "Truncated before cipher suites")
      else
        (u16BeAt handshake pos).bind fun csLen =>
          let pos := pos + 2 + csLen
          if handshake.length < pos + 1 then some (.error "Truncated before compression methods")
          else
            (index handshake pos).bind fun compLen =>
              let pos := pos + 1 + compLen.toNat
              if handshake.length < pos + 2 then some (.error "No extensions present in ClientHello")
              else
                (u16BeAt handshake pos).bind fun extTotalLen =>
                  some (.ok (pos + 2, min (pos + 2 + extTotalLen) handshake.length))

/-- The signature algorithms in an extension; they are logged. -/
def signatureAlgorithms (sigData : List UInt8) (sigLen : Nat) : (fuel s : Nat) → Option (List Nat)
  | 0, s => if s + 2 ≤ 2 + sigLen ∧ s + 2 ≤ sigData.length then none else some []
  | fuel + 1, s =>
      if s + 2 ≤ 2 + sigLen ∧ s + 2 ≤ sigData.length then
        (u16BeAt sigData s).bind fun sig =>
          (signatureAlgorithms sigData sigLen fuel (s + 2)).map (sig :: ·)
      else some []

/-- What is logged of an extension with data of this length; nothing is found. -/
def logSignatures {α : Type} (handshake : List UInt8) (extType start extLen : Nat) : Option (Option α) :=
  if extType = 0x000d ∧ 2 ≤ extLen then
    (slice handshake start (start + extLen)).bind fun sigData =>
      (u16BeAt sigData 0).bind fun sigLen =>
        (signatureAlgorithms sigData sigLen sigData.length 2).map fun _ => none
  else some none

def logClientHelloInfo (handshake : List UInt8) : Option Unit :=
  (locateExtensions handshake).bind fun
    | .error _ => some ()
    | .ok (pos, stop) =>
        (walkFields handshake stop (α := Unit) (logSignatures handshake) handshake.length pos).map
          fun _ => ()

/-- A share is taken from its own group, or from the end of a hybrid one. -/
def takeShare (extData : List UInt8) (group sp keyLen : Nat) : Option (Option (List UInt8)) :=
  if group = 0x001d ∧ keyLen = 32 then (slice extData sp (sp + 32)).map some
  else if group = 0x45ac ∧ 32 ≤ keyLen then (slice extData (sp + keyLen - 32) (sp + keyLen)).map some
  else some none

/-- The shares in the extension for them. -/
def sharesIn (handshake : List UInt8) (start extLen : Nat) : Option (Option (List UInt8)) :=
  (slice handshake start (start + extLen)).bind fun extData =>
    if 2 ≤ extData.length then
      (u16BeAt extData 0).bind fun clientSharesLen =>
        walkFields extData (min (2 + clientSharesLen) extData.length) (takeShare extData)
          extData.length 2
    else some none

def visitExtension (handshake : List UInt8) (extType start extLen : Nat) :
    Option (Option (List UInt8)) :=
  if extType = 0x0033 then sharesIn handshake start extLen
  else logSignatures handshake extType start extLen

def parseX25519KeyShare (handshake : List UInt8) : Option (Except String (List UInt8)) :=
  (locateExtensions handshake).bind fun
    | .error e => some (.error e)
    | .ok (pos, stop) =>
        (walkFields handshake stop (visitExtension handshake) handshake.length pos).map fun
          | some share => .ok share
          | none => .error "KeyShare extension (X25519) not found in ClientHello"

/-! ### The check -/

/-- The loop over the short ids. -/
def matchesShortId (clientShortId : List UInt8) : List (List UInt8) → Option Bool
  | [] => some false
  | sid :: sids =>
      if sid.isEmpty then
        if clientShortId.all (· == 0) then some true else matchesShortId clientShortId sids
      else if sid.length ≤ 8 then
        (slice clientShortId 0 sid.length).bind fun front =>
          if front = sid then some true else matchesShortId clientShortId sids
      else matchesShortId clientShortId sids

/-- `u32::abs_diff`. -/
def absDiff (a b : UInt32) : Nat := max a.toNat b.toNat - min a.toNat b.toNat

/-- What is checked of the plaintext, at a time in seconds. -/
def checkPlaintext (config : RealityServerConfig) (seconds : UInt64) (plaintext : List UInt8) :
    Option (Except String Unit) :=
  if plaintext.length ≠ 16 then
    some (.error ("Decrypted plaintext length != 16: " ++ toString plaintext.length))
  else
    (u32BeAt plaintext 4).bind fun timestamp =>
      let diffMs := absDiff seconds.toUInt32 timestamp * 1000
      if config.maxTimeDiffMs.toNat < diffMs then
        some (.error ("Timestamp expired: diff " ++ toString diffMs ++ "ms > max "
          ++ toString config.maxTimeDiffMs ++ "ms"))
      else
        (slice plaintext 8 16).bind fun clientShortId =>
          (matchesShortId clientShortId config.shortIds).bind fun matched =>
            if matched then some (.ok ())
            else
              some (.error ("ShortId mismatch: got hex '"
                ++ String.ofList (Text.hexEncode clientShortId) ++ "'"))

/-- The handshake with zeros in place of the session id. -/
def blankSessionId (handshake : List UInt8) : List UInt8 :=
  handshake.take 39 ++ List.replicate 32 0 ++ handshake.drop 71

section

variable (crypto : RealityCrypto) (config : RealityServerConfig)

/-- The check of a handshake, with its parts. -/
def verifyHandshake (seconds : UInt64) (handshake random ciphertext : List UInt8) :
    Option (Except String (List UInt8)) :=
  (logClientHelloInfo handshake).bind fun _ =>
    (parseX25519KeyShare handshake).bind fun
      | .error e => some (.error e)
      | .ok clientKeyshare =>
          let sharedSecret := crypto.diffieHellman config.privateKey clientKeyshare
          (slice random 0 20).bind fun salt =>
            match crypto.hkdf salt sharedSecret with
            | .error e => some (.error ("HKDF expand failed: " ++ e))
            | .ok authKey =>
                -- the range that is blanked is a slice too
                (slice handshake 39 71).bind fun _ =>
                  (slice random 20 32).bind fun nonce =>
                    match crypto.decrypt authKey nonce ciphertext (blankSessionId handshake) with
                    | none => some (.error "REALITY AEAD authentication decrypt failed: aead::Error")
                    | some plaintext =>
                        (checkPlaintext config seconds plaintext).map fun checked =>
                          checked.map fun () => authKey

def verifyClientHello (seconds : UInt64) (record : List UInt8) : Option (Except String (List UInt8)) :=
  if record.length < 5 + 4 + 2 + 32 + 1 + 32 then some (.error "ClientHello record too short")
  else
    (slice record 5 record.length).bind fun handshake =>
      (index handshake 0).bind fun kind =>
        if kind ≠ 0x01 then some (.error "Not a ClientHello handshake")
        else
          (slice handshake 6 38).bind fun random =>
            (index handshake 38).bind fun sessionIdLen =>
              if sessionIdLen ≠ 32 ∨ handshake.length < 39 + 32 then
                some (.error ("Invalid SessionID length: " ++ toString sessionIdLen))
              else
                (slice handshake 39 71).bind fun ciphertext =>
                  verifyHandshake crypto config seconds handshake random ciphertext

end

/-! ### No record breaks the check -/

/-- The extensions lie within the handshake. -/
theorem safe_locateExtensions (handshake : List UInt8) : Safe (locateExtensions handshake) := by
  rw [locateExtensions]
  split
  · exact safe_some _
  apply (safe_index (by omega)).bind
  intro sidLen _
  dsimp only
  split
  · exact safe_some _
  apply (safe_u16BeAt (by omega)).bind
  intro csLen _
  split
  · exact safe_some _
  apply (safe_index (by omega)).bind
  intro compLen _
  split
  · exact safe_some _
  apply (safe_u16BeAt (by omega)).bind
  intro extTotalLen _
  exact safe_some _

theorem le_of_locateExtensions {handshake : List UInt8} {pos stop : Nat}
    (h : locateExtensions handshake = some (.ok (pos, stop))) : stop ≤ handshake.length := by
  rw [locateExtensions] at h
  split at h
  · cases h
  obtain ⟨sidLen, -, h⟩ := Option.bind_eq_some_iff.mp h
  dsimp only at h
  split at h
  · cases h
  obtain ⟨csLen, -, h⟩ := Option.bind_eq_some_iff.mp h
  split at h
  · cases h
  obtain ⟨compLen, -, h⟩ := Option.bind_eq_some_iff.mp h
  split at h
  · cases h
  obtain ⟨extTotalLen, -, h⟩ := Option.bind_eq_some_iff.mp h
  obtain ⟨-, rfl⟩ := Prod.mk.inj (Except.ok.inj (Option.some.inj h))
  exact Nat.min_le_right _ _

theorem safe_signatureAlgorithms (sigData : List UInt8) (sigLen : Nat) {fuel s : Nat}
    (hfuel : sigData.length < s + 2 * (fuel + 1)) :
    Safe (signatureAlgorithms sigData sigLen fuel s) := by
  induction fuel generalizing s with
  | zero =>
      rw [signatureAlgorithms, if_neg (by omega)]
      exact safe_some _
  | succ fuel ih =>
      rw [signatureAlgorithms]
      split
      · apply (safe_u16BeAt (by omega)).bind
        intro sig _
        obtain ⟨sigs, hsigs⟩ := ih (show sigData.length < s + 2 + 2 * (fuel + 1) by omega)
        rw [hsigs]
        exact safe_some _
      · exact safe_some _

theorem safe_logSignatures {α : Type} (handshake : List UInt8) {extType start extLen : Nat}
    (h : start + extLen ≤ handshake.length) :
    Safe (logSignatures (α := α) handshake extType start extLen) := by
  rw [logSignatures]
  split
  · apply (safe_slice (by omega) h).bind
    intro sigData hdata
    have hlen := length_of_slice hdata
    apply (safe_u16BeAt (by omega)).bind
    intro sigLen _
    obtain ⟨sigs, hsigs⟩ :=
      safe_signatureAlgorithms sigData sigLen (show sigData.length < 2 + 2 * (sigData.length + 1) by omega)
    rw [hsigs]
    exact safe_some _
  · exact safe_some _

/-- A walk over the extensions is safe if it is safe to look at each of them. -/
theorem safe_walkExtensions {α : Type} {handshake : List UInt8} {pos stop : Nat}
    (hlocate : locateExtensions handshake = some (.ok (pos, stop)))
    {visit : (type start len : Nat) → Option (Option α)}
    (hvisit : ∀ type start len, start + len ≤ handshake.length → Safe (visit type start len)) :
    Safe (walkFields handshake stop visit handshake.length pos) := by
  have hstop := le_of_locateExtensions hlocate
  apply safe_walkFields hstop
  · intro type start len hle
    exact hvisit type start len (by omega)
  · omega

theorem safe_logClientHelloInfo (handshake : List UInt8) : Safe (logClientHelloInfo handshake) := by
  apply (safe_locateExtensions handshake).bind
  rintro (e | ⟨pos, stop⟩) hlocate
  · exact safe_some _
  · obtain ⟨found, hfound⟩ : Safe
        (walkFields handshake stop (logSignatures (α := Unit) handshake) handshake.length pos) :=
      safe_walkExtensions hlocate fun type start len h => safe_logSignatures handshake h
    dsimp only
    rw [hfound]
    exact safe_some _

theorem safe_takeShare (extData : List UInt8) {group sp keyLen : Nat} (h : sp + keyLen ≤ extData.length) :
    Safe (takeShare extData group sp keyLen) := by
  rw [takeShare]
  split_ifs with hown hhybrid
  · obtain ⟨key, hkey⟩ := safe_slice (show sp ≤ sp + 32 by omega) (show sp + 32 ≤ extData.length by omega)
    rw [hkey]
    exact safe_some _
  · obtain ⟨key, hkey⟩ := safe_slice (show sp + keyLen - 32 ≤ sp + keyLen by omega) h
    rw [hkey]
    exact safe_some _
  · exact safe_some _

theorem safe_sharesIn (handshake : List UInt8) {start extLen : Nat}
    (h : start + extLen ≤ handshake.length) : Safe (sharesIn handshake start extLen) := by
  apply (safe_slice (by omega) h).bind
  intro extData _
  split
  · apply (safe_u16BeAt (by omega)).bind
    intro clientSharesLen _
    apply safe_walkFields (Nat.min_le_right _ _)
    · intro group sp keyLen hle
      exact safe_takeShare extData (by omega)
    · omega
  · exact safe_some _

theorem safe_visitExtension (handshake : List UInt8) {extType start extLen : Nat}
    (h : start + extLen ≤ handshake.length) : Safe (visitExtension handshake extType start extLen) := by
  rw [visitExtension]
  split
  · exact safe_sharesIn handshake h
  · exact safe_logSignatures handshake h

theorem safe_parseX25519KeyShare (handshake : List UInt8) : Safe (parseX25519KeyShare handshake) := by
  apply (safe_locateExtensions handshake).bind
  rintro (e | ⟨pos, stop⟩) hlocate
  · exact safe_some _
  · obtain ⟨found, hfound⟩ :=
      safe_walkExtensions hlocate fun type start len h => safe_visitExtension handshake h
    dsimp only
    rw [hfound]
    exact safe_some _

theorem safe_matchesShortId {clientShortId : List UInt8} (hlen : clientShortId.length = 8)
    (shortIds : List (List UInt8)) : Safe (matchesShortId clientShortId shortIds) := by
  induction shortIds with
  | nil => exact safe_some _
  | cons sid sids ih =>
      rw [matchesShortId]
      split_ifs with hempty hzero hshort
      · exact safe_some _
      · exact ih
      · apply (safe_slice (Nat.zero_le _) (by omega)).bind
        intro front _
        split
        · exact safe_some _
        · exact ih
      · exact ih

theorem safe_checkPlaintext (config : RealityServerConfig) (seconds : UInt64) (plaintext : List UInt8) :
    Safe (checkPlaintext config seconds plaintext) := by
  rw [checkPlaintext]
  split
  · exact safe_some _
  · rename_i hlen
    apply (safe_u32BeAt (by omega)).bind
    intro timestamp _
    dsimp only
    split
    · exact safe_some _
    · apply (safe_slice (by omega) (by omega)).bind
      intro clientShortId hid
      apply (safe_matchesShortId (length_of_slice hid) _).bind
      intro matched _
      split <;> exact safe_some _

variable (crypto : RealityCrypto) (config : RealityServerConfig) (seconds : UInt64)

theorem safe_verifyHandshake {handshake random : List UInt8} (ciphertext : List UInt8)
    (hhandshake : 71 ≤ handshake.length) (hrandom : random.length = 32) :
    Safe (verifyHandshake crypto config seconds handshake random ciphertext) := by
  apply (safe_logClientHelloInfo handshake).bind
  intro _ _
  apply (safe_parseX25519KeyShare handshake).bind
  rintro (e | clientKeyshare) _
  · exact safe_some _
  apply (safe_slice (by omega) (by omega)).bind
  intro salt _
  split
  · exact safe_some _
  apply (safe_slice (by omega) (by omega)).bind
  intro _ _
  apply (safe_slice (by omega) (by omega)).bind
  intro nonce _
  split
  · exact safe_some _
  · rename_i plaintext _
    obtain ⟨checked, hchecked⟩ := safe_checkPlaintext config seconds plaintext
    rw [hchecked]
    exact safe_some _

/-- **No record breaks the check.** -/
theorem safe_verifyClientHello (record : List UInt8) :
    Safe (verifyClientHello crypto config seconds record) := by
  rw [verifyClientHello]
  split
  · exact safe_some _
  apply (safe_slice (by omega) (Nat.le_refl _)).bind
  intro handshake hhandshake
  have hlen := length_of_slice hhandshake
  apply (safe_index (by omega)).bind
  intro kind _
  split
  · exact safe_some _
  apply (safe_slice (by omega) (by omega)).bind
  intro random hrandom
  apply (safe_index (by omega)).bind
  intro sessionIdLen _
  split
  · exact safe_some _
  apply (safe_slice (by omega) (by omega)).bind
  intro ciphertext _
  exact safe_verifyHandshake crypto config seconds ciphertext (by omega) (length_of_slice hrandom)

/-! ### Who is let in -/

/-- The share stands in a list of shares: in its own group, or at the end of a hybrid
one. -/
def ListsShare (extData share : List UInt8) : Prop :=
  ∃ shares sp group keyLen key, u16BeAt extData 0 = some shares ∧
    Relation.ReflTransGen (Next extData (min (2 + shares) extData.length)) 2 sp ∧
    FieldAt extData (min (2 + shares) extData.length) sp group keyLen ∧
    slice extData (sp + 4) (sp + 4 + keyLen) = some key ∧
    (group = 0x001d ∧ keyLen = 32 ∧ share = key ∨
      group = 0x45ac ∧ 32 ≤ keyLen ∧ share = key.drop (keyLen - 32))

/-- The share stands in the extension for shares. -/
def CarriesShare (handshake share : List UInt8) : Prop :=
  ∃ pos stop at' len extData, locateExtensions handshake = some (.ok (pos, stop)) ∧
    Relation.ReflTransGen (Next handshake stop) pos at' ∧ FieldAt handshake stop at' 0x0033 len ∧
    slice handshake (at' + 4) (at' + 4 + len) = some extData ∧ ListsShare extData share

theorem of_logSignatures {α : Type} {handshake : List UInt8} {extType start extLen : Nat} {found : Option α}
    (h : logSignatures handshake extType start extLen = some found) : found = none := by
  rw [logSignatures] at h
  split at h
  · obtain ⟨sigData, -, h⟩ := Option.bind_eq_some_iff.mp h
    obtain ⟨sigLen, -, h⟩ := Option.bind_eq_some_iff.mp h
    obtain ⟨sigs, -, rfl⟩ := Option.map_eq_some_iff.mp h
    rfl
  · exact (Option.some.inj h).symm

theorem of_takeShare {extData share : List UInt8} {group sp keyLen : Nat}
    (hle : sp + keyLen ≤ extData.length) (h : takeShare extData group sp keyLen = some (some share)) :
    ∃ key, slice extData sp (sp + keyLen) = some key ∧
      (group = 0x001d ∧ keyLen = 32 ∧ share = key ∨
        group = 0x45ac ∧ 32 ≤ keyLen ∧ share = key.drop (keyLen - 32)) := by
  rw [takeShare] at h
  split_ifs at h with hown hhybrid
  · obtain ⟨rfl, rfl⟩ := hown
    obtain ⟨key, hkey, heq⟩ := Option.map_eq_some_iff.mp h
    obtain rfl := Option.some.inj heq
    exact ⟨key, hkey, .inl ⟨rfl, rfl, rfl⟩⟩
  · obtain ⟨rfl, hlong⟩ := hhybrid
    obtain ⟨tail, htail, heq⟩ := Option.map_eq_some_iff.mp h
    obtain rfl := Option.some.inj heq
    obtain ⟨key, hkey⟩ := safe_slice (show sp ≤ sp + keyLen by omega) hle
    refine ⟨key, hkey, .inr ⟨rfl, hlong, ?_⟩⟩
    obtain ⟨-, -, rfl⟩ := slice_eq_some htail
    obtain ⟨-, -, rfl⟩ := slice_eq_some hkey
    rw [List.drop_take, List.drop_drop]
    congr 1
    · omega
    · congr 1
      omega
  · cases Option.some.inj h

theorem listsShare_of_sharesIn {handshake share : List UInt8} {start extLen : Nat}
    (h : sharesIn handshake start extLen = some (some share)) :
    ∃ extData, slice handshake start (start + extLen) = some extData ∧ ListsShare extData share := by
  obtain ⟨extData, hdata, h⟩ := Option.bind_eq_some_iff.mp h
  split at h
  · obtain ⟨shares, hshares, hwalk⟩ := Option.bind_eq_some_iff.mp h
    obtain ⟨sp, group, keyLen, hreach, hentry, htake⟩ := found_walkFields hwalk
    have hends := hentry.ends
    obtain ⟨key, hkey, hgroup⟩ := of_takeShare (by omega) htake
    exact ⟨extData, hdata, shares, sp, group, keyLen, key, hshares, hreach, hentry, hkey, hgroup⟩
  · cases h

/-- **The share that is found stands in the record.** -/
theorem carriesShare_of_ok {handshake share : List UInt8}
    (h : parseX25519KeyShare handshake = some (.ok share)) : CarriesShare handshake share := by
  obtain ⟨located, hlocate, h⟩ := Option.bind_eq_some_iff.mp h
  rcases located with e | ⟨pos, stop⟩
  · cases h
  obtain ⟨found, hfound, hshare⟩ := Option.map_eq_some_iff.mp h
  cases found with
  | none => cases hshare
  | some found =>
      obtain rfl := Except.ok.inj hshare
      obtain ⟨at', type, len, hreach, hfield, hvisit⟩ := found_walkFields hfound
      rw [visitExtension] at hvisit
      split at hvisit
      · rename_i htype
        subst htype
        obtain ⟨extData, hdata, hlists⟩ := listsShare_of_sharesIn hvisit
        exact ⟨pos, stop, at', len, extData, hlocate, hreach, hfield, hdata, hlists⟩
      · cases of_logSignatures hvisit

theorem of_matchesShortId {clientShortId : List UInt8} {shortIds : List (List UInt8)}
    (h : matchesShortId clientShortId shortIds = some true) :
    ∃ sid ∈ shortIds, sid.length ≤ 8 ∧ sid <+: clientShortId ∧
      (sid = [] → ∀ b ∈ clientShortId, b = 0) := by
  induction shortIds with
  | nil => cases h
  | cons sid sids ih =>
      have hlater : matchesShortId clientShortId sids = some true →
          ∃ other ∈ sid :: sids, other.length ≤ 8 ∧ other <+: clientShortId ∧
            (other = [] → ∀ b ∈ clientShortId, b = 0) := by
        intro hmatch
        obtain ⟨other, hmem, hother⟩ := ih hmatch
        exact ⟨other, List.mem_cons_of_mem _ hmem, hother⟩
      rw [matchesShortId] at h
      split_ifs at h with hempty hzero hshort
      · obtain rfl := List.isEmpty_iff.mp hempty
        refine ⟨[], List.mem_cons_self, Nat.zero_le _, List.nil_prefix, ?_⟩
        intro _ b hmem
        simpa using List.all_eq_true.mp hzero b hmem
      · exact hlater h
      · obtain ⟨front, hfront, h⟩ := Option.bind_eq_some_iff.mp h
        split at h
        · rename_i heq
          subst heq
          refine ⟨front, List.mem_cons_self, hshort, ?_, ?_⟩
          · obtain ⟨-, -, hcut⟩ := slice_eq_some hfront
            rw [hcut]
            exact List.take_prefix _ _
          · rintro rfl
            exact absurd rfl hempty
        · exact hlater h
      · exact hlater h

/-- What a client that is let in has shown: its session id opens, under the key that
the share in its record agrees on, to a time that is not too far and to a short id
that begins with a configured one. -/
def Admitted (record key : List UInt8) : Prop :=
  let handshake := record.drop 5
  let random := (handshake.drop 6).take 32
  ∃ share plaintext, CarriesShare handshake share ∧
    crypto.hkdf (random.take 20) (crypto.diffieHellman config.privateKey share) = .ok key ∧
    crypto.decrypt key (random.drop 20) ((handshake.drop 39).take 32) (blankSessionId handshake) =
      some plaintext ∧
    plaintext.length = 16 ∧
    ((seconds.toNat % 2 ^ 32 : Int) - Net.ofBeBytes ((plaintext.drop 4).take 4)).natAbs * 1000 ≤
      config.maxTimeDiffMs.toNat ∧
    ∃ sid ∈ config.shortIds, sid.length ≤ 8 ∧ sid <+: plaintext.drop 8 ∧
      (sid = [] → ∀ b ∈ plaintext.drop 8, b = 0)

variable {crypto config seconds}

theorem of_checkPlaintext {plaintext : List UInt8}
    (h : checkPlaintext config seconds plaintext = some (.ok ())) :
    plaintext.length = 16 ∧
      ((seconds.toNat % 2 ^ 32 : Int) - Net.ofBeBytes ((plaintext.drop 4).take 4)).natAbs * 1000 ≤
        config.maxTimeDiffMs.toNat ∧
      ∃ sid ∈ config.shortIds, sid.length ≤ 8 ∧ sid <+: plaintext.drop 8 ∧
        (sid = [] → ∀ b ∈ plaintext.drop 8, b = 0) := by
  rw [checkPlaintext] at h
  split at h
  · cases h
  rename_i hlen
  have hlen : plaintext.length = 16 := not_not.mp hlen
  obtain ⟨timestamp, htime, h⟩ := Option.bind_eq_some_iff.mp h
  dsimp only at h
  split at h
  · cases h
  rename_i hdiff
  obtain ⟨clientShortId, hid, h⟩ := Option.bind_eq_some_iff.mp h
  obtain ⟨matched, hmatched, h⟩ := Option.bind_eq_some_iff.mp h
  obtain ⟨-, -, rfl⟩ := slice_eq_some hid
  rw [List.take_of_length_le (by rw [List.length_drop]; omega)] at hmatched
  cases matched with
  | false => cases h
  | true =>
      refine ⟨hlen, ?_, of_matchesShortId hmatched⟩
      obtain ⟨field, hfield, rfl⟩ := Option.map_eq_some_iff.mp htime
      obtain ⟨-, -, rfl⟩ := slice_eq_some hfield
      have hlt : Net.ofBeBytes ((plaintext.drop 4).take 4) < 2 ^ 32 := by
        refine Nat.lt_of_lt_of_le (Net.ofBeBytes_lt _) ?_
        rw [List.length_take]
        exact Nat.pow_le_pow_right (by decide) (Nat.min_le_left _ _)
      have hnow : seconds.toUInt32.toNat = seconds.toNat % 2 ^ 32 := UInt64.toNat_toUInt32 seconds
      rw [absDiff, UInt32.toNat_ofNat_of_lt' hlt, hnow] at hdiff
      omega

/-- **Whoever is let in has shown it.** -/
theorem admitted_of_ok {record key : List UInt8}
    (h : verifyClientHello crypto config seconds record = some (.ok key)) :
    Admitted crypto config seconds record key := by
  rw [verifyClientHello] at h
  split at h
  · cases h
  obtain ⟨handshake, hhandshake, h⟩ := Option.bind_eq_some_iff.mp h
  obtain ⟨kind, -, h⟩ := Option.bind_eq_some_iff.mp h
  split at h
  · cases h
  obtain ⟨random, hrandom, h⟩ := Option.bind_eq_some_iff.mp h
  obtain ⟨sessionIdLen, -, h⟩ := Option.bind_eq_some_iff.mp h
  split at h
  · cases h
  obtain ⟨ciphertext, hciphertext, h⟩ := Option.bind_eq_some_iff.mp h
  obtain ⟨-, -, h⟩ := Option.bind_eq_some_iff.mp h
  obtain ⟨parsed, hparsed, h⟩ := Option.bind_eq_some_iff.mp h
  cases parsed with
  | error e => cases h
  | ok share =>
      obtain ⟨salt, hsalt, h⟩ := Option.bind_eq_some_iff.mp h
      split at h
      · cases h
      rename_i authKey hkey
      obtain ⟨blanked, -, h⟩ := Option.bind_eq_some_iff.mp h
      obtain ⟨nonce, hnonce, h⟩ := Option.bind_eq_some_iff.mp h
      split at h
      · cases h
      rename_i plaintext hplaintext
      obtain ⟨checked, hchecked, h⟩ := Option.map_eq_some_iff.mp h
      cases checked with
      | error e => cases h
      | ok done =>
          obtain rfl := Except.ok.inj h
          obtain ⟨hlen, htime, hid⟩ := of_checkPlaintext hchecked
          obtain ⟨-, hlong, rfl⟩ := slice_eq_some hrandom
          obtain ⟨-, -, rfl⟩ := slice_eq_some hciphertext
          obtain ⟨-, -, rfl⟩ := slice_eq_some hsalt
          obtain ⟨-, -, rfl⟩ := slice_eq_some hnonce
          obtain ⟨-, -, hcut⟩ := slice_eq_some hhandshake
          rw [List.take_of_length_le (by rw [List.length_drop])] at hcut
          subst hcut
          refine ⟨share, plaintext, carriesShare_of_ok hparsed, hkey, ?_, hlen, htime, hid⟩
          rw [← hplaintext, List.take_of_length_le (l := List.drop 20 _)]
          rw [List.length_drop, List.length_take]
          omega

/-- **REALITY lets in whom it knows, and nothing breaks it.**  For every byte string the
walks over the extensions and the check come to an end within bounds; whoever is let in
has shown what `Admitted` says; and the check does not look at the server's names and at
the bounds of the client's version. -/
theorem verifyClientHello_admits (crypto : RealityCrypto) (config : RealityServerConfig)
    (seconds : UInt64) :
    (∀ handshake, logClientHelloInfo handshake = some () ∧
        ∃ parsed, parseX25519KeyShare handshake = some parsed) ∧
      ∀ record, ∃ result, verifyClientHello crypto config seconds record = some result ∧
        (∀ key, result = .ok key → Admitted crypto config seconds record key) ∧
        ∀ names min max, verifyClientHello crypto
          { config with serverNames := names, minClientVer := min, maxClientVer := max } seconds record =
            some result := by
  constructor
  · intro handshake
    obtain ⟨⟨⟩, hlog⟩ := safe_logClientHelloInfo handshake
    exact ⟨hlog, safe_parseX25519KeyShare handshake⟩
  · intro record
    obtain ⟨result, hresult⟩ := safe_verifyClientHello crypto config seconds record
    refine ⟨result, hresult, ?_, ?_⟩
    · rintro key rfl
      exact admitted_of_ok hresult
    · intro names min max
      exact hresult

/-! ### A client -/

/-- The key pair of the server, and the share of the client. -/
def samplePrivateKey : List UInt8 := (List.range 32).map fun i => UInt8.ofNat (i + 1)

def sampleShare : List UInt8 :=
  [88, 105, 175, 244, 80, 84, 151, 50, 203, 170, 237, 94, 93, 249, 179, 10, 109, 163, 28, 176,
  229, 116, 43, 173, 90, 212, 161, 167, 104, 241, 166, 123]

def sampleShared : List UInt8 :=
  [168, 77, 199, 195, 200, 240, 88, 177, 178, 220, 76, 209, 233, 181, 220, 10, 121, 135, 248, 139,
  106, 149, 100, 205, 227, 57, 31, 196, 33, 21, 158, 119]

def sampleAuthKey : List UInt8 :=
  [140, 168, 186, 186, 56, 155, 173, 220, 219, 111, 18, 230, 138, 65, 159, 146, 52, 68, 143, 185,
  108, 105, 164, 108, 10, 77, 60, 58, 132, 221, 234, 247]

def sampleRandom : List UInt8 := (List.range 32).map fun i => UInt8.ofNat (100 + i)

/-- A ClientHello for b.example with an X25519 share. -/
def sampleHello (sessionId : List UInt8) : List UInt8 :=
  [1, 0, 0, 135, 3, 3] ++ sampleRandom ++ [32] ++ sessionId ++
    [0, 2, 19, 1, 1, 0, 0, 60, 0, 0, 0, 14, 0, 12, 0, 0, 9, 98, 46, 101, 120, 97, 109, 112, 108, 101,
      0, 51, 0, 38, 0, 36, 0, 29, 0, 32] ++ sampleShare

def sampleRecord (sessionId : List UInt8) : List UInt8 := [22, 3, 1, 0, 139] ++ sampleHello sessionId

/-- Version 1.8.0, the time 1700000000 and a short id. -/
def samplePlaintext (shortId : List UInt8) : List UInt8 := [1, 8, 0, 0, 101, 83, 241, 0] ++ shortId

/-- The session ids that hold the short ids 1, 2, 3, 4 with zeros and with 5, 6, 7, 8
behind them. -/
def paddedSessionId : List UInt8 :=
  [75, 154, 215, 144, 104, 56, 76, 154, 198, 216, 214, 211, 228, 239, 215, 18, 194, 26, 73, 60,
  173, 1, 152, 85, 246, 151, 255, 234, 203, 132, 224, 232]

def longerSessionId : List UInt8 :=
  [75, 154, 215, 144, 104, 56, 76, 154, 198, 216, 214, 211, 225, 233, 208, 26, 240, 251, 121, 7,
  157, 135, 5, 153, 125, 66, 67, 47, 226, 225, 190, 160]

/-- X25519, HKDF and AES-GCM where this client and this server use them. -/
def sampleCrypto : RealityCrypto where
  diffieHellman secret share := if secret = samplePrivateKey ∧ share = sampleShare then sampleShared else []
  hkdf salt ikm :=
    if salt = sampleRandom.take 20 ∧ ikm = sampleShared then .ok sampleAuthKey else .error "unknown"
  decrypt key nonce msg aad :=
    if key = sampleAuthKey ∧ nonce = sampleRandom.drop 20 ∧ aad = sampleHello (List.replicate 32 0) then
      if msg = paddedSessionId then some (samplePlaintext [1, 2, 3, 4, 0, 0, 0, 0])
      else if msg = longerSessionId then some (samplePlaintext [1, 2, 3, 4, 5, 6, 7, 8])
      else none
    else none

def sampleConfig : RealityServerConfig where
  serverNames := ["a.example".toList]
  privateKey := samplePrivateKey
  shortIds := [[1, 2, 3, 4]]
  maxTimeDiffMs := 60000
  minClientVer := some "2.0.0".toList
  maxClientVer := none

theorem verifyClientHello_admits_padded :
    verifyClientHello sampleCrypto sampleConfig 1700000005 (sampleRecord paddedSessionId) =
        some (.ok sampleAuthKey) ∧
      Admitted sampleCrypto sampleConfig 1700000005 (sampleRecord paddedSessionId) sampleAuthKey := by
  have hok : verifyClientHello sampleCrypto sampleConfig 1700000005 (sampleRecord paddedSessionId) =
      some (.ok sampleAuthKey) := by decide +kernel
  refine ⟨hok, ?_⟩
  obtain ⟨result, hresult, hadmitted, -⟩ :=
    (verifyClientHello_admits sampleCrypto sampleConfig 1700000005).2 (sampleRecord paddedSessionId)
  exact hadmitted sampleAuthKey (Option.some.inj (hresult.symm.trans hok))

/-- The short id is a configured one with zeros behind it. -/
def PaddedShortId (config : RealityServerConfig) (shortId : List UInt8) : Prop :=
  ∃ sid ∈ config.shortIds, shortId = sid ++ List.replicate (8 - sid.length) 0

/-- The name in the extension for it. -/
def serverNameOf (handshake : List UInt8) : Option (Option (List UInt8)) :=
  (locateExtensions handshake).bind fun
    | .error _ => some none
    | .ok (pos, stop) =>
        walkFields handshake stop
          (fun extType start extLen =>
            if extType = 0 then (slice handshake (start + 5) (start + extLen)).map some else some none)
          handshake.length pos

/-- The numbers of a version. -/
def versionOf (text : List Char) : List Nat := (text.splitOn '.').filterMap (Text.parseUnsigned 255)

/-- A client is let in whose short id only begins with a configured one, whose server
name is not configured and whose version 1.8.0 is below the least one. -/
theorem longer_short_id_admitted :
    verifyClientHello sampleCrypto sampleConfig 1700000005 (sampleRecord longerSessionId) =
        some (.ok sampleAuthKey) ∧
      sampleCrypto.decrypt sampleAuthKey (sampleRandom.drop 20) longerSessionId
          (blankSessionId (sampleHello longerSessionId)) =
        some (samplePlaintext [1, 2, 3, 4, 5, 6, 7, 8]) ∧
      ¬ PaddedShortId sampleConfig [1, 2, 3, 4, 5, 6, 7, 8] ∧
      serverNameOf (sampleHello longerSessionId) = some (some (Text.toUtf8 "b.example".toList)) ∧
      "b.example".toList ∉ sampleConfig.serverNames ∧
      ((samplePlaintext [1, 2, 3, 4, 5, 6, 7, 8]).take 3).map UInt8.toNat < versionOf "2.0.0".toList := by
  refine ⟨by decide +kernel, by decide +kernel, ?_, by decide +kernel, by decide, by decide +kernel⟩
  rintro ⟨sid, hmem, heq⟩
  obtain rfl := List.mem_singleton.mp hmem
  cases heq

end Security

end Elise
