/-
Elise/Dns/Wire.lean

DNS messages (src/dns/wire.rs): the query for a name, and the addresses that are read from an
answer.  What breaks, an access out of bounds, is `none`.

The encoder checks each label of a name.  A name in an answer is only skipped: it ends with a
byte zero or with a pointer, which is not followed, and has 128 labels at most.  Neither of the
two looks at the length of the whole name, so a name of more than 255 octets is sent all the
same, and one with more than 128 labels is refused by the reader (`query_legal_iff`).
-/
import Elise.Lib.Ascii
import Elise.Lib.Checked
import Elise.Lib.Text

namespace Elise

namespace Dns

open Net Checked

def typeA : Nat := 1

def typeAaaa : Nat := 28

def classIn : Nat := 1

/-! ### Errors -/

inductive WireErrorKind where
  | invalidInput
  | unexpectedEof
  | invalidData
  deriving DecidableEq

structure WireError where
  kind : WireErrorKind
  message : String
  deriving DecidableEq

/-! ### The query -/

/-- `domain.trim().trim_end_matches('.')`. -/
def cleanDomain (domain : List Char) : List Char :=
  ((Text.trim domain).reverse.dropWhile (· == '.')).reverse

/-- The labels, each behind its length, and a byte zero. -/
def questionName (domain : List Char) : (labels : List (List Char)) → Except WireError (List UInt8)
  | [] => .ok [0x00]
  | label :: labels =>
      if label.isEmpty ∨ 63 < (Text.toUtf8 label).length then
        .error ⟨.invalidInput, "Invalid DNS label length in '" ++ String.ofList domain ++ "'"⟩
      else
        (questionName domain labels).map fun name =>
          UInt8.ofNat (Text.toUtf8 label).length :: (Text.toUtf8 label ++ name)

/-- The first twelve bytes: recursion is desired, and there is one question. -/
def queryHeader (id : UInt16) : List UInt8 :=
  toBeBytes 2 id.toNat ++ (toBeBytes 2 0x0100 ++ (toBeBytes 2 1 ++ (toBeBytes 2 0 ++
    (toBeBytes 2 0 ++ toBeBytes 2 0))))

def buildQuery (domain : List Char) (qtype id : UInt16) : Except WireError (List UInt8) :=
  if (cleanDomain domain).isEmpty then .error ⟨.invalidInput, "Domain name cannot be empty"⟩
  else
    (questionName domain ((cleanDomain domain).splitOn '.')).map fun name =>
      queryHeader id ++ (name ++ (toBeBytes 2 qtype.toNat ++ toBeBytes 2 classIn))

/-! ### The answer -/

section

variable (buf : List UInt8)

/-- One round of the loop of `skip_name`: where it goes on, and whether the name ends
there. -/
def nameStep (pos : Nat) : Option (Except WireError (Nat × Bool)) :=
  if pos < buf.length then
    (index buf pos).bind fun len =>
      if len = 0 then some (.ok (pos + 1, true))
      else if len &&& 0xC0 = 0xC0 then
        if buf.length < pos + 2 then
          some (.error ⟨.unexpectedEof, "Truncated compression pointer in DNS name"⟩)
        else some (.ok (pos + 2, true))
      else some (.ok (pos + (1 + len.toNat), false))
  else some (.error ⟨.unexpectedEof, "DNS name extends beyond buffer"⟩)

/-- The loop; `left` labels may still come. -/
def skipLabels : (left pos : Nat) → Option (Except WireError Nat)
  | 0, pos =>
      (nameStep buf pos).map fun
        | .error e => .error e
        | .ok (pos, true) => .ok pos
        | .ok (_, false) => .error ⟨.invalidData, "Too many DNS labels or pointer loop"⟩
  | left + 1, pos =>
      (nameStep buf pos).bind fun
        | .error e => some (.error e)
        | .ok (pos, true) => some (.ok pos)
        | .ok (pos, false) => skipLabels left pos

def skipName (pos : Nat) : Option (Except WireError Nat) := skipLabels buf 128 pos

/-- The address in the data of a record. -/
def addressIn (atype : Nat) (rdata : List UInt8) : Option IpAddr :=
  if h : atype = typeA ∧ rdata.length = 4 then some (.v4 ⟨rdata, h.2⟩)
  else if h : atype = typeAaaa ∧ rdata.length = 16 then some (.v6 ⟨rdata, h.2⟩)
  else none

end

/-! ### Names -/

/-- Labels as they stand in a message, each behind its length. -/
def encodeLabels (labels : List (List UInt8)) : List UInt8 :=
  labels.flatMap fun label => UInt8.ofNat label.length :: label

@[simp] theorem encodeLabels_nil : encodeLabels [] = [] := rfl

theorem encodeLabels_cons (label : List UInt8) (labels : List (List UInt8)) :
    encodeLabels (label :: labels) = (UInt8.ofNat label.length :: label) ++ encodeLabels labels :=
  List.flatMap_cons

/-- A label has 1 to 63 bytes. -/
def IsLabel (label : List UInt8) : Prop := 0 < label.length ∧ label.length ≤ 63

/-- The length of a label is no pointer. -/
theorem IsLabel.no_pointer {label : List UInt8} (h : IsLabel label) :
    UInt8.ofNat label.length ≠ 0 ∧ UInt8.ofNat label.length &&& 0xC0 ≠ 0xC0 ∧
      (UInt8.ofNat label.length).toNat = label.length := by
  obtain ⟨hpos, hle⟩ := h
  have htoNat : (UInt8.ofNat label.length).toNat = label.length := by
    rw [UInt8.toNat_ofNat']
    omega
  refine ⟨?_, ?_, htoNat⟩
  · intro hzero
    rw [hzero] at htoNat
    have hz : (0 : UInt8).toNat = 0 := rfl
    omega
  · intro hmask
    have hand := congrArg UInt8.toNat hmask
    rw [UInt8.toNat_and, htoNat] at hand
    have hle' : label.length &&& (0xC0 : UInt8).toNat ≤ label.length := Nat.and_le_left
    have hmax : (0xC0 : UInt8).toNat = 192 := rfl
    omega

/-- Each label takes two bytes at least. -/
theorem two_mul_length_le {labels : List (List UInt8)} (h : ∀ label ∈ labels, IsLabel label) :
    2 * labels.length ≤ (encodeLabels labels).length := by
  induction labels with
  | nil => exact Nat.zero_le _
  | cons label labels ih =>
      have hrest := ih fun l hl => h l (List.mem_cons_of_mem _ hl)
      have hpos := (h label (List.mem_cons_self ..)).1
      rw [encodeLabels_cons, List.length_append, List.length_cons, List.length_cons]
      omega

section

variable {buf tail : List UInt8} {left pos : Nat}

theorem nameStep_label {label : List UInt8} (h : IsLabel label)
    (hat : StandsAt buf pos (UInt8.ofNat label.length :: (label ++ tail))) :
    nameStep buf pos = some (.ok (pos + (1 + label.length), false)) := by
  obtain ⟨hzero, hmask, htoNat⟩ := h.no_pointer
  have hlen := hat.length_eq
  rw [List.length_cons] at hlen
  rw [nameStep, if_pos (by omega), hat.index, Option.bind_some, if_neg hzero, if_neg hmask, htoNat]

theorem skipLabels_zero (hat : StandsAt buf pos (0x00 :: tail)) :
    skipLabels buf left pos = some (.ok (pos + 1)) := by
  have hlen := hat.length_eq
  rw [List.length_cons] at hlen
  have hstep : nameStep buf pos = some (.ok (pos + 1, true)) := by
    rw [nameStep, if_pos (by omega), hat.index, Option.bind_some, if_pos rfl]
  cases left <;> (rw [skipLabels, hstep]; rfl)

/-- The labels of a name are skipped one by one. -/
theorem skipLabels_encodeLabels {labels : List (List UInt8)} (h : ∀ label ∈ labels, IsLabel label)
    (hleft : labels.length ≤ left) (hat : StandsAt buf pos (encodeLabels labels ++ tail)) :
    skipLabels buf left pos =
      skipLabels buf (left - labels.length) (pos + (encodeLabels labels).length) := by
  induction labels generalizing left pos with
  | nil => rfl
  | cons label labels ih =>
      rw [List.length_cons] at hleft
      obtain ⟨left, rfl⟩ : ∃ n, left = n + 1 := ⟨left - 1, by omega⟩
      rw [encodeLabels_cons, List.append_assoc] at hat
      have hnext := hat.skip
      rw [List.length_cons, Nat.add_comm label.length 1] at hnext
      have hrest := ih (fun l hl => h l (List.mem_cons_of_mem _ hl)) (Nat.le_of_succ_le_succ hleft) hnext
      rw [skipLabels, nameStep_label (h label (List.mem_cons_self ..)) hat]
      show skipLabels buf left (pos + (1 + label.length)) = _
      rw [hrest, encodeLabels_cons, List.length_append, List.length_cons, List.length_cons,
        Nat.add_sub_add_right]
      congr 1
      omega

end

/-! ### Reading a name -/

/-- The labels of a name that takes all the bytes. -/
def decodeLabels : (fuel : Nat) → (name : List UInt8) → Option (List (List UInt8))
  | 0, _ => none
  | _ + 1, [] => none
  | fuel + 1, len :: rest =>
      if len = 0 then if rest.isEmpty then some [] else none
      else if rest.length < len.toNat then none
      else (decodeLabels fuel (rest.drop len.toNat)).map (rest.take len.toNat :: ·)

/-- The domain, with a dot between the labels. -/
def decodeName (name : List UInt8) : Option (List Char) :=
  (decodeLabels name.length name).bind fun labels =>
    (labels.mapM Text.fromUtf8).map ['.'].intercalate

/-- The question name: all between the header and the type and the class. -/
def nameOf (query : List UInt8) : List UInt8 := (query.drop 12).take (query.length - 16)

structure Legal (domain : List Char) (query : List UInt8) : Prop where
  short : (nameOf query).length ≤ 255
  decodes : decodeName (nameOf query) = some (cleanDomain domain)
  skips : skipName query 12 = some (.ok (query.length - 4))

theorem decodeLabels_encodeLabels {labels : List (List UInt8)} (h : ∀ label ∈ labels, IsLabel label)
    {fuel : Nat} (hfuel : labels.length < fuel) :
    decodeLabels fuel (encodeLabels labels ++ [0x00]) = some labels := by
  induction labels generalizing fuel with
  | nil =>
      obtain ⟨fuel, rfl⟩ : ∃ n, fuel = n + 1 := ⟨fuel - 1, by omega⟩
      rfl
  | cons label labels ih =>
      rw [List.length_cons] at hfuel
      obtain ⟨fuel, rfl⟩ : ∃ n, fuel = n + 1 := ⟨fuel - 1, by omega⟩
      obtain ⟨hzero, -, htoNat⟩ := (h label (List.mem_cons_self ..)).no_pointer
      rw [encodeLabels_cons, List.append_assoc, List.cons_append, decodeLabels, if_neg hzero, htoNat,
        if_neg (by simp), List.drop_left, List.take_left,
        ih (fun l hl => h l (List.mem_cons_of_mem _ hl)) (by omega)]
      rfl

/-! ### Writing a name -/

theorem isLabel_toUtf8 {label : List Char} (hne : ¬ label.isEmpty)
    (hle : ¬ 63 < (Text.toUtf8 label).length) : IsLabel (Text.toUtf8 label) := by
  refine ⟨?_, Nat.le_of_not_lt hle⟩
  cases label with
  | nil => exact absurd rfl hne
  | cons c cs =>
      rw [List.length_pos_iff]
      intro hnil
      have hcs := Text.fromUtf8_toUtf8 (c :: cs)
      rw [hnil] at hcs
      cases hcs

theorem of_questionName {domain : List Char} {labels : List (List Char)} {name : List UInt8}
    (h : questionName domain labels = .ok name) :
    (∀ label ∈ labels.map Text.toUtf8, IsLabel label) ∧
      name = encodeLabels (labels.map Text.toUtf8) ++ [0x00] := by
  induction labels generalizing name with
  | nil =>
      obtain rfl := Except.ok.inj h
      exact ⟨fun _ hmem => (nomatch hmem), rfl⟩
  | cons label labels ih =>
      rw [questionName] at h
      split at h
      · cases h
      · rename_i hlabel
        rw [not_or] at hlabel
        cases hrest : questionName domain labels with
        | error e =>
            rw [hrest] at h
            cases h
        | ok rest =>
            rw [hrest] at h
            obtain rfl := Except.ok.inj h
            obtain ⟨hlabels, rfl⟩ := ih hrest
            refine ⟨?_, ?_⟩
            · rw [List.map_cons]
              exact List.forall_mem_cons.mpr ⟨isLabel_toUtf8 hlabel.1 hlabel.2, hlabels⟩
            · rw [List.map_cons, encodeLabels_cons, List.append_assoc, List.cons_append]

/-- The dots between the labels are their lengths but for the first. -/
theorem length_encodeLabels_map {labels : List (List Char)} (hne : labels ≠ []) :
    (encodeLabels (labels.map Text.toUtf8)).length = (Text.toUtf8 (['.'].intercalate labels)).length + 1 := by
  induction labels with
  | nil => exact absurd rfl hne
  | cons label labels ih =>
      rw [List.map_cons, encodeLabels_cons, List.length_append, List.length_cons]
      cases labels with
      | nil => simp [List.intercalate]
      | cons next labels =>
          have hdot : (Text.toUtf8 ['.']).length = 1 := rfl
          rw [ih (List.cons_ne_nil _ _), List.intercalate_cons_cons, Text.toUtf8_append,
            Text.toUtf8_append, List.length_append, List.length_append, hdot]
          omega

theorem mapM_fromUtf8 (labels : List (List Char)) :
    (labels.map Text.toUtf8).mapM Text.fromUtf8 = some labels := by
  induction labels with
  | nil => rfl
  | cons label labels ih =>
      rw [List.map_cons, List.mapM_cons, Text.fromUtf8_toUtf8, ih]
      rfl

/-! ### The query -/

theorem length_queryHeader (id : UInt16) : (queryHeader id).length = 12 := by
  simp [queryHeader, length_toBeBytes]

variable {domain : List Char} {qtype id : UInt16} {query : List UInt8}

/-- The name in a query, and what stands before and behind it. -/
theorem of_buildQuery (h : buildQuery domain qtype id = .ok query) :
    ∃ labels, ['.'].intercalate labels = cleanDomain domain ∧ labels ≠ [] ∧
      (∀ label ∈ labels.map Text.toUtf8, IsLabel label) ∧
      query = queryHeader id ++ ((encodeLabels (labels.map Text.toUtf8) ++ [0x00]) ++
        (toBeBytes 2 qtype.toNat ++ toBeBytes 2 classIn)) := by
  rw [buildQuery] at h
  split at h
  · cases h
  · cases hname : questionName domain ((cleanDomain domain).splitOn '.') with
    | error e =>
        rw [hname] at h
        cases h
    | ok name =>
        rw [hname] at h
        obtain rfl := Except.ok.inj h
        obtain ⟨hlabels, rfl⟩ := of_questionName hname
        exact ⟨_, List.intercalate_splitOn _, List.splitOn_ne_nil _ _, hlabels, rfl⟩

/-- **A query is legal, and is read again, when the domain has 253 bytes at most.** -/
theorem query_legal_iff (h : buildQuery domain qtype id = .ok query) :
    Legal domain query ↔ (Text.toUtf8 (cleanDomain domain)).length ≤ 253 := by
  obtain ⟨labels, hclean, hne, hlabels, rfl⟩ := of_buildQuery h
  have htail : (toBeBytes 2 qtype.toNat ++ toBeBytes 2 classIn).length = 4 := by
    simp [length_toBeBytes]
  have hheader := length_queryHeader id
  have hname : nameOf (queryHeader id ++ ((encodeLabels (labels.map Text.toUtf8) ++ [0x00]) ++
      (toBeBytes 2 qtype.toNat ++ toBeBytes 2 classIn))) =
        encodeLabels (labels.map Text.toUtf8) ++ [0x00] := by
    rw [nameOf, ← hheader, List.drop_left, List.length_append, List.length_append, htail, hheader]
    apply List.take_left'
    omega
  have hlen := length_encodeLabels_map hne
  rw [hclean] at hlen
  have htwo := two_mul_length_le hlabels
  constructor
  · intro hlegal
    have hshort := hlegal.short
    rw [hname, List.length_append, List.length_singleton] at hshort
    omega
  · intro hdomain
    refine ⟨?_, ?_, ?_⟩
    · rw [hname, List.length_append, List.length_singleton]
      omega
    · rw [hname, decodeName, decodeLabels_encodeLabels hlabels, Option.bind_some, mapM_fromUtf8,
        Option.map_some, hclean]
      rw [List.length_append]
      omega
    · -- at most 127 labels, so the reader comes to the byte zero
      have hat := standsAt_append (queryHeader id) ((encodeLabels (labels.map Text.toUtf8) ++ [0x00]) ++
        (toBeBytes 2 qtype.toNat ++ toBeBytes 2 classIn))
      rw [hheader, List.append_assoc] at hat
      rw [List.append_assoc, skipName, skipLabels_encodeLabels hlabels (by omega) hat, skipLabels_zero hat.skip,
        List.length_append, List.length_append, List.length_append, htail, hheader]
      congr 2

theorem exists_query {result : Except WireError (List UInt8)} (h : result.toOption.isSome) :
    ∃ query, result = .ok query := by
  cases result with
  | error e => cases h
  | ok query => exact ⟨query, rfl⟩

/-- The name of the test of the source. -/
theorem query_legal_google :
    ∃ query, buildQuery "google.com".toList 1 0x1234 = .ok query ∧ Legal "google.com".toList query := by
  obtain ⟨query, hquery⟩ : ∃ query, buildQuery "google.com".toList 1 0x1234 = .ok query :=
    exists_query (by decide +kernel)
  exact ⟨query, hquery, (query_legal_iff hquery).mpr (by decide +kernel)⟩

/-- A name of 129 labels. -/
def manyLabels : List Char := ['.'].intercalate (List.replicate 129 ['a'])

/-- It is sent in 259 octets, and the reader gives up at its last label. -/
theorem long_query_not_legal :
    ∃ query, buildQuery manyLabels 1 0x1234 = .ok query ∧ 255 < (nameOf query).length ∧
      skipName query 12 = some (.error ⟨.invalidData, "Too many DNS labels or pointer loop"⟩) ∧
      ¬ Legal manyLabels query := by
  obtain ⟨query, hquery⟩ : ∃ query, buildQuery manyLabels 1 0x1234 = .ok query :=
    exists_query (by decide +kernel)
  have hread : (buildQuery manyLabels 1 0x1234).toOption.map
      (fun query => (decide (255 < (nameOf query).length), skipName query 12)) =
        some (true, some (.error ⟨.invalidData, "Too many DNS labels or pointer loop"⟩)) := by
    decide +kernel
  rw [hquery] at hread
  obtain ⟨hlong, hskip⟩ := Prod.mk.injEq .. ▸ Option.some.inj hread
  have hlong := of_decide_eq_true hlong
  exact ⟨query, hquery, hlong, hskip, fun hlegal => absurd hlegal.short (by omega)⟩

end Dns

end Elise
