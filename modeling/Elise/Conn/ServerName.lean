/-
Elise/Conn/ServerName.lean

The server name in a TLS hello, and what the sniffer makes of it (src/conn/sniffer.rs).

All of the buffer comes from the network, and the lengths in it are clamped to the buffer and
not checked.  No access is out of bounds (`checkedSniff_eq`).

A hello is written here as the standard writes it, with its length fields (`Hello.message`),
and stands at the begin of a buffer (`Start`).  Neither the length of the record nor that of
the message is read.  With a block of extensions the name is found that the hello has
(`parse_message`); without one the bytes behind the hello are taken for it, and a name may be
found there that the hello does not have (`true_name_iff`).
-/
import Elise.Conn.Sniffer
import Elise.Lib.Checked

namespace Elise

namespace ServerName

open Net

/-! ### The names of a hello -/

/-- An entry of a list of server names; a host name has the type 0. -/
structure NameEntry where
  nameType : UInt8
  name : List UInt8
  length_lt : name.length < 65536

def NameEntry.bytes (e : NameEntry) : List UInt8 := e.nameType :: (toBeBytes 2 e.name.length ++ e.name)

/-- Any extension. -/
structure RawExtension where
  type : Nat
  data : List UInt8
  type_lt : type < 65536
  length_lt : data.length < 65536

def RawExtension.bytes (e : RawExtension) : List UInt8 :=
  toBeBytes 2 e.type ++ (toBeBytes 2 e.data.length ++ e.data)

/-- An extension of a hello; the one with the server names has the type 0. -/
inductive Extension where
  | serverName (names : List NameEntry) (length_lt : (names.flatMap NameEntry.bytes).length < 65534)
  | other (ext : RawExtension) (type_ne : ext.type ≠ 0)

namespace Extension

def raw : Extension → RawExtension
  | serverName names length_lt =>
      { type := 0
        data := toBeBytes 2 (names.flatMap NameEntry.bytes).length ++ names.flatMap NameEntry.bytes
        type_lt := by decide
        length_lt := by
          rw [List.length_append, length_toBeBytes]
          omega }
  | other ext _ => ext

def bytes (e : Extension) : List UInt8 := e.raw.bytes

def names : Extension → Option (List NameEntry)
  | serverName names _ => some names
  | other _ _ => none

end Extension

/-- A client hello.  The lengths are bounded by what their fields can tell. -/
structure Hello where
  version : List UInt8
  random : List UInt8
  sessionId : List UInt8
  cipherSuites : List UInt8
  compressionMethods : List UInt8
  extensions : Option (List Extension)
  length_version : version.length = 2
  length_random : random.length = 32
  length_sessionId : sessionId.length < 256
  length_cipherSuites : cipherSuites.length < 65536
  length_compressionMethods : compressionMethods.length < 256
  length_extensions : ∀ exts ∈ extensions, (exts.flatMap Extension.bytes).length < 65536

namespace Hello

/-- The block of extensions; an old hello has none. -/
def block (h : Hello) : List UInt8 :=
  match h.extensions with
  | none => []
  | some exts => toBeBytes 2 (exts.flatMap Extension.bytes).length ++ exts.flatMap Extension.bytes

def body (h : Hello) : List UInt8 :=
  h.version ++ (h.random ++ (UInt8.ofNat h.sessionId.length :: (h.sessionId ++
    (toBeBytes 2 h.cipherSuites.length ++ (h.cipherSuites ++
      (UInt8.ofNat h.compressionMethods.length :: (h.compressionMethods ++ h.block)))))))

/-- The hello as a message of the handshake. -/
def message (h : Hello) : List UInt8 := 1 :: (toBeBytes 3 h.body.length ++ h.body)

/-- The names of the (first) extension for them. -/
def serverNames (h : Hello) : Option (List NameEntry) :=
  h.extensions.bind fun exts => exts.findSome? Extension.names

end Hello

/-- A buffer that starts with a record that holds a hello. -/
structure Start where
  version : List UInt8
  hello : Hello
  /-- What follows in the record. -/
  more : List UInt8
  /-- What follows behind the record. -/
  behind : List UInt8
  length_version : version.length = 2
  length_lt : (hello.message ++ more).length < 65536

def Start.buffer (s : Start) : List UInt8 :=
  0x16 :: (s.version ++ (toBeBytes 2 (s.hello.message ++ s.more).length ++
    (s.hello.message ++ (s.more ++ s.behind))))

/-- The name of a hello is found: the first host name of its extension, and none without one. -/
structure TrueName (s : Start) : Prop where
  named : ∀ names entry text, s.hello.serverNames = some names →
    names.find? (·.nameType = 0) = some entry → Text.fromUtf8 entry.name = some text →
      sniffDomain s.buffer = some (text, .tls)
  nameless : s.hello.serverNames = none → ∀ text, sniffDomain s.buffer ≠ some (text, .tls)

/-! ### Bytes that read as names -/

/-- Behind some entries there is a whole host name. -/
def HoldsHostName (list : List UInt8) : Prop :=
  ∃ (entries : List NameEntry) (e : NameEntry) (rest : List UInt8),
    list = entries.flatMap NameEntry.bytes ++ (e.bytes ++ rest) ∧ e.nameType = 0 ∧
      Text.fromUtf8 e.name ≠ none

/-- Behind some extensions there is one for server names, of any size, with a host name in its
list; the list goes on to its own length or to the end. -/
def HoldsServerName (block : List UInt8) : Prop :=
  ∃ (exts : List RawExtension) (size len : Nat) (rest : List UInt8), size < 65536 ∧ len < 65536 ∧
    block = exts.flatMap RawExtension.bytes ++
      (toBeBytes 2 0 ++ (toBeBytes 2 size ++ (toBeBytes 2 len ++ rest))) ∧
    HoldsHostName (rest.take len)

/-- The bytes read as a block of extensions, of which the end may be missing. -/
def ReadsAsExtensions (bytes : List UInt8) : Prop :=
  ∃ (len : Nat) (rest : List UInt8), len < 65536 ∧ bytes = toBeBytes 2 len ++ rest ∧
    HoldsServerName (rest.take len)

/-! ### Lists of names -/

/-- The first host name in a list of bytes. -/
def firstName : List UInt8 → Option (List Char)
  | nameType :: hi :: lo :: rest =>
      let nameLen := ofBeBytes [hi, lo]
      (if nameType = 0 ∧ nameLen ≤ rest.length then Text.fromUtf8 (rest.take nameLen) else none).or
        (firstName (rest.drop nameLen))
  | _ => none
termination_by bytes => bytes.length
decreasing_by
  rw [List.length_drop, List.length_cons, List.length_cons, List.length_cons]
  omega

/-- The first name in a list of bytes that are extensions. -/
def firstServerName : List UInt8 → Option (List Char)
  | t :: t' :: s :: s' :: rest =>
      (if ofBeBytes [t, t'] = 0 ∧ 2 ≤ rest.length then
        firstName ((rest.drop 2).take (ofBeBytes (rest.take 2)))
      else none).or (firstServerName (rest.drop (ofBeBytes [s, s'])))
  | _ => none
termination_by bytes => bytes.length
decreasing_by
  rw [List.length_drop, List.length_cons, List.length_cons, List.length_cons, List.length_cons]
  omega

section Region

variable {buf : List UInt8} {pos stop : Nat}

/-- The bytes from a position on, before the stop. -/
theorem region_cons (hpos : pos < stop) (hstop : stop ≤ buf.length) :
    (buf.take stop).drop pos = byteAt buf pos :: (buf.take stop).drop (pos + 1) := by
  have hlt : pos < (buf.take stop).length := by
    rw [List.length_take]
    omega
  rw [List.drop_eq_getElem_cons hlt, List.getElem_take, byteAt, List.getD_eq_getElem _ _ (by omega)]

theorem toNat_u16At (buf : List UInt8) (i : Nat) :
    (u16At buf i).toNat = ofBeBytes [byteAt buf i, byteAt buf (i + 1)] := by
  have hbytes : bytesAt buf i 2 = [byteAt buf i, byteAt buf (i + 1)] := rfl
  have hlt : ofBeBytes (bytesAt buf i 2) < 256 ^ 2 := by
    have hlt := ofBeBytes_lt (bytesAt buf i 2)
    rwa [length_bytesAt] at hlt
  rw [u16At, UInt16.toNat_ofNat_of_lt' hlt, hbytes]

/-- What is cut out before the stop. -/
theorem take_region {n : Nat} (hpos : pos + n ≤ stop) :
    ((buf.take stop).drop pos).take n = (buf.drop pos).take n := by
  rw [List.drop_take, List.take_take, Nat.min_eq_left (by omega)]

/-- One entry. -/
theorem firstName_region (hle : pos + 3 ≤ stop) (hstop : stop ≤ buf.length) :
    firstName ((buf.take stop).drop pos) =
      (if byteAt buf pos = 0 ∧ pos + 3 + (u16At buf (pos + 1)).toNat ≤ stop then
        Text.fromUtf8 ((buf.drop (pos + 3)).take (u16At buf (pos + 1)).toNat)
      else none).or (firstName ((buf.take stop).drop (pos + 3 + (u16At buf (pos + 1)).toNat))) := by
  rw [region_cons (by omega) hstop, region_cons (by omega) hstop, region_cons (by omega) hstop,
    firstName, ← toNat_u16At, List.drop_drop, List.length_drop, List.length_take]
  by_cases hfits : pos + 3 + (u16At buf (pos + 1)).toNat ≤ stop
  · rw [take_region hfits]
    congr 2
    apply propext
    exact and_congr_right fun _ => ⟨fun _ => hfits, fun _ => by omega⟩
  · rw [if_neg (fun h => hfits (by omega)), if_neg (fun h => hfits h.2)]

/-- The loop over the names is about the bytes before its end. -/
theorem sniffNames_eq (hstop : stop ≤ buf.length) :
    sniffNames buf pos stop = firstName ((buf.take stop).drop pos) := by
  fun_induction sniffNames buf pos stop with
  | case1 pos hle nameType nameLen name text hname =>
      rw [firstName_region hle hstop]
      show _ = name.or _
      rw [hname]
      rfl
  | case2 pos hle nameType nameLen name hname ih =>
      rw [firstName_region hle hstop]
      show _ = name.or _
      rw [hname, ih]
      rfl
  | case3 pos hle =>
      have hlen : ((buf.take stop).drop pos).length < 3 := by
        rw [List.length_drop, List.length_take]
        omega
      match h : (buf.take stop).drop pos, hlen with
      | [], _ | [_], _ | [_, _], _ => rw [firstName]; simp

/-- One extension. -/
theorem firstServerName_region (hle : pos + 4 ≤ stop) (hstop : stop ≤ buf.length) :
    firstServerName ((buf.take stop).drop pos) =
      (if u16At buf pos = 0 ∧ pos + 4 + 2 ≤ stop then
        sniffNames buf (pos + 6) (min (pos + 6 + (u16At buf (pos + 4)).toNat) stop)
      else none).or (firstServerName ((buf.take stop).drop (pos + 4 + (u16At buf (pos + 2)).toNat))) := by
  have htype : ofBeBytes [byteAt buf pos, byteAt buf (pos + 1)] = 0 ↔ u16At buf pos = 0 := by
    rw [← toNat_u16At, ← UInt16.toNat_inj]
    rfl
  have hlen : ((buf.take stop).drop (pos + 4)).length = stop - (pos + 4) := by
    rw [List.length_drop, List.length_take, Nat.min_eq_left hstop]
  rw [region_cons (by omega) hstop, region_cons (by omega) hstop, region_cons (by omega) hstop,
    region_cons (by omega) hstop, firstServerName, ← toNat_u16At buf (pos + 2),
    List.drop_drop (i := (u16At buf (pos + 2)).toNat)]
  congr 1
  show (if _ ∧ 2 ≤ ((buf.take stop).drop (pos + 4)).length then
    firstName ((((buf.take stop).drop (pos + 4)).drop 2).take
      (ofBeBytes (((buf.take stop).drop (pos + 4)).take 2))) else none) = _
  rw [hlen]
  by_cases hlist : pos + 4 + 2 ≤ stop
  · have htwo : ((buf.take stop).drop (pos + 4)).take 2 = [byteAt buf (pos + 4), byteAt buf (pos + 5)] := by
      rw [region_cons (by omega) hstop, region_cons (by omega) hstop]
      rfl
    rw [htwo, ← toNat_u16At buf (pos + 4), List.drop_drop, List.take_drop, List.take_take,
      sniffNames_eq (Nat.le_trans (Nat.min_le_right _ _) hstop)]
    congr 1
    apply propext
    rw [htype]
    exact and_congr_right fun _ => ⟨fun _ => hlist, fun _ => by omega⟩
  · rw [if_neg (fun h => hlist (by omega)), if_neg (fun h => hlist h.2)]

/-- The loop over the extensions, too. -/
theorem sniffExtensions_eq (hstop : stop ≤ buf.length) :
    sniffExtensions buf pos stop = firstServerName ((buf.take stop).drop pos) := by
  fun_induction sniffExtensions buf pos stop with
  | case1 pos hle extType name text hname =>
      rw [firstServerName_region hle hstop]
      show _ = name.or _
      rw [hname]
      rfl
  | case2 pos hle extType extSize name hname ih =>
      rw [firstServerName_region hle hstop]
      show _ = name.or _
      rw [hname, ih]
      rfl
  | case3 pos hle =>
      have hlen : ((buf.take stop).drop pos).length < 4 := by
        rw [List.length_drop, List.length_take]
        omega
      match h : (buf.take stop).drop pos, hlen with
      | [], _ | [_], _ | [_, _], _ | [_, _, _], _ => rw [firstServerName]; simp

end Region

/-! ### Entries and extensions as they are written -/

theorem two_lt (hi lo : UInt8) : ofBeBytes [hi, lo] < 65536 :=
  Nat.lt_of_lt_of_eq (ofBeBytes_lt [hi, lo]) (by norm_num)

theorem toBeBytes_two {n : Nat} (h : n < 65536) :
    ∃ hi lo, toBeBytes 2 n = [hi, lo] ∧ ofBeBytes [hi, lo] = n := by
  refine ⟨UInt8.ofNat (n / 256), UInt8.ofNat n, rfl, ?_⟩
  have hlt : n < 256 ^ 2 := Nat.lt_of_lt_of_eq h (by norm_num)
  exact ofBeBytes_toBeBytes hlt

/-- A field with its length in front, as far as it is whole. -/
theorem field_eq {hi lo : UInt8} {rest : List UInt8} (h : ofBeBytes [hi, lo] ≤ rest.length) :
    hi :: lo :: rest = toBeBytes 2 (rest.take (ofBeBytes [hi, lo])).length ++
      (rest.take (ofBeBytes [hi, lo]) ++ rest.drop (ofBeBytes [hi, lo])) := by
  have htwo : toBeBytes 2 (ofBeBytes [hi, lo]) = [hi, lo] := toBeBytes_ofBeBytes [hi, lo]
  rw [List.length_take_of_le h, htwo, List.take_append_drop]
  rfl

theorem firstName_entry (e : NameEntry) (rest : List UInt8) : firstName (e.bytes ++ rest) =
    (if e.nameType = 0 then Text.fromUtf8 e.name else none).or (firstName rest) := by
  obtain ⟨hi, lo, hbytes, hlen⟩ := toBeBytes_two e.length_lt
  rw [NameEntry.bytes, hbytes]
  show firstName (e.nameType :: hi :: lo :: (e.name ++ rest)) = _
  rw [firstName, hlen, List.take_left, List.drop_left]
  congr 2
  apply propext
  exact and_iff_left (by simp)

/-- The first host name of a list is found. -/
theorem firstName_of_find {names : List NameEntry} {entry : NameEntry} {text : List Char}
    (hfind : names.find? (·.nameType = 0) = some entry) (htext : Text.fromUtf8 entry.name = some text) :
    firstName (names.flatMap NameEntry.bytes) = some text := by
  induction names with
  | nil => cases hfind
  | cons e names ih =>
      rw [List.flatMap_cons, firstName_entry]
      rw [List.find?_cons] at hfind
      by_cases htype : e.nameType = 0
      · rw [decide_eq_true htype] at hfind
        obtain rfl := Option.some.inj hfind
        rw [if_pos htype, htext]
        rfl
      · rw [decide_eq_false htype] at hfind
        rw [if_neg htype, ih hfind]
        rfl

theorem or_ne_none {α : Type} {a b : Option α} (h : b ≠ none) : a.or b ≠ none := by
  cases a with
  | none => exact h
  | some a => exact Option.some_ne_none a

/-- A name is found if and only if there is a whole host name behind whole entries. -/
theorem firstName_ne_none_iff (list : List UInt8) : firstName list ≠ none ↔ HoldsHostName list := by
  constructor
  · intro h
    fun_induction firstName list with
    | case1 nameType hi lo rest nameLen ih =>
        by_cases hfits : nameLen ≤ rest.length
        · have hlt : (rest.take nameLen).length < 65536 := by
            rw [List.length_take_of_le hfits]
            exact two_lt hi lo
          have hentry : nameType :: hi :: lo :: rest =
              NameEntry.bytes ⟨nameType, rest.take nameLen, hlt⟩ ++ rest.drop nameLen := by
            rw [field_eq hfits, ← List.append_assoc]
            rfl
          by_cases hfirst : nameType = 0 ∧ Text.fromUtf8 (rest.take nameLen) ≠ none
          · exact ⟨[], ⟨nameType, rest.take nameLen, hlt⟩, rest.drop nameLen, hentry, hfirst⟩
          · have hnone : (if nameType = 0 ∧ nameLen ≤ rest.length then Text.fromUtf8 (rest.take nameLen)
                else none) = none := by
              split
              · rename_i htype
                exact not_not.mp fun hne => hfirst ⟨htype.1, hne⟩
              · rfl
            rw [hnone, Option.none_or] at h
            obtain ⟨entries, e, rest', hrest, he⟩ := ih h
            refine ⟨⟨nameType, rest.take nameLen, hlt⟩ :: entries, e, rest', ?_, he⟩
            rw [hentry, hrest, List.flatMap_cons, List.append_assoc]
        · rw [if_neg (fun h => hfits h.2), List.drop_of_length_le (by omega), firstName] at h
          · cases h rfl
          · simp
    | case2 list hlist => cases h rfl
  · rintro ⟨entries, e, rest, rfl, htype, htext⟩
    induction entries with
    | nil =>
        rw [List.flatMap_nil, List.nil_append, firstName_entry, if_pos htype]
        obtain ⟨text, htext⟩ := Option.ne_none_iff_exists'.mp htext
        rw [htext]
        exact Option.some_ne_none text
    | cons e' entries ih =>
        rw [List.flatMap_cons, List.append_assoc, firstName_entry]
        exact or_ne_none ih

/-- One extension, at its fields. -/
theorem firstServerName_field {type size : Nat} (htype : type < 65536) (hsize : size < 65536)
    (rest : List UInt8) : firstServerName (toBeBytes 2 type ++ (toBeBytes 2 size ++ rest)) =
      (if type = 0 ∧ 2 ≤ rest.length then firstName ((rest.drop 2).take (ofBeBytes (rest.take 2)))
      else none).or (firstServerName (rest.drop size)) := by
  obtain ⟨t, t', htwo, ht⟩ := toBeBytes_two htype
  obtain ⟨s, s', htwo', hs⟩ := toBeBytes_two hsize
  rw [htwo, htwo']
  show firstServerName (t :: t' :: s :: s' :: rest) = _
  rw [firstServerName, ht, hs]

theorem firstServerName_other {e : RawExtension} (h : e.type ≠ 0) (rest : List UInt8) :
    firstServerName (e.bytes ++ rest) = firstServerName rest := by
  rw [RawExtension.bytes, List.append_assoc, List.append_assoc, firstServerName_field e.type_lt e.length_lt,
    if_neg (fun h' => h h'.1), List.drop_left]
  rfl

/-- The extension for server names. -/
theorem firstServerName_zero {size len : Nat} (hsize : size < 65536) (hlen : len < 65536)
    (rest : List UInt8) :
    firstServerName (toBeBytes 2 0 ++ (toBeBytes 2 size ++ (toBeBytes 2 len ++ rest))) =
      (firstName (rest.take len)).or (firstServerName ((toBeBytes 2 len ++ rest).drop size)) := by
  obtain ⟨hi, lo, htwo, hvalue⟩ := toBeBytes_two hlen
  rw [firstServerName_field (by decide) hsize, htwo, if_pos ⟨rfl, by simp⟩]
  show (firstName (rest.take (ofBeBytes [hi, lo]))).or _ = _
  rw [hvalue]

/-- The first host name of the (first) extension for server names is found. -/
theorem firstServerName_of_find {exts : List Extension} {names : List NameEntry} {entry : NameEntry}
    {text : List Char} (hnames : exts.findSome? Extension.names = some names)
    (hfind : names.find? (·.nameType = 0) = some entry) (htext : Text.fromUtf8 entry.name = some text) :
    firstServerName (exts.flatMap Extension.bytes) = some text := by
  induction exts with
  | nil => cases hnames
  | cons e exts ih =>
      rw [List.flatMap_cons]
      cases e with
      | serverName names' hlt =>
          obtain rfl := Option.some.inj hnames
          have hbytes : (Extension.serverName names' hlt).bytes ++ exts.flatMap Extension.bytes =
              toBeBytes 2 0 ++ (toBeBytes 2 (Extension.serverName names' hlt).raw.data.length ++
                (toBeBytes 2 (names'.flatMap NameEntry.bytes).length ++
                  (names'.flatMap NameEntry.bytes ++ exts.flatMap Extension.bytes))) := by
            show toBeBytes 2 0 ++ (toBeBytes 2 _ ++ (_ ++ _)) ++ _ = _
            simp only [List.append_assoc]
          rw [hbytes, firstServerName_zero (Extension.raw _).length_lt (by omega), List.take_left,
            firstName_of_find hfind htext]
          rfl
      | other ext hne =>
          have hbytes : (Extension.other ext hne).bytes = ext.bytes := rfl
          rw [hbytes, firstServerName_other hne]
          exact ih hnames

/-- Without such an extension, none is found. -/
theorem firstServerName_of_none {exts : List Extension} (hnames : exts.findSome? Extension.names = none) :
    firstServerName (exts.flatMap Extension.bytes) = none := by
  induction exts with
  | nil => simp [firstServerName]
  | cons e exts ih =>
      cases e with
      | serverName names hlt => cases hnames
      | other ext hne =>
          have hbytes : (Extension.other ext hne).bytes = ext.bytes := rfl
          rw [List.flatMap_cons, hbytes, firstServerName_other hne]
          exact ih hnames

/-- A name is found if and only if there is an extension with one behind whole extensions. -/
theorem firstServerName_ne_none_iff (block : List UInt8) :
    firstServerName block ≠ none ↔ HoldsServerName block := by
  constructor
  · intro h
    fun_induction firstServerName block with
    | case1 t t' s s' rest ih =>
        have htype : toBeBytes 2 (ofBeBytes [t, t']) = [t, t'] := toBeBytes_ofBeBytes [t, t']
        have hsize : toBeBytes 2 (ofBeBytes [s, s']) = [s, s'] := toBeBytes_ofBeBytes [s, s']
        by_cases hfirst : (if ofBeBytes [t, t'] = 0 ∧ 2 ≤ rest.length then
            firstName ((rest.drop 2).take (ofBeBytes (rest.take 2))) else none) = none
        · rw [hfirst, Option.none_or] at h
          by_cases hfits : ofBeBytes [s, s'] ≤ rest.length
          · have hlt : (rest.take (ofBeBytes [s, s'])).length < 65536 := by
              rw [List.length_take_of_le hfits]
              exact two_lt s s'
            have hext : t :: t' :: s :: s' :: rest =
                RawExtension.bytes ⟨ofBeBytes [t, t'], rest.take (ofBeBytes [s, s']), two_lt t t', hlt⟩ ++
                  rest.drop (ofBeBytes [s, s']) := by
              rw [field_eq hfits]
              show [t, t'] ++ _ = toBeBytes 2 (ofBeBytes [t, t']) ++ _ ++ _
              rw [htype, List.append_assoc, List.append_assoc]
              rfl
            obtain ⟨exts, size, len, rest', hs, hl, hrest, hname⟩ := ih h
            refine ⟨⟨ofBeBytes [t, t'], rest.take (ofBeBytes [s, s']), two_lt t t', hlt⟩ :: exts, size,
              len, rest', hs, hl, ?_, hname⟩
            rw [hext, hrest, List.flatMap_cons, List.append_assoc]
          · rw [List.drop_of_length_le (by omega), firstServerName] at h
            · cases h rfl
            · simp
        · split at hfirst
          · rename_i hzero
            obtain ⟨hi, lo, rest', rfl⟩ : ∃ hi lo rest', rest = hi :: lo :: rest' := by
              match rest, hzero.2 with
              | hi :: lo :: rest', _ => exact ⟨hi, lo, rest', rfl⟩
            have hlen : toBeBytes 2 (ofBeBytes [hi, lo]) = [hi, lo] := toBeBytes_ofBeBytes [hi, lo]
            refine ⟨[], ofBeBytes [s, s'], ofBeBytes [hi, lo], rest', two_lt s s', two_lt hi lo, ?_, ?_⟩
            · rw [← hzero.1, htype, hsize, hlen]
              rfl
            · exact (firstName_ne_none_iff _).mp hfirst
          · cases hfirst rfl
    | case2 list hlist => cases h rfl
  · rintro ⟨exts, size, len, rest, hsize, hlen, rfl, hname⟩
    induction exts with
    | nil =>
        rw [List.flatMap_nil, List.nil_append, firstServerName_zero hsize hlen]
        obtain ⟨text, htext⟩ := Option.ne_none_iff_exists'.mp ((firstName_ne_none_iff _).mpr hname)
        rw [htext]
        exact Option.some_ne_none text
    | cons e exts ih =>
        rw [List.flatMap_cons, List.append_assoc, RawExtension.bytes, List.append_assoc, List.append_assoc,
          firstServerName_field e.type_lt e.length_lt, List.drop_left]
        exact or_ne_none ih

/-! ### A hello in a buffer -/

section Fields

open Checked

variable {buf rest : List UInt8} {pos : Nat}

theorem byteAt_of_standsAt {b : UInt8} (h : StandsAt buf pos (b :: rest)) :
    byteAt buf pos = b ∧ StandsAt buf (pos + 1) rest := by
  refine ⟨?_, StandsAt.skip (show StandsAt buf pos ([b] ++ rest) from h)⟩
  rw [byteAt, List.getD_eq_getElem?_getD]
  exact congrArg (Option.getD · 0) h.index

theorem u16At_of_standsAt {n : Nat} (h : StandsAt buf pos (toBeBytes 2 n ++ rest)) (hn : n < 65536) :
    (u16At buf pos).toNat = n ∧ StandsAt buf (pos + 2) rest := by
  obtain ⟨hi, lo, htwo, hvalue⟩ := toBeBytes_two hn
  rw [htwo] at h
  obtain ⟨hhi, hnext⟩ := byteAt_of_standsAt h
  obtain ⟨hlo, hlast⟩ := byteAt_of_standsAt hnext
  refine ⟨?_, hlast⟩
  rw [toNat_u16At, hhi, hlo, hvalue]

end Fields

/-- The name in the bytes behind a hello without extensions. -/
def nameBehind (after : List UInt8) : Option (List Char) :=
  if after.length < 2 then none
  else firstServerName ((after.drop 2).take (ofBeBytes (after.take 2)))

theorem nameBehind_append {len : Nat} (h : len < 65536) (rest : List UInt8) :
    nameBehind (toBeBytes 2 len ++ rest) = firstServerName (rest.take len) := by
  obtain ⟨hi, lo, htwo, hvalue⟩ := toBeBytes_two h
  rw [htwo, nameBehind, if_neg (by simp)]
  show firstServerName (rest.take (ofBeBytes [hi, lo])) = _
  rw [hvalue]

theorem nameBehind_ne_none_iff (after : List UInt8) : nameBehind after ≠ none ↔ ReadsAsExtensions after := by
  constructor
  · intro h
    match after with
    | [] => cases h rfl
    | [_] => cases h rfl
    | hi :: lo :: rest =>
        have htwo : toBeBytes 2 (ofBeBytes [hi, lo]) = [hi, lo] := toBeBytes_ofBeBytes [hi, lo]
        refine ⟨ofBeBytes [hi, lo], rest, two_lt hi lo, ?_, ?_⟩
        · rw [htwo]
          rfl
        · exact (firstServerName_ne_none_iff _).mp h
  · rintro ⟨len, rest, hlen, rfl, hname⟩
    rw [nameBehind_append hlen]
    exact (firstServerName_ne_none_iff _).mpr hname

/-- The end of the parser is about the bytes from the extensions on. -/
theorem sniffBlock_eq {buf rest : List UInt8} {pos : Nat} (h : Checked.StandsAt buf pos rest) :
    (if buf.length < pos + 2 then none
      else sniffExtensions buf (pos + 2) (min (pos + 2 + (u16At buf pos).toNat) buf.length)) =
      nameBehind rest := by
  have hlen := h.length_eq
  match rest with
  | [] => exact if_pos (by rw [hlen, List.length_nil]; omega)
  | [_] => exact if_pos (by rw [hlen, List.length_singleton]; omega)
  | hi :: lo :: rest =>
      have htwo : toBeBytes 2 (ofBeBytes [hi, lo]) = [hi, lo] := toBeBytes_ofBeBytes [hi, lo]
      obtain ⟨hvalue, hnext⟩ := u16At_of_standsAt
        (show Checked.StandsAt buf pos (toBeBytes 2 (ofBeBytes [hi, lo]) ++ rest) by rw [htwo]; exact h)
        (two_lt hi lo)
      rw [if_neg (by rw [hlen, List.length_cons, List.length_cons]; omega), hvalue,
        sniffExtensions_eq (Nat.min_le_right _ _), ← List.take_eq_take_min, ← List.take_drop, hnext.drop]
      rfl

/-- **What is found in a hello**, with some bytes behind it. -/
theorem parse_message (h : Hello) (after : List UInt8) : parseClientHelloBody (h.message ++ after) =
    match h.extensions with
    | none => nameBehind after
    | some exts => firstServerName (exts.flatMap Extension.bytes) := by
  obtain ⟨front, hfront⟩ : ∃ front, front = 1 :: (toBeBytes 3 h.body.length ++ (h.version ++ h.random)) :=
    ⟨_, rfl⟩
  have hlength : front.length = 38 := by
    rw [hfront, List.length_cons, List.length_append, List.length_append, length_toBeBytes,
      h.length_version, h.length_random]
  have hmessage : h.message ++ after = front ++
      (UInt8.ofNat h.sessionId.length :: (h.sessionId ++ (toBeBytes 2 h.cipherSuites.length ++
        (h.cipherSuites ++ (UInt8.ofNat h.compressionMethods.length :: (h.compressionMethods ++
          (h.block ++ after))))))) := by
    rw [hfront, Hello.message]
    generalize h.body.length = len
    rw [Hello.body]
    simp only [List.append_assoc, List.cons_append]
  have h38 := Checked.standsAt_append front (UInt8.ofNat h.sessionId.length :: (h.sessionId ++
    (toBeBytes 2 h.cipherSuites.length ++ (h.cipherSuites ++ (UInt8.ofNat h.compressionMethods.length ::
      (h.compressionMethods ++ (h.block ++ after)))))))
  rw [← hmessage, hlength] at h38
  generalize h.message ++ after = buf at h38
  obtain ⟨hsession, h39⟩ := byteAt_of_standsAt h38
  obtain ⟨hcipher, hciphers⟩ := u16At_of_standsAt h39.skip h.length_cipherSuites
  obtain ⟨hcomp, hcomps⟩ := byteAt_of_standsAt hciphers.skip
  have hblock := hcomps.skip
  have hlen : buf.length = 38 + (1 + h.sessionId.length + (2 + h.cipherSuites.length) +
      (1 + h.compressionMethods.length) + (h.block ++ after).length) := by
    rw [h38.length_eq]
    simp only [List.length_append, List.length_cons, length_toBeBytes]
    omega
  have hsessionLen : (byteAt buf 38).toNat = h.sessionId.length := by
    rw [hsession]
    exact UInt8.toNat_ofNat_of_lt' h.length_sessionId
  have hcompLen : (byteAt buf (38 + 1 + h.sessionId.length + 2 + h.cipherSuites.length)).toNat =
      h.compressionMethods.length := by
    rw [hcomp]
    exact UInt8.toNat_ofNat_of_lt' h.length_compressionMethods
  have hfound := sniffBlock_eq hblock
  rw [parseClientHelloBody, if_neg (by omega), if_neg (by omega), hsessionLen, if_neg (by omega), hcipher]
  show (if buf.length ≤ 38 + 1 + h.sessionId.length + 2 + h.cipherSuites.length then none else _) = _
  rw [if_neg (by omega), hcompLen, hfound, Hello.block]
  cases hexts : h.extensions with
  | none => rfl
  | some exts =>
      show nameBehind ((_ ++ _) ++ after) = _
      rw [List.append_assoc, nameBehind_append (h.length_extensions exts hexts), List.take_left]

/-! ### The whole buffer -/

theorem length_message (h : Hello) : 39 ≤ h.message.length := by
  rw [Hello.message, List.length_cons, List.length_append, length_toBeBytes, Hello.body, List.length_append,
    List.length_append, List.length_cons, h.length_version, h.length_random]
  omega

/-- Only the hello is looked at. -/
theorem sniffDomain_buffer (s : Start) : sniffDomain s.buffer =
    (parseClientHelloBody (s.hello.message ++ (s.more ++ s.behind))).map (·, .tls) := by
  obtain ⟨v, v', hversion⟩ : ∃ v v', s.version = [v, v'] := by
    match hversion : s.version, s.length_version with
    | [v, v'], _ => exact ⟨v, v', rfl⟩
  obtain ⟨hi, lo, hlen⟩ : ∃ hi lo, toBeBytes 2 (s.hello.message ++ s.more).length = [hi, lo] :=
    ⟨_, _, rfl⟩
  have hbuffer : s.buffer = 0x16 :: v :: v' :: hi :: lo :: (s.hello.message ++ (s.more ++ s.behind)) := by
    rw [Start.buffer, hversion, hlen]
    rfl
  have hlength := length_message s.hello
  have htype : byteAt (s.hello.message ++ (s.more ++ s.behind)) 0 = 1 := rfl
  generalize hmessage : s.hello.message ++ (s.more ++ s.behind) = message at hbuffer htype
  have hlong : 39 ≤ message.length := by
    rw [← hmessage, List.length_append]
    omega
  have htls : parseTlsSni s.buffer = parseClientHelloBody message := by
    rw [parseTlsSni, hbuffer, if_neg, if_neg]
    · rfl
    · rintro (h | h)
      · simp only [List.length_cons] at h
        omega
      · exact h htype
    · rintro (h | h)
      · simp only [List.length_cons] at h
        omega
      · exact h rfl
  have hhttp : httpMethods.any (·.isPrefixOf s.buffer) = false := by
    rw [hbuffer]
    rfl
  have hlong' : 43 < s.buffer.length := by
    rw [hbuffer]
    simp only [List.length_cons]
    omega
  have hfirst : byteAt s.buffer 0 = 0x16 := by
    rw [hbuffer]
    rfl
  have hquic : ¬ (byteAt s.buffer 0 &&& 0x80 ≠ 0 ∧ 40 < s.buffer.length) := by
    rw [hfirst]
    exact fun h => h.1 (by decide)
  have hsome : s.buffer.isEmpty = false := by
    rw [hbuffer]
    rfl
  rw [sniffDomain, hsome, if_neg (by decide), if_pos ⟨hfirst, hlong'⟩, hhttp, if_neg (by decide),
    if_neg hquic, htls]
  cases parseClientHelloBody message with
  | none => rfl
  | some sni => rfl

/-- **The name of a hello is found if and only if** it has a block of extensions, or the bytes
behind it do not read as one with a name. -/
theorem trueName_iff (s : Start) : TrueName s ↔
    s.hello.extensions ≠ none ∨ ¬ ReadsAsExtensions (s.more ++ s.behind) := by
  have hfound := parse_message s.hello (s.more ++ s.behind)
  have hsniff := sniffDomain_buffer s
  rw [hfound] at hsniff
  cases hexts : s.hello.extensions with
  | none =>
      rw [hexts] at hsniff
      have hnames : s.hello.serverNames = none := by
        rw [Hello.serverNames, hexts]
        rfl
      rw [← nameBehind_ne_none_iff, not_not]
      constructor
      · intro h
        refine .inr ?_
        cases hname : nameBehind (s.more ++ s.behind) with
        | none => rfl
        | some text =>
            rw [hname] at hsniff
            exact absurd hsniff (h.nameless hnames text)
      · rintro (h | h)
        · exact absurd rfl h
        · rw [h] at hsniff
          exact {
            named := fun names entry text h' => by rw [hnames] at h'; cases h'
            nameless := fun _ text => by rw [hsniff]; exact nofun }
  | some exts =>
      rw [hexts] at hsniff
      have hnames : s.hello.serverNames = exts.findSome? Extension.names := by
        rw [Hello.serverNames, hexts]
        rfl
      refine iff_of_true ?_ (.inl nofun)
      exact {
        named := fun names entry text hnames' hfind htext => by
          rw [hsniff]
          exact congrArg (Option.map _) (firstServerName_of_find (hnames ▸ hnames') hfind htext)
        nameless := fun hnames' text => by
          have hnone := firstServerName_of_none (hnames ▸ hnames')
          rw [hsniff]
          show (firstServerName _).map _ ≠ _
          rw [hnone]
          exact nofun }

/-! ### No access out of bounds -/

section Bounds

open Checked

/-- The parsers once more, where each access may fail; `none` is the panic. -/
def checkedNames (buf : List UInt8) (sniPos listEnd : Nat) : Option (Option (List Char)) :=
  if _h : sniPos + 3 ≤ listEnd then
    (index buf sniPos).bind fun nameType =>
      (u16BeAt buf (sniPos + 1)).bind fun nameLen =>
        if nameType = 0 ∧ sniPos + 3 + nameLen ≤ listEnd then
          (slice buf (sniPos + 3) (sniPos + 3 + nameLen)).bind fun bytes =>
            match Text.fromUtf8 bytes with
            | some name => some (some name)
            | none => checkedNames buf (sniPos + 3 + nameLen) listEnd
        else checkedNames buf (sniPos + 3 + nameLen) listEnd
  else some none
termination_by listEnd - sniPos

def checkedExtensions (buf : List UInt8) (pos endExt : Nat) : Option (Option (List Char)) :=
  if _h : pos + 4 ≤ endExt then
    (u16BeAt buf pos).bind fun extType =>
      (u16BeAt buf (pos + 2)).bind fun extSize =>
        if extType = 0 ∧ pos + 4 + 2 ≤ endExt then
          (u16BeAt buf (pos + 4)).bind fun listLen =>
            (checkedNames buf (pos + 6) (min (pos + 6 + listLen) endExt)).bind fun
              | some name => some (some name)
              | none => checkedExtensions buf (pos + 4 + extSize) endExt
        else checkedExtensions buf (pos + 4 + extSize) endExt
  else some none
termination_by endExt - pos

def checkedClientHelloBody (buf : List UInt8) : Option (Option (List Char)) :=
  if buf.length < 4 + 2 + 32 then some none
  else
    let pos := 4 + 2 + 32
    if buf.length ≤ pos then some none
    else
      (index buf pos).bind fun sessionIdLen =>
        let pos := pos + 1 + sessionIdLen.toNat
        if buf.length < pos + 2 then some none
        else
          (u16BeAt buf pos).bind fun cipherLen =>
            let pos := pos + 2 + cipherLen
            if buf.length ≤ pos then some none
            else
              (index buf pos).bind fun compLen =>
                let pos := pos + 1 + compLen.toNat
                if buf.length < pos + 2 then some none
                else
                  (u16BeAt buf pos).bind fun extLen =>
                    let pos := pos + 2
                    checkedExtensions buf pos (min (pos + extLen) buf.length)

def checkedTlsSni (buf : List UInt8) : Option (Option (List Char)) :=
  if buf.length < 5 then some none
  else
    (index buf 0).bind fun first =>
      if first ≠ 0x16 ∨ buf.length ≤ 5 then some none
      else
        (index buf 5).bind fun type =>
          if type ≠ 0x01 then some none else (slice buf 5 buf.length).bind checkedClientHelloBody

/-- The loop over the positions. -/
def checkedQuicSni (buf : List UInt8) : List Nat → Option (Option (List Char))
  | [] => some none
  | i :: rest =>
      (index buf i).bind fun b =>
        if b = 0x01 ∧ buf[i + 4]? = some 0x03 ∧ buf[i + 5]? = some 0x03 then
          ((slice buf i buf.length).bind checkedClientHelloBody).bind fun
            | some sni => some (some sni)
            | none => checkedQuicSni buf rest
        else checkedQuicSni buf rest

def checkedSniffDomain (buffer : List UInt8) : Option (Option (List Char × SniffedProtocol)) :=
  if buffer.isEmpty then some none
  else
    (index buffer 0).bind fun first =>
      (if first = 0x16 ∧ 43 < buffer.length then checkedTlsSni buffer else some none).bind fun
        | some sni => some (some (sni, .tls))
        | none =>
            match if httpMethods.any (·.isPrefixOf buffer) then parseHttpHost buffer else none with
            | some host => some (some (host, .http))
            | none =>
                (if first &&& 0x80 ≠ 0 ∧ 40 < buffer.length then
                  checkedQuicSni buffer (List.range (buffer.length - 40))
                else some none).map (·.map (·, .quic))

variable {buf : List UInt8} {i start stop : Nat}

theorem index_eq (h : i < buf.length) : index buf i = some (byteAt buf i) := by
  rw [index, byteAt, List.getElem?_eq_getElem h, List.getD_eq_getElem _ _ h]

theorem u16BeAt_eq (h : i + 2 ≤ buf.length) : u16BeAt buf i = some (u16At buf i).toNat := by
  rw [u16BeAt, index_eq (by omega), index_eq (by omega), toNat_u16At]
  rfl

theorem slice_eq (hle : start ≤ stop) (h : stop ≤ buf.length) :
    slice buf start stop = some ((buf.drop start).take (stop - start)) := if_pos ⟨hle, h⟩

theorem slice_to_end (h : start ≤ buf.length) : slice buf start buf.length = some (buf.drop start) := by
  rw [slice_eq h (Nat.le_refl _), List.take_of_length_le (Nat.le_of_eq List.length_drop)]

theorem checkedNames_eq (hstop : stop ≤ buf.length) (sniPos : Nat) :
    checkedNames buf sniPos stop = some (sniffNames buf sniPos stop) := by
  fun_induction sniffNames buf sniPos stop with
  | case1 pos hle nameType nameLen name text hname =>
      rw [checkedNames, dif_pos hle, index_eq (by omega), Option.bind_some, u16BeAt_eq (by omega),
        Option.bind_some]
      by_cases hfits : nameType = 0 ∧ pos + 3 + nameLen ≤ stop
      · have htext : Text.fromUtf8 ((buf.drop (pos + 3)).take nameLen) = some text :=
          (if_pos hfits).symm.trans hname
        rw [if_pos hfits, slice_eq (by omega) (by omega), Option.bind_some, Nat.add_sub_cancel_left, htext]
      · cases (if_neg hfits).symm.trans hname
  | case2 pos hle nameType nameLen name hname ih =>
      rw [checkedNames, dif_pos hle, index_eq (by omega), Option.bind_some, u16BeAt_eq (by omega),
        Option.bind_some]
      by_cases hfits : nameType = 0 ∧ pos + 3 + nameLen ≤ stop
      · have htext : Text.fromUtf8 ((buf.drop (pos + 3)).take nameLen) = none :=
          (if_pos hfits).symm.trans hname
        rw [if_pos hfits, slice_eq (by omega) (by omega), Option.bind_some, Nat.add_sub_cancel_left, htext]
        exact ih
      · rw [if_neg hfits]
        exact ih
  | case3 pos hle => rw [checkedNames, dif_neg hle]

theorem checkedExtensions_eq (hstop : stop ≤ buf.length) (pos : Nat) :
    checkedExtensions buf pos stop = some (sniffExtensions buf pos stop) := by
  have htype : ∀ pos, (u16At buf pos).toNat = 0 → u16At buf pos = 0 := fun pos h => UInt16.toNat_inj.mp h
  fun_induction sniffExtensions buf pos stop with
  | case1 pos hle extType name text hname =>
      rw [checkedExtensions, dif_pos hle, u16BeAt_eq (by omega), Option.bind_some, u16BeAt_eq (by omega),
        Option.bind_some]
      by_cases hlist : extType = 0 ∧ pos + 4 + 2 ≤ stop
      · have htext : sniffNames buf (pos + 6) (min (pos + 6 + (u16At buf (pos + 4)).toNat) stop) = some text :=
          (if_pos hlist).symm.trans hname
        rw [if_pos ⟨congrArg UInt16.toNat hlist.1, hlist.2⟩, u16BeAt_eq (by omega), Option.bind_some,
          checkedNames_eq (Nat.le_trans (Nat.min_le_right _ _) hstop), Option.bind_some, htext]
      · cases (if_neg hlist).symm.trans hname
  | case2 pos hle extType extSize name hname ih =>
      rw [checkedExtensions, dif_pos hle, u16BeAt_eq (by omega), Option.bind_some, u16BeAt_eq (by omega),
        Option.bind_some]
      by_cases hlist : extType = 0 ∧ pos + 4 + 2 ≤ stop
      · have htext : sniffNames buf (pos + 6) (min (pos + 6 + (u16At buf (pos + 4)).toNat) stop) = none :=
          (if_pos hlist).symm.trans hname
        rw [if_pos ⟨congrArg UInt16.toNat hlist.1, hlist.2⟩, u16BeAt_eq (by omega), Option.bind_some,
          checkedNames_eq (Nat.le_trans (Nat.min_le_right _ _) hstop), Option.bind_some, htext]
        exact ih
      · rw [if_neg fun h => hlist ⟨htype pos h.1, h.2⟩]
        exact ih
  | case3 pos hle => rw [checkedExtensions, dif_neg hle]

theorem checkedClientHelloBody_eq (buf : List UInt8) :
    checkedClientHelloBody buf = some (parseClientHelloBody buf) := by
  simp only [checkedClientHelloBody, parseClientHelloBody]
  split
  · rfl
  · split
    · rfl
    · rw [index_eq (by omega), Option.bind_some]
      split
      · rfl
      · rw [u16BeAt_eq (by omega), Option.bind_some]
        split
        · rfl
        · rw [index_eq (by omega), Option.bind_some]
          split
          · rfl
          · rw [u16BeAt_eq (by omega), Option.bind_some]
            exact checkedExtensions_eq (Nat.min_le_right _ _) _

theorem checkedTlsSni_eq (buf : List UInt8) : checkedTlsSni buf = some (parseTlsSni buf) := by
  rw [checkedTlsSni, parseTlsSni]
  by_cases hshort : buf.length < 5
  · rw [if_pos hshort, if_pos (.inl hshort)]
  · rw [if_neg hshort, index_eq (by omega), Option.bind_some]
    by_cases hfirst : byteAt buf 0 = 0x16
    · have hhead : ¬ (buf.length < 5 ∨ byteAt buf 0 ≠ 0x16) := by
        rintro (h | h)
        exacts [hshort h, h hfirst]
      rw [if_neg hhead]
      by_cases hfive : buf.length ≤ 5
      · rw [if_pos (.inr hfive), if_pos (.inl hfive)]
      · have hlong : ¬ (byteAt buf 0 ≠ 0x16 ∨ buf.length ≤ 5) := by
          rintro (h | h)
          exacts [h hfirst, hfive h]
        rw [if_neg hlong, index_eq (by omega), Option.bind_some]
        by_cases htype : byteAt buf 5 = 0x01
        · have hhello : ¬ (buf.length ≤ 5 ∨ byteAt buf 5 ≠ 0x01) := by
            rintro (h | h)
            exacts [hfive h, h htype]
          rw [if_neg hhello, if_neg (not_not.mpr htype), slice_to_end (by omega), Option.bind_some,
            checkedClientHelloBody_eq]
        · rw [if_pos htype, if_pos (.inr htype)]
    · rw [if_pos (.inl hfirst), if_pos (.inr hfirst)]

theorem checkedQuicSni_eq {buf : List UInt8} {positions : List Nat}
    (h : ∀ i ∈ positions, i < buf.length) : checkedQuicSni buf positions =
      some (positions.findSome? fun i =>
        if byteAt buf i = 0x01 ∧ buf[i + 4]? = some 0x03 ∧ buf[i + 5]? = some 0x03 then
          parseClientHelloBody (buf.drop i)
        else none) := by
  induction positions with
  | nil => rfl
  | cons i rest ih =>
      have hi := h i List.mem_cons_self
      have hrest := ih fun j hj => h j (List.mem_cons_of_mem i hj)
      rw [checkedQuicSni, index_eq hi, Option.bind_some, List.findSome?_cons]
      split
      · rw [slice_to_end (Nat.le_of_lt hi), Option.bind_some, checkedClientHelloBody_eq, Option.bind_some]
        cases parseClientHelloBody (buf.drop i) with
        | some sni => rfl
        | none => exact hrest
      · exact hrest

/-- **No access is out of bounds**, whatever the bytes are. -/
theorem checkedSniffDomain_eq (buffer : List UInt8) :
    checkedSniffDomain buffer = some (sniffDomain buffer) := by
  rw [checkedSniffDomain, sniffDomain]
  by_cases hempty : buffer.isEmpty = true
  · rw [if_pos hempty, if_pos hempty]
  · have hpos : 0 < buffer.length := by
      apply List.length_pos_iff.mpr
      rintro rfl
      exact hempty rfl
    rw [if_neg hempty, if_neg hempty, index_eq hpos, Option.bind_some]
    have htls : (if byteAt buffer 0 = 0x16 ∧ 43 < buffer.length then checkedTlsSni buffer else some none) =
        some (if byteAt buffer 0 = 0x16 ∧ 43 < buffer.length then parseTlsSni buffer else none) := by
      split
      · exact checkedTlsSni_eq buffer
      · rfl
    have hquic : (if byteAt buffer 0 &&& 0x80 ≠ 0 ∧ 40 < buffer.length then
          checkedQuicSni buffer (List.range (buffer.length - 40)) else some none) =
        some (if byteAt buffer 0 &&& 0x80 ≠ 0 ∧ 40 < buffer.length then parseQuicSni buffer else none) := by
      split
      · apply checkedQuicSni_eq
        intro i hi
        have hlt := List.mem_range.mp hi
        omega
      · rfl
    rw [htls, hquic, Option.bind_some]
    cases (if byteAt buffer 0 = 0x16 ∧ 43 < buffer.length then parseTlsSni buffer else none) with
    | some sni => rfl
    | none =>
        cases (if httpMethods.any (·.isPrefixOf buffer) then parseHttpHost buffer else none) with
        | some host => rfl
        | none => rfl

end Bounds

/-- **The sniffer is safe, and tells the name of a hello** if and only if that has a block of
extensions, or the bytes behind it do not read as one with a name. -/
theorem sniff_true_name_iff (buffer : List UInt8) (s : Start) :
    checkedSniffDomain buffer = some (sniffDomain buffer) ∧
      (TrueName s ↔ s.hello.extensions ≠ none ∨ ¬ ReadsAsExtensions (s.more ++ s.behind)) :=
  ⟨checkedSniffDomain_eq buffer, trueName_iff s⟩

/-- An old hello, behind which some bytes read as extensions. -/
def oldHello : Start where
  version := [3, 1]
  hello :=
    { version := [3, 1]
      random := List.replicate 32 7
      sessionId := []
      cipherSuites := [0, 47]
      compressionMethods := [0]
      extensions := none
      length_version := rfl
      length_random := rfl
      length_sessionId := by decide
      length_cipherSuites := by decide
      length_compressionMethods := by decide
      length_extensions := nofun }
  more := []
  behind := [0, 10, 0, 0, 0, 6, 0, 4, 0, 0, 1, 97]
  length_version := rfl
  length_lt := by decide

/-- It has no name, and one is found. -/
theorem oldHello_named : oldHello.hello.serverNames = none ∧ ¬ TrueName oldHello ∧
    sniffDomain oldHello.buffer = some (['a'], .tls) := by
  have hname : sniffDomain oldHello.buffer = some (['a'], .tls) := by decide +kernel
  exact ⟨rfl, fun h => h.nameless rfl ['a'] hname, hname⟩

end ServerName

end Elise
