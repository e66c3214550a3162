/-
Elise/Security/LetterCase.lean

Whether the answer of an audit list depends on the case of letters (`reload` and `matches_full` in
src/security/audit.rs).

A name after `domain:`, `full:` or `keyword:` is put in lower case when the list is read, and so is a
line without a head.  A line with stars is not: it becomes an expression as it is written.  Names are
in lower case when they are asked about, so that such a line never hits if it has a capital letter.

What is said of a line and of its spellings (`SpellsAlike`) is all that is used of the list, because the
entries of the router are read in their own way.
-/
import Elise.Lib.LetterCase
import Elise.Security.Audit

namespace Elise

open Text (SameLetters HasLetter toAsciiLowercase toAsciiUppercase)

/-- What lower case, networks, addresses and expressions are like. -/
structure CaseLaws (env : Matching) : Prop where
  lower_congr : ∀ {cs ds}, SameLetters cs ds → env.lower cs = env.lower ds
  /-- No capital letter is left. -/
  lower_small : ∀ cs, toAsciiLowercase (env.lower cs) = env.lower cs
  parseNet_star : ∀ {text}, '*' ∈ text → env.parseNet text = none
  parseIp_star : ∀ {text}, '*' ∈ text → env.parseIp text = none
  /-- What is not a star stands for itself. -/
  literal : ∀ {text re cs}, env.regexNew (wildcard text) = some re → env.isMatch re cs = true →
    ∀ c ∈ text, c ≠ '*' → c ∈ cs

/-- A wildcard that matches a name in lower case is in lower case. -/
theorem CaseLaws.small_of_match {env : Matching} (laws : CaseLaws env) {text domain : List Char}
    {re : env.Regex} (hre : env.regexNew (wildcard text) = some re)
    (hmatch : env.isMatch re (env.lower domain) = true) : toAsciiLowercase text = text := by
  have hsmall := Text.toAsciiLowercase_eq_self_iff.mp (laws.lower_small domain)
  apply Text.toAsciiLowercase_eq_self_iff.mpr
  intro c hc
  by_cases hstar : c = '*'
  · rw [hstar]
    rfl
  · exact hsmall c (laws.literal hre hmatch c hc hstar)

/-! ### Spellings of a line -/

def suffixHeads : List (List Char) :=
  ["domain:".toList, "domain_suffix:".toList, "domain-suffix:".toList]

def fullHeads : List (List Char) := ["full:".toList]

def keywordHeads : List (List Char) :=
  ["keyword:".toList, "domain_keyword:".toList, "domain-keyword:".toList]

/-- What stands before the name of a domain. -/
def domainHeads : List (List Char) := suffixHeads ++ fullHeads ++ keywordHeads

theorem exists_cons_of_mem_domainHeads {head : List Char} (h : head ∈ domainHeads) :
    ∃ c rest, head = c :: rest ∧ c ≠ '#' ∧ c ≠ ';' := by
  have hall : ∀ head ∈ domainHeads,
      head ≠ [] ∧ head.head? ≠ some '#' ∧ head.head? ≠ some ';' := by decide
  obtain ⟨hne, hhash, hsemi⟩ := hall head h
  obtain ⟨c, rest, rfl⟩ := List.exists_cons_of_ne_nil hne
  exact ⟨c, rest, rfl, fun hc => hhash (congrArg some hc), fun hc => hsemi (congrArg some hc)⟩

/-- What a line of an audit list can begin with. -/
def auditHeads : List (List Char) :=
  domainHeads ++ ["geosite:".toList, "geoip:".toList, "regexp:".toList, "domain_regex:".toList,
    "cidr:".toList, "ip_cidr:".toList, "ip:".toList, "port:".toList, "node_id:".toList,
    "network:".toList]

section

variable (env : Matching) (heads : List (List Char))

/-- A line without a head that is no network and no address. -/
def IsBare (line : List Char) : Prop :=
  Text.stripAny heads line = none ∧ env.parseNet line = none ∧ env.parseIp line = none

instance (line : List Char) : Decidable (IsBare env heads line) := inferInstanceAs (Decidable (_ ∧ _))

/-- The second line is the first one with the name of the domain spelled anew. -/
inductive Respelled : List Char → List Char → Prop
  | same (line : List Char) : Respelled line line
  | name {head name name'} : head ∈ domainHeads → SameLetters name name' →
      Respelled (head ++ name) (head ++ name')
  | bare {line line'} : IsBare env heads line → IsBare env heads line' → SameLetters line line' →
      Respelled line line'

/-- A bare line with a star and a letter; in lower case it is still a bare line. -/
structure IsWildcard (line : List Char) : Prop where
  star : '*' ∈ line
  letter : HasLetter line
  bare : IsBare env heads line
  bare_lower : IsBare env heads (toAsciiLowercase line)

theorem isWildcard_iff (line : List Char) : IsWildcard env heads line ↔
    '*' ∈ line ∧ HasLetter line ∧ IsBare env heads line ∧ IsBare env heads (toAsciiLowercase line) :=
  ⟨fun h => ⟨h.star, h.letter, h.bare, h.bare_lower⟩, fun ⟨hstar, hletter, hbare, hlower⟩ =>
    ⟨hstar, hletter, hbare, hlower⟩⟩

instance : DecidablePred (IsWildcard env heads) := fun line =>
  decidable_of_iff' _ (isWildcard_iff env heads line)

/-- The lines are trimmed before they are read. -/
def RespelledLine (line line' : List Char) : Prop :=
  Respelled env heads (Text.trim line) (Text.trim line')

def IsWildcardLine (line : List Char) : Prop := IsWildcard env heads (Text.trim line)

instance : DecidablePred (IsWildcardLine env heads) := fun line =>
  inferInstanceAs (Decidable (IsWildcard env heads (Text.trim line)))

/-- What a line says does not depend on its spelling, but for wildcards. -/
structure SpellsAlike (hit : List Char → Bool) : Prop where
  name : ∀ {head name name'}, head ∈ domainHeads → SameLetters name name' →
    hit (head ++ name') = hit (head ++ name)
  plain : ∀ {line line'}, IsBare env heads line → IsBare env heads line' → SameLetters line line' →
    '*' ∉ line → hit line' = hit line
  wildcard : ∀ {line}, IsBare env heads line → '*' ∈ line → HasLetter line → hit line = true →
    toAsciiLowercase line = line

end

variable {env : Matching} {heads : List (List Char)}

/-- In upper case no line has a head. -/
theorem stripAny_upper {line : List Char} (hheads : ∀ head ∈ heads, head.any Char.isLower = true) :
    Text.stripAny heads (toAsciiUppercase line) = none := by
  rcases hstrip : Text.stripAny heads (toAsciiUppercase line) with - | rest
  · rfl
  · obtain ⟨head, hmem, hline⟩ := Text.stripAny_eq_some hstrip
    obtain ⟨c, hc, hlower⟩ := List.any_eq_true.mp (hheads head hmem)
    have hmem' : c ∈ toAsciiUppercase line := by
      rw [hline]
      exact List.mem_append_left rest hc
    obtain ⟨d, -, rfl⟩ := List.mem_map.mp hmem'
    exact absurd (Text.toUpper_toUpper d) (Text.toUpper_ne hlower)

theorem IsWildcard.upper (laws : CaseLaws env) {line : List Char} (h : IsWildcard env heads line)
    (hheads : ∀ head ∈ heads, head.any Char.isLower = true) :
    IsWildcard env heads (toAsciiUppercase line) := by
  have hstar : '*' ∈ toAsciiUppercase line :=
    (Text.mem_map_iff Text.recases_toUpper line (by decide)).mpr h.star
  have hlower : toAsciiLowercase (toAsciiUppercase line) = toAsciiLowercase line :=
    (Text.sameLetters_map Text.recases_toUpper line).symm
  exact {
    star := hstar
    letter := (Text.hasLetter_map Text.recases_toUpper line).mpr h.letter
    bare := ⟨stripAny_upper hheads, laws.parseNet_star hstar, laws.parseIp_star hstar⟩
    bare_lower := by
      rw [hlower]
      exact h.bare_lower }

/-- Lines that spell alike hit in lower case at most. -/
theorem SpellsAlike.sensitive (laws : CaseLaws env) {hit : List Char → Bool}
    (h : SpellsAlike env heads hit) (hheads : ∀ head ∈ heads, head.any Char.isLower = true)
    (hdomain : domainHeads ⊆ heads) :
    Spelling.Sensitive (RespelledLine env heads) (fun line => hit (Text.trim line))
      (IsWildcardLine env heads) toAsciiLowercase toAsciiUppercase where
  refl line := .same _
  same_down {line} hwild := by
    rw [RespelledLine, toAsciiLowercase, Text.trim_map Text.recases_toLower]
    exact .bare hwild.bare hwild.bare_lower (Text.sameLetters_map Text.recases_toLower _)
  same_up {line} hwild := by
    rw [RespelledLine, toAsciiUppercase, Text.trim_map Text.recases_toUpper]
    exact .bare hwild.bare (hwild.upper laws hheads).bare
      (Text.sameLetters_map Text.recases_toUpper _)
  tame {line line'} hsame htame := by
    rw [IsWildcardLine] at htame
    rw [RespelledLine] at hsame
    generalize Text.trim line = line at hsame htame ⊢
    generalize Text.trim line' = line' at hsame ⊢
    cases hsame with
    | same => rfl
    | name hhead hname => exact h.name hhead hname
    | bare hbare hbare' hletters =>
        by_cases hstar : '*' ∈ line
        · by_cases hletter : HasLetter line
          · -- in lower case it would have a head, so it never hits
            have hlower : ¬ IsBare env heads (toAsciiLowercase line) := fun hlower =>
              htame ⟨hstar, hletter, hbare, hlower⟩
            have hno : ∀ {ds}, IsBare env heads ds → SameLetters line ds → hit ds = false := by
              intro ds hds hsame
              rw [← Bool.not_eq_true]
              intro hhit
              apply hlower
              have hstar' : '*' ∈ ds := (hsame.mem_iff (by decide)).mp hstar
              have hletter' : HasLetter ds := hsame.hasLetter_iff.mp hletter
              rw [show toAsciiLowercase line = toAsciiLowercase ds from hsame,
                h.wildcard hds hstar' hletter' hhit]
              exact hds
            rw [hno hbare' hletters, hno hbare (.refl line)]
          · rw [hletters.eq_of_no_letter hletter]
        · exact h.plain hbare hbare' hletters hstar
  down {line line'} hsame hwild hhit := by
    rw [IsWildcardLine] at hwild
    rw [RespelledLine] at hsame
    rw [toAsciiLowercase, Text.trim_map Text.recases_toLower, ← toAsciiLowercase]
    generalize Text.trim line = line at hsame hwild ⊢
    generalize Text.trim line' = line' at hsame hhit ⊢
    cases hsame with
    | same => rwa [h.wildcard hwild.bare hwild.star hwild.letter hhit]
    | @name head name name' hhead hname =>
        have hsub : [head] ⊆ heads := by simpa using hdomain hhead
        have hstrip := Text.stripAny_eq_none_of_subset hwild.bare.1 hsub
        rw [Text.stripAny_singleton_append] at hstrip
        cases hstrip
    | bare hbare hbare' hletters =>
        have hstar' : '*' ∈ line' := (hletters.mem_iff (by decide)).mp hwild.star
        have hletter' : HasLetter line' := hletters.hasLetter_iff.mp hwild.letter
        rwa [show toAsciiLowercase line = toAsciiLowercase line' from hletters,
          h.wildcard hbare' hstar' hletter' hhit]
  up {line} hwild := by
    rw [IsWildcardLine] at hwild
    rw [toAsciiUppercase, Text.trim_map Text.recases_toUpper, ← toAsciiUppercase]
    have hupper := hwild.upper laws hheads
    rw [← Bool.not_eq_true]
    intro hhit
    exact Text.lower_upper_ne hwild.letter (h.wildcard hupper.bare hupper.star hupper.letter hhit)

/-! ### The audit list -/

namespace RuleItem

theorem parseLine_suffix {head : List Char} (h : head ∈ suffixHeads) (name : List Char) :
    (parseLine (head ++ name) : List (RuleItem env)) = [.domainSuffix (env.lower (Text.trim name))] := by
  simp only [suffixHeads, List.mem_cons, List.not_mem_nil, or_false] at h
  rcases h with rfl | rfl | rfl
  · rfl
  · rfl
  · rfl

theorem parseLine_full {head : List Char} (h : head ∈ fullHeads) (name : List Char) :
    (parseLine (head ++ name) : List (RuleItem env)) = [.fullDomain (env.lower (Text.trim name))] := by
  obtain rfl := List.mem_singleton.mp h
  rfl

theorem parseLine_keyword {head : List Char} (h : head ∈ keywordHeads) (name : List Char) :
    (parseLine (head ++ name) : List (RuleItem env)) = [.keyword (env.lower (Text.trim name))] := by
  simp only [keywordHeads, List.mem_cons, List.not_mem_nil, or_false] at h
  rcases h with rfl | rfl | rfl
  · rfl
  · rfl
  · rfl

/-- A name after a head is in lower case once it is read. -/
theorem parseLine_name (laws : CaseLaws env) {head name name' : List Char} (h : head ∈ domainHeads)
    (hname : SameLetters name name') :
    (parseLine (head ++ name') : List (RuleItem env)) = parseLine (head ++ name) := by
  have hlower := laws.lower_congr hname.trim
  rcases List.mem_append.mp h with h | hkeyword
  · rcases List.mem_append.mp h with hsuffix | hfull
    · rw [parseLine_suffix hsuffix, parseLine_suffix hsuffix, hlower]
    · rw [parseLine_full hfull, parseLine_full hfull, hlower]
  · rw [parseLine_keyword hkeyword, parseLine_keyword hkeyword, hlower]

theorem parseLine_bare {line : List Char} (h : IsBare env auditHeads line) (hline : line ≠ ['*']) :
    parseLine line = (if '*' ∈ line then ((env.regexNew (wildcard line)).map .regex).toList
      else [.keyword (env.lower line)] : List (RuleItem env)) := by
  obtain ⟨hheads, hnet, hip⟩ := h
  have hnone : ∀ {heads}, heads ⊆ auditHeads → Text.stripAny heads line = none := by
    intro heads hsub
    exact Text.stripAny_eq_none_of_subset hheads hsub
  simp (disch := decide) only [parseLine, if_neg hline, hnone]
  rw [parsePlain, parseAddress, hnet, hip]
  rfl

theorem matchesQuery_domain (geo : GeoEngine env) (q : Query) (domain lowerDomain : List Char)
    (item : RuleItem env) :
    matchesQuery geo { q with domain := domain } lowerDomain item =
      matchesQuery geo q lowerDomain item := by
  cases item <;> rfl

/-- Whether one of the rules of a trimmed line matches. -/
def lineHits (geo : GeoEngine env) (q : Query) (line : List Char) : Bool :=
  if line.isEmpty ∨ line.head? = some '#' ∨ line.head? = some ';' then false
  else (parseLine line).any (matchesQuery geo q (env.lower q.domain))

theorem matchesFull_reload (geo : GeoEngine env) (content : List Char) (q : Query) :
    matchesFull geo (reload content) q =
      (Text.lines content).any fun line => lineHits geo q (Text.trim line) := by
  rw [matchesFull, reload, List.any_flatMap]
  congr 1
  funext line
  rw [lineHits]
  show List.any (if _ then [] else _) _ = _
  split
  · rfl
  · rfl

theorem lineHits_domain (laws : CaseLaws env) (geo : GeoEngine env) (q : Query) {domain : List Char}
    (h : SameLetters q.domain domain) :
    lineHits geo { q with domain := domain } = lineHits geo q := by
  funext line
  rw [lineHits, lineHits]
  show (if _ then _ else (parseLine line).any (matchesQuery geo _ (env.lower domain))) = _
  rw [← laws.lower_congr h]
  simp only [funext (matchesQuery_domain geo q domain (env.lower q.domain))]

theorem spellsAlike_lineHits (laws : CaseLaws env) (geo : GeoEngine env) (q : Query) :
    SpellsAlike env auditHeads (lineHits geo q) where
  name {head name name'} hhead hname := by
    have hcomment : ∀ name, ¬ ((head ++ name).isEmpty ∨ (head ++ name).head? = some '#' ∨
        (head ++ name).head? = some ';') := by
      intro name
      obtain ⟨c, rest, hrest, hhash, hsemi⟩ := exists_cons_of_mem_domainHeads hhead
      rw [hrest]
      simp [hhash, hsemi]
    rw [lineHits, lineHits, if_neg (hcomment name'), if_neg (hcomment name),
      parseLine_name laws hhead hname]
  plain {line line'} hbare hbare' hletters hstar := by
    have hstar' : '*' ∉ line' := (hletters.mem_iff (by decide)).not.mp hstar
    have hline : line ≠ ['*'] := by
      rintro rfl
      exact hstar (by decide)
    have hline' : line' ≠ ['*'] := by
      rintro rfl
      exact hstar' (by decide)
    rw [lineHits, lineHits, parseLine_bare hbare hline, parseLine_bare hbare' hline', if_neg hstar,
      if_neg hstar', laws.lower_congr hletters, hletters.isEmpty]
    simp only [hletters.head?_iff (d := '#') (by decide), hletters.head?_iff (d := ';') (by decide)]
  wildcard {line} hbare hstar hletter hhit := by
    have hline : line ≠ ['*'] := by
      rintro rfl
      exact absurd hletter (by decide)
    rw [lineHits, parseLine_bare hbare hline, if_pos hstar] at hhit
    split at hhit
    · cases hhit
    · rcases hre : env.regexNew (wildcard line) with - | re
      · rw [hre] at hhit
        cases hhit
      · rw [hre] at hhit
        simp only [Option.map_some, Option.toList_some, List.any_cons, List.any_nil, Bool.or_false,
          matchesQuery, Bool.and_eq_true] at hhit
        exact laws.small_of_match hre hhit.2

/-- The lines of a text with its wildcards spelled anew. -/
theorem lines_respell {f : Char → Char} (hf : Text.Recases f) (content : List Char) :
    Text.lines (Text.mapLines (Spelling.respell (IsWildcardLine env heads) (List.map f)) content) =
      (Text.lines content).map (Spelling.respell (IsWildcardLine env heads) (List.map f)) := by
  apply Text.lines_mapLines
  · intro cs hno
    rw [Spelling.respell]
    split
    · exact (Text.mem_map_iff hf cs (by decide)).not.mpr hno
    · exact hno
  · intro cs
    have hwild : IsWildcardLine env heads (Text.stripCr cs) ↔ IsWildcardLine env heads cs := by
      rw [IsWildcardLine, IsWildcardLine, Text.trim_stripCr]
    rw [Spelling.respell, Spelling.respell]
    by_cases h : IsWildcardLine env heads cs
    · rw [if_pos h, if_pos (hwild.mpr h), Text.stripCr_map hf]
    · rw [if_neg h, if_neg (hwild.not.mpr h)]
  · intro cs
    rw [Spelling.respell]
    split
    · exact List.map_eq_nil_iff
    · rfl

/-- The audit answers alike in every spelling of a list and of a name exactly if the spelling of the
wildcards does not count. -/
theorem matchesFull_spelling_iff (laws : CaseLaws env) (geo : GeoEngine env) (content : List Char)
    (q : Query) :
    (∀ content' domain', List.Forall₂ (RespelledLine env auditHeads) (Text.lines content)
        (Text.lines content') → SameLetters q.domain domain' →
      matchesFull geo (reload content') { q with domain := domain' } =
        matchesFull geo (reload content) q) ↔
      Spelling.Settled (fun line => lineHits geo q (Text.trim line)) (IsWildcardLine env auditHeads)
        toAsciiLowercase (Text.lines content) := by
  have hsensitive := (spellsAlike_lineHits laws geo q).sensitive laws (by decide) (by decide)
  constructor
  · intro h
    apply Spelling.settled_of_any_eq hsensitive
    have hanswer : ∀ {f : Char → Char}, Text.Recases f →
        (∀ {line}, IsWildcardLine env auditHeads line →
          RespelledLine env auditHeads line (line.map f)) →
        ((Text.lines content).map (Spelling.respell (IsWildcardLine env auditHeads) (List.map f))).any
          (fun line => lineHits geo q (Text.trim line)) = matchesFull geo (reload content) q := by
      intro f hf hsame
      rw [← lines_respell hf, ← matchesFull_reload]
      apply h _ q.domain _ (.refl q.domain)
      rw [lines_respell hf]
      exact Spelling.forall₂_respell hsensitive.refl hsame
    exact (hanswer Text.recases_toLower hsensitive.same_down).trans
      (hanswer Text.recases_toUpper hsensitive.same_up).symm
  · intro hsettled content' domain' hsame hdomain
    rw [matchesFull_reload, matchesFull_reload, lineHits_domain laws geo q hdomain]
    exact Spelling.any_eq_of_settled hsensitive hsettled hsame

end RuleItem

/-! ### Expressions for wildcards -/

/-- What can be left of a text after some characters of a line. -/
def skips : List Char → List (List Char)
  | [] => [[]]
  | c :: cs => (c :: cs) :: if c = '\n' then [] else skips cs

/-- Whether an expression holds of a text: `.*`, characters, and their escapes, up to the `$`. -/
def exprHolds : List Char → List Char → Bool
  | ['$'], cs => cs.isEmpty
  | '.' :: '*' :: expr, cs => (skips cs).any (exprHolds expr)
  | '\\' :: c :: expr, d :: cs => c == d && exprHolds expr cs
  | c :: expr, d :: cs => c == d && exprHolds expr cs
  | _, _ => false

theorem regexEscape_ne_star (text rest : List Char) : regexEscape text ≠ '*' :: rest := by
  intro h
  rcases text with - | ⟨c, text⟩
  · cases h
  · rw [regexEscape, List.flatMap_cons] at h
    split at h
    · simp at h
    · rename_i hmeta
      simp only [List.cons_append, List.nil_append, List.cons.injEq] at h
      rw [h.1] at hmeta
      exact hmeta (by decide)

theorem replaceStars_cons {c : Char} (hc : c ≠ '\\') (cs : List Char) :
    replaceStars (c :: cs) = c :: replaceStars cs := by
  rw [replaceStars]
  rintro rest rfl -
  exact hc rfl

/-- A character of a text in its expression. -/
theorem replaceStars_regexEscape (c : Char) (text : List Char) :
    replaceStars (regexEscape (c :: text)) =
      (if c = '*' then ['.', '*'] else if c ∈ regexMeta then ['\\', c] else [c]) ++
        replaceStars (regexEscape text) := by
  have hcons : regexEscape (c :: text) =
      (if c ∈ regexMeta then ['\\', c] else [c]) ++ regexEscape text := rfl
  rw [hcons]
  by_cases hstar : c = '*'
  · subst hstar
    rfl
  · rw [if_neg hstar]
    by_cases hmeta : c ∈ regexMeta
    · rw [if_pos hmeta]
      have hback : replaceStars (c :: regexEscape text) = c :: replaceStars (regexEscape text) := by
        rw [replaceStars]
        rintro rest - hrest
        exact regexEscape_ne_star text rest hrest
      show replaceStars ('\\' :: c :: regexEscape text) = _
      rw [replaceStars, hback]
      · rfl
      · rintro rest - hrest
        exact hstar (List.cons.inj hrest).1
    · rw [if_neg hmeta]
      have hback : c ≠ '\\' := by
        rintro rfl
        exact hmeta (by decide)
      exact replaceStars_cons hback _

theorem mem_of_mem_skips {cs rest : List Char} (h : rest ∈ skips cs) : rest <:+ cs := by
  induction cs with
  | nil =>
      obtain rfl := List.mem_singleton.mp h
      exact List.suffix_refl []
  | cons c cs ih =>
      rcases List.mem_cons.mp h with rfl | h
      · exact List.suffix_refl _
      · split at h
        · cases h
        · exact (ih h).trans (List.suffix_cons c cs)

/-- The characters of a wildcard are in every text that its expression holds of. -/
theorem mem_of_exprHolds {text cs : List Char}
    (h : exprHolds (replaceStars (regexEscape text) ++ ['$']) cs = true) {c : Char} (hc : c ∈ text)
    (hstar : c ≠ '*') : c ∈ cs := by
  induction text generalizing cs with
  | nil => cases hc
  | cons d text ih =>
      rw [replaceStars_regexEscape] at h
      by_cases hd : d = '*'
      · subst hd
        have hskip : (skips cs).any (exprHolds (replaceStars (regexEscape text) ++ ['$'])) = true := h
        obtain ⟨rest, hmem, hrest⟩ := List.any_eq_true.mp hskip
        have hc : c ∈ text := (List.mem_cons.mp hc).resolve_left hstar
        exact (mem_of_mem_skips hmem).mem (ih hrest hc)
      · -- escaped or not, the character is the first one of the text
        have hfirst : ∃ rest, cs = d :: rest ∧
            exprHolds (replaceStars (regexEscape text) ++ ['$']) rest = true := by
          rw [if_neg hd] at h
          by_cases hmeta : d ∈ regexMeta
          · rw [if_pos hmeta] at h
            rcases cs with - | ⟨e, rest⟩
            · cases h
            · have hand : (d == e && exprHolds (replaceStars (regexEscape text) ++ ['$']) rest) = true := h
              rw [Bool.and_eq_true, beq_iff_eq] at hand
              exact ⟨rest, by rw [hand.1], hand.2⟩
          · rw [if_neg hmeta, List.cons_append, List.nil_append, List.cons_append, exprHolds.eq_def] at h
            split at h
            · rename_i heq
              exact absurd (by decide) ((List.cons.inj heq).1 ▸ hmeta)
            · rename_i heq
              exact absurd (by decide) ((List.cons.inj heq).1 ▸ hmeta)
            · rename_i heq
              exact absurd (by decide) ((List.cons.inj heq).1 ▸ hmeta)
            · rename_i heq
              obtain ⟨rfl, rfl⟩ := List.cons.inj heq
              rw [Bool.and_eq_true, beq_iff_eq] at h
              exact ⟨_, by rw [h.1], h.2⟩
            · cases h
        obtain ⟨rest, rfl, hrest⟩ := hfirst
        rcases List.mem_cons.mp hc with rfl | hc
        · exact List.mem_cons_self
        · exact List.mem_cons_of_mem _ (ih hrest hc)

/-- What small examples with wildcards need: there are no addresses, letters are ASCII. -/
def wildcardMatching : Matching where
  IpNet := Empty
  Regex := List Char
  contains net := nomatch net
  parseNet _ := none
  parseIp _ := none
  regexNew := some
  isMatch expr cs := expr.head? == some '^' && exprHolds expr.tail cs
  lower := toAsciiLowercase
  upper := toAsciiUppercase
  lower_ascii := (asciiMatching []).lower_ascii

theorem caseLaws_wildcardMatching : CaseLaws wildcardMatching where
  lower_congr h := h
  lower_small cs := (Text.sameLetters_map Text.recases_toLower cs).symm
  parseNet_star _ := rfl
  parseIp_star _ := rfl
  literal {text re cs} hre hmatch c hc hstar := by
    obtain rfl := Option.some.inj hre
    have hholds : exprHolds (replaceStars (regexEscape text) ++ ['$']) cs = true := hmatch
    exact mem_of_exprHolds hholds hc hstar

end Elise
