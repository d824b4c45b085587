import Jcode.Foundation.CharBytes
import Jcode.Foundation.Pieces
import Jcode.Swarm.Member
import Mathlib

/-!
# Searches in sessions

Queries, the score of a message against a query with its snippet, and the quick scan of the raw
bytes of a session file (`jcode-session-types`). Texts are lists of characters, and offsets into
them count bytes; `none` is a panic.
-/

namespace Jcode

open CharBytes

/-! ### Characters -/

/-- What the standard library says of characters, and what is used of it. -/
structure UnicodeData where
  toLowercase : Char → List Char
  isAlphanumeric : Char → Bool
  cased : Char → Bool
  caseIgnorable : Char → Bool
  toLowercase_ne_nil : ∀ c, toLowercase c ≠ []
  toLowercase_ascii : ∀ c, c.toNat < 128 → toLowercase c = [c.toLower]
  toLowercase_twice : ∀ c, ∀ d ∈ toLowercase c, toLowercase d = [d] ∧ d ≠ 'Σ'
  toLowercase_finalSigma : toLowercase 'ς' = ['ς']
  toLowercase_sigma : toLowercase 'σ' = ['σ']
  isAlphanumeric_ascii : ∀ c, c.toNat < 128 → isAlphanumeric c = c.isAlphanum
  cased_ascii : ∀ c, c.toNat < 128 → cased c = c.isAlpha
  caseIgnorable_ascii : ∀ c, c.toNat < 128 →
    caseIgnorable c = ['\'', '.', ':', '^', '`'].contains c

namespace UnicodeData

variable (u : UnicodeData)

/-- The first character that is not ignorable is cased. -/
def caseIgnorableThenCased (chars : List Char) : Bool :=
  match chars.dropWhile u.caseIgnorable with
  | c :: _ => u.cased c
  | [] => false

/-- The lower case of a character between the characters in front of it, from the last to the first,
and those behind it. -/
def lowerBetween (before : List Char) (c : Char) (after : List Char) : List Char :=
  if c = 'Σ' then
    if u.caseIgnorableThenCased before && !u.caseIgnorableThenCased after then ['ς'] else ['σ']
  else u.toLowercase c

def lowerFrom (before : List Char) : List Char → List Char
  | [] => []
  | c :: after => u.lowerBetween before c after ++ lowerFrom (c :: before) after

/-- `str::to_lowercase`. -/
def lowercase (text : List Char) : List Char := u.lowerFrom [] text

end UnicodeData

lemma toNat_toLower (c : Char) : c.toLower.toNat =
    if 65 ≤ c.toNat ∧ c.toNat ≤ 90 then c.toNat + 32 else c.toNat := by
  have hiff : (c.val ≥ 'A'.val ∧ c.val ≤ 'Z'.val) ↔ (65 ≤ c.toNat ∧ c.toNat ≤ 90) := Iff.rfl
  by_cases h : c.val ≥ 'A'.val ∧ c.val ≤ 'Z'.val
  · rw [if_pos (hiff.mp h), Char.toLower, dif_pos h]
    change (c.val + 32).toNat = c.val.toNat + 32
    have hle : c.val.toNat ≤ 90 := (hiff.mp h).2
    rw [UInt32.toNat_add]
    exact Nat.mod_eq_of_lt (by have : (32 : UInt32).toNat = 32 := rfl; omega)
  · rw [if_neg fun h' => h (hiff.mpr h'), Char.toLower, dif_neg h]

lemma toLower_toLower (c : Char) : c.toLower.toLower = c.toLower := by
  apply Char.toNat_inj.mp
  rw [toNat_toLower c.toLower, toNat_toLower c]
  split_ifs <;> omega

lemma toLower_ne_sigma {c : Char} (hc : c ≠ 'Σ') : c.toLower ≠ 'Σ' := by
  rw [← Char.toNat_inj.ne] at hc ⊢
  rw [toNat_toLower]
  have hsigma : 'Σ'.toNat = 931 := rfl
  split_ifs <;> omega

/-- The library as far as the examples below need it: the letters of ASCII, and those of Latin-1
that are lower case already. -/
def plainUnicode : UnicodeData where
  toLowercase c := if c = 'Σ' then ['σ'] else [c.toLower]
  isAlphanumeric c := c.isAlphanum || 'ß' ≤ c && c ≤ 'ÿ' && c ≠ '÷'
  cased := Char.isAlpha
  caseIgnorable := ['\'', '.', ':', '^', '`'].contains
  toLowercase_ne_nil c := by split_ifs <;> exact List.cons_ne_nil _ _
  toLowercase_ascii c hc := by
    rw [if_neg]
    rintro rfl
    revert hc
    decide
  toLowercase_twice c d hd := by
    split_ifs at hd with hc
    · obtain rfl := List.mem_singleton.mp hd
      decide
    · obtain rfl := List.mem_singleton.mp hd
      rw [if_neg (toLower_ne_sigma hc), toLower_toLower]
      exact ⟨rfl, toLower_ne_sigma hc⟩
  toLowercase_finalSigma := by decide
  toLowercase_sigma := by decide
  isAlphanumeric_ascii c hc := by
    have hlatin : ¬ 'ß' ≤ c := fun hle => absurd (show 223 ≤ c.toNat from hle) (by omega)
    simp [hlatin]
  cased_ascii _ _ := rfl
  caseIgnorable_ascii _ _ := rfl

/-! ### Queries -/

structure SessionSearchQueryProfile where
  normalized : List Char
  terms : List (List Char)
  minTermMatches : Nat
deriving DecidableEq

def sessionSearchStopWords : List String :=
  ["a", "an", "and", "are", "as", "at", "be", "but", "by", "for", "from", "how", "i", "in", "into",
    "is", "it", "my", "of", "on", "or", "our", "that", "the", "their", "this", "to", "we", "what",
    "when", "where", "which", "with", "you", "your"]

def isSessionSearchStopWord (token : List Char) : Bool :=
  sessionSearchStopWords.contains (String.ofList token)

variable (u : UnicodeData)

/-- One token of a query, unless it is a stop word, too short or there already. -/
def addSearchTerm (terms : List (List Char)) (token : List Char) : List (List Char) :=
  if token = [] then terms
  else
    let token := u.lowercase token
    if isSessionSearchStopWord token then terms
    else if (2 ≤ token.length || token.all Char.isDigit) && !terms.contains token then
      terms ++ [token]
    else terms

def tokenizeSessionSearchQuery (query : List Char) : List (List Char) :=
  (query.splitOnP fun c => !u.isAlphanumeric c).foldl (addSearchTerm u) []

def minimumSessionSearchTermMatches (termCount : Nat) : Nat :=
  if termCount = 0 then 0
  else if termCount = 1 then 1
  else if termCount ≤ 5 then 2
  else 3

namespace SessionSearchQueryProfile

def new (query : String) : SessionSearchQueryProfile :=
  let normalized := u.lowercase (trim query).toList
  let terms := tokenizeSessionSearchQuery u normalized
  { normalized := normalized
    terms := terms
    minTermMatches := minimumSessionSearchTermMatches terms.length }

def isActionable (query : SessionSearchQueryProfile) : Bool :=
  query.normalized ≠ [] && query.terms ≠ []

end SessionSearchQueryProfile

/-! ### Snippets -/

/-- The loop of `floor_char_boundary`. -/
def floorLoop (text : List Char) : Nat → Nat
  | 0 => 0
  | n + 1 => if IsBoundary text (n + 1) then n + 1 else floorLoop text n

def floorCharBoundary (text : List Char) (i : Nat) : Nat :=
  if width text ≤ i then width text else floorLoop text i

/-- The loop of `ceil_char_boundary`, which goes on for at most `rounds` rounds. -/
def ceilLoop (text : List Char) : Nat → Nat → Nat
  | 0, n => n
  | rounds + 1, n =>
    if n < width text ∧ ¬ IsBoundary text n then ceilLoop text rounds (n + 1) else n

def ceilCharBoundary (text : List Char) (i : Nat) : Nat :=
  if width text ≤ i then width text else min (ceilLoop text (width text - i) i) (width text)

/-- The length of what a snippet is made for. -/
def SessionSearchQueryProfile.focusLen (query : SessionSearchQueryProfile) : Nat :=
  if query.normalized ≠ [] then width query.normalized
  else (query.terms.head?.map width).getD 0

def extractSessionSearchSnippet (text : List Char) (anchor : Option Nat)
    (query : SessionSearchQueryProfile) (maxLen : Nat) : Option (List Char) :=
  match anchor with
  | none => some (text.take maxLen)
  | some pos => do
    let start := floorCharBoundary text (pos - maxLen / 2)
    let stop := ceilCharBoundary text (min (pos + query.focusLen + maxLen / 2) (width text))
    let (front, _) ← cut text start
    let start := ((rfind isWhitespace front).map (· + 1)).getD start
    let (_, back) ← cut text stop
    let stop := ((find isWhitespace back).map (stop + ·)).getD stop
    let snippet ← slice text start stop
    let snippet := if 0 < start then "...".toList ++ snippet else snippet
    return if stop < width text then snippet ++ "...".toList else snippet

/-! ### Scores -/

/-- The score is in exact arithmetic. -/
structure SessionSearchMatchScore where
  snippet : List Char
  score : ℚ
  matchedTerms : List (List Char)
  exactMatch : Bool

/-- `str::find`. -/
def findText (needle text : List Char) : Option Nat :=
  (findFirst needle text).map fun parts => width parts.1

/-- `str::matches(..).count()`. -/
def countTextMatches (needle text : List Char) : Nat := (splitAll needle text).length - 1

/-- The terms that are found, and the first offset at which one is. -/
def foundTerms (textLower : List Char) (terms : List (List Char)) :
    List (List Char) × Option Nat :=
  terms.foldl (fun (found, first) term =>
    match findText term textLower with
    | some pos => (found ++ [term], some (first.elim pos (min · pos)))
    | none => (found, first)) ([], none)

/-- What is returned for a text that matches. -/
def matchScore (text textLower snippet : List Char) (query : SessionSearchQueryProfile) :
    SessionSearchMatchScore :=
  let exactMatch := (findText query.normalized textLower).isSome
  let matchedTerms := (foundTerms textLower query.terms).1
  let totalTermHits := (matchedTerms.map (countTextMatches · textLower)).sum
  let coverage : ℚ := matchedTerms.length / query.terms.length
  { snippet := snippet
    score := (if exactMatch then 4 else 0) + coverage * 3 + matchedTerms.length * (1 / 4) +
      (totalTermHits / (width text + 1)) * 200
    matchedTerms := matchedTerms
    exactMatch := exactMatch }

/-- `none` is a panic, `some none` that the text does not match. -/
def scoreSessionSearchTextMatch (text : List Char) (query : SessionSearchQueryProfile) :
    Option (Option SessionSearchMatchScore) :=
  if query.isActionable then
    let textLower := u.lowercase text
    let exactPos := findText query.normalized textLower
    let (matchedTerms, firstTermPos) := foundTerms textLower query.terms
    if exactPos.isNone ∧ matchedTerms.length < query.minTermMatches then some none
    else do
      let snippet ← extractSessionSearchSnippet text (exactPos.or firstTermPos) query 280
      return some (matchScore text textLower snippet query)
  else some none

/-! ### Texts that are found -/

section

variable {needle text textLower : List Char} {terms : List (List Char)} {pos : Nat}

lemma isSome_findText : (findText needle text).isSome ↔ needle <:+: text := by
  rw [findText, Option.isSome_map, isSome_findFirst]

/-- What is found is between two boundaries. -/
lemma isBoundary_of_findText (h : findText needle text = some pos) :
    IsBoundary text pos ∧ IsBoundary text (pos + width needle) := by
  obtain ⟨⟨before, after⟩, hfind, rfl⟩ := Option.map_eq_some_iff.mp h
  rw [eq_of_findFirst hfind]
  refine ⟨⟨before, needle ++ after, by simp, rfl⟩, ⟨before ++ needle, after, rfl, by simp⟩⟩

lemma foundTerms_concat (term : List Char) : foundTerms textLower (terms ++ [term]) =
    match findText term textLower with
    | some pos => ((foundTerms textLower terms).1 ++ [term],
        some ((foundTerms textLower terms).2.elim pos (min · pos)))
    | none => foundTerms textLower terms := by
  rw [foundTerms, List.foldl_append]
  rfl

lemma foundTerms_fst :
    (foundTerms textLower terms).1 = terms.filter fun term => (findText term textLower).isSome := by
  induction terms using List.reverseRecOn with
  | nil => rfl
  | append_singleton terms term ih =>
    rw [foundTerms_concat, List.filter_append, ← ih]
    cases h : findText term textLower <;> simp [h]

lemma isSome_foundTerms :
    (foundTerms textLower terms).2.isSome ↔ 0 < (foundTerms textLower terms).1.length := by
  induction terms using List.reverseRecOn with
  | nil => simp [foundTerms]
  | append_singleton terms term ih =>
    rw [foundTerms_concat]
    cases findText term textLower with
    | none => exact ih
    | some found => simp

/-- The first offset of all is one at which a term is found. -/
lemma foundTerms_snd (h : (foundTerms textLower terms).2 = some pos) :
    ∃ term ∈ terms, findText term textLower = some pos := by
  induction terms using List.reverseRecOn generalizing pos with
  | nil => cases h
  | append_singleton terms term ih =>
    rw [foundTerms_concat] at h
    cases hfind : findText term textLower with
    | none =>
      rw [hfind] at h
      obtain ⟨other, hother, hpos⟩ := ih h
      exact ⟨other, List.mem_append_left _ hother, hpos⟩
    | some found =>
      rw [hfind] at h
      simp only [Option.some.injEq] at h
      cases hfirst : (foundTerms textLower terms).2 with
      | none =>
        rw [hfirst] at h
        exact ⟨term, List.mem_append_right _ List.mem_cons_self, by rw [hfind, ← h]; rfl⟩
      | some first =>
        rw [hfirst, Option.elim_some] at h
        rcases min_choice first found with hmin | hmin
        · obtain ⟨other, hother, hpos⟩ := ih hfirst
          exact ⟨other, List.mem_append_left _ hother, by rw [hpos, ← h, hmin]⟩
        · exact ⟨term, List.mem_append_right _ List.mem_cons_self, by rw [hfind, ← h, hmin]⟩

end

/-! ### Lower case -/

namespace UnicodeData

variable {u} {text before : List Char} {c : Char}

/-- Lower-casing leaves the character as it is, wherever it stands. -/
def Stable (u : UnicodeData) (c : Char) : Prop := u.toLowercase c = [c] ∧ c ≠ 'Σ'

lemma stable_of_mem_lowerFrom (h : c ∈ u.lowerFrom before text) : u.Stable c := by
  induction text generalizing before with
  | nil => cases h
  | cons d text ih =>
    rcases List.mem_append.mp h with h | h
    · rw [lowerBetween] at h
      split_ifs at h
      · obtain rfl := List.mem_singleton.mp h
        exact ⟨u.toLowercase_finalSigma, by decide⟩
      · obtain rfl := List.mem_singleton.mp h
        exact ⟨u.toLowercase_sigma, by decide⟩
      · exact u.toLowercase_twice d c h
    · exact ih h

lemma lowerFrom_of_stable (h : ∀ c ∈ text, u.Stable c) : u.lowerFrom before text = text := by
  induction text generalizing before with
  | nil => rfl
  | cons c text ih =>
    obtain ⟨hlower, hsigma⟩ := h c List.mem_cons_self
    rw [lowerFrom, ih fun d hd => h d (List.mem_cons_of_mem c hd), lowerBetween, if_neg hsigma,
      hlower]
    rfl

lemma stable_of_mem_lowercase (h : c ∈ u.lowercase text) : u.Stable c :=
  stable_of_mem_lowerFrom h

lemma lowercase_of_stable (h : ∀ c ∈ text, u.Stable c) : u.lowercase text = text :=
  lowerFrom_of_stable h

end UnicodeData

/-! ### Terms -/

section

variable {u} {query text term : List Char} {terms : List (List Char)}

lemma mem_addSearchTerms {tokens : List (List Char)}
    (h : term ∈ tokens.foldl (addSearchTerm u) terms) :
    term ∈ terms ∨ ∃ token ∈ tokens, token ≠ [] ∧ term = u.lowercase token := by
  induction tokens generalizing terms with
  | nil => exact .inl h
  | cons token tokens ih =>
    rw [List.foldl_cons] at h
    rcases ih h with h | ⟨other, hother, hterm⟩
    · rw [addSearchTerm] at h
      split_ifs at h with hnil
      · exact .inl h
      · dsimp only at h
        split_ifs at h
        · exact .inl h
        · rcases List.mem_append.mp h with h | h
          · exact .inl h
          · exact .inr ⟨token, List.mem_cons_self, hnil, List.mem_singleton.mp h⟩
        · exact .inl h
    · exact .inr ⟨other, List.mem_cons_of_mem token hother, hterm⟩

lemma terms_new (query : String) : (SessionSearchQueryProfile.new u query).terms =
    tokenizeSessionSearchQuery u (SessionSearchQueryProfile.new u query).normalized := by
  simp only [SessionSearchQueryProfile.new]

lemma normalized_new (query : String) :
    (SessionSearchQueryProfile.new u query).normalized = u.lowercase (trim query).toList := by
  simp only [SessionSearchQueryProfile.new]

lemma minTermMatches_new (query : String) : (SessionSearchQueryProfile.new u query).minTermMatches =
    minimumSessionSearchTermMatches (SessionSearchQueryProfile.new u query).terms.length := by
  simp only [SessionSearchQueryProfile.new]

/-- A term is a part of the query without anything but letters and digits. -/
lemma term_spec {query : String} (h : term ∈ (SessionSearchQueryProfile.new u query).terms) :
    term <:+: (SessionSearchQueryProfile.new u query).normalized ∧ term ≠ [] ∧
      ∀ c ∈ term, u.isAlphanumeric c ∧ u.Stable c := by
  rw [terms_new, tokenizeSessionSearchQuery] at h
  rcases mem_addSearchTerms h with h | ⟨token, htoken, hne, rfl⟩
  · cases h
  · obtain ⟨hwithin, hnone⟩ := mem_splitOnP htoken
    have hstable : ∀ c ∈ token, u.Stable c := by
      intro c hc
      have hmem := hwithin.subset hc
      rw [normalized_new] at hmem
      exact UnicodeData.stable_of_mem_lowercase hmem
    rw [UnicodeData.lowercase_of_stable hstable]
    refine ⟨hwithin, hne, fun c hc => ⟨?_, hstable c hc⟩⟩
    simpa using hnone c hc

end

end Jcode
