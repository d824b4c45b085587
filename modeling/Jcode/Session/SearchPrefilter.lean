import Jcode.Foundation.Utf8
import Jcode.Session.SearchSnippet
import Jcode.Storage

/-!
# The scan of raw session files

Before a session file is parsed its bytes are searched for the terms of the query. Terms are letters
and digits, so that they are found in the encoding of a text as they are in the text.
-/

namespace Jcode

variable (u : UnicodeData)

/-! ### The scan -/

/-- `to_ascii_lowercase` of a byte. -/
def lowerByte (b : UInt8) : UInt8 := if 65 ≤ b ∧ b ≤ 90 then b ||| 0x20 else b

/-- The inner loop of `contains_case_insensitive_bytes`. -/
def matchesBytes : Bytes → Bytes → Bool
  | _, [] => true
  | hb :: haystack, nb :: needle => lowerByte hb = nb && matchesBytes haystack needle
  | [], _ :: _ => false

def containsCaseInsensitiveBytes (haystack needleLower : Bytes) : Bool :=
  if needleLower = [] then true
  else if haystack.length < needleLower.length then false
  else
    (List.range (haystack.length - needleLower.length + 1)).any fun i =>
      matchesBytes (haystack.drop i) needleLower

/-- `str::contains`. -/
def containsChars (text needle : List Char) : Bool := (findFirst needle text).isSome

def normalizedSessionSearchTextMatches (textLower : List Char) (query : SessionSearchQueryProfile) :
    Bool :=
  if query.isActionable then
    containsChars textLower query.normalized ||
      query.minTermMatches ≤ query.terms.countP (containsChars textLower)
  else false

def isAsciiText (text : List Char) : Bool := text.all (·.toNat < 128)

def sessionSearchRawMatchesQuery (raw : Bytes) (query : SessionSearchQueryProfile) : Bool :=
  if query.isActionable then
    let contains (text : List Char) := containsCaseInsensitiveBytes raw (utf8 (String.ofList text))
    if isAsciiText query.normalized then
      contains query.normalized || query.minTermMatches ≤ query.terms.countP contains
    else
      match readUtf8 raw with
      | none => false
      | some rawText => normalizedSessionSearchTextMatches (u.lowercase rawText.toList) query
  else false

/-! ### The encoding -/

/-- What `serde_json` writes for a character of a string. -/
def jsonEscape (c : Char) : List Char :=
  if c = '"' then ['\\', '"']
  else if c = '\\' then ['\\', '\\']
  else if c = '\n' then ['\\', 'n']
  else if c = '\r' then ['\\', 'r']
  else if c = '\t' then ['\\', 't']
  else if c = '\x08' then ['\\', 'b']
  else if c = '\x0c' then ['\\', 'f']
  else if c.toNat < 0x20 then
    "\\u00".toList ++ [Nat.digitChar (c.toNat / 16), Nat.digitChar (c.toNat % 16)]
  else [c]

def jsonEscaped (text : List Char) : List Char := text.flatMap jsonEscape

def jsonString (text : List Char) : List Char := '"' :: jsonEscaped text ++ ['"']

variable {u} {raw : Bytes} {haystack needle : Bytes} {text term before after front : List Char}
  {c : Char}

/-! ### Bytes -/

lemma matchesBytes_iff : matchesBytes haystack needle ↔ needle <+: haystack.map lowerByte := by
  induction haystack generalizing needle with
  | nil => cases needle <;> simp [matchesBytes]
  | cons hb haystack ih =>
    cases needle with
    | nil => simp [matchesBytes]
    | cons nb needle =>
      rw [matchesBytes, Bool.and_eq_true, decide_eq_true_eq, ih, List.map_cons,
        List.cons_prefix_cons, eq_comm]

/-- The scan finds what occurs in the bytes after they are lower-cased. -/
lemma containsCaseInsensitiveBytes_iff :
    containsCaseInsensitiveBytes haystack needle ↔ needle <:+: haystack.map lowerByte := by
  rw [containsCaseInsensitiveBytes]
  split_ifs with hnil hlength
  · simp [hnil]
  · simp only [false_iff]
    intro hinfix
    have hle := hinfix.length_le
    rw [List.length_map] at hle
    omega
  · simp only [List.any_eq_true, List.mem_range, matchesBytes_iff, List.map_drop]
    constructor
    · rintro ⟨i, -, hprefix⟩
      exact hprefix.isInfix.trans (List.drop_suffix _ _).isInfix
    · rintro ⟨before, after, h⟩
      have hlen := congrArg List.length h
      simp only [List.length_append, List.length_map] at hlen
      refine ⟨before.length, by omega, ?_⟩
      rw [← h, List.append_assoc, List.drop_left]
      exact List.prefix_append _ _

lemma utf8_ofList : utf8 (String.ofList text) = text.flatMap String.utf8EncodeChar := by
  rw [utf8_eq_flatMap, String.toList_ofList]

lemma lowerByte_ofNat : ∀ n < 128, lowerByte (UInt8.ofNat n) =
    UInt8.ofNat (if 65 ≤ n ∧ n ≤ 90 then n + 32 else n) := by decide

lemma utf8EncodeChar_of_ascii (h : c.toNat < 128) :
    String.utf8EncodeChar c = [UInt8.ofNat c.toNat] := by
  rw [String.utf8EncodeChar]
  exact if_pos (Nat.le_of_lt_succ h)

lemma map_lowerByte_char :
    (String.utf8EncodeChar c).map lowerByte = String.utf8EncodeChar c.toLower := by
  by_cases h : c.toNat < 128
  · have hlower : c.toLower.toNat < 128 := by
      rw [toNat_toLower]
      split_ifs <;> omega
    rw [utf8EncodeChar_of_ascii h, utf8EncodeChar_of_ascii hlower, List.map_singleton,
      lowerByte_ofNat _ h, toNat_toLower]
  · have hsame : c.toLower = c := by
      apply Char.toNat_inj.mp
      rw [toNat_toLower, if_neg (by omega)]
    rw [hsame]
    conv_rhs => rw [← List.map_id (String.utf8EncodeChar c)]
    refine List.map_congr_left fun b hb => ?_
    have hbyte : 128 ≤ b.toNat := by
      by_contra hlt
      have hmem : b ∈ utf8 (String.ofList [c]) := by
        rwa [utf8_ofList, List.flatMap_singleton]
      obtain ⟨d, hd, hnat⟩ := exists_char_of_mem_utf8 (by omega) hmem
      rw [String.toList_ofList, List.mem_singleton] at hd
      subst hd
      omega
    have hupper : ¬ b ≤ 90 := by
      intro hle
      have hle : b.toNat ≤ 90 := hle
      omega
    rw [lowerByte, if_neg fun h => hupper h.2, id]

/-- Lower-casing the bytes is lower-casing the letters of ASCII. -/
lemma map_lowerByte : (utf8 (String.ofList text)).map lowerByte =
    utf8 (String.ofList (text.map Char.toLower)) := by
  simp only [utf8_ofList, List.map_flatMap, List.flatMap_map, map_lowerByte_char]

/-! ### Escapes -/

lemma isAlphanum_of_control (h : c.toNat < 0x20) : c.isAlphanum = false := by
  have hval : c.val.toNat < 0x20 := h
  simp only [Char.isAlphanum, Char.isAlpha, Char.isUpper, Char.isLower, Char.isDigit,
    Bool.or_eq_false_iff, Bool.and_eq_false_iff, decide_eq_false_iff_not, ge_iff_le,
    UInt32.le_iff_toNat_le]
  simp
  omega

/-- What is escaped is neither a letter nor a digit, and has no other case. -/
lemma jsonEscape_cases (u : UnicodeData) (c : Char) : jsonEscape c = [c] ∨
    (c ≠ 'Σ' ∧ u.toLowercase c = [c] ∧ u.isAlphanumeric c = false) := by
  by_cases hescaped : c = '"' ∨ c = '\\' ∨ c.toNat < 0x20
  · right
    have hascii : c.toNat < 128 := by
      rcases hescaped with rfl | rfl | h
      · decide
      · decide
      · omega
    have hlower : c.toLower = c := by
      apply Char.toNat_inj.mp
      rw [toNat_toLower, if_neg]
      rcases hescaped with rfl | rfl | h
      · decide
      · decide
      · omega
    have hsigma : c ≠ 'Σ' := by
      rintro rfl
      revert hascii
      decide
    refine ⟨hsigma, by rw [u.toLowercase_ascii c hascii, hlower], ?_⟩
    rw [u.isAlphanumeric_ascii c hascii]
    rcases hescaped with rfl | rfl | h
    · decide
    · decide
    · exact isAlphanum_of_control h
  · left
    simp only [not_or] at hescaped
    obtain ⟨hquote, hslash, hcontrol⟩ := hescaped
    have hne (d : Char) (hd : d.toNat < 0x20) : c ≠ d := by
      rintro rfl
      exact hcontrol hd
    rw [jsonEscape, if_neg hquote, if_neg hslash, if_neg (hne _ (by decide)),
      if_neg (hne _ (by decide)), if_neg (hne _ (by decide)), if_neg (hne _ (by decide)),
      if_neg (hne _ (by decide)), if_neg hcontrol]

/-! ### Lower case in pieces -/

/-- The lower case of each character of a text that stands between two others. -/
def lowerWithin (u : UnicodeData) (before : List Char) : List Char → List Char → List (List Char)
  | [], _ => []
  | c :: text, after =>
    u.lowerBetween before c (text ++ after) :: lowerWithin u (c :: before) text after

lemma lowerFrom_append : u.lowerFrom before (text ++ after) =
    (lowerWithin u before text after).flatten ++ u.lowerFrom (text.reverse ++ before) after := by
  induction text generalizing before with
  | nil => rfl
  | cons c text ih =>
    rw [List.cons_append, UnicodeData.lowerFrom, ih, lowerWithin, List.flatten_cons,
      List.append_assoc, List.reverse_cons, List.append_assoc]
    rfl

lemma lowercase_eq_flatten : u.lowercase text = (lowerWithin u [] text []).flatten := by
  have h : u.lowerFrom [] (text ++ []) = (lowerWithin u [] text []).flatten ++
      u.lowerFrom (text.reverse ++ []) [] := lowerFrom_append
  rw [List.append_nil] at h
  rw [UnicodeData.lowercase, h]
  exact List.append_nil _

lemma lowerWithin_append {text' : List Char} : lowerWithin u before (text ++ text') after =
    lowerWithin u before text (text' ++ after) ++
      lowerWithin u (text.reverse ++ before) text' after := by
  induction text generalizing before with
  | nil => rfl
  | cons c text ih =>
    rw [List.cons_append, lowerWithin, ih, lowerWithin, List.reverse_cons, List.append_assoc,
      List.append_assoc]
    rfl

lemma lowerBetween_of_ne (h : c ≠ 'Σ') : u.lowerBetween before c after = u.toLowercase c :=
  if_neg h

/-- Quotes are neither cased nor ignored. -/
lemma caseIgnorableThenCased_quote {rest : List Char} :
    u.caseIgnorableThenCased (text ++ '"' :: rest) = u.caseIgnorableThenCased text := by
  have hignorable : u.caseIgnorable '"' = false := u.caseIgnorable_ascii '"' (by decide)
  have hcased : u.cased '"' = false := u.cased_ascii '"' (by decide)
  induction text with
  | nil => simp [UnicodeData.caseIgnorableThenCased, hignorable, hcased]
  | cons c text ih =>
    cases hc : u.caseIgnorable c with
    | true => simpa [UnicodeData.caseIgnorableThenCased, hc] using ih
    | false => simp [UnicodeData.caseIgnorableThenCased, hc]

lemma lowerBetween_quote {rest rest' : List Char} :
    u.lowerBetween (before ++ '"' :: rest) c (after ++ '"' :: rest') =
      u.lowerBetween before c after := by
  rw [UnicodeData.lowerBetween, caseIgnorableThenCased_quote, caseIgnorableThenCased_quote]
  rfl

/-! ### Pieces of the encoding -/

/-- No character that is not in ASCII has a lower case that is. -/
def NoAsciiLowercase (u : UnicodeData) (text : List Char) : Prop :=
  ∀ c ∈ text, 128 ≤ c.toNat → ∀ d ∈ u.toLowercase c, 128 ≤ d.toNat

/-- Every capital sigma has the same lower case in the text and in its encoding, where it may be a
final one because of a letter with which the escape in front of it ends. -/
def SameSigmas (u : UnicodeData) (text : List Char) : Prop :=
  ∀ front back, text = front ++ 'Σ' :: back → u.lowerBetween front.reverse 'Σ' back =
    u.lowerBetween (jsonEscaped front).reverse 'Σ' (jsonEscaped back)

lemma not_alphanumeric_of_escaped (h : jsonEscape c ≠ [c]) :
    u.lowerBetween before c after ≠ [] ∧
      ∀ d ∈ u.lowerBetween before c after, ¬ u.isAlphanumeric d := by
  obtain ⟨hsigma, hlower, hnot⟩ := (jsonEscape_cases u c).resolve_left h
  rw [lowerBetween_of_ne hsigma, hlower]
  simp [hnot]

lemma pieces_ascii (h : NoAsciiLowercase u text) :
    List.Forall₂ (fun piece piece' => piece = piece' ∨
      (piece ≠ [] ∧ ∀ d ∈ piece, ¬ (d.toNat < 128 ∧ u.isAlphanumeric d)))
      (lowerWithin u before text after)
      (text.map fun c => (jsonEscape c).map Char.toLower) := by
  induction text generalizing before with
  | nil => exact .nil
  | cons c text ih =>
    refine .cons ?_ (ih fun d hd => h d (List.mem_cons_of_mem c hd))
    by_cases hescape : jsonEscape c = [c]
    · by_cases hascii : c.toNat < 128
      · have hsigma : c ≠ 'Σ' := by
          rintro rfl
          revert hascii
          decide
        left
        rw [lowerBetween_of_ne hsigma, u.toLowercase_ascii c hascii]
        change [c.toLower] = (jsonEscape c).map Char.toLower
        rw [hescape, List.map_singleton]
      · right
        rw [UnicodeData.lowerBetween]
        split_ifs with hsigma hfinal
        · simp
        · simp
        · refine ⟨u.toLowercase_ne_nil c, fun d hd hboth => ?_⟩
          have hle := h c List.mem_cons_self (by omega) d hd
          omega
    · right
      obtain ⟨hne, hnot⟩ := not_alphanumeric_of_escaped hescape
      exact ⟨hne, fun d hd hboth => hnot d hd hboth.2⟩

lemma pieces_unicode (rest rest' : List Char) (h : SameSigmas u (front ++ text)) :
    ∃ pieces, List.Forall₂ (fun piece piece' => piece = piece' ∨
        (piece ≠ [] ∧ ∀ d ∈ piece, ¬ u.isAlphanumeric d))
        (lowerWithin u front.reverse text []) pieces ∧
      pieces.flatten = (lowerWithin u ((jsonEscaped front).reverse ++ '"' :: rest)
        (jsonEscaped text) ('"' :: rest')).flatten := by
  induction text generalizing front with
  | nil => exact ⟨[], .nil, rfl⟩
  | cons c text ih =>
    have hrest : SameSigmas u ((front ++ [c]) ++ text) := by simpa using h
    obtain ⟨pieces, hpieces, hflatten⟩ := ih hrest
    have hescaped : jsonEscaped (c :: text) = jsonEscape c ++ jsonEscaped text := by
      simp [jsonEscaped]
    have hfront : (jsonEscaped (front ++ [c])).reverse ++ '"' :: rest =
        (jsonEscape c).reverse ++ ((jsonEscaped front).reverse ++ '"' :: rest) := by
      simp [jsonEscaped]
    rw [List.reverse_append, List.reverse_singleton, List.singleton_append] at hpieces
    rw [hfront] at hflatten
    refine ⟨(lowerWithin u ((jsonEscaped front).reverse ++ '"' :: rest) (jsonEscape c)
      (jsonEscaped text ++ '"' :: rest')).flatten :: pieces, .cons ?_ hpieces, ?_⟩
    · by_cases hescape : jsonEscape c = [c]
      · left
        simp only [hescape, lowerWithin, List.flatten_cons, List.flatten_nil, List.append_nil,
          List.nil_append]
        rw [lowerBetween_quote]
        by_cases hsigma : c = 'Σ'
        · subst hsigma
          exact h front text rfl
        · rw [lowerBetween_of_ne hsigma, lowerBetween_of_ne hsigma]
      · exact .inr (not_alphanumeric_of_escaped hescape)
    · rw [List.flatten_cons, hflatten, hescaped, lowerWithin_append, List.flatten_append]

/-! ### Terms in the raw bytes -/

lemma isAsciiText_iff : isAsciiText text ↔ ∀ c ∈ text, c.toNat < 128 := by
  simp [isAsciiText]

/-- A term of ASCII letters and digits that is in the lower-cased text is found in the bytes. -/
lemma contains_of_ascii {pre post : Bytes} (hraw : raw = pre ++ utf8 (String.ofList (jsonString text)) ++ post)
    (hlower : NoAsciiLowercase u text) (hterm : ∀ c ∈ term, c.toNat < 128 ∧ u.isAlphanumeric c)
    (h : term <:+: u.lowercase text) :
    containsCaseInsensitiveBytes raw (utf8 (String.ofList term)) := by
  rw [lowercase_eq_flatten, ← List.nil_append (List.flatten _)] at h
  have hfound := infix_flatten_of_pieces hterm (pieces_ascii hlower) h
  have hflatten : (text.map fun c => (jsonEscape c).map Char.toLower).flatten =
      (jsonEscaped text).map Char.toLower := by
    rw [jsonEscaped, List.map_flatMap, List.flatMap]
  rw [List.nil_append, hflatten] at hfound
  obtain ⟨front, back, hfound⟩ := hfound
  have hstring : (jsonString text).map Char.toLower =
      ('"' :: front) ++ term ++ (back ++ ['"']) := by
    simp only [jsonString, List.cons_append, List.map_cons, List.map_append, ← hfound,
      List.append_assoc]
    rfl
  rw [containsCaseInsensitiveBytes_iff, hraw, List.map_append, List.map_append, map_lowerByte,
    hstring]
  simp only [utf8_ofList, List.flatMap_append]
  refine ⟨pre.map lowerByte ++ ('"' :: front).flatMap String.utf8EncodeChar,
    (back ++ ['"']).flatMap String.utf8EncodeChar ++ post.map lowerByte, ?_⟩
  simp [List.append_assoc]

/-- A term of letters and digits that is in the lower-cased text is found in the text that the bytes
are. -/
lemma containsChars_of_unicode {pre post : Bytes} {rawText : String}
    (hraw : utf8 rawText = pre ++ utf8 (String.ofList (jsonString text)) ++ post)
    (hsigmas : SameSigmas u text) (hterm : ∀ c ∈ term, u.isAlphanumeric c)
    (h : term <:+: u.lowercase text) : containsChars (u.lowercase rawText.toList) term := by
  rw [utf8_eq_flatMap, utf8_ofList] at hraw
  obtain ⟨left, right, hparts⟩ := Utf8.infix_of_bytes (by simp [jsonString]) hraw
  have hchars : rawText.toList = (left ++ ['"']) ++ (jsonEscaped text ++ '"' :: right) := by
    rw [← hparts]
    simp [jsonString]
  have hempty : SameSigmas u ([] ++ text) := hsigmas
  obtain ⟨pieces, hpieces, hflatten⟩ := pieces_unicode left.reverse right hempty
  rw [lowercase_eq_flatten, ← List.nil_append (List.flatten _)] at h
  have hfound := infix_flatten_of_pieces hterm hpieces h
  rw [containsChars, isSome_findFirst, UnicodeData.lowercase, hchars, lowerFrom_append,
    lowerFrom_append]
  rw [List.nil_append, hflatten] at hfound
  refine hfound.trans ?_
  have hbefore : (left ++ ['"']).reverse ++ [] = (jsonEscaped []).reverse ++ '"' :: left.reverse := by
    simp [jsonEscaped]
  rw [hbefore]
  exact List.infix_append' _ _ _

lemma minimumSessionSearchTermMatches_le (n : Nat) : minimumSessionSearchTermMatches n ≤ n := by
  rw [minimumSessionSearchTermMatches]
  split_ifs <;> omega

/-- Where the whole query is found, so is every term of it. -/
lemma minTermMatches_le_countP {query : String} (h : SearchMatches u text (.new u query)) :
    (SessionSearchQueryProfile.new u query).minTermMatches ≤
      (SessionSearchQueryProfile.new u query).terms.countP (· <:+: u.lowercase text) := by
  rcases h.2 with hexact | hcount
  · have hall : (SessionSearchQueryProfile.new u query).terms.countP (· <:+: u.lowercase text) =
        (SessionSearchQueryProfile.new u query).terms.length := by
      rw [List.countP_eq_length]
      intro term hterm
      exact decide_eq_true ((term_spec hterm).1.trans (isSome_findText.mp hexact))
    rw [hall, minTermMatches_new]
    exact minimumSessionSearchTermMatches_le _
  · refine hcount.trans (Nat.le_of_eq ?_)
    rw [foundTerms_fst, ← List.countP_eq_length_filter]
    refine List.countP_congr fun term _ => ?_
    rw [isSome_findText, decide_eq_true_eq]

/-- A text that matches is found by the scan of every file that contains its encoding, if the file
and the text do not differ in what they have to do with the case of letters: for a query in ASCII, no
other character of the text has a lower case that is; otherwise the file is UTF-8, and capital sigmas
are as in the text. -/
theorem rawMatches_of_score (u : UnicodeData) (text : List Char) (query : String)
    (result : SessionSearchMatchScore)
    (hscore : scoreSessionSearchTextMatch u text (.new u query) = some (some result))
    (hascii : isAsciiText (SessionSearchQueryProfile.new u query).normalized →
      NoAsciiLowercase u text)
    (hsigmas : ¬ isAsciiText (SessionSearchQueryProfile.new u query).normalized →
      SameSigmas u text) (raw pre post : Bytes)
    (hraw : raw = pre ++ utf8 (String.ofList (jsonString text)) ++ post)
    (hutf8 : ¬ isAsciiText (SessionSearchQueryProfile.new u query).normalized →
      (readUtf8 raw).isSome) :
    sessionSearchRawMatchesQuery u raw (.new u query) = true := by
  have hmatches : SearchMatches u text (.new u query) := by
    by_contra hnot
    rw [score_of_not_matches hnot] at hscore
    cases hscore
  have hcount := minTermMatches_le_countP hmatches
  rw [sessionSearchRawMatchesQuery, if_pos hmatches.1]
  by_cases hquery : isAsciiText (SessionSearchQueryProfile.new u query).normalized
  · rw [if_pos hquery, Bool.or_eq_true, decide_eq_true_eq]
    right
    refine hcount.trans (List.countP_mono_left fun term hterm hfound => ?_)
    obtain ⟨hwithin, -, hchars⟩ := term_spec hterm
    refine contains_of_ascii hraw (hascii hquery) (fun c hc => ?_) (of_decide_eq_true hfound)
    exact ⟨isAsciiText_iff.mp hquery c (hwithin.subset hc), (hchars c hc).1⟩
  · rw [if_neg hquery]
    obtain ⟨rawText, hread⟩ := Option.isSome_iff_exists.mp (hutf8 hquery)
    rw [hread]
    change normalizedSessionSearchTextMatches _ _ = true
    rw [normalizedSessionSearchTextMatches, if_pos hmatches.1, Bool.or_eq_true, decide_eq_true_eq]
    right
    refine hcount.trans (List.countP_mono_left fun term hterm hfound => ?_)
    have hbytes := (readUtf8_eq_some.mp hread).symm.trans hraw
    exact containsChars_of_unicode hbytes (hsigmas hquery) (fun c hc => ((term_spec hterm).2.2 c hc).1)
      (of_decide_eq_true hfound)

theorem rawMatches_of_score_needle : sessionSearchRawMatchesQuery plainUnicode
    (utf8 (String.ofList (jsonString "A \"Needle\"\n".toList))) (.new plainUnicode "NEEDLE") = true := by
  have hscore : ((scoreSessionSearchTextMatch plainUnicode "A \"Needle\"\n".toList
      (.new plainUnicode "NEEDLE")).bind id).isSome = true := by decide +kernel
  obtain ⟨result, hresult⟩ := Option.isSome_iff_exists.mp hscore
  obtain ⟨found, hfound, rfl⟩ := Option.bind_eq_some_iff.mp hresult
  have htext : isAsciiText "A \"Needle\"\n".toList := by decide +kernel
  have hquery : isAsciiText (SessionSearchQueryProfile.new plainUnicode "NEEDLE").normalized := by
    decide +kernel
  refine rawMatches_of_score plainUnicode _ "NEEDLE" result hfound (fun _ c hc hle => ?_)
    (fun hnot => absurd hquery hnot) _ [] [] (by simp) (fun hnot => absurd hquery hnot)
  have hlt := isAsciiText_iff.mp htext c hc
  omega

/-- A file that is not UTF-8 is passed over when the query is not in ASCII, although it contains a
text that matches. -/
theorem not_rawMatches_invalid :
    ((scoreSessionSearchTextMatch plainUnicode "né".toList (.new plainUnicode "né")).bind id).isSome ∧
    sessionSearchRawMatchesQuery plainUnicode
      (utf8 (String.ofList (jsonString "né".toList)) ++ [0xff]) (.new plainUnicode "né") = false := by
  decide +kernel

end Jcode
