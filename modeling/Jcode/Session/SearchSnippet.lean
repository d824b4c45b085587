import Jcode.Session.Search

/-!
# Snippets of matches

The beginning of a snippet is moved behind the last white space in front of it, one byte behind the
beginning of the white space. Where that one has more bytes, the text is cut inside of it.
-/

namespace Jcode

open CharBytes

variable {u : UnicodeData} {text front back needle : List Char} {i n pos maxLen : Nat}

/-! ### Boundaries near an offset -/

lemma floorLoop_spec (n : Nat) : IsBoundary text (floorLoop text n) ∧ floorLoop text n ≤ n := by
  induction n with
  | zero => exact ⟨isBoundary_zero, le_rfl⟩
  | succ n ih =>
    rw [floorLoop]
    split_ifs with h
    · exact ⟨h, le_rfl⟩
    · exact ⟨ih.1, ih.2.trans (Nat.le_succ n)⟩

lemma isBoundary_floorCharBoundary : IsBoundary text (floorCharBoundary text i) := by
  rw [floorCharBoundary]
  split_ifs
  · exact isBoundary_width
  · exact (floorLoop_spec i).1

lemma floorCharBoundary_le : floorCharBoundary text i ≤ i := by
  rw [floorCharBoundary]
  split_ifs with h
  · exact h
  · exact (floorLoop_spec i).2

lemma ceilLoop_spec (rounds : Nat) (hn : n ≤ width text) (hrounds : width text ≤ n + rounds) :
    IsBoundary text (ceilLoop text rounds n) ∧ n ≤ ceilLoop text rounds n := by
  induction rounds generalizing n with
  | zero =>
    obtain rfl : n = width text := by omega
    exact ⟨isBoundary_width, le_rfl⟩
  | succ rounds ih =>
    rw [ceilLoop]
    split_ifs with h
    · obtain ⟨hboundary, hle⟩ := ih (n := n + 1) (by omega) (by omega)
      exact ⟨hboundary, by omega⟩
    · rw [not_and_or, not_not] at h
      rcases h with h | h
      · obtain rfl : n = width text := by omega
        exact ⟨isBoundary_width, le_rfl⟩
      · exact ⟨h, le_rfl⟩

lemma ceilCharBoundary_spec (hi : i ≤ width text) :
    IsBoundary text (ceilCharBoundary text i) ∧ i ≤ ceilCharBoundary text i := by
  rw [ceilCharBoundary]
  split_ifs
  · exact ⟨isBoundary_width, hi⟩
  · obtain ⟨hboundary, hle⟩ := ceilLoop_spec (width text - i) hi (by omega)
    rw [min_eq_left hboundary.le]
    exact ⟨hboundary, hle⟩

/-! ### The snippet -/

/-- The last white space in front of an offset has one byte. -/
def NarrowSpaceBefore (text : List Char) (i : Nat) : Prop :=
  ∀ front space back rest, text = front ++ space :: back ++ rest →
    width (front ++ space :: back) = floorCharBoundary text i →
    isWhitespace space → (∀ c ∈ back, ¬ isWhitespace c) → space.utf8Size = 1

/-- The part of a text that is `len` bytes long and begins at an offset is in the snippet, which is
a part of the text with dots where it does not begin or end. -/
def ShowsAnchor (text snippet : List Char) (pos len : Nat) : Prop :=
  ∃ front before occurrence after back, text = front ++ before ++ occurrence ++ after ++ back ∧
    width (front ++ before) = pos ∧ width occurrence = len ∧
    snippet = (if front = [] then [] else "...".toList) ++ (before ++ occurrence ++ after) ++
      (if back = [] then [] else "...".toList)

/-- Lower-casing moves no character. -/
def PreservesOffsets (u : UnicodeData) (text : List Char) : Prop :=
  ∀ n, IsBoundary (u.lowercase text) n ↔ IsBoundary text n

/-- Where the snippet begins: behind the last white space, if there is any. -/
def snippetStart (front : List Char) : Nat :=
  ((rfind isWhitespace front).map (· + 1)).getD (width front)

def snippetStop (front back : List Char) : Nat :=
  ((find isWhitespace back).map (width front + ·)).getD (width front)

lemma snippetStart_le : snippetStart front ≤ width front := by
  rw [snippetStart]
  cases h : rfind isWhitespace front with
  | none => exact le_rfl
  | some n =>
    obtain ⟨before, c, after, rfl, rfl, -⟩ := rfind_eq_some h
    have hpos := c.utf8Size_pos
    simp only [Option.map_some, Option.getD_some, width_append, width_cons]
    omega

lemma snippetStop_spec (front back : List Char) : IsBoundary (front ++ back) (snippetStop front back) ∧
    width front ≤ snippetStop front back := by
  rw [snippetStop]
  cases h : find isWhitespace back with
  | none => exact ⟨⟨front, back, rfl, rfl⟩, le_rfl⟩
  | some n =>
    obtain ⟨before, c, after, rfl, rfl, -⟩ := find_eq_some h
    exact ⟨⟨front ++ before, c :: after, by simp, by simp⟩, by simp⟩

/-- One byte behind the beginning of a white space is a boundary if that is its end. -/
lemma isBoundary_snippetStart : IsBoundary (front ++ back) (snippetStart front) ↔
    ∀ before space after, front = before ++ space :: after → isWhitespace space →
      (∀ c ∈ after, ¬ isWhitespace c) → space.utf8Size = 1 := by
  rw [snippetStart]
  cases h : rfind isWhitespace front with
  | none =>
    refine iff_of_true ⟨front, back, rfl, rfl⟩ fun before space after hfront hspace => ?_
    have hmem : space ∈ front := by simp [hfront]
    exact absurd hspace (rfind_eq_none.mp h space hmem)
  | some n =>
    obtain ⟨before, c, after, rfl, rfl, hc, hafter⟩ := rfind_eq_some h
    rw [Option.map_some, Option.getD_some, List.append_assoc, List.cons_append]
    constructor
    · intro hboundary before' space after' heq hspace hafter'
      obtain rfl : c = space := last_unique heq hc hspace hafter hafter'
      by_contra hsize
      have hpos := c.utf8Size_pos
      exact not_isBoundary_inside Nat.one_pos (by omega) hboundary
    · intro hnarrow
      have hsize := hnarrow before c after rfl hc hafter
      exact ⟨before ++ [c], after ++ back, by simp, by simp [hsize]⟩

/-- Between two cuts in order the snippet is made if the text can be cut where it begins. -/
lemma extract_eq {query : SessionSearchQueryProfile} {middle : List Char}
    (htext : text = front ++ middle ++ back)
    (hstart : width front = floorCharBoundary text (pos - maxLen / 2))
    (hstop : width (front ++ middle) =
      ceilCharBoundary text (min (pos + query.focusLen + maxLen / 2) (width text))) :
    extractSessionSearchSnippet text (some pos) query maxLen =
      (slice text (snippetStart front) (snippetStop (front ++ middle) back)).map fun snippet =>
        (if 0 < snippetStart front then "...".toList else []) ++ snippet ++
          (if snippetStop (front ++ middle) back < width text then "...".toList else []) := by
  have hcut : cut text (width front) = some (front, middle ++ back) :=
    cut_eq_some.mpr ⟨by rw [htext, List.append_assoc], rfl⟩
  have hcut' : cut text (width (front ++ middle)) = some (front ++ middle, back) :=
    cut_eq_some.mpr ⟨htext, rfl⟩
  have hfirst : ((rfind isWhitespace front).map (· + 1)).getD (width front) =
    snippetStart front := rfl
  have hlast : ((find isWhitespace back).map (width (front ++ middle) + ·)).getD
    (width (front ++ middle)) = snippetStop (front ++ middle) back := rfl
  rw [extractSessionSearchSnippet, ← hstart, ← hstop]
  simp only [hcut, hcut', Option.bind_eq_bind, Option.bind_some, hfirst, hlast]
  cases slice text (snippetStart front) (snippetStop (front ++ middle) back) with
  | none => rfl
  | some snippet =>
    simp only [Option.bind_some, Option.map_some]
    split_ifs <;> simp

/-- A part between two boundaries that is inside of another part. -/
lemma exists_parts {middle : List Char} {len : Nat} (htext : text = front ++ middle ++ back)
    (hpos : IsBoundary text pos) (hend : IsBoundary text (pos + len)) (hfront : width front ≤ pos)
    (hback : pos + len ≤ width (front ++ middle)) :
    ∃ before occurrence after, middle = before ++ occurrence ++ after ∧
      width (front ++ before) = pos ∧ width occurrence = len := by
  obtain ⟨head, tail, hhead, rfl⟩ := hpos
  obtain ⟨head', tail', hhead', hlen⟩ := hend
  rw [htext, List.append_assoc] at hhead
  obtain ⟨before, rfl, hbefore⟩ := exists_between hhead hfront
  have hnext : (front ++ before) ++ tail = head' ++ tail' := by
    rw [← hhead', htext, ← hhead, List.append_assoc]
  obtain ⟨occurrence, rfl, -⟩ := exists_between hnext (by omega)
  have hlast : (front ++ before ++ occurrence) ++ tail' = (front ++ middle) ++ back := by
    rw [← hhead', htext]
  obtain ⟨after, hafter, -⟩ := exists_between hlast (by omega)
  refine ⟨before, occurrence, after, ?_, rfl, ?_⟩
  · rw [List.append_assoc, List.append_assoc, List.append_right_inj] at hafter
    rw [hafter, List.append_assoc]
  · rw [width_append] at hlen
    omega

/-- The window around an offset, and the snippet that is made of it. -/
lemma exists_window (text : List Char) (pos maxLen : Nat) (query : SessionSearchQueryProfile) :
    ∃ front middle back, text = front ++ middle ++ back ∧
      width front = floorCharBoundary text (pos - maxLen / 2) ∧
      min (pos + query.focusLen + maxLen / 2) (width text) ≤ width (front ++ middle) ∧
      extractSessionSearchSnippet text (some pos) query maxLen =
        (slice text (snippetStart front) (snippetStop (front ++ middle) back)).map fun snippet =>
          (if 0 < snippetStart front then "...".toList else []) ++ snippet ++
            (if snippetStop (front ++ middle) back < width text then "...".toList else []) := by
  obtain ⟨hceil, hstop⟩ := ceilCharBoundary_spec
    (Nat.min_le_right (pos + query.focusLen + maxLen / 2) (width text))
  have hfloor : IsBoundary text (floorCharBoundary text (pos - maxLen / 2)) :=
    isBoundary_floorCharBoundary
  have hle : floorCharBoundary text (pos - maxLen / 2) ≤ pos - maxLen / 2 := floorCharBoundary_le
  have hwidth := hfloor.le
  obtain ⟨front, middle, back, htext, hfront, hmiddle⟩ := hfloor.parts hceil (by omega)
  exact ⟨front, middle, back, htext, hfront, hmiddle ▸ hstop, extract_eq htext hfront hmiddle⟩

/-- The snippet is made if and only if the white space in front of it is narrow. -/
lemma exists_snippet (query : SessionSearchQueryProfile) (maxLen : Nat) :
    (∃ snippet, extractSessionSearchSnippet text (some pos) query maxLen = some snippet) ↔
      NarrowSpaceBefore text (pos - maxLen / 2) := by
  obtain ⟨front, middle, back, htext, hfront, -, hextract⟩ := exists_window text pos maxLen query
  have hnarrow : NarrowSpaceBefore text (pos - maxLen / 2) ↔
      IsBoundary text (snippetStart front) := by
    have hparts : text = front ++ (middle ++ back) := by rw [htext, List.append_assoc]
    rw [hparts, isBoundary_snippetStart, ← hparts, NarrowSpaceBefore, ← hfront]
    constructor
    · rintro h before space after rfl hspace hafter
      exact h before space after (middle ++ back) hparts rfl hspace hafter
    · intro h before space after rest hrest hwidth hspace hafter
      exact h before space after (eq_of_width_eq (hparts.symm.trans hrest) hwidth.symm).1 hspace hafter
  obtain ⟨hlast, hlastLe⟩ := snippetStop_spec (front ++ middle) back
  rw [← htext] at hlast
  have hfirstLe : snippetStart front ≤ width front := snippetStart_le
  rw [hextract, hnarrow]
  constructor
  · rintro ⟨snippet, hsnippet⟩
    obtain ⟨part, hslice, -⟩ := Option.map_eq_some_iff.mp hsnippet
    obtain ⟨a, b, rfl, ha, -⟩ := slice_eq_some.mp hslice
    exact ⟨a, part ++ b, by rw [List.append_assoc], ha⟩
  · intro hfirst
    rw [width_append] at hlastLe
    obtain ⟨a, part, b, hparts, ha, hb⟩ := hfirst.parts hlast (by omega)
    rw [slice_eq_some.mpr ⟨a, b, hparts, ha, hb⟩]
    exact ⟨_, rfl⟩

/-- A snippet shows what is between two boundaries if that is not longer than what it is made for. -/
lemma shows_of_extract {query : SessionSearchQueryProfile} {snippet : List Char} {len : Nat}
    (h : extractSessionSearchSnippet text (some pos) query maxLen = some snippet)
    (hlen : len ≤ query.focusLen) (hpos : IsBoundary text pos) (hend : IsBoundary text (pos + len)) :
    ShowsAnchor text snippet pos len := by
  obtain ⟨front, middle, back, htext, hfront, hmiddle, hextract⟩ :=
    exists_window text pos maxLen query
  rw [hextract] at h
  obtain ⟨part, hslice, rfl⟩ := Option.map_eq_some_iff.mp h
  obtain ⟨a, b, hparts, ha, hb⟩ := slice_eq_some.mp hslice
  have hfirst : snippetStart front ≤ width front := snippetStart_le
  have hlast := (snippetStop_spec (front ++ middle) back).2
  have hfloor : floorCharBoundary text (pos - maxLen / 2) ≤ pos - maxLen / 2 := floorCharBoundary_le
  have hendLe := hend.le
  obtain ⟨before, occurrence, after, rfl, hbefore, hoccurrence⟩ :=
    exists_parts hparts hpos hend (by omega) (by omega)
  refine ⟨a, before, occurrence, after, b, by simpa using hparts, hbefore, hoccurrence, ?_⟩
  have hdots : 0 < snippetStart front ↔ a ≠ [] := by
    rw [← ha, Nat.pos_iff_ne_zero, ne_eq, width_eq_zero]
  have hdots' : snippetStop (front ++ middle) back < width text ↔ b ≠ [] := by
    have hwidth : width (a ++ (before ++ occurrence ++ after) ++ b) =
        width (a ++ (before ++ occurrence ++ after)) + width b := width_append
    rw [← hb, hparts, hwidth, ne_eq, ← width_eq_zero]
    omega
  simp only [hdots, hdots', ne_eq, ite_not]

/-! ### Matches -/

/-- The text matches the query, so that a snippet of it is made. -/
def SearchMatches (u : UnicodeData) (text : List Char) (query : SessionSearchQueryProfile) : Prop :=
  query.isActionable ∧ ((findText query.normalized (u.lowercase text)).isSome ∨
    query.minTermMatches ≤ (foundTerms (u.lowercase text) query.terms).1.length)

/-- What the snippet of a match is made for. -/
def searchAnchor (u : UnicodeData) (text : List Char) (query : SessionSearchQueryProfile) :
    Option Nat :=
  (findText query.normalized (u.lowercase text)).or (foundTerms (u.lowercase text) query.terms).2

lemma width_le_focusLen {query : String}
    (h : needle ∈ (SessionSearchQueryProfile.new u query).normalized ::
      (SessionSearchQueryProfile.new u query).terms) :
    width needle ≤ (SessionSearchQueryProfile.new u query).focusLen := by
  have hle : width needle ≤ width (SessionSearchQueryProfile.new u query).normalized := by
    rcases List.mem_cons.mp h with rfl | h
    · exact le_rfl
    · obtain ⟨front, back, hinfix⟩ := (term_spec h).1
      rw [← hinfix, width_append, width_append]
      omega
  rw [SessionSearchQueryProfile.focusLen]
  split_ifs with hnil
  · exact hle
  · rw [not_not.mp hnil] at hle
    exact hle.trans (Nat.zero_le _)

lemma exists_of_searchAnchor {query : SessionSearchQueryProfile}
    (h : searchAnchor u text query = some pos) :
    ∃ needle ∈ query.normalized :: query.terms, findText needle (u.lowercase text) = some pos := by
  rcases Option.or_eq_some_iff.mp h with h | ⟨-, h⟩
  · exact ⟨query.normalized, List.mem_cons_self, h⟩
  · obtain ⟨term, hterm, hpos⟩ := foundTerms_snd h
    exact ⟨term, List.mem_cons_of_mem _ hterm, hpos⟩

lemma score_of_matches {query : SessionSearchQueryProfile} (h : SearchMatches u text query) :
    scoreSessionSearchTextMatch u text query =
      (extractSessionSearchSnippet text (searchAnchor u text query) query 280).map
        fun snippet => some (matchScore text (u.lowercase text) snippet query) := by
  obtain ⟨hactionable, hfound⟩ := h
  have hcond : ¬ ((findText query.normalized (u.lowercase text)).isNone ∧
      (foundTerms (u.lowercase text) query.terms).1.length < query.minTermMatches) := by
    rw [not_and_or, not_lt, Option.isNone_iff_eq_none, ← ne_eq, Option.ne_none_iff_isSome]
    exact hfound
  rw [scoreSessionSearchTextMatch, if_pos hactionable]
  simp only [hcond, if_false]
  rw [searchAnchor]
  cases extractSessionSearchSnippet text _ query 280 <;> rfl

lemma score_of_not_matches {query : SessionSearchQueryProfile} (h : ¬ SearchMatches u text query) :
    scoreSessionSearchTextMatch u text query = some none := by
  rw [scoreSessionSearchTextMatch]
  split_ifs with hactionable
  · have hcond : (findText query.normalized (u.lowercase text)).isNone ∧
        (foundTerms (u.lowercase text) query.terms).1.length < query.minTermMatches := by
      simp only [SearchMatches, hactionable, true_and, not_or, not_le] at h
      exact ⟨by simpa using h.1, h.2⟩
    simp only [hcond, and_self, if_true]
  · rfl

/-- A query that has terms needs one of them. -/
lemma isSome_searchAnchor {query : String} (h : SearchMatches u text (.new u query)) :
    ∃ pos, searchAnchor u text (.new u query) = some pos := by
  obtain ⟨hactionable, hfound⟩ := h
  rw [← Option.isSome_iff_exists, searchAnchor, Option.isSome_or]
  rcases hfound with hfound | hfound
  · simp [hfound]
  · rw [minTermMatches_new] at hfound
    have hterms : (SessionSearchQueryProfile.new u query).terms ≠ [] := by
      intro hnil
      simp [SessionSearchQueryProfile.isActionable, hnil] at hactionable
    have hpos : 0 < (foundTerms (u.lowercase text)
        (SessionSearchQueryProfile.new u query).terms).1.length := by
      refine lt_of_lt_of_le ?_ hfound
      have hlength := List.length_pos_iff.mpr hterms
      rw [minimumSessionSearchTermMatches]
      split_ifs <;> omega
    rw [isSome_foundTerms.mpr hpos, Bool.or_true]

/-! ### When snippets are made -/

/-- The snippet for an offset that is found in the lower-cased text is made, and shows what is there,
if and only if the white space in front of it is narrow. So it is with the snippet of a match. -/
theorem searchSnippet_iff (u : UnicodeData) (text : List Char) (query : String) :
    let profile := SessionSearchQueryProfile.new u query
    (∀ needle ∈ profile.normalized :: profile.terms, ∀ pos,
      findText needle (u.lowercase text) = some pos → ∀ maxLen,
        ((∃ snippet, extractSessionSearchSnippet text (some pos) profile maxLen = some snippet ∧
          (PreservesOffsets u text → ShowsAnchor text snippet pos (width needle))) ↔
        NarrowSpaceBefore text (pos - maxLen / 2))) ∧
    ((∃ result, scoreSessionSearchTextMatch u text profile = some result ∧
        ∀ found ∈ result, PreservesOffsets u text →
          ∃ needle ∈ profile.normalized :: profile.terms, ∃ pos,
            findText needle (u.lowercase text) = some pos ∧
            ShowsAnchor text found.snippet pos (width needle)) ↔
      (SearchMatches u text profile → ∀ pos, searchAnchor u text profile = some pos →
        NarrowSpaceBefore text (pos - 140))) := by
  have hextract {needle : List Char} {pos maxLen : Nat} {snippet : List Char}
      (hneedle : needle ∈ (SessionSearchQueryProfile.new u query).normalized ::
        (SessionSearchQueryProfile.new u query).terms)
      (hfind : findText needle (u.lowercase text) = some pos)
      (h : extractSessionSearchSnippet text (some pos) (.new u query) maxLen = some snippet)
      (hoffsets : PreservesOffsets u text) : ShowsAnchor text snippet pos (width needle) := by
    obtain ⟨hstart, hend⟩ := isBoundary_of_findText hfind
    exact shows_of_extract h (width_le_focusLen hneedle) ((hoffsets _).mp hstart)
      ((hoffsets _).mp hend)
  refine ⟨fun needle hneedle pos hfind maxLen => ?_, ?_⟩
  · rw [← exists_snippet (.new u query)]
    exact exists_congr fun snippet => and_iff_left_of_imp fun h => hextract hneedle hfind h
  · by_cases hmatches : SearchMatches u text (.new u query)
    · obtain ⟨pos, hpos⟩ := isSome_searchAnchor hmatches
      obtain ⟨needle, hneedle, hfind⟩ := exists_of_searchAnchor hpos
      simp only [hmatches, true_implies, hpos, Option.some.injEq, forall_eq']
      rw [score_of_matches hmatches, hpos, ← exists_snippet (.new u query) 280]
      constructor
      · rintro ⟨result, hresult, -⟩
        obtain ⟨snippet, hsnippet, -⟩ := Option.map_eq_some_iff.mp hresult
        exact ⟨snippet, hsnippet⟩
      · rintro ⟨snippet, hsnippet⟩
        refine ⟨_, by rw [hsnippet]; rfl, fun found hfound hoffsets => ?_⟩
        obtain rfl := Option.some.inj hfound
        exact ⟨needle, hneedle, pos, hfind, hextract hneedle hfind hsnippet hoffsets⟩
    · rw [score_of_not_matches hmatches]
      refine iff_of_true ⟨none, rfl, fun found hfound => by cases hfound⟩ fun h => absurd h hmatches

/-- An ideographic space, and far behind it what is searched for. -/
def wideSpaced : List Char := '\u3000' :: List.replicate 140 'a' ++ "needle".toList

/-- The snippet would begin inside of the space. -/
theorem score_wideSpaced :
    scoreSessionSearchTextMatch plainUnicode wideSpaced (.new plainUnicode "needle") = none := by
  decide +kernel

end Jcode
