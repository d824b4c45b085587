import Jcode.Tool.DiffMismatch

/-!
# Well-formed unified diffs

A diff holds the lines that the two files share between the hunks, so that both files and the
ranges in the headers follow from it. An empty context line may be written without its space, and
a count of one may be left out.

The parser reads a hunk up to the first deleted line that begins with `--`, which looks like the
header of a file, and passes over the empty lines.
-/

namespace Jcode

/-- A line of a hunk. An empty context line that is written as an empty line is a `blank`. -/
inductive DiffLine
  | context (line : Line)
  | blank
  | delete (line : Line)
  | insert (line : Line)
  deriving DecidableEq

namespace DiffLine

def text : DiffLine → Line
  | context line => ' ' :: line
  | blank => []
  | delete line => '-' :: line
  | insert line => '+' :: line

def old : DiffLine → List Line
  | context line => [line]
  | blank => [[]]
  | delete line => [line]
  | insert _ => []

def new : DiffLine → List Line
  | context line => [line]
  | blank => [[]]
  | delete _ => []
  | insert line => [line]

/-- A deleted line that looks like the header of a file. -/
def Cuts : DiffLine → Prop
  | delete line => StartsWith line "--"
  | _ => False

instance : ∀ line : DiffLine, Decidable line.Cuts
  | context _ => inferInstanceAs (Decidable False)
  | blank => inferInstanceAs (Decidable False)
  | delete line => inferInstanceAs (Decidable (StartsWith line "--"))
  | insert _ => inferInstanceAs (Decidable False)

/-- The old lines, without a blank one. -/
def heardOld (line : DiffLine) : List Line := if line = blank then [] else line.old

/-- The new lines, without a blank one. -/
def heardNew (line : DiffLine) : List Line := if line = blank then [] else line.new

end DiffLine

/-- A hunk, with the lines of both files between it and the hunk before. -/
structure DiffHunk where
  gap : List Line
  body : List DiffLine
  /-- A count of one is left out in the range of the old file, of the new file. -/
  briefOld : Bool
  briefNew : Bool
  /-- What is behind the ranges. -/
  heading : Line
  deriving DecidableEq

def digits (n : Nat) : Line := Nat.toDigits 10 n

def rangeText (brief : Bool) (start count : Nat) : Line :=
  if brief = true ∧ count = 1 then digits start else digits start ++ ',' :: digits count

namespace DiffHunk

variable (hunk : DiffHunk)

def old : List Line := hunk.body.flatMap DiffLine.old

def new : List Line := hunk.body.flatMap DiffLine.new

/-- The header of a hunk with so many lines of the two files before it. -/
def header (oldBefore newBefore : Nat) : Line :=
  "@@".toList ++ ' ' ::
    ('-' :: rangeText hunk.briefOld (rangeStart oldBefore hunk.old) hunk.old.length ++ ' ' ::
      ('+' :: rangeText hunk.briefNew (rangeStart newBefore hunk.new) hunk.new.length ++ ' ' ::
        ("@@".toList ++ hunk.heading)))

/-- The parser takes a line of the hunk for the header of a file. -/
def IsCut : Prop := ∃ line ∈ hunk.body, line.Cuts

instance : Decidable hunk.IsCut := inferInstanceAs (Decidable (∃ line ∈ hunk.body, line.Cuts))

/-- The lines that the parser gets to. -/
def heard : List DiffLine := hunk.body.takeWhile fun line => ¬ line.Cuts

def heardOld : List Line := hunk.heard.flatMap DiffLine.heardOld

def heardNew : List Line := hunk.heard.flatMap DiffLine.heardNew

end DiffHunk

/-- The lines of the hunks, with so many lines of the two files before them. -/
def hunkTexts (oldBefore newBefore : Nat) : List DiffHunk → List Line
  | [] => []
  | hunk :: hunks =>
    hunk.header (oldBefore + hunk.gap.length) (newBefore + hunk.gap.length) ::
      (hunk.body.map DiffLine.text ++ hunkTexts (oldBefore + hunk.gap.length + hunk.old.length)
        (newBefore + hunk.gap.length + hunk.new.length) hunks)

/-- The old file from the lines between two hunks on. -/
def oldFrom (tail : List Line) : List DiffHunk → List Line
  | [] => tail
  | hunk :: hunks => hunk.gap ++ (hunk.old ++ oldFrom tail hunks)

/-- The new file from the lines between two hunks on. -/
def newFrom (tail : List Line) : List DiffHunk → List Line
  | [] => tail
  | hunk :: hunks => hunk.gap ++ (hunk.new ++ newFrom tail hunks)

/-- The lines of a text behind a diff: no line of a hunk is among them up to the next file. -/
def Unrelated (lines : List Line) : Prop :=
  ∀ line ∈ lines.takeWhile fun line => ¬ StartsWith line "---",
    ¬ StartsWith line "@@" ∧ readOld line = [] ∧ readNew line = []

instance (lines : List Line) : Decidable (Unrelated lines) :=
  inferInstanceAs (Decidable (∀ line ∈ _, _))

/-- A diff of one file in a text. -/
structure UnifiedDiff where
  preamble : List Line
  oldFile : Line
  newFile : Line
  hunks : List DiffHunk
  tail : List Line
  /-- What follows in the text. -/
  after : List Line
  preamble_ok : ∀ line ∈ preamble, ¬ StartsWith line "---"
  oldFile_ok : (oldFile.takeWhile fun c => c ≠ '\t') ≠ devNull
  newFile_ok : (newFile.takeWhile fun c => c ≠ '\t') ≠ devNull
  hunks_ne_nil : hunks ≠ []
  after_ok : Unrelated after

namespace UnifiedDiff

variable (diff : UnifiedDiff)

def old : List Line := oldFrom diff.tail diff.hunks

def new : List Line := newFrom diff.tail diff.hunks

def lines : List Line :=
  diff.preamble ++ ("--- ".toList ++ diff.oldFile) :: ("+++ ".toList ++ diff.newFile) ::
    (hunkTexts 0 0 diff.hunks ++ diff.after)

end UnifiedDiff

/-- What the parser makes of the hunks behind so many lines of the old file. -/
def heardHunks (before : Nat) : List DiffHunk → List Hunk
  | [] => []
  | hunk :: hunks =>
    ⟨rangeStart (before + hunk.gap.length) hunk.old, hunk.heardOld, hunk.heardNew⟩ ::
      if hunk.IsCut then [] else heardHunks (before + hunk.gap.length + hunk.old.length) hunks

/-! ### Headers -/

lemma isDigit_of_mem_digits {n : Nat} {c : Char} (h : c ∈ digits n) : c.isDigit = true :=
  Nat.isDigit_of_mem_toDigits (by decide) (by decide) h

lemma parseUsize_digits {n : Nat} (h : n < 2 ^ 64) : parseUsize (digits n) = some n := by
  have hplus : stripPrefix "+" (digits n) = none := by
    refine if_neg fun hprefix => ?_
    have hmem : '+' ∈ digits n := hprefix.subset (by decide)
    exact absurd (isDigit_of_mem_digits hmem) (by decide)
  have hvalue : Nat.ofDigitChars 10 (digits n) 0 = n := Nat.ofDigitChars_ten_toDigits
  rw [parseUsize, hplus, Option.getD_none, hvalue, if_pos]
  exact ⟨Nat.toDigits_ne_nil, List.all_eq_true.mpr fun c hc => isDigit_of_mem_digits hc, h⟩

lemma ne_comma_of_mem_digits {n : Nat} {c : Char} (h : c ∈ digits n) : c ≠ ',' := by
  rintro rfl
  exact absurd (isDigit_of_mem_digits h) (by decide)

lemma takeWhile_rangeText {brief : Bool} {start count : Nat} :
    (rangeText brief start count).takeWhile (fun c => c ≠ ',') = digits start := by
  have hall : ∀ c ∈ digits start, decide (c ≠ ',') = true := fun c hc =>
    decide_eq_true (ne_comma_of_mem_digits hc)
  rw [rangeText]
  split_ifs
  · exact List.takeWhile_eq_self_iff.mpr hall
  · rw [List.takeWhile_append_of_pos hall]
    simp

lemma not_isWhitespace_of_mem_rangeText {brief : Bool} {start count : Nat} {c : Char}
    (h : c ∈ rangeText brief start count) : isWhitespace c = false := by
  have hdigits : ∀ n, c ∈ digits n → isWhitespace c = false := fun n hc =>
    isWhitespace_of_isDigit (isDigit_of_mem_digits hc)
  rw [rangeText] at h
  split_ifs at h
  · exact hdigits start h
  · rcases List.mem_append.mp h with h | h
    · exact hdigits start h
    · rcases List.mem_cons.mp h with rfl | h
      · decide
      · exact hdigits count h

variable {hunk : DiffHunk} {hunks : List DiffHunk} {oldBefore newBefore : Nat}

/-- The parser gets the old start of the header. -/
lemma hunkOldStart_header (h : rangeStart oldBefore hunk.old < 2 ^ 64) :
    hunkOldStart (hunk.header oldBefore newBefore) = some (rangeStart oldBefore hunk.old) := by
  have hrange : ∀ (sign : Char) (brief : Bool) (start count : Nat), isWhitespace sign = false →
      ∀ c ∈ sign :: rangeText brief start count, isWhitespace c = false := by
    intro sign brief start count hsign c hc
    rcases List.mem_cons.mp hc with rfl | hc
    · exact hsign
    · exact not_isWhitespace_of_mem_rangeText hc
  have hmarker : ∀ c ∈ "@@".toList, isWhitespace c = false := by
    intro c hc
    obtain rfl : c = '@' := by simpa using hc
    rfl
  have hspace : isWhitespace ' ' = true := by decide
  obtain ⟨rest, hparts⟩ : ∃ rest, headerParts (hunk.header oldBefore newBefore) = "@@".toList ::
      ('-' :: rangeText hunk.briefOld (rangeStart oldBefore hunk.old) hunk.old.length) ::
      ('+' :: rangeText hunk.briefNew (rangeStart newBefore hunk.new) hunk.new.length) :: rest := by
    rw [headerParts, DiffHunk.header,
      List.splitOnP_append_cons_of_forall_mem hmarker ' ' hspace,
      List.splitOnP_append_cons_of_forall_mem (hrange '-' _ _ _ (by decide)) ' ' hspace,
      List.splitOnP_append_cons_of_forall_mem (hrange '+' _ _ _ (by decide)) ' ' hspace]
    exact ⟨_, rfl⟩
  have hstrip : ∀ range : Line, (stripPrefix "-" ('-' :: range)).getD ('-' :: range) = range := by
    intro range
    have hprefix : "-".toList <+: '-' :: range := List.prefix_append ['-'] range
    rw [stripPrefix, if_pos hprefix]
    rfl
  rw [hunkOldStart, hparts]
  dsimp only
  rw [hstrip, takeWhile_rangeText, parseUsize_digits h]
  rfl

lemma startsWith_header : StartsWith (hunk.header oldBefore newBefore) "@@" :=
  List.prefix_append _ _

/-! ### Lines of hunks -/

lemma endsHunk_text {line : DiffLine} : EndsHunk line.text ↔ line.Cuts := by
  have hcons : ∀ (c : Char) (l : Line), c ≠ '@' → c ≠ '-' → ¬ EndsHunk (c :: l) := by
    rintro c l hat hdash (⟨rest, hrest⟩ | ⟨rest, hrest⟩)
    · exact hat (List.cons.inj hrest).1.symm
    · exact hdash (List.cons.inj hrest).1.symm
  cases line with
  | context l => exact iff_of_false (hcons ' ' l (by decide) (by decide)) id
  | blank => exact iff_of_false (by decide) id
  | insert l => exact iff_of_false (hcons '+' l (by decide) (by decide)) id
  | delete l =>
    constructor
    · rintro (⟨rest, hrest⟩ | ⟨rest, hrest⟩)
      · exact absurd (List.cons.inj hrest).1 (by decide)
      · exact ⟨rest, (List.cons.inj hrest).2⟩
    · rintro ⟨rest, hrest⟩
      exact .inr ⟨rest, congrArg (List.cons '-') hrest⟩

lemma startsWith_text_of_cuts {line : DiffLine} (h : line.Cuts) : StartsWith line.text "---" := by
  cases line with
  | delete l =>
    obtain ⟨rest, hrest⟩ := h
    exact ⟨rest, congrArg (List.cons '-') hrest⟩
  | context l => cases h
  | blank => cases h
  | insert l => cases h

lemma readOld_text {line : DiffLine} : readOld line.text = line.heardOld := by
  cases line <;> rfl

lemma readNew_text {line : DiffLine} : readNew line.text = line.heardNew := by
  cases line <;> rfl

variable {body : List DiffLine} {oldLines newLines rest : List Line}

/-- The parser goes on behind lines that it does not take for a header. -/
lemma hunkLines_of_not_cuts (h : ∀ line ∈ body, ¬ line.Cuts) :
    hunkLines oldLines newLines (body.map DiffLine.text ++ rest) =
      hunkLines (oldLines ++ body.flatMap DiffLine.heardOld)
        (newLines ++ body.flatMap DiffLine.heardNew) rest := by
  induction body generalizing oldLines newLines with
  | nil => simp
  | cons line body ih =>
    obtain ⟨hline, hbody⟩ := List.forall_mem_cons.mp h
    rw [List.map_cons, List.cons_append, hunkLines, if_neg (mt endsHunk_text.mp hline), ih hbody,
      readOld_text, readNew_text, List.flatMap_cons, List.flatMap_cons, List.append_assoc,
      List.append_assoc]

/-- The lines of a hunk are read up to one that is taken for a header. -/
lemma hunkLines_of_cut (h : hunk.IsCut) (rest : List Line) :
    ∃ line left, StartsWith line "---" ∧
      hunkLines [] [] (hunk.body.map DiffLine.text ++ rest) =
        ((hunk.heardOld, hunk.heardNew), line :: left) := by
  obtain ⟨line, hline, hcuts⟩ := h
  have hsplit : hunk.heard ++ hunk.body.dropWhile (fun line => ¬ line.Cuts) = hunk.body :=
    List.takeWhile_append_dropWhile
  have hheard : ∀ line ∈ hunk.heard, ¬ line.Cuts := fun line hmem => by
    simpa using List.mem_takeWhile_imp hmem
  cases hdrop : hunk.body.dropWhile (fun line => ¬ line.Cuts) with
  | nil =>
    rw [hdrop, List.append_nil] at hsplit
    exact absurd hcuts (hheard line (hsplit.symm ▸ hline))
  | cons next left =>
    have hnext : next.Cuts := by
      have := List.head?_dropWhile_not (fun line : DiffLine => ¬ line.Cuts) hunk.body
      rw [hdrop] at this
      simpa using this
    refine ⟨next.text, left.map DiffLine.text ++ rest, startsWith_text_of_cuts hnext, ?_⟩
    rw [← hsplit, hdrop, List.map_append, List.append_assoc, hunkLines_of_not_cuts hheard,
      List.map_cons, List.cons_append, hunkLines, if_pos (endsHunk_text.mpr hnext),
      List.nil_append, List.nil_append]
    rfl

lemma parseHunks_header_file {line : Line} (h : StartsWith line "---") :
    parseHunks (line :: rest) = ([], line :: rest) := by
  rw [parseHunks, if_pos h]

/-- Behind the last hunk nothing is read up to the next file. -/
lemma hunkLines_of_unrelated (oldLines newLines : List Line) {after : List Line}
    (h : Unrelated after) :
    ∃ left, hunkLines oldLines newLines after = ((oldLines, newLines), left) ∧
      (parseHunks left).1 = [] := by
  induction after generalizing oldLines newLines with
  | nil => exact ⟨[], rfl, by rw [parseHunks]⟩
  | cons line after ih =>
    by_cases hfile : StartsWith line "---"
    · refine ⟨line :: after, ?_, by rw [parseHunks_header_file hfile]⟩
      have hends : EndsHunk line := .inr hfile
      rw [hunkLines, if_pos hends]
    · have htake : (line :: after).takeWhile (fun line => ¬ StartsWith line "---") =
          line :: after.takeWhile fun line => ¬ StartsWith line "---" := by simp [hfile]
      rw [Unrelated, htake, List.forall_mem_cons] at h
      obtain ⟨⟨hat, hold, hnew⟩, hafter⟩ := h
      rw [hunkLines, if_neg (fun hends => hends.elim hat hfile), hold, hnew, List.append_nil,
        List.append_nil]
      exact ih oldLines newLines hafter

lemma heard_of_not_isCut (h : ¬ hunk.IsCut) : hunk.heard = hunk.body :=
  List.takeWhile_eq_self_iff.mpr fun line hline =>
    decide_eq_true fun hcuts => h ⟨line, hline, hcuts⟩

lemma old_eq_nil_of (h : hunk.old = []) : ¬ hunk.IsCut := by
  rintro ⟨line, hline, hcuts⟩
  have hnil : line.old = [] := List.flatMap_eq_nil_iff.mp h line hline
  cases line with
  | delete l => cases hnil
  | context l => cases hcuts
  | blank => cases hcuts
  | insert l => cases hcuts

/-! ### The parser on a diff -/

/-- The start of a hunk is within the old file. -/
lemma rangeStart_le {tail : List Line} {n : Nat}
    (h : oldBefore + (oldFrom tail (hunk :: hunks)).length ≤ n) :
    rangeStart (oldBefore + hunk.gap.length) hunk.old ≤ n := by
  rw [oldFrom, List.length_append, List.length_append] at h
  rw [rangeStart]
  split_ifs with hold
  · omega
  · have := List.length_pos_iff.mpr hold
    omega

theorem parseHunks_hunkTexts {tail after : List Line} (hafter : Unrelated after)
    (hne : hunks ≠ []) (hfits : oldBefore + (oldFrom tail hunks).length < 2 ^ 64) :
    (parseHunks (hunkTexts oldBefore newBefore hunks ++ after)).1 = heardHunks oldBefore hunks := by
  induction hunks generalizing oldBefore newBefore with
  | nil => exact absurd rfl hne
  | cons hunk hunks ih =>
    set oldStart := oldBefore + hunk.gap.length with holdStart
    set header := hunk.header oldStart (newBefore + hunk.gap.length) with hheader
    have hstart : rangeStart oldStart hunk.old < 2 ^ 64 :=
      Nat.lt_of_le_of_lt (rangeStart_le (Nat.le_refl _)) hfits
    have hat : StartsWith header "@@" := startsWith_header
    have hfile : ¬ StartsWith header "---" := by
      rintro ⟨rest, hrest⟩
      exact absurd (List.cons.inj hrest).1 (by decide)
    rw [hunkTexts, List.cons_append, parseHunks, if_neg hfile, if_pos hat]
    dsimp only
    rw [parseHunk, hunkOldStart_header hstart]
    dsimp only
    rw [Option.toList_some, List.singleton_append, heardHunks, List.append_assoc]
    by_cases hcut : hunk.IsCut
    · obtain ⟨line, left, hline, hread⟩ := hunkLines_of_cut hcut
        (hunkTexts (oldStart + hunk.old.length)
          (newBefore + hunk.gap.length + hunk.new.length) hunks ++ after)
      rw [hread, parseHunks_header_file hline, if_pos hcut]
    · have hbody : ∀ line ∈ hunk.body, ¬ line.Cuts := fun line hline hcuts =>
        hcut ⟨line, hline, hcuts⟩
      rw [hunkLines_of_not_cuts hbody, List.nil_append, List.nil_append, if_neg hcut,
        DiffHunk.heardOld, DiffHunk.heardNew, heard_of_not_isCut hcut]
      cases hunks with
      | nil =>
        obtain ⟨left, hread, hleft⟩ := hunkLines_of_unrelated
          (hunk.body.flatMap DiffLine.heardOld) (hunk.body.flatMap DiffLine.heardNew) hafter
        rw [hunkTexts, List.nil_append, hread, hleft]
        rfl
      | cons next hunks =>
        have hfits' : oldStart + hunk.old.length + (oldFrom tail (next :: hunks)).length <
            2 ^ 64 := by
          rw [oldFrom, List.length_append, List.length_append] at hfits
          omega
        have hends : EndsHunk (next.header (oldStart + hunk.old.length + next.gap.length)
            (newBefore + hunk.gap.length + hunk.new.length + next.gap.length)) :=
          .inl startsWith_header
        have hnext : (parseHunks (hunkTexts (oldStart + hunk.old.length)
            (newBefore + hunk.gap.length + hunk.new.length) (next :: hunks) ++ after)).1 =
            heardHunks (oldStart + hunk.old.length) (next :: hunks) :=
          ih (List.cons_ne_nil next hunks) hfits'
        rw [← hnext, hunkTexts, List.cons_append, hunkLines, if_pos hends]

lemma parsePatchLines_other {line : Line} (h : ¬ StartsWith line "---") :
    parsePatchLines (line :: rest) = parsePatchLines rest := by
  rw [parsePatchLines.eq_def]
  dsimp only
  rw [if_neg h]

lemma parsePatchLines_file {line next : Line} (hold : StartsWith line "---")
    (hnew : StartsWith next "+++") : parsePatchLines (line :: next :: rest) =
      pushPatch (filePatch (headerFile "--- " line) (headerFile "+++ " next) (parseHunks rest).1) ++
        parsePatchLines (parseHunks rest).2 := by
  rw [parsePatchLines.eq_def]
  dsimp only
  rw [if_pos hold, if_pos hnew]

lemma parsePatchLines_append {preamble lines : List Line}
    (h : ∀ line ∈ preamble, ¬ StartsWith line "---") :
    parsePatchLines (preamble ++ lines) = parsePatchLines lines := by
  induction preamble with
  | nil => rfl
  | cons line preamble ih =>
    obtain ⟨hline, hpreamble⟩ := List.forall_mem_cons.mp h
    rw [List.cons_append, parsePatchLines_other hline, ih hpreamble]

lemma headerFile_append {start : String} {name : Line} :
    headerFile start (start.toList ++ name) = name.takeWhile fun c => c ≠ '\t' := by
  have hdrop : (start.toList ++ name).drop start.length = name := by
    rw [← String.length_toList, List.drop_left]
  rw [headerFile, stripPrefix, if_pos (List.prefix_append _ _), hdrop, Option.getD_some]

/-- The first patch of the text is a modification, with the hunks that are heard. -/
theorem parsePatchLines_lines (diff : UnifiedDiff) (hfits : diff.old.length < 2 ^ 64) :
    ∃ path more, parsePatchLines diff.lines =
      ⟨path, heardHunks 0 diff.hunks, false, false⟩ :: more := by
  have hhunks : (parseHunks (hunkTexts 0 0 diff.hunks ++ diff.after)).1 = heardHunks 0 diff.hunks :=
    parseHunks_hunkTexts diff.after_ok diff.hunks_ne_nil (by rwa [Nat.zero_add])
  have hne : heardHunks 0 diff.hunks ≠ [] := by
    cases hhunks : diff.hunks with
    | nil => exact absurd hhunks diff.hunks_ne_nil
    | cons hunk hunks =>
      rw [heardHunks]
      exact List.cons_ne_nil _ _
  have hold : StartsWith ("--- ".toList ++ diff.oldFile) "---" :=
    (List.prefix_append "---".toList [' ']).trans (List.prefix_append _ _)
  have hnew : StartsWith ("+++ ".toList ++ diff.newFile) "+++" :=
    (List.prefix_append "+++".toList [' ']).trans (List.prefix_append _ _)
  rw [UnifiedDiff.lines, parsePatchLines_append diff.preamble_ok, parsePatchLines_file hold hnew,
    hhunks, headerFile_append, headerFile_append, filePatch, decide_eq_false diff.oldFile_ok,
    decide_eq_false diff.newFile_ok, pushPatch, if_pos (.inl hne), List.singleton_append]
  exact ⟨_, _, rfl⟩

end Jcode
