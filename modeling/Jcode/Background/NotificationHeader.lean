import Jcode.Background.NotificationText
import Jcode.Foundation.LineLog

/-!
# The header of a notification

The fields of the header stand between middle dots. Where no field has one there is one way to read
the header.
-/

namespace Jcode

open Regex

variable {m rest duration label name name' : List Char} {prev : Option Char}
  {g inner : List (String × List Char)}

/-! ### Durations -/

/-- `[0-9]+(?:\.[0-9]+)?s` -/
def IsDuration (duration : List Char) : Prop :=
  ∃ whole fraction : List Char, 1 ≤ whole.length ∧ (∀ c ∈ whole, c.isDigit) ∧
    (fraction = [] ∨ ∃ digits : List Char, 1 ≤ digits.length ∧ (∀ c ∈ digits, c.isDigit) ∧
      fraction = ".".toList ++ digits) ∧ duration = whole ++ (fraction ++ "s".toList)

lemma matches_durationRegex :
    Matches durationRegex prev m rest inner ↔ IsDuration m ∧ inner = [] := by
  unfold durationRegex IsDuration
  rw [matches_seq_many]
  constructor
  · rintro ⟨whole, _, rfl, hlength, hdigits, hrest⟩
    cases hrest with
    | seq hfraction hs =>
      cases hs
      cases hfraction with
      | left hfraction =>
        rw [matches_seq_text] at hfraction
        obtain ⟨digits, rfl, hfraction⟩ := hfraction
        cases hfraction with
        | many hleast hall =>
          exact ⟨⟨whole, _, hlength, hdigits, .inr ⟨digits, hleast, hall, rfl⟩, rfl⟩, rfl⟩
      | right hfraction =>
        cases hfraction
        exact ⟨⟨whole, _, hlength, hdigits, .inl rfl, rfl⟩, rfl⟩
  · rintro ⟨⟨whole, fraction, hlength, hdigits, hfraction, rfl⟩, rfl⟩
    refine ⟨whole, _, rfl, hlength, hdigits, ?_⟩
    rcases hfraction with rfl | ⟨digits, hleast, hall, rfl⟩
    · exact .seq (.right .empty) .text
    · have hmatches : Matches (.either (.seq (.text ".".toList) (.many true 1 Char.isDigit)) .empty)
          (whole.getLast?.or prev) (".".toList ++ digits) ("s".toList ++ rest) [] :=
        .left (matches_seq_text.mpr ⟨digits, rfl, .many hleast hall⟩)
      exact .seq hmatches .text

/-! ### Headers -/

/-- The fields of a header. -/
structure HeaderFields where
  taskId : List Char
  label : List Char
  status : List Char
  duration : List Char
  exitLabel : List Char

namespace HeaderFields

/-- The parts between the middle dots. -/
def parts (fields : HeaderFields) : List (List Char) :=
  ["**Background task** `".toList ++ fields.taskId ++ "` ".toList,
    " ".toList ++ fields.label ++ " ".toList, " ".toList ++ fields.status ++ " ".toList,
    " ".toList ++ fields.duration ++ " ".toList, " ".toList ++ fields.exitLabel]

def text (fields : HeaderFields) : List Char := [middleDot].intercalate fields.parts

def groups (fields : HeaderFields) : List (String × List Char) :=
  [("task_id", fields.taskId), ("label", fields.label), ("status", fields.status),
    ("duration", fields.duration), ("exit_label", fields.exitLabel)]

/-- What the groups of the header match. -/
structure Accepted (fields : HeaderFields) : Prop where
  taskId : 1 ≤ fields.taskId.length ∧ ∀ c ∈ fields.taskId, notBacktick c
  label : 1 ≤ fields.label.length ∧ ∀ c ∈ fields.label, notLineFeed c
  status : 1 ≤ fields.status.length ∧ ∀ c ∈ fields.status, notLineFeed c
  duration : IsDuration fields.duration
  exitLabel : 1 ≤ fields.exitLabel.length ∧ ∀ c ∈ fields.exitLabel, notLineFeed c

def all (fields : HeaderFields) : List Char :=
  fields.taskId ++ fields.label ++ fields.status ++ fields.duration ++ fields.exitLabel

variable {fields fields' : HeaderFields}

lemma text_eq : fields.text = "**Background task** `".toList ++ (fields.taskId ++
    ("` · ".toList ++ (fields.label ++ (" · ".toList ++ (fields.status ++ (" · ".toList ++
      (fields.duration ++ (" · ".toList ++ fields.exitLabel)))))))) := by
  have hdot : " · ".toList = ' ' :: middleDot :: [' '] := by decide
  have hquote : "` · ".toList = backtick :: ' ' :: middleDot :: [' '] := by decide
  have hspace : " ".toList = [' '] := by decide
  have hend : "` ".toList = [backtick, ' '] := by decide
  simp [text, parts, List.intercalate, hdot, hquote, hspace, hend]

lemma matches_headerRegex : Matches headerRegex none m rest g ↔
    ∃ fields : HeaderFields, m = fields.text ∧ rest = [] ∧ g = fields.groups ∧
      fields.Accepted := by
  simp only [headerRegex, atStart, matches_seq_behind, matches_seq_text, matches_seq_group,
    matches_many, matches_durationRegex, matches_atEnd]
  constructor
  · rintro ⟨-, _, rfl, taskId, _, _, _, rfl, rfl, ⟨hid, hids, rfl⟩, _, rfl, label, _, _, _, rfl,
      rfl, ⟨hlabel, hlabels, rfl⟩, _, rfl, status, _, _, _, rfl, rfl, ⟨hstatus, hstatuses, rfl⟩, _,
      rfl, duration, _, _, _, rfl, rfl, ⟨hduration, rfl⟩, _, rfl, exitLabel, _, _, _, rfl, rfl,
      ⟨hexit, hexits, rfl⟩, rfl, rfl, rfl⟩
    refine ⟨⟨taskId, label, status, duration, exitLabel⟩, ?_, rfl, rfl,
      ⟨hid, hids⟩, ⟨hlabel, hlabels⟩, ⟨hstatus, hstatuses⟩, hduration, hexit, hexits⟩
    rw [text_eq, List.append_nil]
  · rintro ⟨fields, rfl, rfl, rfl, h⟩
    exact ⟨rfl, _, text_eq, fields.taskId, _, [], _, rfl, rfl, ⟨h.taskId.1, h.taskId.2, rfl⟩, _,
      rfl, fields.label, _, [], _, rfl, rfl, ⟨h.label.1, h.label.2, rfl⟩, _, rfl, fields.status, _,
      [], _, rfl, rfl, ⟨h.status.1, h.status.2, rfl⟩, _, rfl, fields.duration, _, [], _, rfl, rfl,
      ⟨h.duration, rfl⟩, _, rfl, fields.exitLabel, [], [], [], (List.append_nil _).symm, rfl,
      ⟨h.exitLabel.1, h.exitLabel.2, rfl⟩, rfl, rfl, rfl⟩

lemma notMem_parts (hundotted : middleDot ∉ fields.all) :
    ∀ part ∈ fields.parts, middleDot ∉ part := by
  simp only [all, List.mem_append, not_or] at hundotted
  obtain ⟨⟨⟨⟨hid, hlabel⟩, hstatus⟩, hduration⟩, hexit⟩ := hundotted
  have hopening : middleDot ∉ "**Background task** `".toList := by decide
  have hquote : middleDot ∉ "` ".toList := by decide
  have hspace : middleDot ∉ " ".toList := by decide
  simp only [parts, List.forall_mem_cons, List.mem_append, not_or]
  exact ⟨⟨⟨hopening, hid⟩, hquote⟩, ⟨⟨hspace, hlabel⟩, hspace⟩, ⟨⟨hspace, hstatus⟩, hspace⟩,
    ⟨⟨hspace, hduration⟩, hspace⟩, ⟨hspace, hexit⟩, fun _ hnil => nomatch hnil⟩

lemma count_text : fields.text.count middleDot = 4 + fields.all.count middleDot := by
  have hopening : ("**Background task** `".toList).count middleDot = 0 := by decide
  have hquote : ("` · ".toList).count middleDot = 1 := by decide
  have hdot : (" · ".toList).count middleDot = 1 := by decide
  simp only [text_eq, all, List.count_append, hopening, hquote, hdot]
  omega

/-- A header whose fields have no middle dot is read in one way. -/
lemma eq_of_text_eq (hundotted : middleDot ∉ fields.all) (h : fields'.text = fields.text) :
    fields' = fields := by
  have hundotted' : middleDot ∉ fields'.all := by
    rw [← List.count_eq_zero] at hundotted ⊢
    have hcount := fields.count_text
    have hcount' := fields'.count_text
    rw [h] at hcount'
    omega
  have hparts : fields'.parts = fields.parts := by
    rw [← List.splitOn_intercalate middleDot (notMem_parts hundotted') (List.cons_ne_nil _ _)]
    rw [← text, h, text]
    exact List.splitOn_intercalate middleDot (notMem_parts hundotted) (List.cons_ne_nil _ _)
  obtain ⟨taskId, label, status, duration, exitLabel⟩ := fields
  obtain ⟨taskId', label', status', duration', exitLabel'⟩ := fields'
  simpa [parts] using hparts

/-- What is captured of a header whose fields have no middle dot. -/
lemma captures_text (hundotted : middleDot ∉ fields.all) (h : fields.Accepted) :
    headerRegex.captures fields.text = some fields.groups := by
  have hmatches : Matches headerRegex none fields.text [] fields.groups :=
    matches_headerRegex.mpr ⟨fields, rfl, rfl, rfl, h⟩
  have hcaptures := captures_of_unique hmatches
  rw [List.append_nil] at hcaptures
  apply hcaptures
  intro hit hhit
  obtain ⟨htext, hhit⟩ := mem_runs.mp hhit
  obtain ⟨fields', hmatched, hrest, hgroups, -⟩ := matches_headerRegex.mp hhit
  rw [hmatched, hrest, List.append_nil] at htext
  rw [hgroups, eq_of_text_eq hundotted htext.symm]

/-- A header that is captured at all has fields that are accepted. -/
lemma accepted_of_captures (hundotted : middleDot ∉ fields.all)
    (h : headerRegex.captures fields.text ≠ none) : fields.Accepted := by
  by_contra hnot
  apply h
  apply captures_atStart_eq_none
  intro m rest g htext hmatches
  have hheader : Matches headerRegex none m rest g := by
    unfold headerRegex
    rw [atStart, matches_seq_behind]
    exact ⟨rfl, hmatches⟩
  obtain ⟨fields', rfl, rfl, -, haccepted⟩ := matches_headerRegex.mp hheader
  rw [List.append_nil] at htext
  rw [eq_of_text_eq hundotted htext.symm] at haccepted
  exact hnot haccepted

end HeaderFields

/-! ### Labels -/

/-- A name that a group without backticks matches. -/
def IsQuotable (name : List Char) : Prop := name ≠ [] ∧ ∀ c ∈ name, notBacktick c

lemma IsQuotable.notMem (h : IsQuotable name) : backtick ∉ name := by
  intro hmem
  have hc := h.2 backtick hmem
  simp [notBacktick] at hc

lemma matches_namedRegex : Matches namedRegex none m rest g ↔
    ∃ displayName toolName, m = "`".toList ++ (displayName ++ ("` (`".toList ++
      (toolName ++ "`)".toList))) ∧ rest = [] ∧
        g = [("display_name", displayName), ("tool_name", toolName)] ∧
        IsQuotable displayName ∧ IsQuotable toolName := by
  simp only [namedRegex, atStart, matches_seq_behind, matches_seq_text, matches_seq_group,
    matches_many, matches_atEnd, IsQuotable, ← List.length_pos_iff]
  constructor
  · rintro ⟨-, _, rfl, displayName, _, _, _, rfl, rfl, ⟨hdisplay, hdisplays, rfl⟩, _, rfl,
      toolName, _, _, _, rfl, rfl, ⟨htool, htools, rfl⟩, _, rfl, rfl, rfl, rfl⟩
    exact ⟨displayName, toolName, by rw [List.append_nil], rfl, rfl, ⟨hdisplay, hdisplays⟩,
      htool, htools⟩
  · rintro ⟨displayName, toolName, rfl, rfl, rfl, hdisplay, htool⟩
    exact ⟨rfl, _, rfl, displayName, _, [], _, rfl, rfl, ⟨hdisplay.1, hdisplay.2, rfl⟩, _, rfl,
      toolName, _, [], _, rfl, rfl, ⟨htool.1, htool.2, rfl⟩, [], (List.append_nil _).symm, rfl, rfl,
      rfl⟩

lemma matches_toolRegex : Matches toolRegex none m rest g ↔
    ∃ toolName, m = "`".toList ++ (toolName ++ "`".toList) ∧ rest = [] ∧
      g = [("tool_name", toolName)] ∧ IsQuotable toolName := by
  simp only [toolRegex, atStart, matches_seq_behind, matches_seq_text, matches_seq_group,
    matches_many, matches_atEnd, IsQuotable, ← List.length_pos_iff]
  constructor
  · rintro ⟨-, _, rfl, toolName, _, _, _, rfl, rfl, ⟨htool, htools, rfl⟩, _, rfl, rfl, rfl, rfl⟩
    exact ⟨toolName, by rw [List.append_nil], rfl, rfl, htool, htools⟩
  · rintro ⟨toolName, rfl, rfl, rfl, htool⟩
    exact ⟨rfl, _, rfl, toolName, _, [], _, rfl, rfl, ⟨htool.1, htool.2, rfl⟩, [],
      (List.append_nil _).symm, rfl, rfl, rfl⟩

/-- A quoted name ends at the first backtick. -/
lemma eq_of_quoted {more more' : List Char} (hname : IsQuotable name) (hname' : IsQuotable name')
    (h : "`".toList ++ (name ++ backtick :: more) = "`".toList ++ (name' ++ backtick :: more')) :
    name = name' ∧ more = more' :=
  LineLog.append_cons_injective hname.notMem hname'.notMem (List.append_cancel_left h)

lemma parse_namedLabel {displayName toolName : List Char} (hdisplay : IsQuotable displayName)
    (htool : IsQuotable toolName) :
    parseBackgroundTaskHeaderLabel ("`".toList ++ (displayName ++ ("` (`".toList ++
      (toolName ++ "`)".toList)))) = (toolName, some displayName) := by
  have hmatches := matches_namedRegex.mpr ⟨displayName, toolName, rfl, rfl, rfl, hdisplay, htool⟩
  have hcaptures := captures_of_unique hmatches
  rw [List.append_nil] at hcaptures
  rw [parseBackgroundTaskHeaderLabel, hcaptures]
  · rfl
  · intro hit hhit
    obtain ⟨hlabel, hhit⟩ := mem_runs.mp hhit
    obtain ⟨displayName', toolName', hmatched, hrest, hgroups, hdisplay', htool'⟩ :=
      matches_namedRegex.mp hhit
    rw [hmatched, hrest, List.append_nil] at hlabel
    obtain ⟨rfl, hmore⟩ := eq_of_quoted hdisplay hdisplay' hlabel
    obtain ⟨rfl, -⟩ := LineLog.append_cons_injective htool.notMem htool'.notMem
      (List.append_cancel_left hmore)
    rw [hgroups]

lemma parse_toolLabel {toolName : List Char} (htool : IsQuotable toolName) :
    parseBackgroundTaskHeaderLabel ("`".toList ++ (toolName ++ "`".toList)) = (toolName, none) := by
  have hnamed : namedRegex.captures ("`".toList ++ (toolName ++ "`".toList)) = none := by
    apply captures_atStart_eq_none
    intro m rest g hlabel hmatches
    have hnamed : Matches namedRegex none m rest g := by
      unfold namedRegex
      rw [atStart, matches_seq_behind]
      exact ⟨rfl, hmatches⟩
    obtain ⟨displayName', toolName', rfl, rfl, -, hdisplay', -⟩ := matches_namedRegex.mp hnamed
    rw [List.append_nil] at hlabel
    obtain ⟨-, hmore⟩ := eq_of_quoted htool hdisplay' hlabel
    cases hmore
  have hmatches := matches_toolRegex.mpr ⟨toolName, rfl, rfl, rfl, htool⟩
  have hcaptures := captures_of_unique hmatches
  rw [List.append_nil] at hcaptures
  rw [parseBackgroundTaskHeaderLabel, hnamed, hcaptures]
  · rfl
  · intro hit hhit
    obtain ⟨hlabel, hhit⟩ := mem_runs.mp hhit
    obtain ⟨toolName', hmatched, hrest, hgroups, htool'⟩ := matches_toolRegex.mp hhit
    rw [hmatched, hrest, List.append_nil] at hlabel
    obtain ⟨rfl, -⟩ := eq_of_quoted htool htool' hlabel
    rw [hgroups]

end Jcode
