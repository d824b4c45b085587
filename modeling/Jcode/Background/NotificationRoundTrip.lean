import Jcode.Background.NotificationSections

/-!
# Notifications that are read back

The notification of a plain task is read back if its names have no carriage return, its duration is
a number that is not negative, and its preview neither has an empty line nor begins with one.
-/

namespace Jcode

open Regex

namespace BackgroundTaskReport

variable (task : BackgroundTaskReport)

/-- The fields that a reader needs. -/
structure IsReadAs (parsed : ParsedBackgroundTaskNotification) : Prop where
  taskId : parsed.taskId = task.taskId
  toolName : parsed.toolName = task.toolName
  displayName : parsed.displayName = task.shownName
  status : parsed.status = formatBackgroundTaskStatus task.status
  exitLabel : parsed.exitLabel = formatExitCode task.exitCode
  preview : parsed.preview = task.preview.map String.ofList
  fullOutputCommand : parsed.fullOutputCommand = String.ofList task.fullOutputCommand

def RoundTrips : Prop :=
  ∃ parsed, parseBackgroundTaskNotificationMarkdown
    (formatBackgroundTaskNotificationMarkdown task) = some parsed ∧ task.IsReadAs parsed

structure IsReadable : Prop extends IsSingleLine task where
  duration : ∃ n, task.durationSecs = .tenths false n
  preview : ∀ preview ∈ task.preview, ¬ sectionBreak <:+: '\n' :: preview

end BackgroundTaskReport

variable {task : BackgroundTaskReport} {part shown : List Char} {parts : List (List Char)}
  {state : NotificationSections}

/-! ### Sections that give a preview -/

lemma fencedPreview_eq_some_iff {trimmed : List Char} : fencedPreview trimmed = some shown ↔
    trimmed = "```text\n".toList ++ shown ++ "\n```".toList := by
  unfold fencedPreview
  rw [Option.bind_eq_some_iff]
  constructor
  · rintro ⟨inner, hinner, hshown⟩
    rw [List.isPrefixOf?_eq_some_iff_append_eq] at hinner
    rw [List.isSuffixOf?_eq_some_iff_append_eq] at hshown
    rw [← hinner, ← hshown, List.append_assoc]
  · rintro rfl
    refine ⟨shown ++ "\n```".toList, ?_, ?_⟩
    · rw [List.isPrefixOf?_eq_some_iff_append_eq, List.append_assoc]
    · rw [List.isSuffixOf?_eq_some_iff_append_eq]

/-- A preview is of the section that is read, or of the ones before. -/
lemma preview_parseSection (h : (parseSection state part).preview = some shown) :
    state.preview = some shown ∨ fencedPreview (trimChars part) = some shown := by
  simp only [parseSection] at h
  split at h
  · exact .inl h
  · split at h
    · exact .inl h
    · split at h
      · exact .inl h
      · split at h
        · cases h
        · split at h
          · rename_i hfenced
            cases h
            exact .inr hfenced
          · exact .inl h

lemma preview_foldl_parseSection (h : (parts.foldl parseSection state).preview = some shown) :
    state.preview = some shown ∨ ∃ part ∈ parts, fencedPreview (trimChars part) = some shown := by
  induction parts generalizing state with
  | nil => exact .inl h
  | cons part parts ih =>
    rcases ih h with hpart | ⟨part', hpart', hfenced⟩
    · rcases preview_parseSection hpart with hstate | hfenced
      · exact .inl hstate
      · exact .inr ⟨part, List.mem_cons_self, hfenced⟩
    · exact .inr ⟨part', List.mem_cons_of_mem _ hpart', hfenced⟩

/-- No line gives a preview. -/
lemma IsLine.fencedPreview_eq_none (h : IsLine part) : fencedPreview (trimChars part) = none := by
  rw [Option.eq_none_iff_forall_ne_some]
  intro shown hfenced
  apply h.1
  apply (trimChars_sublist part).subset
  rw [fencedPreview_eq_some_iff.mp hfenced, List.mem_append, List.mem_append]
  left
  left
  decide

/-- Only what begins with the words of a full output is captured as one. -/
lemma captures_fullOutputRegex_eq_none {trimmed : List Char}
    (h : ¬ "_Full output:_ `".toList <+: trimmed) : fullOutputRegex.captures trimmed = none := by
  apply captures_atStart_eq_none
  intro m rest groups htrimmed hmatches
  rw [matches_seq_text] at hmatches
  obtain ⟨m', rfl, -⟩ := hmatches
  apply h
  rw [htrimmed, List.append_assoc]
  exact List.prefix_append _ _

namespace BackgroundTaskReport

lemma previewSection_eq_cons (h : shown ∈ task.preview) :
    ∃ inner, task.previewSection = backtick :: inner := by
  have hstart : "```text\n".toList = backtick :: "``text\n".toList := by decide
  refine ⟨"``text\n".toList ++ shown ++ "\n```".toList, ?_⟩
  rw [previewSection_of_some h, hstart, List.cons_append, List.cons_append]

lemma not_prefix_previewSection (h : shown ∈ task.preview) {start : List Char}
    (hstart : '_' ∈ start.head?) : ¬ start <+: task.previewSection := by
  obtain ⟨inner, hinner⟩ := previewSection_eq_cons h
  cases start with
  | nil => cases hstart
  | cons c start =>
    cases hstart
    rw [hinner, List.cons_prefix_cons]
    rintro ⟨hc, -⟩
    exact absurd hc (by decide)

lemma trimChars_previewSection (h : shown ∈ task.preview) :
    trimChars task.previewSection = task.previewSection := by
  have hquote : isWhitespace backtick = false := by decide
  have hlast : "\n```".toList.getLast? = some backtick := by decide
  apply trimChars_eq
  · obtain ⟨inner, hinner⟩ := previewSection_eq_cons h
    rintro c hc
    rw [hinner] at hc
    cases hc
    exact hquote
  · rintro c hc
    rw [previewSection_of_some h, List.getLast?_append_of_ne_nil _ (by decide), hlast] at hc
    cases hc
    exact hquote

/-- The section of the preview gives it, whatever was read before. -/
lemma parseSection_previewSection :
    (parseSection state task.previewSection).preview = task.preview := by
  cases hshown : task.preview with
  | none =>
    have htrim : trimChars "_No output captured._".toList = "_No output captured._".toList := by
      decide
    have hne : ¬ "_No output captured._".toList = [] := by decide
    have hfull : fullOutputRegex.captures "_No output captured._".toList = none :=
      captures_fullOutputRegex_eq_none (by decide)
    have hfailure : "_Failure:_ ".toList.isPrefixOf? "_No output captured._".toList = none := by
      decide
    rw [previewSection_of_none hshown]
    simp only [parseSection, htrim, if_neg hne, hfull, hfailure, if_true]
  | some shown =>
    have hne : ¬ task.previewSection = [] := by
      obtain ⟨inner, hinner⟩ := previewSection_eq_cons hshown
      rw [hinner]
      exact List.cons_ne_nil _ _
    have hfull : fullOutputRegex.captures task.previewSection = none :=
      captures_fullOutputRegex_eq_none (not_prefix_previewSection hshown (by decide))
    have hfailure : "_Failure:_ ".toList.isPrefixOf? task.previewSection = none := by
      rw [Option.eq_none_iff_forall_ne_some]
      intro summary hsummary
      rw [List.isPrefixOf?_eq_some_iff_append_eq] at hsummary
      exact not_prefix_previewSection hshown (by decide) ⟨summary, hsummary⟩
    have houtput : ¬ task.previewSection = "_No output captured._".toList := by
      intro heq
      have hstart : "_No output captured._".toList <+: task.previewSection := by rw [heq]
      exact not_prefix_previewSection hshown (by decide) hstart
    have hfenced : fencedPreview task.previewSection = some shown :=
      fencedPreview_eq_some_iff.mpr (previewSection_of_some hshown)
    simp only [parseSection, trimChars_previewSection hshown, if_neg hne, hfull, hfailure,
      if_neg houtput, hfenced]

/-- The sections before the full output, as they are read. -/
def readSections (task : BackgroundTaskReport) : NotificationSections :=
  parseSections (task.failureSection.toList ++ splitAll sectionBreak task.previewSection)

/-- A preview is read as it is where its section is one piece, and shorter where it is cut. -/
lemma preview_readSections_iff : task.readSections.preview = task.preview ↔
    ∀ preview ∈ task.preview, ¬ sectionBreak <:+: '\n' :: preview := by
  unfold readSections parseSections
  constructor
  · intro hread shown hshown hinfix
    rw [Option.mem_def.mp hshown] at hread
    have hcut := (infix_previewSection hshown).mpr hinfix
    rcases preview_foldl_parseSection hread with hnone | ⟨part, hpart, hfenced⟩
    · cases hnone
    rcases List.mem_append.mp hpart with hpart | hpart
    · rw [Option.mem_toList] at hpart
      rw [(isLine_failureSection part hpart).fencedPreview_eq_none] at hfenced
      cases hfenced
    · obtain ⟨hwithin, hnone⟩ := of_mem_splitAll sectionBreak_ne_nil hpart
      have htrim := trimChars_sublist part
      rw [fencedPreview_eq_some_iff.mp hfenced, ← previewSection_of_some hshown] at htrim
      have heq := hwithin.sublist.antisymm htrim
      rw [heq] at hnone
      exact hnone hcut
  · intro hwhole
    have hpieces : splitAll sectionBreak task.previewSection = [task.previewSection] := by
      cases hshown : task.preview with
      | none => exact (isLine_previewSection hshown).splitAll_eq
      | some shown =>
        apply splitAll_of_none sectionBreak_ne_nil
        rw [infix_previewSection hshown]
        exact hwhole shown hshown
    rw [hpieces, List.foldl_append, List.foldl_cons, List.foldl_nil]
    exact parseSection_previewSection

/-! ### The full output -/

lemma matches_fullOutputRegex {m rest : List Char} {groups : List (String × List Char)} :
    Matches fullOutputRegex none m rest groups ↔
      ∃ command, m = "_Full output:_ `".toList ++ (command ++ "`".toList) ∧ rest = [] ∧
        groups = [("command", command)] ∧ IsQuotable command := by
  simp only [fullOutputRegex, atStart, matches_seq_behind, matches_seq_text, matches_seq_group,
    matches_many, matches_atEnd, IsQuotable, ← List.length_pos_iff]
  constructor
  · rintro ⟨-, _, rfl, command, _, _, _, rfl, rfl, ⟨hlength, hquotes, rfl⟩, _, rfl, rfl, rfl, rfl⟩
    exact ⟨command, by rw [List.append_nil], rfl, rfl, hlength, hquotes⟩
  · rintro ⟨command, rfl, rfl, rfl, hcommand⟩
    exact ⟨rfl, _, rfl, command, _, [], _, rfl, rfl, ⟨hcommand.1, hcommand.2, rfl⟩, [],
      (List.append_nil _).symm, rfl, rfl, rfl⟩

lemma captures_fullOutputRegex {command : List Char} (h : IsQuotable command) :
    fullOutputRegex.captures ("_Full output:_ `".toList ++ (command ++ "`".toList)) =
      some [("command", command)] := by
  have hmatches := matches_fullOutputRegex.mpr ⟨command, rfl, rfl, rfl, h⟩
  have hcaptures := captures_of_unique hmatches
  rw [List.append_nil] at hcaptures
  apply hcaptures
  intro hit hhit
  obtain ⟨hsection, hhit⟩ := mem_runs.mp hhit
  obtain ⟨command', hmatched, hrest, hgroups, h'⟩ := matches_fullOutputRegex.mp hhit
  rw [hmatched, hrest, List.append_nil] at hsection
  obtain ⟨rfl, -⟩ := LineLog.append_cons_injective h.notMem h'.notMem
    (List.append_cancel_left hsection)
  rw [hgroups]

lemma IsPlain.isQuotable_fullOutputCommand (h : task.IsPlain) :
    IsQuotable task.fullOutputCommand := by
  have hid := h.taskId.isQuotable
  have hcommand : ∀ c ∈ "bg action=\"output\" task_id=\"".toList, notBacktick c :=
    forall_mem_of_all (by decide)
  have hquote : ∀ c ∈ "\"".toList, notBacktick c := forall_mem_of_all (by decide)
  delta fullOutputCommand
  refine ⟨by simp, ?_⟩
  simp only [List.forall_mem_append]
  exact ⟨⟨hcommand, hid.2⟩, hquote⟩

/-- The last section gives the command, whatever was read before. -/
lemma IsPlain.parseSection_fullOutputSection (h : task.IsPlain) :
    parseSection state task.fullOutputSection =
      { state with fullOutputCommand := some task.fullOutputCommand } := by
  have hstart : "_Full output:_ `".toList = '_' :: "Full output:_ `".toList := by decide
  have hlast : "`".toList.getLast? = some backtick := by decide
  have hsection : task.fullOutputSection =
      "_Full output:_ `".toList ++ (task.fullOutputCommand ++ "`".toList) := by
    delta fullOutputSection
    rw [List.append_assoc]
  have htrim : trimChars task.fullOutputSection = task.fullOutputSection := by
    rw [hsection]
    apply trimChars_eq
    · rintro c hc
      rw [hstart] at hc
      cases hc
      decide
    · rintro c hc
      rw [← List.append_assoc, List.getLast?_append_of_ne_nil _ (by decide), hlast] at hc
      cases hc
      decide
  have hne : ¬ task.fullOutputSection = [] := by
    rw [hsection, hstart]
    exact List.cons_ne_nil _ _
  have hcaptures := captures_fullOutputRegex h.isQuotable_fullOutputCommand
  rw [← hsection] at hcaptures
  simp only [parseSection, htrim, if_neg hne, hcaptures]
  rfl

/-! ### The header -/

lemma getLast?_formatExitCode (code : Option Int) :
    ∀ c ∈ (formatExitCode code).toList.getLast?, isWhitespace c = false := by
  have hrepr : ∀ n : Nat, ∀ c ∈ (Nat.repr n).toList.getLast?, isWhitespace c = false := by
    intro n c hc
    apply isWhitespace_of_isDigit
    rw [Nat.toList_repr] at hc
    exact Nat.isDigit_of_mem_toDigits (by decide) (by decide) (List.mem_of_mem_getLast? hc)
  have hne : ∀ n : Nat, (Nat.repr n).toList ≠ [] := by
    intro n
    rw [Nat.toList_repr]
    exact Nat.toDigits_ne_nil
  cases code with
  | none =>
    rintro c ⟨⟩
    rfl
  | some code =>
    rw [formatExitCode, String.toList_append]
    cases code with
    | ofNat n =>
      have hnat : toString (Int.ofNat n) = Nat.repr n := rfl
      rw [hnat, List.getLast?_append_of_ne_nil _ (hne n)]
      exact hrepr n
    | negSucc n =>
      have hneg : toString (Int.negSucc n) = "-" ++ Nat.repr (n + 1) := rfl
      rw [hneg, String.toList_append, ← List.append_assoc,
        List.getLast?_append_of_ne_nil _ (hne (n + 1))]
      exact hrepr (n + 1)

lemma formatExitCode_ne_nil (code : Option Int) : (formatExitCode code).toList ≠ [] := by
  cases code with
  | none => decide
  | some code => simp [formatExitCode]

lemma IsPlain.trimChars_header (h : task.IsPlain) : trimChars task.header = task.fields.text := by
  have hstart : "**Background task** `".toList = '*' :: "*Background task** `".toList := by decide
  have hdot : " · ".toList.getLast? = some ' ' := by decide
  rw [h.header_eq]
  apply trimChars_eq
  · intro c hc
    rw [HeaderFields.text_eq, hstart] at hc
    cases hc
    decide
  · intro c hc
    apply getLast?_formatExitCode task.exitCode
    have hne : task.fields.exitLabel ≠ [] := formatExitCode_ne_nil task.exitCode
    rw [HeaderFields.text_eq] at hc
    simp only [← List.append_assoc] at hc
    rwa [List.getLast?_append_of_ne_nil _ hne] at hc

/-! ### The notification -/

lemma IsPlain.splitAll_eq (h : task.IsPlain) (hline : task.IsSingleLine) :
    splitAll sectionBreak
        (normalizeLineEnds (formatBackgroundTaskNotificationMarkdown task).toList) =
      task.header :: ((task.failureSection.toList ++ splitAll sectionBreak task.previewSection) ++
        [task.fullOutputSection]) := by
  rw [formatBackgroundTaskNotificationMarkdown, String.toList_ofList,
    normalizeLineEnds_eq (carriageReturn_notMem_notification h hline),
    splitAll_notification h hline]

/-- What is read of the notification of a plain task. -/
def parsed (task : BackgroundTaskReport) : ParsedBackgroundTaskNotification where
  taskId := task.taskId
  toolName := task.toolName
  displayName := task.shownName
  status := formatBackgroundTaskStatus task.status
  duration := String.ofList (task.durationSecs.text.toList ++ "s".toList)
  exitLabel := formatExitCode task.exitCode
  failureSummary := task.readSections.failureSummary.map String.ofList
  preview := task.readSections.preview.map String.ofList
  fullOutputCommand := String.ofList task.fullOutputCommand

lemma IsPlain.parse_eq (h : task.IsPlain) (hline : task.IsSingleLine)
    (haccepted : task.fields.Accepted) :
    parseBackgroundTaskNotificationMarkdown (formatBackgroundTaskNotificationMarkdown task) =
      some task.parsed := by
  have hcaptures := HeaderFields.captures_text (h.undotted hline) haccepted
  have hsections : parseSections ((task.failureSection.toList ++
      splitAll sectionBreak task.previewSection) ++ [task.fullOutputSection]) =
        { task.readSections with fullOutputCommand := some task.fullOutputCommand } := by
    rw [parseSections, List.foldl_append, List.foldl_cons, List.foldl_nil]
    exact h.parseSection_fullOutputSection
  unfold parseBackgroundTaskNotificationMarkdown
  rw [h.splitAll_eq hline]
  simp only [h.trimChars_header, hcaptures, Option.bind_some, hsections, Option.map_some]
  have hlabel : groupNamed "label" task.fields.groups = task.label := rfl
  have hid : groupNamed "task_id" task.fields.groups = task.taskId.toList := rfl
  have hstatus : groupNamed "status" task.fields.groups =
      (formatBackgroundTaskStatus task.status).toList := rfl
  have hduration : groupNamed "duration" task.fields.groups =
      task.durationSecs.text.toList ++ "s".toList := rfl
  have hexit : groupNamed "exit_label" task.fields.groups =
      (formatExitCode task.exitCode).toList := rfl
  have hname : (task.shownName.map String.toList).map String.ofList = task.shownName := by
    rw [Option.map_map]
    simp [Function.comp_def]
  simp only [hlabel, h.parse_label, hid, hstatus, hduration, hexit, hname, String.ofList_toList,
    parsed]

/-- Without carriage returns the notification is read if its header is accepted. -/
lemma IsPlain.accepted_of_parse (h : task.IsPlain) (hline : task.IsSingleLine)
    {parsed : ParsedBackgroundTaskNotification}
    (hparse : parseBackgroundTaskNotificationMarkdown
      (formatBackgroundTaskNotificationMarkdown task) = some parsed) : task.fields.Accepted := by
  apply HeaderFields.accepted_of_captures (h.undotted hline)
  intro hnone
  unfold parseBackgroundTaskNotificationMarkdown at hparse
  rw [h.splitAll_eq hline] at hparse
  simp only [h.trimChars_header, hnone, Option.bind_none] at hparse
  cases hparse

end BackgroundTaskReport

/-! ### Carriage returns -/

lemma parseBackgroundTaskHeaderLabel_subset (label : List Char) :
    (parseBackgroundTaskHeaderLabel label).1 ⊆ label ∧
      ∀ name ∈ (parseBackgroundTaskHeaderLabel label).2, name ⊆ label := by
  unfold parseBackgroundTaskHeaderLabel
  cases hnamed : namedRegex.captures label with
  | some groups =>
    refine ⟨groupNamed_subset hnamed _, ?_⟩
    rintro name ⟨⟩
    exact groupNamed_subset hnamed _
  | none =>
    cases htool : toolRegex.captures label with
    | some groups =>
      refine ⟨groupNamed_subset htool _, ?_⟩
      rintro name ⟨⟩
    | none =>
      refine ⟨(trimChars_sublist label).subset, ?_⟩
      rintro name ⟨⟩

/-- The names that are read have no carriage return, whatever the text is. -/
lemma carriageReturn_notMem_parsed {content : String} {parsed : ParsedBackgroundTaskNotification}
    (h : parseBackgroundTaskNotificationMarkdown content = some parsed) :
    '\r' ∉ parsed.taskId.toList ∧ '\r' ∉ parsed.toolName.toList ∧
      ∀ name ∈ parsed.displayName, '\r' ∉ name.toList := by
  unfold parseBackgroundTaskNotificationMarkdown at h
  cases hpieces : splitAll sectionBreak (normalizeLineEnds content.toList) with
  | nil =>
    rw [hpieces] at h
    cases h
  | cons header parts =>
    rw [hpieces] at h
    obtain ⟨groups, hcaptures, h⟩ := Option.bind_eq_some_iff.mp h
    obtain ⟨command, -, rfl⟩ := Option.map_eq_some_iff.mp h
    have hheader : '\r' ∉ trimChars header := by
      intro hmem
      have hpiece : header ∈ splitAll sectionBreak (normalizeLineEnds content.toList) := by
        rw [hpieces]
        exact List.mem_cons_self
      have hwithin := (of_mem_splitAll sectionBreak_ne_nil hpiece).1
      exact carriageReturn_notMem_normalizeLineEnds
        (hwithin.subset ((trimChars_sublist header).subset hmem))
    have hgroup : ∀ name, '\r' ∉ groupNamed name groups :=
      fun name hmem => hheader (groupNamed_subset hcaptures name hmem)
    obtain ⟨htool, hname⟩ := parseBackgroundTaskHeaderLabel_subset (groupNamed "label" groups)
    refine ⟨?_, ?_, ?_⟩
    · rw [String.toList_ofList]
      exact hgroup _
    · rw [String.toList_ofList]
      exact fun hmem => hgroup _ (htool hmem)
    · intro name hmem
      obtain ⟨chars, hchars, rfl⟩ := Option.mem_map.mp hmem
      rw [String.toList_ofList]
      exact fun hmem => hgroup _ (hname chars hchars hmem)

/-! ### Round trips -/

namespace BackgroundTaskReport

lemma IsReadAs.isSingleLine {content : String} {parsed : ParsedBackgroundTaskNotification}
    (h : task.IsReadAs parsed)
    (hparse : parseBackgroundTaskNotificationMarkdown content = some parsed) :
    task.IsSingleLine := by
  obtain ⟨hid, htool, hname⟩ := carriageReturn_notMem_parsed hparse
  rw [h.taskId] at hid
  rw [h.toolName] at htool
  rw [h.displayName] at hname
  exact ⟨hid, htool, hname⟩

lemma ofList_map_inj {x y : Option (List Char)}
    (h : x.map String.ofList = y.map String.ofList) : x = y :=
  Option.map_injective (fun _ _ heq => String.ofList_injective heq) h

lemma IsPlain.isReadable (h : task.IsPlain) (hround : task.RoundTrips) : task.IsReadable := by
  obtain ⟨parsed, hparse, hread⟩ := hround
  have hline := hread.isSingleLine hparse
  have haccepted := h.accepted_of_parse hline hparse
  rw [h.parse_eq hline haccepted] at hparse
  cases hparse
  exact ⟨hline, (h.accepted_iff hline).mp haccepted,
    preview_readSections_iff.mp (ofList_map_inj hread.preview)⟩

lemma IsPlain.roundTrips (h : task.IsPlain) (hreadable : task.IsReadable) : task.RoundTrips := by
  have hline := hreadable.toIsSingleLine
  have haccepted := (h.accepted_iff hline).mpr hreadable.duration
  refine ⟨task.parsed, h.parse_eq hline haccepted, rfl, rfl, rfl, rfl, rfl, ?_, rfl⟩
  have hpreview := preview_readSections_iff.mpr hreadable.preview
  show task.readSections.preview.map String.ofList = task.preview.map String.ofList
  rw [hpreview]

/-- The notification of a plain task is read back exactly if it is readable. -/
theorem roundTrips_iff (h : task.IsPlain) : task.RoundTrips ↔ task.IsReadable :=
  ⟨h.isReadable, h.roundTrips⟩

end BackgroundTaskReport

/-- A finished task with two lines of output and `gap` between them. -/
def testsWithGap (gap : String) : BackgroundTaskReport where
  taskId := "bg1"
  toolName := "bash"
  displayName := some "tests"
  sessionId := "s1"
  status := .completed
  exitCode := some 0
  notify := true
  wake := false
  outputPreview := "1 passed" ++ gap ++ "0 failed\n"
  durationSecs := .tenths false 15

lemma isPlain_testsWithGap (gap : String) : (testsWithGap gap).IsPlain := by
  have hid : IsPlainName "bg1" := by decide
  have htool : IsPlainName "bash" := by decide
  have hname : IsPlainName "tests" := by decide
  refine ⟨hid, htool, ?_⟩
  rintro name ⟨⟩
  exact hname

lemma normalizeBackgroundTaskPreview_eq {preview : String} {trimmed : List Char}
    (hreturn : '\r' ∉ preview.toList) (htrimmed : preview.toList.rdropWhile isWhitespace = trimmed)
    (hne : trimChars trimmed ≠ []) (hfence : ¬ fence <:+: trimmed) :
    normalizeBackgroundTaskPreview preview = some trimmed := by
  simp only [normalizeBackgroundTaskPreview, normalizeLineEnds_eq hreturn, htrimmed, if_neg hne,
    sanitizeFencedBlock, replaceAll_of_none fence_ne_nil hfence]

theorem roundTrips_testsWithGap : (testsWithGap "\n").RoundTrips := by
  have hpreview : (testsWithGap "\n").preview = some "1 passed\n0 failed".toList :=
    normalizeBackgroundTaskPreview_eq (by decide) (by decide) (by decide) (by decide)
  have hshown : (testsWithGap "\n").shownName = some "tests" := by decide
  refine BackgroundTaskReport.roundTrips_iff (isPlain_testsWithGap "\n") |>.mpr
    ⟨⟨by decide, by decide, ?_⟩, ⟨15, rfl⟩, ?_⟩
  · rw [hshown]
    decide
  · rw [hpreview]
    rintro preview ⟨⟩
    decide

/-- An output with an empty line is not read back. -/
theorem not_roundTrips : ¬ ∀ task : BackgroundTaskReport, task.IsPlain → task.RoundTrips := by
  intro h
  have hplain := isPlain_testsWithGap "\n\n"
  have hpreview : (testsWithGap "\n\n").preview = some "1 passed\n\n0 failed".toList :=
    normalizeBackgroundTaskPreview_eq (by decide) (by decide) (by decide) (by decide)
  have hreadable := hplain.isReadable (h _ hplain)
  apply hreadable.preview _ hpreview
  decide

end Jcode
