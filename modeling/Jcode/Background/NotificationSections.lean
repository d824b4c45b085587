import Jcode.Background.NotificationFields
import Mathlib.Data.List.Chain

/-!
# The sections of a notification

The sections stand between empty lines, and the preview is put between them as it is. All other
sections are lines, so only the preview may be cut.
-/

namespace Jcode

variable {task : BackgroundTaskReport} {text line front back rest shown : List Char}

/-! ### Section breaks -/

def NoEmptyLine (text : List Char) : Prop := text.IsChain fun a b => a = '\n' → b ≠ '\n'

lemma sectionBreak_ne_nil : sectionBreak ≠ [] := by decide

lemma not_infix_sectionBreak : ¬ sectionBreak <:+: text ↔ NoEmptyLine text := by
  have hbreak : sectionBreak = ['\n', '\n'] := by decide
  rw [NoEmptyLine, List.isChain_iff_forall_rel_of_append_cons_cons, hbreak]
  constructor
  · rintro h a b front back rfl rfl rfl
    exact h ⟨front, back, by simp⟩
  · rintro h ⟨front, back, rfl⟩
    have heq : front ++ ['\n', '\n'] ++ back = front ++ '\n' :: '\n' :: back := by simp
    exact h heq rfl rfl

lemma noEmptyLine_append : NoEmptyLine (front ++ back) ↔ NoEmptyLine front ∧ NoEmptyLine back ∧
    ∀ a ∈ front.getLast?, ∀ b ∈ back.head?, a = '\n' → b ≠ '\n' :=
  List.isChain_append

/-- The pieces of a text that does not end with a line feed, and of what comes behind it. -/
lemma splitAll_sectionBreak_append (hlast : text.getLast? ≠ some '\n') :
    splitAll sectionBreak (text ++ sectionBreak ++ rest) =
      splitAll sectionBreak text ++ splitAll sectionBreak rest := by
  apply splitAll_append sectionBreak_ne_nil
  have hdrop : sectionBreak.dropLast = ['\n'] := by decide
  intro back hback
  contrapose
  rw [hdrop, not_infix_sectionBreak, not_infix_sectionBreak, noEmptyLine_append]
  intro hnone
  refine ⟨hnone, List.IsChain.singleton _, ?_⟩
  rintro a ha b - rfl
  obtain ⟨front, rfl⟩ := hback
  rw [List.getLast?_append, Option.mem_def.mp ha] at hlast
  exact absurd rfl hlast

/-! ### Sections of one line -/

def IsLine (text : List Char) : Prop := '\n' ∉ text ∧ '\r' ∉ text

instance (text : List Char) : Decidable (IsLine text) :=
  inferInstanceAs (Decidable ('\n' ∉ text ∧ '\r' ∉ text))

lemma isLine_append : IsLine (front ++ back) ↔ IsLine front ∧ IsLine back := by
  simp only [IsLine, List.mem_append, not_or]
  tauto

lemma isLine_of_isInline (h : ∀ c ∈ text, IsInline c) : IsLine text :=
  ⟨fun hmem => (h _ hmem).1 rfl, fun hmem => (h _ hmem).2.1 rfl⟩

lemma IsLine.splitAll_eq (h : IsLine line) : splitAll sectionBreak line = [line] := by
  apply splitAll_of_none sectionBreak_ne_nil
  intro hpart
  exact h.1 (hpart.subset (by decide))

/-- The first of the sections is a piece if it is a line. -/
lemma IsLine.splitAll_intercalate (h : IsLine line) {parts : List (List Char)} (hne : parts ≠ []) :
    splitAll sectionBreak (sectionBreak.intercalate (line :: parts)) =
      line :: splitAll sectionBreak (sectionBreak.intercalate parts) := by
  rw [List.intercalate_cons_of_ne_nil hne, splitAll_sectionBreak_append, h.splitAll_eq]
  · rfl
  · intro hlast
    exact h.1 (List.mem_of_mem_getLast? hlast)

/-! ### The sections of a notification -/

namespace BackgroundTaskReport

def preview (task : BackgroundTaskReport) : Option (List Char) :=
  normalizeBackgroundTaskPreview task.outputPreview

lemma isLine_failureSection : ∀ line ∈ task.failureSection, IsLine line := by
  have hstart : IsLine "_Failure:_ ".toList := by decide
  have hspace : zeroWidthSpace ≠ '\n' ∧ zeroWidthSpace ≠ '\r' := by decide
  have hquote : backtick ≠ '\n' ∧ backtick ≠ '\r' := by decide
  intro line hline
  unfold failureSection at hline
  split_ifs at hline
  · obtain ⟨summary, hsummary, rfl⟩ := Option.mem_map.mp hline
    obtain ⟨hfeed, hreturn⟩ := summary_spec hsummary
    refine isLine_append.mpr ⟨hstart, ?_, ?_⟩
    · intro hmem
      rcases mem_sanitizeFencedBlock hmem with hmem | hmem | hmem
      · exact hfeed hmem
      · exact hquote.1 hmem.symm
      · exact hspace.1 hmem.symm
    · intro hmem
      rcases mem_sanitizeFencedBlock hmem with hmem | hmem | hmem
      · exact hreturn hmem
      · exact hquote.2 hmem.symm
      · exact hspace.2 hmem.symm
  · cases hline

lemma previewSection_of_some (h : shown ∈ task.preview) :
    task.previewSection = "```text\n".toList ++ shown ++ "\n```".toList := by
  have hsome : normalizeBackgroundTaskPreview task.outputPreview = some shown := h
  delta previewSection
  simp only [hsome]

lemma previewSection_of_none (h : task.preview = none) :
    task.previewSection = "_No output captured._".toList := by
  have hnone : normalizeBackgroundTaskPreview task.outputPreview = none := h
  delta previewSection
  simp only [hnone]

/-- The section of a preview has an empty line where the preview has one or begins with one. -/
lemma infix_previewSection (h : shown ∈ task.preview) :
    sectionBreak <:+: task.previewSection ↔ sectionBreak <:+: '\n' :: shown := by
  have hsplit : task.previewSection = "```text".toList ++ '\n' :: shown ++ "\n```".toList := by
    have hstart : "```text\n".toList = "```text".toList ++ ['\n'] := by decide
    rw [previewSection_of_some h, hstart]
    simp
  obtain ⟨-, hne, hlast⟩ := preview_spec h
  constructor
  · contrapose
    have hstart : NoEmptyLine "```text".toList := not_infix_sectionBreak.mp (by decide)
    have hend : NoEmptyLine "\n```".toList := not_infix_sectionBreak.mp (by decide)
    rw [hsplit, not_infix_sectionBreak, not_infix_sectionBreak]
    intro hnone
    refine noEmptyLine_append.mpr ⟨noEmptyLine_append.mpr ⟨hstart, hnone, ?_⟩, hend, ?_⟩
    · rintro a ha b - rfl
      exact absurd ha (by decide)
    · rintro a ha b - rfl
      rw [List.getLast?_append_cons, List.getLast?_cons_of_ne_nil hne] at ha
      exact absurd rfl (hlast _ ha)
  · intro hpart
    rw [hsplit]
    exact hpart.trans ⟨_, _, rfl⟩

lemma isLine_previewSection (h : task.preview = none) : IsLine task.previewSection := by
  rw [previewSection_of_none h]
  decide

lemma getLast?_previewSection : task.previewSection.getLast? ≠ some '\n' := by
  cases hshown : task.preview with
  | none =>
    rw [previewSection_of_none hshown]
    decide
  | some shown =>
    rw [previewSection_of_some hshown, List.getLast?_append_of_ne_nil _ (by decide)]
    decide

section

variable (h : task.IsPlain) (hline : task.IsSingleLine)

include h hline

lemma isLine_fullOutputSection : IsLine task.fullOutputSection := by
  have hid : IsLine task.taskId.toList := isLine_of_isInline (h.taskId.isInline hline.taskId)
  have hstart : IsLine "_Full output:_ `".toList := by decide
  have hcommand : IsLine "bg action=\"output\" task_id=\"".toList := by decide
  have hquote : IsLine "\"".toList := by decide
  have hend : IsLine "`".toList := by decide
  delta fullOutputSection fullOutputCommand
  simp only [isLine_append]
  exact ⟨⟨hstart, ⟨hcommand, hid⟩, hquote⟩, hend⟩

lemma isLine_header : IsLine task.header := by
  have hopening : IsLine "**Background task** `".toList := by decide
  have hquote : IsLine "` · ".toList := by decide
  have hdot : IsLine " · ".toList := by decide
  have hfields : IsLine task.fields.all := isLine_of_isInline (h.isInline_fields hline)
  simp only [HeaderFields.all, isLine_append] at hfields
  obtain ⟨⟨⟨⟨hid, hlabel⟩, hstatus⟩, hduration⟩, hexit⟩ := hfields
  rw [h.header_eq, HeaderFields.text_eq]
  simp only [isLine_append]
  exact ⟨hopening, hid, hquote, hlabel, hdot, hstatus, hdot, hduration, hdot, hexit⟩

/-- The pieces of a notification. Only the preview may be in several. -/
lemma splitAll_notification :
    splitAll sectionBreak (sectionBreak.intercalate task.notificationSections) =
      task.header :: ((task.failureSection.toList ++ splitAll sectionBreak task.previewSection) ++
        [task.fullOutputSection]) := by
  have hrest : splitAll sectionBreak
      (sectionBreak.intercalate [task.previewSection, task.fullOutputSection]) =
        splitAll sectionBreak task.previewSection ++ [task.fullOutputSection] := by
    rw [List.intercalate_cons_cons, splitAll_sectionBreak_append getLast?_previewSection,
      List.intercalate_singleton, (isLine_fullOutputSection h hline).splitAll_eq]
  have hheader := isLine_header h hline
  unfold notificationSections
  cases hfailure : task.failureSection with
  | none =>
    have hcons : task.header :: (none : Option (List Char)).toList ++
        [task.previewSection, task.fullOutputSection] =
          task.header :: [task.previewSection, task.fullOutputSection] := rfl
    rw [hcons, hheader.splitAll_intercalate (List.cons_ne_nil _ _), hrest]
    rfl
  | some failure =>
    have hline := isLine_failureSection failure hfailure
    have hcons : task.header :: (some failure).toList ++
        [task.previewSection, task.fullOutputSection] =
          task.header :: failure :: [task.previewSection, task.fullOutputSection] := rfl
    rw [hcons, hheader.splitAll_intercalate (List.cons_ne_nil _ _),
      hline.splitAll_intercalate (List.cons_ne_nil _ _), hrest]
    rfl

lemma carriageReturn_notMem_notification :
    '\r' ∉ sectionBreak.intercalate task.notificationSections := by
  intro hmem
  rcases mem_of_mem_intercalate hmem with hmem | ⟨part, hpart, hmem⟩
  · exact absurd hmem (by decide)
  · have hcases : part = task.header ∨ part ∈ task.failureSection ∨ part = task.previewSection ∨
        part = task.fullOutputSection := by
      simpa [notificationSections] using hpart
    rcases hcases with rfl | hfailure | rfl | rfl
    · exact (isLine_header h hline).2 hmem
    · exact (isLine_failureSection part hfailure).2 hmem
    · cases hshown : task.preview with
      | none => exact (isLine_previewSection hshown).2 hmem
      | some shown =>
        rw [previewSection_of_some hshown, List.mem_append, List.mem_append] at hmem
        rcases hmem with (hmem | hmem) | hmem
        · exact absurd hmem (by decide)
        · exact (preview_spec hshown).1 hmem
        · exact absurd hmem (by decide)
    · exact (isLine_fullOutputSection h hline).2 hmem

end

end BackgroundTaskReport

end Jcode
