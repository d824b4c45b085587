import Jcode.Background.NotificationHeader

/-!
# The fields of a plain notification

The names of a plain task have no backticks, line feeds and middle dots. If they have no carriage
returns either, and the duration is a number that is not negative, the header is accepted.
-/

namespace Jcode

open Regex

/-- Neither empty nor with a backtick, a line feed or a middle dot. -/
def IsPlainName (name : String) : Prop :=
  name ≠ "" ∧ ∀ c ∈ name.toList, c ≠ backtick ∧ c ≠ '\n' ∧ c ≠ middleDot

instance (name : String) : Decidable (IsPlainName name) :=
  decidable_of_iff (name ≠ "" ∧
    name.toList.all fun c => c ≠ backtick ∧ c ≠ '\n' ∧ c ≠ middleDot) (by simp [IsPlainName])

namespace BackgroundTaskReport

structure IsPlain (task : BackgroundTaskReport) : Prop where
  taskId : IsPlainName task.taskId
  toolName : IsPlainName task.toolName
  displayName : ∀ name ∈ task.displayName, IsPlainName name

variable (task : BackgroundTaskReport)

def shownName : Option String := backgroundTaskDisplayName task.toolName task.displayName

end BackgroundTaskReport

variable {task : BackgroundTaskReport} {name : String} {text : List Char}

/-! ### The fields of the header -/

lemma IsPlainName.isQuotable (h : IsPlainName name) : IsQuotable name.toList := by
  refine ⟨by simpa using h.1, ?_⟩
  intro c hc
  simpa [notBacktick] using (h.2 c hc).1

lemma sanitizeBackgroundTaskLabel_eq (h : IsPlainName name) :
    sanitizeBackgroundTaskLabel name = name.toList := by
  rw [sanitizeBackgroundTaskLabel]
  conv_rhs => rw [← List.map_id name.toList]
  apply List.map_congr_left
  intro c hc
  exact if_neg (h.2 c hc).1

namespace BackgroundTaskReport

/-- The name that is shown is a trimmed one. -/
lemma IsPlain.shownName (h : task.IsPlain) : ∀ name ∈ task.shownName, IsPlainName name := by
  intro name hname
  unfold BackgroundTaskReport.shownName backgroundTaskDisplayName at hname
  rw [Option.mem_filter_iff, Option.mem_map] at hname
  obtain ⟨⟨displayName, hmem, rfl⟩, hne⟩ := hname
  simp only [decide_eq_true_eq] at hne
  refine ⟨hne.1, ?_⟩
  intro c hc
  apply (h.displayName displayName hmem).2 c
  rw [trim, String.toList_ofList, List.mem_reverse] at hc
  have hdrop := (List.dropWhile_sublist _).subset hc
  exact (List.dropWhile_sublist _).subset (List.mem_reverse.mp hdrop)

def label (task : BackgroundTaskReport) : List Char :=
  match task.shownName with
  | some displayName => "`".toList ++ (displayName.toList ++ ("` (`".toList ++
      (task.toolName.toList ++ "`)".toList)))
  | none => "`".toList ++ (task.toolName.toList ++ "`".toList)

lemma IsPlain.label_eq (h : task.IsPlain) :
    backgroundTaskHeaderLabel task.toolName task.displayName = task.label := by
  have hshown := h.shownName
  unfold backgroundTaskHeaderLabel label
  unfold BackgroundTaskReport.shownName at hshown ⊢
  cases hname : backgroundTaskDisplayName task.toolName task.displayName with
  | none => simp [sanitizeBackgroundTaskLabel_eq h.toolName]
  | some displayName =>
    simp [sanitizeBackgroundTaskLabel_eq h.toolName,
      sanitizeBackgroundTaskLabel_eq (hshown displayName hname)]

def fields (task : BackgroundTaskReport) : HeaderFields where
  taskId := task.taskId.toList
  label := task.label
  status := (formatBackgroundTaskStatus task.status).toList
  duration := task.durationSecs.text.toList ++ "s".toList
  exitLabel := (formatExitCode task.exitCode).toList

lemma IsPlain.header_eq (h : task.IsPlain) : task.header = task.fields.text := by
  have hend : "s · ".toList = "s".toList ++ " · ".toList := by decide
  delta header
  simp only [h.label_eq, HeaderFields.text_eq, fields, hend, List.append_assoc]

lemma IsPlain.parse_label (h : task.IsPlain) : parseBackgroundTaskHeaderLabel task.label =
    (task.toolName.toList, task.shownName.map String.toList) := by
  have hshown := h.shownName
  cases hname : task.shownName with
  | none =>
    have hlabel : task.label = "`".toList ++ (task.toolName.toList ++ "`".toList) := by
      rw [label, hname]
    rw [hlabel, parse_toolLabel h.toolName.isQuotable, Option.map_none]
  | some displayName =>
    have hlabel : task.label = "`".toList ++ (displayName.toList ++ ("` (`".toList ++
        (task.toolName.toList ++ "`)".toList))) := by
      rw [label, hname]
    rw [hlabel, parse_namedLabel (hshown displayName hname).isQuotable h.toolName.isQuotable,
      Option.map_some]

end BackgroundTaskReport

/-! ### Characters of the fields -/

/-- Neither an end of a line nor a middle dot. -/
def IsInline (c : Char) : Prop := c ≠ '\n' ∧ c ≠ '\r' ∧ c ≠ middleDot

instance (c : Char) : Decidable (IsInline c) :=
  inferInstanceAs (Decidable (c ≠ '\n' ∧ c ≠ '\r' ∧ c ≠ middleDot))

lemma isInline_repr (n : Nat) : ∀ c ∈ (Nat.repr n).toList, IsInline c := by
  intro c hc
  rw [Nat.toList_repr] at hc
  have hdigit := Nat.isDigit_of_mem_toDigits (by decide) (by decide) hc
  refine ⟨?_, ?_, ?_⟩ <;>
    rintro rfl <;>
    exact absurd hdigit (by decide)

lemma isInline_seconds (seconds : RoundedSeconds) : ∀ c ∈ seconds.text.toList, IsInline c := by
  have hsign : ∀ negative : Bool, ∀ c ∈ (if negative then "-" else "").toList, IsInline c := by
    intro negative
    cases negative <;> exact forall_mem_of_all (by decide)
  have hpoint : ∀ c ∈ ".".toList, IsInline c := forall_mem_of_all (by decide)
  have hinf : ∀ c ∈ "inf".toList, IsInline c := forall_mem_of_all (by decide)
  cases seconds with
  | nan => exact forall_mem_of_all (by decide)
  | infinite negative =>
    simp only [RoundedSeconds.text, String.toList_append, List.forall_mem_append]
    exact ⟨hsign negative, hinf⟩
  | tenths negative n =>
    simp only [RoundedSeconds.text, String.toList_append, List.forall_mem_append]
    exact ⟨⟨⟨hsign negative, isInline_repr _⟩, hpoint⟩, isInline_repr _⟩

lemma isInline_exitCode (code : Option Int) : ∀ c ∈ (formatExitCode code).toList, IsInline c := by
  have hexit : ∀ c ∈ "exit ".toList, IsInline c := forall_mem_of_all (by decide)
  have hsign : ∀ c ∈ "-".toList, IsInline c := forall_mem_of_all (by decide)
  cases code with
  | none => exact forall_mem_of_all (by decide)
  | some code =>
    simp only [formatExitCode, String.toList_append, List.forall_mem_append]
    refine ⟨hexit, ?_⟩
    cases code with
    | ofNat n => exact isInline_repr n
    | negSucc n =>
      have hneg : toString (Int.negSucc n) = "-" ++ Nat.repr (n + 1) := rfl
      rw [hneg, String.toList_append, List.forall_mem_append]
      exact ⟨hsign, isInline_repr _⟩

lemma IsPlainName.isInline (h : IsPlainName name) (hcr : '\r' ∉ name.toList) :
    ∀ c ∈ name.toList, IsInline c := by
  intro c hc
  refine ⟨(h.2 c hc).2.1, ?_, (h.2 c hc).2.2⟩
  rintro rfl
  exact hcr hc

namespace BackgroundTaskReport

/-- The names have no carriage return. -/
structure IsSingleLine (task : BackgroundTaskReport) : Prop where
  taskId : '\r' ∉ task.taskId.toList
  toolName : '\r' ∉ task.toolName.toList
  shownName : ∀ name ∈ task.shownName, '\r' ∉ name.toList

lemma IsPlain.isInline_label (h : task.IsPlain) (hline : task.IsSingleLine) :
    ∀ c ∈ task.label, IsInline c := by
  have hquote : ∀ c ∈ "`".toList, IsInline c := forall_mem_of_all (by decide)
  have hopen : ∀ c ∈ "` (`".toList, IsInline c := forall_mem_of_all (by decide)
  have hclose : ∀ c ∈ "`)".toList, IsInline c := forall_mem_of_all (by decide)
  have htool := h.toolName.isInline hline.toolName
  unfold label
  cases hname : task.shownName with
  | none =>
    simp only [List.forall_mem_append]
    exact ⟨hquote, htool, hquote⟩
  | some displayName =>
    have hdisplay := (h.shownName displayName hname).isInline (hline.shownName displayName hname)
    simp only [List.forall_mem_append]
    exact ⟨hquote, hdisplay, hopen, htool, hclose⟩

lemma IsPlain.isInline_fields (h : task.IsPlain) (hline : task.IsSingleLine) :
    ∀ c ∈ task.fields.all, IsInline c := by
  have hstatus : ∀ status : BackgroundTaskStatus,
      ∀ c ∈ (formatBackgroundTaskStatus status).toList, IsInline c := by
    intro status
    cases status <;> exact forall_mem_of_all (by decide)
  have hs : ∀ c ∈ "s".toList, IsInline c := forall_mem_of_all (by decide)
  simp only [HeaderFields.all, fields, List.forall_mem_append]
  exact ⟨⟨⟨⟨h.taskId.isInline hline.taskId, h.isInline_label hline⟩, hstatus _⟩,
    isInline_seconds _, hs⟩, isInline_exitCode _⟩

lemma IsPlain.undotted (h : task.IsPlain) (hline : task.IsSingleLine) :
    middleDot ∉ task.fields.all :=
  fun hmem => (h.isInline_fields hline middleDot hmem).2.2 rfl

/-! ### The duration -/

lemma isDigit_of_isDuration {c : Char} (h : IsDuration text) (hc : text.head? = some c) :
    c.isDigit := by
  obtain ⟨whole, fraction, hlength, hdigits, -, rfl⟩ := h
  cases whole with
  | nil => cases hlength
  | cons d whole =>
    cases hc
    exact hdigits _ List.mem_cons_self

lemma isDuration_iff {seconds : RoundedSeconds} :
    IsDuration (seconds.text.toList ++ "s".toList) ↔ ∃ n, seconds = .tenths false n := by
  constructor
  · intro h
    cases seconds with
    | nan => exact absurd (isDigit_of_isDuration h rfl) (by decide)
    | infinite negative =>
      cases negative with
      | false => exact absurd (isDigit_of_isDuration h rfl) (by decide)
      | true => exact absurd (isDigit_of_isDuration h rfl) (by decide)
    | tenths negative n =>
      cases negative with
      | false => exact ⟨n, rfl⟩
      | true =>
        have hhead : ((RoundedSeconds.tenths true n).text.toList ++ "s".toList).head? =
            some '-' := by
          simp [RoundedSeconds.text]
        exact absurd (isDigit_of_isDuration h hhead) (by decide)
  · rintro ⟨n, rfl⟩
    have hdigits : ∀ n, 1 ≤ (Nat.repr n).toList.length ∧ ∀ c ∈ (Nat.repr n).toList, c.isDigit := by
      intro n
      rw [Nat.toList_repr]
      exact ⟨List.length_pos_iff.mpr Nat.toDigits_ne_nil,
        fun c hc => Nat.isDigit_of_mem_toDigits (by decide) (by decide) hc⟩
    refine ⟨(Nat.repr (n / 10)).toList, ".".toList ++ (Nat.repr (n % 10)).toList,
      (hdigits _).1, (hdigits _).2, .inr ⟨_, (hdigits _).1, (hdigits _).2, rfl⟩, ?_⟩
    simp [RoundedSeconds.text]

lemma IsPlain.accepted_iff (h : task.IsPlain) (hline : task.IsSingleLine) :
    task.fields.Accepted ↔ ∃ n, task.durationSecs = .tenths false n := by
  rw [← isDuration_iff]
  refine ⟨fun haccepted => haccepted.duration, fun hduration => ?_⟩
  have hinline := h.isInline_fields hline
  simp only [HeaderFields.all, List.forall_mem_append] at hinline
  have hfeed : ∀ c, IsInline c → notLineFeed c := by
    intro c hc
    simpa [notLineFeed] using hc.1
  have hid := h.taskId.isQuotable
  refine ⟨⟨List.length_pos_iff.mpr hid.1, hid.2⟩, ⟨?_, fun c hc => hfeed c (hinline.1.1.1.2 c hc)⟩,
    ⟨?_, fun c hc => hfeed c (hinline.1.1.2 c hc)⟩, hduration,
    ⟨?_, fun c hc => hfeed c (hinline.2 c hc)⟩⟩
  · unfold fields label
    cases task.shownName <;> simp
  · show 1 ≤ (formatBackgroundTaskStatus task.status).toList.length
    cases task.status <;> decide
  · show 1 ≤ (formatExitCode task.exitCode).toList.length
    cases task.exitCode with
    | none => decide
    | some code => simp [formatExitCode]

end BackgroundTaskReport

end Jcode
