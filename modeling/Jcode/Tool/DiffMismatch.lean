import Jcode.Tool.UnifiedDiff

/-!
# Diffs that do not match the file

A modification is refused for a file that is missing or not text, and for no other reason. Where the
old lines of a hunk are not at its position, the lines that are there are replaced all the same, or
the call panics behind the end of the file.
-/

namespace Jcode

open LineLog Splice

/-- The number in the header of a hunk with `before` lines before it: that of its first old line,
or of the line before it where it has none. -/
def rangeStart (before : Nat) (oldLines : List Line) : Nat :=
  if oldLines = [] then before else before + 1

/-- The old lines of the hunk are in the file, at the position of the hunk. -/
def Hunk.OccursIn (hunk : Hunk) (contents : FileContents) : Prop :=
  ∃ text before after, contents = .text text ∧
    LineLog.lines '\n' '\r' text = before ++ (hunk.oldLines ++ after) ∧
    hunk.oldStart = rangeStart before.length hunk.oldLines

/-- If the old lines of a hunk are not where they should be, the call fails and the file stays. -/
def FailsSafely (patch : FilePatch) (contents : FileContents) : Prop :=
  (∃ hunk ∈ patch.hunks, ¬ hunk.OccursIn contents) →
    ∃ e, applyPatchWithDiff patch (some contents) = some (.error e, some contents)

/-- The call fails for this patch whatever its hunks are: it is for a new file, or it modifies a
file that is not text. -/
def FailsAnyway (patch : FilePatch) (contents : FileContents) : Prop :=
  patch.isDelete = false ∧ (patch.isNew = true ∨ ∃ bytes, contents = .notUtf8 bytes)

/-! ### Applying hunks -/

variable {hunk : Hunk} {hunks : List Hunk} {lines newLines : List Line} {contents : List Char}

/-- The replacement that a hunk makes. -/
def Hunk.edit (hunk : Hunk) : Edit Line := ⟨hunk.oldStart - 1, hunk.oldLines.length, hunk.newLines⟩

/-- A hunk is applied where its start is within the lines. -/
lemma applyHunk_eq : applyHunk hunk lines =
    if hunk.oldStart - 1 ≤ lines.length then some (hunk.edit.apply lines) else none := by
  have hstop : lines.drop (min (hunk.oldStart - 1 + hunk.oldLines.length) lines.length) =
      lines.drop hunk.edit.stop := by
    rw [List.drop_eq_drop_min (i := hunk.edit.stop)]
    rfl
  rw [applyHunk, splice, hstop]
  refine if_congr ⟨fun h => ?_, fun h => ?_⟩ rfl rfl
  · exact h.1.trans h.2
  · exact ⟨Nat.le_min.mpr ⟨Nat.le_add_right _ _, h⟩, Nat.min_le_right _ _⟩

/-- How many lines the hunks make of a number of lines. -/
def patchedLength (n : Nat) (hunks : List Hunk) : Nat :=
  hunks.foldr (fun hunk n =>
    hunk.oldStart - 1 + hunk.newLines.length + (n - (hunk.oldStart - 1 + hunk.oldLines.length))) n

/-- Every hunk starts within the lines that those behind it leave, or right behind them. -/
def StartsWithin (n : Nat) : List Hunk → Prop
  | [] => True
  | hunk :: hunks => StartsWithin n hunks ∧ hunk.oldStart - 1 ≤ patchedLength n hunks

instance decidableStartsWithin (n : Nat) : ∀ hunks, Decidable (StartsWithin n hunks)
  | [] => inferInstanceAs (Decidable True)
  | _ :: hunks => @instDecidableAnd _ _ (decidableStartsWithin n hunks) _

lemma length_applyHunks (h : StartsWithin lines.length hunks) :
    (applyAll (hunks.map Hunk.edit) lines).length = patchedLength lines.length hunks := by
  induction hunks with
  | nil => rfl
  | cons hunk hunks ih =>
    have hlen := ih h.1
    have hstart : hunk.edit.start ≤ (applyAll (hunks.map Hunk.edit) lines).length := hlen ▸ h.2
    change (hunk.edit.apply (applyAll (hunks.map Hunk.edit) lines)).length = _
    rw [length_apply hstart, hlen]
    rfl

/-- Hunks that start within the lines are edits, made from the last to the first. -/
lemma applyHunks_eq (h : StartsWithin lines.length hunks) :
    applyHunks hunks lines = some (applyAll (hunks.map Hunk.edit) lines) := by
  induction hunks with
  | nil => rfl
  | cons hunk hunks ih =>
    have hlen := length_applyHunks h.1
    rw [applyHunks, List.foldr_cons, ← applyHunks, ih h.1, Option.bind_some, applyHunk_eq,
      if_pos (hlen ▸ h.2)]
    rfl

/-- The hunks panic if and only if one starts behind the lines that those behind it leave. -/
lemma applyHunks_eq_none : applyHunks hunks lines = none ↔ ¬ StartsWithin lines.length hunks := by
  constructor
  · intro hnone hwithin
    cases hnone.symm.trans (applyHunks_eq hwithin)
  · intro h
    induction hunks with
    | nil => exact absurd trivial h
    | cons hunk hunks ih =>
      rw [applyHunks, List.foldr_cons, ← applyHunks]
      by_cases hwithin : StartsWithin lines.length hunks
      · have hstart : ¬ hunk.oldStart - 1 ≤ patchedLength lines.length hunks :=
          fun hle => h ⟨hwithin, hle⟩
        rw [applyHunks_eq hwithin, Option.bind_some, applyHunk_eq, length_applyHunks hwithin,
          if_neg hstart]
      · rw [ih hwithin]
        rfl

/-! ### When a mismatch is noticed -/

/-- A modification of a text never fails. -/
lemma applyPatchWithDiff_text {patch : FilePatch} (hdelete : patch.isDelete = false)
    (hnew : patch.isNew = false) : applyPatchWithDiff patch (some (.text contents)) =
    (modifiedContents patch.hunks contents).map fun newContents =>
      (.ok (modifiedMessage patch.hunks), some (.text newContents)) := by
  rw [applyPatchWithDiff, hdelete, hnew]
  rfl

lemma applyPatchWithDiff_delete {patch : FilePatch} {file : FileContents}
    (hdelete : patch.isDelete = true) :
    applyPatchWithDiff patch (some file) = some (.ok "deleted", none) := by
  unfold applyPatchWithDiff
  rw [if_pos hdelete]
  rfl

lemma applyPatchWithDiff_new {patch : FilePatch} {file : FileContents}
    (hdelete : patch.isDelete = false) (hnew : patch.isNew = true) :
    applyPatchWithDiff patch (some file) = some (.error "file already exists", some file) := by
  unfold applyPatchWithDiff
  rw [hdelete, hnew]
  rfl

/-- The call refuses the patch exactly where it does so whatever the hunks are. -/
lemma applyPatchWithDiff_error {patch : FilePatch} {file : FileContents} :
    (∃ e, applyPatchWithDiff patch (some file) = some (.error e, some file)) ↔
      FailsAnyway patch file := by
  constructor
  · rintro ⟨e, he⟩
    cases hdelete : patch.isDelete with
    | true =>
      rw [applyPatchWithDiff_delete hdelete] at he
      cases he
    | false =>
      cases hnew : patch.isNew with
      | true => exact ⟨hdelete, .inl hnew⟩
      | false =>
        cases file with
        | notUtf8 bytes => exact ⟨hdelete, .inr ⟨bytes, rfl⟩⟩
        | text contents =>
          rw [applyPatchWithDiff_text hdelete hnew] at he
          obtain ⟨newContents, -, heq⟩ := Option.map_eq_some_iff.mp he
          cases heq
  · rintro ⟨hdelete, hnew | ⟨bytes, rfl⟩⟩
    · exact ⟨_, applyPatchWithDiff_new hdelete hnew⟩
    · cases hnew : patch.isNew with
      | true => exact ⟨_, applyPatchWithDiff_new hdelete hnew⟩
      | false =>
        refine ⟨"stream did not contain valid UTF-8", ?_⟩
        rw [applyPatchWithDiff, hdelete, hnew]
        rfl

/-- A patch fails safely if and only if it fails anyway or all hunks are where they should be. It
does not panic if and only if it is no modification of a text, or each hunk starts within the
lines that the hunks behind it leave. -/
theorem failsSafely_iff_occur (patch : FilePatch) (file : FileContents) :
    (FailsSafely patch file ↔
      FailsAnyway patch file ∨ ∀ hunk ∈ patch.hunks, hunk.OccursIn file) ∧
    (applyPatchWithDiff patch (some file) ≠ none ↔
      ∀ contents, file = .text contents → patch.isDelete = false → patch.isNew = false →
        StartsWithin (LineLog.lines '\n' '\r' contents).length patch.hunks) := by
  constructor
  · rw [FailsSafely, applyPatchWithDiff_error]
    constructor
    · intro h
      by_cases hoccur : ∀ hunk ∈ patch.hunks, hunk.OccursIn file
      · exact .inr hoccur
      · refine .inl (h ?_)
        simpa only [not_forall, exists_prop] using hoccur
    · rintro (hanyway | hoccur) ⟨hunk, hmem, hnot⟩
      · exact hanyway
      · exact absurd (hoccur hunk hmem) hnot
  · cases hdelete : patch.isDelete with
    | true =>
      rw [applyPatchWithDiff_delete hdelete]
      exact iff_of_true (by simp) (by simp)
    | false =>
      cases hnew : patch.isNew with
      | true =>
        rw [applyPatchWithDiff_new hdelete hnew]
        exact iff_of_true (by simp) (by simp)
      | false =>
        cases file with
        | notUtf8 bytes =>
          rw [applyPatchWithDiff, hdelete, hnew]
          exact iff_of_true (by simp) (by simp)
        | text contents =>
          rw [applyPatchWithDiff_text hdelete hnew, modifiedContents]
          simp only [ne_eq, Option.map_eq_none_iff, applyHunks_eq_none, not_not,
            FileContents.text.injEq, forall_eq', true_implies]

/-- A diff of another file. -/
def mismatchedDiff : List Char := "--- a/f\n+++ b/f\n@@ -1 +1 @@\n-x\n+y\n".toList

theorem not_failsSafely : ¬ ∀ text file, ∀ patch ∈ parsePatch text, FailsSafely patch file := by
  intro h
  have htext : mismatchedDiff = _ := String.toList_ofList
  have hparse : parsePatch mismatchedDiff =
      [⟨"f".toList, [⟨1, ["x".toList], ["y".toList]⟩], false, false⟩] := by
    rw [htext]
    decide +kernel
  have hmem : (⟨"f".toList, [⟨1, ["x".toList], ["y".toList]⟩], false, false⟩ : FilePatch) ∈
      parsePatch mismatchedDiff := hparse ▸ List.mem_cons_self
  have hnot : ¬ Hunk.OccursIn ⟨1, ["x".toList], ["y".toList]⟩ (.text "a\n".toList) := by
    rintro ⟨text, before, after, hcontents, hlines, hstart⟩
    cases hcontents
    have hbefore : before = [] := by simpa [rangeStart] using hstart
    rw [hbefore] at hlines
    cases hlines
  obtain ⟨e, he⟩ := h mismatchedDiff (.text "a\n".toList) _ hmem ⟨_, List.mem_cons_self, hnot⟩
  cases he

end Jcode
