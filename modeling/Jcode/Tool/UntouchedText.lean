import Jcode.Tool.Replacements

/-!
# What is outside the ranges is kept

The content of a file is cut at its line feeds, and the empty line behind the last one is left out.
When the lines are joined again, a line that is empty is taken for it: an empty line at the end of
the new lines is lost.
-/

namespace Jcode

open Splice

/-! ### Cutting and joining -/

lemma newline_notMem_of_mem_splitOn {contents : List Char} {line : Line}
    (h : line ∈ contents.splitOn '\n') : '\n' ∉ line := by
  induction contents generalizing line with
  | nil =>
    rw [List.splitOn_nil, List.mem_singleton] at h
    rw [h]
    exact List.not_mem_nil
  | cons c contents ih =>
    rw [List.splitOn_cons_eq_if_modifyHead] at h
    split_ifs at h with hc
    · rcases List.mem_cons.mp h with rfl | h
      · exact List.not_mem_nil
      · exact ih h
    · cases hsplit : contents.splitOn '\n' with
      | nil => exact absurd hsplit (List.splitOn_ne_nil _ _)
      | cons first rest =>
        rw [hsplit] at h ih
        rcases List.mem_cons.mp h with rfl | h
        · refine List.not_mem_cons_of_ne_of_not_mem ?_ (ih List.mem_cons_self)
          exact fun heq => hc (by simp [← heq])
        · exact ih (List.mem_cons_of_mem _ h)

lemma intercalate_concat {lines : List Line} (h : lines ≠ []) (line : Line) :
    ['\n'].intercalate (lines ++ [line]) = ['\n'].intercalate lines ++ '\n' :: line := by
  induction lines with
  | nil => exact absurd rfl h
  | cons first lines ih =>
    cases lines with
    | nil => simp
    | cons second lines =>
      have := ih (List.cons_ne_nil _ _)
      simp only [List.cons_append, List.intercalate_cons_cons] at this ⊢
      rw [this]
      simp only [List.append_assoc]

lemma length_intercalate_concat {lines : List Line} (h : lines ≠ []) :
    (['\n'].intercalate (lines ++ [[]])).length = (['\n'].intercalate lines).length + 1 := by
  rw [intercalate_concat h, List.length_append, List.length_singleton]

lemma intercalate_injective {lines lines' : List Line} (hne : lines ≠ []) (hne' : lines' ≠ [])
    (h : ∀ line ∈ lines, '\n' ∉ line) (h' : ∀ line ∈ lines', '\n' ∉ line)
    (heq : ['\n'].intercalate lines = ['\n'].intercalate lines') : lines = lines' := by
  rw [← List.splitOn_intercalate '\n' h hne, heq, List.splitOn_intercalate '\n' h' hne']

lemma mem_of_mem_dropLastEmpty {lines : List Line} {line : Line} (h : line ∈ dropLastEmpty lines) :
    line ∈ lines := by
  rw [dropLastEmpty] at h
  split_ifs at h
  · exact (List.dropLast_sublist _).subset h
  · exact h

def LacksFinalNewline (contents : List Char) : Prop :=
  contents ≠ [] ∧ contents.getLast? ≠ some '\n'

/-- A content whose last line is empty ends in a line feed. -/
lemma not_lacksFinalNewline {contents : List Char}
    (h : (contentLines contents).getLast? = some []) : ¬ LacksFinalNewline contents := by
  rintro ⟨-, hlast⟩
  rw [contentLines, dropLastEmpty] at h
  split_ifs at h with hempty
  · obtain ⟨front, hfront⟩ := List.getLast?_eq_some_iff.mp hempty
    rw [hfront, List.dropLast_concat] at h
    have hne : front ≠ [] := by
      rintro rfl
      cases h
    have hjoin : ['\n'].intercalate (contents.splitOn '\n') = contents :=
      List.intercalate_splitOn '\n'
    have hcontents : contents = ['\n'].intercalate front ++ ['\n'] := by
      rw [← hjoin, hfront, intercalate_concat hne]
    rw [hcontents, List.getLast?_concat] at hlast
    exact hlast rfl
  · exact hempty h

/-! ### The new content -/

/-- The lines of the content with every range replaced. -/
def withRanges (contents : List Char) (replacements : List Replacement) : List Line :=
  spliced (contentLines contents) 0 (ordered replacements)

/-- Nothing but the ranges is changed, and a line feed may be added at the end of a content that
lacks it. -/
def PreservesUntouched (path : String) (contents : List Char) (chunks : List UpdateFileChunk)
    (replacements : List Replacement) : Prop :=
  ∃ newContents, applyUpdateChunks path contents chunks = .ok (some newContents) ∧
    (newContents = ['\n'].intercalate (withRanges contents replacements ++ [[]]) ∨
      LacksFinalNewline contents ∧
        newContents = ['\n'].intercalate (withRanges contents replacements))

/-- The new lines do not end in an empty line, or no line feed has to follow. -/
structure KeepsEnd (path : String) (contents : List Char) (chunks : List UpdateFileChunk)
    (replacements : List Replacement) : Prop where
  ending : LacksFinalNewline contents ∨
    (withRanges contents replacements).getLast? ≠ some []
  lastLine : ∀ turn : Turn path (contentLines contents) chunks, turn.LastLineClear

variable {path : String} {contents : List Char} {chunks : List UpdateFileChunk}
  {replacements placed : List Replacement} {lines : List Line} {last : Nat}

lemma joinLines_of_empty (h : lines.getLast? = some []) :
    joinLines lines = ['\n'].intercalate lines := by
  rw [joinLines, if_pos h]

lemma joinLines_of_not_empty (h : lines.getLast? ≠ some []) :
    joinLines lines = ['\n'].intercalate (lines ++ [[]]) := by
  rw [joinLines, if_neg h]

/-- The lines as they are written have the final line feed if the last one is not empty. -/
lemma joinLines_eq_iff : joinLines lines = ['\n'].intercalate (lines ++ [[]]) ↔
    lines.getLast? ≠ some [] := by
  refine ⟨fun h hempty => ?_, joinLines_of_not_empty⟩
  have hne : lines ≠ [] := by
    rintro rfl
    cases hempty
  rw [joinLines_of_empty hempty] at h
  have := length_intercalate_concat hne
  rw [← h] at this
  omega

/-- Lines of one number that are written alike are the same. -/
lemma joinLines_injective {lines' : List Line} (hlen : lines.length = lines'.length)
    (h : ∀ line ∈ lines, '\n' ∉ line) (h' : ∀ line ∈ lines', '\n' ∉ line)
    (heq : joinLines lines = ['\n'].intercalate (lines' ++ [[]])) : lines = lines' := by
  have hempty : ∀ ls : List Line, (∀ line ∈ ls, '\n' ∉ line) →
      ∀ line ∈ ls ++ [[]], '\n' ∉ line := by
    intro ls hls line hline
    rcases List.mem_append.mp hline with hline | hline
    · exact hls line hline
    · rw [List.mem_singleton.mp hline]
      exact List.not_mem_nil
  have hne : ∀ ls : List Line, ls ++ [[]] ≠ [] := fun ls =>
    List.append_ne_nil_of_right_ne_nil _ (List.cons_ne_nil _ _)
  by_cases hlast : lines.getLast? = some []
  · rw [joinLines_of_empty hlast] at heq
    have hlines : lines ≠ [] := by
      rintro rfl
      cases hlast
    have hsame := intercalate_injective hlines (hne lines') h (hempty lines' h') heq
    rw [hsame, List.length_append, List.length_singleton] at hlen
    omega
  · rw [joinLines_of_not_empty hlast] at heq
    exact List.append_cancel_right
      (intercalate_injective (hne lines) (hne lines') (hempty lines h) (hempty lines' h') heq)

/-! ### When it is right -/

/-- The lines of a content and of the chunks have no line feed, nor do those of the result. -/
lemma newline_notMem (hplaced : placeChunks path (contentLines contents) 0 chunks =
      .ok (placed, last))
    (hlines : ∀ chunk ∈ chunks, ∀ line ∈ chunk.newLines, '\n' ∉ line) {line : Line}
    (h : line ∈ contentLines contents ∨ ∃ r ∈ placed, line ∈ r.text) : '\n' ∉ line := by
  rcases h with h | ⟨r, hr, hline⟩
  · exact newline_notMem_of_mem_splitOn (mem_of_mem_dropLastEmpty h)
  · obtain ⟨earlier, rest, hsplit⟩ := List.append_of_mem hr
    obtain ⟨turn, -, rfl, -⟩ := exists_turn hplaced hsplit
    refine hlines turn.chunk turn.chunk_mem line ?_
    obtain ⟨-, -, ⟨-, hr⟩ | ⟨-, -, hfound⟩⟩ := turn.cases
    · rwa [hr] at hline
    · rcases hfound.isTextOf with ⟨-, htext⟩ | ⟨-, -, htext⟩
      · rwa [htext] at hline
      · rw [htext] at hline
        exact mem_of_mem_dropLastEmpty hline

lemma applyUpdateChunks_eq (hplaced : placeChunks path (contentLines contents) 0 chunks =
      .ok (placed, last)) : applyUpdateChunks path contents chunks =
    .ok (some (joinLines (applyAll (byStart placed) (contentLines contents)))) := by
  simp only [applyUpdateChunks, computeReplacements, hplaced, Except.map,
    applyReplacements_byStart hplaced, Option.map_some]

/-- The text outside the ranges is kept if and only if the file does not come to end in an empty
line, or has no final line feed, and the empty last line comes out in order. -/
theorem preservesUntouched_iff_keepsEnd
    (hlines : ∀ chunk ∈ chunks, ∀ line ∈ chunk.newLines, '\n' ∉ line)
    (h : computeReplacements path (contentLines contents) chunks = .ok replacements)
    (hapart : replacements.Pairwise Edit.Apart) :
    PreservesUntouched path contents chunks replacements ↔
      KeepsEnd path contents chunks replacements := by
  obtain ⟨placed, last, hplaced, rfl⟩ := of_computeReplacements h
  have hapart : placed.Pairwise Edit.Apart :=
    (byStart_perm.pairwise_iff Edit.Apart.symm).mp hapart
  have happly := applyUpdateChunks_eq hplaced
  have hiff := applyAll_eq_iff hplaced hapart
  set made := applyAll (byStart placed) (contentLines contents) with hmade
  change made = withRanges contents (byStart placed) ↔ _ at hiff
  constructor
  · rintro ⟨newContents, hnew, hsame⟩
    cases happly.symm.trans hnew
    by_cases hclear : ∀ turn : Turn path (contentLines contents) chunks, turn.LastLineClear
    · rw [hiff.mpr hclear] at hsame
      exact ⟨hsame.symm.imp And.left joinLines_eq_iff.mp, hclear⟩
    · -- the content has an empty last line, so that it ends in a line feed
      obtain ⟨turn, hturn⟩ := not_forall.mp hclear
      have hempty : (contentLines contents).getLast? = some [] := (Classical.not_imp.mp hturn).1
      have hjoin := hsame.resolve_right fun hlacks => not_lacksFinalNewline hempty hlacks.1
      refine absurd (hiff.mp (joinLines_injective (length_applyAll hplaced hapart) ?_ ?_ hjoin))
        hclear
      · intro line hline
        refine newline_notMem hplaced hlines ((mem_applyAll hline).imp_right ?_)
        exact fun ⟨r, hr, hmem⟩ => ⟨r, mem_byStart.mp hr, hmem⟩
      · intro line hline
        refine newline_notMem hplaced hlines ((mem_spliced hline).imp_right ?_)
        exact fun ⟨r, hr, hmem⟩ => ⟨r, mem_byStart.mp ((List.mem_insertionSort _).mp hr), hmem⟩
  · rintro ⟨hending, hclear⟩
    refine ⟨joinLines made, happly, ?_⟩
    rw [hiff.mpr hclear]
    by_cases hempty : (withRanges contents (byStart placed)).getLast? = some []
    · exact .inr ⟨hending.resolve_right (not_not_intro hempty), joinLines_of_empty hempty⟩
    · exact .inl (joinLines_of_not_empty hempty)

theorem preservesUntouched_iff_keepsEnd_twoChunks :
    PreservesUntouched "f" "a\nb\nc\nd\n".toList twoChunks
      [⟨0, 1, ["x".toList, "y".toList]⟩, ⟨2, 2, ["z".toList]⟩] := by
  refine (preservesUntouched_iff_keepsEnd (by decide) rfl ?_).mpr ⟨.inr ?_, fun _ => by rintro ⟨⟩⟩
  · exact List.pairwise_cons.mpr ⟨by simp [Edit.Apart, Edit.stop], List.pairwise_singleton _ _⟩
  · decide

/-- A chunk of the first line of a file that ends in an empty line. -/
def firstLine : List UpdateFileChunk := [⟨none, ["a".toList], ["b".toList], false⟩]

theorem not_preservesUntouched : ¬ ∀ path contents chunks replacements,
    (∀ chunk ∈ chunks, ∀ line ∈ chunk.newLines, '\n' ∉ line) →
    computeReplacements path (contentLines contents) chunks = .ok replacements →
    replacements.Pairwise Edit.Apart →
      PreservesUntouched path contents chunks replacements := by
  intro h
  obtain ⟨newContents, hnew, hsame⟩ := h "f" "a\n\n".toList firstLine [⟨0, 1, ["b".toList]⟩]
    (by decide) rfl (List.pairwise_singleton _ _)
  have hline : applyUpdateChunks "f" "a\n\n".toList firstLine = .ok (some "b\n".toList) := rfl
  cases hline.symm.trans hnew
  rcases hsame with hsame | ⟨hlacks, -⟩
  · exact absurd hsame (by decide)
  · exact hlacks.2 rfl

end Jcode
