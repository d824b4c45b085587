import Jcode.Tool.DiffFormat

/-!
# When a diff makes the new file

The position of a hunk without old lines is one too small: its lines are inserted before the line
that they belong behind. The lines that the parser does not hear are lost: those that are written
as empty lines, and all from a deleted line on that looks like a header. An empty file is written
as an empty line.
-/

namespace Jcode

open Splice

/-- The first patch that is read from the text changes the old file into the new one. -/
def MakesNew (text : List Char) (old new : List Line) : Prop :=
  ∃ patch more, parsePatch text = patch :: more ∧
    applyPatchWithDiff patch (some (.text (LineLog.frame '\n' old))) =
      some (.ok (modifiedMessage patch.hunks), some (.text (LineLog.frame '\n' new)))

/-- A hunk without old lines inserts nothing but copies of the line before it, if there is one. In
a hunk with old lines, the last ones stand in for the blank ones. -/
def DiffHunk.Harmless (hunk : DiffHunk) (before : List Line) : Prop :=
  if hunk.old = [] then ∀ last ∈ before.getLast?, ∀ line ∈ hunk.new, line = last
  else hunk.heardNew ++ hunk.old.drop hunk.heardOld.length = hunk.new

instance (hunk : DiffHunk) (before : List Line) : Decidable (hunk.Harmless before) :=
  inferInstanceAs (Decidable (if hunk.old = [] then _ else _))

/-- The hunks are harmless up to the one that is cut off, and nothing changes from there on. -/
def HarmlessFrom (tail before : List Line) : List DiffHunk → Prop
  | [] => True
  | hunk :: hunks =>
    if hunk.IsCut then
      hunk.heardNew ++ hunk.old.drop hunk.heardOld.length ++ oldFrom tail hunks =
        hunk.new ++ newFrom tail hunks
    else
      hunk.Harmless (before ++ hunk.gap) ∧ HarmlessFrom tail (before ++ hunk.gap ++ hunk.old) hunks

instance decidableHarmlessFrom (tail before : List Line) :
    ∀ hunks, Decidable (HarmlessFrom tail before hunks)
  | [] => inferInstanceAs (Decidable True)
  | hunk :: hunks =>
    have := decidableHarmlessFrom tail (before ++ hunk.gap ++ hunk.old) hunks
    inferInstanceAs (Decidable (if hunk.IsCut then _ else _ ∧ _))

/-- Where the tool goes by the diff. -/
structure UnifiedDiff.IsHeard (diff : UnifiedDiff) : Prop where
  notEmpty : diff.new ≠ []
  harmless : HarmlessFrom diff.tail [] diff.hunks

/-! ### Lengths -/

variable {hunk : DiffHunk} {hunks : List DiffHunk} {tail before : List Line}

lemma length_heard (h : ¬ hunk.IsCut) :
    hunk.heardNew.length + hunk.old.length = hunk.new.length + hunk.heardOld.length := by
  rw [DiffHunk.heardNew, DiffHunk.heardOld, heard_of_not_isCut h, DiffHunk.old, DiffHunk.new]
  induction hunk.body with
  | nil => rfl
  | cons line body ih =>
    simp only [List.flatMap_cons, List.length_append]
    have hline : line.heardNew.length + line.old.length =
        line.new.length + line.heardOld.length := by
      cases line <;> rfl
    omega

lemma length_heardOld_line (line : DiffLine) : line.heardOld.length ≤ line.old.length := by
  cases line <;> simp [DiffLine.heardOld, DiffLine.old]

lemma length_heardOld_body (body : List DiffLine) :
    (body.flatMap DiffLine.heardOld).length ≤ (body.flatMap DiffLine.old).length := by
  induction body with
  | nil => exact Nat.le_refl _
  | cons line body ih =>
    simp only [List.flatMap_cons, List.length_append]
    exact Nat.add_le_add (length_heardOld_line line) ih

lemma length_heardOld_le : hunk.heardOld.length ≤ hunk.old.length := by
  have hprefix : hunk.heard <+: hunk.body := List.takeWhile_prefix _
  obtain ⟨left, hleft⟩ := hprefix
  refine (length_heardOld_body hunk.heard).trans ?_
  rw [DiffHunk.old, ← hleft, List.flatMap_append, List.length_append]
  exact Nat.le_add_right _ _

/-- The line that is taken for a header is not heard. -/
lemma length_heardOld_lt (h : hunk.IsCut) : hunk.heardOld.length < hunk.old.length := by
  have hsplit : hunk.heard ++ hunk.body.dropWhile (fun line => ¬ line.Cuts) = hunk.body :=
    List.takeWhile_append_dropWhile
  obtain ⟨line, hline, hcuts⟩ := h
  have hmem : line ∈ hunk.body.dropWhile fun line => ¬ line.Cuts := by
    rw [← hsplit] at hline
    rcases List.mem_append.mp hline with hline | hline
    · have : ¬ line.Cuts := by simpa using List.mem_takeWhile_imp hline
      exact absurd hcuts this
    · exact hline
  have hold : line.old ≠ [] := by
    cases line with
    | delete l => exact List.cons_ne_nil _ _
    | context l => cases hcuts
    | blank => cases hcuts
    | insert l => cases hcuts
  have hpos : 0 < ((hunk.body.dropWhile fun line => ¬ line.Cuts).flatMap DiffLine.old).length :=
    List.length_pos_iff.mpr fun hnil => hold (List.flatMap_eq_nil_iff.mp hnil line hmem)
  have hle : hunk.heardOld.length ≤ (hunk.heard.flatMap DiffLine.old).length :=
    length_heardOld_body hunk.heard
  rw [DiffHunk.old]
  nth_rewrite 1 [← hsplit]
  rw [List.flatMap_append, List.length_append]
  omega

lemma heardOld_eq_nil (h : hunk.old = []) : hunk.heardOld = [] := by
  have hle : hunk.heardOld.length ≤ hunk.old.length := length_heardOld_le
  rw [h] at hle
  exact List.length_eq_zero_iff.mp (Nat.le_zero.mp hle)

/-- A hunk without old lines is heard as it is. -/
lemma heardNew_eq_new (h : hunk.old = []) : hunk.heardNew = hunk.new := by
  rw [DiffHunk.heardNew, DiffHunk.new, heard_of_not_isCut (old_eq_nil_of h)]
  refine List.flatMap_congr fun line hline => ?_
  have hnil : line.old = [] := List.flatMap_eq_nil_iff.mp h line hline
  cases line with
  | insert l => rfl
  | context l => cases hnil
  | blank => cases hnil
  | delete l => cases hnil

/-- The hunks make a file of as many lines as the new one has, if none is cut off. -/
lemma patchedLength_heardHunks {n : Nat} :
    patchedLength (n + (oldFrom tail hunks).length) (heardHunks n hunks) =
        n + (newFrom tail hunks).length ∨
      n < patchedLength (n + (oldFrom tail hunks).length) (heardHunks n hunks) := by
  induction hunks generalizing n with
  | nil => exact .inl rfl
  | cons hunk hunks ih =>
    have hle : hunk.heardOld.length ≤ hunk.old.length := length_heardOld_le
    set len := n + (oldFrom tail (hunk :: hunks)).length with hlen
    rw [oldFrom, List.length_append, List.length_append] at hlen
    have hnew : (newFrom tail (hunk :: hunks)).length =
        hunk.gap.length + (hunk.new.length + (newFrom tail hunks).length) := by
      rw [newFrom, List.length_append, List.length_append]
    rw [heardHunks, patchedLength, List.foldr_cons, ← patchedLength, hnew]
    dsimp only
    by_cases hcut : hunk.IsCut
    · have hlt : hunk.heardOld.length < hunk.old.length := length_heardOld_lt hcut
      have hstart : rangeStart (n + hunk.gap.length) hunk.old = n + hunk.gap.length + 1 :=
        if_neg fun hnil => old_eq_nil_of hnil hcut
      rw [if_pos hcut, hstart]
      simp only [patchedLength, List.foldr_nil]
      omega
    · have hrest := ih (n := n + hunk.gap.length + hunk.old.length)
      have hsame : n + hunk.gap.length + hunk.old.length + (oldFrom tail hunks).length = len := by
        omega
      rw [hsame] at hrest
      have hheard := length_heard hcut
      rw [if_neg hcut, rangeStart]
      split_ifs with hold
      · rw [heardOld_eq_nil hold] at hheard ⊢
        rw [hold] at hheard hrest ⊢
        simp only [List.length_nil] at *
        omega
      · omega

lemma le_patchedLength_heardHunks {n : Nat} :
    n ≤ patchedLength (n + (oldFrom tail hunks).length) (heardHunks n hunks) := by
  rcases patchedLength_heardHunks with hmade | hmade
  · exact (Nat.le_add_right _ _).trans hmade.ge
  · exact hmade.le

/-- No hunk starts behind the file. -/
lemma startsWithin_heardHunks {n : Nat} :
    StartsWithin (n + (oldFrom tail hunks).length) (heardHunks n hunks) := by
  induction hunks generalizing n with
  | nil => trivial
  | cons hunk hunks ih =>
    have hlen : n + (oldFrom tail (hunk :: hunks)).length =
        n + hunk.gap.length + hunk.old.length + (oldFrom tail hunks).length := by
      rw [oldFrom, List.length_append, List.length_append]
      omega
    rw [hlen, heardHunks]
    have hstart : rangeStart (n + hunk.gap.length) hunk.old - 1 ≤ n + hunk.gap.length := by
      rw [rangeStart]
      split_ifs <;> omega
    by_cases hcut : hunk.IsCut
    · rw [if_pos hcut]
      exact ⟨trivial, hstart.trans (by simp only [patchedLength, List.foldr_nil]; omega)⟩
    · rw [if_neg hcut]
      exact ⟨ih, hstart.trans ((Nat.le_add_right _ _).trans le_patchedLength_heardHunks)⟩

/-! ### One hunk -/

lemma concat_eq_cons_iff {α : Type} {xs : List α} {a b : α} :
    xs ++ [a] = b :: xs ↔ b = a ∧ ∀ x ∈ xs, x = a := by
  induction xs generalizing b with
  | nil => simp [eq_comm]
  | cons x xs ih =>
    rw [List.cons_append, List.cons.injEq, ih, List.forall_mem_cons]
    constructor
    · rintro ⟨rfl, rfl, hxs⟩
      exact ⟨rfl, rfl, hxs⟩
    · rintro ⟨rfl, rfl, hxs⟩
      exact ⟨rfl, rfl, hxs⟩

/-- Lines that are inserted one line too early are in their place if and only if they are copies
of that line. -/
lemma insertEarly_iff {lines before after : List Line} (h : after.length = before.length) :
    before.take (before.length - 1) ++ (lines ++ before.drop (before.length - 1)) =
        after ++ lines ↔
      after = before ∧ ∀ last ∈ before.getLast?, ∀ line ∈ lines, line = last := by
  rcases List.eq_nil_or_concat' before with rfl | ⟨front, last, rfl⟩
  · rw [List.length_nil, List.length_eq_zero_iff] at h
    simp [h]
  · rcases List.eq_nil_or_concat' after with rfl | ⟨front', last', rfl⟩
    · rw [List.length_append] at h
      cases h
    · have hlen : front.length = front'.length := by simpa using h.symm
      have htake : (front ++ [last]).take ((front ++ [last]).length - 1) = front := by simp
      have hdrop : (front ++ [last]).drop ((front ++ [last]).length - 1) = [last] := by simp
      rw [htake, hdrop, List.getLast?_concat, List.append_assoc, List.singleton_append,
        List.append_eq_append_iff_of_size_eq_left hlen, concat_eq_cons_iff,
        List.append_eq_append_iff_of_size_eq_left hlen.symm]
      simp only [Option.mem_some_iff, forall_eq', List.cons.injEq, and_true]
      constructor
      · rintro ⟨hfront, hlast, hlines⟩
        exact ⟨⟨hfront.symm, hlast⟩, hlines⟩
      · rintro ⟨⟨hfront, hlast⟩, hlines⟩
        exact ⟨hfront.symm, hlast, hlines⟩

section

variable (hunk before)

/-- The replacement that is made for a hunk behind some lines. -/
def DiffHunk.edit : Edit Line :=
  Hunk.edit ⟨rangeStart before.length hunk.old, hunk.heardOld, hunk.heardNew⟩

end

lemma stop_edit_le : (hunk.edit before).stop ≤ (before ++ hunk.old).length := by
  have hle : hunk.heardOld.length ≤ hunk.old.length := length_heardOld_le
  simp only [DiffHunk.edit, Hunk.edit, Edit.stop, rangeStart, List.length_append]
  split_ifs <;> omega

/-- A hunk with old lines is at its position. -/
lemma apply_edit_of_ne_nil (h : hunk.old ≠ []) : (hunk.edit before).apply (before ++ hunk.old) =
    before ++ (hunk.heardNew ++ hunk.old.drop hunk.heardOld.length) := by
  have hstart : (hunk.edit before).start = before.length := by
    simp only [DiffHunk.edit, Hunk.edit, rangeStart, if_neg h, Nat.add_sub_cancel]
  rw [Edit.apply, hstart, List.take_left, Edit.stop, hstart, List.drop_append]
  simp [DiffHunk.edit, Hunk.edit]

/-- A hunk makes its new lines of the old ones if and only if it is harmless. -/
lemma apply_edit_iff {after : List Line} (h : after.length = before.length) :
    (hunk.edit before).apply (before ++ hunk.old) = after ++ hunk.new ↔
      after = before ∧ hunk.Harmless before := by
  rw [DiffHunk.Harmless]
  split_ifs with hold
  · have hedit : (hunk.edit before).apply (before ++ hunk.old) =
        before.take (before.length - 1) ++ (hunk.new ++ before.drop (before.length - 1)) := by
      rw [hold, List.append_nil, Edit.apply, Edit.stop]
      simp only [DiffHunk.edit, Hunk.edit, rangeStart, if_pos hold, heardOld_eq_nil hold,
        heardNew_eq_new hold, List.length_nil, Nat.add_zero]
    rw [hedit, insertEarly_iff h]
  · rw [apply_edit_of_ne_nil hold, List.append_eq_append_iff_of_size_eq_left h.symm,
      eq_comm (a := before)]

/-! ### All hunks -/

/-- A hunk that is not cut off changes the number of lines as it should. -/
lemma length_apply_edit {made after : List Line} (hcut : ¬ hunk.IsCut)
    (hmade : made.length = (before ++ hunk.old).length) (hafter : after.length = before.length) :
    ((hunk.edit before).apply made).length = (after ++ hunk.new).length := by
  have hstop : (hunk.edit before).stop ≤ made.length := hmade ▸ stop_edit_le
  have hstart : (hunk.edit before).start ≤ made.length := (Nat.le_add_right _ _).trans hstop
  have hheard : hunk.heardNew.length + hunk.old.length = hunk.new.length + hunk.heardOld.length :=
    length_heard hcut
  have hlen : (hunk.edit before).len = hunk.heardOld.length := rfl
  have htext : (hunk.edit before).text = hunk.heardNew := rfl
  rw [length_apply hstart, List.length_append, hafter, htext]
  rw [List.length_append] at hmade
  simp only [Edit.stop, hlen] at hstop ⊢
  omega

/-- The hunks leave at least the lines before them, or as many others. -/
lemma exists_made (hunks : List DiffHunk) (tail before : List Line) :
    ∃ made left, applyAll ((heardHunks before.length hunks).map Hunk.edit)
      (before ++ oldFrom tail hunks) = made ++ left ∧ made.length = before.length := by
  set lines := applyAll ((heardHunks before.length hunks).map Hunk.edit)
    (before ++ oldFrom tail hunks) with hlines
  have hwithin : StartsWithin (before ++ oldFrom tail hunks).length
      (heardHunks before.length hunks) := by
    rw [List.length_append]
    exact startsWithin_heardHunks
  have hlen : lines.length = patchedLength (before.length + (oldFrom tail hunks).length)
      (heardHunks before.length hunks) := by
    rw [hlines, length_applyHunks hwithin, List.length_append]
  refine ⟨lines.take before.length, lines.drop before.length,
    (List.take_append_drop _ _).symm, List.length_take_of_le ?_⟩
  rw [hlen]
  exact le_patchedLength_heardHunks

/-- The replacements make the new lines if and only if the diff is harmless. -/
theorem applyAll_heardHunks_iff {after : List Line} (h : after.length = before.length) :
    applyAll ((heardHunks before.length hunks).map Hunk.edit) (before ++ oldFrom tail hunks) =
        after ++ newFrom tail hunks ↔
      after = before ∧ HarmlessFrom tail before hunks := by
  induction hunks generalizing before after with
  | nil =>
    rw [heardHunks, HarmlessFrom, and_true]
    exact List.append_left_inj tail |>.trans eq_comm
  | cons hunk hunks ih =>
    set start := before ++ hunk.gap with hstart
    have hlen : start.length = before.length + hunk.gap.length := List.length_append
    have hold : before ++ oldFrom tail (hunk :: hunks) =
        start ++ hunk.old ++ oldFrom tail hunks := by
      rw [oldFrom, hstart, List.append_assoc, List.append_assoc]
    have hnew : after ++ newFrom tail (hunk :: hunks) =
        after ++ hunk.gap ++ hunk.new ++ newFrom tail hunks := by
      rw [newFrom, List.append_assoc, List.append_assoc]
    have hafter : (after ++ hunk.gap).length = start.length := by
      rw [hlen, List.length_append, h]
    have hgap : after ++ hunk.gap = start ↔ after = before := List.append_left_inj hunk.gap
    have hedit : Hunk.edit ⟨rangeStart start.length hunk.old, hunk.heardOld, hunk.heardNew⟩ =
        hunk.edit start := rfl
    rw [heardHunks, HarmlessFrom, ← hlen, List.map_cons, applyAll_cons, hold, hnew, hedit]
    by_cases hcut : hunk.IsCut
    · have hne : hunk.old ≠ [] := fun hnil => old_eq_nil_of hnil hcut
      rw [if_pos hcut, if_pos hcut, List.map_nil, applyAll_nil, apply_append stop_edit_le,
        apply_edit_of_ne_nil hne, List.append_assoc, List.append_assoc (after ++ hunk.gap),
        List.append_eq_append_iff_of_size_eq_left hafter.symm, eq_comm (a := start), hgap]
    · rw [if_neg hcut, if_neg hcut, ← List.length_append]
      -- the hunks behind this one leave at least as many lines as there are up to its end
      obtain ⟨made, left, hsplit, hmade⟩ := exists_made hunks tail (start ++ hunk.old)
      have hlines := length_apply_edit hcut hmade hafter
      have hstop : (hunk.edit start).stop ≤ made.length := hmade ▸ stop_edit_le
      rw [hsplit, apply_append hstop, List.append_eq_append_iff_of_size_eq_left hlines]
      constructor
      · rintro ⟨happly, rfl⟩
        obtain ⟨rfl, hrest⟩ := (ih hmade).mp hsplit
        obtain ⟨hsame, hharmless⟩ := (apply_edit_iff hafter).mp happly
        exact ⟨hgap.mp hsame, hharmless, hrest⟩
      · rintro ⟨hsame, hharmless, hrest⟩
        have hnewFrom := hsplit.symm.trans ((ih rfl).mpr ⟨rfl, hrest⟩)
        obtain ⟨rfl, hleft⟩ := (List.append_eq_append_iff_of_size_eq_left hmade).mp hnewFrom
        exact ⟨(apply_edit_iff hafter).mpr ⟨hgap.mpr hsame, hharmless⟩, hleft⟩

/-! ### The new contents -/

lemma joinPatched_eq_frame {lines : List Line} (h : lines ≠ []) :
    joinPatched lines = LineLog.frame '\n' lines := by
  induction lines with
  | nil => exact absurd rfl h
  | cons line lines ih =>
    cases lines with
    | nil => simp [joinPatched, LineLog.frame]
    | cons next lines =>
      have hnext := ih (List.cons_ne_nil next lines)
      rw [joinPatched] at hnext ⊢
      rw [List.intercalate_cons_cons, LineLog.frame_cons, ← hnext]
      simp only [List.append_assoc, List.cons_append, List.nil_append]

/-- Lines are written as a file of new lines if and only if they are these, and not none. -/
lemma joinPatched_eq_frame_iff {made new : List Line} (hmade : ∀ line ∈ made, '\n' ∉ line)
    (hnew : ∀ line ∈ new, '\n' ∉ line) (hnil : made = [] → new = []) :
    joinPatched made = LineLog.frame '\n' new ↔ new ≠ [] ∧ made = new := by
  by_cases hempty : made = []
  · rw [hempty, hnil hempty]
    exact iff_of_false (by rintro ⟨⟩) fun h => h.1 rfl
  · rw [joinPatched_eq_frame hempty]
    constructor
    · intro heq
      have hsame : made = new := LineLog.frame_injective hmade hnew heq
      exact ⟨hsame ▸ hempty, hsame⟩
    · rintro ⟨-, rfl⟩
      rfl

lemma newline_notMem_new {line : DiffLine} (h : '\n' ∉ line.text) {l : Line} (hl : l ∈ line.new) :
    '\n' ∉ l := by
  cases line with
  | context line =>
    rw [List.mem_singleton.mp hl]
    exact fun hmem => h (List.mem_cons_of_mem _ hmem)
  | blank =>
    rw [List.mem_singleton.mp hl]
    exact List.not_mem_nil
  | delete line => cases hl
  | insert line =>
    rw [List.mem_singleton.mp hl]
    exact fun hmem => h (List.mem_cons_of_mem _ hmem)

lemma text_mem_hunkTexts {line : DiffLine} {m n : Nat} (hhunk : hunk ∈ hunks)
    (hline : line ∈ hunk.body) : line.text ∈ hunkTexts m n hunks := by
  induction hunks generalizing m n with
  | nil => cases hhunk
  | cons first hunks ih =>
    rw [hunkTexts]
    refine List.mem_cons_of_mem _ (List.mem_append.mpr ?_)
    rcases List.mem_cons.mp hhunk with rfl | hhunk
    · exact .inl (List.mem_map_of_mem hline)
    · exact .inr (ih hhunk)

lemma mem_newFrom {l : Line} (h : l ∈ newFrom tail hunks) :
    l ∈ oldFrom tail hunks ∨ ∃ hunk ∈ hunks, l ∈ hunk.new := by
  induction hunks with
  | nil => exact .inl h
  | cons hunk hunks ih =>
    rw [oldFrom]
    rcases List.mem_append.mp h with h | h
    · exact .inl (List.mem_append_left _ h)
    · rcases List.mem_append.mp h with h | h
      · exact .inr ⟨hunk, List.mem_cons_self, h⟩
      · rcases ih h with h | ⟨hunk', hmem, h⟩
        · exact .inl (List.mem_append_right _ (List.mem_append_right _ h))
        · exact .inr ⟨hunk', List.mem_cons_of_mem _ hmem, h⟩

lemma mem_new_of_mem_heardNew {l : Line} (h : l ∈ hunk.heardNew) : l ∈ hunk.new := by
  obtain ⟨line, hline, hl⟩ := List.mem_flatMap.mp h
  refine List.mem_flatMap.mpr ⟨line, (List.takeWhile_sublist _).subset hline, ?_⟩
  rw [DiffLine.heardNew] at hl
  split_ifs at hl
  · cases hl
  · exact hl

lemma newLines_of_mem_heardHunks {n : Nat} {heard : Hunk} (h : heard ∈ heardHunks n hunks) :
    ∃ hunk ∈ hunks, heard.newLines = hunk.heardNew := by
  induction hunks generalizing n with
  | nil => cases h
  | cons hunk hunks ih =>
    rw [heardHunks] at h
    rcases List.mem_cons.mp h with rfl | h
    · exact ⟨hunk, List.mem_cons_self, rfl⟩
    · split_ifs at h
      · cases h
      · obtain ⟨hunk', hmem, hnew⟩ := ih h
        exact ⟨hunk', List.mem_cons_of_mem _ hmem, hnew⟩

namespace UnifiedDiff

variable (diff : UnifiedDiff) {text : List Char}

/-- The lines that the replacements make of the old file. -/
def made : List Line := applyAll ((heardHunks 0 diff.hunks).map Hunk.edit) diff.old

lemma applyHunks_heardHunks :
    applyHunks (heardHunks 0 diff.hunks) diff.old = some diff.made := by
  have hwithin : StartsWithin (0 + diff.old.length) (heardHunks 0 diff.hunks) :=
    startsWithin_heardHunks
  rw [Nat.zero_add] at hwithin
  exact applyHunks_eq hwithin

lemma made_eq_new_iff : diff.made = diff.new ↔ HarmlessFrom diff.tail [] diff.hunks := by
  have hiff : applyAll ((heardHunks ([] : List Line).length diff.hunks).map Hunk.edit)
      ([] ++ oldFrom diff.tail diff.hunks) = [] ++ newFrom diff.tail diff.hunks ↔
        [] = [] ∧ HarmlessFrom diff.tail [] diff.hunks := applyAll_heardHunks_iff rfl
  rw [made, old, new]
  simpa using hiff

/-- An empty file is made only where the new file is empty. -/
lemma new_eq_nil_of_made (h : diff.made = []) : diff.new = [] := by
  have hwithin : StartsWithin (0 + diff.old.length) (heardHunks 0 diff.hunks) :=
    startsWithin_heardHunks
  have hlen : patchedLength (0 + diff.old.length) (heardHunks 0 diff.hunks) = 0 := by
    rw [Nat.zero_add] at hwithin ⊢
    rw [← length_applyHunks hwithin]
    exact congrArg List.length h
  have hnew : patchedLength (0 + diff.old.length) (heardHunks 0 diff.hunks) =
      0 + diff.new.length ∨ 0 < patchedLength (0 + diff.old.length) (heardHunks 0 diff.hunks) :=
    patchedLength_heardHunks
  rw [hlen] at hnew
  exact List.length_eq_zero_iff.mp (by omega)

variable {diff}

lemma newline_notMem_body (htext : LineLog.lines '\n' '\r' text = diff.lines) {line : DiffLine}
    (hhunk : hunk ∈ diff.hunks) (hline : line ∈ hunk.body) : '\n' ∉ line.text := by
  have hmem : line.text ∈ diff.lines := by
    rw [UnifiedDiff.lines]
    refine List.mem_append_right _ (List.mem_cons_of_mem _ (List.mem_cons_of_mem _ ?_))
    exact List.mem_append_left _ (text_mem_hunkTexts hhunk hline)
  exact LineLog.notMem_of_mem_lines (htext ▸ hmem)

lemma newline_notMem_of_mem_new (htext : LineLog.lines '\n' '\r' text = diff.lines)
    (hhunk : hunk ∈ diff.hunks) {l : Line} (hl : l ∈ hunk.new) : '\n' ∉ l := by
  obtain ⟨line, hline, hl⟩ := List.mem_flatMap.mp hl
  exact newline_notMem_new (newline_notMem_body htext hhunk hline) hl

/-- The diff makes the new file if and only if what is written is the new file. -/
lemma makesNew_iff_join (htext : LineLog.lines '\n' '\r' text = diff.lines)
    (hold : ∀ line ∈ diff.old, '\n' ∉ line ∧ '\r' ∉ line) (hfits : diff.old.length < 2 ^ 64) :
    MakesNew text diff.old diff.new ↔ joinPatched diff.made = LineLog.frame '\n' diff.new := by
  obtain ⟨path, more, hparse⟩ := parsePatchLines_lines diff hfits
  rw [← htext] at hparse
  have hlines : LineLog.lines '\n' '\r' (LineLog.frame '\n' diff.old) = diff.old := by
    have hframe : LineLog.lines '\n' '\r' (LineLog.frame '\n' diff.old ++ []) =
        diff.old ++ LineLog.lines '\n' '\r' [] :=
      LineLog.lines_frame_append fun line hline =>
        ⟨(hold line hline).1, fun hlast => (hold line hline).2 (List.mem_of_getLast? hlast)⟩
    simpa [LineLog.lines, LineLog.linesFrom] using hframe
  have happly : applyPatchWithDiff ⟨path, heardHunks 0 diff.hunks, false, false⟩
      (some (.text (LineLog.frame '\n' diff.old))) =
        some (.ok (modifiedMessage (heardHunks 0 diff.hunks)),
          some (.text (joinPatched diff.made))) := by
    rw [applyPatchWithDiff_text rfl rfl, modifiedContents, hlines, diff.applyHunks_heardHunks]
    rfl
  constructor
  · rintro ⟨patch, more', hparse', hmade⟩
    obtain ⟨rfl, -⟩ := List.cons.inj (hparse.symm.trans hparse')
    have hsame := happly.symm.trans hmade
    simpa only [Option.some.injEq, Prod.mk.injEq, FileContents.text.injEq, true_and] using hsame
  · intro hjoin
    exact ⟨_, more, hparse, by rw [happly, hjoin]⟩

lemma newline_notMem_made (htext : LineLog.lines '\n' '\r' text = diff.lines)
    (hold : ∀ line ∈ diff.old, '\n' ∉ line ∧ '\r' ∉ line) {l : Line} (hl : l ∈ diff.made) :
    '\n' ∉ l := by
  rcases mem_applyAll hl with hl | ⟨e, he, hl⟩
  · exact (hold l hl).1
  · obtain ⟨heard, hheard, rfl⟩ := List.mem_map.mp he
    obtain ⟨hunk, hhunk, hnew⟩ := newLines_of_mem_heardHunks hheard
    have hl : l ∈ hunk.heardNew := hnew ▸ hl
    exact newline_notMem_of_mem_new htext hhunk (mem_new_of_mem_heardNew hl)

end UnifiedDiff

/-- The tool makes the new file of the old one if and only if it goes by the diff. -/
theorem makesNew_iff_isHeard {text : List Char} (diff : UnifiedDiff)
    (htext : LineLog.lines '\n' '\r' text = diff.lines)
    (hold : ∀ line ∈ diff.old, '\n' ∉ line ∧ '\r' ∉ line) (hfits : diff.old.length < 2 ^ 64) :
    MakesNew text diff.old diff.new ↔ diff.IsHeard := by
  have hnew : ∀ line ∈ diff.new, '\n' ∉ line := by
    intro line hline
    rcases mem_newFrom hline with hline | ⟨hunk, hhunk, hline⟩
    · exact (hold line hline).1
    · exact UnifiedDiff.newline_notMem_of_mem_new htext hhunk hline
  have hmade : ∀ line ∈ diff.made, '\n' ∉ line := fun line hline =>
    UnifiedDiff.newline_notMem_made htext hold hline
  rw [UnifiedDiff.makesNew_iff_join htext hold hfits,
    joinPatched_eq_frame_iff hmade hnew diff.new_eq_nil_of_made, diff.made_eq_new_iff]
  constructor
  · rintro ⟨hne, hharmless⟩
    exact ⟨hne, hharmless⟩
  · rintro ⟨hne, hharmless⟩
    exact ⟨hne, hharmless⟩

/-- A change of the second of three lines. -/
def changeSecond : UnifiedDiff where
  preamble := []
  oldFile := "a/f".toList
  newFile := "b/f".toList
  hunks := [⟨[], [.context "a".toList, .delete "b".toList, .insert "x".toList], false, false, []⟩]
  tail := ["c".toList]
  after := []
  preamble_ok := by simp
  oldFile_ok := by decide
  newFile_ok := by decide
  hunks_ne_nil := by decide
  after_ok := by rintro _ ⟨⟩

theorem makesNew_iff_isHeard_changeSecond :
    MakesNew (LineLog.frame '\n' changeSecond.lines) changeSecond.old changeSecond.new := by
  refine (makesNew_iff_isHeard changeSecond ?_ ?_ ?_).mpr ⟨?_, ?_⟩
  · decide +kernel
  · decide +kernel
  · decide +kernel
  · decide +kernel
  · decide +kernel

/-- A line is inserted at the end of the file, without context. -/
def insertLast : UnifiedDiff where
  preamble := []
  oldFile := "a/f".toList
  newFile := "b/f".toList
  hunks := [⟨["a".toList, "b".toList], [.insert "c".toList], true, true, []⟩]
  tail := []
  after := []
  preamble_ok := by simp
  oldFile_ok := by decide
  newFile_ok := by decide
  hunks_ne_nil := by decide
  after_ok := by rintro _ ⟨⟩

theorem not_makesNew : ¬ ∀ (diff : UnifiedDiff) text,
    LineLog.lines '\n' '\r' text = diff.lines →
    (∀ line ∈ diff.old, '\n' ∉ line ∧ '\r' ∉ line) → diff.old.length < 2 ^ 64 →
      MakesNew text diff.old diff.new := by
  intro h
  have htext : LineLog.lines '\n' '\r' (LineLog.frame '\n' insertLast.lines) =
      insertLast.lines := by decide +kernel
  have hold : ∀ line ∈ insertLast.old, '\n' ∉ line ∧ '\r' ∉ line := by decide +kernel
  have hfits : insertLast.old.length < 2 ^ 64 := by decide +kernel
  have hmakes := h insertLast _ htext hold hfits
  rw [UnifiedDiff.makesNew_iff_join htext hold hfits] at hmakes
  exact absurd hmakes (by decide +kernel)

end Jcode
