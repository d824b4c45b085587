import Jcode.Background.Notification

/-!
# The text of a notification

What the normalization, the trimming and the sanitization leave of a text.
-/

namespace Jcode

variable {text front back summary : List Char} {c : Char} {preview : String}

def zeroWidthSpace : Char := Char.ofNat 0x200b

/-! ### Line ends -/

lemma carriageReturn_notMem_normalizeLineEnds : '\r' ∉ normalizeLineEnds text := by
  unfold normalizeLineEnds
  rw [List.mem_map]
  rintro ⟨c, -, hc⟩
  split_ifs at hc with h
  · cases hc
  · exact h hc

lemma normalizeLineEnds_eq (h : '\r' ∉ text) : normalizeLineEnds text = text := by
  have hnone : ¬ "\r\n".toList <:+: text := by
    intro hpart
    exact h (hpart.subset (by decide))
  rw [normalizeLineEnds, replaceAll_of_none (by decide) hnone]
  conv_rhs => rw [← List.map_id text]
  apply List.map_congr_left
  intro c hc
  apply if_neg
  rintro rfl
  exact h hc

lemma mem_of_mem_lines {line : List Char} (h : line ∈ lines text) (hc : c ∈ line) :
    c ∈ text ∧ c ≠ '\n' := by
  have hpiece : ∀ piece ∈ text.splitOn '\n', c ∈ piece → c ∈ text ∧ c ≠ '\n' := by
    intro piece hpiece hmem
    obtain ⟨hpart, hnone⟩ := mem_splitOnP hpiece
    exact ⟨hpart.subset hmem, by simpa using hnone c hmem⟩
  rcases List.mem_append.mp h with h | h
  · obtain ⟨piece, hmem, rfl⟩ := List.mem_map.mp h
    apply hpiece piece ((List.dropLast_sublist _).subset hmem)
    unfold stripCarriageReturn at hc
    split_ifs at hc
    · exact (List.dropLast_sublist _).subset hc
    · exact hc
  · rw [Option.mem_toList, Option.filter_eq_some_iff] at h
    exact hpiece line (List.mem_of_mem_getLast? h.1) hc

/-! ### Trimmed texts -/

lemma trimChars_sublist (text : List Char) : (trimChars text).Sublist text :=
  (List.rdropWhile_prefix _ _).sublist.trans (List.dropWhile_sublist _)

lemma trimChars_eq (hhead : ∀ c ∈ text.head?, isWhitespace c = false)
    (hlast : ∀ c ∈ text.getLast?, isWhitespace c = false) : trimChars text = text := by
  have hdrop : text.dropWhile isWhitespace = text := by
    cases text with
    | nil => rfl
    | cons c text => exact List.dropWhile_cons_of_neg (by simp [hhead c rfl])
  rw [trimChars, hdrop, List.rdropWhile_eq_self_iff]
  intro hne
  rw [hlast _ (List.getLast?_eq_getLast_of_ne_nil hne)]
  exact Bool.false_ne_true

/-! ### Sanitized texts -/

lemma replacement_eq : "``\u200b`".toList =
    [backtick, backtick, zeroWidthSpace, backtick] := by decide

lemma fence_ne_nil : fence ≠ [] := by decide

lemma mem_sanitizeFencedBlock (h : c ∈ sanitizeFencedBlock text) :
    c ∈ text ∨ c = backtick ∨ c = zeroWidthSpace := by
  rcases mem_replaceAll fence_ne_nil h with h | h
  · exact .inl h
  · rw [replacement_eq] at h
    simp only [List.mem_cons, List.not_mem_nil, or_false] at h
    tauto

/-! ### Previews and summaries -/

/-- A preview has no carriage return, is not empty and does not end with a line feed. -/
lemma preview_spec {shown : List Char} (h : normalizeBackgroundTaskPreview preview = some shown) :
    '\r' ∉ shown ∧ shown ≠ [] ∧ ∀ c ∈ shown.getLast?, c ≠ '\n' := by
  simp only [normalizeBackgroundTaskPreview, Option.ite_none_left_eq_some] at h
  obtain ⟨htrim, heq⟩ := h
  cases heq
  refine ⟨?_, ?_, ?_⟩
  · intro hmem
    rcases mem_sanitizeFencedBlock hmem with hmem | hmem | hmem
    · exact carriageReturn_notMem_normalizeLineEnds ((List.rdropWhile_prefix _ _).subset hmem)
    · exact absurd hmem (by decide)
    · exact absurd hmem (by decide)
  · apply replaceAll_ne_nil fence_ne_nil (by decide)
    intro hnil
    rw [hnil] at htrim
    exact htrim rfl
  · rintro c hc rfl
    rcases getLast?_replaceAll fence_ne_nil (by decide) hc with hc | hc
    · obtain ⟨hne, hlast⟩ := List.mem_getLast?_eq_getLast hc
      have hspace := List.rdropWhile_last_not isWhitespace _ hne
      rw [← hlast] at hspace
      exact hspace (by decide)
    · rw [replacement_eq] at hc
      exact absurd hc (by decide)

lemma stripStreamPrefix_subset {line : List Char} : stripStreamPrefix line ⊆ line := by
  have hstrip : ∀ start rest : List Char, start.isPrefixOf? (trimChars line) = some rest →
      rest ⊆ line := by
    intro start rest h
    rw [List.isPrefixOf?_eq_some_iff_append_eq] at h
    have htrim := trimChars_sublist line
    rw [← h] at htrim
    exact List.Subset.trans (List.sublist_append_right start rest).subset htrim.subset
  unfold stripStreamPrefix
  cases herr : "[stderr] ".toList.isPrefixOf? (trimChars line) with
  | some rest => exact hstrip _ _ herr
  | none =>
    cases hout : "[stdout] ".toList.isPrefixOf? (trimChars line) with
    | some rest => exact hstrip _ _ hout
    | none => exact (trimChars_sublist line).subset

/-- A summary is part of a line. -/
lemma summary_spec (h : backgroundTaskFailureSummary preview = some summary) :
    '\n' ∉ summary ∧ '\r' ∉ summary := by
  have hmem : summary ∈ (lines (normalizeLineEnds preview.toList)).map stripStreamPrefix := by
    unfold backgroundTaskFailureSummary at h
    rcases Option.or_eq_some_iff.mp h with h | ⟨-, h⟩ <;>
      exact List.mem_of_mem_filter (List.mem_of_find?_eq_some h)
  obtain ⟨line, hline, rfl⟩ := List.mem_map.mp hmem
  constructor
  · intro hc
    exact (mem_of_mem_lines hline (stripStreamPrefix_subset hc)).2 rfl
  · intro hc
    exact carriageReturn_notMem_normalizeLineEnds
      (mem_of_mem_lines hline (stripStreamPrefix_subset hc)).1

end Jcode
