import Jcode.Foundation.Occurrences
import Mathlib.Data.List.Infix

/-!
# The pieces of a list

What `splitAll` makes of a list whose occurrences are known, and the replacement of all occurrences
that a search finds.
-/

universe u

variable {α : Type u} {sep new l rest before after piece : List α}

/-! ### Pieces between elements -/

lemma mem_splitOnPPrepend {p : α → Bool} {l acc piece : List α}
    (h : piece ∈ l.splitOnPPrepend p acc) (hacc : ∀ a ∈ acc, ¬ p a) :
    piece <:+: acc.reverse ++ l ∧ ∀ a ∈ piece, ¬ p a := by
  induction l generalizing acc with
  | nil =>
    rw [List.splitOnPPrepend_nil, List.mem_singleton] at h
    subst h
    exact ⟨by simp, by simpa using hacc⟩
  | cons a l ih =>
    rw [List.splitOnPPrepend_cons_eq_if] at h
    split_ifs at h with hp
    · rcases List.mem_cons.mp h with rfl | h
      · exact ⟨(List.prefix_append _ _).isInfix, by simpa using hacc⟩
      · have hrest : piece ∈ l.splitOnPPrepend p [] := h
        obtain ⟨hwithin, hnone⟩ := ih hrest (by simp)
        refine ⟨hwithin.trans ?_, hnone⟩
        exact ((List.suffix_cons a l).trans (List.suffix_append _ _)).isInfix
    · obtain ⟨hwithin, hnone⟩ := ih h (List.forall_mem_cons.mpr ⟨hp, hacc⟩)
      exact ⟨by simpa using hwithin, hnone⟩

lemma mem_splitOnP {p : α → Bool} {l piece : List α} (h : piece ∈ l.splitOnP p) :
    piece <:+: l ∧ ∀ a ∈ piece, ¬ p a := by
  have hpiece : piece ∈ l.splitOnPPrepend p [] := h
  exact mem_splitOnPPrepend hpiece (by simp)

/-! ### Pieces between occurrences -/

variable [DecidableEq α]

/-- Every occurrence that a search finds is replaced. -/
def replaceAll (sep new l : List α) : List α := new.intercalate (splitAll sep l)

/-- An occurrence is the first one if there is none before its end. -/
lemma splitFirst_eq_of_first (hsep : sep ≠ []) (h : ¬ sep <:+: before ++ sep.dropLast) :
    splitFirst sep (before ++ sep ++ rest) = some (before, rest) := by
  have hsome : (splitFirst sep (before ++ sep)).isSome :=
    (isSome_splitFirst hsep).mpr (List.suffix_append _ _).isInfix
  obtain ⟨⟨front, back⟩, hsplit⟩ := Option.isSome_iff_exists.mp hsome
  have heq := eq_of_splitFirst hsplit
  -- an occurrence that ends earlier is one before the last element
  have hback : back = [] := by
    by_contra hne
    apply h
    refine ⟨front, back.dropLast, ?_⟩
    have hlast : before ++ sep.dropLast = (before ++ sep).dropLast :=
      (List.dropLast_append_of_ne_nil hsep).symm
    rw [hlast, heq, List.dropLast_append_of_ne_nil hne]
  rw [splitFirst_append hsplit, hback, List.nil_append]
  rw [hback, List.append_nil] at heq
  rw [List.append_cancel_right heq]

/-- Before the end of the first occurrence there is none. -/
lemma not_infix_of_splitFirst (hsep : sep ≠ []) (h : splitFirst sep l = some (before, after)) :
    ¬ sep <:+: before ++ sep.dropLast := by
  rintro ⟨x, y, hxy⟩
  have hocc : OccursAt sep l x := by
    have hprefix : before ++ sep.dropLast <+: l := by
      rw [eq_of_splitFirst h, List.append_assoc]
      exact (List.prefix_append_right_inj _).mpr
        ((List.dropLast_prefix sep).trans (List.prefix_append _ _))
    rw [← hxy] at hprefix
    exact (List.prefix_append _ _).trans hprefix
  have hle := length_le_of_occursAt hsep h hocc
  have hpos := List.length_pos_iff.mpr hsep
  have hlength := congrArg List.length hxy
  simp only [List.length_append, List.length_dropLast] at hlength
  omega

lemma splitAll_of_none (hsep : sep ≠ []) (h : ¬ sep <:+: l) : splitAll sep l = [l] := by
  have hnone : splitFirst sep l = none := by
    rwa [← Option.not_isSome_iff_eq_none, isSome_splitFirst hsep]
  rw [splitAll, dif_neg hsep]
  split
  · rfl
  · rename_i hsplit
    rw [hnone] at hsplit
    cases hsplit

lemma splitAll_of_some (hsep : sep ≠ []) (h : splitFirst sep l = some (before, after)) :
    splitAll sep l = before :: splitAll sep after := by
  rw [splitAll, dif_neg hsep]
  split
  · rename_i hsplit
    rw [h] at hsplit
    cases hsplit
  · rename_i hsplit
    rw [h] at hsplit
    cases hsplit
    rfl

lemma splitAll_of_first (hsep : sep ≠ []) (h : ¬ sep <:+: before ++ sep.dropLast) :
    splitAll sep (before ++ sep ++ rest) = before :: splitAll sep rest :=
  splitAll_of_some hsep (splitFirst_eq_of_first hsep h)

lemma splitAll_ne_nil (hsep : sep ≠ []) : splitAll sep l ≠ [] := by
  rw [splitAll, dif_neg hsep]
  split
  · exact List.cons_ne_nil _ _
  · exact List.cons_ne_nil _ _

lemma replaceAll_of_none (hsep : sep ≠ []) (h : ¬ sep <:+: l) : replaceAll sep new l = l := by
  rw [replaceAll, splitAll_of_none hsep h]
  simp [List.intercalate]

lemma replaceAll_of_some (hsep : sep ≠ []) (h : splitFirst sep l = some (before, after)) :
    replaceAll sep new l = before ++ new ++ replaceAll sep new after := by
  rw [replaceAll, splitAll_of_some hsep h, replaceAll]
  obtain ⟨next, pieces, hpieces⟩ := List.exists_cons_of_ne_nil (splitAll_ne_nil hsep (l := after))
  rw [hpieces]
  simp [List.intercalate]

/-- A piece is part of the list and has no occurrence. -/
lemma of_mem_splitAll (hsep : sep ≠ []) (h : piece ∈ splitAll sep l) :
    piece <:+: l ∧ ¬ sep <:+: piece := by
  induction hlength : l.length using Nat.strong_induction_on generalizing l with
  | _ n ih =>
    by_cases hinfix : sep <:+: l
    · obtain ⟨⟨before, after⟩, hsplit⟩ :=
        Option.isSome_iff_exists.mp ((isSome_splitFirst hsep).mpr hinfix)
      have heq := eq_of_splitFirst hsplit
      rw [splitAll_of_some hsep hsplit] at h
      rcases List.mem_cons.mp h with rfl | h
      · refine ⟨⟨[], sep ++ after, by rw [heq]; simp⟩, ?_⟩
        exact fun hpiece => not_infix_of_splitFirst hsep hsplit
          (hpiece.trans (List.prefix_append _ _).isInfix)
      · have hlt := length_lt_of_splitFirst hsep hsplit
        obtain ⟨hpiece, hnone⟩ := ih after.length (by omega) h rfl
        rw [heq]
        exact ⟨hpiece.trans (List.suffix_append _ _).isInfix, hnone⟩
    · rw [splitAll_of_none hsep hinfix, List.mem_singleton] at h
      subst h
      exact ⟨List.infix_rfl, hinfix⟩

/-- The pieces of two lists with an occurrence between them, if no occurrence reaches into it. -/
lemma splitAll_append (hsep : sep ≠ [])
    (h : ∀ back, back <:+ l → sep <:+: back ++ sep.dropLast → sep <:+: back) :
    splitAll sep (l ++ sep ++ rest) = splitAll sep l ++ splitAll sep rest := by
  induction hlength : l.length using Nat.strong_induction_on generalizing l with
  | _ n ih =>
    by_cases hinfix : sep <:+: l
    · obtain ⟨⟨before, after⟩, hsplit⟩ :=
        Option.isSome_iff_exists.mp ((isSome_splitFirst hsep).mpr hinfix)
      have hlt := length_lt_of_splitFirst hsep hsplit
      have hsuffix : after <:+ l := by
        rw [eq_of_splitFirst hsplit]
        exact List.suffix_append _ _
      have hlonger : splitFirst sep (l ++ (sep ++ rest)) = some (before, after ++ (sep ++ rest)) :=
        splitFirst_append hsplit
      rw [List.append_assoc, splitAll_of_some hsep hlonger, splitAll_of_some hsep hsplit,
        ← List.append_assoc]
      rw [ih after.length (by omega) (fun back hback => h back (hback.trans hsuffix)) rfl,
        List.cons_append]
    · have hfirst : ¬ sep <:+: l ++ sep.dropLast :=
        fun hover => hinfix (h l List.suffix_rfl hover)
      rw [splitAll_of_first hsep hfirst, splitAll_of_none hsep hinfix]
      rfl

omit [DecidableEq α] in
lemma mem_of_mem_intercalate {a : α} {parts : List (List α)} (h : a ∈ sep.intercalate parts) :
    a ∈ sep ∨ ∃ part ∈ parts, a ∈ part := by
  induction parts with
  | nil => cases h
  | cons part parts ih =>
    cases parts with
    | nil =>
      rw [List.intercalate_singleton] at h
      exact .inr ⟨part, List.mem_cons_self, h⟩
    | cons next parts =>
      rw [List.intercalate_cons_cons, List.mem_append, List.mem_append] at h
      rcases h with (h | h) | h
      · exact .inr ⟨part, List.mem_cons_self, h⟩
      · exact .inl h
      · rcases ih h with h | ⟨part', hpart', h⟩
        · exact .inl h
        · exact .inr ⟨part', List.mem_cons_of_mem _ hpart', h⟩

/-- Nothing but the replacement is new. -/
lemma mem_replaceAll (hsep : sep ≠ []) {a : α} (h : a ∈ replaceAll sep new l) :
    a ∈ l ∨ a ∈ new := by
  rcases mem_of_mem_intercalate h with h | ⟨piece, hpiece, h⟩
  · exact .inr h
  · exact .inl ((of_mem_splitAll hsep hpiece).1.subset h)

lemma replaceAll_ne_nil (hsep : sep ≠ []) (hnew : new ≠ []) (hl : l ≠ []) :
    replaceAll sep new l ≠ [] := by
  by_cases hinfix : sep <:+: l
  · obtain ⟨⟨before, after⟩, hsplit⟩ :=
      Option.isSome_iff_exists.mp ((isSome_splitFirst hsep).mpr hinfix)
    rw [replaceAll_of_some hsep hsplit]
    simp [hnew]
  · rwa [replaceAll_of_none hsep hinfix]

/-- The last element is that of the list, or one of the replacement. -/
lemma getLast?_replaceAll (hsep : sep ≠ []) (hnew : new ≠ []) {a : α}
    (h : a ∈ (replaceAll sep new l).getLast?) : a ∈ l.getLast? ∨ a ∈ new := by
  induction hlength : l.length using Nat.strong_induction_on generalizing l with
  | _ n ih =>
    by_cases hinfix : sep <:+: l
    · obtain ⟨⟨before, after⟩, hsplit⟩ :=
        Option.isSome_iff_exists.mp ((isSome_splitFirst hsep).mpr hinfix)
      have hlt := length_lt_of_splitFirst hsep hsplit
      rw [replaceAll_of_some hsep hsplit, List.getLast?_append] at h
      cases hrest : (replaceAll sep new after).getLast? with
      | none =>
        rw [hrest, Option.none_or, List.getLast?_append_of_ne_nil _ hnew] at h
        exact .inr (List.mem_of_mem_getLast? h)
      | some b =>
        rw [hrest, Option.some_or] at h
        cases h
        rcases ih after.length (by omega) (hrest : a ∈ _) rfl with hafter | hafter
        · left
          rw [eq_of_splitFirst hsplit, List.getLast?_append]
          rw [Option.mem_def] at hafter ⊢
          rw [hafter, Option.some_or]
        · exact .inr hafter
    · rw [replaceAll_of_none hsep hinfix] at h
      exact .inl h

