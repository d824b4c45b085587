import Jcode.Foundation.SplitFirst

/-!
# Occurrences that overlap and searches that do not see them

A search goes on behind what it has found. It counts one occurrence where there may be more of
them, which overlap the one it has found.
-/

universe u
variable {α : Type u}

/-- `sep` occurs in `l` behind `before`. -/
def OccursAt (sep l before : List α) : Prop := before ++ sep <+: l

/-- Of two occurrences the second one begins behind the first one. -/
def NoOverlap (sep l : List α) : Prop :=
  ∀ before before', OccursAt sep l before → OccursAt sep l before' →
    before.length < before'.length → before.length + sep.length ≤ before'.length

section

variable {sep l before before' after : List α}

lemma OccursAt.isPrefix (h : OccursAt sep l before) : before <+: l :=
  (List.prefix_append _ _).trans h

/-- An occurrence is known by its position. -/
lemma OccursAt.eq_of_length (h : OccursAt sep l before) (h' : OccursAt sep l before')
    (hlen : before.length = before'.length) : before = before' :=
  (List.prefix_of_prefix_length_le h.isPrefix h'.isPrefix (Nat.le_of_eq hlen)).eq_of_length hlen

lemma occursAt_of_eq (h : l = before ++ sep ++ after) : OccursAt sep l before := by
  rw [OccursAt, h]
  exact List.prefix_append _ _

/-- An occurrence that begins behind another one is in the rest. -/
lemma OccursAt.in_rest (h : OccursAt sep (before ++ sep ++ after) before')
    (hlen : before.length + sep.length ≤ before'.length) : sep <:+: after := by
  obtain ⟨more, hmore⟩ := h
  have hfront : before ++ sep <+: before' := by
    apply List.prefix_of_prefix_length_le (List.prefix_append _ after)
    · rw [← hmore, List.append_assoc]
      exact List.prefix_append _ _
    · rwa [List.length_append]
  obtain ⟨gap, rfl⟩ := hfront
  rw [List.append_assoc, List.append_assoc, List.append_right_inj] at hmore
  exact ⟨gap, more, by rw [List.append_assoc, hmore]⟩

end

section

variable [DecidableEq α]

instance (sep l before : List α) : Decidable (OccursAt sep l before) :=
  inferInstanceAs (Decidable (_ <+: _))

/-- The pieces between the occurrences that the search finds; an empty separator is found in front
of every element and at the end. -/
def splitAll (sep l : List α) : List (List α) :=
  if hsep : sep = [] then [] :: l.map ([·]) ++ [[]]
  else
    match hsplit : splitFirst sep l with
    | none => [l]
    | some (before, after) =>
      have := length_lt_of_splitFirst hsep hsplit
      before :: splitAll sep after
termination_by l.length

/-- What stands before and behind the first occurrence, which may be of nothing. -/
def findFirst (sep l : List α) : Option (List α × List α) :=
  if sep = [] then some ([], l) else splitFirst sep l

variable {sep l before before' after : List α}

lemma eq_of_findFirst (h : findFirst sep l = some (before, after)) :
    l = before ++ sep ++ after := by
  rw [findFirst] at h
  split_ifs at h with hsep
  · cases h
    rw [hsep, List.nil_append, List.nil_append]
  · exact eq_of_splitFirst h

lemma isSome_findFirst : (findFirst sep l).isSome ↔ sep <:+: l := by
  by_cases hsep : sep = []
  · simp [findFirst, hsep]
  · rw [findFirst, if_neg hsep, isSome_splitFirst hsep]

/-- No occurrence is in front of the one that is found first. -/
lemma length_le_of_occursAt (hsep : sep ≠ []) (h : splitFirst sep l = some (before, after))
    (hocc : OccursAt sep l before') : before.length ≤ before'.length := by
  obtain ⟨more, hmore⟩ := hocc
  have hfound : (splitFirst sep (before' ++ sep)).isSome :=
    (isSome_splitFirst hsep).mpr (List.suffix_append _ _).isInfix
  obtain ⟨⟨x, y⟩, hxy⟩ := Option.isSome_iff_exists.mp hfound
  -- what is found up to the end of this occurrence is what is found in the whole
  have hsame : splitFirst sep (before' ++ sep ++ more) = some (x, y ++ more) :=
    splitFirst_append hxy
  rw [hmore, h] at hsame
  cases hsame
  have hlength := congrArg List.length (eq_of_splitFirst hxy)
  simp only [List.length_append] at hlength
  omega

/-- One occurrence is found: nothing is found behind it. -/
lemma exists_of_length_splitAll (h : (splitAll sep l).length = 2) :
    ∃ before after, findFirst sep l = some (before, after) ∧ l = before ++ sep ++ after ∧
      (sep = [] → l = []) ∧ (sep ≠ [] → splitFirst sep after = none) := by
  rw [splitAll] at h
  split_ifs at h with hsep
  · have hnil : l = [] := by simpa using h
    refine ⟨[], [], ?_, ?_, fun _ => hnil, fun hne => (hne hsep).elim⟩
    · rw [findFirst, if_pos hsep, hnil]
    · rw [hsep, hnil]
      rfl
  · split at h
    · cases h
    · rename_i before after hsplit
      refine ⟨before, after, ?_, eq_of_splitFirst hsplit, fun hnil => (hsep hnil).elim, fun _ => ?_⟩
      · rw [findFirst, if_neg hsep, hsplit]
      · rw [splitAll, dif_neg hsep] at h
        split at h
        · assumption
        · rename_i before' after' hsplit'
          rw [splitAll, dif_neg hsep] at h
          split at h <;> simp at h

/-- If one occurrence is found and none overlap, it is the only one. -/
lemma OccursAt.unique_of_noOverlap (hcount : (splitAll sep l).length = 2)
    (hno : NoOverlap sep l) (h : OccursAt sep l before) (h' : OccursAt sep l before') :
    before = before' := by
  obtain ⟨first, rest, hfind, heq, hempty, hrest⟩ := exists_of_length_splitAll hcount
  by_cases hsep : sep = []
  · have hnil (b : List α) (hb : OccursAt sep l b) : b = [] := by
      have hpre := hb.isPrefix
      rw [hempty hsep] at hpre
      exact List.prefix_nil.mp hpre
    rw [hnil before h, hnil before' h']
  · rw [findFirst, if_neg hsep] at hfind
    have hfound : OccursAt sep l first := occursAt_of_eq heq
    have hfirst (b : List α) (hb : OccursAt sep l b) : first = b := by
      apply hfound.eq_of_length hb
      by_contra hne
      have hlt : first.length < b.length :=
        Nat.lt_of_le_of_ne (length_le_of_occursAt hsep hfind hb) hne
      have hin := (heq ▸ hb).in_rest (hno first b hfound hb hlt)
      rw [← isSome_splitFirst hsep, hrest hsep] at hin
      cases hin
    rw [← hfirst before h, hfirst before' h']

end

/-! ### Separators -/

section

variable {P : α → Prop} {term front sep back : List α} {a : α}

/-- What has no separator in it is found on one side of a separator. -/
lemma infix_of_infix_separator (hterm : ∀ b ∈ term, P b) (ha : ¬ P a)
    (h : term <:+: front ++ a :: back) : term <:+: front ∨ term <:+: back := by
  have hnil {rest : List α} (hrest : ∀ b ∈ rest, P b) (h : rest <+: a :: back) : rest = [] := by
    cases rest with
    | nil => rfl
    | cons b rest =>
      obtain ⟨rfl, -⟩ := List.cons_prefix_cons.mp h
      exact absurd (hrest b List.mem_cons_self) ha
  rcases List.infix_append_iff.mp h with h | h | ⟨left, right, rfl, hleft, hright⟩
  · exact .inl h
  · rcases List.infix_cons_iff.mp h with h | h
    · rw [hnil hterm h]
      exact .inl List.nil_infix
    · exact .inr h
  · rw [hnil (fun b hb => hterm b (List.mem_append_right _ hb)) hright, List.append_nil]
    exact .inl hleft.isInfix

lemma infix_of_infix_separators (hterm : ∀ b ∈ term, P b) (hsep : sep ≠ [])
    (hnone : ∀ b ∈ sep, ¬ P b) (h : term <:+: front ++ sep ++ back) :
    term <:+: front ∨ term <:+: back := by
  induction sep generalizing front with
  | nil => exact absurd rfl hsep
  | cons a sep ih =>
    obtain ⟨ha, hnone⟩ := List.forall_mem_cons.mp hnone
    rw [List.append_assoc, List.cons_append] at h
    rcases infix_of_infix_separator hterm ha h with h | h
    · exact .inl h
    · cases sep with
      | nil => exact .inr h
      | cons b sep =>
        have hrest : term <:+: [] ++ (b :: sep) ++ back := h
        rcases ih (List.cons_ne_nil b sep) hnone hrest with h | h
        · rw [List.infix_nil.mp h]
          exact .inr List.nil_infix
        · exact .inr h

/-- What has no separator in it is still found when pieces without anything else than separators
are replaced. -/
lemma infix_flatten_of_pieces {pieces pieces' : List (List α)} (hterm : ∀ b ∈ term, P b)
    (hpieces : List.Forall₂ (fun piece piece' => piece = piece' ∨
      (piece ≠ [] ∧ ∀ b ∈ piece, ¬ P b)) pieces pieces')
    (h : term <:+: front ++ pieces.flatten) : term <:+: front ++ pieces'.flatten := by
  induction hpieces generalizing front with
  | nil => exact h
  | @cons piece piece' pieces pieces' hpiece _ ih =>
    rw [List.flatten_cons, ← List.append_assoc] at h ⊢
    rcases hpiece with rfl | ⟨hne, hnone⟩
    · exact ih h
    · rcases infix_of_infix_separators hterm hne hnone h with h | h
      · exact h.trans ((List.prefix_append _ _).trans (List.prefix_append _ _)).isInfix
      · have hrest : term <:+: [] ++ pieces'.flatten := ih h
        exact hrest.trans (List.suffix_append _ _).isInfix

end
