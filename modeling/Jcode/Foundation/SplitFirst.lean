import Mathlib.Tactic.Common

/-!
# The first occurrence of a separator

`splitFirst sep l` cuts a list at the first place where `sep` occurs in it. What is cut off stays
the same when the list goes on, so a list that grows at its end can be cut as it grows.
-/

universe u
variable {α : Type u} [DecidableEq α]

/-- What stands before and behind the first occurrence of `sep`, which is not empty. -/
def splitFirst (sep : List α) : List α → Option (List α × List α)
  | [] => none
  | a :: l =>
    if sep <+: a :: l then some ([], (a :: l).drop sep.length)
    else (splitFirst sep l).map fun (before, after) => (a :: before, after)

variable {sep l more before after : List α}

lemma splitFirst_cons_of_isPrefix {a : α} (h : sep <+: a :: l) :
    splitFirst sep (a :: l) = some ([], (a :: l).drop sep.length) :=
  if_pos h

lemma splitFirst_cons_of_not_isPrefix {a : α} (h : ¬ sep <+: a :: l) :
    splitFirst sep (a :: l) =
      (splitFirst sep l).map fun (before, after) => (a :: before, after) :=
  if_neg h

lemma eq_of_splitFirst (h : splitFirst sep l = some (before, after)) :
    l = before ++ sep ++ after := by
  induction l generalizing before with
  | nil => cases h
  | cons a l ih =>
    by_cases hpre : sep <+: a :: l
    · rw [splitFirst_cons_of_isPrefix hpre] at h
      cases h
      rw [List.nil_append, List.prefix_iff_eq_append.mp hpre]
    · rw [splitFirst_cons_of_not_isPrefix hpre, Option.map_eq_some_iff] at h
      obtain ⟨⟨before', after'⟩, hsplit, heq⟩ := h
      cases heq
      rw [ih hsplit]
      rfl

lemma isSome_splitFirst (hsep : sep ≠ []) : (splitFirst sep l).isSome ↔ sep <:+: l := by
  induction l with
  | nil => simp [splitFirst, hsep]
  | cons a l ih =>
    rw [List.infix_cons_iff, ← ih]
    by_cases hpre : sep <+: a :: l
    · simp [splitFirst_cons_of_isPrefix hpre, hpre]
    · simp [splitFirst_cons_of_not_isPrefix hpre, hpre]

lemma length_le_of_splitFirst (h : splitFirst sep l = some (before, after)) :
    sep.length ≤ l.length := by
  rw [eq_of_splitFirst h, List.length_append, List.length_append]
  omega

lemma length_lt_of_splitFirst (hsep : sep ≠ []) (h : splitFirst sep l = some (before, after)) :
    after.length < l.length := by
  have hpos := List.length_pos_iff.mpr hsep
  rw [eq_of_splitFirst h, List.length_append, List.length_append]
  omega

/-- The first occurrence stays the first when the list goes on. -/
lemma splitFirst_append (h : splitFirst sep l = some (before, after)) :
    splitFirst sep (l ++ more) = some (before, after ++ more) := by
  induction l generalizing before with
  | nil => cases h
  | cons a l ih =>
    rw [List.cons_append]
    by_cases hpre : sep <+: a :: l
    · have hmore : sep <+: a :: (l ++ more) := hpre.trans (List.prefix_append _ _)
      rw [splitFirst_cons_of_isPrefix hpre] at h
      cases h
      rw [splitFirst_cons_of_isPrefix hmore, ← List.cons_append,
        List.drop_append_of_le_length hpre.length_le]
    · rw [splitFirst_cons_of_not_isPrefix hpre, Option.map_eq_some_iff] at h
      obtain ⟨⟨before', after'⟩, hsplit, heq⟩ := h
      cases heq
      -- the occurrence in the rest leaves no room for one that starts here and ends behind it
      have hmore : ¬ sep <+: a :: (l ++ more) := by
        intro hmore
        refine hpre (List.prefix_of_prefix_length_le hmore (List.prefix_append (a :: l) more) ?_)
        exact Nat.le_trans (length_le_of_splitFirst hsplit) (Nat.le_succ _)
      rw [splitFirst_cons_of_not_isPrefix hmore, ih hsplit]
      rfl

/-- Whether `sep` occurs in a text. -/
def containsText (text sep : String) : Bool := (splitFirst sep.toList text.toList).isSome

lemma containsText_eq_false {c : Char} {text sep : String} (hc : c ∈ sep.toList)
    (h : c ∉ text.toList) : containsText text sep = false := by
  rw [containsText, ← Bool.not_eq_true, isSome_splitFirst (List.ne_nil_of_mem hc)]
  intro hpart
  exact h (hpart.subset hc)

/-- A literal is read as the list of its characters, and not decoded from its bytes. -/
lemma notMem_toList_ofList {c : Char} {chars : List Char} (h : c ∉ chars) :
    c ∉ (String.ofList chars).toList := by
  rwa [String.toList_ofList]
