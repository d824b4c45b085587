import Mathlib.Data.List.Induction
import Mathlib.Tactic.Common

/-!
# Conditions on what came before

`EachAfter P l` says that every element of a list meets a condition on the elements in front of it.
-/

universe u
variable {α : Type u}

/-- The elements of a list meet `P`, the first of them behind the elements `earlier`. -/
def EachBehind (P : List α → α → Prop) : List α → List α → Prop
  | _, [] => True
  | earlier, a :: later => P earlier a ∧ EachBehind P (earlier ++ [a]) later

def EachAfter (P : List α → α → Prop) (l : List α) : Prop := EachBehind P [] l

namespace EachBehind

variable {P : List α → α → Prop} {earlier l l' : List α} {a : α}

instance decidable [h : ∀ earlier a, Decidable (P earlier a)] :
    ∀ earlier l, Decidable (EachBehind P earlier l)
  | _, [] => isTrue trivial
  | earlier, a :: later =>
    have := decidable (h := h) (earlier ++ [a]) later
    inferInstanceAs (Decidable (P earlier a ∧ EachBehind P (earlier ++ [a]) later))

lemma append : EachBehind P earlier (l ++ l') ↔
    EachBehind P earlier l ∧ EachBehind P (earlier ++ l) l' := by
  induction l generalizing earlier with
  | nil => simp [EachBehind]
  | cons a l ih =>
    rw [List.cons_append, EachBehind, EachBehind, ih, and_assoc, List.append_assoc,
      List.singleton_append]

end EachBehind

namespace EachAfter

variable {P : List α → α → Prop} {l l' : List α} {a : α}

instance decidable [h : ∀ earlier a, Decidable (P earlier a)] : Decidable (EachAfter P l) :=
  inferInstanceAs (Decidable (EachBehind P [] l))

lemma nil : EachAfter P [] := trivial

lemma concat : EachAfter P (l ++ [a]) ↔ EachAfter P l ∧ P l a := by
  rw [EachAfter, EachBehind.append, List.nil_append, EachBehind, EachBehind, and_true]
  rfl

lemma of_append (h : EachAfter P (l ++ l')) : EachAfter P l := (EachBehind.append.mp h).1

lemma cons_of_append (h : EachAfter P (l ++ a :: l')) : P l a := (EachBehind.append.mp h).2.1

/-- In front of the first element that does not meet the condition all do. -/
lemma exists_first (h : ¬ EachAfter P l) :
    ∃ earlier a later, l = earlier ++ a :: later ∧ EachAfter P earlier ∧ ¬ P earlier a := by
  induction l using List.reverseRecOn with
  | nil => exact absurd nil h
  | append_singleton l a ih =>
    by_cases hl : EachAfter P l
    · exact ⟨l, a, [], rfl, hl, fun ha => h (concat.mpr ⟨hl, ha⟩)⟩
    · obtain ⟨earlier, b, later, rfl, hearlier, hb⟩ := ih hl
      exact ⟨earlier, b, later ++ [a], by simp, hearlier, hb⟩

end EachAfter
