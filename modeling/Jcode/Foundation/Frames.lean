import Jcode.Foundation.SplitFirst

/-!
# Frames

A list is cut at every occurrence of a separator into frames; what is behind the last separator
stays as a rest. When the list goes on, only the rest is looked at again, so frames may be cut off
while the list is still growing.
-/

universe u
variable {α : Type u} [DecidableEq α]

/-- A separator, which is not empty. -/
structure Separator (α : Type u) where
  sep : List α
  ne_nil : sep ≠ []

namespace Separator

variable (sep : Separator α)

def cut (l : List α) : Option (List α × List α) := splitFirst sep.sep l

/-- The frames of a list, and the rest. -/
def frames (l : List α) : List (List α) × List α :=
  match _h : sep.cut l with
  | none => ([], l)
  | some (frame, rest) => (frame :: (frames rest).1, (frames rest).2)
termination_by l.length
decreasing_by all_goals exact length_lt_of_splitFirst sep.ne_nil _h

variable {sep} {l more frame rest : List α}

lemma frames_of_none (h : sep.cut l = none) : sep.frames l = ([], l) := by
  rw [frames]
  split
  · rfl
  · rename_i heq
    cases h.symm.trans heq

lemma frames_of_some (h : sep.cut l = some (frame, rest)) :
    sep.frames l = (frame :: (sep.frames rest).1, (sep.frames rest).2) := by
  rw [frames]
  split
  · rename_i heq
    cases h.symm.trans heq
  · rename_i heq
    cases h.symm.trans heq
    rfl

lemma cut_append (h : sep.cut l = some (frame, rest)) :
    sep.cut (l ++ more) = some (frame, rest ++ more) :=
  splitFirst_append h

/-- Induction over the frames of a list. -/
lemma frames_induction (sep : Separator α) {motive : List α → Prop} (l : List α)
    (rest : ∀ l, sep.cut l = none → motive l)
    (frame : ∀ l frame after, sep.cut l = some (frame, after) → motive after → motive l) :
    motive l := by
  induction h : l.length using Nat.strongRecOn generalizing l with
  | ind n ih =>
    cases hcut : sep.cut l with
    | none => exact rest l hcut
    | some p =>
      have hlt := length_lt_of_splitFirst sep.ne_nil hcut
      exact frame l p.1 p.2 hcut (ih _ (h ▸ hlt) p.2 rfl)

/-- No frame is left in the rest. -/
lemma cut_rest (l : List α) : sep.cut (sep.frames l).2 = none := by
  induction l using frames_induction sep with
  | rest l h => rwa [frames_of_none h]
  | frame l frame after h ih => rwa [frames_of_some h]

/-- The frames of a list stay as they are when it goes on. -/
theorem frames_append (l more : List α) :
    sep.frames (l ++ more) =
      ((sep.frames l).1 ++ (sep.frames ((sep.frames l).2 ++ more)).1,
        (sep.frames ((sep.frames l).2 ++ more)).2) := by
  induction l using frames_induction sep with
  | rest l h =>
    rw [frames_of_none h]
    rfl
  | frame l frame after h ih =>
    rw [frames_of_some (cut_append h), ih, frames_of_some h]
    rfl

/-! ### Frames that wait -/

/-- The frames that each chunk completes, behind a rest. -/
def completed (sep : Separator α) : List α → List (List α) → List (List (List α))
  | _, [] => []
  | l, more :: chunks =>
    (sep.frames (l ++ more)).1 :: completed sep (sep.frames (l ++ more)).2 chunks

lemma flatten_completed (l : List α) (chunks : List (List α)) (h : sep.cut l = none) :
    (sep.completed l chunks).flatten = (sep.frames (l ++ chunks.flatten)).1 := by
  induction chunks generalizing l with
  | nil =>
    rw [List.flatten_nil, List.append_nil, frames_of_none h]
    rfl
  | cons more chunks ih =>
    rw [completed, List.flatten_cons, ih _ (cut_rest _), List.flatten_cons, ← List.append_assoc,
      frames_append (l ++ more)]

end Separator

/-- What is left when each arrival makes a reader go on to the first frame at which it stops. -/
def unread {φ : Type u} (stops : φ → Bool) : List φ → List (List φ) → List φ
  | waiting, [] => waiting
  | waiting, frames :: more =>
    unread stops (((waiting ++ frames).dropWhile fun frame => !stops frame).drop 1) more
