import Mathlib.Data.List.Chain

/-!
# Merged runs

Neighbours with the same key are joined, as when a list of messages must alternate between two
roles. The list is built from the left; `mergeFrom` is the same from the right, by recursion.
-/

universe u v w

/-- How two neighbours with the same key are joined. -/
structure RunJoin (α : Type u) (κ : Type v) where
  key : α → κ
  join : α → α → α
  key_join : ∀ a b, key (join a b) = key a

namespace RunJoin

variable {α : Type u} {κ : Type v} [DecidableEq κ] (J : RunJoin α κ)

/-- Join an element to the last one, or put it behind. -/
def push (merged : List α) (a : α) : List α :=
  match merged.getLast? with
  | some last => if J.key last = J.key a then merged.dropLast ++ [J.join last a] else merged ++ [a]
  | none => [a]

def merge (l : List α) : List α := l.foldl J.push []

def mergeFrom (first : α) : List α → List α
  | [] => [first]
  | a :: l => if J.key first = J.key a then mergeFrom (J.join first a) l else first :: mergeFrom a l

variable {J} {a first last : α} {l more done : List α}

lemma push_concat :
    J.push (done ++ [last]) a =
      if J.key last = J.key a then done ++ [J.join last a] else done ++ [last] ++ [a] := by
  rw [push, List.getLast?_concat]
  simp only [List.dropLast_concat]

lemma foldl_push (done : List α) (first : α) (l : List α) :
    l.foldl J.push (done ++ [first]) = done ++ J.mergeFrom first l := by
  induction l generalizing done first with
  | nil => rfl
  | cons a l ih =>
    rw [List.foldl_cons, push_concat, mergeFrom]
    split_ifs
    · exact ih done (J.join first a)
    · rw [ih (done ++ [first]) a, List.append_assoc, List.singleton_append]

@[simp] lemma merge_nil : J.merge [] = [] := rfl

lemma merge_cons : J.merge (a :: l) = J.mergeFrom a l := foldl_push [] a l

/-- A longer list is merged from the last of the merged ones on. -/
lemma merge_append (h : J.merge l = done ++ [last]) :
    J.merge (l ++ more) = done ++ J.mergeFrom last more := by
  rw [merge, List.foldl_append, ← merge, h, foldl_push]

/-- The run of the first one is joined, and the rest is merged. -/
lemma mergeFrom_eq (first : α) (l : List α) :
    J.mergeFrom first l = (l.takeWhile fun a => J.key first = J.key a).foldl J.join first ::
      J.merge (l.dropWhile fun a => J.key first = J.key a) := by
  induction l generalizing first with
  | nil => rfl
  | cons a l ih =>
    rw [mergeFrom]
    split_ifs with hkey
    · rw [ih, J.key_join, List.takeWhile_cons_of_pos (by simpa using hkey),
        List.dropWhile_cons_of_pos (by simpa using hkey), List.foldl_cons]
    · rw [List.takeWhile_cons_of_neg (by simpa using hkey),
        List.dropWhile_cons_of_neg (by simpa using hkey), merge_cons]
      rfl

omit [DecidableEq κ] in
lemma key_foldl (first : α) (l : List α) : J.key (l.foldl J.join first) = J.key first := by
  induction l generalizing first with
  | nil => rfl
  | cons a l ih => rw [List.foldl_cons, ih, J.key_join]

lemma isChain_mergeFrom (first : α) (l : List α) :
    (J.mergeFrom first l).IsChain fun a b => J.key a ≠ J.key b := by
  induction l generalizing first with
  | nil => exact .singleton first
  | cons a l ih =>
    rw [mergeFrom]
    split_ifs with hkey
    · exact ih (J.join first a)
    · have hrest := ih a
      rw [mergeFrom_eq] at hrest ⊢
      refine .cons_cons ?_ hrest
      rwa [key_foldl]

/-- Neighbours have different keys. -/
theorem isChain_merge (l : List α) : (J.merge l).IsChain fun a b => J.key a ≠ J.key b := by
  cases l with
  | nil => exact .nil
  | cons a l => exact merge_cons (J := J) ▸ isChain_mergeFrom a l

/-- Merging makes no new keys. -/
lemma exists_key_eq {b : α} (h : b ∈ J.merge l) : ∃ a ∈ l, J.key b = J.key a := by
  have hfrom : ∀ l first, b ∈ J.mergeFrom first l →
      J.key b = J.key first ∨ ∃ a ∈ l, J.key b = J.key a := by
    intro l
    induction l with
    | nil =>
      intro first hb
      exact .inl (congrArg J.key (List.mem_singleton.mp hb))
    | cons a l ih =>
      intro first hb
      rw [mergeFrom] at hb
      split_ifs at hb with hkey
      · rcases ih _ hb with heq | ⟨c, hc, heq⟩
        · exact .inl (heq.trans (J.key_join first a))
        · exact .inr ⟨c, List.mem_cons_of_mem a hc, heq⟩
      · rcases List.mem_cons.mp hb with rfl | hb
        · exact .inl rfl
        · rcases ih a hb with heq | ⟨c, hc, heq⟩
          · exact .inr ⟨a, List.mem_cons_self, heq⟩
          · exact .inr ⟨c, List.mem_cons_of_mem a hc, heq⟩
  cases l with
  | nil => cases h
  | cons a l =>
    rw [merge_cons] at h
    rcases hfrom l a h with heq | ⟨c, hc, heq⟩
    · exact ⟨a, List.mem_cons_self, heq⟩
    · exact ⟨c, List.mem_cons_of_mem a hc, heq⟩

section

variable {β : Type w} {content : α → List β}

omit [DecidableEq κ] in
lemma content_foldl (hcontent : ∀ a b, content (J.join a b) = content a ++ content b) (first : α)
    (l : List α) : content (l.foldl J.join first) = content first ++ l.flatMap content := by
  induction l generalizing first with
  | nil => simp
  | cons a l ih => rw [List.foldl_cons, ih, hcontent, List.flatMap_cons, List.append_assoc]

lemma flatMap_mergeFrom (hcontent : ∀ a b, content (J.join a b) = content a ++ content b)
    (first : α) (l : List α) :
    (J.mergeFrom first l).flatMap content = content first ++ l.flatMap content := by
  induction l generalizing first with
  | nil => rfl
  | cons a l ih =>
    rw [mergeFrom]
    split_ifs
    · rw [ih, hcontent, List.flatMap_cons, List.append_assoc]
    · rw [List.flatMap_cons, ih, List.flatMap_cons]

/-- Nothing is lost or moved. -/
theorem flatMap_merge (hcontent : ∀ a b, content (J.join a b) = content a ++ content b)
    (l : List α) : (J.merge l).flatMap content = l.flatMap content := by
  cases l with
  | nil => rfl
  | cons a l => rw [merge_cons, flatMap_mergeFrom hcontent, List.flatMap_cons]

end

end RunJoin
