import Mathlib.Data.List.Basic
import Mathlib.Order.Lattice

/-!
# Sorted maps

Maps as lists of entries in the order of their keys, which each occur once. What is looked up behind
an insertion does not depend on the order.

`update` takes in the entries of another map, one after the other.
-/

namespace SortedMap

universe u v w
variable {κ : Type u} {ν : Type v} {μ : Type w} [LinearOrder κ]

def get (k : κ) (m : List (κ × ν)) : Option ν := (m.find? (·.1 = k)).map (·.2)

def insert (k : κ) (v : ν) : List (κ × ν) → List (κ × ν)
  | [] => [(k, v)]
  | e :: m =>
    if k = e.1 then (k, v) :: m else if k < e.1 then (k, v) :: e :: m else e :: insert k v m

def erase (k : κ) (m : List (κ × ν)) : List (κ × ν) := m.filter (·.1 ≠ k)

/-- Every entry of another map changes what is at its key. -/
def update (f : κ → Option ν → μ → ν) (m : List (κ × ν)) (source : List (κ × μ)) :
    List (κ × ν) :=
  source.foldl (fun m e => insert e.1 (f e.1 (get e.1 m) e.2) m) m

def Sorted (m : List (κ × ν)) : Prop := m.Pairwise (·.1 < ·.1)

instance Sorted.decidable (m : List (κ × ν)) : Decidable (Sorted m) :=
  inferInstanceAs (Decidable (m.Pairwise (·.1 < ·.1)))

attribute [local simp] insert

variable {m : List (κ × ν)} {source : List (κ × μ)} {k k' : κ} {v : ν} {e : κ × ν}
  {f : κ → Option ν → μ → ν}

@[simp] lemma get_nil : get k ([] : List (κ × ν)) = none := rfl

lemma get_cons : get k (e :: m) = if e.1 = k then some e.2 else get k m := by
  rw [get, List.find?_cons]
  split_ifs with h
  · simp [h]
  · simp [h, get]

lemma get_insert : get k' (insert k v m) = if k = k' then some v else get k' m := by
  induction m with
  | nil => rw [insert, get_cons]
  | cons e m ih =>
    rw [insert]
    by_cases heq : k = e.1
    · rw [if_pos heq, get_cons, get_cons, ← heq]
      split_ifs <;> rfl
    · rw [if_neg heq]
      split_ifs with hlt hk hk
      · rw [get_cons, if_pos hk]
      · rw [get_cons, if_neg hk]
      · rw [get_cons, ih, if_pos hk, if_neg fun h => heq (hk.trans h.symm)]
      · rw [get_cons, get_cons, ih, if_neg hk]

@[simp] lemma get_insert_self : get k (insert k v m) = some v := by
  rw [get_insert, if_pos rfl]

lemma get_insert_of_ne (h : k ≠ k') : get k' (insert k v m) = get k' m := by
  rw [get_insert, if_neg h]

lemma get_erase : get k' (erase k m) = if k = k' then none else get k' m := by
  induction m with
  | nil => simp [erase]
  | cons e m ih =>
    rw [erase, List.filter_cons, ← erase]
    by_cases hk : e.1 = k
    · rw [if_neg (by simpa using hk), ih, get_cons]
      split_ifs with h h'
      · rfl
      · exact absurd (hk.symm.trans h') h
      · rfl
    · rw [if_pos (by simpa using hk), get_cons, get_cons, ih]
      split_ifs with h h'
      · exact absurd (h.trans h'.symm) hk
      · rfl
      · rfl
      · rfl

/-- An entry that is inserted again is the last one. -/
lemma insert_insert (v v' : ν) : insert k v (insert k v' m) = insert k v m := by
  induction m with
  | nil => simp
  | cons e m ih =>
    rw [insert, insert]
    by_cases heq : k = e.1
    · simp [heq]
    · rw [if_neg heq, if_neg heq]
      split_ifs with hlt
      · simp
      · rw [insert, if_neg heq, if_neg hlt, ih]

lemma erase_insert : erase k (insert k v m) = erase k m := by
  induction m with
  | nil => simp [erase]
  | cons e m ih =>
    rw [insert]
    split_ifs with heq hlt
    · simp [erase, heq]
    · simp [erase]
    · rw [erase, List.filter_cons, ← erase, ih, erase, erase, List.filter_cons]

lemma get_eq_none_iff : get k m = none ↔ ∀ e ∈ m, e.1 ≠ k := by
  simp only [get, Option.map_eq_none_iff, List.find?_eq_none, decide_eq_true_eq, ne_eq]

lemma erase_of_get_eq_none (h : get k m = none) : erase k m = m :=
  List.filter_eq_self.2 fun e he => by simpa using get_eq_none_iff.1 h e he

lemma isSome_get_iff : (get k m).isSome ↔ ∃ e ∈ m, e.1 = k := by
  rw [← not_iff_not, Option.not_isSome_iff_eq_none, get_eq_none_iff]
  push Not
  exact Iff.rfl

/-- An entry behind all others. -/
lemma insert_of_forall_lt (h : ∀ e ∈ m, e.1 < k) : insert k v m = m ++ [(k, v)] := by
  induction m with
  | nil => rfl
  | cons e m ih =>
    obtain ⟨hlt, h⟩ := List.forall_mem_cons.1 h
    rw [insert, if_neg hlt.ne', if_neg hlt.not_gt, ih h, List.cons_append]

lemma mem_of_get (h : get k m = some v) : (k, v) ∈ m := by
  induction m with
  | nil => cases h
  | cons e m ih =>
    rw [get_cons] at h
    split_ifs at h with hk
    · obtain rfl := Option.some.inj h
      rw [← hk]
      exact List.mem_cons_self
    · exact List.mem_cons_of_mem _ (ih h)

lemma mem_insert (h : e ∈ insert k v m) : e = (k, v) ∨ e ∈ m := by
  induction m with
  | nil => exact .inl (List.mem_singleton.mp h)
  | cons e' m ih =>
    rw [insert] at h
    split_ifs at h with heq hlt
    · rcases List.mem_cons.mp h with h | h
      · exact .inl h
      · exact .inr (List.mem_cons_of_mem _ h)
    · exact List.mem_cons.mp h
    · rcases List.mem_cons.mp h with h | h
      · exact .inr (h ▸ List.mem_cons_self)
      · exact (ih h).imp_right (List.mem_cons_of_mem _)

/-- An entry with another key stays. -/
lemma mem_insert_of_ne (h : e ∈ m) (hne : e.1 ≠ k) : e ∈ insert k v m := by
  induction m with
  | nil => cases h
  | cons e' m ih =>
    rw [insert]
    split_ifs with heq hlt
    · rcases List.mem_cons.mp h with rfl | h
      · exact absurd heq.symm hne
      · exact List.mem_cons_of_mem _ h
    · exact List.mem_cons_of_mem _ h
    · rcases List.mem_cons.mp h with rfl | h
      · exact List.mem_cons_self
      · exact List.mem_cons_of_mem _ (ih h)

lemma get_map {ν' : Type w} (g : ν → ν') :
    get k (m.map fun e => (e.1, g e.2)) = (get k m).map g := by
  induction m with
  | nil => rfl
  | cons e m ih =>
    rw [List.map_cons, get_cons, get_cons, ih]
    split_ifs <;> rfl

namespace Sorted

lemma nil : Sorted ([] : List (κ × ν)) := List.Pairwise.nil

lemma get_of_mem (h : Sorted m) (hmem : (k, v) ∈ m) : get k m = some v := by
  induction m with
  | nil => cases hmem
  | cons e m ih =>
    obtain ⟨hhead, htail⟩ := List.pairwise_cons.mp h
    rw [get_cons]
    rcases List.mem_cons.mp hmem with rfl | hmem
    · rw [if_pos rfl]
    · rw [if_neg (hhead _ hmem).ne, ih htail hmem]

lemma insert (h : Sorted m) : Sorted (insert k v m) := by
  induction m with
  | nil => exact List.pairwise_singleton _ _
  | cons e m ih =>
    obtain ⟨hhead, htail⟩ := List.pairwise_cons.mp h
    rw [SortedMap.insert]
    split_ifs with heq hlt
    · exact List.pairwise_cons.mpr ⟨fun e' he' => heq ▸ hhead e' he', htail⟩
    · refine List.pairwise_cons.mpr ⟨fun e' he' => ?_, h⟩
      rcases List.mem_cons.mp he' with rfl | he'
      · exact hlt
      · exact hlt.trans (hhead e' he')
    · refine List.pairwise_cons.mpr ⟨fun e' he' => ?_, ih htail⟩
      rcases mem_insert he' with rfl | he'
      · exact lt_of_le_of_ne (not_lt.mp hlt) (Ne.symm heq)
      · exact hhead e' he'

/-- What is there already is inserted. -/
lemma insert_of_get (h : Sorted m) (hget : get k m = some v) : SortedMap.insert k v m = m := by
  induction m with
  | nil => cases hget
  | cons e m ih =>
    obtain ⟨hhead, htail⟩ := List.pairwise_cons.mp h
    rw [get_cons] at hget
    rw [SortedMap.insert]
    by_cases heq : k = e.1
    · rw [if_pos heq.symm, Option.some.injEq] at hget
      rw [if_pos heq, heq, ← hget]
    · rw [if_neg (Ne.symm heq)] at hget
      rw [if_neg heq, if_neg (hhead _ (mem_of_get hget)).not_gt, ih htail hget]

lemma mem_insert_iff (h : Sorted m) :
    e ∈ SortedMap.insert k v m ↔ e = (k, v) ∨ e ∈ m ∧ e.1 ≠ k := by
  constructor
  · intro he
    by_cases hk : e.1 = k
    · left
      obtain ⟨k', v'⟩ := e
      obtain rfl : k' = k := hk
      have hget := h.insert.get_of_mem he
      rw [get_insert_self, Option.some.injEq] at hget
      rw [hget]
    · rcases mem_insert he with rfl | he
      · exact absurd rfl hk
      · exact .inr ⟨he, hk⟩
  · rintro (rfl | ⟨he, hk⟩)
    · exact mem_of_get get_insert_self
    · exact mem_insert_of_ne he hk

lemma erase (h : Sorted m) : Sorted (erase k m) := h.filter _

lemma map {ν' : Type w} (g : ν → ν') (h : Sorted m) : Sorted (m.map fun e => (e.1, g e.2)) :=
  List.pairwise_map.mpr h

/-- Entries that keep their keys. -/
lemma map_entries {g : κ × ν → κ × μ} (hg : ∀ e, (g e).1 = e.1) (h : Sorted m) :
    Sorted (m.map g) := by
  apply List.pairwise_map.mpr
  simpa only [hg, Sorted] using h

lemma update (h : Sorted m) : Sorted (update f m source) := by
  induction source generalizing m with
  | nil => exact h
  | cons e source ih => exact ih h.insert

end Sorted

/-- What is at a key is changed by the entry with that key alone. -/
theorem get_update (h : Sorted source) : get k (update f m source) =
    match get k source with
    | some v => some (f k (get k m) v)
    | none => get k m := by
  induction source generalizing m with
  | nil => rfl
  | cons e source ih =>
    obtain ⟨hhead, htail⟩ := List.pairwise_cons.mp h
    have hnone : get e.1 source = none := by
      cases hget : get e.1 source with
      | none => rfl
      | some v => exact absurd (hhead _ (mem_of_get hget)) (lt_irrefl _)
    rw [update, List.foldl_cons, ← update, ih htail, get_cons]
    by_cases hk : e.1 = k
    · subst hk
      rw [hnone, if_pos rfl, get_insert_self]
    · rw [if_neg hk, get_insert_of_ne hk]

/-- The keys are those of the two maps. -/
lemma isSome_get_update :
    (get k (update f m source)).isSome ↔ (get k m).isSome ∨ (get k source).isSome := by
  induction source generalizing m with
  | nil =>
    rw [update, List.foldl_nil, get_nil]
    simp
  | cons e source ih =>
    rw [update, List.foldl_cons, ← update, ih, get_insert, get_cons]
    split_ifs <;> simp

lemma key_of_mem_update (h : e ∈ update f m source) :
    (∃ e' ∈ m, e'.1 = e.1) ∨ ∃ e' ∈ source, e'.1 = e.1 := by
  rw [← isSome_get_iff, ← isSome_get_iff, ← isSome_get_update (f := f), isSome_get_iff]
  exact ⟨e, h, rfl⟩

/-- An entry is one of the two maps, or put together from both. -/
lemma mem_update {f : κ → Option ν → ν → ν} {source : List (κ × ν)} (hm : Sorted m)
    (hsource : Sorted source) (hf : ∀ k v, f k none v = v) (h : e ∈ update f m source) :
    e ∈ m ∨ e ∈ source ∨
      ∃ old new, (e.1, old) ∈ m ∧ (e.1, new) ∈ source ∧ e.2 = f e.1 (some old) new := by
  have hget := hm.update.get_of_mem h
  rw [get_update hsource] at hget
  cases hnew : get e.1 source with
  | none =>
    simp only [hnew] at hget
    exact .inl (mem_of_get hget)
  | some new =>
    simp only [hnew, Option.some.injEq] at hget
    right
    cases hold : get e.1 m with
    | none =>
      rw [hold, hf] at hget
      rw [hget] at hnew
      exact .inl (mem_of_get hnew)
    | some old =>
      rw [hold] at hget
      exact .inr ⟨old, new, mem_of_get hold, mem_of_get hnew, hget.symm⟩

/-- A sorted map that is put together from nothing is the same map. -/
lemma update_nil (h : Sorted m) : update (fun _ _ v => v) [] m = m := by
  have hfront : ∀ front back : List (κ × ν), Sorted (front ++ back) →
      update (fun _ _ v => v) front back = front ++ back := by
    intro front back
    induction back generalizing front with
    | nil =>
      intro _
      rw [List.append_nil]
      rfl
    | cons e back ih =>
      intro hsorted
      have hlt : ∀ e' ∈ front, e'.1 < e.1 := fun e' he' =>
        (List.pairwise_append.mp hsorted).2.2 e' he' e List.mem_cons_self
      show update (fun _ _ v => v) (insert e.1 e.2 front) back = _
      rw [insert_of_forall_lt hlt, ih]
      · rw [List.append_assoc]
        rfl
      · rw [List.append_assoc]
        exact hsorted
  exact hfront [] m h

/-- What holds of all values, and is kept by each change, holds of all values behind them. -/
theorem forall_update {P : ν → Prop} (hm : ∀ e ∈ m, P e.2)
    (hf : ∀ e ∈ source, ∀ old, (∀ v ∈ old, P v) → P (f e.1 old e.2)) :
    ∀ e ∈ update f m source, P e.2 := by
  induction source generalizing m with
  | nil => exact hm
  | cons e source ih =>
    obtain ⟨hhead, htail⟩ := List.forall_mem_cons.mp hf
    refine ih (fun e' he' => ?_) htail
    rcases mem_insert he' with rfl | he'
    · exact hhead _ fun v hv => hm _ (mem_of_get hv)
    · exact hm e' he'

end SortedMap
