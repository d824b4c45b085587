import Mathlib.Data.List.Nodup

/-!
# Lists with keys

Lists of records whose keys are distinct. What is found under a key depends on the elements alone,
and not on their order.
-/

namespace KeyedList

universe u v
variable {α : Type u} {κ : Type v} {key : α → κ} {l l' : List α} {a b : α} {k : κ}

/-- A record that is replaced keeps its key. -/
lemma map_replaceF {f : α → Option α} (hf : ∀ a b, f a = some b → key b = key a) :
    (l.replaceF f).map key = l.map key := by
  induction l with
  | nil => rfl
  | cons c l ih =>
    rw [List.replaceF]
    cases hc : f c with
    | none => simp [ih]
    | some d => simp [hf c d hc]

variable [DecidableEq κ]

lemma find?_eq_some_iff (hnodup : (l.map key).Nodup) :
    l.find? (key · = k) = some a ↔ a ∈ l ∧ key a = k := by
  constructor
  · intro h
    exact ⟨List.mem_of_find?_eq_some h, by simpa using List.find?_some h⟩
  · rintro ⟨ha, rfl⟩
    induction l with
    | nil => cases ha
    | cons c l ih =>
      rw [List.map_cons, List.nodup_cons] at hnodup
      rcases List.mem_cons.1 ha with rfl | ha
      · simp
      · have hne : key c ≠ key a := fun heq => hnodup.1 (heq ▸ List.mem_map_of_mem ha)
        rw [List.find?_cons_of_neg (by simpa using hne), ih hnodup.2 ha]

lemma find?_eq_none_iff : l.find? (key · = k) = none ↔ k ∉ l.map key := by
  simp

/-- Under a key, lists with the same elements there have the same record. -/
lemma find?_congr (hnodup : (l.map key).Nodup) (hnodup' : (l'.map key).Nodup)
    (h : ∀ a, key a = k → (a ∈ l ↔ a ∈ l')) : l.find? (key · = k) = l'.find? (key · = k) := by
  refine Option.ext fun a => ?_
  rw [find?_eq_some_iff hnodup, find?_eq_some_iff hnodup']
  exact and_congr_left (h a)

lemma mem_replaceF {g : α → α} (hnodup : (l.map key).Nodup) (ha : a ∈ l) :
    b ∈ l.replaceF (fun x => if key x = key a then some (g x) else none) ↔
      b = g a ∨ b ∈ l ∧ key b ≠ key a := by
  induction l with
  | nil => cases ha
  | cons c l ih =>
    rw [List.map_cons, List.nodup_cons] at hnodup
    rw [List.replaceF]
    by_cases hc : key c = key a
    · have hl : ∀ d ∈ l, key d ≠ key a := fun d hd heq =>
        hnodup.1 (hc ▸ heq ▸ List.mem_map_of_mem hd)
      obtain rfl : a = c := by
        rcases List.mem_cons.1 ha with rfl | ha
        · rfl
        · exact absurd rfl (hl a ha)
      simp only [if_true, List.mem_cons]
      constructor
      · rintro (rfl | hb)
        · exact .inl rfl
        · exact .inr ⟨.inr hb, hl b hb⟩
      · rintro (rfl | ⟨rfl | hb, hne⟩)
        · exact .inl rfl
        · exact absurd rfl hne
        · exact .inr hb
    · have ha' : a ∈ l := by
        rcases List.mem_cons.1 ha with rfl | ha
        · exact absurd rfl hc
        · exact ha
      simp only [hc, if_false, List.mem_cons, ih hnodup.2 ha']
      constructor
      · rintro (rfl | rfl | ⟨hb, hne⟩)
        · exact .inr ⟨.inl rfl, hc⟩
        · exact .inl rfl
        · exact .inr ⟨.inr hb, hne⟩
      · rintro (rfl | ⟨rfl | hb, hne⟩)
        · exact .inr (.inl rfl)
        · exact .inl rfl
        · exact .inr (.inr ⟨hb, hne⟩)

end KeyedList
