import Mathlib.Data.Finmap
import Mathlib.Data.Finset.Sort
import Mathlib.Tactic.Common

/-!
# Pruned maps

Finite maps whose values are collections, with no entry for an empty one. Read with the empty
collection where there is no entry, a map is a function, and both ways to change an entry are
updates of it.

`NestedMap` has maps of sets below each key.
-/

namespace PrunedMap

universe u v w
variable {α : Type u} {β : Type v} [DecidableEq α] [EmptyCollection β]

/-- The collection at a key. -/
def entry (m : Finmap fun _ : α => β) (a : α) : β := (m.lookup a).getD ∅

/-- Change the collection at a key, which is made when it is not there. -/
def put (a : α) (f : β → β) (m : Finmap fun _ : α => β) : Finmap fun _ : α => β :=
  m.insert a (f (entry m a))

/-- Change the collection at a key when it is there, and remove it when nothing is left of it. -/
def prune [DecidableEq β] (a : α) (f : β → β) (m : Finmap fun _ : α => β) :
    Finmap fun _ : α => β :=
  match m.lookup a with
  | none => m
  | some b => if f b = ∅ then m.erase a else m.insert a (f b)

/-- Change the collections at the keys of a list, one after the other. -/
def sweep [DecidableEq β] (keys : List α) (f : α → β → β) (m : Finmap fun _ : α => β) :
    Finmap fun _ : α => β :=
  keys.foldl (fun m a => prune a (f a) m) m

/-- No collection is empty. -/
def Pruned (m : Finmap fun _ : α => β) : Prop := ∀ a, m.lookup a ≠ some ∅

variable {m : Finmap fun _ : α => β} {a : α} {f : β → β}

@[simp] lemma entry_empty : entry (∅ : Finmap fun _ : α => β) a = ∅ := by
  simp [entry]

lemma pruned_empty : Pruned (∅ : Finmap fun _ : α => β) := by
  intro a
  simp

lemma lookup_put_of_ne {a' : α} (h : a' ≠ a) : (put a f m).lookup a' = m.lookup a' :=
  Finmap.lookup_insert_of_ne _ h

lemma lookup_prune_of_ne [DecidableEq β] {a' : α} (h : a' ≠ a) :
    (prune a f m).lookup a' = m.lookup a' := by
  cases hb : m.lookup a with
  | none => simp [prune, hb]
  | some b => by_cases hempty : f b = ∅ <;> simp [prune, hb, hempty, h]

lemma entry_put : entry (put a f m) = Function.update (entry m) a (f (entry m a)) := by
  funext a'
  by_cases h : a' = a
  · subst h
    simp [entry, put]
  · simp [entry, put, h]

lemma entry_prune [DecidableEq β] (hf : f ∅ = ∅) :
    entry (prune a f m) = Function.update (entry m) a (f (entry m a)) := by
  funext a'
  cases hb : m.lookup a with
  | none =>
    by_cases h : a' = a
    · subst h
      simp [entry, prune, hb, hf]
    · simp [entry, prune, hb, h]
  | some b =>
    by_cases h : a' = a
    · subst h
      by_cases hempty : f b = ∅ <;> simp [entry, prune, hb, hempty]
    · by_cases hempty : f b = ∅ <;> simp [entry, prune, hb, hempty, h]

@[simp] lemma prune_empty [DecidableEq β] : prune a f (∅ : Finmap fun _ : α => β) = ∅ := by
  simp [prune]

@[simp] lemma sweep_empty [DecidableEq β] {keys : List α} {f : α → β → β} :
    sweep keys f (∅ : Finmap fun _ : α => β) = ∅ := by
  induction keys with
  | nil => rfl
  | cons key keys ih =>
    rw [sweep, List.foldl_cons, prune_empty]
    exact ih

lemma entry_sweep [DecidableEq β] {keys : List α} {f : α → β → β} (hf : ∀ a, f a ∅ = ∅)
    (hkeys : keys.Nodup) : entry (sweep keys f m) a =
      if a ∈ keys then f a (entry m a) else entry m a := by
  induction keys generalizing m with
  | nil => simp [sweep]
  | cons key keys ih =>
    obtain ⟨hkey, hkeys⟩ := List.nodup_cons.mp hkeys
    change entry (sweep keys f (prune key (f key) m)) a = _
    rw [ih hkeys, entry_prune (hf key)]
    by_cases h : a = key
    · subst h
      simp [hkey]
    · simp [h]

namespace Pruned

lemma put (h : Pruned m) (hf : f (entry m a) ≠ ∅) : Pruned (put a f m) := by
  intro a'
  by_cases ha : a' = a
  · subst ha
    simpa [PrunedMap.put] using hf
  · simpa [PrunedMap.put, ha] using h a'

lemma prune [DecidableEq β] (h : Pruned m) : Pruned (prune a f m) := by
  intro a'
  cases hb : m.lookup a with
  | none => simpa [PrunedMap.prune, hb] using h a'
  | some b =>
    by_cases ha : a' = a
    · subst ha
      by_cases hempty : f b = ∅ <;> simp [PrunedMap.prune, hb, hempty]
    · by_cases hempty : f b = ∅ <;> simpa [PrunedMap.prune, hb, hempty, ha] using h a'

lemma sweep [DecidableEq β] {keys : List α} {f : α → β → β} (h : Pruned m) :
    Pruned (sweep keys f m) := by
  induction keys generalizing m with
  | nil => exact h
  | cons key keys ih => exact ih h.prune

lemma lookup_eq (h : Pruned m) {b : β} : m.lookup a = some b ↔ entry m a = b ∧ b ≠ ∅ := by
  constructor
  · intro hb
    refine ⟨by simp [entry, hb], ?_⟩
    rintro rfl
    exact h a hb
  · rintro ⟨rfl, hne⟩
    cases hb : m.lookup a with
    | none => exact absurd (by simp [entry, hb]) hne
    | some b => simp [entry, hb]

/-- What is read from a pruned map tells the map. -/
lemma ext {m' : Finmap fun _ : α => β} (h : Pruned m) (h' : Pruned m') (hentry : entry m = entry m') :
    m = m' := by
  refine Finmap.ext_lookup fun a => Option.ext fun b => ?_
  rw [h.lookup_eq, h'.lookup_eq, hentry]

end Pruned

/-- The order in which the keys of a hash map or the elements of a hash set are read. -/
structure Reading (α : Type u) where
  list : Finset α → List α
  nodup : ∀ s, (list s).Nodup
  mem_list : ∀ s a, a ∈ list s ↔ a ∈ s

instance Reading.instInhabited [LinearOrder α] : Inhabited (Reading α) where
  default :=
    { list s := s.sort (· ≤ ·)
      nodup s := s.sort_nodup (· ≤ ·)
      mem_list s _ := s.mem_sort (· ≤ ·) }

/-! ### Maps of maps of sets -/

abbrev NestedMap (α : Type u) (β : Type v) (γ : Type w) :=
  Finmap fun _ : α => Finmap fun _ : β => Finset γ

namespace NestedMap

variable {α : Type u} {β : Type v} {γ : Type w} [DecidableEq α] [DecidableEq β] [DecidableEq γ]

/-- The set at two keys has the element. -/
def Has (m : NestedMap α β γ) (a : α) (b : β) (c : γ) : Prop :=
  ∃ sub ∈ m.lookup a, ∃ set ∈ sub.lookup b, c ∈ set

/-- No map and no set is empty. -/
def NoneEmpty (m : NestedMap α β γ) : Prop :=
  ∀ a, ∀ sub ∈ m.lookup a, sub ≠ ∅ ∧ ∀ b, ∀ set ∈ sub.lookup b, set ≠ ∅

def insert (m : NestedMap α β γ) (a : α) (b : β) (c : γ) : NestedMap α β γ :=
  put a (put b (Insert.insert c)) m

def erase (m : NestedMap α β γ) (a : α) (b : β) (c : γ) : NestedMap α β γ :=
  prune a (prune b (·.erase c)) m

/-- Remove an element from the sets at the keys `bs a` below each key `a` of `as`. -/
def drop (m : NestedMap α β γ) (as : List α) (bs : α → (Finmap fun _ : β => Finset γ) → List β)
    (c : γ) : NestedMap α β γ :=
  sweep as (fun a sub => sweep (bs a sub) (fun _ => (·.erase c)) sub) m

variable {m : NestedMap α β γ} {a a' : α} {b b' : β} {c c' : γ}

omit [DecidableEq γ] in
lemma has_iff : m.Has a b c ↔ c ∈ entry (entry m a) b := by
  rw [Has]
  cases hsub : m.lookup a with
  | none => simp [entry, hsub]
  | some sub =>
    cases hset : sub.lookup b <;> simp [entry, hsub, hset]

omit [DecidableEq γ] in
lemma noneEmpty_iff : m.NoneEmpty ↔ Pruned m ∧ ∀ a, Pruned (entry m a) := by
  constructor
  · intro h
    refine ⟨fun a ha => (h a ∅ ha).1 rfl, fun a b hb => ?_⟩
    cases hsub : m.lookup a with
    | none => simp [entry, hsub] at hb
    | some sub =>
      simp only [entry, hsub, Option.getD_some] at hb
      exact (h a sub hsub).2 b ∅ hb rfl
  · rintro ⟨houter, hinner⟩ a sub hsub
    rw [Option.mem_def, houter.lookup_eq] at hsub
    obtain ⟨rfl, hne⟩ := hsub
    refine ⟨hne, fun b set hset => ?_⟩
    rw [Option.mem_def, (hinner a).lookup_eq] at hset
    exact hset.2

omit [DecidableEq γ] in
lemma noneEmpty_empty : NoneEmpty (∅ : NestedMap α β γ) := by
  intro a sub hsub
  simp at hsub

omit [DecidableEq γ] in
@[simp] lemma not_has_empty : ¬ Has (∅ : NestedMap α β γ) a b c := by
  simp [has_iff]

lemma has_insert : (m.insert a b c).Has a' b' c' ↔ m.Has a' b' c' ∨ a' = a ∧ b' = b ∧ c' = c := by
  rw [has_iff, has_iff, insert, entry_put]
  by_cases ha : a' = a
  · subst ha
    rw [Function.update_self, entry_put]
    by_cases hb : b' = b
    · subst hb
      simp [or_comm]
    · simp [hb]
  · simp [ha]

lemma has_erase : (m.erase a b c).Has a' b' c' ↔
    m.Has a' b' c' ∧ ¬ (a' = a ∧ b' = b ∧ c' = c) := by
  rw [has_iff, has_iff, erase, entry_prune prune_empty]
  by_cases ha : a' = a
  · subst ha
    rw [Function.update_self, entry_prune (Finset.erase_empty c)]
    by_cases hb : b' = b
    · subst hb
      simp [and_comm]
    · simp [hb]
  · simp [ha]

lemma entry_drop {as : List α} {bs : α → (Finmap fun _ : β => Finset γ) → List β}
    (has : as.Nodup) : entry (m.drop as bs c) a =
      if a ∈ as then sweep (bs a (entry m a)) (fun _ => (·.erase c)) (entry m a) else entry m a :=
  entry_sweep (fun _ => sweep_empty) has

lemma has_drop {as : List α} {bs : α → (Finmap fun _ : β => Finset γ) → List β}
    (has : as.Nodup) (hbs : ∀ a sub, (bs a sub).Nodup) : (m.drop as bs c).Has a b c' ↔
      m.Has a b c' ∧ ¬ (a ∈ as ∧ b ∈ bs a (entry m a) ∧ c' = c) := by
  rw [has_iff, has_iff, entry_drop has]
  by_cases ha : a ∈ as
  · rw [if_pos ha, entry_sweep (fun _ => Finset.erase_empty c) (hbs a _)]
    by_cases hb : b ∈ bs a (entry m a)
    · simp [ha, hb, and_comm]
    · simp [hb]
  · simp [ha]

/-! ### Nothing empty is left -/

namespace NoneEmpty

lemma insert (h : m.NoneEmpty) : (m.insert a b c).NoneEmpty := by
  rw [noneEmpty_iff] at h ⊢
  have hput : put b (Insert.insert c) (entry m a) ≠ ∅ := by
    intro hput
    have hb := congrArg (·.lookup b) hput
    simp [put] at hb
  have hset : Insert.insert c (entry (entry m a) b) ≠ (∅ : Finset γ) := by simp
  refine ⟨h.1.put hput, fun a' => ?_⟩
  rw [NestedMap.insert, entry_put]
  by_cases ha : a' = a
  · subst ha
    rw [Function.update_self]
    exact (h.2 a').put hset
  · rw [Function.update_of_ne ha]
    exact h.2 a'

lemma erase (h : m.NoneEmpty) : (m.erase a b c).NoneEmpty := by
  rw [noneEmpty_iff] at h ⊢
  refine ⟨h.1.prune, fun a' => ?_⟩
  rw [NestedMap.erase, entry_prune prune_empty]
  by_cases ha : a' = a
  · subst ha
    rw [Function.update_self]
    exact (h.2 a').prune
  · rw [Function.update_of_ne ha]
    exact h.2 a'

lemma drop (h : m.NoneEmpty) {as : List α} {bs : α → (Finmap fun _ : β => Finset γ) → List β}
    (has : as.Nodup) : (m.drop as bs c).NoneEmpty := by
  rw [noneEmpty_iff] at h ⊢
  refine ⟨h.1.sweep, fun a' => ?_⟩
  rw [entry_drop has]
  split_ifs
  · exact (h.2 a').sweep
  · exact h.2 a'

omit [DecidableEq γ] in
lemma finmap_erase (h : m.NoneEmpty) : NoneEmpty (Finmap.erase a m) := by
  intro a' sub hsub
  by_cases ha : a' = a
  · subst ha
    simp at hsub
  · rw [Finmap.lookup_erase_ne ha] at hsub
    exact h a' sub hsub

end NoneEmpty

end NestedMap

end PrunedMap
