import Mathlib.Data.List.Count
import Mathlib.Logic.Function.Basic
import Mathlib.Tactic.Common

/-!
# Adjacency lists with a reverse index

A multigraph kept as a list of outgoing edges for each node, together with an index that lists,
for each node, the sources of its incoming edges. The index carries no edge kinds, so it cannot
tell two parallel edges apart.

`Mirrored` says that the index has an entry for each edge, `Sound` that it has no entry without
an edge, `Complete` that no source is missing from it. The lemmas say what adding an edge,
removing edges between two nodes and erasing a node do to each of them.
-/

namespace EdgeIndex

universe u v
variable {N : Type u} {α : Type v}

/-- `out` lists the edges that leave a node, `into` the sources of those that enter it. -/
structure Index (N : Type u) (α : Type v) where
  out : N → List α
  into : N → List N

variable [DecidableEq N] (target : α → N) (x : Index N α)

/-- There is an edge between two nodes. -/
def Index.Joined (s t : N) : Prop := ∃ a ∈ x.out s, target a = t

instance (s t : N) : Decidable (x.Joined target s t) :=
  inferInstanceAs (Decidable (∃ a ∈ x.out s, target a = t))

/-- The number of edges between two nodes. -/
def Index.arcs (s t : N) : Nat := (x.out s).countP (target · = t)

def Index.Mirrored : Prop := ∀ s t, (x.into t).count s = x.arcs target s t

def Index.Sound : Prop := ∀ s t, s ∈ x.into t → x.Joined target s t

/-- A loop may be missing: it is found at its own node. -/
def Index.Complete : Prop := ∀ s t, s ≠ t → x.Joined target s t → s ∈ x.into t

/-! ### Operations -/

def Index.push (s : N) (a : α) : Index N α where
  out := Function.update x.out s (x.out s ++ [a])
  into := Function.update x.into (target a) (x.into (target a) ++ [s])

/-- Remove the edges from `s` to `t` that `p` selects, and every entry of `s` at `t`. -/
def Index.sever (s t : N) (p : α → Bool) : Index N α where
  out := Function.update x.out s ((x.out s).filter fun a => !(decide (target a = t) && p a))
  into := Function.update x.into t ((x.into t).filter (· ≠ s))

/-- Remove a node: the entries it has at its targets, and the edges to it that its own entries
lead to. -/
def Index.erase (n : N) : Index N α where
  out s := if s = n then [] else
    if s ∈ x.into n then (x.out s).filter (target · ≠ n) else x.out s
  into t := if t = n then [] else
    if x.Joined target n t then (x.into t).filter (· ≠ n) else x.into t

variable {target x} {s t n : N} {a : α} {p : α → Bool}

omit [DecidableEq N] in
@[ext] lemma Index.ext {x y : Index N α} (hout : ∀ s, x.out s = y.out s)
    (hinto : ∀ t, x.into t = y.into t) : x = y := by
  cases x
  cases y
  simp only [mk.injEq]
  exact ⟨funext hout, funext hinto⟩

lemma Index.arcs_pos : 0 < x.arcs target s t ↔ x.Joined target s t := by
  simp [arcs, Joined, List.countP_pos_iff]

lemma Index.arcs_eq_zero : x.arcs target s t = 0 ↔ ¬ x.Joined target s t := by
  rw [← arcs_pos]
  omega

/-- An index that mirrors the edges lists exactly the sources. -/
lemma Index.Mirrored.mem_into (h : x.Mirrored target) : s ∈ x.into t ↔ x.Joined target s t := by
  rw [← List.count_pos_iff, h s t, arcs_pos]

/-! ### Adding an edge -/

lemma Index.arcs_push (s' t' : N) : (x.push target s a).arcs target s' t' =
    x.arcs target s' t' + if s' = s ∧ target a = t' then 1 else 0 := by
  by_cases hs : s' = s
  · subst hs
    simp [arcs, push, List.countP_append, List.countP_cons]
  · simp [arcs, push, hs]

lemma Index.joined_push (s' t' : N) : (x.push target s a).Joined target s' t' ↔
    x.Joined target s' t' ∨ s' = s ∧ target a = t' := by
  rw [← arcs_pos, ← arcs_pos, arcs_push]
  split_ifs with h <;> simp [h]

lemma Index.count_push (s' t' : N) : ((x.push target s a).into t').count s' =
    (x.into t').count s' + if s' = s ∧ target a = t' then 1 else 0 := by
  by_cases ht : t' = target a
  · subst ht
    by_cases hs : s' = s
    · simp [push, hs]
    · simp [push, hs, Ne.symm hs]
  · simp [push, ht, Ne.symm ht]

lemma Index.Mirrored.push (h : x.Mirrored target) : (x.push target s a).Mirrored target := by
  intro s' t'
  rw [count_push, arcs_push, h s' t']

lemma Index.mem_push (s' t' : N) : s' ∈ (x.push target s a).into t' ↔
    s' ∈ x.into t' ∨ s' = s ∧ target a = t' := by
  rw [← List.count_pos_iff, ← List.count_pos_iff, count_push]
  split_ifs with h <;> simp [h]

lemma Index.Sound.push (h : x.Sound target) : (x.push target s a).Sound target := by
  intro s' t' hmem
  rw [joined_push]
  exact ((mem_push s' t').mp hmem).imp (h s' t') id

lemma Index.Complete.push (h : x.Complete target) : (x.push target s a).Complete target := by
  intro s' t' hne hjoin
  rw [mem_push]
  exact ((joined_push s' t').mp hjoin).imp (h s' t' hne) id

/-! ### Removing edges between two nodes -/

lemma Index.arcs_sever_self :
    (x.sever target s t p).arcs target s t = (x.out s).countP fun a => target a = t ∧ ¬ p a := by
  simp only [arcs, sever, Function.update_self, List.countP_filter]
  apply List.countP_congr
  intro a _
  simp +contextual

lemma Index.arcs_sever_of_ne {s' t' : N} (h : ¬ (s' = s ∧ t' = t)) :
    (x.sever target s t p).arcs target s' t' = x.arcs target s' t' := by
  by_cases hs : s' = s
  · subst hs
    have ht : t' ≠ t := fun ht => h ⟨rfl, ht⟩
    simp only [arcs, sever, Function.update_self, List.countP_filter]
    apply List.countP_congr
    intro a _
    simp only [Bool.not_and, Bool.and_eq_true, decide_eq_true_eq, Bool.or_eq_true,
      Bool.not_eq_true', decide_eq_false_iff_not, and_iff_left_iff_imp]
    rintro rfl
    exact .inl ht
  · simp [arcs, sever, hs]

lemma Index.count_sever_self : ((x.sever target s t p).into t).count s = 0 := by
  simp [sever, List.count_eq_zero]

lemma Index.count_sever_of_ne {s' t' : N} (h : ¬ (s' = s ∧ t' = t)) :
    ((x.sever target s t p).into t').count s' = (x.into t').count s' := by
  by_cases ht : t' = t
  · subst ht
    have hs : s' ≠ s := fun hs => h ⟨hs, rfl⟩
    simp [sever, List.count_filter, hs]
  · simp [sever, ht]

lemma Index.joined_sever_self : (x.sever target s t p).Joined target s t ↔
    ∃ a ∈ x.out s, target a = t ∧ ¬ p a := by
  rw [← arcs_pos, arcs_sever_self]
  simp [List.countP_pos_iff]

lemma Index.joined_sever_of_ne {s' t' : N} (h : ¬ (s' = s ∧ t' = t)) :
    (x.sever target s t p).Joined target s' t' ↔ x.Joined target s' t' := by
  rw [← arcs_pos, ← arcs_pos, arcs_sever_of_ne h]

/-- A mirrored index stays one if and only if no parallel edge is left behind. -/
lemma Index.Mirrored.sever_iff (h : x.Mirrored target) :
    (x.sever target s t p).Mirrored target ↔ ∀ a ∈ x.out s, target a = t → p a := by
  have hself : (x.sever target s t p).arcs target s t = 0 ↔ ∀ a ∈ x.out s, target a = t → p a := by
    rw [arcs_sever_self, List.countP_eq_zero]
    simp
  constructor
  · intro hm
    rw [← hself, ← hm s t, count_sever_self]
  · intro hall s' t'
    by_cases hst : s' = s ∧ t' = t
    · obtain ⟨rfl, rfl⟩ := hst
      rw [count_sever_self, hself.mpr hall]
    · rw [count_sever_of_ne hst, arcs_sever_of_ne hst, h s' t']

lemma Index.Sound.sever (h : x.Sound target) : (x.sever target s t p).Sound target := by
  intro s' t' hmem
  have hpos := List.count_pos_iff.mpr hmem
  have hst : ¬ (s' = s ∧ t' = t) := by
    rintro ⟨rfl, rfl⟩
    simp [count_sever_self] at hpos
  rw [count_sever_of_ne hst, List.count_pos_iff] at hpos
  exact (joined_sever_of_ne hst).mpr (h s' t' hpos)

/-- A complete index stays one if and only if no parallel edge is left behind, loops apart. -/
lemma Index.Complete.sever_iff (h : x.Complete target) :
    (x.sever target s t p).Complete target ↔
      s = t ∨ ∀ a ∈ x.out s, target a = t → p a := by
  constructor
  · intro hc
    by_cases hst : s = t
    · exact .inl hst
    · refine .inr fun a ha hat => ?_
      by_contra hp
      have hmem := hc s t hst (joined_sever_self.mpr ⟨a, ha, hat, hp⟩)
      have := List.count_pos_iff.mpr hmem
      simp [count_sever_self] at this
  · intro hall s' t' hne hjoin
    by_cases hst : s' = s ∧ t' = t
    · obtain ⟨rfl, rfl⟩ := hst
      obtain ⟨a, ha, hat, hp⟩ := joined_sever_self.mp hjoin
      exact (hp ((hall.resolve_left hne) a ha hat)).elim
    · have hmem := h s' t' hne ((joined_sever_of_ne hst).mp hjoin)
      rw [← List.count_pos_iff, count_sever_of_ne hst]
      exact List.count_pos_iff.mpr hmem

/-! ### Erasing a node -/

/-- The edges that do not touch the erased node are left alone. -/
lemma Index.filter_erase (hs : s ≠ n) :
    ((x.erase target n).out s).filter (target · ≠ n) = (x.out s).filter (target · ≠ n) := by
  by_cases hmem : s ∈ x.into n <;> simp [erase, hs, hmem]

lemma Index.not_joined_erase_self : ¬ (x.erase target n).Joined target n t := by
  simp [Joined, erase]

lemma Index.joined_erase (hs : s ≠ n) (ht : t ≠ n) :
    (x.erase target n).Joined target s t ↔ x.Joined target s t := by
  have hmem {y : Index N α} : y.Joined target s t ↔
      ∃ a ∈ (y.out s).filter (target · ≠ n), target a = t := by
    constructor
    · rintro ⟨a, ha, rfl⟩
      exact ⟨a, by simp [ha, ht], rfl⟩
    · rintro ⟨a, ha, hat⟩
      exact ⟨a, (List.mem_filter.mp ha).1, hat⟩
  rw [hmem, hmem, filter_erase hs]

lemma Index.arcs_erase (hs : s ≠ n) (ht : t ≠ n) :
    (x.erase target n).arcs target s t = x.arcs target s t := by
  have hcount {y : Index N α} :
      y.arcs target s t = ((y.out s).filter (target · ≠ n)).countP (target · = t) := by
    rw [arcs, List.countP_filter]
    apply List.countP_congr
    intro a _
    simp only [decide_eq_true_eq, Bool.and_eq_true, ne_eq, iff_self_and]
    rintro rfl
    exact ht
  rw [hcount, hcount, filter_erase hs]

lemma Index.count_erase (hs : s ≠ n) (ht : t ≠ n) :
    ((x.erase target n).into t).count s = (x.into t).count s := by
  by_cases hmem : x.Joined target n t <;> simp [erase, ht, hmem, List.count_filter, hs]

/-- With a sound index the erased node is in no list. -/
lemma Index.Sound.notMem_erase (h : x.Sound target) : n ∉ (x.erase target n).into t := by
  by_cases ht : t = n
  · simp [erase, ht]
  · by_cases hmem : x.Joined target n t
    · simp [erase, ht, hmem]
    · have hnot : n ∉ x.into t := fun hn => hmem (h n t hn)
      simpa [erase, ht, hmem] using hnot

/-- With a sound index, the erased node has an incoming edge left exactly when a source was
missing from its list. -/
lemma Index.joined_erase_iff (hs : s ≠ n) :
    (x.erase target n).Joined target s n ↔ x.Joined target s n ∧ s ∉ x.into n := by
  by_cases hmem : s ∈ x.into n <;> simp [Joined, erase, hs, hmem]

lemma Index.Sound.erase (h : x.Sound target) : (x.erase target n).Sound target := by
  intro s t hmem
  have hs : s ≠ n := by
    rintro rfl
    exact h.notMem_erase hmem
  have ht : t ≠ n := by
    rintro rfl
    simp [Index.erase] at hmem
  rw [← List.count_pos_iff, count_erase hs ht, List.count_pos_iff] at hmem
  exact (joined_erase hs ht).mpr (h s t hmem)

lemma Index.Complete.erase (h : x.Complete target) : (x.erase target n).Complete target := by
  intro s t hne hjoin
  have hs : s ≠ n := by
    rintro rfl
    exact not_joined_erase_self hjoin
  by_cases ht : t = n
  · subst ht
    obtain ⟨hjoined, hnot⟩ := (joined_erase_iff hs).mp hjoin
    exact (hnot (h s t hne hjoined)).elim
  · have hmem := h s t hne ((joined_erase hs ht).mp hjoin)
    rw [← List.count_pos_iff, count_erase hs ht]
    exact List.count_pos_iff.mpr hmem

lemma Index.Mirrored.sound (h : x.Mirrored target) : x.Sound target :=
  fun _ _ => h.mem_into.mp

lemma Index.Mirrored.complete (h : x.Mirrored target) : x.Complete target :=
  fun _ _ _ => h.mem_into.mpr

lemma Index.Mirrored.erase (h : x.Mirrored target) : (x.erase target n).Mirrored target := by
  intro s t
  by_cases hs : s = n
  · subst hs
    rw [List.count_eq_zero_of_not_mem h.sound.notMem_erase]
    simp [arcs, Index.erase]
  · by_cases ht : t = n
    · subst ht
      have hnot : ¬ (x.erase target t).Joined target s t := by
        rw [joined_erase_iff hs]
        exact fun hj => hj.2 (h.mem_into.mpr hj.1)
      rw [arcs_eq_zero.mpr hnot]
      simp [Index.erase]
    · rw [count_erase hs ht, arcs_erase hs ht, h s t]

end EdgeIndex
