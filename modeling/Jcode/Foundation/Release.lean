import Mathlib.Algebra.BigOperators.Group.Finset.Basic
import Mathlib.Algebra.Order.BigOperators.Group.Finset
import Mathlib.Data.Finset.Card
import Mathlib.Data.Fintype.EquivFin
import Mathlib.Data.Fintype.Pigeonhole
import Mathlib.Logic.Relation
import Mathlib.Order.WellFounded

/-!
# Release in dependency order

Entries wait for others. Those whose waiting ends are released one by one, each when the last
entry that it waits for has been; the edges are counted with their multiplicity. Among finitely
many entries, what is left over waits for a cycle.
-/

open Relation

universe u
variable {α : Type u}

namespace Release

/-! ### Waiting -/

section

variable {waits : α → α → Prop} {a b : α}

/-- The waiting of `a` ends on every path. -/
def Ends (waits : α → α → Prop) (a : α) : Prop := Acc (flip waits) a

/-- A path leads from `a` to an entry that waits for itself. -/
def ReachesCycle (waits : α → α → Prop) (a : α) : Prop :=
  ∃ b, ReflTransGen waits a b ∧ TransGen waits b b

lemma ends_iff : Ends waits a ↔ ∀ b, waits a b → Ends waits b :=
  ⟨fun h _ hb => h.inv hb, fun h => Acc.intro a h⟩

lemma Ends.of_reach (h : Ends waits a) (hab : ReflTransGen waits a b) : Ends waits b := by
  induction hab with
  | refl => exact h
  | tail _ hstep ih => exact ends_iff.mp ih _ hstep

lemma Ends.not_cycle (h : Ends waits a) : ¬ TransGen waits a a := by
  induction h with
  | intro a _ ih =>
    intro hcycle
    obtain ⟨b, hstep, hback⟩ := TransGen.head'_iff.mp hcycle
    exact ih b hstep (TransGen.tail' hback hstep)

/-- The waiting does not end if and only if a path goes on for ever. -/
lemma not_ends_iff_chain : ¬ Ends waits a ↔
    ∃ path : ℕ → α, path 0 = a ∧ ∀ n, waits (path n) (path (n + 1)) :=
  not_acc_iff_exists_descending_chain

/-- Among finitely many entries, only a cycle keeps the waiting from its end. -/
theorem not_ends_iff_reachesCycle (entries : Finset α)
    (hentries : ∀ a b, waits a b → b ∈ entries) : ¬ Ends waits a ↔ ReachesCycle waits a := by
  constructor
  · intro h
    obtain ⟨path, hstart, hpath⟩ := not_ends_iff_chain.mp h
    have hreach : ∀ m n, ReflTransGen waits (path m) (path (m + n)) := by
      intro m n
      induction n with
      | zero => exact .refl
      | succ n ih => exact ih.tail (hpath (m + n))
    -- two of the entries on the path are the same
    let place (n : ℕ) : entries := ⟨path (n + 1), hentries _ _ (hpath n)⟩
    obtain ⟨m, n, hne, hsame⟩ := Finite.exists_ne_map_eq_of_infinite place
    have hcycle {m n : ℕ} (hlt : m < n) (hsame : path (m + 1) = path (n + 1)) :
        ReachesCycle waits a := by
      obtain ⟨k, rfl⟩ := Nat.exists_eq_add_of_lt hlt
      refine ⟨path (m + 1), ?_, ?_⟩
      · have h0 := hreach 0 (m + 1)
        rwa [Nat.zero_add, hstart] at h0
      · have hback := hreach (m + 1 + 1) k
        rw [show m + 1 + 1 + k = m + k + 1 + 1 by omega, ← hsame] at hback
        exact TransGen.head' (hpath (m + 1)) hback
    have hpathEq : path (m + 1) = path (n + 1) := Subtype.ext_iff.mp hsame
    rcases Nat.lt_or_gt_of_ne hne with hlt | hlt
    · exact hcycle hlt hpathEq
    · exact hcycle hlt hpathEq.symm
  · rintro ⟨b, hreach, hcycle⟩ h
    exact (h.of_reach hreach).not_cycle hcycle

end

/-! ### The loop -/

variable [DecidableEq α]

/-- The children of a released entry have one edge less; one without any left goes on the stack. -/
def relax (children : List α) (work : List α × (α → ℕ)) : List α × (α → ℕ) :=
  children.foldl (fun (stack, degree) child =>
    let left := degree child - 1
    (if left = 0 then child :: stack else stack, Function.update degree child left)) work

variable (dependents : α → List α)

def loop : ℕ → List α → List α → (α → ℕ) → List α × (α → ℕ)
  | 0, _, visited, degree => (visited, degree)
  | _, [], visited, degree => (visited, degree)
  | fuel + 1, a :: stack, visited, degree =>
    if a ∈ visited then loop fuel stack visited degree
    else
      let work := relax (dependents a) (stack, degree)
      loop fuel work.1 (a :: visited) work.2

section

variable {children stack : List α} {degree : α → ℕ} {a b : α}

lemma relax_cons {child : α} : relax (child :: children) (stack, degree) =
    relax children (if degree child - 1 = 0 then child :: stack else stack,
      Function.update degree child (degree child - 1)) := rfl

lemma relax_degree : (relax children (stack, degree)).2 a = degree a - children.count a := by
  induction children generalizing stack degree with
  | nil => rfl
  | cons child children ih =>
    rw [relax_cons, ih]
    by_cases h : a = child
    · subst h
      rw [Function.update_self, List.count_cons_self]
      omega
    · rw [Function.update_of_ne h, List.count_cons_of_ne (Ne.symm h)]

/-- The children whose edges are all among those removed go on the stack. -/
lemma mem_relax_stack : a ∈ (relax children (stack, degree)).1 ↔
    a ∈ stack ∨ a ∈ children ∧ degree a ≤ children.count a := by
  induction children generalizing stack degree with
  | nil => simp [relax]
  | cons child children ih =>
    rw [relax_cons, ih]
    by_cases h : a = child
    · subst h
      have hpos : a ∈ children ↔ 0 < children.count a := List.count_pos_iff.symm
      rw [Function.update_self, List.count_cons_self, hpos]
      split_ifs with hleft
      · simp only [List.mem_cons, true_or, true_and, true_iff]
        omega
      · simp only [List.mem_cons, true_or, true_and]
        refine or_congr_right ⟨fun h => ?_, fun h => ⟨?_, ?_⟩⟩ <;> omega
    · rw [Function.update_of_ne h, List.count_cons_of_ne (Ne.symm h)]
      split_ifs <;> simp [h]

lemma length_relax_stack :
    (relax children (stack, degree)).1.length ≤ stack.length + children.length := by
  induction children generalizing stack degree with
  | nil => exact le_rfl
  | cons child children ih =>
    rw [relax_cons]
    refine ih.trans ?_
    split_ifs <;> simp only [List.length_cons] <;> omega

end

/-! ### What the loop keeps -/

/-- An entry waits for each of the entries among whose dependents it is. -/
def Waits (entries : Finset α) (a b : α) : Prop := b ∈ entries ∧ a ∈ dependents b

/-- The edges that are left of an entry come from those that are not released; where there are
none, the entry is released or on the stack. -/
structure Inv (entries : Finset α) (stack visited : List α) (degree : α → ℕ) : Prop where
  stack_mem : ∀ a ∈ stack, a ∈ entries
  degree_eq : ∀ a, degree a = ∑ b ∈ entries \ visited.toFinset, (dependents b).count a
  stack_zero : ∀ a ∈ stack, degree a = 0
  found : ∀ a ∈ entries, degree a = 0 → a ∈ stack ∨ a ∈ visited
  ends : ∀ a ∈ visited, Ends (Waits dependents entries) a

/-- The rounds that are left at most. -/
def rounds (entries : Finset α) (stack visited : List α) : ℕ :=
  stack.length + ∑ b ∈ entries \ visited.toFinset, (dependents b).length

section

variable {dependents} {entries : Finset α} {stack visited : List α} {degree : α → ℕ} {a b : α}

namespace Inv

/-- An entry without edges waits for released entries only. -/
lemma mem_visited_of_waits (h : Inv dependents entries stack visited degree) (ha : degree a = 0)
    (hwaits : Waits dependents entries a b) : b ∈ visited := by
  by_contra hb
  rw [h.degree_eq, Finset.sum_eq_zero_iff] at ha
  have hcount := ha b (Finset.mem_sdiff.mpr ⟨hwaits.1, mt List.mem_toFinset.mp hb⟩)
  exact List.count_eq_zero.mp hcount hwaits.2

lemma ends_of_zero (h : Inv dependents entries stack visited degree) (ha : degree a = 0) :
    Ends (Waits dependents entries) a :=
  ends_iff.mpr fun b hb => h.ends b (h.mem_visited_of_waits ha hb)

lemma pop (h : Inv dependents entries (a :: stack) visited degree) (ha : a ∈ visited) :
    Inv dependents entries stack visited degree where
  stack_mem b hb := h.stack_mem b (List.mem_cons_of_mem a hb)
  degree_eq := h.degree_eq
  stack_zero b hb := h.stack_zero b (List.mem_cons_of_mem a hb)
  found b hb hzero := by
    rcases h.found b hb hzero with hstack | hvisited
    · rcases List.mem_cons.mp hstack with rfl | hstack
      · exact .inr ha
      · exact .inl hstack
    · exact .inr hvisited
  ends := h.ends

lemma sdiff_cons : entries \ (a :: visited).toFinset = (entries \ visited.toFinset).erase a := by
  rw [List.toFinset_cons, Finset.sdiff_insert]

lemma sum_cons (ha : a ∈ entries) (hnew : a ∉ visited) (f : α → ℕ) :
    f a + ∑ b ∈ entries \ (a :: visited).toFinset, f b =
      ∑ b ∈ entries \ visited.toFinset, f b := by
  rw [sdiff_cons, Finset.add_sum_erase]
  exact Finset.mem_sdiff.mpr ⟨ha, mt List.mem_toFinset.mp hnew⟩

lemma release (h : Inv dependents entries (a :: stack) visited degree)
    (hclosed : ∀ b ∈ entries, ∀ c ∈ dependents b, c ∈ entries) (hnew : a ∉ visited) :
    Inv dependents entries (relax (dependents a) (stack, degree)).1 (a :: visited)
      (relax (dependents a) (stack, degree)).2 := by
  have ha := h.stack_mem a List.mem_cons_self
  have hsum (c : α) : degree c = (dependents a).count c +
      ∑ b ∈ entries \ (a :: visited).toFinset, (dependents b).count c := by
    rw [h.degree_eq, sum_cons ha hnew fun b => (dependents b).count c]
  constructor
  · intro b hb
    rcases mem_relax_stack.mp hb with hb | ⟨hb, -⟩
    · exact h.stack_mem b (List.mem_cons_of_mem a hb)
    · exact hclosed a ha b hb
  · intro b
    rw [relax_degree, hsum, Nat.add_sub_cancel_left]
  · intro b hb
    rw [relax_degree]
    rcases mem_relax_stack.mp hb with hb | ⟨-, hle⟩
    · rw [h.stack_zero b (List.mem_cons_of_mem a hb), Nat.zero_sub]
    · exact Nat.sub_eq_zero_of_le hle
  · intro b hb hzero
    rw [relax_degree, Nat.sub_eq_zero_iff_le] at hzero
    by_cases hchild : b ∈ dependents a
    · exact .inl (mem_relax_stack.mpr (.inr ⟨hchild, hzero⟩))
    · rw [List.count_eq_zero_of_not_mem hchild, Nat.le_zero] at hzero
      rcases h.found b hb hzero with hstack | hvisited
      · rcases List.mem_cons.mp hstack with rfl | hstack
        · exact .inr List.mem_cons_self
        · exact .inl (mem_relax_stack.mpr (.inl hstack))
      · exact .inr (List.mem_cons_of_mem a hvisited)
  · intro b hb
    rcases List.mem_cons.mp hb with rfl | hb
    · exact h.ends_of_zero (h.stack_zero b List.mem_cons_self)
    · exact h.ends b hb

/-- With as many rounds as there may be, the stack is emptied. -/
theorem loop (h : Inv dependents entries stack visited degree)
    (hclosed : ∀ b ∈ entries, ∀ c ∈ dependents b, c ∈ entries) {fuel : ℕ}
    (hfuel : rounds dependents entries stack visited ≤ fuel) :
    Inv dependents entries [] (Release.loop dependents fuel stack visited degree).1
      (Release.loop dependents fuel stack visited degree).2 := by
  induction fuel generalizing stack visited degree with
  | zero =>
    rw [rounds, Nat.le_zero, Nat.add_eq_zero_iff, List.length_eq_zero_iff] at hfuel
    rwa [Release.loop, ← hfuel.1]
  | succ fuel ih =>
    cases stack with
    | nil => exact h
    | cons a stack =>
      rw [Release.loop]
      split_ifs with ha
      · refine ih (h.pop ha) ?_
        rw [rounds, List.length_cons] at hfuel
        rw [rounds]
        omega
      · refine ih (h.release hclosed ha) ?_
        have hsum := sum_cons (h.stack_mem a List.mem_cons_self) ha fun b => (dependents b).length
        have hlength : (relax (dependents a) (stack, degree)).1.length ≤
            stack.length + (dependents a).length := length_relax_stack
        rw [rounds, List.length_cons] at hfuel
        rw [rounds]
        omega

/-- When the stack is empty, the entries with edges left are those whose waiting does not end. -/
theorem left_iff (h : Inv dependents entries [] visited degree) (ha : a ∈ entries) :
    0 < degree a ∧ a ∉ visited ↔ ¬ Ends (Waits dependents entries) a := by
  constructor
  · rintro ⟨-, hnew⟩ hends
    -- whoever is left waits for another that is left
    induction hends with
    | intro a _ ih =>
      have hpos : degree a ≠ 0 := fun hzero =>
        hnew ((h.found a ha hzero).resolve_left List.not_mem_nil)
      rw [h.degree_eq] at hpos
      obtain ⟨b, hb, hcount⟩ := Finset.exists_ne_zero_of_sum_ne_zero hpos
      obtain ⟨hentry, hleft⟩ := Finset.mem_sdiff.mp hb
      have hwaits : Waits dependents entries a b :=
        ⟨hentry, List.count_pos_iff.mp (Nat.pos_of_ne_zero hcount)⟩
      exact ih b hwaits hentry (mt List.mem_toFinset.mpr hleft)
  · intro hends
    refine ⟨Nat.pos_of_ne_zero fun hzero => hends (h.ends_of_zero hzero), fun hvisited => ?_⟩
    exact hends (h.ends a hvisited)

end Inv

end

end Release
