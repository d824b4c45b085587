import Jcode.Foundation.Release
import Jcode.Swarm.Plan
import Mathlib.Algebra.BigOperators.Group.Finset.Piecewise

/-!
# Dependency cycles

`cycle_item_ids` finds the items whose dependencies lead into a cycle, whatever order the hash map
of the degrees is read in.
-/

namespace Jcode

open Release Relation

/-- An item with the id `id` is blocked by `dep`, the id of an item. -/
def WaitsFor (items : List PlanItem) (id dep : String) : Prop :=
  dep ∈ knownIds items ∧ ∃ item ∈ items, item.id = id ∧ dep ∈ item.blockedBy

/-- `cycle_item_ids` with a hash map of the degrees that is read in the order `order` when the
queue is made and in the order `order'` at the end. -/
def cycleItemIdsIn (items : List PlanItem) (order order' : List String) : List String :=
  let edges := (items.map fun item => item.blockedBy.length).sum
  let released := releaseLoop items (order.length + edges)
    (order.filter fun id => indegree items id = 0) [] (indegree items)
  (order'.filter fun id => 0 < released.2 id ∧ id ∉ released.1).insertionSort (· ≤ ·)

variable {items : List PlanItem} {order order' : List String} {id dep : String}

lemma cycleItemIds_eq_in :
    cycleItemIds items = cycleItemIdsIn items (knownIds items).dedup (knownIds items).dedup := rfl

/-! ### The loop of the library -/

lemma releaseLoop_eq_loop : releaseLoop items = loop (dependents items) := by
  funext fuel
  induction fuel with
  | zero => funext stack visited degree; simp [releaseLoop, loop]
  | succ fuel ih =>
    funext stack visited degree
    cases stack with
    | nil => simp [releaseLoop, loop]
    | cons id stack => simp [releaseLoop, loop, relax, ih]

lemma mem_dependents : id ∈ dependents items dep ↔
    ∃ item ∈ items, item.id = id ∧ dep ∈ item.blockedBy := by
  simp only [dependents, List.mem_flatMap, List.mem_map, List.mem_filter, decide_eq_true_eq]
  constructor
  · rintro ⟨item, hitem, _, ⟨hdep, rfl⟩, rfl⟩
    exact ⟨item, hitem, rfl, hdep⟩
  · rintro ⟨item, hitem, rfl, hdep⟩
    exact ⟨item, hitem, dep, ⟨hdep, rfl⟩, rfl⟩

lemma waits_iff :
    Waits (dependents items) (knownIds items).toFinset id dep ↔ WaitsFor items id dep := by
  rw [Waits, mem_dependents, List.mem_toFinset, WaitsFor]

lemma dependents_cons {item : PlanItem} : dependents (item :: items) dep =
    List.replicate (item.blockedBy.count dep) item.id ++ dependents items dep := by
  rw [dependents, List.flatMap_cons, ← dependents, List.map_const']
  congr 2
  rw [List.count, List.countP_eq_length_filter]
  simp [BEq.beq]

/-! ### The edges, counted in both directions -/

lemma sum_count (known : Finset String) (deps : List String) :
    ∑ dep ∈ known, deps.count dep = (deps.filter (· ∈ known)).length := by
  induction deps with
  | nil => simp
  | cons dep deps ih =>
    simp only [List.count_cons, Finset.sum_add_distrib, ih, beq_iff_eq, Finset.sum_ite_eq]
    rw [List.filter_cons]
    split_ifs <;> simp_all

lemma sum_count_dependents (known : Finset String) (items : List PlanItem) :
    ∑ dep ∈ known, (dependents items dep).count id =
      ((items.filter (·.id = id)).flatMap fun item => item.blockedBy.filter (· ∈ known)).length := by
  induction items with
  | nil => simp [dependents]
  | cons item items ih =>
    simp only [dependents_cons, List.count_append, Finset.sum_add_distrib, ih, List.count_replicate]
    rw [List.filter_cons]
    by_cases h : item.id = id
    · simp [h, sum_count]
    · simp [h]

lemma sum_length_dependents (known : Finset String) (items : List PlanItem) :
    ∑ dep ∈ known, (dependents items dep).length ≤
      (items.map fun item => item.blockedBy.length).sum := by
  induction items with
  | nil => simp [dependents]
  | cons item items ih =>
    simp only [dependents_cons, List.length_append, Finset.sum_add_distrib, List.length_replicate,
      sum_count, List.map_cons, List.sum_cons]
    exact Nat.add_le_add (List.length_filter_le _ _) ih

lemma indegree_eq_sum : indegree items id =
    ∑ dep ∈ (knownIds items).toFinset, (dependents items dep).count id := by
  simp [sum_count_dependents, indegree]

/-! ### What is left over -/

lemma inv_start (horder : order.Perm (knownIds items).dedup) :
    Inv (dependents items) (knownIds items).toFinset
      (order.filter fun id => indegree items id = 0) [] (indegree items) where
  stack_mem id hid := by
    have hmem := horder.subset (List.mem_of_mem_filter hid)
    simpa using hmem
  degree_eq id := by simp [indegree_eq_sum]
  stack_zero id hid := by simpa using (List.mem_filter.mp hid).2
  found id hid hzero := by
    have hmem : id ∈ order := horder.mem_iff.mpr (by simpa using hid)
    exact .inl (List.mem_filter.mpr ⟨hmem, decide_eq_true hzero⟩)
  ends id hid := absurd hid List.not_mem_nil

/-- The loop ends with an empty stack. -/
lemma inv_released (horder : order.Perm (knownIds items).dedup) {rounds : ℕ}
    (hrounds : order.length + (items.map fun item => item.blockedBy.length).sum ≤ rounds) :
    let released := releaseLoop items rounds (order.filter fun id => indegree items id = 0) []
      (indegree items)
    Inv (dependents items) (knownIds items).toFinset [] released.1 released.2 := by
  rw [releaseLoop_eq_loop]
  apply (inv_start horder).loop
  · intro dep _ id hid
    obtain ⟨item, hitem, rfl, -⟩ := mem_dependents.mp hid
    exact List.mem_toFinset.mpr (List.mem_map_of_mem hitem)
  · refine le_trans (Nat.add_le_add (List.length_filter_le _ _) ?_) hrounds
    rw [List.toFinset_nil, Finset.sdiff_empty]
    exact sum_length_dependents _ _

/-- The waiting of an id that is returned does not end. -/
lemma mem_cycleItemIdsIn (horder : order.Perm (knownIds items).dedup)
    (horder' : order'.Perm (knownIds items).dedup) : id ∈ cycleItemIdsIn items order order' ↔
      id ∈ knownIds items ∧ ¬ Ends (WaitsFor items) id := by
  have hmem : id ∈ order' ↔ id ∈ knownIds items := by rw [horder'.mem_iff, List.mem_dedup]
  rw [cycleItemIdsIn, List.mem_insertionSort, List.mem_filter, hmem, decide_eq_true_eq]
  refine and_congr_right fun hid => ?_
  rw [(inv_released horder le_rfl).left_iff (List.mem_toFinset.mpr hid)]
  have hwaits : Waits (dependents items) (knownIds items).toFinset = WaitsFor items := by
    funext id dep
    exact propext waits_iff
  rw [hwaits]

lemma sortedLT_cycleItemIdsIn (horder' : order'.Perm (knownIds items).dedup) :
    (cycleItemIdsIn items order order').SortedLT := by
  apply List.SortedLE.sortedLT_of_nodup List.sortedLE_insertionSort
  rw [(List.perm_insertionSort _ _).nodup_iff]
  exact (horder'.nodup_iff.mpr (List.nodup_dedup _)).filter _

/-- The ids of the items whose dependencies lead into a cycle, which are those whose dependencies go
on for ever, in order and each once, in whatever order the hash map is read. -/
theorem cycleItemIds_exact (items : List PlanItem) (order order' : List String)
    (horder : order.Perm (knownIds items).dedup) (horder' : order'.Perm (knownIds items).dedup) :
    (∀ id, id ∈ cycleItemIdsIn items order order' ↔
      id ∈ knownIds items ∧ ReachesCycle (WaitsFor items) id) ∧
    (∀ id, ReachesCycle (WaitsFor items) id ↔
      ∃ path : ℕ → String, path 0 = id ∧ ∀ n, WaitsFor items (path n) (path (n + 1))) ∧
    (cycleItemIdsIn items order order').Pairwise (· < ·) ∧
    cycleItemIdsIn items order order' = cycleItemIds items := by
  have hcycle (id : String) : ¬ Ends (WaitsFor items) id ↔ ReachesCycle (WaitsFor items) id :=
    not_ends_iff_reachesCycle (knownIds items).toFinset
      fun _ _ hwaits => List.mem_toFinset.mpr hwaits.1
  have hsorted : (cycleItemIdsIn items order order').SortedLT := sortedLT_cycleItemIdsIn horder'
  refine ⟨fun id => ?_, fun id => ?_, hsorted.pairwise, ?_⟩
  · rw [mem_cycleItemIdsIn horder horder', hcycle]
  · rw [← hcycle, not_ends_iff_chain]
  · rw [cycleItemIds_eq_in]
    apply hsorted.eq_of_mem_iff (sortedLT_cycleItemIdsIn (.refl _))
    intro id
    rw [mem_cycleItemIdsIn horder horder', mem_cycleItemIdsIn (.refl _) (.refl _)]

/-- Two items that wait for each other, one that waits for itself and twice for them, and a free one
that waits for an unknown id. -/
def tangledItems : List PlanItem :=
  [{ queuedTask "a" with blockedBy := ["b"] }, { queuedTask "b" with blockedBy := ["a", "d"] },
    { queuedTask "c" with blockedBy := ["c", "a", "a"] }, { queuedTask "d" with blockedBy := ["e"] }]

theorem cycleItemIds_exact_tangled :
    cycleItemIdsIn tangledItems ["d", "c", "b", "a"] ["b", "d", "a", "c"] =
      cycleItemIds tangledItems :=
  (cycleItemIds_exact tangledItems ["d", "c", "b", "a"] ["b", "d", "a", "c"] (by decide)
    (by decide)).2.2.2

example : cycleItemIds tangledItems = ["a", "b", "c"] := by decide +kernel

end Jcode
