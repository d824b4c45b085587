import Jcode.Swarm.PlanCycles

/-!
# Progress of plans

In a plan whose dependencies are known and lead into no cycle, some item can be run until all are
completed. What is to be run next can be run.
-/

namespace Jcode

open Release Relation

/-- Every dependency is an item, none leads back, and every item is completed or runnable. -/
structure SoundPlan (items : List PlanItem) : Prop where
  known : ∀ item ∈ items, ∀ dep ∈ item.blockedBy, dep ∈ knownIds items
  acyclic : ∀ id, ¬ TransGen (WaitsFor items) id id
  runnable : ∀ item ∈ items, isCompletedStatus item.status ∨ isRunnableStatus item.status

/-- All that the item waits for is there and completed. -/
def DependenciesDone (items : List PlanItem) (item : PlanItem) : Prop :=
  ∀ dep ∈ item.blockedBy, ∃ other ∈ items, other.id = dep ∧ isCompletedStatus other.status

variable {items : List PlanItem} {item : PlanItem} {id : String}

lemma mem_completedItemIds : id ∈ completedItemIds items ↔
    ∃ item ∈ items, item.id = id ∧ isCompletedStatus item.status := by
  simp only [completedItemIds, List.mem_map, List.mem_filter]
  constructor
  · rintro ⟨item, ⟨hitem, hdone⟩, rfl⟩
    exact ⟨item, hitem, rfl, hdone⟩
  · rintro ⟨item, hitem, rfl, hdone⟩
    exact ⟨item, ⟨hitem, hdone⟩, rfl⟩

lemma dependenciesMet_iff (hitem : item ∈ items) : dependenciesMet items item ↔
    DependenciesDone items item ∧ Ends (WaitsFor items) item.id := by
  have hcycle : item.id ∈ cycleItemIds items ↔ ¬ Ends (WaitsFor items) item.id := by
    rw [cycleItemIds_eq_in, mem_cycleItemIdsIn (.refl _) (.refl _)]
    exact and_iff_right (List.mem_map_of_mem hitem)
  have hdone : DependenciesDone items item ↔
      (∀ dep ∈ item.blockedBy, dep ∈ knownIds items) ∧
        ∀ dep ∈ item.blockedBy, dep ∈ knownIds items → dep ∈ completedItemIds items := by
    simp only [mem_completedItemIds]
    constructor
    · intro h
      refine ⟨fun dep hdep => ?_, fun dep hdep _ => h dep hdep⟩
      obtain ⟨other, hother, rfl, -⟩ := h dep hdep
      exact List.mem_map_of_mem hother
    · rintro ⟨hknown, h⟩ dep hdep
      exact h dep hdep (hknown dep hdep)
  rw [hdone, dependenciesMet]
  simp [missingDependencies, unresolvedDependencies, hcycle]

lemma isReady_iff (hitem : item ∈ items) : isReady items item ↔ isRunnableStatus item.status ∧
    DependenciesDone items item ∧ Ends (WaitsFor items) item.id := by
  rw [isReady, Bool.and_eq_true, dependenciesMet_iff hitem]

/-! ### Progress -/

namespace SoundPlan

lemma ends (h : SoundPlan items) (id : String) : Ends (WaitsFor items) id := by
  by_contra hends
  obtain ⟨b, -, hcycle⟩ := (not_ends_iff_reachesCycle (knownIds items).toFinset
    fun _ _ hwaits => List.mem_toFinset.mpr hwaits.1).mp hends
  exact h.acyclic b hcycle

/-- Among the items that an open item waits for, itself included, one is ready. -/
lemma exists_isReady (h : SoundPlan items) (hends : Ends (WaitsFor items) id) (hitem : item ∈ items)
    (hid : item.id = id) (hopen : ¬ isCompletedStatus item.status) :
    ∃ ready ∈ items, isReady items ready := by
  induction hends generalizing item with
  | intro id _ ih =>
    by_cases hdone : DependenciesDone items item
    · have hrunnable := (h.runnable item hitem).resolve_left hopen
      exact ⟨item, hitem, (isReady_iff hitem).mpr ⟨hrunnable, hdone, h.ends item.id⟩⟩
    · simp only [DependenciesDone, not_forall, not_exists] at hdone
      obtain ⟨dep, hdep, hnone⟩ := hdone
      have hknown := h.known item hitem dep hdep
      obtain ⟨other, hother, rfl⟩ := List.mem_map.mp hknown
      exact ih other.id ⟨hknown, item, hitem, hid, hdep⟩ hother rfl
        fun hcompleted => hnone other ⟨hother, rfl, hcompleted⟩

end SoundPlan

/-! ### What is to be run next -/

instance : Std.Total runsBefore where
  total left right := by
    unfold runsBefore
    rcases lt_trichotomy (priorityRank left.priority) (priorityRank right.priority) with h | h | h
    · exact .inl (.inl h)
    · exact (le_total left.id right.id).imp (fun hle => .inr ⟨h, hle⟩) fun hle => .inr ⟨h.symm, hle⟩
    · exact .inr (.inl h)

instance : IsTrans PlanItem runsBefore where
  trans a b c := by
    rintro (hab | ⟨hab, habId⟩) (hbc | ⟨hbc, hbcId⟩)
    · exact .inl (hab.trans hbc)
    · exact .inl (hbc ▸ hab)
    · exact .inl (hab ▸ hbc)
    · exact .inr ⟨hab.trans hbc, habId.trans hbcId⟩

/-- The items that are ready, in the order in which they are to be run. -/
def readyItems (items : List PlanItem) : List PlanItem :=
  (items.filter (isReady items)).insertionSort runsBefore

lemma eq_of_id_eq (hids : (knownIds items).Nodup) {other : PlanItem} (hitem : item ∈ items)
    (hother : other ∈ items) (h : item.id = other.id) : item = other :=
  List.inj_on_of_nodup_map hids hitem hother h

/-- Where the ids are distinct, an id that is ready is that of one item. -/
lemma nextRunnableItemIds_eq (hids : (knownIds items).Nodup) :
    nextRunnableItemIds items none = (readyItems items).map (·.id) := by
  have hfilter : items.filter (fun item => item.id ∈ (summarizePlanGraph items).readyIds) =
      items.filter (isReady items) := by
    refine List.filter_congr fun item hitem => ?_
    rw [Bool.eq_iff_iff, decide_eq_true_eq, mem_readyIds]
    constructor
    · rintro ⟨ready, hready, hisReady, hid⟩
      rwa [← eq_of_id_eq hids hready hitem hid]
    · exact fun hready => ⟨item, hitem, hready, rfl⟩
  rw [readyItems, ← hfilter]
  rfl

/-- In a sound plan that is not completed, an item can be run. What is to be run next, each once and
by its priority and its id, are runnable items whose dependencies are there and completed. -/
theorem nextRunnableItemIds_spec (items : List PlanItem) (hids : (knownIds items).Nodup) :
    (SoundPlan items → (∃ item ∈ items, ¬ isCompletedStatus item.status) →
      nextRunnableItemIds items none ≠ []) ∧
    ∀ limit, ∃ chosen : List PlanItem,
      nextRunnableItemIds items limit = chosen.map (·.id) ∧
      (nextRunnableItemIds items limit).Nodup ∧ chosen.Pairwise runsBefore ∧
      ∀ item ∈ chosen, item ∈ items ∧ isRunnableStatus item.status ∧
        DependenciesDone items item := by
  have hnext := nextRunnableItemIds_eq hids
  refine ⟨?_, fun limit => ?_⟩
  · rintro hsound ⟨item, hitem, hopen⟩ hnil
    obtain ⟨ready, hready, hisReady⟩ := hsound.exists_isReady (hsound.ends item.id) hitem rfl hopen
    have hmem : ready ∈ readyItems items :=
      (List.mem_insertionSort runsBefore).mpr (List.mem_filter.mpr ⟨hready, hisReady⟩)
    rw [hnext, List.map_eq_nil_iff] at hnil
    exact List.not_mem_nil (hnil ▸ hmem)
  · -- a limit takes the first ones
    obtain ⟨chosen, hsub, heq⟩ : ∃ chosen : List PlanItem, chosen.Sublist (readyItems items) ∧
        nextRunnableItemIds items limit = chosen.map (·.id) := by
      cases limit with
      | none => exact ⟨_, .refl _, hnext⟩
      | some limit =>
        refine ⟨_, List.take_sublist limit _, ?_⟩
        rw [List.map_take, ← hnext]
        rfl
    have hperm : (readyItems items).Perm (items.filter (isReady items)) :=
      List.perm_insertionSort _ _
    refine ⟨chosen, heq, ?_, ?_, fun item hitem => ?_⟩
    · have hready : ((readyItems items).map (·.id)).Nodup := by
        rw [(hperm.map _).nodup_iff]
        exact hids.sublist ((List.filter_sublist).map _)
      rw [heq]
      exact hready.sublist (hsub.map _)
    · exact (List.pairwise_insertionSort runsBefore _).sublist hsub
    · obtain ⟨hmem, hready⟩ := List.mem_filter.mp (hperm.subset (hsub.subset hitem))
      obtain ⟨hrunnable, hdone, -⟩ := (isReady_iff hmem).mp hready
      exact ⟨hmem, hrunnable, hdone⟩

/-- A completed item and three that wait for earlier ones. -/
def layeredItems : List PlanItem :=
  [{ queuedTask "a" with status := "completed" }, { queuedTask "b" with blockedBy := ["a"] },
    { queuedTask "c" with blockedBy := ["b", "a", "b"] },
    { queuedTask "d" with priority := "low" }]

lemma soundPlan_layered : SoundPlan layeredItems where
  known := by decide
  acyclic id hcycle := by
    have hbefore : ∀ item ∈ layeredItems, ∀ dep ∈ item.blockedBy, dep < item.id := by decide
    have hlt {a b : String} (h : TransGen (WaitsFor layeredItems) a b) : b < a := by
      induction h with
      | single h =>
        obtain ⟨-, item, hitem, rfl, hdep⟩ := h
        exact hbefore item hitem _ hdep
      | tail _ h ih =>
        obtain ⟨-, item, hitem, rfl, hdep⟩ := h
        exact (hbefore item hitem _ hdep).trans ih
    exact lt_irrefl id (hlt hcycle)
  runnable := by decide

theorem nextRunnableItemIds_spec_layered : nextRunnableItemIds layeredItems none ≠ [] :=
  (nextRunnableItemIds_spec layeredItems (by decide)).1 soundPlan_layered
    ⟨{ queuedTask "b" with blockedBy := ["a"] }, by decide, by decide⟩

example : nextRunnableItemIds layeredItems none = ["b", "d"] := by decide +kernel

end Jcode
