import Jcode.Foundation.Run
import Jcode.Memory.EdgeCalls

/-!
# Which calls keep the graph consistent

For each public call, the condition on the graph before it under which edges, reverse lists,
counters and tag lists still agree after it. Every graph is well formed, so the condition is
exact: a call outside of it breaks the agreement.
-/

namespace Jcode

open EdgeIndex Schedule

namespace MemoryGraph

variable {W : Type} {g g' : MemoryGraph W} {id s t name : String} {tags : List String}
  {entry : MemoryEntry}

/-! ### Adding a memory -/

/-- The counter of a tag, zero without a node, is the number of memories with the tag. -/
lemma InStep.getD_tagCount (h : g.InStep) (hw : g.WellFormed) :
    (g.tagCount (tagId name)).getD 0 = (g.taggers (tagId name)).card := by
  cases hnode : g.tagCount (tagId name) with
  | none => simp [h.taggers_eq_empty hw hnode]
  | some count => exact h.counted _ count hnode

lemma index_addMemory : (g.addMemory entry).1.index =
    (match entry.supersededBy with
      | some newer => (g.addTags entry.id entry.tags).addEdgeInternal newer entry.id .supersedes
      | none => g.addTags entry.id entry.tags).index := rfl

lemma arcs_addMemory : (g.addMemory entry).1.index.arcs Edge.target s (tagId name) =
    g.index.arcs Edge.target s (tagId name) + (if s = entry.id then entry.tags.count name else 0) +
      if entry.supersededBy = some s ∧ entry.id = tagId name then 1 else 0 := by
  rw [index_addMemory]
  cases entry.supersededBy with
  | none => simp [arcs_addTags]
  | some newer =>
    simp only [index_addEdgeInternal, Index.arcs_push, arcs_addTags, Option.some.injEq,
      eq_comm (a := newer)]

lemma hasTagEdge_addMemory : (g.addMemory entry).1.HasTagEdge s (tagId name) ↔
    g.HasTagEdge s (tagId name) ∨ s = entry.id ∧ name ∈ entry.tags := by
  rw [hasTagEdge_congr index_addMemory, ← hasTagEdge_addTags]
  cases entry.supersededBy with
  | none => rfl
  | some newer => simp [hasTagEdge_addEdgeInternal, EdgeKind.isHasTag]

lemma tagsOf_addMemory : (g.addMemory entry).1.tagsOf s =
    if s = entry.id then some entry.tags else g.tagsOf s := by
  have hmemories : (g.addMemory entry).1.memories = g.memories.insert entry.id entry := by
    simp only [addMemory]
    cases entry.supersededBy <;> exact congrArg (Finmap.insert entry.id entry) memories_addTags
  rw [tagsOf, hmemories]
  split_ifs with h
  · rw [h, Finmap.lookup_insert, Option.map_some]
  · rw [Finmap.lookup_insert_of_ne _ h, tagsOf]

lemma stored_addMemory : (g.addMemory entry).1.Stored s ↔ s = entry.id ∨ g.Stored s := by
  rw [stored_iff, stored_iff, tagsOf_addMemory]
  split_ifs with h <;> simp [h]

lemma mirrored_addMemory (h : g.index.Mirrored Edge.target) :
    (g.addMemory entry).1.index.Mirrored Edge.target := by
  have hpush (tags : List String) (g : MemoryGraph W) (h : g.index.Mirrored Edge.target) :
      (g.addTags entry.id tags).index.Mirrored Edge.target := by
    induction tags generalizing g with
    | nil => exact h
    | cons tagName tags ih =>
      rw [addTags_cons]
      apply ih
      rw [countTag, index_modifyTag, index_addEdgeInternal, index_ensureTag]
      exact h.push
  rw [index_addMemory]
  cases entry.supersededBy with
  | none => exact hpush _ g h
  | some newer =>
    simp only [index_addEdgeInternal]
    exact (hpush _ g h).push

/-- An added memory has different tags and no edge to one, and it is no tag that a stored memory
supersedes. -/
lemma InStep.of_addMemory (h : g.InStep) (h' : (g.addMemory entry).1.InStep) :
    entry.tags.Nodup ∧ (∀ e ∈ g.getEdges entry.id, ¬ IsTagId e.target) ∧
      ∀ newer ∈ entry.supersededBy, IsTagId entry.id → newer ≠ entry.id ∧ ¬ g.Stored newer := by
  have hself (name : String) : g.index.arcs Edge.target entry.id (tagId name) +
      entry.tags.count name +
      (if entry.supersededBy = some entry.id ∧ entry.id = tagId name then 1 else 0) =
      if name ∈ entry.tags then 1 else 0 := by
    rw [← h'.listed entry.id entry.tags (by rw [tagsOf_addMemory, if_pos rfl]), arcs_addMemory,
      if_pos rfl]
  refine ⟨List.nodup_iff_count_le_one.mpr fun name => ?_, fun e he htag => ?_, ?_⟩
  · have := hself name
    split_ifs at this <;> omega
  · obtain ⟨name, hname⟩ := isTagId_iff.mp htag
    have hpos := Index.arcs_pos.mpr (⟨e, he, hname⟩ : g.index.Joined Edge.target entry.id _)
    have hsum := hself name
    by_cases hmem : name ∈ entry.tags
    · have := List.count_pos_iff.mpr hmem
      rw [if_pos hmem] at hsum
      omega
    · rw [if_neg hmem] at hsum
      omega
  · intro newer hnewer htag
    obtain ⟨name, hname⟩ := isTagId_iff.mp htag
    have hne : newer ≠ entry.id := by
      rintro rfl
      have hsum := hself name
      rw [if_pos ⟨hnewer, hname⟩] at hsum
      by_cases hmem : name ∈ entry.tags
      · have := List.count_pos_iff.mpr hmem
        rw [if_pos hmem] at hsum
        omega
      · rw [if_neg hmem] at hsum
        omega
    refine ⟨hne, fun hstored => ?_⟩
    have heq := h.arcs_eq h' name (by rw [tagsOf_addMemory, if_neg hne]) hstored
    rw [arcs_addMemory, if_neg hne, if_pos ⟨hnewer, hname⟩] at heq
    omega

lemma InStep.addMemory_iff (h : g.InStep) (hw : g.WellFormed) :
    (g.addMemory entry).1.InStep ↔
      entry.tags.Nodup ∧ (∀ e ∈ g.getEdges entry.id, ¬ IsTagId e.target) ∧
        ∀ newer ∈ entry.supersededBy, IsTagId entry.id → newer ≠ entry.id ∧ ¬ g.Stored newer := by
  refine ⟨h.of_addMemory, ?_⟩
  rintro ⟨hnodup, hnone, hnewer⟩
  have hzero (name : String) : g.index.arcs Edge.target entry.id (tagId name) = 0 := by
    rw [Index.arcs_eq_zero]
    rintro ⟨e, he, htarget⟩
    exact hnone e he (htarget ▸ isTagId_tagId)
  refine ⟨mirrored_addMemory h.mirrored, fun id count hc => ?_, fun id tags ht name => ?_⟩
  · obtain ⟨name, rfl⟩ := isTagId_iff.mp
      (hw.addMemory.tagIds id (Option.isSome_iff_exists.mpr ⟨count, hc⟩))
    have hnew : entry.id ∉ g.taggers (tagId name) := by
      rw [mem_taggers]
      exact fun hmem => Index.arcs_eq_zero.mp (hzero name) hmem.2.joined
    rw [tagCount_addMemory, tagCount_addTags] at hc
    split_ifs at hc with hmem
    · have hinsert : (g.addMemory entry).1.taggers (tagId name) =
          insert entry.id (g.taggers (tagId name)) := by
        ext s
        rw [mem_taggers, Finset.mem_insert, mem_taggers, stored_addMemory, hasTagEdge_addMemory]
        by_cases hs : s = entry.id <;> simp [hs, hmem]
      rw [hinsert, Finset.card_insert_of_notMem hnew, ← h.getD_tagCount hw]
      rw [hnodup.count, if_pos hmem] at hc
      exact (Option.some.inj hc).symm
    · have hsame : (g.addMemory entry).1.taggers (tagId name) = g.taggers (tagId name) := by
        ext s
        rw [mem_taggers, mem_taggers, stored_addMemory, hasTagEdge_addMemory]
        by_cases hs : s = entry.id
        · subst hs
          rw [mem_taggers] at hnew
          have hno : ¬ g.HasTagEdge entry.id (tagId name) := fun hedge =>
            Index.arcs_eq_zero.mp (hzero name) hedge.joined
          simp [hmem, hno]
        · simp [hs]
      rw [hsame]
      exact h.counted _ count hc
  · rw [tagsOf_addMemory] at ht
    rw [arcs_addMemory]
    split_ifs at ht with hid
    · cases ht
      subst hid
      rw [hzero, if_pos rfl, hnodup.count, if_neg (c := _ ∧ _), Nat.zero_add, Nat.add_zero]
      rintro ⟨hsup, htag⟩
      exact (hnewer entry.id hsup (htag ▸ isTagId_tagId)).1 rfl
    · rw [if_neg hid, if_neg (c := _ ∧ _)]
      · exact h.listed id tags ht name
      · rintro ⟨hsup, htag⟩
        exact (hnewer id hsup (htag ▸ isTagId_tagId)).2 (stored_iff.mpr ⟨tags, ht⟩)

/-! ### Removing a memory -/

lemma stored_removeMemory : (g.removeMemory id).2.Stored s ↔ s ≠ id ∧ g.Stored s := by
  rw [stored_iff, stored_iff, tagsOf_removeMemory]
  split_ifs with h <;> simp [h]

lemma hasTagEdge_removeMemory (hs : s ≠ id) (ht : t ≠ id) :
    (g.removeMemory id).2.HasTagEdge s t ↔ g.HasTagEdge s t := by
  have hedges : ((g.removeMemory id).2.getEdges s).filter (·.target ≠ id) =
      (g.getEdges s).filter (·.target ≠ id) := by
    rw [← index_out, index_removeMemory, Index.filter_erase hs, index_out]
  have hmem {edges : List (Edge W)} : (∃ e ∈ edges, e.target = t ∧ e.kind.isHasTag) ↔
      ∃ e ∈ edges.filter (·.target ≠ id), e.target = t ∧ e.kind.isHasTag := by
    constructor
    · rintro ⟨e, he, htarget, hkind⟩
      exact ⟨e, List.mem_filter.mpr ⟨he, by simp [htarget, ht]⟩, htarget, hkind⟩
    · rintro ⟨e, he, hedge⟩
      exact ⟨e, List.mem_of_mem_filter he, hedge⟩
  rw [HasTagEdge, HasTagEdge, hmem, hedges, ← hmem]

/-- No edge to the removed memory is left. -/
lemma InStep.not_joined_removeMemory (h : g.InStep) :
    ¬ (g.removeMemory id).2.index.Joined Edge.target s id := by
  rw [index_removeMemory]
  by_cases hs : s = id
  · subst hs
    exact Index.not_joined_erase_self
  · rw [Index.joined_erase_iff hs, h.mirrored.mem_into]
    exact fun hjoin => hjoin.2 hjoin.1

lemma InStep.taggers_removeMemory (h : g.InStep)
    (hnone : IsTagId id → ∀ source ∈ g.getIncoming id, source ≠ id → ¬ g.Stored source)
    (ht : IsTagId t) : (g.removeMemory id).2.taggers t = (g.taggers t).erase id := by
  ext s
  rw [mem_taggers, stored_removeMemory, Finset.mem_erase, mem_taggers, and_assoc]
  refine and_congr_right fun hs => and_congr_right fun hstored => ?_
  by_cases htarget : t = id
  · subst htarget
    refine iff_of_false (fun hedge => h.not_joined_removeMemory hedge.joined) fun hedge => ?_
    exact hnone ht s (h.mirrored.mem_into.mpr hedge.joined) hs hstored
  · exact hasTagEdge_removeMemory hs htarget

/-- The edges of the removed memory that were counted. -/
lemma countP_hasTag : (g.getEdges id).countP (fun e => e.target = t ∧ e.kind.isHasTag) = 0 ↔
    ¬ g.HasTagEdge id t := by
  rw [List.countP_eq_zero]
  simp [HasTagEdge]

lemma countP_hasTag_le :
    (g.getEdges id).countP (fun e => e.target = t ∧ e.kind.isHasTag) ≤
      g.index.arcs Edge.target id t := by
  apply List.countP_mono_left
  simp +contextual

/-- A stored memory is counted once for each of its tags. -/
lemma InStep.card_erase_taggers (h : g.InStep) (hstored : g.Stored id) :
    (g.taggers (tagId name)).card -
        (g.getEdges id).countP (fun e => e.target = tagId name ∧ e.kind.isHasTag) =
      ((g.taggers (tagId name)).erase id).card := by
  obtain ⟨tags, ht⟩ := stored_iff.mp hstored
  have hle := @countP_hasTag_le _ g id (tagId name)
  rw [h.listed id tags ht] at hle
  by_cases hedge : g.HasTagEdge id (tagId name)
  · have hne := mt countP_hasTag.mp (not_not.mpr hedge)
    rw [Finset.card_erase_of_mem (mem_taggers.mpr ⟨hstored, hedge⟩)]
    split_ifs at hle <;> omega
  · rw [countP_hasTag.mpr hedge, Finset.erase_eq_of_notMem, Nat.sub_zero]
    exact fun hmem => hedge (mem_taggers.mp hmem).2

lemma InStep.removeMemory_iff (h : g.InStep) (hw : g.WellFormed) :
    (g.removeMemory id).2.InStep ↔
      (g.Stored id ∨ ∀ e ∈ g.getEdges id, e.kind.isHasTag →
        ∀ tag ∈ g.tags e.target, tag.count = 0) ∧
      (IsTagId id → ∀ source ∈ g.getIncoming id, source ≠ id → ¬ g.Stored source) := by
  constructor
  · intro h'
    have hnone : IsTagId id → ∀ source ∈ g.getIncoming id, source ≠ id → ¬ g.Stored source := by
      intro htag source hsource hne hstored
      obtain ⟨name, hname⟩ := isTagId_iff.mp htag
      have heq := h.arcs_eq h' name (by rw [tagsOf_removeMemory, if_neg hne]) hstored
      rw [← hname, Index.arcs_eq_zero.mpr h.not_joined_removeMemory] at heq
      exact Index.arcs_eq_zero.mp heq.symm (h.mirrored.mem_into.mp hsource)
    refine ⟨or_iff_not_imp_left.mpr fun hstored e he hkind => ?_, hnone⟩
    rw [tagCount_eq_iff]
    intro count hc
    have htag := hw.tagIds e.target (Option.isSome_iff_exists.mpr ⟨count, hc⟩)
    have hnew := h'.counted e.target _ (by rw [tagCount_removeMemory, hc, Option.map_some])
    have hedge : g.HasTagEdge id e.target := ⟨e, he, rfl, hkind⟩
    have hpos := mt countP_hasTag.mp (not_not.mpr hedge)
    rw [h.taggers_removeMemory hnone htag, Finset.erase_eq_of_notMem,
      ← h.counted _ count hc] at hnew
    · omega
    · exact fun hmem => hstored (mem_taggers.mp hmem).1
  · rintro ⟨hzero, hnone⟩
    refine ⟨?_, fun t count hc => ?_, fun s tags ht name => ?_⟩
    · rw [index_removeMemory]
      exact h.mirrored.erase
    · rw [tagCount_removeMemory] at hc
      obtain ⟨old, hold, rfl⟩ := Option.map_eq_some_iff.mp hc
      have htag := hw.tagIds t (Option.isSome_iff_exists.mpr ⟨old, hold⟩)
      rw [h.taggers_removeMemory hnone htag, h.counted t old hold]
      by_cases hstored : g.Stored id
      · obtain ⟨name, rfl⟩ := isTagId_iff.mp htag
        exact h.card_erase_taggers hstored
      · rw [Finset.erase_eq_of_notMem fun hmem => hstored (mem_taggers.mp hmem).1,
          ← h.counted t old hold]
        by_cases hedge : g.HasTagEdge id t
        · obtain ⟨e, he, rfl, hkind⟩ := hedge
          rw [tagCount_eq_iff.mp (hzero.resolve_left hstored e he hkind) old hold, Nat.zero_sub]
        · rw [countP_hasTag.mpr hedge, Nat.sub_zero]
    · rw [tagsOf_removeMemory] at ht
      split_ifs at ht with hs
      by_cases htarget : tagId name = id
      · have hstored : g.Stored s := stored_iff.mpr ⟨tags, ht⟩
        have hmem : s ∉ g.getIncoming id := fun hmem =>
          hnone (htarget ▸ isTagId_tagId) s hmem hs hstored
        rw [← h.listed s tags ht, htarget, Index.arcs_eq_zero.mpr h.not_joined_removeMemory,
          eq_comm,
          Index.arcs_eq_zero, ← h.mirrored.mem_into]
        exact hmem
      · rw [index_removeMemory, Index.arcs_erase hs htarget]
        exact h.listed s tags ht name

/-! ### All calls -/

section
variable [BEq W]

/-- The graph is as the call expects it. -/
def KeepsInStep (g : MemoryGraph W) : GraphCall W → Prop
  | .addMemory entry =>
    entry.tags.Nodup ∧ (∀ e ∈ g.getEdges entry.id, ¬ IsTagId e.target) ∧
      ∀ newer ∈ entry.supersededBy, IsTagId entry.id → newer ≠ entry.id ∧ ¬ g.Stored newer
  | .removeMemory id =>
    (g.Stored id ∨ ∀ e ∈ g.getEdges id, e.kind.isHasTag → ∀ tag ∈ g.tags e.target, tag.count = 0) ∧
      (IsTagId id → ∀ source ∈ g.getIncoming id, source ≠ id → ¬ g.Stored source)
  | .tagMemory memoryId tagName =>
    g.HasTagEdge memoryId (tagId tagName) ∨
      g.Stored memoryId ∧ ∀ e ∈ g.getEdges memoryId, e.target ≠ tagId tagName
  | .untagMemory memoryId tagName =>
    (∀ e ∈ g.getEdges memoryId, e.target = tagId tagName → e.kind.isHasTag) ∧
      (g.Stored memoryId ∧ g.HasTagEdge memoryId (tagId tagName) ∨
        ∀ tag ∈ g.tags (tagId tagName), tag.count = 0)
  | .addEdge source target kind => g.KeepsEdge source target kind
  | .removeEdge source target kind =>
    (∀ e ∈ g.getEdges source, e.target = target → e.kind == kind) ∧
      (g.Stored source → IsTagId target → ∀ e ∈ g.getEdges source, e.target ≠ target)
  | .linkMemories source target weight => g.KeepsEdge source target (.relatesTo weight)
  | .supersede newerId olderId => g.KeepsEdge newerId olderId .supersedes
  | .markContradiction idA idB =>
    g.KeepsEdge idA idB .contradicts ∧ g.KeepsEdge idB idA .contradicts

instance (g : MemoryGraph W) : ∀ call, Decidable (g.KeepsInStep call)
  | .addMemory _ => inferInstanceAs (Decidable (_ ∧ _))
  | .removeMemory _ => inferInstanceAs (Decidable (_ ∧ _))
  | .tagMemory _ _ => inferInstanceAs (Decidable (_ ∨ _))
  | .untagMemory _ _ => inferInstanceAs (Decidable (_ ∧ _))
  | .addEdge source target kind => inferInstanceAs (Decidable (g.KeepsEdge source target kind))
  | .removeEdge _ _ _ => inferInstanceAs (Decidable (_ ∧ _))
  | .linkMemories source target weight =>
    inferInstanceAs (Decidable (g.KeepsEdge source target (.relatesTo weight)))
  | .supersede newerId olderId =>
    inferInstanceAs (Decidable (g.KeepsEdge newerId olderId .supersedes))
  | .markContradiction _ _ => inferInstanceAs (Decidable (_ ∧ _))

lemma inStep_step_iff {call : GraphCall W} (h : g.InStep) (hw : g.WellFormed)
    (hs : g.step call = some g') : g'.InStep ↔ g.KeepsInStep call := by
  cases call with
  | addMemory entry =>
    cases hs
    exact h.addMemory_iff hw
  | removeMemory id =>
    cases hs
    exact h.removeMemory_iff hw
  | tagMemory memoryId tagName =>
    cases hs
    exact h.tagMemory_iff hw
  | untagMemory memoryId tagName =>
    cases hs
    exact h.untagMemory_iff
  | addEdge source target kind =>
    cases hs
    exact h.addEdge_iff hw
  | removeEdge source target kind =>
    cases hs
    exact h.removeEdge_iff hw
  | linkMemories source target weight =>
    cases hs
    exact h.linkMemories_iff hw
  | supersede newerId olderId =>
    cases hs
    exact h.supersede_iff hw
  | markContradiction idA idB =>
    cases hs
    exact h.markContradiction_iff hw

end

lemma inStep_new : (new : MemoryGraph W).InStep := by
  refine ⟨fun s t => ?_, fun id count hc => ?_, fun id tags ht => ?_⟩
  · simp [new, Index.arcs, getIncoming, getEdges]
  · simp [new, tagCount] at hc
  · simp [new, tagsOf] at ht

end MemoryGraph

open MemoryGraph

/-- For every sequence of calls on a new graph: edges, reverse lists, counters and tag lists agree
in each graph it passes through, if and only if each call meets its condition. -/
theorem memoryGraph_consistent_iff {W : Type} [BEq W] (calls : List (GraphCall W)) :
    Always step Consistent new calls ↔ Guarded step KeepsInStep new calls := by
  obtain ⟨t, hrun⟩ := @exec_of_total _ _ _ new calls step_isSome
  refine always_iff_guarded (I := WellFormed) (E := fun _ _ => True)
    (fun g call g' h _ hs => h.step hs) ?_ ?_ wellFormed_new
    ((consistent_iff wellFormed_new).mpr inStep_new) (guarded_of_forall_mem fun _ _ _ => trivial)
    hrun
  · intro g call g' hw hcons _ hkeeps hs
    rw [consistent_iff hw] at hcons
    exact (consistent_iff (hw.step hs)).mpr ((inStep_step_iff hcons hw hs).mpr hkeeps)
  · intro g call g' hw hcons _ hleft hs hcons'
    rw [consistent_iff hw] at hcons
    rw [consistent_iff (hw.step hs)] at hcons'
    exact hleft ((inStep_step_iff hcons hw hs).mp hcons')

/-- Two memories are tagged, and the tag is taken off a third that never had it. -/
def untaggedCalls : List (GraphCall Nat) :=
  [.addMemory ⟨"a", ["x"], true, none⟩, .addMemory ⟨"b", [], true, none⟩, .untagMemory "b" "x"]

/-- The counter of the tag drops to zero although a memory has it. -/
theorem untagMemory_miscounts :
    ¬ ∀ (calls : List (GraphCall Nat)) (t : MemoryGraph Nat),
      exec step new calls = some t → t.Consistent := by
  intro h
  have hend : (exec step new untaggedCalls).any fun t =>
      (t.tags (tagId "x")).any (·.count = 0) && decide (t.Stored "a") &&
        decide (t.HasTagEdge "a" (tagId "x")) := by decide +kernel
  obtain ⟨t, ht, hleft⟩ := (Option.any_eq_true _ _).mp hend
  simp only [Bool.and_eq_true, decide_eq_true_eq, Option.any_eq_true] at hleft
  obtain ⟨⟨⟨tag, htag, hzero⟩, hstored⟩, hedge⟩ := hleft
  have hcard := (h _ t ht).counted _ tag htag
  rw [hzero, eq_comm, Finset.card_eq_zero] at hcard
  exact Finset.notMem_empty _ (hcard ▸ mem_taggers.mpr ⟨hstored, hedge⟩)

end Jcode
