import Jcode.Memory.TagCounts

/-!
# Every graph is well formed

Whatever is called on a new graph: each memory is stored under its own id, the tags in its list
have nodes, and the ids of tag nodes are those made from names.
-/

namespace Jcode

namespace MemoryGraph

variable {W : Type} {g g' : MemoryGraph W} {id s t name memoryId tagName source target : String}
  {tags : List String} {kind : EdgeKind W} {entry : MemoryEntry} {f : MemoryEntry → MemoryEntry}

lemma WellFormed.congr (h : g.WellFormed) (hmemories : g'.memories = g.memories)
    (hcount : ∀ id, (g.tagCount id).isSome → (g'.tagCount id).isSome)
    (htag : ∀ id, (g'.tagCount id).isSome → IsTagId id) : g'.WellFormed := by
  refine ⟨hmemories ▸ h.keyed, fun id tags ht name hname => ?_, htag⟩
  apply hcount
  refine h.hasNode id tags ?_ name hname
  rwa [tagsOf, hmemories] at ht

lemma isSome_adjust {β : Type} {entries : String → Option β} {f : β → β} :
    (adjust entries s f t).isSome ↔ (entries t).isSome := by
  rw [adjust_apply]
  split_ifs <;> simp

lemma WellFormed.addEdgeInternal (h : g.WellFormed) :
    (g.addEdgeInternal source target kind).WellFormed :=
  h.congr rfl (fun _ => id) h.tagIds

lemma WellFormed.addEdge [BEq W] (h : g.WellFormed) :
    (g.addEdge source target kind).WellFormed := by
  unfold MemoryGraph.addEdge
  split_ifs
  · exact h
  · exact h.addEdgeInternal

lemma WellFormed.countTag (h : g.WellFormed) : (g.countTag id).WellFormed := by
  refine h.congr rfl (fun t ht => ?_) fun t ht => h.tagIds t ?_
  · rwa [tagCount_countTag, isSome_adjust]
  · rwa [tagCount_countTag, isSome_adjust] at ht

lemma memories_ensureTag : (g.ensureTag name).memories = g.memories := by
  unfold ensureTag
  split_ifs <;> rfl

lemma isSome_tagCount_ensureTag : ((g.ensureTag name).tagCount t).isSome ↔
    t = tagId name ∨ (g.tagCount t).isSome := by
  rw [tagCount_ensureTag]
  split_ifs with h <;> simp [h]

lemma WellFormed.ensureTag (h : g.WellFormed) : (g.ensureTag name).WellFormed := by
  refine h.congr memories_ensureTag (fun t ht => isSome_tagCount_ensureTag.mpr (.inr ht)) ?_
  intro t ht
  rcases isSome_tagCount_ensureTag.mp ht with rfl | ht
  · exact isTagId_tagId
  · exact h.tagIds t ht

/-- A changed memory keeps its id, and its new tags have nodes. -/
lemma WellFormed.modifyMemory (h : g.WellFormed) (hid : ∀ m, (f m).id = m.id)
    (htags : ∀ m, ∀ name ∈ (f m).tags, name ∈ m.tags ∨ (g.tagCount (tagId name)).isSome) :
    (g.modifyMemory id f).WellFormed := by
  have hlookup {s : String} {entry : MemoryEntry}
      (hl : (g.modifyMemory id f).memories.lookup s = some entry) :
      ∃ old, g.memories.lookup s = some old ∧ (entry = f old ∨ entry = old) := by
    rw [lookup_modifyMemory] at hl
    split_ifs at hl
    · obtain ⟨old, hold, rfl⟩ := Option.map_eq_some_iff.mp hl
      exact ⟨old, hold, .inl rfl⟩
    · exact ⟨entry, hl, .inr rfl⟩
  refine ⟨fun s entry hl => ?_, fun s tags ht name hname => ?_, ?_⟩
  · obtain ⟨old, hold, rfl | rfl⟩ := hlookup hl
    · rw [hid, h.keyed s old hold]
    · exact h.keyed s entry hold
  · rw [tagCount_modifyMemory]
    obtain ⟨entry, hl, rfl⟩ := Option.map_eq_some_iff.mp ht
    obtain ⟨old, hold, rfl | rfl⟩ := hlookup hl
    · rcases htags old name hname with hname | hnode
      · exact h.hasNode s old.tags (by rw [tagsOf, hold, Option.map_some]) name hname
      · exact hnode
    · exact h.hasNode s entry.tags (by rw [tagsOf, hold, Option.map_some]) name hname
  · rw [tagCount_modifyMemory]
    exact h.tagIds

lemma WellFormed.addTags (h : g.WellFormed) : (g.addTags id tags).WellFormed := by
  induction tags generalizing g with
  | nil => exact h
  | cons tagName tags ih =>
    rw [addTags_cons]
    exact ih h.ensureTag.addEdgeInternal.countTag

lemma WellFormed.insert (h : g.WellFormed)
    (htags : ∀ name ∈ entry.tags, (g.tagCount (tagId name)).isSome) :
    WellFormed { g with memories := g.memories.insert entry.id entry } := by
  have hlookup {s : String} {e : MemoryEntry}
      (hl : (g.memories.insert entry.id entry).lookup s = some e) :
      s = entry.id ∧ e = entry ∨ g.memories.lookup s = some e := by
    by_cases hs : s = entry.id
    · subst hs
      rw [Finmap.lookup_insert] at hl
      exact .inl ⟨rfl, (Option.some.inj hl).symm⟩
    · rw [Finmap.lookup_insert_of_ne _ hs] at hl
      exact .inr hl
  refine ⟨fun s e hl => ?_, fun s tags ht name hname => ?_, h.tagIds⟩
  · rcases hlookup hl with ⟨rfl, rfl⟩ | hl
    · rfl
    · exact h.keyed s e hl
  · obtain ⟨e, hl, rfl⟩ := Option.map_eq_some_iff.mp ht
    rcases hlookup hl with ⟨rfl, rfl⟩ | hl
    · exact htags name hname
    · exact h.hasNode s e.tags (by rw [tagsOf, hl, Option.map_some]) name hname

lemma tagCount_addMemory : (g.addMemory entry).1.tagCount =
    (g.addTags entry.id entry.tags).tagCount := by
  simp only [addMemory]
  cases entry.supersededBy <;> rfl

lemma WellFormed.addMemory (h : g.WellFormed) : (g.addMemory entry).1.WellFormed := by
  have hnodes : ∀ name ∈ entry.tags,
      ((g.addTags entry.id entry.tags).tagCount (tagId name)).isSome := by
    intro name hname
    rw [tagCount_addTags, if_pos hname]
    rfl
  simp only [MemoryGraph.addMemory]
  cases entry.supersededBy with
  | none => exact h.addTags.insert hnodes
  | some newer => exact h.addTags.addEdgeInternal.insert hnodes

lemma WellFormed.removeMemory (h : g.WellFormed) : (g.removeMemory id).2.WellFormed := by
  refine ⟨fun s entry hl => ?_, fun s tags ht name hname => ?_, fun t ht => ?_⟩
  · rw [memories_removeMemory] at hl
    by_cases hs : s = id
    · rw [hs, Finmap.lookup_erase] at hl
      cases hl
    · rw [Finmap.lookup_erase_ne hs] at hl
      exact h.keyed s entry hl
  · rw [tagsOf_removeMemory] at ht
    split_ifs at ht
    rw [tagCount_removeMemory, Option.isSome_map]
    exact h.hasNode s tags ht name hname
  · rw [tagCount_removeMemory, Option.isSome_map] at ht
    exact h.tagIds t ht

lemma WellFormed.tagMemory (h : g.WellFormed) : (g.tagMemory memoryId tagName).WellFormed := by
  simp only [MemoryGraph.tagMemory]
  split_ifs
  · exact h.ensureTag
  · refine h.ensureTag.addEdgeInternal.countTag.modifyMemory ?_ ?_
    · intro m
      split_ifs <;> rfl
    · intro m name hname
      split_ifs at hname
      · exact .inl hname
      · rcases List.mem_append.mp hname with hname | hname
        · exact .inl hname
        · rw [List.mem_singleton] at hname
          right
          rw [tagCount_countTag, isSome_adjust, hname]
          exact isSome_tagCount_ensureTag.mpr (.inl rfl)

lemma WellFormed.untagMemory (h : g.WellFormed) : (g.untagMemory memoryId tagName).WellFormed := by
  simp only [MemoryGraph.untagMemory]
  refine WellFormed.modifyMemory (h.congr rfl (fun t ht => ?_) fun t ht => h.tagIds t ?_)
    (fun _ => rfl) fun m name hname => .inl (List.mem_of_mem_filter hname)
  · rw [tagCount_uncountTag, isSome_adjust]
    exact ht
  · rw [tagCount_uncountTag, isSome_adjust] at ht
    exact ht

lemma WellFormed.step [BEq W] {call : GraphCall W} (h : g.WellFormed)
    (hs : g.step call = some g') : g'.WellFormed := by
  cases call with
  | addMemory entry =>
    cases hs
    exact h.addMemory
  | removeMemory id =>
    cases hs
    exact h.removeMemory
  | tagMemory memoryId tagName =>
    cases hs
    exact h.tagMemory
  | untagMemory memoryId tagName =>
    cases hs
    exact h.untagMemory
  | addEdge source target kind =>
    cases hs
    exact h.addEdge
  | removeEdge source target kind =>
    cases hs
    exact h.congr rfl (fun _ => id) h.tagIds
  | linkMemories source target weight =>
    cases hs
    exact h.addEdge.congr rfl (fun _ => id) h.addEdge.tagIds
  | supersede newerId olderId =>
    cases hs
    exact h.addEdge.modifyMemory (fun _ => rfl) fun m name hname => .inl hname
  | markContradiction idA idB =>
    cases hs
    exact h.addEdge.addEdge

lemma wellFormed_new : (new : MemoryGraph W).WellFormed := by
  refine ⟨fun id entry hl => ?_, fun id tags ht => ?_, fun id hid => ?_⟩
  · simp [new] at hl
  · simp [new, tagsOf] at ht
  · simp [new, tagCount] at hid

end MemoryGraph

end Jcode
