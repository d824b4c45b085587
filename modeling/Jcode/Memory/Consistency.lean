import Jcode.Foundation.Run
import Jcode.Memory.Graph

/-!
# Edges, reverse lists, tag counters and tag lists

The graph says four times which memories have a tag: in the edge lists, in the reverse list of
the tag, in its counter and in the tag list of each memory. They agree as long as edges to tags
of stored memories are only made and removed by the functions for tags, each of them finds the
tag as it expects it, and no parallel edges are taken off a reverse list together.
-/

namespace Jcode

open EdgeIndex Schedule

namespace MemoryGraph

variable {W : Type} (g : MemoryGraph W)

def Stored (id : String) : Prop := (g.memories.lookup id).isSome

instance (id : String) : Decidable (g.Stored id) :=
  inferInstanceAs (Decidable ((g.memories.lookup id).isSome = true))

def tagsOf (id : String) : Option (List String) := (g.memories.lookup id).map (·.tags)

def tagCount (id : String) : Option Nat := (g.tags id).map (·.count)

/-- The stored memories with a `HasTag` edge to the node. -/
def taggers (id : String) : Finset String := g.memories.keys.filter (g.HasTagEdge · id)

/-- The reverse lists mirror the edge lists, the counters count the memories with a `HasTag`
edge, and a tag gives each of its memories once. -/
structure Consistent : Prop where
  mirrored : ∀ s t, (g.getIncoming t).count s = (g.getEdges s).countP (·.target = t)
  counted : ∀ id tag, g.tags id = some tag → tag.count = (g.taggers id).card
  listed : ∀ name, ((g.getMemoriesByTag name).map (·.id)).Nodup ∧
    ∀ entry, entry ∈ g.getMemoriesByTag name ↔
      (∃ id, g.memories.lookup id = some entry) ∧ name ∈ entry.tags

def IsTagId (id : String) : Prop := "tag:".toList <+: id.toList

instance (id : String) : Decidable (IsTagId id) :=
  inferInstanceAs (Decidable ("tag:".toList <+: id.toList))

/-- What holds of every graph, whatever was called. -/
structure WellFormed : Prop where
  keyed : ∀ id entry, g.memories.lookup id = some entry → entry.id = id
  hasNode : ∀ id tags, g.tagsOf id = some tags → ∀ name ∈ tags, (g.tagCount (tagId name)).isSome
  tagIds : ∀ id, (g.tagCount id).isSome → IsTagId id

/-- The same as `Consistent`, with the edges of each memory to each tag. -/
structure InStep : Prop where
  mirrored : g.index.Mirrored Edge.target
  counted : ∀ id count, g.tagCount id = some count → count = (g.taggers id).card
  listed : ∀ id tags, g.tagsOf id = some tags → ∀ name,
    g.index.arcs Edge.target id (tagId name) = if name ∈ tags then 1 else 0

variable {g} {g' : MemoryGraph W} {id s t name : String} {tags : List String}

lemma isTagId_iff : IsTagId id ↔ ∃ name, id = tagId name := by
  constructor
  · rintro ⟨rest, h⟩
    refine ⟨String.ofList rest, String.toList_inj.mp ?_⟩
    rw [tagId, String.toList_append, ← h]
    simp
  · rintro ⟨name, rfl⟩
    exact ⟨name.toList, by rw [tagId, String.toList_append]⟩

lemma isTagId_tagId : IsTagId (tagId name) := isTagId_iff.mpr ⟨name, rfl⟩

@[simp] lemma tagId_inj {a b : String} : tagId a = tagId b ↔ a = b := by
  constructor
  · intro h
    have := congrArg String.toList h
    rw [tagId, tagId, String.toList_append, String.toList_append] at this
    exact String.toList_inj.mp (List.append_cancel_left this)
  · exact congrArg tagId

lemma stored_iff : g.Stored id ↔ ∃ tags, g.tagsOf id = some tags := by
  rw [Stored, tagsOf, Option.isSome_iff_exists]
  simp

lemma mem_taggers : id ∈ g.taggers t ↔ g.Stored id ∧ g.HasTagEdge id t := by
  rw [taggers, Finset.mem_filter, Finmap.mem_keys, ← Finmap.lookup_isSome, Stored]

lemma HasTagEdge.joined (h : g.HasTagEdge s t) : g.index.Joined Edge.target s t := by
  obtain ⟨e, he, htarget, -⟩ := h
  exact ⟨e, he, htarget⟩

lemma taggers_congr (hindex : g'.index = g.index) (htags : ∀ id, g'.tagsOf id = g.tagsOf id) :
    g'.taggers t = g.taggers t := by
  have hedges : g'.getEdges = g.getEdges := congrArg Index.out hindex
  ext id
  rw [mem_taggers, mem_taggers, stored_iff, stored_iff, htags, HasTagEdge, HasTagEdge, hedges]

lemma InStep.congr (h : g.InStep) (hindex : g'.index = g.index)
    (htags : ∀ id, g'.tagsOf id = g.tagsOf id) (hcount : ∀ id, g'.tagCount id = g.tagCount id) :
    g'.InStep := by
  refine ⟨hindex ▸ h.mirrored, fun id count hc => ?_, fun id tags ht name => ?_⟩
  · rw [taggers_congr hindex htags]
    exact h.counted id count (hcount id ▸ hc)
  · rw [hindex]
    exact h.listed id tags (htags id ▸ ht) name

lemma InStep.congr_iff (hindex : g'.index = g.index)
    (htags : ∀ id, g'.tagsOf id = g.tagsOf id) (hcount : ∀ id, g'.tagCount id = g.tagCount id) :
    g'.InStep ↔ g.InStep :=
  ⟨fun h => h.congr hindex.symm (fun id => (htags id).symm) (fun id => (hcount id).symm),
    fun h => h.congr hindex htags hcount⟩

/-- The tag list of a memory fixes the number of its edges to each tag. -/
lemma InStep.arcs_eq (h : g.InStep) (h' : g'.InStep) (name : String)
    (htags : g'.tagsOf id = g.tagsOf id) (hs : g.Stored id) :
    g'.index.arcs Edge.target id (tagId name) = g.index.arcs Edge.target id (tagId name) := by
  obtain ⟨tags, ht⟩ := stored_iff.mp hs
  rw [h.listed id tags ht, h'.listed id tags (htags.trans ht)]

/-- A stored memory with an edge to a tag has the tag in its list. -/
lemma InStep.mem_tags (h : g.InStep) (ht : g.tagsOf id = some tags)
    (hjoin : g.index.Joined Edge.target id (tagId name)) : name ∈ tags := by
  by_contra hnot
  have := Index.arcs_pos.mpr hjoin
  rw [h.listed id tags ht, if_neg hnot] at this
  omega

/-- No stored memory has an edge to a tag without a node. -/
lemma InStep.taggers_eq_empty (h : g.InStep) (hw : g.WellFormed)
    (hnode : g.tagCount (tagId name) = none) : g.taggers (tagId name) = ∅ := by
  rw [Finset.eq_empty_iff_forall_notMem]
  intro id hid
  obtain ⟨hstored, htag⟩ := mem_taggers.mp hid
  obtain ⟨tags, ht⟩ := stored_iff.mp hstored
  have := hw.hasNode id tags ht name (h.mem_tags ht htag.joined)
  simp [hnode] at this

/-! ### The two forms agree -/

lemma map_id_getMemoriesByTag (hw : g.WellFormed) : (g.getMemoriesByTag name).map (·.id) =
    (g.getIncoming (tagId name)).filter fun id => (g.memories.lookup id).isSome := by
  have hlist (ids : List String) : (ids.filterMap g.memories.lookup).map (·.id) =
      ids.filter fun id => (g.memories.lookup id).isSome := by
    induction ids with
    | nil => rfl
    | cons id ids ih =>
      cases hl : g.memories.lookup id with
      | none => simp [hl, ih]
      | some entry => simp [hl, ih, hw.keyed id entry hl]
  exact hlist _

lemma mem_getMemoriesByTag (hw : g.WellFormed) {entry : MemoryEntry}
    (hl : g.memories.lookup id = some entry) :
    entry ∈ g.getMemoriesByTag name ↔ id ∈ g.getIncoming (tagId name) := by
  rw [getMemoriesByTag, List.mem_filterMap]
  constructor
  · rintro ⟨id', hid', hl'⟩
    rwa [← hw.keyed id entry hl, hw.keyed id' entry hl']
  · exact fun hid => ⟨id, hid, hl⟩

lemma consistent_iff (hw : g.WellFormed) : g.Consistent ↔ g.InStep := by
  have hcounts : (∀ id tag, g.tags id = some tag → tag.count = (g.taggers id).card) ↔
      ∀ id count, g.tagCount id = some count → count = (g.taggers id).card := by
    simp [tagCount]
  constructor
  · intro h
    refine ⟨h.mirrored, hcounts.mp h.counted, fun id tags ht name => ?_⟩
    obtain ⟨entry, hl, rfl⟩ := Option.map_eq_some_iff.mp ht
    obtain ⟨hnodup, hmem⟩ := h.listed name
    have hin : id ∈ g.getIncoming (tagId name) ↔ name ∈ entry.tags := by
      rw [← mem_getMemoriesByTag hw hl, hmem]
      exact and_iff_right ⟨id, hl⟩
    have hle : (g.getIncoming (tagId name)).count id ≤ 1 := by
      rw [map_id_getMemoriesByTag hw] at hnodup
      rw [← List.count_filter (p := fun id => (g.memories.lookup id).isSome) (by simp [hl])]
      exact List.nodup_iff_count_le_one.mp hnodup id
    rw [Index.arcs, index_out, ← h.mirrored]
    split_ifs with hname
    · have := List.count_pos_iff.mpr (hin.mpr hname)
      omega
    · exact List.count_eq_zero.mpr (mt hin.mp hname)
  · intro h
    refine ⟨h.mirrored, hcounts.mpr h.counted, fun name => ⟨?_, fun entry => ?_⟩⟩
    · rw [map_id_getMemoriesByTag hw, List.nodup_iff_count_le_one]
      intro id
      cases hl : g.memories.lookup id with
      | none => simp [List.count_eq_zero_of_not_mem, hl]
      | some entry =>
        rw [List.count_filter (by simp [hl])]
        have hcount := h.mirrored id (tagId name)
        rw [h.listed id entry.tags (by simp [tagsOf, hl])] at hcount
        rw [← index_into, hcount]
        split_ifs <;> simp
    · constructor
      · intro hentry
        obtain ⟨id, hid, hl⟩ := List.mem_filterMap.mp hentry
        exact ⟨⟨id, hl⟩, h.mem_tags (by simp [tagsOf, hl]) (h.mirrored.mem_into.mp hid)⟩
      · rintro ⟨⟨id, hl⟩, hname⟩
        rw [mem_getMemoriesByTag hw hl, ← index_into, h.mirrored.mem_into, ← Index.arcs_pos,
          h.listed id entry.tags (by simp [tagsOf, hl]), if_pos hname]
        exact Nat.one_pos

end MemoryGraph

end Jcode
