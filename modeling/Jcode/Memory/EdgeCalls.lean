import Jcode.Memory.WellFormed

/-!
# Edges and tags, call by call

For each call on edges and tags, when edges, reverse lists, counters and tag lists that agree
before it still agree after it.
-/

namespace Jcode

open EdgeIndex

namespace MemoryGraph

variable {W : Type} (g : MemoryGraph W)

/-- An edge from `source` to `target` is not one from a stored memory to a tag. -/
def OffTags (source target : String) : Prop := g.Stored source → ¬ IsTagId target

instance (source target : String) : Decidable (g.OffTags source target) :=
  inferInstanceAs (Decidable (g.Stored source → ¬ IsTagId target))

/-- The edge is there already, or it is no edge to a tag. -/
def KeepsEdge [BEq W] (source target : String) (kind : EdgeKind W) : Prop :=
  ((g.getEdges source).any fun e => e.target = target && e.kind == kind) ∨ g.OffTags source target

instance [BEq W] (source target : String) (kind : EdgeKind W) :
    Decidable (g.KeepsEdge source target kind) :=
  inferInstanceAs (Decidable (_ ∨ _))

variable {g} {g' : MemoryGraph W} {id s t name memoryId tagName source target : String}
  {tags : List String} {kind : EdgeKind W} {entry : MemoryEntry}

/-! ### Adding an edge -/

lemma hasTagEdge_congr {g' : MemoryGraph W} (h : g'.index = g.index) :
    g'.HasTagEdge s t ↔ g.HasTagEdge s t := by
  have hedges : g'.getEdges = g.getEdges := congrArg Index.out h
  rw [HasTagEdge, HasTagEdge, hedges]

lemma InStep.addEdgeInternal_iff (h : g.InStep) (hw : g.WellFormed) :
    (g.addEdgeInternal source target kind).InStep ↔ g.OffTags source target := by
  constructor
  · intro h' hstored htag
    obtain ⟨name, rfl⟩ := isTagId_iff.mp htag
    have heq := h.arcs_eq h' name rfl hstored
    rw [index_addEdgeInternal, Index.arcs_push, if_pos ⟨rfl, rfl⟩] at heq
    omega
  · intro hoff
    refine ⟨?_, fun id count hc => ?_, fun id tags ht name => ?_⟩
    · rw [index_addEdgeInternal]
      exact h.mirrored.push
    · have htag : IsTagId id := hw.tagIds id (Option.isSome_iff_exists.mpr ⟨count, hc⟩)
      have htaggers : (g.addEdgeInternal source target kind).taggers id = g.taggers id := by
        ext s
        rw [mem_taggers, mem_taggers, hasTagEdge_addEdgeInternal]
        constructor
        · rintro ⟨hs, hedge | ⟨rfl, rfl, -⟩⟩
          · exact ⟨hs, hedge⟩
          · exact absurd htag (hoff hs)
        · exact fun hs => ⟨hs.1, .inl hs.2⟩
      rw [htaggers]
      exact h.counted id count hc
    · rw [index_addEdgeInternal, Index.arcs_push, if_neg, Nat.add_zero]
      · exact h.listed id tags ht name
      · rintro ⟨rfl, htarget⟩
        have htag : target = tagId name := htarget
        exact hoff (stored_iff.mpr ⟨tags, ht⟩) (htag ▸ isTagId_tagId)

lemma InStep.addEdge_iff [BEq W] (h : g.InStep) (hw : g.WellFormed) :
    (g.addEdge source target kind).InStep ↔ g.KeepsEdge source target kind := by
  unfold addEdge KeepsEdge
  split_ifs with hany
  · exact iff_of_true h (.inl hany)
  · rw [h.addEdgeInternal_iff hw]
    exact (or_iff_right hany).symm

lemma InStep.linkMemories_iff [BEq W] (h : g.InStep) (hw : g.WellFormed) {weight : W} :
    (g.linkMemories source target weight).InStep ↔
      g.KeepsEdge source target (.relatesTo weight) := by
  rw [← h.addEdge_iff hw]
  exact InStep.congr_iff rfl (fun _ => rfl) fun _ => rfl

lemma InStep.supersede_iff [BEq W] (h : g.InStep) (hw : g.WellFormed) :
    (g.supersede source target).InStep ↔ g.KeepsEdge source target .supersedes := by
  rw [← h.addEdge_iff hw]
  refine InStep.congr_iff index_modifyMemory (fun id => ?_) fun id => ?_
  · rw [supersede, tagsOf_modifyMemory_of_eq]
    exact fun _ => rfl
  · rw [supersede, tagCount_modifyMemory]

@[simp] lemma tagsOf_addEdge [BEq W] : (g.addEdge source target kind).tagsOf = g.tagsOf := by
  unfold addEdge
  split_ifs <;> rfl

lemma stored_congr (h : g'.tagsOf = g.tagsOf) : g'.Stored id ↔ g.Stored id := by
  rw [stored_iff, stored_iff, h]

lemma arcs_le_addEdge [BEq W] : g.index.arcs Edge.target s t ≤
    (g.addEdge source target kind).index.arcs Edge.target s t := by
  unfold addEdge
  split_ifs
  · exact le_rfl
  · rw [index_addEdgeInternal, Index.arcs_push]
    exact Nat.le_add_right _ _

/-- The edge that breaks the agreement is one more from a stored memory to a tag. -/
lemma exists_arcs_lt_addEdge [BEq W] (h : ¬ g.KeepsEdge source target kind) :
    ∃ name, g.Stored source ∧ g.index.arcs Edge.target source (tagId name) <
      (g.addEdge source target kind).index.arcs Edge.target source (tagId name) := by
  rw [KeepsEdge, not_or] at h
  obtain ⟨hany, hoff⟩ := h
  rw [OffTags, Classical.not_imp, not_not] at hoff
  obtain ⟨hstored, htag⟩ := hoff
  obtain ⟨name, rfl⟩ := isTagId_iff.mp htag
  refine ⟨name, hstored, ?_⟩
  rw [addEdge, if_neg hany, index_addEdgeInternal, Index.arcs_push, if_pos ⟨rfl, rfl⟩]
  exact Nat.lt_succ_self _

lemma keepsEdge_addEdge [BEq W] (h : g.KeepsEdge source target .contradicts) :
    (g.addEdge source target .contradicts).KeepsEdge target source .contradicts ↔
      g.KeepsEdge target source .contradicts := by
  by_cases hloop : target = source
  · subst hloop
    refine iff_of_true ?_ h
    unfold addEdge
    split_ifs with hany
    · exact .inl hany
    · left
      rw [getEdges_addEdgeInternal, if_pos rfl, List.any_append]
      simp [BEq.beq, instBEqEdgeKind.beq]
  · have hedges : (g.addEdge source target .contradicts).getEdges target = g.getEdges target := by
      unfold addEdge
      split_ifs
      · rfl
      · rw [getEdges_addEdgeInternal, if_neg hloop]
    rw [KeepsEdge, KeepsEdge, hedges, OffTags, OffTags, stored_congr tagsOf_addEdge]

lemma InStep.markContradiction_iff [BEq W] (h : g.InStep) (hw : g.WellFormed) :
    (g.markContradiction source target).InStep ↔
      g.KeepsEdge source target .contradicts ∧ g.KeepsEdge target source .contradicts := by
  by_cases hfirst : g.KeepsEdge source target .contradicts
  · have hmid : (g.addEdge source target .contradicts).InStep := (h.addEdge_iff hw).mpr hfirst
    rw [markContradiction, hmid.addEdge_iff hw.addEdge, keepsEdge_addEdge hfirst]
    exact (and_iff_right hfirst).symm
  · refine iff_of_false (fun h' => ?_) fun hboth => hfirst hboth.1
    obtain ⟨name, hstored, hlt⟩ := exists_arcs_lt_addEdge hfirst
    have heq := h.arcs_eq h' name ?_ hstored
    · have hle : (g.addEdge source target .contradicts).index.arcs Edge.target source (tagId name) ≤
          ((g.addEdge source target .contradicts).addEdge target source .contradicts).index.arcs
            Edge.target source (tagId name) := arcs_le_addEdge
      rw [markContradiction] at heq
      omega
    · rw [markContradiction, tagsOf_addEdge, tagsOf_addEdge]

/-! ### Removing edges -/

/-- Where every edge between two nodes is removed, their other edges stay. -/
lemma hasTagEdge_sever {p : Edge W → Bool}
    (hindex : g'.index = g.index.sever Edge.target source target p)
    (hall : ∀ e ∈ g.getEdges source, e.target = target → p e) :
    g'.HasTagEdge s t ↔ g.HasTagEdge s t ∧ ¬ (s = source ∧ t = target) := by
  have hedges : g'.getEdges s = (g.index.sever Edge.target source target p).out s :=
    congrFun (congrArg Index.out hindex) s
  rw [HasTagEdge, hedges, HasTagEdge]
  by_cases hs : s = source
  · subst hs
    simp only [Index.sever, Function.update_self, List.mem_filter, index_out, true_and]
    constructor
    · rintro ⟨e, ⟨he, hkept⟩, rfl, hkind⟩
      refine ⟨⟨e, he, rfl, hkind⟩, fun htarget => ?_⟩
      simp [htarget, hall e he htarget] at hkept
    · rintro ⟨⟨e, he, rfl, hkind⟩, htarget⟩
      exact ⟨e, ⟨he, by simp [htarget]⟩, rfl, hkind⟩
  · simp [Index.sever, hs]

lemma arcs_sever_eq_zero {p : Edge W → Bool}
    (hall : ∀ e ∈ g.getEdges source, e.target = target → p e) :
    (g.index.sever Edge.target source target p).arcs Edge.target source target = 0 := by
  rw [Index.arcs_sever_self, List.countP_eq_zero]
  intro e he
  rw [decide_eq_true_eq, not_and, not_not]
  exact hall e he

lemma taggers_sever {p : Edge W → Bool}
    (hindex : g'.index = g.index.sever Edge.target source target p)
    (hall : ∀ e ∈ g.getEdges source, e.target = target → p e)
    (hstored : ∀ id, g'.Stored id ↔ g.Stored id) :
    g'.taggers t = if t = target then (g.taggers t).erase source else g.taggers t := by
  ext s
  rw [mem_taggers, hstored, hasTagEdge_sever hindex hall, ← and_assoc, ← mem_taggers]
  split_ifs with ht
  · simp [ht, and_comm]
  · simp [ht]

lemma InStep.removeEdge_iff [BEq W] (h : g.InStep) (hw : g.WellFormed) :
    (g.removeEdge source target kind).InStep ↔
      (∀ e ∈ g.getEdges source, e.target = target → e.kind == kind) ∧
        (g.Stored source → IsTagId target → ∀ e ∈ g.getEdges source, e.target ≠ target) := by
  have hmirrored : (g.removeEdge source target kind).index.Mirrored Edge.target ↔
      ∀ e ∈ g.getEdges source, e.target = target → e.kind == kind := by
    rw [index_removeEdge]
    exact h.mirrored.sever_iff
  constructor
  · intro h'
    have hall := hmirrored.mp h'.mirrored
    refine ⟨hall, fun hstored htag e he htarget => ?_⟩
    obtain ⟨name, rfl⟩ := isTagId_iff.mp htag
    have heq := h.arcs_eq h' name rfl hstored
    rw [index_removeEdge, arcs_sever_eq_zero hall] at heq
    exact Index.arcs_eq_zero.mp heq.symm ⟨e, he, htarget⟩
  · rintro ⟨hall, hnone⟩
    refine ⟨hmirrored.mpr hall, fun id count hc => ?_, fun id tags ht name => ?_⟩
    · rw [taggers_sever index_removeEdge hall fun _ => Iff.rfl]
      split_ifs with hid
      · rw [Finset.erase_eq_of_notMem]
        · exact h.counted id count hc
        · intro hmem
          obtain ⟨hstored, e, he, htarget, -⟩ := mem_taggers.mp hmem
          have htag : IsTagId id := hw.tagIds id (Option.isSome_iff_exists.mpr ⟨count, hc⟩)
          exact hnone hstored (hid ▸ htag) e he (htarget.trans hid)
      · exact h.counted id count hc
    · rw [← h.listed id tags ht, index_removeEdge]
      by_cases hpair : id = source ∧ tagId name = target
      · obtain ⟨rfl, rfl⟩ := hpair
        rw [arcs_sever_eq_zero hall, eq_comm, Index.arcs_eq_zero]
        rintro ⟨e, he, htarget⟩
        exact hnone (stored_iff.mpr ⟨tags, ht⟩) isTagId_tagId e he htarget
      · exact Index.arcs_sever_of_ne hpair

/-! ### Tagging and untagging -/

lemma stored_adjust {f : List String → List String} (h : g'.tagsOf = adjust g.tagsOf id f) :
    g'.Stored s ↔ g.Stored s := by
  rw [stored_iff, stored_iff, h, ← Option.isSome_iff_exists, ← Option.isSome_iff_exists,
    isSome_adjust]

lemma tagsOf_untagMemory : (g.untagMemory memoryId tagName).tagsOf =
    adjust g.tagsOf memoryId (List.filter (· ≠ tagName)) := by
  rw [untagMemory, tagsOf_modifyMemory (List.filter (· ≠ tagName)) fun _ => rfl]
  rfl

lemma tagCount_untagMemory : (g.untagMemory memoryId tagName).tagCount =
    adjust g.tagCount (tagId tagName) (· - 1) := by
  rw [untagMemory, tagCount_modifyMemory, tagCount_uncountTag]
  rfl

lemma tagCount_eq_iff {n : Nat} :
    (∀ tag ∈ g.tags t, tag.count = n) ↔ ∀ count, g.tagCount t = some count → count = n := by
  simp [tagCount]

lemma InStep.untagMemory_iff (h : g.InStep) :
    (g.untagMemory memoryId tagName).InStep ↔
      (∀ e ∈ g.getEdges memoryId, e.target = tagId tagName → e.kind.isHasTag) ∧
        (g.Stored memoryId ∧ g.HasTagEdge memoryId (tagId tagName) ∨
          ∀ tag ∈ g.tags (tagId tagName), tag.count = 0) := by
  have hmirrored : (g.untagMemory memoryId tagName).index.Mirrored Edge.target ↔
      ∀ e ∈ g.getEdges memoryId, e.target = tagId tagName → e.kind.isHasTag := by
    rw [index_untagMemory]
    exact h.mirrored.sever_iff
  rw [tagCount_eq_iff, ← mem_taggers]
  constructor
  · intro h'
    have hall := hmirrored.mp h'.mirrored
    refine ⟨hall, or_iff_not_imp_left.mpr fun hnot count hc => ?_⟩
    have hc' := h'.counted (tagId tagName) (count - 1) (by
      rw [tagCount_untagMemory, adjust_self, hc, Option.map_some])
    rw [taggers_sever index_untagMemory hall fun _ => stored_adjust tagsOf_untagMemory, if_pos rfl,
      Finset.erase_eq_of_notMem hnot, ← h.counted _ count hc] at hc'
    omega
  · rintro ⟨hall, hcount⟩
    refine ⟨hmirrored.mpr hall, fun id count hc => ?_, fun id tags ht name => ?_⟩
    · rw [taggers_sever index_untagMemory hall fun _ => stored_adjust tagsOf_untagMemory]
      rw [tagCount_untagMemory, adjust_apply] at hc
      split_ifs at hc ⊢ with hid
      · obtain ⟨count', hc', rfl⟩ := Option.map_eq_some_iff.mp hc
        subst hid
        have hcard := h.counted _ count' hc'
        by_cases hmem : memoryId ∈ g.taggers (tagId tagName)
        · rw [Finset.card_erase_of_mem hmem, ← hcard]
        · rw [Finset.erase_eq_of_notMem hmem, ← hcard]
          have := hcount.resolve_left hmem count' hc'
          omega
      · exact h.counted id count hc
    · rw [tagsOf_untagMemory, adjust_apply] at ht
      rw [index_untagMemory]
      split_ifs at ht with hid
      · obtain ⟨tags', ht', rfl⟩ := Option.map_eq_some_iff.mp ht
        subst hid
        by_cases hname : name = tagName
        · subst hname
          rw [arcs_sever_eq_zero hall, if_neg (by simp)]
        · rw [Index.arcs_sever_of_ne (by simp [hname]), h.listed id tags' ht']
          simp [hname]
      · rw [Index.arcs_sever_of_ne (by simp [hid])]
        exact h.listed id tags ht name

lemma taggers_ensureTag : (g.ensureTag name).taggers t = g.taggers t :=
  taggers_congr index_ensureTag fun _ => by rw [tagsOf_ensureTag]

lemma InStep.ensureTag (h : g.InStep) (hw : g.WellFormed) : (g.ensureTag name).InStep := by
  refine ⟨?_, fun id count hc => ?_, fun id tags ht name => ?_⟩
  · rw [index_ensureTag]
    exact h.mirrored
  · rw [tagCount_ensureTag] at hc
    rw [taggers_ensureTag]
    split_ifs at hc with hid
    · cases hnode : g.tagCount id with
      | none =>
        subst hid
        rw [h.taggers_eq_empty hw hnode]
        simpa [hnode, eq_comm] using hc
      | some count' => exact h.counted id count (by simpa [hnode] using hc)
    · exact h.counted id count hc
  · rw [index_ensureTag]
    rw [tagsOf_ensureTag] at ht
    exact h.listed id tags ht name

section tagMemory
variable (hnot : ¬ g.HasTagEdge memoryId (tagId tagName))
include hnot

/-- What `tag_memory` does where the memory has no edge to the tag yet. -/
lemma tagMemory_of_not : g.tagMemory memoryId tagName =
    (((g.ensureTag tagName).addEdgeInternal memoryId (tagId tagName) .hasTag).countTag
      (tagId tagName)).modifyMemory memoryId fun memory =>
        if tagName ∈ memory.tags then memory
        else { memory with tags := memory.tags ++ [tagName] } := by
  rw [tagMemory, if_neg]
  rw [getEdges_ensureTag, List.any_eq_true]
  rintro ⟨e, he, hmatch⟩
  simp only [Bool.and_eq_true, decide_eq_true_eq] at hmatch
  exact hnot ⟨e, he, hmatch⟩

lemma index_tagMemory : (g.tagMemory memoryId tagName).index =
    (g.addEdgeInternal memoryId (tagId tagName) .hasTag).index := by
  rw [tagMemory_of_not hnot, index_modifyMemory, countTag, index_modifyTag, index_addEdgeInternal,
    index_addEdgeInternal, index_ensureTag]

lemma tagsOf_tagMemory : (g.tagMemory memoryId tagName).tagsOf = adjust g.tagsOf memoryId
    fun tags => if tagName ∈ tags then tags else tags ++ [tagName] := by
  rw [tagMemory_of_not hnot, tagsOf_modifyMemory
    (fun tags => if tagName ∈ tags then tags else tags ++ [tagName])]
  · exact congrArg (adjust · memoryId _) tagsOf_ensureTag
  · intro m
    split_ifs <;> rfl

lemma tagCount_tagMemory : (g.tagMemory memoryId tagName).tagCount =
    adjust (g.ensureTag tagName).tagCount (tagId tagName) (· + 1) := by
  rw [tagMemory_of_not hnot, tagCount_modifyMemory, tagCount_countTag]
  rfl

lemma mem_taggers_tagMemory : s ∈ (g.tagMemory memoryId tagName).taggers t ↔
    s ∈ g.taggers t ∨ g.Stored s ∧ s = memoryId ∧ t = tagId tagName := by
  rw [mem_taggers, stored_adjust (tagsOf_tagMemory hnot), hasTagEdge_congr (index_tagMemory hnot),
    hasTagEdge_addEdgeInternal, mem_taggers, and_or_left]
  simp [EdgeKind.isHasTag]

lemma arcs_tagMemory : (g.tagMemory memoryId tagName).index.arcs Edge.target s (tagId name) =
    g.index.arcs Edge.target s (tagId name) + if s = memoryId ∧ tagName = name then 1 else 0 := by
  rw [index_tagMemory hnot, index_addEdgeInternal, Index.arcs_push]
  simp only [tagId_inj]

/-- A tagged memory is a stored one without any other edge to the tag. -/
lemma InStep.of_tagMemory (h : g.InStep) (hw : g.WellFormed)
    (h' : (g.tagMemory memoryId tagName).InStep) :
    g.Stored memoryId ∧ ∀ e ∈ g.getEdges memoryId, e.target ≠ tagId tagName := by
  have hstored : g.Stored memoryId := by
    by_contra hns
    -- the counter goes up, but no stored memory has a new edge
    have hsame : (g.tagMemory memoryId tagName).taggers (tagId tagName) =
        g.taggers (tagId tagName) := by
      ext s
      rw [mem_taggers_tagMemory hnot, or_iff_left]
      rintro ⟨hs, rfl, -⟩
      exact hns hs
    obtain ⟨count, hc⟩ : ∃ count, (g.ensureTag tagName).tagCount (tagId tagName) = some count :=
      Option.isSome_iff_exists.mp (isSome_tagCount_ensureTag.mpr (.inl rfl))
    have hold := (h.ensureTag hw).counted _ count hc
    have hnew := h'.counted (tagId tagName) (count + 1) (by
      rw [tagCount_tagMemory hnot, adjust_self, hc, Option.map_some])
    rw [taggers_ensureTag] at hold
    rw [hsame] at hnew
    omega
  refine ⟨hstored, fun e he htarget => ?_⟩
  obtain ⟨tags, ht⟩ := stored_iff.mp ((stored_adjust (tagsOf_tagMemory hnot)).mpr hstored)
  have hlisted := h'.listed memoryId tags ht tagName
  have hpos := Index.arcs_pos.mpr (⟨e, he, htarget⟩ : g.index.Joined Edge.target memoryId _)
  rw [arcs_tagMemory hnot, if_pos ⟨rfl, rfl⟩] at hlisted
  split_ifs at hlisted
  omega

/-- The new edge is counted once. -/
lemma InStep.counted_tagMemory (h : g.InStep) (hw : g.WellFormed) (hstored : g.Stored memoryId)
    {count : Nat} (hc : (g.tagMemory memoryId tagName).tagCount id = some count) :
    count = ((g.tagMemory memoryId tagName).taggers id).card := by
  rw [tagCount_tagMemory hnot, adjust_apply] at hc
  split_ifs at hc with hid
  · obtain ⟨count', hc', rfl⟩ := Option.map_eq_some_iff.mp hc
    have hinsert : (g.tagMemory memoryId tagName).taggers id =
        insert memoryId (g.taggers id) := by
      ext s
      rw [mem_taggers_tagMemory hnot, Finset.mem_insert, or_comm]
      refine or_congr_left ⟨fun hs => hs.2.1, ?_⟩
      rintro rfl
      exact ⟨hstored, rfl, hid⟩
    have hnew : memoryId ∉ g.taggers id := by
      rw [hid, mem_taggers]
      exact fun hmem => hnot hmem.2
    rw [hinsert, Finset.card_insert_of_notMem hnew, (h.ensureTag hw).counted id count' hc',
      taggers_ensureTag]
  · have hsame : (g.tagMemory memoryId tagName).taggers id = g.taggers id := by
      ext s
      rw [mem_taggers_tagMemory hnot, or_iff_left]
      exact fun hs => hid hs.2.2
    rw [hsame, ← taggers_ensureTag, (h.ensureTag hw).counted id count hc]

lemma InStep.listed_tagMemory (h : g.InStep)
    (hnone : ∀ e ∈ g.getEdges memoryId, e.target ≠ tagId tagName)
    (ht : (g.tagMemory memoryId tagName).tagsOf id = some tags) :
    (g.tagMemory memoryId tagName).index.arcs Edge.target id (tagId name) =
      if name ∈ tags then 1 else 0 := by
  have hzero : g.index.arcs Edge.target memoryId (tagId tagName) = 0 :=
    Index.arcs_eq_zero.mpr fun ⟨e, he, htarget⟩ => hnone e he htarget
  rw [arcs_tagMemory hnot]
  rw [tagsOf_tagMemory hnot, adjust_apply] at ht
  split_ifs at ht with hid
  · obtain ⟨tags', ht', rfl⟩ := Option.map_eq_some_iff.mp ht
    subst hid
    have hlisted := h.listed id tags' ht'
    have hnew : tagName ∉ tags' := by
      intro hmem
      have := hlisted tagName
      rw [if_pos hmem, hzero] at this
      omega
    by_cases hname : tagName = name
    · subst hname
      simp [hzero, hnew]
    · simp [hlisted, hnew, hname, Ne.symm hname]
  · rw [if_neg fun hpair => hid hpair.1]
    exact h.listed id tags ht name

end tagMemory

lemma InStep.tagMemory_iff (h : g.InStep) (hw : g.WellFormed) :
    (g.tagMemory memoryId tagName).InStep ↔ g.HasTagEdge memoryId (tagId tagName) ∨
      g.Stored memoryId ∧ ∀ e ∈ g.getEdges memoryId, e.target ≠ tagId tagName := by
  by_cases hedge : g.HasTagEdge memoryId (tagId tagName)
  · refine iff_of_true ?_ (.inl hedge)
    rw [tagMemory, if_pos]
    · exact h.ensureTag hw
    · obtain ⟨e, he, htarget, hkind⟩ := hedge
      rw [getEdges_ensureTag, List.any_eq_true]
      exact ⟨e, he, by simp [htarget, hkind]⟩
  · rw [or_iff_right hedge]
    constructor
    · exact h.of_tagMemory hedge hw
    · rintro ⟨hstored, hnone⟩
      refine ⟨?_, fun id count => h.counted_tagMemory hedge hw hstored,
        fun id tags ht name => h.listed_tagMemory hedge hnone ht⟩
      rw [index_tagMemory hedge, index_addEdgeInternal]
      exact h.mirrored.push

end MemoryGraph

end Jcode
