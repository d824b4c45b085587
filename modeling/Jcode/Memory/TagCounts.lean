import Jcode.Memory.Consistency

/-!
# What the operations do to tags

Three functions carry all that the consistency of a graph depends on: `index`, `tagsOf` and
`tagCount`. The lemmas below give them after each operation, and show that every graph is
well formed.
-/

namespace Jcode

open EdgeIndex

section adjust
variable {β γ : Type} {entries : String → Option β} {key key' : String} {f : β → β}

@[simp] lemma adjust_self : adjust entries key f key = (entries key).map f :=
  Function.update_self ..

lemma adjust_of_ne (h : key' ≠ key) : adjust entries key f key' = entries key' :=
  Function.update_of_ne h ..

lemma adjust_apply :
    adjust entries key f key' = if key' = key then (entries key').map f else entries key' := by
  split_ifs with h
  · rw [h, adjust_self]
  · exact adjust_of_ne h

/-- A change that a projection does not see. -/
lemma map_adjust {p : β → γ} {f' : γ → γ} (h : ∀ b, p (f b) = f' (p b)) :
    (fun k => (adjust entries key f k).map p) = adjust (fun k => (entries k).map p) key f' := by
  funext k
  rw [adjust_apply, adjust_apply]
  split_ifs
  · cases entries k <;> simp [h]
  · rfl

end adjust

namespace MemoryGraph

variable {W : Type} {g : MemoryGraph W} {id s t name tagName : String} {tags : List String}
  {kind : EdgeKind W} {edge : Edge W} {f : MemoryEntry → MemoryEntry} {entry : MemoryEntry}

/-! ### Single changes -/

lemma lookup_modifyMemory : (g.modifyMemory id f).memories.lookup s =
    if s = id then (g.memories.lookup s).map f else g.memories.lookup s := by
  cases hl : g.memories.lookup id with
  | none =>
    have hg : g.modifyMemory id f = g := by simp only [modifyMemory, hl]
    rw [hg]
    split_ifs with h
    · rw [h, hl, Option.map_none]
    · rfl
  | some memory =>
    simp only [modifyMemory, hl]
    split_ifs with h
    · rw [h, hl, Finmap.lookup_insert, Option.map_some]
    · exact Finmap.lookup_insert_of_ne _ h

lemma tagsOf_modifyMemory (f' : List String → List String) (h : ∀ m, (f m).tags = f' m.tags) :
    (g.modifyMemory id f).tagsOf = adjust g.tagsOf id f' := by
  funext s
  rw [tagsOf, lookup_modifyMemory, adjust_apply, tagsOf]
  split_ifs
  · cases g.memories.lookup s <;> simp [h]
  · rfl

lemma tagsOf_modifyMemory_of_eq (h : ∀ m, (f m).tags = m.tags) :
    (g.modifyMemory id f).tagsOf = g.tagsOf := by
  funext s
  rw [tagsOf_modifyMemory (fun tags => tags) h, adjust_apply]
  simp

@[simp] lemma tagCount_modifyMemory : (g.modifyMemory id f).tagCount = g.tagCount := by
  unfold modifyMemory
  split <;> rfl

@[simp] lemma tagsOf_ensureTag : (g.ensureTag name).tagsOf = g.tagsOf := by
  unfold ensureTag
  split_ifs <;> rfl

lemma tagCount_ensureTag : (g.ensureTag name).tagCount t =
    if t = tagId name then some ((g.tagCount t).getD 0) else g.tagCount t := by
  unfold ensureTag
  split_ifs with hnode ht ht
  · obtain ⟨tag, htag⟩ := Option.isSome_iff_exists.mp hnode
    simp [ht, tagCount, htag]
  · rfl
  · simp only [Bool.not_eq_true, Option.isSome_eq_false_iff, Option.isNone_iff_eq_none] at hnode
    simp [ht, tagCount, hnode, TagEntry.new]
  · simp [tagCount, ht]

@[simp] lemma tagsOf_modifyTag {f : TagEntry → TagEntry} :
    (g.modifyTag id f).tagsOf = g.tagsOf := rfl

lemma tagCount_countTag : (g.countTag id).tagCount = adjust g.tagCount id (· + 1) :=
  map_adjust fun _ => rfl

lemma tagCount_uncountTag : (g.uncountTag id).tagCount = adjust g.tagCount id (· - 1) :=
  map_adjust fun _ => rfl

lemma getEdges_addEdgeInternal : (g.addEdgeInternal source target kind).getEdges s =
    if s = source then g.getEdges s ++ [⟨target, kind⟩] else g.getEdges s := by
  rw [← index_out, index_addEdgeInternal]
  by_cases h : s = source <;> simp [Index.push, h]

lemma hasTagEdge_addEdgeInternal {source target : String} :
    (g.addEdgeInternal source target kind).HasTagEdge s t ↔
      g.HasTagEdge s t ∨ s = source ∧ t = target ∧ kind.isHasTag := by
  rw [HasTagEdge, getEdges_addEdgeInternal]
  split_ifs with h
  · simp only [List.mem_append, List.mem_singleton, or_and_right, exists_or, exists_eq_left, h,
      true_and, HasTagEdge, eq_comm (a := t)]
  · simp [HasTagEdge, h]

/-! ### The loop over the tags of a new memory -/

lemma addTags_cons : g.addTags id (tagName :: tags) =
    (((g.ensureTag tagName).addEdgeInternal id (tagId tagName) .hasTag).countTag
      (tagId tagName)).addTags id tags := rfl

@[simp] lemma tagsOf_addTags : (g.addTags id tags).tagsOf = g.tagsOf := by
  induction tags generalizing g with
  | nil => rfl
  | cons tagName tags ih =>
    rw [addTags_cons, ih]
    exact tagsOf_ensureTag

lemma memories_addTags : (g.addTags id tags).memories = g.memories := by
  induction tags generalizing g with
  | nil => rfl
  | cons tagName tags ih =>
    rw [addTags_cons, ih]
    simp only [countTag, modifyTag, addEdgeInternal, ensureTag]
    split_ifs <;> rfl

lemma tagCount_addTags : (g.addTags id tags).tagCount (tagId name) =
    if name ∈ tags then some ((g.tagCount (tagId name)).getD 0 + tags.count name)
    else g.tagCount (tagId name) := by
  induction tags generalizing g with
  | nil => simp [addTags]
  | cons tagName tags ih =>
    have hhead : (((g.ensureTag tagName).addEdgeInternal id (tagId tagName) .hasTag).countTag
        (tagId tagName)).tagCount (tagId name) =
        if name = tagName then some ((g.tagCount (tagId name)).getD 0 + 1)
        else g.tagCount (tagId name) := by
      have hedge : ((g.ensureTag tagName).addEdgeInternal id (tagId tagName) .hasTag).tagCount =
          (g.ensureTag tagName).tagCount := rfl
      rw [tagCount_countTag, adjust_apply, hedge, tagCount_ensureTag]
      simp only [tagId_inj]
      split_ifs <;> simp
    rw [addTags_cons, ih, hhead]
    by_cases hname : name = tagName
    · subst hname
      by_cases hmem : name ∈ tags
      · simp [hmem]
        omega
      · simp [hmem, List.count_eq_zero_of_not_mem]
    · simp [hname, Ne.symm hname]

lemma getEdges_addTags : (g.addTags id tags).getEdges s =
    if s = id then g.getEdges s ++ tags.map fun name => ⟨tagId name, .hasTag⟩
    else g.getEdges s := by
  induction tags generalizing g with
  | nil => simp [addTags]
  | cons tagName tags ih =>
    rw [addTags_cons, ih]
    change (if s = id then ((g.ensureTag tagName).addEdgeInternal id (tagId tagName)
        .hasTag).getEdges s ++ _
      else ((g.ensureTag tagName).addEdgeInternal id (tagId tagName) .hasTag).getEdges s) = _
    rw [getEdges_addEdgeInternal, getEdges_ensureTag]
    split_ifs <;> simp

lemma arcs_addTags : (g.addTags id tags).index.arcs Edge.target s (tagId name) =
    g.index.arcs Edge.target s (tagId name) + if s = id then tags.count name else 0 := by
  rw [Index.arcs, Index.arcs, index_out, index_out, getEdges_addTags]
  split_ifs
  · rw [List.countP_append, List.countP_map, List.count]
    congr 2
    funext n
    simp [BEq.beq]
  · rfl

lemma hasTagEdge_addTags : (g.addTags id tags).HasTagEdge s (tagId name) ↔
    g.HasTagEdge s (tagId name) ∨ s = id ∧ name ∈ tags := by
  rw [HasTagEdge, getEdges_addTags]
  split_ifs with h
  · simp [HasTagEdge, or_and_right, exists_or, h, EdgeKind.isHasTag]
  · simp [HasTagEdge, h]

/-! ### The loop over the edges of a removed memory -/

lemma tagCount_dropOutgoing : (g.dropOutgoing id edge).tagCount t =
    if t = edge.target ∧ edge.kind.isHasTag then (g.tagCount t).map (· - 1)
    else g.tagCount t := by
  unfold dropOutgoing
  split_ifs with hkind h h
  · rw [tagCount_uncountTag, h.1, adjust_self]
    rfl
  · rw [tagCount_uncountTag, adjust_of_ne fun ht => h ⟨ht, hkind⟩]
    rfl
  · exact absurd h.2 hkind
  · rfl

lemma tagCount_dropOutgoings (outgoing : List (Edge W)) :
    (outgoing.foldl (dropOutgoing · id ·) g).tagCount t =
      (g.tagCount t).map (· - outgoing.countP fun e => e.target = t ∧ e.kind.isHasTag) := by
  induction outgoing generalizing g with
  | nil => simp
  | cons edge outgoing ih =>
    rw [List.foldl_cons, ih, tagCount_dropOutgoing, List.countP_cons]
    by_cases h : t = edge.target ∧ edge.kind.isHasTag
    · rw [if_pos h, if_pos (by simp [h]), Option.map_map]
      congr 1
      funext count
      simp only [Function.comp_apply]
      omega
    · rw [if_neg h, if_neg, Nat.add_zero]
      rw [decide_eq_true_eq]
      exact fun hedge => h ⟨hedge.1.symm, hedge.2⟩

lemma memories_dropOutgoings (outgoing : List (Edge W)) :
    (outgoing.foldl (dropOutgoing · id ·) g).memories = g.memories := by
  induction outgoing generalizing g with
  | nil => rfl
  | cons edge outgoing ih =>
    rw [List.foldl_cons, ih]
    unfold dropOutgoing uncountTag modifyTag
    split_ifs <;> rfl

lemma nodes_dropIncomings (incoming : List String) :
    (incoming.foldl (dropIncoming · id ·) g).memories = g.memories ∧
      (incoming.foldl (dropIncoming · id ·) g).tags = g.tags := by
  induction incoming generalizing g with
  | nil => exact ⟨rfl, rfl⟩
  | cons source incoming ih => exact ih

lemma tagCount_removeMemory : (g.removeMemory id).2.tagCount t = (g.tagCount t).map
    (· - (g.getEdges id).countP fun e => e.target = t ∧ e.kind.isHasTag) := by
  simp only [removeMemory]
  rw [tagCount, (nodes_dropIncomings _).2]
  exact tagCount_dropOutgoings _

lemma memories_removeMemory : (g.removeMemory id).2.memories = g.memories.erase id := by
  simp only [removeMemory, (nodes_dropIncomings _).1, memories_dropOutgoings]

lemma tagsOf_removeMemory : (g.removeMemory id).2.tagsOf s =
    if s = id then none else g.tagsOf s := by
  rw [tagsOf, memories_removeMemory]
  split_ifs with h
  · rw [h, Finmap.lookup_erase, Option.map_none]
  · rw [Finmap.lookup_erase_ne h, tagsOf]

end MemoryGraph

end Jcode
