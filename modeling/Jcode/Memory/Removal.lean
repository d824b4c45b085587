import Jcode.Foundation.Run
import Jcode.Memory.Graph

/-!
# Removing a memory

`remove_memory` finds the edges that enter the removed memory through its reverse list. It
leaves nothing behind as long as no source is missing from that list. `remove_edge` and
`untag_memory` take a source off the list of a target even if a parallel edge of another kind
stays.
-/

namespace Jcode

open EdgeIndex Schedule

namespace MemoryGraph

variable {W : Type} [BEq W] {g t : MemoryGraph W} {id : String}

/-- `after` has no trace of the node `id`, and every edge of `g` that does not touch it. -/
structure LeavesNoTrace (g after : MemoryGraph W) (id : String) : Prop where
  noTarget : ∀ source, ∀ e ∈ after.getEdges source, e.target ≠ id
  noSource : ∀ node, id ∉ after.getIncoming node
  edges : after.edges id = none
  reverseEdges : after.reverseEdges id = none
  others : ∀ source ≠ id, (after.getEdges source).filter (·.target ≠ id) =
    (g.getEdges source).filter (·.target ≠ id)

/-- Whichever memory is removed, nothing of it is left. -/
def RemovesCleanly (g : MemoryGraph W) : Prop :=
  ∀ id, g.LeavesNoTrace (g.removeMemory id).2 id

/-- The edges that a call takes off the reverse list of a target are all removed. -/
def RemovesParallel (g : MemoryGraph W) : GraphCall W → Prop
  | .removeEdge source target kind =>
    source = target ∨ ∀ e ∈ g.getEdges source, e.target = target → e.kind == kind
  | .untagMemory memoryId tagName =>
    memoryId = tagId tagName ∨
      ∀ e ∈ g.getEdges memoryId, e.target = tagId tagName → e.kind.isHasTag
  | _ => True

instance (g : MemoryGraph W) : ∀ call, Decidable (g.RemovesParallel call)
  | .removeEdge _ _ _ => inferInstanceAs (Decidable (_ ∨ ∀ e ∈ g.getEdges _, _))
  | .untagMemory _ _ => inferInstanceAs (Decidable (_ ∨ ∀ e ∈ g.getEdges _, _))
  | .addMemory _ | .removeMemory _ | .tagMemory _ _ | .addEdge _ _ _ | .linkMemories _ _ _
  | .supersede _ _ | .markContradiction _ _ => inferInstanceAs (Decidable True)

omit [BEq W] in
/-- Where the reverse lists have no entry without an edge, a removal leaves nothing behind
exactly when no source is missing from the list. -/
lemma leavesNoTrace_iff (h : g.index.Sound Edge.target) :
    g.LeavesNoTrace (g.removeMemory id).2 id ↔
      ∀ source ≠ id, g.index.Joined Edge.target source id → source ∈ g.getIncoming id := by
  have hindex := @index_removeMemory _ g id
  have hout (source : String) : (g.removeMemory id).2.getEdges source =
      (g.index.erase Edge.target id).out source := by rw [← hindex, index_out]
  have hinto (node : String) : (g.removeMemory id).2.getIncoming node =
      (g.index.erase Edge.target id).into node := by rw [← hindex, index_into]
  constructor
  · intro hclean source hne hjoin
    by_contra hnot
    obtain ⟨e, he, htarget⟩ := (Index.joined_erase_iff hne).mpr ⟨hjoin, hnot⟩
    exact hclean.noTarget source e (by rw [hout]; exact he) htarget
  · intro hlisted
    refine ⟨fun source e he htarget => ?_, fun node => ?_, edges_removeMemory_self,
      reverseEdges_removeMemory_self, fun source hne => ?_⟩
    · have hjoin : (g.index.erase Edge.target id).Joined Edge.target source id :=
        ⟨e, by rw [← hout]; exact he, htarget⟩
      by_cases hne : source = id
      · subst hne
        exact Index.not_joined_erase_self hjoin
      · obtain ⟨hjoined, hnot⟩ := (Index.joined_erase_iff hne).mp hjoin
        exact hnot (hlisted source hne hjoined)
    · rw [hinto]
      exact h.notMem_erase
    · rw [hout, Index.filter_erase hne, index_out]

omit [BEq W] in
lemma removesCleanly_iff (h : g.index.Sound Edge.target) :
    g.RemovesCleanly ↔ g.index.Complete Edge.target := by
  simp only [RemovesCleanly, leavesNoTrace_iff h]
  exact ⟨fun hall source id hne => hall id source hne, fun hall id source hne => hall source id hne⟩

/-! ### Steps -/

lemma IndexRule.sound {x y : Index String (Edge W)} (h : IndexRule x y)
    (hx : x.Sound Edge.target) : y.Sound Edge.target := by
  induction h with
  | keep => exact hx
  | push source edge h ih => exact ih.push

lemma IndexRule.complete {x y : Index String (Edge W)} (h : IndexRule x y)
    (hx : x.Complete Edge.target) : y.Complete Edge.target := by
  induction h with
  | keep => exact hx
  | push source edge h ih => exact ih.push

/-- A call adds edges, severs two nodes or erases one. -/
lemma index_of_step {call : GraphCall W} (h : g.step call = some t) :
    (IndexRule g.index t.index ∧ g.RemovesParallel call) ∨
    (∃ source target p, t.index = g.index.sever Edge.target source target p ∧
      (g.RemovesParallel call ↔
        source = target ∨ ∀ e ∈ g.getEdges source, e.target = target → p e)) ∨
    ∃ id, call = .removeMemory id ∧ t.index = g.index.erase Edge.target id := by
  cases call with
  | addMemory entry =>
    cases h
    exact .inl ⟨.addMemory .keep, trivial⟩
  | removeMemory id =>
    cases h
    exact .inr (.inr ⟨id, rfl, index_removeMemory⟩)
  | tagMemory memoryId tagName =>
    cases h
    refine .inl ⟨?_, trivial⟩
    simp only [tagMemory]
    split_ifs
    · rw [index_ensureTag]
      exact .keep
    · rw [index_modifyMemory, countTag, index_modifyTag, index_addEdgeInternal, index_ensureTag]
      exact .push memoryId _ .keep
  | untagMemory memoryId tagName =>
    cases h
    exact .inr (.inl ⟨memoryId, tagId tagName, _, index_untagMemory, Iff.rfl⟩)
  | addEdge source target kind =>
    cases h
    exact .inl ⟨.addEdge .keep, trivial⟩
  | removeEdge source target kind =>
    cases h
    exact .inr (.inl ⟨source, target, _, index_removeEdge, Iff.rfl⟩)
  | linkMemories source target weight =>
    cases h
    exact .inl ⟨.addEdge .keep, trivial⟩
  | supersede newerId olderId =>
    cases h
    refine .inl ⟨?_, trivial⟩
    rw [supersede, index_modifyMemory]
    exact .addEdge .keep
  | markContradiction idA idB =>
    cases h
    exact .inl ⟨.addEdge (.addEdge .keep), trivial⟩

lemma sound_step {call : GraphCall W} (h : g.index.Sound Edge.target)
    (hs : g.step call = some t) : t.index.Sound Edge.target := by
  rcases index_of_step hs with ⟨hrule, -⟩ | ⟨source, target, p, heq, -⟩ | ⟨id, -, heq⟩
  · exact hrule.sound h
  · rw [heq]
    exact h.sever
  · rw [heq]
    exact h.erase

/-- The reverse lists stay complete exactly when a call takes no source off a list to whose
target an edge is left. -/
lemma complete_step_iff {call : GraphCall W} (h : g.index.Complete Edge.target)
    (hs : g.step call = some t) :
    t.index.Complete Edge.target ↔ g.RemovesParallel call := by
  rcases index_of_step hs with ⟨hrule, hkeeps⟩ | ⟨source, target, p, heq, hiff⟩ | ⟨id, rfl, heq⟩
  · exact iff_of_true (hrule.complete h) hkeeps
  · rw [heq, h.sever_iff, hiff, index_out]
  · rw [heq]
    exact iff_of_true h.erase trivial

omit [BEq W] in
lemma sound_new : (new : MemoryGraph W).index.Sound Edge.target := by
  intro s t h
  simp [new, getIncoming] at h

omit [BEq W] in
lemma complete_new : (new : MemoryGraph W).index.Complete Edge.target := by
  rintro s t - ⟨e, he, -⟩
  simp [new, getEdges] at he

end MemoryGraph

open MemoryGraph

/-- For every sequence of calls on a new graph: in each graph it passes through, the removal of
any memory leaves nothing behind, if and only if no call takes a source off a reverse list while
an edge of another kind stays. -/
theorem removeMemory_leavesNoTrace_iff {W : Type} [BEq W] (calls : List (GraphCall W)) :
    Always step RemovesCleanly new calls ↔ Guarded step RemovesParallel new calls := by
  obtain ⟨t, hrun⟩ := @exec_of_total _ _ _ new calls step_isSome
  refine always_iff_guarded (I := fun g => g.index.Sound Edge.target) (E := fun _ _ => True)
    (fun g call g' h _ hs => sound_step h hs) ?_ ?_ sound_new
    ((removesCleanly_iff sound_new).mpr complete_new) (guarded_of_forall_mem fun _ _ _ => trivial)
    hrun
  · intro g call g' hsound hclean _ hkeeps hs
    rw [removesCleanly_iff hsound] at hclean
    exact (removesCleanly_iff (sound_step hsound hs)).mpr ((complete_step_iff hclean hs).mpr hkeeps)
  · intro g call g' hsound hclean _ hleft hs hclean'
    rw [removesCleanly_iff hsound] at hclean
    rw [removesCleanly_iff (sound_step hsound hs)] at hclean'
    exact hleft ((complete_step_iff hclean hs).mp hclean')

/-- Two memories are linked, one supersedes the other, and the link is removed. -/
def unlinkedCalls : List (GraphCall Nat) :=
  [.linkMemories "new" "old" 1, .supersede "new" "old", .removeEdge "new" "old" (.relatesTo 1)]

/-- The reverse list of the older memory is empty, so its removal leaves the edge to it. -/
theorem removeEdge_leavesTrace :
    ¬ ∀ (calls : List (GraphCall Nat)) (t : MemoryGraph Nat) (id : String),
      exec step new calls = some t → t.LeavesNoTrace (t.removeMemory id).2 id := by
  intro h
  have hend : (exec step new unlinkedCalls).any fun t =>
      ((t.removeMemory "old").2.getEdges "new").any (·.target = "old") := by decide +kernel
  obtain ⟨t, ht, hleft⟩ := (Option.any_eq_true _ _).mp hend
  obtain ⟨e, he, htarget⟩ := List.any_eq_true.mp hleft
  exact (h _ t "old" ht).noTarget "new" e he (by simpa using htarget)

end Jcode
