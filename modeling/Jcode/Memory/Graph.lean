import Jcode.Foundation.EdgeIndex
import Mathlib.Data.Finmap

/-!
# The memory graph

`MemoryGraph` (`jcode-memory-types`): memories and tags as nodes, edges as a list for each
source, a reverse list of sources for each target, a counter in each tag and the list of tags in
each memory. The functions below write them one at a time, in the order of the source.

Seen through `index`, its edge lists are adjacency lists with a reverse index.
-/

namespace Jcode

open EdgeIndex

/-- `W` is the type of weights, compared as the source compares `f32`: not every value need be
equal to itself. -/
inductive EdgeKind (W : Type)
  | hasTag
  | inCluster
  | relatesTo (weight : W)
  | supersedes
  | contradicts
  | derivedFrom
deriving BEq, Repr

def EdgeKind.isHasTag {W : Type} : EdgeKind W → Bool
  | .hasTag => true
  | _ => false

structure Edge (W : Type) where
  target : String
  kind : EdgeKind W
deriving Repr

structure TagEntry where
  id : String
  name : String
  count : Nat
deriving DecidableEq

structure MemoryEntry where
  id : String
  tags : List String
  active : Bool
  supersededBy : Option String
deriving DecidableEq

def tagId (name : String) : String := "tag:" ++ name

def TagEntry.new (name : String) : TagEntry where
  id := tagId name
  name := name
  count := 0

/-- `get_mut` followed by a change of the entry. -/
def adjust {β : Type} (entries : String → Option β) (key : String) (f : β → β) :
    String → Option β :=
  Function.update entries key ((entries key).map f)

structure MemoryGraph (W : Type) where
  memories : Finmap fun _ : String => MemoryEntry
  tags : String → Option TagEntry
  edges : String → Option (List (Edge W))
  reverseEdges : String → Option (List String)
  linkDiscoveryCount : Nat

namespace MemoryGraph

variable {W : Type} (g : MemoryGraph W)

def new : MemoryGraph W where
  memories := ∅
  tags := fun _ => none
  edges := fun _ => none
  reverseEdges := fun _ => none
  linkDiscoveryCount := 0

def getEdges (nodeId : String) : List (Edge W) := (g.edges nodeId).getD []

def getIncoming (nodeId : String) : List String := (g.reverseEdges nodeId).getD []

/-- The memory has a `HasTag` edge to the tag node. -/
def HasTagEdge (memoryId tagId : String) : Prop :=
  ∃ e ∈ g.getEdges memoryId, e.target = tagId ∧ e.kind.isHasTag

instance (memoryId tagId : String) : Decidable (g.HasTagEdge memoryId tagId) :=
  inferInstanceAs (Decidable (∃ e ∈ g.getEdges memoryId, e.target = tagId ∧ e.kind.isHasTag))

def modifyMemory (id : String) (f : MemoryEntry → MemoryEntry) : MemoryGraph W :=
  match g.memories.lookup id with
  | some memory => { g with memories := g.memories.insert id (f memory) }
  | none => g

def modifyTag (id : String) (f : TagEntry → TagEntry) : MemoryGraph W :=
  { g with tags := adjust g.tags id f }

/-! ### Edges -/

def addEdgeInternal (source target : String) (kind : EdgeKind W) : MemoryGraph W :=
  { g with
    edges := Function.update g.edges source (some (g.getEdges source ++ [⟨target, kind⟩]))
    reverseEdges :=
      Function.update g.reverseEdges target (some (g.getIncoming target ++ [source])) }

def addEdge [BEq W] (source target : String) (kind : EdgeKind W) : MemoryGraph W :=
  if (g.getEdges source).any fun e => e.target = target && e.kind == kind then g
  else g.addEdgeInternal source target kind

def removeEdge [BEq W] (source target : String) (kind : EdgeKind W) : MemoryGraph W :=
  { g with
    edges := adjust g.edges source fun edges =>
      edges.filter fun e => !(e.target = target && e.kind == kind)
    reverseEdges := adjust g.reverseEdges target fun sources => sources.filter (· ≠ source) }

def linkMemories [BEq W] (source target : String) (weight : W) : MemoryGraph W :=
  { g.addEdge source target (.relatesTo weight) with
    linkDiscoveryCount := g.linkDiscoveryCount + 1 }

def supersede [BEq W] (newerId olderId : String) : MemoryGraph W :=
  (g.addEdge newerId olderId .supersedes).modifyMemory olderId fun older =>
    { older with active := false, supersededBy := some newerId }

def markContradiction [BEq W] (idA idB : String) : MemoryGraph W :=
  (g.addEdge idA idB .contradicts).addEdge idB idA .contradicts

/-! ### Tags -/

def ensureTag (name : String) : MemoryGraph W :=
  if (g.tags (tagId name)).isSome then g
  else { g with tags := Function.update g.tags (tagId name) (some (.new name)) }

def countTag (id : String) : MemoryGraph W :=
  g.modifyTag id fun tag => { tag with count := tag.count + 1 }

/-- A tag that is not counted any more; the counter stays at zero. -/
def uncountTag (id : String) : MemoryGraph W :=
  g.modifyTag id fun tag => { tag with count := tag.count - 1 }

def tagMemory (memoryId tagName : String) : MemoryGraph W :=
  let g := g.ensureTag tagName
  if (g.getEdges memoryId).any fun e => e.target = tagId tagName && e.kind.isHasTag then g
  else
    let g := (g.addEdgeInternal memoryId (tagId tagName) .hasTag).countTag (tagId tagName)
    g.modifyMemory memoryId fun memory =>
      if tagName ∈ memory.tags then memory else { memory with tags := memory.tags ++ [tagName] }

def untagMemory (memoryId tagName : String) : MemoryGraph W :=
  let g := { g with
    edges := adjust g.edges memoryId fun edges =>
      edges.filter fun e => !(e.target = tagId tagName && e.kind.isHasTag)
    reverseEdges := adjust g.reverseEdges (tagId tagName) fun sources =>
      sources.filter (· ≠ memoryId) }
  (g.uncountTag (tagId tagName)).modifyMemory memoryId fun memory =>
    { memory with tags := memory.tags.filter (· ≠ tagName) }

def getMemoriesByTag (tagName : String) : List MemoryEntry :=
  (g.getIncoming (tagId tagName)).filterMap g.memories.lookup

/-! ### Memories -/

/-- The loop of `add_memory` over the tags of the entry. -/
def addTags (id : String) (tags : List String) : MemoryGraph W :=
  tags.foldl (fun g tagName =>
    ((g.ensureTag tagName).addEdgeInternal id (tagId tagName) .hasTag).countTag (tagId tagName)) g

def addMemory (entry : MemoryEntry) : MemoryGraph W × String :=
  let g := g.addTags entry.id entry.tags
  let g := match entry.supersededBy with
    | some supersededBy => g.addEdgeInternal supersededBy entry.id .supersedes
    | none => g
  ({ g with memories := g.memories.insert entry.id entry }, entry.id)

/-- One edge of the removed memory. -/
def dropOutgoing (id : String) (edge : Edge W) : MemoryGraph W :=
  let g := { g with
    reverseEdges := adjust g.reverseEdges edge.target fun reverse => reverse.filter (· ≠ id) }
  if edge.kind.isHasTag then g.uncountTag edge.target else g

/-- One entry in the reverse list of the removed memory. -/
def dropIncoming (id source : String) : MemoryGraph W :=
  { g with edges := adjust g.edges source fun edges => edges.filter (·.target ≠ id) }

def removeMemory (id : String) : Option MemoryEntry × MemoryGraph W :=
  let outgoing := g.getEdges id
  let g := outgoing.foldl (dropOutgoing · id ·) { g with edges := Function.update g.edges id none }
  let incoming := g.getIncoming id
  let g := incoming.foldl (dropIncoming · id ·)
    { g with reverseEdges := Function.update g.reverseEdges id none }
  (g.memories.lookup id, { g with memories := g.memories.erase id })

/-! ### The edge lists as an index -/

/-- The edge lists and the reverse lists. -/
def index : Index String (Edge W) where
  out := g.getEdges
  into := g.getIncoming

variable {g} {f : MemoryEntry → MemoryEntry} {source target id name tagName : String}
  {kind : EdgeKind W} {edge : Edge W}

@[simp] lemma index_out : g.index.out = g.getEdges := rfl

@[simp] lemma index_into : g.index.into = g.getIncoming := rfl

lemma getD_adjust {β : Type} {entries : String → Option (List β)} {key key' : String}
    {f : List β → List β} (hf : f [] = []) :
    (adjust entries key f key').getD [] =
      if key' = key then f ((entries key).getD []) else (entries key').getD [] := by
  by_cases h : key' = key
  · subst h
    cases he : entries key' <;> simp [adjust, he, hf]
  · simp [adjust, h]

@[simp] lemma index_modifyMemory : (g.modifyMemory id f).index = g.index := by
  unfold modifyMemory
  split <;> rfl

@[simp] lemma index_modifyTag {f : TagEntry → TagEntry} : (g.modifyTag id f).index = g.index := rfl

@[simp] lemma index_ensureTag : (g.ensureTag name).index = g.index := by
  unfold ensureTag
  split_ifs <;> rfl

lemma getEdges_ensureTag : (g.ensureTag name).getEdges = g.getEdges :=
  congrArg Index.out index_ensureTag

lemma index_addEdgeInternal : (g.addEdgeInternal source target kind).index =
    g.index.push Edge.target source ⟨target, kind⟩ := by
  ext node : 1
  · by_cases h : node = source <;> simp [addEdgeInternal, Index.push, getEdges, h]
  · by_cases h : node = target <;> simp [addEdgeInternal, Index.push, getIncoming, h]

lemma index_removeEdge [BEq W] : (g.removeEdge source target kind).index =
    g.index.sever Edge.target source target (·.kind == kind) := by
  ext node : 1
  · simp only [index_out, getEdges, removeEdge, Index.sever, Function.update_apply]
    rw [getD_adjust rfl]
  · simp only [index_into, getIncoming, removeEdge, Index.sever, Function.update_apply]
    rw [getD_adjust rfl]

lemma index_untagMemory : (g.untagMemory id tagName).index =
    g.index.sever Edge.target id (tagId tagName) (·.kind.isHasTag) := by
  simp only [untagMemory, uncountTag, index_modifyMemory, index_modifyTag]
  ext node : 1
  · simp only [index_out, getEdges, Index.sever, Function.update_apply]
    rw [getD_adjust rfl]
  · simp only [index_into, getIncoming, Index.sever, Function.update_apply]
    rw [getD_adjust rfl]

/-! ### Removal -/

lemma getEdges_dropOutgoing : (g.dropOutgoing id edge).getEdges = g.getEdges := by
  unfold dropOutgoing uncountTag modifyTag
  split_ifs <;> rfl

lemma getIncoming_dropOutgoing (node : String) : (g.dropOutgoing id edge).getIncoming node =
    if node = edge.target then (g.getIncoming node).filter (· ≠ id) else g.getIncoming node := by
  have hreverse : (g.dropOutgoing id edge).reverseEdges =
      adjust g.reverseEdges edge.target fun reverse => reverse.filter (· ≠ id) := by
    unfold dropOutgoing uncountTag modifyTag
    split_ifs <;> rfl
  rw [getIncoming, hreverse, getD_adjust rfl]
  split_ifs with h
  · rw [h, getIncoming]
  · rfl

/-- After the loop over the outgoing edges the removed memory is in no list of a target. -/
lemma getIncoming_dropOutgoings (outgoing : List (Edge W)) (node : String) :
    (outgoing.foldl (dropOutgoing · id ·) g).getIncoming node =
      if ∃ e ∈ outgoing, e.target = node then (g.getIncoming node).filter (· ≠ id)
      else g.getIncoming node := by
  induction outgoing generalizing g with
  | nil => simp
  | cons edge outgoing ih =>
    rw [List.foldl_cons, ih, getIncoming_dropOutgoing]
    by_cases hhead : edge.target = node
    · by_cases htail : ∃ e ∈ outgoing, e.target = node <;> simp [hhead, htail]
    · simp [hhead, Ne.symm hhead]

lemma getEdges_dropOutgoings (outgoing : List (Edge W)) :
    (outgoing.foldl (dropOutgoing · id ·) g).getEdges = g.getEdges := by
  induction outgoing generalizing g with
  | nil => rfl
  | cons edge outgoing ih => rw [List.foldl_cons, ih, getEdges_dropOutgoing]

lemma getEdges_dropIncomings (incoming : List String) (node : String) :
    (incoming.foldl (dropIncoming · id ·) g).getEdges node =
      if node ∈ incoming then (g.getEdges node).filter (·.target ≠ id) else g.getEdges node := by
  induction incoming generalizing g with
  | nil => simp
  | cons source incoming ih =>
    have hhead : (g.dropIncoming id source).getEdges node =
        if node = source then (g.getEdges node).filter (·.target ≠ id) else g.getEdges node := by
      rw [getEdges, dropIncoming, getD_adjust rfl]
      split_ifs with h
      · rw [h, getEdges]
      · rfl
    rw [List.foldl_cons, ih, hhead]
    by_cases hs : node = source <;> simp [hs]

lemma reverseEdges_dropIncomings (incoming : List String) :
    (incoming.foldl (dropIncoming · id ·) g).reverseEdges = g.reverseEdges := by
  induction incoming generalizing g with
  | nil => rfl
  | cons source incoming ih =>
    rw [List.foldl_cons, ih]
    rfl

/-- Removing a memory erases its node from the index. -/
lemma index_removeMemory : (g.removeMemory id).2.index = g.index.erase Edge.target id := by
  let g₁ := (g.getEdges id).foldl (dropOutgoing · id ·)
    { g with edges := Function.update g.edges id none }
  have hedges (node : String) : g₁.getEdges node = if node = id then [] else g.getEdges node := by
    simp only [g₁, getEdges_dropOutgoings]
    by_cases h : node = id <;> simp [getEdges, h]
  have hincoming (node : String) : g₁.getIncoming node =
      if ∃ e ∈ g.getEdges id, e.target = node then (g.getIncoming node).filter (· ≠ id)
      else g.getIncoming node := getIncoming_dropOutgoings _ node
  let g₂ := (g₁.getIncoming id).foldl (dropIncoming · id ·)
    { g₁ with reverseEdges := Function.update g₁.reverseEdges id none }
  change g₂.index = _
  ext node : 1
  · have hdrop : g₂.getEdges node = if node ∈ g₁.getIncoming id
        then (g₁.getEdges node).filter (·.target ≠ id) else g₁.getEdges node :=
      getEdges_dropIncomings _ node
    rw [index_out, hdrop, hedges, hincoming]
    simp only [Index.erase, index_out, index_into]
    by_cases hnode : node = id
    · simp [hnode]
    · by_cases hmem : node ∈ g.getIncoming id <;> split_ifs <;> simp_all
  · have hreverse : g₂.reverseEdges = Function.update g₁.reverseEdges id none :=
      reverseEdges_dropIncomings _
    rw [index_into, getIncoming, hreverse]
    simp only [Index.erase, index_into]
    by_cases hnode : node = id
    · simp [hnode]
    · rw [Function.update_of_ne hnode, if_neg hnode]
      exact hincoming node

lemma edges_removeMemory_self : (g.removeMemory id).2.edges id = none := by
  have hnone (incoming : List String) (g : MemoryGraph W) (h : g.edges id = none) :
      (incoming.foldl (dropIncoming · id ·) g).edges id = none := by
    induction incoming generalizing g with
    | nil => exact h
    | cons source incoming ih =>
      apply ih
      by_cases hs : id = source
      · subst hs
        simp [dropIncoming, adjust, h]
      · simp [dropIncoming, adjust, hs, h]
  have hkept (outgoing : List (Edge W)) (g : MemoryGraph W) :
      (outgoing.foldl (dropOutgoing · id ·) g).edges = g.edges := by
    induction outgoing generalizing g with
    | nil => rfl
    | cons edge outgoing ih =>
      rw [List.foldl_cons, ih]
      unfold dropOutgoing uncountTag modifyTag
      split_ifs <;> rfl
  apply hnone
  simp [hkept]

lemma reverseEdges_removeMemory_self : (g.removeMemory id).2.reverseEdges id = none := by
  simp [removeMemory, reverseEdges_dropIncomings]

/-! ### Sequences of operations -/

/-- The public calls that change a graph. -/
inductive GraphCall (W : Type)
  | addMemory (entry : MemoryEntry)
  | removeMemory (id : String)
  | tagMemory (memoryId tagName : String)
  | untagMemory (memoryId tagName : String)
  | addEdge (source target : String) (kind : EdgeKind W)
  | removeEdge (source target : String) (kind : EdgeKind W)
  | linkMemories (source target : String) (weight : W)
  | supersede (newerId olderId : String)
  | markContradiction (idA idB : String)

/-- Every call succeeds. -/
def step [BEq W] (g : MemoryGraph W) : GraphCall W → Option (MemoryGraph W)
  | .addMemory entry => some (g.addMemory entry).1
  | .removeMemory id => some (g.removeMemory id).2
  | .tagMemory memoryId tagName => some (g.tagMemory memoryId tagName)
  | .untagMemory memoryId tagName => some (g.untagMemory memoryId tagName)
  | .addEdge source target kind => some (g.addEdge source target kind)
  | .removeEdge source target kind => some (g.removeEdge source target kind)
  | .linkMemories source target weight => some (g.linkMemories source target weight)
  | .supersede newerId olderId => some (g.supersede newerId olderId)
  | .markContradiction idA idB => some (g.markContradiction idA idB)

lemma step_isSome [BEq W] (g : MemoryGraph W) (call : GraphCall W) : (g.step call).isSome := by
  cases call <;> rfl

/-- What a call that only adds edges amounts to on the index. -/
inductive IndexRule [BEq W] (x : Index String (Edge W)) : Index String (Edge W) → Prop
  | keep : IndexRule x x
  | push {y : Index String (Edge W)} (source : String) (edge : Edge W) (h : IndexRule x y) :
      IndexRule x (y.push Edge.target source edge)

lemma IndexRule.addEdge [BEq W] {x : Index String (Edge W)} (h : IndexRule x g.index) :
    IndexRule x (g.addEdge source target kind).index := by
  unfold MemoryGraph.addEdge
  split_ifs
  · exact h
  · rw [index_addEdgeInternal]
    exact h.push source _

lemma IndexRule.addTags [BEq W] {x : Index String (Edge W)} (tags : List String)
    (h : IndexRule x g.index) : IndexRule x (g.addTags id tags).index := by
  induction tags generalizing g with
  | nil => exact h
  | cons tagName tags ih =>
    apply ih
    simp only [countTag, index_modifyTag, index_addEdgeInternal, index_ensureTag]
    exact h.push id _

lemma IndexRule.addMemory [BEq W] {x : Index String (Edge W)} {entry : MemoryEntry}
    (h : IndexRule x g.index) : IndexRule x (g.addMemory entry).1.index := by
  have htags : IndexRule x (g.addTags entry.id entry.tags).index := h.addTags entry.tags
  simp only [MemoryGraph.addMemory]
  cases entry.supersededBy with
  | none => exact htags
  | some newer =>
    change IndexRule x
      ((g.addTags entry.id entry.tags).addEdgeInternal newer entry.id .supersedes).index
    rw [index_addEdgeInternal]
    exact htags.push newer _

end MemoryGraph

end Jcode
