import Jcode.Foundation.ScoredSearch
import Jcode.Memory.Graph
import Jcode.Memory.Ranking
import Mathlib.Algebra.Order.Field.Rat
import Mathlib.Algebra.Order.Ring.Pow
import Mathlib.Tactic.NormNum
import Mathlib.Tactic.Positivity

/-!
# Cascade retrieval

`MemoryGraph::cascade_retrieve` (`jcode-memory-types`): from the seeds on, memories are found along
edges and through the tags that they share. Scores are rational numbers.

A memory is visited once. What would improve its score afterwards is not looked at.
-/

namespace Jcode

open ScoredSearch

def EdgeKind.traversalWeight : EdgeKind ℚ → ℚ
  | .hasTag => 8 / 10
  | .inCluster => 6 / 10
  | .relatesTo weight => weight
  | .supersedes => 9 / 10
  | .contradicts => 3 / 10
  | .derivedFrom => 7 / 10

def decay (depth : Nat) : ℚ := (7 / 10) ^ (depth + 1)

def IsTagNode (id : String) : Prop := "tag:".toList <+: id.toList

instance (id : String) : Decidable (IsTagNode id) :=
  inferInstanceAs (Decidable ("tag:".toList <+: id.toList))

namespace MemoryGraph

variable (g : MemoryGraph ℚ)

/-! ### Retrieval -/

abbrev StoredId := {id : String // id ∈ g.memories}

instance : Fintype g.StoredId := Fintype.subtype g.memories.keys fun _ => Finmap.mem_keys

def storedId (id : String) : Option g.StoredId :=
  if h : id ∈ g.memories then some ⟨id, h⟩ else none

/-- All memories with a tag, or the memory itself. -/
def edgeTargets (edge : Edge ℚ) : List g.StoredId :=
  let targets := if IsTagNode edge.target then g.getIncoming edge.target else [edge.target]
  targets.filterMap g.storedId

/-- The edges of a node, up to the depth. -/
def offers (maxDepth : Nat) : Offers g.StoredId ℚ := fun visited entry =>
  if maxDepth ≤ entry.depth then []
  else
    (g.getEdges entry.node).flatMap fun edge =>
      if edge.target ∈ visited.map Subtype.val then []
      else
        let newScore := entry.score * edge.kind.traversalWeight * decay entry.depth
        (g.edgeTargets edge).map fun target => (target, newScore)

def storedSeeds (seeds : List (String × ℚ)) : List (g.StoredId × ℚ) :=
  seeds.filterMap fun (id, score) => (g.storedId id).map fun node => (node, score)

def cascadeScores (seeds : List (String × ℚ)) (maxDepth : Nat) : List (String × ℚ) :=
  (search (g.offers maxDepth) 0 (start (g.storedSeeds seeds))).best.entries.map fun entry =>
    (entry.1.val, entry.2)

/-- `iterate` is the order in which a hash map lists its entries. -/
def cascadeRetrieve (iterate : List (String × ℚ) → List (String × ℚ)) (seedIds : List String)
    (seedScores : List ℚ) (maxDepth maxResults : Nat) : List (String × ℚ) :=
  topKScored (iterate (g.cascadeScores (seedIds.zip seedScores) maxDepth)) maxResults

/-! ### Paths -/

/-- An edge leads to the memory, or one to a tag that the memory has. -/
def Leads (id target : String) (weight : ℚ) : Prop :=
  ∃ edge ∈ g.getEdges id, edge.kind.traversalWeight = weight ∧ target ∈ g.memories ∧
    if IsTagNode edge.target then target ∈ g.getIncoming edge.target else target = edge.target

/-- A path of some hops from a seed to the memory, and its decayed product. -/
inductive ScorePath (seeds : List (String × ℚ)) : Nat → String → ℚ → Prop
  | seed {id : String} {score : ℚ} (h : (id, score) ∈ seeds) (hstored : id ∈ g.memories) :
      ScorePath seeds 0 id score
  | hop {n : Nat} {id target : String} {score weight : ℚ} (h : ScorePath seeds n id score)
      (hleads : g.Leads id target weight) :
      ScorePath seeds (n + 1) target (score * weight * decay n)

def pathScores (seeds : List (String × ℚ)) (maxDepth : Nat) (id : String) : Set ℚ :=
  {score | ∃ n ≤ maxDepth, g.ScorePath seeds n id score}

def HasUnitWeights : Prop :=
  ∀ id, ∀ edge ∈ g.getEdges id, 0 < edge.kind.traversalWeight ∧ edge.kind.traversalWeight ≤ 1

variable {g} {id target : String} {score weight : ℚ} {n maxDepth : Nat}
  {seeds : List (String × ℚ)} {visited : List g.StoredId} {entry : Entry g.StoredId ℚ}
  {node : g.StoredId} {offer : g.StoredId × ℚ}

lemma storedId_eq_some_iff : g.storedId id = some node ↔ id = node.val := by
  unfold storedId
  split_ifs with h
  · rw [Option.some_inj]
    constructor
    · rintro rfl
      rfl
    · rintro rfl
      rfl
  · constructor
    · intro hnone
      cases hnone
    · rintro rfl
      exact absurd node.property h

lemma mem_storedSeeds : (node, score) ∈ g.storedSeeds seeds ↔ (node.val, score) ∈ seeds := by
  simp only [storedSeeds, List.mem_filterMap, Option.map_eq_some_iff, storedId_eq_some_iff]
  constructor
  · rintro ⟨⟨id, score'⟩, hmem, node', rfl, heq⟩
    cases heq
    exact hmem
  · intro hmem
    exact ⟨_, hmem, node, rfl, rfl⟩

lemma mem_edgeTargets {edge : Edge ℚ} : node ∈ g.edgeTargets edge ↔
    if IsTagNode edge.target then node.val ∈ g.getIncoming edge.target
    else node.val = edge.target := by
  simp only [edgeTargets, List.mem_filterMap, storedId_eq_some_iff]
  split_ifs <;> simp

lemma mem_offers (h : offer ∈ g.offers maxDepth visited entry) : entry.depth < maxDepth ∧
    ∃ weight, g.Leads entry.node offer.1 weight ∧
      offer.2 = entry.score * weight * decay entry.depth := by
  unfold offers at h
  split_ifs at h with hdepth
  · cases h
  · obtain ⟨edge, hedge, h⟩ := List.mem_flatMap.mp h
    split_ifs at h with hvisited
    · cases h
    · obtain ⟨target, htarget, rfl⟩ := List.mem_map.mp h
      exact ⟨not_le.mp hdepth, _, ⟨edge, hedge, rfl, target.property, mem_edgeTargets.mp htarget⟩,
        rfl⟩

/-! ### The search along the paths -/

lemma keepsAbove_offers (hweights : g.HasUnitWeights) : KeepsAbove (g.offers maxDepth) 0 := by
  intro visited entry hentry offer hoffer
  obtain ⟨-, weight, ⟨edge, hedge, rfl, -⟩, hscore⟩ := mem_offers hoffer
  have hweight := (hweights entry.node edge hedge).1
  have hdecay : 0 < decay entry.depth := by
    unfold decay
    positivity
  rw [hscore]
  positivity

lemma scorePath_of_path {n : Nat}
    (h : Path (g.offers maxDepth) (g.storedSeeds seeds) n node score) :
    n ≤ maxDepth ∧ g.ScorePath seeds n node score := by
  induction h with
  | @start node score h => exact ⟨Nat.zero_le _, .seed (mem_storedSeeds.mp h) node.property⟩
  | hop _ hoffer ih =>
    obtain ⟨hdepth, weight, hleads, hscore⟩ := mem_offers hoffer
    have hpath := ScorePath.hop ih.2 hleads
    rw [← hscore] at hpath
    exact ⟨hdepth, hpath⟩

def Hop (source target : g.StoredId) : Prop := ∃ weight, g.Leads source target weight

lemma reaches_of_scorePath (h : g.ScorePath seeds n id score) :
    ∃ hstored : id ∈ g.memories, Reaches Hop (g.storedSeeds seeds) n ⟨id, hstored⟩ := by
  induction h with
  | seed h hstored => exact ⟨hstored, .start (mem_storedSeeds.mpr h)⟩
  | hop _ hleads ih =>
    obtain ⟨hstored, hreaches⟩ := ih
    have htarget : _ ∈ g.memories := hleads.choose_spec.2.2.1
    exact ⟨htarget, .hop hreaches ⟨_, hleads⟩⟩

/-- Where no memory has the id of a tag node, an edge is skipped only if its memory is visited. -/
lemma offersAll_offers (huntagged : ∀ id ∈ g.memories, ¬ IsTagNode id) :
    OffersAll Hop maxDepth (g.offers maxDepth) := by
  rintro visited entry hdepth node ⟨weight, edge, hedge, rfl, hstored, htarget⟩ hnode
  refine ⟨entry.score * edge.kind.traversalWeight * decay entry.depth, ?_⟩
  have hvisited : edge.target ∉ visited.map Subtype.val := by
    intro hmem
    obtain ⟨other, hother, hval⟩ := List.mem_map.mp hmem
    have huntag : ¬ IsTagNode edge.target := by
      rw [← hval]
      exact huntagged other other.property
    rw [if_neg huntag, ← hval] at htarget
    rw [Subtype.ext htarget] at hnode
    exact hnode hother
  unfold offers
  rw [if_neg (not_le.mpr hdepth), List.mem_flatMap]
  refine ⟨edge, hedge, ?_⟩
  rw [if_neg hvisited]
  exact List.mem_map.mpr ⟨node, mem_edgeTargets.mpr htarget, rfl⟩

/-! ### What is retrieved -/

/-- No memory has the id of a tag node. -/
def IsUntagged (g : MemoryGraph ℚ) : Prop := ∀ id ∈ g.memories, ¬ IsTagNode id

/-- The same memories, edges and seeds, listed in another order. -/
structure Reordered (g g' : MemoryGraph ℚ) (seeds seeds' : List (String × ℚ)) : Prop where
  memories : g'.memories = g.memories
  edges : ∀ id, (g'.getEdges id).Perm (g.getEdges id)
  incoming : ∀ id, (g'.getIncoming id).Perm (g.getIncoming id)
  seeds : seeds'.Perm seeds

/-- Every score is the best of all paths, whatever the order is. -/
structure RetrievesBest (g : MemoryGraph ℚ) (iterate : List (String × ℚ) → List (String × ℚ))
    (seedIds : List String) (seedScores : List ℚ) (maxDepth maxResults : Nat) : Prop where
  best : ∀ found ∈ g.cascadeRetrieve iterate seedIds seedScores maxDepth maxResults,
    found.1 ∈ g.memories ∧
      IsGreatest (g.pathScores (seedIds.zip seedScores) maxDepth found.1) found.2
  length_le :
    (g.cascadeRetrieve iterate seedIds seedScores maxDepth maxResults).length ≤ maxResults
  descending : (g.cascadeRetrieve iterate seedIds seedScores maxDepth maxResults).Pairwise
    fun a b => b.2 ≤ a.2
  reordered : ∀ (g' : MemoryGraph ℚ) (seedIds' : List String) (seedScores' : List ℚ),
    Reordered g g' (seedIds.zip seedScores) (seedIds'.zip seedScores') →
      g'.cascadeRetrieve iterate seedIds' seedScores' maxDepth maxResults =
        g.cascadeRetrieve iterate seedIds seedScores maxDepth maxResults

/-- Memories are visited once, each with the score and the depth of a path. A score is the best of
what the memories visited before have offered, and all that is reached has a score. -/
structure RetrievesInOrder (g : MemoryGraph ℚ) (iterate : List (String × ℚ) → List (String × ℚ))
    (seedIds : List String) (seedScores : List ℚ) (maxDepth maxResults : Nat) : Prop where
  scores : ∃ visits : List (Entry g.StoredId ℚ), (visits.map Entry.node).Nodup ∧
    (∀ visit ∈ visits, visit.depth ≤ maxDepth ∧
      g.ScorePath (seedIds.zip seedScores) visit.depth visit.node visit.score) ∧
    ∀ found ∈ g.cascadeScores (seedIds.zip seedScores) maxDepth,
      found.2 ∈ g.pathScores (seedIds.zip seedScores) maxDepth found.1 ∧
        ∃ hstored : found.1 ∈ g.memories,
          IsGreatest {score | Received (g.offers maxDepth)
            (g.storedSeeds (seedIds.zip seedScores)) visits ⟨found.1, hstored⟩ score} found.2
  distinct : ((g.cascadeScores (seedIds.zip seedScores) maxDepth).map Prod.fst).Nodup
  reached : g.IsUntagged → ∀ id, id ∈ (g.cascadeScores (seedIds.zip seedScores) maxDepth).map
    Prod.fst ↔ (g.pathScores (seedIds.zip seedScores) maxDepth id).Nonempty
  returned : (g.cascadeRetrieve iterate seedIds seedScores maxDepth maxResults).Subperm
    (g.cascadeScores (seedIds.zip seedScores) maxDepth)
  length : (g.cascadeRetrieve iterate seedIds seedScores maxDepth maxResults).length =
    min (g.cascadeScores (seedIds.zip seedScores) maxDepth).length maxResults
  descending : (g.cascadeRetrieve iterate seedIds seedScores maxDepth maxResults).Pairwise
    fun a b => b.2 ≤ a.2
  kept : ∀ found ∈ g.cascadeScores (seedIds.zip seedScores) maxDepth,
    found ∈ g.cascadeRetrieve iterate seedIds seedScores maxDepth maxResults ∨
      ∀ other ∈ g.cascadeRetrieve iterate seedIds seedScores maxDepth maxResults,
        found.2 ≤ other.2
  reordered : g.IsUntagged → ∀ (g' : MemoryGraph ℚ) (seedIds' : List String)
    (seedScores' : List ℚ), Reordered g g' (seedIds.zip seedScores) (seedIds'.zip seedScores') →
      ∀ id, id ∈ (g'.cascadeScores (seedIds'.zip seedScores') maxDepth).map Prod.fst ↔
        id ∈ (g.cascadeScores (seedIds.zip seedScores) maxDepth).map Prod.fst

lemma mem_cascadeScores : (id, score) ∈ g.cascadeScores seeds maxDepth ↔
    ∃ hstored : id ∈ g.memories,
      (search (g.offers maxDepth) 0 (start (g.storedSeeds seeds))).best.lookup ⟨id, hstored⟩ =
        some score := by
  unfold cascadeScores
  rw [List.mem_map]
  constructor
  · rintro ⟨⟨⟨id, hstored⟩, score⟩, hmem, heq⟩
    cases heq
    exact ⟨hstored, AList.mem_lookup_iff.mpr hmem⟩
  · rintro ⟨hstored, hlookup⟩
    exact ⟨⟨⟨id, hstored⟩, score⟩, AList.mem_lookup_iff.mp hlookup, rfl⟩

lemma nodup_cascadeScores : ((g.cascadeScores seeds maxDepth).map Prod.fst).Nodup := by
  have hkeys := (search (g.offers maxDepth) 0 (start (g.storedSeeds seeds))).best.keys_nodup
  have heq : (g.cascadeScores seeds maxDepth).map Prod.fst =
      (search (g.offers maxDepth) 0 (start (g.storedSeeds seeds))).best.keys.map Subtype.val := by
    simp [cascadeScores, AList.keys, List.keys, List.map_map, Function.comp_def]
  rw [heq]
  exact hkeys.map Subtype.val_injective

lemma nodup_storedSeeds (h : (seeds.map Prod.fst).Nodup) :
    ((g.storedSeeds seeds).map Prod.fst).Nodup := by
  have hsub : (((g.storedSeeds seeds).map Prod.fst).map Subtype.val).Sublist
      (seeds.map Prod.fst) := by
    induction seeds with
    | nil => exact .slnil
    | cons seed seeds ih =>
      obtain ⟨id, score⟩ := seed
      rw [List.map_cons, List.nodup_cons] at h
      cases hstored : g.storedId id with
      | none =>
        have hcons : g.storedSeeds ((id, score) :: seeds) = g.storedSeeds seeds := by
          simp [storedSeeds, hstored]
        rw [hcons]
        exact (ih h.2).cons id
      | some node =>
        have hcons : g.storedSeeds ((id, score) :: seeds) =
            (node, score) :: g.storedSeeds seeds := by
          simp [storedSeeds, hstored]
        rw [storedId_eq_some_iff] at hstored
        subst hstored
        rw [hcons]
        exact (ih h.2).cons_cons node.val
  exact (h.sublist hsub).of_map

variable (maxDepth) in
/-- The search of a retrieval. -/
lemma underway_cascade (hweights : g.HasUnitWeights) (hdistinct : (seeds.map Prod.fst).Nodup)
    (hpositive : ∀ seed ∈ seeds, 0 < seed.2) :
    Underway Hop maxDepth (g.offers maxDepth) (g.storedSeeds seeds)
        (search (g.offers maxDepth) 0 (start (g.storedSeeds seeds))) ∧
      (search (g.offers maxDepth) 0 (start (g.storedSeeds seeds))).queue = [] := by
  apply underway_search (nodup_storedSeeds hdistinct) (keepsAbove_offers hweights)
  rintro ⟨node, score⟩ hmem
  exact hpositive _ (mem_storedSeeds.mp hmem)

/-- Without tag nodes among the memories, exactly what is reached has a score. -/
lemma mem_map_cascadeScores (hweights : g.HasUnitWeights)
    (hdistinct : (seeds.map Prod.fst).Nodup) (hpositive : ∀ seed ∈ seeds, 0 < seed.2)
    (huntagged : g.IsUntagged) :
    id ∈ (g.cascadeScores seeds maxDepth).map Prod.fst ↔
      (g.pathScores seeds maxDepth id).Nonempty := by
  obtain ⟨⟨visits, hexplored, hclosed⟩, hqueue⟩ :=
    underway_cascade maxDepth hweights hdistinct hpositive
  constructor
  · intro hmem
    obtain ⟨⟨id, score⟩, hfound, rfl⟩ := List.mem_map.mp hmem
    obtain ⟨hstored, hlookup⟩ := mem_cascadeScores.mp hfound
    obtain ⟨n, hpath⟩ := hexplored.path hlookup
    obtain ⟨hn, hscore⟩ := scorePath_of_path hpath
    exact ⟨score, n, hn, hscore⟩
  · rintro ⟨score, n, hn, hscore⟩
    obtain ⟨hstored, hreaches⟩ := reaches_of_scorePath hscore
    obtain ⟨visit, hvisit, hnode, -⟩ :=
      (hclosed (offersAll_offers huntagged)).within_of_reaches hqueue hreaches hn
    have hknown := (hexplored.known ⟨id, hstored⟩).mpr
      ⟨visit, List.mem_append_left _ hvisit, hnode⟩
    rw [← AList.lookup_isSome, Option.isSome_iff_exists] at hknown
    obtain ⟨best, hbest⟩ := hknown
    exact List.mem_map.mpr ⟨(id, best), mem_cascadeScores.mpr ⟨hstored, hbest⟩, rfl⟩

/-! ### Other orders -/

variable {g' : MemoryGraph ℚ} {seeds' : List (String × ℚ)}

lemma Reordered.symm (h : Reordered g g' seeds seeds') : Reordered g' g seeds' seeds where
  memories := h.memories.symm
  edges id := (h.edges id).symm
  incoming id := (h.incoming id).symm
  seeds := h.seeds.symm

lemma Reordered.scorePath (h : Reordered g g' seeds seeds') (hpath : g.ScorePath seeds n id score) :
    g'.ScorePath seeds' n id score := by
  induction hpath with
  | seed hmem hstored =>
    refine .seed (h.seeds.mem_iff.mpr hmem) ?_
    rwa [h.memories]
  | hop _ hleads ih =>
    obtain ⟨edge, hedge, hweight, hstored, htarget⟩ := hleads
    refine .hop ih ⟨edge, (h.edges _).mem_iff.mpr hedge, hweight, ?_, ?_⟩
    · rwa [h.memories]
    · rwa [(h.incoming _).mem_iff]

lemma Reordered.pathScores_eq (h : Reordered g g' seeds seeds') :
    g'.pathScores seeds' maxDepth id = g.pathScores seeds maxDepth id := by
  ext score
  constructor
  · rintro ⟨n, hn, hpath⟩
    exact ⟨n, hn, h.symm.scorePath hpath⟩
  · rintro ⟨n, hn, hpath⟩
    exact ⟨n, hn, h.scorePath hpath⟩

lemma Reordered.hasUnitWeights (h : Reordered g g' seeds seeds') (hweights : g.HasUnitWeights) :
    g'.HasUnitWeights :=
  fun id edge hedge => hweights id edge ((h.edges id).mem_iff.mp hedge)

lemma Reordered.isUntagged (h : Reordered g g' seeds seeds') (huntagged : g.IsUntagged) :
    g'.IsUntagged := by
  intro id hid
  rw [h.memories] at hid
  exact huntagged id hid

/-! ### The retrieval -/

variable {iterate : List (String × ℚ) → List (String × ℚ)} {seedIds : List String}
  {seedScores : List ℚ} {maxResults : Nat}

variable (seedIds seedScores) in
lemma map_fst_zip_sublist : ((seedIds.zip seedScores).map Prod.fst).Sublist seedIds := by
  induction seedIds generalizing seedScores with
  | nil => exact .slnil
  | cons id seedIds ih =>
    cases seedScores with
    | nil => exact List.nil_sublist _
    | cons score seedScores => exact (ih seedScores).cons_cons id

lemma positive_zip (h : ∀ score ∈ seedScores, 0 < score) :
    ∀ seed ∈ seedIds.zip seedScores, 0 < seed.2 := by
  rintro ⟨id, score⟩ hmem
  exact h score (List.of_mem_zip hmem).2

/-- Two memories, and a link from the second to the first. -/
def linkedPair : MemoryGraph ℚ where
  memories := ((∅ : Finmap fun _ : String => MemoryEntry).insert "a" ⟨"a", [], true, none⟩).insert
    "b" ⟨"b", [], true, none⟩
  tags := fun _ => none
  edges := fun id => if id = "b" then some [⟨"a", .relatesTo 1⟩] else none
  reverseEdges := fun id => if id = "a" then some ["b"] else none
  linkDiscoveryCount := 1

lemma mem_getEdges_linkedPair {edge : Edge ℚ} (h : edge ∈ linkedPair.getEdges id) :
    id = "b" ∧ edge = ⟨"a", .relatesTo 1⟩ := by
  by_cases hid : id = "b"
  · simp [getEdges, linkedPair, hid] at h
    exact ⟨hid, h⟩
  · simp [getEdges, linkedPair, hid] at h

lemma hasUnitWeights_linkedPair : linkedPair.HasUnitWeights := by
  intro id edge hedge
  obtain ⟨-, rfl⟩ := mem_getEdges_linkedPair hedge
  simp [EdgeKind.traversalWeight]

/-- The link leads to a memory that was visited already. -/
lemma cascadeScores_linkedPair :
    linkedPair.cascadeScores [("a", 1 / 10), ("b", 1)] 1 = [("b", 1), ("a", 1 / 10)] := by
  have ha : "a" ∈ linkedPair.memories := by decide
  have hb : "b" ∈ linkedPair.memories := by decide
  have hne : (⟨"b", hb⟩ : linkedPair.StoredId) ≠ ⟨"a", ha⟩ := by simp
  have hstored : linkedPair.storedSeeds [("a", 1 / 10), ("b", 1)] =
      [(⟨"a", ha⟩, 1 / 10), (⟨"b", hb⟩, 1)] := by
    simp [storedSeeds, storedId, ha, hb]
  have hfirst : linkedPair.offers 1 ([] ++ [⟨"a", ha⟩]) ⟨⟨"a", ha⟩, 1 / 10, 0⟩ = [] := by
    simp [offers, getEdges, linkedPair]
  have hedges : linkedPair.getEdges "b" = [⟨"a", .relatesTo 1⟩] := by
    simp [getEdges, linkedPair]
  have hsecond :
      linkedPair.offers 1 ([] ++ [⟨"a", ha⟩] ++ [⟨"b", hb⟩]) ⟨⟨"b", hb⟩, 1, 0⟩ = [] := by
    simp [offers, hedges]
  unfold cascadeScores
  rw [hstored, search_of_quiet rfl List.not_mem_nil hfirst,
    search_of_quiet rfl (List.mem_singleton.not.mpr hne) hsecond, search_of_nil rfl]
  rfl

end MemoryGraph

end Jcode
