import Jcode.Foundation.BoundedHeap
import Mathlib.Data.Prod.Lex

/-!
# Ranking

`ranking::top_k_by_score`, `ranking::top_k_by_ord` (`jcode-memory-types`) and the `top_k_scored` of
the memory graph: the best `limit` of a list of scored items, taken with a heap of bounded size.
Scores are of one linear order, so that `total_cmp` and `>` say the same.
-/

namespace Jcode

open BoundedHeap

/-- An item in the heap; `TopKItem` and `TopKOrdItem` of the source. -/
structure TopKItem (T K : Type) where
  key : K
  ordinal : Nat
  value : T
  deriving DecidableEq

variable {T K : Type}

/-- `Ord for TopKItem`: by key, then by ordinal. -/
def TopKItem.rank (item : TopKItem T K) : K ×ₗ Nat := toLex (item.key, item.ordinal)

/-- What is returned of an item. -/
def TopKItem.scored (item : TopKItem T K) : T × K := (item.value, item.key)

/-- The items with the places at which they are listed. -/
def candidates (items : List (T × K)) : List (TopKItem T K) :=
  items.zipIdx.map fun ((value, key), ordinal) => ⟨key, ordinal, value⟩

lemma map_scored_candidates (items : List (T × K)) :
    (candidates items).map TopKItem.scored = items := by
  rw [candidates, List.map_map]
  exact List.zipIdx_map_fst 0 items

lemma length_candidates (items : List (T × K)) : (candidates items).length = items.length := by
  simp [candidates]

lemma ordinal_candidates (items : List (T × K)) :
    (candidates items).Pairwise fun a b => a.ordinal < b.ordinal := by
  have hsnd : (candidates items).map TopKItem.ordinal = List.range' 0 items.length := by
    rw [candidates, List.map_map, ← List.zipIdx_map_snd 0 items]
    rfl
  have hrange : (List.range' 0 items.length).Pairwise (· < ·) := List.pairwise_lt_range'
  rw [← hsnd, List.pairwise_map] at hrange
  exact hrange

variable [LinearOrder K]

/-- The order of the results: by descending key, then by ordinal. -/
def TopKItem.before (a b : TopKItem T K) : Bool :=
  b.key < a.key || (a.key = b.key && a.ordinal ≤ b.ordinal)

/-- The `BinaryHeap` of `Reverse` items has the least item at its top. -/
def topKByOrd (items : List (T × K)) (limit : Nat) : List (T × K) :=
  if limit = 0 then []
  else
    let heap := fill TopKItem.rank (fun smallest candidate => smallest.key < candidate.key) limit
      (candidates items)
    (heap.mergeSort TopKItem.before).map TopKItem.scored

/-- The same loop over `f32` scores. -/
def topKByScore (items : List (T × K)) (limit : Nat) : List (T × K) := topKByOrd items limit

/-- The same loop again, in `graph.rs`. -/
def topKScored (items : List (T × K)) (limit : Nat) : List (T × K) := topKByOrd items limit

/-- Items by descending score, of equal ones the first listed first. -/
def byScore (items : List (T × K)) : List (T × K) := items.mergeSort fun a b => b.2 ≤ a.2

/-- The score of the last item that has a place. -/
def cutoffScore (items : List (T × K)) (limit : Nat) : Option K :=
  (byScore items)[limit - 1]?.map Prod.snd

/-- As many of the items at the cutoff as there are better ones that come late can be left out at
the front of them as well as at the back: there are no such better items, or the values are the
same. -/
def TiesUndisturbed (items : List (T × K)) (limit : Nat) : Prop :=
  ∀ cutoff ∈ cutoffScore items limit,
    let tied := ties Prod.snd cutoff limit items
    let gone := late Prod.snd cutoff limit items
    tied.drop gone = tied.take (tied.length - gone)

variable {items : List (T × K)} {limit : Nat} {cutoff : K}

lemma ranked_candidates (items : List (T × K)) :
    Ranked TopKItem.rank TopKItem.key (candidates items) where
  lt_of_key_lt a b h := Prod.Lex.toLex_lt_toLex.mpr (.inl h)
  lt_of_first := by
    apply (ordinal_candidates items).imp
    intro a b h hkey
    exact Prod.Lex.toLex_lt_toLex.mpr (.inr ⟨hkey, h⟩)

/-! ### The order of the results -/

lemma TopKItem.before_iff {a b : TopKItem T K} :
    a.before b = true ↔ b.key < a.key ∨ a.key = b.key ∧ a.ordinal ≤ b.ordinal := by
  simp [TopKItem.before]

lemma TopKItem.before_trans (a b c : TopKItem T K) (hab : a.before b) (hbc : b.before c) :
    a.before c := by
  rw [before_iff] at hab hbc ⊢
  rcases hab with hab | ⟨hab, hord⟩
  · rcases hbc with hbc | ⟨hbc, -⟩
    · exact .inl (hbc.trans hab)
    · exact .inl (hbc ▸ hab)
  · rcases hbc with hbc | ⟨hbc, hord'⟩
    · exact .inl (hab ▸ hbc)
    · exact .inr ⟨hab.trans hbc, hord.trans hord'⟩

lemma TopKItem.before_total (a b : TopKItem T K) : (a.before b || b.before a) = true := by
  rw [Bool.or_eq_true, before_iff, before_iff]
  rcases lt_trichotomy a.key b.key with h | h | h
  · exact .inr (.inl h)
  · rcases le_total a.ordinal b.ordinal with hord | hord
    · exact .inl (.inr ⟨h, hord⟩)
    · exact .inr (.inr ⟨h.symm, hord⟩)
  · exact .inl (.inl h)

/-- Two ordered lists of the same candidates are the same. -/
lemma eq_of_perm_of_before {l m : List (TopKItem T K)} (hl : l.Subset (candidates items))
    (hperm : l.Perm m) (hbefore : l.Pairwise (TopKItem.before · ·))
    (hbefore' : m.Pairwise (TopKItem.before · ·)) : l = m := by
  apply List.Perm.eq_of_pairwise _ hbefore hbefore' hperm
  intro a b ha hb hab hba
  rw [TopKItem.before_iff] at hab hba
  have hord : a.ordinal = b.ordinal := by
    rcases hab with hab | ⟨hab, hord⟩
    · rcases hba with hba | ⟨hba, -⟩
      · exact absurd hba (lt_asymm hab)
      · exact absurd hab (hba ▸ lt_irrefl _)
    · rcases hba with hba | ⟨-, hord'⟩
      · exact absurd hba (hab ▸ lt_irrefl _)
      · exact le_antisymm hord hord'
  have hnodup : ((candidates items).map TopKItem.ordinal).Nodup :=
    List.pairwise_map.mpr ((ordinal_candidates items).imp fun h => h.ne)
  exact List.inj_on_of_nodup_map hnodup (hl ha) (hl (hperm.mem_iff.mpr hb)) hord

/-- The sort by score is stable: it is that of the candidates. -/
lemma map_scored_mergeSort (items : List (T × K)) :
    ((candidates items).mergeSort TopKItem.before).map TopKItem.scored = byScore items := by
  have hsort : (items.zipIdx.mergeSort (List.zipIdxLE fun a b => b.2 ≤ a.2)).map
      (fun ((value, key), ordinal) => (⟨key, ordinal, value⟩ : TopKItem T K)) =
      (candidates items).mergeSort TopKItem.before := by
    apply List.map_mergeSort
    rintro ⟨⟨value, key⟩, ordinal⟩ - ⟨⟨value', key'⟩, ordinal'⟩ -
    rcases lt_trichotomy key key' with h | h | h
    · simp [List.zipIdxLE, TopKItem.before, h.ne, h.not_ge, h.not_gt]
    · simp [List.zipIdxLE, TopKItem.before, h]
    · simp [List.zipIdxLE, TopKItem.before, h, h.le, h.not_ge]
  calc ((candidates items).mergeSort TopKItem.before).map TopKItem.scored
      = (items.zipIdx.mergeSort (List.zipIdxLE fun a b => b.2 ≤ a.2)).map Prod.fst := by
        rw [← hsort, List.map_map]
        rfl
    _ = byScore items := List.mergeSort_zipIdx

/-- All candidates in the order of the results. -/
def orderedItems (items : List (T × K)) : List (TopKItem T K) :=
  (candidates items).mergeSort TopKItem.before

lemma orderedItems_perm (items : List (T × K)) : (orderedItems items).Perm (candidates items) :=
  List.mergeSort_perm _ _

lemma pairwise_mergeSort_before (l : List (TopKItem T K)) :
    (l.mergeSort TopKItem.before).Pairwise (TopKItem.before · ·) :=
  List.pairwise_mergeSort TopKItem.before_trans TopKItem.before_total l

lemma pairwise_orderedItems (items : List (T × K)) :
    (orderedItems items).Pairwise (TopKItem.before · ·) :=
  pairwise_mergeSort_before _

lemma le_of_before {a b : TopKItem T K} (h : a.before b) : b.key ≤ a.key := by
  rcases TopKItem.before_iff.mp h with h | ⟨h, -⟩
  · exact h.le
  · exact h.ge

/-- Candidates with one key are in order as they are listed. -/
lemma pairwise_ties {l : List (TopKItem T K)} (hl : l.Sublist (candidates items))
    (hkey : ∀ a ∈ l, a.key = cutoff) : l.Pairwise (TopKItem.before · ·) := by
  apply List.Pairwise.imp_of_mem _ ((ordinal_candidates items).sublist hl)
  intro a b ha hb hord
  exact TopKItem.before_iff.mpr (.inr ⟨(hkey a ha).trans (hkey b hb).symm, hord.le⟩)

/-! ### The items at the cutoff -/

/-- The last item that has a place, with those before and those after it. -/
lemma exists_orderedItems_eq (h : cutoff ∈ cutoffScore items limit) :
    ∃ better item worse, orderedItems items = better ++ item :: worse ∧ better.length = limit - 1 ∧
      item.key = cutoff ∧ (∀ a ∈ better, cutoff ≤ a.key) ∧ ∀ a ∈ worse, a.key ≤ cutoff := by
  rw [cutoffScore, ← map_scored_mergeSort, ← orderedItems, List.getElem?_map, Option.map_map,
    Option.mem_def, Option.map_eq_some_iff] at h
  obtain ⟨item, hitem, hcutoff⟩ := h
  obtain ⟨hlt, hget⟩ := List.getElem?_eq_some_iff.mp hitem
  have hsplit : orderedItems items =
      (orderedItems items).take (limit - 1) ++ item :: (orderedItems items).drop (limit - 1 + 1) := by
    rw [← hget, ← List.drop_eq_getElem_cons hlt, List.take_append_drop]
  have hpairs := pairwise_orderedItems items
  rw [hsplit] at hpairs
  obtain ⟨-, hitem_pairs, hacross⟩ := List.pairwise_append.mp hpairs
  have hkey : item.key = cutoff := hcutoff
  refine ⟨_, item, _, hsplit, ?_, hkey, fun a ha => ?_, fun a ha => ?_⟩
  · rw [List.length_take, min_eq_left hlt.le]
  · rw [← hkey]
    exact le_of_before (hacross a ha item List.mem_cons_self)
  · rw [← hkey]
    exact le_of_before ((List.pairwise_cons.mp hitem_pairs).1 a ha)

/-- There are as many items that reach the cutoff as there are places. -/
lemma le_length_reached (h : cutoff ∈ cutoffScore items limit) :
    limit ≤ (reached TopKItem.key cutoff (candidates items)).length := by
  obtain ⟨better, item, worse, hsplit, hlength, hkey, hbetter, -⟩ := exists_orderedItems_eq h
  rw [reached, ← ((orderedItems_perm items).filter _).length_eq, hsplit, List.filter_append,
    List.filter_eq_self.mpr (by simpa using hbetter), List.filter_cons_of_pos (by simp [hkey]),
    List.length_append, List.length_cons]
  omega

/-- The better items do not take all places. -/
lemma length_above_lt (hlimit : 0 < limit) (h : cutoff ∈ cutoffScore items limit) :
    (above TopKItem.key cutoff (candidates items)).length < limit := by
  obtain ⟨better, item, worse, hsplit, hlength, hkey, -, hworse⟩ := exists_orderedItems_eq h
  have hle := List.length_filter_le (fun a : TopKItem T K => cutoff < a.key) better
  rw [above, ← ((orderedItems_perm items).filter _).length_eq, hsplit, List.filter_append,
    List.filter_cons_of_neg (by simp [hkey]),
    (List.filter_eq_nil_iff (l := worse)).mpr (by simpa using hworse), List.append_nil]
  omega

lemma perm_trisect (l : List (TopKItem T K)) (cutoff : K) :
    (l.filter (fun a => cutoff < a.key) ++ (l.filter (fun a => a.key = cutoff) ++
      l.filter fun a => a.key < cutoff)).Perm l := by
  have hrest : (l.filter (fun a => a.key = cutoff) ++ l.filter fun a => a.key < cutoff).Perm
      (l.filter fun a => !decide (cutoff < a.key)) := by
    have hsplit := List.filter_append_perm (fun a : TopKItem T K => a.key = cutoff)
      (l.filter fun a => !decide (cutoff < a.key))
    rw [List.filter_filter, List.filter_filter] at hsplit
    convert hsplit using 2
    · apply List.filter_congr
      intro a _
      by_cases h : a.key = cutoff <;> simp [h]
    · apply List.filter_congr
      intro a _
      rcases lt_trichotomy a.key cutoff with h | h | h
      · simp [h, h.ne, h.not_gt]
      · simp [h]
      · simp [h, h.not_gt]
  exact (hrest.append_left _).trans (List.filter_append_perm _ l)

/-- All candidates: the better ones, those at the cutoff as they are listed, and the rest. -/
lemma orderedItems_eq (items : List (T × K)) (cutoff : K) :
    orderedItems items = (orderedItems items).filter (fun a => cutoff < a.key) ++
      ((candidates items).filter (fun a => a.key = cutoff) ++
        (orderedItems items).filter fun a => a.key < cutoff) := by
  apply eq_of_perm_of_before (fun a ha => (orderedItems_perm items).mem_iff.mp ha) _
    (pairwise_orderedItems items)
  · have hties : ((candidates items).filter fun a => a.key = cutoff).Pairwise
        (TopKItem.before · ·) := by
      apply pairwise_ties List.filter_sublist
      intro a ha
      simpa using List.of_mem_filter ha
    refine List.pairwise_append.mpr ⟨(pairwise_orderedItems items).filter _,
      List.pairwise_append.mpr ⟨hties, (pairwise_orderedItems items).filter _, ?_⟩, ?_⟩
    · intro a ha b hb
      have hkey : a.key = cutoff := by simpa using List.of_mem_filter ha
      have hlt : b.key < cutoff := by simpa using List.of_mem_filter hb
      exact TopKItem.before_iff.mpr (.inl (hkey ▸ hlt))
    · intro a ha b hb
      have hlt : cutoff < a.key := by simpa using List.of_mem_filter ha
      apply TopKItem.before_iff.mpr
      rcases List.mem_append.mp hb with hb | hb
      · have hkey : b.key = cutoff := by simpa using List.of_mem_filter hb
        exact .inl (hkey ▸ hlt)
      · have hlt' : b.key < cutoff := by simpa using List.of_mem_filter hb
        exact .inl (hlt'.trans hlt)
  · apply (perm_trisect (orderedItems items) cutoff).symm.trans
    exact (((orderedItems_perm items).filter _).append_right _).append_left _

/-- The best `limit` items: the better ones, and as many at the cutoff as have a place. -/
lemma take_ordered (hlimit : limit ≠ 0) (h : cutoff ∈ cutoffScore items limit) :
    (orderedItems items).take limit = (orderedItems items).filter (fun a => cutoff < a.key) ++
      (ties TopKItem.key cutoff limit (candidates items)).take
        ((ties TopKItem.key cutoff limit (candidates items)).length -
          late TopKItem.key cutoff limit (candidates items)) := by
  have hfull := le_length_reached h
  have hlate := late_lt_length_ties hfull (length_above_lt (Nat.pos_of_ne_zero hlimit) h)
  have hlength := length_ties_add_above hfull
  have htied : (candidates items).filter (fun a => a.key = cutoff) =
      ties TopKItem.key cutoff limit (candidates items) ++
        ((reached TopKItem.key cutoff (candidates items)).drop limit).filter
          fun a => a.key = cutoff := by
    rw [ties, ← List.filter_append, List.take_append_drop, reached, List.filter_filter]
    apply List.filter_congr
    intro a _
    by_cases hkey : a.key = cutoff <;> simp [hkey]
  have habove : ((orderedItems items).filter fun a => cutoff < a.key).length =
      (above TopKItem.key cutoff (candidates items)).length :=
    ((orderedItems_perm items).filter _).length_eq
  have hplaces : limit - (above TopKItem.key cutoff (candidates items)).length =
      (ties TopKItem.key cutoff limit (candidates items)).length -
        late TopKItem.key cutoff limit (candidates items) := by omega
  conv_lhs => rw [orderedItems_eq items cutoff]
  rw [htied, List.take_append, habove, hplaces, List.take_of_length_le (by omega),
    List.append_assoc, List.take_append_of_le_length (Nat.sub_le _ _)]

/-! ### What is returned -/

/-- What the loop leaves in the heap, in the order of the results. -/
lemma mergeSort_fill (hlimit : limit ≠ 0) (h : cutoff ∈ cutoffScore items limit) :
    (fill TopKItem.rank (fun a b => a.key < b.key) limit (candidates items)).mergeSort
        TopKItem.before =
      (orderedItems items).filter (fun a => cutoff < a.key) ++
        (ties TopKItem.key cutoff limit (candidates items)).drop
          (late TopKItem.key cutoff limit (candidates items)) := by
  have hkept := fill_perm_kept (ranked_candidates items) (le_length_reached h)
    (length_above_lt (Nat.pos_of_ne_zero hlimit) h)
  have hsublist : ((ties TopKItem.key cutoff limit (candidates items)).drop
      (late TopKItem.key cutoff limit (candidates items))).Sublist (candidates items) :=
    (List.drop_sublist _ _).trans (List.filter_sublist.trans
      ((List.take_sublist _ _).trans List.filter_sublist))
  have hkey : ∀ a ∈ (ties TopKItem.key cutoff limit (candidates items)).drop
      (late TopKItem.key cutoff limit (candidates items)), a.key = cutoff := by
    intro a ha
    simpa using List.of_mem_filter (List.mem_of_mem_drop ha)
  have hperm := (List.mergeSort_perm (fill TopKItem.rank (fun a b => a.key < b.key) limit
    (candidates items)) TopKItem.before).trans hkept
  have hsubset : (fill TopKItem.rank (fun a b => a.key < b.key) limit (candidates items)).mergeSort
      TopKItem.before ⊆ candidates items := by
    intro a ha
    rcases List.mem_append.mp (hperm.mem_iff.mp ha) with ha | ha
    · exact hsublist.subset ha
    · exact List.mem_of_mem_filter ha
  apply eq_of_perm_of_before hsubset _ (pairwise_mergeSort_before _)
  · refine List.pairwise_append.mpr ⟨(pairwise_orderedItems items).filter _,
      pairwise_ties hsublist hkey, ?_⟩
    intro a ha b hb
    have hlt : cutoff < a.key := by simpa using List.of_mem_filter ha
    exact TopKItem.before_iff.mpr (.inl (hkey b hb ▸ hlt))
  · apply hperm.trans (List.perm_append_comm.trans _)
    exact ((orderedItems_perm items).symm.filter _).append_right _

lemma byScore_eq (items : List (T × K)) :
    byScore items = (orderedItems items).map TopKItem.scored := (map_scored_mergeSort items).symm

/-- Where there is a place for every item, they are all returned. -/
lemma topKByOrd_of_cutoff_none (hlimit : limit ≠ 0) (h : cutoffScore items limit = none) :
    topKByOrd items limit = (byScore items).take limit := by
  have hlength : items.length < limit := by
    rw [cutoffScore, Option.map_eq_none_iff, List.getElem?_eq_none_iff, byScore,
      List.length_mergeSort] at h
    omega
  have hperm : (fill TopKItem.rank (fun a b : TopKItem T K => a.key < b.key) limit
      (candidates items)).Perm (candidates items) := by
    apply fill_perm
    rw [length_candidates]
    exact hlength.le
  have hsorted := (List.mergeSort_perm (fill TopKItem.rank (fun a b => a.key < b.key) limit
    (candidates items)) TopKItem.before).trans hperm
  have heq := eq_of_perm_of_before (fun a ha => hsorted.mem_iff.mp ha)
    (hsorted.trans (orderedItems_perm items).symm) (pairwise_mergeSort_before _)
    (pairwise_orderedItems items)
  rw [topKByOrd, if_neg hlimit, List.take_of_length_le (by simp [byScore, hlength.le]), byScore_eq]
  exact congrArg _ heq

lemma topKByOrd_of_cutoff_some (hlimit : limit ≠ 0) (h : cutoff ∈ cutoffScore items limit) :
    topKByOrd items limit = (byScore items).take limit ↔
      (ties Prod.snd cutoff limit items).drop (late Prod.snd cutoff limit items) =
        (ties Prod.snd cutoff limit items).take
          ((ties Prod.snd cutoff limit items).length - late Prod.snd cutoff limit items) := by
  have hties : ties Prod.snd cutoff limit items =
      (ties TopKItem.key cutoff limit (candidates items)).map TopKItem.scored := by
    conv_lhs => rw [← map_scored_candidates items]
    exact ties_map
  have hlate : late Prod.snd cutoff limit items =
      late TopKItem.key cutoff limit (candidates items) := by
    conv_lhs => rw [← map_scored_candidates items]
    exact late_map
  have hreturned : topKByOrd items limit = ((fill TopKItem.rank (fun a b => a.key < b.key) limit
      (candidates items)).mergeSort TopKItem.before).map TopKItem.scored := if_neg hlimit
  rw [hreturned, mergeSort_fill hlimit h, byScore_eq, ← List.map_take, take_ordered hlimit h,
    List.map_append, List.map_append, List.append_cancel_left_eq, hties, hlate, List.map_drop,
    List.map_take, List.length_map]

/-- The results are of the items, in descending order, and no worse than what is left out. -/
lemma topKScored_spec (items : List (T × K)) (limit : Nat) :
    (topKScored items limit).Subperm items ∧
      (topKScored items limit).length = min items.length limit ∧
      (topKScored items limit).Pairwise (fun a b => b.2 ≤ a.2) ∧
      ∀ item ∈ items, item ∈ topKScored items limit ∨
        ∀ other ∈ topKScored items limit, item.2 ≤ other.2 := by
  by_cases hlimit : limit = 0
  · have hnil : topKScored items limit = [] := if_pos hlimit
    rw [hnil, hlimit]
    simp
  have heq : topKScored items limit = ((fill TopKItem.rank (fun a b => a.key < b.key) limit
      (candidates items)).mergeSort TopKItem.before).map TopKItem.scored := if_neg hlimit
  have hperm := List.mergeSort_perm (fill TopKItem.rank (fun a b => a.key < b.key) limit
    (candidates items)) TopKItem.before
  refine ⟨?_, ?_, ?_, ?_⟩
  · rw [heq]
    obtain ⟨kept, hkept, hsub⟩ := hperm.subperm.trans fill_subperm
    have hsub := hsub.map TopKItem.scored
    rw [map_scored_candidates] at hsub
    exact ⟨kept.map TopKItem.scored, hkept.map _, hsub⟩
  · rw [heq, List.length_map, hperm.length_eq, length_fill, length_candidates]
  · rw [heq, List.pairwise_map]
    exact (pairwise_mergeSort_before _).imp le_of_before
  · intro item hitem
    rw [← map_scored_candidates items] at hitem
    obtain ⟨candidate, hcandidate, rfl⟩ := List.mem_map.mp hitem
    rw [heq]
    rcases mem_fill_or_le (ranked_candidates items).lt_of_key_lt hcandidate with hmem | hle
    · exact .inl (List.mem_map_of_mem (hperm.mem_iff.mpr hmem))
    · right
      intro other hother
      obtain ⟨kept, hkept, rfl⟩ := List.mem_map.mp hother
      exact hle kept (hperm.mem_iff.mp hkept)

/-- Where the values are distinct, no better item may come late. -/
theorem tiesUndisturbed_iff_of_nodup (hlimit : limit ≠ 0) (h : (items.map Prod.fst).Nodup) :
    TiesUndisturbed items limit ↔
      ∀ cutoff ∈ cutoffScore items limit, late Prod.snd cutoff limit items = 0 := by
  apply forall₂_congr
  intro cutoff hcutoff
  set tied := ties Prod.snd cutoff limit items with htied
  set gone := late Prod.snd cutoff limit items with hgone
  constructor
  · intro hdrop
    have hkey : gone = late TopKItem.key cutoff limit (candidates items) := by
      conv_lhs => rw [hgone, ← map_scored_candidates items]
      exact late_map
    have hlength : tied.length =
        (ties TopKItem.key cutoff limit (candidates items)).length := by
      conv_lhs => rw [htied, ← map_scored_candidates items, ties_map, List.length_map]
      rfl
    have hlt : gone < tied.length := by
      rw [hkey, hlength]
      exact late_lt_length_ties (le_length_reached hcutoff)
        (length_above_lt (Nat.pos_of_ne_zero hlimit) hcutoff)
    have hsublist : tied.Sublist items :=
      List.filter_sublist.trans ((List.take_sublist _ _).trans List.filter_sublist)
    have hnodup : tied.Nodup := h.of_map.sublist hsublist
    have hfirst : tied[gone] = tied[0] := by
      have hget := congrArg (·[0]?) hdrop
      simpa [List.getElem?_take, List.getElem?_drop, Nat.sub_pos_of_lt hlt] using hget
    exact hnodup.getElem_inj_iff.mp hfirst
  · intro hzero
    simp [hzero]

theorem topK_eq_take_iff (items : List (T × K)) (limit : Nat) :
    (topKByScore items limit = (byScore items).take limit ∧
      topKByOrd items limit = (byScore items).take limit ∧
      topKScored items limit = (byScore items).take limit) ↔ TiesUndisturbed items limit := by
  have hone : topKByOrd items limit = (byScore items).take limit ↔ TiesUndisturbed items limit := by
    by_cases hlimit : limit = 0
    · subst hlimit
      simp [topKByOrd, TiesUndisturbed, ties]
    · cases hcutoff : cutoffScore items limit with
      | none => simp [TiesUndisturbed, hcutoff, topKByOrd_of_cutoff_none hlimit hcutoff]
      | some cutoff =>
        rw [topKByOrd_of_cutoff_some hlimit hcutoff]
        simp [TiesUndisturbed, hcutoff]
  rw [topKByScore, topKScored, and_self, and_self]
  exact hone

/-- The better item comes when both places are taken, and the first of the others gives way. -/
theorem not_topK_eq_take :
    ¬ (topKByScore [("a", 1), ("b", 1), ("c", 2)] 2 =
        (byScore [("a", 1), ("b", 1), ("c", 2)]).take 2 ∧
      topKByOrd [("a", 1), ("b", 1), ("c", 2)] 2 =
        (byScore [("a", 1), ("b", 1), ("c", 2)]).take 2 ∧
      topKScored [("a", 1), ("b", 1), ("c", 2)] 2 =
        (byScore [("a", 1), ("b", 1), ("c", 2)]).take 2) := by
  have hheap : fill TopKItem.rank (fun a b => a.key < b.key) 2
      (candidates [("a", 1), ("b", 1), ("c", 2)]) = [⟨1, 1, "b"⟩, ⟨2, 2, "c"⟩] := by decide
  have htop : topKByScore [("a", 1), ("b", 1), ("c", 2)] 2 = [("c", 2), ("b", 1)] := by
    simp [topKByScore, topKByOrd, hheap, TopKItem.before, TopKItem.scored, List.mergeSort,
      List.MergeSort.Internal.splitInTwo]
  have hsorted : byScore [("a", 1), ("b", 1), ("c", 2)] = [("c", 2), ("a", 1), ("b", 1)] := by
    simp [byScore, List.mergeSort, List.MergeSort.Internal.splitInTwo]
  rintro ⟨h, -, -⟩
  rw [htop, hsorted] at h
  exact absurd h (by decide)

end Jcode
