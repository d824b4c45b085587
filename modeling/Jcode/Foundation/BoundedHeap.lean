import Mathlib.Data.List.Sort
import Mathlib.Data.List.Induction
import Mathlib.Data.List.Perm.Basic

/-!
# A heap of bounded size

The heap of a loop that keeps no more than `limit` of the elements it is offered. A heap is the list
of its elements from the least on, so that the first is the one that is next to go; which elements
are worth another's place is left open.
-/

universe u v

namespace BoundedHeap

variable {α : Type u} {O : Type v} [LinearOrder O] (rank : α → O) (admits : α → α → Prop)
  [DecidableRel admits] (limit : Nat)

def push (heap : List α) (a : α) : List α := heap.orderedInsert (fun x y => rank x ≤ rank y) a

/-- Put an element into the heap: if there is room, or in the place of the least element. -/
def offer (heap : List α) (a : α) : List α :=
  if heap.length < limit then push rank heap a
  else
    match heap with
    | [] => []
    | least :: rest => if admits least a then push rank rest a else least :: rest

def fill (items : List α) : List α := items.foldl (offer rank admits limit) []

variable {rank admits limit} {heap items : List α} {a b least : α}

/-- From the least element on. -/
def InOrder (rank : α → O) (heap : List α) : Prop := heap.Pairwise fun x y => rank x ≤ rank y

lemma push_perm : (push rank heap a).Perm (a :: heap) := List.perm_orderedInsert _ _ _

lemma InOrder.push (h : InOrder rank heap) : InOrder rank (push rank heap a) := by
  have htrans : IsTrans α fun x y => rank x ≤ rank y := ⟨fun _ _ _ => le_trans⟩
  have htotal : Std.Total fun x y : α => rank x ≤ rank y := ⟨fun x y => le_total (rank x) (rank y)⟩
  exact List.Pairwise.orderedInsert a heap h

lemma offer_of_room (h : heap.length < limit) :
    offer rank admits limit heap a = push rank heap a := if_pos h

lemma offer_of_admits (h : limit ≤ (least :: heap).length) (ha : admits least a) :
    offer rank admits limit (least :: heap) a = push rank heap a := by
  rw [offer, if_neg (Nat.not_lt.mpr h)]
  exact if_pos ha

lemma offer_of_not_admits (h : limit ≤ (least :: heap).length) (ha : ¬ admits least a) :
    offer rank admits limit (least :: heap) a = least :: heap := by
  rw [offer, if_neg (Nat.not_lt.mpr h)]
  exact if_neg ha

/-- What an offer can do to a heap. -/
inductive Offered (rank : α → O) (admits : α → α → Prop) (limit : Nat) (a : α) :
    List α → List α → Prop
  | room {heap : List α} (hroom : heap.length < limit) :
      Offered rank admits limit a heap (push rank heap a)
  | none (hlimit : limit = 0) : Offered rank admits limit a [] []
  | replace {least : α} {heap : List α} (hfull : limit ≤ (least :: heap).length)
      (hadmits : admits least a) : Offered rank admits limit a (least :: heap) (push rank heap a)
  | keep {least : α} {heap : List α} (hfull : limit ≤ (least :: heap).length)
      (hadmits : ¬ admits least a) : Offered rank admits limit a (least :: heap) (least :: heap)

lemma Offered.of_offer {offered : List α} (h : offer rank admits limit heap a = offered) :
    Offered rank admits limit a heap offered := by
  subst h
  by_cases hroom : heap.length < limit
  · rw [offer_of_room hroom]
    exact .room hroom
  · have hfull := Nat.not_lt.mp hroom
    cases heap with
    | nil =>
      rw [offer, if_neg hroom]
      exact .none (Nat.le_zero.mp hfull)
    | cons least heap =>
      by_cases hadmits : admits least a
      · rw [offer_of_admits hfull hadmits]
        exact .replace hfull hadmits
      · rw [offer_of_not_admits hfull hadmits]
        exact .keep hfull hadmits

lemma InOrder.offer (h : InOrder rank heap) :
    InOrder rank (offer rank admits limit heap a) := by
  generalize hoffer : BoundedHeap.offer rank admits limit heap a = offered
  cases Offered.of_offer hoffer with
  | room => exact h.push
  | none => exact h
  | replace => exact InOrder.push (List.Pairwise.tail h)
  | keep => exact h

lemma length_offer (h : heap.length ≤ limit) :
    (offer rank admits limit heap a).length = min (heap.length + 1) limit := by
  generalize hoffer : offer rank admits limit heap a = offered
  cases Offered.of_offer hoffer with
  | room hroom =>
    rw [push_perm.length_eq, List.length_cons]
    omega
  | none hlimit => simp [hlimit]
  | replace hfull =>
    rw [push_perm.length_eq]
    simp only [List.length_cons] at hfull h ⊢
    omega
  | keep hfull => omega

@[simp] lemma fill_nil : fill rank admits limit [] = [] := rfl

lemma fill_concat :
    fill rank admits limit (items ++ [a]) =
      offer rank admits limit (fill rank admits limit items) a := by
  rw [fill, List.foldl_concat, ← fill]

lemma inOrder_fill : InOrder rank (fill rank admits limit items) := by
  induction items using List.reverseRecOn with
  | nil => exact .nil
  | append_singleton items a ih =>
    rw [fill_concat]
    exact ih.offer

lemma length_fill : (fill rank admits limit items).length = min items.length limit := by
  induction items using List.reverseRecOn with
  | nil => simp
  | append_singleton items a ih =>
    rw [fill_concat, length_offer (by omega), ih, List.length_append, List.length_singleton]
    omega

/-- As long as there is room everything is kept. -/
lemma fill_perm (h : items.length ≤ limit) : (fill rank admits limit items).Perm items := by
  induction items using List.reverseRecOn with
  | nil => exact .nil
  | append_singleton items a ih =>
    rw [List.length_append, List.length_singleton] at h
    have hroom : (fill rank admits limit items).length < limit := by
      rw [length_fill]
      omega
    rw [fill_concat, offer_of_room hroom]
    apply push_perm.trans
    exact ((ih (by omega)).cons a).trans (List.perm_append_singleton a items).symm

lemma subperm_offer : (offer rank admits limit heap a).Subperm (a :: heap) := by
  generalize hoffer : offer rank admits limit heap a = offered
  cases Offered.of_offer hoffer with
  | room => exact push_perm.subperm
  | none => exact List.nil_subperm
  | @replace least heap =>
    exact push_perm.subperm.trans ((List.subperm_cons a).mpr (List.sublist_cons_self _ _).subperm)
  | keep => exact (List.sublist_cons_self _ _).subperm

lemma fill_subperm : (fill rank admits limit items).Subperm items := by
  induction items using List.reverseRecOn with
  | nil => exact List.nil_subperm
  | append_singleton items a ih =>
    rw [fill_concat]
    apply subperm_offer.trans
    exact ((List.subperm_cons a).mpr ih).trans (List.perm_append_singleton a items).symm.subperm

/-! ### What is kept of the elements that reach a cutoff

Let an element be worth the place of another if its key is greater, and let the least element be one
of the least key, of several the one that came first. Then what is gone of the elements at the
cutoff, once `limit` elements reach it, are the first ones: one for every greater element that comes
late.
-/

variable {K : Type*} [LinearOrder K]

section

variable (key : α → K) (cutoff : K)

def reached (items : List α) : List α := items.filter fun a => cutoff ≤ key a

def above (items : List α) : List α := items.filter fun a => cutoff < key a

/-- The elements at the cutoff among the first `limit` that reach it. -/
def ties (limit : Nat) (items : List α) : List α :=
  ((reached key cutoff items).take limit).filter fun a => key a = cutoff

/-- How many greater elements come after the first `limit` that reach the cutoff. -/
def late (limit : Nat) (items : List α) : Nat :=
  ((reached key cutoff items).drop limit).countP fun a => cutoff < key a

def kept (limit : Nat) (items : List α) : List α :=
  (ties key cutoff limit items).drop (late key cutoff limit items) ++ above key cutoff items

end

variable {key : α → K} {cutoff : K}

lemma le_of_mem_reached (h : a ∈ reached key cutoff items) : cutoff ≤ key a := by
  simpa using List.of_mem_filter h

lemma eq_cutoff_iff (h : cutoff ≤ key a) : key a = cutoff ↔ ¬ cutoff < key a := by
  rw [not_lt]
  exact ⟨le_of_eq, fun hle => le_antisymm hle h⟩

lemma reached_concat_of_lt (h : key a < cutoff) :
    reached key cutoff (items ++ [a]) = reached key cutoff items := by
  simp [reached, h]

lemma reached_concat_of_le (h : cutoff ≤ key a) :
    reached key cutoff (items ++ [a]) = reached key cutoff items ++ [a] := by
  simp [reached, h]

lemma above_concat_of_le (h : key a ≤ cutoff) :
    above key cutoff (items ++ [a]) = above key cutoff items := by
  simp [above, h]

lemma above_concat_of_lt (h : cutoff < key a) :
    above key cutoff (items ++ [a]) = above key cutoff items ++ [a] := by
  simp [above, h]

lemma filter_reached : (reached key cutoff items).filter (fun a => cutoff < key a) =
    above key cutoff items := by
  rw [reached, List.filter_filter, above]
  apply List.filter_congr
  intro a _
  simpa using le_of_lt

/-- Where there is room all that reaches the cutoff is kept. -/
lemma kept_of_room (h : (reached key cutoff items).length ≤ limit) :
    (kept key cutoff limit items).Perm (reached key cutoff items) := by
  have hlate : late key cutoff limit items = 0 := by
    simp [late, List.drop_eq_nil_of_le h]
  have hties : ties key cutoff limit items =
      (reached key cutoff items).filter fun a => !decide (cutoff < key a) := by
    rw [ties, List.take_of_length_le h]
    apply List.filter_congr
    intro a ha
    rw [← decide_not]
    exact decide_eq_decide.mpr (eq_cutoff_iff (le_of_mem_reached ha))
  rw [kept, hlate, List.drop_zero, hties, ← filter_reached]
  exact List.perm_append_comm.trans (List.filter_append_perm _ _)

/-- After `limit` elements the ties stay as they are. -/
lemma ties_concat_of_full (h : limit ≤ (reached key cutoff items).length) :
    ties key cutoff limit (items ++ [a]) = ties key cutoff limit items := by
  rcases lt_or_ge (key a) cutoff with ha | ha
  · rw [ties, reached_concat_of_lt ha, ties]
  · rw [ties, reached_concat_of_le ha, List.take_append_of_le_length h, ties]

lemma late_concat_of_full (h : limit ≤ (reached key cutoff items).length) (ha : cutoff ≤ key a) :
    late key cutoff limit (items ++ [a]) =
      late key cutoff limit items + if cutoff < key a then 1 else 0 := by
  rw [late, reached_concat_of_le ha, List.drop_append_of_le_length h, List.countP_append, late]
  simp [List.countP_cons]

lemma length_ties_add_above (h : limit ≤ (reached key cutoff items).length) :
    (ties key cutoff limit items).length + (above key cutoff items).length =
      limit + late key cutoff limit items := by
  have hsplit : (above key cutoff items).length =
      ((reached key cutoff items).take limit).countP (fun a => cutoff < key a) +
        late key cutoff limit items := by
    rw [← filter_reached, ← List.countP_eq_length_filter, late, ← List.countP_append,
      List.take_append_drop]
  have htake : (ties key cutoff limit items).length +
      ((reached key cutoff items).take limit).countP (fun a => cutoff < key a) = limit := by
    have hlength := List.length_eq_countP_add_countP (fun a => decide (cutoff < key a))
      (l := (reached key cutoff items).take limit)
    have hties : (ties key cutoff limit items).length =
        ((reached key cutoff items).take limit).countP fun a => ¬ decide (cutoff < key a) := by
      rw [ties, ← List.countP_eq_length_filter]
      apply List.countP_congr
      intro a ha
      simp [eq_cutoff_iff (le_of_mem_reached (List.mem_of_mem_take ha))]
    rw [List.length_take, min_eq_left h] at hlength
    omega
  omega

lemma late_lt_length_ties (h : limit ≤ (reached key cutoff items).length)
    (habove : (above key cutoff items).length < limit) :
    late key cutoff limit items < (ties key cutoff limit items).length := by
  have hlength := length_ties_add_above h
  omega

lemma length_kept (h : limit ≤ (reached key cutoff items).length)
    (habove : (above key cutoff items).length < limit) :
    (kept key cutoff limit items).length = limit := by
  have hlength := length_ties_add_above h
  have hlate := late_lt_length_ties h habove
  rw [kept, List.length_append, List.length_drop]
  omega

/-! #### The steps of the loop -/

/-- How the elements are numbered: a greater key has a greater rank, and of two elements with one
key the first has the lesser rank. -/
structure Ranked (rank : α → O) (key : α → K) (items : List α) : Prop where
  lt_of_key_lt : ∀ a b, key a < key b → rank a < rank b
  lt_of_first : items.Pairwise fun a b => key a = key b → rank a < rank b

lemma Ranked.of_concat (h : Ranked rank key (items ++ [a])) : Ranked rank key items where
  lt_of_key_lt := h.lt_of_key_lt
  lt_of_first := (List.pairwise_append.mp h.lt_of_first).1

/-- The first of the ties that are left has the least rank of all that is kept. -/
lemma Ranked.lt_of_mem (h : Ranked rank key items) {rest : List α}
    (hdrop : (ties key cutoff limit items).drop (late key cutoff limit items) = a :: rest)
    (hb : b ∈ rest ++ above key cutoff items) : rank a < rank b := by
  have hsublist : (a :: rest).Sublist items := by
    rw [← hdrop]
    exact (List.drop_sublist _ _).trans (List.filter_sublist.trans
      ((List.take_sublist _ _).trans List.filter_sublist))
  have hmem : ∀ c ∈ a :: rest, key c = cutoff := by
    rw [← hdrop]
    intro c hc
    simpa using List.of_mem_filter (List.mem_of_mem_drop hc)
  have ha : key a = cutoff := hmem a List.mem_cons_self
  rcases List.mem_append.mp hb with hb | hb
  · have hpairs := List.pairwise_cons.mp (h.lt_of_first.sublist hsublist)
    exact hpairs.1 b hb (ha.trans (hmem b (List.mem_cons_of_mem a hb)).symm)
  · apply h.lt_of_key_lt
    rw [ha]
    simpa using List.of_mem_filter hb

/-- The least of the elements is the first of the heap. -/
lemma InOrder.eq_cons (h : InOrder rank heap) (hperm : heap.Perm (a :: items))
    (hlt : ∀ b ∈ items, rank a < rank b) : ∃ rest, heap = a :: rest ∧ rest.Perm items := by
  cases heap with
  | nil => exact absurd hperm.nil_eq (List.cons_ne_nil a items).symm
  | cons least rest =>
    have hleast : least = a := by
      rcases List.mem_cons.mp (hperm.mem_iff.mp List.mem_cons_self) with hleast | hleast
      · exact hleast
      · rcases List.mem_cons.mp (hperm.mem_iff.mpr List.mem_cons_self) with ha | ha
        · exact ha.symm
        · have hle : rank least ≤ rank a := (List.pairwise_cons.mp h).1 a ha
          exact absurd (hlt least hleast) (not_lt.mpr hle)
    subst hleast
    exact ⟨rest, rfl, hperm.cons_inv⟩

/-- An element below the cutoff takes no place from those that reach it. -/
lemma filter_offer_of_lt (ha : key a < cutoff) :
    ((offer rank (fun a b => key a < key b) limit heap a).filter fun a => cutoff ≤ key a).Perm
      (heap.filter fun a => cutoff ≤ key a) := by
  generalize hoffer : offer rank (fun a b => key a < key b) limit heap a = offered
  cases Offered.of_offer hoffer with
  | room =>
    apply (push_perm.filter _).trans
    simp [ha]
  | none => exact .refl _
  | replace _ hadmits =>
    apply (push_perm.filter _).trans
    simp [ha, hadmits.trans ha]
  | keep => exact .refl _

/-- While fewer than `limit` elements reach the cutoff, another one gets a place of its own or that
of an element below the cutoff. -/
lemma filter_offer_of_room (hmono : ∀ a b, key a < key b → rank a < rank b)
    (h : InOrder rank heap) (ha : cutoff ≤ key a)
    (hroom : (heap.filter fun a => cutoff ≤ key a).length < limit) :
    ((offer rank (fun a b => key a < key b) limit heap a).filter fun a => cutoff ≤ key a).Perm
      (a :: heap.filter fun a => cutoff ≤ key a) := by
  have hbelow {least : α} {rest : List α} (heap_eq : heap = least :: rest)
      (hfull : limit ≤ (least :: rest).length) : key least < cutoff := by
    by_contra hleast
    rw [not_lt] at hleast
    have hall : ∀ b ∈ least :: rest, cutoff ≤ key b := by
      intro b hb
      rcases List.mem_cons.mp hb with rfl | hb
      · exact hleast
      · by_contra hlt
        rw [heap_eq] at h
        have hle : rank least ≤ rank b := (List.pairwise_cons.mp h).1 b hb
        exact not_lt.mpr hle (hmono b least ((not_le.mp hlt).trans_le hleast))
    rw [heap_eq, List.filter_eq_self.mpr (by simpa using hall)] at hroom
    omega
  generalize hoffer : offer rank (fun a b => key a < key b) limit heap a = offered
  cases Offered.of_offer hoffer with
  | room =>
    apply (push_perm.filter _).trans
    simp [ha]
  | none hlimit => omega
  | replace hfull =>
    apply (push_perm.filter _).trans
    simp [ha, hbelow rfl hfull]
  | keep hfull hadmits => exact absurd ((hbelow rfl hfull).trans_le ha) hadmits

/-- Once `limit` elements reach the cutoff the heap holds no others, and the first of the ties that
are left is the next to go. -/
lemma exists_fill_eq (h : Ranked rank key items)
    (hfull : limit ≤ (reached key cutoff items).length)
    (habove : (above key cutoff items).length < limit)
    (hperm : ((fill rank (fun a b => key a < key b) limit items).filter
      fun a => cutoff ≤ key a).Perm (kept key cutoff limit items)) :
    ∃ least rest, fill rank (fun a b => key a < key b) limit items = least :: rest ∧
      limit ≤ (least :: rest).length ∧ key least = cutoff ∧ (∀ b ∈ rest, cutoff ≤ key b) ∧
      rest.Perm ((ties key cutoff limit items).drop (late key cutoff limit items + 1) ++
        above key cutoff items) := by
  set heap := fill rank (fun a b => key a < key b) limit items with hheap
  have hlength : (heap.filter fun a => cutoff ≤ key a).length = limit :=
    hperm.length_eq.trans (length_kept hfull habove)
  have hheap_le : heap.length ≤ limit := by
    rw [hheap, length_fill]
    exact min_le_right _ _
  have hall : (heap.filter fun a => cutoff ≤ key a) = heap := by
    apply List.filter_sublist.eq_of_length_le
    omega
  have hlate := late_lt_length_ties hfull habove
  have hdrop := List.drop_eq_getElem_cons hlate
  rw [hall, kept, hdrop, List.cons_append] at hperm
  obtain ⟨rest, hrest, hperm_rest⟩ := InOrder.eq_cons inOrder_fill hperm fun b hb =>
    h.lt_of_mem hdrop hb
  rw [← hheap] at hrest
  refine ⟨_, rest, hrest, ?_, ?_, ?_, hperm_rest⟩
  · rw [← hrest, ← hall, hlength]
  · simpa using List.of_mem_filter (List.getElem_mem hlate)
  · intro b hb
    have hmem : b ∈ heap.filter fun a => cutoff ≤ key a := by
      rw [hall, hrest]
      exact List.mem_cons_of_mem _ hb
    simpa using List.of_mem_filter hmem

/-- What reaches the cutoff of the heap is what is kept. -/
lemma filter_fill_perm (h : Ranked rank key items)
    (habove : (above key cutoff items).length < limit) :
    ((fill rank (fun a b => key a < key b) limit items).filter fun a => cutoff ≤ key a).Perm
      (kept key cutoff limit items) := by
  induction items using List.reverseRecOn with
  | nil => simp [kept, ties, above, reached]
  | append_singleton items a ih =>
    have hle : (above key cutoff items).length ≤ (above key cutoff (items ++ [a])).length := by
      simp [above]
    have hperm := ih h.of_concat (hle.trans_lt habove)
    rw [fill_concat]
    rcases lt_or_ge (key a) cutoff with ha | ha
    · apply (filter_offer_of_lt ha).trans
      rwa [kept, ties, late, reached_concat_of_lt ha, above_concat_of_le ha.le, ← ties, ← late,
        ← kept]
    · rcases lt_or_ge (reached key cutoff items).length limit with hroom | hfull
      · have hreached := kept_of_room hroom.le
        apply (filter_offer_of_room h.lt_of_key_lt inOrder_fill ha
          (by rw [hperm.length_eq, hreached.length_eq]; exact hroom)).trans
        apply ((hperm.trans hreached).cons a).trans
        apply ((List.perm_append_singleton a _).symm).trans
        rw [← reached_concat_of_le ha]
        refine (kept_of_room ?_).symm
        rw [reached_concat_of_le ha, List.length_append, List.length_singleton]
        exact hroom
      · obtain ⟨least, rest, heq, hlimit, hleast, hrest, hrest_perm⟩ :=
          exists_fill_eq h.of_concat hfull (hle.trans_lt habove) hperm
        rw [heq] at hperm ⊢
        rcases ha.eq_or_lt with ha | ha
        · rw [offer_of_not_admits hlimit (by rw [hleast, ← ha]; exact lt_irrefl _)]
          apply hperm.trans
          rw [kept, kept, ties_concat_of_full hfull, late_concat_of_full hfull ha.le,
            above_concat_of_le ha.ge, if_neg (by rw [← ha]; exact lt_irrefl _), Nat.add_zero]
        · rw [offer_of_admits hlimit (by rwa [hleast])]
          apply (push_perm.filter _).trans
          rw [List.filter_cons_of_pos (by simpa using ha.le),
            List.filter_eq_self.mpr (by simpa using hrest), kept, ties_concat_of_full hfull,
            late_concat_of_full hfull ha.le, above_concat_of_lt ha, if_pos ha, ← List.append_assoc]
          exact (hrest_perm.cons a).trans (List.perm_append_singleton a _).symm

/-- What is left in the heap in the end. -/
theorem fill_perm_kept (h : Ranked rank key items)
    (hfull : limit ≤ (reached key cutoff items).length)
    (habove : (above key cutoff items).length < limit) :
    (fill rank (fun a b => key a < key b) limit items).Perm (kept key cutoff limit items) := by
  have hperm := filter_fill_perm h habove
  obtain ⟨least, rest, heq, -, hleast, hrest, -⟩ := exists_fill_eq h hfull habove hperm
  have hall : ∀ b ∈ least :: rest, cutoff ≤ key b := by
    intro b hb
    rcases List.mem_cons.mp hb with rfl | hb
    · exact hleast.ge
    · exact hrest b hb
  rw [heq] at hperm ⊢
  rwa [List.filter_eq_self.mpr (by simpa using hall)] at hperm

lemma InOrder.key_le (hmono : ∀ a b, key a < key b → rank a < rank b)
    (h : InOrder rank (least :: heap)) : ∀ b ∈ least :: heap, key least ≤ key b := by
  intro b hb
  rcases List.mem_cons.mp hb with rfl | hb
  · exact le_refl _
  · have hrank := (List.pairwise_cons.mp h).1 b hb
    exact not_lt.mp fun hlt => absurd (hmono b least hlt) (not_lt.mpr hrank)

/-- What is gone is no better than what is kept. -/
lemma mem_fill_or_le (hmono : ∀ a b, key a < key b → rank a < rank b) (ha : a ∈ items) :
    a ∈ fill rank (fun a b => key a < key b) limit items ∨
      ∀ b ∈ fill rank (fun a b => key a < key b) limit items, key a ≤ key b := by
  induction items using List.reverseRecOn with
  | nil => cases ha
  | append_singleton items c ih =>
    by_cases hroom : (items ++ [c]).length ≤ limit
    · exact .inl ((fill_perm hroom).mem_iff.mpr ha)
    rw [List.mem_append, List.mem_singleton] at ha
    rw [List.length_append, List.length_singleton] at hroom
    have horder : InOrder rank (fill rank (fun a b => key a < key b) limit items) := inOrder_fill
    have hlength : (fill rank (fun a b => key a < key b) limit items).length = limit := by
      rw [length_fill]
      omega
    rw [fill_concat]
    generalize fill rank (fun a b => key a < key b) limit items = heap at ih horder hlength
    generalize hoffer : offer rank (fun a b => key a < key b) limit heap c = offered
    cases Offered.of_offer hoffer with
    | room hlt => exact absurd hlength hlt.ne
    | none => exact .inr fun _ hb => nomatch hb
    | @replace least heap _ hbetter =>
      have hleast := horder.key_le hmono
      rcases ha with ha | rfl
      · rcases ih ha with hmem | hle
        · rcases List.mem_cons.mp hmem with rfl | hmem
          · right
            intro b hb
            rcases List.mem_cons.mp (push_perm.mem_iff.mp hb) with rfl | hb
            · exact hbetter.le
            · exact hleast b (List.mem_cons_of_mem _ hb)
          · exact .inl (push_perm.mem_iff.mpr (List.mem_cons_of_mem _ hmem))
        · right
          intro b hb
          rcases List.mem_cons.mp (push_perm.mem_iff.mp hb) with rfl | hb
          · exact (hle least List.mem_cons_self).trans hbetter.le
          · exact hle b (List.mem_cons_of_mem _ hb)
      · exact .inl (push_perm.mem_iff.mpr List.mem_cons_self)
    | @keep least heap _ hworse =>
      rcases ha with ha | rfl
      · exact ih ha
      · right
        intro b hb
        exact (not_lt.mp hworse).trans (horder.key_le hmono b hb)

/-! #### Mapped elements -/

variable {β : Type*} {f : α → β} {key' : β → K}

lemma reached_map : reached key' cutoff (items.map f) =
    (reached (key' ∘ f) cutoff items).map f := by
  simp [reached, List.filter_map, Function.comp_def]

lemma ties_map : ties key' cutoff limit (items.map f) =
    (ties (key' ∘ f) cutoff limit items).map f := by
  simp [ties, reached_map, List.filter_map, ← List.map_take, Function.comp_def]

lemma late_map : late key' cutoff limit (items.map f) = late (key' ∘ f) cutoff limit items := by
  simp [late, reached_map, List.countP_map, ← List.map_drop, Function.comp_def]

end BoundedHeap
