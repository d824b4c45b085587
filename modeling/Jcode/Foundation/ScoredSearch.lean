import Mathlib.Data.Finset.Card
import Mathlib.Data.Fintype.Basic
import Mathlib.Data.List.AList
import Mathlib.Order.Bounds.Defs

/-!
# Breadth-first searches with scores

Every node is visited once, in the order in which nodes are queued. A node that is visited offers
scores to other nodes. A score better than the one known is kept, and the node queued again.
-/

universe u v

namespace ScoredSearch

structure Entry (α : Type u) (K : Type v) where
  node : α
  score : K
  depth : Nat
  deriving DecidableEq

structure Search (α : Type u) (K : Type v) where
  visited : List α
  best : AList fun _ : α => K
  queue : List (Entry α K)

variable {α : Type u} {K : Type v} [DecidableEq α] [LinearOrder K]

/-- A score is taken if it is better than the known one, or than `floor`. -/
def Search.offer (floor : K) (depth : Nat) (state : Search α K) (target : α × K) : Search α K :=
  if target.1 ∉ state.visited ∧ (state.best.lookup target.1).getD floor < target.2 then
    { state with
      best := state.best.insert target.1 target.2
      queue := state.queue ++ [⟨target.1, target.2, depth⟩] }
  else state

/-- What an entry offers may depend on the visited nodes, of which it is the last. -/
abbrev Offers (α : Type u) (K : Type v) := List α → Entry α K → List (α × K)

variable (offers : Offers α K) (floor : K)

def Search.visit (state : Search α K) (entry : Entry α K) : Search α K :=
  let state := { state with visited := state.visited ++ [entry.node] }
  (offers state.visited entry).foldl (Search.offer floor (entry.depth + 1)) state

/-- The first entry is left out if its node was visited. -/
def Search.pop (state : Search α K) (entry : Entry α K) (rest : List (Entry α K)) : Search α K :=
  let state := { state with queue := rest }
  if entry.node ∈ state.visited then state else state.visit offers floor entry

/-! ### What offers do -/

section

variable {floor} {depth : Nat} {state state' state'' : Search α K} {l l' : List (α × K)}
  {node : α} {score : K}

/-- The offers of `l` at `depth` lead from `state` to `state'`. -/
structure Took (floor : K) (depth : Nat) (l : List (α × K)) (state state' : Search α K) : Prop where
  visited : state'.visited = state.visited
  queue : ∃ new, state'.queue = state.queue ++ new ∧
    ∀ entry ∈ new, entry.depth = depth ∧ (entry.node, entry.score) ∈ l ∧
      entry.node ∉ state.visited ∧ entry.node ∈ state'.best
  /-- A score that is known is an old one or was offered. -/
  source : ∀ node score, state'.best.lookup node = some score →
    state.best.lookup node = some score ∨ node ∉ state.visited ∧ (node, score) ∈ l
  kept : ∀ node score, state.best.lookup node = some score →
    ∃ score', score ≤ score' ∧ state'.best.lookup node = some score'
  taken : ∀ node score, (node, score) ∈ l → node ∉ state.visited → floor < score →
    ∃ score', score ≤ score' ∧ state'.best.lookup node = some score'
  known : ∀ node ∈ state'.best, node ∈ state.best ∨ ∃ entry ∈ state'.queue, entry.node = node

lemma Took.nil : Took floor depth [] state state where
  visited := rfl
  queue := ⟨[], by simp⟩
  source _ _ h := .inl h
  kept _ score h := ⟨score, le_refl score, h⟩
  taken _ _ h := nomatch h
  known _ h := .inl h

lemma Took.mem (h : Took floor depth l state state') (hnode : node ∈ state.best) :
    node ∈ state'.best := by
  rw [← AList.lookup_isSome, Option.isSome_iff_exists] at hnode ⊢
  obtain ⟨score, hscore⟩ := hnode
  obtain ⟨score', -, hscore'⟩ := h.kept node score hscore
  exact ⟨score', hscore'⟩

lemma Took.offer (target : α × K) :
    Took floor depth [target] state (state.offer floor depth target) := by
  unfold Search.offer
  split_ifs with h
  · obtain ⟨hvisited, hbetter⟩ := h
    refine ⟨rfl, ⟨[⟨target.1, target.2, depth⟩], rfl, ?_⟩, ?_, ?_, ?_, ?_⟩
    · intro entry hentry
      rw [List.mem_singleton] at hentry
      subst hentry
      exact ⟨rfl, List.mem_singleton_self _, hvisited, AList.mem_insert _ |>.mpr (.inl rfl)⟩
    · intro node score hscore
      by_cases hnode : node = target.1
      · subst hnode
        rw [AList.lookup_insert] at hscore
        cases hscore
        exact .inr ⟨hvisited, List.mem_singleton_self _⟩
      · rw [AList.lookup_insert_ne hnode] at hscore
        exact .inl hscore
    · intro node score hscore
      by_cases hnode : node = target.1
      · subst hnode
        rw [hscore, Option.getD_some] at hbetter
        exact ⟨target.2, le_of_lt hbetter, AList.lookup_insert _⟩
      · exact ⟨score, le_refl score, by rwa [AList.lookup_insert_ne hnode]⟩
    · intro node score hmem _ _
      cases List.mem_singleton.mp hmem
      exact ⟨score, le_refl score, AList.lookup_insert _⟩
    · intro node hnode
      rw [AList.mem_insert] at hnode
      rcases hnode with rfl | hnode
      · exact .inr ⟨_, List.mem_append_right _ (List.mem_singleton_self _), rfl⟩
      · exact .inl hnode
  · refine ⟨rfl, ⟨[], by simp⟩, fun _ _ h => .inl h, fun _ score h => ⟨score, le_refl score, h⟩,
      ?_, fun _ h => .inl h⟩
    intro node score hmem hvisited hfloor
    cases List.mem_singleton.mp hmem
    have hbetter : score ≤ (state.best.lookup node).getD floor := by
      by_contra hlt
      exact h ⟨hvisited, not_le.mp hlt⟩
    cases hlookup : state.best.lookup node with
    | none =>
      rw [hlookup, Option.getD_none] at hbetter
      exact absurd hfloor (not_lt.mpr hbetter)
    | some old =>
      rw [hlookup, Option.getD_some] at hbetter
      exact ⟨old, hbetter, rfl⟩

lemma Took.trans (h : Took floor depth l state state') (h' : Took floor depth l' state' state'') :
    Took floor depth (l ++ l') state state'' := by
  obtain ⟨new, hqueue, hnew⟩ := h.queue
  obtain ⟨new', hqueue', hnew'⟩ := h'.queue
  refine ⟨h'.visited.trans h.visited, ⟨new ++ new', ?_, ?_⟩, ?_, ?_, ?_, ?_⟩
  · rw [hqueue', hqueue, List.append_assoc]
  · intro entry hentry
    rcases List.mem_append.mp hentry with hentry | hentry
    · obtain ⟨hdepth, hoffer, hvisited, hbest⟩ := hnew entry hentry
      exact ⟨hdepth, List.mem_append_left _ hoffer, hvisited, h'.mem hbest⟩
    · obtain ⟨hdepth, hoffer, hvisited, hbest⟩ := hnew' entry hentry
      rw [h.visited] at hvisited
      exact ⟨hdepth, List.mem_append_right _ hoffer, hvisited, hbest⟩
  · intro node score hscore
    rcases h'.source node score hscore with hold | ⟨hvisited, hoffer⟩
    · rcases h.source node score hold with hold | ⟨hvisited, hoffer⟩
      · exact .inl hold
      · exact .inr ⟨hvisited, List.mem_append_left _ hoffer⟩
    · rw [h.visited] at hvisited
      exact .inr ⟨hvisited, List.mem_append_right _ hoffer⟩
  · intro node score hscore
    obtain ⟨score', hle, hscore'⟩ := h.kept node score hscore
    obtain ⟨score'', hle', hscore''⟩ := h'.kept node score' hscore'
    exact ⟨score'', hle.trans hle', hscore''⟩
  · intro node score hoffer hvisited hfloor
    rcases List.mem_append.mp hoffer with hoffer | hoffer
    · obtain ⟨score', hle, hscore'⟩ := h.taken node score hoffer hvisited hfloor
      obtain ⟨score'', hle', hscore''⟩ := h'.kept node score' hscore'
      exact ⟨score'', hle.trans hle', hscore''⟩
    · exact h'.taken node score hoffer (by rwa [h.visited]) hfloor
  · intro node hnode
    rcases h'.known node hnode with hold | hqueued
    · rcases h.known node hold with hold | ⟨entry, hentry, hnode⟩
      · exact .inl hold
      · exact .inr ⟨entry, by rw [hqueue']; exact List.mem_append_left _ hentry, hnode⟩
    · exact .inr hqueued

lemma Took.foldl (l : List (α × K)) (state : Search α K) :
    Took floor depth l state (l.foldl (Search.offer floor depth) state) := by
  induction l generalizing state with
  | nil => exact .nil
  | cons target l ih => exact (Took.offer target).trans (ih _)

end

/-! ### The loop -/

section

variable {offers floor} {state : Search α K} {entry : Entry α K} {rest : List (Entry α K)}

variable (offers floor) in
lemma Took.visit (state : Search α K) (entry : Entry α K) :
    Took floor (entry.depth + 1) (offers (state.visited ++ [entry.node]) entry)
      { state with visited := state.visited ++ [entry.node] } (state.visit offers floor entry) :=
  .foldl _ _

lemma visited_visit :
    (state.visit offers floor entry).visited = state.visited ++ [entry.node] :=
  (Took.visit offers floor state entry).visited

lemma Search.pop_of_mem (h : entry.node ∈ state.visited) :
    state.pop offers floor entry rest = { state with queue := rest } :=
  if_pos h

lemma Search.pop_of_notMem (h : entry.node ∉ state.visited) :
    state.pop offers floor entry rest =
      Search.visit offers floor { state with queue := rest } entry :=
  if_neg h

end

/-- Entries are popped until there are none. A node is visited once, so this ends. -/
def search [Fintype α] (state : Search α K) : Search α K :=
  match _h : state.queue with
  | [] => state
  | entry :: rest => search (state.pop offers floor entry rest)
termination_by ((Finset.univ.filter (· ∉ state.visited)).card, state.queue.length)
decreasing_by
  by_cases hmem : entry.node ∈ state.visited
  · simp only [Search.pop_of_mem hmem, _h]
    exact Prod.Lex.right _ (Nat.lt_succ_self _)
  · apply Prod.Lex.left
    rw [Search.pop_of_notMem hmem]
    apply Finset.card_lt_card
    rw [visited_visit]
    constructor
    · intro node hnode
      simp only [Finset.mem_filter, Finset.mem_univ, true_and, List.mem_append, not_or] at hnode ⊢
      exact hnode.1
    · intro hsubset
      have hnode := hsubset (Finset.mem_filter.mpr ⟨Finset.mem_univ entry.node, hmem⟩)
      simp at hnode

section

variable [Fintype α] {offers floor} {state : Search α K} {entry : Entry α K}
  {rest : List (Entry α K)}

lemma search_of_nil (h : state.queue = []) : search offers floor state = state := by
  rw [search]
  split
  · rfl
  · rename_i hcons
    rw [h] at hcons
    cases hcons

lemma search_of_cons (h : state.queue = entry :: rest) : search offers floor state =
    search offers floor (state.pop offers floor entry rest) := by
  rw [search]
  split
  · rename_i hnil
    rw [h] at hnil
    cases hnil
  · rename_i hcons
    rw [h] at hcons
    cases hcons
    rfl

/-- A node that offers nothing is visited, and that is all. -/
lemma search_of_quiet (h : state.queue = entry :: rest) (hnew : entry.node ∉ state.visited)
    (hquiet : offers (state.visited ++ [entry.node]) entry = []) :
    search offers floor state =
      search offers floor ⟨state.visited ++ [entry.node], state.best, rest⟩ := by
  rw [search_of_cons h, Search.pop_of_notMem hnew, Search.visit]
  simp only [hquiet, List.foldl_nil]

/-- What every pop keeps holds in the end, where the queue is empty. -/
lemma search_induction {P : Search α K → Prop}
    (hpop : ∀ state entry rest, state.queue = entry :: rest → P state →
      P (state.pop offers floor entry rest)) (h : P state) :
    P (search offers floor state) ∧ (search offers floor state).queue = [] := by
  induction state using search.induct offers floor with
  | case1 state hnil =>
    rw [search_of_nil hnil]
    exact ⟨h, hnil⟩
  | case2 state entry rest hcons ih =>
    rw [search_of_cons hcons]
    exact ih (hpop state entry rest hcons h)

end

/-! ### Paths and offers -/

variable (starts : List (α × K))

/-- The scores that a node may have after a number of hops. -/
inductive Path : Nat → α → K → Prop
  | start {node : α} {score : K} (h : (node, score) ∈ starts) : Path 0 node score
  | hop {n : Nat} {node target : α} {score score' : K} {visited : List α}
      (h : Path n node score) (hoffer : (target, score') ∈ offers visited ⟨node, score, n⟩) : Path (n + 1) target score'

/-- The node starts with the score, or a node visited before it has offered the score. -/
def Received (visits : List (Entry α K)) (node : α) (score : K) : Prop :=
  (node, score) ∈ starts ∨ ∃ front entry back, visits = front ++ entry :: back ∧
    node ∉ (front ++ [entry]).map Entry.node ∧
      (node, score) ∈ offers ((front ++ [entry]).map Entry.node) entry

section

variable {offers floor starts} {state : Search α K} {entry : Entry α K}
  {rest visits : List (Entry α K)} {node : α} {score : K} {n : Nat}

omit [LinearOrder K] [DecidableEq α] in
lemma received_nil : Received offers starts [] node score ↔ (node, score) ∈ starts := by
  constructor
  · rintro (h | ⟨front, entry, back, hvisits, -⟩)
    · exact h
    · simp at hvisits
  · exact .inl

omit [LinearOrder K] [DecidableEq α] in
/-- The last visit adds what it offers to nodes that are not visited. -/
lemma received_concat : Received offers starts (visits ++ [entry]) node score ↔
    Received offers starts visits node score ∨
      node ∉ (visits ++ [entry]).map Entry.node ∧
        (node, score) ∈ offers ((visits ++ [entry]).map Entry.node) entry := by
  constructor
  · rintro (h | ⟨front, entry', back, hvisits, hreceived⟩)
    · exact .inl (.inl h)
    · rcases List.eq_nil_or_concat back with rfl | ⟨back', last, rfl⟩
      · obtain ⟨rfl, hlast⟩ := List.append_inj' hvisits rfl
        cases hlast
        exact .inr hreceived
      · rw [List.concat_eq_append, ← List.cons_append, ← List.append_assoc] at hvisits
        obtain ⟨rfl, -⟩ := List.append_inj' hvisits rfl
        exact .inl (.inr ⟨front, entry', back', rfl, hreceived⟩)
  · rintro ((h | ⟨front, entry', back, rfl, hreceived⟩) | h)
    · exact .inl h
    · exact .inr ⟨front, entry', back ++ [entry], by simp, hreceived⟩
    · exact .inr ⟨visits, entry, [], rfl, h⟩

/-- The state of a search after the visits. -/
structure Explored (offers : Offers α K) (starts : List (α × K))
    (visits : List (Entry α K)) (state : Search α K) : Prop where
  visited : state.visited = visits.map Entry.node
  nodup : (visits.map Entry.node).Nodup
  paths : ∀ entry ∈ visits ++ state.queue,
    Path offers starts entry.depth entry.node entry.score
  best : ∀ node score, state.best.lookup node = some score →
    IsGreatest {s | Received offers starts visits node s} score
  known : ∀ node, node ∈ state.best ↔ ∃ entry ∈ visits ++ state.queue, entry.node = node
  received : ∀ node score, Received offers starts visits node score → node ∈ state.best
  sorted : (visits ++ state.queue).Pairwise fun a b => a.depth ≤ b.depth
  near : ∀ first ∈ state.queue.head?, ∀ entry ∈ state.queue, entry.depth ≤ first.depth + 1

namespace Explored

lemma notMem (h : Explored offers starts visits state) (hnode : node ∉ state.visited) :
    node ∉ visits.map Entry.node := by
  rwa [← h.visited]

/-- The entries behind the first are at its depth or one below. -/
lemma depth_rest (h : Explored offers starts visits state) (hqueue : state.queue = entry :: rest) :
    ∀ entry' ∈ rest, entry.depth ≤ entry'.depth ∧ entry'.depth ≤ entry.depth + 1 := by
  have hsorted := (List.pairwise_append.mp h.sorted).2.1
  have hnear := h.near entry (by rw [hqueue]; rfl)
  rw [hqueue] at hsorted hnear
  intro entry' hentry'
  exact ⟨(List.pairwise_cons.mp hsorted).1 entry' hentry',
    hnear entry' (List.mem_cons_of_mem _ hentry')⟩

/-- An entry whose node was visited is left out. -/
lemma skip (h : Explored offers starts visits state) (hqueue : state.queue = entry :: rest)
    (hmem : entry.node ∈ state.visited) :
    Explored offers starts visits { state with queue := rest } := by
  have hsub : (visits ++ rest).Sublist (visits ++ state.queue) := by
    rw [hqueue]
    exact (List.sublist_cons_self entry rest).append_left visits
  refine ⟨h.visited, h.nodup, fun entry' hmem' => h.paths entry' (hsub.subset hmem'), h.best, ?_,
    h.received, h.sorted.sublist hsub, ?_⟩
  swap
  · intro first hfirst entry' hentry'
    have hle := (h.depth_rest hqueue first (List.mem_of_mem_head? hfirst)).1
    exact (h.depth_rest hqueue entry' hentry').2.trans (Nat.succ_le_succ hle)
  intro node
  refine (h.known node).trans ⟨?_, ?_⟩
  · rintro ⟨entry', hentry, rfl⟩
    rw [hqueue] at hentry
    rcases List.mem_append.mp hentry with hvisit | hentry
    · exact ⟨entry', List.mem_append_left _ hvisit, rfl⟩
    · rcases List.mem_cons.mp hentry with rfl | hrest
      · rw [h.visited] at hmem
        obtain ⟨visit, hvisit, hnode⟩ := List.mem_map.mp hmem
        exact ⟨visit, List.mem_append_left _ hvisit, hnode⟩
      · exact ⟨entry', List.mem_append_right _ hrest, rfl⟩
  · rintro ⟨entry', hentry, hnode⟩
    exact ⟨entry', hsub.subset hentry, hnode⟩

/-- All entries are at most one hop deeper than the first of the queue. -/
lemma depth_le (h : Explored offers starts visits state) (hqueue : state.queue = entry :: rest) :
    ∀ entry' ∈ visits ++ state.queue, entry'.depth ≤ entry.depth + 1 := by
  intro entry' hentry'
  have hsorted := h.sorted
  rw [hqueue] at hentry' hsorted
  rcases List.mem_append.mp hentry' with hvisit | hqueued
  · have hle := (List.pairwise_append.mp hsorted).2.2 entry' hvisit entry List.mem_cons_self
    exact hle.trans (Nat.le_succ _)
  · rcases List.mem_cons.mp hqueued with rfl | hrest
    · exact Nat.le_succ _
    · exact (h.depth_rest hqueue entry' hrest).2

/-- A visited node was not visited deeper than the first entry of the queue. -/
lemma depth_visit_le (h : Explored offers starts visits state)
    (hqueue : state.queue = entry :: rest) : ∀ visit ∈ visits, visit.depth ≤ entry.depth := by
  intro visit hvisit
  have hsorted := h.sorted
  rw [hqueue] at hsorted
  exact (List.pairwise_append.mp hsorted).2.2 visit hvisit entry List.mem_cons_self

/-- A visit adds what it offers. -/
lemma took (h : Explored offers starts visits state) (hqueue : state.queue = entry :: rest)
    (hnew : entry.node ∉ state.visited)
    (hpos : ∀ offer ∈ offers (state.visited ++ [entry.node]) entry, floor < offer.2)
    (htook : Took floor (entry.depth + 1) (offers (state.visited ++ [entry.node]) entry)
      { state with visited := state.visited ++ [entry.node], queue := rest } state') :
    Explored offers starts (visits ++ [entry]) state' := by
  have hvisited : state.visited ++ [entry.node] = (visits ++ [entry]).map Entry.node := by
    rw [List.map_append, ← h.visited]
    rfl
  obtain ⟨new, hafter, hnewEntries⟩ := htook.queue
  have hentries : visits ++ [entry] ++ state'.queue = visits ++ state.queue ++ new := by
    rw [hafter, hqueue]
    simp
  refine ⟨htook.visited.trans hvisited, ?_, ?_, ?_, ?_, ?_, ?_, ?_⟩
  · rw [List.map_append]
    refine List.nodup_append.mpr ⟨h.nodup, List.nodup_singleton _, ?_⟩
    rintro a ha b hb rfl
    cases List.mem_singleton.mp hb
    exact h.notMem hnew ha
  · rw [hentries]
    intro entry' hentry'
    rcases List.mem_append.mp hentry' with hold | hnew'
    · exact h.paths entry' hold
    · obtain ⟨hdepth, hoffer, -⟩ := hnewEntries entry' hnew'
      have hentry := h.paths entry (by rw [hqueue]; simp)
      rw [hdepth]
      exact .hop hentry hoffer
  · intro node score hscore
    simp only [received_concat, ← hvisited]
    constructor
    · rcases htook.source node score hscore with hold | hoffer
      · exact .inl (h.best node score hold).1
      · exact .inr hoffer
    · rintro s (hold | ⟨hnode, hoffer⟩)
      · have hmem : node ∈ state.best := h.received node s hold
        rw [← AList.lookup_isSome, Option.isSome_iff_exists] at hmem
        obtain ⟨old, hlookup⟩ := hmem
        obtain ⟨score', hle, hscore'⟩ := htook.kept node old hlookup
        rw [hscore] at hscore'
        cases hscore'
        exact ((h.best node old hlookup).2 hold).trans hle
      · obtain ⟨score', hle, hscore'⟩ := htook.taken node s hoffer hnode (hpos _ hoffer)
        rw [hscore] at hscore'
        cases hscore'
        exact hle
  · intro node
    rw [hentries]
    constructor
    · intro hnode
      rcases htook.known node hnode with hold | ⟨entry', hentry', hnode'⟩
      · obtain ⟨entry', hentry', hnode'⟩ := (h.known node).mp hold
        exact ⟨entry', List.mem_append_left _ hentry', hnode'⟩
      · refine ⟨entry', ?_, hnode'⟩
        rw [← hentries]
        exact List.mem_append_right _ hentry'
    · rintro ⟨entry', hentry', rfl⟩
      rcases List.mem_append.mp hentry' with hold | hnew'
      · exact htook.mem ((h.known entry'.node).mpr ⟨entry', hold, rfl⟩)
      · exact (hnewEntries entry' hnew').2.2.2
  · intro node score hreceived
    rw [received_concat, ← hvisited] at hreceived
    rcases hreceived with hold | ⟨hnode, hoffer⟩
    · exact htook.mem (h.received node score hold)
    · obtain ⟨score', -, hscore'⟩ := htook.taken node score hoffer hnode (hpos _ hoffer)
      rw [← AList.lookup_isSome, hscore']
      rfl
  · rw [hentries]
    refine List.pairwise_append.mpr ⟨h.sorted, ?_, ?_⟩
    · rw [List.pairwise_iff_forall_sublist]
      intro a b hab
      rw [(hnewEntries a (hab.subset (by simp))).1, (hnewEntries b (hab.subset (by simp))).1]
    · intro a ha b hb
      rw [(hnewEntries b hb).1]
      exact h.depth_le hqueue a ha
  · have hdepth : ∀ entry' ∈ state'.queue,
        entry.depth ≤ entry'.depth ∧ entry'.depth ≤ entry.depth + 1 := by
      rw [hafter]
      intro entry' hentry'
      rcases List.mem_append.mp hentry' with hrest | hnew'
      · exact h.depth_rest hqueue entry' hrest
      · rw [(hnewEntries entry' hnew').1]
        exact ⟨Nat.le_succ _, le_refl _⟩
    intro first hfirst entry' hentry'
    have hle := (hdepth first (List.mem_of_mem_head? hfirst)).1
    exact (hdepth entry' hentry').2.trans (Nat.succ_le_succ hle)

end Explored

/-! ### Runs -/

/-- The search before its first visit. -/
def start (starts : List (α × K)) : Search α K where
  visited := []
  best := starts.foldl (fun best start => best.insert start.1 start.2) ∅
  queue := starts.map fun start => ⟨start.1, start.2, 0⟩

omit [LinearOrder K] in
lemma lookup_foldl_insert (hdistinct : (starts.map Prod.fst).Nodup) (best : AList fun _ : α => K) :
    (starts.foldl (fun best start => best.insert start.1 start.2) best).lookup node = some score ↔
      (node, score) ∈ starts ∨ node ∉ starts.map Prod.fst ∧ best.lookup node = some score := by
  induction starts generalizing best with
  | nil => simp
  | cons first starts ih =>
    obtain ⟨key, value⟩ := first
    rw [List.map_cons, List.nodup_cons] at hdistinct
    rw [List.foldl_cons, ih hdistinct.2]
    by_cases hnode : node = key
    · subst hnode
      have hnotMem : (node, score) ∉ starts := by
        intro hmem
        exact hdistinct.1 (List.mem_map.mpr ⟨(node, score), hmem, rfl⟩)
      simp [hnotMem, hdistinct.1, eq_comm]
    · simp [hnode, AList.lookup_insert_ne hnode]

lemma explored_start (hdistinct : (starts.map Prod.fst).Nodup) :
    Explored offers starts [] (start starts) := by
  have hlookup : ∀ node score, (start starts).best.lookup node = some score ↔
      (node, score) ∈ starts := by
    intro node score
    rw [start, lookup_foldl_insert hdistinct]
    simp
  refine ⟨rfl, List.nodup_nil, ?_, ?_, ?_, ?_, ?_, ?_⟩
  · intro entry hentry
    obtain ⟨start, hstart, rfl⟩ := List.mem_map.mp hentry
    exact .start hstart
  · intro node score hscore
    simp only [received_nil]
    refine ⟨(hlookup node score).mp hscore, ?_⟩
    intro s hs
    have heq := (hlookup node s).mpr hs
    rw [hscore] at heq
    cases heq
    exact le_refl _
  · intro node
    rw [← AList.lookup_isSome, Option.isSome_iff_exists]
    constructor
    · rintro ⟨score, hscore⟩
      exact ⟨⟨node, score, 0⟩, List.mem_map.mpr ⟨_, (hlookup node score).mp hscore, rfl⟩, rfl⟩
    · rintro ⟨entry, hentry, rfl⟩
      obtain ⟨first, hfirst, rfl⟩ := List.mem_map.mp hentry
      exact ⟨first.2, (hlookup first.1 first.2).mpr hfirst⟩
  · intro node score hreceived
    rw [received_nil] at hreceived
    rw [← AList.lookup_isSome, (hlookup node score).mpr hreceived]
    rfl
  · rw [List.nil_append, start, List.pairwise_map]
    exact List.pairwise_of_forall fun _ _ => le_refl 0
  · intro first hfirst entry hentry
    obtain ⟨start, -, rfl⟩ := List.mem_map.mp hentry
    exact Nat.zero_le _

/-- What is offered by an entry with a score above the floor is above it. -/
def KeepsAbove (offers : Offers α K) (floor : K) : Prop :=
  ∀ visited entry, floor < entry.score → ∀ offer ∈ offers visited entry, floor < offer.2

omit [DecidableEq α] in
lemma Path.floor_lt (hpos : KeepsAbove offers floor) (hstarts : ∀ start ∈ starts, floor < start.2)
    (h : Path offers starts n node score) : floor < score := by
  induction h with
  | start h => exact hstarts _ h
  | hop _ hoffer ih => exact hpos _ _ ih _ hoffer

end

/-! ### Nodes that are reached -/

/-- The node is some hops away from a start. -/
inductive Reaches (Hop : α → α → Prop) (starts : List (α × K)) : Nat → α → Prop
  | start {node : α} {score : K} (h : (node, score) ∈ starts) : Reaches Hop starts 0 node
  | hop {n : Nat} {node target : α} (h : Reaches Hop starts n node) (hhop : Hop node target) :
      Reaches Hop starts (n + 1) target

def Within (entries : List (Entry α K)) (node : α) (n : Nat) : Prop :=
  ∃ entry ∈ entries, entry.node = node ∧ entry.depth ≤ n

/-- The starts and all nodes one hop from a visited one are visited or queued. -/
structure Closed (Hop : α → α → Prop) (limit : Nat) (starts : List (α × K))
    (visits : List (Entry α K)) (state : Search α K) : Prop where
  starts : ∀ start ∈ starts, Within (visits ++ state.queue) start.1 0
  hops : ∀ visit ∈ visits, visit.depth < limit → ∀ node, Hop visit.node node →
    Within (visits ++ state.queue) node (visit.depth + 1)

/-- Up to the limit every node one hop away is offered something, if it is not visited. -/
def OffersAll (Hop : α → α → Prop) (limit : Nat) (offers : Offers α K) : Prop :=
  ∀ visited entry, entry.depth < limit → ∀ node, Hop entry.node node → node ∉ visited →
    ∃ score, (node, score) ∈ offers visited entry

section

variable {offers floor starts} {Hop : α → α → Prop} {limit n : Nat} {state state' : Search α K}
  {entry : Entry α K} {rest visits entries entries' : List (Entry α K)} {node : α} {score : K}

omit [DecidableEq α] [LinearOrder K] in
lemma Within.mono (h : Within entries node n) (hsubset : entries ⊆ entries') :
    Within entries' node n := by
  obtain ⟨entry, hentry, hnode⟩ := h
  exact ⟨entry, hsubset hentry, hnode⟩

/-- An entry whose node was visited is not missed. -/
lemma Explored.within_skip (h : Explored offers starts visits state)
    (hqueue : state.queue = entry :: rest) (hmem : entry.node ∈ state.visited)
    (hwithin : Within (visits ++ state.queue) node n) : Within (visits ++ rest) node n := by
  obtain ⟨entry', hentry', rfl, hdepth⟩ := hwithin
  rw [hqueue] at hentry'
  rcases List.mem_append.mp hentry' with hvisit | hqueued
  · exact ⟨entry', List.mem_append_left _ hvisit, rfl, hdepth⟩
  · rcases List.mem_cons.mp hqueued with rfl | hrest
    · rw [h.visited] at hmem
      obtain ⟨visit, hvisit, hnode⟩ := List.mem_map.mp hmem
      exact ⟨visit, List.mem_append_left _ hvisit, hnode,
        (h.depth_visit_le hqueue visit hvisit).trans hdepth⟩
    · exact ⟨entry', List.mem_append_right _ hrest, rfl, hdepth⟩

lemma Closed.skip (hclosed : Closed Hop limit starts visits state)
    (h : Explored offers starts visits state) (hqueue : state.queue = entry :: rest)
    (hmem : entry.node ∈ state.visited) :
    Closed Hop limit starts visits { state with queue := rest } where
  starts start hstart := h.within_skip hqueue hmem (hclosed.starts start hstart)
  hops visit hvisit hlimit node hhop :=
    h.within_skip hqueue hmem (hclosed.hops visit hvisit hlimit node hhop)

lemma Closed.took (hclosed : Closed Hop limit starts visits state) (hall : OffersAll Hop limit offers)
    (h : Explored offers starts visits state) (hqueue : state.queue = entry :: rest)
    (hafter : Explored offers starts (visits ++ [entry]) state')
    (hpos : ∀ offer ∈ offers (state.visited ++ [entry.node]) entry, floor < offer.2)
    (htook : Took floor (entry.depth + 1) (offers (state.visited ++ [entry.node]) entry)
      { state with visited := state.visited ++ [entry.node], queue := rest } state') :
    Closed Hop limit starts (visits ++ [entry]) state' := by
  obtain ⟨new, hnew, hnewEntries⟩ := htook.queue
  have hentries : visits ++ [entry] ++ state'.queue = visits ++ state.queue ++ new := by
    rw [hnew, hqueue]
    simp
  have hsubset : visits ++ state.queue ⊆ visits ++ [entry] ++ state'.queue := by
    rw [hentries]
    exact List.subset_append_left _ _
  refine ⟨fun start hstart => (hclosed.starts start hstart).mono hsubset, ?_⟩
  intro visit hvisit hlimit node hhop
  rcases List.mem_append.mp hvisit with hvisit | hvisit
  · exact (hclosed.hops visit hvisit hlimit node hhop).mono hsubset
  · cases List.mem_singleton.mp hvisit
    -- a node that was not visited before is known now, and no entry is deeper
    have hknown : ∃ entry' ∈ visits ++ [entry] ++ state'.queue, entry'.node = node := by
      by_cases hnode : node ∈ state.visited ++ [entry.node]
      · have hvisited : state'.visited = state.visited ++ [entry.node] := htook.visited
        rw [← hvisited, hafter.visited] at hnode
        obtain ⟨visit, hvisit, hnode⟩ := List.mem_map.mp hnode
        exact ⟨visit, List.mem_append_left _ hvisit, hnode⟩
      · obtain ⟨score, hoffer⟩ := hall _ entry hlimit node hhop hnode
        obtain ⟨score', -, hscore'⟩ := htook.taken node score hoffer hnode (hpos _ hoffer)
        rw [← hafter.known, ← AList.lookup_isSome, hscore']
        rfl
    obtain ⟨entry', hentry', hnode⟩ := hknown
    refine ⟨entry', hentry', hnode, ?_⟩
    rw [hentries] at hentry'
    rcases List.mem_append.mp hentry' with hold | hnew'
    · exact h.depth_le hqueue entry' hold
    · exact le_of_eq (hnewEntries entry' hnew').1

/-- A pop leaves a node out that was visited, or visits it. -/
lemma Explored.pop (h : Explored offers starts visits state) (hqueue : state.queue = entry :: rest)
    (hpos : KeepsAbove offers floor) (hstarts : ∀ start ∈ starts, floor < start.2) :
    ∃ visits', Explored offers starts visits' (state.pop offers floor entry rest) ∧
      (OffersAll Hop limit offers → Closed Hop limit starts visits state →
        Closed Hop limit starts visits' (state.pop offers floor entry rest)) := by
  by_cases hmem : entry.node ∈ state.visited
  · rw [Search.pop_of_mem hmem]
    exact ⟨visits, h.skip hqueue hmem, fun _ hclosed => hclosed.skip h hqueue hmem⟩
  · rw [Search.pop_of_notMem hmem]
    have hentry := h.paths entry (by rw [hqueue]; simp)
    have hoffers := hpos (state.visited ++ [entry.node]) entry (hentry.floor_lt hpos hstarts)
    have htook := Took.visit offers floor { state with queue := rest } entry
    have hafter := h.took hqueue hmem hoffers htook
    exact ⟨visits ++ [entry], hafter,
      fun hall hclosed => hclosed.took hall h hqueue hafter hoffers htook⟩

omit [LinearOrder K] in
lemma closed_start : Closed Hop limit starts [] (start starts) where
  starts first hfirst := ⟨⟨first.1, first.2, 0⟩, List.mem_map_of_mem hfirst, rfl, le_refl 0⟩
  hops _ hvisit := nomatch hvisit

/-- The visits of a search explain its state, and all hops of visited nodes are queued. -/
def Underway (Hop : α → α → Prop) (limit : Nat) (offers : Offers α K) (starts : List (α × K))
    (state : Search α K) : Prop :=
  ∃ visits, Explored offers starts visits state ∧
    (OffersAll Hop limit offers → Closed Hop limit starts visits state)

/-- All that a search does, from its starts to the empty queue. -/
theorem underway_search [Fintype α] (hdistinct : (starts.map Prod.fst).Nodup)
    (hpos : KeepsAbove offers floor) (hstarts : ∀ start ∈ starts, floor < start.2) :
    Underway Hop limit offers starts (search offers floor (start starts)) ∧
      (search offers floor (start starts)).queue = [] := by
  apply search_induction
  · rintro state entry rest hqueue ⟨visits, hexplored, hclosed⟩
    obtain ⟨visits', hexplored', hclosed'⟩ := hexplored.pop hqueue hpos hstarts
    exact ⟨visits', hexplored', fun hall => hclosed' hall (hclosed hall)⟩
  · exact ⟨[], explored_start hdistinct, fun _ => closed_start⟩

omit [DecidableEq α] [LinearOrder K] in
/-- Where the queue is empty, every node that is reached has been visited in time. -/
lemma Closed.within_of_reaches (hclosed : Closed Hop limit starts visits state)
    (hqueue : state.queue = []) (h : Reaches Hop starts n node) (hn : n ≤ limit) :
    Within visits node n := by
  obtain ⟨hstarts, hhops⟩ := hclosed
  simp only [hqueue, List.append_nil] at hstarts hhops
  induction h with
  | start h => exact hstarts _ h
  | hop h hhop ih =>
    obtain ⟨visit, hvisit, rfl, hdepth⟩ := ih (Nat.le_of_succ_le hn)
    obtain ⟨visit', hvisit', hnode, hdepth'⟩ :=
      hhops visit hvisit (Nat.lt_of_le_of_lt hdepth hn) _ hhop
    exact ⟨visit', hvisit', hnode, hdepth'.trans (Nat.succ_le_succ hdepth)⟩

/-- A score that is known is that of a path. -/
lemma Explored.path (h : Explored offers starts visits state)
    (hscore : state.best.lookup node = some score) : ∃ n, Path offers starts n node score := by
  rcases (h.best node score hscore).1 with hstart | ⟨front, entry, back, hvisits, -, hoffer⟩
  · exact ⟨0, .start hstart⟩
  · have hentry := h.paths entry (by rw [hvisits]; simp)
    exact ⟨entry.depth + 1, .hop hentry hoffer⟩

end

end ScoredSearch
