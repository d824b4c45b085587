import Mathlib.Data.List.Infix
import Mathlib.Data.List.TakeDrop

/-!
# Regular expressions with backtracking

A regular expression over classes of single elements, and the matches that a backtracking search
tries, from the preferred one on. The first of them is the match. What may be repeated is a class.
-/

universe u

/-- `many` repeats a class at least `least` times, as often as possible or as seldom. `behind p`
matches the empty list at the start and behind the elements of `p`. -/
inductive Regex (α : Type u) where
  | empty
  | text (l : List α)
  | one (p : α → Bool)
  | many (greedy : Bool) (least : Nat) (p : α → Bool)
  | seq (r s : Regex α)
  | either (r s : Regex α)
  | group (name : String) (r : Regex α)
  | behind (p : α → Bool)
  | atEnd

namespace Regex

variable {α : Type u}

def atStart : Regex α := behind fun _ => false

/-- What was matched, what comes behind it, and the groups. -/
structure Hit (α : Type u) where
  matched : List α
  rest : List α
  groups : List (String × List α)

/-- The lengths that a repetition of a class tries on a run of it. -/
def lengths (greedy : Bool) (least run : Nat) : List Nat :=
  let ascending := (List.range (run + 1)).filter (least ≤ ·)
  if greedy then ascending.reverse else ascending

/-- All matches at a place behind `prev`, the preferred one first. -/
def runs [DecidableEq α] : Regex α → Option α → List α → List (Hit α)
  | empty, _, input => [⟨[], input, []⟩]
  | text l, _, input => if l <+: input then [⟨l, input.drop l.length, []⟩] else []
  | one _, _, [] => []
  | one p, _, a :: rest => if p a then [⟨[a], rest, []⟩] else []
  | many greedy least p, _, input =>
    (lengths greedy least (input.takeWhile p).length).map fun n =>
      ⟨input.take n, input.drop n, []⟩
  | seq r s, prev, input =>
    (r.runs prev input).flatMap fun hit =>
      (s.runs (hit.matched.getLast?.or prev) hit.rest).map fun next =>
        ⟨hit.matched ++ next.matched, next.rest, hit.groups ++ next.groups⟩
  | either r s, prev, input => r.runs prev input ++ s.runs prev input
  | group name r, prev, input =>
    (r.runs prev input).map fun hit => { hit with groups := (name, hit.matched) :: hit.groups }
  | behind p, prev, input => if prev.all p then [⟨[], input, []⟩] else []
  | atEnd, _, input => if input = [] then [⟨[], [], []⟩] else []

/-! ### The matches of an expression -/

/-- The expression matches `m` behind `prev` and before `rest`, with the groups. -/
inductive Matches :
    Regex α → Option α → List α → List α → List (String × List α) → Prop
  | empty {prev : Option α} {rest : List α} : Matches empty prev [] rest []
  | text {l : List α} {prev : Option α} {rest : List α} : Matches (text l) prev l rest []
  | one {p : α → Bool} {prev : Option α} {a : α} {rest : List α} (h : p a) :
      Matches (one p) prev [a] rest []
  | many {greedy : Bool} {least : Nat} {p : α → Bool} {prev : Option α} {m rest : List α}
      (hleast : least ≤ m.length) (hall : ∀ a ∈ m, p a) :
      Matches (many greedy least p) prev m rest []
  | seq {r s : Regex α} {prev : Option α} {m m' rest : List α}
      {groups groups' : List (String × List α)} (hr : Matches r prev m (m' ++ rest) groups)
      (hs : Matches s (m.getLast?.or prev) m' rest groups') :
      Matches (seq r s) prev (m ++ m') rest (groups ++ groups')
  | left {r s : Regex α} {prev : Option α} {m rest : List α} {groups : List (String × List α)}
      (h : Matches r prev m rest groups) : Matches (either r s) prev m rest groups
  | right {r s : Regex α} {prev : Option α} {m rest : List α} {groups : List (String × List α)}
      (h : Matches s prev m rest groups) : Matches (either r s) prev m rest groups
  | group {name : String} {r : Regex α} {prev : Option α} {m rest : List α}
      {groups : List (String × List α)} (h : Matches r prev m rest groups) :
      Matches (group name r) prev m rest ((name, m) :: groups)
  | behind {p : α → Bool} {prev : Option α} {rest : List α} (h : prev.all p) :
      Matches (behind p) prev [] rest []
  | atEnd {prev : Option α} : Matches atEnd prev [] [] []

section

variable {greedy : Bool} {least run n : Nat} {p : α → Bool} {r s : Regex α} {prev : Option α}
  {l m rest input : List α} {name : String} {g groups : List (String × List α)}

/-! ### Groups -/

lemma Matches.group_subset (h : Matches r prev m rest groups) {x : List α}
    (hx : (name, x) ∈ groups) : x ⊆ m := by
  induction h with
  | empty | text | one | many | behind | atEnd => cases hx
  | seq _ _ ihr ihs =>
    rcases List.mem_append.mp hx with hx | hx
    · exact List.subset_append_of_subset_left _ (ihr hx)
    · exact List.subset_append_of_subset_right _ (ihs hx)
  | left _ ih => exact ih hx
  | right _ ih => exact ih hx
  | group _ ih =>
    rcases List.mem_cons.mp hx with heq | hx
    · cases heq
      exact List.Subset.refl _
    · exact ih hx

/-! ### Sequences -/

lemma matches_seq_text : Matches (seq (text l) s) prev m rest g ↔
    ∃ m', m = l ++ m' ∧ Matches s (l.getLast?.or prev) m' rest g := by
  constructor
  · intro h
    cases h with
    | seq hr hs =>
      cases hr
      exact ⟨_, rfl, hs⟩
  · rintro ⟨m', rfl, hs⟩
    exact .seq .text hs

lemma matches_seq_many : Matches (seq (many greedy least p) s) prev m rest g ↔
    ∃ x m', m = x ++ m' ∧ least ≤ x.length ∧ (∀ a ∈ x, p a) ∧
      Matches s (x.getLast?.or prev) m' rest g := by
  constructor
  · intro h
    cases h with
    | seq hr hs =>
      cases hr with
      | many hleast hall => exact ⟨_, _, rfl, hleast, hall, hs⟩
  · rintro ⟨x, m', rfl, hleast, hall, hs⟩
    exact .seq (.many hleast hall) hs

lemma matches_seq_group : Matches (seq (group name r) s) prev m rest g ↔
    ∃ x m' inner g', m = x ++ m' ∧ g = (name, x) :: (inner ++ g') ∧
      Matches r prev x (m' ++ rest) inner ∧ Matches s (x.getLast?.or prev) m' rest g' := by
  constructor
  · intro h
    cases h with
    | seq hr hs =>
      cases hr with
      | group hr => exact ⟨_, _, _, _, rfl, rfl, hr, hs⟩
  · rintro ⟨x, m', inner, g', rfl, rfl, hr, hs⟩
    exact .seq (.group hr) hs

lemma matches_many : Matches (many greedy least p) prev m rest g ↔
    least ≤ m.length ∧ (∀ a ∈ m, p a) ∧ g = [] := by
  constructor
  · intro h
    cases h with
    | many hleast hall => exact ⟨hleast, hall, rfl⟩
  · rintro ⟨hleast, hall, rfl⟩
    exact .many hleast hall

lemma matches_seq_behind : Matches (seq (behind p) s) prev m rest g ↔
    prev.all p ∧ Matches s prev m rest g := by
  constructor
  · intro h
    cases h with
    | seq hr hs =>
      cases hr with
      | behind h => exact ⟨h, hs⟩
  · rintro ⟨h, hs⟩
    exact .seq (.behind h) hs

lemma matches_atEnd : Matches atEnd prev m rest g ↔ m = [] ∧ rest = [] ∧ g = [] := by
  constructor
  · intro h
    cases h
    exact ⟨rfl, rfl, rfl⟩
  · rintro ⟨rfl, rfl, rfl⟩
    exact .atEnd

/-! ### What the search tries -/

lemma mem_lengths : n ∈ lengths greedy least run ↔ least ≤ n ∧ n ≤ run := by
  unfold lengths
  cases greedy <;> simp [Nat.lt_succ_iff, and_comm]

/-- The first elements are all of a class if there are no more of them than the run is long. -/
lemma le_length_takeWhile (h : n ≤ input.length) :
    n ≤ (input.takeWhile p).length ↔ ∀ a ∈ input.take n, p a := by
  induction input generalizing n with
  | nil => simp_all
  | cons a input ih =>
    cases n with
    | zero => simp
    | succ n =>
      rw [List.length_cons, Nat.succ_le_succ_iff] at h
      by_cases ha : p a
      · simp [ha, ih h]
      · simp [ha]

variable [DecidableEq α]

/-- The search tries the matches of an expression and nothing else. -/
theorem mem_runs {hit : Hit α} : hit ∈ r.runs prev input ↔
    input = hit.matched ++ hit.rest ∧ Matches r prev hit.matched hit.rest hit.groups := by
  induction r generalizing prev input hit with
  | empty =>
    obtain ⟨m, rest, groups⟩ := hit
    simp only [runs, List.mem_singleton, Hit.mk.injEq]
    constructor
    · rintro ⟨rfl, rfl, rfl⟩
      exact ⟨rfl, .empty⟩
    · rintro ⟨rfl, h⟩
      cases h
      exact ⟨rfl, rfl, rfl⟩
  | text l =>
    obtain ⟨m, rest, groups⟩ := hit
    simp only [runs]
    constructor
    · intro h
      split_ifs at h with hprefix
      · cases List.mem_singleton.mp h
        exact ⟨(List.prefix_iff_eq_append.mp hprefix).symm, .text⟩
      · cases h
    · rintro ⟨rfl, h⟩
      cases h
      simp
  | one p =>
    obtain ⟨m, rest, groups⟩ := hit
    constructor
    · intro h
      cases input with
      | nil => cases h
      | cons a input =>
        simp only [runs] at h
        split_ifs at h with ha
        · cases List.mem_singleton.mp h
          exact ⟨rfl, .one ha⟩
        · cases h
    · rintro ⟨rfl, h⟩
      cases h with
      | one h => simp [runs, h]
  | many greedy least p =>
    obtain ⟨m, rest, groups⟩ := hit
    simp only [runs, List.mem_map, mem_lengths, Hit.mk.injEq]
    constructor
    · rintro ⟨n, ⟨hleast, hrun⟩, rfl, rfl, rfl⟩
      have hlength : n ≤ input.length := hrun.trans (List.takeWhile_sublist p).length_le
      refine ⟨(List.take_append_drop n input).symm, .many ?_ ?_⟩
      · rwa [List.length_take_of_le hlength]
      · exact (le_length_takeWhile hlength).mp hrun
    · rintro ⟨rfl, h⟩
      cases h with
      | many hleast hall =>
        refine ⟨m.length, ⟨hleast, ?_⟩, List.take_left, List.drop_left, rfl⟩
        rw [le_length_takeWhile (by simp), List.take_left]
        exact hall
  | seq r s ihr ihs =>
    simp only [runs, List.mem_flatMap, List.mem_map]
    constructor
    · rintro ⟨first, hfirst, next, hnext, rfl⟩
      obtain ⟨rfl, hr⟩ := ihr.mp hfirst
      obtain ⟨hrest, hs⟩ := ihs.mp hnext
      refine ⟨by rw [hrest, List.append_assoc], ?_⟩
      rw [hrest] at hr
      exact .seq hr hs
    · rintro ⟨rfl, h⟩
      obtain ⟨matched, rest, groups⟩ := hit
      cases h with
      | @seq _ _ _ m m' _ groups groups' hr hs =>
        refine ⟨⟨m, m' ++ rest, groups⟩, ihr.mpr ⟨?_, hr⟩, ⟨m', rest, groups'⟩,
          ihs.mpr ⟨rfl, hs⟩, rfl⟩
        exact List.append_assoc m m' rest
  | either r s ihr ihs =>
    simp only [runs, List.mem_append, ihr, ihs, ← and_or_left]
    apply and_congr_right
    rintro -
    constructor
    · rintro (h | h)
      · exact .left h
      · exact .right h
    · intro h
      cases h with
      | left h => exact .inl h
      | right h => exact .inr h
  | group name r ih =>
    simp only [runs, List.mem_map]
    constructor
    · rintro ⟨first, hfirst, rfl⟩
      obtain ⟨rfl, h⟩ := ih.mp hfirst
      exact ⟨rfl, .group h⟩
    · obtain ⟨m, rest, groups⟩ := hit
      rintro ⟨rfl, h⟩
      dsimp only at h
      cases h with
      | @group _ _ _ _ _ inner h => exact ⟨⟨m, rest, inner⟩, ih.mpr ⟨rfl, h⟩, rfl⟩
  | behind p =>
    obtain ⟨m, rest, groups⟩ := hit
    simp only [runs]
    constructor
    · intro h
      split_ifs at h with hprev
      · cases List.mem_singleton.mp h
        exact ⟨rfl, .behind hprev⟩
      · cases h
    · rintro ⟨rfl, h⟩
      cases h with
      | behind h => simp [h]
  | atEnd =>
    obtain ⟨m, rest, groups⟩ := hit
    simp only [runs]
    constructor
    · intro h
      split_ifs at h with hend
      · cases List.mem_singleton.mp h
        exact ⟨hend, .atEnd⟩
      · cases h
    · rintro ⟨rfl, h⟩
      cases h
      simp

/-! ### Searches -/

/-- The first place with a match, and its preferred match. -/
def search (r : Regex α) : Option α → List α → Option (List α × Hit α)
  | prev, [] => (r.runs prev []).head?.map fun hit => ([], hit)
  | prev, a :: rest =>
    match (r.runs prev (a :: rest)).head? with
    | some hit => some ([], hit)
    | none => (search r (some a) rest).map fun (skipped, hit) => (a :: skipped, hit)

/-- What a group has matched. -/
def groupNamed (name : String) (groups : List (String × List α)) : List α :=
  ((groups.find? (·.1 = name)).map Prod.snd).getD []

/-- The groups of the first match. -/
def captures (r : Regex α) (input : List α) : Option (List (String × List α)) :=
  (r.search none input).map fun found => found.2.groups

/-- What is found is a match. -/
theorem matches_of_search {skipped : List α} {hit : Hit α}
    (h : r.search prev input = some (skipped, hit)) :
    input = skipped ++ hit.matched ++ hit.rest ∧
      Matches r (skipped.getLast?.or prev) hit.matched hit.rest hit.groups := by
  induction input generalizing prev skipped with
  | nil =>
    obtain ⟨first, hfirst, heq⟩ := Option.map_eq_some_iff.mp h
    cases heq
    exact mem_runs.mp (List.mem_of_head? hfirst)
  | cons a input ih =>
    rw [search] at h
    split at h
    · rename_i first hfirst
      cases h
      exact mem_runs.mp (List.mem_of_head? hfirst)
    · obtain ⟨⟨skipped', hit'⟩, hsearch, heq⟩ := Option.map_eq_some_iff.mp h
      cases heq
      obtain ⟨hinput, hmatches⟩ := ih hsearch
      refine ⟨by rw [hinput]; rfl, ?_⟩
      cases hlast : skipped'.getLast? with
      | none =>
        rw [hlast] at hmatches
        simpa [List.getLast?_cons, hlast] using hmatches
      | some last =>
        rw [hlast] at hmatches
        simpa [List.getLast?_cons, hlast] using hmatches

/-- A search fails where there is no match. -/
theorem search_eq_none_iff : r.search prev input = none ↔
    ∀ skipped m rest groups, input = skipped ++ m ++ rest →
      ¬ Matches r (skipped.getLast?.or prev) m rest groups := by
  constructor
  · intro h skipped m rest groups hinput hmatches
    induction skipped generalizing prev input with
    | nil =>
      have hmem : (⟨m, rest, groups⟩ : Hit α) ∈ r.runs prev input :=
        mem_runs.mpr ⟨hinput, hmatches⟩
      obtain ⟨hit, hhead⟩ : ∃ hit, (r.runs prev input).head? = some hit := by
        cases hruns : r.runs prev input with
        | nil =>
          rw [hruns] at hmem
          cases hmem
        | cons hit hits => exact ⟨hit, rfl⟩
      cases input with
      | nil =>
        rw [search, hhead] at h
        cases h
      | cons a input =>
        rw [search, hhead] at h
        cases h
    | cons a skipped ih =>
      subst hinput
      simp only [List.cons_append, search] at h
      split at h
      · cases h
      · rw [Option.map_eq_none_iff] at h
        apply ih h rfl
        cases hlast : skipped.getLast? with
        | none => simpa [List.getLast?_cons, hlast] using hmatches
        | some last => simpa [List.getLast?_cons, hlast] using hmatches
  · intro h
    by_contra hsome
    obtain ⟨⟨skipped, hit⟩, hsearch⟩ := Option.ne_none_iff_exists'.mp hsome
    obtain ⟨hinput, hmatches⟩ := matches_of_search hsearch
    exact h skipped hit.matched hit.rest hit.groups hinput hmatches

/-- An expression that matches at the start only is looked for there. -/
theorem captures_of_unique (hmatches : Matches r none m rest groups)
    (hunique : ∀ hit ∈ r.runs none (m ++ rest), hit.groups = groups) :
    r.captures (m ++ rest) = some groups := by
  have hmem : (⟨m, rest, groups⟩ : Hit α) ∈ r.runs none (m ++ rest) := mem_runs.mpr ⟨rfl, hmatches⟩
  cases hruns : r.runs none (m ++ rest) with
  | nil =>
    rw [hruns] at hmem
    cases hmem
  | cons hit hits =>
    have hgroups := hunique hit (by rw [hruns]; exact List.mem_cons_self)
    unfold captures
    cases hinput : m ++ rest with
    | nil =>
      rw [hinput] at hruns
      simp [search, hruns, hgroups]
    | cons a input =>
      rw [hinput] at hruns
      simp [search, hruns, hgroups]

/-- No match at the start is no match of an expression that begins there. -/
theorem captures_atStart_eq_none (h : ∀ m rest groups, input = m ++ rest →
    ¬ Matches r none m rest groups) : (seq atStart r).captures input = none := by
  rw [captures, Option.map_eq_none_iff, search_eq_none_iff]
  intro skipped m rest groups hinput hmatches
  rw [atStart, matches_seq_behind] at hmatches
  cases hlast : skipped.getLast? with
  | none =>
    rw [List.getLast?_eq_none_iff.mp hlast, List.nil_append] at hinput
    rw [hlast] at hmatches
    exact h m rest groups hinput hmatches.2
  | some last =>
    rw [hlast] at hmatches
    cases hmatches.1

/-- What is captured is of the input. -/
lemma subset_of_captures (h : r.captures input = some groups) {x : List α}
    (hx : (name, x) ∈ groups) : x ⊆ input := by
  obtain ⟨⟨skipped, hit⟩, hsearch, rfl⟩ := Option.map_eq_some_iff.mp h
  obtain ⟨hinput, hmatches⟩ := matches_of_search hsearch
  rw [hinput]
  intro a ha
  simp [hmatches.group_subset hx ha]

lemma groupNamed_subset (h : r.captures input = some groups) (name : String) :
    groupNamed name groups ⊆ input := by
  intro a ha
  unfold groupNamed at ha
  cases hfind : groups.find? (·.1 = name) with
  | none =>
    rw [hfind] at ha
    cases ha
  | some found =>
    rw [hfind] at ha
    exact subset_of_captures h (List.mem_of_find?_eq_some hfind) ha

end

end Regex
