import Mathlib.Tactic.Common

/-!
# Interleaved runs

A machine handles events of several parts in any order. If a part sees nothing of the state but what
its own events change, what it gets out is what it gets out alone.
-/

universe u v w x
variable {ι : Type u} {σ : Type v} {ν : Type v} {α : Type w} {ε : Type x}

/-- A run over events in order, with what comes out of each. -/
def runEvents (step : σ → α → ε × σ) : σ → List α → List ε × σ
  | s, [] => ([], s)
  | s, a :: events =>
    ((step s a).1 :: (runEvents step (step s a).2 events).1, (runEvents step (step s a).2 events).2)

/-- A run over events of parts. -/
def runParts (step : σ → α → ε × σ) : σ → List (ι × α) → List (ι × ε) × σ
  | s, [] => ([], s)
  | s, (i, a) :: events =>
    ((i, (step s a).1) :: (runParts step (step s a).2 events).1,
      (runParts step (step s a).2 events).2)

def partOf [DecidableEq ι] (i : ι) (events : List (ι × α)) : List α :=
  events.filterMap fun event => if event.1 = i then some event.2 else none

section

variable {step : σ → α → ε × σ} {stepView : ν → α → ε × ν} {s : σ} {events events' : List α}

lemma runEvents_append : runEvents step s (events ++ events') =
    ((runEvents step s events).1 ++ (runEvents step (runEvents step s events).2 events').1,
      (runEvents step (runEvents step s events).2 events').2) := by
  induction events generalizing s with
  | nil => rfl
  | cons a events ih =>
    rw [List.cons_append, runEvents, ih]
    rfl

variable [DecidableEq ι]

lemma partOf_cons_self (i : ι) (a : α) (parts : List (ι × α)) :
    partOf i ((i, a) :: parts) = a :: partOf i parts := by
  simp [partOf]

lemma partOf_cons_of_ne {i j : ι} (h : j ≠ i) (a : α) (parts : List (ι × α)) :
    partOf i ((j, a) :: parts) = partOf i parts := by
  simp [partOf, h]

lemma mem_partOf {i : ι} {a : α} {parts : List (ι × α)} : a ∈ partOf i parts ↔ (i, a) ∈ parts := by
  rw [partOf, List.mem_filterMap]
  constructor
  · rintro ⟨⟨j, b⟩, hmem, heq⟩
    split_ifs at heq with hj
    obtain rfl : j = i := hj
    obtain rfl := Option.some.inj heq
    exact hmem
  · exact fun hmem => ⟨(i, a), hmem, if_pos rfl⟩

/-- What a part gets out of an interleaved run is what it gets out of its own events. -/
theorem partOf_runParts {i : ι} (view : σ → ν) {parts : List (ι × α)}
    (hown : ∀ a, (i, a) ∈ parts → ∀ s, (step s a).1 = (stepView (view s) a).1 ∧
      view (step s a).2 = (stepView (view s) a).2)
    (hother : ∀ j a, (j, a) ∈ parts → j ≠ i → ∀ s, view (step s a).2 = view s) :
    partOf i (runParts step s parts).1 = (runEvents stepView (view s) (partOf i parts)).1 := by
  induction parts generalizing s with
  | nil => rfl
  | cons part parts ih =>
    obtain ⟨j, a⟩ := part
    have ih' := ih (s := (step s a).2) (fun a hmem => hown a (List.mem_cons_of_mem _ hmem))
      fun j a hmem => hother j a (List.mem_cons_of_mem _ hmem)
    rw [runParts]
    by_cases hj : j = i
    · subst hj
      obtain ⟨hout, hview⟩ := hown a List.mem_cons_self s
      rw [partOf_cons_self, partOf_cons_self, runEvents, ih', hout, hview]
    · rw [partOf_cons_of_ne hj, partOf_cons_of_ne hj, ih', hother j a List.mem_cons_self hj]

end
