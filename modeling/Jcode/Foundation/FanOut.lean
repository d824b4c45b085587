import Jcode.Foundation.Run
import Mathlib.Data.List.Perm.Basic
import Mathlib.Data.List.Sort

/-!
# Jobs that run side by side

Jobs with indices are started and end in any order. What they end with is put in the order of the
indices behind that.
-/

namespace FanOut

universe u v
variable {α : Type u} {ρ : Type v} (index : α → ℕ)

structure State (α : Type u) (ρ : Type v) where
  waiting : List α
  running : List α
  started : List α
  finished : List (α × ρ)
deriving DecidableEq

inductive Label (ρ : Type v)
  | start (i : ℕ)
  | finish (i : ℕ) (result : ρ)
deriving DecidableEq

def start (jobs : List α) : State α ρ := ⟨jobs, [], [], []⟩

def step (s : State α ρ) : Label ρ → Option (State α ρ)
  | .start i =>
    (s.waiting.find? (index · = i)).map fun a =>
      { s with
        waiting := s.waiting.eraseP (index · = i)
        running := s.running ++ [a]
        started := s.started ++ [a] }
  | .finish i result =>
    (s.running.find? (index · = i)).map fun a =>
      { s with
        running := s.running.eraseP (index · = i)
        finished := s.finished ++ [(a, result)] }

/-- Every job has ended. -/
def State.Done (s : State α ρ) : Prop := s.waiting = [] ∧ s.running = []

/-- The results in the order of the jobs. -/
def State.gathered (s : State α ρ) : List (α × ρ) :=
  s.finished.mergeSort fun x y => index x.1 ≤ index y.1

/-- Each job is at one place. -/
structure Kept (jobs : List α) (s : State α ρ) : Prop where
  jobs : (s.waiting ++ s.started).Perm jobs
  started : (s.running ++ s.finished.map Prod.fst).Perm s.started

variable {index} {jobs : List α} {s s' : State α ρ} {label : Label ρ} {labels : List (Label ρ)}

lemma perm_cons_eraseP {p : α → Bool} {a : α} {l : List α} (h : l.find? p = some a) :
    l.Perm (a :: l.eraseP p) := by
  obtain ⟨hp, before, after, rfl, hbefore⟩ := List.find?_eq_some_iff_append.1 h
  have hnone : ∀ b ∈ before, ¬p b := fun b hb => by simpa using hbefore b hb
  rw [List.eraseP_append_right _ hnone, List.eraseP_cons_of_pos hp]
  exact List.perm_middle

namespace Kept

lemma start (jobs : List α) : Kept jobs (FanOut.start jobs : State α ρ) where
  jobs := by simp [FanOut.start]
  started := by simp [FanOut.start]

lemma step (h : Kept jobs s) (hs : FanOut.step index s label = some s') : Kept jobs s' := by
  cases label with
  | start i =>
    simp only [FanOut.step, Option.map_eq_some_iff] at hs
    obtain ⟨a, ha, rfl⟩ := hs
    have hwaiting := perm_cons_eraseP ha
    refine ⟨?_, ?_⟩
    · refine List.Perm.trans ?_ h.jobs
      refine List.Perm.trans ?_ (hwaiting.symm.append_right _)
      rw [← List.append_assoc]
      exact List.perm_append_singleton _ _
    · refine List.Perm.trans ?_ (h.started.append_right [a])
      rw [List.append_assoc, List.append_assoc]
      exact (List.perm_append_comm).append_left _
  | finish i result =>
    simp only [FanOut.step, Option.map_eq_some_iff] at hs
    obtain ⟨a, ha, rfl⟩ := hs
    have hrunning := perm_cons_eraseP ha
    refine ⟨h.jobs, ?_⟩
    refine List.Perm.trans ?_ h.started
    refine List.Perm.trans ?_ (hrunning.symm.append_right _)
    rw [List.map_append, ← List.append_assoc]
    exact List.perm_append_singleton _ _

lemma exec (h : Schedule.exec (FanOut.step index) (FanOut.start jobs) labels = some s) :
    Kept jobs s :=
  Schedule.exec_invariant (I := Kept jobs) (fun _ _ _ hI hs => hI.step hs) (start jobs) h

/-- In the end every job has been started once. -/
lemma perm_started (h : Kept jobs s) (hdone : s.Done) : s.started.Perm jobs := by
  have hjobs := h.jobs
  rwa [hdone.1, List.nil_append] at hjobs

end Kept

lemma pairwise_gathered : (s.gathered index).Pairwise fun x y => index x.1 ≤ index y.1 := by
  have htrans : IsTrans (α × ρ) fun x y => index x.1 ≤ index y.1 := ⟨fun _ _ _ => le_trans⟩
  have htotal : Std.Total fun x y : α × ρ => index x.1 ≤ index y.1 := ⟨fun _ _ => le_total _ _⟩
  exact List.pairwise_mergeSort' _ _

lemma gathered_perm : (s.gathered index).Perm s.finished := List.mergeSort_perm _ _

/-- The indices tell the order. -/
lemma eq_of_perm {l l' : List α} (h : l.Perm l') (hl : l.Pairwise fun a b => index a ≤ index b)
    (hl' : l'.Pairwise fun a b => index a < index b) : l = l' := by
  have hinj := List.inj_on_of_nodup_map (List.pairwise_map.2 (hl'.imp fun hlt => hlt.ne))
  refine h.eq_of_pairwise (fun a b ha hb hab hba => ?_) hl (hl'.imp fun hlt => hlt.le)
  exact hinj (h.subset ha) hb (le_antisymm hab hba)

/-- In the end the results stand in the order of the jobs. -/
theorem Kept.gathered_map_fst (h : Kept jobs s) (hdone : s.Done)
    (hjobs : jobs.Pairwise fun a b => index a < index b) :
    (s.gathered index).map Prod.fst = jobs := by
  have hfinished : (s.finished.map Prod.fst).Perm jobs := by
    have hstarted := h.started
    rw [hdone.2, List.nil_append] at hstarted
    exact hstarted.trans (h.perm_started hdone)
  exact eq_of_perm ((gathered_perm.map _).trans hfinished)
    (List.pairwise_map.2 pairwise_gathered) hjobs

/-- Jobs end with what the run says. -/
lemma mem_finished {s₀ : State α ρ} (h : Schedule.exec (step index) s₀ labels = some s)
    {x : α × ρ} (hx : x ∈ s.finished) :
    x ∈ s₀.finished ∨ .finish (index x.1) x.2 ∈ labels := by
  induction labels generalizing s₀ with
  | nil =>
    cases h
    exact .inl hx
  | cons label labels ih =>
    obtain ⟨s₁, hs₁, h⟩ := Schedule.exec_cons_eq_some.1 h
    rcases ih h with hmem | hmem
    · cases label with
      | start i =>
        simp only [step, Option.map_eq_some_iff] at hs₁
        obtain ⟨a, ha, rfl⟩ := hs₁
        exact .inl hmem
      | finish i result =>
        simp only [step, Option.map_eq_some_iff] at hs₁
        obtain ⟨a, ha, rfl⟩ := hs₁
        obtain rfl : index a = i := by simpa using List.find?_some ha
        rcases List.mem_append.1 hmem with hmem | hmem
        · exact .inl hmem
        · obtain rfl := List.mem_singleton.1 hmem
          exact .inr List.mem_cons_self
    · exact .inr (List.mem_cons_of_mem _ hmem)

theorem mem_gathered (h : Schedule.exec (step index) (start jobs) labels = some s)
    {x : α × ρ} (hx : x ∈ s.gathered index) : .finish (index x.1) x.2 ∈ labels :=
  (mem_finished h (gathered_perm.subset hx)).resolve_left List.not_mem_nil

/-- Whatever the jobs end with, they can all be run. -/
theorem exists_run (index : α → ℕ) (jobs : List α) (result : α → ρ) :
    ∃ (labels : List (Label ρ)) (s : State α ρ),
      Schedule.exec (step index) (start jobs) labels = some s ∧ s.Done := by
  suffices h : ∀ (started : List α) (finished : List (α × ρ)),
      ∃ (labels : List (Label ρ)) (s : State α ρ),
        Schedule.exec (step index) ⟨jobs, [], started, finished⟩ labels = some s ∧ s.Done from
    h [] []
  induction jobs with
  | nil => exact fun started finished => ⟨[], _, rfl, rfl, rfl⟩
  | cons a jobs ih =>
    intro started finished
    obtain ⟨labels, s, hs, hdone⟩ := ih (started ++ [a]) (finished ++ [(a, result a)])
    refine ⟨.start (index a) :: .finish (index a) (result a) :: labels, s, ?_, hdone⟩
    simpa [Schedule.exec_cons, step] using hs

end FanOut
