import Jcode.Foundation.Run
import Mathlib.Logic.Function.Basic

/-!
# The interrupt signal

`InterruptSignal` (`jcode-agent-runtime`): a flag and a `Notify`, with no lock between them. Any
number of tasks fire the signal, reset it and wait for it; a step is one operation on the flag or on
the `Notify`.

A `Notify` counts the calls of `notify_waiters`, and a future keeps the count it was created at. It
is woken by the next call.
-/

namespace Jcode

open Schedule

/-- What a task is about to do. -/
inductive SignalTask
  | idle
  /-- In `fire`, the flag is set. -/
  | firing
  /-- In `notified`, with the future, before the flag is tested. -/
  | created (since : Nat)
  /-- In `notified`, at the future. -/
  | waiting (since : Nat)
  deriving DecidableEq

structure InterruptSignal (ι : Type) where
  flag : Bool
  calls : Nat
  tasks : ι → SignalTask

inductive SignalMove (ι : Type)
  | store (i : ι)
  | notifyWaiters (i : ι)
  | reset (i : ι)
  | create (i : ι)
  | test (i : ι)
  | resume (i : ι)
  deriving DecidableEq

namespace InterruptSignal

variable {ι : Type} [DecidableEq ι]

omit [DecidableEq ι] in
def new : InterruptSignal ι where
  flag := false
  calls := 0
  tasks _ := .idle

def setTask (s : InterruptSignal ι) (i : ι) (task : SignalTask) : InterruptSignal ι :=
  { s with tasks := Function.update s.tasks i task }

/-- One step of `fire`, `reset` or `notified`. -/
def step (s : InterruptSignal ι) : SignalMove ι → Option (InterruptSignal ι)
  | .store i =>
    match s.tasks i with
    | .idle => some (setTask { s with flag := true } i .firing)
    | _ => none
  | .notifyWaiters i =>
    match s.tasks i with
    | .firing => some (setTask { s with calls := s.calls + 1 } i .idle)
    | _ => none
  | .reset i =>
    match s.tasks i with
    | .idle => some { s with flag := false }
    | _ => none
  | .create i =>
    match s.tasks i with
    | .idle => some (s.setTask i (.created s.calls))
    | _ => none
  | .test i =>
    match s.tasks i with
    | .created since => some (s.setTask i (if s.flag then .idle else .waiting since))
    | _ => none
  | .resume i =>
    match s.tasks i with
    | .waiting since => if since < s.calls then some (s.setTask i .idle) else none
    | _ => none

/-- The task is in `notified`, and its future is not woken. -/
def IsWaiting (s : InterruptSignal ι) (i : ι) : Prop :=
  ∃ since, s.tasks i = .waiting since ∧ ¬ since < s.calls

/-- The task has a future, created at the count. -/
def HasFuture (s : InterruptSignal ι) (i : ι) (since : Nat) : Prop :=
  s.tasks i = .created since ∨ s.tasks i = .waiting since

variable {s s' : InterruptSignal ι} {i j : ι} {since : Nat} {move : SignalMove ι}

/-- The task is the one that was set, or an old one. -/
lemma tasks_setTask {task task' : SignalTask} (h : (s.setTask j task).tasks i = task') :
    i = j ∧ task = task' ∨ s.tasks i = task' := by
  unfold setTask at h
  by_cases hi : i = j
  · subst hi
    exact .inl ⟨rfl, (Function.update_self _ _ _).symm.trans h⟩
  · exact .inr ((Function.update_of_ne hi _ _).symm.trans h)

lemma tasks_setTask_of_ne {task : SignalTask} (h : i ≠ j) :
    (s.setTask j task).tasks i = s.tasks i :=
  Function.update_of_ne h _ _

lemma hasFuture_setTask {task : SignalTask} (h : (s.setTask j task).HasFuture i since) :
    i = j ∧ (task = .created since ∨ task = .waiting since) ∨ s.HasFuture i since := by
  rcases h with h | h
  · rcases tasks_setTask h with ⟨hi, htask⟩ | hold
    · exact .inl ⟨hi, .inl htask⟩
    · exact .inr (.inl hold)
  · rcases tasks_setTask h with ⟨hi, htask⟩ | hold
    · exact .inl ⟨hi, .inr htask⟩
    · exact .inr (.inr hold)

/-! ### Steps -/

/-- What a step does. -/
inductive Stepped (s : InterruptSignal ι) : SignalMove ι → InterruptSignal ι → Prop
  | store {i : ι} (h : s.tasks i = .idle) :
      Stepped s (.store i) (setTask { s with flag := true } i .firing)
  | notifyWaiters {i : ι} (h : s.tasks i = .firing) :
      Stepped s (.notifyWaiters i) (setTask { s with calls := s.calls + 1 } i .idle)
  | reset {i : ι} (h : s.tasks i = .idle) : Stepped s (.reset i) { s with flag := false }
  | create {i : ι} (h : s.tasks i = .idle) : Stepped s (.create i) (s.setTask i (.created s.calls))
  | testSet {i : ι} {since : Nat} (h : s.tasks i = .created since) (hflag : s.flag = true) :
      Stepped s (.test i) (s.setTask i .idle)
  | testUnset {i : ι} {since : Nat} (h : s.tasks i = .created since) (hflag : s.flag = false) :
      Stepped s (.test i) (s.setTask i (.waiting since))
  | resume {i : ι} {since : Nat} (h : s.tasks i = .waiting since) (hwoken : since < s.calls) :
      Stepped s (.resume i) (s.setTask i .idle)

lemma Stepped.of_step (h : step s move = some s') : Stepped s move s' := by
  cases move with
  | store i =>
    simp only [step] at h
    split at h
    · cases h
      exact .store ‹_›
    · cases h
  | notifyWaiters i =>
    simp only [step] at h
    split at h
    · cases h
      exact .notifyWaiters ‹_›
    · cases h
  | reset i =>
    simp only [step] at h
    split at h
    · cases h
      exact .reset ‹_›
    · cases h
  | create i =>
    simp only [step] at h
    split at h
    · cases h
      exact .create ‹_›
    · cases h
  | test i =>
    simp only [step] at h
    split at h
    · cases h
      cases hflag : s.flag with
      | true => exact .testSet ‹_› hflag
      | false => exact .testUnset ‹_› hflag
    · cases h
  | resume i =>
    simp only [step] at h
    split at h
    · split_ifs at h with hwoken
      cases h
      exact .resume ‹_› hwoken
    · cases h

/-- A task keeps its future until it goes on, and gets one from `create` only. -/
lemma Stepped.hasFuture (h : Stepped s move s') (hfuture : s'.HasFuture i since) :
    s.HasFuture i since ∨ move = .create i ∧ since = s.calls := by
  cases h with
  | store | notifyWaiters | testSet | resume =>
    rcases hasFuture_setTask hfuture with ⟨-, hcreated | hwaiting⟩ | hold
    · cases hcreated
    · cases hwaiting
    · exact .inl hold
  | reset => exact .inl hfuture
  | create =>
    rcases hasFuture_setTask hfuture with ⟨rfl, hcreated | hwaiting⟩ | hold
    · cases hcreated
      exact .inr ⟨rfl, rfl⟩
    · cases hwaiting
    · exact .inl hold
  | testUnset htask =>
    rcases hasFuture_setTask hfuture with ⟨rfl, hcreated | hwaiting⟩ | hold
    · cases hcreated
    · cases hwaiting
      exact .inl (.inl htask)
    · exact .inl hold

lemma Stepped.calls_le (h : Stepped s move s') : s.calls ≤ s'.calls := by
  cases h with
  | notifyWaiters => exact Nat.le_succ _
  | store | reset | create | testSet | testUnset | resume => exact Nat.le_refl _

/-- A task begins to wait where the flag is not set. -/
lemma Stepped.waiting (h : Stepped s move s') (hwaiting : s'.tasks i = .waiting since) :
    s.tasks i = .waiting since ∨ s'.flag = false := by
  cases h with
  | store | notifyWaiters | create | testSet | resume =>
    rcases tasks_setTask hwaiting with ⟨-, htask⟩ | hold
    · cases htask
    · exact .inl hold
  | reset => exact .inl hwaiting
  | testUnset _ hflag => exact .inr hflag

/-- The flag is set by a `fire` only, which is under way then. -/
lemma Stepped.flag (h : Stepped s move s') (hflag : s'.flag = true) :
    s.flag = true ∨ ∃ j, s'.tasks j = .firing := by
  cases h with
  | @store j => exact .inr ⟨j, Function.update_self _ _ _⟩
  | reset => cases hflag
  | notifyWaiters | create | testSet | testUnset | resume => exact .inl hflag

/-- A `fire` ends with its notification. -/
lemma Stepped.firing (h : Stepped s move s') (hfiring : s.tasks j = .firing) :
    s'.tasks j = .firing ∨ s'.calls = s.calls + 1 := by
  cases h with
  | notifyWaiters => exact .inr rfl
  | reset => exact .inl hfiring
  | store htask | create htask | testSet htask | testUnset htask | resume htask =>
    left
    apply (tasks_setTask_of_ne ?_).trans hfiring
    rintro rfl
    cases htask.symm.trans hfiring

/-! ### What all runs keep -/

/-- Futures are not older than the count, and a task that waits though the flag is set is woken, or
will be by a `fire` that is under way. -/
structure WakesAll (s : InterruptSignal ι) : Prop where
  since_le : ∀ i since, s.HasFuture i since → since ≤ s.calls
  woken : s.flag = true → ∀ i since, s.tasks i = .waiting since →
    since < s.calls ∨ ∃ j, s.tasks j = .firing

omit [DecidableEq ι] in
lemma wakesAll_new : (new : InterruptSignal ι).WakesAll where
  since_le i since h := by rcases h with h | h <;> cases h
  woken h := nomatch h

lemma WakesAll.step (h : s.WakesAll) (hstep : step s move = some s') : s'.WakesAll := by
  have hstepped := Stepped.of_step hstep
  have hcalls := hstepped.calls_le
  refine ⟨?_, ?_⟩
  · intro i since hfuture
    rcases hstepped.hasFuture hfuture with hold | ⟨-, rfl⟩
    · exact Nat.le_trans (h.since_le i since hold) hcalls
    · exact hcalls
  · intro hflag i since hwaiting
    rcases hstepped.flag hflag with hset | hfiring
    · rcases hstepped.waiting hwaiting with hold | hunset
      · rcases h.woken hset i since hold with hwoken | ⟨j, hfiring⟩
        · exact .inl (Nat.lt_of_lt_of_le hwoken hcalls)
        · rcases hstepped.firing hfiring with hfiring | hnotified
          · exact .inr ⟨j, hfiring⟩
          · have hle := h.since_le i since (.inr hold)
            rw [hnotified]
            exact .inl (Nat.lt_succ_of_le hle)
      · rw [hunset] at hflag
        cases hflag
    · exact .inr hfiring

/-- A future that is woken stays so, until the task creates another. -/
lemma exec_woken {moves : List (SignalMove ι)} {t : InterruptSignal ι}
    (hrun : exec step s moves = some t) (hmoves : .create i ∉ moves)
    (h : ∀ since, s.HasFuture i since → since < s.calls) :
    ∀ since, t.HasFuture i since → since < t.calls := by
  have hguarded : Guarded step (fun _ move => move ≠ .create i) s moves := by
    apply guarded_of_forall_mem
    rintro move hmem s rfl
    exact hmoves hmem
  refine exec_invariant_of_guarded
    (I := fun s => ∀ since, HasFuture s i since → since < s.calls) ?_ hguarded h hrun
  intro s move s' hwoken hmove hstep since hfuture
  have hstepped := Stepped.of_step hstep
  rcases hstepped.hasFuture hfuture with hold | ⟨hcreate, -⟩
  · exact Nat.lt_of_lt_of_le (hwoken since hold) hstepped.calls_le
  · exact absurd hcreate hmove

/-- A task with a woken future goes on. -/
lemma isSome_resume (h : s.tasks i = .waiting since) (hwoken : since < s.calls) :
    (step s (.resume i)).isSome := by
  simp [step, h, hwoken]

/-- No task waits where the flag is set and no `fire` is under way. A `fire` wakes all tasks that
have their futures when it notifies, whatever happens behind it. -/
theorem losesNoWakeUp {moves : List (SignalMove ι)} (hrun : exec step new moves = some s) :
    (s.flag = true → (∀ j, s.tasks j ≠ .firing) → ∀ i, ¬ s.IsWaiting i) ∧
      ∀ j s', step s (.notifyWaiters j) = some s' → ∀ i since, s.HasFuture i since →
        ∀ later t, exec step s' later = some t → .create i ∉ later →
          ¬ t.IsWaiting i ∧ ∀ since', t.tasks i = .waiting since' → (step t (.resume i)).isSome := by
  have hkept : s.WakesAll :=
    exec_invariant (fun _ _ _ h hstep => h.step hstep) wakesAll_new hrun
  constructor
  · rintro hflag hnone i ⟨since, hwaiting, hblocked⟩
    rcases hkept.woken hflag i since hwaiting with hwoken | ⟨j, hfiring⟩
    · exact hblocked hwoken
    · exact hnone j hfiring
  · intro j s' hnotify i since hfuture later t hlater hcreate
    have hstepped := Stepped.of_step hnotify
    have hwoken : ∀ since, s'.HasFuture i since → since < s'.calls := by
      intro since hfuture
      rcases hstepped.hasFuture hfuture with hold | ⟨hmove, -⟩
      · have hle := hkept.since_le i since hold
        cases hstepped with
        | notifyWaiters => exact Nat.lt_succ_of_le hle
      · cases hmove
    have hlast := exec_woken hlater hcreate hwoken
    constructor
    · rintro ⟨since, hwaiting, hblocked⟩
      exact hblocked (hlast since (.inr hwaiting))
    · intro since' hwaiting
      exact isSome_resume hwaiting (hlast since' (.inr hwaiting))

/-- The flag is reset between the two steps of the first `fire`. -/
theorem losesNoWakeUp_reset :
    ∃ s, exec step (new : InterruptSignal Nat)
      [.create 1, .store 2, .reset 3, .test 1, .notifyWaiters 2, .store 2, .notifyWaiters 2] =
        some s ∧
      ((s.flag = true → (∀ j, s.tasks j ≠ .firing) → ∀ i, ¬ s.IsWaiting i) ∧
        ∀ j s', step s (.notifyWaiters j) = some s' → ∀ i since, s.HasFuture i since →
          ∀ later t, exec step s' later = some t → .create i ∉ later →
            ¬ t.IsWaiting i ∧
              ∀ since', t.tasks i = .waiting since' → (step t (.resume i)).isSome) := by
  obtain ⟨s, hs⟩ : ∃ s, exec step (new : InterruptSignal Nat)
      [.create 1, .store 2, .reset 3, .test 1, .notifyWaiters 2, .store 2, .notifyWaiters 2] =
        some s := ⟨_, rfl⟩
  exact ⟨s, hs, losesNoWakeUp hs⟩

end InterruptSignal

end Jcode
