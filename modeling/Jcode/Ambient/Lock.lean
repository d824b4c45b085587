import Jcode.Foundation.LinkedFile
import Jcode.Foundation.Run
import Mathlib.Logic.Function.Basic

/-!
# The lock of the ambient runner

A process takes the ambient lock in four steps on one file: it looks whether the file exists,
reads the process id in it and asks whether that process is alive, removes the file if not, and
writes its own id. Nothing ties the steps together.
-/

namespace Jcode

open Schedule

/-- Where a process is in `AmbientLock::try_acquire`, or that it holds the lock. -/
inductive LockPhase
  | idle
  /-- The file exists; it is read next. -/
  | found
  /-- The file names a process; its life is looked up next. -/
  | read (pid : Nat)
  /-- The file is taken for stale; it is removed next. -/
  | stale
  /-- No lock is in the way; the file is written next. -/
  | free
  /-- The file is open and empty; the process id is written next. -/
  | opened (inode : Nat)
  | holding
  deriving DecidableEq

/-- Past the decision that no live process has the lock, and not yet in possession of it. -/
def LockPhase.IsTaking : LockPhase → Prop
  | .stale | .free | .opened _ => True
  | _ => False

/-- All processes of one machine, by their ids, and the lock file they share. -/
structure AmbientLocks where
  alive : Nat → Bool
  phase : Nat → LockPhase
  file : LinkedFile
  /-- The process id that a file's text parses to. -/
  contents : Nat → Option Nat

/-- A step of one process. The flags say whether the file system removed the file. -/
inductive LockMove
  | spawn (p : Nat)
  | die (p : Nat)
  | pathExists (p : Nat)
  | readToString (p : Nat)
  | isPidAlive (p : Nat)
  | removeStale (p : Nat) (removed : Bool)
  | create (p : Nat)
  | writePid (p : Nat)
  /-- Creating or writing the file fails. -/
  | fail (p : Nat)
  /-- `AmbientLock::release`, and `drop`, which does the same. -/
  | release (p : Nat) (removed : Bool)
  deriving DecidableEq

namespace AmbientLocks

variable {s t : AmbientLocks} {m : LockMove} {p q : Nat}

/-- The process id in the lock file. -/
def named (s : AmbientLocks) : Option Nat := s.file.inode.bind s.contents

def setPhase (s : AmbientLocks) (p : Nat) (phase : LockPhase) : AmbientLocks :=
  { s with phase := Function.update s.phase p phase }

/-- Only a live process takes steps. -/
def At (s : AmbientLocks) (p : Nat) (phase : LockPhase) : Prop :=
  s.alive p = true ∧ s.phase p = phase

instance (s : AmbientLocks) (p : Nat) (phase : LockPhase) : Decidable (s.At p phase) :=
  inferInstanceAs (Decidable (_ ∧ _))

/-- `std::fs::remove_file`, whose result is ignored throughout. -/
def removeFile (s : AmbientLocks) (removed : Bool) : AmbientLocks :=
  if removed then { s with file := s.file.unlink } else s

/-- One step of one process. -/
def step (s : AmbientLocks) : LockMove → Option AmbientLocks
  | .spawn p =>
    if s.alive p then none
    else some { s.setPhase p .idle with alive := Function.update s.alive p true }
  | .die p =>
    if s.alive p then some { s with alive := Function.update s.alive p false } else none
  | .pathExists p =>
    if s.At p .idle then
      some (s.setPhase p (if s.file.inode.isSome then .found else .free))
    else none
  | .readToString p =>
    if s.At p .found then
      some (s.setPhase p
        (match s.named with
        | some pid => .read pid
        | none => .stale))
    else none
  | .isPidAlive p =>
    match s.phase p with
    | .read pid =>
      if s.alive p then some (s.setPhase p (if s.alive pid then .idle else .stale)) else none
    | _ => none
  | .removeStale p removed =>
    if s.At p .stale then some ((s.removeFile removed).setPhase p .free) else none
  | .create p =>
    if s.At p .free then
      some { s.setPhase p (.opened s.file.target) with
        file := s.file.openCreate
        contents := Function.update s.contents s.file.target none }
    else none
  | .writePid p =>
    match s.phase p with
    | .opened inode =>
      if s.alive p then
        some { s.setPhase p .holding with contents := Function.update s.contents inode (some p) }
      else none
    | _ => none
  | .fail p =>
    match s.phase p with
    | .free | .opened _ => if s.alive p then some (s.setPhase p .idle) else none
    | _ => none
  | .release p removed =>
    if s.At p .holding then some ((s.removeFile removed).setPhase p .idle) else none

/-- The process lives and has the lock. -/
def Holds (s : AmbientLocks) (p : Nat) : Prop := s.At p .holding

/-- The process lives and is about to take the lock. -/
def Taking (s : AmbientLocks) (p : Nat) : Prop :=
  s.alive p = true ∧ (s.phase p).IsTaking

/-- One live process at most holds the lock, and the file that it would remove is its own. -/
structure Exclusive (s : AmbientLocks) : Prop where
  one : ∀ p q, s.Holds p → s.Holds q → p = q
  own : ∀ p q, s.Holds p → s.named = some q → s.Holds q → p = q

/-- A process that decides that the lock is free does so while no other one is taking it, and
where it has found the id of a dead process, the file still names that process. -/
def DecidesAlone (s : AmbientLocks) : LockMove → Prop
  | .pathExists _ => s.file.inode = none → ∀ q, ¬ s.Taking q
  | .readToString _ => s.named = none → ∀ q, ¬ s.Taking q
  | .isPidAlive p => ∀ pid, s.phase p = .read pid → s.alive pid = false →
      s.named = some pid ∧ ∀ q, ¬ s.Taking q
  | _ => True

/-! ### Who is where after a step -/

variable {phase x : LockPhase} {i : Nat}

@[simp] lemma alive_setPhase : (s.setPhase p phase).alive = s.alive := rfl

@[simp] lemma file_setPhase : (s.setPhase p phase).file = s.file := rfl

@[simp] lemma named_setPhase : (s.setPhase p phase).named = s.named := rfl

@[simp] lemma phase_setPhase_self : (s.setPhase p phase).phase p = phase := by simp [setPhase]

lemma phase_setPhase_of_ne (h : q ≠ p) : (s.setPhase p phase).phase q = s.phase q := by
  simp [setPhase, h]

@[simp] lemma alive_removeFile {removed : Bool} : (s.removeFile removed).alive = s.alive := by
  cases removed <;> rfl

@[simp] lemma phase_removeFile {removed : Bool} : (s.removeFile removed).phase = s.phase := by
  cases removed <;> rfl

lemma Taking.of_setPhase (h : (s.setPhase p phase).Taking q) : q = p ∨ s.Taking q := by
  by_cases hq : q = p
  · exact .inl hq
  · exact .inr ⟨h.1, by simpa only [phase_setPhase_of_ne hq] using h.2⟩

lemma At.of_setPhase (h : (s.setPhase p phase).At q x) : q = p ∧ x = phase ∨ s.At q x := by
  by_cases hq : q = p
  · subst hq
    exact .inl ⟨rfl, by simpa only [phase_setPhase_self] using h.2.symm⟩
  · exact .inr ⟨h.1, by simpa only [phase_setPhase_of_ne hq] using h.2⟩

lemma At.taking (h : s.At p x) (hx : x.IsTaking) : s.Taking p := ⟨h.1, h.2 ▸ hx⟩

/-! ### The invariant -/

/-- A live holder is named in the file, one process at most is taking the lock, not while there is
a live holder, and what it has opened is the file. -/
structure Exclusion (s : AmbientLocks) : Prop where
  named : ∀ p, s.Holds p → s.named = some p
  one : ∀ p q, s.Taking p → s.Taking q → p = q
  apart : ∀ p q, s.Taking p → ¬ s.Holds q
  opened : ∀ p i, s.At p (.opened i) → s.file.inode = some i

lemma Exclusion.exclusive (h : Exclusion s) : s.Exclusive where
  one p q hp hq := Option.some.inj ((h.named p hp).symm.trans (h.named q hq))
  own p _ hp hq _ := Option.some.inj ((h.named p hp).symm.trans hq)

/-- Steps after which nobody new holds or takes the lock. -/
lemma Exclusion.mono (h : Exclusion s) (hnamed : t.named = s.named)
    (hfile : t.file = s.file) (hholds : ∀ q, t.Holds q → s.Holds q)
    (htaking : ∀ q, t.Taking q → s.Taking q)
    (hopened : ∀ q i, t.At q (.opened i) → s.At q (.opened i)) : Exclusion t where
  named p hp := hnamed.trans (h.named p (hholds p hp))
  one p q hp hq := h.one p q (htaking p hp) (htaking q hq)
  apart p q hp hq := h.apart p q (htaking p hp) (hholds q hq)
  opened p i hp := hfile ▸ h.opened p i (hopened p i hp)

/-- Steps after which nobody holds the lock, and `p` alone may be taking it. -/
lemma Exclusion.of_alone (hholds : ∀ q, ¬ t.Holds q) (htaking : ∀ q, t.Taking q → q = p)
    (hopened : ∀ i, t.At p (.opened i) → t.file.inode = some i) : Exclusion t where
  named _ hq := absurd hq (hholds _)
  one _ r hq hr := (htaking _ hq).trans (htaking r hr).symm
  apart _ r _ hr := hholds r hr
  opened q i hq := by
    cases htaking q (hq.taking trivial)
    exact hopened i hq

/-- A process goes back to a phase in which it neither holds nor takes the lock. -/
lemma Exclusion.yield (h : Exclusion s) (hphase : ¬ phase.IsTaking) (hne : phase ≠ .holding) :
    Exclusion (s.setPhase p phase) := by
  refine h.mono (t := s.setPhase p phase) rfl rfl ?_ ?_ ?_
  · intro q hq
    rcases At.of_setPhase hq with ⟨-, hx⟩ | hq
    · exact absurd hx.symm hne
    · exact hq
  · intro q hq
    rcases hq.of_setPhase with rfl | hq'
    · exact absurd (by simpa only [phase_setPhase_self] using hq.2) hphase
    · exact hq'
  · intro q i hq
    rcases At.of_setPhase hq with ⟨-, rfl⟩ | hq
    · exact absurd trivial hphase
    · exact hq

/-- The decision that the lock is free, made alone. -/
lemma Exclusion.of_decision (hholds : ∀ q, ¬ s.Holds q) (htaking : ∀ q, ¬ s.Taking q)
    (hne : phase ≠ .holding) (hopened : ∀ i, phase ≠ .opened i) :
    Exclusion (s.setPhase p phase) := by
  apply Exclusion.of_alone (p := p)
  · intro q hq
    rcases At.of_setPhase hq with ⟨-, hx⟩ | hq
    · exact hne hx.symm
    · exact hholds q hq
  · intro q hq
    rcases hq.of_setPhase with hqp | hq
    · exact hqp
    · exact absurd hq (htaking q)
  · intro i hi
    exact absurd (by simpa only [phase_setPhase_self] using hi.2) (hopened i)

lemma Exclusion.not_holds_of_named_none (h : Exclusion s) (hn : s.named = none) (q : Nat) :
    ¬ s.Holds q := by
  intro hq
  cases (h.named q hq).symm.trans hn

lemma Exclusion.not_holds_of_dead (h : Exclusion s) (hn : s.named = some p)
    (hp : s.alive p = false) (q : Nat) : ¬ s.Holds q := by
  intro hq
  cases (h.named q hq).symm.trans hn
  exact absurd (hq.1.symm.trans hp) Bool.noConfusion

/-! ### Each step keeps it -/

lemma Exclusion.spawn (h : Exclusion s) :
    Exclusion { s.setPhase p .idle with alive := Function.update s.alive p true } := by
  have hat {q : Nat} {x : LockPhase} (hx : x ≠ .idle)
      (hq : AmbientLocks.At
        { s.setPhase p .idle with alive := Function.update s.alive p true } q x) : s.At q x := by
    by_cases hqp : q = p
    · subst hqp
      exact absurd (by simpa [setPhase] using hq.2.symm) hx
    · exact ⟨by simpa [hqp] using hq.1, by simpa [setPhase, hqp] using hq.2⟩
  refine h.mono rfl rfl (fun q hq => hat (by simp) hq) (fun q hq => ?_)
    (fun q i hq => hat (by simp) hq)
  obtain ⟨halive, hphase⟩ := hq
  exact (hat (fun hidle => by rw [hidle] at hphase; exact hphase) ⟨halive, rfl⟩).taking hphase

lemma Exclusion.die (h : Exclusion s) :
    Exclusion { s with alive := Function.update s.alive p false } := by
  have halive {q : Nat} (hq : Function.update s.alive p false q = true) : s.alive q = true := by
    by_cases hqp : q = p
    · subst hqp
      simp at hq
    · simpa [hqp] using hq
  exact h.mono rfl rfl (fun q hq => ⟨halive hq.1, hq.2⟩) (fun q hq => ⟨halive hq.1, hq.2⟩)
    (fun q i hq => ⟨halive hq.1, hq.2⟩)

lemma Exclusion.removeStale {removed : Bool} (h : Exclusion s) (hp : s.At p .stale) :
    Exclusion ((s.removeFile removed).setPhase p .free) := by
  have hholds (q : Nat) : ¬ s.Holds q := h.apart p q (hp.taking trivial)
  refine Exclusion.of_alone (p := p) (fun q hq => ?_) (fun q hq => ?_) (fun i hi => ?_)
  · rcases At.of_setPhase hq with ⟨-, hx⟩ | ⟨halive, hphase⟩
    · cases hx
    · rw [alive_removeFile] at halive
      rw [phase_removeFile] at hphase
      exact hholds q ⟨halive, hphase⟩
  · rcases hq.of_setPhase with hqp | ⟨halive, hphase⟩
    · exact hqp
    · rw [alive_removeFile] at halive
      rw [phase_removeFile] at hphase
      exact h.one q p ⟨halive, hphase⟩ (hp.taking trivial)
  · exact absurd (hi.2.symm.trans phase_setPhase_self) (by simp)

lemma Exclusion.create (h : Exclusion s) (hp : s.At p .free) :
    Exclusion { s.setPhase p (.opened s.file.target) with
      file := s.file.openCreate
      contents := Function.update s.contents s.file.target none } := by
  have hholds (q : Nat) : ¬ s.Holds q := h.apart p q (hp.taking trivial)
  refine Exclusion.of_alone (p := p) (fun q hq => ?_) (fun q hq => ?_) (fun i hi => ?_)
  · rcases At.of_setPhase (s := s) hq with ⟨-, hx⟩ | hq
    · cases hx
    · exact hholds q hq
  · rcases Taking.of_setPhase (s := s) hq with hqp | hq
    · exact hqp
    · exact h.one q p hq (hp.taking trivial)
  · have hi' : LockPhase.opened i = .opened s.file.target := by
      simpa only [phase_setPhase_self] using hi.2.symm
    cases hi'
    exact LinkedFile.inode_openCreate

lemma Exclusion.writePid (h : Exclusion s) (hp : s.At p (.opened i)) :
    Exclusion { s.setPhase p .holding with contents := Function.update s.contents i (some p) } := by
  have htaking (q : Nat) (hq : (s.setPhase p .holding).Taking q) : False := by
    rcases hq.of_setPhase with rfl | hq'
    · exact absurd hq.2 (by simp [LockPhase.IsTaking])
    · cases h.one q p hq' (hp.taking trivial)
      exact absurd hq.2 (by simp [LockPhase.IsTaking])
  refine ⟨fun q hq => ?_, fun q _ hq => (htaking q hq).elim, fun q _ hq => (htaking q hq).elim,
    fun q _ hq => (htaking q (At.taking hq trivial)).elim⟩
  rcases At.of_setPhase (s := s) hq with ⟨rfl, -⟩ | hq
  · simp [AmbientLocks.named, h.opened q i hp]
  · exact absurd hq (h.apart p q (hp.taking trivial))

lemma Exclusion.release {removed : Bool} (h : Exclusion s) (hp : s.Holds p) :
    Exclusion ((s.removeFile removed).setPhase p .idle) := by
  refine Exclusion.of_alone (p := p) (fun q hq => ?_) (fun q hq => ?_) (fun i hi => ?_)
  · rcases At.of_setPhase hq with ⟨-, hx⟩ | ⟨halive, hphase⟩
    · cases hx
    · rw [alive_removeFile] at halive
      rw [phase_removeFile] at hphase
      cases h.exclusive.one q p ⟨halive, hphase⟩ hp
      exact absurd (hq.2.symm.trans phase_setPhase_self) (by simp)
  · rcases hq.of_setPhase with hqp | ⟨halive, hphase⟩
    · exact hqp
    · rw [alive_removeFile] at halive
      rw [phase_removeFile] at hphase
      exact absurd hp (h.apart q p ⟨halive, hphase⟩)
  · exact absurd (hi.2.symm.trans phase_setPhase_self) (by simp)

/-- One step of any process, if the decision that the lock is free is made alone. -/
lemma Exclusion.step (h : Exclusion s) (hm : s.DecidesAlone m) (ht : s.step m = some t) :
    Exclusion t := by
  cases m with
  | spawn p =>
    simp only [AmbientLocks.step, Option.ite_none_left_eq_some, Option.some.injEq] at ht
    obtain ⟨-, rfl⟩ := ht
    exact h.spawn
  | die p =>
    simp only [AmbientLocks.step, Option.ite_none_right_eq_some, Option.some.injEq] at ht
    obtain ⟨-, rfl⟩ := ht
    exact h.die
  | pathExists p =>
    simp only [AmbientLocks.step, Option.ite_none_right_eq_some, Option.some.injEq] at ht
    obtain ⟨-, rfl⟩ := ht
    split_ifs with hinode
    · exact h.yield (by rintro ⟨⟩) (by rintro ⟨⟩)
    · have hnone : s.file.inode = none := by simpa using hinode
      have hnamed : s.named = none := by simp [AmbientLocks.named, hnone]
      exact Exclusion.of_decision (h.not_holds_of_named_none hnamed) (hm hnone) (by simp) (by simp)
  | readToString p =>
    simp only [AmbientLocks.step, Option.ite_none_right_eq_some, Option.some.injEq] at ht
    obtain ⟨-, rfl⟩ := ht
    cases hnamed : s.named with
    | some pid => exact h.yield (by rintro ⟨⟩) (by rintro ⟨⟩)
    | none =>
      exact Exclusion.of_decision (h.not_holds_of_named_none hnamed) (hm hnamed) (by simp) (by simp)
  | isPidAlive p =>
    cases hphase : s.phase p with
    | read pid =>
      simp only [AmbientLocks.step, hphase, Option.ite_none_right_eq_some, Option.some.injEq] at ht
      obtain ⟨-, rfl⟩ := ht
      cases hpid : s.alive pid with
      | true => exact h.yield (by rintro ⟨⟩) (by rintro ⟨⟩)
      | false =>
        obtain ⟨hnamed, htaking⟩ := hm pid hphase hpid
        exact Exclusion.of_decision (h.not_holds_of_dead hnamed hpid) htaking (by simp) (by simp)
    | idle | found | stale | free | opened | holding => simp [AmbientLocks.step, hphase] at ht
  | removeStale p removed =>
    simp only [AmbientLocks.step, Option.ite_none_right_eq_some, Option.some.injEq] at ht
    obtain ⟨hp, rfl⟩ := ht
    exact h.removeStale hp
  | create p =>
    simp only [AmbientLocks.step, Option.ite_none_right_eq_some, Option.some.injEq] at ht
    obtain ⟨hp, rfl⟩ := ht
    exact h.create hp
  | writePid p =>
    cases hphase : s.phase p with
    | opened inode =>
      simp only [AmbientLocks.step, hphase, Option.ite_none_right_eq_some, Option.some.injEq] at ht
      obtain ⟨hp, rfl⟩ := ht
      exact h.writePid ⟨hp, hphase⟩
    | idle | found | read | stale | free | holding => simp [AmbientLocks.step, hphase] at ht
  | fail p =>
    cases hphase : s.phase p with
    | free | opened =>
      simp only [AmbientLocks.step, hphase, Option.ite_none_right_eq_some, Option.some.injEq] at ht
      obtain ⟨-, rfl⟩ := ht
      exact h.yield (by rintro ⟨⟩) (by rintro ⟨⟩)
    | idle | found | read | stale | holding => simp [AmbientLocks.step, hphase] at ht
  | release p removed =>
    simp only [AmbientLocks.step, Option.ite_none_right_eq_some, Option.some.injEq] at ht
    obtain ⟨hp, rfl⟩ := ht
    exact h.release hp

/-! ### The lock over whole runs -/

/-- Before the first step nobody is on the way to the lock; a lock file may be there. -/
def AtRest (s : AmbientLocks) : Prop := ∀ p, s.phase p = .idle

lemma AtRest.exclusion (h : s.AtRest) : Exclusion s := by
  refine ⟨fun p hp => ?_, fun p _ hp => ?_, fun p _ hp => ?_, fun p _ hp => ?_⟩
  · exact absurd ((h p).symm.trans hp.2) (by simp)
  · exact absurd hp.2 (by simp [h p, LockPhase.IsTaking])
  · exact absurd hp.2 (by simp [h p, LockPhase.IsTaking])
  · exact absurd ((h p).symm.trans hp.2) (by simp)

/-- Nobody runs, and the lock file still names the process 7. -/
def leftover : AmbientLocks where
  alive _ := false
  phase _ := .idle
  file := LinkedFile.missing.openCreate
  contents _ := some 7

/-- The process 1 removes the lock of the dead process 7 and takes it, the process 2 finds it
held, and the process 1 releases it. -/
def recovery : List LockMove :=
  [.spawn 1, .spawn 2, .pathExists 1, .readToString 1, .isPidAlive 1, .removeStale 1 true,
    .create 1, .writePid 1, .pathExists 2, .readToString 2, .isPidAlive 2, .release 1 true]

/-- Two processes find no lock file, and both write one. -/
def twoDeciders : List LockMove :=
  [.spawn 1, .spawn 2, .pathExists 1, .pathExists 2, .create 1, .writePid 1, .create 2, .writePid 2]

end AmbientLocks

end Jcode
