import Jcode.Background.Task
import Mathlib.Data.List.Sort
import Mathlib.Data.String.Basic

/-!
# The requests of self-development builds

A build or test of the program's own worktree is a request, kept in a file of its own, and a
background task that waits for its turn and runs the command. The requester, the task, a cancel
and everyone who lists the pending requests save the file as a whole.
-/

namespace Jcode

inductive BuildRequestState
  | queued
  | building
  | attached
  | completed
  | superseded
  | failed
  | cancelled
  deriving DecidableEq

/-- The states of `pending_requests`. -/
def BuildRequestState.Pending (state : BuildRequestState) : Prop :=
  state = .queued ∨ state = .building

instance (state : BuildRequestState) : Decidable state.Pending :=
  inferInstanceAs (Decidable (_ ∨ _))

/-- The state of a request whose task has ended so. -/
def BackgroundTaskStatus.requestState : BackgroundTaskStatus → BuildRequestState
  | .completed => .completed
  | .superseded => .superseded
  | .failed => .failed
  | .running => .building

/-- What a request file holds; the path of the task's status file follows from the task id. -/
structure BuildRequest where
  requestId : String
  backgroundTaskId : Option String
  sessionId : String
  worktreeScope : String
  requestedAt : String
  completedAt : Option String
  state : BuildRequestState
  error : Option String
  deriving DecidableEq

namespace BuildRequest

variable {F : Type} (request : BuildRequest)

/-- The order of `load_all`. -/
def Before (a b : BuildRequest) : Prop :=
  a.requestedAt < b.requestedAt ∨ a.requestedAt = b.requestedAt ∧ a.requestId ≤ b.requestId

instance : DecidableRel Before := fun _ _ => inferInstanceAs (Decidable (_ ∨ _))

/-- A new request of `do_build` or `do_test`. -/
def initial (requestId sessionId worktreeScope requestedAt : String) : BuildRequest where
  requestId := requestId
  backgroundTaskId := none
  sessionId := sessionId
  worktreeScope := worktreeScope
  requestedAt := requestedAt
  completedAt := none
  state := .queued
  error := none

def markStale (detail now : String) : BuildRequest :=
  { request with state := .failed, completedAt := some now, error := some detail }

/-- `reconcile_pending_state`, by what is in the status file of the task and whether the task is
live: the request as it is saved, `none` if it stays pending. -/
def reconcile (taskStatus : Option (TaskStatusFile F)) (live : Bool) (now : String) :
    Option BuildRequest :=
  match request.backgroundTaskId, taskStatus with
  | none, _ =>
    some (request.markStale "Self-dev build request is missing its background task id." now)
  | some _, none =>
    some (request.markStale
      "Background task status file is missing; pruning stale self-dev build request." now)
  | some _, some taskStatus =>
    match taskStatus.status with
    | .running =>
      if taskStatus.detached || live then none
      else
        some (request.markStale
          "Background task is no longer live; pruning stale self-dev build request." now)
    | .completed =>
      some { request with
        state := .completed
        completedAt := taskStatus.completedAt.or (some now)
        error := none }
    | .superseded =>
      some { request with
        state := .superseded
        completedAt := taskStatus.completedAt.or (some now)
        error := taskStatus.error }
    | .failed =>
      some { request with
        state := .failed
        completedAt := taskStatus.completedAt.or (some now)
        error := taskStatus.error.or (some "Background task failed without an error message.") }

/-- The request as the task saves it before it runs the command. -/
def start : BuildRequest := { request with state := .building }

/-- The request as the task saves it at its end. -/
def finish (outcome : BackgroundOutcome) (now : String) : BuildRequest :=
  { request with
    state := outcome.status.requestState
    completedAt := some now
    error := outcome.error }

def cancel (now : String) : BuildRequest :=
  { request with
    state := .cancelled
    completedAt := some now
    error := some "Cancelled by user" }

/-- Two copies of one request. -/
structure SameRequest (a b : BuildRequest) : Prop where
  requestId : a.requestId = b.requestId
  worktreeScope : a.worktreeScope = b.worktreeScope
  requestedAt : a.requestedAt = b.requestedAt

variable {request} {taskStatus : Option (TaskStatusFile F)} {live : Bool} {now : String}
  {changed : BuildRequest}

lemma SameRequest.refl (request : BuildRequest) : request.SameRequest request := ⟨rfl, rfl, rfl⟩

lemma SameRequest.symm {a b : BuildRequest} (h : a.SameRequest b) : b.SameRequest a :=
  ⟨h.requestId.symm, h.worktreeScope.symm, h.requestedAt.symm⟩

lemma SameRequest.trans {a b c : BuildRequest} (hab : a.SameRequest b) (hbc : b.SameRequest c) :
    a.SameRequest c :=
  ⟨hab.requestId.trans hbc.requestId, hab.worktreeScope.trans hbc.worktreeScope,
    hab.requestedAt.trans hbc.requestedAt⟩

lemma sameRequest_reconcile (h : request.reconcile taskStatus live now = some changed) :
    changed.SameRequest request := by
  unfold reconcile at h
  split at h
  · cases h
    exact ⟨rfl, rfl, rfl⟩
  · cases h
    exact ⟨rfl, rfl, rfl⟩
  · split at h
    · split_ifs at h
      cases h
      exact ⟨rfl, rfl, rfl⟩
    all_goals
      cases h
      exact ⟨rfl, rfl, rfl⟩

/-- Where the task id and the status file are there, and the task is live if it runs, a request is
changed only after the end of its task, and to the state that says so. -/
lemma reconcile_eq_some {status : TaskStatusFile F} (hid : request.backgroundTaskId.isSome)
    (hlive : status.status = .running → live = true)
    (h : request.reconcile (some status) live now = some changed) :
    status.Finished ∧ changed.state = status.status.requestState := by
  obtain ⟨taskId, htask⟩ := Option.isSome_iff_exists.mp hid
  cases hstatus : status.status with
  | running => simp [reconcile, htask, hstatus, hlive hstatus] at h
  | completed | superseded | failed =>
    simp only [reconcile, htask, hstatus, Option.some.injEq] at h
    subst h
    exact ⟨by simp [TaskStatusFile.Finished, hstatus], rfl⟩

/-! ### The order of the queue -/

lemma Before.total (a b : BuildRequest) : a.Before b ∨ b.Before a := by
  rcases lt_trichotomy a.requestedAt b.requestedAt with h | h | h
  · exact .inl (.inl h)
  · rcases le_total a.requestId b.requestId with hid | hid
    · exact .inl (.inr ⟨h, hid⟩)
    · exact .inr (.inr ⟨h.symm, hid⟩)
  · exact .inr (.inl h)

lemma Before.trans {a b c : BuildRequest} (hab : a.Before b) (hbc : b.Before c) : a.Before c := by
  rcases hab with hab | ⟨hab, hidab⟩
  · rcases hbc with hbc | ⟨hbc, -⟩
    · exact .inl (hab.trans hbc)
    · exact .inl (hbc ▸ hab)
  · rcases hbc with hbc | ⟨hbc, hidbc⟩
    · exact .inl (hab ▸ hbc)
    · exact .inr ⟨hab.trans hbc, hidab.trans hidbc⟩

lemma Before.of_same {a b c d : BuildRequest} (hab : a.Before b) (hca : c.SameRequest a)
    (hdb : d.SameRequest b) : c.Before d := by
  unfold Before
  rw [hca.requestedAt, hca.requestId, hdb.requestedAt, hdb.requestId]
  exact hab

/-- `load_all`, of the files that were read. -/
def sorted (loaded : List BuildRequest) : List BuildRequest := loaded.insertionSort Before

lemma mem_sorted {loaded : List BuildRequest} : request ∈ sorted loaded ↔ request ∈ loaded :=
  List.mem_insertionSort Before

end BuildRequest

end Jcode
