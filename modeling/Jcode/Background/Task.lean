import Mathlib.Tactic.Common

/-!
# The status file of a background task

What a status file holds, and the files that the operations of `BackgroundTaskManager` make of the
one they have read. The percentage of a progress report is a floating point number; it is compared
and never calculated with once a report is normalized, so its type is a parameter.
-/

namespace Jcode

inductive BackgroundTaskStatus
  | running
  | completed
  | superseded
  | failed
  deriving DecidableEq

inductive BackgroundTaskProgressKind
  | determinate
  | indeterminate
  deriving DecidableEq

inductive BackgroundTaskProgressSource
  | reported
  | parsedOutput
  | heuristic
  deriving DecidableEq

structure BackgroundTaskProgress (F : Type) where
  kind : BackgroundTaskProgressKind
  percent : Option F
  message : Option String
  current : Option Nat
  total : Option Nat
  unit : Option String
  etaSeconds : Option Nat
  updatedAt : String
  source : BackgroundTaskProgressSource
  deriving DecidableEq

inductive BackgroundTaskEventKind
  | progress
  | checkpoint
  | completed
  | failed
  | superseded
  | cancelled
  | deliveryUpdated
  deriving DecidableEq

structure BackgroundTaskEventRecord (F : Type) where
  kind : BackgroundTaskEventKind
  timestamp : String
  message : Option String
  status : Option BackgroundTaskStatus
  exitCode : Option Int
  progress : Option (BackgroundTaskProgress F)
  deriving DecidableEq

structure TaskStatusFile (F : Type) where
  taskId : String
  toolName : String
  displayName : Option String
  sessionId : String
  status : BackgroundTaskStatus
  exitCode : Option Int
  error : Option String
  startedAt : String
  completedAt : Option String
  pid : Option Nat
  detached : Bool
  notify : Bool
  wake : Bool
  progress : Option (BackgroundTaskProgress F)
  eventHistory : List (BackgroundTaskEventRecord F)
  deriving DecidableEq

/-- How a task has ended. -/
structure BackgroundOutcome where
  status : BackgroundTaskStatus
  exitCode : Option Int
  error : Option String
  deriving DecidableEq

def normalizeDelivery (notify wake : Bool) : Bool × Bool := (notify || wake, wake)

/-! ### Progress reports -/

section Progress

variable {F : Type} [BEq F]

def progressEquivalent (a b : BackgroundTaskProgress F) : Bool :=
  a.kind == b.kind && a.percent == b.percent && a.message == b.message &&
    a.current == b.current && a.total == b.total && a.unit == b.unit &&
    a.etaSeconds == b.etaSeconds && a.source == b.source

def BackgroundTaskProgress.isDeterminate (progress : BackgroundTaskProgress F) : Bool :=
  progress.percent.isSome || progress.total.any (0 < ·)

/-- The report on file stays: the new one says the same, or was parsed and says less. -/
def BackgroundTaskProgress.keeps (existing progress : BackgroundTaskProgress F) : Bool :=
  progressEquivalent existing progress ||
    (existing.isDeterminate && !progress.isDeterminate && progress.source == .parsedOutput)

end Progress

/-! ### What the operations write -/

def maxEventHistory : Nat := 50

def terminalEventKind (status : BackgroundTaskStatus) (error : Option String) :
    BackgroundTaskEventKind :=
  match status with
  | .completed => .completed
  | .superseded => .superseded
  | .failed => if error = some "Cancelled by user" then .cancelled else .failed
  | .running => .progress

namespace TaskStatusFile

variable {F : Type} (status : TaskStatusFile F)

def outcome : BackgroundOutcome := ⟨status.status, status.exitCode, status.error⟩

/-- A terminal status is on file. -/
def Finished : Prop := status.status ≠ .running

instance : Decidable status.Finished := inferInstanceAs (Decidable (_ ≠ _))

/-- Two files of one task. -/
structure SameTask (a b : TaskStatusFile F) : Prop where
  taskId : a.taskId = b.taskId
  detached : a.detached = b.detached

lemma SameTask.refl (a : TaskStatusFile F) : a.SameTask a := ⟨rfl, rfl⟩

lemma SameTask.trans {a b c : TaskStatusFile F} (hab : a.SameTask b) (hbc : b.SameTask c) :
    a.SameTask c :=
  ⟨hab.taskId.trans hbc.taskId, hab.detached.trans hbc.detached⟩

def pushTaskEvent (event : BackgroundTaskEventRecord F) : TaskStatusFile F :=
  let history := status.eventHistory ++ [event]
  { status with eventHistory := history.drop (history.length - maxEventHistory) }

/-- The file of a new task, with the delivery of `normalize_delivery`; `pid` is there for a
detached one. -/
def initial (taskId toolName : String) (displayName : Option String) (sessionId : String)
    (startedAt : String) (pid : Option Nat) (notify wake : Bool) : TaskStatusFile F where
  taskId := taskId
  toolName := toolName
  displayName := displayName
  sessionId := sessionId
  status := .running
  exitCode := none
  error := none
  startedAt := startedAt
  completedAt := none
  pid := pid
  detached := pid.isSome
  notify := notify
  wake := wake
  progress := none
  eventHistory := []

/-- The end of a task, with its event. -/
def finish (outcome : BackgroundOutcome) (now : String) : TaskStatusFile F :=
  ({ status with
      status := outcome.status
      exitCode := outcome.exitCode
      error := outcome.error
      completedAt := some now } : TaskStatusFile F).pushTaskEvent
    { kind := terminalEventKind outcome.status outcome.error
      timestamp := now
      message := outcome.error
      status := some outcome.status
      exitCode := outcome.exitCode
      progress := none }

/-- The file that a task writes at its end: its own fields, and what it has found on file of its
progress. -/
def completion (started : TaskStatusFile F) (prior : Option (TaskStatusFile F))
    (outcome : BackgroundOutcome) (notify wake : Bool) (now : String) : TaskStatusFile F :=
  ({ started with
      notify := notify
      wake := wake
      progress := prior.bind (·.progress)
      eventHistory := (prior.map (·.eventHistory)).getD [] } : TaskStatusFile F).finish outcome now

/-- `update_progress` and `update_checkpoint`, for a normalized report; `none` if it writes
nothing. -/
def updateProgress [BEq F] (progress : BackgroundTaskProgress F) (kind : BackgroundTaskEventKind)
    (now : String) : Option (TaskStatusFile F) :=
  if status.progress.any (·.keeps progress) then none
  else
    some (({ status with progress := some progress } : TaskStatusFile F).pushTaskEvent
      { kind := kind
        timestamp := now
        message := progress.message
        status := some .running
        exitCode := none
        progress := some progress })

def updateDelivery (notify wake : Bool) (now : String) : TaskStatusFile F :=
  ({ status with notify := notify, wake := wake } : TaskStatusFile F).pushTaskEvent
    { kind := .deliveryUpdated
      timestamp := now
      message := some s!"notify={notify}, wake={wake}"
      status := some status.status
      exitCode := status.exitCode
      progress := status.progress }

/-- What a detached command has ended with, by the exit code that was reaped or printed. -/
def detachedOutcome (exitCode : Option Int) : BackgroundOutcome :=
  if exitCode = some 0 then ⟨.completed, exitCode, none⟩
  else
    { status := .failed
      exitCode := exitCode
      error := some (match exitCode with
        | some code => s!"Command exited with code {code}"
        | none => "Detached command exited without a readable exit code") }

def cancelledOutcome : BackgroundOutcome := ⟨.failed, none, some "Cancelled by user"⟩

/-- The file that `cancel` writes for a task of its table. -/
def cancellation (started : TaskStatusFile F) (notify wake : Bool) (now : String) :
    TaskStatusFile F :=
  ({ started with notify := notify, wake := wake, progress := none, eventHistory := [] } :
    TaskStatusFile F).finish cancelledOutcome now

/-! ### Small facts -/

variable {status} {outcome : BackgroundOutcome} {event : BackgroundTaskEventRecord F}
  {notify wake : Bool} {now : String} {prior : Option (TaskStatusFile F)}

@[simp] lemma outcome_pushTaskEvent : (status.pushTaskEvent event).outcome = status.outcome := by
  simp only [pushTaskEvent, TaskStatusFile.outcome]

@[simp] lemma detached_pushTaskEvent : (status.pushTaskEvent event).detached = status.detached := by
  simp only [pushTaskEvent]

@[simp] lemma taskId_pushTaskEvent : (status.pushTaskEvent event).taskId = status.taskId := by
  simp only [pushTaskEvent]

@[simp] lemma notify_pushTaskEvent : (status.pushTaskEvent event).notify = status.notify := by
  simp only [pushTaskEvent]

@[simp] lemma wake_pushTaskEvent : (status.pushTaskEvent event).wake = status.wake := by
  simp only [pushTaskEvent]

@[simp] lemma outcome_finish : (status.finish outcome now).outcome = outcome := by
  rw [finish, outcome_pushTaskEvent]
  rfl

@[simp] lemma detached_finish : (status.finish outcome now).detached = status.detached := by
  simp only [finish, detached_pushTaskEvent]

@[simp] lemma taskId_finish : (status.finish outcome now).taskId = status.taskId := by
  simp only [finish, taskId_pushTaskEvent]

lemma finished_finish (h : outcome.status ≠ .running) : (status.finish outcome now).Finished := by
  have houtcome : (status.finish outcome now).outcome = outcome := outcome_finish
  have hstatus : (status.finish outcome now).status = outcome.status :=
    congrArg BackgroundOutcome.status houtcome
  rwa [Finished, hstatus]

lemma sameTask_finish : (status.finish outcome now).SameTask status :=
  ⟨taskId_finish, detached_finish⟩

@[simp] lemma outcome_completion :
    (status.completion prior outcome notify wake now).outcome = outcome := by
  simp only [completion, outcome_finish]

lemma status_completion :
    (status.completion prior outcome notify wake now).status = outcome.status := by
  have houtcome : (status.completion prior outcome notify wake now).outcome = outcome :=
    outcome_completion
  exact congrArg BackgroundOutcome.status houtcome

@[simp] lemma detached_completion :
    (status.completion prior outcome notify wake now).detached = status.detached := by
  simp only [completion, detached_finish]

@[simp] lemma taskId_completion :
    (status.completion prior outcome notify wake now).taskId = status.taskId := by
  simp only [completion, taskId_finish]

lemma sameTask_completion : (status.completion prior outcome notify wake now).SameTask status :=
  ⟨taskId_completion, detached_completion⟩

@[simp] lemma outcome_updateDelivery :
    (status.updateDelivery notify wake now).outcome = status.outcome := by
  rw [updateDelivery, outcome_pushTaskEvent]
  rfl

lemma sameTask_updateDelivery : (status.updateDelivery notify wake now).SameTask status :=
  ⟨by simp only [updateDelivery, taskId_pushTaskEvent],
    by simp only [updateDelivery, detached_pushTaskEvent]⟩

@[simp] lemma outcome_cancellation :
    (status.cancellation notify wake now).outcome = cancelledOutcome := by
  simp only [cancellation, outcome_finish]

@[simp] lemma detached_cancellation :
    (status.cancellation notify wake now).detached = status.detached := by
  simp only [cancellation, detached_finish]

lemma sameTask_cancellation : (status.cancellation notify wake now).SameTask status :=
  ⟨by simp only [cancellation, taskId_finish], detached_cancellation⟩

/-- A progress update keeps what the file says of the end of the task. -/
lemma outcome_updateProgress [BEq F] {progress : BackgroundTaskProgress F}
    {kind : BackgroundTaskEventKind} {updated : TaskStatusFile F}
    (h : status.updateProgress progress kind now = some updated) :
    updated.outcome = status.outcome ∧ updated.SameTask status := by
  simp only [updateProgress, Option.ite_none_left_eq_some, Option.some.injEq] at h
  obtain ⟨-, rfl⟩ := h
  exact ⟨outcome_pushTaskEvent, taskId_pushTaskEvent, detached_pushTaskEvent⟩

/-- Whether a task is over is part of its outcome. -/
lemma Finished.of_outcome {other : TaskStatusFile F} (h : status.Finished)
    (houtcome : other.outcome = status.outcome) : other.Finished := by
  have hstatus : other.status = status.status := congrArg BackgroundOutcome.status houtcome
  exact fun hrunning => h (hstatus.symm.trans hrunning)

lemma detachedOutcome_status_ne {exitCode : Option Int} :
    (detachedOutcome exitCode).status ≠ .running := by
  unfold detachedOutcome
  split_ifs <;> simp

end TaskStatusFile

/-! ### What a task returns -/

structure TaskResult where
  exitCode : Option Int
  error : Option String
  status : Option BackgroundTaskStatus
  deriving DecidableEq

/-- The end of a spawned future, or of an adopted tool call: `error` is the text of its error, of
its panic or, for a tool call, of either. -/
inductive TaskCompletion
  | spawned (result : Except String TaskResult)
  | adopted (result : Except String Unit)

def TaskCompletion.outcome : TaskCompletion → BackgroundOutcome
  | .spawned (.ok result) =>
    { status := result.status.getD (if result.error.isSome then .failed else .completed)
      exitCode := result.exitCode
      error := result.error }
  | .spawned (.error error) => ⟨.failed, none, some error⟩
  | .adopted (.ok _) => ⟨.completed, some 0, none⟩
  | .adopted (.error error) => ⟨.failed, none, some error⟩

end Jcode
