import Jcode.Background.Task
import Jcode.Foundation.Records
import Jcode.Foundation.Run

/-!
# The background task manager

Tasks run in the process, spawned or adopted, or detached from it. Each has a status file, which
its own completion and every call on the manager read and write as a whole; only the tasks of the
process are in the manager's table. Any number of calls are under way, one file operation at a
time.
-/

namespace Jcode

open Schedule

/-- The future of a task of the process: running, about to read the prior status, to write the
final one or to publish, at its end, or aborted; a write that was handed to the file system before
the abort may still happen. -/
inductive TaskWorker (F : Type)
  | absent
  | running
  | finished (outcome : BackgroundOutcome) (notify wake : Bool)
  | writing (final : TaskStatusFile F)
  | announcing (final : TaskStatusFile F)
  | done
  | aborted
  | abortedWriting (final : TaskStatusFile F)

/-- `JoinHandle::abort`. -/
def TaskWorker.abort {F : Type} : TaskWorker F → TaskWorker F
  | .writing final | .abortedWriting final => .abortedWriting final
  | .done => .done
  | .absent => .absent
  | .running | .finished _ _ _ | .announcing _ | .aborted => .aborted

structure BackgroundTaskCompleted where
  taskId : String
  toolName : String
  displayName : Option String
  sessionId : String
  status : BackgroundTaskStatus
  exitCode : Option Int
  notify : Bool
  wake : Bool
  deriving DecidableEq

def TaskStatusFile.completedEvent {F : Type} (file : TaskStatusFile F) :
    BackgroundTaskCompleted where
  taskId := file.taskId
  toolName := file.toolName
  displayName := file.displayName
  sessionId := file.sessionId
  status := file.status
  exitCode := file.exitCode
  notify := file.notify
  wake := file.wake

/-- What there is of one task: its status file, the one it began with (none before that), its
future, its delivery flags, whether it still has to enter the table, has entered it, and was taken
out by a `cancel`, all files that were written for it, and the events of its completion. -/
structure BackgroundTask (F : Type) where
  file : Option (TaskStatusFile F)
  started : Option (TaskStatusFile F)
  worker : TaskWorker F
  flags : Bool × Bool
  registering : Bool
  returned : Bool
  cancelled : Bool
  written : List (TaskStatusFile F)
  events : List BackgroundTaskCompleted

def BackgroundTask.unused {F : Type} : BackgroundTask F :=
  ⟨none, none, .absent, (false, false), false, false, false, [], []⟩

/-- A write to the status file, which may fail. -/
def BackgroundTask.write {F : Type} (task : BackgroundTask F) (file : TaskStatusFile F)
    (written : Bool) : BackgroundTask F :=
  if written then { task with file := some file, written := task.written ++ [file] } else task

section Write

variable {F : Type} {task : BackgroundTask F} {file : TaskStatusFile F} {written : Bool}

@[simp] lemma BackgroundTask.started_write :
    (task.write file written).started = task.started := by
  cases written <;> rfl

@[simp] lemma BackgroundTask.worker_write : (task.write file written).worker = task.worker := by
  cases written <;> rfl

@[simp] lemma BackgroundTask.events_write : (task.write file written).events = task.events := by
  cases written <;> rfl

end Write

/-- What a call does after a write. A `cancel` carries whether the task had finished when it was
called. -/
inductive AfterWrite
  | progressed
  | delivered (notify wake : Bool)
  | finalized (cancelling : Option Bool)
  | cancelled (locked finished : Bool)
  deriving DecidableEq

/-- The write copies the result that was read. -/
def AfterWrite.Copies : AfterWrite → Prop
  | .progressed | .delivered _ _ => True
  | .finalized _ | .cancelled _ _ => False

/-- What a call is about to do. -/
inductive BackgroundCall (F : Type)
  | idle
  | updateProgress (id : String) (progress : BackgroundTaskProgress F)
      (kind : BackgroundTaskEventKind)
  | updateDelivery (id : String) (notify wake : Bool)
  | status (id : String)
  | cancel (id : String) (finished : Bool)
  | cancelReading (id : String) (finished : Bool)
  | probing (id : String) (status : TaskStatusFile F) (cancelling : Option Bool)
  | signalling (id : String) (status : TaskStatusFile F) (finished : Bool)
  | writing (id : String) (file : TaskStatusFile F) (next : AfterWrite)
  | sending (id : String) (notify wake : Bool)
  | announcing (id : String) (file : TaskStatusFile F) (cancelling : Option Bool)

/-- A call that has read no file. -/
def BackgroundCall.Quiet {F : Type} : BackgroundCall F → Prop
  | .idle | .updateProgress _ _ _ | .updateDelivery _ _ _ | .status _ | .sending _ _ _ => True
  | _ => False

/-- The calls of the manager; `list` and `wait` are made of `status`. -/
inductive BackgroundRequest (F : Type)
  | updateProgress (id : String) (progress : BackgroundTaskProgress F)
  | updateCheckpoint (id : String) (progress : BackgroundTaskProgress F)
  | updateDelivery (id : String) (notify wake : Bool)
  | status (id : String)
  | cancel (id : String)

/-- What a `cancel` has returned, and whether the task had finished when it was called. -/
structure CancelReport where
  id : String
  finished : Bool
  result : Bool
  deriving DecidableEq

/-- `locked` is set while a `cancel` holds the lock of the table. -/
structure BackgroundManager (F : Type) where
  tasks : String → BackgroundTask F
  calls : Nat → BackgroundCall F
  table : List String
  locked : Bool
  reports : List CancelReport

/-- A step of a task's future or of call `n`. A file may be unreadable, a write may fail; the exit
code of a detached process is the one that was reaped or is printed in its output. -/
inductive BackgroundMove (F : Type)
  | spawn (id toolName : String) (displayName : Option String) (sessionId startedAt : String)
      (notify wake written : Bool)
  | adopt (id toolName sessionId startedAt : String) (written : Bool)
  | registerDetached (id toolName : String) (displayName : Option String)
      (sessionId startedAt : String) (pid : Nat) (notify wake written : Bool)
  | register (id : String)
  | finish (id : String) (completion : TaskCompletion)
  | readPrior (id : String) (readable : Bool) (now : String)
  | writeFinal (id : String) (written : Bool)
  | publish (id : String)
  | call (n : Nat) (request : BackgroundRequest F)
  | read (n : Nat) (readable : Bool) (now : String)
  | probe (n : Nat) (exited : Option (Option Int)) (now : String)
  | write (n : Nat) (written : Bool)
  | send (n : Nat)
  | announce (n : Nat)
  | lock (n : Nat) (now : String)
  | kill (n : Nat) (now : String)

namespace BackgroundManager

variable {F : Type}

def setTask (s : BackgroundManager F) (id : String) (task : BackgroundTask F) :
    BackgroundManager F :=
  { s with tasks := Function.update s.tasks id task }

def setCall (s : BackgroundManager F) (n : Nat) (call : BackgroundCall F) : BackgroundManager F :=
  { s with calls := Function.update s.calls n call }

/-- The file of a task, if it can be read. -/
def readStatusFile (s : BackgroundManager F) (id : String) (readable : Bool) :
    Option (TaskStatusFile F) :=
  if readable then (s.tasks id).file else none

/-- Begin a task under a new id. -/
def begin (s : BackgroundManager F) (file : TaskStatusFile F) (worker : TaskWorker F)
    (written : Bool) : BackgroundManager F :=
  let task : BackgroundTask F :=
    { BackgroundTask.unused with
      started := some file
      worker := worker
      flags := (file.notify, file.wake)
      registering := !file.detached }
  s.setTask file.taskId (task.write file written)

/-- Whether the file of the task says that it is over, when a `cancel` comes. -/
def finished (s : BackgroundManager F) (id : String) : Bool :=
  (s.tasks id).file.any fun file => decide file.Finished

/-- A `cancel` returns. -/
def report (s : BackgroundManager F) (n : Nat) (id : String) (finished result : Bool) :
    BackgroundManager F :=
  { s.setCall n .idle with reports := s.reports ++ [⟨id, finished, result⟩] }

/-- What follows `finalize_detached_status_if_needed` when it has changed nothing. -/
def afterFinalize (s : BackgroundManager F) (n : Nat) (id : String) :
    Option Bool → BackgroundManager F
  | none => s.setCall n .idle
  | some finished => s.report n id finished false

/-- `finalize_detached_status_if_needed` looks for the process. -/
def TaskStatusFile.needsProbe (status : TaskStatusFile F) : Bool :=
  status.status == .running && status.detached && status.pid.isSome

/-- What a status or cancel call does with the file it has read. -/
def finalize (s : BackgroundManager F) (n : Nat) (id : String) (status : TaskStatusFile F)
    (cancelling : Option Bool) : BackgroundManager F :=
  if TaskStatusFile.needsProbe status then s.setCall n (.probing id status cancelling)
  else s.afterFinalize n id cancelling

/-- No task yet, and no call. -/
def empty : BackgroundManager F := ⟨fun _ => .unused, fun _ => .idle, [], false, []⟩

/-- One step. The ids of new tasks are new. -/
def step [BEq F] (s : BackgroundManager F) : BackgroundMove F → Option (BackgroundManager F)
  | .spawn id toolName displayName sessionId startedAt notify wake written =>
    if (s.tasks id).started.isSome then none
    else
      let (notify, wake) := normalizeDelivery notify wake
      some (s.begin
        (.initial id toolName displayName sessionId startedAt none notify wake) .running written)
  | .adopt id toolName sessionId startedAt written =>
    if (s.tasks id).started.isSome then none
    else
      some (s.begin (.initial id toolName none sessionId startedAt none true false) .running
        written)
  | .registerDetached id toolName displayName sessionId startedAt pid notify wake written =>
    if (s.tasks id).started.isSome then none
    else
      let (notify, wake) := normalizeDelivery notify wake
      some (s.begin
        (.initial id toolName displayName sessionId startedAt (some pid) notify wake) .absent
        written)
  | .register id =>
    if (s.tasks id).registering ∧ ¬ s.locked then
      some { s.setTask id { s.tasks id with registering := false, returned := true } with
        table := id :: s.table }
    else none
  | .finish id completion =>
    match (s.tasks id).worker with
    | .running =>
      let (notify, wake) := (s.tasks id).flags
      some (s.setTask id
        { s.tasks id with worker := .finished completion.outcome notify wake })
    | _ => none
  | .readPrior id readable now =>
    match (s.tasks id).worker, (s.tasks id).started with
    | .finished outcome notify wake, some started =>
      let prior := s.readStatusFile id readable
      some (s.setTask id
        { s.tasks id with worker := .writing (started.completion prior outcome notify wake now) })
    | _, _ => none
  | .writeFinal id written =>
    match (s.tasks id).worker with
    | .writing final =>
      some (s.setTask id { (s.tasks id).write final written with worker := .announcing final })
    | .abortedWriting final =>
      some (s.setTask id { (s.tasks id).write final written with worker := .aborted })
    | _ => none
  | .publish id =>
    match (s.tasks id).worker with
    | .announcing final =>
      some (s.setTask id
        { s.tasks id with
          worker := .done
          events := (s.tasks id).events ++ [final.completedEvent] })
    | _ => none
  | .call n request =>
    match s.calls n with
    | .idle =>
      match request with
      | .updateProgress id progress => some (s.setCall n (.updateProgress id progress .progress))
      | .updateCheckpoint id progress =>
        some (s.setCall n (.updateProgress id progress .checkpoint))
      | .updateDelivery id notify wake =>
        let (notify, wake) := normalizeDelivery notify wake
        some (s.setCall n (.updateDelivery id notify wake))
      | .status id => some (s.setCall n (.status id))
      | .cancel id => some (s.setCall n (.cancel id (s.finished id)))
    | _ => none
  | .read n readable now =>
    match s.calls n with
    | .updateProgress id progress kind =>
      match s.readStatusFile id readable with
      | none => some (s.setCall n .idle)
      | some status =>
        match status.updateProgress progress kind now with
        | none => some (s.setCall n .idle)
        | some updated => some (s.setCall n (.writing id updated .progressed))
    | .updateDelivery id notify wake =>
      match s.readStatusFile id readable with
      | none => some (s.setCall n .idle)
      | some status =>
        some (s.setCall n
          (.writing id (status.updateDelivery notify wake now) (.delivered notify wake)))
    | .status id =>
      match s.readStatusFile id readable with
      | none => some (s.setCall n .idle)
      | some status => some (s.finalize n id status none)
    | .cancelReading id finished =>
      match s.readStatusFile id readable with
      | none => some (s.report n id finished false)
      | some status => some (s.finalize n id status (some finished))
    | _ => none
  | .probe n exited now =>
    match s.calls n with
    | .probing id status cancelling =>
      match exited, cancelling with
      | some exitCode, _ =>
        some (s.setCall n (.writing id
          (status.finish (TaskStatusFile.detachedOutcome exitCode) now) (.finalized cancelling)))
      | none, none => some (s.setCall n .idle)
      | none, some finished => some (s.setCall n (.signalling id status finished))
    | _ => none
  | .kill n now =>
    match s.calls n with
    | .signalling id status finished =>
      some (s.setCall n (.writing id (status.finish TaskStatusFile.cancelledOutcome now)
        (.cancelled false finished)))
    | _ => none
  | .write n written =>
    match s.calls n with
    | .writing id file next =>
      let s := s.setTask id ((s.tasks id).write file written)
      match next with
      | .progressed => some (s.setCall n .idle)
      | .delivered notify wake => some (s.setCall n (.sending id notify wake))
      | .finalized cancelling => some (s.setCall n (.announcing id file cancelling))
      | .cancelled locked finished =>
        some { s.report n id finished true with locked := s.locked && !locked }
    | _ => none
  | .send n =>
    match s.calls n with
    | .sending id notify wake =>
      if s.locked then none
      else if id ∈ s.table then
        some ((s.setTask id { s.tasks id with flags := (notify, wake) }).setCall n .idle)
      else some (s.setCall n .idle)
    | _ => none
  | .announce n =>
    match s.calls n with
    | .announcing id file cancelling =>
      some ((s.setTask id
        { s.tasks id with events := (s.tasks id).events ++ [file.completedEvent] }).afterFinalize
          n id cancelling)
    | _ => none
  | .lock n now =>
    match s.calls n with
    | .cancel id finished =>
      if s.locked then none
      else if id ∈ s.table then
        match (s.tasks id).started with
        | some started =>
          let (notify, wake) := (s.tasks id).flags
          some { (s.setTask id
              { s.tasks id with
                worker := (s.tasks id).worker.abort
                cancelled := true }).setCall n
              (.writing id (started.cancellation notify wake now) (.cancelled true finished)) with
            table := s.table.erase id
            locked := true }
        | none => none
      else some (s.setCall n (.cancelReading id finished))
    | _ => none

/-! ### What a step does -/

attribute [local simp] step

variable {s t : BackgroundManager F} {m : BackgroundMove F}

@[simp] lemma tasks_setTask_self {id : String} {task : BackgroundTask F} :
    (s.setTask id task).tasks id = task := by
  simp [setTask]

/-- The effects of the steps, each with what it rests on. -/
inductive Effect [BEq F] (s : BackgroundManager F) :
    BackgroundMove F → BackgroundManager F → Prop
  | begin {m : BackgroundMove F} (file : TaskStatusFile F) (worker : TaskWorker F) (written : Bool)
      (hnew : (s.tasks file.taskId).started = none) (hrunning : file.status = .running)
      (hworker : worker = .absent ∧ file.detached = true ∨
        worker = .running ∧ file.detached = false) :
      Effect s m (s.begin file worker written)
  | register (id : String) (hregistering : (s.tasks id).registering = true) :
      Effect s (.register id)
        { s.setTask id { s.tasks id with registering := false, returned := true } with
          table := id :: s.table }
  | finish (id : String) (completion : TaskCompletion) (hworker : (s.tasks id).worker = .running) :
      Effect s (.finish id completion) (s.setTask id
        { s.tasks id with
          worker := .finished completion.outcome (s.tasks id).flags.1 (s.tasks id).flags.2 })
  | readPrior (id : String) (readable : Bool) (now : String) (outcome : BackgroundOutcome)
      (notify wake : Bool) (started : TaskStatusFile F)
      (hworker : (s.tasks id).worker = .finished outcome notify wake)
      (hstarted : (s.tasks id).started = some started) :
      Effect s (.readPrior id readable now) (s.setTask id
        { s.tasks id with
          worker := .writing
            (started.completion (s.readStatusFile id readable) outcome notify wake now) })
  | writeFinal (id : String) (written : Bool) (final : TaskStatusFile F)
      (hworker : (s.tasks id).worker = .writing final) :
      Effect s (.writeFinal id written) (s.setTask id
        { (s.tasks id).write final written with worker := .announcing final })
  | writeAborted (id : String) (written : Bool) (final : TaskStatusFile F)
      (hworker : (s.tasks id).worker = .abortedWriting final) :
      Effect s (.writeFinal id written) (s.setTask id
        { (s.tasks id).write final written with worker := .aborted })
  | publish (id : String) (final : TaskStatusFile F)
      (hworker : (s.tasks id).worker = .announcing final) :
      Effect s (.publish id) (s.setTask id
        { s.tasks id with
          worker := .done, events := (s.tasks id).events ++ [final.completedEvent] })
  /-- A call begins, ends, or goes to its first file operation. -/
  | quiet {m : BackgroundMove F} (n : Nat) (call : BackgroundCall F) (hcall : call.Quiet) :
      Effect s m (s.setCall n call)
  | cancel (n : Nat) (id : String) :
      Effect s (.call n (.cancel id)) (s.setCall n (.cancel id (s.finished id)))
  | copy {m : BackgroundMove F} (n : Nat) (id : String) (status updated : TaskStatusFile F)
      (next : AfterWrite) (hfile : (s.tasks id).file = some status)
      (houtcome : updated.outcome = status.outcome) (htask : updated.SameTask status)
      (hnext : next.Copies) : Effect s m (s.setCall n (.writing id updated next))
  | finalize (n : Nat) (readable : Bool) (now id : String) (status : TaskStatusFile F)
      (hcall : s.calls n = .status id) (hfile : (s.tasks id).file = some status) :
      Effect s (.read n readable now) (s.finalize n id status none)
  | finalizeCancel (n : Nat) (readable : Bool) (now id : String) (finished : Bool)
      (status : TaskStatusFile F) (hcall : s.calls n = .cancelReading id finished)
      (hfile : (s.tasks id).file = some status) :
      Effect s (.read n readable now) (s.finalize n id status (some finished))
  | unread (n : Nat) (readable : Bool) (now id : String) (finished : Bool)
      (hcall : s.calls n = .cancelReading id finished) :
      Effect s (.read n readable now) (s.report n id finished false)
  | probe (n : Nat) (exitCode : Option Int) (now id : String) (status : TaskStatusFile F)
      (cancelling : Option Bool) (hcall : s.calls n = .probing id status cancelling) :
      Effect s (.probe n (some exitCode) now) (s.setCall n (.writing id
        (status.finish (TaskStatusFile.detachedOutcome exitCode) now) (.finalized cancelling)))
  | signal (n : Nat) (now id : String) (status : TaskStatusFile F) (finished : Bool)
      (hcall : s.calls n = .probing id status (some finished)) :
      Effect s (.probe n none now) (s.setCall n (.signalling id status finished))
  | kill (n : Nat) (now id : String) (status : TaskStatusFile F) (finished : Bool)
      (hcall : s.calls n = .signalling id status finished) :
      Effect s (.kill n now) (s.setCall n (.writing id
        (status.finish TaskStatusFile.cancelledOutcome now) (.cancelled false finished)))
  | writeCopy (n : Nat) (written : Bool) (id : String) (file : TaskStatusFile F)
      (next : AfterWrite) (call : BackgroundCall F) (hcall : s.calls n = .writing id file next)
      (hnext : next.Copies) (hquiet : call.Quiet) :
      Effect s (.write n written)
        ((s.setTask id ((s.tasks id).write file written)).setCall n call)
  | writeFinalized (n : Nat) (written : Bool) (id : String) (file : TaskStatusFile F)
      (cancelling : Option Bool) (hcall : s.calls n = .writing id file (.finalized cancelling)) :
      Effect s (.write n written) ((s.setTask id ((s.tasks id).write file written)).setCall n
        (.announcing id file cancelling))
  | writeCancelled (n : Nat) (written : Bool) (id : String) (file : TaskStatusFile F)
      (locked finished : Bool) (hcall : s.calls n = .writing id file (.cancelled locked finished)) :
      Effect s (.write n written)
        { (s.setTask id ((s.tasks id).write file written)).report n id finished true with
          locked := s.locked && !locked }
  | send (n : Nat) (id : String) (notify wake : Bool) :
      Effect s (.send n)
        ((s.setTask id { s.tasks id with flags := (notify, wake) }).setCall n .idle)
  | announce (n : Nat) (id : String) (file : TaskStatusFile F) (cancelling : Option Bool)
      (hcall : s.calls n = .announcing id file cancelling) :
      Effect s (.announce n) ((s.setTask id
        { s.tasks id with events := (s.tasks id).events ++ [file.completedEvent] }).afterFinalize
          n id cancelling)
  | lock (n : Nat) (now id : String) (finished : Bool) (started : TaskStatusFile F)
      (hcall : s.calls n = .cancel id finished) (hmem : id ∈ s.table)
      (hstarted : (s.tasks id).started = some started) :
      Effect s (.lock n now)
        { (s.setTask id
            { s.tasks id with worker := (s.tasks id).worker.abort, cancelled := true }).setCall n
            (.writing id
              (started.cancellation (s.tasks id).flags.1 (s.tasks id).flags.2 now)
              (.cancelled true finished)) with
          table := s.table.erase id
          locked := true }
  | pass (n : Nat) (now id : String) (finished : Bool) (hcall : s.calls n = .cancel id finished)
      (hmem : id ∉ s.table) :
      Effect s (.lock n now) (s.setCall n (.cancelReading id finished))

lemma readStatusFile_eq_some {id : String} {readable : Bool} {status : TaskStatusFile F}
    (h : s.readStatusFile id readable = some status) : (s.tasks id).file = some status := by
  cases readable with
  | true => exact h
  | false => cases h

lemma effect_read [BEq F] {n : Nat} {readable : Bool} {now : String}
    (ht : s.step (.read n readable now) = some t) : Effect s (.read n readable now) t := by
  cases hn : s.calls n with
  | updateProgress id progress kind =>
    simp only [step, hn] at ht
    cases hread : s.readStatusFile id readable with
    | none =>
      simp only [hread, Option.some.injEq] at ht
      exact ht ▸ .quiet n .idle trivial
    | some status =>
      cases hupdate : status.updateProgress progress kind now with
      | none =>
        simp only [hread, hupdate, Option.some.injEq] at ht
        exact ht ▸ .quiet n .idle trivial
      | some updated =>
        simp only [hread, hupdate, Option.some.injEq] at ht
        obtain ⟨houtcome, htask⟩ := TaskStatusFile.outcome_updateProgress hupdate
        exact ht ▸ .copy n id status updated .progressed (readStatusFile_eq_some hread) houtcome
          htask trivial
  | updateDelivery id notify wake =>
    simp only [step, hn] at ht
    cases hread : s.readStatusFile id readable with
    | none =>
      simp only [hread, Option.some.injEq] at ht
      exact ht ▸ .quiet n .idle trivial
    | some status =>
      simp only [hread, Option.some.injEq] at ht
      exact ht ▸ .copy n id status _ _ (readStatusFile_eq_some hread)
        TaskStatusFile.outcome_updateDelivery TaskStatusFile.sameTask_updateDelivery trivial
  | status id =>
    simp only [step, hn] at ht
    cases hread : s.readStatusFile id readable with
    | none =>
      simp only [hread, Option.some.injEq] at ht
      exact ht ▸ .quiet n .idle trivial
    | some status =>
      simp only [hread, Option.some.injEq] at ht
      exact ht ▸ .finalize n readable now id status hn (readStatusFile_eq_some hread)
  | cancelReading id finished =>
    simp only [step, hn] at ht
    cases hread : s.readStatusFile id readable with
    | none =>
      simp only [hread, Option.some.injEq] at ht
      exact ht ▸ .unread n readable now id finished hn
    | some status =>
      simp only [hread, Option.some.injEq] at ht
      exact ht ▸ .finalizeCancel n readable now id finished status hn (readStatusFile_eq_some hread)
  | idle | cancel | probing | signalling | writing | sending | announcing =>
    simp [hn] at ht

lemma effect_write [BEq F] {n : Nat} {written : Bool} (ht : s.step (.write n written) = some t) :
    Effect s (.write n written) t := by
  cases hn : s.calls n with
  | writing id file next =>
    cases next with
    | progressed =>
      simp only [step, hn, Option.some.injEq] at ht
      exact ht ▸ .writeCopy n written id file _ .idle hn trivial trivial
    | delivered notify wake =>
      simp only [step, hn, Option.some.injEq] at ht
      exact ht ▸ .writeCopy n written id file _ (.sending id notify wake) hn trivial trivial
    | finalized cancelling =>
      simp only [step, hn, Option.some.injEq] at ht
      exact ht ▸ .writeFinalized n written id file cancelling hn
    | cancelled locked finished =>
      simp only [step, hn, Option.some.injEq] at ht
      exact ht ▸ .writeCancelled n written id file locked finished hn
  | idle | updateProgress | updateDelivery | status | cancel | cancelReading | probing
  | signalling | sending | announcing => simp [hn] at ht

lemma effect_call [BEq F] {n : Nat} {request : BackgroundRequest F}
    (ht : s.step (.call n request) = some t) : Effect s (.call n request) t := by
  cases hn : s.calls n with
  | idle =>
    cases request with
    | updateProgress id progress =>
      simp only [step, hn, Option.some.injEq] at ht
      exact ht ▸ .quiet n _ trivial
    | updateCheckpoint id progress =>
      simp only [step, hn, Option.some.injEq] at ht
      exact ht ▸ .quiet n _ trivial
    | updateDelivery id notify wake =>
      simp only [step, hn, Option.some.injEq] at ht
      exact ht ▸ .quiet n _ trivial
    | status id =>
      simp only [step, hn, Option.some.injEq] at ht
      exact ht ▸ .quiet n _ trivial
    | cancel id =>
      simp only [step, hn, Option.some.injEq] at ht
      exact ht ▸ .cancel n id
  | updateProgress | updateDelivery | status | cancel | cancelReading | probing | signalling
  | writing | sending | announcing => simp [hn] at ht

lemma effect_probe [BEq F] {n : Nat} {exited : Option (Option Int)} {now : String}
    (ht : s.step (.probe n exited now) = some t) : Effect s (.probe n exited now) t := by
  cases hn : s.calls n with
  | probing id status cancelling =>
    cases exited with
    | some exitCode =>
      simp only [step, hn, Option.some.injEq] at ht
      exact ht ▸ .probe n exitCode now id status cancelling hn
    | none =>
      cases cancelling with
      | none =>
        simp only [step, hn, Option.some.injEq] at ht
        exact ht ▸ .quiet n .idle trivial
      | some finished =>
        simp only [step, hn, Option.some.injEq] at ht
        exact ht ▸ .signal n now id status finished hn
  | idle | updateProgress | updateDelivery | status | cancel | cancelReading | signalling
  | writing | sending | announcing => simp [hn] at ht

lemma effect_lock [BEq F] {n : Nat} {now : String} (ht : s.step (.lock n now) = some t) :
    Effect s (.lock n now) t := by
  cases hn : s.calls n with
  | cancel id finished =>
    simp only [step, hn, Option.ite_none_left_eq_some] at ht
    obtain ⟨-, ht⟩ := ht
    split_ifs at ht with hmem
    · split at ht
      · rename_i started hstarted
        cases ht
        exact .lock n now id finished started hn hmem hstarted
      · cases ht
    · cases ht
      exact .pass n now id finished hn hmem
  | idle | updateProgress | updateDelivery | status | cancelReading | probing | signalling
  | writing | sending | announcing => simp [hn] at ht

/-- Every step has one of the effects. -/
theorem effect_of_step [BEq F] (ht : s.step m = some t) : Effect s m t := by
  cases m with
  | spawn id toolName displayName sessionId startedAt notify wake written =>
    simp only [step, Option.ite_none_left_eq_some, Option.some.injEq,
      Option.not_isSome_iff_eq_none] at ht
    obtain ⟨hnew, rfl⟩ := ht
    exact .begin _ .running written hnew rfl (.inr ⟨rfl, rfl⟩)
  | adopt id toolName sessionId startedAt written =>
    simp only [step, Option.ite_none_left_eq_some, Option.some.injEq,
      Option.not_isSome_iff_eq_none] at ht
    obtain ⟨hnew, rfl⟩ := ht
    exact .begin _ .running written hnew rfl (.inr ⟨rfl, rfl⟩)
  | registerDetached id toolName displayName sessionId startedAt pid notify wake written =>
    simp only [step, Option.ite_none_left_eq_some, Option.some.injEq,
      Option.not_isSome_iff_eq_none] at ht
    obtain ⟨hnew, rfl⟩ := ht
    exact .begin _ .absent written hnew rfl (.inl ⟨rfl, rfl⟩)
  | register id =>
    simp only [step, Option.ite_none_right_eq_some, Option.some.injEq] at ht
    obtain ⟨⟨hregistering, -⟩, rfl⟩ := ht
    exact .register id hregistering
  | finish id completion =>
    cases hw : (s.tasks id).worker with
    | running =>
      simp only [step, hw, Option.some.injEq] at ht
      exact ht ▸ .finish id completion hw
    | absent | finished | writing | announcing | done | aborted | abortedWriting =>
      simp [hw] at ht
  | readPrior id readable now =>
    simp only [step] at ht
    split at ht
    · rename_i outcome notify wake started hw hstarted
      cases ht
      exact .readPrior id readable now outcome notify wake started hw hstarted
    · cases ht
  | writeFinal id written =>
    cases hw : (s.tasks id).worker with
    | writing final =>
      simp only [step, hw, Option.some.injEq] at ht
      exact ht ▸ .writeFinal id written final hw
    | abortedWriting final =>
      simp only [step, hw, Option.some.injEq] at ht
      exact ht ▸ .writeAborted id written final hw
    | absent | running | finished | announcing | done | aborted => simp [hw] at ht
  | publish id =>
    cases hw : (s.tasks id).worker with
    | announcing final =>
      simp only [step, hw, Option.some.injEq] at ht
      exact ht ▸ .publish id final hw
    | absent | running | finished | writing | done | aborted | abortedWriting =>
      simp [hw] at ht
  | call n request => exact effect_call ht
  | read n readable now => exact effect_read ht
  | probe n exited now => exact effect_probe ht
  | kill n now =>
    cases hn : s.calls n with
    | signalling id status finished =>
      simp only [step, hn, Option.some.injEq] at ht
      exact ht ▸ .kill n now id status finished hn
    | idle | updateProgress | updateDelivery | status | cancel | cancelReading | probing
    | writing | sending | announcing => simp [hn] at ht
  | write n written => exact effect_write ht
  | send n =>
    cases hn : s.calls n with
    | sending id notify wake =>
      simp only [step, hn, Option.ite_none_left_eq_some] at ht
      obtain ⟨-, ht⟩ := ht
      split_ifs at ht
      · cases ht
        exact .send n id notify wake
      · cases ht
        exact .quiet n .idle trivial
    | idle | updateProgress | updateDelivery | status | cancel | cancelReading | probing
    | signalling | writing | announcing => simp [hn] at ht
  | announce n =>
    cases hn : s.calls n with
    | announcing id file cancelling =>
      simp only [step, hn, Option.some.injEq] at ht
      exact ht ▸ .announce n id file cancelling hn
    | idle | updateProgress | updateDelivery | status | cancel | cancelReading | probing
    | signalling | writing | sending => simp [hn] at ht
  | lock n now => exact effect_lock ht

/-- `is_live_task`. -/
def isLiveTask (s : BackgroundManager F) (id : String) : Bool := !s.locked && decide (id ∈ s.table)

/-- The count of `running_snapshot`. -/
def runningSnapshot (s : BackgroundManager F) : Nat := if s.locked then 0 else s.table.length

end BackgroundManager

end Jcode
