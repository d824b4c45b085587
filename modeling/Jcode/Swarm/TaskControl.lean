import Jcode.Swarm.Assignment

/-!
# Task control

What `handle_comm_task_control` decides about a task from a snapshot of it: restart it on its
session, hand it to `handle_comm_assign_task`, or refuse.
-/

namespace Jcode

structure TaskSnapshot where
  content : String
  status : String
  assignedTo : Option String
  progress : Option SwarmTaskProgress
deriving DecidableEq

def taskSnapshotFor (plan : VersionedPlan) (taskId : String) : Option TaskSnapshot :=
  (findItem plan.items taskId).map fun item =>
    ⟨item.content, item.status, item.assignedTo, plan.taskProgress.lookup taskId⟩

def taskControlStatusError (action : TaskControlAction) (status taskId : String) : String :=
  match action with
  | .start => "Task '" ++ taskId ++ "' is '" ++ status ++
      "' and cannot be started. Use start only for queued assignments."
  | .wake => "Task '" ++ taskId ++ "' is '" ++ status ++
      "' and cannot be woken. Use wake only for queued assignments."
  | .resume => "Task '" ++ taskId ++ "' is '" ++ status ++ "' and cannot be resumed safely."
  | .retry => "Task '" ++ taskId ++ "' is '" ++ status ++
      "' and cannot be retried. Retry is only for failed or stale work."
  | .reassign => "Task '" ++ taskId ++ "' is already complete. Reassign unfinished work instead."
  | .replace =>
    "Task '" ++ taskId ++ "' is already complete. Replace is only for unfinished work."
  | .salvage =>
    "Task '" ++ taskId ++ "' is already complete. Salvage is only for unfinished or failed work."

/-! ### Messages to the next session -/

structure ToolCallSummary where
  toolName : String
  briefOutput : String
deriving DecidableEq

def formatSalvageMessage (sourceSession : String) (sourceName : Option String)
    (summaries : List ToolCallSummary) (extraMessage : Option String) : String :=
  "Salvage prior progress from " ++ sourceName.getD sourceSession ++
    ". Review this before continuing the task.\n\n" ++
  (if summaries = [] then
    "No recorded tool call summary was available from the previous assignee."
  else "Recent prior activity:\n" ++ String.join ((summaries.take 12).map fun call =>
    "- " ++ call.toolName ++ ": " ++ truncateDetail (if trim call.briefOutput = "" then
      "no result summary" else call.briefOutput) 180 ++ "\n")) ++
  match extraMessage with
  | some extra => "\n\nAdditional coordinator instructions:\n" ++ extra
  | none => ""

/-- What is known about the previous assignee: its name and its last tool calls. -/
structure PriorActivity where
  name : Option String
  summaries : List ToolCallSummary
deriving DecidableEq

/-- A heading with its text, when there is one. -/
def headed (heading : String) (text : Option String) : String :=
  match text with
  | some text => "\n\n" ++ heading ++ "\n" ++ text
  | none => ""

/-- The message with which a task is handed over. -/
def forwardedMessage (action : TaskControlAction) (assignee : String) (message : Option String)
    (snapshot : TaskSnapshot) (prior : PriorActivity) : Option String :=
  match action with
  | .salvage => some (formatSalvageMessage assignee prior.name prior.summaries message ++
      headed "Latest checkpoint summary:" (snapshot.progress.bind (·.checkpointSummary)) ++
      headed "Latest recorded detail:" (snapshot.progress.bind (·.lastDetail)))
  | .replace => some ("This task is replacing prior assignee '" ++ assignee ++ "'." ++
      headed "Additional coordinator instructions:" message)
  | _ => message

/-! ### The decision -/

/-- `restart` is start, wake and resume, which requeue a task that is not queued; `assign` goes on
with `handle_comm_assign_task`. -/
inductive ControlRoute
  | restart (assignee assignmentText : String) (requeue : Bool)
  | assign (targetSession : String) (message : Option String)
deriving DecidableEq

/-- Start, wake and resume stay with the assignee. -/
def restartRoute (action : TaskControlAction) (taskId assignee : String)
    (targetSession message : Option String) (snapshot : TaskSnapshot) :
    Except String ControlRoute :=
  match targetSession.filter (· ≠ assignee) with
  | some requested => .error ("Task '" ++ taskId ++ "' is assigned to '" ++ assignee ++
      "', not '" ++ requested ++ "'. Use reassign or replace to change ownership.")
  | none => .ok (.restart assignee (buildControlAssignmentText action snapshot.content message)
      (snapshot.status ≠ "queued"))

/-- Reassign, replace and salvage hand the task to another session. -/
def handoverRoute (action : TaskControlAction) (taskId assignee : String)
    (targetSession message : Option String) (snapshot : TaskSnapshot) (prior : PriorActivity) :
    Except String ControlRoute :=
  match targetSession with
  | none => .error ("'target_session' is required for " ++ action.asStr ++ ".")
  | some newTarget =>
    if newTarget = assignee then
      .error ("Task '" ++ taskId ++ "' is already assigned to '" ++ assignee ++ "'.")
    else if snapshot.status = "running" then
      .error ("Task '" ++ taskId ++ "' is actively running on '" ++ assignee ++
        "'. Wait, wake, or stop that agent before handing the task off.")
    else if action = .replace ∧
        snapshot.status ∉ ["queued", "failed", "stopped", "crashed", "running_stale"] then
      .error ("Task '" ++ taskId ++ "' is '" ++ snapshot.status ++
        "' and cannot be safely replaced.")
    else .ok (.assign newTarget (forwardedMessage action assignee message snapshot prior))

/-- The part of `handle_comm_task_control` between the snapshot and what is done about it. -/
def controlRoute (action : TaskControlAction) (taskId : String) (targetSession message :
    Option String) (snapshot : TaskSnapshot) (prior : PriorActivity) : Except String ControlRoute :=
  if !taskControlActionAllowsStatus action snapshot.status then
    .error (taskControlStatusError action snapshot.status taskId)
  else match snapshot.assignedTo with
  | none => .error ("Task '" ++ taskId ++
      "' is not currently assigned. Use assign_task to create the first assignment.")
  | some assignee =>
    match action with
    | .start | .wake | .resume =>
      restartRoute action taskId assignee targetSession message snapshot
    | .retry => .ok (.assign assignee (some ("Retry this assignment." ++
        headed "Additional coordinator instructions:" message)))
    | .reassign | .replace | .salvage =>
      handoverRoute action taskId assignee targetSession message snapshot prior

lemma handoverRoute_ne_restart {action : TaskControlAction} {taskId owner assignee text : String}
    {targetSession message : Option String} {snapshot : TaskSnapshot} {prior : PriorActivity}
    {requeue : Bool} : handoverRoute action taskId owner targetSession message snapshot prior ≠
      .ok (.restart assignee text requeue) := by
  simp only [handoverRoute]
  split
  · simp
  · split_ifs <;> simp

/-- A restart keeps the session that the snapshot found. -/
lemma controlRoute_restart {action : TaskControlAction} {taskId assignee text : String}
    {targetSession message : Option String} {snapshot : TaskSnapshot} {prior : PriorActivity}
    {requeue : Bool}
    (h : controlRoute action taskId targetSession message snapshot prior =
      .ok (.restart assignee text requeue)) : snapshot.assignedTo = some assignee := by
  have hrestart (owner : String)
      (h : restartRoute action taskId owner targetSession message snapshot =
        .ok (.restart assignee text requeue)) : owner = assignee := by
    simp only [restartRoute] at h
    split at h
    · cases h
    · simp only [Except.ok.injEq, ControlRoute.restart.injEq] at h
      exact h.1
  unfold controlRoute at h
  split_ifs at h
  cases howner : snapshot.assignedTo with
  | none => simp [howner] at h
  | some owner =>
    simp only [howner] at h
    cases action with
    | start | wake | resume => exact congrArg some (hrestart owner h)
    | retry => simp at h
    | reassign | replace | salvage => exact (handoverRoute_ne_restart h).elim

end Jcode
