import Jcode.Foundation.Run
import Jcode.Swarm.TaskControl

/-!
# Coordinator requests and task runs, interleaved

The requests of `handle_comm_assign_task` and `handle_comm_task_control` and the task runs which
they spawn, in any number, with the renaming of sessions and the staleness sweep. Every lock of
the plans is one move of one party.
-/

namespace Jcode

open Schedule

/-- Where a coordinator's request stands. `control` and `identified` are
`handle_comm_task_control` before it has a task id and with one, `assign` and `admitted` are
`handle_comm_assign_task` before and after it has resolved the session; `requeueing` and
`spawning` come before the requeue and before `spawn_assigned_task_run`. -/
inductive CoordinatorPhase
  | control (action : TaskControlAction) (taskId : String) (targetSession message : Option String)
  | identified (action : TaskControlAction) (taskId : String)
      (targetSession message : Option String)
  | assign (targetSession taskId message : Option String)
  | admitted (targetSession : String) (taskId message : Option String)
  | requeueing (assignee taskId assignmentText : String)
  | spawning (session taskId assignmentText : String)
  | returned (error : Option String)

structure CoordinatorRequest where
  reqSessionId : String
  phase : CoordinatorPhase

/-- Where a task run stands: its first lock is ahead, it is at work, its last lock is behind it
while events of it are still to be handled, or nothing of it is left. -/
inductive TaskRunPhase
  | spawned
  | working
  | finished
  | drained
deriving DecidableEq

structure TaskRun where
  session : String
  taskId : String
  assignmentText : String
  phase : TaskRunPhase

structure TaskSystem where
  swarmId : String
  plan : VersionedPlan
  requests : List CoordinatorRequest
  runs : List TaskRun

/-- `decline` is a return before or instead of the next section: no permission, a duplicate, a
session that is not there, or a session that only gets a message. -/
inductive TaskMove
  | requestAssign (reqSessionId : String) (targetSession taskId message : Option String)
  | requestControl (reqSessionId action taskId : String) (targetSession message : Option String)
  | identify (i : Nat)
  | snapshot (i : Nat) (prior : PriorActivity)
  | accept (i : Nat) (members : List SwarmMember)
  | write (i : Nat) (nowMs : Nat)
  | requeue (i : Nat) (nowMs : Nat)
  | spawnRun (i : Nat)
  | decline (i : Nat) (error : Option String)
  | rename (oldSessionId newSessionId : String)
  | refresh (nowMs staleAfterMs : Nat)
  | startRun (r : Nat) (nowMs : Nat)
  | touch (r : Nat) (detail checkpointSummary : Option String) (nowMs : Nat)
  | finishRun (r : Nat) (error : Option String) (nowMs : Nat)
  | drain (r : Nat)

namespace TaskSystem

def start (swarmId : String) (plan : VersionedPlan) : TaskSystem where
  swarmId := swarmId
  plan := plan
  requests := []
  runs := []

variable (s : TaskSystem)

def withPlan (plan : VersionedPlan) : TaskSystem := { s with plan := plan }

def setRequest (i : Nat) (request : CoordinatorRequest) (phase : CoordinatorPhase) : TaskSystem :=
  { s with requests := s.requests.set i { request with phase := phase } }

def setRun (r : Nat) (run : TaskRun) (phase : TaskRunPhase) : TaskSystem :=
  { s with runs := s.runs.set r { run with phase := phase } }

def addRun (session taskId assignmentText : String) : TaskSystem :=
  { s with runs := s.runs ++
      [⟨session, taskId, appendSwarmCompletionReportInstructions assignmentText, .spawned⟩] }

def addRequest (reqSessionId : String) (phase : CoordinatorPhase) : TaskSystem :=
  { s with requests := s.requests ++ [⟨reqSessionId, phase⟩] }

/-- A task id that is blank is looked up by the target session. -/
def identifiedPhase (plan : VersionedPlan) (action : TaskControlAction) (taskId : String)
    (targetSession message : Option String) : CoordinatorPhase :=
  if trim taskId ≠ "" then .identified action taskId targetSession message
  else match targetSession with
  | none => .returned (some ("task_id is required for " ++ action.asStr ++
      " unless target_session uniquely identifies an assigned task."))
  | some target =>
    match taskControlTargetItemId plan.items target action with
    | .ok taskId => .identified action taskId targetSession message
    | .error error => .returned (some error)

/-- What a request goes on with after the snapshot. -/
def routedPhase (plan : VersionedPlan) (action : TaskControlAction) (taskId : String)
    (targetSession message : Option String) (prior : PriorActivity) : CoordinatorPhase :=
  match taskSnapshotFor plan taskId with
  | none => .returned (some ("Task '" ++ taskId ++ "' not found in swarm plan"))
  | some snapshot =>
    match controlRoute action taskId targetSession message snapshot prior with
    | .error error => .returned (some error)
    | .ok (.restart assignee text true) => .requeueing assignee taskId text
    | .ok (.restart assignee text false) => .spawning assignee taskId text
    | .ok (.assign target message) => .assign (some target) (some taskId) message

/-- A section of request `i`. -/
def stepRequest (i : Nat) (act : CoordinatorRequest → Option TaskSystem) : Option TaskSystem :=
  (s.requests[i]?).bind act

/-- One section of one party. A heartbeat without detail comes from a run that is at work; an
event of a run may be handled after its last lock. -/
def step : TaskMove → Option TaskSystem
  | .requestAssign reqSessionId targetSession taskId message =>
    some (s.addRequest reqSessionId (.assign targetSession taskId message))
  | .requestControl reqSessionId action taskId targetSession message =>
    some (s.addRequest reqSessionId (match TaskControlAction.parse action with
      | some action => .control action taskId targetSession message
      | none => .returned (some ("Unknown task control action. Use start, wake, resume, retry, " ++
          "reassign, replace, or salvage."))))
  | .identify i => s.stepRequest i fun request =>
    match request.phase with
    | .control action taskId targetSession message =>
      some (s.setRequest i request (identifiedPhase s.plan action taskId targetSession message))
    | _ => none
  | .snapshot i prior => s.stepRequest i fun request =>
    match request.phase with
    | .identified action taskId targetSession message => some (s.setRequest i request
        (routedPhase s.plan action taskId targetSession message prior))
    | _ => none
  | .accept i members => s.stepRequest i fun request =>
    match request.phase with
    | .assign targetSession taskId message =>
      some (s.setRequest i request (match resolveAssignmentTargetSession request.reqSessionId
          s.swarmId (trimmedArgument targetSession) members s.plan with
        | .ok target => .admitted target (trimmedArgument taskId) message
        | .error error => .returned (some error)))
    | _ => none
  | .write i nowMs => s.stepRequest i fun request =>
    match request.phase with
    | .admitted target taskId message =>
      match assignTask s.plan request.reqSessionId target taskId message nowMs with
      | (plan, .ok (id, content)) => some ((s.withPlan plan).setRequest i request
          (.spawning target id (combineAssignmentText content message)))
      | (plan, .error error) =>
        some ((s.withPlan plan).setRequest i request (.returned (some error)))
    | _ => none
  | .requeue i nowMs => s.stepRequest i fun request =>
    match request.phase with
    | .requeueing assignee taskId text =>
      some ((s.withPlan ((requeueExistingAssignment s.plan request.reqSessionId assignee taskId
        text nowMs).getD s.plan)).setRequest i request (.spawning assignee taskId text))
    | _ => none
  | .spawnRun i => s.stepRequest i fun request =>
    match request.phase with
    | .spawning session taskId text =>
      some ((s.addRun session taskId text).setRequest i request (.returned none))
    | _ => none
  | .decline i error => s.stepRequest i fun request =>
    some (s.setRequest i request (.returned error))
  | .rename oldSessionId newSessionId =>
    some (s.withPlan (renamePlanParticipant s.plan oldSessionId newSessionId))
  | .refresh nowMs staleAfterMs =>
    some (s.withPlan (refreshSwarmTaskStaleness s.plan nowMs staleAfterMs))
  | .startRun r nowMs => (s.runs[r]?).bind fun run =>
    if run.phase = .spawned then
      some ((s.withPlan (startTaskRun s.plan run.taskId run.session run.assignmentText
        nowMs)).setRun r run .working)
    else none
  | .touch r detail checkpointSummary nowMs => (s.runs[r]?).bind fun run =>
    if run.phase = .working ∨
        run.phase = .finished ∧ (detail.isSome ∨ checkpointSummary.isSome) then
      some (s.withPlan (touchSwarmTaskProgress s.plan run.taskId (some run.session) detail
        checkpointSummary nowMs))
    else none
  | .finishRun r error nowMs => (s.runs[r]?).bind fun run =>
    if run.phase = .working then
      some ((s.withPlan (finishTaskRun s.plan run.taskId error nowMs)).setRun r run .finished)
    else none
  | .drain r => (s.runs[r]?).bind fun run =>
    if run.phase = .finished then some (s.setRun r run .drained) else none

/-! ### What a section can do -/

/-- The sections that can be taken, by what each finds and leaves. -/
inductive Section (s : TaskSystem) : TaskMove → TaskSystem → Prop
  | requestAssign (reqSessionId : String) (targetSession taskId message : Option String) :
      Section s (.requestAssign reqSessionId targetSession taskId message)
        (s.addRequest reqSessionId (.assign targetSession taskId message))
  | requestControl (reqSessionId name taskId : String) (targetSession message : Option String)
      (action : TaskControlAction) (hname : TaskControlAction.parse name = some action) :
      Section s (.requestControl reqSessionId name taskId targetSession message)
        (s.addRequest reqSessionId (.control action taskId targetSession message))
  | requestUnknown (reqSessionId name taskId : String) (targetSession message : Option String)
      (error : String) (hname : TaskControlAction.parse name = none) :
      Section s (.requestControl reqSessionId name taskId targetSession message)
        (s.addRequest reqSessionId (.returned (some error)))
  | identify (i : Nat) (request : CoordinatorRequest) (action : TaskControlAction)
      (taskId : String) (targetSession message : Option String)
      (hrequest : s.requests[i]? = some request)
      (hphase : request.phase = .control action taskId targetSession message) :
      Section s (.identify i)
        (s.setRequest i request (identifiedPhase s.plan action taskId targetSession message))
  | snapshot (i : Nat) (prior : PriorActivity) (request : CoordinatorRequest)
      (action : TaskControlAction) (taskId : String) (targetSession message : Option String)
      (hrequest : s.requests[i]? = some request)
      (hphase : request.phase = .identified action taskId targetSession message) :
      Section s (.snapshot i prior)
        (s.setRequest i request (routedPhase s.plan action taskId targetSession message prior))
  | accept (i : Nat) (members : List SwarmMember) (request : CoordinatorRequest)
      (targetSession taskId message : Option String) (target : String)
      (hrequest : s.requests[i]? = some request)
      (hphase : request.phase = .assign targetSession taskId message)
      (htarget : resolveAssignmentTargetSession request.reqSessionId s.swarmId
        (trimmedArgument targetSession) members s.plan = .ok target) :
      Section s (.accept i members)
        (s.setRequest i request (.admitted target (trimmedArgument taskId) message))
  | refuse (i : Nat) (members : List SwarmMember) (request : CoordinatorRequest)
      (targetSession taskId message : Option String) (error : String)
      (hrequest : s.requests[i]? = some request)
      (hphase : request.phase = .assign targetSession taskId message)
      (htarget : resolveAssignmentTargetSession request.reqSessionId s.swarmId
        (trimmedArgument targetSession) members s.plan = .error error) :
      Section s (.accept i members) (s.setRequest i request (.returned (some error)))
  | write (i nowMs : Nat) (request : CoordinatorRequest) (target : String)
      (taskId message : Option String) (plan : VersionedPlan) (id content : String)
      (hrequest : s.requests[i]? = some request)
      (hphase : request.phase = .admitted target taskId message)
      (hassign : assignTask s.plan request.reqSessionId target taskId message nowMs =
        (plan, .ok (id, content))) :
      Section s (.write i nowMs) ((s.withPlan plan).setRequest i request
        (.spawning target id (combineAssignmentText content message)))
  | writeNothing (i nowMs : Nat) (request : CoordinatorRequest) (target : String)
      (taskId message : Option String) (error : String)
      (hrequest : s.requests[i]? = some request)
      (hphase : request.phase = .admitted target taskId message)
      (hassign : assignTask s.plan request.reqSessionId target taskId message nowMs =
        (s.plan, .error error)) :
      Section s (.write i nowMs) (s.setRequest i request (.returned (some error)))
  | requeue (i nowMs : Nat) (request : CoordinatorRequest) (assignee taskId text : String)
      (hrequest : s.requests[i]? = some request)
      (hphase : request.phase = .requeueing assignee taskId text) :
      Section s (.requeue i nowMs) ((s.withPlan ((requeueExistingAssignment s.plan
        request.reqSessionId assignee taskId text nowMs).getD s.plan)).setRequest i request
          (.spawning assignee taskId text))
  | spawnRun (i : Nat) (request : CoordinatorRequest) (session taskId text : String)
      (hrequest : s.requests[i]? = some request)
      (hphase : request.phase = .spawning session taskId text) :
      Section s (.spawnRun i)
        ((s.addRun session taskId text).setRequest i request (.returned none))
  | decline (i : Nat) (error : Option String) (request : CoordinatorRequest)
      (hrequest : s.requests[i]? = some request) :
      Section s (.decline i error) (s.setRequest i request (.returned error))
  | rename (old new : String) :
      Section s (.rename old new) (s.withPlan (renamePlanParticipant s.plan old new))
  | refresh (nowMs staleAfterMs : Nat) :
      Section s (.refresh nowMs staleAfterMs)
        (s.withPlan (refreshSwarmTaskStaleness s.plan nowMs staleAfterMs))
  | startRun (r nowMs : Nat) (run : TaskRun) (hr : s.runs[r]? = some run)
      (hphase : run.phase = .spawned) :
      Section s (.startRun r nowMs) ((s.withPlan (startTaskRun s.plan run.taskId run.session
        run.assignmentText nowMs)).setRun r run .working)
  | touch (r : Nat) (detail checkpointSummary : Option String) (nowMs : Nat) (run : TaskRun)
      (hr : s.runs[r]? = some run) (hphase : run.phase = .working ∨
        run.phase = .finished ∧ (detail.isSome ∨ checkpointSummary.isSome)) :
      Section s (.touch r detail checkpointSummary nowMs) (s.withPlan
        (touchSwarmTaskProgress s.plan run.taskId (some run.session) detail checkpointSummary
          nowMs))
  | finishRun (r : Nat) (error : Option String) (nowMs : Nat) (run : TaskRun)
      (hr : s.runs[r]? = some run) (hphase : run.phase = .working) :
      Section s (.finishRun r error nowMs)
        ((s.withPlan (finishTaskRun s.plan run.taskId error nowMs)).setRun r run .finished)
  | drain (r : Nat) (run : TaskRun) (hr : s.runs[r]? = some run)
      (hphase : run.phase = .finished) :
      Section s (.drain r) (s.setRun r run .drained)

lemma Section.of_step {s t : TaskSystem} {m : TaskMove} (h : s.step m = some t) :
    Section s m t := by
  cases m with
  | requestAssign reqSessionId targetSession taskId message =>
    cases h
    exact .requestAssign reqSessionId targetSession taskId message
  | requestControl reqSessionId name taskId targetSession message =>
    cases h
    cases hname : TaskControlAction.parse name with
    | some action =>
      exact .requestControl reqSessionId name taskId targetSession message action hname
    | none => exact .requestUnknown reqSessionId name taskId targetSession message _ hname
  | identify i =>
    obtain ⟨request, hrequest, h⟩ := Option.bind_eq_some_iff.mp h
    split at h <;> cases h
    exact .identify i request _ _ _ _ hrequest ‹_›
  | snapshot i prior =>
    obtain ⟨request, hrequest, h⟩ := Option.bind_eq_some_iff.mp h
    split at h <;> cases h
    exact .snapshot i prior request _ _ _ _ hrequest ‹_›
  | accept i members =>
    obtain ⟨request, hrequest, h⟩ := Option.bind_eq_some_iff.mp h
    split at h <;> cases h
    rename_i targetSession taskId message hphase
    split
    · exact .accept i members request targetSession taskId message _ hrequest hphase ‹_›
    · exact .refuse i members request targetSession taskId message _ hrequest hphase ‹_›
  | write i nowMs =>
    obtain ⟨request, hrequest, h⟩ := Option.bind_eq_some_iff.mp h
    split at h
    · rename_i target taskId message hphase
      split at h <;> cases h
      · rename_i plan id content hassign
        exact .write i nowMs request target taskId message plan id content hrequest hphase hassign
      · rename_i plan error hassign
        obtain rfl := assignTask_eq_error hassign
        exact .writeNothing i nowMs request target taskId message error hrequest hphase hassign
    · cases h
  | requeue i nowMs =>
    obtain ⟨request, hrequest, h⟩ := Option.bind_eq_some_iff.mp h
    split at h <;> cases h
    exact .requeue i nowMs request _ _ _ hrequest ‹_›
  | spawnRun i =>
    obtain ⟨request, hrequest, h⟩ := Option.bind_eq_some_iff.mp h
    split at h <;> cases h
    exact .spawnRun i request _ _ _ hrequest ‹_›
  | decline i error =>
    obtain ⟨request, hrequest, h⟩ := Option.bind_eq_some_iff.mp h
    cases h
    exact .decline i error request hrequest
  | rename old new =>
    cases h
    exact .rename old new
  | refresh nowMs staleAfterMs =>
    cases h
    exact .refresh nowMs staleAfterMs
  | startRun r nowMs =>
    obtain ⟨run, hr, h⟩ := Option.bind_eq_some_iff.mp h
    split_ifs at h with hphase
    cases h
    exact .startRun r nowMs run hr hphase
  | touch r detail checkpointSummary nowMs =>
    obtain ⟨run, hr, h⟩ := Option.bind_eq_some_iff.mp h
    split_ifs at h with hphase
    cases h
    exact .touch r detail checkpointSummary nowMs run hr hphase
  | finishRun r error nowMs =>
    obtain ⟨run, hr, h⟩ := Option.bind_eq_some_iff.mp h
    split_ifs at h with hphase
    cases h
    exact .finishRun r error nowMs run hr hphase
  | drain r =>
    obtain ⟨run, hr, h⟩ := Option.bind_eq_some_iff.mp h
    split_ifs at h with hphase
    cases h
    exact .drain r run hr hphase

end TaskSystem

end Jcode
