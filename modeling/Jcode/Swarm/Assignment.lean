import Jcode.Swarm.Member
import Jcode.Swarm.Plan

/-!
# Assigning tasks

The critical sections in which a plan's assignments, statuses and task progress change
(`server/comm_control.rs`, `server/swarm.rs`), and the choice of a session for a task. Each
definition is what one lock of the plans does to the plan of one swarm.
-/

namespace Jcode

/-! ### Texts -/

def combineAssignmentText (content : String) (message : Option String) : String :=
  match message with
  | some extra => content ++ "\n\nAdditional coordinator instructions:\n" ++ extra
  | none => content

def restartInstructionPrefix : TaskControlAction → Option String
  | .resume =>
    some "Resume your assigned task from the current session context and continue the work."
  | .retry =>
    some "Retry your assigned task. Fix any earlier issues and continue toward completion."
  | _ => none

def buildControlAssignmentText (action : TaskControlAction) (content : String)
    (message : Option String) : String :=
  "\n\n".intercalate ((restartInstructionPrefix action).toList ++ [content] ++
    (message.map fun extra => "Additional coordinator instructions:\n" ++ extra).toList)

def SWARM_COMPLETION_REPORT_MARKER : String := "SWARM COMPLETION REPORT REQUIRED"

def appendSwarmCompletionReportInstructions (message : String) : String :=
  if SWARM_COMPLETION_REPORT_MARKER.toList <:+: message.toList then message
  else
    let out := String.ofList (message.toList.reverse.dropWhile isWhitespace).reverse
    (if out = "" then out else out ++ "\n\n") ++ "<system-reminder>\n" ++
      SWARM_COMPLETION_REPORT_MARKER ++
      "\nBefore finishing, call the swarm tool with action=\"report\" to submit your completion " ++
      "report. Include a concise message, validation/tests performed, and blockers or " ++
      "follow-ups. After the report tool succeeds, also write a brief final assistant response. " ++
      "Do not finish with only tool output, a lifecycle status change, or no final response. " ++
      "Do not send a separate DM for the final report unless you need interactive coordination " ++
      "before finishing.\n" ++ "</system-reminder>"

/-! ### The choice of a session -/

/-- Non-terminal tasks of each session. -/
def assignmentLoads (plan : VersionedPlan) (sessionId : String) : Nat :=
  plan.items.countP fun item => !isTerminalStatus item.status && item.assignedTo = some sessionId

structure AssignmentAffinities where
  loads : String → Nat
  dependencyCarryover : String → Nat
  metadataCarryover : String → Nat

def assignmentAffinitiesForTask (plan : VersionedPlan) (taskId : String) :
    Except String AssignmentAffinities :=
  match findItem plan.items taskId with
  | none => .error ("Task '" ++ taskId ++ "' not found in swarm plan")
  | some task => .ok
    { loads := assignmentLoads plan
      dependencyCarryover := fun owner => (task.blockedBy.map fun dependency =>
        (if (findItem plan.items dependency).bind (·.assignedTo) = some owner then 1 else 0) +
        (if (plan.taskProgress.lookup dependency).bind (·.assignedSessionId) = some owner
          then 1 else 0)).sum
      metadataCarryover := fun owner =>
        ((plan.items.filter fun item => item.assignedTo = some owner ∧ item.id ≠ task.id).map
          fun item =>
            (if task.subsystem.isSome ∧ task.subsystem = item.subsystem then 2 else 0) +
            (if item.fileScope = [] then 0 else task.fileScope.countP (· ∈ item.fileScope))).sum }

def filterSwarmAgentCandidates (members : List SwarmMember) (reqSessionId swarmId : String) :
    List SwarmMember :=
  members.filter fun member => member.sessionId ≠ reqSessionId ∧ member.swarmId = some swarmId ∧
    member.role = "agent" ∧ member.status ∈ ["ready", "completed"]

def readyRank (member : SwarmMember) : Nat := if member.status = "ready" then 0 else 1

/-- The first candidate in the order, or the error both resolvers share. -/
def firstCandidate (order : SwarmMember → SwarmMember → Ordering) (candidates : List SwarmMember) :
    Except String String :=
  match candidates.insertionSort fun left right => (order left right).isLE with
  | member :: _ => .ok member.sessionId
  | [] => .error "No ready or completed swarm agents are available for automatic task assignment."

def resolveAssignmentTargetSession (reqSessionId swarmId : String)
    (requestedTarget : Option String) (members : List SwarmMember) (plan : VersionedPlan) :
    Except String String :=
  match requestedTarget with
  | some target =>
    if target = reqSessionId then .error "Coordinator cannot assign a swarm task to itself."
    else match members.find? (·.sessionId = target) with
      | none => .error ("Unknown session '" ++ target ++ "'")
      | some member =>
        if member.swarmId ≠ some swarmId then
          .error ("Session '" ++ target ++ "' is not in swarm '" ++ swarmId ++
            "' and cannot receive this task.")
        else .ok target
  | none => firstCandidate (fun left right =>
      (compare (assignmentLoads plan left.sessionId) (assignmentLoads plan right.sessionId)).then
        ((compare (readyRank left) (readyRank right)).then
          (compare left.sessionId right.sessionId)))
      (filterSwarmAgentCandidates members reqSessionId swarmId)

/-- `resolve_assignment_target_for_task` without a requested target. -/
def resolveAssignmentTargetForTask (reqSessionId swarmId taskId : String)
    (members : List SwarmMember) (plan : VersionedPlan) : Except String String :=
  match assignmentAffinitiesForTask plan taskId with
  | .error message => .error message
  | .ok affinities => firstCandidate (fun left right =>
      (compare (affinities.dependencyCarryover right.sessionId)
        (affinities.dependencyCarryover left.sessionId)).then
      ((compare (affinities.metadataCarryover right.sessionId)
        (affinities.metadataCarryover left.sessionId)).then
      ((compare (affinities.loads left.sessionId) (affinities.loads right.sessionId)).then
      ((compare (readyRank left) (readyRank right)).then
        (compare left.sessionId right.sessionId)))))
      (filterSwarmAgentCandidates members reqSessionId swarmId)

/-! ### Changing one item -/

/-- `plan.items.iter_mut().find(..)`: change the first item with the id. -/
def updateItem (id : String) (f : PlanItem → PlanItem) : List PlanItem → List PlanItem
  | [] => []
  | item :: items => if item.id = id then f item :: items else item :: updateItem id f items

section

attribute [local simp] updateItem

variable {id id' : String} {f : PlanItem → PlanItem} {items : List PlanItem} {item : PlanItem}

lemma findItem_updateItem (hf : ∀ item, (f item).id = item.id) :
    findItem (updateItem id f items) id' =
      if id' = id then (findItem items id').map f else findItem items id' := by
  induction items with
  | nil => simp [findItem]
  | cons item items ih =>
    unfold findItem at ih ⊢
    by_cases hid : item.id = id
    · by_cases hid' : item.id = id'
      · simp [hid, hf, ← hid']
      · have hne : id' ≠ id := fun h => hid' (hid.trans h.symm)
        simp [hid, hf, hne, hne.symm]
    · by_cases hid' : item.id = id'
      · have hne : id' ≠ id := fun h => hid (hid'.trans h)
        simp [hid', hne]
      · simp [hid, hid', ih]

lemma findItem_updateItem_self (hf : ∀ item, (f item).id = item.id) :
    findItem (updateItem id f items) id = (findItem items id).map f := by
  rw [findItem_updateItem hf, if_pos rfl]

lemma findItem_updateItem_of_ne (hf : ∀ item, (f item).id = item.id) (h : id' ≠ id) :
    findItem (updateItem id f items) id' = findItem items id' := by
  rw [findItem_updateItem hf, if_neg h]

lemma mem_updateItem (h : item ∈ updateItem id f items) :
    item ∈ items ∨ ∃ first, findItem items id = some first ∧ item = f first := by
  induction items with
  | nil => cases h
  | cons head items ih =>
    by_cases hid : head.id = id
    · simp only [updateItem, hid, if_true, List.mem_cons] at h
      rcases h with rfl | h
      · exact .inr ⟨head, by simp [findItem, hid], rfl⟩
      · exact .inl (List.mem_cons_of_mem _ h)
    · simp only [updateItem, hid, if_false, List.mem_cons] at h
      rcases h with rfl | h
      · exact .inl List.mem_cons_self
      · refine (ih h).imp (List.mem_cons_of_mem _) ?_
        rintro ⟨first, hfirst, rfl⟩
        exact ⟨first, by simpa [findItem, hid] using hfirst, rfl⟩

/-- Every item is still there, the first with the id in its changed form. -/
lemma mem_updateItem_of_mem (id : String) (f : PlanItem → PlanItem) (h : item ∈ items) :
    item ∈ updateItem id f items ∨
      findItem items id = some item ∧ f item ∈ updateItem id f items := by
  induction items with
  | nil => cases h
  | cons head items ih =>
    by_cases hid : head.id = id
    · simp only [updateItem, hid, if_true, List.mem_cons] at h ⊢
      rcases h with rfl | h
      · exact .inr ⟨by simp [findItem, hid], .inl rfl⟩
      · exact .inl (.inr h)
    · simp only [updateItem, hid, if_false, List.mem_cons] at h ⊢
      rcases h with rfl | h
      · exact .inl (.inl rfl)
      · refine (ih h).imp .inr fun ⟨hfind, hmem⟩ => ⟨?_, .inr hmem⟩
        simpa [findItem, hid] using hfind

lemma planEdges_updateItem (hf : ∀ item, (f item).id = item.id)
    (hb : ∀ item, (f item).blockedBy = item.blockedBy) :
    planEdges (updateItem id f items) = planEdges items := by
  induction items with
  | nil => rfl
  | cons item items ih =>
    unfold planEdges at ih ⊢
    by_cases hid : item.id = id <;> simp [hid, hf, hb, ih]

/-- A change that neither completes nor reopens the item leaves the completed ids alone. -/
lemma completedItemIds_updateItem (hf : ∀ item, (f item).id = item.id)
    (hd : ∀ item, findItem items id = some item →
      isCompletedStatus (f item).status = isCompletedStatus item.status) :
    completedItemIds (updateItem id f items) = completedItemIds items := by
  induction items with
  | nil => rfl
  | cons item items ih =>
    unfold completedItemIds at ih ⊢
    by_cases hid : item.id = id
    · have hd' := hd item (by simp [findItem, hid])
      simp only [updateItem, hid, if_true, List.filter_cons, hd']
      split_ifs <;> simp [hf]
    · have ih' := ih fun first hfirst => hd first (by simpa [findItem, hid] using hfirst)
      simp only [updateItem, hid, if_false, List.filter_cons]
      split_ifs <;> simp [ih']

end

/-- The entry of `task_progress`, created on demand: `entry(..).or_default()`. -/
def VersionedPlan.progressOf (plan : VersionedPlan) (taskId : String) : SwarmTaskProgress :=
  (plan.taskProgress.lookup taskId).getD .default

/-- `(count.unwrap_or(0) + 1)`. -/
def counted (count : Option Nat) : Option Nat := some (count.getD 0 + 1)

/-! ### Assignments -/

/-- Queue a task for a session with fresh progress. -/
def VersionedPlan.assign (plan : VersionedPlan) (taskId reqSessionId targetSession summary : String)
    (nowMs : Nat) : VersionedPlan where
  items := updateItem taskId
    (fun item => { item with assignedTo := some targetSession, status := "queued" }) plan.items
  version := plan.version + 1
  participants := insert targetSession (insert reqSessionId plan.participants)
  taskProgress := plan.taskProgress.insert taskId
    { SwarmTaskProgress.default with
      assignedSessionId := some targetSession
      assignmentSummary := some (truncateDetail summary 120)
      assignedAtUnixMs := some nowMs }

/-- The plan update of `handle_comm_assign_task`, with the id and the content of the task that
was assigned, or the error the request is answered with. -/
def assignTask (plan : VersionedPlan) (reqSessionId targetSession : String)
    (requestedTaskId message : Option String) (nowMs : Nat) :
    VersionedPlan × Except String (String × String) :=
  let selectedTaskId := requestedTaskId.or (nextUnassignedRunnableItemId plan)
  let blockedReason := requestedTaskId.bind (explicitTaskBlockedReason plan)
  let found := if blockedReason.isSome then none else selectedTaskId.bind (findItem plan.items)
  match found with
  | some item =>
    (plan.assign item.id reqSessionId targetSession (combineAssignmentText item.content message)
      nowMs, .ok (item.id, item.content))
  | none =>
    (plan, .error (blockedReason.getD (match requestedTaskId with
      | none => "No runnable unassigned tasks are available in the swarm plan"
      | some taskId => "Task '" ++ taskId ++ "' not found in swarm plan")))

/-- What an assignment that goes through has done: the task was requested and is not blocked, or
it was picked in the same critical section. -/
lemma assignTask_eq_ok {plan plan' : VersionedPlan} {reqSessionId targetSession id content : String}
    {requestedTaskId message : Option String} {nowMs : Nat}
    (h : assignTask plan reqSessionId targetSession requestedTaskId message nowMs =
      (plan', .ok (id, content))) :
    (∃ item, findItem plan.items id = some item ∧ plan' = plan.assign id reqSessionId
      targetSession (combineAssignmentText item.content message) nowMs) ∧
    (requestedTaskId = some id ∧ explicitTaskBlockedReason plan id = none ∨
      requestedTaskId = none ∧ nextUnassignedRunnableItemId plan = some id) := by
  simp only [assignTask] at h
  split at h
  · rename_i item hitem
    simp only [Prod.mk.injEq, Except.ok.injEq] at h
    obtain ⟨rfl, rfl, rfl⟩ := h
    split_ifs at hitem with hb
    obtain ⟨selected, hsel, hfind⟩ := Option.bind_eq_some_iff.mp hitem
    obtain rfl := (findItem_eq_some hfind).2
    refine ⟨⟨item, hfind, rfl⟩, ?_⟩
    cases requestedTaskId with
    | none => exact .inr ⟨rfl, by simpa using hsel⟩
    | some taskId =>
      obtain rfl : taskId = item.id := by simpa using hsel
      exact .inl ⟨rfl, by simpa using hb⟩
  · simp at h

/-- A refused assignment leaves the plan alone. -/
lemma assignTask_eq_error {plan plan' : VersionedPlan} {reqSessionId targetSession error : String}
    {requestedTaskId message : Option String} {nowMs : Nat}
    (h : assignTask plan reqSessionId targetSession requestedTaskId message nowMs =
      (plan', .error error)) : plan' = plan := by
  simp only [assignTask] at h
  split at h
  · simp at h
  · exact (congrArg Prod.fst h).symm

/-- A requested task that is there and not blocked is assigned, whoever has it. -/
lemma assignTask_of_requested {plan : VersionedPlan} {item : PlanItem} {id : String}
    (hitem : findItem plan.items id = some item) (hb : explicitTaskBlockedReason plan id = none)
    (reqSessionId targetSession : String) (message : Option String) (nowMs : Nat) :
    assignTask plan reqSessionId targetSession (some id) message nowMs =
      (plan.assign id reqSessionId targetSession (combineAssignmentText item.content message)
        nowMs, .ok (id, item.content)) := by
  simp [assignTask, hb, hitem, (findItem_eq_some hitem).2]

def requeueExistingAssignment (plan : VersionedPlan) (reqSessionId assigneeSession taskId summary :
    String) (nowMs : Nat) : Option VersionedPlan :=
  (findItem plan.items taskId).map fun _ =>
    plan.assign taskId reqSessionId assigneeSession summary nowMs

/-! ### Task runs -/

/-- Change the status of a task and its progress, if the plan has the task. -/
def VersionedPlan.updateTask (plan : VersionedPlan) (taskId status : String)
    (f : SwarmTaskProgress → SwarmTaskProgress) : VersionedPlan :=
  match findItem plan.items taskId with
  | none => plan
  | some _ =>
    { plan with
      items := updateItem taskId (fun item => { item with status := status }) plan.items
      taskProgress := plan.taskProgress.insert taskId (f (plan.progressOf taskId))
      version := plan.version + 1 }

/-- The first lock of `spawn_assigned_task_run`. -/
def startTaskRun (plan : VersionedPlan) (taskId targetSession assignmentText : String)
    (nowMs : Nat) : VersionedPlan :=
  plan.updateTask taskId "running" fun progress =>
    { progress with
      assignedSessionId := some targetSession
      assignmentSummary := some (truncateDetail assignmentText 120)
      startedAtUnixMs := some nowMs
      lastHeartbeatUnixMs := some nowMs
      lastDetail := some (truncateDetail assignmentText 120)
      lastCheckpointUnixMs := some nowMs
      checkpointSummary := some "task started"
      completedAtUnixMs := none
      staleSinceUnixMs := none
      heartbeatCount := counted progress.heartbeatCount
      checkpointCount := counted progress.checkpointCount }

/-- The last lock of `spawn_assigned_task_run`, with the error of a failed run. -/
def finishTaskRun (plan : VersionedPlan) (taskId : String) (error : Option String) (nowMs : Nat) :
    VersionedPlan :=
  plan.updateTask taskId (if error.isNone then "done" else "failed") fun progress =>
    { progress with
      lastHeartbeatUnixMs := some nowMs
      lastCheckpointUnixMs := some nowMs
      checkpointSummary := some (match error with
        | none => "task completed"
        | some error => truncateDetail ("task failed: " ++ error) 120)
      completedAtUnixMs := some nowMs
      staleSinceUnixMs := none
      checkpointCount := counted progress.checkpointCount }

/-- The entry a heartbeat leaves behind in a task's progress. -/
def touchProgress (progress : SwarmTaskProgress) (assignedSessionId detail checkpointSummary :
    Option String) (nowMs : Nat) : SwarmTaskProgress :=
  { progress with
    assignedSessionId := assignedSessionId.or progress.assignedSessionId
    lastHeartbeatUnixMs := some nowMs
    heartbeatCount := counted progress.heartbeatCount
    lastDetail := (detail.map (truncateDetail · 120)).or progress.lastDetail
    lastCheckpointUnixMs :=
      if checkpointSummary.isSome then some nowMs else progress.lastCheckpointUnixMs
    checkpointSummary :=
      (checkpointSummary.map (truncateDetail · 120)).or progress.checkpointSummary
    checkpointCount :=
      if checkpointSummary.isSome then counted progress.checkpointCount
      else progress.checkpointCount }

/-- The plan after `touch_swarm_task_progress`; a stale task is revived. -/
def touchSwarmTaskProgress (plan : VersionedPlan) (taskId : String) (assignedSessionId detail
    checkpointSummary : Option String) (nowMs : Nat) : VersionedPlan :=
  match findItem plan.items taskId with
  | none => plan
  | some item =>
    let progress :=
      touchProgress (plan.progressOf taskId) assignedSessionId detail checkpointSummary nowMs
    if item.status = "running_stale" then
      { plan with
        items := updateItem taskId (fun item => { item with status := "running" }) plan.items
        taskProgress := plan.taskProgress.insert taskId { progress with staleSinceUnixMs := none }
        version := plan.version + 1 }
    else { plan with taskProgress := plan.taskProgress.insert taskId progress }

/-- What `refresh_swarm_task_staleness` does with one running task and its progress, and whether
the plan's version advances. -/
def refreshTask (item : PlanItem) (progress : SwarmTaskProgress) (nowMs staleAfterMs : Nat) :
    PlanItem × SwarmTaskProgress × Bool :=
  let lastHeartbeat :=
    (progress.lastHeartbeatUnixMs.or progress.startedAtUnixMs).or progress.assignedAtUnixMs
  let isStale := (lastHeartbeat.map fun ts => decide (staleAfterMs ≤ nowMs - ts)).getD true
  if item.status = "running" ∧ isStale then
    ({ item with status := "running_stale" },
      { progress with staleSinceUnixMs := progress.staleSinceUnixMs.or (some nowMs) }, true)
  else if item.status = "running_stale" ∧ !isStale then
    ({ item with status := "running" }, { progress with staleSinceUnixMs := none }, true)
  else (item, progress, false)

/-- The loop of `refresh_swarm_task_staleness` over the items of a plan. -/
def refreshItems (nowMs staleAfterMs : Nat) (progress : Finmap fun _ : String => SwarmTaskProgress)
    (version : Nat) : List PlanItem →
      List PlanItem × (Finmap fun _ : String => SwarmTaskProgress) × Nat
  | [] => ([], progress, version)
  | item :: items =>
    if isActiveStatus item.status then
      let refreshed := refreshTask item ((progress.lookup item.id).getD .default) nowMs staleAfterMs
      let rest := refreshItems nowMs staleAfterMs (progress.insert item.id refreshed.2.1)
        (if refreshed.2.2 then version + 1 else version) items
      (refreshed.1 :: rest.1, rest.2)
    else
      let rest := refreshItems nowMs staleAfterMs progress version items
      (item :: rest.1, rest.2)

def refreshSwarmTaskStaleness (plan : VersionedPlan) (nowMs staleAfterMs : Nat) : VersionedPlan :=
  let refreshed := refreshItems nowMs staleAfterMs plan.taskProgress plan.version plan.items
  { plan with items := refreshed.1, taskProgress := refreshed.2.1, version := refreshed.2.2 }

def renamePlanParticipant (plan : VersionedPlan) (oldSessionId newSessionId : String) :
    VersionedPlan :=
  { plan with
    participants := if oldSessionId ∈ plan.participants
      then insert newSessionId (plan.participants.erase oldSessionId) else plan.participants
    items := plan.items.map fun item =>
      if item.assignedTo = some oldSessionId then { item with assignedTo := some newSessionId }
      else item }

end Jcode
