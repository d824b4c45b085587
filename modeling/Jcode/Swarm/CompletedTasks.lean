import Jcode.Swarm.TaskRuns

/-!
# Completed tasks under assignment and task control

A coordinator's request is served to its end with nothing in between, the first lock of the run it
spawns included. Which items that are completed does it change?
-/

namespace Jcode

open Schedule

/-! ### Serving a request -/

/-- `handle_comm_assign_task` and `handle_comm_task_control`. -/
inductive TaskRequest
  | assign (targetSession taskId message : Option String)
  | control (action taskId : String) (targetSession message : Option String)

/-- What a request meets besides the plan; `idle` says that the session which is given the task can
be locked, so that the run is spawned. -/
structure RequestContext where
  members : List SwarmMember
  prior : PriorActivity
  nowMs : Nat
  idle : Bool

def TaskRequest.arrival (reqSessionId : String) : TaskRequest → TaskMove
  | .assign targetSession taskId message =>
    .requestAssign reqSessionId targetSession taskId message
  | .control action taskId targetSession message =>
    .requestControl reqSessionId action taskId targetSession message

/-- The locks of request `i` which end in the spawning of run `r`. -/
def RequestContext.startSections (c : RequestContext) (i r : Nat) : List TaskMove :=
  if c.idle then [.spawnRun i, .startRun r c.nowMs] else []

def RequestContext.assignSections (c : RequestContext) (i r : Nat) : List TaskMove :=
  .accept i c.members :: .write i c.nowMs :: .requeue i c.nowMs :: c.startSections i r

namespace TaskSystem

/-- Take the moves in their order, and leave out those which are not enabled. -/
def perform (s : TaskSystem) (moves : List TaskMove) : TaskSystem :=
  moves.foldl (fun s move => (s.step move).getD s) s

def serve (s : TaskSystem) (reqSessionId : String) (request : TaskRequest) (c : RequestContext) :
    TaskSystem :=
  s.perform (request.arrival reqSessionId :: .identify s.requests.length ::
    .snapshot s.requests.length c.prior :: c.assignSections s.requests.length s.runs.length)

end TaskSystem

/-- Item by item: what is completed keeps its status and its assignee. -/
def KeepsCompleted (items items' : List PlanItem) : Prop :=
  List.Forall₂ (fun item item' => isCompletedStatus item.status →
    item'.status = item.status ∧ item'.assignedTo = item.assignedTo) items items'

instance (items items' : List PlanItem) : Decidable (KeepsCompleted items items') :=
  inferInstanceAs (Decidable (List.Forall₂ _ items items'))

/-! ### Requests that reach a completed item -/

/-- There is a session for the assignment: the requested one, or a candidate. -/
def HasTarget (reqSessionId swarmId : String) (members : List SwarmMember) :
    Option String → Prop
  | some target => target ≠ reqSessionId ∧
    ∃ member, members.find? (·.sessionId = target) = some member ∧ member.swarmId = some swarmId
  | none => filterSwarmAgentCandidates members reqSessionId swarmId ≠ []

/-- The item that an assignment goes to: the requested one when its dependencies are met, or the
first one with the id that is picked. -/
def GoesTo (plan : VersionedPlan) (taskId : Option String) (item : PlanItem) : Prop :=
  match taskId with
  | some taskId => findItem plan.items taskId = some item ∧ dependenciesMet plan.items item
  | none => nextUnassignedRunnableItemId plan = some item.id ∧
    findItem plan.items item.id = some item

/-- The task of a control request, by its id or as the task of the target session. -/
def Names (plan : VersionedPlan) (action : TaskControlAction) (taskId : String)
    (targetSession : Option String) (item : PlanItem) : Prop :=
  if trim taskId ≠ "" then findItem plan.items taskId = some item
  else ∃ target, targetSession = some target ∧
    taskControlTargetItemId plan.items target action = .ok item.id ∧
      findItem plan.items item.id = some item

/-- The session which a control action assigns the item to. -/
def HandsTo (action : TaskControlAction) (targetSession : Option String) (item : PlanItem)
    (session : String) : Prop :=
  match action with
  | .start | .wake | .resume => False
  | .retry => item.status ∈ ["failed", "running_stale"] ∧ item.assignedTo = some session
  | .reassign | .salvage => item.status ∉ ["done", "running"] ∧ item.assignedTo.isSome ∧
    targetSession = some session ∧ item.assignedTo ≠ some session
  | .replace => item.status ∈ ["queued", "failed", "stopped", "crashed", "running_stale"] ∧
    item.assignedTo.isSome ∧ targetSession = some session ∧ item.assignedTo ≠ some session

/-- A control action which restarts the item on its session. -/
def Restarts (action : TaskControlAction) (targetSession : Option String) (item : PlanItem) :
    Prop :=
  action ∈ [.start, .wake, .resume] ∧ taskControlActionAllowsStatus action item.status ∧
    item.assignedTo.isSome ∧ (targetSession = none ∨ targetSession = item.assignedTo)

/-- A control action on the item assigns one which is completed: the one that the id of the item
leads to once it is trimmed. -/
def HandsCompleted (swarmId : String) (plan : VersionedPlan) (reqSessionId : String)
    (members : List SwarmMember) (action : TaskControlAction) (targetSession : Option String)
    (named : PlanItem) : Prop :=
  ∃ session, HandsTo action targetSession named session ∧
    HasTarget reqSessionId swarmId members (trimmedArgument (some session)) ∧
      ∃ item, GoesTo plan (trimmedArgument (some named.id)) item ∧ isCompletedStatus item.status

/-- The request assigns an item which is completed. -/
def ReachesCompleted (swarmId : String) (plan : VersionedPlan) (reqSessionId : String)
    (c : RequestContext) : TaskRequest → Prop
  | .assign targetSession taskId _ =>
    HasTarget reqSessionId swarmId c.members (trimmedArgument targetSession) ∧
      ∃ item, GoesTo plan (trimmedArgument taskId) item ∧ isCompletedStatus item.status
  | .control action taskId targetSession _ =>
    ∃ parsed named, TaskControlAction.parse action = some parsed ∧
      Names plan parsed taskId targetSession named ∧
        HandsCompleted swarmId plan reqSessionId c.members parsed targetSession named

/-! ### What an update keeps -/

section

variable {items : List PlanItem} {id : String} {f g : PlanItem → PlanItem}

lemma updateItem_of_none (h : findItem items id = none) : updateItem id f items = items := by
  induction items with
  | nil => rfl
  | cons item items ih =>
    rw [findItem, List.find?_cons] at h
    by_cases hid : item.id = id
    · simp [hid] at h
    · simp only [hid, decide_false] at h
      rw [updateItem, if_neg hid, ih h]

lemma updateItem_updateItem (hf : ∀ item, (f item).id = item.id) :
    updateItem id g (updateItem id f items) = updateItem id (g ∘ f) items := by
  induction items with
  | nil => rfl
  | cons item items ih =>
    by_cases hid : item.id = id
    · simp [updateItem, hid, hf]
    · simp [updateItem, hid, ih]

lemma KeepsCompleted.refl (items : List PlanItem) : KeepsCompleted items items :=
  List.forall₂_same.mpr fun _ _ _ => ⟨rfl, rfl⟩

/-- An update to an unfinished status keeps the completed items if and only if the item it
changes is not one of them. -/
lemma keepsCompleted_updateItem_iff (hf : ∀ item, isCompletedStatus (f item).status = false) :
    KeepsCompleted items (updateItem id f items) ↔
      ∀ item, findItem items id = some item → isCompletedStatus item.status = false := by
  induction items with
  | nil => simp [updateItem, findItem, KeepsCompleted]
  | cons item items ih =>
    by_cases hid : item.id = id
    · have hrest : KeepsCompleted items items := .refl items
      simp only [updateItem, hid, if_true, findItem, List.find?_cons, decide_true,
        Option.some.injEq, forall_eq', KeepsCompleted, List.forall₂_cons]
      constructor
      · rintro ⟨hitem, -⟩
        by_contra hdone
        have hstatus := (hitem (by simpa using hdone)).1
        have hdone' := hf item
        rw [hstatus] at hdone'
        exact hdone hdone'
      · intro hdone
        exact ⟨fun h => by simp [hdone] at h, hrest⟩
    · have hitem : findItem (item :: items) id = findItem items id := by simp [findItem, hid]
      rw [hitem, ← ih]
      simp [updateItem, hid, KeepsCompleted]

/-- The first item with the id has got an unfinished status. -/
def Unfinishes (items items' : List PlanItem) (id : String) : Prop :=
  ∃ f, (∀ item, isCompletedStatus (f item).status = false) ∧ items' = updateItem id f items

lemma Unfinishes.keepsCompleted_iff {items' : List PlanItem} (h : Unfinishes items items' id) :
    KeepsCompleted items items' ↔
      ∀ item, findItem items id = some item → isCompletedStatus item.status = false := by
  obtain ⟨f, hf, rfl⟩ := h
  exact keepsCompleted_updateItem_iff hf

end

lemma VersionedPlan.updateTask_items (plan : VersionedPlan) (taskId status : String)
    (f : SwarmTaskProgress → SwarmTaskProgress) : (plan.updateTask taskId status f).items =
      updateItem taskId (fun item => { item with status := status }) plan.items := by
  unfold VersionedPlan.updateTask
  cases hitem : findItem plan.items taskId with
  | none => exact (updateItem_of_none hitem).symm
  | some item => rfl

/-! ### The sections one after the other -/

namespace TaskSystem

variable {s : TaskSystem} {i r : Nat} {request : CoordinatorRequest} {c : RequestContext}

@[simp] lemma perform_nil : s.perform [] = s := rfl

@[simp] lemma perform_cons {m : TaskMove} {ms : List TaskMove} :
    s.perform (m :: ms) = ((s.step m).getD s).perform ms := rfl

/-- What is performed is a run of the system. -/
lemma perform_exec (s : TaskSystem) (moves : List TaskMove) :
    ∃ taken, taken.Sublist moves ∧ exec step s taken = some (s.perform moves) := by
  induction moves generalizing s with
  | nil => exact ⟨[], .slnil, rfl⟩
  | cons m ms ih =>
    obtain ⟨taken, hsub, hexec⟩ := ih ((s.step m).getD s)
    cases hstep : s.step m with
    | none => exact ⟨taken, hsub.cons m, by simpa [hstep] using hexec⟩
    | some t =>
      refine ⟨m :: taken, hsub.cons_cons m, exec_cons_eq_some.mpr ⟨t, hstep, ?_⟩⟩
      simpa [hstep] using hexec

lemma getElem?_setRequest (h : s.requests[i]? = some request) (phase : CoordinatorPhase) :
    (s.setRequest i request phase).requests[i]? = some { request with phase := phase } := by
  obtain ⟨hi, -⟩ := List.getElem?_eq_some_iff.mp h
  simp [setRequest, hi]

/-- A request which has returned does nothing any more, and has no run. -/
lemma perform_returned {error : Option String} (h : s.requests[i]? = some request)
    (hphase : request.phase = .returned error) (hr : s.runs.length = r) :
    s.perform (c.assignSections i r) = s ∧
      s.perform (.write i c.nowMs :: .requeue i c.nowMs :: c.startSections i r) = s ∧
        s.perform (.requeue i c.nowMs :: c.startSections i r) = s := by
  have hrun : s.runs[r]? = none := List.getElem?_eq_none hr.le
  have hstart : s.perform (c.startSections i r) = s := by
    cases hidle : c.idle <;>
      simp [RequestContext.startSections, hidle, step, stepRequest, h, hphase, hrun]
  simp [RequestContext.assignSections, step, stepRequest, h, hphase, hstart]

/-- A run that starts puts its task to "running". -/
lemma perform_start_items {session taskId text : String} (h : s.requests[i]? = some request)
    (hphase : request.phase = .spawning session taskId text) (hr : s.runs.length = r) :
    (s.perform (c.startSections i r)).plan.items = if c.idle then
      updateItem taskId (fun item => { item with status := "running" }) s.plan.items
    else s.plan.items := by
  subst hr
  cases hidle : c.idle with
  | false => simp [RequestContext.startSections, hidle]
  | true =>
    simp [RequestContext.startSections, hidle, step, stepRequest, h, hphase, addRun, setRequest,
      setRun, withPlan, startTaskRun, VersionedPlan.updateTask_items]

/-- A task that has been queued and whose run may have been started is unfinished. -/
lemma perform_start_unfinishes {session taskId text : String} {items : List PlanItem}
    {f : PlanItem → PlanItem} (h : s.requests[i]? = some request)
    (hphase : request.phase = .spawning session taskId text) (hr : s.runs.length = r)
    (hid : ∀ item, (f item).id = item.id) (hf : ∀ item, isCompletedStatus (f item).status = false)
    (hitems : s.plan.items = updateItem taskId f items) :
    Unfinishes items (s.perform (c.startSections i r)).plan.items taskId := by
  rw [perform_start_items h hphase hr, hitems]
  split_ifs with hidle
  · exact ⟨_, fun _ => rfl, updateItem_updateItem hid⟩
  · exact ⟨f, hf, rfl⟩

end TaskSystem

/-! ### Assignments -/

section

variable {plan : VersionedPlan} {req swarmId : String} {members : List SwarmMember}

lemma firstCandidate_isOk {order : SwarmMember → SwarmMember → Ordering}
    {candidates : List SwarmMember} :
    (∃ target, firstCandidate order candidates = .ok target) ↔ candidates ≠ [] := by
  have hperm :=
    List.perm_insertionSort (fun left right => ((order left right).isLE : Prop)) candidates
  unfold firstCandidate
  split
  · rename_i member rest hsorted
    have hne : candidates ≠ [] := by
      rintro rfl
      simp at hsorted
    simp [hne]
  · rename_i hsorted
    rw [hsorted] at hperm
    simp [← hperm.nil_eq]

lemma hasTarget_iff (plan : VersionedPlan) {target : Option String} :
    (∃ session, resolveAssignmentTargetSession req swarmId target members plan = .ok session) ↔
      HasTarget req swarmId members target := by
  cases target with
  | none => exact firstCandidate_isOk
  | some target =>
    simp only [resolveAssignmentTargetSession, HasTarget]
    by_cases hself : target = req
    · simp [hself]
    · cases members.find? (·.sessionId = target) with
      | none => simp [hself]
      | some member => by_cases hswarm : member.swarmId = some swarmId <;> simp [hself, hswarm]

lemma GoesTo.findItem {taskId : Option String} {item : PlanItem} (h : GoesTo plan taskId item) :
    findItem plan.items item.id = some item := by
  cases taskId with
  | none => exact h.2
  | some id => exact (findItem_eq_some h.1).2 ▸ h.1

lemma GoesTo.unique {taskId : Option String} {item item' : PlanItem} (h : GoesTo plan taskId item)
    (h' : GoesTo plan taskId item') : item' = item := by
  cases taskId with
  | none =>
    have hid : item.id = item'.id := Option.some.inj (h.1.symm.trans h'.1)
    exact Option.some.inj (h'.2.symm.trans (hid ▸ h.2))
  | some id => exact Option.some.inj (h'.1.symm.trans h.1)

/-- The assignment goes through if and only if there is an item it goes to. -/
lemma assignTask_cases (plan : VersionedPlan) (req target : String) (taskId message : Option String)
    (nowMs : Nat) :
    (∃ item, GoesTo plan taskId item ∧ assignTask plan req target taskId message nowMs =
      (plan.assign item.id req target (combineAssignmentText item.content message) nowMs,
        .ok (item.id, item.content))) ∨
    (¬ ∃ item, GoesTo plan taskId item) ∧
      ∃ error, assignTask plan req target taskId message nowMs = (plan, .error error) := by
  cases taskId with
  | none =>
    cases hpick : nextUnassignedRunnableItemId plan with
    | none =>
      have hnone : ¬ ∃ item, GoesTo plan none item := by
        rintro ⟨item, hitem, -⟩
        simp [hpick] at hitem
      exact .inr ⟨hnone, "No runnable unassigned tasks are available in the swarm plan",
        by simp [assignTask, hpick]⟩
    | some id =>
      obtain ⟨-, item, hitem, -⟩ := nextUnassignedRunnableItemId_spec hpick
      obtain rfl := (findItem_eq_some hitem).2
      exact .inl ⟨item, ⟨hpick, hitem⟩, by simp [assignTask, hpick, hitem]⟩
  | some id =>
    cases hitem : findItem plan.items id with
    | none =>
      have hnone : ¬ ∃ item, GoesTo plan (some id) item := by
        rintro ⟨item, hitem', -⟩
        exact Option.some_ne_none item (hitem'.symm.trans hitem)
      exact .inr ⟨hnone, "Task '" ++ id ++ "' not found in swarm plan",
        by simp [assignTask, explicitTaskBlockedReason, hitem]⟩
    | some item =>
      have hblocked := explicitTaskBlockedReason_eq_none hitem
      obtain rfl := (findItem_eq_some hitem).2
      by_cases hmet : dependenciesMet plan.items item
      · exact .inl ⟨item, ⟨hitem, hmet⟩, assignTask_of_requested hitem (hblocked.mpr hmet) ..⟩
      · obtain ⟨reason, hreason⟩ := Option.ne_none_iff_exists'.mp (mt hblocked.mp hmet)
        have hnone : ¬ ∃ item', GoesTo plan (some item.id) item' := by
          rintro ⟨other, hother, hmet'⟩
          cases hitem.symm.trans hother
          exact hmet hmet'
        exact .inr ⟨hnone, reason, by simp [assignTask, hreason]⟩

end

namespace TaskSystem

variable {s : TaskSystem} {i r : Nat} {request : CoordinatorRequest} {c : RequestContext}
  {targetSession taskId message : Option String}

/-- The write of an assignment, with the start of its run. -/
lemma perform_write {target : String} (h : s.requests[i]? = some request)
    (hphase : request.phase = .admitted target taskId message) (hr : s.runs.length = r) :
    (∃ item, GoesTo s.plan taskId item ∧ Unfinishes s.plan.items
      (s.perform (.write i c.nowMs :: .requeue i c.nowMs :: c.startSections i r)).plan.items
        item.id) ∨
    (¬ ∃ item, GoesTo s.plan taskId item) ∧
      (s.perform (.write i c.nowMs :: .requeue i c.nowMs :: c.startSections i r)).plan.items =
        s.plan.items := by
  rcases assignTask_cases s.plan request.reqSessionId target taskId message c.nowMs with
    ⟨item, hitem, hassign⟩ | ⟨hnone, error, hassign⟩
  · refine .inl ⟨item, hitem, ?_⟩
    generalize hplan : s.plan.assign item.id request.reqSessionId target
      (combineAssignmentText item.content message) c.nowMs = plan at hassign
    have hwrite : s.step (.write i c.nowMs) = some ((s.withPlan plan).setRequest i request
        (.spawning target item.id (combineAssignmentText item.content message))) := by
      simp [step, stepRequest, h, hphase, hassign]
    have hget := getElem?_setRequest (s := s.withPlan plan) h
      (.spawning target item.id (combineAssignmentText item.content message))
    have hrequeue : ((s.withPlan plan).setRequest i request (.spawning target item.id
        (combineAssignmentText item.content message))).step (.requeue i c.nowMs) = none := by
      simp [step, stepRequest, hget]
    rw [perform_cons, hwrite, Option.getD_some, perform_cons, hrequeue, Option.getD_none]
    refine perform_start_unfinishes hget rfl hr (f := fun item' =>
      { item' with assignedTo := some target, status := "queued" }) (fun _ => rfl)
      (fun _ => rfl) ?_
    subst hplan
    rfl
  · have hwrite : s.step (.write i c.nowMs) =
        some ((s.withPlan s.plan).setRequest i request (.returned (some error))) := by
      simp [step, stepRequest, h, hphase, hassign]
    refine .inr ⟨hnone, ?_⟩
    have hget := getElem?_setRequest (s := s.withPlan s.plan) h (.returned (some error))
    rw [perform_cons, hwrite, Option.getD_some, (perform_returned hget rfl hr).2.2]
    rfl

/-- What an assignment request does to the items. -/
lemma perform_assign (h : s.requests[i]? = some request)
    (hphase : request.phase = .assign targetSession taskId message) (hr : s.runs.length = r) :
    (∃ item, HasTarget request.reqSessionId s.swarmId c.members (trimmedArgument targetSession) ∧
      GoesTo s.plan (trimmedArgument taskId) item ∧
        Unfinishes s.plan.items (s.perform (c.assignSections i r)).plan.items item.id) ∨
    ¬ (HasTarget request.reqSessionId s.swarmId c.members (trimmedArgument targetSession) ∧
      ∃ item, GoesTo s.plan (trimmedArgument taskId) item) ∧
        (s.perform (c.assignSections i r)).plan.items = s.plan.items := by
  have hget (phase : CoordinatorPhase) := getElem?_setRequest h phase
  rw [← hasTarget_iff s.plan]
  cases hresolve : resolveAssignmentTargetSession request.reqSessionId s.swarmId
      (trimmedArgument targetSession) c.members s.plan with
  | error error =>
    have haccept : s.step (.accept i c.members) =
        some (s.setRequest i request (.returned (some error))) := by
      simp [step, stepRequest, h, hphase, hresolve]
    refine .inr ⟨by simp, ?_⟩
    rw [RequestContext.assignSections, perform_cons, haccept, Option.getD_some,
      (perform_returned (hget _) rfl hr).2.1]
    rfl
  | ok target =>
    have haccept : s.step (.accept i c.members) =
        some (s.setRequest i request (.admitted target (trimmedArgument taskId) message)) := by
      simp [step, stepRequest, h, hphase, hresolve]
    have htarget : ∃ session, (.ok target : Except String _) = .ok session := ⟨target, rfl⟩
    rw [RequestContext.assignSections, perform_cons, haccept, Option.getD_some]
    rcases perform_write (c := c) (hget _) rfl hr with ⟨item, hitem, hitems⟩ | ⟨hnone, hitems⟩
    · exact .inl ⟨item, htarget, hitem, hitems⟩
    · exact .inr ⟨fun h => hnone h.2, hitems⟩

/-- An assignment request changes a completed item if and only if it goes to one. -/
lemma perform_assign_keeps_iff (h : s.requests[i]? = some request)
    (hphase : request.phase = .assign targetSession taskId message) (hr : s.runs.length = r) :
    KeepsCompleted s.plan.items (s.perform (c.assignSections i r)).plan.items ↔
      ¬ (HasTarget request.reqSessionId s.swarmId c.members (trimmedArgument targetSession) ∧
        ∃ item, GoesTo s.plan (trimmedArgument taskId) item ∧ isCompletedStatus item.status) := by
  rcases perform_assign (c := c) h hphase hr with ⟨item, htarget, hitem, hitems⟩ | ⟨hnone, hitems⟩
  · rw [hitems.keepsCompleted_iff]
    constructor
    · rintro hkeep ⟨-, item', hitem', hdone⟩
      obtain rfl := hitem.unique hitem'
      simp [hkeep item' hitem'.findItem] at hdone
    · intro hnone item' hitem'
      cases hitem.findItem.symm.trans hitem'
      by_contra hdone
      exact hnone ⟨htarget, item, hitem, by simpa using hdone⟩
  · rw [hitems]
    refine ⟨fun _ h => hnone ⟨h.1, ?_⟩, fun _ => .refl _⟩
    obtain ⟨item, hitem, -⟩ := h.2
    exact ⟨item, hitem⟩

end TaskSystem

/-! ### Task control -/

section

variable {plan : VersionedPlan} {action : TaskControlAction} {taskId : String}
  {targetSession message : Option String} {item : PlanItem} {prior : PriorActivity}

lemma handoverRoute_assign_iff {assignee session : String} {snapshot : TaskSnapshot} :
    (∃ message', handoverRoute action taskId assignee targetSession message snapshot prior =
      .ok (.assign session message')) ↔
    targetSession = some session ∧ session ≠ assignee ∧ snapshot.status ≠ "running" ∧
      (action = .replace →
        snapshot.status ∈ ["queued", "failed", "stopped", "crashed", "running_stale"]) := by
  cases targetSession with
  | none => simp [handoverRoute]
  | some target =>
    simp only [handoverRoute, Option.some.injEq]
    split_ifs with hassignee hrunning hreplace
    · simp only [exists_false, false_iff]
      rintro ⟨rfl, hne, -⟩
      exact hne hassignee
    · simp [hrunning]
    · simp only [exists_false, false_iff]
      rintro ⟨-, -, -, hlist⟩
      exact hreplace.2 (hlist hreplace.1)
    · simp only [Except.ok.injEq, ControlRoute.assign.injEq, exists_and_left, exists_eq', and_true]
      refine ⟨?_, And.left⟩
      rintro rfl
      exact ⟨rfl, hassignee, hrunning, fun h => by_contra fun hlist => hreplace ⟨h, hlist⟩⟩

lemma restartRoute_ne_assign {assignee session : String} {message' : Option String}
    {snapshot : TaskSnapshot} : restartRoute action taskId assignee targetSession message snapshot ≠
      .ok (.assign session message') := by
  simp only [restartRoute]
  split <;> simp

/-- The actions that hand a task over, and the session they hand it to. -/
lemma controlRoute_assign_iff {session : String} {snapshot : TaskSnapshot}
    (hstatus : snapshot.status = item.status) (hassigned : snapshot.assignedTo = item.assignedTo) :
    (∃ message', controlRoute action taskId targetSession message snapshot prior =
      .ok (.assign session message')) ↔ HandsTo action targetSession item session := by
  unfold controlRoute
  rw [hstatus, hassigned]
  cases hallows : taskControlActionAllowsStatus action item.status with
  | false =>
    simp only [Bool.not_false, if_true, reduceCtorEq, exists_false, false_iff]
    cases action <;> simp_all [taskControlActionAllowsStatus, HandsTo]
  | true =>
    simp only [Bool.not_true, Bool.false_eq_true, if_false]
    cases howner : item.assignedTo with
    | none => cases action <;> simp [HandsTo, howner]
    | some assignee =>
      cases action with
      | start | wake | resume => simp [HandsTo, restartRoute_ne_assign]
      | retry =>
        have hretry : item.status = "failed" ∨ item.status = "running_stale" := by
          simpa [taskControlActionAllowsStatus] using hallows
        simp [HandsTo, howner, hretry]
      | reassign | salvage =>
        have hdone : item.status ≠ "done" := by simpa [taskControlActionAllowsStatus] using hallows
        simp only [handoverRoute_assign_iff, hstatus, HandsTo, howner]
        simp only [List.mem_cons, hdone, List.not_mem_nil, or_false, false_or, Option.isSome_some,
          true_and, reduceCtorEq, false_imp_iff, and_true, ne_eq, Option.some.injEq]
        constructor
        · rintro ⟨htarget, hne, hrunning⟩
          exact ⟨hrunning, htarget, fun h => hne h.symm⟩
        · rintro ⟨hrunning, htarget, hne⟩
          exact ⟨htarget, fun h => hne h.symm, hrunning⟩
      | replace =>
        simp only [handoverRoute_assign_iff, hstatus, HandsTo, howner]
        have hrunning : item.status ∈ ["queued", "failed", "stopped", "crashed", "running_stale"] →
            item.status ≠ "running" := by
          rintro hlist hrunning
          simp [hrunning] at hlist
        simp only [Option.isSome_some, true_and, forall_const, ne_eq, Option.some.injEq]
        constructor
        · rintro ⟨htarget, hne, -, hlist⟩
          exact ⟨hlist, htarget, fun h => hne h.symm⟩
        · rintro ⟨hlist, htarget, hne⟩
          exact ⟨htarget, fun h => hne h.symm, hrunning hlist, hlist⟩

lemma restarts_of_controlRoute {assignee text : String} {requeue : Bool} {snapshot : TaskSnapshot}
    (hstatus : snapshot.status = item.status) (hassigned : snapshot.assignedTo = item.assignedTo)
    (h : controlRoute action taskId targetSession message snapshot prior =
      .ok (.restart assignee text requeue)) : Restarts action targetSession item := by
  have howner : item.assignedTo = some assignee := hassigned ▸ controlRoute_restart h
  have hallows : taskControlActionAllowsStatus action item.status := by
    by_contra hnot
    rw [controlRoute, hstatus, if_pos (by simpa using hnot)] at h
    cases h
  rw [controlRoute, hstatus, if_neg (by simpa using hallows), hassigned, howner] at h
  have hsession (h : restartRoute action taskId assignee targetSession message snapshot =
      .ok (.restart assignee text requeue)) :
      targetSession = none ∨ targetSession = item.assignedTo := by
    cases targetSession with
    | none => exact .inl rfl
    | some target =>
      by_cases htarget : target = assignee
      · exact .inr (htarget ▸ howner.symm)
      · have hfilter : (some target).filter (· ≠ assignee) = some target := by simp [htarget]
        rw [restartRoute, hfilter] at h
        cases h
  have hsome : item.assignedTo.isSome := by simp [howner]
  cases action with
  | start | wake | resume => exact ⟨by simp, hallows, hsome, hsession h⟩
  | retry => simp at h
  | reassign | replace | salvage => exact (handoverRoute_ne_restart h).elim

/-- A task that can be restarted is not completed. -/
lemma Restarts.not_completed (h : Restarts action targetSession item) :
    isCompletedStatus item.status = false := by
  obtain ⟨haction, hallows, -⟩ := h
  simp only [List.mem_cons, List.not_mem_nil, or_false] at haction
  rcases haction with rfl | rfl | rfl <;>
    simp only [taskControlActionAllowsStatus, decide_eq_true_eq, List.mem_cons,
      List.not_mem_nil, or_false] at hallows
  · simp [hallows, isCompletedStatus]
  · simp [hallows, isCompletedStatus]
  · rcases hallows with h | h | h <;> simp [h, isCompletedStatus]

/-- A control request that has found its task returns, restarts it or hands it over. -/
lemma routedPhase_cases {phase : CoordinatorPhase} (hitem : findItem plan.items taskId = some item)
    (hphase : TaskSystem.routedPhase plan action taskId targetSession message prior = phase) :
    (∃ error, phase = .returned error ∧ ∀ session, ¬ HandsTo action targetSession item session) ∨
    (∃ (assignee text : String) (requeue : Bool), phase =
        (if requeue then .requeueing assignee taskId text else .spawning assignee taskId text) ∧
      (∀ session, ¬ HandsTo action targetSession item session) ∧
        Restarts action targetSession item) ∨
    ∃ session message', phase = .assign (some session) (some taskId) message' ∧
      ∀ session', HandsTo action targetSession item session' ↔ session' = session := by
  subst hphase
  have hassign (session : String) : (∃ message', controlRoute action taskId targetSession message
      ⟨item.content, item.status, item.assignedTo, plan.taskProgress.lookup taskId⟩ prior =
        .ok (.assign session message')) ↔ HandsTo action targetSession item session :=
    controlRoute_assign_iff rfl rfl
  simp only [TaskSystem.routedPhase, taskSnapshotFor, hitem, Option.map_some]
  cases hroute : controlRoute action taskId targetSession message ⟨item.content, item.status,
      item.assignedTo, plan.taskProgress.lookup taskId⟩ prior with
  | error error =>
    refine .inl ⟨_, rfl, fun session hhands => ?_⟩
    simpa [hroute] using (hassign session).mpr hhands
  | ok route =>
    cases route with
    | restart assignee text requeue =>
      refine .inr (.inl ⟨assignee, text, requeue, by cases requeue <;> rfl,
        fun session hhands => ?_, restarts_of_controlRoute rfl rfl hroute⟩)
      simpa [hroute] using (hassign session).mpr hhands
    | assign session message' =>
      refine .inr (.inr ⟨session, message', rfl, fun session' => ?_⟩)
      rw [← hassign session', hroute]
      simp [eq_comm]

end

namespace TaskSystem

variable {s : TaskSystem} {i r : Nat} {request : CoordinatorRequest} {c : RequestContext}
  {action : TaskControlAction} {taskId : String} {targetSession message : Option String}
  {item : PlanItem}

/-- A task that is restarted was not completed, so nothing that is completed changes. -/
lemma perform_restart_keeps {assignee text : String} {requeue : Bool}
    (h : s.requests[i]? = some request)
    (hphase : request.phase = if requeue then .requeueing assignee taskId text
      else .spawning assignee taskId text) (hr : s.runs.length = r)
    (hitem : findItem s.plan.items taskId = some item)
    (hdone : isCompletedStatus item.status = false) :
    KeepsCompleted s.plan.items (s.perform (c.assignSections i r)).plan.items := by
  have hfirst : ∀ item', findItem s.plan.items taskId = some item' →
      isCompletedStatus item'.status = false := by
    intro item' hitem'
    cases hitem.symm.trans hitem'
    exact hdone
  cases requeue with
  | false =>
    have hskip : s.perform (c.assignSections i r) = s.perform (c.startSections i r) := by
      simp [RequestContext.assignSections, step, stepRequest, h, hphase]
    rw [hskip, perform_start_items h hphase hr]
    split_ifs with hidle
    · exact (keepsCompleted_updateItem_iff fun _ => rfl).mpr hfirst
    · exact .refl _
  | true =>
    generalize hplan : s.plan.assign taskId request.reqSessionId assignee text c.nowMs = plan
    have hskip : s.perform (c.assignSections i r) =
        ((s.withPlan plan).setRequest i request (.spawning assignee taskId text)).perform
          (c.startSections i r) := by
      simp [RequestContext.assignSections, step, stepRequest, h, hphase,
        requeueExistingAssignment, hitem, hplan]
    have hget := getElem?_setRequest (s := s.withPlan plan) h (.spawning assignee taskId text)
    rw [hskip, (perform_start_unfinishes hget rfl hr (f := fun item' =>
      { item' with assignedTo := some assignee, status := "queued" }) (fun _ => rfl) (fun _ => rfl)
      (by subst hplan; rfl)).keepsCompleted_iff]
    exact hfirst

/-- From the snapshot on, a control request changes a completed item if and only if it hands one
over. -/
lemma perform_identified_keeps_iff (h : s.requests[i]? = some request)
    (hphase : request.phase = .identified action taskId targetSession message)
    (hr : s.runs.length = r) :
    KeepsCompleted s.plan.items
      (s.perform (.snapshot i c.prior :: c.assignSections i r)).plan.items ↔
    ¬ ∃ named, findItem s.plan.items taskId = some named ∧ HandsCompleted s.swarmId s.plan
      request.reqSessionId c.members action targetSession named := by
  generalize hrouted : routedPhase s.plan action taskId targetSession message c.prior = phase
  have hstep : s.step (.snapshot i c.prior) = some (s.setRequest i request phase) := by
    simp [step, stepRequest, h, hphase, hrouted]
  have hget := getElem?_setRequest h phase
  rw [perform_cons, hstep, Option.getD_some]
  cases hnamed : findItem s.plan.items taskId with
  | none =>
    have hphase' :
        phase = .returned (some ("Task '" ++ taskId ++ "' not found in swarm plan")) := by
      simp [← hrouted, routedPhase, taskSnapshotFor, hnamed]
    subst hphase'
    rw [(perform_returned hget rfl hr).1]
    exact iff_of_true (.refl _) (by simp)
  | some named =>
    obtain rfl := (findItem_eq_some hnamed).2
    simp only [Option.some.injEq, exists_eq_left']
    rcases routedPhase_cases hnamed hrouted with ⟨error, rfl, hno⟩ |
      ⟨assignee, text, requeue, hphase', hno, hrestarts⟩ | ⟨session, message', rfl, honly⟩
    · rw [(perform_returned hget rfl hr).1]
      exact iff_of_true (.refl _) fun ⟨session, hhands, _⟩ => hno session hhands
    · have hkeeps := perform_restart_keeps (s := s.setRequest i request phase) (r := r) (c := c)
        hget hphase' hr hnamed hrestarts.not_completed
      exact iff_of_true hkeeps fun ⟨session, hhands, _⟩ => hno session hhands
    · refine (perform_assign_keeps_iff hget rfl hr).trans (not_congr ?_)
      simp only [HandsCompleted, honly, exists_eq_left]
      rfl

/-- A task id, or the id of the target session's task. -/
lemma identifiedPhase_cases (plan : VersionedPlan) (action : TaskControlAction) (taskId : String)
    (targetSession message : Option String) :
    (∃ error, identifiedPhase plan action taskId targetSession message = .returned error ∧
      ∀ named, ¬ Names plan action taskId targetSession named) ∨
    ∃ id, identifiedPhase plan action taskId targetSession message =
      .identified action id targetSession message ∧
        ∀ named, Names plan action taskId targetSession named ↔
          findItem plan.items id = some named := by
  unfold identifiedPhase Names
  split_ifs with hblank
  · exact .inr ⟨taskId, rfl, fun _ => .rfl⟩
  cases targetSession with
  | none => exact .inl ⟨_, rfl, by simp⟩
  | some target =>
    cases hfound : taskControlTargetItemId plan.items target action with
    | error error => exact .inl ⟨some error, by simp [hfound], by simp [hfound]⟩
    | ok id =>
      refine .inr ⟨id, by simp [hfound], fun named => ?_⟩
      constructor
      · rintro ⟨target', htarget, hid, hitem⟩
        cases htarget
        cases hfound.symm.trans hid
        exact hitem
      · intro hitem
        obtain rfl := (findItem_eq_some hitem).2
        exact ⟨target, rfl, hfound, hitem⟩

end TaskSystem

/-- Of the control requests that name a task by an id without blanks around it, only reassign and
salvage hand over what is completed, and only with the status "completed". -/
lemma handsCompleted_of_trimmed {swarmId req : String} {plan : VersionedPlan}
    {members : List SwarmMember} {action : TaskControlAction} {targetSession : Option String}
    {named : PlanItem} (hnamed : findItem plan.items named.id = some named)
    (htrimmed : trimmedArgument (some named.id) = some named.id)
    (h : HandsCompleted swarmId plan req members action targetSession named) :
    (action = .reassign ∨ action = .salvage) ∧ named.status = "completed" := by
  obtain ⟨session, hhands, -, item, hitem, hdone⟩ := h
  rw [htrimmed] at hitem
  cases hnamed.symm.trans hitem.1
  have hstatus : named.status = "completed" ∨ named.status = "done" := by
    simpa [isCompletedStatus] using hdone
  cases action with
  | start | wake | resume => exact hhands.elim
  | retry | replace => rcases hstatus with h | h <;> simp [HandsTo, h] at hhands
  | reassign | salvage =>
    exact ⟨by simp, hstatus.resolve_right fun h => by simp [HandsTo, h] at hhands⟩

namespace TaskSystem

variable {s : TaskSystem} {reqSessionId action taskId : String}
  {targetSession optTaskId message : Option String} {c : RequestContext}

lemma getElem?_addRequest (phase : CoordinatorPhase) :
    (s.addRequest reqSessionId phase).requests[s.requests.length]? =
      some ⟨reqSessionId, phase⟩ := by
  simp [addRequest]

lemma serve_assign : s.serve reqSessionId (.assign targetSession optTaskId message) c =
    (s.addRequest reqSessionId (.assign targetSession optTaskId message)).perform
      (c.assignSections s.requests.length s.runs.length) := by
  simp [serve, TaskRequest.arrival, step, stepRequest, getElem?_addRequest]

lemma serve_unknown (hparse : TaskControlAction.parse action = none) :
    ∃ error, s.serve reqSessionId (.control action taskId targetSession message) c =
      (s.addRequest reqSessionId (.returned error)).perform
        (c.assignSections s.requests.length s.runs.length) := by
  refine ⟨some ("Unknown task control action. Use start, wake, resume, retry, " ++
    "reassign, replace, or salvage."), ?_⟩
  simp [-String.reduceAppend, serve, TaskRequest.arrival, step, stepRequest, getElem?_addRequest,
    hparse]

lemma serve_control {parsed : TaskControlAction} {phase : CoordinatorPhase}
    (hparse : TaskControlAction.parse action = some parsed)
    (hphase : identifiedPhase s.plan parsed taskId targetSession message = phase) :
    s.serve reqSessionId (.control action taskId targetSession message) c =
      (s.addRequest reqSessionId phase).perform (.snapshot s.requests.length c.prior ::
        c.assignSections s.requests.length s.runs.length) := by
  have hset : (s.addRequest reqSessionId (.control parsed taskId targetSession message)).setRequest
      s.requests.length ⟨reqSessionId, .control parsed taskId targetSession message⟩ phase =
        s.addRequest reqSessionId phase := by
    simp [setRequest, addRequest]
  have hplan : (s.addRequest reqSessionId
      (.control parsed taskId targetSession message)).plan = s.plan := rfl
  rw [serve, TaskRequest.arrival, perform_cons, step, hparse, Option.getD_some, perform_cons, step,
    stepRequest, getElem?_addRequest, Option.bind_some]
  simp only [hplan, hphase, hset, Option.getD_some]

/-- A control request keeps the completed tasks if and only if the task it names is not handed over
to reach one of them. -/
lemma serve_control_keeps_iff {parsed : TaskControlAction}
    (hparse : TaskControlAction.parse action = some parsed) :
    KeepsCompleted s.plan.items
      (s.serve reqSessionId (.control action taskId targetSession message) c).plan.items ↔
    ¬ ∃ named, Names s.plan parsed taskId targetSession named ∧
      HandsCompleted s.swarmId s.plan reqSessionId c.members parsed targetSession named := by
  generalize hphase : identifiedPhase s.plan parsed taskId targetSession message = phase
  have hget : (s.addRequest reqSessionId phase).requests[s.requests.length]? = _ :=
    getElem?_addRequest phase
  have hruns : (s.addRequest reqSessionId phase).runs.length = s.runs.length := rfl
  rw [serve_control hparse hphase]
  rcases identifiedPhase_cases s.plan parsed taskId targetSession message with
    ⟨error, hid, hnone⟩ | ⟨id, hid, hnames⟩
  · have hsnapshot : (s.addRequest reqSessionId phase).step
        (.snapshot s.requests.length c.prior) = none := by
      simp [step, stepRequest, getElem?_addRequest, ← hphase, hid]
    rw [perform_cons, hsnapshot, Option.getD_none,
      (perform_returned hget (hphase.symm.trans hid) hruns).1]
    exact iff_of_true (.refl _) fun ⟨named, hnamed, _⟩ => hnone named hnamed
  · simp only [hnames]
    exact perform_identified_keeps_iff (s := s.addRequest reqSessionId phase) hget
      (hphase.symm.trans hid) hruns

end TaskSystem

/-- A request keeps every completed task as it is if and only if it does not assign one that is
completed. -/
theorem coordinatorRequests_keepCompleted_iff (s : TaskSystem) (reqSessionId : String)
    (request : TaskRequest) (c : RequestContext) :
    KeepsCompleted s.plan.items (s.serve reqSessionId request c).plan.items ↔
      ¬ ReachesCompleted s.swarmId s.plan reqSessionId c request := by
  cases request with
  | assign targetSession taskId message =>
    generalize hphase : CoordinatorPhase.assign targetSession taskId message = phase
    rw [TaskSystem.serve_assign, hphase]
    exact TaskSystem.perform_assign_keeps_iff (s := s.addRequest reqSessionId phase)
      (TaskSystem.getElem?_addRequest phase) hphase.symm rfl
  | control action taskId targetSession message =>
    cases hparse : TaskControlAction.parse action with
    | none =>
      obtain ⟨error, hserve⟩ := TaskSystem.serve_unknown hparse
      have hruns : (s.addRequest reqSessionId (.returned error)).runs.length = s.runs.length := rfl
      rw [hserve, (TaskSystem.perform_returned (TaskSystem.getElem?_addRequest _) rfl hruns).1]
      exact iff_of_true (.refl _) (by simp [ReachesCompleted, hparse])
    | some parsed =>
      rw [TaskSystem.serve_control_keeps_iff hparse]
      simp [ReachesCompleted, hparse]

/-- A task is assigned and carried out. -/
def finishedRun : List TaskMove :=
  [.requestAssign "coord" (some "fox") (some "a") none, .accept 0 [readyAgent "fox"], .write 0 1,
    .spawnRun 0, .startRun 0 2, .finishRun 0 none 3, .drain 0]

/-- The task that is done is assigned once more, and is running again. -/
theorem coordinatorRequests_reopenDone :
    ¬ ∀ (swarmId : String) (plan : VersionedPlan) (moves : List TaskMove) (s : TaskSystem)
        (reqSessionId : String) (request : TaskRequest) (c : RequestContext),
        exec TaskSystem.step (.start swarmId plan) moves = some s →
          KeepsCompleted s.plan.items (s.serve reqSessionId request c).plan.items := by
  intro h
  obtain ⟨s, hs, hreopened⟩ := (Option.any_eq_true _ _).mp
    (show (exec TaskSystem.step
        (.start "swarm" { VersionedPlan.new with items := [queuedTask "a"] }) finishedRun).any
      (fun s => ¬ KeepsCompleted s.plan.items (s.serve "coord"
        (.assign (some "owl") (some "a") none)
          ⟨[readyAgent "owl"], ⟨none, []⟩, 4, true⟩).plan.items) by decide +kernel)
  exact of_decide_eq_true hreopened (h _ _ _ s _ _ _ hs)

end Jcode
