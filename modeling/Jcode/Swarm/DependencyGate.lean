import Jcode.Swarm.CompletedTasks
import Jcode.Swarm.PlanProposals

/-!
# Dependencies and the start of runs

Plans that are proposed and approved, assignments, assign-next picks, task control and the runs
they spawn, in any order. What had the plan of a task completed when the request behind its run
was accepted?
-/

namespace Jcode

open Schedule

/-! ### The system -/

/-- The tasks of a swarm, with the items on which each request was accepted and, from there, those
on which each run was admitted. The code keeps neither. -/
structure GateSystem where
  tasks : TaskSystem
  acceptedOn : Nat → List PlanItem
  admittedOn : Nat → List PlanItem

/-- `propose` is the coordinator's own proposal, `approve` the merge of somebody else's.
`assignNext` is the pick of `handle_comm_assign_next`, which goes on with `handle_comm_assign_task`
for the session it has found or spawned. -/
inductive GateMove
  | task (move : TaskMove)
  | propose (reqSessionId : String) (items : List PlanItem)
  | approve (reqSessionId proposer : String) (items : List PlanItem)
  | assignNext (reqSessionId targetSession : String) (message : Option String)

namespace GateSystem

def start (swarmId : String) (plan : VersionedPlan) : GateSystem where
  tasks := .start swarmId plan
  acceptedOn _ := []
  admittedOn _ := []

variable (s : GateSystem)

def items : List PlanItem := s.tasks.plan.items

/-- What is remembered of a section: a request is accepted in its snapshot or, when it assigns, in
its write, and it hands on what it was accepted on to the run which it spawns. -/
def remember (tasks : TaskSystem) : TaskMove → GateSystem
  | .snapshot i _ | .write i _ => { s with
      tasks := tasks
      acceptedOn := Function.update s.acceptedOn i s.items }
  | .spawnRun i => { s with
      tasks := tasks
      admittedOn := Function.update s.admittedOn s.tasks.runs.length (s.acceptedOn i) }
  | _ => { s with tasks := tasks }

def step : GateMove → Option GateSystem
  | .task move => (s.tasks.step move).map fun tasks => s.remember tasks move
  | .propose reqSessionId items =>
    some { s with tasks := s.tasks.withPlan (s.tasks.plan.update reqSessionId items) }
  | .approve reqSessionId proposer items =>
    some { s with tasks := s.tasks.withPlan (s.tasks.plan.merge reqSessionId proposer items) }
  | .assignNext reqSessionId targetSession message =>
    (nextUnassignedRunnableItemId s.tasks.plan).map fun taskId =>
      { s with
        tasks := s.tasks.addRequest reqSessionId
          (.assign (some targetSession) (some taskId) message) }

end GateSystem

/-! ### The gate -/

/-- What the item waits for is completed. -/
def DependenciesCompleted (items : List PlanItem) (item : PlanItem) : Prop :=
  ∀ dep ∈ item.blockedBy, dep ∈ completedItemIds items

/-- What the task waits for is completed. -/
def TaskUnblocked (items : List PlanItem) (id : String) : Prop :=
  ∀ item, findItem items id = some item → DependenciesCompleted items item

instance (items : List PlanItem) (item : PlanItem) : Decidable (DependenciesCompleted items item) :=
  inferInstanceAs (Decidable (∀ dep ∈ item.blockedBy, _))

instance (items : List PlanItem) (id : String) : Decidable (TaskUnblocked items id) :=
  inferInstanceAs (Decidable (∀ item ∈ findItem items id, DependenciesCompleted items item))

/-- A task that a plan newly lists as running waits for nothing. -/
def ListsUnblocked (items items' : List PlanItem) : Prop :=
  ∀ item' ∈ items', item'.status = "running" →
    (∀ item ∈ items, item.id = item'.id → item.status ≠ "running") →
      DependenciesCompleted items' item'

/-- Whatever enters "running" waited for nothing: a run has been started for it, unless it was
stale, and every run that has been started for it was admitted on items that unblock it. -/
def GatesRunning (s t : GateSystem) : GateMove → Prop
  | .task _ => ∀ (k : Nat) (item item' : PlanItem), s.items[k]? = some item →
      t.items[k]? = some item' → item.status ≠ "running" → item'.status = "running" →
        (item.status ≠ "running_stale" →
          ∃ run ∈ t.tasks.runs, run.taskId = item.id ∧ run.phase = .working) ∧
        ∀ (r : Nat) (run : TaskRun), t.tasks.runs[r]? = some run → run.taskId = item.id →
          run.phase ≠ .spawned → TaskUnblocked (t.admittedOn r) item.id
  | .propose _ _ | .approve _ _ _ | .assignNext _ _ _ => ListsUnblocked s.items t.items

/-- A task that is restarted waits for nothing. -/
def RestartsUnblocked (items : List PlanItem) : CoordinatorPhase → Prop
  | .identified action taskId targetSession _ => ∀ item ∈ findItem items taskId,
    Restarts action targetSession item → DependenciesCompleted items item
  | _ => True

/-- An id that is picked is that of the item which was looked at. -/
def PicksReady (plan : VersionedPlan) : CoordinatorPhase → Prop
  | .admitted _ none _ => ∀ id ∈ nextUnassignedRunnableItemId plan,
    ∀ item ∈ findItem plan.items id, isReady plan.items item
  | _ => True

/-- What the code does not check: restarts, picks of an id that several items have, and items which
a proposal lists as running. -/
def AdmitsUnblocked (s : GateSystem) : GateMove → Prop
  | .task (.snapshot i _) => ∀ request ∈ s.tasks.requests[i]?,
    RestartsUnblocked s.items request.phase
  | .task (.write i _) => ∀ request ∈ s.tasks.requests[i]?, PicksReady s.tasks.plan request.phase
  | .task _ => True
  | .propose _ items => ListsUnblocked s.items items
  | .approve _ _ items => ListsUnblocked s.items (s.items ++ items)
  | .assignNext _ _ _ => True

section

instance (items items' : List PlanItem) : Decidable (ListsUnblocked items items') :=
  inferInstanceAs (Decidable (∀ item' ∈ items', _ → _ → _))

instance (action : TaskControlAction) (targetSession : Option String) (item : PlanItem) :
    Decidable (Restarts action targetSession item) :=
  inferInstanceAs (Decidable (_ ∧ _ ∧ _ ∧ _))

instance (items : List PlanItem) : ∀ phase, Decidable (RestartsUnblocked items phase)
  | .identified _ _ _ _ => inferInstanceAs (Decidable (∀ item ∈ findItem _ _, _ → _))
  | .control .. | .assign .. | .admitted .. | .requeueing .. | .spawning .. | .returned _ =>
    isTrue trivial

instance (plan : VersionedPlan) : ∀ phase, Decidable (PicksReady plan phase)
  | .admitted _ none _ => inferInstanceAs (Decidable (∀ id ∈ nextUnassignedRunnableItemId _, _))
  | .admitted _ (some _) _ | .control .. | .identified .. | .assign .. | .requeueing .. |
    .spawning .. | .returned _ => isTrue trivial

instance (s : GateSystem) : ∀ m, Decidable (AdmitsUnblocked s m)
  | .task (.snapshot i _) =>
    inferInstanceAs (Decidable (∀ request ∈ s.tasks.requests[i]?, _))
  | .task (.write i _) => inferInstanceAs (Decidable (∀ request ∈ s.tasks.requests[i]?, _))
  | .propose _ items => inferInstanceAs (Decidable (ListsUnblocked s.items items))
  | .approve _ _ items => inferInstanceAs (Decidable (ListsUnblocked s.items (s.items ++ items)))
  | .assignNext .. | .task (.requestAssign ..) | .task (.requestControl ..) | .task (.identify _) |
    .task (.accept ..) | .task (.requeue ..) | .task (.spawnRun _) | .task (.decline ..) |
    .task (.rename ..) | .task (.refresh ..) | .task (.startRun ..) | .task (.touch ..) |
    .task (.finishRun ..) | .task (.drain _) => isTrue trivial

end

/-! ### Items that come to run -/

section

variable {items : List PlanItem} {item item' : PlanItem} {id : String} {k : Nat}

/-- At each place an update leaves the item that is there, or changes the first with the id. -/
lemma getElem?_updateItem {f : PlanItem → PlanItem} (hitem : items[k]? = some item)
    (hitem' : (updateItem id f items)[k]? = some item') :
    item' = item ∨ findItem items id = some item ∧ item' = f item := by
  induction items generalizing k with
  | nil => cases hitem
  | cons head items ih =>
    by_cases hid : head.id = id
    · cases k with
      | zero =>
        simp only [updateItem, hid, if_true, List.getElem?_cons_zero, Option.some.injEq]
          at hitem hitem'
        subst hitem
        exact .inr ⟨by simp [findItem, hid], hitem'.symm⟩
      | succ k =>
        simp only [updateItem, hid, if_true, List.getElem?_cons_succ] at hitem hitem'
        exact .inl (Option.some.inj (hitem'.symm.trans hitem))
    · cases k with
      | zero =>
        simp only [updateItem, hid, if_false, List.getElem?_cons_zero] at hitem hitem'
        exact .inl (Option.some.inj (hitem'.symm.trans hitem))
      | succ k =>
        simp only [updateItem, hid, if_false, List.getElem?_cons_succ] at hitem hitem'
        simpa [findItem, hid] using ih hitem hitem'

/-- An update to another status than "running" lets nothing run. -/
lemma not_running_updateItem {f : PlanItem → PlanItem} (hf : ∀ item, (f item).status ≠ "running")
    (hitem : items[k]? = some item) (hitem' : (updateItem id f items)[k]? = some item')
    (hstatus : item.status ≠ "running") : item'.status ≠ "running" := by
  rcases getElem?_updateItem hitem hitem' with rfl | ⟨-, rfl⟩
  · exact hstatus
  · exact hf item

/-- The staleness sweep lets only a stale task run. -/
lemma stale_of_refreshItems {nowMs staleAfterMs version : Nat}
    {progress : Finmap fun _ : String => SwarmTaskProgress} (hitem : items[k]? = some item)
    (hitem' : (refreshItems nowMs staleAfterMs progress version items).1[k]? = some item')
    (hstatus : item.status ≠ "running") (hstatus' : item'.status = "running") :
    item.status = "running_stale" := by
  induction items generalizing k progress version with
  | nil => cases hitem
  | cons head items ih =>
    unfold refreshItems at hitem'
    split_ifs at hitem' with hactive
    · cases k with
      | zero =>
        simp only [List.getElem?_cons_zero, Option.some.injEq] at hitem hitem'
        subst hitem hitem'
        have hor : head.status = "running" ∨ head.status = "running_stale" := by
          simpa [isActiveStatus] using hactive
        exact hor.resolve_left hstatus
      | succ k =>
        simp only [List.getElem?_cons_succ] at hitem hitem'
        exact ih hitem hitem'
    · cases k with
      | zero =>
        simp only [List.getElem?_cons_zero, Option.some.injEq] at hitem hitem'
        subst hitem hitem'
        exact (hstatus hstatus').elim
      | succ k =>
        simp only [List.getElem?_cons_succ] at hitem hitem'
        exact ih hitem hitem'

lemma dependenciesCompleted_of_met (h : dependenciesMet items item) :
    DependenciesCompleted items item := by
  intro dep hdep
  simp only [dependenciesMet, missingDependencies, unresolvedDependencies, Bool.and_eq_true,
    List.isEmpty_iff, List.filter_eq_nil_iff, decide_eq_true_eq, not_and, not_not] at h
  exact h.1.2 dep hdep (h.1.1 dep hdep)

end

/-- A section lets a task run that was stale, or that a run is now at work on. -/
lemma TaskSystem.working_of_running {s t : TaskSystem} {m : TaskMove} {k : Nat}
    {item item' : PlanItem} (hs : s.step m = some t) (hitem : s.plan.items[k]? = some item)
    (hitem' : t.plan.items[k]? = some item') (hstatus : item.status ≠ "running")
    (hstatus' : item'.status = "running") :
    item.status = "running_stale" ∨
      ∃ run ∈ t.runs, run.taskId = item.id ∧ run.phase = .working := by
  have hsame (hplan : t.plan.items = s.plan.items) : item.status = "running_stale" ∨
      ∃ run ∈ t.runs, run.taskId = item.id ∧ run.phase = .working := by
    rw [hplan, hitem] at hitem'
    cases hitem'
    exact (hstatus hstatus').elim
  have hqueued : "queued" ≠ "running" := by decide
  cases Section.of_step hs with
  | requestAssign | requestControl | requestUnknown | identify | snapshot | accept | refuse
  | writeNothing | decline | spawnRun | drain => exact hsame rfl
  | write i nowMs request target taskId message plan id content hrequest hphase hassign =>
    obtain ⟨⟨first, -, rfl⟩, -⟩ := assignTask_eq_ok hassign
    exact (not_running_updateItem (fun _ => hqueued) hitem hitem' hstatus hstatus').elim
  | requeue i nowMs request assignee taskId text hrequest hphase =>
    cases hfirst : findItem s.plan.items taskId with
    | none => exact hsame (by simp [setRequest, withPlan, requeueExistingAssignment, hfirst])
    | some first =>
      have hitems : (s.plan.assign taskId request.reqSessionId assignee text nowMs).items[k]? =
          some item' := by
        simpa [setRequest, withPlan, requeueExistingAssignment, hfirst] using hitem'
      exact (not_running_updateItem (fun _ => hqueued) hitem hitems hstatus hstatus').elim
  | rename old new =>
    simp only [withPlan, renamePlanParticipant, List.getElem?_map, hitem, Option.map_some,
      Option.some.injEq] at hitem'
    subst hitem'
    split_ifs at hstatus' <;> exact (hstatus hstatus').elim
  | refresh nowMs staleAfterMs => exact .inl (stale_of_refreshItems hitem hitem' hstatus hstatus')
  | startRun r nowMs run hr hphase =>
    obtain ⟨hr', -⟩ := List.getElem?_eq_some_iff.mp hr
    refine .inr ⟨{ run with phase := .working }, ?_, ?_, rfl⟩
    · exact List.mem_set hr' _
    · have hitems : (startTaskRun s.plan run.taskId run.session run.assignmentText
          nowMs).items[k]? = some item' := hitem'
      rw [startTaskRun, VersionedPlan.updateTask_items] at hitems
      rcases getElem?_updateItem hitem hitems with rfl | ⟨hfirst, -⟩
      · exact (hstatus hstatus').elim
      · exact (findItem_eq_some hfirst).2.symm
  | touch r detail checkpointSummary nowMs run hr hphase =>
    simp only [withPlan, touchSwarmTaskProgress] at hitem'
    cases hfirst : findItem s.plan.items run.taskId with
    | none => exact hsame (by simp [withPlan, touchSwarmTaskProgress, hfirst])
    | some first =>
      simp only [hfirst] at hitem'
      split_ifs at hitem' with hstale
      · rcases getElem?_updateItem hitem hitem' with rfl | ⟨hfirst', -⟩
        · exact (hstatus hstatus').elim
        · cases hfirst.symm.trans hfirst'
          exact .inl hstale
      · cases hitem.symm.trans hitem'
        exact (hstatus hstatus').elim
  | finishRun r error nowMs run hr hphase =>
    have hitems : (finishTaskRun s.plan run.taskId error nowMs).items[k]? = some item' := hitem'
    unfold finishTaskRun at hitems
    rw [VersionedPlan.updateTask_items] at hitems
    refine (not_running_updateItem (fun _ => ?_) hitem hitems hstatus hstatus').elim
    dsimp only
    split_ifs <;> decide

/-! ### Requests that are accepted -/

/-- The task for which a request is going to spawn a run. -/
def CoordinatorPhase.accepted? : CoordinatorPhase → Option String
  | requeueing _ taskId _ | spawning _ taskId _ => some taskId
  | _ => none

/-- Whoever has been accepted was accepted on items that unblock the task. -/
structure Gated (s : GateSystem) : Prop where
  requests : ∀ (i : Nat) (request : CoordinatorRequest), s.tasks.requests[i]? = some request →
    ∀ id, request.phase.accepted? = some id → TaskUnblocked (s.acceptedOn i) id
  runs : ∀ (r : Nat) (run : TaskRun), s.tasks.runs[r]? = some run →
    TaskUnblocked (s.admittedOn r) run.taskId

section

variable {s : GateSystem} {u : TaskSystem} {i r : Nat} {request : CoordinatorRequest}
  {phase : CoordinatorPhase} {acceptedOn : Nat → List PlanItem}

lemma gated_start (swarmId : String) (plan : VersionedPlan) : Gated (.start swarmId plan) where
  requests i request h := by simp [GateSystem.start, TaskSystem.start] at h
  runs r run h := by simp [GateSystem.start, TaskSystem.start] at h

/-- A request that goes on to another phase, with what is then remembered of it. -/
lemma Gated.setRequest (h : Gated s) (hrequests : u.requests = s.tasks.requests)
    (hruns : u.runs = s.tasks.runs) (hother : ∀ j, j ≠ i → acceptedOn j = s.acceptedOn j)
    (hphase : ∀ id, phase.accepted? = some id → TaskUnblocked (acceptedOn i) id) :
    Gated ⟨u.setRequest i request phase, acceptedOn, s.admittedOn⟩ where
  requests j request' hj id hid := by
    simp only [TaskSystem.setRequest, hrequests, List.getElem?_set] at hj
    show TaskUnblocked (acceptedOn j) id
    split_ifs at hj with hij
    · cases hj
      exact hij ▸ hphase id hid
    · rw [hother j (Ne.symm hij)]
      exact h.requests j request' hj id hid
  runs r run hr := h.runs r run (hruns ▸ hr)

lemma Gated.addRequest {reqSessionId : String} (h : Gated s)
    (hphase : phase.accepted? = none) :
    Gated ⟨s.tasks.addRequest reqSessionId phase, s.acceptedOn, s.admittedOn⟩ where
  requests j request' hj id hid := by
    simp only [TaskSystem.addRequest, List.getElem?_append, List.getElem?_singleton] at hj
    split_ifs at hj
    · exact h.requests j request' hj id hid
    · cases hj
      simp [hphase] at hid
  runs := h.runs

/-- A plan of other items, and a run in another phase. -/
lemma Gated.of_runs (h : Gated s) (hrequests : u.requests = s.tasks.requests)
    (hruns : ∀ (r : Nat) (run : TaskRun), u.runs[r]? = some run →
      ∃ run', s.tasks.runs[r]? = some run' ∧ run.taskId = run'.taskId) :
    Gated ⟨u, s.acceptedOn, s.admittedOn⟩ where
  requests j request' hj id hid := h.requests j request' (hrequests ▸ hj) id hid
  runs r run hr := by
    obtain ⟨run', hr', htask⟩ := hruns r run hr
    exact htask ▸ h.runs r run' hr'

lemma Gated.setRun {run : TaskRun} {phase : TaskRunPhase} (h : Gated s)
    (hrequests : u.requests = s.tasks.requests) (hruns : u.runs = s.tasks.runs)
    (hrun : s.tasks.runs[r]? = some run) :
    Gated ⟨u.setRun r run phase, s.acceptedOn, s.admittedOn⟩ := by
  refine h.of_runs hrequests fun j run' hj => ?_
  simp only [TaskSystem.setRun, hruns, List.getElem?_set] at hj
  split_ifs at hj with hij
  · cases hj
    exact ⟨run, hij ▸ hrun, rfl⟩
  · exact ⟨run', hj, rfl⟩

/-- A run that is spawned is admitted on what its request was accepted on. -/
lemma Gated.spawnRun {session taskId text : String} (h : Gated s)
    (hi : s.tasks.requests[i]? = some request)
    (hphase : request.phase = .spawning session taskId text) :
    Gated ⟨(s.tasks.addRun session taskId text).setRequest i request (.returned none), s.acceptedOn,
      Function.update s.admittedOn s.tasks.runs.length (s.acceptedOn i)⟩ where
  requests j request' hj id hid := by
    simp only [TaskSystem.setRequest, TaskSystem.addRun, List.getElem?_set] at hj
    split_ifs at hj
    · cases hj
      cases hid
    · exact h.requests j request' hj id hid
  runs r run hr := by
    simp only [TaskSystem.setRequest, TaskSystem.addRun, List.getElem?_append,
      List.getElem?_singleton] at hr
    show TaskUnblocked (Function.update s.admittedOn s.tasks.runs.length (s.acceptedOn i) r) _
    split_ifs at hr with hlt heq
    · rw [Function.update_of_ne hlt.ne]
      exact h.runs r run hr
    · cases hr
      obtain rfl : r = s.tasks.runs.length := by omega
      rw [Function.update_self]
      exact h.requests i request hi taskId (by rw [hphase]; rfl)

/-- A snapshot accepts restarts only. -/
lemma taskUnblocked_of_routedPhase {action : TaskControlAction} {taskId id : String}
    {targetSession message : Option String} {prior : PriorActivity} {plan : VersionedPlan}
    (hguard : ∀ item, findItem plan.items taskId = some item →
      Restarts action targetSession item → DependenciesCompleted plan.items item)
    (h : (TaskSystem.routedPhase plan action taskId targetSession message prior).accepted? =
      some id) : TaskUnblocked plan.items id := by
  generalize hrouted : TaskSystem.routedPhase plan action taskId targetSession message prior =
    phase at h
  cases hitem : findItem plan.items taskId with
  | none =>
    subst hrouted
    simp [TaskSystem.routedPhase, taskSnapshotFor, hitem, CoordinatorPhase.accepted?] at h
  | some item =>
    rcases routedPhase_cases hitem hrouted with ⟨error, rfl, -⟩ |
      ⟨assignee, text, requeue, rfl, -, hrestarts⟩ | ⟨session, message', rfl, -⟩
    · cases h
    · obtain rfl : taskId = id := by
        cases requeue <;> exact Option.some.inj h
      intro item' hitem'
      cases hitem.symm.trans hitem'
      exact hguard item hitem hrestarts
    · cases h

/-- An assignment goes to an item with its dependencies met, or to one that has been picked. -/
lemma taskUnblocked_of_assignTask {plan plan' : VersionedPlan} {req target id content : String}
    {taskId message : Option String} {nowMs : Nat}
    (hguard : taskId = none → ∀ item, GoesTo plan none item → isReady plan.items item)
    (h : assignTask plan req target taskId message nowMs = (plan', .ok (id, content))) :
    TaskUnblocked plan.items id := by
  rcases assignTask_cases plan req target taskId message nowMs with
    ⟨item, hitem, hassign⟩ | ⟨-, error, hassign⟩
  · obtain ⟨-, hok⟩ := Prod.mk.injEq .. ▸ hassign.symm.trans h
    obtain ⟨rfl, -⟩ := Prod.mk.injEq .. ▸ Except.ok.inj hok
    intro item' hitem'
    cases hitem.findItem.symm.trans hitem'
    cases taskId with
    | none =>
      have hready := hguard rfl item hitem
      exact dependenciesCompleted_of_met (by simp_all [isReady])
    | some taskId => exact dependenciesCompleted_of_met hitem.2
  · simp [hassign] at h

lemma Gated.task {tasks : TaskSystem} {move : TaskMove} (h : Gated s)
    (hG : AdmitsUnblocked s (.task move)) (hs : s.tasks.step move = some tasks) :
    Gated (s.remember tasks move) := by
  have hupdate (i : Nat) (items : List PlanItem) (j : Nat) (hj : j ≠ i) :
      Function.update s.acceptedOn i items j = s.acceptedOn j := Function.update_of_ne hj ..
  cases TaskSystem.Section.of_step hs with
  | requestAssign | requestControl | requestUnknown => exact h.addRequest rfl
  | identify i request action taskId targetSession message =>
    refine h.setRequest rfl rfl (fun _ _ => rfl) ?_
    rcases TaskSystem.identifiedPhase_cases s.tasks.plan action taskId targetSession message with
      ⟨error, hid, -⟩ | ⟨id, hid, -⟩ <;> rw [hid] <;> rintro _ ⟨⟩
  | snapshot i prior request action taskId targetSession message hrequest hphase =>
    refine h.setRequest rfl rfl (hupdate i s.items) fun id hid => ?_
    rw [Function.update_self]
    have hrestarts : RestartsUnblocked s.items request.phase := hG request hrequest
    rw [hphase] at hrestarts
    exact taskUnblocked_of_routedPhase hrestarts hid
  | accept | refuse | decline => exact h.setRequest rfl rfl (fun _ _ => rfl) (by rintro _ ⟨⟩)
  | write i nowMs request target taskId message plan id content hrequest hphase hassign =>
    refine h.setRequest rfl rfl (hupdate i s.items) ?_
    rintro _ ⟨⟩
    rw [Function.update_self]
    refine taskUnblocked_of_assignTask (fun hnone item hitem => ?_) hassign
    have hpicks : PicksReady s.tasks.plan request.phase := hG request hrequest
    rw [hphase, hnone] at hpicks
    exact hpicks item.id hitem.1 item hitem.2
  | writeNothing i => exact h.setRequest rfl rfl (hupdate i s.items) (by rintro _ ⟨⟩)
  | requeue i nowMs request assignee taskId text hrequest hphase =>
    refine h.setRequest rfl rfl (fun _ _ => rfl) ?_
    rintro _ ⟨⟩
    exact h.requests i request hrequest taskId (by rw [hphase]; rfl)
  | spawnRun i request session taskId text hrequest hphase => exact h.spawnRun hrequest hphase
  | rename | refresh | touch => exact h.of_runs rfl fun r run hr => ⟨run, hr, rfl⟩
  | startRun r nowMs run hr | finishRun r error nowMs run hr | drain r run hr =>
    exact h.setRun rfl rfl hr

/-- What is accepted under the guard was accepted on items that unblock the task. -/
lemma Gated.step {t : GateSystem} {m : GateMove} (h : Gated s) (hG : AdmitsUnblocked s m)
    (hs : s.step m = some t) : Gated t := by
  cases m with
  | propose reqSessionId items =>
    cases hs
    exact h.of_runs rfl fun r run hr => ⟨run, hr, rfl⟩
  | approve reqSessionId proposer items =>
    cases hs
    exact h.of_runs rfl fun r run hr => ⟨run, hr, rfl⟩
  | assignNext reqSessionId targetSession message =>
    obtain ⟨taskId, -, rfl⟩ := Option.map_eq_some_iff.mp hs
    exact h.addRequest rfl
  | task move =>
    obtain ⟨tasks, hstep, rfl⟩ := Option.map_eq_some_iff.mp hs
    exact h.task hG hstep

/-- A step from a gated state gates whatever enters "running". -/
lemma Gated.gatesRunning {t : GateSystem} {m : GateMove} (h : Gated t)
    (hG : AdmitsUnblocked s m) (hs : s.step m = some t) : GatesRunning s t m := by
  cases m with
  | propose reqSessionId items =>
    cases hs
    exact hG
  | approve reqSessionId proposer items =>
    cases hs
    exact hG
  | assignNext reqSessionId targetSession message =>
    obtain ⟨taskId, -, rfl⟩ := Option.map_eq_some_iff.mp hs
    intro item' hitem' hrunning hnone
    exact (hnone item' hitem' rfl hrunning).elim
  | task move =>
    obtain ⟨tasks, hstep, rfl⟩ := Option.map_eq_some_iff.mp hs
    have htasks : (s.remember tasks move).tasks = tasks := by cases move <;> rfl
    intro k item item' hitem hitem' hstatus hstatus'
    rw [GateSystem.items, htasks] at hitem'
    refine ⟨fun hfresh => ?_, fun r run hr htask _ => htask ▸ h.runs r run hr⟩
    rw [htasks]
    exact (TaskSystem.working_of_running hstep hitem hitem' hstatus hstatus').resolve_left hfresh

end

/-- In a run that restarts only what waits for nothing, picks by ids of one item and lists nothing
as running that waits, whatever enters "running" had its dependencies completed when the request
was accepted. -/
theorem dependencies_gateRuns {swarmId : String} {plan : VersionedPlan} {moves : List GateMove}
    {m : GateMove} {s t : GateSystem}
    (hG : Guarded GateSystem.step AdmitsUnblocked (.start swarmId plan) (moves ++ [m]))
    (hs : exec GateSystem.step (.start swarmId plan) moves = some s) (ht : s.step m = some t) :
    GatesRunning s t m := by
  have hgated : Gated s := exec_invariant_of_guarded (fun s m t h hm hs => h.step hm hs)
    hG.of_append (gated_start swarmId plan) hs
  exact (hgated.step (hG.step_mem hs) ht).gatesRunning (hG.step_mem hs) ht

/-- Two tasks, one after the other, are proposed; the first is done when the second is assigned. -/
def orderedMoves : List GateMove :=
  [.propose "coord" [{ queuedTask "a" with status := "done" },
      { queuedTask "b" with blockedBy := ["a"] }],
    .assignNext "coord" "fox" none, .task (.accept 0 [readyAgent "fox"]), .task (.write 0 1),
    .task (.spawnRun 0)]

theorem dependencies_gateRuns_orderedMoves :
    ∃ s t, exec GateSystem.step (.start "swarm" .new) orderedMoves = some s ∧
      s.step (.task (.startRun 0 2)) = some t ∧ GatesRunning s t (.task (.startRun 0 2)) := by
  have hG : Guarded GateSystem.step AdmitsUnblocked (.start "swarm" .new)
      (orderedMoves ++ [.task (.startRun 0 2)]) := by decide +kernel
  obtain ⟨s, hs, hstep⟩ := (Option.any_eq_true _ _).mp
    (show (exec GateSystem.step (.start "swarm" .new) orderedMoves).any
      (fun s => (s.step (.task (.startRun 0 2))).isSome) by decide +kernel)
  obtain ⟨t, ht⟩ := Option.isSome_iff_exists.mp hstep
  exact ⟨s, t, hs, ht, dependencies_gateRuns hG hs ht⟩

/-- A task that waits for another one is proposed with its session, and started. -/
def startedMoves : List GateMove :=
  [.propose "coord" [queuedTask "a",
      { queuedTask "b" with
        blockedBy := ["a"]
        assignedTo := some "fox" }],
    .task (.requestControl "coord" "start" "b" none none), .task (.identify 0),
    .task (.snapshot 0 ⟨none, []⟩), .task (.spawnRun 0)]

/-- The second task runs while the first one is queued. -/
theorem handleCommTaskControl_startsBlocked :
    ¬ ∀ (swarmId : String) (plan : VersionedPlan) (moves : List GateMove) (m : GateMove)
        (s t : GateSystem), exec GateSystem.step (.start swarmId plan) moves = some s →
          s.step m = some t → GatesRunning s t m := by
  intro h
  obtain ⟨s, hs, hany⟩ := (Option.any_eq_true _ _).mp
    (show (exec GateSystem.step (.start "swarm" .new) startedMoves).any (fun s =>
      (s.step (.task (.startRun 0 1))).any fun t => s.items[1]?.any fun item =>
        t.items[1]?.any fun item' => t.tasks.runs[0]?.any fun run =>
          item.status ≠ "running" ∧ item'.status = "running" ∧ run.taskId = item.id ∧
            run.phase ≠ .spawned ∧ ¬ TaskUnblocked (t.admittedOn 0) item.id) by decide +kernel)
  obtain ⟨t, ht, hany⟩ := (Option.any_eq_true _ _).mp hany
  obtain ⟨item, hitem, hany⟩ := (Option.any_eq_true _ _).mp hany
  obtain ⟨item', hitem', hany⟩ := (Option.any_eq_true _ _).mp hany
  obtain ⟨run, hrun, hany⟩ := (Option.any_eq_true _ _).mp hany
  obtain ⟨hstatus, hstatus', htask, hphase, hblocked⟩ := of_decide_eq_true hany
  exact hblocked ((h "swarm" .new startedMoves _ s t hs ht 1 item item' hitem hitem' hstatus
    hstatus').2 0 run hrun htask hphase)

end Jcode
