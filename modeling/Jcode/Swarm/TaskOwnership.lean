import Jcode.Swarm.TaskOwners
import Jcode.Swarm.TaskRuns

/-!
# Task ownership

A run never looks at `assigned_to`, and every sign of life it gives makes its session the
recorded owner of the task. Owners agree, and runs touch only their session's tasks, as long as
nobody hands a task over while a run of it is alive, or renames the owner of a task with recorded
progress.
-/

namespace Jcode

open Schedule

/-- The task and the session for which the request is about to start a run. -/
def CoordinatorPhase.spawning? : CoordinatorPhase → Option (String × String)
  | spawning session taskId _ => some (taskId, session)
  | _ => none

namespace TaskSystem

variable {s t : TaskSystem} {m : TaskMove} {l : String × String}

/-- The tasks with a run that is alive, or about to be spawned, and the session of the run. -/
def live (s : TaskSystem) : List (String × String) :=
  s.requests.filterMap (·.phase.spawning?) ++
    (s.runs.filter (·.phase ≠ .drained)).map fun run => (run.taskId, run.session)

/-- The task which a request is about to assign, and the session that gets it. The task is in the
plan and not blocked. -/
def handover? (s : TaskSystem) : TaskMove → Option (String × String)
  | .write i _ => (s.requests[i]?).bind fun request =>
    match request.phase with
    | .admitted target (some taskId) _ =>
      if (findItem s.plan.items taskId).isSome ∧ (explicitTaskBlockedReason s.plan taskId).isNone
      then some (taskId, target) else none
    | _ => none
  | .requeue i _ => (s.requests[i]?).bind fun request =>
    match request.phase with
    | .requeueing assignee taskId _ =>
      if (findItem s.plan.items taskId).isSome then some (taskId, assignee) else none
    | _ => none
  | _ => none

/-- The rename of a session that owns no task with a recorded owner or with a live run. -/
def RenamesIdle (s : TaskSystem) : TaskMove → Prop
  | .rename old new => old = new ∨ ∀ id ∈ knownIds s.plan.items, ownerOf s.plan id = some old →
    recordedOwner s.plan id = none ∧ ∀ l ∈ s.live, l.1 ≠ id
  | _ => True

/-- Nobody hands a task over while a run of it is alive for another session, and only idle
sessions are renamed. -/
def NoHandover (s : TaskSystem) (m : TaskMove) : Prop :=
  (∀ p ∈ s.handover? m, ∀ l ∈ s.live, l.1 = p.1 → l.2 = p.2) ∧ s.RenamesIdle m

/-- The run whose section the move is. -/
def runOf : TaskMove → Option Nat
  | .startRun r _ | .touch r _ _ _ | .finishRun r _ _ => some r
  | _ => none

/-! ### What a move can do -/

/-- Every live run of `t` is one of `s`, or belongs to the task's owner. -/
def LiveFrom (s t : TaskSystem) : Prop :=
  ∀ l ∈ t.live, l ∈ s.live ∨ HeldBy s.plan l.1 l.2

/-- The moves by what they do to the plan and to the live runs. -/
inductive Rule (s t : TaskSystem) : TaskMove → Prop
  | quiet {m' : TaskMove} (hrun : runOf m' = none) (hplan : t.plan = s.plan)
      (hlive : LiveFrom s t) : Rule s t m'
  | assign {m' : TaskMove} (id req target summary : String) (nowMs : Nat) (item : PlanItem)
      (hrun : runOf m' = none) (hitem : findItem s.plan.items id = some item)
      (hplan : t.plan = s.plan.assign id req target summary nowMs)
      (hlive : ∀ l ∈ t.live, l ∈ s.live ∨ l = (id, target))
      (hfree : s.handover? m' = some (id, target) ∨ item.assignedTo = none) : Rule s t m'
  | rename (old new : String) (hplan : t.plan = renamePlanParticipant s.plan old new)
      (hlive : t.live = s.live) : Rule s t (.rename old new)
  | refresh (nowMs staleAfterMs : Nat)
      (hplan : t.plan = refreshSwarmTaskStaleness s.plan nowMs staleAfterMs)
      (hlive : t.live = s.live) : Rule s t (.refresh nowMs staleAfterMs)
  | run {m' : TaskMove} (r : Nat) (run : TaskRun) (hrun : runOf m' = some r)
      (hr : s.runs[r]? = some run) (halive : run.phase ≠ .drained)
      (heffect : RunEffect s.plan t.plan run.taskId run.session)
      (hlive : ∀ l ∈ t.live, l ∈ s.live) : Rule s t m'

lemma mem_live : l ∈ s.live ↔
    (∃ r ∈ s.requests, r.phase.spawning? = some l) ∨
      ∃ run ∈ s.runs, run.phase ≠ .drained ∧ (run.taskId, run.session) = l := by
  simp [live, and_assoc]

/-- A request that goes on to another phase. -/
lemma live_setRequest {u : TaskSystem} {i : Nat} {r : CoordinatorRequest} {phase : CoordinatorPhase}
    (hrequests : u.requests = s.requests) (hruns : u.runs = s.runs)
    (hl : l ∈ (u.setRequest i r phase).live) : l ∈ s.live ∨ phase.spawning? = some l := by
  rcases mem_live.mp hl with ⟨r', hr', hspawn⟩ | ⟨run, hrun, halive⟩
  · rcases List.mem_or_eq_of_mem_set hr' with hmem | rfl
    · exact .inl (mem_live.mpr (.inl ⟨r', hrequests ▸ hmem, hspawn⟩))
    · exact .inr hspawn
  · exact .inl (mem_live.mpr (.inr ⟨run, hruns ▸ hrun, halive⟩))

/-- A run that goes on to another phase. -/
lemma live_setRun {u : TaskSystem} {r : Nat} {run : TaskRun} {phase : TaskRunPhase}
    (hrequests : u.requests = s.requests) (hruns : u.runs = s.runs) (hr : s.runs[r]? = some run)
    (halive : run.phase ≠ .drained) (hl : l ∈ (u.setRun r run phase).live) : l ∈ s.live := by
  rcases mem_live.mp hl with ⟨r', hr', hspawn⟩ | ⟨run', hrun', halive', heq⟩
  · exact mem_live.mpr (.inl ⟨r', hrequests ▸ hr', hspawn⟩)
  · rcases List.mem_or_eq_of_mem_set hrun' with hmem | rfl
    · exact mem_live.mpr (.inr ⟨run', hruns ▸ hmem, halive', heq⟩)
    · exact mem_live.mpr (.inr ⟨run, List.mem_of_getElem? hr, halive, heq⟩)

/-- A restart without requeue starts a run for the session that the snapshot found. -/
lemma routedPhase_spawning {plan : VersionedPlan} {action : TaskControlAction} {taskId : String}
    {targetSession message : Option String} {prior : PriorActivity} {item : PlanItem}
    (h : (routedPhase plan action taskId targetSession message prior).spawning? = some l)
    (hitem : findItem plan.items l.1 = some item) : item.assignedTo = some l.2 := by
  unfold routedPhase at h
  cases hsnap : taskSnapshotFor plan taskId with
  | none => simp [hsnap, CoordinatorPhase.spawning?] at h
  | some snapshot =>
    simp only [hsnap] at h
    cases hroute : controlRoute action taskId targetSession message snapshot prior with
    | error error => simp [hroute, CoordinatorPhase.spawning?] at h
    | ok route =>
      cases route with
      | assign target message => simp [hroute, CoordinatorPhase.spawning?] at h
      | restart assignee text requeue =>
        cases requeue with
        | true => simp [hroute, CoordinatorPhase.spawning?] at h
        | false =>
          simp only [hroute, CoordinatorPhase.spawning?, Option.some.injEq] at h
          subst h
          obtain ⟨item', hitem', rfl⟩ := Option.map_eq_some_iff.mp hsnap
          rw [hitem] at hitem'
          cases hitem'
          exact controlRoute_restart hroute

/-- A request that goes on to a phase that starts no run. -/
lemma Rule.of_setRequest {i : Nat} {r : CoordinatorRequest} {phase : CoordinatorPhase}
    (hrun : runOf m = none) (hphase : phase.spawning? = none) :
    Rule s (s.setRequest i r phase) m := by
  refine .quiet hrun rfl fun l hl => .inl ((live_setRequest rfl rfl hl).resolve_right ?_)
  simp [hphase]

lemma Rule.of_step (h : s.step m = some t) : Rule s t m := by
  cases Section.of_step h with
  | requestAssign reqSessionId targetSession taskId message
  | requestControl reqSessionId name taskId targetSession message
  | requestUnknown reqSessionId name taskId targetSession message =>
    refine .quiet rfl rfl fun l hl => .inl (mem_live.mpr ((mem_live.mp hl).imp_left ?_))
    simp [addRequest, CoordinatorPhase.spawning?]
  | identify i request action taskId targetSession message =>
    refine .of_setRequest rfl ?_
    unfold identifiedPhase
    split_ifs
    · rfl
    · split
      · rfl
      · split <;> rfl
  | snapshot i prior request action taskId targetSession message =>
    refine .quiet rfl rfl fun l hl => (live_setRequest rfl rfl hl).imp_right ?_
    exact fun hspawn item hitem => routedPhase_spawning hspawn hitem
  | accept | refuse | writeNothing | decline => exact .of_setRequest rfl rfl
  | write i nowMs request target taskId message plan id content hrequest hphase hassign =>
    obtain ⟨⟨item, hitem, hplan⟩, hask⟩ := assignTask_eq_ok hassign
    refine .assign id request.reqSessionId target _ nowMs item rfl hitem hplan ?_ ?_
    · exact fun l hl => (live_setRequest rfl rfl hl).imp_right fun h => (Option.some.inj h).symm
    · rcases hask with ⟨rfl, hb⟩ | ⟨rfl, hnext⟩
      · exact .inl (by simp [handover?, hrequest, hphase, hb, hitem])
      · -- picked under the same lock, the task is unassigned
        obtain ⟨-, first, hfirst, hnone⟩ := nextUnassignedRunnableItemId_spec hnext
        rw [hitem] at hfirst
        cases hfirst
        exact .inr hnone
  | requeue i nowMs request assignee taskId text hrequest hphase =>
    cases hitem : findItem s.plan.items taskId with
    | none =>
      refine .quiet rfl (by simp [requeueExistingAssignment, hitem, setRequest, withPlan]) ?_
      intro l hl
      refine (live_setRequest rfl rfl hl).imp_right fun hspawn item hfound => ?_
      cases hspawn
      cases hitem.symm.trans hfound
    | some item =>
      refine .assign taskId request.reqSessionId assignee text nowMs item rfl hitem
        (by simp [requeueExistingAssignment, hitem, setRequest, withPlan])
        (fun l hl => (live_setRequest rfl rfl hl).imp_right fun h => (Option.some.inj h).symm)
        (.inl (by simp [handover?, hrequest, hphase, hitem]))
  | spawnRun i request session taskId text hrequest hphase =>
    refine .quiet rfl rfl fun l hl => .inl ?_
    rcases mem_live.mp hl with ⟨r', hr', hspawn⟩ | ⟨run, hrun, halive, heq⟩
    · rcases List.mem_or_eq_of_mem_set hr' with hmem | rfl
      · exact mem_live.mpr (.inl ⟨r', hmem, hspawn⟩)
      · cases hspawn
    · rcases List.mem_append.mp hrun with hmem | hnew
      · exact mem_live.mpr (.inr ⟨run, hmem, halive, heq⟩)
      · -- the run takes over from the request
        obtain rfl := List.mem_singleton.mp hnew
        subst heq
        exact mem_live.mpr (.inl ⟨request, List.mem_of_getElem? hrequest, by rw [hphase]; rfl⟩)
  | rename old new => exact .rename old new rfl rfl
  | refresh nowMs staleAfterMs => exact .refresh nowMs staleAfterMs rfl rfl
  | startRun r nowMs run hr hphase =>
    have halive : run.phase ≠ .drained := by simp [hphase]
    exact .run r run rfl hr halive .startTaskRun fun l hl => live_setRun rfl rfl hr halive hl
  | touch r detail checkpointSummary nowMs run hr hphase =>
    have halive : run.phase ≠ .drained := by
      rcases hphase with hphase | ⟨hphase, -⟩ <;> simp [hphase]
    exact .run r run rfl hr halive .touch fun l hl => hl
  | finishRun r error nowMs run hr hphase =>
    have halive : run.phase ≠ .drained := by simp [hphase]
    exact .run r run rfl hr halive .finishTaskRun fun l hl => live_setRun rfl rfl hr halive hl
  | drain r run hr hphase =>
    exact .quiet rfl rfl fun l hl => .inl (live_setRun rfl rfl hr (by simp [hphase]) hl)

/-! ### Ownership along a run -/

/-- Owners agree, and a task with a live run belongs to the run's session. -/
structure Owned (s : TaskSystem) : Prop where
  agree : OwnersAgree s.plan
  held : ∀ l ∈ s.live, HeldBy s.plan l.1 l.2

lemma Owned.start (swarmId : String) {plan : VersionedPlan} (h : OwnersAgree plan) :
    Owned (start swarmId plan) :=
  ⟨h, by simp [TaskSystem.live, TaskSystem.start]⟩

lemma Owned.step (h : Owned s) (hG : NoHandover s m) (hs : s.step m = some t) : Owned t := by
  cases Rule.of_step hs with
  | quiet hrun hplan hlive =>
    refine ⟨hplan ▸ h.agree, fun l hl => ?_⟩
    rw [hplan]
    exact (hlive l hl).elim (h.held l) id
  | assign id req target summary nowMs item hrun hitem hplan hlive hfree =>
    refine ⟨hplan ▸ h.agree.assign hitem, fun l hl => ?_⟩
    rw [hplan]
    rcases hlive l hl with hold | rfl
    · refine (h.held l hold).assign fun hid => ?_
      rcases hfree with hasked | hnone
      · exact hG.1 _ hasked l hold hid
      · -- a task with a live run is not unassigned
        have howner := h.held l hold item (hid ▸ hitem)
        cases hnone.symm.trans howner
    · intro item' hitem'
      have howner : ownerOf (s.plan.assign id req target summary nowMs) id = _ :=
        ownerOf_assign hitem
      simpa [ownerOf, hitem'] using howner
  | rename old new hplan hlive =>
    rcases hG.2 with rfl | hidle
    · refine ⟨hplan ▸ h.agree.rename (.inl rfl), fun l hl => ?_⟩
      rw [hplan]
      exact (h.held l (hlive ▸ hl)).rename (.inl rfl)
    · have hknown (id : String) (howner : ownerOf s.plan id = some old) :
          recordedOwner s.plan id = none ∧ ∀ l ∈ s.live, l.1 ≠ id := by
        obtain ⟨item, hitem, -⟩ := Option.bind_eq_some_iff.mp howner
        obtain ⟨hmem, rfl⟩ := findItem_eq_some hitem
        exact hidle item.id (List.mem_map_of_mem hmem) howner
      refine ⟨hplan ▸ h.agree.rename (.inr fun id howner => (hknown id howner).1), fun l hl => ?_⟩
      rw [hplan]
      refine (h.held l (hlive ▸ hl)).rename (.inr fun item hitem hold => ?_)
      exact (hknown l.1 (by simp [ownerOf, hitem, hold])).2 l (hlive ▸ hl) rfl
  | refresh nowMs staleAfterMs hplan hlive =>
    have hsweep := refreshItems_owner nowMs staleAfterMs s.plan.taskProgress s.plan.version
      s.plan.items
    refine ⟨fun id owner recorded howner hrecorded => ?_, fun l hl => ?_⟩
    · rw [hplan, ownerOf_congr (hsweep id).1] at howner
      rw [hplan] at hrecorded
      exact h.agree id owner recorded howner ((hsweep id).2.symm.trans hrecorded)
    · rw [hplan]
      exact (h.held l (hlive ▸ hl)).congr (hsweep l.1).1
  | run r run hrun hr halive heffect hlive =>
    have hown : HeldBy s.plan run.taskId run.session :=
      h.held (run.taskId, run.session)
        (mem_live.mpr (.inr ⟨run, List.mem_of_getElem? hr, halive, rfl⟩))
    exact ⟨h.agree.run heffect hown, fun l hl => (h.held l (hlive l hl)).congr (heffect.owner l.1)⟩

/-- A section of a run changes the status or the progress of a task only while the task is
assigned to the run's session. -/
def KeepsToOwn (s t : TaskSystem) (m : TaskMove) : Prop :=
  ∀ r run id, runOf m = some r → s.runs[r]? = some run → TaskChanged s.plan t.plan id →
    ownerOf s.plan id = some run.session

lemma Owned.keepsToOwn (h : Owned s) (hs : s.step m = some t) : KeepsToOwn s t m := by
  intro r run id hrun hr hchanged
  cases Rule.of_step hs with
  | run r' run' hrun' hr' halive heffect hlive =>
    obtain rfl : r = r' := Option.some.inj (hrun.symm.trans hrun')
    obtain rfl : run = run' := Option.some.inj (hr.symm.trans hr')
    obtain ⟨rfl, item, hitem⟩ := heffect.changed hchanged
    have hown := h.held (run.taskId, run.session)
      (mem_live.mpr (.inr ⟨run, List.mem_of_getElem? hr, halive, rfl⟩)) item hitem
    simp [ownerOf, hitem, hown]
  | quiet hnone hplan hlive => cases hrun.symm.trans hnone
  | assign id req target summary nowMs item hnone hitem hplan hlive hfree =>
    cases hrun.symm.trans hnone
  | rename old new hplan hlive => cases hrun
  | refresh nowMs staleAfterMs hplan hlive => cases hrun

/-! ### What a handover leads to -/

/-- A run goes on, or is spawned. -/
def Continues (m : TaskMove) : Prop := (runOf m).isSome ∨ ∃ i, m = .spawnRun i

lemma Continues.noHandover (h : Continues m) : NoHandover s m := by
  rcases h with hrun | ⟨i, rfl⟩
  · cases m with
    | startRun r nowMs => exact ⟨by simp [handover?], trivial⟩
    | touch r detail checkpointSummary nowMs => exact ⟨by simp [handover?], trivial⟩
    | finishRun r error nowMs => exact ⟨by simp [handover?], trivial⟩
    | _ => cases hrun
  · exact ⟨by simp [handover?], trivial⟩

/-- A live run that goes on records its session as the owner, and leaves `assigned_to` alone. -/
lemma exists_recorded_of_live {item : PlanItem} (hl : l ∈ s.live)
    (hitem : findItem s.plan.items l.1 = some item) :
    ∃ more t, (∀ m ∈ more, Continues m) ∧ exec step s more = some t ∧
      RunEffect s.plan t.plan l.1 l.2 ∧ recordedOwner t.plan l.1 = some l.2 := by
  rcases mem_live.mp hl with ⟨r, hr, hspawn⟩ | ⟨run, hrun, halive, rfl⟩
  · -- the request spawns the run, and the run starts
    obtain ⟨i, hi⟩ := List.mem_iff_getElem?.mp hr
    obtain ⟨session, taskId, text, hphase, rfl⟩ : ∃ session taskId text,
        r.phase = .spawning session taskId text ∧ l = (taskId, session) := by
      unfold CoordinatorPhase.spawning? at hspawn
      split at hspawn <;> cases hspawn
      exact ⟨_, _, _, by assumption, rfl⟩
    let u := (s.addRun session taskId text).setRequest i r (.returned none)
    have hspawned : s.step (.spawnRun i) = some u := by simp [step, stepRequest, hi, hphase, u]
    let run : TaskRun := ⟨session, taskId, appendSwarmCompletionReportInstructions text, .spawned⟩
    have hrun : u.runs[s.runs.length]? = some run := by simp [u, run, addRun, setRequest]
    have hstarted : u.step (.startRun s.runs.length 0) = some ((u.withPlan (startTaskRun s.plan
        taskId session run.assignmentText 0)).setRun s.runs.length run .working) := by
      simp only [step, hrun, Option.bind_some]
      rfl
    exact ⟨[.spawnRun i, .startRun s.runs.length 0], _, by simp [Continues, runOf],
      exec_cons_eq_some.mpr ⟨u, hspawned, exec_singleton.trans hstarted⟩, .startTaskRun,
      recordedOwner_startTaskRun hitem⟩
  · obtain ⟨r, hr⟩ := List.mem_iff_getElem?.mp hrun
    cases hphase : run.phase with
    | spawned =>
      have hstarted : s.step (.startRun r 0) = some ((s.withPlan (startTaskRun s.plan run.taskId
          run.session run.assignmentText 0)).setRun r run .working) := by simp [step, hr, hphase]
      exact ⟨[.startRun r 0], _, by simp [Continues, runOf], exec_singleton.trans hstarted,
        .startTaskRun, recordedOwner_startTaskRun hitem⟩
    | working | finished =>
      have htouched : s.step (.touch r (some "") none 0) = some (s.withPlan
          (touchSwarmTaskProgress s.plan run.taskId (some run.session) (some "") none 0)) := by
        simp [step, hr, hphase]
      exact ⟨[.touch r (some "") none 0], _, by simp [Continues, runOf],
        exec_singleton.trans htouched, .touch, recordedOwner_touch hitem⟩
    | drained => exact (halive hphase).elim

/-- A live run of a task that another session has makes the owners disagree when it goes on. -/
lemma disagrees_of_live {owner : String} (hl : l ∈ s.live)
    (howner : ownerOf s.plan l.1 = some owner) (hne : owner ≠ l.2) :
    ∃ more t, (∀ m ∈ more, Continues m) ∧ exec step s more = some t ∧ ¬ OwnersAgree t.plan := by
  obtain ⟨item, hitem, -⟩ := Option.bind_eq_some_iff.mp howner
  obtain ⟨more, t, hmore, ht, heffect, hrecorded⟩ := exists_recorded_of_live hl hitem
  refine ⟨more, t, hmore, ht, fun hagree => hne (hagree l.1 owner l.2 ?_ hrecorded)⟩
  rw [ownerOf_congr (heffect.owner l.1), howner]

/-- The live runs survive a step of a request that was not about to start one. -/
lemma live_subset_setRequest {u : TaskSystem} {i : Nat} {r : CoordinatorRequest}
    {phase : CoordinatorPhase} (hrequests : u.requests = s.requests) (hruns : u.runs = s.runs)
    (hr : s.requests[i]? = some r) (hspawn : r.phase.spawning? = none) (hl : l ∈ s.live) :
    l ∈ (u.setRequest i r phase).live := by
  rcases mem_live.mp hl with ⟨r', hr', hspawn'⟩ | ⟨run, hrun, halive⟩
  · obtain ⟨j, hj⟩ := List.mem_iff_getElem?.mp hr'
    have hij : i ≠ j := by
      rintro rfl
      rw [hr] at hj
      cases hj
      cases hspawn.symm.trans hspawn'
    refine mem_live.mpr (.inl ⟨r', List.mem_iff_getElem?.mpr ⟨j, ?_⟩, hspawn'⟩)
    simp [setRequest, hrequests, List.getElem?_set_ne hij, hj]
  · exact mem_live.mpr (.inr ⟨run, hruns ▸ hrun, halive⟩)

/-- A request that is about to assign a task does so, and leaves the live runs alone. -/
lemma step_of_handover {p : String × String} (hp : s.handover? m = some p)
    (hs : s.step m = some t) : ownerOf t.plan p.1 = some p.2 ∧ ∀ l ∈ s.live, l ∈ t.live := by
  cases m with
  | write i nowMs =>
    obtain ⟨r, hr, hp⟩ := Option.bind_eq_some_iff.mp hp
    split at hp
    · rename_i target taskId message hphase
      split_ifs at hp with hfree
      cases hp
      obtain ⟨item, hitem⟩ := Option.isSome_iff_exists.mp hfree.1
      have hassign := assignTask_of_requested hitem (Option.isNone_iff_eq_none.mp hfree.2)
        r.reqSessionId target message nowMs
      simp only [step, stepRequest, hr, Option.bind_some, hphase, hassign, Option.some.injEq] at hs
      subst hs
      refine ⟨(ownerOf_assign hitem).trans (if_pos rfl), fun l hl => ?_⟩
      exact live_subset_setRequest rfl rfl hr (by rw [hphase]; rfl) hl
    · cases hp
  | requeue i nowMs =>
    obtain ⟨r, hr, hp⟩ := Option.bind_eq_some_iff.mp hp
    split at hp
    · rename_i assignee taskId text hphase
      split_ifs at hp with hfound
      cases hp
      obtain ⟨item, hitem⟩ := Option.isSome_iff_exists.mp hfound
      simp only [step, stepRequest, hr, Option.bind_some, hphase, requeueExistingAssignment, hitem,
        Option.map_some, Option.getD_some, Option.some.injEq] at hs
      subst hs
      refine ⟨(ownerOf_assign hitem).trans (if_pos rfl), fun l hl => ?_⟩
      exact live_subset_setRequest rfl rfl hr (by rw [hphase]; rfl) hl
    · cases hp
  | _ => cases hp

/-- A handover makes the owners disagree, at once or when the live run goes on. -/
lemma disagrees_of_handover (h : Owned s) (hG : ¬ NoHandover s m) (hs : s.step m = some t) :
    ∃ more u, (∀ m ∈ more, Continues m) ∧ exec step t more = some u ∧ ¬ OwnersAgree u.plan := by
  rcases not_and_or.mp hG with hassign | hrename
  · simp only [not_forall] at hassign
    obtain ⟨p, hp, l, hl, hid, hne⟩ := hassign
    obtain ⟨howner, hlive⟩ := step_of_handover hp hs
    exact disagrees_of_live (hlive l hl) (hid ▸ howner) (Ne.symm hne)
  · cases m with
    | rename old new =>
      simp only [RenamesIdle, not_or, not_forall] at hrename
      obtain ⟨hne, id, -, howner, hbusy⟩ := hrename
      cases hs
      have howner' : ownerOf (renamePlanParticipant s.plan old new) id = some new := by
        simp [ownerOf_renamePlanParticipant, howner]
      rcases not_and_or.mp hbusy with hrecorded | hlive
      · -- the recorded owner, still the old session, disagrees at once
        obtain ⟨recorded, hrecorded⟩ := Option.ne_none_iff_exists'.mp hrecorded
        refine ⟨[], _, by simp, rfl, fun hagree => hne ?_⟩
        rw [h.agree id old recorded howner hrecorded]
        exact (hagree id new recorded howner' hrecorded).symm
      · simp only [not_forall, not_not] at hlive
        obtain ⟨l, hl, rfl⟩ := hlive
        obtain ⟨item, hitem, hold⟩ := Option.bind_eq_some_iff.mp howner
        have hsession : l.2 = old := Option.some.inj ((h.held l hl item hitem).symm.trans hold)
        exact disagrees_of_live (s := s.withPlan _) hl howner' (hsession ▸ Ne.symm hne)
    | _ => exact (hrename trivial).elim

end TaskSystem

open TaskSystem

/-- Both halves of task ownership, in a state and for the next step. -/
def TaskSystem.OwnsTasks (s : TaskSystem) : Prop :=
  OwnersAgree s.plan ∧ ∀ m t, s.step m = some t → KeepsToOwn s t m

/-- In every state of an interleaving, and however its live runs go on from there, the two owners
of a task agree and sections of runs leave all tasks alone that are not assigned to the run's
session: exactly when no live run's task is handed over and only idle sessions are renamed. -/
theorem spawnAssignedTaskRun_ownsTasks_iff {swarmId : String} {plan : VersionedPlan}
    {moves : List TaskMove} {t : TaskSystem} (hplan : OwnersAgree plan)
    (hrun : exec step (start swarmId plan) moves = some t) :
    (∀ ks ls more s, moves = ks ++ ls → (∀ m ∈ more, Continues m) →
        exec step (start swarmId plan) (ks ++ more) = some s → s.OwnsTasks) ↔
      Guarded step NoHandover (start swarmId plan) moves := by
  constructor
  · intro howns
    -- a handover would break what the run up to it promises
    have hguarded (ks ls : List TaskMove) (hk : moves = ks ++ ls) :
        Guarded step NoHandover (start swarmId plan) ks := by
      induction ks using List.reverseRecOn generalizing ls with
      | nil => trivial
      | append_singleton ks m ih =>
        have hks := ih (m :: ls) (by simpa using hk)
        refine hks.snoc fun s hs => ?_
        by_contra hG
        obtain ⟨u, hu, -⟩ := exec_append_eq_some.mp (hk ▸ hrun)
        have hsu := (exec_snoc hs).symm.trans hu
        have howned : Owned s := exec_invariant_of_guarded
          (fun s m t h hm hs => h.step hm hs) hks (.start swarmId hplan) hs
        obtain ⟨more, v, hmore, hv, hdisagree⟩ := disagrees_of_handover howned hG hsu
        exact hdisagree (howns (ks ++ [m]) ls more v hk hmore
          (exec_append_eq_some.mpr ⟨u, hu, hv⟩)).1
    simpa using hguarded moves [] (by simp)
  · intro hG ks ls more s hk hmore hs
    subst hk
    obtain ⟨u, hu, hus⟩ := exec_append_eq_some.mp hs
    have howned : Owned u := exec_invariant_of_guarded (fun s m t h hm hs => h.step hm hs)
      hG.of_append (.start swarmId hplan) hu
    have howned' : Owned s := exec_invariant_of_guarded (fun s m t h hm hs => h.step hm hs)
      (guarded_of_forall_mem fun m hm s => (hmore m hm).noHandover) howned hus
    exact ⟨howned'.agree, fun m t ht => howned'.keepsToOwn ht⟩

/-- One task, not assigned and without progress. -/
def freshPlan : VersionedPlan := { VersionedPlan.new with items := [queuedTask "a"] }

lemma ownersAgree_freshPlan : OwnersAgree freshPlan := by
  intro id owner recorded _ hrecorded
  simp [recordedOwner, freshPlan, VersionedPlan.new] at hrecorded

/-- A task is assigned, carried out, and given to another session when nothing of the run is
left. -/
def handoverAfterRun : List TaskMove :=
  [.requestAssign "coord" (some "fox") (some "a") none, .accept 0 [readyAgent "fox"], .write 0 1,
    .spawnRun 0, .startRun 0 2, .touch 0 none none 3, .finishRun 0 (some "timeout") 4, .drain 0,
    .requestControl "coord" "reassign" "a" (some "owl") none, .identify 1, .snapshot 1 ⟨none, []⟩,
    .accept 1 [readyAgent "owl"], .write 1 5]

theorem spawnAssignedTaskRun_ownsTasks_iff_handoverAfterRun :
    (∀ ks ls more s, handoverAfterRun = ks ++ ls → (∀ m ∈ more, Continues m) →
        exec step (start "swarm" freshPlan) (ks ++ more) = some s → s.OwnsTasks) ↔
      Guarded step NoHandover (start "swarm" freshPlan) handoverAfterRun := by
  obtain ⟨t, ht⟩ := Option.isSome_iff_exists.mp
    (show (exec step (start "swarm" freshPlan) handoverAfterRun).isSome by decide +kernel)
  exact spawnAssignedTaskRun_ownsTasks_iff ownersAgree_freshPlan ht

/-- A running task is assigned to another session, and then the first run gives a sign of life. -/
def handoverDuringRun : List TaskMove :=
  [.requestAssign "coord" (some "fox") (some "a") none, .accept 0 [readyAgent "fox"], .write 0 1,
    .spawnRun 0, .startRun 0 2, .requestAssign "coord" (some "owl") (some "a") none,
    .accept 1 [readyAgent "owl"], .write 1 3, .touch 0 none none 4]

/-- The task is assigned to one session and recorded as another's. -/
theorem touchSwarmTaskProgress_disowns :
    ¬ ∀ (swarmId : String) (plan : VersionedPlan) (moves : List TaskMove) (t : TaskSystem),
        OwnersAgree plan → exec step (start swarmId plan) moves = some t → t.OwnsTasks := by
  intro h
  obtain ⟨t, ht, howners⟩ := (Option.any_eq_true _ _).mp
    (show (exec step (start "swarm" freshPlan) handoverDuringRun).any (fun t =>
      ownerOf t.plan "a" = some "owl" ∧ recordedOwner t.plan "a" = some "fox") by decide +kernel)
  obtain ⟨howner, hrecorded⟩ := of_decide_eq_true howners
  have hagree := (h "swarm" freshPlan handoverDuringRun t ownersAgree_freshPlan ht).1
  exact absurd (hagree "a" "owl" "fox" howner hrecorded) (by decide)

end Jcode
