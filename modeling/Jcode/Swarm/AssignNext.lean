import Jcode.Foundation.Run
import Jcode.Swarm.Assignment

/-!
# Concurrent assign-next requests

Any number of `handle_comm_assign_next` requests without a target session run at once. A request
picks a task under one lock of the plans, chooses a session for it under others, and writes the
assignment under a last one, by the path that serves explicitly requested tasks. That path does
not ask again whether the task has been assigned in the meantime.
-/

namespace Jcode

open Schedule

/-- Where a request stands. `seen` is how many assignments had been written when the request
picked its task; the code does not keep it. -/
inductive AssignNextPhase
  | entered
  | picked (taskId : String) (seen : Nat)
  | resolved (taskId : String) (seen : Nat) (preferredTarget : Except String String)
  | assigning (taskId : String) (seen : Nat) (targetSession : String)
  | admitted (taskId : String) (seen : Nat) (targetSession : String)
  | returned (response : Except String (String × String))

/-- The task the request has picked and not yet written or given up. -/
def AssignNextPhase.pending? : AssignNextPhase → Option (String × Nat)
  | picked taskId seen | resolved taskId seen _ | assigning taskId seen _
  | admitted taskId seen _ => some (taskId, seen)
  | entered | returned _ => none

structure AssignNextRequest where
  reqSessionId : String
  preferSpawn : Option Bool
  spawnIfNeeded : Option Bool
  message : Option String
  phase : AssignNextPhase

/-- An assignment that has been written, with the plan it was written to. -/
structure AssignmentRecord where
  before : VersionedPlan
  taskId : String
  targetSession : String

/-- The requests of one swarm in the order of their arrival. -/
structure AssignNextSystem where
  swarmId : String
  plan : VersionedPlan
  requests : List AssignNextRequest
  assignments : List AssignmentRecord

/-- `members` is what the request finds in the members' map. `refuse` is an early return of
`handle_comm_assign_task`: no permission, or a duplicate of an earlier request. -/
inductive AssignNextMove
  | arrive (reqSessionId : String) (preferSpawn spawnIfNeeded : Option Bool)
      (message : Option String)
  | pick (i : Nat)
  | resolve (i : Nat) (members : List SwarmMember)
  | spawn (i : Nat) (spawned : Except String String)
  | proceed (i : Nat)
  | refuse (i : Nat) (message : String)
  | accept (i : Nat) (members : List SwarmMember)
  | write (i : Nat) (nowMs : Nat)

/-- `prefer_spawn`, or `spawn_if_needed` and no session is available. -/
def AssignNextRequest.spawns (request : AssignNextRequest)
    (preferredTarget : Except String String) : Bool :=
  (request.preferSpawn.getD false || request.spawnIfNeeded.getD false) &&
    (request.preferSpawn.getD false || !preferredTarget.isOk)

namespace AssignNextSystem

def start (swarmId : String) (plan : VersionedPlan) : AssignNextSystem where
  swarmId := swarmId
  plan := plan
  requests := []
  assignments := []

variable (s : AssignNextSystem)

def setPhase (i : Nat) (request : AssignNextRequest) (phase : AssignNextPhase) : AssignNextSystem :=
  { s with requests := s.requests.set i { request with phase := phase } }

/-- The plan after an assignment, which is put on record. -/
def recordAssignment (plan : VersionedPlan) (taskId targetSession : String) : AssignNextSystem :=
  { s with plan := plan, assignments := s.assignments ++ [⟨s.plan, taskId, targetSession⟩] }

/-- `spawn_swarm_agent` adds the coordinator and the new session to a plan that is in use. -/
def addSpawned (plan : VersionedPlan) (reqSessionId spawned : String) : VersionedPlan :=
  if plan.items ≠ [] ∨ plan.participants ≠ ∅ then
    { plan with participants := insert spawned (insert reqSessionId plan.participants) }
  else plan

/-- One critical section of one request, or a new request. -/
def step : AssignNextMove → Option AssignNextSystem
  | .arrive reqSessionId preferSpawn spawnIfNeeded message =>
    some { s with
      requests := s.requests ++ [⟨reqSessionId, preferSpawn, spawnIfNeeded, message, .entered⟩] }
  | .pick i => (s.requests[i]?).bind fun request =>
    match request.phase with
    | .entered => some (s.setPhase i request (match nextUnassignedRunnableItemId s.plan with
      | some taskId => .picked taskId s.assignments.length
      | none =>
        .returned (.error "No runnable unassigned tasks are available in the swarm plan")))
    | _ => none
  | .resolve i members => (s.requests[i]?).bind fun request =>
    match request.phase with
    | .picked taskId seen => some (s.setPhase i request (.resolved taskId seen
        (resolveAssignmentTargetForTask request.reqSessionId s.swarmId taskId members s.plan)))
    | _ => none
  | .spawn i spawned => (s.requests[i]?).bind fun request =>
    match request.phase with
    | .resolved taskId seen preferredTarget =>
      if request.spawns preferredTarget then
        match spawned with
        | .ok session =>
          some ({ s with plan := addSpawned s.plan request.reqSessionId session }.setPhase i request
            (.assigning taskId seen session))
        | .error error => some (s.setPhase i request
            (.returned (.error ("Failed to spawn preferred worker: " ++ error))))
      else none
    | _ => none
  | .proceed i => (s.requests[i]?).bind fun request =>
    match request.phase with
    | .resolved taskId seen preferredTarget =>
      if request.spawns preferredTarget then none
      else some (s.setPhase i request (match preferredTarget with
        | .ok session => .assigning taskId seen session
        | .error message => .returned (.error message)))
    | _ => none
  | .refuse i message => (s.requests[i]?).bind fun request =>
    match request.phase with
    | .assigning _ _ _ => some (s.setPhase i request (.returned (.error message)))
    | _ => none
  | .accept i members => (s.requests[i]?).bind fun request =>
    match request.phase with
    | .assigning taskId seen targetSession =>
      some (s.setPhase i request (match resolveAssignmentTargetSession request.reqSessionId
          s.swarmId (trimmedArgument (some targetSession)) members s.plan with
        | .ok targetSession => .admitted taskId seen targetSession
        | .error message => .returned (.error message)))
    | _ => none
  | .write i nowMs => (s.requests[i]?).bind fun request =>
    match request.phase with
    | .admitted taskId _ targetSession =>
      match assignTask s.plan request.reqSessionId targetSession (trimmedArgument (some taskId))
          request.message nowMs with
      | (plan, .ok (id, _)) =>
        some ((s.recordAssignment plan id targetSession).setPhase i request
          (.returned (.ok (id, targetSession))))
      | (plan, .error message) =>
        some ({ s with plan := plan }.setPhase i request (.returned (.error message)))
    | _ => none

/-! ### What a move can do -/

variable {s} {t : AssignNextSystem} {m : AssignNextMove}

/-- Every task pending in `t` was pending in `s`. -/
def PendingFrom (s t : AssignNextSystem) : Prop :=
  ∀ r ∈ t.requests, ∀ p, r.phase.pending? = some p →
    ∃ r' ∈ s.requests, r'.phase.pending? = some p

/-- The moves by what they do to the plan, the assignments and the tasks that are pending. -/
inductive Rule (s t : AssignNextSystem) : AssignNextMove → Prop
  | quiet {m' : AssignNextMove} (hitems : t.plan.items = s.plan.items)
      (hlog : t.assignments = s.assignments) (hpending : PendingFrom s t)
      (hwrite : ∀ i nowMs, m' = .write i nowMs →
        ∃ r taskId seen target, s.requests[i]? = some r ∧ r.phase = .admitted taskId seen target ∧
          (assignTask s.plan r.reqSessionId target (trimmedArgument (some taskId)) r.message
            nowMs).2.isOk = false) : Rule s t m'
  | pick (i : Nat) (taskId : String) (hnext : nextUnassignedRunnableItemId s.plan = some taskId)
      (hitems : t.plan.items = s.plan.items)
      (hlog : t.assignments = s.assignments)
      (hpending : ∀ r ∈ t.requests, ∀ p, r.phase.pending? = some p →
        p = (taskId, s.assignments.length) ∨ ∃ r' ∈ s.requests, r'.phase.pending? = some p) :
      Rule s t (.pick i)
  | write (i nowMs seen : Nat) (r : AssignNextRequest) (taskId target id content : String)
      (plan : VersionedPlan) (hr : s.requests[i]? = some r)
      (hphase : r.phase = .admitted taskId seen target)
      (hassign : assignTask s.plan r.reqSessionId target (trimmedArgument (some taskId)) r.message
        nowMs = (plan, .ok (id, content)))
      (hplan : t.plan = plan) (hlog : t.assignments = s.assignments ++ [⟨s.plan, id, target⟩])
      (hpending : PendingFrom s t) : Rule s t (.write i nowMs)

lemma pending_setPhase {u : AssignNextSystem} {i : Nat} {r : AssignNextRequest}
    {phase : AssignNextPhase} (hr : s.requests[i]? = some r) (hu : u.requests = s.requests)
    (hp : ∀ p, phase.pending? = some p → r.phase.pending? = some p) :
    PendingFrom s (u.setPhase i r phase) := by
  intro r' hr' p hp'
  rcases List.mem_or_eq_of_mem_set hr' with hmem | rfl
  · exact ⟨r', hu ▸ hmem, hp'⟩
  · exact ⟨r, List.mem_of_getElem? hr, hp p hp'⟩

lemma Rule.of_step (h : s.step m = some t) : Rule s t m := by
  cases m with
  | arrive reqSessionId preferSpawn spawnIfNeeded message =>
    cases h
    refine .quiet rfl rfl ?_ (by simp)
    intro r hr p hp
    rcases List.mem_append.mp hr with hr | hr
    · exact ⟨r, hr, hp⟩
    · obtain rfl := List.mem_singleton.mp hr
      cases hp
  | pick i =>
    obtain ⟨r, hr, h⟩ := Option.bind_eq_some_iff.mp h
    split at h <;> cases h
    rename_i hphase
    cases hnext : nextUnassignedRunnableItemId s.plan with
    | none =>
      exact .quiet rfl rfl (pending_setPhase hr rfl (by simp [AssignNextPhase.pending?])) (by simp)
    | some taskId =>
      refine .pick i taskId hnext rfl rfl ?_
      intro r' hr' p hp
      rcases List.mem_or_eq_of_mem_set hr' with hmem | rfl
      · exact .inr ⟨r', hmem, hp⟩
      · exact .inl (Option.some.inj hp).symm
  | resolve i members =>
    obtain ⟨r, hr, h⟩ := Option.bind_eq_some_iff.mp h
    split at h <;> cases h
    rename_i hphase
    exact .quiet rfl rfl (pending_setPhase hr rfl (by simp [hphase, AssignNextPhase.pending?]))
      (by simp)
  | spawn i spawned =>
    obtain ⟨r, hr, h⟩ := Option.bind_eq_some_iff.mp h
    split at h
    · rename_i taskId seen target hphase
      split_ifs at h
      cases spawned with
      | ok session =>
        cases h
        refine .quiet ?_ rfl (pending_setPhase hr rfl (by simp [hphase, AssignNextPhase.pending?]))
          (by simp)
        simp only [setPhase, addSpawned]
        split_ifs <;> rfl
      | error error =>
        cases h
        exact .quiet rfl rfl (pending_setPhase hr rfl (by simp [AssignNextPhase.pending?]))
          (by simp)
    · cases h
  | proceed i =>
    obtain ⟨r, hr, h⟩ := Option.bind_eq_some_iff.mp h
    split at h
    · rename_i taskId seen target hphase
      split_ifs at h
      cases h
      refine .quiet rfl rfl (pending_setPhase hr rfl ?_) (by simp)
      cases target <;> simp [hphase, AssignNextPhase.pending?]
    · cases h
  | refuse i message =>
    obtain ⟨r, hr, h⟩ := Option.bind_eq_some_iff.mp h
    split at h <;> cases h
    exact .quiet rfl rfl (pending_setPhase hr rfl (by simp [AssignNextPhase.pending?])) (by simp)
  | accept i members =>
    obtain ⟨r, hr, h⟩ := Option.bind_eq_some_iff.mp h
    split at h <;> cases h
    rename_i taskId seen target hphase
    refine .quiet rfl rfl (pending_setPhase hr rfl ?_) (by simp)
    split <;> simp [hphase, AssignNextPhase.pending?]
  | write i nowMs =>
    obtain ⟨r, hr, h⟩ := Option.bind_eq_some_iff.mp h
    split at h
    · rename_i taskId seen target hphase
      split at h
      · rename_i plan id content hassign
        cases h
        exact .write i nowMs seen r taskId target id content plan hr hphase hassign rfl rfl
          (pending_setPhase hr rfl (by simp [AssignNextPhase.pending?]))
      · rename_i plan message hassign
        cases h
        refine .quiet ?_ rfl (pending_setPhase hr rfl (by simp [AssignNextPhase.pending?])) ?_
        · exact congrArg VersionedPlan.items (assignTask_eq_error hassign)
        · rintro _ _ ⟨rfl, rfl⟩
          exact ⟨r, taskId, seen, target, hr, hphase, by simp [hassign, Except.isOk, Except.toBool]⟩
    · cases h

end AssignNextSystem

end Jcode
