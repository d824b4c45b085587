import Jcode.Foundation.Run
import Jcode.Swarm.Mutation
import Jcode.Swarm.Plan

/-!
# Plan proposals

Sessions propose plan items, the coordinator approves or rejects them, and its own proposals
replace the plan (`server/comm_plan.rs`). Any number of requests run at once behind the mutation
layer; every lock is one move.
-/

namespace Jcode

open Schedule

/-! ### Changing a plan -/

/-- The owners named by the items. -/
def itemOwners (items : List PlanItem) : Finset String := (items.filterMap (·.assignedTo)).toFinset

/-- The coordinator's own proposal replaces the items. -/
def VersionedPlan.update (plan : VersionedPlan) (reqSessionId : String) (items : List PlanItem) :
    VersionedPlan :=
  { plan with
    items := items
    version := plan.version + 1
    participants := insert reqSessionId plan.participants ∪ itemOwners items }

/-- An approved proposal is appended. -/
def VersionedPlan.merge (plan : VersionedPlan) (reqSessionId proposer : String)
    (items : List PlanItem) : VersionedPlan :=
  { plan with
    items := plan.items ++ items
    version := plan.version + 1
    participants := insert proposer (insert reqSessionId plan.participants) ∪ itemOwners items }

/-! ### Requests -/

/-- A value of the shared context; the instant of its creation is a number that grows. -/
structure SharedContext where
  value : String
  createdAt : Nat
deriving DecidableEq

def proposalKey (proposer : String) : String := "plan_proposal:" ++ proposer

inductive ProposalAction
  | approve
  | reject (reason : Option String)
deriving DecidableEq

/-- Where a request stands: in `begin_or_replay` up to `executing`, then in the handler, which
carries the proposal it has read, and in `finish_request`. -/
inductive ProposalPhase
  | arrived
  | loaded
  | waiting
  | marked
  | executing (state : PersistedSwarmMutationState)
  | merging (state : PersistedSwarmMutationState) (proposal : SharedContext)
      (items : List PlanItem)
  | removing (state : PersistedSwarmMutationState) (proposal : SharedContext)
  | finishing (state : PersistedSwarmMutationState) (proposal : Option SharedContext)
      (response : PersistedSwarmMutationResponse)
  | persisted (state : PersistedSwarmMutationState) (proposal : Option SharedContext)
  | notified (state : PersistedSwarmMutationState)
  | finished
  | replayed
  | queued
deriving DecidableEq

/-- An approval or rejection by the coordinator of the swarm, with the proposal that was pending
when it arrived. -/
structure ProposalRequest where
  requestId : Nat
  reqSessionId : String
  action : ProposalAction
  swarmId : String
  proposer : String
  pending : Option SharedContext
  phase : ProposalPhase
deriving DecidableEq

def ProposalAction.name : ProposalAction → String
  | approve => "approve_plan"
  | reject _ => "reject_plan"

/-- The key under which the mutation layer knows the request; `requestKey` is the hash. -/
def ProposalRequest.key (requestKey : String → String → List String → String)
    (r : ProposalRequest) : String :=
  requestKey r.reqSessionId r.action.name ([r.swarmId, r.proposer] ++
    match r.action with
    | .approve => []
    | .reject reason => [reason.getD ""])

/-! ### The system -/

/-- `swarm_members` and `swarm_coordinators`, as far as the handlers look. -/
structure SwarmRoles where
  swarmOf : String → Option String
  coordinators : String → Option String

/-- The requests by their index, which names the client channel; `merged` and `approved` record the
proposals, with swarm and proposer, that an approval has merged, and then removed. -/
structure ProposalSystem where
  roles : SwarmRoles
  context : String → String → Option SharedContext
  plans : String → Option VersionedPlan
  dir : MutationStateDir
  runtime : SwarmMutationRuntime
  nowMs : Nat
  requests : List ProposalRequest
  delivered : List (Nat × ServerEvent)
  created : Nat
  merged : List (String × String × SharedContext)
  approved : List (String × String × SharedContext)

inductive ProposalMove
  | tick (ms : Nat)
  | propose (reqSessionId : String) (items : List PlanItem)
  | request (requestId : Nat) (reqSessionId : String) (action : ProposalAction) (proposer : String)
  | loadState (i : Nat)
  | addWaiter (i : Nat)
  | markActive (i : Nat)
  | ensurePending (i : Nat)
  | readProposal (i : Nat)
  | mergeItems (i : Nat)
  | removeProposal (i : Nat)
  | persistFinal (i : Nat)
  | takeWaiters (i : Nat)
  | clearActive (i : Nat)

namespace ProposalSystem

/-- No proposal and no request yet; any plans, any state files, any clock. -/
def start (roles : SwarmRoles) (plans : String → Option VersionedPlan) (dir : MutationStateDir)
    (nowMs : Nat) : ProposalSystem where
  roles := roles
  context _ _ := none
  plans := plans
  dir := dir
  runtime := .new
  nowMs := nowMs
  requests := []
  delivered := []
  created := 0
  merged := []
  approved := []

variable (codec : TextCodec (List PlanItem))
  (requestKey : String → String → List String → String) (s : ProposalSystem)

def setPhase (i : Nat) (r : ProposalRequest) (phase : ProposalPhase) : ProposalSystem :=
  { s with requests := s.requests.set i { r with phase := phase } }

def modifyPlan (swarmId : String) (f : VersionedPlan → VersionedPlan) : ProposalSystem :=
  { s with plans := Function.update s.plans swarmId (some (f ((s.plans swarmId).getD .new))) }

/-- What is pending from a proposer. -/
def pending (swarmId proposer : String) : Option SharedContext :=
  s.context swarmId (proposalKey proposer)

def setPending (swarmId proposer : String) (proposal : Option SharedContext) : ProposalSystem :=
  { s with
    context := Function.update s.context swarmId
      (Function.update (s.context swarmId) (proposalKey proposer) proposal) }

/-- A proposal of somebody else than the coordinator replaces the one that is pending. -/
def store (swarmId proposer value : String) : ProposalSystem :=
  { s.setPending swarmId proposer (some ⟨value, s.created⟩) with created := s.created + 1 }

/-- `handle_comm_propose_plan`; the refusals change nothing. -/
def propose (reqSessionId : String) (items : List PlanItem) : ProposalSystem :=
  match s.roles.swarmOf reqSessionId with
  | none => s
  | some swarmId =>
    match s.roles.coordinators swarmId with
    | none => s
    | some coordinatorId =>
      if coordinatorId = reqSessionId then s.modifyPlan swarmId (·.update reqSessionId items)
      else s.store swarmId reqSessionId (codec.encode items)

def requireCoordinatorSwarm (roles : SwarmRoles) (reqSessionId : String) : Option String :=
  (roles.swarmOf reqSessionId).filter fun swarmId =>
    roles.coordinators swarmId = some reqSessionId

/-- What the handler goes on with after it has looked for the proposal; the second branch of an
approval is a value that cannot be parsed. -/
def readPhase (r : ProposalRequest) (state : PersistedSwarmMutationState) : ProposalPhase :=
  match s.pending r.swarmId r.proposer with
  | none => .finishing state none
      (.error ("No pending plan proposal from session '" ++ r.proposer ++ "'") none)
  | some proposal =>
    match r.action with
    | .reject _ => .removing state proposal
    | .approve =>
      match codec.decode proposal.value with
      | some items => .merging state proposal items
      | none => .finishing state (some proposal) .done

/-- The sends of `finish_request`, one for each waiter taken. -/
def answers (taken : List (Nat × Nat)) (response : PersistedSwarmMutationResponse)
    (sessionId : String) : List (Nat × ServerEvent) :=
  taken.map fun waiter => (waiter.2, response.intoServerEvent waiter.1 sessionId)

def stepRequest (i : Nat) (act : ProposalRequest → Option ProposalSystem) :
    Option ProposalSystem :=
  (s.requests[i]?).bind act

def step : ProposalMove → Option ProposalSystem
  | .tick ms => some { s with nowMs := s.nowMs + ms }
  | .propose reqSessionId items => some (s.propose codec reqSessionId items)
  | .request requestId reqSessionId action proposer =>
    (requireCoordinatorSwarm s.roles reqSessionId).map fun swarmId =>
      { s with requests := s.requests ++ [⟨requestId, reqSessionId, action, swarmId, proposer,
          s.pending swarmId proposer, .arrived⟩] }
  | .loadState i => s.stepRequest i fun r =>
    match r.phase with
    | .arrived =>
      let loaded := loadState s.dir s.nowMs (r.key requestKey)
      let s := { s with dir := loaded.2 }
      match loaded.1.bind (·.finalResponse) with
      | some response => some ({ s with delivered := s.delivered ++
          [(i, response.intoServerEvent r.requestId r.reqSessionId)] }.setPhase i r .replayed)
      | none => some (s.setPhase i r .loaded)
    | _ => none
  | .addWaiter i => s.stepRequest i fun r =>
    match r.phase with
    | .loaded => some ({ s with
        runtime := s.runtime.addWaiter (r.key requestKey) r.requestId i }.setPhase i r .waiting)
    | _ => none
  | .markActive i => s.stepRequest i fun r =>
    match r.phase with
    | .waiting =>
      let marked := s.runtime.markActiveIfNew (r.key requestKey)
      some ({ s with runtime := marked.2 }.setPhase i r (if marked.1 then .marked else .queued))
    | _ => none
  | .ensurePending i => s.stepRequest i fun r =>
    match r.phase with
    | .marked =>
      let ensured := ensurePendingState s.dir s.nowMs (r.key requestKey) r.action.name
        r.reqSessionId
      some ({ s with dir := ensured.2 }.setPhase i r (.executing ensured.1))
    | _ => none
  | .readProposal i => s.stepRequest i fun r =>
    match r.phase with
    | .executing state => some (s.setPhase i r (s.readPhase codec r state))
    | _ => none
  | .mergeItems i => s.stepRequest i fun r =>
    match r.phase with
    | .merging state proposal items => some ({ s.modifyPlan r.swarmId
        (·.merge r.reqSessionId r.proposer items) with
          merged := (r.swarmId, r.proposer, proposal) :: s.merged }.setPhase i r
            (.removing state proposal))
    | _ => none
  | .removeProposal i => s.stepRequest i fun r =>
    match r.phase with
    | .removing state proposal => some ({ s.setPending r.swarmId r.proposer none with
        approved := if r.action = ProposalAction.approve then
          (r.swarmId, r.proposer, proposal) :: s.approved else s.approved }.setPhase i r
            (.finishing state (some proposal) .done))
    | _ => none
  | .persistFinal i => s.stepRequest i fun r =>
    match r.phase with
    | .finishing state proposal response =>
      let next := persistFinalResponse s.dir state response
      some ({ s with dir := next.2 }.setPhase i r (.persisted next.1 proposal))
    | _ => none
  | .takeWaiters i => s.stepRequest i fun r =>
    match r.phase with
    | .persisted state _ =>
      match state.finalResponse with
      | some response =>
        let taken := s.runtime.takeWaiters state.key
        some ({ s with
          runtime := taken.2
          delivered := s.delivered ++ answers taken.1 response state.sessionId }.setPhase i r
            (.notified state))
      | none => some (s.setPhase i r (.notified state))
    | _ => none
  | .clearActive i => s.stepRequest i fun r =>
    match r.phase with
    | .notified state =>
      some ({ s with runtime := s.runtime.clearActive state.key }.setPhase i r .finished)
    | _ => none

/-! ### Pending proposals -/

variable {codec requestKey s} {t : ProposalSystem} {m : ProposalMove}

lemma proposalKey_inj {a b : String} : proposalKey a = proposalKey b ↔ a = b := by
  refine ⟨fun h => String.toList_inj.mp ?_, congrArg proposalKey⟩
  simpa [proposalKey] using congrArg String.toList h

lemma pending_congr (h : t.context = s.context) : t.pending = s.pending := by
  funext swarmId proposer
  simp only [pending, h]

lemma pending_setPending {swarmId proposer swarmId' proposer' : String}
    {proposal : Option SharedContext} :
    (s.setPending swarmId proposer proposal).pending swarmId' proposer' =
      if swarmId' = swarmId ∧ proposer' = proposer then proposal
      else s.pending swarmId' proposer' := by
  unfold pending setPending
  by_cases hswarm : swarmId' = swarmId
  · subst hswarm
    by_cases hproposer : proposer' = proposer
    · simp [hproposer]
    · simp [hproposer, proposalKey_inj]
  · simp [hswarm]

lemma pending_store {swarmId proposer value swarmId' proposer' : String} :
    (s.store swarmId proposer value).pending swarmId' proposer' =
      if swarmId' = swarmId ∧ proposer' = proposer then some ⟨value, s.created⟩
      else s.pending swarmId' proposer' :=
  pending_setPending

/-! ### The moves as rules -/

/-- What each move requires and what it leads to. -/
inductive Rule (codec : TextCodec (List PlanItem))
    (requestKey : String → String → List String → String) (s t : ProposalSystem) :
    ProposalMove → Prop
  | tick (ms : Nat) (ht : t = { s with nowMs := s.nowMs + ms }) :
    Rule codec requestKey s t (.tick ms)
  | refuse (reqSessionId : String) (items : List PlanItem) (ht : t = s) :
    Rule codec requestKey s t (.propose reqSessionId items)
  | update (reqSessionId swarmId : String) (items : List PlanItem)
      (hswarm : s.roles.swarmOf reqSessionId = some swarmId)
      (hcoordinator : s.roles.coordinators swarmId = some reqSessionId)
      (ht : t = s.modifyPlan swarmId (·.update reqSessionId items)) :
    Rule codec requestKey s t (.propose reqSessionId items)
  | store (reqSessionId swarmId : String) (items : List PlanItem)
      (hswarm : s.roles.swarmOf reqSessionId = some swarmId)
      (ht : t = s.store swarmId reqSessionId (codec.encode items)) :
    Rule codec requestKey s t (.propose reqSessionId items)
  | request (requestId : Nat) (reqSessionId swarmId : String) (action : ProposalAction)
      (proposer : String) (hswarm : requireCoordinatorSwarm s.roles reqSessionId = some swarmId)
      (ht : t = { s with requests := s.requests ++ [⟨requestId, reqSessionId, action, swarmId,
        proposer, s.pending swarmId proposer, .arrived⟩] }) :
    Rule codec requestKey s t (.request requestId reqSessionId action proposer)
  | replay (i : Nat) (r : ProposalRequest) (state : PersistedSwarmMutationState)
      (response : PersistedSwarmMutationResponse) (hr : s.requests[i]? = some r)
      (hp : r.phase = .arrived) (hl : (loadState s.dir s.nowMs (r.key requestKey)).1 = some state)
      (hf : state.finalResponse = some response)
      (ht : t = { s with
        dir := (loadState s.dir s.nowMs (r.key requestKey)).2
        delivered := s.delivered ++
          [(i, response.intoServerEvent r.requestId r.reqSessionId)] }.setPhase i r .replayed) :
    Rule codec requestKey s t (.loadState i)
  | load (i : Nat) (r : ProposalRequest) (hr : s.requests[i]? = some r) (hp : r.phase = .arrived)
      (ht : t = { s with
        dir := (loadState s.dir s.nowMs (r.key requestKey)).2 }.setPhase i r .loaded) :
    Rule codec requestKey s t (.loadState i)
  | addWaiter (i : Nat) (r : ProposalRequest) (hr : s.requests[i]? = some r)
      (hp : r.phase = .loaded)
      (ht : t = { s with
        runtime := s.runtime.addWaiter (r.key requestKey) r.requestId i }.setPhase i r .waiting) :
    Rule codec requestKey s t (.addWaiter i)
  | win (i : Nat) (r : ProposalRequest) (hr : s.requests[i]? = some r) (hp : r.phase = .waiting)
      (hk : r.key requestKey ∉ s.runtime.activeKeys)
      (ht : t = { s with
        runtime := (s.runtime.markActiveIfNew (r.key requestKey)).2 }.setPhase i r .marked) :
    Rule codec requestKey s t (.markActive i)
  | lose (i : Nat) (r : ProposalRequest) (hr : s.requests[i]? = some r) (hp : r.phase = .waiting)
      (hk : r.key requestKey ∈ s.runtime.activeKeys)
      (ht : t = { s with
        runtime := (s.runtime.markActiveIfNew (r.key requestKey)).2 }.setPhase i r .queued) :
    Rule codec requestKey s t (.markActive i)
  | ensurePending (i : Nat) (r : ProposalRequest) (state : PersistedSwarmMutationState)
      (dir : MutationStateDir) (hr : s.requests[i]? = some r) (hp : r.phase = .marked)
      (hd : ensurePendingState s.dir s.nowMs (r.key requestKey) r.action.name r.reqSessionId =
        (state, dir))
      (ht : t = { s with dir := dir }.setPhase i r (.executing state)) :
    Rule codec requestKey s t (.ensurePending i)
  | readProposal (i : Nat) (r : ProposalRequest) (state : PersistedSwarmMutationState)
      (hr : s.requests[i]? = some r) (hp : r.phase = .executing state)
      (ht : t = s.setPhase i r (s.readPhase codec r state)) :
    Rule codec requestKey s t (.readProposal i)
  | mergeItems (i : Nat) (r : ProposalRequest) (state : PersistedSwarmMutationState)
      (proposal : SharedContext) (items : List PlanItem) (hr : s.requests[i]? = some r)
      (hp : r.phase = .merging state proposal items)
      (ht : t = { s.modifyPlan r.swarmId (·.merge r.reqSessionId r.proposer items) with
        merged := (r.swarmId, r.proposer, proposal) :: s.merged }.setPhase i r
          (.removing state proposal)) :
    Rule codec requestKey s t (.mergeItems i)
  | removeProposal (i : Nat) (r : ProposalRequest) (state : PersistedSwarmMutationState)
      (proposal : SharedContext) (hr : s.requests[i]? = some r)
      (hp : r.phase = .removing state proposal)
      (ht : t = { s.setPending r.swarmId r.proposer none with
        approved := if r.action = ProposalAction.approve then
          (r.swarmId, r.proposer, proposal) :: s.approved else s.approved }.setPhase i r
            (.finishing state (some proposal) .done)) :
    Rule codec requestKey s t (.removeProposal i)
  | persistFinal (i : Nat) (r : ProposalRequest) (state : PersistedSwarmMutationState)
      (proposal : Option SharedContext) (response : PersistedSwarmMutationResponse)
      (hr : s.requests[i]? = some r) (hp : r.phase = .finishing state proposal response)
      (ht : t = { s with dir := (persistFinalResponse s.dir state response).2 }.setPhase i r
        (.persisted (persistFinalResponse s.dir state response).1 proposal)) :
    Rule codec requestKey s t (.persistFinal i)
  | takeWaiters (i : Nat) (r : ProposalRequest) (state : PersistedSwarmMutationState)
      (proposal : Option SharedContext) (response : PersistedSwarmMutationResponse)
      (hr : s.requests[i]? = some r) (hp : r.phase = .persisted state proposal)
      (hf : state.finalResponse = some response)
      (ht : t = { s with
        runtime := (s.runtime.takeWaiters state.key).2
        delivered := s.delivered ++ answers (s.runtime.takeWaiters state.key).1 response
          state.sessionId }.setPhase i r (.notified state)) :
    Rule codec requestKey s t (.takeWaiters i)
  | takeNone (i : Nat) (r : ProposalRequest) (state : PersistedSwarmMutationState)
      (proposal : Option SharedContext) (hr : s.requests[i]? = some r)
      (hp : r.phase = .persisted state proposal) (hf : state.finalResponse = none)
      (ht : t = s.setPhase i r (.notified state)) :
    Rule codec requestKey s t (.takeWaiters i)
  | clearActive (i : Nat) (r : ProposalRequest) (state : PersistedSwarmMutationState)
      (hr : s.requests[i]? = some r) (hp : r.phase = .notified state)
      (ht : t = { s with
        runtime := s.runtime.clearActive state.key }.setPhase i r .finished) :
    Rule codec requestKey s t (.clearActive i)

/-- Every enabled move is an instance of a rule. -/
lemma Rule.of_step (h : s.step codec requestKey m = some t) : Rule codec requestKey s t m := by
  cases m with
  | tick ms =>
    cases h
    exact .tick ms rfl
  | propose reqSessionId items =>
    cases h
    unfold ProposalSystem.propose
    split
    · exact .refuse _ _ rfl
    rename_i swarmId hswarm
    split
    · exact .refuse _ _ rfl
    rename_i coordinatorId hcoordinator
    split_ifs with heq
    · exact .update _ swarmId _ hswarm (heq ▸ hcoordinator) rfl
    · exact .store _ swarmId _ hswarm rfl
  | request requestId reqSessionId action proposer =>
    obtain ⟨swarmId, hswarm, rfl⟩ := Option.map_eq_some_iff.mp h
    exact .request _ _ swarmId _ _ hswarm rfl
  | loadState i =>
    obtain ⟨r, hr, h⟩ := Option.bind_eq_some_iff.mp h
    split at h
    · rename_i hp
      dsimp only at h
      split at h
      · rename_i response hf
        obtain ⟨state, hl, hs⟩ := Option.bind_eq_some_iff.mp hf
        cases h
        exact .replay i r state response hr hp hl hs rfl
      · cases h
        exact .load i r hr hp rfl
    · cases h
  | addWaiter i =>
    obtain ⟨r, hr, h⟩ := Option.bind_eq_some_iff.mp h
    split at h <;> cases h
    exact .addWaiter i r hr ‹_› rfl
  | markActive i =>
    obtain ⟨r, hr, h⟩ := Option.bind_eq_some_iff.mp h
    split at h <;> cases h
    by_cases hk : r.key requestKey ∈ s.runtime.activeKeys
    · exact .lose i r hr ‹_› hk (by simp [SwarmMutationRuntime.markActiveIfNew, hk])
    · exact .win i r hr ‹_› hk (by simp [SwarmMutationRuntime.markActiveIfNew, hk])
  | ensurePending i =>
    obtain ⟨r, hr, h⟩ := Option.bind_eq_some_iff.mp h
    split at h <;> cases h
    exact .ensurePending i r _ _ hr ‹_› rfl rfl
  | readProposal i =>
    obtain ⟨r, hr, h⟩ := Option.bind_eq_some_iff.mp h
    split at h <;> cases h
    exact .readProposal i r _ hr ‹_› rfl
  | mergeItems i =>
    obtain ⟨r, hr, h⟩ := Option.bind_eq_some_iff.mp h
    split at h <;> cases h
    exact .mergeItems i r _ _ _ hr ‹_› rfl
  | removeProposal i =>
    obtain ⟨r, hr, h⟩ := Option.bind_eq_some_iff.mp h
    split at h <;> cases h
    exact .removeProposal i r _ _ hr ‹_› rfl
  | persistFinal i =>
    obtain ⟨r, hr, h⟩ := Option.bind_eq_some_iff.mp h
    split at h <;> cases h
    exact .persistFinal i r _ _ _ hr ‹_› rfl
  | takeWaiters i =>
    obtain ⟨r, hr, h⟩ := Option.bind_eq_some_iff.mp h
    split at h
    · rename_i state proposal hp
      split at h
      · rename_i response hf
        cases h
        exact .takeWaiters i r state proposal response hr hp hf rfl
      · rename_i hf
        cases h
        exact .takeNone i r state proposal hr hp hf rfl
    · cases h
  | clearActive i =>
    obtain ⟨r, hr, h⟩ := Option.bind_eq_some_iff.mp h
    split at h <;> cases h
    exact .clearActive i r _ hr ‹_› rfl

end ProposalSystem

/-! ### A coordinator and a worker -/

/-- Both are in the swarm "s". -/
def pairRoles : SwarmRoles where
  swarmOf session := if session ∈ ["coord", "worker"] then some "s" else none
  coordinators swarmId := if swarmId = "s" then some "coord" else none

def noPlans (_ : String) : Option VersionedPlan := none

/-- One queued task as `serde_json::to_string` writes it. -/
noncomputable def taskCodec : TextCodec (List PlanItem) :=
  (TextCodec.unary _).pinned [queuedTask "t1"]
    ("[\x7b\"content\":\"work\",\"status\":\"queued\",\"priority\":\"high\"," ++
      "\"id\":\"t1\"\x7d]")

lemma taskCodec_losslessOn (P : List PlanItem → Prop) : taskCodec.LosslessOn P :=
  (TextCodec.unary_losslessOn P).pinned (TextCodec.encode_unary_ne (by
    rw [String.toList_append, String.toList_ofList]
    decide))

/-- Stands for the hash. -/
def joinedKey (sessionId action : String) (parts : List String) : String :=
  "\n".intercalate (sessionId :: action :: parts)

/-- A worker proposes a task and the coordinator approves. -/
def approvedRun : List ProposalMove :=
  [.propose "worker" [queuedTask "t1"], .request 1 "coord" .approve "worker", .loadState 0,
    .addWaiter 0, .markActive 0, .ensurePending 0, .readProposal 0, .mergeItems 0,
    .removeProposal 0, .persistFinal 0, .takeWaiters 0, .clearActive 0]

end Jcode
