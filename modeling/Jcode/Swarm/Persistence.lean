import Jcode.Foundation.Codec
import Jcode.Storage
import Jcode.Swarm.Member
import Jcode.Swarm.Plan
import Mathlib.Data.Finset.Sort

/-!
# Persisted swarm state

The state file of a swarm and what a reload makes of the state directory
(`server/swarm_persistence.rs`).
-/

namespace Jcode

/-! ### What is written -/

structure PersistedVersionedPlan where
  items : List PlanItem
  version : Nat
  participants : List String
  taskProgress : Finmap fun _ : String => SwarmTaskProgress
deriving DecidableEq

structure PersistedSwarmState where
  swarmId : String
  plan : Option PersistedVersionedPlan
  coordinatorSessionId : Option String
  members : List SwarmMemberRecord
  updatedAtUnixMs : Nat
deriving DecidableEq

deriving instance Countable for SwarmTaskProgress, SwarmLifecycleStatus, SwarmRole
deriving instance Countable for SwarmMemberRecord, PersistedVersionedPlan
deriving instance Countable for PersistedSwarmState

def toPersistedPlan (plan : VersionedPlan) : PersistedVersionedPlan where
  items := plan.items
  version := plan.version
  participants := plan.participants.sort (· ≤ ·)
  taskProgress := plan.taskProgress

/-- The members in the order of their session ids. -/
def persistedSwarmState (swarmId : String) (plan : Option VersionedPlan)
    (coordinatorSessionId : Option String) (members : List SwarmMember) (nowMs : Nat) :
    PersistedSwarmState where
  swarmId := swarmId
  plan := plan.map toPersistedPlan
  coordinatorSessionId := coordinatorSessionId
  members := (members.map SwarmMember.durableRecord).insertionSort (·.sessionId ≤ ·.sessionId)
  updatedAtUnixMs := nowMs

/-- Statuses and roles in the form in which they are read: known texts have their own
constructor. -/
def PersistedSwarmState.Canonical (state : PersistedSwarmState) : Prop :=
  ∀ record ∈ state.members, SwarmLifecycleStatus.ofString record.status.asStr = record.status ∧
    SwarmRole.ofString record.role.asStr = record.role

lemma persistedSwarmState_canonical {swarmId : String} {plan : Option VersionedPlan}
    {coordinatorSessionId : Option String} {members : List SwarmMember} {nowMs : Nat} :
    (persistedSwarmState swarmId plan coordinatorSessionId members nowMs).Canonical := by
  intro record hrecord
  simp only [persistedSwarmState, List.mem_insertionSort, List.mem_map] at hrecord
  obtain ⟨member, -, rfl⟩ := hrecord
  simp [SwarmMember.durableRecord]

/-! ### Files -/

def sanitizedSwarmId (swarmId : String) : String :=
  String.ofList (swarmId.toList.map fun ch => if ch.isAlphanum || ch ∈ ['-', '_'] then ch else '_')

def statePath (swarmId : String) : FileName := ⟨sanitizedSwarmId swarmId, "json"⟩

variable (codec : TextCodec PersistedSwarmState)

/-- `persist_swarm_state`; `tmp` is the extension of the temporary file. -/
def persistSwarmState (fs : Directory) (swarmId : String) (plan : Option VersionedPlan)
    (coordinatorSessionId : Option String) (members : List SwarmMember) (nowMs : Nat)
    (tmp : String) : Directory :=
  if plan.isNone && coordinatorSessionId.isNone && members.isEmpty then
    fs.remove (statePath swarmId)
  else
    writeBytesInner fs (statePath swarmId) tmp
      (utf8 (codec.encode (persistedSwarmState swarmId plan coordinatorSessionId members nowMs)))

def removeSwarmState (fs : Directory) (swarmId : String) : Directory :=
  fs.remove (statePath swarmId)

/-! ### Recovery -/

/-- `stale_since_unix_ms.get_or_insert(..)`. -/
def markStale (updatedAtUnixMs : Nat) (progress : SwarmTaskProgress) : SwarmTaskProgress :=
  { progress with
    staleSinceUnixMs := progress.staleSinceUnixMs.or (some updatedAtUnixMs) }

/-- The loop of `from_persisted_plan`: running tasks become stale. -/
def recoverItems (updatedAtUnixMs : Nat) (progress : Finmap fun _ : String => SwarmTaskProgress) :
    List PlanItem → List PlanItem × Finmap fun _ : String => SwarmTaskProgress
  | [] => ([], progress)
  | item :: items =>
    if item.status = "running" then
      let rest := recoverItems updatedAtUnixMs (progress.insert item.id
        (markStale updatedAtUnixMs ((progress.lookup item.id).getD .default))) items
      ({ item with status := "running_stale" } :: rest.1, rest.2)
    else
      let rest := recoverItems updatedAtUnixMs progress items
      (item :: rest.1, rest.2)

def fromPersistedPlan (plan : PersistedVersionedPlan) (updatedAtUnixMs : Nat) : VersionedPlan :=
  let recovered := recoverItems updatedAtUnixMs plan.taskProgress plan.items
  { items := recovered.1
    version := plan.version
    participants := plan.participants.toFinset
    taskProgress := recovered.2 }

def appendRecoveryDetail (detail : Option String) (note : String) : Option String :=
  match detail with
  | some existing =>
    if trim existing ≠ "" then some (existing ++ " (" ++ note ++ ")") else some note
  | none => some note

def recoverMemberStatus (status : SwarmLifecycleStatus) (detail : Option String)
    (isHeadless : Bool) : SwarmLifecycleStatus × Option String :=
  if status = .running then
    (.crashed, appendRecoveryDetail detail "recovered after reload while running")
  else if isHeadless ∧ status ∉ [.completed, .failed, .stopped] then
    (.crashed, appendRecoveryDetail detail "headless session did not survive reload")
  else (status, detail)

def fromPersistedMember (record : SwarmMemberRecord) : SwarmMember :=
  let recovered := recoverMemberStatus record.status record.detail record.isHeadless
  .fromRecord { record with status := recovered.1, detail := recovered.2 }

/-! ### Loading -/

/-- The maps of the loaded state; a swarm without members has no entry in `swarmsById`. -/
structure LoadedSwarmRuntimeState where
  plans : String → Option VersionedPlan
  coordinators : String → Option String
  members : String → Option SwarmMember
  swarmsById : String → Finset String

namespace LoadedSwarmRuntimeState

def empty : LoadedSwarmRuntimeState where
  plans := fun _ => none
  coordinators := fun _ => none
  members := fun _ => none
  swarmsById := fun _ => ∅

variable (loaded : LoadedSwarmRuntimeState)

/-- One member of a file; a member without swarm is skipped. -/
def addMember (record : SwarmMemberRecord) : LoadedSwarmRuntimeState :=
  match record.swarmId with
  | none => loaded
  | some swarmId =>
    { loaded with
      swarmsById := Function.update loaded.swarmsById swarmId
        (insert record.sessionId (loaded.swarmsById swarmId))
      members := Function.update loaded.members record.sessionId
        (some (fromPersistedMember record)) }

/-- One file: later files overwrite what earlier ones have set. -/
def addState (state : PersistedSwarmState) : LoadedSwarmRuntimeState :=
  state.members.foldl addMember
    { loaded with
      plans := match state.plan with
        | some plan => Function.update loaded.plans state.swarmId
            (some (fromPersistedPlan plan state.updatedAtUnixMs))
        | none => loaded.plans
      coordinators := match state.coordinatorSessionId with
        | some session => Function.update loaded.coordinators state.swarmId (some session)
        | none => loaded.coordinators }

end LoadedSwarmRuntimeState

/-- One directory entry of `load_runtime_state`. -/
def loadEntry (acc : LoadedSwarmRuntimeState × Directory) (path : FileName) :
    LoadedSwarmRuntimeState × Directory :=
  let read := readJson codec.decode acc.2 path
  (match read.1 with
    | some state => acc.1.addState state
    | none => acc.1, read.2)

/-- `load_runtime_state` over the entries of the state directory, in the order of `read_dir`. -/
def loadRuntimeState (fs : Directory) (entries : List FileName) : LoadedSwarmRuntimeState :=
  (entries.foldl (loadEntry codec) (.empty, fs)).1

end Jcode
