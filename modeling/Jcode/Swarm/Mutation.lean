import Mathlib.Data.Finset.Basic
import Mathlib.Tactic.Common

/-!
# Swarm mutation state

The idempotence layer in front of the swarm's mutating requests (`swarm_mutation_state.rs`).
A request is identified by its mutation key. The final response of a key is kept in a state
file, the keys being executed and the requests waiting for them are kept in two maps of the
runtime, each behind its own lock.

The functions below are the critical sections of `begin_or_replay` and `finish_request`; how
the sections of several requests interleave is the subject of `Jcode.Swarm.MutationRuns`.
-/

namespace Jcode

/-- The plan summary carried by a task-control response. -/
structure PlanGraphStatus where
  swarmId : Option String
  version : Nat
  itemCount : Nat
  readyIds : List String
  blockedIds : List String
  activeIds : List String
  completedIds : List String
  cycleIds : List String
  unresolvedDependencyIds : List String
  nextReadyIds : List String
  newlyReadyIds : List String
deriving DecidableEq

/-- The events a mutating request can be answered with. -/
inductive ServerEvent
  | done (id : Nat)
  | commAssignTaskResponse (id : Nat) (taskId targetSession : String)
  | commTaskControlResponse (id : Nat) (action taskId : String) (targetSession : Option String)
      (status : String) (summary : PlanGraphStatus)
  | error (id : Nat) (message : String) (retryAfterSecs : Option Nat)
  | commSpawnResponse (id : Nat) (sessionId newSessionId : String)
deriving DecidableEq

inductive PersistedSwarmMutationResponse
  | done
  | assignTask (taskId targetSession : String)
  | taskControl (action taskId : String) (targetSession : Option String) (status : String)
      (summary : PlanGraphStatus)
  | error (message : String) (retryAfterSecs : Option Nat)
  | spawn (newSessionId : String)
deriving DecidableEq

def PersistedSwarmMutationResponse.intoServerEvent (id : Nat) (sessionId : String) :
    PersistedSwarmMutationResponse → ServerEvent
  | .done => .done id
  | .assignTask taskId targetSession => .commAssignTaskResponse id taskId targetSession
  | .taskControl action taskId targetSession status summary =>
    .commTaskControlResponse id action taskId targetSession status summary
  | .error message retryAfterSecs => .error id message retryAfterSecs
  | .spawn newSessionId => .commSpawnResponse id sessionId newSessionId

/-- The content of a key's state file. -/
structure PersistedSwarmMutationState where
  key : String
  action : String
  sessionId : String
  createdAtUnixMs : Nat
  finalResponse : Option PersistedSwarmMutationResponse
deriving DecidableEq

/-! ### State files -/

/-- The state files, one for each key. They are only written through `saveState`, under the key
that the state itself carries. -/
structure MutationStateDir where
  files : String → Option PersistedSwarmMutationState
  keyed : ∀ key st, files key = some st → st.key = key

def MutationStateDir.empty : MutationStateDir where
  files _ := none
  keyed _ _ h := nomatch h

/-- `std::fs::remove_file` on the state file of `key`. -/
def MutationStateDir.remove (dir : MutationStateDir) (key : String) : MutationStateDir where
  files := Function.update dir.files key none
  keyed k st h := by
    by_cases hk : k = key
    · subst hk
      simp at h
    · rw [Function.update_of_ne hk] at h
      exact dir.keyed k st h

def saveState (dir : MutationStateDir) (state : PersistedSwarmMutationState) :
    MutationStateDir where
  files := Function.update dir.files state.key (some state)
  keyed k st h := by
    by_cases hk : k = state.key
    · subst hk
      rw [Function.update_self, Option.some.injEq] at h
      rw [h]
    · rw [Function.update_of_ne hk] at h
      exact dir.keyed k st h

/-- `FINAL_STATE_TTL` and `PENDING_STATE_TTL`, in milliseconds. -/
def finalStateTtlMs : Nat := 30 * 1000
def pendingStateTtlMs : Nat := 30 * 60 * 1000

/-- `saturating_sub` is the subtraction of `Nat`. -/
def elapsedExceeds (nowMs createdAtUnixMs ttlMs : Nat) : Bool :=
  nowMs - createdAtUnixMs > ttlMs

def isStale (nowMs : Nat) (state : PersistedSwarmMutationState) : Bool :=
  if state.finalResponse.isSome then elapsedExceeds nowMs state.createdAtUnixMs finalStateTtlMs
  else elapsedExceeds nowMs state.createdAtUnixMs pendingStateTtlMs

/-- `load_state`: a stale file is removed and counts as absent. -/
def loadState (dir : MutationStateDir) (nowMs : Nat) (key : String) :
    Option PersistedSwarmMutationState × MutationStateDir :=
  match dir.files key with
  | none => (none, dir)
  | some state => if isStale nowMs state then (none, dir.remove key) else (some state, dir)

def ensurePendingState (dir : MutationStateDir) (nowMs : Nat) (key action sessionId : String) :
    PersistedSwarmMutationState × MutationStateDir :=
  match loadState dir nowMs key with
  | (some existing, dir) => (existing, dir)
  | (none, dir) =>
    let state : PersistedSwarmMutationState :=
      { key, action, sessionId, createdAtUnixMs := nowMs, finalResponse := none }
    (state, saveState dir state)

def persistFinalResponse (dir : MutationStateDir) (state : PersistedSwarmMutationState)
    (response : PersistedSwarmMutationResponse) :
    PersistedSwarmMutationState × MutationStateDir :=
  let next := { state with finalResponse := some response }
  (next, saveState dir next)

/-! ### Runtime -/

/-- A registered request and the client channel its answer goes to. -/
structure SwarmMutationWaiter where
  requestId : Nat
  clientEventTx : Nat
deriving DecidableEq

structure SwarmMutationRuntime where
  activeKeys : Finset String
  waiters : String → Option (List SwarmMutationWaiter)

namespace SwarmMutationRuntime

variable (runtime : SwarmMutationRuntime) (key : String)

/-- `SwarmMutationRuntime::default`. -/
def new : SwarmMutationRuntime where
  activeKeys := ∅
  waiters _ := none

def addWaiter (requestId clientEventTx : Nat) : SwarmMutationRuntime :=
  { runtime with
    waiters := Function.update runtime.waiters key
      (some ((runtime.waiters key).getD [] ++ [⟨requestId, clientEventTx⟩])) }

/-- `HashSet::insert`: whether the key was new, and the set with the key. -/
def markActiveIfNew : Bool × SwarmMutationRuntime :=
  (key ∉ runtime.activeKeys, { runtime with activeKeys := insert key runtime.activeKeys })

def clearActive : SwarmMutationRuntime :=
  { runtime with activeKeys := runtime.activeKeys.erase key }

def takeWaiters : List (Nat × Nat) × SwarmMutationRuntime :=
  (((runtime.waiters key).getD []).map fun waiter => (waiter.requestId, waiter.clientEventTx),
    { runtime with waiters := Function.update runtime.waiters key none })

end SwarmMutationRuntime

/-! ### What the sections do to the key's own file -/

section

variable {dir : MutationStateDir} {nowMs : Nat} {key action sessionId : String}
  {state : PersistedSwarmMutationState}

/-- The key's file is not out of date. -/
def InsideTtl (dir : MutationStateDir) (nowMs : Nat) (key : String) : Prop :=
  ∀ state, dir.files key = some state → isStale nowMs state = false

instance : Decidable (InsideTtl dir nowMs key) :=
  decidable_of_iff ((dir.files key).all fun state => !isStale nowMs state)
    (by cases h : dir.files key <;> simp [InsideTtl, h])

/-- A final response for the key is on disk. -/
def HasFinal (dir : MutationStateDir) (key : String) : Prop :=
  ∃ state, dir.files key = some state ∧ state.finalResponse.isSome

instance : Decidable (HasFinal dir key) :=
  decidable_of_iff ((dir.files key).any (·.finalResponse.isSome))
    (by cases h : dir.files key <;> simp [HasFinal, h])

@[simp] lemma saveState_files_self : (saveState dir state).files state.key = some state := by
  simp [saveState]

lemma loadState_of_insideTtl (h : InsideTtl dir nowMs key) :
    loadState dir nowMs key = (dir.files key, dir) := by
  unfold loadState
  cases hf : dir.files key with
  | none => rfl
  | some state => simp [h state hf]

lemma loadState_key (h : (loadState dir nowMs key).1 = some state) : state.key = key := by
  unfold loadState at h
  cases hf : dir.files key with
  | none => simp [hf] at h
  | some st =>
    simp only [hf] at h
    split at h
    · cases h
    · cases h
      exact dir.keyed key _ hf

lemma ensurePendingState_key :
    (ensurePendingState dir nowMs key action sessionId).1.key = key := by
  unfold ensurePendingState
  split
  · rename_i existing dir' h
    have hl : (loadState dir nowMs key).1 = some existing := by rw [h]
    exact loadState_key hl
  · rfl

/-- Inside the TTL, `ensure_pending_state` leaves a final response where it is and makes none. -/
lemma hasFinal_ensurePendingState (h : InsideTtl dir nowMs key) :
    HasFinal (ensurePendingState dir nowMs key action sessionId).2 key ↔ HasFinal dir key := by
  unfold ensurePendingState
  rw [loadState_of_insideTtl h]
  cases hf : dir.files key with
  | some st => rfl
  | none => simp [HasFinal, saveState, hf]

lemma hasFinal_persistFinalResponse {response : PersistedSwarmMutationResponse}
    (h : state.key = key) : HasFinal (persistFinalResponse dir state response).2 key := by
  subst h
  refine ⟨{ state with finalResponse := some response }, ?_, rfl⟩
  exact saveState_files_self

end

end Jcode
