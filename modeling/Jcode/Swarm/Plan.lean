import Jcode.Foundation.Codec
import Mathlib.Data.Finmap
import Mathlib.Data.List.Sort
import Mathlib.Data.Finset.Basic
import Mathlib.Data.String.Basic
import Mathlib.Algebra.GroupWithZero.Nat

/-!
# Swarm plans

Plan items, the durable progress of their tasks and the dependency graph (`jcode-plan`).
-/

namespace Jcode

structure PlanItem where
  content : String
  status : String
  priority : String
  id : String
  subsystem : Option String
  fileScope : List String
  blockedBy : List String
  assignedTo : Option String
deriving DecidableEq, Countable

/-- A queued task that nobody has. -/
def queuedTask (id : String) : PlanItem where
  content := "work"
  status := "queued"
  priority := "high"
  id := id
  subsystem := none
  fileScope := []
  blockedBy := []
  assignedTo := none

structure SwarmTaskProgress where
  assignedSessionId : Option String
  assignmentSummary : Option String
  assignedAtUnixMs : Option Nat
  startedAtUnixMs : Option Nat
  lastHeartbeatUnixMs : Option Nat
  lastDetail : Option String
  lastCheckpointUnixMs : Option Nat
  checkpointSummary : Option String
  completedAtUnixMs : Option Nat
  staleSinceUnixMs : Option Nat
  heartbeatCount : Option Nat
  checkpointCount : Option Nat
deriving DecidableEq

/-- `SwarmTaskProgress::default`. -/
def SwarmTaskProgress.default : SwarmTaskProgress :=
  ⟨none, none, none, none, none, none, none, none, none, none, none, none⟩

structure VersionedPlan where
  items : List PlanItem
  version : Nat
  participants : Finset String
  taskProgress : Finmap fun _ : String => SwarmTaskProgress
deriving DecidableEq

def VersionedPlan.new : VersionedPlan where
  items := []
  version := 0
  participants := ∅
  taskProgress := ∅

/-! ### Statuses -/

def isCompletedStatus (status : String) : Bool := status ∈ ["completed", "done"]

def isTerminalStatus (status : String) : Bool :=
  status ∈ ["completed", "done", "failed", "stopped", "crashed"]

def isActiveStatus (status : String) : Bool := status ∈ ["running", "running_stale"]

def isRunnableStatus (status : String) : Bool := status ∈ ["queued", "ready", "pending", "todo"]

inductive TaskControlAction
  | start
  | wake
  | resume
  | retry
  | reassign
  | replace
  | salvage
deriving DecidableEq

def TaskControlAction.parse : String → Option TaskControlAction
  | "start" => some .start
  | "wake" => some .wake
  | "resume" => some .resume
  | "retry" => some .retry
  | "reassign" => some .reassign
  | "replace" => some .replace
  | "salvage" => some .salvage
  | _ => none

def TaskControlAction.asStr : TaskControlAction → String
  | .start => "start"
  | .wake => "wake"
  | .resume => "resume"
  | .retry => "retry"
  | .reassign => "reassign"
  | .replace => "replace"
  | .salvage => "salvage"

lemma TaskControlAction.parse_asStr (action : TaskControlAction) :
    parse action.asStr = some action := by
  cases action <;> rfl

def taskControlActionAllowsStatus (action : TaskControlAction) (status : String) : Bool :=
  match action with
  | .start | .wake => status = "queued"
  | .resume => status ∈ ["queued", "running", "running_stale"]
  | .retry => status ∈ ["failed", "running_stale"]
  | .reassign | .replace | .salvage => status ≠ "done"

def priorityRank (priority : String) : Nat :=
  if priority ∈ ["high", "urgent", "p0"] then 0
  else if priority ∈ ["medium", "normal", "p1"] then 1
  else if priority ∈ ["low", "p2"] then 2
  else 1

/-! ### Dependencies -/

variable (items : List PlanItem)

/-- The first item with the id: `items.iter().find(|item| item.id == ..)`. -/
def findItem (id : String) : Option PlanItem := items.find? (·.id = id)

def knownIds : List String := items.map (·.id)

def completedItemIds : List String :=
  (items.filter fun item => isCompletedStatus item.status).map (·.id)

def unresolvedDependencies (item : PlanItem) : List String :=
  item.blockedBy.filter fun dep => dep ∈ knownIds items ∧ dep ∉ completedItemIds items

def missingDependencies (item : PlanItem) : List String :=
  item.blockedBy.filter fun dep => dep ∉ knownIds items

/-- The edges into an id: one for each known dependency of each item that carries the id. -/
def indegree (id : String) : Nat :=
  ((items.filter (·.id = id)).flatMap fun item =>
    item.blockedBy.filter (· ∈ knownIds items)).length

/-- The ids that depend on `id`, once for each edge. -/
def dependents (id : String) : List String :=
  items.flatMap fun item => (item.blockedBy.filter (· = id)).map fun _ => item.id

/-- The loop over the ids whose dependencies are done; the top of the stack is the head. There
are never more rounds than ids and edges. -/
def releaseLoop : Nat → List String → List String → (String → Nat) → List String × (String → Nat)
  | 0, _, visited, degree => (visited, degree)
  | _, [], visited, degree => (visited, degree)
  | fuel + 1, id :: stack, visited, degree =>
    if id ∈ visited then releaseLoop fuel stack visited degree
    else
      let (stack, degree) := (dependents items id).foldl (fun (stack, degree) child =>
        let left := degree child - 1
        (if left = 0 then child :: stack else stack, Function.update degree child left))
          (stack, degree)
      releaseLoop fuel stack (id :: visited) degree

/-- The ids left over when no more id can be released. The source starts the loop in the order of
a hash map; the result does not depend on it. -/
def cycleItemIds : List String :=
  let ids := (knownIds items).dedup
  let edges := (items.map fun item => item.blockedBy.length).sum
  let released := releaseLoop items (ids.length + edges)
    (ids.filter fun id => indegree items id = 0) [] (indegree items)
  (ids.filter fun id => 0 < released.2 id ∧ id ∉ released.1).insertionSort (· ≤ ·)

/-- The dependencies are all known and completed and the item is on no cycle. -/
def dependenciesMet (item : PlanItem) : Bool :=
  (missingDependencies items item).isEmpty && (unresolvedDependencies items item).isEmpty &&
    item.id ∉ cycleItemIds items

/-- The item could be picked up right now. -/
def isReady (item : PlanItem) : Bool := isRunnableStatus item.status && dependenciesMet items item

structure PlanGraphSummary where
  readyIds : List String
  blockedIds : List String
  activeIds : List String
  completedIds : List String
  terminalIds : List String
  unresolvedDependencyIds : List String
  cycleIds : List String
deriving DecidableEq

/-- The elements in order, each once: the iteration order of a `BTreeSet`. -/
def sortedSet (ids : List String) : List String := ids.dedup.insertionSort (· ≤ ·)

def summarizePlanGraph : PlanGraphSummary :=
  let blocked (item : PlanItem) := !isReady items item && !isTerminalStatus item.status &&
    !isActiveStatus item.status && (!dependenciesMet items item || item.status = "blocked")
  { readyIds := ((items.filter (isReady items)).map (·.id)).insertionSort (· ≤ ·)
    blockedIds := ((items.filter blocked).map (·.id)).insertionSort (· ≤ ·)
    activeIds :=
      ((items.filter fun item => isActiveStatus item.status).map (·.id)).insertionSort (· ≤ ·)
    completedIds := sortedSet (completedItemIds items)
    terminalIds :=
      sortedSet ((items.filter fun item => isTerminalStatus item.status).map (·.id))
    unresolvedDependencyIds := sortedSet (items.flatMap (missingDependencies items))
    cycleIds := cycleItemIds items }

/-- `priority_rank`, then the id. -/
def runsBefore (left right : PlanItem) : Prop :=
  priorityRank left.priority < priorityRank right.priority ∨
    priorityRank left.priority = priorityRank right.priority ∧ left.id ≤ right.id

instance : DecidableRel runsBefore := fun _ _ => inferInstanceAs (Decidable (_ ∨ _ ∧ _))

def nextRunnableItemIds (limit : Option Nat) : List String :=
  let readyIds := (summarizePlanGraph items).readyIds
  let ids := ((items.filter (·.id ∈ readyIds)).insertionSort runsBefore).map (·.id)
  match limit with
  | some limit => ids.take limit
  | none => ids

def nextUnassignedRunnableItemId (plan : VersionedPlan) : Option String :=
  (nextRunnableItemIds plan.items none).find? fun id =>
    ((findItem plan.items id).map (·.assignedTo.isNone)).getD false

/-- The order in which a session's tasks are considered when a request names only the session. -/
def controlStatusRank (status : String) : Nat :=
  if status ∈ ["running", "running_stale"] then 0
  else if status ∈ ["queued", "ready", "pending", "todo"] then 1
  else if status ∈ ["failed", "stopped", "crashed"] then 2
  else if status ∈ ["completed", "done"] then 3
  else 4

def taskControlTargetItemId (targetSession : String) (action : TaskControlAction) :
    Except String String :=
  let candidates := (items.filter fun item => item.assignedTo = some targetSession ∧
    taskControlActionAllowsStatus action item.status).insertionSort fun left right =>
      controlStatusRank left.status ≤ controlStatusRank right.status
  match candidates with
  | [] => .error ("No task assigned to '" ++ targetSession ++ "' can be " ++ action.asStr ++
      ". Provide task_id explicitly, or assign a task first.")
  | [item] => .ok item.id
  | first :: second :: _ =>
    if first.status ≠ second.status then .ok first.id
    else .error ("Multiple tasks assigned to '" ++ targetSession ++ "' can be " ++ action.asStr ++
      ": " ++ ", ".intercalate (candidates.map (·.id)) ++ ". Provide task_id explicitly.")

def explicitTaskBlockedReason (plan : VersionedPlan) (taskId : String) : Option String :=
  match findItem plan.items taskId with
  | none => none
  | some item =>
    let missing := missingDependencies plan.items item
    let unresolved := unresolvedDependencies plan.items item
    if !missing.isEmpty then
      some ("Task '" ++ item.id ++ "' has missing dependencies: " ++ ", ".intercalate missing)
    else if !unresolved.isEmpty then
      some ("Task '" ++ item.id ++ "' is still blocked by: " ++ ", ".intercalate unresolved)
    else if item.id ∈ cycleItemIds plan.items then
      some ("Task '" ++ item.id ++ "' is part of a dependency cycle and is not runnable")
    else none

/-! ### What the choices guarantee -/

variable {items} {plan : VersionedPlan} {item : PlanItem} {id : String}

lemma findItem_eq_some (h : findItem items id = some item) : item ∈ items ∧ item.id = id :=
  ⟨List.mem_of_find?_eq_some h, by simpa using List.find?_some h⟩

lemma mem_readyIds :
    id ∈ (summarizePlanGraph items).readyIds ↔
      ∃ item ∈ items, isReady items item ∧ item.id = id := by
  simp [summarizePlanGraph, and_assoc]

lemma mem_nextRunnableItemIds (h : id ∈ nextRunnableItemIds items none) :
    ∃ item ∈ items, isReady items item ∧ item.id = id := by
  simp only [nextRunnableItemIds, List.mem_map, List.mem_insertionSort, List.mem_filter,
    decide_eq_true_eq] at h
  obtain ⟨item, ⟨-, hready⟩, rfl⟩ := h
  exact mem_readyIds.mp hready

/-- The chosen id belongs to a ready item, and the first item with the id is unassigned. -/
lemma nextUnassignedRunnableItemId_spec (h : nextUnassignedRunnableItemId plan = some id) :
    (∃ item ∈ plan.items, isReady plan.items item ∧ item.id = id) ∧
      ∃ first, findItem plan.items id = some first ∧ first.assignedTo = none := by
  refine ⟨mem_nextRunnableItemIds (List.mem_of_find?_eq_some h), ?_⟩
  have hfirst := List.find?_some h
  cases hf : findItem plan.items id with
  | none => simp [hf] at hfirst
  | some first => exact ⟨first, rfl, by simpa [hf] using hfirst⟩

/-- The explicit path looks at the dependencies and at nothing else. -/
lemma explicitTaskBlockedReason_eq_none (h : findItem plan.items id = some item) :
    explicitTaskBlockedReason plan id = none ↔ dependenciesMet plan.items item := by
  simp only [explicitTaskBlockedReason, h, dependenciesMet]
  split_ifs <;> simp_all

/-! ### What readiness depends on -/

/-- The ids with the ids they wait for: all of an item that the graph is made of. -/
def planEdges (items : List PlanItem) : List (String × List String) :=
  items.map fun item => (item.id, item.blockedBy)

variable {items' : List PlanItem}

lemma knownIds_eq_edges : knownIds items = (planEdges items).map (·.1) := by
  simp [knownIds, planEdges, Function.comp_def]

lemma knownIds_congr (h : planEdges items = planEdges items') :
    knownIds items = knownIds items' := by
  rw [knownIds_eq_edges, knownIds_eq_edges, h]

lemma indegree_congr (h : planEdges items = planEdges items') :
    indegree items = indegree items' := by
  have key (items : List PlanItem) (id : String) : indegree items id =
      (((planEdges items).filter (·.1 = id)).flatMap fun edge =>
        edge.2.filter (· ∈ knownIds items)).length := by
    simp [indegree, planEdges, List.filter_map, List.flatMap_map, Function.comp_def]
  funext id
  rw [key, key, h, knownIds_congr h]

lemma dependents_congr (h : planEdges items = planEdges items') :
    dependents items = dependents items' := by
  have key (items : List PlanItem) (id : String) : dependents items id =
      (planEdges items).flatMap fun edge => (edge.2.filter (· = id)).map fun _ => edge.1 := by
    simp [dependents, planEdges, List.flatMap_map]
  funext id
  rw [key, key, h]

lemma releaseLoop_congr (h : planEdges items = planEdges items') :
    releaseLoop items = releaseLoop items' := by
  funext fuel
  induction fuel with
  | zero => funext stack visited degree; simp [releaseLoop]
  | succ fuel ih =>
    funext stack visited degree
    cases stack with
    | nil => simp [releaseLoop]
    | cons id stack => simp [releaseLoop, dependents_congr h, ih]

lemma cycleItemIds_congr (h : planEdges items = planEdges items') :
    cycleItemIds items = cycleItemIds items' := by
  have key (items : List PlanItem) : (items.map fun item => item.blockedBy.length) =
      (planEdges items).map fun edge => edge.2.length := by
    simp [planEdges, Function.comp_def]
  simp only [cycleItemIds, knownIds_congr h, indegree_congr h, releaseLoop_congr h, key, h]

/-- Readiness of an item depends on the graph, on which ids are completed and on the item. -/
lemma isReady_congr (h : planEdges items = planEdges items')
    (hdone : ∀ dep, dep ∈ completedItemIds items ↔ dep ∈ completedItemIds items')
    (item : PlanItem) :
    isReady items item = isReady items' item := by
  simp [isReady, dependenciesMet, missingDependencies, unresolvedDependencies, knownIds_congr h,
    cycleItemIds_congr h, hdone]

end Jcode
