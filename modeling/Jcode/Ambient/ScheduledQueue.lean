import Jcode.Foundation.Run
import Mathlib.Data.List.Perm.Basic
import Mathlib.Logic.Function.Basic

/-!
# The queue of scheduled items

An `AmbientManager` reads the queue file when it is created. `schedule`, `cancel` and the two
takes work on the copy in memory and write it back as a whole, by moving the old file to its
backup and the new one into its place. Any number of managers share the file.
-/

namespace Jcode

open Schedule

/-- `chrono::DateTime<Utc>`, in nanoseconds. -/
abbrev DateTime := Int

def minutes (n : Nat) : Int := n * 60000000000

inductive Priority
  | low
  | normal
  | high
  deriving DecidableEq

def Priority.rank : Priority → Nat
  | .low => 0
  | .normal => 1
  | .high => 2

inductive ScheduleTarget
  | ambient
  | session (sessionId : String)
  | spawn (parentSessionId : String)
  deriving DecidableEq

def ScheduleTarget.isDirectDelivery : ScheduleTarget → Bool
  | .session _ | .spawn _ => true
  | .ambient => false

structure ScheduleRequest where
  wakeInMinutes : Option Nat
  wakeAt : Option DateTime
  context : String
  priority : Priority
  target : ScheduleTarget
  createdBySession : String
  workingDir : Option String
  taskDescription : Option String
  relevantFiles : List String
  gitBranch : Option String
  additionalContext : Option String
  deriving DecidableEq

structure ScheduledItem where
  id : String
  scheduledFor : DateTime
  context : String
  priority : Priority
  target : ScheduleTarget
  createdBySession : String
  createdAt : DateTime
  workingDir : Option String
  taskDescription : Option String
  relevantFiles : List String
  gitBranch : Option String
  additionalContext : Option String
  deriving DecidableEq

/-- The item that `AmbientManager::schedule` makes of a request and a random number. -/
def ScheduleRequest.item (request : ScheduleRequest) (random : BitVec 32) (now : DateTime) :
    ScheduledItem where
  id := "sched_" ++ random.toHex
  scheduledFor := request.wakeAt.getD (now + minutes (request.wakeInMinutes.getD 30))
  context := request.context
  priority := request.priority
  target := request.target
  createdBySession := request.createdBySession
  createdAt := now
  workingDir := request.workingDir
  taskDescription := request.taskDescription
  relevantFiles := request.relevantFiles
  gitBranch := request.gitBranch
  additionalContext := request.additionalContext

/-! ### The queue in memory -/

namespace ScheduledQueue

def push (items : List ScheduledItem) (item : ScheduledItem) : List ScheduledItem :=
  items ++ [item]

def remove (items : List ScheduledItem) (id : String) :
    Option (ScheduledItem × List ScheduledItem) :=
  (items.findIdx? (·.id == id)).bind fun index =>
    items[index]?.map fun removed => (removed, items.eraseIdx index)

/-- Highest priority first, then earliest time. -/
def readyLe (a b : ScheduledItem) : Bool :=
  b.priority.rank < a.priority.rank ||
    (a.priority.rank == b.priority.rank && decide (a.scheduledFor ≤ b.scheduledFor))

/-- What is taken, sorted, and what remains. -/
def takeWhere (p : ScheduledItem → Bool) (items : List ScheduledItem) :
    List ScheduledItem × List ScheduledItem :=
  ((items.filter p).mergeSort readyLe, items.filter fun item => !p item)

def popReady (now : DateTime) : List ScheduledItem → List ScheduledItem × List ScheduledItem :=
  takeWhere fun item => item.scheduledFor ≤ now

def takeReadyDirectItems (now : DateTime) :
    List ScheduledItem → List ScheduledItem × List ScheduledItem :=
  takeWhere fun item => item.scheduledFor ≤ now && item.target.isDirectDelivery

lemma perm_remove {items rest : List ScheduledItem} {id : String} {removed : ScheduledItem}
    (h : remove items id = some (removed, rest)) : items.Perm (removed :: rest) := by
  simp only [remove, Option.bind_eq_some_iff, Option.map_eq_some_iff, Prod.mk.injEq] at h
  obtain ⟨index, -, item, hitem, rfl, rfl⟩ := h
  obtain ⟨hlt, rfl⟩ := List.getElem?_eq_some_iff.mp hitem
  exact (List.getElem_cons_eraseIdx_perm hlt).symm

lemma perm_takeWhere {items ready rest : List ScheduledItem} {p : ScheduledItem → Bool}
    (h : takeWhere p items = (ready, rest)) : items.Perm (ready ++ rest) := by
  cases h
  exact (List.filter_append_perm p items).symm.trans
    ((List.mergeSort_perm (items.filter p) readyLe).symm.append_right _)

end ScheduledQueue

/-! ### The operations -/

/-- The calls of an `AmbientManager`. -/
inductive QueueOp
  | schedule (request : ScheduleRequest) (random : BitVec 32)
  | cancel (id : String)
  | takeReadyItems
  | takeReadyDirectItems
  deriving DecidableEq

/-- What a call returns when it has saved. -/
inductive QueueReply
  | scheduled (item : ScheduledItem)
  | cancelled (item : ScheduledItem)
  | taken (ready : List ScheduledItem)
  deriving DecidableEq

/-- The items that a call adds to the queue. -/
def QueueReply.added : QueueReply → List ScheduledItem
  | .scheduled item => [item]
  | .cancelled _ | .taken _ => []

/-- The items that a call removes from the queue. -/
def QueueReply.removed : QueueReply → List ScheduledItem
  | .scheduled _ => []
  | .cancelled item => [item]
  | .taken ready => ready

/-- The queue after a call and its reply; `none` for a call that changes and saves nothing, a
cancel of an unknown id or a take of no items. -/
def QueueOp.run (now : DateTime) (items : List ScheduledItem) :
    QueueOp → Option (List ScheduledItem × QueueReply)
  | .schedule request random =>
    let item := request.item random now
    some (ScheduledQueue.push items item, .scheduled item)
  | .cancel id =>
    (ScheduledQueue.remove items id).map fun (removed, rest) => (rest, .cancelled removed)
  | .takeReadyItems =>
    let (ready, rest) := ScheduledQueue.popReady now items
    if ready = [] then none else some (rest, .taken ready)
  | .takeReadyDirectItems =>
    let (ready, rest) := ScheduledQueue.takeReadyDirectItems now items
    if ready = [] then none else some (rest, .taken ready)

/-- A call adds and removes what its reply says. -/
lemma QueueOp.perm_run {now : DateTime} {items rest : List ScheduledItem} {op : QueueOp}
    {reply : QueueReply} (h : op.run now items = some (rest, reply)) :
    (items ++ reply.added).Perm (rest ++ reply.removed) := by
  cases op with
  | schedule request random =>
    cases h
    simp [ScheduledQueue.push, QueueReply.added, QueueReply.removed]
  | cancel id =>
    simp only [QueueOp.run, Option.map_eq_some_iff, Prod.mk.injEq, Prod.exists] at h
    obtain ⟨removed, rest, hremove, rfl, rfl⟩ := h
    simp only [QueueReply.added, QueueReply.removed, List.append_nil]
    exact (ScheduledQueue.perm_remove hremove).trans (List.perm_append_singleton removed rest).symm
  | takeReadyItems =>
    simp only [QueueOp.run, Option.ite_none_left_eq_some, Option.some.injEq, Prod.mk.injEq] at h
    obtain ⟨-, rfl, rfl⟩ := h
    simp only [QueueReply.added, QueueReply.removed, List.append_nil]
    exact (ScheduledQueue.perm_takeWhere rfl).trans List.perm_append_comm
  | takeReadyDirectItems =>
    simp only [QueueOp.run, Option.ite_none_left_eq_some, Option.some.injEq, Prod.mk.injEq] at h
    obtain ⟨-, rfl, rfl⟩ := h
    simp only [QueueReply.added, QueueReply.removed, List.append_nil]
    exact (ScheduledQueue.perm_takeWhere rfl).trans List.perm_append_comm

end Jcode
