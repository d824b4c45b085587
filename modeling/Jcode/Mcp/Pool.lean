import Jcode.Foundation.Run
import Mathlib.Logic.Function.Basic

/-!
# The pool of MCP connections

The maps of the pool, and of the sessions' managers, at the name of one server: maps are never read
or written at several names together, except to take or clear all of one map. Any number of tasks
connect to the server and disconnect it; a step is one critical section.
-/

namespace Jcode

open Schedule

/-- Whom a connect is for: a caller of the pool, or a manager, which stores the handle. `all` says
that it connects all its servers, and goes on after an error. -/
inductive ConnectFor
  | pool
  | manager (m : Nat) (all : Bool)
  deriving DecidableEq

/-- What a task is about to do. An attempt to connect is known by its `Notify`. -/
inductive PoolTask
  | idle
  | checking (whom : ConnectFor)
  | checkingErrors (whom : ConnectFor)
  | beginning (whom : ConnectFor)
  /-- Has the `Notify`; `notified()` is called next. -/
  | waiting (whom : ConnectFor) (attempt : Nat)
  | listening (whom : ConnectFor) (attempt : Nat)
  | woken (whom : ConnectFor) (attempt : Nat)
  | failing (whom : ConnectFor)
  /-- In `McpClient::connect`. -/
  | connecting (whom : ConnectFor) (attempt : Nat)
  | connected (whom : ConnectFor) (attempt connection : Nat)
  | inserting (whom : ConnectFor) (attempt connection : Nat)
  | clearing (whom : ConnectFor) (attempt : Nat)
  | failed (whom : ConnectFor) (attempt : Nat) (error : String)
  | finishing (whom : ConnectFor) (attempt : Nat) (answer : Except String Bool)
  | notifying (whom : ConnectFor) (attempt : Nat) (answer : Except String Bool)
  | acquiring (m : Nat)
  | storing (m connection : Nat)
  /-- `McpManager::disconnect`, before it has the map of the manager. -/
  | releasing (m : Nat)
  | removing (manager : Option Nat)
  | shuttingDown (manager : Option Nat)
  | forgetting (manager : Option Nat)
  | returned (answer : Except String Bool)
  | done

namespace PoolTask

/-- `ensure_connected` has returned. -/
def ensured (answer : Except String Bool) : ConnectFor → PoolTask
  | .pool => .returned answer
  | .manager m all =>
    match answer with
    | .ok _ => .acquiring m
    | .error error => if all then .acquiring m else .returned (.error error)

/-- `notify_waiters`: whoever listens is woken. -/
def wake (attempt : Nat) : PoolTask → PoolTask
  | .listening whom k => if k = attempt then .woken whom k else .listening whom k
  | task => task

end PoolTask

/-- The entries of the server in the maps of the pool, and in `pool_handles` of each manager, with
the managers whose map is locked by a disconnect. Then the connections that were shut down, and what
has happened: how each attempt has ended, and which handles a disconnect has removed. -/
structure McpPool where
  handles : Option Nat
  clients : Option Nat
  connecting : Option Nat
  lastError : Option String
  tasks : Nat → PoolTask
  entries : Nat → Option Nat
  locked : Nat → Bool
  nextAttempt : Nat
  nextConnection : Nat
  shutDown : Nat → Bool
  outcomes : Nat → Option (Option Nat)
  disconnected : Nat → Bool

/-- A step of task `i`, or of manager `m`. -/
inductive PoolMove
  | connect (i : Nat) (whom : ConnectFor)
  | reacquire (i m : Nat)
  | disconnect (i : Nat) (manager : Option Nat)
  /-- `McpManager::disconnect_all`. -/
  | releaseAll (m : Nat)
  /-- There was a failure in the last seconds. -/
  | suppress (i retryAfter : Nat)
  | connected (i : Nat) (error : Option String)
  | run (i : Nat)
  deriving DecidableEq

namespace McpPool

def empty : McpPool where
  handles := none
  clients := none
  connecting := none
  lastError := none
  tasks _ := .idle
  entries _ := none
  locked _ := false
  nextAttempt := 0
  nextConnection := 0
  shutDown _ := false
  outcomes _ := none
  disconnected _ := false

def setTask (s : McpPool) (i : Nat) (task : PoolTask) : McpPool :=
  { s with tasks := Function.update s.tasks i task }

def setEntry (s : McpPool) (m : Nat) (entry : Option Nat) : McpPool :=
  { s with entries := Function.update s.entries m entry }

def setLocked (s : McpPool) (m : Nat) (locked : Bool) : McpPool :=
  { s with locked := Function.update s.locked m locked }

def setOutcome (s : McpPool) (attempt : Nat) (outcome : Option Nat) : McpPool :=
  { s with outcomes := Function.update s.outcomes attempt (some outcome) }

/-- The handle is taken from the pool by a disconnect. -/
def removeHandle (s : McpPool) : McpPool :=
  { s with
    handles := none
    disconnected := fun connection =>
      if s.handles = some connection then true else s.disconnected connection }

/-- The client is taken from the pool and shut down. -/
def removeClient (s : McpPool) : McpPool :=
  { s with
    clients := none
    shutDown := fun connection =>
      if s.clients = some connection then true else s.shutDown connection }

def wakeAll (s : McpPool) (attempt : Nat) : McpPool :=
  { s with tasks := fun i => (s.tasks i).wake attempt }

/-- A disconnect is at its end. -/
def unlock (s : McpPool) : Option Nat → McpPool
  | none => s
  | some m => s.setLocked m false

/-- `begin_connect`. -/
def beginConnect (s : McpPool) (i : Nat) (whom : ConnectFor) : McpPool :=
  match s.connecting with
  | some attempt => s.setTask i (.waiting whom attempt)
  | none =>
    if s.handles.isSome then s.setTask i (.ensured (.ok false) whom)
    else
      { s.setTask i (.connecting whom s.nextAttempt) with
        connecting := some s.nextAttempt
        nextAttempt := s.nextAttempt + 1 }

/-- The next step of a task that nobody keeps waiting. -/
def run (s : McpPool) (i : Nat) : Option McpPool :=
  match s.tasks i with
  | .checking whom =>
    some (s.setTask i (if s.handles.isSome then .beginning whom else .checkingErrors whom))
  | .checkingErrors whom => some (s.setTask i (.beginning whom))
  | .beginning whom => some (s.beginConnect i whom)
  | .waiting whom attempt => some (s.setTask i (.listening whom attempt))
  | .woken whom _ =>
    some (s.setTask i (if s.handles.isSome then .ensured (.ok false) whom else .failing whom))
  | .failing whom =>
    some (s.setTask i (.ensured
      (.error (s.lastError.getD "Connection attempt did not produce a handle")) whom))
  | .connected whom attempt connection =>
    some { s.setTask i (.inserting whom attempt connection) with handles := some connection }
  | .inserting whom attempt connection =>
    some { s.setTask i (.clearing whom attempt) with clients := some connection }
  | .clearing whom attempt =>
    some { s.setTask i (.finishing whom attempt (.ok true)) with lastError := none }
  | .failed whom attempt error =>
    some { s.setTask i (.finishing whom attempt (.error error)) with lastError := some error }
  | .finishing whom attempt answer =>
    some { s.setTask i (.notifying whom attempt answer) with
      connecting := if s.connecting = some attempt then none else s.connecting }
  | .notifying whom attempt answer =>
    some ((s.wakeAll attempt).setTask i (.ensured answer whom))
  | .acquiring m =>
    match s.handles with
    | some connection => some (s.setTask i (.storing m connection))
    | none => some (s.setTask i .done)
  | .storing m connection =>
    if s.locked m then none else some ((s.setEntry m (some connection)).setTask i .done)
  | .releasing m =>
    if s.locked m then none
    else if (s.entries m).isSome then
      some (((s.setEntry m none).setLocked m true).setTask i (.removing (some m)))
    else some (s.setTask i .done)
  | .removing manager => some (s.removeHandle.setTask i (.shuttingDown manager))
  | .shuttingDown manager => some (s.removeClient.setTask i (.forgetting manager))
  | .forgetting manager => some ({ s.unlock manager with lastError := none }.setTask i .done)
  | .idle | .listening _ _ | .connecting _ _ | .returned _ | .done => none

/-- One step. -/
def step (s : McpPool) : PoolMove → Option McpPool
  | .connect i whom =>
    match s.tasks i with
    | .idle => some (s.setTask i (.checking whom))
    | _ => none
  | .reacquire i m =>
    match s.tasks i with
    | .idle => some (s.setTask i (.acquiring m))
    | _ => none
  | .disconnect i manager =>
    match s.tasks i, manager with
    | .idle, none => some (s.setTask i (.removing none))
    | .idle, some m => some (s.setTask i (.releasing m))
    | _, _ => none
  | .releaseAll m => if s.locked m then none else some (s.setEntry m none)
  | .suppress i retryAfter =>
    match s.tasks i, s.lastError with
    | .checkingErrors whom, some error =>
      some (s.setTask i (.ensured (.error (error ++ " (retry suppressed for ~" ++
        toString retryAfter ++ "s after recent failure)")) whom))
    | _, _ => none
  | .connected i error =>
    match s.tasks i with
    | .connecting whom attempt =>
      match error with
      | none =>
        some { (s.setOutcome attempt (some s.nextConnection)).setTask i
            (.connected whom attempt s.nextConnection) with
          nextConnection := s.nextConnection + 1 }
      | some error => some ((s.setOutcome attempt none).setTask i (.failed whom attempt error))
    | _ => none
  | .run i => s.run i

/-! ### What a step does -/

end McpPool

/-- The task has no part in an attempt, and no connection, and does not shut down a client. -/
def PoolTask.Plain : PoolTask → Prop
  | .idle | .checking _ | .checkingErrors _ | .beginning _ | .failing _ | .acquiring _
  | .releasing _ | .removing _ | .forgetting _ | .returned _ | .done => True
  | .waiting _ _ | .listening _ _ | .woken _ _ | .connecting _ _ | .connected _ _ _
  | .inserting _ _ _ | .clearing _ _ | .failed _ _ _ | .finishing _ _ _ | .notifying _ _ _
  | .storing _ _ | .shuttingDown _ => False

lemma PoolTask.plain_ensured {answer : Except String Bool} {whom : ConnectFor} :
    (PoolTask.ensured answer whom).Plain := by
  cases whom with
  | pool => trivial
  | manager m all =>
    cases answer with
    | ok => trivial
    | error => cases all <;> trivial

namespace McpPool

variable {s t : McpPool} {m : PoolMove}

/-- The effects of the steps, each with what it rests on. -/
inductive Effect (s : McpPool) : PoolMove → McpPool → Prop
  /-- A task goes on alone. -/
  | plain {m : PoolMove} (i : Nat) (task : PoolTask) (hwas : (s.tasks i).Plain)
      (hplain : task.Plain) : Effect s m (s.setTask i task)
  | wait (i : Nat) (whom : ConnectFor) (attempt : Nat) (htask : s.tasks i = .beginning whom)
      (hconnecting : s.connecting = some attempt) :
      Effect s (.run i) (s.setTask i (.waiting whom attempt))
  | listen (i : Nat) (whom : ConnectFor) (attempt : Nat)
      (htask : s.tasks i = .waiting whom attempt) :
      Effect s (.run i) (s.setTask i (.listening whom attempt))
  | answer (i : Nat) (whom : ConnectFor) (attempt : Nat) (task : PoolTask)
      (htask : s.tasks i = .woken whom attempt) (hplain : task.Plain) :
      Effect s (.run i) (s.setTask i task)
  | lead (i : Nat) (whom : ConnectFor) (htask : s.tasks i = .beginning whom)
      (hconnecting : s.connecting = none) (hhandles : s.handles = none) :
      Effect s (.run i) { s.setTask i (.connecting whom s.nextAttempt) with
        connecting := some s.nextAttempt
        nextAttempt := s.nextAttempt + 1 }
  | connected (i : Nat) (whom : ConnectFor) (attempt : Nat)
      (htask : s.tasks i = .connecting whom attempt) :
      Effect s (.connected i none) { (s.setOutcome attempt (some s.nextConnection)).setTask i
          (.connected whom attempt s.nextConnection) with
        nextConnection := s.nextConnection + 1 }
  | connectFailed (i : Nat) (error : String) (whom : ConnectFor) (attempt : Nat)
      (htask : s.tasks i = .connecting whom attempt) :
      Effect s (.connected i (some error))
        ((s.setOutcome attempt none).setTask i (.failed whom attempt error))
  | insertHandle (i : Nat) (whom : ConnectFor) (attempt connection : Nat)
      (htask : s.tasks i = .connected whom attempt connection) :
      Effect s (.run i) { s.setTask i (.inserting whom attempt connection) with
        handles := some connection }
  | insertClient (i : Nat) (whom : ConnectFor) (attempt connection : Nat)
      (htask : s.tasks i = .inserting whom attempt connection) :
      Effect s (.run i) { s.setTask i (.clearing whom attempt) with clients := some connection }
  | clearError (i : Nat) (whom : ConnectFor) (attempt : Nat)
      (htask : s.tasks i = .clearing whom attempt) :
      Effect s (.run i)
        { s.setTask i (.finishing whom attempt (.ok true)) with lastError := none }
  | insertError (i : Nat) (whom : ConnectFor) (attempt : Nat) (error : String)
      (htask : s.tasks i = .failed whom attempt error) :
      Effect s (.run i)
        { s.setTask i (.finishing whom attempt (.error error)) with lastError := some error }
  | removeConnecting (i : Nat) (whom : ConnectFor) (attempt : Nat) (answer : Except String Bool)
      (htask : s.tasks i = .finishing whom attempt answer) :
      Effect s (.run i) { s.setTask i (.notifying whom attempt answer) with
        connecting := if s.connecting = some attempt then none else s.connecting }
  | notify (i : Nat) (whom : ConnectFor) (attempt : Nat) (answer : Except String Bool)
      (htask : s.tasks i = .notifying whom attempt answer) :
      Effect s (.run i) ((s.wakeAll attempt).setTask i (.ensured answer whom))
  | acquire (i m connection : Nat) (htask : s.tasks i = .acquiring m)
      (hhandles : s.handles = some connection) :
      Effect s (.run i) (s.setTask i (.storing m connection))
  | store (i m connection : Nat) (htask : s.tasks i = .storing m connection) :
      Effect s (.run i) ((s.setEntry m (some connection)).setTask i .done)
  | releaseEntry (i m : Nat) (htask : s.tasks i = .releasing m) :
      Effect s (.run i) (((s.setEntry m none).setLocked m true).setTask i (.removing (some m)))
  | releaseAll (m : Nat) : Effect s (.releaseAll m) (s.setEntry m none)
  | removeHandle (i : Nat) (manager : Option Nat) (htask : s.tasks i = .removing manager) :
      Effect s (.run i) (s.removeHandle.setTask i (.shuttingDown manager))
  | removeClient (i : Nat) (manager : Option Nat) (htask : s.tasks i = .shuttingDown manager) :
      Effect s (.run i) (s.removeClient.setTask i (.forgetting manager))
  | forget (i : Nat) (manager : Option Nat) (htask : s.tasks i = .forgetting manager) :
      Effect s (.run i) ({ s.unlock manager with lastError := none }.setTask i .done)

lemma effect_run {i : Nat} (ht : s.run i = some t) : Effect s (.run i) t := by
  cases htask : s.tasks i with
  | idle | listening | connecting | returned | done => simp [run, htask] at ht
  | checking whom =>
    simp only [run, htask, Option.some.injEq] at ht
    subst ht
    refine .plain i _ (by simp [htask, PoolTask.Plain]) ?_
    split_ifs <;> trivial
  | checkingErrors whom =>
    simp only [run, htask, Option.some.injEq] at ht
    subst ht
    exact .plain i _ (by simp [htask, PoolTask.Plain]) trivial
  | beginning whom =>
    simp only [run, htask, beginConnect, Option.some.injEq] at ht
    split at ht
    · rename_i attempt hconnecting
      subst ht
      exact .wait i whom attempt htask hconnecting
    · rename_i hconnecting
      split_ifs at ht with hhandles
      · subst ht
        exact .plain i _ (by simp [htask, PoolTask.Plain]) PoolTask.plain_ensured
      · subst ht
        exact .lead i whom htask hconnecting (by simpa using hhandles)
  | waiting whom attempt =>
    simp only [run, htask, Option.some.injEq] at ht
    subst ht
    exact .listen i whom attempt htask
  | woken whom attempt =>
    simp only [run, htask, Option.some.injEq] at ht
    subst ht
    refine .answer i whom attempt _ htask ?_
    split_ifs
    · exact PoolTask.plain_ensured
    · trivial
  | failing whom =>
    simp only [run, htask, Option.some.injEq] at ht
    subst ht
    exact .plain i _ (by simp [htask, PoolTask.Plain]) PoolTask.plain_ensured
  | connected whom attempt connection =>
    simp only [run, htask, Option.some.injEq] at ht
    subst ht
    exact .insertHandle i whom attempt connection htask
  | inserting whom attempt connection =>
    simp only [run, htask, Option.some.injEq] at ht
    subst ht
    exact .insertClient i whom attempt connection htask
  | clearing whom attempt =>
    simp only [run, htask, Option.some.injEq] at ht
    subst ht
    exact .clearError i whom attempt htask
  | failed whom attempt error =>
    simp only [run, htask, Option.some.injEq] at ht
    subst ht
    exact .insertError i whom attempt error htask
  | finishing whom attempt answer =>
    simp only [run, htask, Option.some.injEq] at ht
    subst ht
    exact .removeConnecting i whom attempt answer htask
  | notifying whom attempt answer =>
    simp only [run, htask, Option.some.injEq] at ht
    subst ht
    exact .notify i whom attempt answer htask
  | acquiring m =>
    simp only [run, htask] at ht
    split at ht
    · rename_i connection hhandles
      cases ht
      exact .acquire i m connection htask hhandles
    · cases ht
      exact .plain i _ (by simp [htask, PoolTask.Plain]) trivial
  | storing m connection =>
    simp only [run, htask] at ht
    split_ifs at ht
    cases ht
    exact .store i m connection htask
  | releasing m =>
    simp only [run, htask] at ht
    split_ifs at ht
    · cases ht
      exact .releaseEntry i m htask
    · cases ht
      exact .plain i _ (by simp [htask, PoolTask.Plain]) trivial
  | removing manager =>
    simp only [run, htask, Option.some.injEq] at ht
    subst ht
    exact .removeHandle i manager htask
  | shuttingDown manager =>
    simp only [run, htask, Option.some.injEq] at ht
    subst ht
    exact .removeClient i manager htask
  | forgetting manager =>
    simp only [run, htask, Option.some.injEq] at ht
    subst ht
    exact .forget i manager htask

/-- Every step has one of the effects. -/
theorem effect_of_step (ht : s.step m = some t) : Effect s m t := by
  cases m with
  | connect i whom =>
    simp only [step] at ht
    split at ht
    · rename_i htask
      cases ht
      exact .plain i _ (by simp [htask, PoolTask.Plain]) trivial
    · cases ht
  | reacquire i m =>
    simp only [step] at ht
    split at ht
    · rename_i htask
      cases ht
      exact .plain i _ (by simp [htask, PoolTask.Plain]) trivial
    · cases ht
  | disconnect i manager =>
    simp only [step] at ht
    split at ht
    · rename_i htask
      cases ht
      exact .plain i _ (by simp [htask, PoolTask.Plain]) trivial
    · rename_i m htask
      cases ht
      exact .plain i _ (by simp [htask, PoolTask.Plain]) trivial
    · cases ht
  | releaseAll m =>
    simp only [step] at ht
    split_ifs at ht
    cases ht
    exact .releaseAll m
  | suppress i retryAfter =>
    simp only [step] at ht
    split at ht
    · rename_i htask _
      cases ht
      exact .plain i _ (by simp [htask, PoolTask.Plain]) PoolTask.plain_ensured
    · cases ht
  | connected i error =>
    simp only [step] at ht
    split at ht
    · rename_i whom attempt htask
      cases error with
      | none =>
        cases ht
        exact .connected i whom attempt htask
      | some error =>
        cases ht
        exact .connectFailed i error whom attempt htask
    · cases ht
  | run i => exact effect_run ht

end McpPool

end Jcode
