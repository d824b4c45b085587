import Jcode.Foundation.LinkedFile
import Jcode.Foundation.Records
import Jcode.Foundation.Run
import Jcode.SelfDev.BuildRequest

/-!
# The build queue

Any number of requests, each with the future of its background task, and of calls: requests on
their way (`do_build` and `do_test` do the same with them), cancels, and listings of the pending
requests, which reconcile them and are made by the first two, by the tasks that wait for their
turn, and by everyone who wants to know. A step is one file operation.
-/

namespace Jcode

open Schedule

/-- How a save ends: with the new file, with the old one, or, between its two renames, with
neither. -/
inductive SaveResult
  | written
  | kept
  | lost
  deriving DecidableEq

/-- The path of the lock file, and the file that was opened. -/
structure BuildLockGuard where
  worktreeScope : String
  inode : Nat
  deriving DecidableEq

/-- The future of a background task that runs a request, until it returns. -/
inductive BuildRunner
  | absent
  | spawned
  /-- Between two looks at the queue. -/
  | waiting (request : BuildRequest)
  | listing (request : BuildRequest)
  /-- First of `queue`; the lock file is opened next. -/
  | first (request : BuildRequest) (queue : List BuildRequest)
  | opened (request : BuildRequest) (queue : List BuildRequest) (guard : BuildLockGuard)
  /-- `wait_for_turn` has returned. -/
  | entered (request : BuildRequest) (guard : BuildLockGuard)
  | building (guard : BuildLockGuard)
  | publishing (guard : BuildLockGuard) (outcome : BackgroundOutcome)
  | published (request : BuildRequest) (guard : BuildLockGuard) (outcome : BackgroundOutcome)
  | ending (guard : BuildLockGuard) (outcome : BackgroundOutcome)
  | saving (request : BuildRequest) (guard : BuildLockGuard) (outcome : BackgroundOutcome)
  /-- The guard is dropped: the lock file is removed, and closed afterwards. There is no outcome
  of an aborted task. -/
  | dropping (guard : BuildLockGuard) (outcome : Option BackgroundOutcome)
  | closing (guard : BuildLockGuard) (outcome : Option BackgroundOutcome)
  | returned (outcome : BackgroundOutcome)
  | done
  deriving DecidableEq

/-- After the drop of the guard. -/
def BuildRunner.ofOutcome : Option BackgroundOutcome → BuildRunner
  | some outcome => .returned outcome
  | none => .done

/-- What there is of one request: its file; the status file of its task, and the one that the task
began with; whether the task is in the table of the manager; and the future. Then what has
happened: the request that was saved first, whether its task has ended and it was cancelled, and
the state that its task has written at its end, or its cancel. -/
structure BuildRecord (F : Type) where
  file : Option BuildRequest
  status : Option (TaskStatusFile F)
  started : Option (TaskStatusFile F)
  live : Bool
  aborted : Bool
  runner : BuildRunner
  origin : Option BuildRequest
  ended : Bool
  cancelled : Bool
  settled : Option BuildRequestState

namespace BuildRecord

variable {F : Type}

def unused : BuildRecord F :=
  ⟨none, none, none, false, false, .absent, none, false, false, none⟩

def save (record : BuildRecord F) (request : BuildRequest) : SaveResult → BuildRecord F
  | .written => { record with file := some request }
  | .kept => record
  | .lost => { record with file := none }

/-- `BuildRequest::load`. -/
def load (record : BuildRecord F) (readable : Bool) : Option BuildRequest :=
  if readable then record.file else none

def readStatus (record : BuildRecord F) (readable : Bool) : Option (TaskStatusFile F) :=
  if readable then record.status else none

/-- The state that stays, once it is there. -/
def settle (record : BuildRecord F) (state : BuildRequestState) : BuildRecord F :=
  { record with settled := record.settled.or (some state) }

/-- The function of the task returns an error; the lock is dropped, if it has one. -/
def fail (record : BuildRecord F) (error : String) (guard : Option BuildLockGuard) :
    BuildRecord F :=
  let outcome : BackgroundOutcome := ⟨.failed, none, some error⟩
  { record with
    ended := true
    runner := match guard with
      | some guard => .dropping guard (some outcome)
      | none => .returned outcome }

/-- `wait_for_turn`, with the pending requests. -/
def takeTurn (record : BuildRecord F) (request : BuildRequest) (pending : List BuildRequest) :
    BuildRecord F :=
  let queue := pending.filter (·.worktreeScope == request.worktreeScope)
  match queue.findIdx? (·.requestId == request.requestId) with
  | none =>
    record.fail ("Queued build request " ++ request.requestId ++ " disappeared") none
  | some 0 => { record with runner := .first request queue }
  | some (_ + 1) => { record with runner := .waiting request }

end BuildRecord

/-- A step of the future of a request. -/
inductive RequestMove
  | load (readable : Bool)
  /-- An error that is not about the request file or the lock. -/
  | fail (error : String)
  | start (result : SaveResult)
  | finish (outcome : BackgroundOutcome) (publishes : Bool)
  | loadPublished (readable : Bool)
  | savePublished (result : SaveResult)
  | loadFinal (readable : Bool)
  | saveFinal (result : SaveResult) (now : String)
  /-- The manager writes the status file of the task. -/
  | complete (written : Bool) (now : String)
  /-- The future of an aborted task is dropped where it awaits. -/
  | drop
  deriving DecidableEq

namespace BuildRecord

variable {F : Type}

/-- The steps of `run_build_request` and `run_test_request` that touch nothing but the request.
An aborted future goes on until it awaits. -/
def advance (record : BuildRecord F) : RequestMove → Option (BuildRecord F)
  | .load readable =>
    match record.runner with
    | .spawned =>
      if record.aborted then none
      else
        match record.load readable with
        | none => some (record.fail "Missing queued build request" none)
        | some request => some { record with runner := .waiting request }
    | _ => none
  | .fail error =>
    match record.runner with
    | .spawned => if record.aborted then none else some (record.fail error none)
    | .building guard => if record.aborted then none else some (record.fail error (some guard))
    | .entered _ guard | .publishing guard _ => some (record.fail error (some guard))
    | _ => none
  | .start result =>
    match record.runner with
    | .entered request guard =>
      if result = .written then
        some { record.save request.start result with runner := .building guard }
      else some ((record.save request.start result).fail "Failed to save request" (some guard))
    | _ => none
  | .finish outcome publishes =>
    match record.runner with
    | .building guard =>
      if record.aborted ∨ outcome.status = .running ∨ publishes ∧ outcome.error.isSome then none
      else if publishes then some { record with runner := .publishing guard outcome }
      else some { record with runner := .ending guard outcome }
    | _ => none
  | .loadPublished readable =>
    match record.runner with
    | .publishing guard outcome =>
      match record.load readable with
      | none => some (record.fail "Missing queued build request" (some guard))
      | some request => some { record with runner := .published request guard outcome }
    | _ => none
  | .savePublished result =>
    match record.runner with
    | .published request guard outcome =>
      if result = .written then
        some { record.save request result with runner := .ending guard outcome }
      else some ((record.save request result).fail "Failed to save request" (some guard))
    | _ => none
  | .loadFinal readable =>
    match record.runner with
    | .ending guard outcome =>
      match record.load readable with
      | none => some (record.fail "Missing queued build request" (some guard))
      | some request => some { record with runner := .saving request guard outcome }
    | _ => none
  | .saveFinal result now =>
    match record.runner with
    | .saving request guard outcome =>
      let request := request.finish outcome now
      if result = .written then
        some { (record.save request result).settle request.state with
          runner := .dropping guard (some outcome)
          ended := true }
      else some ((record.save request result).fail "Failed to save request" (some guard))
    | _ => none
  | .complete written now =>
    match record.runner, record.started with
    | .returned outcome, some started =>
      let final := started.completion record.status outcome started.notify started.wake now
      some { record with
        status := if written then some final else record.status
        runner := .done }
    | _, _ => none
  | .drop =>
    if record.aborted then
      match record.runner with
      | .spawned | .waiting _ | .returned _ => some { record with runner := .done }
      | .building guard => some { record with runner := .dropping guard none }
      | _ => none
    else none

/-- The guard of a future that can return an error: none before it has the lock. -/
inductive Fails (record : BuildRecord F) : Option BuildLockGuard → Prop
  | spawned (hrunner : record.runner = .spawned) (haborted : record.aborted = false) :
      Fails record none
  | entered (request : BuildRequest) (guard : BuildLockGuard)
      (hrunner : record.runner = .entered request guard) : Fails record (some guard)
  | building (guard : BuildLockGuard) (hrunner : record.runner = .building guard)
      (haborted : record.aborted = false) : Fails record (some guard)
  | publishing (guard : BuildLockGuard) (outcome : BackgroundOutcome)
      (hrunner : record.runner = .publishing guard outcome) : Fails record (some guard)
  | ending (guard : BuildLockGuard) (outcome : BackgroundOutcome)
      (hrunner : record.runner = .ending guard outcome) : Fails record (some guard)

/-- The effects of the steps of a future, each with what it rests on. -/
inductive Advance (record : BuildRecord F) : RequestMove → BuildRecord F → Prop
  | load (readable : Bool) (request : BuildRequest) (hrunner : record.runner = .spawned)
      (haborted : record.aborted = false) (hfile : record.file = some request) :
      Advance record (.load readable) { record with runner := .waiting request }
  | fail {m : RequestMove} (error : String) (guard : Option BuildLockGuard)
      (hfails : record.Fails guard) : Advance record m (record.fail error guard)
  | start (request : BuildRequest) (guard : BuildLockGuard)
      (hrunner : record.runner = .entered request guard) :
      Advance record (.start .written)
        { record.save request.start .written with runner := .building guard }
  | startFailed (result : SaveResult) (request : BuildRequest) (guard : BuildLockGuard)
      (error : String) (hrunner : record.runner = .entered request guard)
      (hresult : result ≠ .written) :
      Advance record (.start result) ((record.save request.start result).fail error (some guard))
  | publish (outcome : BackgroundOutcome) (guard : BuildLockGuard)
      (hrunner : record.runner = .building guard) (haborted : record.aborted = false)
      (houtcome : outcome.status ≠ .running) :
      Advance record (.finish outcome true) { record with runner := .publishing guard outcome }
  | finish (outcome : BackgroundOutcome) (guard : BuildLockGuard)
      (hrunner : record.runner = .building guard) (haborted : record.aborted = false)
      (houtcome : outcome.status ≠ .running) :
      Advance record (.finish outcome false) { record with runner := .ending guard outcome }
  | loadPublished (readable : Bool) (request : BuildRequest) (guard : BuildLockGuard)
      (outcome : BackgroundOutcome) (hrunner : record.runner = .publishing guard outcome)
      (hfile : record.file = some request) :
      Advance record (.loadPublished readable)
        { record with runner := .published request guard outcome }
  | savePublished (request : BuildRequest) (guard : BuildLockGuard) (outcome : BackgroundOutcome)
      (hrunner : record.runner = .published request guard outcome) :
      Advance record (.savePublished .written)
        { record.save request .written with runner := .ending guard outcome }
  | savePublishedFailed (result : SaveResult) (request : BuildRequest) (guard : BuildLockGuard)
      (outcome : BackgroundOutcome) (error : String)
      (hrunner : record.runner = .published request guard outcome) (hresult : result ≠ .written) :
      Advance record (.savePublished result) ((record.save request result).fail error (some guard))
  | loadFinal (readable : Bool) (request : BuildRequest) (guard : BuildLockGuard)
      (outcome : BackgroundOutcome) (hrunner : record.runner = .ending guard outcome)
      (hfile : record.file = some request) :
      Advance record (.loadFinal readable)
        { record with runner := .saving request guard outcome }
  | saveFinal (now : String) (request : BuildRequest) (guard : BuildLockGuard)
      (outcome : BackgroundOutcome) (hrunner : record.runner = .saving request guard outcome) :
      Advance record (.saveFinal .written now)
        { (record.save (request.finish outcome now) .written).settle
          outcome.status.requestState with
          runner := .dropping guard (some outcome)
          ended := true }
  | saveFinalFailed (result : SaveResult) (now : String) (request : BuildRequest)
      (guard : BuildLockGuard) (outcome : BackgroundOutcome) (error : String)
      (hrunner : record.runner = .saving request guard outcome) (hresult : result ≠ .written) :
      Advance record (.saveFinal result now)
        ((record.save (request.finish outcome now) result).fail error (some guard))
  | complete (written : Bool) (now : String) (outcome : BackgroundOutcome)
      (started : TaskStatusFile F) (hrunner : record.runner = .returned outcome) :
      Advance record (.complete written now)
        { record with
          status := if written then
            some (started.completion record.status outcome started.notify started.wake now)
          else record.status
          runner := .done }
  | dropIdle (haborted : record.aborted = true) (hlock : record.runner = .spawned ∨
      (∃ request, record.runner = .waiting request) ∨
        ∃ outcome, record.runner = .returned outcome) :
      Advance record .drop { record with runner := .done }
  | dropBuilding (guard : BuildLockGuard) (haborted : record.aborted = true)
      (hrunner : record.runner = .building guard) :
      Advance record .drop { record with runner := .dropping guard none }

variable {record after : BuildRecord F} {m : RequestMove}

lemma file_of_load {request : BuildRequest} {readable : Bool}
    (h : record.load readable = some request) : record.file = some request := by
  cases readable with
  | true => exact h
  | false => cases h

lemma status_of_read {status : TaskStatusFile F} {readable : Bool}
    (h : record.readStatus readable = some status) : record.status = some status := by
  cases readable with
  | true => exact h
  | false => cases h

/-- Every step of a future has one of the effects. -/
theorem advance_of_eq (h : record.advance m = some after) : Advance record m after := by
  cases m with
  | load readable =>
    simp only [advance] at h
    split at h
    · rename_i hrunner
      simp only [Option.ite_none_left_eq_some, Bool.not_eq_true] at h
      obtain ⟨haborted, h⟩ := h
      split at h
      · cases h
        exact .fail _ none (.spawned hrunner haborted)
      · rename_i request hload
        cases h
        exact .load readable request hrunner haborted (file_of_load hload)
    · cases h
  | fail error =>
    simp only [advance] at h
    split at h
    · rename_i hrunner
      simp only [Option.ite_none_left_eq_some, Bool.not_eq_true] at h
      obtain ⟨haborted, h⟩ := h
      cases h
      exact .fail error none (.spawned hrunner haborted)
    · rename_i guard hrunner
      simp only [Option.ite_none_left_eq_some, Bool.not_eq_true] at h
      obtain ⟨haborted, h⟩ := h
      cases h
      exact .fail error (some guard) (.building guard hrunner haborted)
    · rename_i request guard hrunner
      cases h
      exact .fail error (some guard) (.entered request guard hrunner)
    · rename_i guard outcome hrunner
      cases h
      exact .fail error (some guard) (.publishing guard outcome hrunner)
    · cases h
  | start result =>
    simp only [advance] at h
    split at h
    · rename_i request guard hrunner
      split_ifs at h with hresult
      · subst hresult
        cases h
        exact .start request guard hrunner
      · cases h
        exact .startFailed result request guard _ hrunner hresult
    · cases h
  | finish outcome publishes =>
    simp only [advance] at h
    split at h
    · rename_i guard hrunner
      simp only [Option.ite_none_left_eq_some, not_or, Bool.not_eq_true] at h
      obtain ⟨⟨haborted, houtcome, -⟩, h⟩ := h
      cases publishes with
      | true =>
        cases h
        exact .publish outcome guard hrunner haborted houtcome
      | false =>
        cases h
        exact .finish outcome guard hrunner haborted houtcome
    · cases h
  | loadPublished readable =>
    simp only [advance] at h
    split at h
    · rename_i guard outcome hrunner
      split at h
      · cases h
        exact .fail _ (some guard) (.publishing guard outcome hrunner)
      · rename_i request hload
        cases h
        exact .loadPublished readable request guard outcome hrunner (file_of_load hload)
    · cases h
  | savePublished result =>
    simp only [advance] at h
    split at h
    · rename_i request guard outcome hrunner
      split_ifs at h with hresult
      · subst hresult
        cases h
        exact .savePublished request guard outcome hrunner
      · cases h
        exact .savePublishedFailed result request guard outcome _ hrunner hresult
    · cases h
  | loadFinal readable =>
    simp only [advance] at h
    split at h
    · rename_i guard outcome hrunner
      split at h
      · cases h
        exact .fail _ (some guard) (.ending guard outcome hrunner)
      · rename_i request hload
        cases h
        exact .loadFinal readable request guard outcome hrunner (file_of_load hload)
    · cases h
  | saveFinal result now =>
    simp only [advance] at h
    split at h
    · rename_i request guard outcome hrunner
      split_ifs at h with hresult
      · subst hresult
        cases h
        exact .saveFinal now request guard outcome hrunner
      · cases h
        exact .saveFinalFailed result now request guard outcome _ hrunner hresult
    · cases h
  | complete written now =>
    simp only [advance] at h
    split at h
    · rename_i outcome started hrunner hstarted
      cases h
      exact .complete written now outcome started hrunner
    · cases h
  | drop =>
    simp only [advance] at h
    split_ifs at h with haborted
    split at h
    · rename_i hrunner
      cases h
      exact .dropIdle haborted (.inl hrunner)
    · rename_i request hrunner
      cases h
      exact .dropIdle haborted (.inr (.inl ⟨request, hrunner⟩))
    · rename_i outcome hrunner
      cases h
      exact .dropIdle haborted (.inr (.inr ⟨outcome, hrunner⟩))
    · rename_i guard hrunner
      cases h
      exact .dropBuilding guard haborted hrunner
    · cases h

end BuildRecord

/-- Whom a listing of the pending requests is made for. -/
inductive ListingFor
  | nobody
  /-- A requester asks for its place in the queue. -/
  | position (request : BuildRequest)
  /-- A task asks for its turn. -/
  | turn (id : String)
  deriving DecidableEq

/-- What a call is about to do. -/
inductive BuildCall
  | idle
  | loading (whom : ListingFor) (entries : List String) (loaded : List BuildRequest)
  | reconciling (whom : ListingFor) (todo pending : List BuildRequest)
  | marking (whom : ListingFor) (changed : BuildRequest) (todo pending : List BuildRequest)
  | failed (whom : ListingFor)
  | spawning (request : BuildRequest)
  | registering (request : BuildRequest)
  | saving (request : BuildRequest)
  | cancelling (request : BuildRequest)
  | cancelWriting (request : BuildRequest)
  | cancelSaving (request : BuildRequest)
  deriving DecidableEq

/-- The lock file of a worktree, and the inodes that are locked. -/
structure BuildLock where
  file : LinkedFile
  flocked : List Nat

/-- `entries` is the directory of the request files. -/
structure BuildQueue (F : Type) where
  records : String → BuildRecord F
  entries : List String
  calls : Nat → BuildCall
  locks : String → BuildLock

/-- A step of the future of request `id` or of call `n`. Files may be unreadable and writes may
fail; `live` is the answer of `is_live_task`, which is no in another process and while the table is
locked; `here` says that a cancel is made in the process of the task. -/
inductive BuildMove
  | advance (id : String) (m : RequestMove)
  | openLock (id : String) (opened : Bool)
  | flock (id : String)
  | unlink (id : String) (removed : Bool)
  | close (id : String)
  | look (id : String) (n : Nat)
  | list (n : Nat)
  | request (n : Nat) (id sessionId worktreeScope requestedAt : String) (result : SaveResult)
  | readEntry (n : Nat) (readable : Bool)
  | reconcile (n : Nat) (readable live : Bool) (now : String)
  | mark (n : Nat) (result : SaveResult)
  | listed (n : Nat)
  | spawn (n : Nat) (taskId startedAt : String) (written : Bool)
  | register (n : Nat)
  | saveTaskId (n : Nat) (result : SaveResult)
  | cancel (n : Nat) (id sessionId : String) (readable : Bool)
  | abort (n : Nat) (here : Bool)
  | writeCancelled (n : Nat) (written : Bool) (now : String)
  | saveCancelled (n : Nat) (result : SaveResult) (now : String)
  deriving DecidableEq

namespace BuildQueue

variable {F : Type}

def empty : BuildQueue F :=
  ⟨fun _ => .unused, [], fun _ => .idle, fun _ => ⟨.missing, []⟩⟩

def setRecord (s : BuildQueue F) (id : String) (record : BuildRecord F) : BuildQueue F :=
  { s with records := Function.update s.records id record }

def setCall (s : BuildQueue F) (n : Nat) (call : BuildCall) : BuildQueue F :=
  { s with calls := Function.update s.calls n call }

def setRunner (s : BuildQueue F) (id : String) (runner : BuildRunner) : BuildQueue F :=
  s.setRecord id { s.records id with runner := runner }

def setLock (s : BuildQueue F) (worktreeScope : String) (lock : BuildLock) : BuildQueue F :=
  { s with locks := Function.update s.locks worktreeScope lock }

/-- `load_all` with `entries` left to read; then `pending_requests` goes through what it has. -/
def loadAll (whom : ListingFor) (entries : List String) (loaded : List BuildRequest) : BuildCall :=
  match entries with
  | [] => .reconciling whom ((BuildRequest.sorted loaded).filter fun r => decide r.state.Pending) []
  | entries => .loading whom entries loaded

/-- The pending requests are listed, or the listing has failed. -/
def listedFor (s : BuildQueue F) (n : Nat) (pending : Option (List BuildRequest)) :
    ListingFor → Option (BuildQueue F)
  | .nobody => some (s.setCall n .idle)
  | .position request =>
    match pending with
    | some _ => some (s.setCall n (.spawning request))
    | none => some (s.setCall n .idle)
  | .turn id =>
    match (s.records id).runner with
    | .listing request =>
      match pending with
      | some pending =>
        some ((s.setRecord id ((s.records id).takeTurn request pending)).setCall n .idle)
      | none =>
        some ((s.setRecord id ((s.records id).fail "Failed to list pending requests" none)).setCall
          n .idle)
    | _ => none

/-- One step. Request ids and task ids are new. -/
def step (s : BuildQueue F) : BuildMove → Option (BuildQueue F)
  | .advance id m => ((s.records id).advance m).map (s.setRecord id)
  | .openLock id opened =>
    match (s.records id).runner with
    | .first request queue =>
      let lock := s.locks request.worktreeScope
      if opened then
        some ((s.setRunner id
          (.opened request queue ⟨request.worktreeScope, lock.file.target⟩)).setLock
            request.worktreeScope { lock with file := lock.file.openCreate })
      else some (s.setRecord id ((s.records id).fail "Failed to open the build lock" none))
    | _ => none
  | .flock id =>
    match (s.records id).runner with
    | .opened request _ guard =>
      let lock := s.locks guard.worktreeScope
      if guard.inode ∈ lock.flocked then some (s.setRunner id (.waiting request))
      else
        some ((s.setRunner id (.entered request guard)).setLock guard.worktreeScope
          { lock with flocked := guard.inode :: lock.flocked })
    | _ => none
  | .unlink id removed =>
    match (s.records id).runner with
    | .dropping guard outcome =>
      let lock := s.locks guard.worktreeScope
      some ((s.setRunner id (.closing guard outcome)).setLock guard.worktreeScope
        { lock with file := if removed then lock.file.unlink else lock.file })
    | _ => none
  | .close id =>
    match (s.records id).runner with
    | .closing guard outcome =>
      let lock := s.locks guard.worktreeScope
      some ((s.setRunner id (.ofOutcome outcome)).setLock guard.worktreeScope
        { lock with flocked := lock.flocked.erase guard.inode })
    | _ => none
  | .look id n =>
    match (s.records id).runner, s.calls n with
    | .waiting request, .idle =>
      if (s.records id).aborted then none
      else some ((s.setRunner id (.listing request)).setCall n (loadAll (.turn id) s.entries []))
    | _, _ => none
  | .list n =>
    match s.calls n with
    | .idle => some (s.setCall n (loadAll .nobody s.entries []))
    | _ => none
  | .request n id sessionId worktreeScope requestedAt result =>
    match s.calls n with
    | .idle =>
      if (s.records id).origin.isSome then none
      else if result = .written then
        let request := BuildRequest.initial id sessionId worktreeScope requestedAt
        let entries := s.entries ++ [id]
        some { (s.setRecord id { BuildRecord.unused with
            file := some request
            origin := some request }).setCall n (loadAll (.position request) entries []) with
          entries := entries }
      else some s
    | _ => none
  | .readEntry n readable =>
    match s.calls n with
    | .loading whom (id :: entries) loaded =>
      some (s.setCall n (loadAll whom entries (loaded ++ ((s.records id).load readable).toList)))
    | _ => none
  | .reconcile n readable live now =>
    match s.calls n with
    | .reconciling whom (request :: todo) pending =>
      let record := s.records request.requestId
      if live && !record.live then none
      else
        match request.reconcile (record.readStatus readable) live now with
        | none => some (s.setCall n (.reconciling whom todo (pending ++ [request])))
        | some changed => some (s.setCall n (.marking whom changed todo pending))
    | _ => none
  | .mark n result =>
    match s.calls n with
    | .marking whom changed todo pending =>
      some ((s.setRecord changed.requestId
        ((s.records changed.requestId).save changed result)).setCall n
          (if result = .written then .reconciling whom todo pending else .failed whom))
    | _ => none
  | .listed n =>
    match s.calls n with
    | .reconciling whom [] pending => s.listedFor n (some pending) whom
    | .failed whom => s.listedFor n none whom
    | _ => none
  | .spawn n taskId startedAt written =>
    match s.calls n with
    | .spawning request =>
      let started : TaskStatusFile F :=
        .initial taskId "selfdev-build" (some "selfdev build") request.sessionId startedAt none true
          true
      some ((s.setRecord request.requestId { s.records request.requestId with
        status := if written then some started else none
        started := some started
        runner := .spawned }).setCall n (.registering
          { request with backgroundTaskId := some taskId }))
    | _ => none
  | .register n =>
    match s.calls n with
    | .registering request =>
      some ((s.setRecord request.requestId
        { s.records request.requestId with live := true }).setCall n (.saving request))
    | _ => none
  | .saveTaskId n result =>
    match s.calls n with
    | .saving request =>
      some ((s.setRecord request.requestId
        ((s.records request.requestId).save request result)).setCall n .idle)
    | _ => none
  | .cancel n id sessionId readable =>
    match s.calls n with
    | .idle =>
      match (s.records id).load readable with
      | none => some s
      | some request =>
        if request.sessionId ≠ sessionId then some s
        else if request.state = .completed ∨ request.state = .failed ∨
            request.state = .cancelled then
          some s
        else some (s.setCall n (.cancelling request))
    | _ => none
  | .abort n here =>
    match s.calls n with
    | .cancelling request =>
      let record := s.records request.requestId
      if request.backgroundTaskId.isSome ∧ here ∧ record.live then
        some ((s.setRecord request.requestId
          { record with live := false, aborted := true, cancelled := true }).setCall n
            (.cancelWriting request))
      else some (s.setCall n (.cancelSaving request))
    | _ => none
  | .writeCancelled n written now =>
    match s.calls n with
    | .cancelWriting request =>
      let record := s.records request.requestId
      match record.started with
      | some started =>
        let final := started.cancellation started.notify started.wake now
        some ((s.setRecord request.requestId
          { record with status := if written then some final else record.status }).setCall n
            (.cancelSaving request))
      | none => none
    | _ => none
  | .saveCancelled n result now =>
    match s.calls n with
    | .cancelSaving request =>
      let record := (s.records request.requestId).save (request.cancel now) result
      some ((s.setRecord request.requestId
        (if result = .written then { record.settle .cancelled with cancelled := true }
          else record)).setCall n .idle)
    | _ => none

/-! ### What a step does -/

-- The equations of `step` are made here once, not by each of the lemmas that rewrite with them.
attribute [local simp] step

variable {s t : BuildQueue F} {m : BuildMove}

/-- The effects of the steps, each with what it rests on. -/
inductive Effect (s : BuildQueue F) : BuildMove → BuildQueue F → Prop
  | advance (id : String) (m : RequestMove) (record : BuildRecord F)
      (hadvance : (s.records id).advance m = some record) :
      Effect s (.advance id m) (s.setRecord id record)
  | openLock (id : String) (request : BuildRequest) (queue : List BuildRequest)
      (hrunner : (s.records id).runner = .first request queue) :
      Effect s (.openLock id true) ((s.setRunner id (.opened request queue
        ⟨request.worktreeScope, (s.locks request.worktreeScope).file.target⟩)).setLock
          request.worktreeScope { s.locks request.worktreeScope with
            file := (s.locks request.worktreeScope).file.openCreate })
  | openFailed (id : String) (request : BuildRequest) (queue : List BuildRequest)
      (hrunner : (s.records id).runner = .first request queue) :
      Effect s (.openLock id false)
        (s.setRecord id ((s.records id).fail "Failed to open the build lock" none))
  | flock (id : String) (request : BuildRequest) (queue : List BuildRequest)
      (guard : BuildLockGuard) (hrunner : (s.records id).runner = .opened request queue guard)
      (hfree : guard.inode ∉ (s.locks guard.worktreeScope).flocked) :
      Effect s (.flock id) ((s.setRunner id (.entered request guard)).setLock guard.worktreeScope
        { s.locks guard.worktreeScope with
          flocked := guard.inode :: (s.locks guard.worktreeScope).flocked })
  | busy (id : String) (request : BuildRequest) (queue : List BuildRequest)
      (guard : BuildLockGuard) (hrunner : (s.records id).runner = .opened request queue guard)
      (hbusy : guard.inode ∈ (s.locks guard.worktreeScope).flocked) :
      Effect s (.flock id) (s.setRunner id (.waiting request))
  | unlink (id : String) (removed : Bool) (guard : BuildLockGuard)
      (outcome : Option BackgroundOutcome)
      (hrunner : (s.records id).runner = .dropping guard outcome) :
      Effect s (.unlink id removed) ((s.setRunner id (.closing guard outcome)).setLock
        guard.worktreeScope { s.locks guard.worktreeScope with
          file := if removed then (s.locks guard.worktreeScope).file.unlink
            else (s.locks guard.worktreeScope).file })
  | close (id : String) (guard : BuildLockGuard) (outcome : Option BackgroundOutcome)
      (hrunner : (s.records id).runner = .closing guard outcome) :
      Effect s (.close id) ((s.setRunner id (.ofOutcome outcome)).setLock guard.worktreeScope
        { s.locks guard.worktreeScope with
          flocked := (s.locks guard.worktreeScope).flocked.erase guard.inode })
  | look (id : String) (n : Nat) (request : BuildRequest)
      (hrunner : (s.records id).runner = .waiting request)
      (haborted : (s.records id).aborted = false) :
      Effect s (.look id n)
        ((s.setRunner id (.listing request)).setCall n (loadAll (.turn id) s.entries []))
  /-- Nothing happens, or a call ends. -/
  | stay {m : BuildMove} : Effect s m s
  | idle {m : BuildMove} (n : Nat) : Effect s m (s.setCall n .idle)
  | list (n : Nat) : Effect s (.list n) (s.setCall n (loadAll .nobody s.entries []))
  | request (n : Nat) (id sessionId worktreeScope requestedAt : String)
      (hnew : (s.records id).origin = none) :
      Effect s (.request n id sessionId worktreeScope requestedAt .written)
        { (s.setRecord id { BuildRecord.unused with
            file := some (.initial id sessionId worktreeScope requestedAt)
            origin := some (.initial id sessionId worktreeScope requestedAt) }).setCall n
            (loadAll (.position (.initial id sessionId worktreeScope requestedAt))
              (s.entries ++ [id]) []) with
          entries := s.entries ++ [id] }
  | readEntry (n : Nat) (readable : Bool) (whom : ListingFor) (id : String)
      (entries : List String) (loaded : List BuildRequest)
      (hcall : s.calls n = .loading whom (id :: entries) loaded) :
      Effect s (.readEntry n readable) (s.setCall n
        (loadAll whom entries (loaded ++ ((s.records id).load readable).toList)))
  | reconcileKeep (n : Nat) (readable live : Bool) (now : String) (whom : ListingFor)
      (request : BuildRequest) (todo pending : List BuildRequest)
      (hcall : s.calls n = .reconciling whom (request :: todo) pending) :
      Effect s (.reconcile n readable live now)
        (s.setCall n (.reconciling whom todo (pending ++ [request])))
  | reconcile (n : Nat) (readable live : Bool) (now : String) (whom : ListingFor)
      (request changed : BuildRequest) (todo pending : List BuildRequest)
      (hcall : s.calls n = .reconciling whom (request :: todo) pending)
      (hchanged : request.reconcile ((s.records request.requestId).readStatus readable) live now =
        some changed) :
      Effect s (.reconcile n readable live now)
        (s.setCall n (.marking whom changed todo pending))
  | mark (n : Nat) (result : SaveResult) (whom : ListingFor) (changed : BuildRequest)
      (todo pending : List BuildRequest)
      (hcall : s.calls n = .marking whom changed todo pending) :
      Effect s (.mark n result) ((s.setRecord changed.requestId
        ((s.records changed.requestId).save changed result)).setCall n
          (if result = .written then .reconciling whom todo pending else .failed whom))
  | position (n : Nat) (request : BuildRequest) (pending : List BuildRequest)
      (hcall : s.calls n = .reconciling (.position request) [] pending) :
      Effect s (.listed n) (s.setCall n (.spawning request))
  | turn (n : Nat) (id : String) (request : BuildRequest) (pending : List BuildRequest)
      (hcall : s.calls n = .reconciling (.turn id) [] pending)
      (hrunner : (s.records id).runner = .listing request) :
      Effect s (.listed n)
        ((s.setRecord id ((s.records id).takeTurn request pending)).setCall n .idle)
  | turnFailed (n : Nat) (id : String) (request : BuildRequest)
      (hrunner : (s.records id).runner = .listing request) :
      Effect s (.listed n)
        ((s.setRecord id ((s.records id).fail "Failed to list pending requests" none)).setCall
          n .idle)
  | spawn (n : Nat) (taskId startedAt : String) (written : Bool) (request : BuildRequest)
      (started : TaskStatusFile F) (hcall : s.calls n = .spawning request)
      (hrunning : started.status = .running) :
      Effect s (.spawn n taskId startedAt written)
        ((s.setRecord request.requestId { s.records request.requestId with
          status := if written then some started else none
          started := some started
          runner := .spawned }).setCall n (.registering
            { request with backgroundTaskId := some taskId }))
  | register (n : Nat) (request : BuildRequest) (hcall : s.calls n = .registering request) :
      Effect s (.register n) ((s.setRecord request.requestId
        { s.records request.requestId with live := true }).setCall n (.saving request))
  | saveTaskId (n : Nat) (result : SaveResult) (request : BuildRequest)
      (hcall : s.calls n = .saving request) :
      Effect s (.saveTaskId n result) ((s.setRecord request.requestId
        ((s.records request.requestId).save request result)).setCall n .idle)
  | cancel (n : Nat) (id sessionId : String) (readable : Bool) (request : BuildRequest)
      (hfile : (s.records id).file = some request) :
      Effect s (.cancel n id sessionId readable) (s.setCall n (.cancelling request))
  | abort (n : Nat) (here : Bool) (request : BuildRequest)
      (hcall : s.calls n = .cancelling request)
      (hlive : (s.records request.requestId).live = true) :
      Effect s (.abort n here) ((s.setRecord request.requestId
        { s.records request.requestId with
          live := false, aborted := true, cancelled := true }).setCall n (.cancelWriting request))
  | noAbort (n : Nat) (here : Bool) (request : BuildRequest)
      (hcall : s.calls n = .cancelling request) :
      Effect s (.abort n here) (s.setCall n (.cancelSaving request))
  | writeCancelled (n : Nat) (written : Bool) (now : String) (request : BuildRequest)
      (started : TaskStatusFile F) (hcall : s.calls n = .cancelWriting request)
      (hstarted : (s.records request.requestId).started = some started) :
      Effect s (.writeCancelled n written now) ((s.setRecord request.requestId
        { s.records request.requestId with
          status := if written then some (started.cancellation started.notify started.wake now)
            else (s.records request.requestId).status }).setCall n (.cancelSaving request))
  | saveCancelled (n : Nat) (result : SaveResult) (now : String) (request : BuildRequest)
      (hcall : s.calls n = .cancelSaving request) :
      Effect s (.saveCancelled n result now) ((s.setRecord request.requestId
        (if result = .written then
          { ((s.records request.requestId).save (request.cancel now) result).settle .cancelled with
            cancelled := true }
        else (s.records request.requestId).save (request.cancel now) result)).setCall n .idle)

lemma effect_listed {n : Nat} (ht : s.step (.listed n) = some t) : Effect s (.listed n) t := by
  simp only [step] at ht
  split at ht
  · rename_i whom pending hcall
    cases whom with
    | nobody =>
      cases ht
      exact .idle n
    | position request =>
      cases ht
      exact .position n request pending hcall
    | turn id =>
      simp only [listedFor] at ht
      split at ht
      · rename_i request hrunner
        cases ht
        exact .turn n id request pending hcall hrunner
      · cases ht
  · rename_i whom hcall
    cases whom with
    | nobody =>
      cases ht
      exact .idle n
    | position request =>
      cases ht
      exact .idle n
    | turn id =>
      simp only [listedFor] at ht
      split at ht
      · rename_i request hrunner
        cases ht
        exact .turnFailed n id request hrunner
      · cases ht
  · cases ht

lemma effect_reconcile {n : Nat} {readable live : Bool} {now : String}
    (ht : s.step (.reconcile n readable live now) = some t) :
    Effect s (.reconcile n readable live now) t := by
  simp only [step] at ht
  split at ht
  · rename_i whom request todo pending hcall
    rw [Option.ite_none_left_eq_some] at ht
    obtain ⟨-, ht⟩ := ht
    split at ht
    · cases ht
      exact .reconcileKeep n readable live now whom request todo pending hcall
    · rename_i changed hchanged
      cases ht
      exact .reconcile n readable live now whom request changed todo pending hcall hchanged
  · cases ht

lemma effect_cancel {n : Nat} {id sessionId : String} {readable : Bool}
    (ht : s.step (.cancel n id sessionId readable) = some t) :
    Effect s (.cancel n id sessionId readable) t := by
  simp only [step] at ht
  split at ht
  · split at ht
    · cases ht
      exact .stay
    · rename_i request hload
      have hfile : (s.records id).file = some request := by
        cases readable with
        | true => exact hload
        | false => cases hload
      split_ifs at ht
      · cases ht
        exact .stay
      · cases ht
        exact .stay
      · cases ht
        exact .cancel n id sessionId readable request hfile
  · cases ht

lemma effect_abort {n : Nat} {here : Bool} (ht : s.step (.abort n here) = some t) :
    Effect s (.abort n here) t := by
  simp only [step] at ht
  split at ht
  · rename_i request hcall
    split_ifs at ht with habort
    · cases ht
      exact .abort n here request hcall habort.2.2
    · cases ht
      exact .noAbort n here request hcall
  · cases ht

/-- Every step has one of the effects. -/
theorem effect_of_step (ht : s.step m = some t) : Effect s m t := by
  cases m with
  | advance id m =>
    obtain ⟨record, hadvance, rfl⟩ := Option.map_eq_some_iff.mp ht
    exact .advance id m record hadvance
  | openLock id opened =>
    simp only [step] at ht
    split at ht
    · rename_i request queue hrunner
      cases opened with
      | true =>
        cases ht
        exact .openLock id request queue hrunner
      | false =>
        cases ht
        exact .openFailed id request queue hrunner
    · cases ht
  | flock id =>
    simp only [step] at ht
    split at ht
    · rename_i request queue guard hrunner
      split_ifs at ht with hbusy
      · cases ht
        exact .busy id request queue guard hrunner hbusy
      · cases ht
        exact .flock id request queue guard hrunner hbusy
    · cases ht
  | unlink id removed =>
    simp only [step] at ht
    split at ht
    · rename_i guard outcome hrunner
      cases ht
      exact .unlink id removed guard outcome hrunner
    · cases ht
  | close id =>
    simp only [step] at ht
    split at ht
    · rename_i guard outcome hrunner
      cases ht
      exact .close id guard outcome hrunner
    · cases ht
  | look id n =>
    simp only [step] at ht
    split at ht
    · rename_i request hrunner hidle
      simp only [Option.ite_none_left_eq_some, Bool.not_eq_true] at ht
      obtain ⟨haborted, ht⟩ := ht
      cases ht
      exact .look id n request hrunner haborted
    · cases ht
  | list n =>
    simp only [step] at ht
    split at ht
    · cases ht
      exact .list n
    · cases ht
  | request n id sessionId worktreeScope requestedAt result =>
    simp only [step] at ht
    split at ht
    · split_ifs at ht with hnew hwritten
      · subst hwritten
        cases ht
        exact .request n id sessionId worktreeScope requestedAt (by simpa using hnew)
      · cases ht
        exact .stay
    · cases ht
  | readEntry n readable =>
    simp only [step] at ht
    split at ht
    · rename_i whom id entries loaded hcall
      cases ht
      exact .readEntry n readable whom id entries loaded hcall
    · cases ht
  | reconcile n readable live now => exact effect_reconcile ht
  | mark n result =>
    simp only [step] at ht
    split at ht
    · rename_i whom changed todo pending hcall
      cases ht
      exact .mark n result whom changed todo pending hcall
    · cases ht
  | listed n => exact effect_listed ht
  | spawn n taskId startedAt written =>
    simp only [step] at ht
    split at ht
    · rename_i request hcall
      cases ht
      exact .spawn n taskId startedAt written request _ hcall rfl
    · cases ht
  | register n =>
    simp only [step] at ht
    split at ht
    · rename_i request hcall
      cases ht
      exact .register n request hcall
    · cases ht
  | saveTaskId n result =>
    simp only [step] at ht
    split at ht
    · rename_i request hcall
      cases ht
      exact .saveTaskId n result request hcall
    · cases ht
  | cancel n id sessionId readable => exact effect_cancel ht
  | abort n here => exact effect_abort ht
  | writeCancelled n written now =>
    simp only [step] at ht
    split at ht
    · rename_i request hcall
      split at ht
      · rename_i started hstarted
        cases ht
        exact .writeCancelled n written now request started hcall hstarted
      · cases ht
    · cases ht
  | saveCancelled n result now =>
    simp only [step] at ht
    split at ht
    · rename_i request hcall
      cases ht
      exact .saveCancelled n result now request hcall
    · cases ht

end BuildQueue

end Jcode
