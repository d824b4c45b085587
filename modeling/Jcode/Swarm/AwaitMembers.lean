import Jcode.Foundation.Run
import Jcode.Swarm.Member
import Mathlib.Data.Finset.Sort

/-!
# Awaiting members

A session waits until other members of its swarm have reached a status (`server/comm_await.rs`,
`await_members_state.rs`). A request finds a recorded result, or registers as a waiter; the first
one spawns a watcher that looks at the statuses again at every event and answers all waiters.
-/

namespace Jcode

open Schedule

/-! ### Statuses of the awaited members -/

structure AwaitedMemberStatus where
  sessionId : String
  friendlyName : Option String
  status : String
  done : Bool
  completionReport : Option String
deriving DecidableEq

/-- `swarm_members` and `swarms_by_id`. -/
structure SwarmView where
  members : String → Option SwarmMember
  swarmsById : String → Finset String

/-- What a request asks for. -/
structure AwaitQuestion where
  swarmId : String
  requestedIds : List String
  targetStatus : List String
  mode : Option String
deriving DecidableEq

/-- The ids that `awaited_member_statuses` reads first. -/
def watchIds (reqSessionId : String) (question : AwaitQuestion) (view : SwarmView) :
    List String :=
  if question.requestedIds = [] then
    ((view.swarmsById question.swarmId).erase reqSessionId).sort (· ≤ ·)
  else question.requestedIds

def awaitedMemberStatus (targetStatus : List String) (view : SwarmView) (sessionId : String) :
    AwaitedMemberStatus :=
  let member := view.members sessionId
  let status := (member.map (·.status)).getD "unknown"
  { sessionId := sessionId
    friendlyName := member.bind (·.friendlyName)
    status := status
    done := status ∈ targetStatus ∨
      status = "unknown" ∧ ("stopped" ∈ targetStatus ∨ "completed" ∈ targetStatus)
    completionReport := member.bind (·.latestCompletionReport) }

/-- The statuses that `awaited_member_statuses` reads for the ids. -/
def awaitedMemberStatuses (targetStatus : List String) (view : SwarmView) (ids : List String) :
    List AwaitedMemberStatus :=
  ids.map (awaitedMemberStatus targetStatus view)

def completionMode : Option String → String
  | some "any" => "any"
  | _ => "all"

def modeSatisfied (statuses : List AwaitedMemberStatus) (mode : Option String) : Bool :=
  if completionMode mode = "any" then statuses.any (·.done) else statuses.all (·.done)

/-- The session's id is cut after 8 bytes; ids are ASCII. -/
def shortMemberName (member : AwaitedMemberStatus) : String :=
  member.friendlyName.getD (String.ofList (member.sessionId.toList.take 8))

def timeoutSummary (statuses : List AwaitedMemberStatus) : String :=
  "Timed out. Still waiting on: " ++ ", ".intercalate ((statuses.filter (!·.done)).map fun member =>
    shortMemberName member ++ " (" ++ member.status ++ ")")

def completionSummary (statuses : List AwaitedMemberStatus) : String :=
  "All " ++ toString statuses.length ++ " members are done: " ++
    ", ".intercalate (statuses.map shortMemberName)

def modeSummary (statuses : List AwaitedMemberStatus) (mode : Option String) : String :=
  if completionMode mode = "any" then
    let matching := (statuses.filter (·.done)).map shortMemberName
    "Matched " ++ toString matching.length ++ " member" ++
      (if matching.length = 1 then "" else "s") ++ ": " ++ ", ".intercalate matching
  else completionSummary statuses

/-! ### State files -/

structure AwaitMembersAnswer where
  completed : Bool
  members : List AwaitedMemberStatus
  summary : String
deriving DecidableEq

def noOtherMembers : AwaitMembersAnswer := ⟨true, [], "No other members in swarm to wait for."⟩

structure PersistedAwaitMembersResult where
  answer : AwaitMembersAnswer
  resolvedAtUnixMs : Nat
deriving DecidableEq

structure PersistedAwaitMembersState where
  key : String
  sessionId : String
  question : AwaitQuestion
  createdAtUnixMs : Nat
  deadlineUnixMs : Nat
  finalResponse : Option PersistedAwaitMembersResult
deriving DecidableEq

namespace AwaitMembers

/-- `FINAL_STATE_TTL` and `PENDING_STATE_TTL`, in milliseconds. -/
def finalStateTtlMs : Nat := 6 * 60 * 60 * 1000
def pendingStateTtlMs : Nat := 24 * 60 * 60 * 1000

/-- `saturating_sub` is the subtraction of `Nat`. -/
def isStale (nowMs : Nat) (state : PersistedAwaitMembersState) : Bool :=
  match state.finalResponse with
  | some finalResponse => nowMs - finalResponse.resolvedAtUnixMs > finalStateTtlMs
  | none => nowMs - state.deadlineUnixMs > pendingStateTtlMs

/-- The state files, one for each key, written under the key that the state carries. -/
structure StateDir where
  files : String → Option PersistedAwaitMembersState
  keyed : ∀ key state, files key = some state → state.key = key

def StateDir.empty : StateDir where
  files _ := none
  keyed _ _ h := nomatch h

def StateDir.remove (dir : StateDir) (key : String) : StateDir where
  files := Function.update dir.files key none
  keyed k state h := by
    by_cases hk : k = key
    · simp [hk] at h
    · rw [Function.update_of_ne hk] at h
      exact dir.keyed k state h

def saveState (dir : StateDir) (state : PersistedAwaitMembersState) : StateDir where
  files := Function.update dir.files state.key (some state)
  keyed k st h := by
    by_cases hk : k = state.key
    · rw [hk, Function.update_self, Option.some.injEq] at h
      rw [hk, h]
    · rw [Function.update_of_ne hk] at h
      exact dir.keyed k st h

def loadState (dir : StateDir) (nowMs : Nat) (key : String) :
    Option PersistedAwaitMembersState × StateDir :=
  match dir.files key with
  | none => (none, dir)
  | some state => if isStale nowMs state then (none, dir.remove key) else (some state, dir)

def ensurePendingState (dir : StateDir) (nowMs : Nat) (key sessionId : String)
    (question : AwaitQuestion) (deadlineUnixMs : Nat) : PersistedAwaitMembersState × StateDir :=
  match loadState dir nowMs key with
  | (some existing, dir) => (existing, dir)
  | (none, dir) =>
    let state : PersistedAwaitMembersState :=
      ⟨key, sessionId, question, nowMs, deadlineUnixMs, none⟩
    (state, saveState dir state)

def persistFinalResponse (dir : StateDir) (nowMs : Nat) (state : PersistedAwaitMembersState)
    (answer : AwaitMembersAnswer) : StateDir :=
  saveState dir { state with finalResponse := some ⟨answer, nowMs⟩ }

/-- `request_key`; `hashed` is `hashed_request_key`. -/
def requestKey (hashed : String → String → List String → String) (sessionId : String)
    (question : AwaitQuestion) : String :=
  let joined (texts : List String) := "\x1f".intercalate (texts.insertionSort (· ≤ ·))
  hashed sessionId "await_members" [question.swarmId, joined question.requestedIds,
    joined question.targetStatus, question.mode.getD "all"]

/-! ### Runtime -/

structure Waiter where
  requestId : Nat
  clientEventTx : Nat
deriving DecidableEq

structure Runtime where
  activeKeys : Finset String
  waiters : String → Option (List Waiter)

namespace Runtime

variable (runtime : Runtime) (key : String)

def new : Runtime where
  activeKeys := ∅
  waiters _ := none

def addWaiter (requestId clientEventTx : Nat) : Runtime :=
  { runtime with
    waiters := Function.update runtime.waiters key
      (some ((runtime.waiters key).getD [] ++ [⟨requestId, clientEventTx⟩])) }

def markActiveIfNew : Bool × Runtime :=
  (key ∉ runtime.activeKeys, { runtime with activeKeys := insert key runtime.activeKeys })

def clearActive : Runtime := { runtime with activeKeys := runtime.activeKeys.erase key }

/-- How many waiters are left; an entry without any is removed. -/
def retainOpenWaiters (isClosed : Nat → Bool) : Nat × Runtime :=
  match runtime.waiters key with
  | none => (0, runtime)
  | some entries =>
    let entries := entries.filter fun waiter => !isClosed waiter.clientEventTx
    (entries.length, { runtime with
      waiters := Function.update runtime.waiters key
        (if entries.length = 0 then none else some entries) })

def takeWaiters : List Waiter × Runtime :=
  ((runtime.waiters key).getD [],
    { runtime with waiters := Function.update runtime.waiters key none })

end Runtime

/-! ### The system -/

/-- Where a request stands: in the handler up to `inTime` or `expired`, in the watcher that it has
spawned from `watching` on. The watcher and a request out of time resolve in the same way. -/
inductive Phase
  | arrived
  | loaded (persisted : Option PersistedAwaitMembersState)
  | counted (persisted : Option PersistedAwaitMembersState) (ids : List String)
  | evaluated (persisted : Option PersistedAwaitMembersState)
      (statuses : List AwaitedMemberStatus)
  | pending (state : PersistedAwaitMembersState) (statuses : List AwaitedMemberStatus)
  | waiting (state : PersistedAwaitMembersState) (statuses : List AwaitedMemberStatus)
  | inTime (state : PersistedAwaitMembersState)
  | joined
  | expiring (state : PersistedAwaitMembersState) (answer : AwaitMembersAnswer)
  | expired (answer : AwaitMembersAnswer)
  | watching (state : PersistedAwaitMembersState)
  | watchCounted (state : PersistedAwaitMembersState) (ids : List String)
  | watchEvaluated (state : PersistedAwaitMembersState) (statuses : List AwaitedMemberStatus)
  | selecting (state : PersistedAwaitMembersState) (statuses : List AwaitedMemberStatus)
  | resolving (state : PersistedAwaitMembersState) (answer : AwaitMembersAnswer)
  | responding (state : PersistedAwaitMembersState) (answer : AwaitMembersAnswer)
  | clearing (key : String)
  | finished
  | gone
deriving DecidableEq

/-- A request with the moment of its arrival. -/
structure Request where
  requestId : Nat
  reqSessionId : String
  question : AwaitQuestion
  timeoutSecs : Option Nat
  arrivedAt : Nat
  phase : Phase
deriving DecidableEq

def Request.key (hashed : String → String → List String → String) (r : Request) : String :=
  requestKey hashed r.reqSessionId r.question

/-- The requests by their index, which names the client channel. `past` are the views before the
current one; a moment is a number of views. -/
structure AwaitSystem where
  view : SwarmView
  past : List SwarmView
  dir : StateDir
  runtime : Runtime
  nowMs : Nat
  requests : List Request
  closed : Finset Nat
  delivered : List (Nat × Nat × AwaitMembersAnswer)

/-- A request of a session without a swarm is refused and changes nothing; it is no move. -/
inductive Move
  | tick (ms : Nat)
  | setView (view : SwarmView)
  | close (i : Nat)
  | restart
  | request (requestId : Nat) (reqSessionId : String) (question : AwaitQuestion)
      (timeoutSecs : Option Nat)
  | loadState (i : Nat)
  | readIds (i : Nat)
  | readStatuses (i : Nat)
  | ensurePending (i : Nat)
  | addWaiter (i : Nat)
  | checkDeadline (i : Nat)
  | markActive (i : Nat)
  | retainWaiters (i : Nat)
  | timeOut (i : Nat)
  | receive (i : Nat) (ok : Bool)
  | persistFinal (i : Nat)
  | takeWaiters (i : Nat)
  | clearActive (i : Nat)

namespace AwaitSystem

/-- No request and no state file yet. -/
def start (view : SwarmView) (nowMs : Nat) : AwaitSystem where
  view := view
  past := []
  dir := .empty
  runtime := .new
  nowMs := nowMs
  requests := []
  closed := ∅
  delivered := []

variable (hashed : String → String → List String → String) (s : AwaitSystem)

def setPhase (i : Nat) (r : Request) (phase : Phase) : AwaitSystem :=
  { s with requests := s.requests.set i { r with phase := phase } }

def send (messages : List (Nat × Nat × AwaitMembersAnswer)) : AwaitSystem :=
  { s with delivered := s.delivered ++ messages }

/-- The sends of `respond_to_waiters`, one for each waiter taken. -/
def answers (taken : List Waiter) (answer : AwaitMembersAnswer) :
    List (Nat × Nat × AwaitMembersAnswer) :=
  taken.map fun waiter => (waiter.clientEventTx, waiter.requestId, answer)

/-- What the watcher goes on with after it has looked at the statuses. -/
def watchPhase (state : PersistedAwaitMembersState) (statuses : List AwaitedMemberStatus) : Phase :=
  if statuses = [] then .resolving state noOtherMembers
  else if modeSatisfied statuses state.question.mode then
    .resolving state ⟨true, statuses, modeSummary statuses state.question.mode⟩
  else .watchEvaluated state statuses

/-- The deadline that a request without a state file gets. -/
def requestedDeadline (r : Request) : Nat := s.nowMs + r.timeoutSecs.getD 3600 * 1000

def step : Move → Option AwaitSystem
  | .tick ms => some { s with nowMs := s.nowMs + ms }
  | .setView view => some { s with view := view, past := s.past ++ [s.view] }
  | .close i => some { s with closed := insert i s.closed }
  | .restart => some { s with
      runtime := .new
      requests := s.requests.map fun r => { r with phase := .gone } }
  | .request requestId reqSessionId question timeoutSecs =>
    if (s.view.members reqSessionId).bind (·.swarmId) = some question.swarmId then
      some { s with requests := s.requests ++
        [⟨requestId, reqSessionId, question, timeoutSecs, s.past.length, .arrived⟩] }
    else none
  | .loadState i => (s.requests[i]?).bind fun r =>
    match r.phase with
    | .arrived =>
      let loaded := AwaitMembers.loadState s.dir s.nowMs (r.key hashed)
      let s := { s with dir := loaded.2 }
      match loaded.1.bind (·.finalResponse) with
      | some final => some ((s.send [(i, r.requestId, final.answer)]).setPhase i r .finished)
      | none => some (s.setPhase i r (.loaded loaded.1))
    | _ => none
  | .readIds i => (s.requests[i]?).bind fun r =>
    match r.phase with
    | .loaded persisted =>
      some (s.setPhase i r (.counted persisted (watchIds r.reqSessionId r.question s.view)))
    | .watching state =>
      some (s.setPhase i r (.watchCounted state (watchIds r.reqSessionId state.question s.view)))
    | _ => none
  | .readStatuses i => (s.requests[i]?).bind fun r =>
    match r.phase with
    | .counted persisted ids =>
      let statuses := awaitedMemberStatuses r.question.targetStatus s.view ids
      if statuses = [] then
        some ((s.send [(i, r.requestId, noOtherMembers)]).setPhase i r .finished)
      else some (s.setPhase i r (.evaluated persisted statuses))
    | .watchCounted state ids => some (s.setPhase i r (watchPhase state
        (awaitedMemberStatuses state.question.targetStatus s.view ids)))
    | _ => none
  | .ensurePending i => (s.requests[i]?).bind fun r =>
    match r.phase with
    | .evaluated (some state) statuses => some (s.setPhase i r (.pending state statuses))
    | .evaluated none statuses =>
      let ensured := ensurePendingState s.dir s.nowMs (r.key hashed) r.reqSessionId r.question
        (s.requestedDeadline r)
      some ({ s with dir := ensured.2 }.setPhase i r (.pending ensured.1 statuses))
    | _ => none
  | .addWaiter i => (s.requests[i]?).bind fun r =>
    match r.phase with
    | .pending state statuses => some ({ s with
        runtime := s.runtime.addWaiter (r.key hashed) r.requestId i }.setPhase i r
          (.waiting state statuses))
    | _ => none
  | .checkDeadline i => (s.requests[i]?).bind fun r =>
    match r.phase with
    | .waiting state statuses =>
      some (s.setPhase i r (if state.deadlineUnixMs ≤ s.nowMs then
        .expiring state ⟨false, statuses, timeoutSummary statuses⟩ else .inTime state))
    | _ => none
  | .markActive i => (s.requests[i]?).bind fun r =>
    match r.phase with
    | .inTime state =>
      let marked := s.runtime.markActiveIfNew (r.key hashed)
      some ({ s with runtime := marked.2 }.setPhase i r
        (if marked.1 then .watching state else .joined))
    | _ => none
  | .retainWaiters i => (s.requests[i]?).bind fun r =>
    match r.phase with
    | .watchEvaluated state statuses =>
      let retained := s.runtime.retainOpenWaiters state.key (· ∈ s.closed)
      some ({ s with runtime := retained.2 }.setPhase i r
        (if retained.1 = 0 then .clearing state.key else .selecting state statuses))
    | _ => none
  | .timeOut i => (s.requests[i]?).bind fun r =>
    match r.phase with
    | .selecting state statuses =>
      if state.deadlineUnixMs ≤ s.nowMs then
        some (s.setPhase i r (.resolving state ⟨false, statuses, timeoutSummary statuses⟩))
      else none
    | _ => none
  | .receive i ok => (s.requests[i]?).bind fun r =>
    match r.phase with
    | .selecting state _ =>
      some (s.setPhase i r (if ok then .watching state else .clearing state.key))
    | _ => none
  | .persistFinal i => (s.requests[i]?).bind fun r =>
    match r.phase with
    | .expiring state answer => some ({ s with
        dir := persistFinalResponse s.dir s.nowMs state answer }.setPhase i r (.expired answer))
    | .resolving state answer => some ({ s with
        dir := persistFinalResponse s.dir s.nowMs state answer }.setPhase i r
          (.responding state answer))
    | _ => none
  | .takeWaiters i => (s.requests[i]?).bind fun r =>
    match r.phase with
    | .expired answer =>
      let taken := s.runtime.takeWaiters (r.key hashed)
      some (({ s with runtime := taken.2 }.send (answers taken.1 answer)).setPhase i r
        (.clearing (r.key hashed)))
    | .responding state answer =>
      let taken := s.runtime.takeWaiters state.key
      some (({ s with runtime := taken.2 }.send (answers taken.1 answer)).setPhase i r
        (.clearing state.key))
    | _ => none
  | .clearActive i => (s.requests[i]?).bind fun r =>
    match r.phase with
    | .clearing key =>
      some ({ s with runtime := s.runtime.clearActive key }.setPhase i r .finished)
    | _ => none

/-! ### The moves as rules -/

/-- What each move requires and what it leads to. -/
inductive Rule (hashed : String → String → List String → String) (s t : AwaitSystem) : Move → Prop
  | tick (ms : Nat) (ht : t = { s with nowMs := s.nowMs + ms }) : Rule hashed s t (.tick ms)
  | setView (view : SwarmView) (ht : t = { s with view := view, past := s.past ++ [s.view] }) :
    Rule hashed s t (.setView view)
  | close (i : Nat) (ht : t = { s with closed := insert i s.closed }) : Rule hashed s t (.close i)
  | restart (ht : t = { s with
        runtime := .new
        requests := s.requests.map fun r => { r with phase := .gone } }) :
    Rule hashed s t .restart
  | request (requestId : Nat) (reqSessionId : String) (question : AwaitQuestion)
      (timeoutSecs : Option Nat)
      (ht : t = { s with requests := s.requests ++
        [⟨requestId, reqSessionId, question, timeoutSecs, s.past.length, .arrived⟩] }) :
    Rule hashed s t (.request requestId reqSessionId question timeoutSecs)
  | replay (i : Nat) (r : Request) (state : PersistedAwaitMembersState)
      (final : PersistedAwaitMembersResult) (hr : s.requests[i]? = some r)
      (hp : r.phase = .arrived)
      (hl : (AwaitMembers.loadState s.dir s.nowMs (r.key hashed)).1 = some state)
      (hf : state.finalResponse = some final)
      (ht : t = ({ s with
        dir := (AwaitMembers.loadState s.dir s.nowMs (r.key hashed)).2 }.send
          [(i, r.requestId, final.answer)]).setPhase i r .finished) :
    Rule hashed s t (.loadState i)
  | load (i : Nat) (r : Request) (persisted : Option PersistedAwaitMembersState)
      (hr : s.requests[i]? = some r) (hp : r.phase = .arrived)
      (hl : persisted = (AwaitMembers.loadState s.dir s.nowMs (r.key hashed)).1)
      (ht : t = { s with
        dir := (AwaitMembers.loadState s.dir s.nowMs (r.key hashed)).2 }.setPhase i r
          (.loaded persisted)) :
    Rule hashed s t (.loadState i)
  | readIds (i : Nat) (r : Request) (persisted : Option PersistedAwaitMembersState)
      (hr : s.requests[i]? = some r) (hp : r.phase = .loaded persisted)
      (ht : t = s.setPhase i r (.counted persisted (watchIds r.reqSessionId r.question s.view))) :
    Rule hashed s t (.readIds i)
  | readWatched (i : Nat) (r : Request) (state : PersistedAwaitMembersState)
      (hr : s.requests[i]? = some r) (hp : r.phase = .watching state)
      (ht : t = s.setPhase i r
        (.watchCounted state (watchIds r.reqSessionId state.question s.view))) :
    Rule hashed s t (.readIds i)
  | answerEmpty (i : Nat) (r : Request) (persisted : Option PersistedAwaitMembersState)
      (ids : List String) (hr : s.requests[i]? = some r) (hp : r.phase = .counted persisted ids)
      (hempty : awaitedMemberStatuses r.question.targetStatus s.view ids = [])
      (ht : t = (s.send [(i, r.requestId, noOtherMembers)]).setPhase i r .finished) :
    Rule hashed s t (.readStatuses i)
  | evaluate (i : Nat) (r : Request) (persisted : Option PersistedAwaitMembersState)
      (ids : List String) (hr : s.requests[i]? = some r) (hp : r.phase = .counted persisted ids)
      (ht : t = s.setPhase i r
        (.evaluated persisted (awaitedMemberStatuses r.question.targetStatus s.view ids))) :
    Rule hashed s t (.readStatuses i)
  | watch (i : Nat) (r : Request) (state : PersistedAwaitMembersState) (ids : List String)
      (hr : s.requests[i]? = some r) (hp : r.phase = .watchCounted state ids)
      (ht : t = s.setPhase i r (watchPhase state
        (awaitedMemberStatuses state.question.targetStatus s.view ids))) :
    Rule hashed s t (.readStatuses i)
  | keepPending (i : Nat) (r : Request) (state : PersistedAwaitMembersState)
      (statuses : List AwaitedMemberStatus) (hr : s.requests[i]? = some r)
      (hp : r.phase = .evaluated (some state) statuses)
      (ht : t = s.setPhase i r (.pending state statuses)) :
    Rule hashed s t (.ensurePending i)
  | ensurePending (i : Nat) (r : Request) (state : PersistedAwaitMembersState) (dir : StateDir)
      (statuses : List AwaitedMemberStatus) (hr : s.requests[i]? = some r)
      (hp : r.phase = .evaluated none statuses)
      (hd : ensurePendingState s.dir s.nowMs (r.key hashed) r.reqSessionId r.question
        (s.requestedDeadline r) = (state, dir))
      (ht : t = { s with dir := dir }.setPhase i r (.pending state statuses)) :
    Rule hashed s t (.ensurePending i)
  | addWaiter (i : Nat) (r : Request) (state : PersistedAwaitMembersState)
      (statuses : List AwaitedMemberStatus) (hr : s.requests[i]? = some r)
      (hp : r.phase = .pending state statuses)
      (ht : t = { s with
        runtime := s.runtime.addWaiter (r.key hashed) r.requestId i }.setPhase i r
          (.waiting state statuses)) :
    Rule hashed s t (.addWaiter i)
  | expire (i : Nat) (r : Request) (state : PersistedAwaitMembersState)
      (statuses : List AwaitedMemberStatus) (hr : s.requests[i]? = some r)
      (hp : r.phase = .waiting state statuses)
      (ht : t = s.setPhase i r (.expiring state ⟨false, statuses, timeoutSummary statuses⟩)) :
    Rule hashed s t (.checkDeadline i)
  | goOn (i : Nat) (r : Request) (state : PersistedAwaitMembersState)
      (statuses : List AwaitedMemberStatus) (hr : s.requests[i]? = some r)
      (hp : r.phase = .waiting state statuses) (ht : t = s.setPhase i r (.inTime state)) :
    Rule hashed s t (.checkDeadline i)
  | markActive (i : Nat) (r : Request) (state : PersistedAwaitMembersState) (phase : Phase)
      (hr : s.requests[i]? = some r) (hp : r.phase = .inTime state)
      (hphase : phase = .watching state ∨ phase = .joined)
      (ht : t = { s with
        runtime := (s.runtime.markActiveIfNew (r.key hashed)).2 }.setPhase i r phase) :
    Rule hashed s t (.markActive i)
  | retainWaiters (i : Nat) (r : Request) (state : PersistedAwaitMembersState)
      (statuses : List AwaitedMemberStatus) (phase : Phase) (hr : s.requests[i]? = some r)
      (hp : r.phase = .watchEvaluated state statuses)
      (hphase : phase = .clearing state.key ∨ phase = .selecting state statuses)
      (ht : t = { s with
        runtime := (s.runtime.retainOpenWaiters state.key (· ∈ s.closed)).2 }.setPhase i r
          phase) :
    Rule hashed s t (.retainWaiters i)
  | timeOut (i : Nat) (r : Request) (state : PersistedAwaitMembersState)
      (statuses : List AwaitedMemberStatus) (hr : s.requests[i]? = some r)
      (hp : r.phase = .selecting state statuses)
      (ht : t = s.setPhase i r (.resolving state ⟨false, statuses, timeoutSummary statuses⟩)) :
    Rule hashed s t (.timeOut i)
  | receive (i : Nat) (ok : Bool) (r : Request) (state : PersistedAwaitMembersState)
      (statuses : List AwaitedMemberStatus) (phase : Phase) (hr : s.requests[i]? = some r)
      (hp : r.phase = .selecting state statuses)
      (hphase : phase = .watching state ∨ phase = .clearing state.key)
      (ht : t = s.setPhase i r phase) :
    Rule hashed s t (.receive i ok)
  | persistExpired (i : Nat) (r : Request) (state : PersistedAwaitMembersState)
      (answer : AwaitMembersAnswer) (hr : s.requests[i]? = some r)
      (hp : r.phase = .expiring state answer)
      (ht : t = { s with
        dir := persistFinalResponse s.dir s.nowMs state answer }.setPhase i r (.expired answer)) :
    Rule hashed s t (.persistFinal i)
  | persistResolved (i : Nat) (r : Request) (state : PersistedAwaitMembersState)
      (answer : AwaitMembersAnswer) (hr : s.requests[i]? = some r)
      (hp : r.phase = .resolving state answer)
      (ht : t = { s with
        dir := persistFinalResponse s.dir s.nowMs state answer }.setPhase i r
          (.responding state answer)) :
    Rule hashed s t (.persistFinal i)
  | takeExpired (i : Nat) (r : Request) (answer : AwaitMembersAnswer)
      (hr : s.requests[i]? = some r) (hp : r.phase = .expired answer)
      (ht : t = ({ s with runtime := (s.runtime.takeWaiters (r.key hashed)).2 }.send
        (answers (s.runtime.takeWaiters (r.key hashed)).1 answer)).setPhase i r
          (.clearing (r.key hashed))) :
    Rule hashed s t (.takeWaiters i)
  | takeResponding (i : Nat) (r : Request) (state : PersistedAwaitMembersState)
      (answer : AwaitMembersAnswer) (hr : s.requests[i]? = some r)
      (hp : r.phase = .responding state answer)
      (ht : t = ({ s with runtime := (s.runtime.takeWaiters state.key).2 }.send
        (answers (s.runtime.takeWaiters state.key).1 answer)).setPhase i r
          (.clearing state.key)) :
    Rule hashed s t (.takeWaiters i)
  | clearActive (i : Nat) (r : Request) (key : String) (hr : s.requests[i]? = some r)
      (hp : r.phase = .clearing key)
      (ht : t = { s with runtime := s.runtime.clearActive key }.setPhase i r .finished) :
    Rule hashed s t (.clearActive i)

variable {hashed s} {t : AwaitSystem} {m : Move}

/-- Every enabled move is an instance of a rule. -/
lemma Rule.of_step (h : s.step hashed m = some t) : Rule hashed s t m := by
  cases m with
  | tick ms =>
    cases h
    exact .tick ms rfl
  | setView view =>
    cases h
    exact .setView view rfl
  | close i =>
    cases h
    exact .close i rfl
  | restart =>
    cases h
    exact .restart rfl
  | request requestId reqSessionId question timeoutSecs =>
    simp only [step] at h
    split_ifs at h
    cases h
    exact .request _ _ _ _ rfl
  | loadState i =>
    obtain ⟨r, hr, h⟩ := Option.bind_eq_some_iff.mp h
    split at h
    · rename_i hp
      dsimp only at h
      split at h
      · rename_i final hf
        obtain ⟨state, hl, hs⟩ := Option.bind_eq_some_iff.mp hf
        cases h
        exact .replay i r state final hr hp hl hs rfl
      · cases h
        exact .load i r _ hr ‹_› rfl rfl
    · cases h
  | readIds i =>
    obtain ⟨r, hr, h⟩ := Option.bind_eq_some_iff.mp h
    split at h <;> cases h
    · exact .readIds i r _ hr ‹_› rfl
    · exact .readWatched i r _ hr ‹_› rfl
  | readStatuses i =>
    obtain ⟨r, hr, h⟩ := Option.bind_eq_some_iff.mp h
    split at h
    · dsimp only at h
      split_ifs at h with hempty <;> cases h
      · exact .answerEmpty i r _ _ hr ‹_› hempty rfl
      · exact .evaluate i r _ _ hr ‹_› rfl
    · cases h
      exact .watch i r _ _ hr ‹_› rfl
    · cases h
  | ensurePending i =>
    obtain ⟨r, hr, h⟩ := Option.bind_eq_some_iff.mp h
    split at h <;> cases h
    · exact .keepPending i r _ _ hr ‹_› rfl
    · exact .ensurePending i r _ _ _ hr ‹_› rfl rfl
  | addWaiter i =>
    obtain ⟨r, hr, h⟩ := Option.bind_eq_some_iff.mp h
    split at h <;> cases h
    exact .addWaiter i r _ _ hr ‹_› rfl
  | checkDeadline i =>
    obtain ⟨r, hr, h⟩ := Option.bind_eq_some_iff.mp h
    split at h
    · split_ifs at h <;> cases h
      · exact .expire i r _ _ hr ‹_› rfl
      · exact .goOn i r _ _ hr ‹_› rfl
    · cases h
  | markActive i =>
    obtain ⟨r, hr, h⟩ := Option.bind_eq_some_iff.mp h
    split at h <;> cases h
    refine .markActive i r _ _ hr ‹_› ?_ rfl
    split_ifs <;> simp
  | retainWaiters i =>
    obtain ⟨r, hr, h⟩ := Option.bind_eq_some_iff.mp h
    split at h <;> cases h
    refine .retainWaiters i r _ _ _ hr ‹_› ?_ rfl
    split_ifs <;> simp
  | timeOut i =>
    obtain ⟨r, hr, h⟩ := Option.bind_eq_some_iff.mp h
    split at h
    · split_ifs at h
      cases h
      exact .timeOut i r _ _ hr ‹_› rfl
    · cases h
  | receive i ok =>
    obtain ⟨r, hr, h⟩ := Option.bind_eq_some_iff.mp h
    split at h <;> cases h
    refine .receive i ok r _ _ _ hr ‹_› ?_ rfl
    split_ifs <;> simp
  | persistFinal i =>
    obtain ⟨r, hr, h⟩ := Option.bind_eq_some_iff.mp h
    split at h <;> cases h
    · exact .persistExpired i r _ _ hr ‹_› rfl
    · exact .persistResolved i r _ _ hr ‹_› rfl
  | takeWaiters i =>
    obtain ⟨r, hr, h⟩ := Option.bind_eq_some_iff.mp h
    split at h <;> cases h
    · exact .takeExpired i r _ hr ‹_› rfl
    · exact .takeResponding i r _ _ hr ‹_› rfl
  | clearActive i =>
    obtain ⟨r, hr, h⟩ := Option.bind_eq_some_iff.mp h
    split at h <;> cases h
    exact .clearActive i r _ hr ‹_› rfl

end AwaitSystem

end AwaitMembers

end Jcode
