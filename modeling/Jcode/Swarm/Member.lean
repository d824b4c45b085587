import Jcode.Message
import Mathlib.Data.List.Sort
import Mathlib.Data.String.Basic

/-!
# Swarm members

The durable part of a swarm member and the texts of its status and role (`jcode-swarm-core`,
`server/state.rs`). Channels and instants of the running server are not part of it.
-/

namespace Jcode

/-! ### Ids -/

/-- Sets of ids are read in their order. -/
instance idOrder_trans : IsTrans String (· ≤ ·) := inferInstance

instance idOrder_antisymm : Std.Antisymm (fun a b : String => a ≤ b) := inferInstance

/-! ### Texts -/

/-- `str::trim`. -/
def trim (text : String) : String :=
  String.ofList (((text.toList.dropWhile isWhitespace).reverse.dropWhile isWhitespace).reverse)

/-- `str::split_whitespace`. -/
def splitWhitespace (text : String) : List String :=
  ((text.toList.splitOnP isWhitespace).filter (· ≠ [])).map String.ofList

def truncateDetail (text : String) (maxLen : Nat) : String :=
  let trimmed := (trim (" ".intercalate (splitWhitespace text))).toList
  let maxLen := max maxLen 1
  if trimmed.length ≤ maxLen then String.ofList trimmed
  else if maxLen ≤ 3 then String.ofList (trimmed.take maxLen)
  else String.ofList (trimmed.take (maxLen - 3)) ++ "..."

/-- An optional argument of a request: trimmed, and ignored when blank. -/
def trimmedArgument (argument : Option String) : Option String :=
  argument.bind fun argument => if trim argument = "" then none else some (trim argument)

/-! ### Roles and lifecycle statuses -/

inductive SwarmRole
  | agent
  | coordinator
  | worktreeManager
  | other (value : String)
deriving DecidableEq

def SwarmRole.asStr : SwarmRole → String
  | agent => "agent"
  | coordinator => "coordinator"
  | worktreeManager => "worktree_manager"
  | other value => value

def SwarmRole.ofString : String → SwarmRole
  | "agent" => agent
  | "coordinator" => coordinator
  | "worktree_manager" => worktreeManager
  | value => other value

inductive SwarmLifecycleStatus
  | spawned
  | ready
  | running
  | runningStale
  | completed
  | done
  | failed
  | stopped
  | crashed
  | queued
  | blocked
  | pending
  | todo
  | other (value : String)
deriving DecidableEq

def SwarmLifecycleStatus.asStr : SwarmLifecycleStatus → String
  | spawned => "spawned"
  | ready => "ready"
  | running => "running"
  | runningStale => "running_stale"
  | completed => "completed"
  | done => "done"
  | failed => "failed"
  | stopped => "stopped"
  | crashed => "crashed"
  | queued => "queued"
  | blocked => "blocked"
  | pending => "pending"
  | todo => "todo"
  | other value => value

def SwarmLifecycleStatus.ofString : String → SwarmLifecycleStatus
  | "spawned" => spawned
  | "ready" => ready
  | "running" => running
  | "running_stale" => runningStale
  | "completed" => completed
  | "done" => done
  | "failed" => failed
  | "stopped" => stopped
  | "crashed" => crashed
  | "queued" => queued
  | "blocked" => blocked
  | "pending" => pending
  | "todo" => todo
  | value => other value

/-- Reading a role's text loses nothing of the text. -/
@[simp] lemma SwarmRole.asStr_ofString (value : String) : (ofString value).asStr = value := by
  unfold ofString
  split <;> rfl

/-- Reading a status's text loses nothing of the text. -/
@[simp] lemma SwarmLifecycleStatus.asStr_ofString (value : String) :
    (ofString value).asStr = value := by
  unfold ofString
  split <;> rfl

/-! ### Members -/

structure SwarmMember where
  sessionId : String
  workingDir : Option String
  swarmId : Option String
  swarmEnabled : Bool
  status : String
  detail : Option String
  friendlyName : Option String
  reportBackToSessionId : Option String
  latestCompletionReport : Option String
  role : String
  isHeadless : Bool
deriving DecidableEq

/-- A headless agent of the swarm "swarm" that waits for work. -/
def readyAgent (sessionId : String) : SwarmMember where
  sessionId := sessionId
  workingDir := none
  swarmId := some "swarm"
  swarmEnabled := true
  status := "ready"
  detail := none
  friendlyName := none
  reportBackToSessionId := none
  latestCompletionReport := none
  role := "agent"
  isHeadless := true

structure SwarmMemberRecord where
  sessionId : String
  workingDir : Option String
  swarmId : Option String
  swarmEnabled : Bool
  status : SwarmLifecycleStatus
  detail : Option String
  friendlyName : Option String
  reportBackToSessionId : Option String
  latestCompletionReport : Option String
  role : SwarmRole
  isHeadless : Bool
deriving DecidableEq

def SwarmMember.durableRecord (member : SwarmMember) : SwarmMemberRecord where
  sessionId := member.sessionId
  workingDir := member.workingDir
  swarmId := member.swarmId
  swarmEnabled := member.swarmEnabled
  status := .ofString member.status
  detail := member.detail
  friendlyName := member.friendlyName
  reportBackToSessionId := member.reportBackToSessionId
  latestCompletionReport := member.latestCompletionReport
  role := .ofString member.role
  isHeadless := member.isHeadless

def SwarmMember.fromRecord (record : SwarmMemberRecord) : SwarmMember where
  sessionId := record.sessionId
  workingDir := record.workingDir
  swarmId := record.swarmId
  swarmEnabled := record.swarmEnabled
  status := record.status.asStr
  detail := record.detail
  friendlyName := record.friendlyName
  reportBackToSessionId := record.reportBackToSessionId
  latestCompletionReport := record.latestCompletionReport
  role := record.role.asStr
  isHeadless := record.isHeadless

/-- The durable record keeps the whole member. -/
@[simp] lemma SwarmMember.fromRecord_durableRecord (member : SwarmMember) :
    fromRecord member.durableRecord = member := by
  simp [fromRecord, durableRecord]

end Jcode
