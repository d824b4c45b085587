import Jcode.Message
import Jcode.Swarm.Plan

/-!
# Sessions

A session, its mutators and the bookkeeping that decides what the next save has to write
(`session.rs`, `session/journal.rs`, `jcode-session-types`). Times are numbers.
-/

namespace Jcode

/-! ### Stored data -/

inductive SessionStatus
  | active
  | closed
  | crashed (message : Option String)
  | reloaded
  | compacted
  | rateLimited
  | error (message : String)
deriving DecidableEq

inductive SessionImproveMode
  | improveRun
  | improvePlan
  | refactorRun
  | refactorPlan
deriving DecidableEq

structure StoredCompactionState where
  summaryText : String
  openaiEncryptedContent : Option String
  coversUpToTurn : Nat
  originalTurnCount : Nat
  compactedCount : Nat
deriving DecidableEq

structure GitState where
  root : String
  head : Option String
  branch : Option String
  dirty : Option Bool
deriving DecidableEq

structure EnvSnapshot where
  capturedAt : Nat
  reason : String
  sessionId : String
  workingDir : Option String
  provider : String
  model : String
  jcodeVersion : String
  jcodeGitHash : Option String
  jcodeGitDirty : Option Bool
  os : String
  arch : String
  pid : Nat
  isSelfdev : Bool
  isDebug : Bool
  isCanary : Bool
  testingBuild : Option String
  workingGit : Option GitState
deriving DecidableEq

structure StoredMemoryInjection where
  summary : String
  content : String
  count : Nat
  memoryIds : List String
  ageMs : Option Nat
  beforeMessage : Option Nat
  timestamp : Nat
deriving DecidableEq

structure SwarmMemberStatus where
  sessionId : String
  friendlyName : Option String
  status : String
  detail : Option String
  role : Option String
  isHeadless : Option Bool
  liveAttachments : Option Nat
  statusAgeSecs : Option Nat
deriving DecidableEq

inductive StoredReplayEventKind
  | displayMessage (role : String) (title : Option String) (content : String)
  | swarmStatus (members : List SwarmMemberStatus)
  | swarmPlan (swarmId : String) (version : Nat) (items : List PlanItem)
      (participants : List String) (reason : Option String)
deriving DecidableEq

structure StoredReplayEvent where
  timestamp : Nat
  kind : StoredReplayEventKind
deriving DecidableEq

/-! ### The session -/

structure SessionJournalMeta where
  parentId : Option String
  title : Option String
  customTitle : Option String
  updatedAt : Nat
  compaction : Option StoredCompactionState
  providerSessionId : Option String
  providerKey : Option String
  model : Option String
  reasoningEffort : Option String
  subagentModel : Option String
  improveMode : Option SessionImproveMode
  autoreviewEnabled : Option Bool
  autojudgeEnabled : Option Bool
  isCanary : Bool
  testingBuild : Option String
  workingDir : Option String
  shortName : Option String
  status : SessionStatus
  lastPid : Option Nat
  lastActiveAt : Option Nat
  isDebug : Bool
  saved : Bool
  saveLabel : Option String
deriving DecidableEq

structure SessionJournalEntry where
  metadata : SessionJournalMeta
  appendMessages : List StoredMessage
  appendEnvSnapshots : List EnvSnapshot
  appendMemoryInjections : List StoredMemoryInjection
  appendReplayEvents : List StoredReplayEvent
deriving DecidableEq

/-- The fields of a session that are serialised. -/
structure PersistedSession where
  id : String
  parentId : Option String
  title : Option String
  customTitle : Option String
  createdAt : Nat
  updatedAt : Nat
  messages : List StoredMessage
  compaction : Option StoredCompactionState
  providerSessionId : Option String
  providerKey : Option String
  model : Option String
  reasoningEffort : Option String
  subagentModel : Option String
  improveMode : Option SessionImproveMode
  autoreviewEnabled : Option Bool
  autojudgeEnabled : Option Bool
  isCanary : Bool
  testingBuild : Option String
  workingDir : Option String
  shortName : Option String
  status : SessionStatus
  lastPid : Option Nat
  lastActiveAt : Option Nat
  isDebug : Bool
  saved : Bool
  saveLabel : Option String
  envSnapshots : List EnvSnapshot
  memoryInjections : List StoredMemoryInjection
  replayEvents : List StoredReplayEvent
deriving DecidableEq

inductive PersistVectorMode
  | clean
  | append
  | full
deriving DecidableEq

structure SessionPersistState where
  snapshotExists : Bool
  messagesLen : Nat
  envSnapshotsLen : Nat
  memoryInjectionsLen : Nat
  replayEventsLen : Nat
  messagesMode : PersistVectorMode
  envSnapshotsMode : PersistVectorMode
  memoryInjectionsMode : PersistVectorMode
  replayEventsMode : PersistVectorMode
  lastMeta : Option SessionJournalMeta
deriving DecidableEq

def SessionPersistState.default : SessionPersistState where
  snapshotExists := false
  messagesLen := 0
  envSnapshotsLen := 0
  memoryInjectionsLen := 0
  replayEventsLen := 0
  messagesMode := .clean
  envSnapshotsMode := .clean
  memoryInjectionsMode := .clean
  replayEventsMode := .clean
  lastMeta := none

/-- The caches for the provider and for memory profiles are left out. -/
structure Session extends PersistedSession where
  persistState : SessionPersistState
deriving DecidableEq

def PersistedSession.journalMeta (session : PersistedSession) : SessionJournalMeta where
  parentId := session.parentId
  title := session.title
  customTitle := session.customTitle
  updatedAt := session.updatedAt
  compaction := session.compaction
  providerSessionId := session.providerSessionId
  providerKey := session.providerKey
  model := session.model
  reasoningEffort := session.reasoningEffort
  subagentModel := session.subagentModel
  improveMode := session.improveMode
  autoreviewEnabled := session.autoreviewEnabled
  autojudgeEnabled := session.autojudgeEnabled
  isCanary := session.isCanary
  testingBuild := session.testingBuild
  workingDir := session.workingDir
  shortName := session.shortName
  status := session.status
  lastPid := session.lastPid
  lastActiveAt := session.lastActiveAt
  isDebug := session.isDebug
  saved := session.saved
  saveLabel := session.saveLabel

def PersistedSession.applyJournalMeta (session : PersistedSession)
    (metadata : SessionJournalMeta) : PersistedSession :=
  { session with
    parentId := metadata.parentId
    title := metadata.title
    customTitle := metadata.customTitle
    updatedAt := metadata.updatedAt
    compaction := metadata.compaction
    providerSessionId := metadata.providerSessionId
    providerKey := metadata.providerKey
    model := metadata.model
    reasoningEffort := metadata.reasoningEffort
    subagentModel := metadata.subagentModel
    improveMode := metadata.improveMode
    autoreviewEnabled := metadata.autoreviewEnabled
    autojudgeEnabled := metadata.autojudgeEnabled
    isCanary := metadata.isCanary
    testingBuild := metadata.testingBuild
    workingDir := metadata.workingDir
    shortName := metadata.shortName
    status := metadata.status
    lastPid := metadata.lastPid
    lastActiveAt := metadata.lastActiveAt
    isDebug := metadata.isDebug
    saved := metadata.saved
    saveLabel := metadata.saveLabel }

def PersistedSession.applyJournalEntry (session : PersistedSession) (entry : SessionJournalEntry) :
    PersistedSession :=
  let session := session.applyJournalMeta entry.metadata
  { session with
    messages := session.messages ++ entry.appendMessages
    envSnapshots := session.envSnapshots ++ entry.appendEnvSnapshots
    memoryInjections := session.memoryInjections ++ entry.appendMemoryInjections
    replayEvents := session.replayEvents ++ entry.appendReplayEvents }

/-- The metadata fields which are compared to decide whether a snapshot is needed. -/
def metadataRequiresSnapshot (prev current : SessionJournalMeta) : Bool :=
  prev.parentId ≠ current.parentId || prev.title ≠ current.title ||
    prev.customTitle ≠ current.customTitle || prev.providerKey ≠ current.providerKey ||
    prev.reasoningEffort ≠ current.reasoningEffort || prev.subagentModel ≠ current.subagentModel ||
    prev.improveMode ≠ current.improveMode ||
    prev.autoreviewEnabled ≠ current.autoreviewEnabled ||
    prev.autojudgeEnabled ≠ current.autojudgeEnabled || prev.isCanary ≠ current.isCanary ||
    prev.testingBuild ≠ current.testingBuild || prev.workingDir ≠ current.workingDir ||
    prev.shortName ≠ current.shortName || prev.status ≠ current.status ||
    prev.isDebug ≠ current.isDebug || prev.saved ≠ current.saved ||
    prev.saveLabel ≠ current.saveLabel

namespace Session

variable (session : Session)

def resetPersistState (snapshotExists : Bool) : Session :=
  { session with
    persistState :=
      { snapshotExists := snapshotExists
        messagesLen := session.messages.length
        envSnapshotsLen := session.envSnapshots.length
        memoryInjectionsLen := session.memoryInjections.length
        replayEventsLen := session.replayEvents.length
        messagesMode := .clean
        envSnapshotsMode := .clean
        memoryInjectionsMode := .clean
        replayEventsMode := .clean
        lastMeta := some session.journalMeta } }

/-- `create_with_id`; the short name comes from the id, the rest from the environment. -/
def createWithId (sessionId : String) (parentId title shortName workingDir : Option String)
    (isDebug : Bool) (pid now : Nat) : Session :=
  resetPersistState
    { id := sessionId
      parentId := parentId
      title := title
      customTitle := none
      createdAt := now
      updatedAt := now
      messages := []
      compaction := none
      providerSessionId := none
      providerKey := none
      model := none
      reasoningEffort := none
      subagentModel := none
      improveMode := none
      autoreviewEnabled := none
      autojudgeEnabled := none
      isCanary := false
      testingBuild := none
      workingDir := workingDir
      shortName := shortName
      status := .active
      lastPid := some pid
      lastActiveAt := some now
      isDebug := isDebug
      saved := false
      saveLabel := none
      envSnapshots := []
      memoryInjections := []
      replayEvents := []
      persistState := .default } false

/-- A mode after an append: `Full` stays. -/
def appendDirty : PersistVectorMode → PersistVectorMode
  | .full => .full
  | .clean | .append => .append

def markMessagesAppendDirty : Session :=
  { session with
    persistState.messagesMode := appendDirty session.persistState.messagesMode }

def markMessagesFullDirty : Session := { session with persistState.messagesMode := .full }

def markEnvSnapshotsAppendDirty : Session :=
  { session with
    persistState.envSnapshotsMode := appendDirty session.persistState.envSnapshotsMode }

def markEnvSnapshotsFullDirty : Session := { session with persistState.envSnapshotsMode := .full }

def markMemoryInjectionsAppendDirty : Session :=
  { session with
    persistState.memoryInjectionsMode := appendDirty session.persistState.memoryInjectionsMode }

def markReplayEventsAppendDirty : Session :=
  { session with
    persistState.replayEventsMode := appendDirty session.persistState.replayEventsMode }

/-! ### Mutators -/

def appendStoredMessage (message : StoredMessage) : Session :=
  { session with messages := session.messages ++ [message] }.markMessagesAppendDirty

/-- `Vec::insert`, which panics behind the end. -/
def insertMessage (index : Nat) (message : StoredMessage) : Option Session :=
  if index ≤ session.messages.length then
    some { session with messages := session.messages.insertIdx index message }.markMessagesFullDirty
  else none

def replaceMessages (messages : List StoredMessage) : Session :=
  { session with messages := messages }.markMessagesFullDirty

def truncateMessages (len : Nat) : Session :=
  if len < session.messages.length then
    { session with messages := session.messages.take len }.markMessagesFullDirty
  else session

def isToolUse : ContentBlock → Bool
  | .toolUse _ _ _ => true
  | _ => false

/-- The messages with the tool uses of the first message with the id removed. -/
def withoutToolUse (messageId : String) : List StoredMessage → List StoredMessage
  | [] => []
  | message :: messages =>
    if message.id = messageId then
      { message with content := message.content.filter (!isToolUse ·) } :: messages
    else message :: withoutToolUse messageId messages

def removeToolUseBlocks (messageId : String) : Session :=
  if session.messages.any (·.id = messageId) then
    { session with messages := withoutToolUse messageId session.messages }.markMessagesFullDirty
  else session

def MAX_ENV_SNAPSHOTS : Nat := 8

/-- Over the cap the oldest snapshots go, and the whole vector has to be written. -/
def recordEnvSnapshot (snapshot : EnvSnapshot) : Session :=
  let snapshots := session.envSnapshots ++ [snapshot]
  if snapshots.length > MAX_ENV_SNAPSHOTS then
    { session with
      envSnapshots := snapshots.drop (snapshots.length - MAX_ENV_SNAPSHOTS)
      }.markEnvSnapshotsFullDirty
  else { session with envSnapshots := snapshots }.markEnvSnapshotsAppendDirty

def recordMemoryInjection (summary content : String) (count ageMs : Nat) (memoryIds : List String)
    (now : Nat) : Session :=
  let injection : StoredMemoryInjection :=
    { summary := summary
      content := content
      count := count
      memoryIds := memoryIds
      ageMs := some ageMs
      beforeMessage := some session.messages.length
      timestamp := now }
  { session with
    memoryInjections := session.memoryInjections ++ [injection] }.markMemoryInjectionsAppendDirty

def pushReplayEvent (kind : StoredReplayEventKind) (now : Nat) : Session :=
  let event : StoredReplayEvent := { timestamp := now, kind := kind }
  { session with replayEvents := session.replayEvents ++ [event] }.markReplayEventsAppendDirty

def recordReplayDisplayMessage (role : String) (title : Option String) (content : String)
    (now : Nat) : Session :=
  session.pushReplayEvent (.displayMessage role title content) now

/-- A swarm event that repeats the last event is not recorded. -/
def recordUnlessRepeated (kind : StoredReplayEventKind) (now : Nat) : Session :=
  if session.replayEvents.getLast?.any (·.kind = kind) then session
  else session.pushReplayEvent kind now

def recordSwarmStatusEvent (members : List SwarmMemberStatus) (now : Nat) : Session :=
  session.recordUnlessRepeated (.swarmStatus members) now

def recordSwarmPlanEvent (swarmId : String) (version : Nat) (items : List PlanItem)
    (participants : List String) (reason : Option String) (now : Nat) : Session :=
  session.recordUnlessRepeated (.swarmPlan swarmId version items participants reason) now

end Session

/-! ### Mutations -/

/-- One change of a session. `setMetadata` is any assignment to the fields of the journal's
metadata, `setCreatedAt` one to the time of creation. -/
inductive SessionMutation
  | appendStoredMessage (message : StoredMessage)
  | insertMessage (index : Nat) (message : StoredMessage)
  | replaceMessages (messages : List StoredMessage)
  | truncateMessages (len : Nat)
  | removeToolUseBlocks (messageId : String)
  | recordEnvSnapshot (snapshot : EnvSnapshot)
  | recordMemoryInjection (summary content : String) (count ageMs : Nat) (memoryIds : List String)
      (now : Nat)
  | recordReplayDisplayMessage (role : String) (title : Option String) (content : String)
      (now : Nat)
  | recordSwarmStatusEvent (members : List SwarmMemberStatus) (now : Nat)
  | recordSwarmPlanEvent (swarmId : String) (version : Nat) (items : List PlanItem)
      (participants : List String) (reason : Option String) (now : Nat)
  | setMetadata (metadata : SessionJournalMeta)
  | setCreatedAt (createdAt : Nat)

def SessionMutation.apply (session : Session) : SessionMutation → Option Session
  | appendStoredMessage message => some (session.appendStoredMessage message)
  | insertMessage index message => session.insertMessage index message
  | replaceMessages messages => some (session.replaceMessages messages)
  | truncateMessages len => some (session.truncateMessages len)
  | removeToolUseBlocks messageId => some (session.removeToolUseBlocks messageId)
  | recordEnvSnapshot snapshot => some (session.recordEnvSnapshot snapshot)
  | recordMemoryInjection summary content count ageMs memoryIds now =>
    some (session.recordMemoryInjection summary content count ageMs memoryIds now)
  | recordReplayDisplayMessage role title content now =>
    some (session.recordReplayDisplayMessage role title content now)
  | recordSwarmStatusEvent members now => some (session.recordSwarmStatusEvent members now)
  | recordSwarmPlanEvent swarmId version items participants reason now =>
    some (session.recordSwarmPlanEvent swarmId version items participants reason now)
  | setMetadata metadata =>
    some { session with
      toPersistedSession := session.toPersistedSession.applyJournalMeta metadata }
  | setCreatedAt createdAt => some { session with createdAt := createdAt }

end Jcode
