import Jcode.Session.MemoryStats
import Jcode.Session.Model
import Jcode.Storage
import Jcode.Swarm.Member

/-!
# The caches of a session

Beside its transcript a session keeps the messages for the provider with a hash of every prefix,
and counters for memory profiles. Its mutators say what they have made of both.
-/

namespace Jcode

/-! ### Hashes -/

def STABLE_HASH_SEED : UInt64 := 0xcbf29ce484222325

def STABLE_HASH_PRIME : UInt64 := 0x100000001b3

def stableHashBytes (bytes : List UInt8) : UInt64 :=
  bytes.foldl (fun hash byte => (hash ^^^ byte.toUInt64) * STABLE_HASH_PRIME) STABLE_HASH_SEED

/-- `to_le_bytes`. -/
def leBytes (n : UInt64) : List UInt8 :=
  (List.range 8).map fun i => (n >>> (8 * i.toUInt64)).toUInt8

def extendStableHash (acc next : UInt64) : UInt64 :=
  stableHashBytes (leBytes acc ++ leBytes next)

/-- What `serde_json::to_vec` gives for the parts of a session, and the debug text of a message. -/
structure SessionJson where
  message : Message → Option (List UInt8)
  debugMessage : Message → List UInt8
  storedMessage : StoredMessage → Option (List UInt8)
  envSnapshot : EnvSnapshot → Option (List UInt8)
  memoryInjection : StoredMemoryInjection → Option (List UInt8)
  replayEvent : StoredReplayEvent → Option (List UInt8)
  compaction : StoredCompactionState → Option (List UInt8)

def stableMessageHash (json : SessionJson) (message : Message) : UInt64 :=
  stableHashBytes ((json.message message).getD (json.debugMessage message))

def estimateJsonBytes (bytes : Option (List UInt8)) : Nat := (bytes.map List.length).getD 0

/-! ### The session with its caches -/

structure SessionMemoryProfileCache where
  messagesCount : Nat
  messagesJsonBytes : Nat
  messageStats : ContentBlockMemoryStats
  envSnapshotsCount : Nat
  envSnapshotsJsonBytes : Nat
  memoryInjectionsCount : Nat
  memoryInjectionsJsonBytes : Nat
  replayEventsCount : Nat
  replayEventsJsonBytes : Nat
  providerCacheCount : Nat
  providerCacheJsonBytes : Nat
  providerCacheStats : ContentBlockMemoryStats
deriving DecidableEq

def SessionMemoryProfileCache.default : SessionMemoryProfileCache where
  messagesCount := 0
  messagesJsonBytes := 0
  messageStats := .default
  envSnapshotsCount := 0
  envSnapshotsJsonBytes := 0
  memoryInjectionsCount := 0
  memoryInjectionsJsonBytes := 0
  replayEventsCount := 0
  replayEventsJsonBytes := 0
  providerCacheCount := 0
  providerCacheJsonBytes := 0
  providerCacheStats := .default

structure SessionMemoryProfileSnapshot where
  messageCount : Nat
  providerCacheMessageCount : Nat
  envSnapshotCount : Nat
  memoryInjectionCount : Nat
  replayEventCount : Nat
  payloadTextBytes : Nat
  totalJsonBytes : Nat
  providerCacheJsonBytes : Nat
  canonicalToolResultBytes : Nat
  providerCacheToolResultBytes : Nat
  canonicalLargeBlobBytes : Nat
  providerCacheLargeBlobBytes : Nat
deriving DecidableEq

structure CachedSession extends Session where
  providerMessagesCache : List Message
  providerMessagePrefixHashesCache : List UInt64
  providerMessagesCacheLen : Nat
  providerMessagesCacheMode : PersistVectorMode
  memoryProfileCache : SessionMemoryProfileCache
  memoryProfileDirty : Bool
deriving DecidableEq

/-- The caches of a session that has been created. -/
def Session.withNewCaches (session : Session) : CachedSession where
  toSession := session
  providerMessagesCache := []
  providerMessagePrefixHashesCache := []
  providerMessagesCacheLen := 0
  providerMessagesCacheMode := .full
  memoryProfileCache := .default
  memoryProfileDirty := false

/-- The caches of a session that has been loaded. -/
def Session.withLoadedCaches (session : Session) : CachedSession :=
  { session.withNewCaches with memoryProfileDirty := true }

/-- A session as a constructor leaves it; one that has been created has no transcript yet. -/
inductive CachedSession.Opened : CachedSession → Prop
  | created (session : Session) (hmessages : session.messages = [])
      (henvSnapshots : session.envSnapshots = []) (hinjections : session.memoryInjections = [])
      (hreplayEvents : session.replayEvents = []) : Opened session.withNewCaches
  | loaded (session : Session) : Opened session.withLoadedCaches

/-- The next hash of a list of prefix hashes. -/
def pushPrefixHash (json : SessionJson) (hashes : List UInt64) (message : Message) : List UInt64 :=
  let messageHash := stableMessageHash json message
  let prefixHash :=
    match hashes.getLast? with
    | some prev => extendStableHash prev messageHash
    | none => messageHash
  hashes ++ [prefixHash]

namespace CachedSession

variable (json : SessionJson) (s : CachedSession)

def resetProviderMessagesCache : CachedSession :=
  { s with
    providerMessagesCache := []
    providerMessagePrefixHashesCache := []
    providerMessagesCacheLen := 0
    providerMessagesCacheMode := .full
    memoryProfileCache := { s.memoryProfileCache with
      providerCacheCount := 0
      providerCacheJsonBytes := 0
      providerCacheStats := .default } }

def pushProviderMessageCacheEntry (message : Message) : CachedSession :=
  { s with
    memoryProfileCache := { s.memoryProfileCache with
      providerCacheCount := s.memoryProfileCache.providerCacheCount + 1
      providerCacheJsonBytes :=
        s.memoryProfileCache.providerCacheJsonBytes + estimateJsonBytes (json.message message)
      providerCacheStats :=
        s.memoryProfileCache.providerCacheStats.mergeFrom (summarizeBlocks message.content) }
    providerMessagesCache := s.providerMessagesCache ++ [message]
    providerMessagePrefixHashesCache :=
      pushPrefixHash json s.providerMessagePrefixHashesCache message }

def rebuildMemoryProfileCache : CachedSession :=
  { s with
    memoryProfileCache :=
      { messagesCount := s.messages.length
        messagesJsonBytes :=
          (s.messages.map fun message => estimateJsonBytes (json.storedMessage message)).sum
        messageStats := summarizeMessageContent (s.messages.map (·.content))
        envSnapshotsCount := s.envSnapshots.length
        envSnapshotsJsonBytes :=
          (s.envSnapshots.map fun snapshot => estimateJsonBytes (json.envSnapshot snapshot)).sum
        memoryInjectionsCount := s.memoryInjections.length
        memoryInjectionsJsonBytes := (s.memoryInjections.map fun injection =>
          estimateJsonBytes (json.memoryInjection injection)).sum
        replayEventsCount := s.replayEvents.length
        replayEventsJsonBytes :=
          (s.replayEvents.map fun event => estimateJsonBytes (json.replayEvent event)).sum
        providerCacheCount := s.providerMessagesCache.length
        providerCacheJsonBytes := (s.providerMessagesCache.map fun message =>
          estimateJsonBytes (json.message message)).sum
        providerCacheStats := summarizeMessageContent (s.providerMessagesCache.map (·.content)) }
    memoryProfileDirty := false }

def ensureMemoryProfileCache : CachedSession :=
  if s.memoryProfileDirty then s.rebuildMemoryProfileCache json else s

/-- The snapshot that is read off the counters. -/
def readProfile : SessionMemoryProfileSnapshot :=
  let cache := s.memoryProfileCache
  { messageCount := cache.messagesCount
    providerCacheMessageCount := cache.providerCacheCount
    envSnapshotCount := cache.envSnapshotsCount
    memoryInjectionCount := cache.memoryInjectionsCount
    replayEventCount := cache.replayEventsCount
    payloadTextBytes := cache.messageStats.payloadTextBytes
    totalJsonBytes := cache.messagesJsonBytes + cache.providerCacheJsonBytes +
      cache.envSnapshotsJsonBytes + cache.memoryInjectionsJsonBytes +
      cache.replayEventsJsonBytes +
      (s.compaction.map fun state => estimateJsonBytes (json.compaction state)).getD 0
    providerCacheJsonBytes := cache.providerCacheJsonBytes
    canonicalToolResultBytes := cache.messageStats.toolResultBytes
    providerCacheToolResultBytes := cache.providerCacheStats.toolResultBytes
    canonicalLargeBlobBytes := cache.messageStats.largeBlockBytes
    providerCacheLargeBlobBytes := cache.providerCacheStats.largeBlockBytes }

def memoryProfileSnapshot : SessionMemoryProfileSnapshot × CachedSession :=
  let s := s.ensureMemoryProfileCache json
  (s.readProfile json, s)

/-! ### Mutators -/

/-- `mark_messages_append_dirty`, of the cache; that of the persisted state is in the session. -/
def markCacheAppendDirty : CachedSession :=
  { s with providerMessagesCacheMode := Session.appendDirty s.providerMessagesCacheMode }

/-- Messages are changed: `mark_memory_profile_dirty` and `mark_messages_full_dirty`. -/
def changeMessages (session : Session) : CachedSession :=
  { s with
    toSession := session
    memoryProfileDirty := true
    providerMessagesCacheMode := .full }

def appendStoredMessage (message : StoredMessage) : CachedSession :=
  { s with
    toSession := s.toSession.appendStoredMessage message
    memoryProfileCache := { s.memoryProfileCache with
      messagesCount := s.memoryProfileCache.messagesCount + 1
      messagesJsonBytes :=
        s.memoryProfileCache.messagesJsonBytes + estimateJsonBytes (json.storedMessage message)
      messageStats :=
        s.memoryProfileCache.messageStats.mergeFrom (summarizeBlocks message.content) }
    }.markCacheAppendDirty

def insertMessage (index : Nat) (message : StoredMessage) : Option CachedSession :=
  (s.toSession.insertMessage index message).map s.changeMessages

def replaceMessages (messages : List StoredMessage) : CachedSession :=
  s.changeMessages (s.toSession.replaceMessages messages)

def truncateMessages (len : Nat) : CachedSession :=
  if len < s.messages.length then s.changeMessages (s.toSession.truncateMessages len) else s

def removeToolUseBlocks (messageId : String) : CachedSession :=
  if s.messages.any (·.id = messageId) then
    s.changeMessages (s.toSession.removeToolUseBlocks messageId)
  else s

def recordEnvSnapshot (snapshot : EnvSnapshot) : CachedSession :=
  { s with
    toSession := s.toSession.recordEnvSnapshot snapshot
    memoryProfileCache := { s.memoryProfileCache with
      envSnapshotsCount := s.memoryProfileCache.envSnapshotsCount + 1
      envSnapshotsJsonBytes :=
        s.memoryProfileCache.envSnapshotsJsonBytes + estimateJsonBytes (json.envSnapshot snapshot) }
    memoryProfileDirty :=
      s.memoryProfileDirty || s.envSnapshots.length + 1 > Session.MAX_ENV_SNAPSHOTS }

def recordMemoryInjection (summary content : String) (count ageMs : Nat) (memoryIds : List String)
    (now : Nat) : CachedSession :=
  let injection : StoredMemoryInjection :=
    { summary := summary
      content := content
      count := count
      memoryIds := memoryIds
      ageMs := some ageMs
      beforeMessage := some s.messages.length
      timestamp := now }
  { s with
    toSession := s.toSession.recordMemoryInjection summary content count ageMs memoryIds now
    memoryProfileCache := { s.memoryProfileCache with
      memoryInjectionsCount := s.memoryProfileCache.memoryInjectionsCount + 1
      memoryInjectionsJsonBytes := s.memoryProfileCache.memoryInjectionsJsonBytes +
        estimateJsonBytes (json.memoryInjection injection) } }

def pushReplayEvent (kind : StoredReplayEventKind) (now : Nat) : CachedSession :=
  { s with
    toSession := s.toSession.pushReplayEvent kind now
    memoryProfileCache := { s.memoryProfileCache with
      replayEventsCount := s.memoryProfileCache.replayEventsCount + 1
      replayEventsJsonBytes := s.memoryProfileCache.replayEventsJsonBytes +
        estimateJsonBytes (json.replayEvent { timestamp := now, kind := kind }) } }

def recordUnlessRepeated (kind : StoredReplayEventKind) (now : Nat) : CachedSession :=
  if s.replayEvents.getLast?.any (·.kind = kind) then s else s.pushReplayEvent json kind now

/-- Nothing but the transcript vectors and the compaction is dropped; the counters are rebuilt
before the provider's messages are. -/
def stripTranscriptForRemoteClient : CachedSession :=
  let s := { s with
    messages := []
    compaction := none
    envSnapshots := []
    memoryInjections := []
    replayEvents := [] }
  let s := (s.rebuildMemoryProfileCache json).resetProviderMessagesCache
  { s with toSession := s.toSession.resetPersistState true }

/-! ### The session context -/

def SESSION_CONTEXT_PREFIX : String := "<system-reminder>\n# Session Context"

def isContextBlock : ContentBlock → Bool
  | .text text _ => SESSION_CONTEXT_PREFIX.toList.isPrefixOf text.toList
  | _ => false

/-- The first context block is replaced, if its text differs. -/
def refreshBlocks (wrapped : String) : List ContentBlock → Option (List ContentBlock)
  | [] => none
  | block :: blocks =>
    match block with
    | .text text cacheControl =>
      if isContextBlock (.text text cacheControl) then
        if text = wrapped then none else some (.text wrapped cacheControl :: blocks)
      else (refreshBlocks wrapped blocks).map (block :: ·)
    | _ => (refreshBlocks wrapped blocks).map (block :: ·)

/-- Only the first message with a context block is looked at. -/
def refreshMessages (wrapped : String) : List StoredMessage → Option (List StoredMessage)
  | [] => none
  | message :: messages =>
    if message.content.any isContextBlock then
      (refreshBlocks wrapped message.content).map fun content =>
        { message with content := content } :: messages
    else (refreshMessages wrapped messages).map (message :: ·)

/-- `context` is what `build_session_context` gives for the working directory. -/
def refreshInitialSessionContextMessage (context : String) : CachedSession :=
  if s.messages.any isVisibleConversationMessage then s
  else
    let wrapped := "<system-reminder>\n" ++ trim context ++ "\n</system-reminder>"
    match refreshMessages wrapped s.messages with
    | some messages => s.changeMessages (s.toSession.replaceMessages messages)
    | none => s

/-! ### Messages for the provider -/

def pushAll (messages : List StoredMessage) : CachedSession :=
  messages.foldl (fun s message => s.pushProviderMessageCacheEntry json message.toMessage) s

/-- Everything is pushed anew, but the counters are those of before. -/
def rebuildProviderMessages : CachedSession :=
  let s := { s with providerMessagesCache := [], providerMessagePrefixHashesCache := [] }
  { s.pushAll json s.messages with
    providerMessagesCacheLen := s.messages.length
    providerMessagesCacheMode := .clean }

def providerMessages : List Message × CachedSession :=
  let s :=
    if s.providerMessagesCacheMode = .full ∨ s.providerMessagesCacheLen > s.messages.length then
      s.rebuildProviderMessages json
    else if s.providerMessagesCacheMode = .append ∧
        s.providerMessagesCacheLen < s.messages.length then
      { s.pushAll json (s.messages.drop s.providerMessagesCacheLen) with
        providerMessagesCacheLen := s.messages.length
        providerMessagesCacheMode := .clean }
    else s
  (s.providerMessagesCache, s)

def providerMessagePrefixHashes : List UInt64 × CachedSession :=
  let s := (s.providerMessages json).2
  (s.providerMessagePrefixHashesCache, s)

def messagesForProviderUncached : List Message := s.messages.map (·.toMessage)

/-! ### Calls -/

def mutate : SessionMutation → Option CachedSession
  | .appendStoredMessage message => some (s.appendStoredMessage json message)
  | .insertMessage index message => s.insertMessage index message
  | .replaceMessages messages => some (s.replaceMessages messages)
  | .truncateMessages len => some (s.truncateMessages len)
  | .removeToolUseBlocks messageId => some (s.removeToolUseBlocks messageId)
  | .recordEnvSnapshot snapshot => some (s.recordEnvSnapshot json snapshot)
  | .recordMemoryInjection summary content count ageMs memoryIds now =>
    some (s.recordMemoryInjection json summary content count ageMs memoryIds now)
  | .recordReplayDisplayMessage role title content now =>
    some (s.pushReplayEvent json (.displayMessage role title content) now)
  | .recordSwarmStatusEvent members now =>
    some (s.recordUnlessRepeated json (.swarmStatus members) now)
  | .recordSwarmPlanEvent swarmId version items participants reason now =>
    some (s.recordUnlessRepeated json (.swarmPlan swarmId version items participants reason) now)
  | .setMetadata metadata =>
    some { s with toPersistedSession := s.toPersistedSession.applyJournalMeta metadata }
  | .setCreatedAt createdAt => some { s with createdAt := createdAt }

end CachedSession

inductive SessionCall
  | mutate (mutation : SessionMutation)
  | refreshInitialSessionContextMessage (context : String)
  | stripTranscriptForRemoteClient
  | providerMessages
  | providerMessagePrefixHashes
  | memoryProfileSnapshot

/-- A session before or after a call; only an insertion behind the end cannot be made. -/
def CachedSession.step (json : SessionJson) (s : CachedSession) :
    SessionCall → Option CachedSession
  | .mutate mutation => s.mutate json mutation
  | .refreshInitialSessionContextMessage context =>
    some (s.refreshInitialSessionContextMessage context)
  | .stripTranscriptForRemoteClient => some (s.stripTranscriptForRemoteClient json)
  | .providerMessages => some (s.providerMessages json).2
  | .providerMessagePrefixHashes => some (s.providerMessagePrefixHashes json).2
  | .memoryProfileSnapshot => some (s.memoryProfileSnapshot json).2

/-! ### Sessions with plain messages -/

/-- The text of a message that has nothing but one block of plain text. -/
def plainTextJson (front : String) (role : Role) : List ContentBlock → Option (List UInt8)
  | [.text text none] => some <| utf8 <| "\x7b" ++ front ++ "\"role\":\"" ++
      (match role with
        | .user => "user"
        | .assistant => "assistant") ++
      "\",\"content\":[\x7b\"type\":\"text\",\"text\":\"" ++ text ++ "\"\x7d]\x7d"
  | _ => none

/-- An encoder for sessions with messages of plain text and nothing else. -/
def plainJson : SessionJson where
  message message := plainTextJson "" message.role message.content
  debugMessage _ := []
  storedMessage message :=
    plainTextJson ("\"id\":\"" ++ message.id ++ "\",") message.role message.content
  envSnapshot _ := none
  memoryInjection _ := none
  replayEvent _ := none
  compaction _ := none

def plainMessage (id text : String) : StoredMessage :=
  ⟨id, .user, [.text text none], none, none, none, none⟩

def plainSession : CachedSession :=
  (Session.createWithId "s" none none none none false 1 0).withNewCaches

lemma plainSession_opened : plainSession.Opened := .created _ rfl rfl rfl rfl

end Jcode
