import Jcode.Import.ClaudeCode
import Jcode.Session.Persistence
import Mathlib.Data.List.Sort

/-!
# Importing external sessions

Sessions of Claude Code, Codex, Pi and OpenCode become sessions of jcode under an id that follows
from theirs. An import makes a new session, appends the messages of the transcript and saves it.
-/

namespace Jcode

inductive ExternalSource
  | claudeCode
  | codex
  | pi
  | openCode
  deriving DecidableEq

/-- What a line of Codex or Pi or a file of OpenCode says of a message; its content is the text that
is extracted from it. -/
structure ExternalRecord where
  role : String
  text : String
  timestamp : Option Nat
  deriving DecidableEq

/-- What else is read of a session that is not one of Claude Code. The title is the one that was
found, or the default. -/
structure ExternalHeader where
  sessionId : Option String
  title : Option String
  workingDir : Option String
  model : Option String
  providerKey : Option String
  createdAt : Nat
  updatedAt : Option Nat
  deriving DecidableEq

/-- What the importer reads: lines that are malformed are left out. -/
inductive ExternalTranscript : ExternalSource → Type
  | claudeCode (entries : List ClaudeCodeEntry) : ExternalTranscript .claudeCode
  | codex (header : ExternalHeader) (records : List ExternalRecord) : ExternalTranscript .codex
  | pi (header : ExternalHeader) (records : List ExternalRecord) : ExternalTranscript .pi
  | openCode (header : ExternalHeader) (records : List ExternalRecord) :
      ExternalTranscript .openCode

/-- The path of the file is left out; a session of Pi is known by it. -/
inductive ResumeTarget
  | jcodeSession (sessionId : String)
  | external (source : ExternalSource) (sessionId : String)
  deriving DecidableEq

/-- `piDigest` is the hash of a path. -/
def importedSessionId (piDigest : String → String) (source : ExternalSource) (sessionId : String) :
    String :=
  match source with
  | .claudeCode => "imported_cc_" ++ sessionId
  | .codex => "imported_codex_" ++ sessionId
  | .pi => "imported_pi_" ++ piDigest sessionId
  | .openCode => "imported_opencode_" ++ sessionId

/-! ### Messages -/

/-- The message of `append_text_message`, if it is not empty. -/
def convertRecord (record : ExternalRecord) : Option ExternalMessage :=
  (importedRole record.role).bind fun role =>
    let text := trim record.text
    if text = "" then none else some ⟨none, role, [.text text none], record.timestamp⟩

/-- The order of `Option`: no timestamp is before all others. -/
def timestampLe : Option Nat → Option Nat → Bool
  | none, _ => true
  | some _, none => false
  | some a, some b => a ≤ b

/-- `messages.sort_by_key(…)`, a stable sort. -/
def sortRecords (records : List ExternalRecord) : List ExternalRecord :=
  (records.filter fun record => (importedRole record.role).isSome).mergeSort fun a b =>
    timestampLe a.timestamp b.timestamp

/-- The messages in the order in which they are appended; nothing if the importer does not end. -/
def ExternalTranscript.read {source : ExternalSource} :
    ExternalTranscript source → Option (List ExternalMessage)
  | .claudeCode entries =>
    (orderedClaudeCodeMessageEntries entries).map fun ordered => ordered.filterMap convertEntry
  | .codex _ records => some (records.filterMap convertRecord)
  | .pi _ records => some (records.filterMap convertRecord)
  | .openCode _ records => some ((sortRecords records).filterMap convertRecord)

/-! ### The imported session -/

/-- What an import depends on besides the transcript: ids for messages without one, the environment
of a new session, and the title in the index of Claude Code. -/
structure ImportRun where
  save : SaveRun
  freshId : Nat → String
  shortName : Option String
  workingDir : Option String
  isDebug : Bool
  indexTitle : Option String

def ExternalMessage.stored (message : ExternalMessage) (freshId : String) : StoredMessage where
  id := message.id.getD freshId
  role := message.role
  content := message.content
  displayRole := none
  timestamp := message.timestamp
  toolDurationMs := none
  tokenUsage := none

/-- The messages are appended one after the other. -/
def appendImported (freshId : Nat → String) (n : Nat) (session : Session) :
    List ExternalMessage → Session
  | [] => session
  | message :: messages =>
    appendImported freshId (n + 1) (session.appendStoredMessage (message.stored (freshId n)))
      messages

def truncateTitle (title : String) : String :=
  let trimmed := (trim title).toList
  if trimmed.length ≤ 80 then String.ofList trimmed else String.ofList (trimmed.take 80 ++ ['…'])

/-- The title in the first entry: its text, or the first of its texts. -/
def firstTitle (entry : ClaudeCodeEntry) : Option String :=
  if entry.entryType = "user" then
    entry.message.bind fun message =>
      match message.content with
      | .text text => some (truncateTitle text)
      | .blocks blocks =>
        blocks.findSome? fun
          | .text text => some (truncateTitle text)
          | _ => none
      | .empty => none
  else none

variable (piDigest : String → String)

section

variable (source : ExternalSource) (sessionId : String) (run : ImportRun)

def newImportedSession (title : Option String) : Session :=
  Session.createWithId (importedSessionId piDigest source sessionId) none title run.shortName
    run.workingDir run.isDebug run.save.pid run.save.now

/-- The session of Claude Code before it is saved. -/
def claudeCodeSession (ordered : List ClaudeCodeEntry) : Session :=
  let first := ordered.head?
  let session := newImportedSession piDigest .claudeCode sessionId run
    ((first.bind firstTitle).or run.indexTitle)
  appendImported run.freshId 0
    { session with
      providerSessionId := some sessionId
      providerKey := some "claude-code"
      workingDir := first.bind ClaudeCodeEntry.cwd
      model := (ordered.find? fun entry => entry.entryType = "assistant").bind fun entry =>
        entry.message.bind ClaudeCodeMessage.model
      createdAt := (first.bind ClaudeCodeEntry.timestamp).getD run.save.now
      status := .closed } (ordered.filterMap convertEntry)

/-- A session before it is saved by `finalize_imported_session`. -/
def finalizedSession (header : ExternalHeader) (providerSessionId providerKey : Option String)
    (messages : List ExternalMessage) : Session :=
  let session := newImportedSession piDigest source sessionId run none
  appendImported run.freshId 0
    { session with
      providerSessionId := providerSessionId
      providerKey := providerKey
      title := header.title
      workingDir := header.workingDir
      model := header.model
      createdAt := header.createdAt
      updatedAt := header.updatedAt.getD header.createdAt
      lastActiveAt := some (header.updatedAt.getD header.createdAt)
      status := .closed } messages

end

/-- The session that an import saves; nothing if it does not end. -/
def importedSession {source : ExternalSource} (sessionId : String) (run : ImportRun) :
    ExternalTranscript source → Option Session
  | .claudeCode entries =>
    (orderedClaudeCodeMessageEntries entries).map (claudeCodeSession piDigest sessionId run)
  | .codex header records =>
    let id := header.sessionId.getD sessionId
    some (finalizedSession piDigest .codex id run header (some id) (some "openai-codex")
      (records.filterMap convertRecord))
  | .pi header records =>
    some (finalizedSession piDigest .pi sessionId run header header.sessionId header.providerKey
      (records.filterMap convertRecord))
  | .openCode header records =>
    let id := header.sessionId.getD sessionId
    some (finalizedSession piDigest .openCode id run header (some id) header.providerKey
      ((sortRecords records).filterMap convertRecord))

/-- The target that is answered, if the external session can be read, and the files; nothing if the
call does not return. -/
def resolveResumeTargetToJcode (format : SessionFormat) (fs : Directory) {source : ExternalSource}
    (sessionId : String) (transcript : Option (ExternalTranscript source)) (run : ImportRun) :
    Option (Option ResumeTarget × Directory) :=
  match transcript with
  | none => some (none, fs)
  | some transcript =>
    (importedSession piDigest sessionId run transcript).map fun session =>
      (some (.jcodeSession (importedSessionId piDigest source sessionId)),
        (save format fs session run.save).2)

end Jcode
