import Jcode.Foundation.Codec
import Jcode.Foundation.LineLog
import Jcode.Session.Model
import Jcode.Storage
import Jcode.Swarm.Member
import Mathlib.Data.List.DropRight

/-!
# Saving and loading sessions

A session is stored in two files: a snapshot, and a journal with what was appended since the
snapshot was written (`session/persistence.rs`).
-/

namespace Jcode

/-- How snapshots and journal entries are written as JSON. -/
structure SessionFormat where
  snapshot : TextCodec PersistedSession
  entry : TextCodec SessionJournalEntry

/-! ### Files -/

def sessionPath (sessionId : String) : FileName := ⟨sessionId, "json"⟩

def sessionJournalPathFromSnapshot (path : FileName) : FileName :=
  ⟨path.stem ++ ".journal", "jsonl"⟩

def sessionJournalPath (sessionId : String) : FileName :=
  sessionJournalPathFromSnapshot (sessionPath sessionId)

def MAX_SESSION_JOURNAL_BYTES : Nat := 512 * 1024

variable (format : SessionFormat)

/-! ### Loading -/

/-- One line of the journal. -/
def readJournalLine (line : Bytes) : LineLog.Outcome SessionJournalEntry :=
  match readUtf8 line with
  | none => .invalid
  | some text =>
    let trimmed := trim text
    if trimmed = "" then .blank
    else
      match format.entry.decode trimmed with
      | some entry => .record entry
      | none => .malformed

/-- The journal loop of `load_from_path`. -/
def readJournal (fs : Directory) (path : FileName) : Option (List SessionJournalEntry) :=
  match fs path with
  | none => some []
  | some content =>
    LineLog.readRecords (readJournalLine format) (LineLog.lines newline carriageReturn content)

/-- Entries applied one after the other. -/
def PersistedSession.replay (session : PersistedSession) (entries : List SessionJournalEntry) :
    PersistedSession :=
  entries.foldl applyJournalEntry session

def loadFromPath (fs : Directory) (path : FileName) : Option Session × Directory :=
  let read := readJson format.snapshot.decode fs path
  let session := read.1.bind fun snapshot =>
    (readJournal format read.2 (sessionJournalPathFromSnapshot path)).map fun entries =>
      Session.resetPersistState ⟨snapshot.replay entries, .default⟩ (read.2.pathExists path)
  (session, read.2)

/-! ### Saving -/

namespace Session

variable (session : Session)

def metadataNeedsSnapshot : Bool :=
  session.persistState.lastMeta.any fun prev => metadataRequiresSnapshot prev session.journalMeta

def vectorsNeedSnapshot : Bool :=
  !session.persistState.snapshotExists || session.persistState.messagesMode = .full ||
    session.persistState.envSnapshotsMode = .full ||
    session.persistState.memoryInjectionsMode = .full ||
    session.persistState.replayEventsMode = .full ||
    session.messages.length < session.persistState.messagesLen ||
    session.envSnapshots.length < session.persistState.envSnapshotsLen ||
    session.memoryInjections.length < session.persistState.memoryInjectionsLen ||
    session.replayEvents.length < session.persistState.replayEventsLen

def needsSnapshot : Bool := session.metadataNeedsSnapshot || session.vectorsNeedSnapshot

/-- What an append writes: the metadata, and the vectors from the remembered lengths on. -/
def journalEntry : SessionJournalEntry where
  metadata := session.journalMeta
  appendMessages := session.messages.drop session.persistState.messagesLen
  appendEnvSnapshots := session.envSnapshots.drop session.persistState.envSnapshotsLen
  appendMemoryInjections :=
    session.memoryInjections.drop session.persistState.memoryInjectionsLen
  appendReplayEvents := session.replayEvents.drop session.persistState.replayEventsLen

end Session

/-- What a save depends on besides the session and the files: its time, the name of a temporary
file and how an append ends. -/
structure SaveRun where
  now : Nat
  pid : Nat
  nonce : Nat
  append : AppendOutcome

/-- The session with the time of the save. -/
def SaveRun.touch (run : SaveRun) (session : Session) : Session :=
  { session with updatedAt := run.now }

def SaveRun.tmp (run : SaveRun) : String := tmpExtension run.pid run.nonce

def snapshotBytes (session : Session) : Bytes :=
  utf8 (format.snapshot.encode session.toPersistedSession)

def removeJournal (fs : Directory) (sessionId : String) : Directory :=
  if fs.pathExists (sessionJournalPath sessionId) then fs.remove (sessionJournalPath sessionId)
  else fs

def checkpointSnapshot (fs : Directory) (session : Session) (tmp : String) : Session × Directory :=
  let fs := writeBytesInner fs (sessionPath session.id) tmp (snapshotBytes format session)
  (session.resetPersistState true, removeJournal fs session.id)

/-- A save up to the call of `checkpoint_snapshot`, if it makes one. -/
structure StartedSave where
  session : Session
  files : Directory
  checkpoint : Bool

def startSave (fs : Directory) (session : Session) (run : SaveRun) : StartedSave :=
  let session := run.touch session
  if session.needsSnapshot then ⟨session, fs, true⟩
  else
    let journalPath := sessionJournalPath session.id
    let text := utf8 (format.entry.encode session.journalEntry)
    let fs := appendJsonLineFast fs journalPath text run.append
    match run.append with
    | .written =>
      ⟨session.resetPersistState true, fs,
        decide (MAX_SESSION_JOURNAL_BYTES < fs.fileLenOrZero journalPath)⟩
    -- a failed append falls back to a full snapshot
    | .openFailed | .writeFailed _ => ⟨session, fs, true⟩

def save (fs : Directory) (session : Session) (run : SaveRun) : Session × Directory :=
  let started := startSave format fs session run
  if started.checkpoint then checkpointSnapshot format started.files started.session run.tmp
  else (started.session, started.files)

end Jcode
