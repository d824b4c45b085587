import Jcode.Import.External
import Jcode.Session.RoundTrip

/-!
# Resuming an external session

Every resume imports the transcript again, under the same id, as a session that knows nothing of
the files. Its save writes a snapshot and removes the journal, with what was appended since the
first import.
-/

namespace Jcode

open Schedule

/-! ### Transcripts -/

namespace ExternalTranscript

variable {source : ExternalSource}

/-- The messages of the transcript. -/
def messages : ExternalTranscript source → List ExternalMessage
  | .claudeCode entries => (entries.filter isMessageEntry).filterMap convertEntry
  | .codex _ records => records.filterMap convertRecord
  | .pi _ records => records.filterMap convertRecord
  | .openCode _ records => records.filterMap convertRecord

/-- The message entries of Claude Code have a `uuid` each. -/
def HasOwnIds : ExternalTranscript source → Prop
  | .claudeCode entries => HaveOwnIds (entries.filter isMessageEntry)
  | _ => True

/-- The file of a session names no other session. -/
def IsOf (sessionId : String) : ExternalTranscript source → Prop
  | .codex header _ => ∀ id ∈ header.sessionId, id = sessionId
  | .openCode header _ => ∀ id ∈ header.sessionId, id = sessionId
  | _ => True

instance (sessionId : String) :
    ∀ transcript : ExternalTranscript source, Decidable (transcript.IsOf sessionId)
  | .claudeCode _ => inferInstanceAs (Decidable True)
  | .codex header _ => inferInstanceAs (Decidable (∀ id ∈ header.sessionId, id = sessionId))
  | .pi _ _ => inferInstanceAs (Decidable True)
  | .openCode header _ => inferInstanceAs (Decidable (∀ id ∈ header.sessionId, id = sessionId))

end ExternalTranscript

lemma filterMap_sortRecords_perm (records : List ExternalRecord) :
    ((sortRecords records).filterMap convertRecord).Perm (records.filterMap convertRecord) := by
  refine ((List.mergeSort_perm _ _).filterMap _).trans (List.Perm.of_eq ?_)
  rw [List.filterMap_filter]
  refine List.filterMap_congr fun record _ => ?_
  cases hrole : importedRole record.role <;> simp [convertRecord, hrole]

/-- Every message of the transcript is read once. -/
lemma ExternalTranscript.exists_read {source : ExternalSource}
    {transcript : ExternalTranscript source} (h : transcript.HasOwnIds) :
    ∃ read, transcript.read = some read ∧ read.Perm transcript.messages := by
  cases transcript with
  | claudeCode entries =>
    obtain ⟨ordered, hordered, hperm⟩ := exists_orderedClaudeCodeMessageEntries h
    refine ⟨ordered.filterMap convertEntry, ?_, hperm.filterMap _⟩
    rw [read, hordered, Option.map_some]
  | codex header records => exact ⟨_, rfl, .refl _⟩
  | pi header records => exact ⟨_, rfl, .refl _⟩
  | openCode header records => exact ⟨_, rfl, filterMap_sortRecords_perm records⟩

/-! ### Imported sessions -/

def IsStoredAs (message : ExternalMessage) (stored : StoredMessage) : Prop :=
  ∃ freshId, stored = message.stored freshId

/-- A session of the messages that were read, which was never saved. -/
structure Session.IsImportOf (session : Session) (jcodeId : String) (read : List ExternalMessage) :
    Prop where
  messages : List.Forall₂ IsStoredAs read session.messages
  id : session.id = jcodeId
  unsaved : session.persistState.snapshotExists = false

variable {piDigest : String → String} {source : ExternalSource} {sessionId jcodeId : String}
  {run : ImportRun} {transcript : ExternalTranscript source}
  {messages read : List ExternalMessage}

/-- The messages of the transcript are appended in order, and nothing else is changed. -/
lemma isImportOf_appendImported {freshId : Nat → String} {n : Nat} {session : Session}
    (h : session.IsImportOf jcodeId read) :
    (appendImported freshId n session messages).IsImportOf jcodeId (read ++ messages) := by
  induction messages generalizing n session read with
  | nil => rwa [List.append_nil]
  | cons message messages ih =>
    have hmessage : IsStoredAs message (message.stored (freshId n)) := ⟨_, rfl⟩
    have hnext : (session.appendStoredMessage (message.stored (freshId n))).IsImportOf jcodeId
        (read ++ [message]) :=
      ⟨List.rel_append h.messages (.cons hmessage .nil), h.id, h.unsaved⟩
    have hrest := ih hnext (n := n + 1)
    rwa [List.append_assoc, List.singleton_append] at hrest

lemma isImportOf_new {freshId : Nat → String} {session : Session}
    (hmessages : session.messages = []) (hid : session.id = jcodeId)
    (hunsaved : session.persistState.snapshotExists = false) :
    (appendImported freshId 0 session messages).IsImportOf jcodeId messages := by
  have hnew : session.IsImportOf jcodeId [] := ⟨by rw [hmessages]; exact .nil, hid, hunsaved⟩
  exact isImportOf_appendImported hnew

lemma isImportOf_claudeCodeSession {ordered : List ClaudeCodeEntry} :
    (claudeCodeSession piDigest sessionId run ordered).IsImportOf
      (importedSessionId piDigest .claudeCode sessionId) (ordered.filterMap convertEntry) := by
  unfold claudeCodeSession
  exact isImportOf_new rfl rfl rfl

lemma isImportOf_finalizedSession {header : ExternalHeader}
    {providerSessionId providerKey : Option String} :
    (finalizedSession piDigest source sessionId run header providerSessionId providerKey
      messages).IsImportOf (importedSessionId piDigest source sessionId) messages := by
  unfold finalizedSession
  exact isImportOf_new rfl rfl rfl

/-- An import that ends makes a session of what was read. -/
lemma exists_importedSession (piDigest : String → String) (run : ImportRun)
    (hof : transcript.IsOf sessionId) (hread : transcript.read = some read) :
    ∃ session, importedSession piDigest sessionId run transcript = some session ∧
      session.IsImportOf (importedSessionId piDigest source sessionId) read := by
  have hcodex : ∀ {header : ExternalHeader}, (∀ id ∈ header.sessionId, id = sessionId) →
      header.sessionId.getD sessionId = sessionId := by
    intro header hid
    cases hheader : header.sessionId with
    | none => rfl
    | some id => exact hid id hheader
  cases transcript with
  | claudeCode entries =>
    obtain ⟨ordered, hordered, rfl⟩ := Option.map_eq_some_iff.mp hread
    refine ⟨claudeCodeSession piDigest sessionId run ordered, ?_, isImportOf_claudeCodeSession⟩
    rw [importedSession, hordered, Option.map_some]
  | codex header records =>
    cases hread
    refine ⟨_, rfl, ?_⟩
    rw [hcodex hof]
    exact isImportOf_finalizedSession
  | pi header records =>
    cases hread
    exact ⟨_, rfl, isImportOf_finalizedSession⟩
  | openCode header records =>
    cases hread
    refine ⟨_, rfl, ?_⟩
    rw [hcodex hof]
    exact isImportOf_finalizedSession

/-! ### Resumes and turns -/

/-- What a mutation of a turn appends; nothing for one that rewrites the messages or redates the
session. -/
def SessionMutation.appendedMessages : SessionMutation → Option (List StoredMessage)
  | .appendStoredMessage message => some [message]
  | .insertMessage _ _ | .replaceMessages _ | .truncateMessages _ | .removeToolUseBlocks _
  | .setCreatedAt _ => none
  | .recordEnvSnapshot _ | .recordMemoryInjection _ _ _ _ _ _ | .recordReplayDisplayMessage _ _ _ _
  | .recordSwarmStatusEvent _ _ | .recordSwarmPlanEvent _ _ _ _ _ _ | .setMetadata _ => some []

/-- The files, the external session as it is now, and the imported session as it is open. Of the
past, `known` is the transcript of the last import, `appended` what was appended and saved since
the first one, and `pending` what was appended and not yet saved. -/
structure ImportStore (source : ExternalSource) where
  files : Directory
  transcript : Option (ExternalTranscript source)
  session : Option Session
  known : Option (List ExternalMessage)
  appended : List StoredMessage
  pending : List StoredMessage

/-- A change of the external session, a resume with the opening of the session that is answered,
and what a turn does. -/
inductive ImportStep (source : ExternalSource)
  | external (transcript : Option (ExternalTranscript source))
  | resume (run : ImportRun)
  | turn (mutation : SessionMutation)
  | save (run : SaveRun)

namespace ImportStore

def new (source : ExternalSource) (files : Directory) : ImportStore source :=
  ⟨files, none, none, none, [], []⟩

section

variable (format : SessionFormat) (piDigest : String → String) (sessionId : String)

/-- The session that is stored for the external one. -/
def load (store : ImportStore source) : Option Session × Directory :=
  loadFromPath format store.files (sessionPath (importedSessionId piDigest source sessionId))

/-- The session of a resume is opened. -/
def opened (store : ImportStore source) (transcript : ExternalTranscript source)
    (files : Directory) : ImportStore source :=
  let loaded := load format piDigest sessionId { store with files := files }
  { store with
    files := loaded.2
    session := loaded.1
    known := some transcript.messages
    pending := [] }

def step (store : ImportStore source) : ImportStep source → Option (ImportStore source)
  | .external transcript =>
    if ∀ t ∈ transcript, t.IsOf sessionId then some { store with transcript := transcript }
    else none
  | .resume run =>
    (resolveResumeTargetToJcode piDigest format store.files sessionId store.transcript run).map
      fun (_, files) =>
        match store.transcript with
        | none => store
        | some transcript => opened format piDigest sessionId store transcript files
  | .turn mutation =>
    store.session.bind fun session =>
      mutation.appendedMessages.bind fun messages =>
        (mutation.apply session).map fun session =>
          { store with session := some session, pending := store.pending ++ messages }
  | .save run =>
    store.session.map fun session =>
      let saved := Jcode.save format store.files session run
      { store with
        files := saved.2
        session := some saved.1
        appended := store.appended ++ store.pending
        pending := [] }

/-- The stored session has every message that was appended and saved, in order, and each message
of the transcript once. -/
def KeepsWork (store : ImportStore source) : Prop :=
  ∀ known ∈ store.known, ∃ session, (store.load format piDigest sessionId).1 = some session ∧
    store.appended.Sublist session.messages ∧
    ∃ external imported, external.Perm known ∧ List.Forall₂ IsStoredAs external imported ∧
      session.messages.Perm (imported ++ store.appended)

end

/-- An import happens before anything is appended and saved, and every message of the transcript
has an id of its own. -/
def Harmless (store : ImportStore source) : ImportStep source → Prop
  | .resume _ =>
    ∀ transcript ∈ store.transcript, store.appended = [] ∧ transcript.HasOwnIds
  | _ => True

end ImportStore

/-! ### One step -/

variable {format : SessionFormat} {store store' : ImportStore source} {session : Session}

lemma messages_recordEnvSnapshot (session : Session) (snapshot : EnvSnapshot) :
    (session.recordEnvSnapshot snapshot).messages = session.messages := by
  simp only [Session.recordEnvSnapshot]
  split_ifs <;> rfl

lemma messages_recordUnlessRepeated (session : Session) (kind : StoredReplayEventKind)
    (now : Nat) : (session.recordUnlessRepeated kind now).messages = session.messages := by
  unfold Session.recordUnlessRepeated
  split_ifs <;> rfl

/-- A mutation of a turn appends its messages. -/
lemma messages_of_appendedMessages {mutation : SessionMutation} {session' : Session}
    {appended : List StoredMessage} (h : mutation.appendedMessages = some appended)
    (happly : mutation.apply session = some session') :
    session'.messages = session.messages ++ appended := by
  cases mutation with
  | appendStoredMessage message =>
    cases h
    cases happly
    rfl
  | recordEnvSnapshot snapshot =>
    cases h
    cases happly
    rw [messages_recordEnvSnapshot, List.append_nil]
  | recordMemoryInjection summary content count ageMs memoryIds now =>
    cases h
    cases happly
    exact (List.append_nil _).symm
  | recordReplayDisplayMessage role title content now =>
    cases h
    cases happly
    exact (List.append_nil _).symm
  | recordSwarmStatusEvent members now =>
    cases h
    cases happly
    exact (messages_recordUnlessRepeated _ _ _).trans (List.append_nil _).symm
  | recordSwarmPlanEvent swarmId version items participants reason now =>
    cases h
    cases happly
    exact (messages_recordUnlessRepeated _ _ _).trans (List.append_nil _).symm
  | setMetadata metadata =>
    cases h
    cases happly
    exact (List.append_nil _).symm
  | insertMessage index message => cases h
  | replaceMessages messages => cases h
  | truncateMessages len => cases h
  | removeToolUseBlocks messageId => cases h
  | setCreatedAt createdAt => cases h

namespace ImportStore

/-- A resume that reads the transcript leaves its messages stored, and nothing else. -/
lemma exists_step_resume (hformat : format.Lawful) (piDigest : String → String)
    (store : ImportStore source) (htranscript : store.transcript = some transcript)
    (hof : transcript.IsOf sessionId) (hread : transcript.read = some read) (run : ImportRun) :
    ∃ files saved, store.step format piDigest sessionId (.resume run) =
        some { store with
          files := files
          session := some (loadedSession saved)
          known := some transcript.messages
          pending := [] } ∧
      (loadedSession saved).StoredIn format files saved ∧
      saved.id = importedSessionId piDigest source sessionId ∧
      List.Forall₂ IsStoredAs read saved.messages := by
  obtain ⟨session, himport, hsession⟩ := exists_importedSession piDigest run hof hread
  set result := save format store.files session run.save with hresult
  have hstored : result.1.StoredIn format result.2 (run.save.touch session).toPersistedSession :=
    save_storedIn run.save (.inl hsession.unsaved)
  have hid : result.1.id = importedSessionId piDigest source sessionId :=
    hstored.tracks.id.trans hsession.id
  have hload := hstored.loadFromPath hformat
  rw [hid] at hload
  refine ⟨result.2, _, ?_, hstored.loadedSession, hsession.id, hsession.messages⟩
  simp only [step, resolveResumeTargetToJcode, htranscript, himport, Option.map_some, opened, load,
    ← hresult, hload]

/-- A resume that cannot read the external session changes nothing. -/
lemma step_resume_of_none (htranscript : store.transcript = none) (run : ImportRun) :
    store.step format piDigest sessionId (.resume run) = some store := by
  simp only [step, resolveResumeTargetToJcode, htranscript, Option.map_some]

section

variable (format : SessionFormat) (piDigest : String → String) (sessionId : String)

/-- The open session is the stored one with what is pending, and the stored one is the last one
imported with what was appended and saved. -/
structure InStep (store : ImportStore source) (session : Session) (saved : PersistedSession)
    (known : List ExternalMessage) : Prop where
  id : session.id = importedSessionId piDigest source sessionId
  storedIn : session.StoredIn format store.files saved
  pending : session.messages = saved.messages ++ store.pending
  imported : ∃ external imported, external.Perm known ∧ List.Forall₂ IsStoredAs external imported ∧
    saved.messages = imported ++ store.appended

/-- Before the first import nothing is open and nothing was appended. -/
structure Inv (store : ImportStore source) : Prop where
  isOf : ∀ transcript ∈ store.transcript, transcript.IsOf sessionId
  fresh : store.known = none → store.session = none ∧ store.appended = []
  inStep : ∀ known ∈ store.known, ∃ session saved, store.session = some session ∧
    store.InStep format piDigest sessionId session saved known

end

variable {saved : PersistedSession} {known : List ExternalMessage}

lemma inv_new (files : Directory) : (new source files).Inv format piDigest sessionId where
  isOf := by rintro _ ⟨⟩
  fresh _ := ⟨rfl, rfl⟩
  inStep := by rintro _ ⟨⟩

/-- An open session was imported. -/
lemma Inv.known_of_session (h : store.Inv format piDigest sessionId)
    (hsession : store.session = some session) : ∃ known, store.known = some known := by
  refine Option.ne_none_iff_exists'.mp fun hnone => ?_
  cases hsession.symm.trans (h.fresh hnone).1

lemma Inv.inStep_of_session (h : store.Inv format piDigest sessionId)
    (hsession : store.session = some session) : ∃ known saved, store.known = some known ∧
      store.InStep format piDigest sessionId session saved known := by
  obtain ⟨known, hknown⟩ := h.known_of_session hsession
  obtain ⟨session', saved, hsession', hin⟩ := h.inStep known hknown
  cases hsession.symm.trans hsession'
  exact ⟨known, saved, hknown, hin⟩

/-- It is enough to be in step with the last import. -/
lemma inv_of_inStep (hisOf : ∀ transcript ∈ store.transcript, transcript.IsOf sessionId)
    (hknown : store.known = some known) (hsession : store.session = some session)
    (hin : store.InStep format piDigest sessionId session saved known) :
    store.Inv format piDigest sessionId := by
  refine ⟨hisOf, fun hnone => ?_, fun known' hknown' => ?_⟩
  · cases hknown.symm.trans hnone
  · cases hknown.symm.trans hknown'
    exact ⟨session, saved, hsession, hin⟩

lemma Inv.turn {mutation : SessionMutation} (h : store.Inv format piDigest sessionId)
    (hstep : store.step format piDigest sessionId (.turn mutation) = some store') :
    store'.Inv format piDigest sessionId := by
  obtain ⟨session, hsession, hstep⟩ := Option.bind_eq_some_iff.mp hstep
  obtain ⟨messages, hmessages, hstep⟩ := Option.bind_eq_some_iff.mp hstep
  obtain ⟨session', happly, rfl⟩ := Option.map_eq_some_iff.mp hstep
  obtain ⟨known, saved, hknown, hin⟩ := h.inStep_of_session hsession
  have hmut : session.MutatesTo session' := by
    refine SessionMutation.apply_mutatesTo happly ?_
    rintro createdAt rfl
    cases hmessages
  refine inv_of_inStep h.isOf hknown rfl
    ⟨hmut.id.trans hin.id, hin.storedIn.mutatesTo hmut, ?_, hin.imported⟩
  rw [messages_of_appendedMessages hmessages happly, hin.pending, List.append_assoc]

lemma Inv.save {run : SaveRun} (h : store.Inv format piDigest sessionId)
    (hstep : store.step format piDigest sessionId (.save run) = some store') :
    store'.Inv format piDigest sessionId := by
  obtain ⟨session, hsession, rfl⟩ := Option.map_eq_some_iff.mp hstep
  obtain ⟨known, saved, hknown, hin⟩ := h.inStep_of_session hsession
  have hstored := save_storedIn run (.inr ⟨saved, hin.storedIn⟩)
  obtain ⟨external, imported, hperm, hall, hmessages⟩ := hin.imported
  refine inv_of_inStep h.isOf hknown rfl
    ⟨hstored.tracks.id.trans hin.id, hstored, ?_, external, imported, hperm, hall, ?_⟩
  · have hsame := save_toPersistedSession format store.files session run
    exact (congrArg PersistedSession.messages hsame).trans (List.append_nil _).symm
  · change session.messages = _
    rw [hin.pending, hmessages, List.append_assoc]

lemma Inv.resume {run : ImportRun} (hformat : format.Lawful)
    (h : store.Inv format piDigest sessionId) (hharmless : store.Harmless (.resume run))
    (hstep : store.step format piDigest sessionId (.resume run) = some store') :
    store'.Inv format piDigest sessionId := by
  cases htranscript : store.transcript with
  | none =>
    rw [step_resume_of_none htranscript] at hstep
    cases hstep
    exact h
  | some transcript =>
    obtain ⟨hnone, hids⟩ := hharmless transcript htranscript
    obtain ⟨read, hread, hperm⟩ := transcript.exists_read hids
    obtain ⟨files, saved, hresume, hstored, hid, hall⟩ :=
      exists_step_resume hformat piDigest store htranscript (h.isOf _ htranscript) hread run
    cases hresume.symm.trans hstep
    refine ⟨h.isOf, by simp, fun known hknown => ?_⟩
    cases hknown
    refine ⟨_, saved, rfl, hid, hstored, (List.append_nil _).symm, read, saved.messages,
      hperm, hall, ?_⟩
    exact (congrArg (saved.messages ++ ·) hnone).symm ▸ (List.append_nil _).symm

lemma Inv.external {transcript : Option (ExternalTranscript source)}
    (h : store.Inv format piDigest sessionId)
    (hstep : store.step format piDigest sessionId (.external transcript) = some store') :
    store'.Inv format piDigest sessionId := by
  rw [step] at hstep
  split_ifs at hstep with hof
  cases hstep
  refine ⟨hof, h.fresh, fun known hknown => ?_⟩
  obtain ⟨session, saved, hsession, hin⟩ := h.inStep known hknown
  exact ⟨session, saved, hsession, hin.id, hin.storedIn, hin.pending, hin.imported⟩

lemma step_inv (hformat : format.Lawful) (step : ImportStep source)
    (h : store.Inv format piDigest sessionId) (hharmless : store.Harmless step)
    (hstep : store.step format piDigest sessionId step = some store') :
    store'.Inv format piDigest sessionId := by
  cases step with
  | external transcript => exact h.external hstep
  | resume run => exact h.resume hformat hharmless hstep
  | turn mutation => exact h.turn hstep
  | save run => exact h.save hstep

/-- A session in step with the files is stored with everything that was appended and saved. -/
lemma Inv.keepsWork (hformat : format.Lawful) (h : store.Inv format piDigest sessionId) :
    store.KeepsWork format piDigest sessionId := by
  intro known hknown
  obtain ⟨session, saved, hsession, hin⟩ := h.inStep known hknown
  obtain ⟨external, imported, hperm, hall, hmessages⟩ := hin.imported
  have hload := hin.storedIn.loadFromPath hformat
  rw [hin.id] at hload
  refine ⟨loadedSession saved, congrArg Prod.fst hload, ?_, external, imported, hperm, hall, ?_⟩
  · change store.appended.Sublist saved.messages
    rw [hmessages]
    exact List.sublist_append_right _ _
  · exact .of_eq hmessages

/-- A harmless resume returns. -/
lemma Inv.isSome_resume (hformat : format.Lawful) (h : store.Inv format piDigest sessionId)
    {run : ImportRun} (hharmless : store.Harmless (.resume run)) :
    (store.step format piDigest sessionId (.resume run)).isSome := by
  cases htranscript : store.transcript with
  | none =>
    rw [step_resume_of_none htranscript]
    rfl
  | some transcript =>
    obtain ⟨-, hids⟩ := hharmless transcript htranscript
    obtain ⟨read, hread, -⟩ := transcript.exists_read hids
    obtain ⟨files, saved, hresume, -⟩ :=
      exists_step_resume hformat piDigest store htranscript (h.isOf _ htranscript) hread run
    rw [hresume]
    rfl

variable {files : Directory} {steps : List (ImportStep source)}

/-- If the session is only imported before anything is appended to it and saved, then all work on it
is kept, and every resume returns. -/
theorem keepsWork_of_harmless (hformat : format.Lawful)
    (hsteps : Guarded (step format piDigest sessionId) Harmless (new source files) steps)
    (hrun : exec (step format piDigest sessionId) (new source files) steps = some store) :
    store.KeepsWork format piDigest sessionId ∧
      ∀ run, store.Harmless (.resume run) →
        (store.step format piDigest sessionId (.resume run)).isSome := by
  have hinv : store.Inv format piDigest sessionId :=
    exec_invariant_of_guarded
      (fun _ step _ h hharmless hstep => step_inv hformat step h hharmless hstep)
      hsteps (inv_new files) hrun
  exact ⟨hinv.keepsWork hformat, fun run hharmless => hinv.isSome_resume hformat hharmless⟩

/-! ### Work that is lost -/

/-- A session is imported, a message is appended, and the session is saved. -/
def workSteps (transcript : ExternalTranscript source) (run : ImportRun) (message : StoredMessage) :
    List (ImportStep source) :=
  [.external (some transcript), .resume run, .turn (.appendStoredMessage message), .save run.save]

lemma exists_worked (hformat : format.Lawful) (piDigest : String → String)
    (hof : transcript.IsOf sessionId) (hread : transcript.read = some read) (run : ImportRun)
    (message : StoredMessage) :
    ∃ store, exec (step format piDigest sessionId) (new source files)
        (workSteps transcript run message) = some store ∧
      store.transcript = some transcript ∧ store.appended = [message] := by
  have hexternal : (new source files).step format piDigest sessionId (.external (some transcript)) =
      some { new source files with transcript := some transcript } :=
    if_pos fun t ht => by cases ht; exact hof
  obtain ⟨files', saved, hresume, -⟩ := exists_step_resume hformat piDigest
    { new source files with transcript := some transcript } rfl hof hread run
  simp only [workSteps, exec, hexternal, hresume]
  exact ⟨_, rfl, rfl, rfl⟩

/-- A resume after work was saved loses it. -/
lemma not_keepsWork_of_resume (hformat : format.Lawful)
    (htranscript : store.transcript = some transcript) (hof : transcript.IsOf sessionId)
    (hids : transcript.HasOwnIds) (happended : store.appended ≠ []) (run : ImportRun) :
    ∃ store', store.step format piDigest sessionId (.resume run) = some store' ∧
      ¬ store'.KeepsWork format piDigest sessionId := by
  obtain ⟨read, hread, hperm⟩ := transcript.exists_read hids
  obtain ⟨files, saved, hresume, hstored, hid, hall⟩ :=
    exists_step_resume hformat piDigest store htranscript hof hread run
  refine ⟨_, hresume, fun hkeeps => happended ?_⟩
  obtain ⟨session, hload, -, external, imported, hperm', hall', hmessages⟩ := hkeeps _ rfl
  have hsaved := hstored.loadFromPath hformat
  have hpath : (loadedSession saved).id = importedSessionId piDigest source sessionId := hid
  rw [hpath] at hsaved
  have hsession : session = loadedSession saved :=
    Option.some.inj (hload.symm.trans (congrArg Prod.fst hsaved))
  have hlen : saved.messages.length = (imported ++ store.appended).length := by
    rw [← hmessages.length_eq, hsession]
    rfl
  have hread := hall.length_eq
  have hexternal := hall'.length_eq
  rw [List.length_append] at hlen
  rw [hperm.length_eq] at hread
  rw [hperm'.length_eq] at hexternal
  exact List.length_eq_zero_iff.mp (by omega)

end ImportStore

/-- A session of Codex with one message. -/
def codexTranscript : ExternalTranscript .codex :=
  .codex ⟨none, none, none, none, none, 0, none⟩ [⟨"user", "hello", none⟩]

def codexRun : ImportRun := ⟨savedAt 1, fun _ => "msg", none, none, false, none⟩

def workMessage : StoredMessage := ⟨"m", .user, [.text "work" none], none, none, none, none⟩

open ImportStore

lemma guarded_workSteps {format : SessionFormat} {piDigest : String → String} {sessionId : String}
    {files : Directory} : Guarded (step format piDigest sessionId) Harmless (new .codex files)
      (workSteps codexTranscript codexRun workMessage) := by
  refine ⟨trivial, fun store hstore => ⟨fun transcript htranscript => ?_, fun store _ => ?_⟩⟩
  · rw [step] at hstore
    split_ifs at hstore
    cases hstore
    cases htranscript
    exact ⟨rfl, trivial⟩
  · exact ⟨trivial, fun _ _ => ⟨trivial, fun _ _ => trivial⟩⟩

theorem keepsWork_of_harmless_workSteps :
    ∃ store, exec (step helloFormat id "id") (new .codex fun _ => none)
        (workSteps codexTranscript codexRun workMessage) = some store ∧
      store.KeepsWork helloFormat id "id" := by
  have hof : codexTranscript.IsOf "id" := by rintro _ ⟨⟩
  obtain ⟨store, hrun, -⟩ := exists_worked helloFormat_lawful id hof rfl codexRun workMessage
  exact ⟨store, hrun, (keepsWork_of_harmless helloFormat_lawful guarded_workSteps hrun).1⟩

theorem not_keepsWork : ¬ ∀ (format : SessionFormat) (piDigest : String → String)
    (source : ExternalSource) (sessionId : String) (files : Directory)
    (steps : List (ImportStep source)) (store : ImportStore source), format.Lawful →
      exec (step format piDigest sessionId) (new source files) steps = some store →
        store.KeepsWork format piDigest sessionId := by
  intro h
  have hof : codexTranscript.IsOf "id" := by rintro _ ⟨⟩
  obtain ⟨store, hrun, htranscript, happended⟩ :=
    exists_worked helloFormat_lawful id hof rfl codexRun workMessage
  have hne : store.appended ≠ [] := by
    rw [happended]
    exact List.cons_ne_nil _ _
  obtain ⟨store', hresume, hlost⟩ :=
    not_keepsWork_of_resume helloFormat_lawful htranscript hof trivial hne codexRun
  refine hlost (h helloFormat id .codex "id" (fun _ => none)
    (workSteps codexTranscript codexRun workMessage ++ [.resume codexRun]) store'
      helloFormat_lawful ?_)
  rw [exec_snoc hrun, hresume]

end Jcode
