import Jcode.Foundation.Run
import Jcode.Session.Tracking

/-!
# Save and load round trips

Along every run of mutations, saves and loads, the files of a session hold what it was when it was
saved last: the snapshot with the journal replayed over it.
-/

namespace Jcode

open LineLog Schedule

/-! ### Paths -/

lemma sessionJournalPath_ne (sessionId extension : String) :
    sessionJournalPath sessionId ≠ (sessionPath sessionId).withExtension extension := by
  intro h
  have hlen := congrArg (fun path => path.stem.length) h
  simp [sessionJournalPath, sessionJournalPathFromSnapshot, sessionPath,
    FileName.withExtension] at hlen

lemma sessionPath_ne_journal {sessionId : String} :
    sessionPath sessionId ≠ sessionJournalPath sessionId :=
  fun h => sessionJournalPath_ne sessionId "json" h.symm

variable {format : SessionFormat} {fs : Directory} {sessionId : String} {session : Session}
  {base : PersistedSession} {entries : List SessionJournalEntry} {run : SaveRun}

lemma SaveRun.tmp_ne (run : SaveRun) (extension : String)
    (h : extension.toList.head? ≠ some 't') : extension ≠ run.tmp := (tmpExtension_ne h).symm

/-! ### Checkpoints -/

/-- The directory after the snapshot was written. -/
lemma writeSnapshot_apply {bytes : Bytes} (other : FileName) :
    writeBytesInner fs (sessionPath sessionId) run.tmp bytes other =
      if other = (sessionPath sessionId).withExtension run.tmp then none
      else if other = sessionPath sessionId then some bytes
      else if other = (sessionPath sessionId).withExtension "bak" then
        (fs (sessionPath sessionId)).or (fs ((sessionPath sessionId).withExtension "bak"))
      else fs other :=
  writeBytesInner_apply (run.tmp_ne "json" (by decide)) (run.tmp_ne "bak" (by decide))
    (show "json" ≠ "bak" by decide)

lemma writeSnapshot_snapshot {bytes : Bytes} :
    writeBytesInner fs (sessionPath sessionId) run.tmp bytes (sessionPath sessionId) =
      some bytes := by
  have htmp : sessionPath sessionId ≠ (sessionPath sessionId).withExtension run.tmp :=
    mt FileName.eq_withExtension.mp (run.tmp_ne "json" (by decide))
  rw [writeSnapshot_apply, if_neg htmp, if_pos rfl]

lemma writeSnapshot_journal {bytes : Bytes} :
    writeBytesInner fs (sessionPath sessionId) run.tmp bytes (sessionJournalPath sessionId) =
      fs (sessionJournalPath sessionId) := by
  rw [writeSnapshot_apply, if_neg (sessionJournalPath_ne sessionId _),
    if_neg sessionPath_ne_journal.symm, if_neg (sessionJournalPath_ne sessionId _)]

lemma removeJournal_journal :
    removeJournal fs sessionId (sessionJournalPath sessionId) = none := by
  unfold removeJournal Directory.pathExists
  cases h : fs (sessionJournalPath sessionId) with
  | none => simpa using h
  | some content => simp [Directory.remove]

lemma removeJournal_snapshot :
    removeJournal fs sessionId (sessionPath sessionId) = fs (sessionPath sessionId) := by
  unfold removeJournal
  split_ifs
  · exact Function.update_of_ne sessionPath_ne_journal _ _
  · rfl

lemma checkpointSnapshot_journal (format : SessionFormat) (fs : Directory) (session : Session)
    (tmp : String) :
    (checkpointSnapshot format fs session tmp).2 (sessionJournalPath session.id) = none :=
  removeJournal_journal

/-- A checkpoint leaves a snapshot of the session and no journal. -/
lemma checkpointSnapshot_storedAt (format : SessionFormat) (fs : Directory) (session : Session)
    (run : SaveRun) :
    StoredAt format (checkpointSnapshot format fs session run.tmp).2 session.id
      session.toPersistedSession [] where
  snapshot := removeJournal_snapshot.trans writeSnapshot_snapshot
  journal := by
    rw [checkpointSnapshot_journal]
    rfl

/-! ### Appends -/

/-- A line that was completely written is one more entry. -/
lemma StoredAt.append (h : StoredAt format fs sessionId base entries)
    (entry : SessionJournalEntry) :
    StoredAt format (appendJsonLineFast fs (sessionJournalPath sessionId) (entryBytes format entry)
      .written) sessionId base (entries ++ [entry]) where
  snapshot := (Function.update_of_ne sessionPath_ne_journal _ _).trans h.snapshot
  journal := by
    simp only [appendJsonLineFast, appendBytes, Directory.write, Function.update_self,
      Option.getD_some, h.journal, List.map_append, frame_append]
    simp [frame]

/-! ### Saves -/

lemma SaveRun.mutatesTo_touch (run : SaveRun) (session : Session) :
    session.MutatesTo (run.touch session) :=
  { Session.MutatesTo.refl session with }

/-- The three ways in which a save starts. -/
lemma startSave_cases (format : SessionFormat) (fs : Directory) (session : Session)
    (run : SaveRun) :
    ((run.touch session).needsSnapshot = true ∧
      startSave format fs session run = ⟨run.touch session, fs, true⟩) ∨
    ((run.touch session).needsSnapshot = false ∧ run.append = .written ∧
      startSave format fs session run =
        let files := appendJsonLineFast fs (sessionJournalPath session.id)
          (entryBytes format (run.touch session).journalEntry) .written
        ⟨(run.touch session).resetPersistState true, files, decide (MAX_SESSION_JOURNAL_BYTES <
          files.fileLenOrZero (sessionJournalPath session.id))⟩) ∨
    ((run.touch session).needsSnapshot = false ∧ run.append ≠ .written ∧
      startSave format fs session run =
        ⟨run.touch session, appendJsonLineFast fs (sessionJournalPath session.id)
          (entryBytes format (run.touch session).journalEntry) run.append, true⟩) := by
  cases hneeds : (run.touch session).needsSnapshot with
  | true => exact .inl ⟨rfl, by simp only [startSave, hneeds, if_true]⟩
  | false =>
    simp only [startSave, hneeds, Bool.false_eq_true, if_false]
    cases run.append with
    | written => exact .inr (.inl ⟨trivial, rfl, rfl⟩)
    | openFailed => exact .inr (.inr ⟨trivial, by simp, rfl⟩)
    | writeFailed written => exact .inr (.inr ⟨trivial, by simp, rfl⟩)

lemma vectorsNeedSnapshot_of_not_needsSnapshot (h : session.needsSnapshot = false) :
    session.vectorsNeedSnapshot = false :=
  (Bool.or_eq_false_iff.mp h).2

/-- A save stores the session with the time of the save. -/
lemma save_toPersistedSession (format : SessionFormat) (fs : Directory) (session : Session)
    (run : SaveRun) :
    (save format fs session run).1.toPersistedSession =
      (run.touch session).toPersistedSession := by
  simp only [save]
  rcases startSave_cases format fs session run with
    ⟨-, hstart⟩ | ⟨-, -, hstart⟩ | ⟨-, -, hstart⟩
  all_goals
    rw [hstart]
    split_ifs <;> rfl

/-! ### What the files hold -/

/-- The files hold `saved`, and the session remembers that. -/
structure Session.StoredIn (format : SessionFormat) (fs : Directory) (session : Session)
    (saved : PersistedSession) : Prop where
  tracks : session.Tracks saved
  stored : ∃ base entries, StoredAt format fs session.id base entries ∧
    base.replay entries = saved

namespace Session.StoredIn

variable {saved : PersistedSession}

lemma loadFromPath (h : session.StoredIn format fs saved) (hformat : format.Lawful) :
    loadFromPath format fs (sessionPath session.id) = (some (loadedSession saved), fs) := by
  obtain ⟨base, entries, hstored, rfl⟩ := h.stored
  exact hstored.loadFromPath hformat

/-- The loaded session remembers what it was loaded from. -/
lemma loadedSession (h : session.StoredIn format fs saved) :
    (loadedSession saved).StoredIn format fs saved := by
  obtain ⟨base, entries, hstored, hreplay⟩ := h.stored
  refine ⟨tracks_resetPersistState _ _, base, entries, ?_, hreplay⟩
  rw [h.tracks.id] at hstored
  exact hstored

lemma mutatesTo {session' : Session} (h : session.StoredIn format fs saved)
    (hmut : session.MutatesTo session') : session'.StoredIn format fs saved := by
  refine ⟨h.tracks.mutatesTo hmut, ?_⟩
  rw [hmut.id]
  exact h.stored

end Session.StoredIn

lemma PersistedSession.replay_append_singleton (entry : SessionJournalEntry) :
    base.replay (entries ++ [entry]) = (base.replay entries).applyJournalEntry entry :=
  List.foldl_append ..

lemma checkpointSnapshot_storedIn (format : SessionFormat) (fs : Directory) (session : Session)
    (run : SaveRun) :
    (checkpointSnapshot format fs session run.tmp).1.StoredIn format
      (checkpointSnapshot format fs session run.tmp).2 session.toPersistedSession :=
  ⟨session.tracks_resetPersistState true, _, [], checkpointSnapshot_storedAt .., rfl⟩

/-- A completed append leaves the files with the session. -/
lemma append_storedIn {saved : PersistedSession} (h : session.StoredIn format fs saved)
    (hneeds : session.vectorsNeedSnapshot = false) :
    (session.resetPersistState true).StoredIn format
      (appendJsonLineFast fs (sessionJournalPath session.id)
        (entryBytes format session.journalEntry) .written) session.toPersistedSession := by
  obtain ⟨base, entries, hstored, hreplay⟩ := h.stored
  refine ⟨session.tracks_resetPersistState true, base, entries ++ [session.journalEntry],
    hstored.append _, ?_⟩
  rw [PersistedSession.replay_append_singleton, hreplay, h.tracks.applyJournalEntry hneeds]

/-- Whichever way a save goes, the files then hold the session. -/
theorem save_storedIn (run : SaveRun)
    (h : session.persistState.snapshotExists = false ∨ ∃ saved, session.StoredIn format fs saved) :
    (save format fs session run).1.StoredIn format (save format fs session run).2
      (run.touch session).toPersistedSession := by
  simp only [save]
  rcases startSave_cases format fs session run with
    ⟨-, hstart⟩ | ⟨hneeds, -, hstart⟩ | ⟨-, -, hstart⟩
  · rw [hstart, if_pos rfl]
    exact checkpointSnapshot_storedIn ..
  · rw [hstart]
    split_ifs
    · exact checkpointSnapshot_storedIn format _ ((run.touch session).resetPersistState true) run
    · have hvectors := vectorsNeedSnapshot_of_not_needsSnapshot hneeds
      obtain hnew | ⟨saved, hsaved⟩ := h
      · have hexists := (Session.modes_of_not_vectorsNeedSnapshot hvectors).1
        exact absurd (hexists.symm.trans hnew) (by decide)
      · exact append_storedIn (hsaved.mutatesTo (run.mutatesTo_touch session)) hvectors
  · rw [hstart, if_pos rfl]
    exact checkpointSnapshot_storedIn ..

/-! ### Runs -/

/-- A session with its directory; `saved` is what it was when it was saved or loaded last. -/
structure SessionStore where
  session : Session
  files : Directory
  saved : Option PersistedSession

inductive SessionStep
  | mutate (mutation : SessionMutation)
  | save (run : SaveRun)
  | load

namespace SessionStore

def step (format : SessionFormat) (store : SessionStore) : SessionStep → Option SessionStore
  | .mutate mutation => (mutation.apply store.session).map fun session => { store with session }
  | .save run =>
    let result := save format store.files store.session run
    some ⟨result.1, result.2, some result.1.toPersistedSession⟩
  | .load =>
    let loaded := loadFromPath format store.files (sessionPath store.session.id)
    loaded.1.map fun session => ⟨session, loaded.2, some session.toPersistedSession⟩

/-- The order of a session's life: the time of creation is set before the first save, and only
what was saved is loaded. -/
def Allowed (store : SessionStore) : SessionStep → Prop
  | .mutate (.setCreatedAt _) => store.saved = none
  | .load => store.saved ≠ none
  | _ => True

/-- A session that was not saved will write a snapshot; otherwise the files hold what was
saved. -/
def Inv (format : SessionFormat) (store : SessionStore) : Prop :=
  match store.saved with
  | none => store.session.persistState.snapshotExists = false
  | some saved => store.session.StoredIn format store.files saved

variable {store store' : SessionStore}

lemma Inv.storedIn (h : store.Inv format) :
    store.session.persistState.snapshotExists = false ∨
      ∃ saved, store.session.StoredIn format store.files saved := by
  unfold Inv at h
  split at h
  · exact .inl h
  · exact .inr ⟨_, h⟩

lemma Inv.mutatesTo {session' : Session} (h : store.Inv format)
    (hmut : store.session.MutatesTo session') : Inv format { store with session := session' } := by
  unfold Inv at h ⊢
  cases hsaved : store.saved with
  | none =>
    simp only [hsaved] at h ⊢
    exact hmut.snapshotExists.trans h
  | some saved =>
    simp only [hsaved] at h ⊢
    exact h.mutatesTo hmut

/-- Every step of a session's life keeps its files in step with it. -/
lemma step_inv (hformat : format.Lawful) (step : SessionStep) (h : store.Inv format)
    (hallowed : store.Allowed step) (hstep : store.step format step = some store') :
    store'.Inv format := by
  cases step with
  | mutate mutation =>
    obtain ⟨session', happly, rfl⟩ := Option.map_eq_some_iff.mp hstep
    by_cases hcreated : ∃ createdAt, mutation = .setCreatedAt createdAt
    · obtain ⟨createdAt, rfl⟩ := hcreated
      cases happly
      have hnone : store.saved = none := hallowed
      simp only [Inv, hnone] at h ⊢
      exact h
    · exact h.mutatesTo (SessionMutation.apply_mutatesTo happly (not_exists.mp hcreated))
  | save run =>
    cases hstep
    have hstored := save_storedIn run h.storedIn
    rw [← save_toPersistedSession format store.files store.session run] at hstored
    exact hstored
  | load =>
    obtain ⟨saved, hsaved⟩ := Option.ne_none_iff_exists'.mp hallowed
    simp only [Inv, hsaved] at h
    simp only [SessionStore.step, h.loadFromPath hformat, Option.map_some,
      Option.some.injEq] at hstep
    rw [← hstep]
    exact h.loadedSession

end SessionStore

variable {files : Directory} {steps : List SessionStep} {store store' : SessionStore}

/-- A session that was never saved may find any files. -/
lemma SessionStore.inv_new (hnew : session.persistState.snapshotExists = false)
    (files : Directory) : Inv format ⟨session, files, none⟩ :=
  hnew

/-- Along a run the files hold what was saved last. -/
theorem SessionStore.exec_inv (hformat : format.Lawful) (h : store.Inv format)
    (hsteps : Guarded (SessionStore.step format) SessionStore.Allowed store steps)
    (hrun : exec (SessionStore.step format) store steps = some store') : store'.Inv format :=
  exec_invariant_of_guarded
    (fun _ step _ h hallowed hstep => step_inv hformat step h hallowed hstep) hsteps h hrun

/-- What a load reads right after a save. -/
def loadAfterSave (format : SessionFormat) (fs : Directory) (session : Session) (run : SaveRun) :
    Option PersistedSession :=
  let result := save format fs session run
  (loadFromPath format result.2 (sessionPath result.1.id)).1.map (·.toPersistedSession)

/-- What a save after a run has written, a load reads back: every persisted field of the
session. -/
theorem loadAfterSave_eq (hformat : format.Lawful)
    (hnew : session.persistState.snapshotExists = false)
    (hsteps : Guarded (SessionStore.step format) SessionStore.Allowed ⟨session, files, none⟩ steps)
    (hrun : exec (SessionStore.step format) ⟨session, files, none⟩ steps = some store)
    (run : SaveRun) :
    loadAfterSave format store.files store.session run =
      some (save format store.files store.session run).1.toPersistedSession := by
  have hinv := SessionStore.exec_inv hformat (SessionStore.inv_new hnew files) hsteps hrun
  have hload := (save_storedIn run hinv.storedIn).loadFromPath hformat
  rw [← save_toPersistedSession format store.files store.session run] at hload
  simp only [loadAfterSave, hload, Option.map_some]
  rfl

/-! ### Example runs -/

/-- A save in snapshot mode. -/
lemma save_eq_checkpoint (hneeds : (run.touch session).needsSnapshot = true) :
    save format fs session run =
      checkpointSnapshot format fs (run.touch session) run.tmp := by
  simp only [save, startSave, hneeds, if_true]

/-- A save in append mode, which is one that makes no checkpoint. -/
lemma save_eq_append (h : (startSave format fs session run).checkpoint = false) :
    (run.touch session).needsSnapshot = false ∧
      save format fs session run =
        ((run.touch session).resetPersistState true,
          appendJsonLineFast fs (sessionJournalPath session.id)
            (entryBytes format (run.touch session).journalEntry) .written) := by
  simp only [save, h]
  rcases startSave_cases format fs session run with
    ⟨-, hstart⟩ | ⟨hneeds, -, hstart⟩ | ⟨-, -, hstart⟩
  · rw [hstart] at h
    exact absurd h (by simp)
  · rw [hstart]
    exact ⟨hneeds, rfl⟩
  · rw [hstart] at h
    exact absurd h (by simp)

/-- An append to a short journal makes no checkpoint. -/
lemma startSave_checkpoint (hneeds : (run.touch session).needsSnapshot = false)
    (happend : run.append = .written)
    (hlen : ((fs (sessionJournalPath session.id)).getD []).length +
      (entryBytes format (run.touch session).journalEntry).length < MAX_SESSION_JOURNAL_BYTES) :
    (startSave format fs session run).checkpoint = false := by
  rcases startSave_cases format fs session run with
    ⟨htrue, -⟩ | ⟨-, -, hstart⟩ | ⟨-, hne, -⟩
  · exact absurd (hneeds.symm.trans htrue) (by decide)
  · rw [hstart]
    simp only [appendJsonLineFast, appendBytes, Directory.fileLenOrZero, Directory.write,
      Function.update_self, Option.map_some, Option.getD_some, List.length_append,
      List.length_singleton, decide_eq_false_iff_not]
    omega
  · exact absurd happend hne

def savedAt (now : Nat) : SaveRun := ⟨now, 1, now, .written⟩

def newSession : Session := .createWithId "session" none none none none false 1 0

/-- The new session after its first save. -/
def savedSession : Session := ((savedAt 1).touch newSession).resetPersistState true

/-- The files after the first save. -/
noncomputable def savedFiles (format : SessionFormat) : Directory :=
  (checkpointSnapshot format (fun _ => none) ((savedAt 1).touch newSession) (savedAt 1).tmp).2

lemma save_newSession :
    save format (fun _ => none) newSession (savedAt 1) = (savedSession, savedFiles format) :=
  save_eq_checkpoint (by decide)

lemma savedFiles_storedAt (format : SessionFormat) :
    StoredAt format (savedFiles format) "session" savedSession.toPersistedSession [] :=
  checkpointSnapshot_storedAt format (fun _ => none) ((savedAt 1).touch newSession) (savedAt 1)

lemma savedFiles_journal (format : SessionFormat) :
    savedFiles format (sessionJournalPath "session") = none :=
  checkpointSnapshot_journal format (fun _ => none) ((savedAt 1).touch newSession) _

/-- A second save, after changes that do not need a snapshot, appends its entry. -/
lemma save_savedFiles {session : Session} {entry : SessionJournalEntry}
    (hid : session.id = "session")
    (hneeds : ((savedAt 2).touch session).needsSnapshot = false)
    (hentry : ((savedAt 2).touch session).journalEntry = entry) :
    save (unaryFormat entry) (savedFiles (unaryFormat entry)) session (savedAt 2) =
      (((savedAt 2).touch session).resetPersistState true,
        appendJsonLineFast (savedFiles (unaryFormat entry)) (sessionJournalPath "session")
          (entryBytes (unaryFormat entry) entry) .written) := by
  subst hentry
  rw [← hid]
  refine (save_eq_append (startSave_checkpoint hneeds rfl ?_)).2
  rw [hid, savedFiles_journal, entryBytes_unaryFormat]
  decide

/-- After the first save an event is recorded. -/
def helloSession : Session := savedSession.recordReplayDisplayMessage "user" none "hello" 2

/-- The entry which the second save appends. -/
def helloEntry : SessionJournalEntry := ((savedAt 2).touch helloSession).journalEntry

noncomputable def helloFormat : SessionFormat := unaryFormat helloEntry

lemma helloFormat_lawful : helloFormat.Lawful := unaryFormat_lawful helloEntry

lemma helloFormat_rejectsTorn : helloFormat.entry.RejectsTorn := unaryFormat_rejectsTorn helloEntry

/-- The time of creation is changed after the first save. -/
def redatedSession : Session := { savedSession with createdAt := 1 }

/-- The entry which the second save appends. -/
def redatedEntry : SessionJournalEntry := ((savedAt 2).touch redatedSession).journalEntry

/-- A new session gets its time of creation, is saved, and goes on. -/
def importSteps : List SessionStep :=
  [.mutate (.setCreatedAt 1), .save (savedAt 1),
    .mutate (.recordReplayDisplayMessage "user" none "hello" 2)]

lemma guarded_importSteps (format : SessionFormat) :
    Guarded (SessionStore.step format) SessionStore.Allowed ⟨newSession, fun _ => none, none⟩
      importSteps :=
  ⟨rfl, fun _ _ => ⟨trivial, fun _ _ => ⟨trivial, fun _ _ => trivial⟩⟩⟩

/-- A later event is appended and read back. -/
theorem loadAfterSave_eq_importSteps :
    ∃ store, exec (SessionStore.step (unaryFormat redatedEntry)) ⟨newSession, fun _ => none, none⟩
        importSteps = some store ∧
      loadAfterSave (unaryFormat redatedEntry) store.files store.session (savedAt 3) =
        some (save (unaryFormat redatedEntry) store.files store.session
          (savedAt 3)).1.toPersistedSession :=
  ⟨_, rfl, loadAfterSave_eq (unaryFormat_lawful _) (show newSession.persistState.snapshotExists =
    false from rfl) (guarded_importSteps _) rfl (savedAt 3)⟩

/-- A time of creation that is changed after the first save is lost. -/
theorem loadAfterSave_redated :
    (unaryFormat redatedEntry).Lawful ∧
    ∃ store, exec (SessionStore.step (unaryFormat redatedEntry)) ⟨newSession, fun _ => none, none⟩
        [.save (savedAt 1), .mutate (.setCreatedAt 1)] = some store ∧
      loadAfterSave (unaryFormat redatedEntry) store.files store.session (savedAt 2) ≠
        some (save (unaryFormat redatedEntry) store.files store.session
          (savedAt 2)).1.toPersistedSession := by
  have hload := ((savedFiles_storedAt (unaryFormat redatedEntry)).append redatedEntry).loadFromPath
    (unaryFormat_lawful _)
  refine ⟨unaryFormat_lawful _, ⟨redatedSession, savedFiles (unaryFormat redatedEntry),
    some savedSession.toPersistedSession⟩, ?_, ?_⟩
  · simp only [exec, SessionStore.step, save_newSession]
    rfl
  · intro h
    have hsave := save_savedFiles (show redatedSession.id = "session" from rfl) (by decide)
      (show _ = redatedEntry from rfl)
    have hid : (((savedAt 2).touch redatedSession).resetPersistState true).id = "session" := rfl
    simp only [loadAfterSave, hsave, hid, hload] at h
    have hcreated := congrArg (Option.map PersistedSession.createdAt) h
    exact absurd hcreated (by decide)

end Jcode
