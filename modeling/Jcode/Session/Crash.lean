import Jcode.Session.RoundTrip

/-!
# Crashes inside a checkpoint

A checkpoint replaces the snapshot first and removes the journal afterwards, and the journal does
not say which snapshot it continues. What a load makes of the files in between depends on which of
the two is old.
-/

namespace Jcode

open LineLog Schedule

variable {format : SessionFormat} {fs : Directory} {sessionId : String} {session : Session}
  {base stored : PersistedSession} {entries : List SessionJournalEntry} {run : SaveRun}

/-! ### The four vectors -/

/-- The same messages, environment snapshots, memory injections and replay events. -/
structure SameRecords (a b : PersistedSession) : Prop where
  messages : a.messages = b.messages
  envSnapshots : a.envSnapshots = b.envSnapshots
  memoryInjections : a.memoryInjections = b.memoryInjections
  replayEvents : a.replayEvents = b.replayEvents

/-- An entry with metadata only. -/
structure SessionJournalEntry.Empty (entry : SessionJournalEntry) : Prop where
  appendMessages : entry.appendMessages = []
  appendEnvSnapshots : entry.appendEnvSnapshots = []
  appendMemoryInjections : entry.appendMemoryInjections = []
  appendReplayEvents : entry.appendReplayEvents = []

namespace PersistedSession

/-- Replay appends what the entries carry. -/
lemma replay_vectors (base : PersistedSession) (entries : List SessionJournalEntry) :
    (base.replay entries).messages = base.messages ++ entries.flatMap (·.appendMessages) ∧
      (base.replay entries).envSnapshots =
        base.envSnapshots ++ entries.flatMap (·.appendEnvSnapshots) ∧
      (base.replay entries).memoryInjections =
        base.memoryInjections ++ entries.flatMap (·.appendMemoryInjections) ∧
      (base.replay entries).replayEvents =
        base.replayEvents ++ entries.flatMap (·.appendReplayEvents) := by
  induction entries generalizing base with
  | nil => simp [replay]
  | cons entry entries ih =>
    obtain ⟨h1, h2, h3, h4⟩ := ih (base.applyJournalEntry entry)
    simp only [replay, List.foldl_cons] at h1 h2 h3 h4 ⊢
    simp only [h1, h2, h3, h4, List.flatMap_cons]
    simp [applyJournalEntry, applyJournalMeta]

/-- Replaying the same entries keeps two sessions apart. -/
lemma sameRecords_replay_replay_iff :
    SameRecords (stored.replay entries) (base.replay entries) ↔ SameRecords stored base := by
  obtain ⟨h1, h2, h3, h4⟩ := replay_vectors stored entries
  obtain ⟨k1, k2, k3, k4⟩ := replay_vectors base entries
  constructor
  · rintro ⟨m, e, i, r⟩
    rw [h1, k1, List.append_left_inj] at m
    rw [h2, k2, List.append_left_inj] at e
    rw [h3, k3, List.append_left_inj] at i
    rw [h4, k4, List.append_left_inj] at r
    exact ⟨m, e, i, r⟩
  · rintro ⟨m, e, i, r⟩
    exact ⟨by rw [h1, k1, m], by rw [h2, k2, e], by rw [h3, k3, i], by rw [h4, k4, r]⟩

/-- Only entries that carry nothing leave the vectors alone. -/
lemma sameRecords_replay_self_iff :
    SameRecords (stored.replay entries) stored ↔ ∀ entry ∈ entries, entry.Empty := by
  obtain ⟨h1, h2, h3, h4⟩ := replay_vectors stored entries
  constructor
  · rintro ⟨m, e, i, r⟩ entry hentry
    rw [h1, List.append_right_eq_self, List.flatMap_eq_nil_iff] at m
    rw [h2, List.append_right_eq_self, List.flatMap_eq_nil_iff] at e
    rw [h3, List.append_right_eq_self, List.flatMap_eq_nil_iff] at i
    rw [h4, List.append_right_eq_self, List.flatMap_eq_nil_iff] at r
    exact ⟨m entry hentry, e entry hentry, i entry hentry, r entry hentry⟩
  · intro hempty
    constructor
    · rw [h1, List.flatMap_eq_nil_iff.mpr fun entry h => (hempty entry h).1, List.append_nil]
    · rw [h2, List.flatMap_eq_nil_iff.mpr fun entry h => (hempty entry h).2, List.append_nil]
    · rw [h3, List.flatMap_eq_nil_iff.mpr fun entry h => (hempty entry h).3, List.append_nil]
    · rw [h4, List.flatMap_eq_nil_iff.mpr fun entry h => (hempty entry h).4, List.append_nil]

end PersistedSession

lemma SameRecords.refl (a : PersistedSession) : SameRecords a a := ⟨rfl, rfl, rfl, rfl⟩


/-! ### Crash points -/

/-- Where `checkpoint_snapshot` stops: in the temporary file, between the two renames, or with the
new snapshot in place and the journal not removed. -/
inductive CheckpointCrash
  | writingTmp (written : Nat)
  | replacing
  | replaced
deriving DecidableEq

/-- The files a checkpoint leaves where it stops. -/
def crashFiles (format : SessionFormat) (fs : Directory) (session : Session) (tmp : String) :
    CheckpointCrash → Directory
  | .writingTmp written =>
    fs.write ((sessionPath session.id).withExtension tmp)
      ((snapshotBytes format session).take written)
  | .replacing =>
    backUp (fs.write ((sessionPath session.id).withExtension tmp) (snapshotBytes format session))
      (sessionPath session.id)
  | .replaced => writeBytesInner fs (sessionPath session.id) tmp (snapshotBytes format session)

/-- The checkpoint goes on from where it could have stopped. -/
lemma checkpointSnapshot_eq_crashFiles (tmp : String) :
    (checkpointSnapshot format fs session tmp).2 =
      removeJournal (crashFiles format fs session tmp .replaced) session.id ∧
    crashFiles format fs session tmp .replaced =
      (crashFiles format fs session tmp .replacing).rename
        ((sessionPath session.id).withExtension tmp) (sessionPath session.id) :=
  ⟨rfl, rfl⟩

/-- A save that stops in the checkpoint. -/
def crashSave (format : SessionFormat) (fs : Directory) (session : Session) (run : SaveRun)
    (crash : CheckpointCrash) : Option Directory :=
  let started := startSave format fs session run
  if started.checkpoint then some (crashFiles format started.files started.session run.tmp crash)
  else none

/-- The journal is not touched by any of them. -/
lemma crashFiles_journal (crash : CheckpointCrash) :
    crashFiles format fs session run.tmp crash (sessionJournalPath session.id) =
      fs (sessionJournalPath session.id) := by
  cases crash with
  | writingTmp written => exact Function.update_of_ne (sessionJournalPath_ne _ _) _ _
  | replacing =>
    rw [crashFiles, backUp_apply (show "json" ≠ "bak" by decide),
      if_neg sessionPath_ne_journal.symm, if_neg (sessionJournalPath_ne _ _)]
    exact Function.update_of_ne (sessionJournalPath_ne _ _) _ _
  | replaced => exact writeSnapshot_journal

/-- The snapshot is the old one, missing, or the new one. -/
lemma crashFiles_snapshot (format : SessionFormat) (fs : Directory) (session : Session)
    (run : SaveRun) (crash : CheckpointCrash) :
    crashFiles format fs session run.tmp crash (sessionPath session.id) =
      match crash with
      | .writingTmp _ => fs (sessionPath session.id)
      | .replacing => none
      | .replaced => some (snapshotBytes format session) := by
  cases crash with
  | writingTmp written =>
    exact Function.update_of_ne (mt FileName.eq_withExtension.mp (run.tmp_ne "json" (by decide)))
      _ _
  | replacing => rw [crashFiles, backUp_apply (show "json" ≠ "bak" by decide), if_pos rfl]
  | replaced => exact writeSnapshot_snapshot

/-! ### Before the checkpoint -/

lemma startSave_session (format : SessionFormat) (fs : Directory) (session : Session)
    (run : SaveRun) :
    (startSave format fs session run).session.toPersistedSession =
      (run.touch session).toPersistedSession := by
  rcases startSave_cases format fs session run with
    ⟨-, hstart⟩ | ⟨-, -, hstart⟩ | ⟨-, -, hstart⟩
  all_goals exact congrArg (·.session.toPersistedSession) hstart

lemma startSave_snapshot (format : SessionFormat) (fs : Directory) (session : Session)
    (run : SaveRun) :
    (startSave format fs session run).files (sessionPath session.id) =
      fs (sessionPath session.id) := by
  rcases startSave_cases format fs session run with
    ⟨-, hstart⟩ | ⟨-, -, hstart⟩ | ⟨-, -, hstart⟩
  · rw [hstart]
  · rw [hstart]
    exact Function.update_of_ne sessionPath_ne_journal _ _
  · rw [hstart]
    cases run.append with
    | openFailed => rfl
    | _ => exact Function.update_of_ne sessionPath_ne_journal _ _

/-- Whatever a failing append has written, a load reads the stored entries, the stored entries
and the new one, or nothing. -/
lemma readJournal_append (hformat : format.Lawful) (htorn : format.entry.RejectsTorn)
    (h : StoredAt format fs sessionId base entries) (entry : SessionJournalEntry)
    (append : AppendOutcome) :
    let journal := readJournal format
      (appendJsonLineFast fs (sessionJournalPath sessionId) (entryBytes format entry) append)
      (sessionJournalPath sessionId)
    journal = none ∨ journal = some entries ∨ journal = some (entries ++ [entry]) := by
  cases append with
  | written => exact .inr (.inr ((h.append entry).readJournal hformat))
  | openFailed => exact .inr (.inl (h.readJournal hformat))
  | writeFailed written =>
    by_cases hlen : written ≤ (entryBytes format entry).length
    · refine readJournal_torn hformat htorn ?_ (List.take_prefix written _)
      rw [appendJsonLineFast, List.take_append_of_le_length hlen]
      simp only [appendBytes, Directory.write, Function.update_self, Option.getD_some, h.journal]
    · have htake : (entryBytes format entry ++ [newline]).take written =
          entryBytes format entry ++ [newline] := by
        refine List.take_of_length_le ?_
        rw [List.length_append, List.length_singleton]
        omega
      rw [appendJsonLineFast, htake]
      exact .inr (.inr ((h.append entry).readJournal hformat))

/-- What a load can read of the journal when the checkpoint begins. -/
lemma readJournal_startSave (hformat : format.Lawful) (htorn : format.entry.RejectsTorn)
    (h : StoredAt format fs session.id base entries) (run : SaveRun) :
    let journal := readJournal format (startSave format fs session run).files
      (sessionJournalPath session.id)
    journal = none ∨ journal = some entries ∨
      (journal = some (entries ++ [(run.touch session).journalEntry]) ∧
        (run.touch session).needsSnapshot = false) := by
  have happend := readJournal_append hformat htorn h (run.touch session).journalEntry
  rcases startSave_cases format fs session run with
    ⟨-, hstart⟩ | ⟨hneeds, -, hstart⟩ | ⟨hneeds, -, hstart⟩
  · rw [hstart]
    exact .inr (.inl (h.readJournal hformat))
  · rw [hstart]
    exact (happend .written).imp_right (Or.imp_right fun h => ⟨h, hneeds⟩)
  · rw [hstart]
    exact (happend run.append).imp_right (Or.imp_right fun h => ⟨h, hneeds⟩)

/-! ### After the crash -/

/-- What has to hold of the files and the session when the checkpoint begins. -/
def CrashSafe (format : SessionFormat) (fs : Directory) (session : Session)
    (crash : CheckpointCrash) : Prop :=
  ∃ entries, readJournal format fs (sessionJournalPath session.id) = some entries ∧
    match crash with
    | .writingTmp _ => True
    | .replacing => False
    | .replaced => (∀ entry ∈ entries, entry.Empty) ∨
        ∃ base, (readJson format.snapshot.decode fs (sessionPath session.id)).1 = some base ∧
          SameRecords session.toPersistedSession base

/-- The loaded vectors are those of one of two sessions. -/
def LoadsEither (format : SessionFormat) (fs : Directory) (sessionId : String)
    (saved saving : PersistedSession) : Prop :=
  ∃ loaded, (loadFromPath format fs (sessionPath sessionId)).1 = some loaded ∧
    (SameRecords loaded.toPersistedSession saved ∨ SameRecords loaded.toPersistedSession saving)

lemma loadFromPath_missing (h : fs (sessionPath sessionId) = none) :
    (loadFromPath format fs (sessionPath sessionId)).1 = none := by
  simp [loadFromPath, readJson, h]

/-- With a snapshot in place, a load gives what can be read of the journal over it. -/
lemma loadsEither_iff (hformat : format.Lawful) {saved saving : PersistedSession}
    (h : fs (sessionPath sessionId) = some (utf8 (format.snapshot.encode base))) :
    LoadsEither format fs sessionId saved saving ↔
      ∃ entries, readJournal format fs (sessionJournalPath sessionId) = some entries ∧
        (SameRecords (base.replay entries) saved ∨ SameRecords (base.replay entries) saving) := by
  rw [LoadsEither, loadFromPath_snapshot hformat h]
  constructor
  · rintro ⟨loaded, hloaded, hsame⟩
    obtain ⟨entries, hentries, rfl⟩ := Option.map_eq_some_iff.mp hloaded
    exact ⟨entries, hentries, hsame⟩
  · rintro ⟨entries, hentries, hsame⟩
    exact ⟨_, congrArg (Option.map _) hentries, hsame⟩

/-- The old journal on the new snapshot: either the snapshot's vectors have not changed, or the
journal carries nothing. -/
lemma sameRecords_replay_iff {saved saving : PersistedSession} {entry : SessionJournalEntry}
    {read : List SessionJournalEntry} (hsaved : base.replay entries = saved)
    (hread : read = entries ∨
      (read = entries ++ [entry] ∧ saved.applyJournalEntry entry = saving)) :
    SameRecords (saving.replay read) saved ∨ SameRecords (saving.replay read) saving ↔
      (∀ entry ∈ read, entry.Empty) ∨ SameRecords saving base := by
  rw [PersistedSession.sameRecords_replay_self_iff]
  obtain rfl | ⟨rfl, hsaving⟩ := hread
  · rw [← hsaved, PersistedSession.sameRecords_replay_replay_iff, or_comm]
  · have hreplay : base.replay (entries ++ [entry]) = saving := by
      rw [PersistedSession.replay_append_singleton, hsaved, hsaving]
    constructor
    · rintro (hsame | hempty)
      · have hself : SameRecords (saved.replay (entry :: (entries ++ [entry]))) saved := by
          rw [PersistedSession.replay, List.foldl_cons, hsaving]
          exact hsame
        have hempty := PersistedSession.sameRecords_replay_self_iff.mp hself
        exact .inl fun e he => hempty e (List.mem_cons_of_mem _ he)
      · exact .inl hempty
    · rintro (hempty | hsame)
      · exact .inr hempty
      · rw [← hreplay, PersistedSession.sameRecords_replay_self_iff] at hsame
        exact .inr hsame

/-- What a checkpoint leaves where it stops, loads as one of the two sessions exactly if the crash
is safe. -/
lemma loadsEither_crashFiles_iff (hformat : format.Lawful) {saved : PersistedSession}
    {entry : SessionJournalEntry}
    (hsnapshot : fs (sessionPath session.id) = some (utf8 (format.snapshot.encode base)))
    (hsaved : base.replay entries = saved)
    (hread : ∀ read, readJournal format fs (sessionJournalPath session.id) = some read →
      read = entries ∨
        (read = entries ++ [entry] ∧ saved.applyJournalEntry entry = session.toPersistedSession))
    (run : SaveRun) (crash : CheckpointCrash) :
    LoadsEither format (crashFiles format fs session run.tmp crash) session.id saved
        session.toPersistedSession ↔ CrashSafe format fs session crash := by
  have hjournal : readJournal format (crashFiles format fs session run.tmp crash)
      (sessionJournalPath session.id) =
        readJournal format fs (sessionJournalPath session.id) := by
    rw [readJournal_eq, readJournal_eq, crashFiles_journal]
  have hfile := crashFiles_snapshot format fs session run crash
  have hbase := readJson_eq hsnapshot (hformat.snapshot_lossless base trivial)
  unfold CrashSafe
  cases crash with
  | writingTmp written =>
    rw [loadsEither_iff hformat (hfile.trans hsnapshot), hjournal]
    refine exists_congr fun read => and_congr_right fun hsome => iff_true_intro ?_
    obtain rfl | ⟨rfl, hsaving⟩ := hread read hsome
    · exact .inl (hsaved ▸ .refl _)
    · rw [PersistedSession.replay_append_singleton, hsaved, hsaving]
      exact .inr (.refl _)
  | replacing =>
    constructor
    · rintro ⟨loaded, hloaded, -⟩
      rw [loadFromPath_missing hfile] at hloaded
      exact absurd hloaded (by simp)
    · rintro ⟨_, _, hfalse⟩
      exact hfalse.elim
  | replaced =>
    rw [loadsEither_iff hformat hfile, hjournal]
    refine exists_congr fun read => and_congr_right fun hsome => ?_
    rw [sameRecords_replay_iff hsaved (hread read hsome), hbase]
    simp

/-! ### Runs -/

variable {files crashed : Directory} {steps : List SessionStep} {store : SessionStore}
  {saved : PersistedSession}

/-- After any run, a save that stops in its checkpoint leaves one of the two sessions exactly if
the crash is safe. -/
theorem loadsEither_crashSave_iff (hformat : format.Lawful) (htorn : format.entry.RejectsTorn)
    (hnew : session.persistState.snapshotExists = false)
    (hsteps : Guarded (SessionStore.step format) SessionStore.Allowed ⟨session, files, none⟩ steps)
    (hrun : exec (SessionStore.step format) ⟨session, files, none⟩ steps = some store)
    (hsaved : store.saved = some saved) (run : SaveRun) (crash : CheckpointCrash)
    (hcrash : crashSave format store.files store.session run crash = some crashed) :
    LoadsEither format crashed store.session.id saved
        (run.touch store.session).toPersistedSession ↔
      CrashSafe format (startSave format store.files store.session run).files
        (startSave format store.files store.session run).session crash := by
  have hinv := SessionStore.exec_inv hformat (SessionStore.inv_new hnew files) hsteps hrun
  simp only [SessionStore.Inv, hsaved] at hinv
  obtain ⟨base, entries, hstored, hreplay⟩ := hinv.stored
  have htracks := hinv.tracks.mutatesTo (run.mutatesTo_touch store.session)
  have hsession := startSave_session format store.files store.session run
  have hid : (startSave format store.files store.session run).session.id = store.session.id :=
    (congrArg PersistedSession.id hsession :)
  have hread : ∀ read, readJournal format (startSave format store.files store.session run).files
      (sessionJournalPath store.session.id) = some read →
      read = entries ∨ (read = entries ++ [(run.touch store.session).journalEntry] ∧
        saved.applyJournalEntry (run.touch store.session).journalEntry =
          (run.touch store.session).toPersistedSession) := by
    intro read hsome
    rcases readJournal_startSave hformat htorn hstored run with hnone | hold | ⟨hnext, hneeds⟩
    · exact absurd (hnone.symm.trans hsome) (by simp)
    · exact .inl (Option.some.inj (hsome.symm.trans hold))
    · exact .inr ⟨Option.some.inj (hsome.symm.trans hnext),
        htracks.applyJournalEntry (vectorsNeedSnapshot_of_not_needsSnapshot hneeds)⟩
  have hsnapshot := (startSave_snapshot format store.files store.session run).trans
    hstored.snapshot
  simp only [crashSave] at hcrash
  split_ifs at hcrash
  cases hcrash
  rw [← hid] at hread hsnapshot
  rw [← hsession] at hread ⊢
  rw [← hid]
  exact loadsEither_crashFiles_iff hformat hsnapshot hreplay hread run crash

/-! ### An example run -/

/-- The messages are replaced after the second save. -/
def rewrittenSession : Session :=
  (((savedAt 2).touch helloSession).resetPersistState true).replaceMessages []

noncomputable def helloFiles : Directory :=
  appendJsonLineFast (savedFiles helloFormat) (sessionJournalPath "session")
    (entryBytes helloFormat helloEntry) .written

lemma helloFiles_storedAt :
    StoredAt helloFormat helloFiles "session" savedSession.toPersistedSession [helloEntry] :=
  (savedFiles_storedAt _).append helloEntry

def helloSteps : List SessionStep :=
  [.save (savedAt 1), .mutate (.recordReplayDisplayMessage "user" none "hello" 2),
    .save (savedAt 2), .mutate (.replaceMessages [])]

lemma exec_helloSteps :
    exec (SessionStore.step helloFormat) ⟨newSession, fun _ => none, none⟩ helloSteps =
      some ⟨rewrittenSession, helloFiles,
        some ((savedAt 2).touch helloSession).toPersistedSession⟩ := by
  have hsave : save helloFormat (savedFiles helloFormat) helloSession (savedAt 2) =
      (((savedAt 2).touch helloSession).resetPersistState true, helloFiles) :=
    save_savedFiles rfl (by decide) rfl
  have h1 : SessionStore.step helloFormat ⟨newSession, fun _ => none, none⟩
      (.save (savedAt 1)) =
        some ⟨savedSession, savedFiles helloFormat, some savedSession.toPersistedSession⟩ := by
    simp only [SessionStore.step, save_newSession]
  have h3 : SessionStore.step helloFormat
      ⟨helloSession, savedFiles helloFormat, some savedSession.toPersistedSession⟩
      (.save (savedAt 2)) =
        some ⟨((savedAt 2).touch helloSession).resetPersistState true, helloFiles,
          some ((savedAt 2).touch helloSession).toPersistedSession⟩ := by
    simp only [SessionStore.step, hsave]
    rfl
  exact exec_cons_eq_some.mpr ⟨_, h1, exec_cons_eq_some.mpr ⟨_, rfl,
    exec_cons_eq_some.mpr ⟨_, h3, rfl⟩⟩⟩

lemma guarded_helloSteps (format : SessionFormat) :
    Guarded (SessionStore.step format) SessionStore.Allowed ⟨newSession, fun _ => none, none⟩
      helloSteps :=
  guarded_of_forall_mem fun step hstep store => by
    simp only [helloSteps, List.mem_cons, List.not_mem_nil, or_false] at hstep
    rcases hstep with rfl | rfl | rfl | rfl <;> trivial

lemma crashSave_rewrittenSession (crash : CheckpointCrash) :
    crashSave helloFormat helloFiles rewrittenSession (savedAt 3) crash =
      some (crashFiles helloFormat helloFiles ((savedAt 3).touch rewrittenSession)
        (savedAt 3).tmp crash) := by
  have hneeds : ((savedAt 3).touch rewrittenSession).needsSnapshot = true := by decide
  simp only [crashSave, startSave, hneeds, if_true]

/-- A crash in front of the renames is safe. -/
theorem loadsEither_crashSave_iff_helloSteps :
    ∃ store crashed, exec (SessionStore.step helloFormat) ⟨newSession, fun _ => none, none⟩
        helloSteps = some store ∧
      crashSave helloFormat store.files store.session (savedAt 3) (.writingTmp 0) =
        some crashed ∧
      (LoadsEither helloFormat crashed store.session.id
          ((savedAt 2).touch helloSession).toPersistedSession
          ((savedAt 3).touch store.session).toPersistedSession ↔
        CrashSafe helloFormat
          (startSave helloFormat store.files store.session (savedAt 3)).files
          (startSave helloFormat store.files store.session (savedAt 3)).session
          (.writingTmp 0)) :=
  ⟨_, _, exec_helloSteps, crashSave_rewrittenSession _,
    loadsEither_crashSave_iff helloFormat_lawful helloFormat_rejectsTorn
      (show newSession.persistState.snapshotExists = false from rfl) (guarded_helloSteps _)
      exec_helloSteps rfl (savedAt 3) _ (crashSave_rewrittenSession _)⟩

/-- With the new snapshot in place and the old journal not removed, the event is loaded twice. -/
theorem crashSave_duplicates :
    (helloFormat.Lawful ∧ helloFormat.entry.RejectsTorn) ∧
    ∃ store crashed, exec (SessionStore.step helloFormat) ⟨newSession, fun _ => none, none⟩
        helloSteps = some store ∧
      store.saved = some ((savedAt 2).touch helloSession).toPersistedSession ∧
      crashSave helloFormat store.files store.session (savedAt 3) .replaced =
        some crashed ∧
      ¬ LoadsEither helloFormat crashed store.session.id
        ((savedAt 2).touch helloSession).toPersistedSession
        ((savedAt 3).touch store.session).toPersistedSession := by
  refine ⟨⟨helloFormat_lawful, helloFormat_rejectsTorn⟩, _, _, exec_helloSteps, rfl,
    crashSave_rewrittenSession _, fun h => ?_⟩
  obtain ⟨read, hread, hsame⟩ := (loadsEither_iff helloFormat_lawful
    (crashFiles_snapshot _ _ ((savedAt 3).touch rewrittenSession) (savedAt 3) .replaced)).mp h
  have hjournal : readJournal helloFormat
      (crashFiles helloFormat helloFiles ((savedAt 3).touch rewrittenSession)
        (savedAt 3).tmp .replaced) (sessionJournalPath "session") = some [helloEntry] := by
    rw [readJournal_eq, ← helloFiles_storedAt.readJournal helloFormat_lawful, readJournal_eq]
    exact congrArg _ (congrArg _ (congrArg (·.getD []) (crashFiles_journal _)))
  cases hjournal.symm.trans hread
  have htwice : (((savedAt 3).touch rewrittenSession).replay [helloEntry]).replayEvents.length =
      2 := by decide
  rcases hsame with hsame | hsame
  · exact absurd (htwice.symm.trans (congrArg List.length hsame.replayEvents)) (by decide)
  · exact absurd (htwice.symm.trans (congrArg List.length hsame.replayEvents)) (by decide)

end Jcode
