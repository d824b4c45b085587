import Jcode.Session.RoundTrip

/-!
# A torn journal line

A crash inside an append leaves the first bytes of a line without a newline. A load ignores them,
but they stay in the file, and the next append goes on in the same line.
-/

namespace Jcode

open LineLog Schedule

variable {format : SessionFormat} {base : PersistedSession}
  {entries news : List SessionJournalEntry} {tail : Bytes} {store store' : SessionStore}
  {steps : List SessionStep}

/-- Complete lines, and the first bytes of another one. -/
structure TornFiles (format : SessionFormat) (fs : Directory) (base : PersistedSession)
    (entries : List SessionJournalEntry) (tail : Bytes) : Prop where
  snapshot : fs (sessionPath base.id) = some (utf8 (format.snapshot.encode base))
  journal : (fs (sessionJournalPath base.id)).getD [] =
    frame newline (entries.map (entryBytes format)) ++ tail
  torn : ∃ entry, tail <+: entryBytes format entry

/-- Mutations, and saves in append mode. -/
def AppendMode (format : SessionFormat) (store : SessionStore) : SessionStep → Prop
  | .mutate mutation => ∀ createdAt, mutation ≠ .setCreatedAt createdAt
  | .save run => (startSave format store.files store.session run).checkpoint = false
  | .load => False

/-! ### Appends behind a torn line -/

/-- The files of a session whose appends go behind a torn line. -/
structure AppendedTo (format : SessionFormat) (store : SessionStore) (base : PersistedSession)
    (content : Bytes) (news : List SessionJournalEntry) : Prop where
  id : store.session.id = base.id
  snapshot : store.files (sessionPath base.id) = some (utf8 (format.snapshot.encode base))
  journal : (store.files (sessionJournalPath base.id)).getD [] =
    content ++ frame newline (news.map (entryBytes format))

variable {content : Bytes}

/-- A step appends at most one entry: a save does, a mutation leaves what was saved alone. -/
lemma AppendedTo.step (h : AppendedTo format store base content news) (step : SessionStep)
    (hmode : AppendMode format store step) (hstep : store.step format step = some store') :
    (∃ run entry, step = .save run ∧ AppendedTo format store' base content (news ++ [entry])) ∨
      (∃ mutation, step = .mutate mutation ∧ AppendedTo format store' base content news ∧
        store'.saved = store.saved) := by
  cases step with
  | mutate mutation =>
    obtain ⟨session', happly, rfl⟩ := Option.map_eq_some_iff.mp hstep
    have hid := (SessionMutation.apply_mutatesTo happly hmode).id
    exact .inr ⟨mutation, rfl, ⟨hid.trans h.id, h.snapshot, h.journal⟩, rfl⟩
  | save run =>
    cases hstep
    obtain ⟨-, hsave⟩ := save_eq_append hmode
    refine .inl ⟨run, (run.touch store.session).journalEntry, rfl, ?_⟩
    rw [hsave, h.id]
    refine ⟨h.id, (Function.update_of_ne sessionPath_ne_journal _ _).trans h.snapshot, ?_⟩
    simp only [appendJsonLineFast, appendBytes, Directory.write, Function.update_self,
      Option.getD_some, h.journal, List.map_append, frame_append, List.append_assoc]
    simp [frame]
  | load => exact hmode.elim

/-- A run appends its saves. -/
lemma AppendedTo.exec (h : AppendedTo format store base content news)
    (hsteps : Guarded (SessionStore.step format) (AppendMode format) store steps)
    (hrun : exec (SessionStore.step format) store steps = some store') :
    ∃ more, AppendedTo format store' base content (news ++ more) ∧
      (more = [] ↔ ∀ run, SessionStep.save run ∉ steps) ∧
      (more = [] → store'.saved = store.saved) := by
  induction steps generalizing store news with
  | nil =>
    cases hrun
    exact ⟨[], (List.append_nil news).symm ▸ h, by simp, fun _ => rfl⟩
  | cons step steps ih =>
    obtain ⟨middle, hstep, hrest⟩ := exec_cons_eq_some.mp hrun
    obtain ⟨run, entry, rfl, hnext⟩ | ⟨mutation, rfl, hnext, hsaved⟩ :=
      h.step step hsteps.1 hstep
    · obtain ⟨more, hmore, -, -⟩ := ih hnext (hsteps.2 _ hstep) hrest
      refine ⟨entry :: more, ?_, ?_, ?_⟩
      · rwa [List.append_assoc, List.singleton_append] at hmore
      · refine iff_of_false (List.cons_ne_nil _ _) fun hnone => hnone run List.mem_cons_self
      · exact fun hnil => absurd hnil (List.cons_ne_nil _ _)
    · obtain ⟨more, hmore, hiff, hkept⟩ := ih hnext (hsteps.2 _ hstep) hrest
      refine ⟨more, hmore, hiff.trans ?_, fun hnil => (hkept hnil).trans hsaved⟩
      simp

/-! ### Reading behind a torn line -/

variable {fs : Directory} {read : List SessionJournalEntry} {entry : SessionJournalEntry}

/-- A load that succeeds has read the torn line as text. -/
lemma readJournalLine_ne_invalid (hformat : format.Lawful) {path : FileName}
    (hjournal : (fs path).getD [] = frame newline (entries.map (entryBytes format)) ++ tail)
    (htail : tail <+: entryBytes format entry) (hne : tail ≠ [])
    (hread : readJournal format fs path = some read) : readJournalLine format tail ≠ .invalid := by
  intro hinvalid
  have hnl : newline ∉ tail := fun h => hformat.newline_notMem entry (htail.subset h)
  rw [readJournal_eq, hjournal, hformat.readRecords_frame, lines_unfinished hnl, if_neg hne]
    at hread
  simp [readRecords, hinvalid] at hread

/-- Whatever was appended behind a torn line, reading stops at that line. -/
lemma readJournal_behind_torn (hformat : format.Lawful) (htorn : format.entry.RejectsTorn)
    {path : FileName} {next : SessionJournalEntry}
    (hjournal : (fs path).getD [] = (frame newline (entries.map (entryBytes format)) ++ tail) ++
      frame newline ((next :: news).map (entryBytes format)))
    (htail : tail <+: entryBytes format entry) (hne : tail ≠ [])
    (hvalid : readJournalLine format tail ≠ .invalid) :
    readJournal format fs path = some entries := by
  have hnl : newline ∉ tail ++ entryBytes format next := by
    rw [List.mem_append, not_or]
    exact ⟨fun h => hformat.newline_notMem entry (htail.subset h), hformat.newline_notMem next⟩
  have hcr : (tail ++ entryBytes format next).getLast? ≠ some carriageReturn := by
    intro h
    rcases List.mem_append.mp (List.mem_of_getLast? h) with h | h
    · exact hformat.carriageReturn_notMem entry (htail.subset h)
    · exact hformat.carriageReturn_notMem next h
  rw [readJournal_eq, hjournal, List.append_assoc, List.map_cons, frame_cons,
    ← List.append_assoc tail, hformat.readRecords_frame, lines_line hnl, stripCr_of_ne hcr,
    readRecords, readJournalLine_joined hformat htorn htail hne hvalid]
  simp

/-! ### Runs -/

lemma AppendMode.allowed {step : SessionStep} (h : AppendMode format store step) :
    store.Allowed step := by
  cases step with
  | mutate mutation =>
    cases mutation with
    | setCreatedAt createdAt => exact absurd rfl (h createdAt)
    | _ => trivial
  | save run => trivial
  | load => exact h.elim

/-- Once something was saved, something stays saved. -/
lemma SessionStore.step_saved {step : SessionStep} (h : store.saved ≠ none)
    (hstep : store.step format step = some store') : store'.saved ≠ none := by
  cases step with
  | mutate mutation =>
    obtain ⟨session', -, rfl⟩ := Option.map_eq_some_iff.mp hstep
    exact h
  | save run =>
    cases hstep
    exact Option.some_ne_none _
  | load =>
    obtain ⟨session', -, rfl⟩ := Option.map_eq_some_iff.mp hstep
    exact Option.some_ne_none _

lemma PersistedSession.replay_id (base : PersistedSession) (entries : List SessionJournalEntry) :
    (base.replay entries).id = base.id := by
  induction entries generalizing base with
  | nil => rfl
  | cons entry entries ih => exact ih (base.applyJournalEntry entry)

/-- Without a torn line nothing is lost. -/
lemma load_untorn (hformat : format.Lawful) (h : store.Inv format) (hsaved : store.saved ≠ none) :
    (loadFromPath format store.files (sessionPath store.session.id)).1.map
      (·.toPersistedSession) = store.saved := by
  obtain ⟨saved, hsome⟩ := Option.ne_none_iff_exists'.mp hsaved
  simp only [SessionStore.Inv, hsome] at h
  rw [h.loadFromPath hformat, hsome]
  rfl

variable {session : Session} {files files' : Directory}

/-- Mutations and saves in append mode that follow a load over a torn line. -/
structure TornRun (format : SessionFormat) (files : Directory) (base : PersistedSession)
    (entries : List SessionJournalEntry) (tail : Bytes) (session : Session) (files' : Directory)
    (steps : List SessionStep) (store : SessionStore) : Prop where
  torn : TornFiles format files base entries tail
  loaded : loadFromPath format files (sessionPath base.id) = (some session, files')
  guarded : Guarded (SessionStore.step format) (AppendMode format)
    ⟨session, files', some session.toPersistedSession⟩ steps
  ran : exec (SessionStore.step format) ⟨session, files', some session.toPersistedSession⟩
    steps = some store

/-- What follows a load over a torn line, step by step. -/
lemma TornRun.appended (hformat : format.Lawful)
    (h : TornRun format files base entries tail session files' steps store) :
    ∃ read more, readJournal format files (sessionJournalPath base.id) = some read ∧
      session = loadedSession (base.replay read) ∧ files' = files ∧
      AppendedTo format store base (frame newline (entries.map (entryBytes format)) ++ tail) more ∧
      (more = [] ↔ ∀ run, SessionStep.save run ∉ steps) ∧
      (more = [] → store.saved = some (base.replay read)) := by
  obtain ⟨hfiles, hload, hsteps, hrun⟩ := h
  rw [loadFromPath_snapshot hformat hfiles.snapshot, Prod.mk.injEq,
    Option.map_eq_some_iff] at hload
  obtain ⟨⟨read, hread, rfl⟩, rfl⟩ := hload
  have hstart : AppendedTo format ⟨loadedSession (base.replay read), files,
      some (base.replay read)⟩ base (frame newline (entries.map (entryBytes format)) ++ tail) [] :=
    ⟨PersistedSession.replay_id base read, hfiles.snapshot,
      hfiles.journal.trans (List.append_nil _).symm⟩
  obtain ⟨more, hmore, hsaves, hkept⟩ := hstart.exec hsteps hrun
  exact ⟨read, more, hread, rfl, rfl, hmore, hsaves, hkept⟩

/-- What was saved behind a torn line is not loaded. -/
lemma TornRun.load_behind_torn (hformat : format.Lawful) (htorn : format.entry.RejectsTorn)
    (h : TornRun format files base entries tail session files' steps store) (hne : tail ≠ [])
    (hsave : ¬ ∀ run, SessionStep.save run ∉ steps) :
    (loadFromPath format store.files (sessionPath base.id)).1.map (·.toPersistedSession) =
      some (base.replay entries) := by
  obtain ⟨entry, htail⟩ := h.torn.torn
  obtain ⟨read, more, hread, -, -, hmore, hsaves, -⟩ := h.appended hformat
  obtain ⟨next, news, rfl⟩ := List.exists_cons_of_ne_nil (mt hsaves.mp hsave)
  have hvalid := readJournalLine_ne_invalid hformat h.torn.journal htail hne hread
  rw [loadFromPath_snapshot hformat hmore.snapshot,
    readJournal_behind_torn hformat htorn hmore.journal htail hne hvalid]
  rfl

/-- Complete lines only: the files and the session stay in step. -/
lemma TornRun.load_behind_complete (hformat : format.Lawful)
    (h : TornRun format files base entries [] session files' steps store) :
    (loadFromPath format store.files (sessionPath base.id)).1.map (·.toPersistedSession) =
      store.saved := by
  obtain ⟨read, more, hread, rfl, rfl, hmore, -, -⟩ := h.appended hformat
  have hstored : StoredAt format files' base.id base entries :=
    ⟨h.torn.snapshot, h.torn.journal.trans (List.append_nil _)⟩
  obtain rfl : read = entries := Option.some.inj (hread.symm.trans (hstored.readJournal hformat))
  have hinv : SessionStore.Inv format ⟨loadedSession (base.replay read), files',
      some (base.replay read)⟩ :=
    ⟨Session.tracks_resetPersistState _ _, base, read,
      (PersistedSession.replay_id base read).symm ▸ hstored, rfl⟩
  have hallowed := h.guarded.mono fun _ _ => AppendMode.allowed
  have hsaved := exec_invariant (fun _ _ _ => SessionStore.step_saved)
    (Option.some_ne_none (base.replay read)) h.ran
  have hlast := load_untorn hformat (SessionStore.exec_inv hformat hinv hallowed h.ran) hsaved
  rwa [hmore.id] at hlast

/-- Without a save the files are loaded as before. -/
lemma TornRun.load_unsaved (hformat : format.Lawful)
    (h : TornRun format files base entries tail session files' steps store)
    (hunsaved : ∀ run, SessionStep.save run ∉ steps) :
    (loadFromPath format store.files (sessionPath base.id)).1.map (·.toPersistedSession) =
      store.saved := by
  obtain ⟨read, more, hread, -, -, hmore, hsaves, hkept⟩ := h.appended hformat
  obtain rfl := hsaves.mpr hunsaved
  have hagain : readJournal format store.files (sessionJournalPath base.id) = some read := by
    rw [readJournal_eq] at hread ⊢
    rw [hmore.journal, ← hread, h.torn.journal]
    simp [frame]
  rw [loadFromPath_snapshot hformat hmore.snapshot, hagain, hkept rfl]
  rfl

/-- After the first save, an append was torn behind its opening brace. -/
noncomputable def tornFiles : Directory :=
  (savedFiles helloFormat).write (sessionJournalPath "session") [123]

lemma tornFiles_journal : tornFiles (sessionJournalPath "session") = some [123] := by
  rw [tornFiles, Directory.write, Function.update_self]

lemma tornFiles_torn :
    TornFiles helloFormat tornFiles savedSession.toPersistedSession [] [123] where
  snapshot := (Function.update_of_ne sessionPath_ne_journal (some [123]) _).trans
    (savedFiles_storedAt helloFormat).snapshot
  journal := congrArg (Option.getD · []) tornFiles_journal
  torn := ⟨helloEntry, entryBytes_unaryFormat helloEntry ▸ by decide⟩

lemma readJournalLine_brace : readJournalLine helloFormat [123] = .malformed := by
  have htext : readUtf8 [123] = some "\x7b" := readUtf8_eq_some.mpr (by decide)
  have htrim : trim "\x7b" = "\x7b" := by decide
  have hdecode : helloFormat.entry.decode "\x7b" = none := by
    have hencode : helloFormat.entry.encode helloEntry = "\x7b\x7d" := encode_unaryFormat helloEntry
    refine helloFormat_rejectsTorn.decode_cut helloEntry "\x7b" ?_ ?_
    · rw [hencode]
      decide
    · rw [hencode]
      decide
  simp only [readJournalLine, htext, htrim, hdecode]
  rfl

lemma loadFromPath_tornFiles :
    loadFromPath helloFormat tornFiles (sessionPath savedSession.id) =
      (some savedSession, tornFiles) := by
  have hread : readJournal helloFormat tornFiles (sessionJournalPath savedSession.id) =
      some [] := by
    rw [readJournal_eq, tornFiles_torn.journal]
    simp [frame, lines_unfinished, newline, readRecords, readJournalLine_brace]
  have hload := loadFromPath_snapshot helloFormat_lawful tornFiles_torn.snapshot
  rw [hload, hread]
  rfl

def tornSteps : List SessionStep :=
  [.mutate (.recordReplayDisplayMessage "user" none "hello" 2), .save (savedAt 2)]

lemma startSave_tornFiles :
    (startSave helloFormat tornFiles helloSession (savedAt 2)).checkpoint = false := by
  have hjournal : tornFiles (sessionJournalPath helloSession.id) = some [123] :=
    tornFiles_journal
  have hentry : entryBytes helloFormat ((savedAt 2).touch helloSession).journalEntry =
      [123, 125] := entryBytes_unaryFormat helloEntry
  refine startSave_checkpoint (by decide) rfl ?_
  rw [hjournal, hentry]
  decide

lemma guarded_tornSteps :
    Guarded (SessionStore.step helloFormat) (AppendMode helloFormat)
      ⟨savedSession, tornFiles, some savedSession.toPersistedSession⟩ tornSteps := by
  refine ⟨fun createdAt h => (nomatch h), fun store hstore => ⟨?_, fun _ _ => trivial⟩⟩
  cases hstore
  exact startSave_tornFiles

lemma exec_tornSteps :
    ∃ store, exec (SessionStore.step helloFormat)
        ⟨savedSession, tornFiles, some savedSession.toPersistedSession⟩ tornSteps = some store ∧
      store.saved = some ((savedAt 2).touch helloSession).toPersistedSession := by
  refine ⟨_, exec_cons_eq_some.mpr ⟨_, rfl, exec_cons_eq_some.mpr ⟨_, rfl, rfl⟩⟩, ?_⟩
  exact congrArg some (save_toPersistedSession ..)

end Jcode
