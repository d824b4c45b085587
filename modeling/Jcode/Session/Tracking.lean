import Jcode.Session.Files

/-!
# What a session remembers about its files

Each of the four vectors of a session has a mode and the length that is on disk. A vector whose
mode is not `Full` has only grown, so the rest behind the remembered length is what the journal
is missing.
-/

namespace Jcode

/-! ### One vector -/

section

variable {α : Type} {mode mode' : PersistVectorMode} {len : Nat} {stored current current' : List α}

/-- Of a vector, `stored` is on disk. -/
structure VectorTracks (mode : PersistVectorMode) (len : Nat) (stored current : List α) :
    Prop where
  length_eq : len = stored.length
  isPrefix : mode ≠ .full → stored <+: current

/-- What a mutation may do to a vector and its mode. -/
inductive VectorStep (mode : PersistVectorMode) (current : List α) :
    PersistVectorMode → List α → Prop
  | same : VectorStep mode current mode current
  | push (x : α) : VectorStep mode current (Session.appendDirty mode) (current ++ [x])
  | full (current' : List α) : VectorStep mode current .full current'

lemma appendDirty_ne_full (h : Session.appendDirty mode ≠ .full) : mode ≠ .full := by
  rintro rfl
  exact h rfl

lemma VectorTracks.refl (current : List α) :
    VectorTracks .clean current.length current current :=
  ⟨rfl, fun _ => List.prefix_rfl⟩

lemma VectorTracks.step (h : VectorTracks mode len stored current)
    (hstep : VectorStep mode current mode' current') : VectorTracks mode' len stored current' := by
  refine ⟨h.length_eq, fun hmode => ?_⟩
  cases hstep with
  | same => exact h.isPrefix hmode
  | push x => exact (h.isPrefix (appendDirty_ne_full hmode)).trans (List.prefix_append _ _)
  | full => exact absurd rfl hmode

/-- What is behind the remembered length completes what is on disk. -/
lemma VectorTracks.append_drop (h : VectorTracks mode len stored current)
    (hmode : mode ≠ .full) : stored ++ current.drop len = current := by
  rw [h.length_eq]
  exact (List.prefix_append_drop (h.isPrefix hmode)).symm

end

/-! ### Mutations -/

variable {session session' : Session} {stored : PersistedSession}

/-- What mutations may change: the identity of the session and what it remembers of its files
stay, and the modes follow the vectors. -/
structure Session.MutatesTo (session session' : Session) : Prop where
  id : session'.id = session.id
  createdAt : session'.createdAt = session.createdAt
  snapshotExists : session'.persistState.snapshotExists = session.persistState.snapshotExists
  lastMeta : session'.persistState.lastMeta = session.persistState.lastMeta
  messagesLen : session'.persistState.messagesLen = session.persistState.messagesLen
  envSnapshotsLen : session'.persistState.envSnapshotsLen = session.persistState.envSnapshotsLen
  memoryInjectionsLen :
    session'.persistState.memoryInjectionsLen = session.persistState.memoryInjectionsLen
  replayEventsLen : session'.persistState.replayEventsLen = session.persistState.replayEventsLen
  messages : VectorStep session.persistState.messagesMode session.messages
    session'.persistState.messagesMode session'.messages
  envSnapshots : VectorStep session.persistState.envSnapshotsMode session.envSnapshots
    session'.persistState.envSnapshotsMode session'.envSnapshots
  memoryInjections : VectorStep session.persistState.memoryInjectionsMode session.memoryInjections
    session'.persistState.memoryInjectionsMode session'.memoryInjections
  replayEvents : VectorStep session.persistState.replayEventsMode session.replayEvents
    session'.persistState.replayEventsMode session'.replayEvents

namespace Session.MutatesTo

lemma refl (session : Session) : session.MutatesTo session :=
  ⟨rfl, rfl, rfl, rfl, rfl, rfl, rfl, rfl, .same, .same, .same, .same⟩

lemma replacedMessages (session : Session) (messages : List StoredMessage) :
    session.MutatesTo { session with messages := messages }.markMessagesFullDirty :=
  { refl session with messages := .full _ }

lemma pushReplayEvent (session : Session) (kind : StoredReplayEventKind) (now : Nat) :
    session.MutatesTo (session.pushReplayEvent kind now) :=
  { refl session with replayEvents := .push _ }

lemma recordUnlessRepeated (session : Session) (kind : StoredReplayEventKind) (now : Nat) :
    session.MutatesTo (session.recordUnlessRepeated kind now) := by
  unfold Session.recordUnlessRepeated
  split_ifs
  · exact refl session
  · exact pushReplayEvent session kind now

/-- Over the cap the mode says that the whole vector has to be written. -/
lemma recordEnvSnapshot (session : Session) (snapshot : EnvSnapshot) :
    session.MutatesTo (session.recordEnvSnapshot snapshot) := by
  simp only [Session.recordEnvSnapshot]
  split_ifs
  · exact { refl session with envSnapshots := .full _ }
  · exact { refl session with envSnapshots := .push _ }

end Session.MutatesTo

/-- Every mutator keeps the modes in step with the vectors. -/
theorem SessionMutation.apply_mutatesTo {mutation : SessionMutation}
    (h : mutation.apply session = some session')
    (hcreated : ∀ createdAt, mutation ≠ .setCreatedAt createdAt) : session.MutatesTo session' := by
  cases mutation with
  | appendStoredMessage message =>
    cases h
    exact { Session.MutatesTo.refl session with messages := .push _ }
  | insertMessage index message =>
    simp only [apply, Session.insertMessage] at h
    split_ifs at h
    cases h
    exact .replacedMessages session _
  | replaceMessages messages =>
    cases h
    exact .replacedMessages session messages
  | truncateMessages len =>
    cases h
    unfold Session.truncateMessages
    split_ifs
    · exact .replacedMessages session _
    · exact .refl session
  | removeToolUseBlocks messageId =>
    cases h
    unfold Session.removeToolUseBlocks
    split_ifs
    · exact .replacedMessages session _
    · exact .refl session
  | recordEnvSnapshot snapshot =>
    cases h
    exact .recordEnvSnapshot session snapshot
  | recordMemoryInjection summary content count ageMs memoryIds now =>
    cases h
    exact { Session.MutatesTo.refl session with memoryInjections := .push _ }
  | recordReplayDisplayMessage role title content now =>
    cases h
    exact .pushReplayEvent session _ now
  | recordSwarmStatusEvent members now =>
    cases h
    exact .recordUnlessRepeated session _ now
  | recordSwarmPlanEvent swarmId version items participants reason now =>
    cases h
    exact .recordUnlessRepeated session _ now
  | setMetadata metadata =>
    cases h
    exact { Session.MutatesTo.refl session with }
  | setCreatedAt createdAt => exact absurd rfl (hcreated createdAt)

/-! ### The whole session -/

/-- Of the session, `stored` is on disk. -/
structure Session.Tracks (session : Session) (stored : PersistedSession) : Prop where
  id : session.id = stored.id
  createdAt : session.createdAt = stored.createdAt
  messages : VectorTracks session.persistState.messagesMode session.persistState.messagesLen
    stored.messages session.messages
  envSnapshots : VectorTracks session.persistState.envSnapshotsMode
    session.persistState.envSnapshotsLen stored.envSnapshots session.envSnapshots
  memoryInjections : VectorTracks session.persistState.memoryInjectionsMode
    session.persistState.memoryInjectionsLen stored.memoryInjections session.memoryInjections
  replayEvents : VectorTracks session.persistState.replayEventsMode
    session.persistState.replayEventsLen stored.replayEvents session.replayEvents

namespace Session

lemma tracks_resetPersistState (session : Session) (snapshotExists : Bool) :
    (session.resetPersistState snapshotExists).Tracks session.toPersistedSession :=
  ⟨rfl, rfl, .refl _, .refl _, .refl _, .refl _⟩

lemma Tracks.mutatesTo (h : session.Tracks stored) (hmut : session.MutatesTo session') :
    session'.Tracks stored where
  id := hmut.id.trans h.id
  createdAt := hmut.createdAt.trans h.createdAt
  messages := hmut.messagesLen ▸ h.messages.step hmut.messages
  envSnapshots := hmut.envSnapshotsLen ▸ h.envSnapshots.step hmut.envSnapshots
  memoryInjections := hmut.memoryInjectionsLen ▸ h.memoryInjections.step hmut.memoryInjections
  replayEvents := hmut.replayEventsLen ▸ h.replayEvents.step hmut.replayEvents

/-- If no snapshot is needed, one was written and no vector has to be written whole. -/
lemma modes_of_not_vectorsNeedSnapshot (h : session.vectorsNeedSnapshot = false) :
    session.persistState.snapshotExists = true ∧ session.persistState.messagesMode ≠ .full ∧
      session.persistState.envSnapshotsMode ≠ .full ∧
      session.persistState.memoryInjectionsMode ≠ .full ∧
      session.persistState.replayEventsMode ≠ .full := by
  simp only [vectorsNeedSnapshot, Bool.or_eq_false_iff, decide_eq_false_iff_not,
    Bool.not_eq_false'] at h
  obtain ⟨⟨⟨⟨⟨⟨⟨⟨h0, h1⟩, h2⟩, h3⟩, h4⟩, -⟩, -⟩, -⟩, -⟩ := h
  exact ⟨h0, h1, h2, h3, h4⟩

/-- What the journal is missing turns what is on disk into the session. -/
theorem Tracks.applyJournalEntry (h : session.Tracks stored)
    (hneeds : session.vectorsNeedSnapshot = false) :
    stored.applyJournalEntry session.journalEntry = session.toPersistedSession := by
  obtain ⟨-, h1, h2, h3, h4⟩ := modes_of_not_vectorsNeedSnapshot hneeds
  simp only [PersistedSession.applyJournalEntry, PersistedSession.applyJournalMeta, journalEntry,
    PersistedSession.journalMeta, h.messages.append_drop h1, h.envSnapshots.append_drop h2,
    h.memoryInjections.append_drop h3, h.replayEvents.append_drop h4, ← h.id, ← h.createdAt]

end Session

end Jcode
