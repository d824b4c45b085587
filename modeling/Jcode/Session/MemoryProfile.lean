import Jcode.Session.ProviderCache

/-!
# Memory profiles

The counters of a memory profile are kept along or, after a change they do not follow, counted
anew. When `provider_messages` pushes everything anew it empties the cache but not its counters, so
that whatever was in the cache is counted once more.
-/

namespace Jcode.CachedSession

variable {json : SessionJson} {s s' : CachedSession}

/-- A snapshot tells what one from scratch would tell. -/
def SnapshotExact (json : SessionJson) (s : CachedSession) : Prop :=
  (s.memoryProfileSnapshot json).1 = (s.rebuildMemoryProfileCache json).readProfile json

/-- Unless they will be counted anew, the counters are right. -/
def CountersExact (json : SessionJson) (s : CachedSession) : Prop :=
  s.memoryProfileDirty = false →
    s.memoryProfileCache = (s.rebuildMemoryProfileCache json).memoryProfileCache

/-- The call does not push messages anew on top of the counters of those in the cache. -/
def PushesOnce (s : CachedSession) : SessionCall → Prop
  | .providerMessages | .providerMessagePrefixHashes =>
    s.providerMessagesCacheMode = .full → s.memoryProfileDirty = true ∨ s.providerMessagesCache = []
  | _ => True

lemma snapshotExact_of_dirty (h : s.memoryProfileDirty = true) : SnapshotExact json s := by
  simp [SnapshotExact, memoryProfileSnapshot, ensureMemoryProfileCache, h]

lemma snapshot_of_not_dirty (h : s.memoryProfileDirty = false) :
    (s.memoryProfileSnapshot json).1 = s.readProfile json := by
  simp [memoryProfileSnapshot, ensureMemoryProfileCache, h]

lemma CountersExact.snapshotExact (h : CountersExact json s) : SnapshotExact json s := by
  cases hdirty : s.memoryProfileDirty with
  | true => exact snapshotExact_of_dirty hdirty
  | false =>
    rw [SnapshotExact, snapshot_of_not_dirty hdirty]
    simp only [readProfile]
    rw [← h hdirty]
    rfl

lemma CountersExact.of_dirty (h : s.memoryProfileDirty = true) : CountersExact json s :=
  fun hdirty => Bool.noConfusion (h.symm.trans hdirty)

/-- Only the vectors and the cache are counted. -/
lemma CountersExact.congr (h : CountersExact json s) (hmessages : s'.messages = s.messages)
    (hsnapshots : s'.envSnapshots = s.envSnapshots)
    (hinjections : s'.memoryInjections = s.memoryInjections)
    (hevents : s'.replayEvents = s.replayEvents)
    (hcache : s'.providerMessagesCache = s.providerMessagesCache)
    (hprofile : s'.memoryProfileCache = s.memoryProfileCache)
    (hdirty : s'.memoryProfileDirty = s.memoryProfileDirty) : CountersExact json s' := by
  intro hclean
  simp only [rebuildMemoryProfileCache]
  rw [hprofile, hmessages, hsnapshots, hinjections, hevents, hcache]
  exact h (hdirty.symm.trans hclean)

lemma Opened.countersExact (h : Opened s) : CountersExact json s := by
  cases h with
  | created session hmessages hsnapshots hinjections hevents =>
    intro _
    simp only [Session.withNewCaches, rebuildMemoryProfileCache, hmessages, hsnapshots, hinjections,
      hevents]
    rfl
  | loaded session => exact .of_dirty rfl

/-! ### Mutators -/

lemma CountersExact.appendStoredMessage (h : CountersExact json s) (message : StoredMessage) :
    CountersExact json (s.appendStoredMessage json message) := by
  intro hclean
  have hcache := h hclean
  simp only [rebuildMemoryProfileCache] at hcache ⊢
  simp [CachedSession.appendStoredMessage, markCacheAppendDirty, Session.appendStoredMessage,
    Session.markMessagesAppendDirty, hcache, summarize_concat]

lemma CountersExact.recordEnvSnapshot (h : CountersExact json s) (snapshot : EnvSnapshot) :
    CountersExact json (s.recordEnvSnapshot json snapshot) := by
  intro hclean
  simp only [CachedSession.recordEnvSnapshot, Bool.or_eq_false_iff, decide_eq_false_iff_not,
    gt_iff_lt] at hclean
  have hcache := h hclean.1
  simp only [rebuildMemoryProfileCache] at hcache ⊢
  simp [CachedSession.recordEnvSnapshot, Session.recordEnvSnapshot, hclean.2, hcache,
    Session.markEnvSnapshotsAppendDirty]

lemma CountersExact.recordMemoryInjection (h : CountersExact json s) (summary content : String)
    (count ageMs : Nat) (memoryIds : List String) (now : Nat) : CountersExact json
      (s.recordMemoryInjection json summary content count ageMs memoryIds now) := by
  intro hclean
  have hcache := h hclean
  simp only [rebuildMemoryProfileCache] at hcache ⊢
  simp [CachedSession.recordMemoryInjection, Session.recordMemoryInjection,
    Session.markMemoryInjectionsAppendDirty, hcache]

lemma CountersExact.pushReplayEvent (h : CountersExact json s) (kind : StoredReplayEventKind)
    (now : Nat) : CountersExact json (s.pushReplayEvent json kind now) := by
  intro hclean
  have hcache := h hclean
  simp only [rebuildMemoryProfileCache] at hcache ⊢
  simp [CachedSession.pushReplayEvent, Session.pushReplayEvent,
    Session.markReplayEventsAppendDirty, hcache]

lemma CountersExact.mutated (h : CountersExact json s) (hmutated : Mutated json s s') :
    CountersExact json s' := by
  cases hmutated with
  | same => exact h
  | changed session => exact .of_dirty rfl
  | appended message => exact h.appendStoredMessage message
  | envSnapshot snapshot => exact h.recordEnvSnapshot snapshot
  | memoryInjection summary content count ageMs memoryIds now =>
    exact h.recordMemoryInjection summary content count ageMs memoryIds now
  | replayEvent kind now => exact h.pushReplayEvent kind now
  | metadata metadata => exact h.congr rfl rfl rfl rfl rfl rfl rfl
  | createdAt createdAt => exact h.congr rfl rfl rfl rfl rfl rfl rfl

/-! ### Messages for the provider -/

lemma summarizeMessageContent_append (messages added : List (List ContentBlock)) :
    summarizeMessageContent (messages ++ added) =
      (summarizeMessageContent messages).mergeFrom (summarizeMessageContent added) := by
  induction added using List.reverseRecOn with
  | nil => simp [summarizeMessageContent]
  | append_singleton added blocks ih =>
    rw [← List.append_assoc, summarize_concat, summarize_concat, ih,
      ContentBlockMemoryStats.mergeFrom_assoc]

/-- What is pushed on top of the cache is counted on top of its counters. -/
lemma CountersExact.pushAll (h : CountersExact json s) (messages : List StoredMessage) :
    CountersExact json (s.pushAll json messages) := by
  intro hclean
  rw [pushAll_eq] at hclean
  have hcache := h hclean
  rw [pushAll_eq]
  simp only [rebuildMemoryProfileCache] at hcache ⊢
  simp [countPushed, hcache, summarizeMessageContent_append]

lemma CountersExact.rebuildProviderMessages (h : CountersExact json s)
    (hempty : s.providerMessagesCache = []) :
    CountersExact json (s.rebuildProviderMessages json) := by
  have hclear : CountersExact json
      { s with providerMessagesCache := [], providerMessagePrefixHashesCache := [] } :=
    h.congr rfl rfl rfl rfl hempty.symm rfl rfl
  exact (hclear.pushAll s.messages).congr rfl rfl rfl rfl rfl rfl rfl

lemma rebuildProviderMessages_dirty :
    (s.rebuildProviderMessages json).memoryProfileDirty = s.memoryProfileDirty := by
  simp only [CachedSession.rebuildProviderMessages, pushAll_eq]

lemma CountersExact.providerMessages (h : CountersExact json s) (hsync : CacheInSync json s)
    (honce : PushesOnce s .providerMessages) :
    CountersExact json (s.providerMessages json).2 := by
  obtain ⟨hfull, heq⟩ | ⟨-, heq⟩ | ⟨-, -, heq⟩ := hsync.providerMessages_cases
  · rw [heq]
    obtain hdirty | hempty := honce hfull
    · apply CountersExact.of_dirty
      rw [rebuildProviderMessages_dirty, hdirty]
    · exact h.rebuildProviderMessages hempty
  · rw [heq]
    exact (h.pushAll _).congr rfl rfl rfl rfl rfl rfl rfl
  · rw [heq]
    exact h

/-- What was in the cache is counted twice. -/
lemma CountersExact.not_snapshotExact_of_not_pushesOnce (h : CountersExact json s)
    (hsync : CacheInSync json s) (honce : ¬ PushesOnce s .providerMessages) :
    ¬ SnapshotExact json (s.providerMessages json).2 := by
  simp only [PushesOnce, Classical.not_imp, not_or, Bool.not_eq_true] at honce
  obtain ⟨hfull, hclean, hcache⟩ := honce
  have heq : (s.providerMessages json).2 = s.rebuildProviderMessages json := by
    obtain ⟨-, heq⟩ | ⟨hmode, -⟩ | ⟨hmode, -⟩ := hsync.providerMessages_cases
    · exact heq
    · exact absurd hfull hmode
    · exact absurd hfull hmode
  have hcount : s.memoryProfileCache.providerCacheCount = s.providerMessagesCache.length := by
    rw [h hclean]
    rfl
  intro hexact
  rw [heq, SnapshotExact,
    snapshot_of_not_dirty (rebuildProviderMessages_dirty.trans hclean)] at hexact
  have hcounts := congrArg (·.providerCacheMessageCount) hexact
  simp [readProfile, CachedSession.rebuildProviderMessages, pushAll_eq, countPushed,
    rebuildMemoryProfileCache, hcount, hcache] at hcounts

/-! ### Runs -/

lemma CountersExact.step {call : SessionCall} (h : CountersExact json s)
    (hsync : CacheInSync json s) (honce : PushesOnce s call)
    (hstep : s.step json call = some s') : CountersExact json s' := by
  cases call with
  | mutate mutation => exact h.mutated (mutated_of_mutate hstep)
  | refreshInitialSessionContextMessage context =>
    cases hstep
    exact h.mutated (mutated_refresh context)
  | stripTranscriptForRemoteClient =>
    cases hstep
    intro _
    rfl
  | providerMessages =>
    cases hstep
    exact h.providerMessages hsync honce
  | providerMessagePrefixHashes =>
    cases hstep
    exact h.providerMessages hsync honce
  | memoryProfileSnapshot =>
    cases hstep
    unfold CachedSession.memoryProfileSnapshot ensureMemoryProfileCache
    split_ifs
    · intro _
      rfl
    · exact h

lemma CountersExact.step_breaks {call : SessionCall} (h : CountersExact json s)
    (hsync : CacheInSync json s) (honce : ¬ PushesOnce s call)
    (hstep : s.step json call = some s') : ¬ SnapshotExact json s' := by
  cases call with
  | providerMessages =>
    cases hstep
    exact h.not_snapshotExact_of_not_pushesOnce hsync honce
  | providerMessagePrefixHashes =>
    cases hstep
    exact h.not_snapshotExact_of_not_pushesOnce hsync honce
  | mutate | refreshInitialSessionContextMessage | stripTranscriptForRemoteClient
  | memoryProfileSnapshot => exact absurd trivial honce

/-- In a run of calls on an opened session every snapshot is exact if and only if no call pushes
messages anew on top of counters that are not to be counted anew. -/
theorem snapshotExact_iff {t : CachedSession} {calls : List SessionCall} (hs : Opened s)
    (hrun : Schedule.exec (CachedSession.step json) s calls = some t) :
    Schedule.Always (CachedSession.step json) (SnapshotExact json) s calls ↔
      Schedule.Guarded (CachedSession.step json) PushesOnce s calls :=
  Schedule.always_iff_guarded_of_stronger (E := fun _ _ => True)
    (fun _ _ _ hsync _ hstep => hsync.step hstep)
    (fun _ _ _ hsync h _ honce hstep => h.step hsync honce hstep)
    (fun _ _ _ hsync h _ honce hstep => h.step_breaks hsync honce hstep)
    (fun _ h => h.snapshotExact) hs.cacheInSync hs.countersExact
    (Schedule.guarded_of_forall_mem fun _ _ _ => trivial) hrun

/-- A message is inserted and a snapshot taken between two reads of the provider's messages. -/
def recountedCalls : List SessionCall :=
  [.mutate (.appendStoredMessage (plainMessage "1" "a")), .providerMessages,
    .mutate (.insertMessage 0 (plainMessage "2" "b")), .memoryProfileSnapshot, .providerMessages]

/-- Two messages are cached, and the snapshot has three. -/
theorem recountedCalls_snapshot :
    ∃ t, Schedule.exec (CachedSession.step plainJson) plainSession recountedCalls = some t ∧
      t.providerMessagesCache.length = 2 ∧
      (t.memoryProfileSnapshot plainJson).1.providerCacheMessageCount = 3 ∧
      ¬ SnapshotExact plainJson t :=
  ⟨_, rfl, rfl, rfl, fun h => absurd (congrArg (·.providerCacheMessageCount) h) (by decide)⟩

/-- The same calls with no snapshot between the two reads. -/
def readTwiceCalls : List SessionCall :=
  [.mutate (.appendStoredMessage (plainMessage "1" "a")), .providerMessages,
    .mutate (.insertMessage 0 (plainMessage "2" "b")), .providerMessages]

theorem snapshotExact_readTwice :
    Schedule.Always (CachedSession.step plainJson) (SnapshotExact plainJson) plainSession
      readTwiceCalls := by
  have hrun : Schedule.exec (CachedSession.step plainJson) plainSession readTwiceCalls =
    some _ := rfl
  apply (snapshotExact_iff plainSession_opened hrun).mpr
  apply Schedule.Guarded.cons trivial rfl
  apply Schedule.Guarded.cons (fun _ => .inr rfl) rfl
  apply Schedule.Guarded.cons trivial rfl
  exact Schedule.Guarded.cons (fun _ => .inl rfl) rfl trivial

end Jcode.CachedSession
