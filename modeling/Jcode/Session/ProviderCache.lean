import Jcode.Foundation.HashChain
import Jcode.Foundation.Run
import Jcode.Session.Caches

/-!
# The cached messages for the provider

Whatever is called on a session, its cache is that of a prefix of the transcript, unless it is going
to be rebuilt. So the messages for the provider are those that would be made without the cache, and
each prefix hash folds the hashes of the messages up to its place.
-/

namespace Jcode

open CachedSession

/-! ### Prefix hashes -/

/-- The prefix hashes of messages. -/
def prefixHashes (json : SessionJson) (messages : List Message) : List UInt64 :=
  messages.foldl (pushPrefixHash json) []

/-- The left fold of `extendStableHash` over the stable hashes of messages. -/
def foldStableHashes (json : SessionJson) (messages : List Message) : Option UInt64 :=
  HashChain.hashOf extendStableHash (stableMessageHash json) messages

variable {json : SessionJson}

lemma pushPrefixHash_eq : pushPrefixHash json =
    fun hashes message =>
      HashChain.push extendStableHash hashes (stableMessageHash json message) := by
  funext hashes message
  unfold pushPrefixHash HashChain.push
  cases hashes.getLast? with
  | none => rfl
  | some prev => rfl

lemma prefixHashes_eq_ofHashes (messages : List Message) : prefixHashes json messages =
    HashChain.ofHashes extendStableHash (messages.map (stableMessageHash json)) := by
  rw [prefixHashes, HashChain.ofHashes, List.foldl_map, pushPrefixHash_eq]

lemma prefixHashes_append (messages added : List Message) : prefixHashes json (messages ++ added) =
    added.foldl (pushPrefixHash json) (prefixHashes json messages) :=
  List.foldl_append

@[simp] lemma length_prefixHashes (messages : List Message) :
    (prefixHashes json messages).length = messages.length := by
  simp [prefixHashes_eq_ofHashes]

lemma getLast?_prefixHashes (messages : List Message) :
    (prefixHashes json messages).getLast? = foldStableHashes json messages := by
  rw [prefixHashes_eq_ofHashes, HashChain.getLast?_ofHashes]
  rfl

lemma getElem?_prefixHashes {messages : List Message} {i : ℕ} (hi : i < messages.length) :
    (prefixHashes json messages)[i]? = foldStableHashes json (messages.take (i + 1)) := by
  rw [prefixHashes_eq_ofHashes, HashChain.getElem?_ofHashes (by rwa [List.length_map]),
    ← List.map_take]
  rfl

namespace CachedSession

variable {s s' : CachedSession}

/-! ### Pushing -/

/-- What pushing messages makes of the counters of the provider's messages. -/
def countPushed (json : SessionJson) (cache : SessionMemoryProfileCache) (messages : List Message) :
    SessionMemoryProfileCache :=
  { cache with
    providerCacheCount := cache.providerCacheCount + messages.length
    providerCacheJsonBytes := cache.providerCacheJsonBytes +
      (messages.map fun message => estimateJsonBytes (json.message message)).sum
    providerCacheStats :=
      cache.providerCacheStats.mergeFrom (summarizeMessageContent (messages.map (·.content))) }

/-- Pushing adds to the cache, its hashes and its counters and to nothing else. -/
lemma pushAll_eq (messages : List StoredMessage) : s.pushAll json messages =
    { s with
      providerMessagesCache := s.providerMessagesCache ++ messages.map (·.toMessage)
      providerMessagePrefixHashesCache := (messages.map (·.toMessage)).foldl (pushPrefixHash json)
        s.providerMessagePrefixHashesCache
      memoryProfileCache :=
        countPushed json s.memoryProfileCache (messages.map (·.toMessage)) } := by
  induction messages using List.reverseRecOn with
  | nil => simp [pushAll, countPushed, summarizeMessageContent]
  | append_singleton messages message ih =>
    have hstep : s.pushAll json (messages ++ [message]) =
        (s.pushAll json messages).pushProviderMessageCacheEntry json message.toMessage :=
      List.foldl_concat ..
    rw [hstep, ih]
    simp [pushProviderMessageCacheEntry, countPushed, summarize_concat,
      ContentBlockMemoryStats.mergeFrom_assoc, Nat.add_assoc]

/-! ### The cache and the transcript -/

/-- Unless everything will be pushed anew, the cache is that of a prefix of the messages; a clean
one is that of all of them. -/
structure CacheInSync (json : SessionJson) (s : CachedSession) : Prop where
  len_le : s.providerMessagesCacheMode ≠ .full → s.providerMessagesCacheLen ≤ s.messages.length
  cache : s.providerMessagesCacheMode ≠ .full → s.providerMessagesCache =
    (s.messages.take s.providerMessagesCacheLen).map (·.toMessage)
  hashes : s.providerMessagesCacheMode ≠ .full →
    s.providerMessagePrefixHashesCache = prefixHashes json s.providerMessagesCache
  clean : s.providerMessagesCacheMode = .clean → s.providerMessagesCacheLen = s.messages.length

lemma CacheInSync.of_full (h : s.providerMessagesCacheMode = .full) : CacheInSync json s where
  len_le hmode := absurd h hmode
  cache hmode := absurd h hmode
  hashes hmode := absurd h hmode
  clean hmode := nomatch h.symm.trans hmode

/-- Only the messages and the cache matter. -/
lemma CacheInSync.congr (h : CacheInSync json s) (hmessages : s'.messages = s.messages)
    (hcache : s'.providerMessagesCache = s.providerMessagesCache)
    (hhashes : s'.providerMessagePrefixHashesCache = s.providerMessagePrefixHashesCache)
    (hlen : s'.providerMessagesCacheLen = s.providerMessagesCacheLen)
    (hmode : s'.providerMessagesCacheMode = s.providerMessagesCacheMode) :
    CacheInSync json s' := by
  constructor
  · rw [hmode, hlen, hmessages]
    exact h.len_le
  · rw [hmode, hcache, hlen, hmessages]
    exact h.cache
  · rw [hmode, hhashes, hcache]
    exact h.hashes
  · rw [hmode, hlen, hmessages]
    exact h.clean

lemma Opened.cacheInSync (h : Opened s) : CacheInSync json s := by
  cases h with
  | created session => exact .of_full rfl
  | loaded session => exact .of_full rfl

/-- Everything is pushed anew exactly when the mode says so. -/
lemma CacheInSync.needsFullRebuild (h : CacheInSync json s) :
    (s.providerMessagesCacheMode = .full ∨ s.providerMessagesCacheLen > s.messages.length) ↔
      s.providerMessagesCacheMode = .full := by
  constructor
  · rintro (hfull | hlen)
    · exact hfull
    · by_contra hmode
      exact absurd (h.len_le hmode) (Nat.not_le_of_gt hlen)
  · exact Or.inl

/-- The session after `provider_messages`, by how much of the cache is kept. -/
lemma CacheInSync.providerMessages_cases (h : CacheInSync json s) :
    (s.providerMessagesCacheMode = .full ∧
      (s.providerMessages json).2 = s.rebuildProviderMessages json) ∨
    (s.providerMessagesCacheMode ≠ .full ∧ (s.providerMessages json).2 =
      { s.pushAll json (s.messages.drop s.providerMessagesCacheLen) with
        providerMessagesCacheLen := s.messages.length
        providerMessagesCacheMode := .clean }) ∨
    (s.providerMessagesCacheMode ≠ .full ∧ s.providerMessagesCacheLen = s.messages.length ∧
      (s.providerMessages json).2 = s) := by
  simp only [providerMessages, h.needsFullRebuild]
  split_ifs with hfull happend
  · exact .inl ⟨hfull, rfl⟩
  · exact .inr (.inl ⟨hfull, rfl⟩)
  · refine .inr (.inr ⟨hfull, ?_, rfl⟩)
    cases hmode : s.providerMessagesCacheMode with
    | full => exact absurd hmode hfull
    | clean => exact h.clean hmode
    | append =>
      exact Nat.le_antisymm (h.len_le hfull) (Nat.le_of_not_lt fun hlt => happend ⟨hmode, hlt⟩)

/-- The cache of all messages. -/
structure CacheComplete (json : SessionJson) (s : CachedSession) : Prop where
  cache : s.providerMessagesCache = s.messagesForProviderUncached
  hashes : s.providerMessagePrefixHashesCache = prefixHashes json s.messagesForProviderUncached
  len : s.providerMessagesCacheLen = s.messages.length

lemma CacheComplete.cacheInSync (h : CacheComplete json s) : CacheInSync json s where
  len_le _ := h.len.le
  cache _ := by
    rw [h.cache, h.len, List.take_length]
    rfl
  hashes _ := by rw [h.hashes, h.cache]
  clean _ := h.len

lemma CacheComplete.of_pushAll {messages : List StoredMessage}
    (hcache : s.providerMessagesCache ++ messages.map (·.toMessage) = s.messagesForProviderUncached)
    (hhashes : s.providerMessagePrefixHashesCache = prefixHashes json s.providerMessagesCache) :
    CacheComplete json { s.pushAll json messages with
      providerMessagesCacheLen := s.messages.length
      providerMessagesCacheMode := .clean } := by
  constructor
  · rw [pushAll_eq]
    exact hcache
  · rw [pushAll_eq]
    change (messages.map (·.toMessage)).foldl (pushPrefixHash json)
      s.providerMessagePrefixHashesCache = prefixHashes json s.messagesForProviderUncached
    rw [hhashes, ← prefixHashes_append, hcache]
  · rw [pushAll_eq]

lemma providerMessages_messages : (s.providerMessages json).2.messages = s.messages := by
  simp only [providerMessages, rebuildProviderMessages, pushAll_eq]
  split_ifs <;> rfl

/-- After `provider_messages` the cache is that of all messages. -/
lemma CacheInSync.providerMessages_complete (h : CacheInSync json s) :
    CacheComplete json (s.providerMessages json).2 := by
  obtain ⟨-, heq⟩ | ⟨hmode, heq⟩ | ⟨hmode, hlen, heq⟩ := h.providerMessages_cases
  · rw [heq]
    exact .of_pushAll (s := { s with
      providerMessagesCache := [], providerMessagePrefixHashesCache := [] }) rfl rfl
  · rw [heq]
    refine .of_pushAll ?_ (h.hashes hmode)
    rw [h.cache hmode, ← List.map_append, List.take_append_drop]
    rfl
  · rw [heq]
    constructor
    · rw [h.cache hmode, hlen, List.take_length]
      rfl
    · rw [h.hashes hmode, h.cache hmode, hlen, List.take_length]
      rfl
    · exact hlen

lemma messagesForProviderUncached_providerMessages :
    (s.providerMessages json).2.messagesForProviderUncached = s.messagesForProviderUncached := by
  rw [messagesForProviderUncached, providerMessages_messages]
  rfl

lemma CacheInSync.providerMessagePrefixHashes_eq (h : CacheInSync json s) :
    (s.providerMessagePrefixHashes json).1 = prefixHashes json s.messagesForProviderUncached := by
  rw [← messagesForProviderUncached_providerMessages]
  exact h.providerMessages_complete.hashes

/-! ### Mutators -/

/-- What a mutator makes of a session and its caches. -/
inductive Mutated (json : SessionJson) (s : CachedSession) : CachedSession → Prop
  | same : Mutated json s s
  | changed (session : Session) : Mutated json s (s.changeMessages session)
  | appended (message : StoredMessage) : Mutated json s (s.appendStoredMessage json message)
  | envSnapshot (snapshot : EnvSnapshot) : Mutated json s (s.recordEnvSnapshot json snapshot)
  | memoryInjection (summary content : String) (count ageMs : Nat) (memoryIds : List String)
      (now : Nat) : Mutated json s
        (s.recordMemoryInjection json summary content count ageMs memoryIds now)
  | replayEvent (kind : StoredReplayEventKind) (now : Nat) :
      Mutated json s (s.pushReplayEvent json kind now)
  | metadata (metadata : SessionJournalMeta) : Mutated json s
      { s with toPersistedSession := s.toPersistedSession.applyJournalMeta metadata }
  | createdAt (createdAt : Nat) : Mutated json s { s with createdAt := createdAt }

lemma mutated_recordUnlessRepeated (kind : StoredReplayEventKind) (now : Nat) :
    Mutated json s (s.recordUnlessRepeated json kind now) := by
  unfold recordUnlessRepeated
  split_ifs
  · exact .same
  · exact .replayEvent kind now

lemma mutated_of_mutate {mutation : SessionMutation} (h : s.mutate json mutation = some s') :
    Mutated json s s' := by
  cases mutation with
  | insertMessage index message =>
    obtain ⟨session, -, rfl⟩ := Option.map_eq_some_iff.mp h
    exact .changed session
  | truncateMessages len =>
    cases h
    unfold truncateMessages
    split_ifs
    · exact .changed _
    · exact .same
  | removeToolUseBlocks messageId =>
    cases h
    unfold removeToolUseBlocks
    split_ifs
    · exact .changed _
    · exact .same
  | appendStoredMessage message =>
    cases h
    exact .appended message
  | replaceMessages messages =>
    cases h
    exact .changed _
  | recordEnvSnapshot snapshot =>
    cases h
    exact .envSnapshot snapshot
  | recordMemoryInjection summary content count ageMs memoryIds now =>
    cases h
    exact .memoryInjection summary content count ageMs memoryIds now
  | recordReplayDisplayMessage role title content now =>
    cases h
    exact .replayEvent _ now
  | recordSwarmStatusEvent members now =>
    cases h
    exact mutated_recordUnlessRepeated _ now
  | recordSwarmPlanEvent swarmId version items participants reason now =>
    cases h
    exact mutated_recordUnlessRepeated _ now
  | setMetadata metadata =>
    cases h
    exact .metadata metadata
  | setCreatedAt createdAt =>
    cases h
    exact .createdAt createdAt

lemma mutated_refresh (context : String) :
    Mutated json s (s.refreshInitialSessionContextMessage context) := by
  unfold refreshInitialSessionContextMessage
  split_ifs
  · exact .same
  · dsimp only
    split
    · exact .changed _
    · exact .same

lemma recordEnvSnapshot_messages (session : Session) (snapshot : EnvSnapshot) :
    (session.recordEnvSnapshot snapshot).messages = session.messages := by
  simp only [Session.recordEnvSnapshot]
  split_ifs <;> rfl

/-! ### Calls -/

lemma CacheInSync.appendStoredMessage (h : CacheInSync json s) (message : StoredMessage) :
    CacheInSync json (s.appendStoredMessage json message) := by
  have hmode : (s.appendStoredMessage json message).providerMessagesCacheMode ≠ .full ↔
      s.providerMessagesCacheMode ≠ .full := by
    change Session.appendDirty s.providerMessagesCacheMode ≠ .full ↔ _
    cases s.providerMessagesCacheMode <;> simp [Session.appendDirty]
  have hclean : (s.appendStoredMessage json message).providerMessagesCacheMode ≠ .clean := by
    change Session.appendDirty s.providerMessagesCacheMode ≠ .clean
    cases s.providerMessagesCacheMode <;> simp [Session.appendDirty]
  have hmessages : (s.appendStoredMessage json message).messages = s.messages ++ [message] := rfl
  constructor
  · intro hfull
    have hle := h.len_le (hmode.mp hfull)
    rw [hmessages, List.length_append]
    exact hle.trans (Nat.le_add_right _ _)
  · intro hfull
    rw [hmessages]
    change s.providerMessagesCache =
      ((s.messages ++ [message]).take s.providerMessagesCacheLen).map (·.toMessage)
    rw [List.take_append_of_le_length (h.len_le (hmode.mp hfull))]
    exact h.cache (hmode.mp hfull)
  · intro hfull
    exact h.hashes (hmode.mp hfull)
  · intro hmode
    exact absurd hmode hclean

/-- One mutator keeps the cache that of a prefix of the messages. -/
lemma CacheInSync.mutated (h : CacheInSync json s) (hmutated : Mutated json s s') :
    CacheInSync json s' := by
  cases hmutated with
  | same => exact h
  | changed session => exact .of_full rfl
  | appended message => exact h.appendStoredMessage message
  | envSnapshot snapshot =>
    exact h.congr (recordEnvSnapshot_messages s.toSession snapshot) rfl rfl rfl rfl
  | memoryInjection summary content count ageMs memoryIds now =>
    exact h.congr rfl rfl rfl rfl rfl
  | replayEvent kind now => exact h.congr rfl rfl rfl rfl rfl
  | metadata metadata => exact h.congr rfl rfl rfl rfl rfl
  | createdAt createdAt => exact h.congr rfl rfl rfl rfl rfl

/-- One call keeps the cache that of a prefix of the messages. -/
theorem CacheInSync.step {call : SessionCall} (h : CacheInSync json s)
    (hstep : s.step json call = some s') : CacheInSync json s' := by
  cases call with
  | mutate mutation => exact h.mutated (mutated_of_mutate hstep)
  | refreshInitialSessionContextMessage context =>
    cases hstep
    exact h.mutated (mutated_refresh context)
  | stripTranscriptForRemoteClient =>
    cases hstep
    exact .of_full rfl
  | providerMessages =>
    cases hstep
    exact h.providerMessages_complete.cacheInSync
  | providerMessagePrefixHashes =>
    cases hstep
    exact h.providerMessages_complete.cacheInSync
  | memoryProfileSnapshot =>
    cases hstep
    unfold CachedSession.memoryProfileSnapshot ensureMemoryProfileCache
    split_ifs
    · exact h.congr rfl rfl rfl rfl rfl
    · exact h

/-- Over every run of calls on an opened session the messages for the provider are those made
without the cache, and each prefix hash folds the hashes of the messages up to its place. -/
theorem providerMessages_agrees {t : CachedSession} {calls : List SessionCall} (hs : Opened s)
    (hrun : Schedule.exec (CachedSession.step json) s calls = some t) :
    (t.providerMessages json).1 = t.messagesForProviderUncached ∧
      (t.providerMessagePrefixHashes json).1.length = t.messages.length ∧
      ∀ i < t.messages.length, (t.providerMessagePrefixHashes json).1[i]? =
        foldStableHashes json (t.messagesForProviderUncached.take (i + 1)) := by
  have hsync : CacheInSync json t :=
    Schedule.exec_invariant (fun _ _ _ h hstep => h.step hstep) hs.cacheInSync hrun
  have hlength : t.messagesForProviderUncached.length = t.messages.length := List.length_map ..
  refine ⟨?_, ?_, fun i hi => ?_⟩
  · rw [← messagesForProviderUncached_providerMessages]
    exact hsync.providerMessages_complete.cache
  · rw [hsync.providerMessagePrefixHashes_eq, length_prefixHashes, hlength]
  · rw [hsync.providerMessagePrefixHashes_eq, getElem?_prefixHashes (by rwa [hlength])]

/-- The transcript shrinks below what is cached and grows again. -/
def shrinkingCalls : List SessionCall :=
  [.mutate (.appendStoredMessage (plainMessage "1" "a")),
    .mutate (.appendStoredMessage (plainMessage "2" "b")), .providerMessages,
    .mutate (.truncateMessages 1), .mutate (.appendStoredMessage (plainMessage "3" "c"))]

theorem providerMessages_agrees_shrinking :
    ∃ t, Schedule.exec (CachedSession.step plainJson) plainSession shrinkingCalls = some t ∧
      t.messages.map (·.id) = ["1", "3"] ∧
      (t.providerMessages plainJson).1 = t.messagesForProviderUncached ∧
      (t.providerMessagePrefixHashes plainJson).1.length = t.messages.length ∧
      ∀ i < t.messages.length, (t.providerMessagePrefixHashes plainJson).1[i]? =
        foldStableHashes plainJson (t.messagesForProviderUncached.take (i + 1)) := by
  have hrun : Schedule.exec (CachedSession.step plainJson) plainSession shrinkingCalls =
    some _ := rfl
  exact ⟨_, hrun, rfl, providerMessages_agrees plainSession_opened hrun⟩

end CachedSession

end Jcode
