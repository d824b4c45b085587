import Jcode.Session.ProviderCache

/-!
# Tracking the prefix that a provider caches

`CacheTracker` (`cache_tracker.rs`) keeps the length and the hash of the messages of the last
request, and finds a violation where the messages of the next one do not begin with them. A request
with its messages and one with the prefix hashes of the session are told the same. Its turn counter
has 32 bits, and where it is one again the request is taken for the first one.
-/

namespace Jcode

/-! ### The tracker -/

structure CacheViolation where
  turn : UInt32
  messageCount : Nat
  expectedHash : String
  actualHash : String
  reason : String
deriving DecidableEq

structure CacheTracker where
  previousPrefixHash : Option UInt64
  previousMessageCount : Nat
  turnCount : UInt32
  hashHistory : List UInt64
  lastViolation : Option CacheViolation
deriving DecidableEq

namespace CacheTracker

def MAX_HISTORY : Nat := 10

def new : CacheTracker where
  previousPrefixHash := none
  previousMessageCount := 0
  turnCount := 0
  hashHistory := []
  lastViolation := none

/-- `{hash:016x}`. -/
def hashLabel (hash : UInt64) : String := hash.toBitVec.toHex

variable (json : SessionJson) (tracker : CacheTracker)

/-- The update at every end of `record_prefix_hash_snapshot`. -/
def remember (hash : UInt64) (count : Nat) (violation : Option CacheViolation) : CacheTracker :=
  let history := tracker.hashHistory ++ [hash]
  { tracker with
    previousPrefixHash := some hash
    previousMessageCount := count
    hashHistory := if history.length > MAX_HISTORY then history.tail else history
    lastViolation := violation }

def removedReason (previousCount currentCount : Nat) : String :=
  "Messages removed: had " ++ toString previousCount ++ " messages, now have " ++
    toString currentCount

def modifiedReason (previousCount : Nat) (previousHash prefixHash : UInt64) : String :=
  "Prefix modified: first " ++ toString previousCount ++ " messages changed (hash " ++
    hashLabel previousHash ++ " -> " ++ hashLabel prefixHash ++ ")"

/-- The turn counter wraps around. -/
def recordPrefixHashSnapshot (currentCount : Nat)
    (prefixHashAtPreviousCount currentFullHash : Option UInt64) :
    Option CacheViolation × CacheTracker :=
  let tracker := { tracker with turnCount := tracker.turnCount + 1 }
  let currentHash := currentFullHash.getD 0
  if tracker.turnCount = 1 ∨ tracker.previousPrefixHash = none then
    (none, tracker.remember currentHash currentCount none)
  else
    match tracker.previousPrefixHash with
    | none => (none, tracker)
    | some previousHash =>
      let previousCount := tracker.previousMessageCount
      if currentCount < previousCount then
        let violation : CacheViolation :=
          { turn := tracker.turnCount
            messageCount := currentCount
            expectedHash := hashLabel previousHash
            actualHash := hashLabel currentHash
            reason := removedReason previousCount currentCount }
        (some violation, tracker.remember currentHash currentCount (some violation))
      else
        let prefixHash := prefixHashAtPreviousCount.getD 0
        if prefixHash ≠ previousHash then
          let violation : CacheViolation :=
            { turn := tracker.turnCount
              messageCount := currentCount
              expectedHash := hashLabel previousHash
              actualHash := hashLabel prefixHash
              reason := modifiedReason previousCount previousHash prefixHash }
          (some violation, tracker.remember currentHash currentCount (some violation))
        else (none, tracker.remember currentHash currentCount none)

/-- The hash at a count that is neither none nor too large. -/
def prefixHashAt (prefixHashes : List UInt64) (previousCount : Nat) : Option UInt64 :=
  if previousCount = 0 ∨ previousCount > prefixHashes.length then none
  else prefixHashes[previousCount - 1]?

def recordPrefixHashes (prefixHashes : List UInt64) : Option CacheViolation × CacheTracker :=
  tracker.recordPrefixHashSnapshot prefixHashes.length
    (prefixHashAt prefixHashes tracker.previousMessageCount) prefixHashes.getLast?

/-- The fold of the cached messages of a session, which the source has twice. -/
def prefixHashesForMessages (messages : List Message) : List UInt64 :=
  messages.foldl (pushPrefixHash json) []

def recordRequest (messages : List Message) : Option CacheViolation × CacheTracker :=
  tracker.recordPrefixHashes (prefixHashesForMessages json messages)

def reset (_ : CacheTracker) : CacheTracker where
  previousPrefixHash := none
  previousMessageCount := 0
  turnCount := 0
  hashHistory := []
  lastViolation := none

/-- A request that is told by the prefix hashes of the session. -/
def recordSessionSnapshot (session : CachedSession) :
    (Option CacheViolation × CacheTracker) × CachedSession :=
  let previousCount := tracker.previousMessageCount
  let (prefixHashes, session) := session.providerMessagePrefixHashes json
  (tracker.recordPrefixHashSnapshot prefixHashes.length
    (prefixHashAt prefixHashes previousCount) prefixHashes.getLast?, session)

end CacheTracker

/-- What `record_client_cache_request` does to an agent's tracker and session, after the violation
it warns of. -/
def recordClientCacheRequest (json : SessionJson) (shouldTrack usesJcodeCompaction : Bool)
    (tracker : CacheTracker) (session : CachedSession) (messages : List Message) :
    (Option CacheViolation × CacheTracker) × CachedSession :=
  if !shouldTrack then ((none, tracker), session)
  else if !usesJcodeCompaction && session.compaction.isNone then
    tracker.recordSessionSnapshot json session
  else (tracker.recordRequest json messages, session)

/-! ### Requests and resets -/

inductive TrackerCall
  | recordRequest (messages : List Message)
  | reset

def CacheTracker.call (json : SessionJson) (tracker : CacheTracker) : TrackerCall → CacheTracker
  | .recordRequest messages => (tracker.recordRequest json messages).2
  | .reset => tracker.reset

/-- The tracker after calls on a new one. -/
def CacheTracker.run (json : SessionJson) (calls : List TrackerCall) : CacheTracker :=
  calls.foldl (CacheTracker.call json) .new

/-- What there is to know of the requests since the last reset. -/
structure RequestLog where
  previous : Option (List Message)
  requests : Nat

namespace RequestLog

def new : RequestLog := ⟨none, 0⟩

def call (log : RequestLog) : TrackerCall → RequestLog
  | .recordRequest messages => ⟨some messages, log.requests + 1⟩
  | .reset => new

def run (calls : List TrackerCall) : RequestLog := calls.foldl call new

/-- The messages do not begin with those of the request before. -/
def Violated (log : RequestLog) (messages : List Message) : Prop :=
  ∃ previous, log.previous = some previous ∧ ¬ previous <+: messages

/-- As many requests as the turn counter can count have been made, once or more often. -/
def WrapsAround (log : RequestLog) : Prop := 0 < log.requests ∧ 2 ^ 32 ∣ log.requests

end RequestLog

/-- The lists whose hashes are compared with each other. -/
def requestedPrefixes (calls : List TrackerCall) : Set (List Message) :=
  {l | ∃ messages, .recordRequest messages ∈ calls ∧ l <+: messages}

namespace CacheTracker

variable {json : SessionJson} {tracker : CacheTracker} {log : RequestLog}
  {calls : List TrackerCall} {messages previous : List Message}

/-! ### One snapshot -/

variable {currentCount : Nat} {prefixHashAtPreviousCount currentFullHash : Option UInt64}

lemma recordPrefixHashSnapshot_first
    (h : tracker.turnCount + 1 = 1 ∨ tracker.previousPrefixHash = none) :
    tracker.recordPrefixHashSnapshot currentCount prefixHashAtPreviousCount currentFullHash =
      (none, { tracker with turnCount := tracker.turnCount + 1 }.remember
        (currentFullHash.getD 0) currentCount none) :=
  if_pos h

lemma recordPrefixHashSnapshot_later {previousHash : UInt64} (hturn : tracker.turnCount + 1 ≠ 1)
    (hprevious : tracker.previousPrefixHash = some previousHash) :
    ∃ violation,
      tracker.recordPrefixHashSnapshot currentCount prefixHashAtPreviousCount currentFullHash =
        (violation, { tracker with turnCount := tracker.turnCount + 1 }.remember
          (currentFullHash.getD 0) currentCount violation) ∧
      (violation.isSome ↔ currentCount < tracker.previousMessageCount ∨
        prefixHashAtPreviousCount.getD 0 ≠ previousHash) := by
  have hlater : ¬ (tracker.turnCount + 1 = 1 ∨ some previousHash = none) :=
    not_or.mpr ⟨hturn, by simp⟩
  simp only [recordPrefixHashSnapshot, hprevious]
  rw [if_neg hlater]
  split_ifs with hremoved hmodified
  · exact ⟨_, rfl, iff_of_true rfl (.inl hremoved)⟩
  · exact ⟨_, rfl, iff_of_true rfl (.inr hmodified)⟩
  · exact ⟨_, rfl, iff_of_false (by simp) (not_or.mpr ⟨hremoved, hmodified⟩)⟩

lemma recordPrefixHashSnapshot_isSome {previousHash : UInt64} (hturn : tracker.turnCount + 1 ≠ 1)
    (hprevious : tracker.previousPrefixHash = some previousHash) :
    (tracker.recordPrefixHashSnapshot currentCount prefixHashAtPreviousCount
        currentFullHash).1.isSome ↔
      currentCount < tracker.previousMessageCount ∨
        prefixHashAtPreviousCount.getD 0 ≠ previousHash := by
  obtain ⟨violation, heq, hviolation⟩ := recordPrefixHashSnapshot_later hturn hprevious
  rw [heq, hviolation]

/-- Whatever the verdict, the snapshot is remembered. -/
lemma recordPrefixHashSnapshot_state : ∃ violation,
    (tracker.recordPrefixHashSnapshot currentCount prefixHashAtPreviousCount currentFullHash).2 =
      { tracker with turnCount := tracker.turnCount + 1 }.remember (currentFullHash.getD 0)
        currentCount violation := by
  by_cases hfirst : tracker.turnCount + 1 = 1 ∨ tracker.previousPrefixHash = none
  · exact ⟨none, congrArg Prod.snd (recordPrefixHashSnapshot_first hfirst)⟩
  · obtain ⟨hturn, hnone⟩ := not_or.mp hfirst
    obtain ⟨previousHash, hprevious⟩ := Option.ne_none_iff_exists'.mp hnone
    obtain ⟨violation, heq, -⟩ := recordPrefixHashSnapshot_later hturn hprevious
    exact ⟨violation, congrArg Prod.snd heq⟩

/-! ### Requests and their log -/

/-- The tracker tells what the log does, with the hash for the messages. -/
structure Tracks (json : SessionJson) (tracker : CacheTracker) (log : RequestLog) : Prop where
  turnCount : tracker.turnCount.toNat = log.requests % 2 ^ 32
  previousPrefixHash : tracker.previousPrefixHash =
    log.previous.map fun messages => (foldStableHashes json messages).getD 0
  previousMessageCount : ∀ previous, log.previous = some previous →
    tracker.previousMessageCount = previous.length
  requests : log.previous = none ↔ log.requests = 0

lemma tracks_new : Tracks json .new .new where
  turnCount := rfl
  previousPrefixHash := rfl
  previousMessageCount := by rintro _ ⟨⟩
  requests := iff_of_true rfl rfl

lemma Tracks.recordRequest (h : Tracks json tracker log) :
    Tracks json (tracker.recordRequest json messages).2 (log.call (.recordRequest messages)) := by
  obtain ⟨violation, hstate⟩ : ∃ violation, (tracker.recordRequest json messages).2 =
      { tracker with turnCount := tracker.turnCount + 1 }.remember
        ((prefixHashes json messages).getLast?.getD 0) (prefixHashes json messages).length
        violation := recordPrefixHashSnapshot_state
  rw [hstate, getLast?_prefixHashes, length_prefixHashes]
  constructor
  · change (tracker.turnCount + 1).toNat = (log.requests + 1) % 2 ^ 32
    rw [UInt32.toNat_add, h.turnCount]
    simp
  · rfl
  · rintro previous ⟨⟩
    rfl
  · exact iff_of_false (by rintro ⟨⟩) (by rintro ⟨⟩)

lemma Tracks.call (h : Tracks json tracker log) (call : TrackerCall) :
    Tracks json (tracker.call json call) (log.call call) := by
  cases call with
  | recordRequest messages => exact h.recordRequest
  | reset => exact tracks_new

/-- Over every sequence of calls the tracker follows the log. -/
theorem tracks_run (calls : List TrackerCall) : Tracks json (run json calls) (.run calls) := by
  induction calls using List.reverseRecOn with
  | nil => exact tracks_new
  | append_singleton calls call ih =>
    rw [run, RequestLog.run, List.foldl_concat, List.foldl_concat]
    exact ih.call call

/-! ### Verdicts -/

/-- Where the messages are at least as many as those before, the hash at their count is that of so
many messages. -/
lemma prefixHashAt_prefixHashes {count : Nat} (hcount : count ≤ messages.length) :
    prefixHashAt (prefixHashes json messages) count =
      foldStableHashes json (messages.take count) := by
  unfold prefixHashAt
  cases count with
  | zero => simp [foldStableHashes]
  | succ count =>
    rw [if_neg (by simpa using hcount)]
    exact getElem?_prefixHashes hcount

/-- Two hashes that stand for none at once are equal when they are as given. -/
lemma getD_foldStableHashes_eq_iff {previous' : List Message}
    (hlength : previous'.length = previous.length) :
    (foldStableHashes json previous').getD 0 = (foldStableHashes json previous).getD 0 ↔
      foldStableHashes json previous' = foldStableHashes json previous := by
  cases previous with
  | nil =>
    rw [List.length_nil, List.length_eq_zero_iff] at hlength
    rw [hlength]
    exact iff_of_true rfl rfl
  | cons message previous =>
    cases previous' with
    | nil => exact absurd hlength (by simp)
    | cons message' previous' => simp [foldStableHashes, HashChain.hashOf, HashChain.fold]

/-- Where no two prefixes share a hash, a later request is a violation exactly when its messages do
not begin with those before. -/
lemma Tracks.isSome_iff (h : Tracks json tracker log) (hturn : tracker.turnCount + 1 ≠ 1)
    (hprevious : log.previous = some previous) {S : Set (List Message)}
    (hinj : S.InjOn (foldStableHashes json)) (hseen : previous ∈ S)
    (hnow : messages.take previous.length ∈ S) :
    (tracker.recordRequest json messages).1.isSome ↔ ¬ previous <+: messages := by
  have hhash : tracker.previousPrefixHash = some ((foldStableHashes json previous).getD 0) := by
    rw [h.previousPrefixHash, hprevious]
    rfl
  have hcount := h.previousMessageCount previous hprevious
  have hverdict : (tracker.recordRequest json messages).1.isSome ↔
      (prefixHashes json messages).length < tracker.previousMessageCount ∨
        (prefixHashAt (prefixHashes json messages) tracker.previousMessageCount).getD 0 ≠
          (foldStableHashes json previous).getD 0 := recordPrefixHashSnapshot_isSome hturn hhash
  rw [hverdict, hcount, length_prefixHashes]
  obtain hshort | hlong := Nat.lt_or_ge messages.length previous.length
  · exact iff_of_true (.inl hshort) fun hprefix => Nat.not_le_of_gt hshort hprefix.length_le
  · have htake : (messages.take previous.length).length = previous.length :=
      List.length_take_of_le hlong
    rw [prefixHashAt_prefixHashes hlong, or_iff_right (Nat.not_lt_of_ge hlong), Ne,
      getD_foldStableHashes_eq_iff htake]
    exact not_congr (HashChain.hashOf_take_eq_iff hinj hseen hnow)

/-- The turn counter is one again when it has wrapped around. -/
lemma Tracks.turnCount_eq_one_iff (h : Tracks json tracker log) :
    tracker.turnCount + 1 = 1 ↔ 2 ^ 32 ∣ log.requests := by
  rw [← UInt32.toNat_inj, UInt32.toNat_add, h.turnCount, Nat.dvd_iff_mod_eq_zero]
  change (log.requests % 2 ^ 32 + 1) % 2 ^ 32 = 1 ↔ _
  omega

lemma run_previous_mem (h : (RequestLog.run calls).previous = some previous) :
    .recordRequest previous ∈ calls := by
  induction calls using List.reverseRecOn with
  | nil => nomatch h
  | append_singleton calls call ih =>
    rw [RequestLog.run, List.foldl_concat] at h
    cases call with
    | recordRequest messages =>
      cases h
      exact List.mem_append_right _ (List.mem_singleton_self _)
    | reset => nomatch h

/-- Told by the prefix hashes of a session, a request is told by the session's messages. -/
lemma recordSessionSnapshot_eq {session : CachedSession}
    (h : CachedSession.CacheInSync json session) :
    (tracker.recordSessionSnapshot json session).1 =
      tracker.recordRequest json session.messagesForProviderUncached := by
  simp only [recordSessionSnapshot]
  rw [h.providerMessagePrefixHashes_eq]
  rfl

/-- For the messages of the session it does not matter which way a request is told. -/
theorem recordClientCacheRequest_eq {session : CachedSession}
    (h : CachedSession.CacheInSync json session) (usesJcodeCompaction : Bool) :
    (recordClientCacheRequest json true usesJcodeCompaction tracker session
      session.messagesForProviderUncached).1 =
      tracker.recordRequest json session.messagesForProviderUncached := by
  simp only [recordClientCacheRequest, Bool.not_true, Bool.false_eq_true, if_false]
  split_ifs
  · exact recordSessionSnapshot_eq h
  · rfl

/-- A request that is taken for the first one is no violation. -/
lemma recordRequest_isNone (h : tracker.turnCount + 1 = 1 ∨ tracker.previousPrefixHash = none) :
    (tracker.recordRequest json messages).1 = none :=
  congrArg Prod.fst (recordPrefixHashSnapshot_first h)

lemma Tracks.exact_iff (h : Tracks json tracker log) {S : Set (List Message)}
    (hinj : S.InjOn (foldStableHashes json))
    (hseen : ∀ previous, log.previous = some previous → previous ∈ S)
    (hnow : ∀ count, messages.take count ∈ S) :
    ((tracker.recordRequest json messages).1.isSome ↔ log.Violated messages) ↔
      ¬ (log.WrapsAround ∧ log.Violated messages) := by
  cases hprevious : log.previous with
  | none =>
    have hviolated : ¬ log.Violated messages := by
      rintro ⟨previous, heq, -⟩
      exact nomatch hprevious.symm.trans heq
    have hnone : tracker.previousPrefixHash = none := by
      rw [h.previousPrefixHash, hprevious]
      rfl
    rw [recordRequest_isNone (.inr hnone)]
    exact iff_of_true (iff_of_false (by simp) hviolated) fun hboth => hviolated hboth.2
  | some previous =>
    have hpos : 0 < log.requests := by
      rw [Nat.pos_iff_ne_zero, Ne, ← h.requests, hprevious]
      simp
    by_cases hturn : tracker.turnCount + 1 = 1
    · have hwraps : log.WrapsAround := ⟨hpos, h.turnCount_eq_one_iff.mp hturn⟩
      rw [recordRequest_isNone (.inl hturn)]
      simp [hwraps]
    · have hwraps : ¬ log.WrapsAround := fun hwraps => hturn (h.turnCount_eq_one_iff.mpr hwraps.2)
      have hviolated : log.Violated messages ↔ ¬ previous <+: messages := by
        simp [RequestLog.Violated, hprevious]
      rw [h.isSome_iff hturn hprevious hinj (hseen previous hprevious) (hnow _), hviolated]
      exact iff_of_true Iff.rfl fun hboth => hwraps hboth.1

/-- Over every sequence of requests and resets, where no two prefixes of the requests share a hash,
the verdict on the next request is exact unless the turn counter has wrapped around and the messages
do not begin with those before. A request that is told by the prefix hashes of a session has the
verdict, and the tracker after it, of one with the session's messages. -/
theorem recordRequest_exact_iff (hinj : Set.InjOn (foldStableHashes json)
      (requestedPrefixes (calls ++ [.recordRequest messages]))) :
    ((((run json calls).recordRequest json messages).1.isSome ↔
        (RequestLog.run calls).Violated messages) ↔
      ¬ ((RequestLog.run calls).WrapsAround ∧ (RequestLog.run calls).Violated messages)) ∧
    ∀ opened session sessionCalls (tracker : CacheTracker), CachedSession.Opened opened →
      Schedule.exec (CachedSession.step json) opened sessionCalls = some session →
      (tracker.recordSessionSnapshot json session).1 =
        tracker.recordRequest json session.messagesForProviderUncached := by
  constructor
  · apply (tracks_run calls).exact_iff hinj
    · intro previous hprevious
      exact ⟨previous, List.mem_append_left _ (run_previous_mem hprevious), List.prefix_rfl⟩
    · intro count
      exact ⟨messages, List.mem_append_right _ (List.mem_singleton_self _),
        List.take_prefix count messages⟩
  · intro opened session sessionCalls tracker hopened hrun
    apply recordSessionSnapshot_eq
    exact Schedule.exec_invariant (fun _ _ _ h hstep => h.step hstep) hopened.cacheInSync hrun

/-! ### One message requested again and again, and then another one -/

def plainA : Message := (plainMessage "1" "a").toMessage

def plainB : Message := (plainMessage "2" "b").toMessage

lemma foldStableHashes_plain :
    foldStableHashes plainJson [plainA] ≠ foldStableHashes plainJson [plainB] := by
  decide +kernel

def repeatedCalls (n : Nat) : List TrackerCall := List.replicate n (.recordRequest [plainA])

lemma repeatedCalls_prefixes {n : Nat} {l : List Message}
    (h : l ∈ requestedPrefixes (repeatedCalls n ++ [.recordRequest [plainB]])) :
    l = [] ∨ l = [plainA] ∨ l = [plainB] := by
  obtain ⟨messages, hmem, hprefix⟩ := h
  have hsingle : ∀ message : Message, l <+: [message] → l = [] ∨ l = [message] := by
    intro message hprefix
    obtain rfl | ⟨more, rfl, hmore⟩ := List.prefix_cons_iff.mp hprefix
    · exact .inl rfl
    · exact .inr (congrArg (message :: ·) (List.prefix_nil.mp hmore))
  obtain hmem | hmem := List.mem_append.mp hmem
  · cases List.eq_of_mem_replicate hmem
    exact (hsingle plainA hprefix).imp_right .inl
  · cases List.mem_singleton.mp hmem
    exact (hsingle plainB hprefix).imp_right .inr

lemma repeatedCalls_injOn (n : Nat) : Set.InjOn (foldStableHashes plainJson)
    (requestedPrefixes (repeatedCalls n ++ [.recordRequest [plainB]])) := by
  intro l hl l' hl' heq
  obtain rfl | rfl | rfl := repeatedCalls_prefixes hl
  · exact (HashChain.hashOf_eq_none.mp heq.symm).symm
  · obtain rfl | rfl | rfl := repeatedCalls_prefixes hl'
    · exact nomatch heq
    · rfl
    · exact absurd heq foldStableHashes_plain
  · obtain rfl | rfl | rfl := repeatedCalls_prefixes hl'
    · exact nomatch heq
    · exact absurd heq.symm foldStableHashes_plain
    · rfl

lemma run_repeatedCalls {n : Nat} (hn : 0 < n) :
    RequestLog.run (repeatedCalls n) = ⟨some [plainA], n⟩ := by
  obtain ⟨k, rfl⟩ := Nat.exists_eq_add_one.mpr hn
  induction k with
  | zero => rfl
  | succ k ih =>
    rw [repeatedCalls, List.replicate_succ', RequestLog.run, List.foldl_concat]
    change (RequestLog.run (repeatedCalls (k + 1))).call _ = _
    rw [ih (Nat.succ_pos k)]
    rfl

lemma violated_repeatedCalls {n : Nat} (hn : 0 < n) :
    (RequestLog.run (repeatedCalls n)).Violated [plainB] := by
  rw [run_repeatedCalls hn]
  exact ⟨[plainA], rfl, by decide +kernel⟩

theorem recordRequest_exact_repeated :
    ((run plainJson (repeatedCalls 1)).recordRequest plainJson [plainB]).1.isSome ↔
      (RequestLog.run (repeatedCalls 1)).Violated [plainB] := by
  apply (recordRequest_exact_iff (repeatedCalls_injOn 1)).1.mpr
  intro hboth
  exact absurd hboth.1.2 (by decide)

/-- After `2 ^ 32` requests with one message a request with another one is taken for the first. -/
theorem recordRequest_repeated_missed :
    Set.InjOn (foldStableHashes plainJson)
        (requestedPrefixes (repeatedCalls (2 ^ 32) ++ [.recordRequest [plainB]])) ∧
      (RequestLog.run (repeatedCalls (2 ^ 32))).Violated [plainB] ∧
      ((run plainJson (repeatedCalls (2 ^ 32))).recordRequest plainJson [plainB]).1 = none := by
  refine ⟨repeatedCalls_injOn _, violated_repeatedCalls (Nat.two_pow_pos 32), ?_⟩
  apply recordRequest_isNone
  apply Or.inl
  rw [(tracks_run _).turnCount_eq_one_iff, run_repeatedCalls (Nat.two_pow_pos 32)]

end CacheTracker

end Jcode
