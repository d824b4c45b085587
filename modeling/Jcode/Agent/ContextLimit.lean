import Jcode.Compaction.Accounting
import Jcode.Compaction.ToolClosure
import Jcode.Foundation.SplitFirst
import Jcode.Provider.StreamEvent
import Jcode.Session.Model

/-!
# Recovery from a context limit

What a turn loop does to the agent between two requests: it builds a request from the transcript,
follows the events of the stream, and compacts the transcript at once when the provider says that
the context is too long.
-/

namespace Jcode

/-! ### Errors -/

/-- `error` has been lowered. -/
def isContextLimitError (lower : String) : Bool :=
  containsText lower "context length" || containsText lower "context window" ||
    containsText lower "maximum context" || containsText lower "max context" ||
    containsText lower "token limit" || containsText lower "too many tokens" ||
    containsText lower "prompt is too long" || containsText lower "input is too long" ||
    containsText lower "request too large" || containsText lower "length limit" ||
    containsText lower "maximum tokens" ||
    containsText lower "exceeded" && containsText lower "tokens"

def isOpenaiEncryptedContentTooLargeError (error : String) : Bool :=
  let lower := error.toLower
  containsText lower "encrypted_content" &&
    (containsText lower "string_above_max_length" || containsText lower "string too long" ||
      containsText lower "maximum length" || containsText lower "large_string_param" ||
      containsText lower "largestringparam")

/-! ### The manager's state in the session -/

namespace CompactionManager

variable {E : Type} (m : CompactionManager E)

/-- What `discard_oversized_openai_native_compaction` returns. -/
def nativeOversized : Bool :=
  m.activeSummary.any fun summary =>
    summary.openaiEncryptedContent.any (!openaiEncryptedContentIsSendable ·)

/-- Nothing that `m` has compacted comes back with `m'`. -/
structure Extends (m m' : CompactionManager E) : Prop where
  count_le : m.compactedCount ≤ m'.compactedCount
  summary : m.activeSummary.isSome → m'.activeSummary.isSome

variable {m} {m' m'' : CompactionManager E} {env : CompactionEnv E} {embed : String → Option E}
  {allMessages : List Message} {n : Nat}

lemma Extends.refl (m : CompactionManager E) : m.Extends m := ⟨Nat.le_refl _, fun h => h⟩

lemma Extends.trans (h : m.Extends m') (h' : m'.Extends m'') : m.Extends m'' :=
  ⟨h.count_le.trans h'.count_le, fun hsummary => h'.summary (h.summary hsummary)⟩

lemma isSome_persistedState : m.persistedState.isSome = m.activeSummary.isSome := by
  rw [persistedState, Option.isSome_map]

lemma isSome_activeSummary_of_nativeOversized (h : m.nativeOversized) :
    m.activeSummary.isSome := by
  obtain ⟨summary, hsummary, -⟩ := (Option.any_eq_true _ _).mp h
  exact Option.isSome_of_mem hsummary

lemma extends_discardOversized (m : CompactionManager E) :
    m.Extends m.discardOversizedOpenaiNativeCompaction := by
  refine ⟨discardOversized_compactedCount.ge, fun h => ?_⟩
  unfold discardOversizedOpenaiNativeCompaction
  split
  · exact h
  · split
    · exact h
    · split_ifs
      · exact h
      all_goals rfl

lemma extends_of_starts (h : m' = m ∨ m.Starts m' allMessages) : m.Extends m' := by
  obtain rfl | ⟨-, cutoff, trigger, -, -, rfl⟩ := h
  · exact .refl _
  · exact ⟨Nat.le_refl _, fun h => h⟩

lemma isSome_activeSummary_of_hardCompact (h : m.hardCompactWith env allMessages = .ok (n, m')) :
    m'.activeSummary.isSome := by
  simp only [hardCompactWith] at h
  split_ifs at h
  cases h
  rfl

lemma extends_of_hardCompact (h : m.hardCompactWith env allMessages = .ok (n, m')) :
    m.Extends m' := by
  refine ⟨?_, fun _ => isSome_activeSummary_of_hardCompact h⟩
  obtain ⟨-, -, hcount, -⟩ := hardCompact_spec h
  exact hcount ▸ Nat.le_add_right _ _

lemma extends_ensureContextFits (m : CompactionManager E) :
    m.Extends (m.ensureContextFits env embed allMessages).2 := by
  have hstart := extends_of_starts (maybeStart_cases m env embed allMessages)
  obtain ⟨n, -, hhard⟩ | ⟨-, hnone⟩ := ensureContextFits_cases m env embed allMessages
  · exact hstart.trans (extends_of_hardCompact hhard)
  · exact hnone ▸ hstart

lemma extends_applyResult (m : CompactionManager E) (result : CompactionResult) :
    m.Extends (m.applyResult result allMessages) := by
  refine ⟨?_, fun _ => ?_⟩
  · simp only [applyResult, discardOversized_compactedCount]
    exact Nat.le_add_right _ _
  · simp only [applyResult]
    exact (extends_discardOversized _).summary rfl

lemma extends_checkAndApply (m : CompactionManager E) :
    m.Extends (m.checkAndApplyCompactionWith allMessages) := by
  cases hp : m.pendingTask with
  | none =>
    simp only [checkAndApplyCompactionWith, hp]
    exact .refl m
  | some task =>
    cases ho : task.outcome with
    | none =>
      simp only [checkAndApplyCompactionWith, hp, ho]
      exact .refl m
    | some outcome =>
      simp only [checkAndApplyCompactionWith, hp, ho]
      cases outcome with
      | ok result =>
        -- taking the task out leaves the count and the summary
        exact ⟨(extends_applyResult { m with pendingTask := none } result).count_le,
          (extends_applyResult { m with pendingTask := none } result).summary⟩
      | err message => exact ⟨Nat.le_refl _, fun h => h⟩
      | panicked => exact ⟨Nat.le_refl _, fun h => h⟩

lemma extends_messagesForApi (m : CompactionManager E) :
    m.Extends (m.messagesForApiWith allMessages).2 :=
  (extends_checkAndApply m).trans (extends_discardOversized _)

end CompactionManager

/-! ### The agent -/

/-- What of the agent, its session and its registry a request and a recovery read and write.
`E` is the type of embeddings, `T` the type of tool lists. -/
structure TurnAgent (E T : Type) where
  messages : List StoredMessage
  compaction : Option StoredCompactionState
  tracking : ToolTracking
  manager : CompactionManager E
  providerSessionId : Option String
  lockedTools : Option T

structure ProviderRequest (T : Type) where
  messages : List Message
  tools : T
  staticPart : String
  dynamicPart : String
  resumeSessionId : Option String
deriving DecidableEq

/-- What the building of a request finds. -/
structure BuildMoment (E T : Type) where
  /-- The fresh id and the time of an inserted message. -/
  stamp : Nat → String × Nat
  /-- Nobody else holds the manager's lock. -/
  lockFree : Bool
  usesJcodeCompaction : Bool
  embed : String → Option E
  definitions : T
  staticPart : String
  dynamicPart : String
  /-- A pending memory prompt, and the time. -/
  memory : Option (String × Nat)

/-- What a recovery finds; it may lock the manager twice. -/
structure RecoveryMoment where
  nativeLockFree : Bool
  lockFree : Bool
  supportsCompaction : Bool
  contextWindow : Nat

/-- What an event of the stream finds. -/
structure ArrivalMoment where
  lockFree : Bool
  usesJcodeCompaction : Bool
  providerName : String

/-- The usage that the events of one stream have reported. -/
structure StreamUsage where
  usageInput : Option Nat
  usageCacheRead : Option Nat
  usageCacheCreation : Option Nat
deriving DecidableEq

def StreamUsage.empty : StreamUsage := ⟨none, none, none⟩

/-- `saturating_add` of `u64`. -/
def saturatingAdd (a b : Nat) : Nat := min (a + b) (2 ^ 64 - 1)

/-- The memory prompt goes behind the messages. -/
def withMemory (messages : List Message) (memory : Option (String × Nat)) : List Message :=
  messages ++ (memory.map fun (prompt, now) =>
    { role := .user
      content := [.text ("<system-reminder>\n" ++ prompt ++ "\n</system-reminder>") none]
      timestamp := some now
      toolDurationMs := none }).toList

namespace TurnAgent

variable {E T : Type} (env : CompactionEnv E) (lowercase : String → String) (a : TurnAgent E T)

/-- `session.provider_messages`. -/
def providerMessages : List Message := a.messages.map (·.toMessage)

/-- `sync_session_compaction_state_from_manager`, with the manager itself. -/
def syncCompaction (m : CompactionManager E) : TurnAgent E T :=
  { a with manager := m, compaction := m.persistedState }

def keepManager (m : CompactionManager E) (sync : Bool) : TurnAgent E T :=
  if sync then a.syncCompaction m else { a with manager := m }

def resetProviderSession : TurnAgent E T :=
  { a with lockedTools := none, providerSessionId := none }

/-! ### Requests -/

def repairMissingToolOutputs (stamp : Nat → String × Nat) : TurnAgent E T :=
  let (repaired, tracking, messages) := Jcode.repairMissingToolOutputs stamp a.tracking a.messages
  { a with
    messages := messages
    tracking := tracking
    lockedTools := if 0 < repaired then none else a.lockedTools }

/-- The messages come from the manager, and not as they are in the session. -/
def readsManager (moment : BuildMoment E T) : Bool :=
  (moment.usesJcodeCompaction || a.compaction.isSome) && moment.lockFree

def messagesForProvider (moment : BuildMoment E T) :
    List Message × Option CompactionEvent × TurnAgent E T :=
  if a.readsManager moment then
    let discardedOversizedNative := a.manager.nativeOversized
    let m := a.manager.discardOversizedOpenaiNativeCompaction
    let m := if moment.usesJcodeCompaction
      then (m.ensureContextFits env moment.embed a.providerMessages).2 else m
    let (messages, m) := m.messagesForApiWith a.providerMessages
    let event := if moment.usesJcodeCompaction then m.lastCompaction else none
    let m := if moment.usesJcodeCompaction then { m with lastCompaction := none } else m
    (messages, event, a.keepManager m (event.isSome || discardedOversizedNative))
  else (a.providerMessages, none, a)

/-- The tool list is locked by the first request. -/
def toolDefinitions (definitions : T) : T × TurnAgent E T :=
  (a.lockedTools.getD definitions,
    { a with lockedTools := some (a.lockedTools.getD definitions) })

/-- The top of the outer loop, up to the call of `complete_split`. -/
def buildRequest (moment : BuildMoment E T) : ProviderRequest T × TurnAgent E T :=
  let a := a.repairMissingToolOutputs moment.stamp
  let (messages, event, a) := a.messagesForProvider env moment
  let a := if event.isSome then { a with lockedTools := none } else a
  let (tools, a) := a.toolDefinitions moment.definitions
  ({ messages := withMemory messages moment.memory
     tools := tools
     staticPart := moment.staticPart
     dynamicPart := moment.dynamicPart
     resumeSessionId := a.providerSessionId }, a)

/-! ### Events of the stream -/

def effectiveContextTokensFromUsage (providerName : String) (inputTokens : Nat)
    (cacheReadInputTokens cacheCreationInputTokens : Option Nat) : Nat :=
  if inputTokens = 0 then 0
  else
    let cacheRead := cacheReadInputTokens.getD 0
    let cacheCreation := cacheCreationInputTokens.getD 0
    let splitCacheAccounting :=
      containsText (lowercase providerName) "anthropic" ||
        containsText (lowercase providerName) "claude" ||
        cacheCreation > 0 || cacheRead > inputTokens
    if splitCacheAccounting then
      saturatingAdd (saturatingAdd inputTokens cacheRead) cacheCreation
    else inputTokens

def updateCompactionUsageFromStream (moment : ArrivalMoment) (inputTokens : Nat)
    (cacheReadInputTokens cacheCreationInputTokens : Option Nat) : TurnAgent E T :=
  if !moment.usesJcodeCompaction || inputTokens = 0 || !moment.lockFree then a
  else
    let observed := effectiveContextTokensFromUsage lowercase moment.providerName inputTokens
      cacheReadInputTokens cacheCreationInputTokens
    { a with
      manager := (a.manager.updateObservedInputTokens observed).pushTokenSnapshot observed }

/-- The other events change neither the agent's fields here nor the usage. -/
def noteEvent (moment : ArrivalMoment) (usage : StreamUsage) :
    StreamEvent → StreamUsage × TurnAgent E T
  | .tokenUsage inputTokens _ cacheReadInputTokens cacheCreationInputTokens =>
    let usage : StreamUsage :=
      { usageInput := inputTokens.or usage.usageInput
        usageCacheRead := cacheReadInputTokens.or usage.usageCacheRead
        usageCacheCreation := cacheCreationInputTokens.or usage.usageCacheCreation }
    (usage, match usage.usageInput with
      | some input => a.updateCompactionUsageFromStream lowercase moment input usage.usageCacheRead
          usage.usageCacheCreation
      | none => a)
  | .sessionId sid => (usage, { a with providerSessionId := some sid })
  | _ => (usage, a)

/-! ### Recovery -/

/-- Whether the native payload was discarded, and the agent. -/
def tryRecoverOversizedOpenaiNativeCompaction (lockFree : Bool) : Bool × TurnAgent E T :=
  if lockFree && a.manager.nativeOversized then
    (true, (a.syncCompaction
      a.manager.discardOversizedOpenaiNativeCompaction).resetProviderSession)
  else (false, a)

/-- A hard compaction that fails leaves the observed tokens behind. -/
def hardCompact (moment : RecoveryMoment) : Bool × TurnAgent E T :=
  let m := a.manager.updateObservedInputTokens moment.contextWindow
  match m.hardCompactWith env a.providerMessages with
  | .ok (_, m) => (true, (a.syncCompaction m).resetProviderSession)
  | .error _ => (false, { a with manager := m })

/-- Whether the same turn can be tried again, and the agent. -/
def tryAutoCompactAfterContextLimit (moment : RecoveryMoment) (error : String) :
    Bool × TurnAgent E T :=
  if isOpenaiEncryptedContentTooLargeError error &&
      (a.tryRecoverOversizedOpenaiNativeCompaction moment.nativeLockFree).1 then
    a.tryRecoverOversizedOpenaiNativeCompaction moment.nativeLockFree
  else if !isContextLimitError (lowercase error) then (false, a)
  else if !moment.supportsCompaction then (false, a)
  else if !moment.lockFree then (false, a)
  else a.hardCompact env moment

/-! ### The request after a recovery -/

/-- The manager has a summary, and the session knows of it. -/
structure Compacted : Prop where
  session : a.compaction.isSome
  manager : a.manager.activeSummary.isSome

variable {env lowercase a}

lemma compacted_sync {m : CompactionManager E} (h : m.activeSummary.isSome) :
    (a.syncCompaction m).resetProviderSession.Compacted :=
  ⟨CompactionManager.isSome_persistedState.trans h, h⟩

lemma compacted_of_tryRecover {lockFree : Bool}
    (h : (a.tryRecoverOversizedOpenaiNativeCompaction lockFree).1) :
    (a.tryRecoverOversizedOpenaiNativeCompaction lockFree).2.Compacted := by
  rw [tryRecoverOversizedOpenaiNativeCompaction] at h ⊢
  split_ifs at h ⊢ with hnative
  apply compacted_sync
  apply (CompactionManager.extends_discardOversized _).summary
  exact CompactionManager.isSome_activeSummary_of_nativeOversized
    (Bool.and_eq_true_iff.mp hnative).2

lemma compacted_of_hardCompact {moment : RecoveryMoment} (h : (a.hardCompact env moment).1) :
    (a.hardCompact env moment).2.Compacted := by
  rw [hardCompact] at h ⊢
  cases hhard : (a.manager.updateObservedInputTokens moment.contextWindow).hardCompactWith env
      a.providerMessages with
  | ok r => exact compacted_sync (CompactionManager.isSome_activeSummary_of_hardCompact hhard)
  | error reason =>
    rw [hhard] at h
    cases h

/-- A recovery leaves a compacted transcript behind. -/
theorem compacted_of_recovery {moment : RecoveryMoment} {error : String}
    (h : (a.tryAutoCompactAfterContextLimit env lowercase moment error).1) :
    (a.tryAutoCompactAfterContextLimit env lowercase moment error).2.Compacted := by
  rw [tryAutoCompactAfterContextLimit] at h ⊢
  split_ifs at h ⊢ with hnative
  · exact compacted_of_tryRecover h
  · exact compacted_of_hardCompact h

@[simp] lemma messages_keepManager (m : CompactionManager E) (sync : Bool) :
    (a.keepManager m sync).messages = a.messages := by
  rw [keepManager]
  split_ifs <;> rfl

@[simp] lemma manager_keepManager (m : CompactionManager E) (sync : Bool) :
    (a.keepManager m sync).manager = m := by
  rw [keepManager]
  split_ifs <;> rfl

lemma messages_messagesForProvider (moment : BuildMoment E T) :
    (a.messagesForProvider env moment).2.2.messages = a.messages := by
  rw [messagesForProvider]
  split
  · exact messages_keepManager _ _
  · rfl

/-- Messages that come from the manager are the view of the manager that is left behind. -/
lemma messagesForProvider_of_readsManager (env : CompactionEnv E) {moment : BuildMoment E T}
    (h : a.readsManager moment) :
    a.manager.Extends (a.messagesForProvider env moment).2.2.manager ∧
      (a.messagesForProvider env moment).1 =
        (a.messagesForProvider env moment).2.2.manager.apiMessages a.providerMessages := by
  have hdiscard := CompactionManager.extends_discardOversized a.manager
  simp only [messagesForProvider, if_pos h]
  cases moment.usesJcodeCompaction with
  | true =>
    have hfits := @CompactionManager.extends_ensureContextFits _ env moment.embed
      a.providerMessages a.manager.discardOversizedOpenaiNativeCompaction
    have hext := (hdiscard.trans hfits).trans
      (@CompactionManager.extends_messagesForApi _ a.providerMessages _)
    simp only [if_true, manager_keepManager]
    -- taking the event does not change the view
    exact ⟨⟨hext.count_le, hext.summary⟩, rfl⟩
  | false =>
    have hext := hdiscard.trans
      (@CompactionManager.extends_messagesForApi _ a.providerMessages _)
    simp only [Bool.false_eq_true, if_false, manager_keepManager]
    exact ⟨hext, rfl⟩

lemma messages_buildRequest (moment : BuildMoment E T) :
    (a.buildRequest env moment).2.messages =
      (a.repairMissingToolOutputs moment.stamp).messages := by
  simp only [buildRequest, toolDefinitions]
  split_ifs <;> exact messages_messagesForProvider moment

lemma manager_buildRequest (moment : BuildMoment E T) :
    (a.buildRequest env moment).2.manager =
      ((a.repairMissingToolOutputs moment.stamp).messagesForProvider env moment).2.2.manager := by
  simp only [buildRequest, toolDefinitions]
  split_ifs <;> rfl

lemma Compacted.readsManager {moment : BuildMoment E T} (h : a.Compacted)
    (hlock : moment.lockFree) : a.readsManager moment := by
  rw [TurnAgent.readsManager, h.session, hlock, Bool.or_true]
  rfl

/-- The manager that the messages of a request come from. -/
def requestSource (env : CompactionEnv E) (a : TurnAgent E T) (moment : BuildMoment E T) :
    Option (CompactionManager E) :=
  if (a.repairMissingToolOutputs moment.stamp).readsManager moment then
    some (a.buildRequest env moment).2.manager
  else none

/-- The messages `all` are sent as a manager shows them that has compacted all that `m` had: its
summary stands for what it has compacted. -/
def BuiltFrom (m : CompactionManager E) (all : List Message)
    (source : Option (CompactionManager E)) (request : ProviderRequest T) : Prop :=
  ∃ m', source = some m' ∧ m.Extends m' ∧ ∃ summary memory, m'.activeSummary = some summary ∧
    request.messages =
      withMemory (CompactionManager.summaryMessage summary :: m'.activeMessages all) memory

/-- The request that follows a recovery is built from the compacted transcript. -/
theorem buildRequest_builtFrom {moment : BuildMoment E T} {m : CompactionManager E}
    (h : a.Compacted) (hm : m.Extends a.manager) (hlock : moment.lockFree) :
    BuiltFrom m (a.buildRequest env moment).2.providerMessages (requestSource env a moment)
      (a.buildRequest env moment).1 := by
  have hrepaired : (a.repairMissingToolOutputs moment.stamp).Compacted := ⟨h.session, h.manager⟩
  have hreads := hrepaired.readsManager hlock
  obtain ⟨hext, hmessages⟩ := messagesForProvider_of_readsManager env hreads
  rw [← manager_buildRequest] at hext hmessages
  obtain ⟨summary, hsummary⟩ := Option.isSome_iff_exists.mp (hext.summary h.manager)
  refine ⟨_, if_pos hreads, hm.trans hext, summary, moment.memory, hsummary, ?_⟩
  have hrequest : (a.buildRequest env moment).1.messages = withMemory
      ((a.repairMissingToolOutputs moment.stamp).messagesForProvider env moment).1
      moment.memory := rfl
  rw [hrequest, hmessages, CompactionManager.apiMessages, hsummary, providerMessages,
    providerMessages, messages_buildRequest]
  rfl

/-- While somebody else holds the manager's lock, a request is built from the session. -/
lemma requestSource_of_locked {moment : BuildMoment E T} (hlock : moment.lockFree = false) :
    requestSource env a moment = none := by
  rw [requestSource, readsManager, hlock, Bool.and_false]
  rfl

end TurnAgent

end Jcode
