import Jcode.Compaction.Core

/-!
# The compaction manager

`CompactionManager` (`compaction.rs`) keeps no messages. It counts how many messages at the
front of the caller's list have been compacted and carries the summary that stands for them.
Background compaction runs as a task between two calls; hard compaction is immediate.
-/

namespace Jcode

inductive CompactionMode
  | reactive
  | proactive
  | semantic
deriving DecidableEq

def CompactionMode.asStr : CompactionMode → String
  | .reactive => "reactive"
  | .proactive => "proactive"
  | .semantic => "semantic"

/-- The integer parameters of the configuration; its fractions only enter `CompactionEnv`. -/
structure CompactionConfig where
  minSamples : Nat
  stallWindow : Nat
  minTurnsBetweenCompactions : Nat
  goalWindowTurns : Nat
deriving DecidableEq

/-- The fractions that a usage is compared with. -/
inductive UsageThreshold
  | compaction
  | critical
  | manualCompactMin
  | proactiveFloor
deriving DecidableEq

/-- What the manager computes in floating point, and the texts it formats. `E` is the type of
embeddings. -/
structure CompactionEnv (E : Type) where
  /-- `tokens as f32 / budget as f32 >= threshold`. -/
  usageReaches : UsageThreshold → Nat → Nat → Bool
  /-- `tokens as f32 / budget as f32 < threshold`. -/
  usageBelow : UsageThreshold → Nat → Nat → Bool
  /-- The usage as a percentage with one digit. -/
  usagePercent : Nat → Nat → String
  /-- The growth projected from the snapshots reaches the compaction threshold of the budget. -/
  projectsOverflow : List Nat → Nat → Bool
  /-- The mean embeddings of the older and the newer half are less similar than the topic-shift
  threshold. -/
  topicShift : List E → List E → Bool
  /-- The similarity with the goal reaches the keep threshold. -/
  relevant : E → E → Bool
  /-- `build_emergency_summary_text`: existing text, dropped count, tokens, budget, messages. -/
  emergencySummaryText : Option String → Nat → Nat → Nat → List Message → String

structure CompactionResult where
  summaryText : String
  openaiEncryptedContent : Option String
  coversUpToTurn : Nat
  durationMs : Nat
  summarizedMessages : Nat
deriving DecidableEq

/-- How a background task can end. -/
inductive TaskOutcome
  | ok (result : CompactionResult)
  | err (message : String)
  | panicked
deriving DecidableEq

/-- A background task: the messages handed to it, and its outcome once it is finished. -/
structure CompactionTask where
  messages : List Message
  existingSummary : Option Summary
  outcome : Option TaskOutcome
deriving DecidableEq

structure CompactionEvent where
  trigger : String
  preTokens : Option Nat
  postTokens : Option Nat
  tokensSaved : Option Nat
  durationMs : Option Nat
  messagesDropped : Option Nat
  messagesCompacted : Option Nat
  summaryChars : Option Nat
  activeMessages : Option Nat
deriving DecidableEq

inductive CompactionAction
  | none
  | backgroundStarted (trigger : String)
  | hardCompacted (dropped : Nat)
deriving DecidableEq

structure CompactionManager (E : Type) where
  compactedCount : Nat
  activeSummary : Option Summary
  activeMessageChars : Nat
  activeMessageCharsDirty : Bool
  pendingTask : Option CompactionTask
  pendingTrigger : Option String
  pendingCutoff : Nat
  totalTurns : Nat
  suppressCompactionUntilNewMessage : Bool
  tokenBudget : Nat
  observedInputTokens : Option Nat
  lastCompaction : Option CompactionEvent
  mode : CompactionMode
  compactionConfig : CompactionConfig
  tokenHistory : List Nat
  turnsSinceLastCompact : Nat
  embeddingHistory : List E
deriving DecidableEq

namespace CompactionManager

variable {E : Type} (env : CompactionEnv E) (m : CompactionManager E)

def new (mode : CompactionMode) (config : CompactionConfig) : CompactionManager E where
  compactedCount := 0
  activeSummary := none
  activeMessageChars := 0
  activeMessageCharsDirty := false
  pendingTask := none
  pendingTrigger := none
  pendingCutoff := 0
  totalTurns := 0
  suppressCompactionUntilNewMessage := false
  tokenBudget := defaultTokenBudget
  observedInputTokens := none
  lastCompaction := none
  mode := mode
  compactionConfig := config
  tokenHistory := []
  turnsSinceLastCompact := 0
  embeddingHistory := []

def setBudget (budget : Nat) : CompactionManager E := { m with tokenBudget := budget }

def setMode (mode : CompactionMode) : CompactionManager E := { m with mode := mode }

def notifyMessageAddedWith (message : Message) : CompactionManager E :=
  { m with
    totalTurns := m.totalTurns + 1
    suppressCompactionUntilNewMessage := false
    activeMessageChars := m.activeMessageChars + contentCharCount message.content
    activeMessageCharsDirty := false }

def updateObservedInputTokens (tokens : Nat) : CompactionManager E :=
  { m with observedInputTokens := some tokens }

/-- Keep the last `window` entries. -/
def pushBounded {α : Type} (window : Nat) (history : List α) (x : α) : List α :=
  let history := history ++ [x]
  if history.length > window then history.tail else history

def pushTokenSnapshot (tokens : Nat) : CompactionManager E :=
  { m with
    tokenHistory := pushBounded tokenHistoryWindow m.tokenHistory tokens
    turnsSinceLastCompact := m.turnsSinceLastCompact + 1 }

/-- `embed` is `cached_semantic_embedding`, which may fail. -/
def pushEmbeddingSnapshot (embed : String → Option E) (text : String) : CompactionManager E :=
  match embed (String.ofList (text.toList.take embedMaxCharsPerMsg)) with
  | some emb =>
    { m with embeddingHistory := pushBounded embeddingHistoryWindow m.embeddingHistory emb }
  | none => m

/-- Drop a provider-native summary that is too large to be sent again. -/
def discardOversizedOpenaiNativeCompaction : CompactionManager E :=
  match m.activeSummary with
  | none => m
  | some summary =>
    match summary.openaiEncryptedContent with
    | none => m
    | some encryptedContent =>
      if openaiEncryptedContentIsSendable encryptedContent then m
      else
        let fallback := openaiEncryptedContentFallbackSummary encryptedContent.utf8ByteSize
        let text :=
          if summary.text.toList.all isWhitespace then fallback
          else if "OpenAI native compaction state was discarded".toList <:+: summary.text.toList
          then summary.text
          else summary.text ++ "\n\n" ++ fallback
        { m with
          activeSummary := some { summary with text, openaiEncryptedContent := none }
          observedInputTokens := none }

/-! ### Usage -/

/-- Where the active messages begin in the caller's list. -/
def activeStart (allMessages : List Message) : Nat :=
  if m.compactedCount ≤ allMessages.length then m.compactedCount else 0

def activeMessages (allMessages : List Message) : List Message :=
  allMessages.drop (m.activeStart allMessages)

def activeMessagesCount : Nat := m.totalTurns - m.compactedCount

def activeMessageCharsWith (allMessages : List Message) : Nat :=
  if m.activeMessageCharsDirty || m.activeMessagesCount ≠ (m.activeMessages allMessages).length
  then ((m.activeMessages allMessages).map messageCharCount).sum
  else m.activeMessageChars

def tokenEstimateWith (allMessages : List Message) : Nat :=
  estimateCompactionTokens m.activeSummary (m.activeMessageCharsWith allMessages) m.tokenBudget

def effectiveTokenCountWith (allMessages : List Message) : Nat :=
  max (m.tokenEstimateWith allMessages) (m.observedInputTokens.getD 0)

/-- Without messages: the summary and the observed tokens only. -/
def effectiveTokenCount : Nat :=
  max (estimateCompactionTokens m.activeSummary 0 m.tokenBudget) (m.observedInputTokens.getD 0)

def usageReaches (threshold : UsageThreshold) (allMessages : List Message) : Bool :=
  env.usageReaches threshold (m.effectiveTokenCountWith allMessages) m.tokenBudget

def usageBelow (threshold : UsageThreshold) (allMessages : List Message) : Bool :=
  env.usageBelow threshold (m.effectiveTokenCountWith allMessages) m.tokenBudget

/-! ### Triggers -/

/-- No growth over the last `stall_window` snapshots. A window of `0` makes the source panic
before it has changed anything; here it blocks. -/
def growthStalled : Bool :=
  let window := m.compactionConfig.stallWindow
  if m.tokenHistory.length ≥ window then
    match (m.tokenHistory.reverse.take window).getLast?, m.tokenHistory.getLast? with
    | some oldest, some newest => newest ≤ oldest
    | _, _ => true
  else false

def antiSignalsBlock (allMessages : List Message) : Bool :=
  m.pendingTask.isSome ||
    m.usageBelow env .proactiveFloor allMessages ||
    m.tokenHistory.length < m.compactionConfig.minSamples ||
    m.growthStalled ||
    m.turnsSinceLastCompact < m.compactionConfig.minTurnsBetweenCompactions

def shouldCompactProactively (allMessages : List Message) : Bool :=
  !m.antiSignalsBlock env allMessages &&
    (2 ≤ m.tokenHistory.length && env.projectsOverflow m.tokenHistory m.tokenBudget)

def shouldCompactSemantic (allMessages : List Message) : Bool :=
  if m.antiSignalsBlock env allMessages then false
  else if m.embeddingHistory.length < 4 then m.shouldCompactProactively env allMessages
  else
    let half := m.embeddingHistory.length / 2
    env.topicShift (m.embeddingHistory.take half) (m.embeddingHistory.drop half) ||
      m.shouldCompactProactively env allMessages

def shouldCompactWith (allMessages : List Message) : Bool :=
  if m.suppressCompactionUntilNewMessage then false
  else
    let enough := (m.activeMessages allMessages).length > recentTurnsToKeep
    match m.mode with
    | .reactive => m.pendingTask.isNone && m.usageReaches env .compaction allMessages && enough
    | .proactive => enough && m.shouldCompactProactively env allMessages
    | .semantic => enough && m.shouldCompactSemantic env allMessages

/-- The number of relevant candidates and the earliest of them. -/
def relevanceScan (embed : String → Option E) (goal : E) (candidates : List (Message × Nat))
    (standardCutoff : Nat) : Nat × Nat :=
  candidates.foldl (fun (count, earliest) (msg, idx) =>
    let text := semanticMessageText msg
    if text.isEmpty then (count, earliest)
    else
      match embed text with
      | some embedding =>
        if env.relevant goal embedding then (count + 1, min earliest idx) else (count, earliest)
      | none => (count, earliest)) (0, standardCutoff)

def semanticCutoff (embed : String → Option E) (active : List Message) : Nat :=
  let standardCutoff := active.length - recentTurnsToKeep
  if standardCutoff = 0 then 0
  else
    let goalTurns := min m.compactionConfig.goalWindowTurns active.length
    let goalText := semanticGoalText (active.drop (active.length - goalTurns))
    if goalText.isEmpty then standardCutoff
    else
      match embed goalText with
      | none => standardCutoff
      | some goal =>
        let candidates := (active.take standardCutoff).zipIdx
        let (highRelevanceCount, adjustedCutoff) :=
          relevanceScan env embed goal candidates standardCutoff
        if highRelevanceCount = 0 then standardCutoff
        else if adjustedCutoff < 2 then standardCutoff
        else adjustedCutoff

/-! ### Background compaction -/

/-- Hand the first `cutoff` active messages to a background task. -/
def startTask (allMessages : List Message) (cutoff : Nat) (trigger : String) :
    CompactionManager E :=
  { m with
    pendingCutoff := cutoff
    pendingTrigger := some trigger
    pendingTask := some
      { messages := (m.activeMessages allMessages).take cutoff
        existingSummary := m.activeSummary
        outcome := none } }

def maybeStartCompactionWith (embed : String → Option E) (allMessages : List Message) :
    CompactionManager E :=
  if m.shouldCompactWith env allMessages then
    let active := m.activeMessages allMessages
    let cutoff :=
      match m.mode with
      | .semantic => m.semanticCutoff env embed active
      | _ => active.length - recentTurnsToKeep
    if cutoff = 0 then m
    else
      let cutoff := safeCompactionCutoff active cutoff
      if cutoff = 0 then m else m.startTask allMessages cutoff m.mode.asStr
  else m

def forceCompactWith (allMessages : List Message) : Except String (CompactionManager E) :=
  if m.pendingTask.isSome then .error "Compaction already in progress"
  else
    let active := m.activeMessages allMessages
    if active.length ≤ recentTurnsToKeep then
      .error ("Not enough messages to compact (need more than " ++ toString recentTurnsToKeep ++
        ", have " ++ toString active.length ++ ")")
    else if m.usageBelow env .manualCompactMin allMessages then
      .error ("Context usage too low (" ++
        env.usagePercent (m.effectiveTokenCountWith allMessages) m.tokenBudget ++
        "%) - nothing to compact")
    else
      let cutoff := active.length - recentTurnsToKeep
      if cutoff = 0 then
        .error "No messages available to compact after keeping recent turns"
      else
        let cutoff := safeCompactionCutoff active cutoff
        if cutoff = 0 then .error "Cannot compact - would split tool call/result pairs"
        else .ok (m.startTask allMessages cutoff "manual")

/-- What the summariser comes back with; a native payload that cannot be sent is not used. -/
inductive TaskReport
  | summary (text : String) (encrypted : Option String) (durationMs : Nat)
  | err (message : String)
  | panicked

/-- The running task ends (`generate_compaction_artifact` and the code around its call). -/
def finishTask (task : CompactionTask) : TaskReport → CompactionTask
  | .summary text encrypted durationMs =>
    { task with
      outcome := some (.ok
        { summaryText := text
          openaiEncryptedContent := encrypted.filter openaiEncryptedContentIsSendable
          coversUpToTurn := task.messages.length
          durationMs := durationMs
          summarizedMessages := task.messages.length }) }
  | .err message => { task with outcome := some (.err message) }
  | .panicked => { task with outcome := some .panicked }

/-- The result of a finished task is taken over. -/
def applyResult (result : CompactionResult) (allMessages : List Message) : CompactionManager E :=
  let preTokens := m.effectiveTokenCountWith allMessages
  let compactedChars :=
    (((m.activeMessages allMessages).take m.pendingCutoff).map messageCharCount).sum
  let summary : Summary :=
    { text := result.summaryText
      openaiEncryptedContent := result.openaiEncryptedContent
      coversUpToTurn := result.coversUpToTurn
      originalTurnCount := m.pendingCutoff }
  -- the rolling estimate is read after the count has advanced
  let m := { m with compactedCount := m.compactedCount + m.pendingCutoff }
  let m := { m with
    activeMessageChars := m.activeMessageCharsWith allMessages - compactedChars
    activeMessageCharsDirty := false }
  let m := { m with activeSummary := some summary }.discardOversizedOpenaiNativeCompaction
  let m := { m with observedInputTokens := none }
  let postTokens := m.effectiveTokenCountWith allMessages
  { m with
    lastCompaction := some
      { trigger := m.pendingTrigger.getD m.mode.asStr
        preTokens := some preTokens
        postTokens := some postTokens
        tokensSaved := some (preTokens - postTokens)
        durationMs := some result.durationMs
        messagesDropped := none
        messagesCompacted := some result.summarizedMessages
        summaryChars := m.activeSummary.map (·.text.utf8ByteSize)
        activeMessages := some m.activeMessagesCount }
    pendingTrigger := none
    turnsSinceLastCompact := 0
    pendingCutoff := 0 }

/-- The pending task has come back with a summary. -/
def ready : Bool :=
  match m.pendingTask with
  | some ⟨_, _, some (.ok _)⟩ => true
  | _ => false

def checkAndApplyCompactionWith (allMessages : List Message) : CompactionManager E :=
  match m.pendingTask with
  | none => m
  | some task =>
    match task.outcome with
    | none => m
    | some (.ok result) => { m with pendingTask := none }.applyResult result allMessages
    | some (.err _) | some .panicked =>
      { m with pendingTask := none, pendingTrigger := none, pendingCutoff := 0 }

/-! ### Hard compaction -/

def suffixChars (active : List Message) (cutoff : Nat) : Nat :=
  ((active.drop cutoff).map messageCharCount).sum

/-- The loop of `hard_compact_with`: keep fewer turns until the rest fits the budget. -/
def hardCutoff (active : List Message) (tokenBudget turnsToKeep : Nat) : Nat :=
  let cutoff := safeCompactionCutoff active (active.length - turnsToKeep)
  if 0 < cutoff ∧ suffixChars active cutoff / charsPerToken ≤ tokenBudget then cutoff
  else if turnsToKeep ≤ minTurnsToKeep then
    safeCompactionCutoff active (active.length - minTurnsToKeep)
  else hardCutoff active tokenBudget (max (turnsToKeep / 2) minTurnsToKeep)
termination_by turnsToKeep
decreasing_by
  simp only [minTurnsToKeep] at *
  omega

def hardCompactWith (allMessages : List Message) : Except String (Nat × CompactionManager E) :=
  let active := m.activeMessages allMessages
  if active.length ≤ minTurnsToKeep then
    .error ("Not enough messages to compact (have " ++ toString active.length ++
      ", need more than " ++ toString minTurnsToKeep ++ ")")
  else
    let preTokens := m.effectiveTokenCountWith allMessages
    let cutoff := hardCutoff active m.tokenBudget (min recentTurnsToKeep (active.length - 1))
    if cutoff = 0 then .error "Cannot compact — would split tool call/result pairs"
    else
      let summary : Summary :=
        { text := env.emergencySummaryText (m.activeSummary.map (·.text)) cutoff preTokens
            m.tokenBudget (active.take cutoff)
          openaiEncryptedContent := none
          coversUpToTurn := cutoff
          originalTurnCount := cutoff }
      let m := { m with
        compactedCount := m.compactedCount + cutoff
        activeMessageChars := suffixChars active cutoff
        activeMessageCharsDirty := false
        activeSummary := some summary
        observedInputTokens := none }
      let postTokens := m.effectiveTokenCount
      .ok (cutoff, { m with
        lastCompaction := some
          { trigger := "hard_compact"
            preTokens := some preTokens
            postTokens := some postTokens
            tokensSaved := some (preTokens - postTokens)
            durationMs := some 0
            messagesDropped := some cutoff
            messagesCompacted := some cutoff
            summaryChars := some summary.text.utf8ByteSize
            activeMessages := some m.activeMessagesCount } })

/-- Start a background compaction if needed; compact at once when the context is critical. -/
def ensureContextFits (embed : String → Option E) (allMessages : List Message) :
    CompactionAction × CompactionManager E :=
  let wasCompacting := m.pendingTask.isSome
  let m := m.maybeStartCompactionWith env embed allMessages
  let action :=
    if !wasCompacting && m.pendingTask.isSome then
      CompactionAction.backgroundStarted (m.pendingTrigger.getD m.mode.asStr)
    else .none
  if m.usageReaches env .critical allMessages then
    match m.hardCompactWith env allMessages with
    | .ok (dropped, m) => (.hardCompacted dropped, m)
    | .error _ => (action, m)
  else (action, m)

/-! ### Messages for the provider -/

/-- The message that stands for the compacted ones. -/
def summaryMessage (summary : Summary) : Message where
  role := .user
  content :=
    [match summary.openaiEncryptedContent with
      | some encryptedContent => .openAICompaction encryptedContent
      | none => .text (compactedSummaryTextBlock summary.text) none]
  timestamp := none
  toolDurationMs := none

/-- The list sent for the manager as it stands. -/
def apiMessages (allMessages : List Message) : List Message :=
  (m.activeSummary.map summaryMessage).toList ++ m.activeMessages allMessages

def messagesForApiWith (allMessages : List Message) : List Message × CompactionManager E :=
  let m := (m.checkAndApplyCompactionWith allMessages).discardOversizedOpenaiNativeCompaction
  (m.apiMessages allMessages, m)

/-! ### What the calls do to the position -/

variable {env m} {m' : CompactionManager E} {allMessages : List Message}
  {embed : String → Option E} {n : Nat}

lemma pendingTask_of_antiSignals (h : m.antiSignalsBlock env allMessages = false) :
    m.pendingTask = none := by
  simp only [antiSignalsBlock, Bool.or_eq_false_iff] at h
  simpa using h.1.1.1.1

lemma pendingTask_of_proactively (h : m.shouldCompactProactively env allMessages) :
    m.pendingTask = none := by
  simp only [shouldCompactProactively, Bool.and_eq_true, Bool.not_eq_true'] at h
  exact pendingTask_of_antiSignals h.1

/-- No trigger fires while a task is pending. -/
lemma pendingTask_of_shouldCompact (h : m.shouldCompactWith env allMessages) :
    m.pendingTask = none := by
  simp only [shouldCompactWith] at h
  split_ifs at h
  cases hmode : m.mode with
  | reactive =>
    simp only [hmode, Bool.and_eq_true] at h
    simpa using h.1.1
  | proactive =>
    simp only [hmode, Bool.and_eq_true] at h
    exact pendingTask_of_proactively h.2
  | semantic =>
    simp only [hmode, Bool.and_eq_true, shouldCompactSemantic] at h
    by_cases hanti : m.antiSignalsBlock env allMessages
    · simp [hanti] at h
    · exact pendingTask_of_antiSignals (Bool.eq_false_iff.mpr hanti)

/-- A call may start a task on the first active messages, when none is pending. -/
def Starts (m m' : CompactionManager E) (allMessages : List Message) : Prop :=
  m.pendingTask = none ∧ ∃ cutoff trigger, 0 < cutoff ∧
    cutoff ≤ (m.activeMessages allMessages).length ∧ m' = m.startTask allMessages cutoff trigger

lemma starts_of_safeCutoff {cutoff : Nat} {trigger : String} (hp : m.pendingTask = none)
    (h : safeCompactionCutoff (m.activeMessages allMessages) cutoff ≠ 0) :
    m.Starts (m.startTask allMessages
      (safeCompactionCutoff (m.activeMessages allMessages) cutoff) trigger) allMessages :=
  ⟨hp, _, trigger, Nat.pos_of_ne_zero h,
    safeCompactionCutoff_le.trans (min_le_right _ _), rfl⟩

lemma maybeStart_cases (m : CompactionManager E) (env : CompactionEnv E)
    (embed : String → Option E) (allMessages : List Message) :
    m.maybeStartCompactionWith env embed allMessages = m ∨
      m.Starts (m.maybeStartCompactionWith env embed allMessages) allMessages := by
  unfold maybeStartCompactionWith
  by_cases hs : m.shouldCompactWith env allMessages
  · rw [if_pos hs]
    dsimp only
    split_ifs with hzero hsafe
    · exact .inl rfl
    · exact .inl rfl
    · exact .inr (starts_of_safeCutoff (pendingTask_of_shouldCompact hs) hsafe)
  · rw [if_neg hs]
    exact .inl rfl

lemma forceCompact_starts (h : m.forceCompactWith env allMessages = .ok m') :
    m.Starts m' allMessages := by
  simp only [forceCompactWith] at h
  split_ifs at h with hp hlen husage hzero hsafe
  cases h
  exact starts_of_safeCutoff (Option.not_isSome_iff_eq_none.mp hp) hsafe

lemma hardCutoff_le {active : List Message} {tokenBudget turnsToKeep : Nat} :
    hardCutoff active tokenBudget turnsToKeep ≤ active.length := by
  induction turnsToKeep using hardCutoff.induct active tokenBudget with
  | case1 turnsToKeep cutoff hfits =>
    rw [hardCutoff, if_pos hfits]
    exact safeCompactionCutoff_le.trans (min_le_right _ _)
  | case2 turnsToKeep cutoff hfits hmin =>
    rw [hardCutoff, if_neg hfits, if_pos hmin]
    exact safeCompactionCutoff_le.trans (min_le_right _ _)
  | case3 turnsToKeep cutoff hfits hmin ih =>
    rw [hardCutoff, if_neg hfits, if_neg hmin]
    exact ih

/-- A hard compaction advances over `n` active messages and leaves the pending task alone. -/
lemma hardCompact_spec (h : m.hardCompactWith env allMessages = .ok (n, m')) :
    0 < n ∧ n ≤ (m.activeMessages allMessages).length ∧
      m'.compactedCount = m.compactedCount + n ∧ m'.pendingTask = m.pendingTask ∧
      m'.pendingCutoff = m.pendingCutoff := by
  simp only [hardCompactWith] at h
  split_ifs at h with hlen hzero
  cases h
  exact ⟨Nat.pos_of_ne_zero hzero, hardCutoff_le, rfl, rfl, rfl⟩

/-- `ensure_context_fits` is a possible start followed by a possible hard compaction. -/
lemma ensureContextFits_cases (m : CompactionManager E) (env : CompactionEnv E)
    (embed : String → Option E) (allMessages : List Message) :
    (∃ n, m.ensureContextFits env embed allMessages =
        (.hardCompacted n, (m.ensureContextFits env embed allMessages).2) ∧
      (m.maybeStartCompactionWith env embed allMessages).hardCompactWith env allMessages =
        .ok (n, (m.ensureContextFits env embed allMessages).2)) ∨
    ((∀ n, (m.ensureContextFits env embed allMessages).1 ≠ .hardCompacted n) ∧
      (m.ensureContextFits env embed allMessages).2 =
        m.maybeStartCompactionWith env embed allMessages) := by
  simp only [ensureContextFits]
  split_ifs
  any_goals exact .inr ⟨by simp, rfl⟩
  -- a critical usage, whether or not a task was started
  all_goals
    cases hhard : (m.maybeStartCompactionWith env embed allMessages).hardCompactWith env
      allMessages with
    | ok r => exact .inl ⟨r.1, rfl, rfl⟩
    | error reason => exact .inr ⟨by simp, rfl⟩

/-- Only the summary and the observed tokens are touched. -/
lemma discardOversized_frame : ∃ summary tokens, m.discardOversizedOpenaiNativeCompaction =
    { m with activeSummary := summary, observedInputTokens := tokens } := by
  unfold discardOversizedOpenaiNativeCompaction
  split
  · exact ⟨_, _, rfl⟩
  · split
    · exact ⟨_, _, rfl⟩
    · split_ifs <;> exact ⟨_, _, rfl⟩

@[simp] lemma discardOversized_compactedCount :
    m.discardOversizedOpenaiNativeCompaction.compactedCount = m.compactedCount := by
  obtain ⟨summary, tokens, h⟩ := discardOversized_frame (m := m)
  rw [h]

@[simp] lemma discardOversized_pendingTask :
    m.discardOversizedOpenaiNativeCompaction.pendingTask = m.pendingTask := by
  obtain ⟨summary, tokens, h⟩ := discardOversized_frame (m := m)
  rw [h]

@[simp] lemma discardOversized_pendingCutoff :
    m.discardOversizedOpenaiNativeCompaction.pendingCutoff = m.pendingCutoff := by
  obtain ⟨summary, tokens, h⟩ := discardOversized_frame (m := m)
  rw [h]

lemma ready_iff : m.ready ↔
    ∃ task result, m.pendingTask = some task ∧ task.outcome = some (.ok result) := by
  unfold ready
  split
  · rename_i messages existing result hp
    exact ⟨fun _ => ⟨_, result, hp, rfl⟩, fun _ => rfl⟩
  · rename_i hno
    refine ⟨fun h => (nomatch h), fun ⟨task, result, hp, ho⟩ => ?_⟩
    exact (hno task.messages task.existingSummary result (by rw [hp, ← ho])).elim

/-- A ready result advances the count by the cutoff recorded when its task was started. -/
lemma checkAndApply_of_ready (h : m.ready) (allMessages : List Message) :
    (m.checkAndApplyCompactionWith allMessages).compactedCount =
        m.compactedCount + m.pendingCutoff ∧
      (m.checkAndApplyCompactionWith allMessages).pendingTask = none := by
  obtain ⟨task, result, hp, ho⟩ := ready_iff.mp h
  simp [checkAndApplyCompactionWith, hp, ho, applyResult]

lemma checkAndApply_of_not_ready (h : ¬ m.ready) (allMessages : List Message) :
    (m.checkAndApplyCompactionWith allMessages).compactedCount = m.compactedCount ∧
      ((m.checkAndApplyCompactionWith allMessages).pendingTask = none ∨
        m.checkAndApplyCompactionWith allMessages = m) := by
  unfold checkAndApplyCompactionWith
  cases hp : m.pendingTask with
  | none => exact ⟨rfl, .inr rfl⟩
  | some task =>
    cases ho : task.outcome with
    | none => exact ⟨by simp [ho], .inr (by simp [ho])⟩
    | some outcome =>
      cases outcome with
      | ok result => exact (h (ready_iff.mpr ⟨task, result, hp, ho⟩)).elim
      | err message => exact ⟨by simp [ho], .inl (by simp [ho])⟩
      | panicked => exact ⟨by simp [ho], .inl (by simp [ho])⟩

end CompactionManager

end Jcode
