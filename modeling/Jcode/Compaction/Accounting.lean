import Jcode.Compaction.Coverage
import Jcode.Session.Model

/-!
# The rolling size of the active messages

The manager keeps the size of the active messages in a counter and marks it dirty where it cannot
keep it. The counter stays exact as long as nothing that clears the mark builds on it.
-/

namespace Jcode

open Schedule CompactionManager

/-! ### Emergency truncation -/

def emergencyToolResultMaxChars : Nat := 4000

/-- The longest prefix of at most `maxBytes` bytes. -/
def takeBytes (maxBytes : Nat) : List Char → List Char
  | [] => []
  | c :: cs => if c.utf8Size ≤ maxBytes then c :: takeBytes (maxBytes - c.utf8Size) cs else []

def truncateStrBoundary (value : String) (maxBytes : Nat) : String :=
  String.ofList (takeBytes maxBytes value.toList)

def tailStrBoundary (value : String) (maxBytes : Nat) : String :=
  String.ofList (takeBytes maxBytes value.toList.reverse).reverse

def emergencyTruncatedToolResult (content : String) (maxChars : Nat) : String :=
  let originalLen := content.utf8ByteSize
  let head := truncateStrBoundary content (maxChars / 2)
  let tail := tailStrBoundary content (maxChars / 4)
  let truncatedLen := originalLen - (head.utf8ByteSize + tail.utf8ByteSize)
  head ++ "\n\n... [" ++ toString truncatedLen ++ " chars truncated for context recovery] ...\n\n" ++
    tail

/-- A tool result that is longer than the limit. -/
def oversizedResult (maxChars : Nat) : ContentBlock → Bool
  | .toolResult _ content _ => content.utf8ByteSize > maxChars
  | _ => false

def truncateBlock (maxChars : Nat) : ContentBlock → ContentBlock
  | .toolResult toolUseId content isError =>
    if content.utf8ByteSize > maxChars then
      .toolResult toolUseId (emergencyTruncatedToolResult content maxChars) isError
    else .toolResult toolUseId content isError
  | block => block

/-- The number of results that were truncated, and the messages. -/
def emergencyTruncateToolResults (messages : List Message) (maxChars : Nat) : Nat × List Message :=
  ((messages.flatMap (·.content)).countP (oversizedResult maxChars),
    messages.map fun msg => { msg with content := msg.content.map (truncateBlock maxChars) })

lemma truncateBlock_of_not_oversized {maxChars : Nat} {block : ContentBlock}
    (h : ¬ oversizedResult maxChars block) : truncateBlock maxChars block = block := by
  cases block with
  | toolResult toolUseId content isError =>
    simp only [oversizedResult, decide_eq_true_eq] at h
    rw [truncateBlock, if_neg h]
  | _ => rfl

lemma emergencyTruncate_of_zero {messages : List Message} {maxChars : Nat}
    (h : (emergencyTruncateToolResults messages maxChars).1 = 0) :
    (emergencyTruncateToolResults messages maxChars).2 = messages := by
  have hnone := List.countP_eq_zero.mp h
  rw [emergencyTruncateToolResults]
  conv_rhs => rw [← List.map_id messages]
  refine List.map_congr_left fun msg hmsg => ?_
  have hcontent : msg.content.map (truncateBlock maxChars) = msg.content := by
    conv_rhs => rw [← List.map_id msg.content]
    refine List.map_congr_left fun block hblock => truncateBlock_of_not_oversized ?_
    exact hnone block (List.mem_flatMap.mpr ⟨msg, hmsg, hblock⟩)
  rw [hcontent, id]

lemma length_emergencyTruncate {messages : List Message} {maxChars : Nat} :
    (emergencyTruncateToolResults messages maxChars).2.length = messages.length :=
  List.length_map ..

/-! ### Notifications, seeds and restored states -/

namespace CompactionManager

variable {E : Type} (m : CompactionManager E)

def notifyMessageAdded : CompactionManager E :=
  { m with
    totalTurns := m.totalTurns + 1
    suppressCompactionUntilNewMessage := false
    activeMessageCharsDirty := true }

def notifyMessageAddedBlocks (content : List ContentBlock) : CompactionManager E :=
  { m with
    totalTurns := m.totalTurns + 1
    suppressCompactionUntilNewMessage := false
    activeMessageChars := m.activeMessageChars + contentCharCount content
    activeMessageCharsDirty := false }

def seedRestoredMessages (count : Nat) : CompactionManager E :=
  { m with
    totalTurns := count
    suppressCompactionUntilNewMessage := count > 0
    activeMessageChars := 0
    activeMessageCharsDirty := count > 0 }

def seedRestoredMessagesWith (allMessages : List Message) : CompactionManager E :=
  { m with
    totalTurns := allMessages.length
    suppressCompactionUntilNewMessage := !allMessages.isEmpty
    activeMessageChars := (allMessages.map messageCharCount).sum
    activeMessageCharsDirty := false }

def restorePersistedState (state : StoredCompactionState) (totalMessages : Nat) :
    CompactionManager E :=
  { m with
    pendingTask := none
    pendingTrigger := none
    pendingCutoff := 0
    observedInputTokens := none
    lastCompaction := none
    tokenHistory := []
    turnsSinceLastCompact := 0
    embeddingHistory := []
    totalTurns := totalMessages
    compactedCount := min state.compactedCount totalMessages
    activeMessageChars := 0
    activeMessageCharsDirty := totalMessages > min state.compactedCount totalMessages
    activeSummary := some
      { text := state.summaryText
        openaiEncryptedContent := state.openaiEncryptedContent
        coversUpToTurn := state.coversUpToTurn
        originalTurnCount := state.originalTurnCount }
    suppressCompactionUntilNewMessage := totalMessages > 0 }

def restorePersistedStateWith (state : StoredCompactionState) (allMessages : List Message) :
    CompactionManager E :=
  let m := m.restorePersistedState state allMessages.length
  { m with
    activeMessageChars := ((m.activeMessages allMessages).map messageCharCount).sum
    activeMessageCharsDirty := false }

/-- Export the currently active compacted view. -/
def persistedState : Option StoredCompactionState :=
  m.activeSummary.map fun summary =>
    { summaryText := summary.text
      openaiEncryptedContent := summary.openaiEncryptedContent
      coversUpToTurn := summary.coversUpToTurn
      originalTurnCount := summary.originalTurnCount
      compactedCount := m.compactedCount }

/-- `check_and_apply_compaction`, which is called without the caller's messages. -/
def checkAndApplyCompaction : CompactionManager E :=
  { m.checkAndApplyCompactionWith [] with activeMessageCharsDirty := true }

/-- The messages are those that the caller's list holds afterwards. -/
def emergencyTruncateWith (allMessages : List Message) : CompactionManager E × List Message :=
  let start := min m.compactedCount allMessages.length
  let truncated := emergencyTruncateToolResults (allMessages.drop start) emergencyToolResultMaxChars
  (if truncated.1 > 0 then { m with observedInputTokens := none } else m,
    allMessages.take start ++ truncated.2)

end CompactionManager

/-! ### Runs -/

/-- A manager and the list of its caller. -/
structure Accounting (E : Type) where
  messages : List Message
  manager : CompactionManager E

/-- What the caller does. A seeded or restored list is the one that the caller holds from then on:
the messages so far and those that were restored behind them. -/
inductive AccountingCall (E : Type)
  | notifyMessageAdded (message : Message)
  | notifyMessageAddedBlocks (message : Message)
  | seedRestoredMessages (restored : List Message)
  | seedRestoredMessagesWith (restored : List Message)
  | restorePersistedState (state : StoredCompactionState) (restored : List Message)
  | restorePersistedStateWith (state : StoredCompactionState) (restored : List Message)
  | maybeStartCompactionWith (embed : String → Option E)
  | ensureContextFits (embed : String → Option E)
  | forceCompactWith
  | hardCompactWith
  | taskFinishes (report : TaskReport)
  | checkAndApplyCompactionWith
  | checkAndApplyCompaction
  | messagesForApiWith
  | emergencyTruncateWith
  | updateObservedInputTokens (tokens : Nat)
  | pushTokenSnapshot (tokens : Nat)
  | pushEmbeddingSnapshot (embed : String → Option E) (text : String)
  | setBudget (budget : Nat)
  | setMode (mode : CompactionMode)

namespace Accounting

variable {E : Type} (env : CompactionEnv E) (s : Accounting E)

def start (mode : CompactionMode) (config : CompactionConfig) : Accounting E where
  messages := []
  manager := .new mode config

def step : AccountingCall E → Option (Accounting E)
  | .notifyMessageAdded message =>
    some ⟨s.messages ++ [message], s.manager.notifyMessageAdded⟩
  | .notifyMessageAddedBlocks message =>
    some ⟨s.messages ++ [message], s.manager.notifyMessageAddedBlocks message.content⟩
  | .seedRestoredMessages restored =>
    let all := s.messages ++ restored
    some ⟨all, s.manager.seedRestoredMessages all.length⟩
  | .seedRestoredMessagesWith restored =>
    let all := s.messages ++ restored
    some ⟨all, s.manager.seedRestoredMessagesWith all⟩
  | .restorePersistedState state restored =>
    let all := s.messages ++ restored
    some ⟨all, s.manager.restorePersistedState state all.length⟩
  | .restorePersistedStateWith state restored =>
    let all := s.messages ++ restored
    some ⟨all, s.manager.restorePersistedStateWith state all⟩
  | .maybeStartCompactionWith embed =>
    some { s with manager := s.manager.maybeStartCompactionWith env embed s.messages }
  | .ensureContextFits embed =>
    some { s with manager := (s.manager.ensureContextFits env embed s.messages).2 }
  | .forceCompactWith =>
    match s.manager.forceCompactWith env s.messages with
    | .ok m => some { s with manager := m }
    | .error _ => some s
  | .hardCompactWith =>
    match s.manager.hardCompactWith env s.messages with
    | .ok (_, m) => some { s with manager := m }
    | .error _ => some s
  | .taskFinishes report =>
    match s.manager.pendingTask with
    | some task =>
      if task.outcome.isNone then
        some { s with manager := { s.manager with pendingTask := some (finishTask task report) } }
      else none
    | none => none
  | .checkAndApplyCompactionWith =>
    some { s with manager := s.manager.checkAndApplyCompactionWith s.messages }
  | .checkAndApplyCompaction => some { s with manager := s.manager.checkAndApplyCompaction }
  | .messagesForApiWith => some { s with manager := (s.manager.messagesForApiWith s.messages).2 }
  | .emergencyTruncateWith =>
    let (m, messages) := s.manager.emergencyTruncateWith s.messages
    some ⟨messages, m⟩
  | .updateObservedInputTokens tokens =>
    some { s with manager := s.manager.updateObservedInputTokens tokens }
  | .pushTokenSnapshot tokens => some { s with manager := s.manager.pushTokenSnapshot tokens }
  | .pushEmbeddingSnapshot embed text =>
    some { s with manager := s.manager.pushEmbeddingSnapshot embed text }
  | .setBudget budget => some { s with manager := s.manager.setBudget budget }
  | .setMode mode => some { s with manager := s.manager.setMode mode }

/-- The size of the messages that are not compacted, counted anew. -/
def uncompactedChars (m : CompactionManager E) (messages : List Message) : Nat :=
  ((messages.drop m.compactedCount).map messageCharCount).sum

/-- The estimate is the one computed from scratch. -/
def Exact : Prop :=
  s.manager.tokenEstimateWith s.messages = estimateCompactionTokens s.manager.activeSummary
    (uncompactedChars s.manager s.messages) s.manager.tokenBudget

/-- A background result is applied inside of the list, and not onto a counter marked dirty while
messages are on both sides of its cutoff. -/
def AppliesCleanly : Prop :=
  s.manager.ready → s.manager.compactedCount + s.manager.pendingCutoff ≤ s.messages.length ∧
    (s.manager.activeMessageCharsDirty →
      (((s.messages.drop s.manager.compactedCount).take s.manager.pendingCutoff).map
        messageCharCount).sum = 0 ∨
      ((s.messages.drop (s.manager.compactedCount + s.manager.pendingCutoff)).map
        messageCharCount).sum = 0)

/-- Nothing that leaves the counter unmarked builds on a counter that is wrong. -/
def CountsExactly : AccountingCall E → Prop
  | .notifyMessageAddedBlocks _ =>
    s.manager.activeMessageCharsDirty →
      s.manager.activeMessageChars = uncompactedChars s.manager s.messages
  | .seedRestoredMessagesWith _ =>
    ((s.messages.take s.manager.compactedCount).map messageCharCount).sum = 0
  | .checkAndApplyCompactionWith | .messagesForApiWith => s.AppliesCleanly
  | .checkAndApplyCompaction =>
    s.manager.ready → s.manager.compactedCount + s.manager.pendingCutoff ≤ s.messages.length
  | .emergencyTruncateWith =>
    s.manager.activeMessageCharsDirty ∨
      (emergencyTruncateToolResults (s.messages.drop s.manager.compactedCount)
        emergencyToolResultMaxChars).1 = 0
  | _ => True

instance : Decidable s.AppliesCleanly := inferInstanceAs (Decidable (_ → _))

instance (call : AccountingCall E) : Decidable (s.CountsExactly call) := by
  cases call <;> unfold CountsExactly <;> infer_instance

/-! ### The counter -/

/-- The fields that the counter is read from. -/
structure SameAccount (m m' : CompactionManager E) : Prop where
  turns : m'.totalTurns = m.totalTurns
  count : m'.compactedCount = m.compactedCount
  chars : m'.activeMessageChars = m.activeMessageChars
  dirty : m'.activeMessageCharsDirty = m.activeMessageCharsDirty

/-- Every message is counted as a turn, and the counter is exact or marked. -/
structure Counts (messages : List Message) (m : CompactionManager E) : Prop where
  turns : m.totalTurns = messages.length
  inside : m.compactedCount ≤ messages.length
  chars : m.activeMessageCharsDirty = false → m.activeMessageChars = uncompactedChars m messages

variable {env s} {t : Accounting E} {m m' : CompactionManager E} {messages : List Message}
  {call : AccountingCall E} {embed : String → Option E}

lemma uncompactedChars_congr (h : m'.compactedCount = m.compactedCount) :
    uncompactedChars m' messages = uncompactedChars m messages := by
  rw [uncompactedChars, uncompactedChars, h]

lemma Counts.congr (h : Counts messages m) (hsame : SameAccount m m') : Counts messages m' := by
  refine ⟨hsame.turns.trans h.turns, hsame.count ▸ h.inside, fun hdirty => ?_⟩
  rw [hsame.chars, uncompactedChars_congr hsame.count]
  exact h.chars (hsame.dirty ▸ hdirty)

lemma activeMessages_of_le (h : m.compactedCount ≤ messages.length) :
    m.activeMessages messages = messages.drop m.compactedCount := by
  rw [activeMessages, activeStart, if_pos h]

lemma Counts.activeMessageCharsWith (h : Counts messages m) :
    m.activeMessageCharsWith messages = uncompactedChars m messages := by
  rw [CompactionManager.activeMessageCharsWith, activeMessages_of_le h.inside]
  split_ifs with hsum
  · rfl
  · apply h.chars
    simp only [Bool.or_eq_true, not_or, Bool.not_eq_true] at hsum
    exact hsum.1

lemma Counts.exact (h : Counts s.messages s.manager) : s.Exact := by
  rw [Exact, tokenEstimateWith, h.activeMessageCharsWith]

/-! ### Appending, seeding and restoring -/

lemma uncompactedChars_append {message : Message} (h : m.compactedCount ≤ messages.length) :
    uncompactedChars m (messages ++ [message]) =
      uncompactedChars m messages + messageCharCount message := by
  simp [uncompactedChars, List.drop_append_of_le_length h]

lemma Counts.notifyMessageAdded (h : Counts messages m) (message : Message) :
    Counts (messages ++ [message]) m.notifyMessageAdded := by
  refine ⟨?_, ?_, fun hdirty => nomatch hdirty⟩
  · simp [CompactionManager.notifyMessageAdded, h.turns]
  · simp only [CompactionManager.notifyMessageAdded, List.length_append]
    exact h.inside.trans (Nat.le_add_right _ _)

lemma Counts.notifyMessageAddedBlocks (h : Counts messages m) (message : Message)
    (hexact : m.activeMessageCharsDirty → m.activeMessageChars = uncompactedChars m messages) :
    Counts (messages ++ [message]) (m.notifyMessageAddedBlocks message.content) := by
  have hchars : m.activeMessageChars = uncompactedChars m messages := by
    cases hdirty : m.activeMessageCharsDirty with
    | true => exact hexact hdirty
    | false => exact h.chars hdirty
  refine ⟨?_, ?_, fun _ => ?_⟩
  · simp [CompactionManager.notifyMessageAddedBlocks, h.turns]
  · simp only [CompactionManager.notifyMessageAddedBlocks, List.length_append]
    exact h.inside.trans (Nat.le_add_right _ _)
  · have hsame : (m.notifyMessageAddedBlocks message.content).compactedCount =
        m.compactedCount := rfl
    rw [uncompactedChars_congr hsame, uncompactedChars_append h.inside, ← hchars]
    rfl

lemma Counts.seedRestoredMessages (h : Counts messages m) (restored : List Message) :
    Counts (messages ++ restored) (m.seedRestoredMessages (messages ++ restored).length) := by
  refine ⟨rfl, ?_, fun hdirty => ?_⟩
  · rw [List.length_append]
    exact h.inside.trans (Nat.le_add_right _ _)
  · have hempty : (messages ++ restored).length = 0 := by
      simpa [CompactionManager.seedRestoredMessages] using hdirty
    rw [uncompactedChars, List.eq_nil_of_length_eq_zero hempty, List.drop_nil]
    rfl

/-- The seed counts the compacted messages as well. -/
lemma Counts.seedRestoredMessagesWith (h : Counts messages m) (restored : List Message)
    (hzero : ((messages.take m.compactedCount).map messageCharCount).sum = 0) :
    Counts (messages ++ restored) (m.seedRestoredMessagesWith (messages ++ restored)) := by
  refine ⟨rfl, ?_, fun _ => ?_⟩
  · rw [List.length_append]
    exact h.inside.trans (Nat.le_add_right _ _)
  · have hprefix : (messages ++ restored).take m.compactedCount =
        messages.take m.compactedCount := List.take_append_of_le_length h.inside
    change ((messages ++ restored).map messageCharCount).sum = _
    conv_lhs => rw [← List.take_append_drop m.compactedCount (messages ++ restored)]
    rw [List.map_append, List.sum_append, hprefix, hzero, Nat.zero_add]
    rfl

lemma Counts.restorePersistedState (m : CompactionManager E) (state : StoredCompactionState)
    (all : List Message) : Counts all (m.restorePersistedState state all.length) := by
  refine ⟨rfl, min_le_right _ _, fun hdirty => ?_⟩
  have hall : all.length ≤ min state.compactedCount all.length := by
    simpa [CompactionManager.restorePersistedState] using hdirty
  rw [uncompactedChars, CompactionManager.restorePersistedState, List.drop_eq_nil_of_le hall]
  rfl

lemma Counts.restorePersistedStateWith (m : CompactionManager E) (state : StoredCompactionState)
    (all : List Message) : Counts all (m.restorePersistedStateWith state all) := by
  refine ⟨rfl, min_le_right _ _, fun _ => ?_⟩
  rw [CompactionManager.restorePersistedStateWith]
  dsimp only
  rw [activeMessages_of_le (min_le_right _ _)]
  rfl

/-! ### Compaction -/

lemma sameAccount_of_starts (h : m' = m ∨ m.Starts m' messages) : SameAccount m m' := by
  rcases h with rfl | ⟨-, cutoff, trigger, -, -, rfl⟩ <;> exact ⟨rfl, rfl, rfl, rfl⟩

lemma sameAccount_discardOversized : SameAccount m m.discardOversizedOpenaiNativeCompaction := by
  obtain ⟨summary, tokens, h⟩ := discardOversized_frame (m := m)
  rw [h]
  exact ⟨rfl, rfl, rfl, rfl⟩

lemma Counts.hardCompactWith {n : Nat} (h : Counts messages m)
    (hhard : m.hardCompactWith env messages = .ok (n, m')) : Counts messages m' := by
  obtain ⟨-, hlen, hcount, -, -⟩ := hardCompact_spec hhard
  rw [activeMessages_of_le h.inside, List.length_drop] at hlen
  have hinside : m'.compactedCount ≤ messages.length := by
    have := h.inside
    omega
  refine ⟨?_, hinside, fun _ => ?_⟩
  · simp only [CompactionManager.hardCompactWith] at hhard
    split_ifs at hhard
    cases hhard
    exact h.turns
  · rw [uncompactedChars, hcount, ← List.drop_drop, ← activeMessages_of_le h.inside]
    simp only [CompactionManager.hardCompactWith] at hhard
    split_ifs at hhard
    cases hhard
    rfl

/-- The size of the compacted messages is taken off a counter that still has them. -/
lemma Counts.applyResult {result : CompactionResult} (h : Counts messages m)
    (hinside : m.compactedCount + m.pendingCutoff ≤ messages.length)
    (hdirty : m.activeMessageCharsDirty →
      (((messages.drop m.compactedCount).take m.pendingCutoff).map messageCharCount).sum = 0 ∨
      ((messages.drop (m.compactedCount + m.pendingCutoff)).map messageCharCount).sum = 0) :
    Counts messages (m.applyResult result messages) := by
  let m₁ : CompactionManager E := { m with compactedCount := m.compactedCount + m.pendingCutoff }
  have hactive : m₁.activeMessages messages =
      messages.drop (m.compactedCount + m.pendingCutoff) := activeMessages_of_le hinside
  have hcount : m₁.activeMessagesCount =
      (messages.drop (m.compactedCount + m.pendingCutoff)).length := by
    rw [activeMessagesCount, List.length_drop, ← h.turns]
  -- with the new count the messages fall apart into those compacted now and those that stay
  have hsplit : uncompactedChars m messages =
      (((messages.drop m.compactedCount).take m.pendingCutoff).map messageCharCount).sum +
        uncompactedChars m₁ messages := by
    rw [uncompactedChars, uncompactedChars, ← List.sum_append, ← List.map_append, ← List.drop_drop,
      List.take_append_drop]
  have hread : m₁.activeMessageCharsWith messages =
      if m.activeMessageCharsDirty then uncompactedChars m₁ messages
      else uncompactedChars m messages := by
    rw [CompactionManager.activeMessageCharsWith, hactive, hcount]
    cases hd : m.activeMessageCharsDirty with
    | true => simp [m₁, uncompactedChars]
    | false => simpa [m₁, hd] using h.chars hd
  refine ⟨?_, ?_, fun _ => ?_⟩
  · simp only [CompactionManager.applyResult, sameAccount_discardOversized.turns]
    exact h.turns
  · simp only [CompactionManager.applyResult, sameAccount_discardOversized.count]
    exact hinside
  · have hcountApply : (m.applyResult result messages).compactedCount = m₁.compactedCount := by
      simp only [CompactionManager.applyResult, sameAccount_discardOversized.count, m₁]
    rw [uncompactedChars_congr hcountApply]
    simp only [CompactionManager.applyResult, sameAccount_discardOversized.chars]
    change m₁.activeMessageCharsWith messages - _ = _
    rw [hread, activeMessages_of_le h.inside]
    split_ifs with hd
    · rcases hdirty hd with hzero | hzero
      · rw [hzero, Nat.sub_zero]
      · rw [uncompactedChars, show m₁.compactedCount = m.compactedCount + m.pendingCutoff from rfl,
          hzero, Nat.zero_sub]
    · rw [hsplit, Nat.add_sub_cancel_left]

lemma Counts.checkAndApplyCompactionWith (h : Counts s.messages s.manager)
    (hclean : s.AppliesCleanly) :
    Counts s.messages (s.manager.checkAndApplyCompactionWith s.messages) := by
  by_cases hr : s.manager.ready
  · obtain ⟨task, result, hp, ho⟩ := ready_iff.mp hr
    obtain ⟨hinside, hdirty⟩ := hclean hr
    simp only [CompactionManager.checkAndApplyCompactionWith, hp, ho]
    have hcleared : Counts s.messages { s.manager with pendingTask := none } :=
      h.congr ⟨rfl, rfl, rfl, rfl⟩
    exact hcleared.applyResult hinside hdirty
  · refine h.congr ?_
    unfold CompactionManager.checkAndApplyCompactionWith
    split
    · exact ⟨rfl, rfl, rfl, rfl⟩
    · rename_i task hp
      split
      · exact ⟨rfl, rfl, rfl, rfl⟩
      · rename_i result ho
        exact (hr (ready_iff.mpr ⟨task, result, hp, ho⟩)).elim
      · exact ⟨rfl, rfl, rfl, rfl⟩
      · exact ⟨rfl, rfl, rfl, rfl⟩

/-- Without the messages the counter is marked; only the count of turns matters. -/
lemma Counts.checkAndApplyCompaction (h : Counts s.messages s.manager)
    (hinside : s.manager.ready →
      s.manager.compactedCount + s.manager.pendingCutoff ≤ s.messages.length) :
    Counts s.messages s.manager.checkAndApplyCompaction := by
  have hturns : (s.manager.checkAndApplyCompactionWith []).totalTurns = s.manager.totalTurns := by
    unfold CompactionManager.checkAndApplyCompactionWith
    split
    · rfl
    · split
      · rfl
      · simp [CompactionManager.applyResult, sameAccount_discardOversized.turns]
      · rfl
      · rfl
  refine ⟨hturns.trans h.turns, ?_, fun hdirty => absurd hdirty Bool.noConfusion⟩
  change (s.manager.checkAndApplyCompactionWith []).compactedCount ≤ _
  by_cases hr : s.manager.ready
  · rw [(checkAndApply_of_ready hr []).1]
    exact hinside hr
  · rw [(checkAndApply_of_not_ready hr []).1]
    exact h.inside

lemma Counts.ensureContextFits (h : Counts messages m) :
    Counts messages (m.ensureContextFits env embed messages).2 := by
  have hstart := h.congr (sameAccount_of_starts (maybeStart_cases m env embed messages))
  rcases ensureContextFits_cases m env embed messages with ⟨n, -, hhard⟩ | ⟨-, hm⟩
  · exact hstart.hardCompactWith hhard
  · rw [hm]
    exact hstart

/-! ### Truncation -/

lemma Counts.emergencyTruncateWith (h : Counts messages m)
    (hkeeps : m.activeMessageCharsDirty ∨ (emergencyTruncateToolResults
      (messages.drop m.compactedCount) emergencyToolResultMaxChars).1 = 0) :
    Counts (m.emergencyTruncateWith messages).2 (m.emergencyTruncateWith messages).1 := by
  have hstart : min m.compactedCount messages.length = m.compactedCount := min_eq_left h.inside
  have hlength : (m.emergencyTruncateWith messages).2.length = messages.length := by
    simp [CompactionManager.emergencyTruncateWith, length_emergencyTruncate]
  have hsame : SameAccount m (m.emergencyTruncateWith messages).1 := by
    simp only [CompactionManager.emergencyTruncateWith]
    split_ifs <;> exact ⟨rfl, rfl, rfl, rfl⟩
  refine ⟨?_, ?_, fun hdirty => ?_⟩
  · rw [hsame.turns, h.turns, hlength]
  · rw [hsame.count, hlength]
    exact h.inside
  · rw [hsame.dirty] at hdirty
    have hzero := hkeeps.resolve_left (by simp [hdirty])
    have hmessages : (m.emergencyTruncateWith messages).2 = messages := by
      simp only [CompactionManager.emergencyTruncateWith, hstart, emergencyTruncate_of_zero hzero]
      exact List.take_append_drop ..
    rw [hmessages, hsame.chars, uncompactedChars_congr hsame.count]
    exact h.chars hdirty

/-! ### Every call -/

lemma Counts.step (h : Counts s.messages s.manager) (hexact : s.CountsExactly call)
    (hs : s.step env call = some t) : Counts t.messages t.manager := by
  cases call with
  | notifyMessageAdded message =>
    cases hs
    exact h.notifyMessageAdded message
  | notifyMessageAddedBlocks message =>
    cases hs
    exact h.notifyMessageAddedBlocks message hexact
  | seedRestoredMessages restored =>
    cases hs
    exact h.seedRestoredMessages restored
  | seedRestoredMessagesWith restored =>
    cases hs
    exact h.seedRestoredMessagesWith restored hexact
  | restorePersistedState state restored =>
    cases hs
    exact .restorePersistedState s.manager state (s.messages ++ restored)
  | restorePersistedStateWith state restored =>
    cases hs
    exact .restorePersistedStateWith s.manager state (s.messages ++ restored)
  | maybeStartCompactionWith embed =>
    cases hs
    exact h.congr (sameAccount_of_starts (maybeStart_cases _ env embed _))
  | ensureContextFits embed =>
    cases hs
    exact h.ensureContextFits
  | forceCompactWith =>
    simp only [Accounting.step] at hs
    split at hs
    · rename_i m hm
      cases hs
      exact h.congr (sameAccount_of_starts (.inr (forceCompact_starts hm)))
    · cases hs
      exact h
  | hardCompactWith =>
    simp only [Accounting.step] at hs
    split at hs
    · rename_i n m hm
      cases hs
      exact h.hardCompactWith hm
    · cases hs
      exact h
  | taskFinishes report =>
    simp only [Accounting.step] at hs
    split at hs
    · split_ifs at hs
      cases hs
      exact h.congr ⟨rfl, rfl, rfl, rfl⟩
    · cases hs
  | checkAndApplyCompactionWith =>
    cases hs
    exact h.checkAndApplyCompactionWith hexact
  | checkAndApplyCompaction =>
    cases hs
    exact h.checkAndApplyCompaction hexact
  | messagesForApiWith =>
    cases hs
    exact (h.checkAndApplyCompactionWith hexact).congr sameAccount_discardOversized
  | emergencyTruncateWith =>
    cases hs
    exact h.emergencyTruncateWith hexact
  | pushEmbeddingSnapshot embed text =>
    cases hs
    refine h.congr ?_
    unfold pushEmbeddingSnapshot
    split <;> exact ⟨rfl, rfl, rfl, rfl⟩
  | updateObservedInputTokens tokens | pushTokenSnapshot tokens | setBudget tokens | setMode mode =>
    cases hs
    exact h.congr ⟨rfl, rfl, rfl, rfl⟩

end Accounting

open Accounting

/-- In every run on a new manager, if no call builds on a counter that is wrong, the estimate is
always the one computed from scratch. -/
theorem tokenEstimate_exact {E : Type} (env : CompactionEnv E) (mode : CompactionMode)
    (config : CompactionConfig) (calls : List (AccountingCall E))
    (h : Guarded (step env) CountsExactly (start mode config) calls) :
    Always (step env) Exact (start mode config) calls := by
  intro ks ls t hk ht
  refine Counts.exact (exec_invariant_of_guarded (I := fun s => Counts s.messages s.manager)
    (fun s call s' hs hexact hstep => hs.step hexact hstep) (hk ▸ h).of_append ?_ ht)
  exact ⟨rfl, Nat.zero_le _, fun _ => rfl⟩

def resultMessage (content : String) : Message :=
  ⟨.user, [.toolResult "call" content none], none, none⟩

/-- Two restored messages, of which one is compacted, and a new one. -/
def restoredCalls : List (AccountingCall Unit) :=
  [.restorePersistedStateWith ⟨"earlier", none, 1, 1, 1⟩ [resultMessage "a", resultMessage "b"],
    .notifyMessageAddedBlocks (resultMessage "c")]

theorem tokenEstimate_exact_restoredCalls :
    Always (step exactEnv) Exact (start .reactive defaultConfig) restoredCalls :=
  tokenEstimate_exact exactEnv .reactive defaultConfig restoredCalls (by decide +kernel)

/-! ### A truncated result -/

lemma takeBytes_replicate (n m : Nat) :
    takeBytes n (List.replicate m 'a') = List.replicate (min n m) 'a' := by
  induction m generalizing n with
  | zero => simp [takeBytes]
  | succ m ih =>
    cases n with
    | zero => simp [List.replicate_succ, takeBytes, Char.utf8Size]
    | succ n => simp [List.replicate_succ, takeBytes, Char.utf8Size, ih]

lemma utf8ByteSize_replicate (n : Nat) :
    (String.ofList (List.replicate n 'a')).utf8ByteSize = n := by
  induction n with
  | zero => rfl
  | succ n ih =>
    rw [List.replicate_succ', String.ofList_append, String.utf8ByteSize_append, ih]
    rfl

/-- A result of `n` letters. -/
def letters (n : Nat) : String := String.ofList (List.replicate n 'a')

lemma utf8ByteSize_truncated_letters {n : Nat} (h : 2000 ≤ n) :
    (emergencyTruncatedToolResult (letters n) emergencyToolResultMaxChars).utf8ByteSize =
      2000 + "\n\n... [".utf8ByteSize + (toString (n - 3000)).utf8ByteSize +
        " chars truncated for context recovery] ...\n\n".utf8ByteSize + 1000 := by
  have hhead : truncateStrBoundary (letters n) 2000 = letters 2000 := by
    rw [truncateStrBoundary, letters, String.toList_ofList, takeBytes_replicate, min_eq_left h,
      letters]
  have htail : tailStrBoundary (letters n) 1000 = letters 1000 := by
    rw [tailStrBoundary, letters, String.toList_ofList, List.reverse_replicate,
      takeBytes_replicate, List.reverse_replicate, min_eq_left (by omega), letters]
  have hsize (k : Nat) : (letters k).utf8ByteSize = k := utf8ByteSize_replicate k
  simp only [emergencyTruncatedToolResult, emergencyToolResultMaxChars, Nat.reduceDiv, hhead, htail,
    hsize, String.utf8ByteSize_append]

/-- A message with a long tool result is added, and the result is truncated. -/
def truncatedCalls (n : Nat) : List (AccountingCall Unit) :=
  [.notifyMessageAddedBlocks (resultMessage (letters n)), .emergencyTruncateWith]

/-- The counter still has the size from before the truncation. -/
lemma exec_truncatedCalls {n : Nat} (h : 4000 < n) : ∃ t,
    exec (step exactEnv) (start .reactive defaultConfig) (truncatedCalls n) = some t ∧
      (t.Exact ↔ (n + 20) / 4 = ((emergencyTruncatedToolResult (letters n)
        emergencyToolResultMaxChars).utf8ByteSize + 20) / 4) := by
  have hsize : (letters n).utf8ByteSize = n := utf8ByteSize_replicate n
  refine ⟨_, rfl, ?_⟩
  simp [emergencyTruncateToolResults, start, CompactionManager.notifyMessageAddedBlocks, new,
    resultMessage, truncateBlock, hsize, emergencyToolResultMaxChars, h, tokenEstimateWith,
    CompactionManager.activeMessageCharsWith, activeMessages, activeStart, activeMessagesCount,
    oversizedResult, estimateCompactionTokens, estimateCompactionTokensFromChars,
    messageCharCount, contentCharCount, charsPerToken, Exact, uncompactedChars]

theorem emergencyTruncate_miscounts :
    ¬ ∀ (env : CompactionEnv Unit) (mode : CompactionMode) (config : CompactionConfig)
      (calls : List (AccountingCall Unit)) (t : Accounting Unit),
      exec (step env) (start mode config) calls = some t → t.Exact := by
  intro h
  obtain ⟨n, hn⟩ : ∃ n, n = 4001 := ⟨_, rfl⟩
  obtain ⟨t, hrun, hexact⟩ := exec_truncatedCalls (n := n) (by omega)
  have hsame := hexact.mp (h exactEnv .reactive defaultConfig (truncatedCalls n) t hrun)
  rw [utf8ByteSize_truncated_letters (by omega), hn] at hsame
  revert hsame
  decide +kernel

end Jcode
