import Jcode.Compaction.Accounting

/-!
# Compaction across a restart

The view that a manager shows is its summary and how many messages it stands for. This is what is
persisted; a background task is not, and neither is its result before it is applied.
-/

namespace Jcode

open Schedule CompactionManager

namespace CompactionManager

variable {E : Type} (m : CompactionManager E)

/-- A new manager is given the budget and what was persisted, or seeded if nothing was. -/
def restarted (mode : CompactionMode) (config : CompactionConfig) (allMessages : List Message) :
    CompactionManager E :=
  let fresh : CompactionManager E := (new mode config).setBudget m.tokenBudget
  match m.persistedState with
  | some state => fresh.restorePersistedStateWith state allMessages
  | none => fresh.seedRestoredMessagesWith allMessages

/-- `messages_for_api`, which only has the summary to return. -/
def messagesForApi : List Message × CompactionManager E :=
  let m := m.checkAndApplyCompaction.discardOversizedOpenaiNativeCompaction
  ((m.activeSummary.map summaryMessage).toList, m)

def takeCompactionEvent : Option CompactionEvent × CompactionManager E :=
  (m.lastCompaction, { m with lastCompaction := none })

end CompactionManager

/-! ### What can be called on a manager -/

/-- Every call comes with a list of its own; the caller may have changed it since the last one. -/
inductive ManagerCall (E : Type)
  | withMessages (messages : List Message) (call : AccountingCall E)
  | reset (mode : CompactionMode) (config : CompactionConfig)
  | discardOversizedOpenaiNativeCompaction
  | messagesForApi
  | takeCompactionEvent

def ManagerCall.step {E : Type} (env : CompactionEnv E) (m : CompactionManager E) :
    ManagerCall E → Option (CompactionManager E)
  | .withMessages messages call => (Accounting.step env ⟨messages, m⟩ call).map (·.manager)
  | .reset mode config => some (.new mode config)
  | .discardOversizedOpenaiNativeCompaction => some m.discardOversizedOpenaiNativeCompaction
  | .messagesForApi => some m.messagesForApi.2
  | .takeCompactionEvent => some m.takeCompactionEvent.2

/-- The states that calls can bring a new manager to. -/
def CompactionManager.Reachable {E : Type} (env : CompactionEnv E) (m : CompactionManager E) :
    Prop :=
  ∃ mode config calls, exec (ManagerCall.step env) (.new mode config) calls = some m

namespace CompactionManager

variable {E : Type} {env : CompactionEnv E} {m m' : CompactionManager E}
  {messages allMessages : List Message} {embed : String → Option E}

/-- Nothing is compacted without a summary that stands for it. -/
def Grounded (m : CompactionManager E) : Prop := m.activeSummary = none → m.compactedCount = 0

lemma grounded_new {mode : CompactionMode} {config : CompactionConfig} :
    (new mode config : CompactionManager E).Grounded := fun _ => rfl

lemma Grounded.congr (h : m.Grounded) (hsummary : m'.activeSummary = m.activeSummary)
    (hcount : m'.compactedCount = m.compactedCount) : m'.Grounded := by
  intro hnone
  rw [hcount]
  exact h (hsummary.symm.trans hnone)

lemma grounded_of_summary (h : m.activeSummary.isSome) : m.Grounded := by
  intro hnone
  rw [hnone] at h
  cases h

/-! ### The summary -/

/-- A summary that is too large is replaced, never dropped. -/
lemma isSome_discardOversized :
    m.discardOversizedOpenaiNativeCompaction.activeSummary.isSome = m.activeSummary.isSome := by
  unfold discardOversizedOpenaiNativeCompaction
  split
  · rfl
  · rename_i summary hsummary
    split
    · rfl
    · split_ifs <;> simp [hsummary]

/-- What becomes of the summary does not depend on anything else. -/
lemma discardOversized_activeSummary (h : m'.activeSummary = m.activeSummary) :
    m'.discardOversizedOpenaiNativeCompaction.activeSummary =
      m.discardOversizedOpenaiNativeCompaction.activeSummary := by
  simp only [discardOversizedOpenaiNativeCompaction, h]
  split
  · exact h
  · split
    · exact h
    · split_ifs
      · exact h
      · rfl
      · rfl
      · rfl

lemma isSome_applyResult {result : CompactionResult} :
    (m.applyResult result allMessages).activeSummary.isSome := by
  simp only [applyResult]
  rw [isSome_discardOversized]
  rfl

lemma checkAndApply_view (h : ¬ m.ready) (allMessages : List Message) :
    (m.checkAndApplyCompactionWith allMessages).activeSummary = m.activeSummary ∧
      (m.checkAndApplyCompactionWith allMessages).compactedCount = m.compactedCount := by
  refine ⟨?_, (checkAndApply_of_not_ready h allMessages).1⟩
  unfold checkAndApplyCompactionWith
  split
  · rfl
  · rename_i task hp
    split
    · rfl
    · rename_i result ho
      exact (h (ready_iff.mpr ⟨task, result, hp, ho⟩)).elim
    · rfl
    · rfl

/-! ### Calls -/

lemma Grounded.discardOversized (h : m.Grounded) :
    m.discardOversizedOpenaiNativeCompaction.Grounded := by
  intro hnone
  rw [discardOversized_compactedCount]
  apply h
  rw [← Option.not_isSome_iff_eq_none, ← isSome_discardOversized, hnone]
  simp

lemma Grounded.checkAndApplyWith (h : m.Grounded) :
    (m.checkAndApplyCompactionWith allMessages).Grounded := by
  by_cases hr : m.ready
  · obtain ⟨task, result, hp, ho⟩ := ready_iff.mp hr
    simp only [checkAndApplyCompactionWith, hp, ho]
    exact grounded_of_summary isSome_applyResult
  · obtain ⟨hsummary, hcount⟩ := checkAndApply_view hr allMessages
    exact h.congr hsummary hcount

lemma grounded_hardCompactWith {n : Nat} (h : m.hardCompactWith env messages = .ok (n, m')) :
    m'.Grounded := by
  simp only [hardCompactWith] at h
  split_ifs at h
  cases h
  exact grounded_of_summary rfl

lemma Grounded.of_starts (h : m.Grounded) (hs : m' = m ∨ m.Starts m' messages) : m'.Grounded := by
  rcases hs with rfl | ⟨-, cutoff, trigger, -, -, rfl⟩
  · exact h
  · exact h.congr rfl rfl

lemma Grounded.ensureContextFits (h : m.Grounded) :
    (m.ensureContextFits env embed messages).2.Grounded := by
  rcases ensureContextFits_cases m env embed messages with ⟨n, -, hhard⟩ | ⟨-, hm⟩
  · exact grounded_hardCompactWith hhard
  · rw [hm]
    exact h.of_starts (maybeStart_cases m env embed messages)

lemma Grounded.accountingStep {call : AccountingCall E} {t : Accounting E} (h : m.Grounded)
    (hs : Accounting.step env ⟨messages, m⟩ call = some t) : t.manager.Grounded := by
  cases call with
  | maybeStartCompactionWith embed =>
    cases hs
    exact h.of_starts (maybeStart_cases _ env embed _)
  | ensureContextFits embed =>
    cases hs
    exact h.ensureContextFits
  | forceCompactWith =>
    simp only [Accounting.step] at hs
    split at hs
    · rename_i m hm
      cases hs
      exact h.of_starts (.inr (forceCompact_starts hm))
    · cases hs
      exact h
  | hardCompactWith =>
    simp only [Accounting.step] at hs
    split at hs
    · rename_i n m hm
      cases hs
      exact grounded_hardCompactWith hm
    · cases hs
      exact h
  | taskFinishes report =>
    simp only [Accounting.step] at hs
    split at hs
    · split_ifs at hs
      cases hs
      exact h.congr rfl rfl
    · cases hs
  | checkAndApplyCompactionWith =>
    cases hs
    exact h.checkAndApplyWith
  | checkAndApplyCompaction =>
    cases hs
    exact h.checkAndApplyWith.congr rfl rfl
  | messagesForApiWith =>
    cases hs
    exact h.checkAndApplyWith.discardOversized
  | emergencyTruncateWith =>
    cases hs
    dsimp only
    split_ifs
    · exact h.congr rfl rfl
    · exact h
  | pushEmbeddingSnapshot embed text =>
    cases hs
    change (m.pushEmbeddingSnapshot embed text).Grounded
    unfold CompactionManager.pushEmbeddingSnapshot
    split
    · exact h.congr rfl rfl
    · exact h
  | restorePersistedState state restored | restorePersistedStateWith state restored =>
    cases hs
    exact grounded_of_summary rfl
  | notifyMessageAdded message | notifyMessageAddedBlocks message | seedRestoredMessages message
  | seedRestoredMessagesWith message | updateObservedInputTokens message
  | pushTokenSnapshot message | setBudget message | setMode message =>
    cases hs
    exact h.congr rfl rfl

lemma Grounded.step {call : ManagerCall E} (h : m.Grounded)
    (hs : call.step env m = some m') : m'.Grounded := by
  cases call with
  | withMessages messages call =>
    obtain ⟨t, ht, rfl⟩ := Option.map_eq_some_iff.mp hs
    exact h.accountingStep ht
  | reset mode config =>
    cases hs
    exact grounded_new
  | discardOversizedOpenaiNativeCompaction =>
    cases hs
    exact h.discardOversized
  | messagesForApi =>
    cases hs
    have happlied : m.checkAndApplyCompaction.Grounded := h.checkAndApplyWith.congr rfl rfl
    exact happlied.discardOversized
  | takeCompactionEvent =>
    cases hs
    exact h.congr rfl rfl

lemma Reachable.grounded (h : Reachable env m) : m.Grounded := by
  obtain ⟨mode, config, calls, hrun⟩ := h
  exact exec_invariant (fun s call s' hs hstep => hs.step hstep) grounded_new hrun

/-! ### The restored view -/

lemma apiMessages_congr (hsummary : m'.activeSummary = m.activeSummary)
    (hactive : m'.activeMessages messages = m.activeMessages messages) :
    m'.apiMessages messages = m.apiMessages messages := by
  rw [apiMessages, apiMessages, hsummary, hactive]

lemma activeMessages_congr (h : m'.compactedCount = m.compactedCount) :
    m'.activeMessages messages = m.activeMessages messages := by
  rw [activeMessages, activeMessages, activeStart, activeStart, h]

/-- Without a result to apply, the list is the one for the manager as it stands. -/
lemma messagesForApiWith_of_not_ready (h : ¬ m.ready) :
    (m.messagesForApiWith messages).1 =
      m.discardOversizedOpenaiNativeCompaction.apiMessages messages := by
  obtain ⟨hsummary, hcount⟩ := checkAndApply_view h messages
  apply apiMessages_congr
  · exact discardOversized_activeSummary hsummary
  · apply activeMessages_congr
    rw [discardOversized_compactedCount, discardOversized_compactedCount, hcount]

variable {mode : CompactionMode} {config : CompactionConfig}

lemma not_ready_restarted : ¬ (m.restarted mode config messages).ready := by
  rw [restarted]
  split
  · rintro ⟨⟩
  · rintro ⟨⟩

lemma restarted_activeSummary :
    (m.restarted mode config messages).activeSummary = m.activeSummary := by
  cases hsummary : m.activeSummary with
  | none =>
    simp only [restarted, persistedState, hsummary, Option.map_none]
    rfl
  | some summary =>
    simp only [restarted, persistedState, hsummary, Option.map_some]
    rfl

lemma restarted_compactedCount (h : m.Grounded) :
    (m.restarted mode config messages).compactedCount = min m.compactedCount messages.length := by
  cases hsummary : m.activeSummary with
  | none =>
    simp only [restarted, persistedState, hsummary, Option.map_none, h hsummary, Nat.zero_min]
    rfl
  | some summary =>
    simp only [restarted, persistedState, hsummary, Option.map_some]
    rfl

/-- Both leave out the same messages, unless the count goes beyond a list that has some. -/
lemma restarted_activeMessages (h : m.Grounded)
    (hcount : m.compactedCount ≤ messages.length ∨ messages = []) :
    (m.restarted mode config messages).activeMessages messages = m.activeMessages messages := by
  rcases hcount with hle | rfl
  · apply activeMessages_congr
    rw [restarted_compactedCount h, min_eq_left hle]
  · simp [activeMessages]

lemma restarted_messagesForApiWith (h : m.Grounded) (hr : ¬ m.ready)
    (hcount : m.compactedCount ≤ messages.length ∨ messages = []) :
    ((m.restarted mode config messages).messagesForApiWith messages).1 =
      (m.messagesForApiWith messages).1 := by
  rw [messagesForApiWith_of_not_ready hr, messagesForApiWith_of_not_ready not_ready_restarted]
  apply apiMessages_congr
  · exact discardOversized_activeSummary restarted_activeSummary
  · calc (m.restarted mode config messages).discardOversizedOpenaiNativeCompaction.activeMessages
          messages
        = (m.restarted mode config messages).activeMessages messages :=
          activeMessages_congr discardOversized_compactedCount
      _ = m.activeMessages messages := restarted_activeMessages h hcount
      _ = m.discardOversizedOpenaiNativeCompaction.activeMessages messages :=
          (activeMessages_congr discardOversized_compactedCount).symm

/-- The view survives a restart: the list that is sent is the one that the manager would send
without its background task, and so its own list while no result waits to be applied. -/
theorem view_survives_restart (env : CompactionEnv E) (mode : CompactionMode)
    (config : CompactionConfig) (m : CompactionManager E) (allMessages : List Message)
    (hreachable : Reachable env m)
    (hcount : m.compactedCount ≤ allMessages.length ∨ allMessages = []) :
    ((m.restarted mode config allMessages).messagesForApiWith allMessages).1 =
        ({ m with pendingTask := none }.messagesForApiWith allMessages).1 ∧
      (¬ m.ready → ((m.restarted mode config allMessages).messagesForApiWith allMessages).1 =
        (m.messagesForApiWith allMessages).1) := by
  have hgrounded := hreachable.grounded
  constructor
  · have hidle : { m with pendingTask := none }.Grounded := hgrounded.congr rfl rfl
    exact restarted_messagesForApiWith hidle (by rintro ⟨⟩) hcount
  · intro hr
    exact restarted_messagesForApiWith hgrounded hr hcount

/-- Twelve messages; ten of them stay when they are compacted. -/
def twelveTexts : List Message := List.replicate 12 sixteenBytes.toMessage

def hardCompactedCalls : List (ManagerCall Unit) :=
  [.withMessages twelveTexts (.setBudget 40), .withMessages twelveTexts .hardCompactWith]

def hardCompacted : CompactionManager Unit :=
  (exec (ManagerCall.step exactEnv) (new .reactive defaultConfig) hardCompactedCalls).getD
    (new .reactive defaultConfig)

theorem view_survives_restart_hardCompacted :
    ((hardCompacted.restarted .reactive defaultConfig twelveTexts).messagesForApiWith
        twelveTexts).1 =
        ({ hardCompacted with pendingTask := none }.messagesForApiWith twelveTexts).1 ∧
      (¬ hardCompacted.ready →
        ((hardCompacted.restarted .reactive defaultConfig twelveTexts).messagesForApiWith
          twelveTexts).1 = (hardCompacted.messagesForApiWith twelveTexts).1) :=
  view_survives_restart exactEnv .reactive defaultConfig hardCompacted twelveTexts
    ⟨.reactive, defaultConfig, hardCompactedCalls, by decide +kernel⟩ (.inl (by decide +kernel))

/-- A background task comes back, and its result is not applied yet. -/
def waitingCalls : List (ManagerCall Unit) :=
  [.withMessages twelveTexts (.setBudget 40), .withMessages twelveTexts .forceCompactWith,
    .withMessages twelveTexts (.taskFinishes (.summary "summary" none 0))]

theorem not_messagesForApi_survives_restart :
    ¬ ∀ (env : CompactionEnv Unit) (mode : CompactionMode) (config : CompactionConfig)
      (m : CompactionManager Unit) (allMessages : List Message), Reachable env m →
      ((m.restarted mode config allMessages).messagesForApiWith allMessages).1 =
        (m.messagesForApiWith allMessages).1 := by
  intro h
  have hlonger : (exec (ManagerCall.step exactEnv) (new .reactive defaultConfig)
      waitingCalls).any (fun m =>
        ((m.restarted .reactive defaultConfig twelveTexts).messagesForApiWith
          twelveTexts).1.length = 12 ∧ (m.messagesForApiWith twelveTexts).1.length = 11) := by
    decide +kernel
  obtain ⟨m, hrun, hlengths⟩ := (Option.any_eq_true _ _).mp hlonger
  obtain ⟨hrestarted, hlive⟩ := of_decide_eq_true hlengths
  have hsame := h exactEnv .reactive defaultConfig m twelveTexts
    ⟨.reactive, defaultConfig, waitingCalls, hrun⟩
  rw [hsame, hlive] at hrestarted
  exact absurd hrestarted (by decide)

end CompactionManager

end Jcode
