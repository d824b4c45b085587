import Jcode.Compaction.Coverage
import Jcode.Compaction.ToolPairs

/-!
# Tool pairs in the provider's view

The agent inserts the tool results that are missing from its transcript, below or above the
messages that have been compacted. When does every tool result that is sent to the provider
come with its tool call?
-/

namespace Jcode

open Schedule

/-! ### Missing tool outputs -/

def TOOL_OUTPUT_MISSING_TEXT : String :=
  "Tool output missing (session interrupted before tool execution completed)"

/-- What the agent has seen of the tool calls and results of its transcript. -/
structure ToolTracking where
  toolCallIds : Finset String
  toolResultIds : Finset String
  toolOutputScanIndex : Nat
deriving DecidableEq

/-- `reset_tool_output_tracking`. -/
def ToolTracking.reset : ToolTracking where
  toolCallIds := ∅
  toolResultIds := ∅
  toolOutputScanIndex := 0

/-- The message that stands for a missing result; the stamp is its fresh id and its time. -/
def missingToolOutput (stamp : String × Nat) (toolUseId : String) : StoredMessage where
  id := stamp.1
  role := .user
  content := [.toolResult toolUseId TOOL_OUTPUT_MISSING_TEXT (some true)]
  displayRole := none
  timestamp := some stamp.2
  toolDurationMs := none
  tokenUsage := none

/-- Results count in messages of the user, calls in those of the assistant. -/
def scannedResultIds (message : StoredMessage) : List String :=
  match message.role with
  | .user => toolResultIds message.content
  | .assistant => []

def scannedCallIds (message : StoredMessage) : List String :=
  match message.role with
  | .user => []
  | .assistant => toolUseIds message.content

namespace ToolTracking

variable (t : ToolTracking) (messages : List StoredMessage)

/-- A scan index beyond the transcript starts the scan over. -/
def sync : ToolTracking := if messages.length < t.toolOutputScanIndex then reset else t

def scanned : List (StoredMessage × Nat) := messages.zipIdx.drop t.toolOutputScanIndex

def knownResultIds : Finset String :=
  t.toolResultIds ∪ ((t.scanned messages).flatMap fun entry => scannedResultIds entry.1).toFinset

/-- The scanned messages with calls that have no result, and the ids of these calls. -/
def missingRepairs : List (Nat × List String) :=
  (t.scanned messages).filterMap fun entry =>
    let missing := (scannedCallIds entry.1).filter (· ∉ t.knownResultIds messages)
    if missing = [] then none else some (entry.2, missing)

end ToolTracking

/-- Insert the outputs for the calls of one message, from the position on. -/
def insertMissing (stamp : Nat → String × Nat) (position : Nat) :
    List String → List StoredMessage → List StoredMessage
  | [], messages => messages
  | id :: ids, messages => insertMissing stamp (position + 1) ids
      (messages.insertIdx position (missingToolOutput (stamp position) id))

/-- `inserted` is how many messages have been inserted for earlier calls. -/
def insertRepairs (stamp : Nat → String × Nat) (inserted : Nat) :
    List (Nat × List String) → List StoredMessage → List StoredMessage
  | [], messages => messages
  | (index, missing) :: repairs, messages => insertRepairs stamp (inserted + missing.length) repairs
      (insertMissing stamp (index + 1 + inserted) missing messages)

/-- The number of outputs inserted, the tracking and the transcript. -/
def repairMissingToolOutputs (stamp : Nat → String × Nat) (tracking : ToolTracking)
    (messages : List StoredMessage) : Nat × ToolTracking × List StoredMessage :=
  let tracking := tracking.sync messages
  let repairs := tracking.missingRepairs messages
  let repaired := insertRepairs stamp 0 repairs messages
  ((repairs.map (·.2.length)).sum,
    { toolCallIds := tracking.toolCallIds ∪
        ((tracking.scanned messages).flatMap fun entry => scannedCallIds entry.1).toFinset
      toolResultIds := tracking.knownResultIds messages ∪ (repairs.flatMap (·.2)).toFinset
      toolOutputScanIndex := repaired.length }, repaired)

/-! ### The system -/

structure ToolRun (E : Type) where
  run : CompactionRun E
  tracking : ToolTracking

inductive ToolMove (E : Type)
  | call (call : CompactionCall E)
  | repairMissingToolOutputs (stamp : Nat → String × Nat)

namespace ToolRun

variable {E : Type} (env : CompactionEnv E) (s : ToolRun E)

def start (transcript : List StoredMessage) (mode : CompactionMode) (config : CompactionConfig) :
    ToolRun E where
  run := .start transcript mode config
  tracking := .reset

/-- A repair does not tell the compaction manager. -/
def repair (stamp : Nat → String × Nat) : ToolRun E :=
  let repaired := Jcode.repairMissingToolOutputs stamp s.tracking s.run.transcript
  { run := { s.run with transcript := repaired.2.2 }
    tracking := repaired.2.1 }

def step : ToolMove E → Option (ToolRun E)
  | .call call => (s.run.step env call).map fun run => { s with run := run }
  | .repairMissingToolOutputs stamp => some (s.repair stamp)

end ToolRun

/-! ### The boundaries of compactions -/

variable {E : Type}

/-- A pending task that has not failed. -/
def CompactionManager.alive (m : CompactionManager E) : Bool :=
  match m.pendingTask with
  | some ⟨_, _, none⟩ | some ⟨_, _, some (.ok _)⟩ => true
  | _ => false

/-- Where the messages begin that are not compacted, and where they will begin when the pending
task is applied. -/
def CompactionRun.boundaries (s : CompactionRun E) : List Nat :=
  s.manager.compactedCount ::
    if s.handed.start = s.manager.compactedCount ∧ s.manager.alive then
      [s.manager.compactedCount + s.manager.pendingCutoff]
    else []

/-- A message that is appended answers no tool call below a boundary. -/
def AnswersKept (s : CompactionRun E) : CompactionCall E → Prop
  | .append message => ∀ b ∈ s.boundaries, ∀ id ∈ toolResultIds message.content,
    id ∈ toolUseIds (blocksOf (s.all.drop b)) ∨ id ∈ toolUseIds message.content
  | _ => True

/-- No rewind, no result that is applied after the count has moved, no answer to a tool call below
a boundary, and no repair below one. -/
def KeepsPairs (s : ToolRun E) : ToolMove E → Prop
  | .call call => s.run.OnlyAppends call ∧ s.run.AppliesUnmoved call ∧ AnswersKept s.run call
  | .repairMissingToolOutputs _ => ∀ b ∈ s.run.boundaries,
    ∀ p ∈ (s.tracking.sync s.run.transcript).missingRepairs s.run.transcript, b ≤ p.1

instance (s : CompactionRun E) : ∀ call, Decidable (AnswersKept s call)
  | .append _ => inferInstanceAs (Decidable (∀ b ∈ s.boundaries, _))
  | .rewindToMessage _ | .notifyMessageAddedWith _ | .updateObservedInputTokens _ |
    .pushTokenSnapshot _ | .pushEmbeddingSnapshot _ _ | .setBudget _ | .setMode _ |
    .maybeStartCompactionWith _ | .ensureContextFits _ | .forceCompactWith | .hardCompactWith |
    .taskFinishes _ | .checkAndApplyCompactionWith | .messagesForApiWith => isTrue trivial

instance (s : ToolRun E) : ∀ m, Decidable (KeepsPairs s m)
  | .call _ => inferInstanceAs (Decidable (_ ∧ _ ∧ _))
  | .repairMissingToolOutputs _ => inferInstanceAs (Decidable (∀ b ∈ s.run.boundaries, _))

/-! ### What the calls of the manager keep -/

/-- Each boundary is inside the transcript, and behind it every result has its call. -/
structure PairsKept (s : CompactionRun E) : Prop where
  closed : ∀ b ∈ s.boundaries, b ≤ s.transcript.length ∧ ClosedFrom s.all b
  start_le : s.manager.pendingTask.isSome → s.handed.start ≤ s.manager.compactedCount

section

open CompactionManager CompactionRun

variable {env : CompactionEnv E} {s t : CompactionRun E} {m : CompactionManager E} {b n : Nat}

lemma CompactionRun.mem_boundaries : b ∈ s.boundaries ↔ b = s.manager.compactedCount ∨
    s.handed.start = s.manager.compactedCount ∧ s.manager.alive ∧
      b = s.manager.compactedCount + s.manager.pendingCutoff := by
  unfold boundaries
  split_ifs with h
  · simp [h.1, h.2]
  · simp only [List.mem_cons, List.not_mem_nil, or_false]
    exact ⟨.inl, fun hb => hb.resolve_right fun hb => h ⟨hb.1, hb.2.1⟩⟩

lemma CompactionManager.pendingTask_of_alive (h : m.alive) : m.pendingTask.isSome := by
  unfold alive at h
  split at h <;> simp_all

lemma PairsKept.count_le (h : PairsKept s) :
    s.manager.compactedCount ≤ s.transcript.length :=
  (h.closed _ (mem_boundaries.mpr (.inl rfl))).1

lemma PairsKept.activeMessages (h : PairsKept s) :
    s.manager.activeMessages s.all = s.all.drop s.manager.compactedCount := by
  have hle : s.manager.compactedCount ≤ s.all.length := by simpa [all] using h.count_le
  rw [CompactionManager.activeMessages, activeStart, if_pos hle]

/-- The list is the active part of a transcript inside which the count is. -/
lemma PairsKept.closedFrom_active (h : PairsKept s)
    (hclosed : ClosedFrom (s.manager.activeMessages s.all) n) :
    ClosedFrom s.all (s.manager.compactedCount + n) := by
  rwa [h.activeMessages, ClosedFrom, List.drop_drop] at hclosed

lemma PairsKept.length_active (h : PairsKept s)
    (hn : n ≤ (s.manager.activeMessages s.all).length) :
    s.manager.compactedCount + n ≤ s.transcript.length := by
  have hcount := h.count_le
  rw [h.activeMessages, List.length_drop] at hn
  simp only [all, List.length_map] at hn
  omega

/-- A manager at the same position, or one whose task is still alive only if it was. -/
lemma PairsKept.of_position (h : PairsKept s) (hcount : m.compactedCount = s.manager.compactedCount)
    (hcutoff : m.alive → m.pendingCutoff = s.manager.pendingCutoff)
    (halive : m.alive → s.manager.alive)
    (htask : m.pendingTask.isSome → s.manager.pendingTask.isSome) :
    PairsKept { s with manager := m } where
  closed b hb := by
    refine h.closed b (mem_boundaries.mpr ?_)
    rcases mem_boundaries.mp hb with rfl | ⟨hstart, hlive, rfl⟩
    · exact .inl hcount
    · have hb' : m.compactedCount + m.pendingCutoff =
          s.manager.compactedCount + s.manager.pendingCutoff := by rw [hcount, hcutoff hlive]
      exact .inr ⟨hstart.trans hcount, halive hlive, hb'⟩
  start_le hm := (h.start_le (htask hm)).trans hcount.ge

lemma PairsKept.of_samePosition (h : PairsKept s) (hm : SamePosition s.manager m) :
    PairsKept { s with manager := m } := by
  have halive : m.alive = s.manager.alive := by rw [alive, alive, hm.task]
  exact h.of_position hm.count (fun _ => hm.cutoff) (halive ▸ id) (hm.task ▸ id)

/-- A task may be started on messages behind which every result has its call. -/
lemma PairsKept.noteStart (h : PairsKept s) (hm : m = s.manager ∨ s.manager.Starts m s.all ∧
    ClosedFrom (s.manager.activeMessages s.all) m.pendingCutoff) :
    PairsKept { s.noteStart m with manager := m } := by
  rcases hm with rfl | ⟨⟨hnone, cutoff, trigger, hpos, hle, rfl⟩, hclosed⟩
  · have hno := not_starting (s := s) (m := s.manager) rfl
    rw [CompactionRun.noteStart, hno]
    exact h
  · have hstart : (s.cursor.cut cutoff).start = s.manager.compactedCount := by
      have hle : s.cursor.count ≤ s.cursor.log.length := h.count_le
      exact PrefixCursor.Cursor.activeStart_of_le hle
    have hhanded : (s.noteStart (s.manager.startTask s.all cutoff trigger)).handed =
        s.cursor.cut cutoff := by
      simp [CompactionRun.noteStart, hnone, startTask]
    refine ⟨fun b hb => ?_, fun _ => ?_⟩
    · rcases mem_boundaries.mp hb with rfl | ⟨-, -, rfl⟩
      · exact h.closed _ (mem_boundaries.mpr (.inl rfl))
      · exact ⟨h.length_active hle, h.closedFrom_active hclosed⟩
    · rw [hhanded, hstart]
      rfl

/-- A hard compaction moves the count away from where the pending task was started. -/
lemma PairsKept.hardCompact (h : PairsKept s)
    (hm : s.manager.hardCompactWith env s.all = .ok (n, m))
    {slice : PrefixCursor.Slice StoredMessage} :
    PairsKept (s.noteAdvance m slice) := by
  obtain ⟨hpos, hle, hcount, htask, -⟩ := hardCompact_spec hm
  have hmoved (hsome : m.pendingTask.isSome) : s.handed.start < m.compactedCount := by
    have := h.start_le (htask ▸ hsome)
    omega
  refine ⟨fun b hb => ?_, fun hsome => (hmoved hsome).le⟩
  rcases mem_boundaries.mp hb with rfl | ⟨hstart, halive, -⟩
  · show m.compactedCount ≤ _ ∧ ClosedFrom _ m.compactedCount
    rw [hcount]
    exact ⟨h.length_active hle, h.closedFrom_active (hardCompact_closed hm)⟩
  · exact absurd hstart (hmoved (pendingTask_of_alive halive)).ne

/-- A start, if there is one, and a hard compaction in one call. -/
lemma PairsKept.ensureContextFits {m₀ : CompactionManager E} (h : PairsKept s)
    (h₀ : m₀ = s.manager ∨ s.manager.Starts m₀ s.all ∧
      ClosedFrom (s.manager.activeMessages s.all) m₀.pendingCutoff)
    (hm : m₀.hardCompactWith env s.all = .ok (n, m)) :
    PairsKept ((s.noteStart m).noteAdvance m (s.cursor.cut n)) := by
  obtain ⟨-, -, -, htask, hcutoff⟩ := hardCompact_spec hm
  have hnote : s.noteStart m = s.noteStart m₀ := by
    simp [CompactionRun.noteStart, htask, hcutoff]
  have hcount : m₀.compactedCount = s.manager.compactedCount := by
    rcases h₀ with rfl | ⟨⟨-, cutoff, trigger, -, -, rfl⟩, -⟩ <;> rfl
  -- the state between the start and the hard compaction
  let u : CompactionRun E := { s.noteStart m₀ with manager := m₀ }
  have hu : (s.noteStart m).noteAdvance m (s.cursor.cut n) = u.noteAdvance m (s.cursor.cut n) := by
    rw [hnote]
    simp [noteAdvance, u, hcount, CompactionRun.noteStart]
  rw [hu]
  exact (h.noteStart h₀).hardCompact hm

/-- A result is applied where its task was started, so the count moves to a closed boundary. -/
lemma PairsKept.collect (h : PairsKept s)
    (hfresh : s.manager.ready → s.handed.start = s.manager.compactedCount)
    (hcount : m.compactedCount = (s.manager.checkAndApplyCompactionWith s.all).compactedCount)
    (htask : m.pendingTask = (s.manager.checkAndApplyCompactionWith s.all).pendingTask)
    (hcutoff : m.pendingTask.isSome →
      m.pendingCutoff = (s.manager.checkAndApplyCompactionWith s.all).pendingCutoff) :
    PairsKept (s.collect m) := by
  by_cases hr : s.manager.ready
  · obtain ⟨hc, ht⟩ := checkAndApply_of_ready hr s.all
    obtain ⟨task, result, hp, ho⟩ := ready_iff.mp hr
    have hnone : m.pendingTask = none := htask.trans ht
    have halive : s.manager.alive := by
      obtain ⟨messages, existing, outcome⟩ := task
      subst ho
      simp [alive, hp]
    rw [CompactionRun.collect, if_pos hr]
    refine ⟨fun b hb => ?_, fun hsome => ?_⟩
    · rcases mem_boundaries.mp hb with rfl | ⟨-, hlive, -⟩
      · exact h.closed _ (mem_boundaries.mpr (.inr ⟨hfresh hr, halive, hcount.trans hc⟩))
      · have := pendingTask_of_alive hlive
        simp [noteAdvance, hnone] at this
    · simp [noteAdvance, hnone] at hsome
  · obtain ⟨hc, ht⟩ := checkAndApply_of_not_ready hr s.all
    rw [CompactionRun.collect, if_neg hr]
    rcases ht with ht | ht
    · have hnone : m.pendingTask = none := htask.trans ht
      have hdead : ¬ m.alive := fun hlive => by simpa [hnone] using pendingTask_of_alive hlive
      exact h.of_position (hcount.trans hc) (fun hlive => (hdead hlive).elim)
        (fun hlive => (hdead hlive).elim) (by simp [hnone])
    · rw [ht] at htask hcutoff
      have hlive : m.alive = s.manager.alive := by rw [alive, alive, htask]
      exact h.of_position (hcount.trans hc) (fun hm => hcutoff (pendingTask_of_alive hm))
        (hlive ▸ id) (htask ▸ id)

/-- A message that answers no call below a boundary. -/
lemma PairsKept.append {message : StoredMessage} (h : PairsKept s)
    (hkept : AnswersKept s (.append message)) :
    PairsKept { s with transcript := s.transcript ++ [message] } where
  closed b hb := by
    obtain ⟨hle, hclosed⟩ := h.closed b hb
    refine ⟨hle.trans (by simp), ?_⟩
    have hdrop : blocksOf ((CompactionRun.all
        { s with transcript := s.transcript ++ [message] }).drop b) =
          blocksOf (s.all.drop b) ++ message.content := by
      have hle' : b ≤ s.all.length := by simpa [all] using hle
      simp only [all, List.map_append] at hle' ⊢
      rw [List.drop_append_of_le_length hle']
      simp [blocksOf, StoredMessage.toMessage]
    rw [ClosedFrom, hdrop]
    exact ToolClosed.append hclosed (hkept b hb)
  start_le := h.start_le

/-- The calls of the manager keep the pairs, when nothing below a boundary is answered and results
are applied where their tasks were started. -/
lemma PairsKept.step {call : CompactionCall E} (h : PairsKept s) (hgrow : s.OnlyAppends call)
    (hfresh : s.AppliesUnmoved call) (hkept : AnswersKept s call) (hs : s.step env call = some t) :
    PairsKept t := by
  cases call with
  | append message =>
    cases hs
    exact h.append hkept
  | rewindToMessage messageIndex => cases hgrow
  | notifyMessageAddedWith message | updateObservedInputTokens tokens | pushTokenSnapshot tokens
  | setBudget budget | setMode mode =>
    cases hs
    exact h.of_samePosition ⟨rfl, rfl, rfl⟩
  | pushEmbeddingSnapshot embed text =>
    cases hs
    refine h.of_samePosition ?_
    unfold pushEmbeddingSnapshot
    split <;> exact ⟨rfl, rfl, rfl⟩
  | maybeStartCompactionWith embed =>
    cases hs
    exact h.noteStart (maybeStart_closed_cases s.manager env embed s.all)
  | ensureContextFits embed =>
    have hstarted := maybeStart_closed_cases s.manager env embed s.all
    rcases ensureContextFits_cases s.manager env embed s.all with
      ⟨n, haction, hhard⟩ | ⟨haction, hm⟩
    · simp only [CompactionRun.step] at hs
      rw [haction] at hs
      cases hs
      exact h.ensureContextFits hstarted hhard
    · simp only [CompactionRun.step] at hs
      generalize s.manager.ensureContextFits env embed s.all = r at hs haction hm
      obtain ⟨action, m⟩ := r
      subst hm
      cases action with
      | hardCompacted n => exact (haction n rfl).elim
      | none | backgroundStarted trigger =>
        cases hs
        exact h.noteStart hstarted
  | forceCompactWith =>
    simp only [CompactionRun.step] at hs
    split at hs
    · rename_i m hm
      cases hs
      exact h.noteStart (.inr ⟨forceCompact_starts hm, forceCompact_closed hm⟩)
    · cases hs
      exact h
  | hardCompactWith =>
    simp only [CompactionRun.step] at hs
    split at hs
    · rename_i n m hm
      cases hs
      exact h.hardCompact hm
    · cases hs
      exact h
  | taskFinishes report =>
    simp only [CompactionRun.step] at hs
    split at hs
    · rename_i task hp
      split_ifs at hs with hnone
      cases hs
      have halive : s.manager.alive := by
        obtain ⟨messages, existing, outcome⟩ := task
        simp_all [alive]
      exact h.of_position rfl (fun _ => rfl) (fun _ => halive) (by simp [hp])
    · cases hs
  | checkAndApplyCompactionWith =>
    cases hs
    exact h.collect (hfresh rfl) rfl rfl fun _ => rfl
  | messagesForApiWith =>
    cases hs
    refine h.collect (hfresh rfl) ?_ ?_ fun _ => ?_ <;> simp [messagesForApiWith]

end

/-! ### Repairs behind the boundaries -/

section

variable (stamp : Nat → String × Nat) {messages : List StoredMessage} {b position : Nat}
  {id : String} {ids : List String}

/-- The cutoff is inside the transcript, and behind it every result has its call. -/
def KeptFrom (messages : List StoredMessage) (b : Nat) : Prop :=
  b ≤ messages.length ∧ ClosedFrom (messages.map (·.toMessage)) b

/-- The tool calls behind the cutoff. -/
def callsFrom (messages : List StoredMessage) (b : Nat) : List String :=
  toolUseIds (blocksOf ((messages.map (·.toMessage)).drop b))

lemma drop_insertIdx {α : Type} {l : List α} {x : α} (h : b ≤ position)
    (hle : position ≤ l.length) :
    (l.insertIdx position x).drop b = (l.drop b).insertIdx (position - b) x := by
  induction b generalizing l position with
  | zero => simp
  | succ b ih =>
    obtain ⟨position, rfl⟩ : ∃ p, position = p + 1 := ⟨position - 1, by omega⟩
    cases l with
    | nil => simp at hle
    | cons y l =>
      simp only [List.insertIdx_succ_cons, List.drop_succ_cons, Nat.add_sub_add_right]
      exact ih (by omega) (by simpa using hle)

/-- An output that is inserted behind the cutoff, where its call is. -/
lemma KeptFrom.insertIdx (h : KeptFrom messages b) (hb : b ≤ position)
    (hcall : id ∈ callsFrom messages b) :
    KeptFrom (messages.insertIdx position (missingToolOutput (stamp position) id)) b ∧
      ∀ call ∈ callsFrom messages b,
        call ∈ callsFrom
          (messages.insertIdx position (missingToolOutput (stamp position) id)) b := by
  by_cases hle : position ≤ messages.length
  · have hmem (block : ContentBlock) :
        block ∈ blocksOf (((messages.insertIdx position
          (missingToolOutput (stamp position) id)).map (·.toMessage)).drop b) ↔
        block ∈ blocksOf ((messages.map (·.toMessage)).drop b) ∨
          block = .toolResult id TOOL_OUTPUT_MISSING_TEXT (some true) := by
      rw [List.map_insertIdx, drop_insertIdx hb (by simpa using hle)]
      have hle' : position - b ≤ ((messages.map (·.toMessage)).drop b).length := by
        simp only [List.length_drop, List.length_map]
        omega
      have houtput : (missingToolOutput (stamp position) id).toMessage.content =
          [.toolResult id TOOL_OUTPUT_MISSING_TEXT (some true)] := rfl
      generalize (missingToolOutput (stamp position) id).toMessage = output at houtput
      simp only [blocksOf, List.mem_flatMap, List.mem_insertIdx hle']
      constructor
      · rintro ⟨message, rfl | hmessage, hblock⟩
        · exact .inr (by simpa [houtput] using hblock)
        · exact .inl ⟨message, hmessage, hblock⟩
      · rintro (⟨message, hmessage, hblock⟩ | rfl)
        · exact ⟨message, .inr hmessage, hblock⟩
        · exact ⟨output, .inl rfl, by simp [houtput]⟩
    have hmono : ∀ call ∈ callsFrom messages b,
        call ∈ callsFrom
          (messages.insertIdx position (missingToolOutput (stamp position) id)) b := by
      intro call hcall
      obtain ⟨block, hblock, huse⟩ := mem_toolUseIds.mp hcall
      exact mem_toolUseIds.mpr ⟨block, (hmem block).mpr (.inl hblock), huse⟩
    refine ⟨⟨h.1.trans List.length_le_length_insertIdx, fun result hresult => ?_⟩, hmono⟩
    obtain ⟨block, hblock, hid⟩ := mem_toolResultIds.mp hresult
    rcases (hmem block).mp hblock with hblock | rfl
    · exact hmono result (h.2 result (mem_toolResultIds.mpr ⟨block, hblock, hid⟩))
    · cases hid
      exact hmono id hcall
  · rw [List.insertIdx_of_length_lt (by omega)]
    exact ⟨h, fun _ hcall => hcall⟩

/-- Outputs for the calls of one message. -/
lemma KeptFrom.insertMissing (h : KeptFrom messages b) (hb : b ≤ position)
    (hcalls : ∀ id ∈ ids, id ∈ callsFrom messages b) :
    KeptFrom (insertMissing stamp position ids messages) b ∧ ∀ call ∈ callsFrom messages b,
      call ∈ callsFrom (Jcode.insertMissing stamp position ids messages) b := by
  induction ids generalizing messages position with
  | nil => exact ⟨h, fun _ => id⟩
  | cons useId ids ih =>
    obtain ⟨hkept, hmono⟩ := h.insertIdx stamp hb (hcalls useId List.mem_cons_self)
    obtain ⟨hkept', hmono'⟩ := ih hkept (show b ≤ position + 1 by omega) fun id hid =>
      hmono id (hcalls id (List.mem_cons_of_mem _ hid))
    exact ⟨hkept', fun call hcall => hmono' call (hmono call hcall)⟩

lemma KeptFrom.insertRepairs {repairs : List (Nat × List String)} {inserted : Nat}
    (h : KeptFrom messages b) (hb : ∀ p ∈ repairs, b ≤ p.1)
    (hcalls : ∀ p ∈ repairs, ∀ id ∈ p.2, id ∈ callsFrom messages b) :
    KeptFrom (insertRepairs stamp inserted repairs messages) b := by
  induction repairs generalizing messages inserted with
  | nil => exact h
  | cons repair repairs ih =>
    have hle : b ≤ repair.1 + 1 + inserted := by
      have := hb repair List.mem_cons_self
      omega
    obtain ⟨hkept, hmono⟩ := h.insertMissing stamp hle (hcalls repair List.mem_cons_self)
    exact ih hkept (fun p hp => hb p (List.mem_cons_of_mem _ hp)) fun p hp id hid =>
      hmono id (hcalls p (List.mem_cons_of_mem _ hp) id hid)

/-- A repair is for calls of the message it names. -/
lemma ToolTracking.mem_missingRepairs {t : ToolTracking} {p : Nat × List String}
    (h : p ∈ t.missingRepairs messages) : ∃ message, messages[p.1]? = some message ∧
      ∀ id ∈ p.2, id ∈ toolUseIds message.content := by
  obtain ⟨entry, hentry, heq⟩ := List.mem_filterMap.mp h
  dsimp only at heq
  split_ifs at heq
  cases heq
  refine ⟨entry.1, List.mem_zipIdx_iff_getElem?.mp (List.mem_of_mem_drop hentry), fun id hid => ?_⟩
  have hcall : id ∈ scannedCallIds entry.1 := List.mem_of_mem_filter hid
  unfold scannedCallIds at hcall
  split at hcall
  · cases hcall
  · exact hcall

lemma mem_callsFrom {message : StoredMessage} {i : Nat} (hi : messages[i]? = some message)
    (hb : b ≤ i) (hid : id ∈ toolUseIds message.content) : id ∈ callsFrom messages b := by
  obtain ⟨block, hblock, huse⟩ := mem_toolUseIds.mp hid
  refine mem_toolUseIds.mpr ⟨block, List.mem_flatMap.mpr ⟨message.toMessage, ?_, hblock⟩, huse⟩
  refine List.mem_of_getElem? (i := i - b) ?_
  rw [List.getElem?_drop, Nat.add_sub_cancel' hb, List.getElem?_map, hi]
  rfl

end

/-! ### Runs -/

section

variable {env : CompactionEnv E} {s t : ToolRun E} {m : ToolMove E}

lemma ToolRun.pairsKept_start {transcript : List StoredMessage} (mode : CompactionMode)
    (config : CompactionConfig) (h : PairedAfter [] (blocksOf (transcript.map (·.toMessage)))) :
    PairsKept (ToolRun.start (E := E) transcript mode config).run where
  closed b hb := by
    rcases CompactionRun.mem_boundaries.mp hb with rfl | ⟨-, hlive, -⟩
    · exact ⟨Nat.zero_le _, toolClosed_of_paired h⟩
    · cases hlive
  start_le h := by cases h

/-- A repair that inserts behind the boundaries keeps what is closed closed. -/
lemma PairsKept.repair {stamp : Nat → String × Nat} (h : PairsKept s.run)
    (hG : KeepsPairs s (.repairMissingToolOutputs stamp)) : PairsKept (s.repair stamp).run where
  closed b hb := by
    have hkept : KeptFrom s.run.transcript b := h.closed b hb
    refine hkept.insertRepairs stamp (hG b hb) fun p hp id hid => ?_
    obtain ⟨message, hmessage, hcalls⟩ := ToolTracking.mem_missingRepairs hp
    exact mem_callsFrom hmessage (hG b hb p hp) (hcalls id hid)
  start_le := h.start_le

lemma PairsKept.toolStep (h : PairsKept s.run) (hG : KeepsPairs s m)
    (hs : s.step env m = some t) : PairsKept t.run := by
  cases m with
  | call call =>
    obtain ⟨run, hrun, rfl⟩ := Option.map_eq_some_iff.mp hs
    exact h.step hG.1 hG.2.1 hG.2.2 hrun
  | repairMissingToolOutputs stamp =>
    cases hs
    exact h.repair hG

/-- The summary in front of the active messages has no tool blocks. -/
lemma PairsKept.apiMessages {run : CompactionRun E} (h : PairsKept run) :
    ToolClosed (blocksOf (run.manager.apiMessages run.all)) := by
  have hclosed := (h.closed _ (CompactionRun.mem_boundaries.mpr (.inl rfl))).2
  rw [CompactionManager.apiMessages, h.activeMessages]
  cases run.manager.activeSummary with
  | none => exact hclosed
  | some summary =>
    have hnone : toolUseIds (CompactionManager.summaryMessage summary).content = [] ∧
        toolResultIds (CompactionManager.summaryMessage summary).content = [] := by
      unfold CompactionManager.summaryMessage
      cases summary.openaiEncryptedContent <;> exact ⟨rfl, rfl⟩
    have hcons : blocksOf ((some summary).map CompactionManager.summaryMessage).toList =
        (CompactionManager.summaryMessage summary).content := by
      simp [blocksOf]
    rw [blocksOf, List.flatMap_append, ← blocksOf, ← blocksOf, hcons]
    intro id hid
    rw [toolResultIds_append, hnone.2] at hid
    rw [toolUseIds_append, hnone.1]
    exact hclosed id hid

end

/-- In a run that answers and repairs nothing below a boundary and applies results where their
tasks were started, every list for the provider has a tool call for each of its tool results. -/
theorem messagesForApiWith_toolClosed {env : CompactionEnv E} {transcript : List StoredMessage}
    {mode : CompactionMode} {config : CompactionConfig} {moves : List (ToolMove E)} {s : ToolRun E}
    (hpaired : PairedAfter [] (blocksOf (transcript.map (·.toMessage))))
    (hG : Guarded (ToolRun.step env) KeepsPairs (.start transcript mode config)
      (moves ++ [.call .messagesForApiWith]))
    (hs : exec (ToolRun.step env) (.start transcript mode config) moves = some s) :
    ToolClosed (blocksOf (s.run.manager.messagesForApiWith s.run.all).1) := by
  have hkept : PairsKept s.run := exec_invariant_of_guarded (I := fun s => PairsKept s.run)
    (fun s m t h hm hs => h.toolStep hm hs) hG.of_append
    (ToolRun.pairsKept_start mode config hpaired) hs
  have hG' : KeepsPairs s (.call .messagesForApiWith) := hG.step_mem hs
  have hstep : s.run.step env .messagesForApiWith =
      some (s.run.collect (s.run.manager.messagesForApiWith s.run.all).2) := rfl
  have hafter := hkept.step hG'.1 hG'.2.1 hG'.2.2 hstep
  have hmanager : (s.run.collect (s.run.manager.messagesForApiWith s.run.all).2).manager =
      (s.run.manager.messagesForApiWith s.run.all).2 := by
    unfold CompactionRun.collect
    split_ifs <;> rfl
  have hall : (s.run.collect (s.run.manager.messagesForApiWith s.run.all).2).all = s.run.all := by
    unfold CompactionRun.collect
    split_ifs <;> rfl
  have hclosed := hafter.apiMessages
  rwa [hmanager, hall] at hclosed

/-! ### A run with a repair, and a run that loses a tool call -/

def toolCallMessage (id : String) : StoredMessage :=
  { sixteenBytes with
    role := .assistant
    content := [.toolUse id "bash" "{}"] }

def toolResultMessage (id : String) : StoredMessage :=
  { sixteenBytes with content := [.toolResult id "ok" none] }

/-- Fourteen messages; the ninth answers the eighth. -/
def pairedTranscript : List StoredMessage :=
  List.replicate 7 sixteenBytes ++ [toolCallMessage "first", toolResultMessage "first"] ++
    List.replicate 5 sixteenBytes

/-- A manual compaction is applied after a call was appended and repaired. -/
def repairedRun : List (ToolMove Unit) :=
  [.call (.setBudget 80), .call .forceCompactWith, .call (.append (toolCallMessage "second")),
    .repairMissingToolOutputs fun position => (toString position, position),
    .call (.taskFinishes (.summary "summary" none 0))]

theorem messagesForApiWith_toolClosed_repairedRun :
    ∃ s, exec (ToolRun.step exactEnv) (.start pairedTranscript .reactive defaultConfig)
        repairedRun = some s ∧
      ToolClosed (blocksOf (s.run.manager.messagesForApiWith s.run.all).1) := by
  obtain ⟨s, hs⟩ := Option.isSome_iff_exists.mp (show (exec (ToolRun.step exactEnv)
    (.start pairedTranscript .reactive defaultConfig) repairedRun).isSome by decide +kernel)
  exact ⟨s, hs, messagesForApiWith_toolClosed (by decide +kernel) (by decide +kernel) hs⟩

/-- What the caller does: no rewind, and tool results only after their calls. -/
def AppendsPaired (s : ToolRun E) : ToolMove E → Prop
  | .call (.append message) =>
    PairedAfter [] (blocksOf ((s.run.transcript ++ [message]).map (·.toMessage)))
  | .call call => call.rewinds = false
  | .repairMissingToolOutputs _ => True

/-- The result of a manual compaction is applied after a hard compaction. -/
def hardenedRun : List (ToolMove Unit) :=
  [.call (.setBudget 80), .call .forceCompactWith, .call .hardCompactWith,
    .call (.taskFinishes (.summary "summary" none 0))]

/-- The list begins with the result of a call that is left out. -/
theorem messagesForApiWith_orphans :
    ¬ ∀ (transcript : List StoredMessage) (mode : CompactionMode) (config : CompactionConfig)
        (moves : List (ToolMove Unit)) (s : ToolRun Unit),
      PairedAfter [] (blocksOf (transcript.map (·.toMessage))) →
      Guarded (ToolRun.step exactEnv) AppendsPaired (.start transcript mode config) moves →
      exec (ToolRun.step exactEnv) (.start transcript mode config) moves = some s →
        ToolClosed (blocksOf (s.run.manager.messagesForApiWith s.run.all).1) := by
  intro h
  obtain ⟨s, hs, horphan⟩ := (Option.any_eq_true _ _).mp
    (show (exec (ToolRun.step exactEnv) (.start pairedTranscript .reactive defaultConfig)
      hardenedRun).any (fun s =>
        ¬ ToolClosed (blocksOf (s.run.manager.messagesForApiWith s.run.all).1)) by decide +kernel)
  refine of_decide_eq_true horphan (h _ _ _ hardenedRun s (by decide +kernel) ?_ hs)
  refine guarded_of_steps fun ks m ls t hk _ => ?_
  have hm : m ∈ hardenedRun := hk ▸ List.mem_append_right ks List.mem_cons_self
  simp only [hardenedRun, List.mem_cons, List.not_mem_nil, or_false] at hm
  rcases hm with rfl | rfl | rfl | rfl <;> exact rfl

end Jcode
