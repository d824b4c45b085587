import Jcode.Compaction.Manager
import Jcode.Foundation.PrefixCursor

/-!
# Runs of the compaction manager

A transcript and the manager that compacts it, under any sequence of calls. Between two calls
the background task may finish; what its summariser comes back with is the environment's choice.

The run also remembers which messages each compaction was handed. Forgetting everything but the
positions gives a cursor over the transcript, and every call is a short sequence of cursor
operations.
-/

namespace Jcode

open Schedule PrefixCursor CompactionManager

/-- `handed` is what the latest task was given, `advances` what each advance of the compacted
count was made for; neither is kept by the source. -/
structure CompactionRun (E : Type) where
  transcript : List StoredMessage
  manager : CompactionManager E
  handed : Slice StoredMessage
  advances : List (Advance StoredMessage)

inductive CompactionCall (E : Type)
  | append (message : StoredMessage)
  | rewindToMessage (messageIndex : Nat)
  | notifyMessageAddedWith (message : Message)
  | updateObservedInputTokens (tokens : Nat)
  | pushTokenSnapshot (tokens : Nat)
  | pushEmbeddingSnapshot (embed : String → Option E) (text : String)
  | setBudget (budget : Nat)
  | setMode (mode : CompactionMode)
  | maybeStartCompactionWith (embed : String → Option E)
  | ensureContextFits (embed : String → Option E)
  | forceCompactWith
  | hardCompactWith
  | taskFinishes (report : TaskReport)
  | checkAndApplyCompactionWith
  | messagesForApiWith

namespace CompactionRun

variable {E : Type} (env : CompactionEnv E) (s : CompactionRun E)

/-- A fresh manager over a transcript. -/
def start (transcript : List StoredMessage) (mode : CompactionMode) (config : CompactionConfig) :
    CompactionRun E where
  transcript := transcript
  manager := .new mode config
  handed := ⟨0, []⟩
  advances := []

/-- `provider_messages`. -/
def all : List Message := s.transcript.map (·.toMessage)

/-- The positions: the transcript, the compacted count and the slices handed out. -/
def cursor : Cursor StoredMessage where
  log := s.transcript
  count := s.manager.compactedCount
  pending := if s.manager.pendingTask.isSome then some s.handed else none
  advances := s.advances

/-- A call has led to the manager `m`; if it started a task, remember its slice. -/
def noteStart (m : CompactionManager E) : CompactionRun E :=
  { s with
    handed := if s.manager.pendingTask.isNone && m.pendingTask.isSome
      then s.cursor.cut m.pendingCutoff else s.handed }

/-- A call has led to the manager `m`, whose compacted count has advanced for `slice`. -/
def noteAdvance (m : CompactionManager E) (slice : Slice StoredMessage) : CompactionRun E :=
  { s with
    manager := m
    advances := s.advances ++ [⟨s.manager.compactedCount, m.compactedCount, slice⟩] }

/-- A call has looked for a finished task. -/
def collect (m : CompactionManager E) : CompactionRun E :=
  if s.manager.ready then s.noteAdvance m s.handed else { s with manager := m }

def step : CompactionCall E → Option (CompactionRun E)
  | .append message => some { s with transcript := s.transcript ++ [message] }
  | .rewindToMessage messageIndex =>
    match storedLenForVisibleConversationMessage s.transcript messageIndex with
    | some storedLen => some { s with transcript := s.transcript.take storedLen }
    | none => some s
  | .notifyMessageAddedWith message =>
    some { s with manager := s.manager.notifyMessageAddedWith message }
  | .updateObservedInputTokens tokens =>
    some { s with manager := s.manager.updateObservedInputTokens tokens }
  | .pushTokenSnapshot tokens => some { s with manager := s.manager.pushTokenSnapshot tokens }
  | .pushEmbeddingSnapshot embed text =>
    some { s with manager := s.manager.pushEmbeddingSnapshot embed text }
  | .setBudget budget => some { s with manager := s.manager.setBudget budget }
  | .setMode mode => some { s with manager := s.manager.setMode mode }
  | .maybeStartCompactionWith embed =>
    let m := s.manager.maybeStartCompactionWith env embed s.all
    some { s.noteStart m with manager := m }
  | .ensureContextFits embed =>
    match s.manager.ensureContextFits env embed s.all with
    | (.hardCompacted dropped, m) => some ((s.noteStart m).noteAdvance m (s.cursor.cut dropped))
    | (_, m) => some { s.noteStart m with manager := m }
  | .forceCompactWith =>
    match s.manager.forceCompactWith env s.all with
    | .ok m => some { s.noteStart m with manager := m }
    | .error _ => some s
  | .hardCompactWith =>
    match s.manager.hardCompactWith env s.all with
    | .ok (dropped, m) => some (s.noteAdvance m (s.cursor.cut dropped))
    | .error _ => some s
  | .taskFinishes report =>
    match s.manager.pendingTask with
    | some task =>
      if task.outcome.isNone then
        some { s with manager := { s.manager with pendingTask := some (finishTask task report) } }
      else none
    | none => none
  | .checkAndApplyCompactionWith =>
    some (s.collect (s.manager.checkAndApplyCompactionWith s.all))
  | .messagesForApiWith => some (s.collect (s.manager.messagesForApiWith s.all).2)

/-! ### Calls as cursor operations -/

def startOps (m : CompactionManager E) : List (Op StoredMessage) :=
  if s.manager.pendingTask.isNone && m.pendingTask.isSome then [.start m.pendingCutoff] else []

def collectOps : List (Op StoredMessage) :=
  if s.manager.ready then [.apply]
  else if (s.manager.checkAndApplyCompactionWith s.all).pendingTask.isNone then [.cancel] else []

/-- The cursor operations that a call amounts to. -/
def ops : CompactionCall E → List (Op StoredMessage)
  | .append message => [.append message]
  | .rewindToMessage messageIndex =>
    match storedLenForVisibleConversationMessage s.transcript messageIndex with
    | some storedLen => [.truncate storedLen]
    | none => []
  | .maybeStartCompactionWith embed =>
    s.startOps (s.manager.maybeStartCompactionWith env embed s.all)
  | .ensureContextFits embed =>
    match s.manager.ensureContextFits env embed s.all with
    | (.hardCompacted dropped, m) => s.startOps m ++ [.drop dropped]
    | (_, m) => s.startOps m
  | .forceCompactWith =>
    match s.manager.forceCompactWith env s.all with
    | .ok m => s.startOps m
    | .error _ => []
  | .hardCompactWith =>
    match s.manager.hardCompactWith env s.all with
    | .ok (dropped, _) => [.drop dropped]
    | .error _ => []
  | .checkAndApplyCompactionWith | .messagesForApiWith => s.collectOps
  | _ => []

/-- The pending task has the messages of the slice that is remembered for it. -/
def Aligned : Prop :=
  ∀ task, s.manager.pendingTask = some task →
    task.messages = s.handed.entries.map (·.toMessage) ∧
      s.manager.pendingCutoff = s.handed.entries.length

variable {env s} {t : CompactionRun E} {m : CompactionManager E} {call : CompactionCall E}

lemma Aligned.start {transcript : List StoredMessage} {mode : CompactionMode}
    {config : CompactionConfig} : (start (E := E) transcript mode config).Aligned :=
  fun _ h => nomatch h

lemma activeStart_cursor : s.manager.activeStart s.all = s.cursor.activeStart := by
  by_cases h : s.manager.compactedCount ≤ s.transcript.length <;>
    simp [activeStart, Cursor.activeStart, cursor, all, h]

lemma activeMessages_eq : s.manager.activeMessages s.all = s.cursor.active.map (·.toMessage) := by
  rw [activeMessages, activeStart_cursor]
  simp [Cursor.active, cursor, all, List.map_drop]

lemma length_activeMessages :
    (s.manager.activeMessages s.all).length = s.cursor.active.length := by
  rw [activeMessages_eq, List.length_map]

/-- A manager at the same position, with the same pending task. -/
structure SamePosition (m m' : CompactionManager E) : Prop where
  count : m'.compactedCount = m.compactedCount
  task : m'.pendingTask = m.pendingTask
  cutoff : m'.pendingCutoff = m.pendingCutoff

lemma cursor_of_samePosition (h : SamePosition s.manager m) :
    ({ s with manager := m } : CompactionRun E).cursor = s.cursor := by
  simp [cursor, h.count, h.task]

lemma Aligned.of_samePosition (ha : s.Aligned) (h : SamePosition s.manager m) :
    ({ s with manager := m } : CompactionRun E).Aligned := by
  intro task ht
  rw [h.task] at ht
  exact ⟨(ha task ht).1, h.cutoff.trans (ha task ht).2⟩

lemma exec_singleton {c d : Cursor StoredMessage} {op : Op StoredMessage}
    (h : c.step op = some d) : exec Cursor.step c [op] = some d := by
  simp [exec, h]

/-- A call that leaves the pending task alone starts nothing. -/
lemma not_starting (h : m.pendingTask = s.manager.pendingTask) :
    (s.manager.pendingTask.isNone && m.pendingTask.isSome) = false := by
  rw [h]
  cases s.manager.pendingTask <;> rfl

/-- Starting a task is the cursor's `start`. -/
lemma start_refines (ha : s.Aligned) (h : m = s.manager ∨ s.manager.Starts m s.all) :
    exec Cursor.step s.cursor (s.startOps m) =
        some ({ s.noteStart m with manager := m } : CompactionRun E).cursor ∧
      ({ s.noteStart m with manager := m } : CompactionRun E).Aligned := by
  rcases h with rfl | ⟨hp, cutoff, trigger, hpos, hle, rfl⟩
  · have hno := not_starting (s := s) (m := s.manager) rfl
    rw [startOps, noteStart, hno]
    exact ⟨rfl, ha⟩
  · have hstart : (s.manager.pendingTask.isNone &&
        (s.manager.startTask s.all cutoff trigger).pendingTask.isSome) = true := by
      simp [hp, startTask]
    have hle' : cutoff ≤ s.cursor.active.length := length_activeMessages ▸ hle
    rw [startOps, noteStart, hstart]
    refine ⟨exec_singleton ?_, fun task ht => ?_⟩
    · have hnone : s.cursor.pending = none := by simp [cursor, hp]
      rw [Cursor.step, if_pos ⟨by rw [hnone]; rfl, hpos, hle'⟩]
      rfl
    · cases ht
      refine ⟨?_, (Cursor.cut_entries_length hle').symm⟩
      change _ = ((s.cursor.active.take cutoff).map _)
      rw [activeMessages_eq, List.map_take]

/-- A hard compaction is the cursor's `drop`. -/
lemma hardCompact_refines {n : Nat} (ha : s.Aligned)
    (h : s.manager.hardCompactWith env s.all = .ok (n, m)) :
    s.cursor.step (.drop n) = some (s.noteAdvance m (s.cursor.cut n)).cursor ∧
      (s.noteAdvance m (s.cursor.cut n)).Aligned := by
  obtain ⟨hpos, hle, hcount, htask, hcutoff⟩ := hardCompact_spec h
  have hle' : n ≤ s.cursor.active.length := length_activeMessages ▸ hle
  refine ⟨?_, fun task ht => ?_⟩
  · rw [Cursor.step, if_pos ⟨hpos, hle'⟩, Cursor.advance, Cursor.cut_entries_length hle']
    simp [cursor, noteAdvance, hcount, htask]
  · have ht' : s.manager.pendingTask = some task := htask ▸ ht
    exact ⟨(ha task ht').1, hcutoff.trans (ha task ht').2⟩

/-- A possible start and a hard compaction in one call. -/
lemma start_hardCompact_refines {m₀ : CompactionManager E} {n : Nat} (ha : s.Aligned)
    (h₀ : m₀ = s.manager ∨ s.manager.Starts m₀ s.all)
    (h : m₀.hardCompactWith env s.all = .ok (n, m)) :
    exec Cursor.step s.cursor (s.startOps m ++ [.drop n]) =
        some ((s.noteStart m).noteAdvance m (s.cursor.cut n)).cursor ∧
      ((s.noteStart m).noteAdvance m (s.cursor.cut n)).Aligned := by
  obtain ⟨hexec, hal⟩ := start_refines ha h₀
  obtain ⟨-, -, -, htask, hcutoff⟩ := hardCompact_spec h
  have hops : s.startOps m = s.startOps m₀ := by simp [startOps, htask, hcutoff]
  have hnote : s.noteStart m = s.noteStart m₀ := by simp [noteStart, htask, hcutoff]
  have hcount : m₀.compactedCount = s.manager.compactedCount := by
    rcases h₀ with rfl | ⟨-, cutoff, trigger, -, -, rfl⟩ <;> rfl
  -- the state between the start and the hard compaction
  let u : CompactionRun E := { s.noteStart m₀ with manager := m₀ }
  have hcut : u.cursor.cut n = s.cursor.cut n := Cursor.cut_congr rfl hcount
  have ht : (s.noteStart m).noteAdvance m (s.cursor.cut n) = u.noteAdvance m (u.cursor.cut n) := by
    rw [hnote, hcut]
    simp [noteAdvance, u, hcount, noteStart]
  obtain ⟨hdrop, hal'⟩ := hardCompact_refines (s := u) hal h
  rw [hops, ht]
  exact ⟨exec_append_eq_some.mpr ⟨_, hexec, exec_singleton hdrop⟩, hal'⟩

/-- Looking for a finished task is the cursor's `apply`, its `cancel`, or nothing. -/
lemma collect_refines (ha : s.Aligned)
    (hcount : m.compactedCount = (s.manager.checkAndApplyCompactionWith s.all).compactedCount)
    (htask : m.pendingTask = (s.manager.checkAndApplyCompactionWith s.all).pendingTask)
    (hcutoff : m.pendingTask.isSome →
      m.pendingCutoff = (s.manager.checkAndApplyCompactionWith s.all).pendingCutoff) :
    exec Cursor.step s.cursor s.collectOps = some (s.collect m).cursor ∧ (s.collect m).Aligned := by
  by_cases hr : s.manager.ready
  · obtain ⟨hc, ht⟩ := checkAndApply_of_ready hr s.all
    obtain ⟨task, result, hp, -⟩ := ready_iff.mp hr
    rw [hc] at hcount
    rw [ht] at htask
    rw [collectOps, collect, if_pos hr, if_pos hr]
    refine ⟨exec_singleton ?_, fun task ht => ?_⟩
    · simp [Cursor.step, cursor, hp, Cursor.advance, noteAdvance, htask, hcount, (ha task hp).2]
    · cases htask.symm.trans ht
  · obtain ⟨hc, ht⟩ := checkAndApply_of_not_ready hr s.all
    rw [collectOps, collect, if_neg hr, if_neg hr]
    rw [hc] at hcount
    split_ifs with hnone
    · have hnone' : m.pendingTask = none := by rw [htask]; simpa using hnone
      refine ⟨exec_singleton ?_, fun task ht => ?_⟩
      · simp [Cursor.step, cursor, hcount, hnone']
      · cases hnone'.symm.trans ht
    · rcases ht with ht | ht
      · simp [ht] at hnone
      · rw [ht] at htask hcutoff
        have hsame : SamePosition s.manager m := by
          refine ⟨hcount, htask, ?_⟩
          cases hp : s.manager.pendingTask with
          | none => simp [ht, hp] at hnone
          | some task => exact hcutoff (by rw [htask, hp]; rfl)
        rw [cursor_of_samePosition hsame]
        exact ⟨rfl, ha.of_samePosition hsame⟩

/-- Every call is the sequence `ops` of cursor operations. -/
theorem step_refines (ha : s.Aligned) (h : s.step env call = some t) :
    exec Cursor.step s.cursor (s.ops env call) = some t.cursor ∧ t.Aligned := by
  have hsame {m : CompactionManager E} (hm : SamePosition s.manager m) :
      exec Cursor.step s.cursor [] = some ({ s with manager := m } : CompactionRun E).cursor ∧
        ({ s with manager := m } : CompactionRun E).Aligned := by
    rw [cursor_of_samePosition hm]
    exact ⟨rfl, ha.of_samePosition hm⟩
  cases call with
  | append message =>
    cases h
    exact ⟨rfl, ha⟩
  | rewindToMessage messageIndex =>
    simp only [step, ops] at h ⊢
    split at h
    · cases h
      exact ⟨rfl, ha⟩
    · cases h
      exact ⟨rfl, ha⟩
  | notifyMessageAddedWith message =>
    cases h
    exact hsame ⟨rfl, rfl, rfl⟩
  | updateObservedInputTokens tokens =>
    cases h
    exact hsame ⟨rfl, rfl, rfl⟩
  | pushTokenSnapshot tokens =>
    cases h
    exact hsame ⟨rfl, rfl, rfl⟩
  | pushEmbeddingSnapshot embed text =>
    cases h
    refine hsame ?_
    unfold pushEmbeddingSnapshot
    split <;> exact ⟨rfl, rfl, rfl⟩
  | setBudget budget =>
    cases h
    exact hsame ⟨rfl, rfl, rfl⟩
  | setMode mode =>
    cases h
    exact hsame ⟨rfl, rfl, rfl⟩
  | maybeStartCompactionWith embed =>
    cases h
    exact start_refines ha (maybeStart_cases _ env embed _)
  | ensureContextFits embed =>
    have hcases := maybeStart_cases s.manager env embed s.all
    obtain ⟨hexec, hal⟩ := start_refines ha hcases
    simp only [step, ops] at h ⊢
    rcases ensureContextFits_cases s.manager env embed s.all with
      ⟨n, haction, hhard⟩ | ⟨haction, hm⟩
    · rw [haction] at h ⊢
      cases h
      exact start_hardCompact_refines ha hcases hhard
    · generalize s.manager.ensureContextFits env embed s.all = r at h haction hm ⊢
      obtain ⟨action, m⟩ := r
      subst hm
      cases action with
      | hardCompacted n => exact (haction n rfl).elim
      | none =>
        cases h
        exact ⟨hexec, hal⟩
      | backgroundStarted trigger =>
        cases h
        exact ⟨hexec, hal⟩
  | forceCompactWith =>
    simp only [step, ops] at h ⊢
    split at h
    · rename_i m hm
      cases h
      exact start_refines ha (.inr (forceCompact_starts hm))
    · cases h
      exact ⟨rfl, ha⟩
  | hardCompactWith =>
    simp only [step, ops] at h ⊢
    split at h
    · rename_i n m hm
      cases h
      obtain ⟨hstep, hal⟩ := hardCompact_refines ha hm
      exact ⟨exec_singleton hstep, hal⟩
    · cases h
      exact ⟨rfl, ha⟩
  | taskFinishes report =>
    simp only [step] at h
    split at h
    · rename_i task hp
      split_ifs at h
      cases h
      refine ⟨by simp [ops, cursor, hp], fun task' ht => ?_⟩
      cases ht
      have hmsgs : (finishTask task report).messages = task.messages := by cases report <;> rfl
      exact ⟨hmsgs.trans (ha task hp).1, (ha task hp).2⟩
    · cases h
  | checkAndApplyCompactionWith =>
    cases h
    exact collect_refines ha rfl rfl fun _ => rfl
  | messagesForApiWith =>
    cases h
    refine collect_refines ha ?_ ?_ fun _ => ?_ <;> simp [messagesForApiWith]

end CompactionRun

end Jcode
