import Jcode.Compaction.Runs

/-!
# No message is skipped

While the caller only appends, each message behind the compacted count was handed to the
compaction that advanced the count over it, as long as a background result is applied where its
task was started. A hard compaction in between moves the count on; the recorded cutoff is then
added to the wrong base, and messages are passed which no compaction has seen.
-/

namespace Jcode

open Schedule PrefixCursor

variable {E : Type}

/-- The calls that look for a finished task. -/
def CompactionCall.collects : CompactionCall E → Bool
  | .checkAndApplyCompactionWith | .messagesForApiWith => true
  | _ => false

def CompactionCall.rewinds : CompactionCall E → Bool
  | .rewindToMessage _ => true
  | _ => false

namespace CompactionRun

variable {env : CompactionEnv E} {s t : CompactionRun E} {call : CompactionCall E}

/-- The compacted count is inside the transcript, and every message behind it was a member of the
slice handed to the compaction which advanced the count over it. -/
def NothingSkipped (s : CompactionRun E) : Prop :=
  s.manager.compactedCount ≤ s.transcript.length ∧ ∀ i < s.manager.compactedCount,
    (∃ a ∈ s.advances, a.Over i) ∧ ∀ a ∈ s.advances, a.Over i → a.slice.Holds s.transcript i

/-- The caller's list only grows. -/
def OnlyAppends (_ : CompactionRun E) (call : CompactionCall E) : Prop := call.rewinds = false

/-- A background result is applied only while the compacted count is where it was when its task
was started. -/
def AppliesUnmoved (s : CompactionRun E) (call : CompactionCall E) : Prop :=
  call.collects → s.manager.ready → s.handed.start = s.manager.compactedCount

instance (s : CompactionRun E) (call : CompactionCall E) : Decidable (s.OnlyAppends call) :=
  inferInstanceAs (Decidable (call.rewinds = false))

instance (s : CompactionRun E) (call : CompactionCall E) : Decidable (s.AppliesUnmoved call) :=
  inferInstanceAs (Decidable (call.collects → s.manager.ready → _))

/-! ### Which operations a call can amount to -/

lemma startOps_mem {m : CompactionManager E} {op : Op StoredMessage} (h : op ∈ s.startOps m) :
    ∃ k, op = .start k := by
  unfold startOps at h
  split_ifs at h
  · exact ⟨_, List.mem_singleton.mp h⟩
  · cases h

lemma collectOps_mem {op : Op StoredMessage} (h : op ∈ s.collectOps) :
    (op = .apply ∧ s.manager.ready) ∨ op = .cancel := by
  unfold collectOps at h
  split_ifs at h with hr hn
  · exact .inl ⟨List.mem_singleton.mp h, hr⟩
  · exact .inr (List.mem_singleton.mp h)
  · cases h

/-- Every operation of a call appends, starts or drops, or says which call it comes from. -/
lemma ops_mem {op : Op StoredMessage} (h : op ∈ s.ops env call) :
    (∃ x, op = .append x) ∨ (∃ k, op = .start k) ∨ (∃ k, op = .drop k) ∨ op = .cancel ∨
      (op = .apply ∧ call.collects ∧ s.manager.ready) ∨
      ∃ i n, call = .rewindToMessage i ∧ op = .truncate n ∧
        storedLenForVisibleConversationMessage s.transcript i = some n := by
  cases call with
  | append message => exact .inl ⟨message, List.mem_singleton.mp h⟩
  | rewindToMessage i =>
    simp only [ops] at h
    split at h
    · rename_i n hn
      simp [List.mem_singleton.mp h, hn]
    · cases h
  | maybeStartCompactionWith embed => exact .inr (.inl (startOps_mem h))
  | ensureContextFits embed =>
    simp only [ops] at h
    split at h
    · rcases List.mem_append.mp h with h | h
      · exact .inr (.inl (startOps_mem h))
      · exact .inr (.inr (.inl ⟨_, List.mem_singleton.mp h⟩))
    · exact .inr (.inl (startOps_mem h))
  | forceCompactWith =>
    simp only [ops] at h
    split at h
    · exact .inr (.inl (startOps_mem h))
    · cases h
  | hardCompactWith =>
    simp only [ops] at h
    split at h
    · exact .inr (.inr (.inl ⟨_, List.mem_singleton.mp h⟩))
    · cases h
  | checkAndApplyCompactionWith | messagesForApiWith =>
    rcases collectOps_mem h with ⟨rfl, hr⟩ | rfl
    · simp [CompactionCall.collects, hr]
    · simp
  | _ => cases h

/-- A call that applies a result does nothing else to the position. -/
lemma ops_of_collects (hc : call.collects) (hr : s.manager.ready) :
    s.ops env call = [.apply] := by
  cases call <;> simp_all [CompactionCall.collects, ops, collectOps]

/-- A call that applies a result applies the slice of the pending task. -/
lemma pending_of_ready (h : s.manager.ready) : s.cursor.pending = some s.handed := by
  obtain ⟨task, result, hp, -⟩ := CompactionManager.ready_iff.mp h
  simp [cursor, hp]

/-! ### Steps -/

lemma guarded_ops (hgrow : s.OnlyAppends call) (hfresh : s.AppliesUnmoved call) :
    Guarded Cursor.step (fun c op => PrefixCursor.Grows c op ∧ AppliesFresh c op) s.cursor
      (s.ops env call) := by
  by_cases hc : call.collects ∧ s.manager.ready
  · rw [ops_of_collects hc.1 hc.2]
    refine ⟨⟨fun n => by simp, fun _ slice hp => ?_⟩, fun _ _ => trivial⟩
    cases (pending_of_ready hc.2).symm.trans hp
    exact hfresh hc.1 hc.2
  · refine guarded_of_forall_mem fun op hop c => ?_
    rcases ops_mem hop with ⟨x, rfl⟩ | ⟨k, rfl⟩ | ⟨k, rfl⟩ | rfl | ⟨-, hcr⟩ | ⟨i, n, rfl, -⟩
    · exact ⟨fun n => by simp, by simp [AppliesFresh]⟩
    · exact ⟨fun n => by simp, by simp [AppliesFresh]⟩
    · exact ⟨fun n => by simp, by simp [AppliesFresh]⟩
    · exact ⟨fun n => by simp, by simp [AppliesFresh]⟩
    · exact (hc hcr).elim
    · cases hgrow

lemma grows_ops (hgrow : s.OnlyAppends call) :
    Guarded Cursor.step PrefixCursor.Grows s.cursor (s.ops env call) := by
  refine guarded_of_forall_mem fun op hop c n hn => ?_
  subst hn
  rcases ops_mem hop with ⟨x, h⟩ | ⟨k, h⟩ | ⟨k, h⟩ | h | ⟨h, -⟩ | ⟨i, n, rfl, -⟩
  · cases h
  · cases h
  · cases h
  · cases h
  · cases h
  · cases hgrow

/-- The positions stay in order whatever is applied. -/
lemma tracked_step (hgrow : s.OnlyAppends call) (ha : s.Aligned) (h : Tracked s.cursor)
    (hs : s.step env call = some t) : Tracked t.cursor :=
  exec_invariant_of_guarded (fun _ _ _ h hg hs => h.step hg hs) (grows_ops hgrow) h
    (step_refines ha hs).1

lemma NothingSkipped.step (hP : s.NothingSkipped) (hgrow : s.OnlyAppends call)
    (hfresh : s.AppliesUnmoved call) (ha : s.Aligned) (h : Tracked s.cursor)
    (hs : s.step env call = some t) : t.NothingSkipped := by
  have hboth : Tracked t.cursor ∧ Covered t.cursor :=
    exec_invariant_of_guarded (I := fun c => Tracked c ∧ Covered c)
      (fun _ _ _ h hg hs => ⟨h.1.step hg.1 hs, h.2.step h.1 hg.1 hg.2 hs⟩)
      (guarded_ops hgrow hfresh) ⟨h, hP⟩ (step_refines ha hs).1
  exact hboth.2

lemma not_nothingSkipped_of_moved (hmoved : ¬ s.AppliesUnmoved call) (ha : s.Aligned)
    (h : Tracked s.cursor) (hs : s.step env call = some t) : ¬ t.NothingSkipped := by
  simp only [AppliesUnmoved, not_forall] at hmoved
  obtain ⟨hc, hr, hne⟩ := hmoved
  have hops : s.ops env call = [.apply] := by
    cases call <;> simp_all [CompactionCall.collects, ops, collectOps]
  have hexec := (step_refines ha hs).1
  rw [hops] at hexec
  obtain ⟨d, hd, hdt⟩ := exec_cons_eq_some.mp hexec
  cases hdt
  refine not_covered_of_stale h (fun hf => hne ?_) hd
  exact hf rfl _ (pending_of_ready hr)

end CompactionRun

open CompactionRun

/-- For a manager whose caller only appends: no message is skipped throughout a run exactly when
every background result that is applied finds the compacted count where its task was started. -/
theorem compactedCount_nothingSkipped_iff {env : CompactionEnv E} {transcript : List StoredMessage}
    {mode : CompactionMode} {config : CompactionConfig} {calls : List (CompactionCall E)}
    {t : CompactionRun E}
    (hrun : exec (step env) (start transcript mode config) calls = some t)
    (hgrow : Guarded (step env) OnlyAppends (start transcript mode config) calls) :
    Always (step env) NothingSkipped (start transcript mode config) calls ↔
      Guarded (step env) AppliesUnmoved (start transcript mode config) calls := by
  refine always_iff_guarded (I := fun s => s.Aligned ∧ Tracked s.cursor)
    (fun s call s' h hg hs => ⟨(step_refines h.1 hs).2, tracked_step hg h.1 h.2 hs⟩)
    (fun s call s' h hP hg hf hs => hP.step hg hf h.1 h.2 hs)
    (fun s call s' h _ _ hf hs => not_nothingSkipped_of_moved hf h.1 h.2 hs)
    ⟨.start, .of_empty⟩ ?_ hgrow hrun
  exact ⟨Nat.zero_le _, fun i hi => absurd hi (Nat.not_lt_zero i)⟩

/-! ### A run that skips messages -/

/-- Fractions compared by cross-multiplication, and texts of messages without tools or files. -/
def exactEnv : CompactionEnv Unit where
  usageReaches threshold tokens budget := percent threshold * budget ≤ tokens * 100
  usageBelow threshold tokens budget := tokens * 100 < percent threshold * budget
  usagePercent tokens budget :=
    toString (tokens * 100 / budget) ++ "." ++ toString (tokens * 1000 / budget % 10)
  projectsOverflow _ _ := false
  topicShift _ _ := false
  relevant _ _ := false
  emergencySummaryText existing dropped preTokens tokenBudget _ :=
    (existing.elim "" (· ++ "\n\n")) ++ "**[Emergency compaction]**: " ++ toString dropped ++
      " messages were dropped to recover from context overflow. The conversation had ~" ++
      toString (preTokens / 1000) ++ "k tokens which exceeded the " ++
      toString (tokenBudget / 1000) ++ "k limit."
where
  percent : UsageThreshold → Nat
    | .compaction => 80
    | .critical => 95
    | .manualCompactMin => 10
    | .proactiveFloor => 40

def defaultConfig : CompactionConfig where
  minSamples := 3
  stallWindow := 5
  minTurnsBetweenCompactions := 10
  goalWindowTurns := 5

def sixteenBytes : StoredMessage where
  id := "message"
  role := .user
  content := [.text "0123456789abcdef" none]
  displayRole := none
  timestamp := none
  toolDurationMs := none
  tokenUsage := none

/-- Twelve messages and a budget they exceed: the background task and the hard compaction of one
`ensure_context_fits` are both handed the first two messages. -/
def criticalRun : List (CompactionCall Unit) :=
  [.setBudget 40, .ensureContextFits fun _ => none, .taskFinishes (.summary "summary" none 0),
    .checkAndApplyCompactionWith]

theorem compactedCount_nothingSkipped_iff_criticalRun :
    Always (step exactEnv) NothingSkipped
        (start (List.replicate 12 sixteenBytes) .reactive defaultConfig) criticalRun ↔
      Guarded (step exactEnv) AppliesUnmoved
        (start (List.replicate 12 sixteenBytes) .reactive defaultConfig) criticalRun := by
  obtain ⟨t, ht⟩ := Option.isSome_iff_exists.mp (show (exec (step exactEnv)
    (start (List.replicate 12 sixteenBytes) .reactive defaultConfig) criticalRun).isSome by
      decide +kernel)
  exact compactedCount_nothingSkipped_iff ht (by decide +kernel)

/-- The count ends at four, but the advance from two to four was made for the first two. -/
theorem ensureContextFits_skips :
    ¬ ∀ (transcript : List StoredMessage) (mode : CompactionMode) (config : CompactionConfig)
        (calls : List (CompactionCall Unit)) (t : CompactionRun Unit),
      exec (step exactEnv) (start transcript mode config) calls = some t →
      Guarded (step exactEnv) OnlyAppends (start transcript mode config) calls →
      NothingSkipped t := by
  intro h
  have hend : (exec (step exactEnv) (start (List.replicate 12 sixteenBytes) .reactive defaultConfig)
      criticalRun).any (fun t => t.manager.compactedCount = 4 ∧ t.advances.any fun a =>
        a.before = 2 ∧ a.after = 4 ∧ a.slice.start = 0 ∧ a.slice.entries.length = 2) := by
    decide +kernel
  obtain ⟨t, ht, hfacts⟩ := (Option.any_eq_true _ _).mp hend
  simp only [decide_eq_true_eq, List.any_eq_true] at hfacts
  obtain ⟨hcount, a, ha, hbefore, hafter, hstart, hlen⟩ := hfacts
  have hskip := h _ _ _ _ t ht (by decide +kernel)
  obtain ⟨-, x, hx, -⟩ := (hskip.2 2 (by omega)).2 a ha ⟨by omega, by omega⟩
  rw [hstart, List.getElem?_eq_none (by omega)] at hx
  cases hx

end Jcode
