import Jcode.Compaction.Coverage

/-!
# Rewinding a compacted conversation

`rewind_to_message` truncates the transcript and leaves the compaction manager as it is. While no
rewind cuts into the compacted messages, and no background result is applied to other messages
than its task was handed, the provider is sent the summary followed by exactly the messages that
no compaction covered. A rewind behind the compacted count makes the manager skip messages that
are appended later.
-/

namespace Jcode

open Schedule PrefixCursor

variable {E : Type}

namespace CompactionRun

variable {env : CompactionEnv E} {s t : CompactionRun E} {call : CompactionCall E}

/-- The messages handed to the compactions that were applied. -/
def compacted (s : CompactionRun E) : List StoredMessage := s.advances.flatMap (·.slice.entries)

/-- The length a rewind cuts the transcript to. -/
def rewindPoint (transcript : List StoredMessage) : CompactionCall E → Option Nat
  | .rewindToMessage i => storedLenForVisibleConversationMessage transcript i
  | _ => none

/-- A rewind keeps the compacted messages, and a background result is applied to the messages its
task was handed: they are still the first that no compaction has covered. -/
def KeepsCompacted (s : CompactionRun E) (call : CompactionCall E) : Prop :=
  (∀ n ∈ rewindPoint s.transcript call, s.manager.compactedCount ≤ n) ∧
  (call.collects → s.manager.ready →
    s.handed.entries <+: s.transcript.drop s.manager.compactedCount)

instance (s : CompactionRun E) (call : CompactionCall E) : Decidable (s.KeepsCompacted call) :=
  inferInstanceAs (Decidable ((∀ n ∈ rewindPoint s.transcript call, _) ∧
    (call.collects → s.manager.ready → _)))

lemma keepsCompacted_ops (hk : s.KeepsCompacted call) :
    Guarded Cursor.step PrefixCursor.KeepsCompacted s.cursor (s.ops env call) := by
  by_cases hc : call.collects ∧ s.manager.ready
  · rw [ops_of_collects hc.1 hc.2]
    refine ⟨fun slice hp => ?_, fun _ _ => trivial⟩
    cases (pending_of_ready hc.2).symm.trans hp
    exact hk.2 hc.1 hc.2
  · by_cases hr : ∃ i n, call = .rewindToMessage i ∧
        storedLenForVisibleConversationMessage s.transcript i = some n
    · obtain ⟨i, n, rfl, hn⟩ := hr
      simp only [ops, hn]
      exact ⟨hk.1 n hn, fun _ _ => trivial⟩
    · refine guarded_of_forall_mem fun op hop c => ?_
      rcases ops_mem hop with ⟨x, rfl⟩ | ⟨k, rfl⟩ | ⟨k, rfl⟩ | rfl | ⟨-, hcr⟩ | ⟨i, n, rfl, rfl, hn⟩
      · trivial
      · trivial
      · trivial
      · trivial
      · exact (hc hcr).elim
      · exact (hr ⟨i, n, rfl, hn⟩).elim

lemma summarised_step (hk : s.KeepsCompacted call) (ha : s.Aligned) (h : Summarised s.cursor)
    (hs : s.step env call = some t) : Summarised t.cursor :=
  exec_invariant_of_guarded (fun _ _ _ h hk hs => h.step hk hs) (keepsCompacted_ops hk) h
    (step_refines ha hs).1

lemma summarised_start {transcript : List StoredMessage} {mode : CompactionMode}
    {config : CompactionConfig} :
    Summarised (start (E := E) transcript mode config).cursor := by
  constructor
  · exact Nat.zero_le _
  · rfl

/-- What a summarised transcript sends. -/
lemma apiMessages_of_summarised (h : Summarised s.cursor) :
    ∃ rest, s.transcript = s.compacted ++ rest ∧
      s.manager.apiMessages s.all =
        (s.manager.activeSummary.map CompactionManager.summaryMessage).toList ++
          rest.map (·.toMessage) :=
  ⟨s.cursor.active, h.log_eq, by rw [CompactionManager.apiMessages, activeMessages_eq]⟩

/-- The list returned by `messages_for_api_with` is the one of the state it leads to. -/
lemma step_messagesForApiWith (env : CompactionEnv E) (s : CompactionRun E) :
    ∃ u, s.step env .messagesForApiWith = some u ∧
    u.transcript = s.transcript ∧ u.manager = (s.manager.messagesForApiWith s.all).2 ∧
    (s.manager.messagesForApiWith s.all).1 = u.manager.apiMessages u.all := by
  refine ⟨_, rfl, ?_, ?_, ?_⟩ <;> unfold collect <;> split_ifs <;> rfl

end CompactionRun

open CompactionRun

/-- In every run that keeps the compacted messages, a call of `messages_for_api_with` returns the
summary, if there is one, followed by exactly the transcript messages which no applied
compaction covered; the covered ones, for which the summary stands, are all still in the
transcript. -/
theorem messagesForApiWith_sends_uncompacted {env : CompactionEnv E}
    {transcript : List StoredMessage} {mode : CompactionMode} {config : CompactionConfig}
    {calls : List (CompactionCall E)} {t : CompactionRun E}
    (hrun : exec (step env) (start transcript mode config) calls = some t)
    (hkeep : Guarded (step env) KeepsCompacted (start transcript mode config)
      (calls ++ [.messagesForApiWith])) :
    ∃ u rest, t.step env .messagesForApiWith = some u ∧ t.transcript = u.compacted ++ rest ∧
      (t.manager.messagesForApiWith t.all).1 =
        (u.manager.activeSummary.map CompactionManager.summaryMessage).toList ++
          rest.map (·.toMessage) := by
  have hinv : t.Aligned ∧ Summarised t.cursor :=
    exec_invariant_of_guarded (I := fun s => s.Aligned ∧ Summarised s.cursor)
      (fun s call s' h hk hs => ⟨(step_refines h.1 hs).2, summarised_step hk h.1 h.2 hs⟩)
      hkeep.of_append ⟨.start, summarised_start⟩ hrun
  obtain ⟨u, hu, htr, -, hlist⟩ := step_messagesForApiWith env t
  have hcall : t.KeepsCompacted (.messagesForApiWith : CompactionCall E) := hkeep.step_mem hrun
  obtain ⟨rest, hrest, hapi⟩ :=
    apiMessages_of_summarised (summarised_step hcall hinv.1 hinv.2 hu)
  exact ⟨u, rest, hu, htr ▸ hrest, hlist.trans hapi⟩

/-! ### A rewind behind the compacted count -/

def freshMessage : StoredMessage :=
  { sixteenBytes with id := "fresh", content := [.text "after the rewind" none] }

/-- Two of twelve messages are compacted, the last is taken back, and another one is appended. -/
def shortRewindRun : List (CompactionCall Unit) :=
  [.setBudget 40, .hardCompactWith, .rewindToMessage 11, .append freshMessage]

theorem messagesForApiWith_sends_uncompacted_shortRewindRun :
    ∃ t u rest, exec (step exactEnv)
        (start (List.replicate 12 sixteenBytes) .reactive defaultConfig) shortRewindRun = some t ∧
      t.step exactEnv .messagesForApiWith = some u ∧ t.transcript = u.compacted ++ rest ∧
      (t.manager.messagesForApiWith t.all).1 =
        (u.manager.activeSummary.map CompactionManager.summaryMessage).toList ++
          rest.map (·.toMessage) := by
  obtain ⟨t, ht⟩ := Option.isSome_iff_exists.mp (show (exec (step exactEnv)
    (start (List.replicate 12 sixteenBytes) .reactive defaultConfig) shortRewindRun).isSome by
      decide +kernel)
  obtain ⟨u, rest, hu⟩ := messagesForApiWith_sends_uncompacted ht (by decide +kernel)
  exact ⟨t, u, rest, ht, hu⟩

/-- Two of twelve messages are compacted, all but the first are taken back, and another one is
appended. -/
def longRewindRun : List (CompactionCall Unit) :=
  [.setBudget 40, .hardCompactWith, .rewindToMessage 1, .append freshMessage]

/-- The message appended after the rewind is hidden: the provider is sent the summary alone. -/
theorem rewindToMessage_hides :
    ¬ ∀ (transcript : List StoredMessage) (mode : CompactionMode) (config : CompactionConfig)
        (calls : List (CompactionCall Unit)) (t : CompactionRun Unit),
      exec (step exactEnv) (start transcript mode config) calls = some t →
      ∀ x ∈ t.transcript, x ∉ t.compacted →
        x.toMessage ∈ (t.manager.messagesForApiWith t.all).1 := by
  intro h
  have hend : (exec (step exactEnv) (start (List.replicate 12 sixteenBytes) .reactive defaultConfig)
      longRewindRun).any (fun t => freshMessage ∈ t.transcript ∧ freshMessage ∉ t.compacted ∧
        freshMessage.toMessage ∉ (t.manager.messagesForApiWith t.all).1) := by
    decide +kernel
  obtain ⟨t, ht, hfacts⟩ := (Option.any_eq_true _ _).mp hend
  obtain ⟨hmem, hfresh, hhidden⟩ := of_decide_eq_true hfacts
  exact hhidden (h _ _ _ _ t ht freshMessage hmem hfresh)

end Jcode
