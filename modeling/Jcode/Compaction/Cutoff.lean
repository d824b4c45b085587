import Jcode.Compaction.Accounting
import Jcode.Compaction.ToolPairs

/-!
# Which cutoff is taken

The cutoff search gives the last closed cutoff up to the one it starts from. A hard compaction asks
it again and again with fewer turns to keep, and takes the first answer whose rest fits the budget,
or the last closed cutoff in front of the turns that are always kept.
-/

namespace Jcode

/-- `c` is closed, and nothing between `c` and the bound is. -/
structure LastClosed (messages : List Message) (bound c : Nat) : Prop where
  le : c ≤ bound
  closed : ClosedFrom messages c
  last : ∀ c', c < c' → c' ≤ bound → ¬ ClosedFrom messages c'

/-- Something in front of the bound can be cut off. -/
def CanCut (messages : List Message) (bound : Nat) : Prop :=
  ∃ c, 0 < c ∧ c ≤ bound ∧ ClosedFrom messages c

section

variable {messages : List Message} {k : Nat}

lemma safeCompactionCutoff_eq_zero :
    safeCompactionCutoff messages k = 0 ↔ ¬ CanCut messages (min k messages.length) := by
  obtain ⟨hclosed, hlast⟩ := safeCompactionCutoff_spec messages k
  constructor
  · rintro hzero ⟨c, hpos, hle, hc⟩
    exact hlast c (by omega) hle hc
  · intro hno
    by_contra hne
    exact hno ⟨_, Nat.pos_of_ne_zero hne, safeCompactionCutoff_le, hclosed hne⟩

lemma lastClosed_safeCompactionCutoff (h : safeCompactionCutoff messages k ≠ 0) :
    LastClosed messages (min k messages.length) (safeCompactionCutoff messages k) where
  le := safeCompactionCutoff_le
  closed := (safeCompactionCutoff_spec messages k).1 h
  last := (safeCompactionCutoff_spec messages k).2

/-- The search gives the last closed cutoff up to its start, and zero where there is none. -/
theorem safeCompactionCutoff_optimal (messages : List Message) (initialCutoff : Nat) :
    safeCompactionCutoff messages initialCutoff ≤ min initialCutoff messages.length ∧
      (CanCut messages (min initialCutoff messages.length) →
        ClosedFrom messages (safeCompactionCutoff messages initialCutoff)) ∧
      (∀ c, safeCompactionCutoff messages initialCutoff < c →
        c ≤ min initialCutoff messages.length → ¬ ClosedFrom messages c) ∧
      (¬ CanCut messages (min initialCutoff messages.length) →
        safeCompactionCutoff messages initialCutoff = 0) := by
  obtain ⟨hclosed, hlast⟩ := safeCompactionCutoff_spec messages initialCutoff
  refine ⟨safeCompactionCutoff_le, fun hcut => ?_, hlast, safeCompactionCutoff_eq_zero.mpr⟩
  apply hclosed
  intro hzero
  exact safeCompactionCutoff_eq_zero.mp hzero hcut

end

namespace CompactionManager

open Accounting

variable {E : Type} {env : CompactionEnv E} {m m' : CompactionManager E}
  {active allMessages : List Message} {tokenBudget turnsToKeep n : Nat}

/-- Either what is kept fits the budget, or the fewest turns are kept. -/
lemma hardCutoff_cases (active : List Message) (tokenBudget turnsToKeep : Nat) :
    (0 < hardCutoff active tokenBudget turnsToKeep ∧
      suffixChars active (hardCutoff active tokenBudget turnsToKeep) / charsPerToken ≤
        tokenBudget) ∨
    hardCutoff active tokenBudget turnsToKeep =
      safeCompactionCutoff active (active.length - minTurnsToKeep) := by
  induction turnsToKeep using hardCutoff.induct active tokenBudget with
  | case1 turnsToKeep cutoff hfits =>
    rw [hardCutoff, if_pos hfits]
    exact .inl hfits
  | case2 turnsToKeep cutoff hfits hmin =>
    rw [hardCutoff, if_neg hfits, if_pos hmin]
    exact .inr rfl
  | case3 turnsToKeep cutoff hfits hmin ih =>
    rw [hardCutoff, if_neg hfits, if_neg hmin]
    exact ih

/-- The turns that are always kept stay behind the cutoff. -/
lemma hardCutoff_le_sub (h : minTurnsToKeep ≤ turnsToKeep) :
    hardCutoff active tokenBudget turnsToKeep ≤ active.length - minTurnsToKeep := by
  induction turnsToKeep using hardCutoff.induct active tokenBudget with
  | case1 turnsToKeep cutoff hfits =>
    rw [hardCutoff, if_pos hfits]
    calc safeCompactionCutoff active (active.length - turnsToKeep)
        ≤ active.length - turnsToKeep := safeCompactionCutoff_le.trans (min_le_left _ _)
      _ ≤ active.length - minTurnsToKeep := Nat.sub_le_sub_left h _
  | case2 turnsToKeep cutoff hfits hmin =>
    rw [hardCutoff, if_neg hfits, if_pos hmin]
    exact safeCompactionCutoff_le.trans (min_le_left _ _)
  | case3 turnsToKeep cutoff hfits hmin ih =>
    rw [hardCutoff, if_neg hfits, if_neg hmin]
    exact ih (le_max_right _ _)

lemma safeCutoff_sub_eq_zero :
    safeCompactionCutoff active (active.length - minTurnsToKeep) = 0 ↔
      ¬ CanCut active (active.length - minTurnsToKeep) := by
  rw [safeCompactionCutoff_eq_zero, min_eq_left (Nat.sub_le _ _)]

/-- The loop comes back empty-handed exactly if nothing in front of the kept turns can be cut. -/
lemma hardCutoff_eq_zero (h : minTurnsToKeep ≤ turnsToKeep) :
    hardCutoff active tokenBudget turnsToKeep = 0 ↔
      ¬ CanCut active (active.length - minTurnsToKeep) := by
  constructor
  · intro hzero
    rcases hardCutoff_cases active tokenBudget turnsToKeep with ⟨hpos, -⟩ | hlast
    · omega
    · exact safeCutoff_sub_eq_zero.mp (hlast.symm.trans hzero)
  · intro hno
    by_contra hne
    exact hno ⟨_, Nat.pos_of_ne_zero hne, hardCutoff_le_sub h, closedFrom_hardCutoff hne⟩

lemma minTurns_le_start (h : ¬ active.length ≤ minTurnsToKeep) :
    minTurnsToKeep ≤ min recentTurnsToKeep (active.length - 1) := by
  simp only [minTurnsToKeep, recentTurnsToKeep] at *
  omega

lemma hardCompact_error_iff : (∃ reason, m.hardCompactWith env allMessages = .error reason) ↔
    (m.activeMessages allMessages).length ≤ minTurnsToKeep ∨
      ¬ CanCut (m.activeMessages allMessages)
        ((m.activeMessages allMessages).length - minTurnsToKeep) := by
  simp only [hardCompactWith]
  split_ifs with hlen hzero
  · simp [hlen]
  · simp [(hardCutoff_eq_zero (minTurns_le_start hlen)).mp hzero]
  · have hcut := mt (hardCutoff_eq_zero (minTurns_le_start hlen)).mpr hzero
    simp [hlen, not_not.mp hcut]

/-- What is dropped, if anything is: the rest fits, or it is the last closed cutoff there is. -/
lemma hardCompact_dropped (h : m.hardCompactWith env allMessages = .ok (n, m')) :
    suffixChars (m.activeMessages allMessages) n / charsPerToken ≤ m.tokenBudget ∨
      LastClosed (m.activeMessages allMessages)
        ((m.activeMessages allMessages).length - minTurnsToKeep) n := by
  simp only [hardCompactWith] at h
  split_ifs at h with hlen hzero
  cases h
  refine (hardCutoff_cases _ _ _).imp (fun hfits => hfits.2) fun heq => ?_
  rw [heq] at hzero ⊢
  have hlast := lastClosed_safeCompactionCutoff hzero
  rwa [min_eq_left (Nat.sub_le _ _)] at hlast

/-- When a hard compaction fails, and what it does when it does not. -/
theorem hardCompactWith_spec (env : CompactionEnv E) (m : CompactionManager E)
    (allMessages : List Message) :
    ((∃ reason, m.hardCompactWith env allMessages = .error reason) ↔
      (m.activeMessages allMessages).length ≤ minTurnsToKeep ∨
        ∀ c, 0 < c → c ≤ (m.activeMessages allMessages).length - minTurnsToKeep →
          ¬ ClosedFrom (m.activeMessages allMessages) c) ∧
    (∀ reason, m.hardCompactWith env allMessages = .error reason →
      step env ⟨allMessages, m⟩ .hardCompactWith = some ⟨allMessages, m⟩) ∧
    ∀ d m', m.hardCompactWith env allMessages = .ok (d, m') →
      step env ⟨allMessages, m⟩ .hardCompactWith = some ⟨allMessages, m'⟩ ∧
      0 < d ∧ ClosedFrom (m.activeMessages allMessages) d ∧
      m'.compactedCount = m.compactedCount + d ∧
      (suffixChars (m.activeMessages allMessages) d / charsPerToken ≤ m.tokenBudget ∨
        d ≤ (m.activeMessages allMessages).length - minTurnsToKeep ∧
        ∀ c, d < c → c ≤ (m.activeMessages allMessages).length - minTurnsToKeep →
          ¬ ClosedFrom (m.activeMessages allMessages) c) := by
  refine ⟨?_, fun reason h => ?_, fun d m' h => ?_⟩
  · rw [hardCompact_error_iff]
    simp [CanCut]
  · simp only [Accounting.step, h]
  · obtain ⟨hpos, -, hcount, -, -⟩ := hardCompact_spec h
    refine ⟨by simp only [Accounting.step, h], hpos, hardCompact_closed h, hcount, ?_⟩
    exact (hardCompact_dropped h).imp_right fun hlast => ⟨hlast.le, hlast.last⟩

end CompactionManager

end Jcode
