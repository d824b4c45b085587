import Jcode.Swarm.PersistenceLatest
import Mathlib.Data.List.TakeWhile

/-!
# Members over several reloads

What a reload makes of a member is what the next reload starts from. The recovered form is stable
if and only if the member is not headless or had ended for good.
-/

namespace Jcode

/-- A record as it is read from its text. -/
def SwarmMemberRecord.readBack (record : SwarmMemberRecord) : SwarmMemberRecord :=
  { record with
    status := .ofString record.status.asStr
    role := .ofString record.role.asStr }

/-- A persisted member is loaded, and then `reloads` times persisted and loaded again. -/
def recoveredAfter (record : SwarmMemberRecord) : Nat → SwarmMember
  | 0 => fromPersistedMember record.readBack
  | reloads + 1 => fromPersistedMember (recoveredAfter record reloads).durableRecord.readBack

/-- However often the member is loaded again, its status and detail are those of the first time,
and a terminal status is that of the record. -/
def StableRecovery (record : SwarmMemberRecord) : Prop :=
  ∀ reloads,
    (recoveredAfter record reloads).status = (recoveredAfter record 0).status ∧
    (recoveredAfter record reloads).detail = (recoveredAfter record 0).detail ∧
    (isTerminalStatus record.status.asStr →
      (recoveredAfter record reloads).status = record.status.asStr)

/-- The member is not headless, or its status is one that is left alone. -/
def KeptByReload (member : SwarmMember) : Prop :=
  member.isHeadless = false ∨ member.status ∈ ["completed", "failed", "stopped"]

variable {record : SwarmMemberRecord} {member : SwarmMember} {detail : Option String}
  {note : String}

lemma durableRecord_fromRecord : (SwarmMember.fromRecord record).durableRecord = record.readBack := rfl

lemma readBack_durableRecord : member.durableRecord.readBack = member.durableRecord := by
  simp [SwarmMemberRecord.readBack, SwarmMember.durableRecord]

lemma recoveredAfter_zero :
    recoveredAfter record 0 = recoverMember (SwarmMember.fromRecord record) := by
  rw [recoveredAfter, ← durableRecord_fromRecord, fromPersistedMember_durableRecord]

lemma recoveredAfter_succ (reloads : Nat) :
    recoveredAfter record (reloads + 1) = recoverMember (recoveredAfter record reloads) := by
  rw [recoveredAfter, readBack_durableRecord, fromPersistedMember_durableRecord]

/-! ### The detail -/

lemma trim_eq_empty {text : String} : trim text = "" ↔ ∀ c ∈ text.toList, isWhitespace c := by
  rw [trim, String.ofList_eq_empty_iff, List.reverse_eq_nil_iff, List.dropWhile_eq_nil_iff]
  simp only [List.mem_reverse]
  refine ⟨fun h => ?_, fun h c hc => h c ((List.dropWhile_sublist _).subset hc)⟩
  have hnil : text.toList.dropWhile isWhitespace = [] := by
    by_contra hne
    have hhead := List.head_dropWhile_not isWhitespace hne
    rw [h _ (List.head_mem hne)] at hhead
    cases hhead
  exact List.dropWhile_eq_nil_iff.mp hnil

/-- What a reload writes is not blank. -/
lemma appendRecoveryDetail_eq_some (detail : Option String) (hnote : trim note ≠ "") :
    ∃ text, appendRecoveryDetail detail note = some text ∧ trim text ≠ "" := by
  cases detail with
  | none => exact ⟨note, rfl, hnote⟩
  | some existing =>
    by_cases hblank : trim existing = ""
    · exact ⟨note, by simp [appendRecoveryDetail, hblank], hnote⟩
    · rw [← ne_eq] at hblank
      refine ⟨existing ++ " (" ++ note ++ ")", by simp [appendRecoveryDetail, hblank], ?_⟩
      rw [ne_eq, trim_eq_empty] at hblank ⊢
      intro hall
      refine hblank fun c hc => hall c ?_
      simp only [String.toList_append, List.mem_append]
      exact .inl (.inl (.inl hc))

/-- A note is put behind every detail that is not blank. -/
lemma appendRecoveryDetail_ne {text : String} (htext : trim text ≠ "") :
    appendRecoveryDetail (some text) note ≠ some text := by
  intro heq
  have hlength := congrArg (fun detail => (detail.getD "").length) heq
  simp only [appendRecoveryDetail, ne_eq, htext, not_false_eq_true, if_true, Option.getD_some,
    String.length_append] at hlength
  have hparen : " (".length = 2 := rfl
  omega

/-! ### The status -/

lemma ofString_eq_iff {text : String} {status : SwarmLifecycleStatus}
    (h : SwarmLifecycleStatus.ofString status.asStr = status) :
    SwarmLifecycleStatus.ofString text = status ↔ text = status.asStr := by
  constructor
  · rintro rfl
    simp
  · rintro rfl
    exact h

lemma recoverMember_of_kept (hrunning : member.status ≠ "running") (h : KeptByReload member) :
    recoverMember member = member := by
  have hstatus : ¬ (member.isHeadless ∧ SwarmLifecycleStatus.ofString member.status ∉
      [.completed, .failed, .stopped]) := by
    rintro ⟨hheadless, hended⟩
    rcases h with h | h
    · simp [h] at hheadless
    · simp only [List.mem_cons, List.not_mem_nil, or_false] at h
      rcases h with h | h | h <;> simp [h, SwarmLifecycleStatus.ofString] at hended
  have hne : SwarmLifecycleStatus.ofString member.status ≠ .running := by
    rwa [ne_eq, ofString_eq_iff rfl]
  rw [recoverMember, recoverMemberStatus, if_neg hne, if_neg hstatus]
  simp

/-- A running member crashes, and so does a headless one that is not left alone. -/
lemma recoverMember_of_crash (h : member.status = "running" ∨ ¬ KeptByReload member) :
    ∃ note, trim note ≠ "" ∧ recoverMember member =
      { member with status := "crashed", detail := appendRecoveryDetail member.detail note } := by
  by_cases hrunning : member.status = "running"
  · refine ⟨"recovered after reload while running", ?_, ?_⟩
    · rw [ne_eq, trim_eq_empty, String.toList_ofList]
      exact fun hall => absurd (hall 'r' List.mem_cons_self) (by decide)
    simp [recoverMember, recoverMemberStatus, hrunning, SwarmLifecycleStatus.ofString,
      SwarmLifecycleStatus.asStr]
  · refine ⟨"headless session did not survive reload", ?_, ?_⟩
    · rw [ne_eq, trim_eq_empty, String.toList_ofList]
      exact fun hall => absurd (hall 'h' List.mem_cons_self) (by decide)
    have hkept := h.resolve_left hrunning
    have hne : SwarmLifecycleStatus.ofString member.status ≠ .running := by
      rwa [ne_eq, ofString_eq_iff rfl]
    have hstatus : member.isHeadless ∧ SwarmLifecycleStatus.ofString member.status ∉
        [.completed, .failed, .stopped] := by
      simp only [KeptByReload, not_or, Bool.not_eq_false] at hkept
      refine ⟨hkept.1, fun hmem => hkept.2 ?_⟩
      simp only [List.mem_cons, List.not_mem_nil, or_false] at hmem ⊢
      rwa [ofString_eq_iff rfl, ofString_eq_iff rfl, ofString_eq_iff rfl] at hmem
    rw [recoverMember, recoverMemberStatus, if_neg hne, if_pos hstatus]
    rfl

/-- A second reload changes nothing for a member that the first one leaves alone or that is not
headless. -/
lemma recoverMember_twice (h : KeptByReload member) :
    recoverMember (recoverMember member) = recoverMember member := by
  by_cases hrunning : member.status = "running"
  · obtain ⟨note, -, hcrash⟩ := recoverMember_of_crash (.inl hrunning)
    have hheadless : member.isHeadless = false := h.resolve_right (by simp [hrunning])
    rw [hcrash]
    exact recoverMember_of_kept (by simp) (.inl hheadless)
  · rw [recoverMember_of_kept hrunning h, recoverMember_of_kept hrunning h]

/-- The second reload of another headless member puts a second note into its detail. -/
lemma detail_recoverMember_twice (h : ¬ KeptByReload member) :
    (recoverMember (recoverMember member)).detail ≠ (recoverMember member).detail := by
  obtain ⟨note, hnote, hcrash⟩ := recoverMember_of_crash (.inr h)
  obtain ⟨text, htext, hblank⟩ := appendRecoveryDetail_eq_some member.detail hnote
  have hagain : ¬ KeptByReload (recoverMember member) := by
    simp only [KeptByReload, not_or, Bool.not_eq_false] at h
    simp [KeptByReload, hcrash, h.1]
  obtain ⟨note', -, hcrash'⟩ := recoverMember_of_crash (.inr hagain)
  rw [hcrash', hcrash]
  change appendRecoveryDetail (appendRecoveryDetail _ _) _ ≠ appendRecoveryDetail _ _
  rw [htext]
  exact appendRecoveryDetail_ne hblank

/-- The recovery of a member is stable if and only if the member is not headless, or its status is
one of those that are left alone. -/
theorem stableRecovery_iff (record : SwarmMemberRecord) : StableRecovery record ↔
    record.isHeadless = false ∨ record.status.asStr ∈ ["completed", "failed", "stopped"] := by
  change StableRecovery record ↔ KeptByReload (SwarmMember.fromRecord record)
  constructor
  · intro hstable
    by_contra hkept
    have hdetail := (hstable 1).2.1
    rw [recoveredAfter_succ, recoveredAfter_zero] at hdetail
    exact detail_recoverMember_twice hkept hdetail
  · intro hkept reloads
    have hsame : recoveredAfter record reloads = recoveredAfter record 0 := by
      induction reloads with
      | zero => rfl
      | succ reloads ih => rw [recoveredAfter_succ, ih, recoveredAfter_zero, recoverMember_twice hkept]
    rw [hsame]
    refine ⟨rfl, rfl, fun hterminal => ?_⟩
    have hrunning : (SwarmMember.fromRecord record).status ≠ "running" := by
      intro hrunning
      change record.status.asStr = "running" at hrunning
      rw [hrunning] at hterminal
      revert hterminal
      decide
    rw [recoveredAfter_zero, recoverMember_of_kept hrunning hkept]
    rfl

/-- A headless session that was done has crashed after the reload, and its detail grows with every
further one. -/
theorem not_stableRecovery_done :
    ¬ StableRecovery { (readyAgent "a").durableRecord with status := .done } := by
  intro hstable
  have hstatus := (hstable 0).2.2 (by decide)
  revert hstatus
  decide

end Jcode
