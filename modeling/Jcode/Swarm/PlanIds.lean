import Jcode.Swarm.PlanProposals

/-!
# Plan item ids

Items are found by the first match on their id. The coordinator's proposals replace the plan and
approved proposals are appended to it, without a look at the ids that are there already.
-/

namespace Jcode

open Schedule

def DistinctIds (items : List PlanItem) : Prop := (knownIds items).Nodup

instance (items : List PlanItem) : Decidable (DistinctIds items) :=
  inferInstanceAs (Decidable (List.Nodup _))

lemma distinctIds_append {items new : List PlanItem} (h : DistinctIds items)
    (hnew : DistinctIds new) :
    DistinctIds (items ++ new) ↔ ∀ item ∈ new, item.id ∉ knownIds items := by
  unfold DistinctIds knownIds at *
  rw [List.map_append, List.nodup_append']
  constructor
  · rintro ⟨-, -, hdisjoint⟩ item hitem hknown
    exact hdisjoint hknown (List.mem_map_of_mem hitem)
  · intro hfree
    refine ⟨h, hnew, fun id hid hidnew => ?_⟩
    obtain ⟨item, hitem, rfl⟩ := List.mem_map.mp hidnew
    exact hfree item hitem hid

namespace ProposalSystem

variable {codec : TextCodec (List PlanItem)}
  {requestKey : String → String → List String → String} {s t : ProposalSystem}
  {m : ProposalMove}

/-- In every plan each id belongs to one item. -/
def UniqueIds (s : ProposalSystem) : Prop :=
  ∀ swarmId plan, s.plans swarmId = some plan → DistinctIds plan.items

/-- The ids of a proposal are pairwise distinct. -/
def ProposesDistinct (_ : ProposalSystem) : ProposalMove → Prop
  | .propose _ items => DistinctIds items
  | _ => True

/-- The items that a request is about to append, and the swarm. -/
def merges? (s : ProposalSystem) : ProposalMove → Option (String × List PlanItem)
  | .mergeItems i => (s.requests[i]?).bind fun r =>
    match r.phase with
    | .merging _ _ items => some (r.swarmId, items)
    | _ => none
  | _ => none

/-- The items that are appended have ids which the plan does not have yet. -/
def MergesNewIds (s : ProposalSystem) (m : ProposalMove) : Prop :=
  ∀ p ∈ s.merges? m, ∀ plan ∈ s.plans p.1, ∀ item ∈ p.2, item.id ∉ knownIds plan.items

/-- Proposals that are pending or about to be appended have distinct ids. -/
structure DistinctProposals (codec : TextCodec (List PlanItem)) (s : ProposalSystem) : Prop where
  stored : ∀ swarmId proposer proposal items, s.pending swarmId proposer = some proposal →
    codec.decode proposal.value = some items → DistinctIds items
  merging : ∀ r ∈ s.requests, ∀ state proposal items, r.phase = .merging state proposal items →
    DistinctIds items

lemma DistinctProposals.setPhase {u : ProposalSystem} {i : Nat} {r : ProposalRequest}
    {phase : ProposalPhase} (h : DistinctProposals codec s)
    (hpending : ∀ swarmId proposer proposal, u.pending swarmId proposer = some proposal →
      s.pending swarmId proposer = some proposal) (hrequests : u.requests = s.requests)
    (hphase : ∀ state proposal items, phase = .merging state proposal items → DistinctIds items) :
    DistinctProposals codec (u.setPhase i r phase) where
  stored swarmId proposer proposal items hfound :=
    h.stored swarmId proposer proposal items (hpending swarmId proposer proposal hfound)
  merging r' hr' := by
    rcases List.mem_or_eq_of_mem_set hr' with hmem | rfl
    · exact h.merging r' (hrequests ▸ hmem)
    · exact hphase

lemma DistinctProposals.step (hcodec : codec.LosslessOn fun _ => True)
    (h : DistinctProposals codec s) (hE : ProposesDistinct s m)
    (hs : s.step codec requestKey m = some t) : DistinctProposals codec t := by
  cases Rule.of_step hs with
  | tick ms ht | refuse reqSessionId items ht
  | update reqSessionId swarmId items hswarm hcoordinator ht =>
    subst ht
    exact ⟨h.stored, h.merging⟩
  | store reqSessionId swarmId items hswarm ht =>
    subst ht
    refine ⟨fun swarmId' proposer proposal items' hfound hdecode => ?_, h.merging⟩
    rw [pending_store] at hfound
    split_ifs at hfound
    · cases hfound
      rw [hcodec items trivial] at hdecode
      cases hdecode
      exact hE
    · exact h.stored swarmId' proposer proposal items' hfound hdecode
  | request requestId reqSessionId swarmId action proposer hswarm ht =>
    subst ht
    refine ⟨h.stored, fun r hr state proposal items hphase => ?_⟩
    rcases List.mem_append.mp hr with hr | hr
    · exact h.merging r hr state proposal items hphase
    · rw [List.mem_singleton.mp hr] at hphase
      cases hphase
  | readProposal i r state hr hp ht =>
    subst ht
    refine h.setPhase (fun _ _ _ hfound => hfound) rfl fun state' proposal items hphase => ?_
    unfold readPhase at hphase
    split at hphase
    · cases hphase
    rename_i proposal' hfound
    split at hphase
    · cases hphase
    split at hphase <;> cases hphase
    exact h.stored _ _ _ _ hfound ‹_›
  | removeProposal i r state proposal hr hp ht =>
    subst ht
    refine h.setPhase (fun swarmId proposer proposal' hfound => ?_) rfl fun _ _ _ hphase => by
      cases hphase
    have hkept : (s.setPending r.swarmId r.proposer none).pending swarmId proposer =
        some proposal' := hfound
    rw [pending_setPending] at hkept
    split_ifs at hkept
    exact hkept
  | replay i r state response hr hp hl hf ht | load i r hr hp ht | addWaiter i r hr hp ht
  | win i r hr hp hk ht | lose i r hr hp hk ht | ensurePending i r state dir hr hp hd ht
  | mergeItems i r state proposal items hr hp ht
  | persistFinal i r state proposal response hr hp ht
  | takeWaiters i r state proposal response hr hp hf ht
  | takeNone i r state proposal hr hp hf ht | clearActive i r state hr hp ht =>
    subst ht
    exact h.setPhase (fun _ _ _ hfound => hfound) rfl fun _ _ _ hphase => by cases hphase

lemma DistinctProposals.start (codec : TextCodec (List PlanItem)) (roles : SwarmRoles)
    (plans : String → Option VersionedPlan) (dir : MutationStateDir) (nowMs : Nat) :
    DistinctProposals codec (start roles plans dir nowMs) where
  stored _ _ _ _ hfound := nomatch hfound
  merging _ hr := nomatch hr

/-! ### Plans -/

/-- Only a proposal of the coordinator and an approval change a plan. -/
lemma UniqueIds.of_plans (h : UniqueIds s) (hplans : t.plans = s.plans) : UniqueIds t :=
  fun swarmId plan hplan => h swarmId plan (hplans ▸ hplan)

lemma UniqueIds.modifyPlan {swarmId : String} {f : VersionedPlan → VersionedPlan}
    (h : UniqueIds s) (hf : DistinctIds (f ((s.plans swarmId).getD .new)).items) :
    UniqueIds (s.modifyPlan swarmId f) := by
  intro swarmId' plan hplan
  by_cases hswarm : swarmId' = swarmId
  · subst hswarm
    simp only [ProposalSystem.modifyPlan, Function.update_self, Option.some.injEq] at hplan
    exact hplan ▸ hf
  · simp only [ProposalSystem.modifyPlan, Function.update_of_ne hswarm] at hplan
    exact h swarmId' plan hplan

/-- Appending keeps the ids of the swarm's plan apart exactly if they are new. -/
lemma UniqueIds.merge_iff {r : ProposalRequest} {items : List PlanItem} (h : UniqueIds s)
    (hitems : DistinctIds items) :
    UniqueIds (s.modifyPlan r.swarmId (·.merge r.reqSessionId r.proposer items)) ↔
      ∀ plan ∈ s.plans r.swarmId, ∀ item ∈ items, item.id ∉ knownIds plan.items := by
  have hnow : DistinctIds ((s.plans r.swarmId).getD .new).items := by
    cases hplan : s.plans r.swarmId with
    | none => decide
    | some plan => exact h r.swarmId plan hplan
  have hfree : (∀ plan ∈ s.plans r.swarmId, ∀ item ∈ items, item.id ∉ knownIds plan.items) ↔
      ∀ item ∈ items, item.id ∉ knownIds ((s.plans r.swarmId).getD .new).items := by
    cases s.plans r.swarmId <;> simp [VersionedPlan.new, knownIds]
  rw [hfree, ← distinctIds_append hnow hitems]
  constructor
  · intro hunique
    exact hunique r.swarmId (((s.plans r.swarmId).getD .new).merge r.reqSessionId r.proposer items)
      (Function.update_self _ _ _)
  · exact fun hdistinct => h.modifyPlan hdistinct

lemma UniqueIds.step_iff (h : UniqueIds s) (hI : DistinctProposals codec s)
    (hE : ProposesDistinct s m) (hs : s.step codec requestKey m = some t) :
    UniqueIds t ↔ MergesNewIds s m := by
  have hquiet (hplans : t.plans = s.plans) (hmerges : s.merges? m = none) :
      UniqueIds t ↔ MergesNewIds s m := by
    refine iff_of_true (h.of_plans hplans) fun p hp => ?_
    rw [hmerges] at hp
    cases hp
  cases Rule.of_step hs with
  | update reqSessionId swarmId items hswarm hcoordinator ht =>
    subst ht
    exact iff_of_true (h.modifyPlan hE) fun p hp => by cases hp
  | mergeItems i r state proposal items hr hp ht =>
    have hitems := hI.merging r (List.mem_of_getElem? hr) _ _ _ hp
    have hmerges : s.merges? (.mergeItems i) = some (r.swarmId, items) := by
      simp [merges?, hr, hp]
    have hplans : UniqueIds t ↔
        UniqueIds (s.modifyPlan r.swarmId (·.merge r.reqSessionId r.proposer items)) := by
      subst ht
      exact Iff.rfl
    rw [hplans, h.merge_iff hitems, MergesNewIds, hmerges]
    simp
  | tick ms ht | refuse reqSessionId items ht | store reqSessionId swarmId items hswarm ht
  | request requestId reqSessionId swarmId action proposer hswarm ht
  | replay i r state response hr hp hl hf ht | load i r hr hp ht | addWaiter i r hr hp ht
  | win i r hr hp hk ht | lose i r hr hp hk ht | ensurePending i r state dir hr hp hd ht
  | readProposal i r state hr hp ht | removeProposal i r state proposal hr hp ht
  | persistFinal i r state proposal response hr hp ht
  | takeWaiters i r state proposal response hr hp hf ht
  | takeNone i r state proposal hr hp hf ht | clearActive i r state hr hp ht =>
    subst ht
    exact hquiet rfl rfl

end ProposalSystem

open ProposalSystem

/-- Along any run of proposals, approvals and rejections with distinct ids, the ids of every plan
stay distinct: exactly if every approval appends ids that the plan does not have. -/
theorem planItemIds_unique_iff {codec : TextCodec (List PlanItem)}
    {requestKey : String → String → List String → String} {roles : SwarmRoles}
    {plans : String → Option VersionedPlan} {dir : MutationStateDir} {nowMs : Nat}
    {moves : List ProposalMove} {t : ProposalSystem} (hcodec : codec.LosslessOn fun _ => True)
    (hplans : UniqueIds (start roles plans dir nowMs))
    (hproposals : Guarded (step codec requestKey) ProposesDistinct (start roles plans dir nowMs)
      moves)
    (hrun : exec (step codec requestKey) (start roles plans dir nowMs) moves = some t) :
    Always (step codec requestKey) UniqueIds (start roles plans dir nowMs) moves ↔
      Guarded (step codec requestKey) MergesNewIds (start roles plans dir nowMs) moves := by
  refine always_iff_guarded (fun _ _ _ hI hE hs => hI.step hcodec hE hs)
    (fun _ _ _ hI hP hE hG hs => (hP.step_iff hI hE hs).mpr hG)
    (fun _ _ _ hI hP hE hG hs hP' => hG ((hP.step_iff hI hE hs).mp hP'))
    (DistinctProposals.start codec roles plans dir nowMs) hplans hproposals hrun

lemma approvedRun_proposesDistinct (s : ProposalSystem) (m : ProposalMove)
    (hm : m ∈ ProposalMove.propose "coord" [queuedTask "t1"] :: approvedRun) :
    ProposesDistinct s m := by
  simp only [approvedRun, List.mem_cons, List.not_mem_nil, or_false] at hm
  rcases hm with rfl | rfl | rfl | rfl | rfl | rfl | rfl | rfl | rfl | rfl | rfl | rfl | rfl
  all_goals first | trivial | (show DistinctIds _; decide)

lemma uniqueIds_start (dir : MutationStateDir) (nowMs : Nat) :
    UniqueIds (start pairRoles noPlans dir nowMs) :=
  fun _ _ h => nomatch h

theorem planItemIds_unique_iff_approvedRun :
    Always (step taskCodec joinedKey) UniqueIds (start pairRoles noPlans .empty 0) approvedRun ↔
      Guarded (step taskCodec joinedKey) MergesNewIds (start pairRoles noPlans .empty 0)
        approvedRun :=
  planItemIds_unique_iff (t := _) (taskCodec_losslessOn _) (uniqueIds_start _ _)
    (guarded_of_forall_mem fun m hm s =>
      approvedRun_proposesDistinct s m (List.mem_cons_of_mem _ hm)) rfl

/-- The coordinator has put the same task into the plan before. -/
theorem planItemIds_not_unique :
    Guarded (step taskCodec joinedKey) ProposesDistinct (start pairRoles noPlans .empty 0)
        (.propose "coord" [queuedTask "t1"] :: approvedRun) ∧
      ∃ t plan, exec (step taskCodec joinedKey) (start pairRoles noPlans .empty 0)
          (.propose "coord" [queuedTask "t1"] :: approvedRun) = some t ∧
        t.plans "s" = some plan ∧ knownIds plan.items = ["t1", "t1"] :=
  ⟨guarded_of_forall_mem fun m hm s => approvedRun_proposesDistinct s m hm, _, _, rfl, rfl, rfl⟩

end Jcode
