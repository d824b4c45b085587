import Jcode.Swarm.Assignment

/-!
# The owners of a task

A task has an owner in its item and one in its progress. What each change of a plan does to the
two, and what a section of a task run leaves alone.
-/

namespace Jcode

/-! ### The two owners of a task -/

/-- `item.assigned_to`. -/
def ownerOf (plan : VersionedPlan) (id : String) : Option String :=
  (findItem plan.items id).bind (·.assignedTo)

/-- `task_progress.assigned_session_id`. -/
def recordedOwner (plan : VersionedPlan) (id : String) : Option String :=
  (plan.taskProgress.lookup id).bind (·.assignedSessionId)

/-- Where both owners of a task are set they are equal. -/
def OwnersAgree (plan : VersionedPlan) : Prop :=
  ∀ id owner recorded, ownerOf plan id = some owner → recordedOwner plan id = some recorded →
    owner = recorded

/-- The session has the task, if there is one. -/
def HeldBy (plan : VersionedPlan) (id session : String) : Prop :=
  ∀ item, findItem plan.items id = some item → item.assignedTo = some session

/-- The status or the progress of a task differs between the plans. -/
def TaskChanged (plan plan' : VersionedPlan) (id : String) : Prop :=
  (findItem plan'.items id).map (·.status) ≠ (findItem plan.items id).map (·.status) ∨
    plan'.taskProgress.lookup id ≠ plan.taskProgress.lookup id

section

variable {plan plan' : VersionedPlan} {item : PlanItem} {id id' req session summary : String}
  {nowMs : Nat}

lemma ownerOf_congr (h : (findItem plan'.items id).map (·.assignedTo) =
    (findItem plan.items id).map (·.assignedTo)) : ownerOf plan' id = ownerOf plan id := by
  have hjoin (plan : VersionedPlan) :
      ownerOf plan id = ((findItem plan.items id).map (·.assignedTo)).join := by
    unfold ownerOf
    cases findItem plan.items id <;> rfl
  rw [hjoin, hjoin, h]

lemma HeldBy.congr (hheld : HeldBy plan id session)
    (h : (findItem plan'.items id).map (·.assignedTo) =
      (findItem plan.items id).map (·.assignedTo)) : HeldBy plan' id session := by
  intro item hitem
  rw [hitem, Option.map_some] at h
  obtain ⟨item', hitem', hassigned⟩ := Option.map_eq_some_iff.mp h.symm
  exact hassigned ▸ hheld item' hitem'

lemma ownerOf_assign (h : findItem plan.items id = some item) :
    ownerOf (plan.assign id req session summary nowMs) id' =
      if id' = id then some session else ownerOf plan id' := by
  unfold ownerOf VersionedPlan.assign
  rw [findItem_updateItem (by simp)]
  split_ifs with hid
  · simp [hid, h]
  · rfl

lemma recordedOwner_assign :
    recordedOwner (plan.assign id req session summary nowMs) id' =
      if id' = id then some session else recordedOwner plan id' := by
  unfold recordedOwner VersionedPlan.assign
  split_ifs with hid
  · rw [hid, Finmap.lookup_insert]
    rfl
  · rw [Finmap.lookup_insert_of_ne _ hid]

/-- An assignment makes the two owners agree. -/
lemma OwnersAgree.assign (h : OwnersAgree plan) (hitem : findItem plan.items id = some item) :
    OwnersAgree (plan.assign id req session summary nowMs) := by
  intro id' owner recorded howner hrecorded
  rw [ownerOf_assign hitem] at howner
  rw [recordedOwner_assign] at hrecorded
  split_ifs at howner hrecorded with hid
  · exact Option.some.inj (howner.symm.trans hrecorded)
  · exact h id' owner recorded howner hrecorded

/-! ### What a section of a run can do -/

/-- What a section of a run of `session` on the task `id` can do to the plan. -/
structure RunEffect (plan plan' : VersionedPlan) (id session : String) : Prop where
  owner : ∀ id', (findItem plan'.items id').map (·.assignedTo) =
    (findItem plan.items id').map (·.assignedTo)
  recorded : recordedOwner plan' id = recordedOwner plan id ∨
    recordedOwner plan' id = some session
  elsewhere : ∀ id', id' ≠ id → findItem plan'.items id' = findItem plan.items id' ∧
    plan'.taskProgress.lookup id' = plan.taskProgress.lookup id'
  absent : findItem plan.items id = none → plan' = plan

lemma RunEffect.refl : RunEffect plan plan id session :=
  ⟨fun _ => rfl, .inl rfl, fun _ _ => ⟨rfl, rfl⟩, fun _ => rfl⟩

lemma recordedOwner_progressOf (plan : VersionedPlan) (id : String) :
    (plan.progressOf id).assignedSessionId = recordedOwner plan id := by
  unfold VersionedPlan.progressOf recordedOwner
  cases plan.taskProgress.lookup id <;> rfl

/-- A new status for the item and a new entry in the progress. -/
lemma RunEffect.of_insert {status : PlanItem → String} {progress : SwarmTaskProgress}
    (hitem : findItem plan.items id = some item)
    (hitems : plan'.items = updateItem id (fun item => { item with status := status item })
      plan.items)
    (hprogress : plan'.taskProgress = plan.taskProgress.insert id progress)
    (hsession : progress.assignedSessionId = recordedOwner plan id ∨
      progress.assignedSessionId = some session) : RunEffect plan plan' id session where
  owner id' := by
    rw [hitems, findItem_updateItem (by simp)]
    split_ifs <;> simp [Function.comp_def]
  recorded := by simpa [recordedOwner, hprogress] using hsession
  elsewhere id' hid := by
    rw [hitems, hprogress]
    exact ⟨findItem_updateItem_of_ne (by simp) hid, Finmap.lookup_insert_of_ne _ hid⟩
  absent h := (Option.some_ne_none item (hitem.symm.trans h)).elim

lemma RunEffect.updateTask {status : String} {f : SwarmTaskProgress → SwarmTaskProgress}
    (hf : ∀ progress, (f progress).assignedSessionId = progress.assignedSessionId ∨
      (f progress).assignedSessionId = some session) :
    RunEffect plan (plan.updateTask id status f) id session := by
  unfold VersionedPlan.updateTask
  cases hitem : findItem plan.items id with
  | none => exact .refl
  | some item =>
    exact .of_insert hitem rfl rfl (recordedOwner_progressOf plan id ▸ hf _)

lemma RunEffect.startTaskRun {text : String} :
    RunEffect plan (startTaskRun plan id session text nowMs) id session :=
  .updateTask fun _ => .inr rfl

lemma RunEffect.finishTaskRun {error : Option String} :
    RunEffect plan (finishTaskRun plan id error nowMs) id session :=
  .updateTask fun _ => .inl rfl

lemma RunEffect.touch {detail checkpointSummary : Option String} :
    RunEffect plan (touchSwarmTaskProgress plan id (some session) detail checkpointSummary nowMs)
      id session := by
  unfold touchSwarmTaskProgress
  cases hitem : findItem plan.items id with
  | none => exact .refl
  | some item =>
    dsimp only
    split_ifs
    · exact .of_insert hitem rfl rfl (.inr rfl)
    · refine .of_insert hitem (?_ : _ = updateItem id (fun item => { item with
        status := item.status }) plan.items) rfl (.inr rfl)
      have hid (items : List PlanItem) : updateItem id (fun item => item) items = items := by
        induction items with
        | nil => rfl
        | cons head items ih => simp [updateItem, ih]
      exact (hid plan.items).symm

/-- A task of the plan whose run starts is recorded as the session's. -/
lemma recordedOwner_startTaskRun {text : String} (h : findItem plan.items id = some item) :
    recordedOwner (startTaskRun plan id session text nowMs) id = some session := by
  simp only [startTaskRun, VersionedPlan.updateTask, h, recordedOwner, Finmap.lookup_insert]
  rfl

/-- So is a task whose run gives a sign of life. -/
lemma recordedOwner_touch {detail checkpointSummary : Option String}
    (h : findItem plan.items id = some item) :
    recordedOwner (touchSwarmTaskProgress plan id (some session) detail checkpointSummary nowMs)
      id = some session := by
  simp only [touchSwarmTaskProgress, h]
  split_ifs <;> simp [recordedOwner, touchProgress]

/-- Owners still agree when the run's session owns the task. -/
lemma OwnersAgree.run (h : OwnersAgree plan) (he : RunEffect plan plan' id session)
    (howner : HeldBy plan id session) : OwnersAgree plan' := by
  intro id' owner recorded ho hr
  rw [ownerOf_congr (he.owner id')] at ho
  by_cases hid : id' = id
  · subst hid
    obtain ⟨item, hitem, hassigned⟩ := Option.bind_eq_some_iff.mp ho
    rcases he.recorded with hsame | hsession
    · exact h id' owner recorded ho (hsame ▸ hr)
    · rw [howner item hitem] at hassigned
      exact Option.some.inj (hassigned.symm.trans (hsession.symm.trans hr))
  · refine h id' owner recorded ho ?_
    unfold recordedOwner at hr ⊢
    rwa [(he.elsewhere id' hid).2] at hr

/-- A run's section changes no task but its own. -/
lemma RunEffect.changed (he : RunEffect plan plan' id session) (h : TaskChanged plan plan' id') :
    id' = id ∧ ∃ item, findItem plan.items id = some item := by
  have hid : id' = id := by
    by_contra hne
    obtain ⟨hitem, hprogress⟩ := he.elsewhere id' hne
    simp [TaskChanged, hitem, hprogress] at h
  refine ⟨hid, ?_⟩
  cases hitem : findItem plan.items id with
  | none => simp [he.absent hitem, TaskChanged] at h
  | some item => exact ⟨item, rfl⟩

/-- An assignment to the session that has the task, or of another task. -/
lemma HeldBy.assign {target : String} (h : HeldBy plan id' session)
    (hid : id' = id → session = target) :
    HeldBy (plan.assign id req target summary nowMs) id' session := by
  intro item' hitem'
  unfold VersionedPlan.assign at hitem'
  rw [findItem_updateItem (by simp)] at hitem'
  split_ifs at hitem' with heq
  · obtain ⟨item, -, rfl⟩ := Option.map_eq_some_iff.mp hitem'
    exact congrArg some (hid heq).symm
  · exact h item' hitem'

/-! ### Renames and sweeps -/

lemma findItem_renamePlanParticipant {old new : String} :
    findItem (renamePlanParticipant plan old new).items id =
      (findItem plan.items id).map fun item =>
        if item.assignedTo = some old then { item with assignedTo := some new } else item := by
  unfold renamePlanParticipant
  induction plan.items with
  | nil => rfl
  | cons item items ih =>
    unfold findItem at ih ⊢
    by_cases hold : item.assignedTo = some old <;> by_cases hid : item.id = id <;>
      simp [hold, hid] at ih ⊢ <;> exact ih

lemma ownerOf_renamePlanParticipant {old new : String} :
    ownerOf (renamePlanParticipant plan old new) id =
      (ownerOf plan id).map fun owner => if owner = old then new else owner := by
  unfold ownerOf
  rw [findItem_renamePlanParticipant]
  cases findItem plan.items id with
  | none => rfl
  | some item =>
    cases howner : item.assignedTo with
    | none => simp [howner]
    | some owner => by_cases hold : owner = old <;> simp [howner, hold]

/-- A rename keeps owners in agreement when the renamed session's tasks have no recorded owner. -/
lemma OwnersAgree.rename (h : OwnersAgree plan) {old new : String}
    (hidle : old = new ∨ ∀ id, ownerOf plan id = some old → recordedOwner plan id = none) :
    OwnersAgree (renamePlanParticipant plan old new) := by
  intro id owner recorded howner hrecorded
  rw [ownerOf_renamePlanParticipant] at howner
  obtain ⟨owner', howner', rfl⟩ := Option.map_eq_some_iff.mp howner
  have hagree := h id owner' recorded howner' hrecorded
  split_ifs with hold
  · subst hold
    rcases hidle with rfl | hidle
    · exact hagree
    · exact (Option.some_ne_none recorded (hrecorded.symm.trans (hidle id howner'))).elim
  · exact hagree

lemma HeldBy.rename (h : HeldBy plan id session) {old new : String}
    (hidle : old = new ∨ ∀ item, findItem plan.items id = some item → item.assignedTo ≠ some old) :
    HeldBy (renamePlanParticipant plan old new) id session := by
  intro item' hitem'
  rw [findItem_renamePlanParticipant] at hitem'
  obtain ⟨item, hitem, rfl⟩ := Option.map_eq_some_iff.mp hitem'
  have hheld := h item hitem
  split_ifs with hold
  · rcases hidle with rfl | hidle
    · exact hold ▸ hheld
    · exact (hidle item hitem hold).elim
  · exact hheld

lemma refreshTask_owner (item : PlanItem) (progress : SwarmTaskProgress)
    (nowMs staleAfterMs : Nat) :
    (refreshTask item progress nowMs staleAfterMs).1.id = item.id ∧
      (refreshTask item progress nowMs staleAfterMs).1.assignedTo = item.assignedTo ∧
      (refreshTask item progress nowMs staleAfterMs).2.1.assignedSessionId =
        progress.assignedSessionId := by
  unfold refreshTask
  dsimp only
  split_ifs <;> exact ⟨rfl, rfl, rfl⟩

/-- The sweep leaves both owners of every task alone. -/
lemma refreshItems_owner (nowMs staleAfterMs : Nat)
    (progress : Finmap fun _ : String => SwarmTaskProgress) (version : Nat)
    (items : List PlanItem) (id : String) :
    ((findItem (refreshItems nowMs staleAfterMs progress version items).1 id).map (·.assignedTo) =
      (findItem items id).map (·.assignedTo)) ∧
    ((refreshItems nowMs staleAfterMs progress version items).2.1.lookup id).bind
      (·.assignedSessionId) = (progress.lookup id).bind (·.assignedSessionId) := by
  induction items generalizing progress version with
  | nil => exact ⟨rfl, rfl⟩
  | cons item items ih =>
    unfold refreshItems
    split_ifs with hactive
    · obtain ⟨hid, hassigned, hsession⟩ := refreshTask_owner item
        ((progress.lookup item.id).getD .default) nowMs staleAfterMs
      dsimp only
      refine ⟨?_, (ih _ _).2.trans ?_⟩
      · unfold findItem
        by_cases hfound : item.id = id
        · simp [hid, hfound, hassigned]
        · simpa [hid, hfound, findItem] using (ih _ _).1
      · by_cases hfound : id = item.id
        · subst hfound
          rw [Finmap.lookup_insert, Option.bind_some, hsession]
          cases progress.lookup item.id <;> rfl
        · rw [Finmap.lookup_insert_of_ne _ hfound]
    · dsimp only
      refine ⟨?_, (ih _ _).2⟩
      unfold findItem
      by_cases hfound : item.id = id
      · simp [hfound]
      · simpa [hfound, findItem] using (ih _ _).1

end

end Jcode
