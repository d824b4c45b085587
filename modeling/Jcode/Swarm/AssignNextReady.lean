import Jcode.Swarm.AssignNext

/-!
# What assign-next assigns

An assignment of `handle_comm_assign_next` takes an unassigned, ready task unless another request
has assigned the same task after this one picked it. Readiness itself survives: an assignment of
a ready task completes nothing, reopens nothing and leaves the dependency graph alone.
-/

namespace Jcode

open Schedule

/-! ### Assigning a ready task -/

section

variable {plan : VersionedPlan} {first item : PlanItem} {id id' req target summary : String}
  {nowMs : Nat}

lemma findItem_assign_of_ne (h : id' ≠ id) :
    findItem (plan.assign id req target summary nowMs).items id' = findItem plan.items id' :=
  findItem_updateItem_of_ne (by simp) h

lemma findItem_assign_self (h : findItem plan.items id = some first) :
    findItem (plan.assign id req target summary nowMs).items id =
      some { first with assignedTo := some target, status := "queued" } := by
  simp [VersionedPlan.assign, findItem_updateItem_self, h]

lemma findItem_assign_eq_none :
    findItem (plan.assign id req target summary nowMs).items id' = none ↔
      findItem plan.items id' = none := by
  simp only [VersionedPlan.assign]
  rw [findItem_updateItem (by simp)]
  split_ifs <;> simp

lemma isRunnableStatus_not_completed {status : String} (h : isRunnableStatus status = true) :
    isCompletedStatus status = false := by
  simp only [isRunnableStatus, decide_eq_true_eq, List.mem_cons, List.not_mem_nil, or_false] at h
  rcases h with rfl | rfl | rfl | rfl <;> rfl

/-- Assigning a ready task changes nobody's readiness. -/
lemma isReady_assign (hfirst : findItem plan.items id = some first)
    (hready : isReady plan.items first) (item : PlanItem) :
    isReady (plan.assign id req target summary nowMs).items item = isReady plan.items item := by
  refine isReady_congr (planEdges_updateItem (by simp) (by simp)) (fun dep => ?_) item
  rw [completedItemIds_updateItem (by simp)]
  intro item hitem
  obtain rfl : first = item := Option.some.inj (hfirst.symm.trans hitem)
  simp only [isReady, Bool.and_eq_true] at hready
  rw [isRunnableStatus_not_completed hready.1]
  rfl

/-- A ready task is still ready when it has been queued for a session. -/
lemma isReady_queued (hready : isReady plan.items first) :
    isReady plan.items { first with assignedTo := some target, status := "queued" } := by
  simp only [isReady, Bool.and_eq_true] at hready ⊢
  exact ⟨rfl, hready.2⟩

/-- A ready task of the plan after the assignment comes from one before, with the same id. -/
lemma ready_of_assign (hfirst : findItem plan.items id = some first)
    (hready : isReady plan.items first)
    (hitem : item ∈ (plan.assign id req target summary nowMs).items)
    (h : isReady (plan.assign id req target summary nowMs).items item) :
    ∃ item' ∈ plan.items, isReady plan.items item' ∧ item'.id = item.id := by
  rcases mem_updateItem hitem with hmem | ⟨first', hfirst', rfl⟩
  · exact ⟨item, hmem, (isReady_assign hfirst hready item) ▸ h, rfl⟩
  · obtain rfl : first = first' := Option.some.inj (hfirst.symm.trans hfirst')
    exact ⟨first, (findItem_eq_some hfirst).1, hready, rfl⟩

lemma ready_assign (hfirst : findItem plan.items id = some first)
    (hready : isReady plan.items first) (hitem : item ∈ plan.items) (h : isReady plan.items item) :
    ∃ item' ∈ (plan.assign id req target summary nowMs).items,
      isReady (plan.assign id req target summary nowMs).items item' ∧ item'.id = item.id := by
  rcases mem_updateItem_of_mem id
    (fun item => { item with assignedTo := some target, status := "queued" }) hitem with
    hmem | ⟨-, hmem⟩
  · exact ⟨item, hmem, (isReady_assign hfirst hready item).trans h, rfl⟩
  · exact ⟨_, hmem, (isReady_assign hfirst hready _).trans (isReady_queued h), rfl⟩

end

/-! ### Plans whose ids lead to their tasks -/

/-- The id of a ready task leads to a ready task: the first item with the id is itself ready, or
taken, and the id with its surrounding whitespace cut off is the same, blank, or unused. -/
def Addressable (plan : VersionedPlan) : Prop :=
  ∀ item ∈ plan.items, isReady plan.items item →
    (∀ first, findItem plan.items item.id = some first → first.assignedTo = none →
      isReady plan.items first) ∧
    (trim item.id = item.id ∨ trim item.id = "" ∨ findItem plan.items (trim item.id) = none)

instance (plan : VersionedPlan) : Decidable (Addressable plan) := by
  unfold Addressable
  have (id : String) : Decidable (∀ first, findItem plan.items id = some first →
      first.assignedTo = none → isReady plan.items first) :=
    match h : findItem plan.items id with
    | none => isTrue (by simp)
    | some first => decidable_of_iff (first.assignedTo = none → isReady plan.items first)
        (by simp)
  infer_instance

/-- Distinct ids without surrounding whitespace. -/
lemma addressable_of_nodup {plan : VersionedPlan} (hnodup : (knownIds plan.items).Nodup)
    (htrim : ∀ item ∈ plan.items, trim item.id = item.id) : Addressable plan := by
  intro item hitem hready
  refine ⟨fun first hfirst _ => ?_, .inl (htrim item hitem)⟩
  obtain ⟨hmem, hid⟩ := findItem_eq_some hfirst
  obtain rfl : first = item := List.inj_on_of_nodup_map hnodup hmem hitem hid
  exact hready

lemma Addressable.assign {plan : VersionedPlan} {first : PlanItem} {id req target summary : String}
    {nowMs : Nat} (h : Addressable plan) (hfirst : findItem plan.items id = some first)
    (hready : isReady plan.items first) :
    Addressable (plan.assign id req target summary nowMs) := by
  intro item hitem hitemReady
  obtain ⟨item', hitem', hready', hid⟩ := ready_of_assign hfirst hready hitem hitemReady
  obtain ⟨hlead, htrim⟩ := h item' hitem' hready'
  rw [hid] at hlead htrim
  refine ⟨fun first' hfirst' hnone => ?_, ?_⟩
  · by_cases hne : item.id = id
    · rw [hne, findItem_assign_self hfirst] at hfirst'
      cases hfirst'
      cases hnone
    · rw [findItem_assign_of_ne hne] at hfirst'
      exact (isReady_assign hfirst hready first').trans (hlead first' hfirst' hnone)
  · exact htrim.imp_right (Or.imp_right findItem_assign_eq_none.mpr)

namespace AssignNextSystem

variable {s t : AssignNextSystem} {m : AssignNextMove}

/-- Every assignment took a task that was unassigned and ready when it was written, and none took
a task that an earlier one had given away. -/
def OnlyUnassignedReady (s : AssignNextSystem) : Prop :=
  (∀ w ∈ s.assignments, ∃ item, findItem w.before.items w.taskId = some item ∧
    item.assignedTo = none ∧ isReady w.before.items item) ∧
  (s.assignments.map (·.taskId)).Nodup

/-- Since request `i` picked its task, an assignment of the task it will ask for has been
written. -/
def overtaken (s : AssignNextSystem) (i : Nat) : Bool :=
  (s.requests[i]?.bind (·.phase.pending?)).any fun (taskId, seen) =>
    (trimmedArgument (some taskId)).any fun id => id ∈ (s.assignments.drop seen).map (·.taskId)

/-- No request writes an assignment of a task that has been assigned since it was picked. -/
def NotOvertaken (s : AssignNextSystem) (m : AssignNextMove) : Prop :=
  ∀ i nowMs, m = .write i nowMs → s.overtaken i = false

instance (s : AssignNextSystem) (m : AssignNextMove) : Decidable (NotOvertaken s m) :=
  match m with
  | .write i nowMs => decidable_of_iff (s.overtaken i = false) (by simp [NotOvertaken])
  | .arrive .. | .pick _ | .resolve .. | .spawn .. | .proceed _ | .refuse .. | .accept .. =>
    isTrue (by simp [NotOvertaken])

/-- What holds as long as every assignment took an unassigned, ready task. A pending task is
still ready, and unassigned unless it has been assigned since it was picked. -/
structure Settled (s : AssignNextSystem) : Prop where
  addressable : Addressable s.plan
  pending : ∀ r ∈ s.requests, ∀ taskId seen, r.phase.pending? = some (taskId, seen) →
    seen ≤ s.assignments.length ∧
      (∃ item ∈ s.plan.items, isReady s.plan.items item ∧ item.id = taskId) ∧
      (taskId ∉ (s.assignments.drop seen).map (·.taskId) →
        ∃ first, findItem s.plan.items taskId = some first ∧ first.assignedTo = none)
  taken : ∀ w ∈ s.assignments, ∃ first, findItem s.plan.items w.taskId = some first ∧
    first.assignedTo ≠ none ∧ isReady s.plan.items first

lemma Settled.start (swarmId : String) {plan : VersionedPlan} (h : Addressable plan) :
    Settled (start swarmId plan) :=
  ⟨h, by simp [AssignNextSystem.start], by simp [AssignNextSystem.start]⟩

lemma addressable_congr {plan plan' : VersionedPlan} (h : plan'.items = plan.items) :
    Addressable plan' ↔ Addressable plan := by
  unfold Addressable
  rw [h]

/-- A move that leaves items and assignments alone and adds no pending task. -/
lemma Settled.of_quiet (h : Settled s) (hitems : t.plan.items = s.plan.items)
    (hlog : t.assignments = s.assignments)
    (hpending : ∀ r ∈ t.requests, ∀ p, r.phase.pending? = some p →
      (∃ r' ∈ s.requests, r'.phase.pending? = some p) ∨
        nextUnassignedRunnableItemId s.plan = some p.1 ∧ p.2 = s.assignments.length) :
    Settled t where
  addressable := (addressable_congr hitems).mpr h.addressable
  pending r hr taskId seen hp := by
    rw [hitems, hlog]
    rcases hpending r hr _ hp with ⟨r', hr', hp'⟩ | ⟨hnext, hseen⟩
    · exact h.pending r' hr' taskId seen hp'
    · obtain ⟨hready, hfirst⟩ := nextUnassignedRunnableItemId_spec hnext
      exact ⟨hseen.le, hready, fun _ => hfirst⟩
  taken w hw := by
    rw [hitems]
    exact h.taken w (hlog ▸ hw)

/-- The assignment of an unassigned, ready task. -/
lemma Settled.of_assign (h : Settled s) {first : PlanItem} {id req target target' summary : String}
    {nowMs : Nat} (hfirst : findItem s.plan.items id = some first)
    (hready : isReady s.plan.items first)
    (hplan : t.plan = s.plan.assign id req target summary nowMs)
    (hlog : t.assignments = s.assignments ++ [⟨s.plan, id, target'⟩])
    (hpending : PendingFrom s t) : Settled t where
  addressable := hplan ▸ h.addressable.assign hfirst hready
  pending r hr taskId seen hp := by
    obtain ⟨r', hr', hp'⟩ := hpending r hr _ hp
    obtain ⟨hseen, ⟨item, hitem, hitemReady, hid⟩, hunassigned⟩ := h.pending r' hr' taskId seen hp'
    rw [hplan, hlog]
    refine ⟨?_, ?_, fun hnot => ?_⟩
    · simp only [List.length_append]
      omega
    · obtain ⟨item', hitem', hready', hid'⟩ := ready_assign hfirst hready hitem hitemReady
      exact ⟨item', hitem', hready', hid'.trans hid⟩
    · -- the new assignment is behind `seen`, so it is one of another task
      simp only [List.drop_append_of_le_length hseen, List.map_append, List.mem_append, not_or,
        List.map_cons, List.map_nil, List.mem_singleton] at hnot
      rw [findItem_assign_of_ne hnot.2]
      exact hunassigned hnot.1
  taken w hw := by
    rw [hplan]
    rcases List.mem_append.mp (hlog ▸ hw) with hw | hw
    · obtain ⟨first', hfirst', hne, hready'⟩ := h.taken w hw
      by_cases hid : w.taskId = id
      · rw [hid, findItem_assign_self hfirst]
        exact ⟨_, rfl, by simp, (isReady_assign hfirst hready _).trans (isReady_queued hready)⟩
      · rw [findItem_assign_of_ne hid]
        exact ⟨first', hfirst', hne, (isReady_assign hfirst hready _).trans hready'⟩
    · obtain rfl := List.mem_singleton.mp hw
      rw [findItem_assign_self hfirst]
      exact ⟨_, rfl, by simp, (isReady_assign hfirst hready _).trans (isReady_queued hready)⟩

lemma trimmedArgument_eq_some {id taskId : String} (h : trimmedArgument (some taskId) = some id) :
    id = trim taskId ∧ trim taskId ≠ "" := by
  simp only [trimmedArgument, Option.bind_some] at h
  split_ifs at h with hblank
  exact ⟨(Option.some.inj h).symm, hblank⟩

/-- The explicit path finds a pending task under its own id, or nothing. -/
lemma Settled.requested_eq (h : Settled s) {r : AssignNextRequest} {taskId id : String} {seen : Nat}
    {first : PlanItem} (hr : r ∈ s.requests) (hp : r.phase.pending? = some (taskId, seen))
    (hid : trimmedArgument (some taskId) = some id)
    (hfirst : findItem s.plan.items id = some first) :
    id = taskId ∧ (first.assignedTo = none → isReady s.plan.items first) := by
  obtain ⟨rfl, hblank⟩ := trimmedArgument_eq_some hid
  obtain ⟨-, ⟨item, hitem, hready, rfl⟩, -⟩ := h.pending r hr taskId seen hp
  obtain ⟨hlead, htrim⟩ := h.addressable item hitem hready
  have hsame : trim item.id = item.id := by
    rcases htrim with hsame | hempty | hnone
    · exact hsame
    · exact (hblank hempty).elim
    · exact (Option.some_ne_none first (hfirst.symm.trans hnone)).elim
  exact ⟨hsame, fun hnone => hlead first (hsame ▸ hfirst) hnone⟩

/-- The item an assignment is written to: ready if it is unassigned, and unassigned unless the
request has been overtaken. -/
lemma Settled.written (h : Settled s) {r : AssignNextRequest} {plan : VersionedPlan}
    {i seen nowMs : Nat} {taskId target id content : String} (hr : s.requests[i]? = some r)
    (hphase : r.phase = .admitted taskId seen target)
    (hassign : assignTask s.plan r.reqSessionId target (trimmedArgument (some taskId)) r.message
      nowMs = (plan, .ok (id, content))) :
    ∃ first summary, findItem s.plan.items id = some first ∧
      plan = s.plan.assign id r.reqSessionId target summary nowMs ∧
      (first.assignedTo = none → isReady s.plan.items first) ∧
      (s.overtaken i = false → first.assignedTo = none) := by
  have hmem := List.mem_of_getElem? hr
  have hp : r.phase.pending? = some (taskId, seen) := by rw [hphase]; rfl
  obtain ⟨⟨first, hfirst, hplan⟩, hask | ⟨hask, hnext⟩⟩ := assignTask_eq_ok hassign
  · obtain ⟨rfl, hlead⟩ := h.requested_eq hmem hp hask.1 hfirst
    refine ⟨first, _, hfirst, hplan, hlead, fun hnot => ?_⟩
    obtain ⟨-, -, hunassigned⟩ := h.pending r hmem id seen hp
    obtain ⟨first', hfirst', hnone⟩ := hunassigned (by simpa [overtaken, hr, hp, hask.1] using hnot)
    obtain rfl : first = first' := Option.some.inj (hfirst.symm.trans hfirst')
    exact hnone
  · -- a blank id: the task is picked under the lock of the write
    obtain ⟨⟨item, hitem, hready, rfl⟩, first', hfirst', hnone⟩ :=
      nextUnassignedRunnableItemId_spec hnext
    obtain rfl : first = first' := Option.some.inj (hfirst.symm.trans hfirst')
    exact ⟨first, _, hfirst, hplan, (h.addressable item hitem hready).1 first hfirst,
      fun _ => hnone⟩

lemma OnlyUnassignedReady.of_write (h : OnlyUnassignedReady s) (hs : Settled s) {id target : String}
    {first : PlanItem} (hlog : t.assignments = s.assignments ++ [⟨s.plan, id, target⟩])
    (hfirst : findItem s.plan.items id = some first) (hnone : first.assignedTo = none)
    (hready : isReady s.plan.items first) : OnlyUnassignedReady t := by
  refine ⟨fun w hw => ?_, ?_⟩
  · rcases List.mem_append.mp (hlog ▸ hw) with hw | hw
    · exact h.1 w hw
    · obtain rfl := List.mem_singleton.mp hw
      exact ⟨first, hfirst, hnone, hready⟩
  · rw [hlog, List.map_append, List.nodup_append]
    refine ⟨h.2, List.nodup_singleton _, fun taskId htask id' hid' heq => ?_⟩
    obtain rfl := List.mem_singleton.mp hid'
    obtain ⟨w, hw, rfl⟩ := List.mem_map.mp htask
    obtain ⟨first', hfirst', hassigned, -⟩ := hs.taken w hw
    rw [heq, hfirst] at hfirst'
    cases hfirst'
    exact hassigned hnone

lemma onlyUnassignedReady_congr (h : t.assignments = s.assignments) :
    OnlyUnassignedReady t ↔ OnlyUnassignedReady s := by
  unfold OnlyUnassignedReady
  rw [h]

/-- What the assignments were before a move. -/
lemma OnlyUnassignedReady.of_step (h : OnlyUnassignedReady t) (hs : s.step m = some t) :
    OnlyUnassignedReady s := by
  cases Rule.of_step hs with
  | quiet hitems hlog hpending hwrite => exact (onlyUnassignedReady_congr hlog).mp h
  | pick i taskId hnext hitems hlog hpending => exact (onlyUnassignedReady_congr hlog).mp h
  | write i nowMs seen r taskId target id content plan hr hphase hassign hplan hlog hpending =>
    unfold OnlyUnassignedReady at h
    rw [hlog, List.map_append, List.nodup_append] at h
    exact ⟨fun w hw => h.1 w (List.mem_append_left _ hw), h.2.1⟩

lemma Settled.step (h : Settled s) (hP : OnlyUnassignedReady t) (hs : s.step m = some t) :
    Settled t := by
  cases Rule.of_step hs with
  | quiet hitems hlog hpending hwrite =>
    exact h.of_quiet hitems hlog fun r hr p hp => .inl (hpending r hr p hp)
  | pick i taskId hnext hitems hlog hpending =>
    refine h.of_quiet hitems hlog fun r hr p hp => ?_
    rcases hpending r hr p hp with rfl | hold
    · exact .inr ⟨hnext, rfl⟩
    · exact .inl hold
  | write i nowMs seen r taskId target id content plan hr hphase hassign hplan hlog hpending =>
    obtain ⟨first, summary, hfirst, hset, -, -⟩ := h.written hr hphase hassign
    obtain ⟨item, hitem, -, hready⟩ := hP.1 ⟨s.plan, id, target⟩ (by simp [hlog])
    exact h.of_assign hitem hready (hplan.trans hset) hlog hpending

lemma OnlyUnassignedReady.step (h : OnlyUnassignedReady s) (hset : Settled s)
    (hG : NotOvertaken s m) (hs : s.step m = some t) : OnlyUnassignedReady t := by
  cases Rule.of_step hs with
  | quiet hitems hlog hpending hwrite => exact (onlyUnassignedReady_congr hlog).mpr h
  | pick i taskId hnext hitems hlog hpending => exact (onlyUnassignedReady_congr hlog).mpr h
  | write i nowMs seen r taskId target id content plan hr hphase hassign hplan hlog hpending =>
    obtain ⟨first, summary, hfirst, -, hready, hnone⟩ := hset.written hr hphase hassign
    have hunassigned := hnone (hG i nowMs rfl)
    exact h.of_write hset hlog hfirst hunassigned (hready hunassigned)

/-- The write of an overtaken request goes through, and takes an assigned task. -/
lemma not_onlyUnassignedReady_of_overtaken (hset : Settled s) (hG : ¬ NotOvertaken s m)
    (hs : s.step m = some t) : ¬ OnlyUnassignedReady t := by
  simp only [NotOvertaken, not_forall, Bool.not_eq_false] at hG
  obtain ⟨i, nowMs, rfl, hover⟩ := hG
  obtain ⟨⟨taskId, seen⟩, hpend, htask⟩ := (Option.any_eq_true _ _).mp hover
  obtain ⟨r, hr, hp⟩ := Option.bind_eq_some_iff.mp hpend
  obtain ⟨id, hid, hlater⟩ := (Option.any_eq_true _ _).mp htask
  obtain ⟨w, hw, rfl⟩ := List.mem_map.mp (of_decide_eq_true hlater)
  obtain ⟨first, hfirst, hassigned, hready⟩ := hset.taken w (List.mem_of_mem_drop hw)
  simp only [isReady, Bool.and_eq_true] at hready
  have hfree := (explicitTaskBlockedReason_eq_none hfirst).mpr hready.2
  cases Rule.of_step hs with
  | quiet hitems hlog hpending hwrite =>
    -- the write cannot have been refused: the task is there and its dependencies are met
    obtain ⟨r', taskId', seen', target, hr', hphase, hfail⟩ := hwrite i nowMs rfl
    obtain rfl : r = r' := Option.some.inj (hr.symm.trans hr')
    rw [hphase] at hp
    cases hp
    rw [hid, assignTask_of_requested hfirst hfree] at hfail
    cases hfail
  | write i nowMs seen' r' taskId' target id content plan hr' hphase hassign hplan hlog hpending =>
    obtain rfl : r = r' := Option.some.inj (hr.symm.trans hr')
    rw [hphase] at hp
    cases hp
    rw [hid, assignTask_of_requested hfirst hfree] at hassign
    obtain ⟨rfl, rfl, rfl⟩ : _ = plan ∧ w.taskId = id ∧ first.content = content := by
      simpa using hassign
    intro hP
    obtain ⟨item, hitem, hnone, -⟩ := hP.1 ⟨s.plan, w.taskId, target⟩ (by simp [hlog])
    rw [hfirst] at hitem
    cases hitem
    exact hassigned hnone

end AssignNextSystem

open AssignNextSystem

/-- In every interleaving of any number of assign-next requests, each assignment takes an
unassigned, ready task, and no task is given away twice, exactly when no request writes an
assignment of a task that has been assigned since the request picked it. -/
theorem handleCommAssignNext_onlyUnassignedReady_iff {swarmId : String} {plan : VersionedPlan}
    {moves : List AssignNextMove} {t : AssignNextSystem} (hplan : Addressable plan)
    (hrun : exec step (start swarmId plan) moves = some t) :
    Always step OnlyUnassignedReady (start swarmId plan) moves ↔
      Guarded step NotOvertaken (start swarmId plan) moves := by
  have hP₀ : OnlyUnassignedReady (start swarmId plan) := by
    simp [OnlyUnassignedReady, AssignNextSystem.start]
  refine always_iff_guarded (I := fun s => OnlyUnassignedReady s → Settled s)
    (E := fun _ _ => True) (fun s m s' h _ hs hP => (h (hP.of_step hs)).step hP hs)
    (fun s m s' h hP _ hG hs => hP.step (h hP) hG hs)
    (fun s m s' h hP _ hG hs => not_onlyUnassignedReady_of_overtaken (h hP) hG hs)
    (fun _ => .start swarmId hplan) hP₀ (guarded_of_forall_mem fun _ _ _ => trivial) hrun

/-- Two tasks and two requests, one after the other. -/
def successiveRun : List AssignNextMove :=
  [.arrive "coord" none none none, .arrive "coord" none none none, .pick 0,
    .resolve 0 [readyAgent "fox"], .proceed 0, .accept 0 [readyAgent "fox"], .write 0 1, .pick 1,
    .resolve 1 [readyAgent "owl"], .proceed 1, .accept 1 [readyAgent "owl"], .write 1 2]

def twoTasks : VersionedPlan := { VersionedPlan.new with items := [queuedTask "a", queuedTask "b"] }

theorem handleCommAssignNext_onlyUnassignedReady_iff_successiveRun :
    Always step OnlyUnassignedReady (start "swarm" twoTasks) successiveRun ↔
      Guarded step NotOvertaken (start "swarm" twoTasks) successiveRun := by
  obtain ⟨t, ht⟩ := Option.isSome_iff_exists.mp
    (show (exec step (start "swarm" twoTasks) successiveRun).isSome by decide +kernel)
  exact handleCommAssignNext_onlyUnassignedReady_iff (by decide +kernel) ht

/-- Two requests pick the one task before either of them writes. -/
def overtakenPickRun : List AssignNextMove :=
  [.arrive "coord" (some true) none none, .arrive "coord" (some true) none none, .pick 0, .pick 1,
    .resolve 0 [], .resolve 1 [], .spawn 0 (.ok "fox"), .spawn 1 (.ok "owl"),
    .accept 0 [readyAgent "fox", readyAgent "owl"], .accept 1 [readyAgent "fox", readyAgent "owl"],
    .write 0 1, .write 1 2]

def oneTask : VersionedPlan := { VersionedPlan.new with items := [queuedTask "a"] }

/-- The second request takes the task from the session the first one gave it to. -/
theorem handleCommAssignNext_reassigns :
    ¬ ∀ (swarmId : String) (plan : VersionedPlan) (moves : List AssignNextMove)
        (t : AssignNextSystem), exec step (start swarmId plan) moves = some t →
      OnlyUnassignedReady t := by
  intro h
  obtain ⟨t, ht, htwice⟩ := (Option.any_eq_true _ _).mp
    (show (exec step (start "swarm" oneTask) overtakenPickRun).any (fun t =>
      t.assignments.map (·.taskId) = ["a", "a"]) by decide +kernel)
  have hnodup := (h "swarm" oneTask overtakenPickRun t ht).2
  rw [of_decide_eq_true htwice] at hnodup
  exact absurd hnodup (by decide)

end Jcode
