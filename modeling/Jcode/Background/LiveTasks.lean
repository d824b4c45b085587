import Jcode.Background.Manager

/-!
# The tasks that count as live

The table of the manager is edited when `spawn` or `adopt` registers its task and when `cancel`
takes it out; a task that ends by itself stays in it. So what `is_live_task` and
`running_snapshot` say is right exactly if no task of the table has ended.
-/

namespace Jcode

open Schedule

variable {F : Type}

/-- Where a task is on its way through the table. -/
def BackgroundTask.place (task : BackgroundTask F) : Bool × Bool × Bool :=
  (task.registering, task.returned, task.cancelled)

@[simp] lemma BackgroundTask.place_write {task : BackgroundTask F} {file : TaskStatusFile F}
    {written : Bool} : (task.write file written).place = task.place := by
  cases written <;> rfl

/-- A task enters the table once, after it has begun, and is taken out of it after that. -/
structure Placed (task : BackgroundTask F) : Prop where
  unused : task.started = none → task.place = (false, false, false)
  entering : task.registering = true → task.place = (true, false, false)

namespace BackgroundManager

variable {s t : BackgroundManager F} {m : BackgroundMove F} {id : String} {n : Nat}
  {task : BackgroundTask F}

/-- A task whose spawn or adoption has returned, which has not ended and was not cancelled. -/
def Alive (s : BackgroundManager F) (id : String) : Prop :=
  (s.tasks id).returned = true ∧ (s.tasks id).cancelled = false ∧ (s.tasks id).worker ≠ .done

/-- `is_live_task`, when the table is not locked, and `running_snapshot` are right. -/
structure LiveExact (s : BackgroundManager F) : Prop where
  live : s.locked = false → ∀ id, (s.tasks id).returned = true →
    (s.isLiveTask id = true ↔ s.Alive id)
  count : ∃ ids : List String, ids.Nodup ∧ (∀ id, id ∈ ids ↔ s.Alive id) ∧
    s.runningSnapshot = ids.length

/-- No task of the table has ended; or all have, while a `cancel` holds its lock. -/
def TableCurrent (s : BackgroundManager F) : Prop :=
  ∀ id ∈ s.table, (s.tasks id).worker = .done ↔ s.locked = true

/-- The table has the tasks that were registered and not cancelled, each once. -/
structure Listed (s : BackgroundManager F) : Prop where
  nodup : s.table.Nodup
  mem : ∀ id, id ∈ s.table ↔ (s.tasks id).returned = true ∧ (s.tasks id).cancelled = false
  placed : ∀ id, Placed (s.tasks id)

/-! ### The steps -/

lemma Listed.congr (h : Listed s) (htasks : t.tasks = s.tasks) (htable : t.table = s.table) :
    Listed t where
  nodup := htable ▸ h.nodup
  mem := by
    rw [htasks, htable]
    exact h.mem
  placed := htasks ▸ h.placed

/-- A record changes, the place of the task does not. -/
lemma Listed.setTask (h : Listed s) (hstarted : task.started = (s.tasks id).started)
    (hplace : task.place = (s.tasks id).place) : Listed (s.setTask id task) := by
  have hsame (other : String) : ((s.setTask id task).tasks other).place = (s.tasks other).place ∧
      ((s.setTask id task).tasks other).started = (s.tasks other).started := by
    by_cases hother : other = id
    · subst hother
      simp only [BackgroundManager.setTask, Function.update_self]
      exact ⟨hplace, hstarted⟩
    · simp only [BackgroundManager.setTask, Function.update_of_ne hother, and_self]
  refine ⟨h.nodup, fun other => ?_, fun other => ⟨fun hnone => ?_, fun hentering => ?_⟩⟩
  · obtain ⟨-, hreturned, hcancelled⟩ := (by simpa [BackgroundTask.place] using (hsame other).1 :
      _ ∧ _ ∧ _)
    rw [hreturned, hcancelled]
    exact h.mem other
  · rw [(hsame other).1]
    exact (h.placed other).unused ((hsame other).2.symm.trans hnone)
  · rw [(hsame other).1]
    refine (h.placed other).entering ?_
    rw [← hentering]
    exact congrArg Prod.fst (hsame other).1.symm

lemma Listed.setCall (h : Listed s) {call : BackgroundCall F} : Listed (s.setCall n call) :=
  h.congr rfl rfl

lemma Listed.report (h : Listed s) {finished result : Bool} :
    Listed (s.report n id finished result) :=
  h.congr rfl rfl

lemma Listed.afterFinalize (h : Listed s) (cancelling : Option Bool) :
    Listed (s.afterFinalize n id cancelling) := by
  cases cancelling with
  | none => exact h.setCall
  | some finished => exact h.report

lemma Listed.finalize (h : Listed s) {status : TaskStatusFile F} {cancelling : Option Bool} :
    Listed (s.finalize n id status cancelling) := by
  rw [BackgroundManager.finalize]
  split_ifs
  · exact h.setCall
  · exact h.afterFinalize cancelling

/-- A record and the table change together. -/
lemma Listed.of_move (h : Listed s) {table : List String} (hnodup : table.Nodup)
    (hothers : ∀ other, other ≠ id → (other ∈ table ↔ other ∈ s.table))
    (hmem : id ∈ table ↔ task.returned = true ∧ task.cancelled = false) (hplaced : Placed task)
    (htasks : t.tasks = Function.update s.tasks id task) (htable : t.table = table) : Listed t where
  nodup := htable ▸ hnodup
  mem other := by
    rw [htasks, htable]
    by_cases hother : other = id
    · subst hother
      rw [Function.update_self]
      exact hmem
    · rw [Function.update_of_ne hother, hothers other hother]
      exact h.mem other
  placed other := by
    rw [htasks]
    by_cases hother : other = id
    · subst hother
      rw [Function.update_self]
      exact hplaced
    · rw [Function.update_of_ne hother]
      exact h.placed other

lemma Listed.begin (h : Listed s) {file : TaskStatusFile F} {worker : TaskWorker F}
    {written : Bool} (hnew : (s.tasks file.taskId).started = none) :
    Listed (s.begin file worker written) := by
  have hplace := (h.placed file.taskId).unused hnew
  simp only [BackgroundTask.place, Prod.mk.injEq] at hplace
  have hout : file.taskId ∉ s.table := by simp [h.mem, hplace]
  refine h.of_move h.nodup (fun _ _ => Iff.rfl) ?_ ?_ rfl rfl
  · cases written <;> simp [BackgroundTask.write, BackgroundTask.unused, hout]
  · refine ⟨fun hnone => ?_, fun hentering => ?_⟩
    · simp at hnone
    · rw [BackgroundTask.place_write]
      cases written <;>
        simpa [BackgroundTask.place, BackgroundTask.write, BackgroundTask.unused] using hentering

lemma Listed.register (h : Listed s) (hregistering : (s.tasks id).registering = true) :
    Listed { s.setTask id { s.tasks id with registering := false, returned := true } with
      table := id :: s.table } := by
  have hplace := (h.placed id).entering hregistering
  simp only [BackgroundTask.place, Prod.mk.injEq] at hplace
  have hout : id ∉ s.table := by simp [h.mem, hplace]
  refine h.of_move (List.nodup_cons.mpr ⟨hout, h.nodup⟩) (fun other hother => ?_) ?_
    ⟨fun hnone => ?_, fun hentering => ?_⟩ rfl rfl
  · simp [hother]
  · simp [hplace]
  · have hunused := (h.placed id).unused hnone
    simp [BackgroundTask.place, hregistering] at hunused
  · cases hentering

lemma Listed.lock (h : Listed s) {call : BackgroundCall F} (hmem : id ∈ s.table)
    {started : TaskStatusFile F} (hstarted : (s.tasks id).started = some started) :
    Listed { (s.setTask id { s.tasks id with
      worker := (s.tasks id).worker.abort, cancelled := true }).setCall n call with
        table := s.table.erase id
        locked := true } := by
  have hout : id ∉ s.table.erase id := h.nodup.not_mem_erase
  obtain ⟨hreturned, -⟩ := (h.mem id).mp hmem
  refine h.of_move (h.nodup.erase id) (fun other hother => ?_) ?_
    ⟨fun hnone => ?_, fun hentering => ?_⟩ rfl rfl
  · exact List.mem_erase_of_ne hother
  · simp [hout]
  · cases hstarted.symm.trans hnone
  · have hplace := (h.placed id).entering hentering
    simp [BackgroundTask.place, hreturned] at hplace

lemma Listed.step (h : Listed s) [BEq F] (ht : s.step m = some t) : Listed t := by
  cases effect_of_step ht with
  | begin file worker written hnew => exact h.begin hnew
  | register id hregistering => exact h.register hregistering
  | finish | readPrior | publish => exact h.setTask rfl rfl
  | writeFinal id written final | writeAborted id written final =>
    exact h.setTask BackgroundTask.started_write BackgroundTask.place_write
  | quiet | cancel | copy | probe | signal | kill | pass => exact h.setCall
  | finalize | finalizeCancel => exact h.finalize
  | unread => exact h.report
  | writeCopy | writeFinalized =>
    exact (h.setTask BackgroundTask.started_write BackgroundTask.place_write).setCall
  | writeCancelled =>
    exact (h.setTask BackgroundTask.started_write BackgroundTask.place_write).congr rfl rfl
  | send n id notify wake =>
    have hflags : Listed (s.setTask id { s.tasks id with flags := (notify, wake) }) :=
      h.setTask rfl rfl
    exact hflags.setCall
  | announce n id file cancelling =>
    have hevents : Listed (s.setTask id
        { s.tasks id with events := (s.tasks id).events ++ [file.completedEvent] }) :=
      h.setTask rfl rfl
    exact hevents.afterFinalize cancelling
  | lock n now id finished started _ hmem hstarted => exact h.lock hmem hstarted

lemma listed_empty : Listed (empty : BackgroundManager F) where
  nodup := List.nodup_nil
  mem _ := by simp [empty, BackgroundTask.unused]
  placed _ := ⟨fun _ => rfl, fun hentering => by cases hentering⟩

/-! ### What the table says -/

/-- The tasks of the table that have not ended are alive. -/
lemma Listed.alive_iff (h : Listed s) :
    s.Alive id ↔ id ∈ s.table ∧ (s.tasks id).worker ≠ .done := by
  rw [Alive, h.mem, and_assoc]

lemma Listed.liveExact (h : Listed s) (hcurrent : s.TableCurrent) : LiveExact s where
  live hlocked id hreturned := by
    rw [h.alive_iff]
    simp only [isLiveTask, hlocked, Bool.not_false, Bool.true_and, decide_eq_true_eq]
    refine ⟨fun hmem => ⟨hmem, fun hdone => ?_⟩, And.left⟩
    exact Bool.false_ne_true (hlocked.symm.trans ((hcurrent id hmem).mp hdone))
  count := by
    cases hlocked : s.locked with
    | false =>
      refine ⟨s.table, h.nodup, fun id => ?_, by simp [runningSnapshot, hlocked]⟩
      rw [h.alive_iff]
      refine ⟨fun hmem => ⟨hmem, fun hdone => ?_⟩, And.left⟩
      exact Bool.false_ne_true (hlocked.symm.trans ((hcurrent id hmem).mp hdone))
    | true =>
      refine ⟨[], List.nodup_nil, fun id => ?_, by simp [runningSnapshot, hlocked]⟩
      rw [h.alive_iff]
      refine ⟨by simp, fun hid => ?_⟩
      exact absurd ((hcurrent id hid.1).mpr hlocked) hid.2

lemma Listed.tableCurrent (h : Listed s) (hexact : LiveExact s) : s.TableCurrent := by
  obtain ⟨ids, hnodup, hids, hcount⟩ := hexact.count
  intro id hmem
  cases hlocked : s.locked with
  | false =>
    refine ⟨fun hdone => ?_, by simp⟩
    have hlive := (hexact.live hlocked id ((h.mem id).mp hmem).1).mp
      (by simp [isLiveTask, hlocked, hmem])
    exact absurd hdone hlive.2.2
  | true =>
    refine ⟨fun _ => rfl, fun _ => ?_⟩
    have hnone : ids = [] := by
      rw [runningSnapshot, if_pos hlocked] at hcount
      exact List.length_eq_zero_iff.mp hcount.symm
    by_contra hdone
    have halive := (hids id).mpr (h.alive_iff.mpr ⟨hmem, hdone⟩)
    rw [hnone] at halive
    cases halive

/-- The manager is right about its live tasks exactly if no task of the table has ended. -/
theorem Listed.liveExact_iff (h : Listed s) : LiveExact s ↔ s.TableCurrent :=
  ⟨h.tableCurrent, h.liveExact⟩

end BackgroundManager

end Jcode
