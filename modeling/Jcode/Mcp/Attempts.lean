import Jcode.Mcp.Pool

/-!
# Attempts to connect

Whoever has put its `Notify` into the map of the pool leads the attempt, alone, until it takes it
out; then it notifies. Until its handle is in the pool there is no other one.
-/

namespace Jcode

open Schedule

namespace PoolTask

/-- The attempt of a task that has its `Notify` in the map. -/
def leading : PoolTask → Option Nat
  | .connecting _ attempt | .connected _ attempt _ | .inserting _ attempt _ | .clearing _ attempt
  | .failed _ attempt _ | .finishing _ attempt _ => some attempt
  | _ => none

/-- The attempt of a task that has still to notify. -/
def notifier : PoolTask → Option Nat
  | .notifying _ attempt _ => some attempt
  | task => task.leading

/-- The attempt of a task that waits to be notified, or is about to. -/
def waits : PoolTask → Option Nat
  | .waiting _ attempt | .listening _ attempt => some attempt
  | _ => none

def wokenFor : PoolTask → Option Nat
  | .woken _ attempt => some attempt
  | _ => none

/-- The attempt that a task has to do with. -/
def attempt (task : PoolTask) : Option Nat := task.notifier.or (task.waits.or task.wokenFor)

/-- The connection whose handle is not in the pool yet, with its attempt. -/
def fresh : PoolTask → Option (Nat × Nat)
  | .connected _ attempt connection => some (attempt, connection)
  | _ => none

/-- The leader before its handle is in the pool. -/
def Early : PoolTask → Prop
  | .connecting _ _ | .connected _ _ _ => True
  | _ => False

variable {task : PoolTask} {k : Nat}

lemma Plain.notifier (h : task.Plain) : task.notifier = none := by
  cases task <;> first | rfl | exact h.elim

lemma Plain.attempt (h : task.Plain) : task.attempt = none := by
  cases task <;> first | rfl | exact h.elim

lemma Plain.fresh (h : task.Plain) : task.fresh = none := by
  cases task <;> first | rfl | exact h.elim

lemma Plain.not_early (h : task.Plain) : ¬ task.Early := by
  cases task <;> first | exact id | exact h.elim

lemma leading_of_notifier (h : task.notifier = none) : task.leading = none := by
  cases task <;> first | rfl | exact h

lemma notifier_of_leading (h : task.leading = some k) : task.notifier = some k := by
  cases task <;> first | exact h | cases h

lemma wokenFor_of_attempt (h : task.attempt = none) : task.wokenFor = none :=
  (Option.or_eq_none_iff.mp (Option.or_eq_none_iff.mp h).2).2

lemma attempt_of_wokenFor (h : task.wokenFor = some k) : task.attempt = some k := by
  cases task with
  | woken => exact h
  | _ => cases h

lemma waits_of_attempt (h : task.attempt = none) : task.waits = none :=
  (Option.or_eq_none_iff.mp (Option.or_eq_none_iff.mp h).2).1

/-- Waking leaves all but those who wait. -/
lemma wake_cases (k : Nat) (task : PoolTask) :
    (∃ whom, task = .listening whom k ∧ task.wake k = .woken whom k) ∨
      task.wake k = task ∧ ∀ whom, task ≠ .listening whom k := by
  cases task with
  | listening whom attempt =>
    by_cases hk : attempt = k
    · subst hk
      exact .inl ⟨whom, rfl, if_pos rfl⟩
    · refine .inr ⟨if_neg hk, fun whom' h => hk ?_⟩
      cases h
      rfl
  | _ => exact .inr ⟨rfl, fun _ => by simp⟩

/-- What those who listen have in common with those who are woken is left by waking. -/
lemma keeps_wake {β : Sort*} (f : PoolTask → β)
    (h : ∀ whom k, f (.woken whom k) = f (.listening whom k)) : f (task.wake k) = f task := by
  rcases wake_cases k task with ⟨whom, rfl, hwake⟩ | ⟨hwake, -⟩
  · rw [hwake, h]
  · rw [hwake]

@[simp] lemma leading_wake : (task.wake k).leading = task.leading :=
  keeps_wake PoolTask.leading fun _ _ => rfl

@[simp] lemma notifier_wake : (task.wake k).notifier = task.notifier :=
  keeps_wake PoolTask.notifier fun _ _ => rfl

@[simp] lemma attempt_wake : (task.wake k).attempt = task.attempt :=
  keeps_wake PoolTask.attempt fun _ _ => rfl

@[simp] lemma fresh_wake : (task.wake k).fresh = task.fresh :=
  keeps_wake PoolTask.fresh fun _ _ => rfl

lemma early_wake : (task.wake k).Early ↔ task.Early :=
  iff_of_eq (keeps_wake PoolTask.Early fun _ _ => rfl)

/-- Whoever is woken has been before, or has listened. -/
lemma wokenFor_wake {l : Nat} (h : (task.wake k).wokenFor = some l) :
    task.wokenFor = some l ∨ l = k := by
  rcases wake_cases k task with ⟨whom, -, hwake⟩ | ⟨hwake, -⟩
  · rw [hwake] at h
    exact .inr (Option.some.inj h).symm
  · rw [hwake] at h
    exact .inl h

/-- Whoever has a connection that is not in the pool leads its attempt, early. -/
lemma of_fresh {c : Nat} (h : task.fresh = some (k, c)) : task.leading = some k ∧ task.Early := by
  cases task with
  | connected =>
    cases h
    exact ⟨rfl, trivial⟩
  | _ => cases h

lemma leading_of_early (h : task.Early) : ∃ k, task.leading = some k := by
  cases task with
  | connecting whom attempt | connected whom attempt connection => exact ⟨attempt, rfl⟩
  | _ => exact h.elim

end PoolTask

namespace McpPool

/-- One task leads an attempt, and is the only one to notify of it. -/
structure Led (s : McpPool) : Prop where
  leads : ∀ i k, (s.tasks i).leading = some k → s.connecting = some k
  led : ∀ k, s.connecting = some k → ∃ i, (s.tasks i).leading = some k
  sole : ∀ i j k, (s.tasks i).notifier = some k → (s.tasks j).notifier = some k → i = j
  lt : ∀ i k, (s.tasks i).attempt = some k → k < s.nextAttempt
  woken : ∀ i j k, (s.tasks i).wokenFor = some k → (s.tasks j).notifier ≠ some k

/-- The connections of the attempts that have succeeded are in the pool, or on their way into it,
or were disconnected. -/
structure Traced (s : McpPool) : Prop where
  early : ∀ i, (s.tasks i).Early → s.handles = none
  fresh : ∀ i k c, (s.tasks i).fresh = some (k, c) →
    s.outcomes k = some (some c) ∧ s.disconnected c = false ∧ c < s.nextConnection
  handle : ∀ c, s.handles = some c → s.disconnected c = false ∧ c < s.nextConnection
  disconnected : ∀ c, s.disconnected c = true → c < s.nextConnection
  outcome : ∀ k c, s.outcomes k = some (some c) →
    (∃ i, (s.tasks i).fresh = some (k, c)) ∨ s.handles = some c ∨ s.disconnected c = true

variable {s t : McpPool} {m : PoolMove} {i j k : Nat} {task : PoolTask}

lemma tasks_setTask : (s.setTask i task).tasks j = if j = i then task else s.tasks j := by
  simp [setTask, Function.update_apply]

/-- What a task has in common with the one it goes on as is kept by all tasks. -/
lemma keeps_setTask {β : Sort*} (f : PoolTask → β) (h : f task = f (s.tasks i)) (j : Nat) :
    f ((s.setTask i task).tasks j) = f (s.tasks j) := by
  rw [tasks_setTask]
  split_ifs with hj
  · rw [hj, h]
  · rfl

/-! ### Leaders -/

lemma Led.congr (h : Led s) (htasks : t.tasks = s.tasks) (hconnecting : t.connecting = s.connecting)
    (hattempt : t.nextAttempt = s.nextAttempt) : Led t := by
  obtain ⟨hleads, hled, hsole, hlt, hwoken⟩ := h
  rw [← htasks, ← hconnecting, ← hattempt] at *
  exact ⟨hleads, hled, hsole, hlt, hwoken⟩

/-- A task goes on with the same attempt. -/
lemma Led.setTask (h : Led s) (hleading : task.leading = (s.tasks i).leading)
    (hnotifier : task.notifier = (s.tasks i).notifier)
    (hattempt : ∀ k, task.attempt = some k → k < s.nextAttempt)
    (hwoken : ∀ k, task.wokenFor = some k → (s.tasks i).wokenFor = some k) :
    Led (s.setTask i task) := by
  have hleadings := keeps_setTask PoolTask.leading hleading
  have hnotifiers := keeps_setTask PoolTask.notifier hnotifier
  refine ⟨fun j k hj => ?_, fun k hk => ?_, fun j l k hj hl => ?_, fun j k hj => ?_,
    fun j l k hj => ?_⟩
  · rw [hleadings] at hj
    exact h.leads j k hj
  · obtain ⟨j, hj⟩ := h.led k hk
    exact ⟨j, (hleadings j).trans hj⟩
  · rw [hnotifiers] at hj hl
    exact h.sole j l k hj hl
  · rw [tasks_setTask] at hj
    split_ifs at hj
    · exact hattempt k hj
    · exact h.lt j k hj
  · rw [hnotifiers]
    rw [tasks_setTask] at hj
    split_ifs at hj
    · exact h.woken i l k (hwoken k hj)
    · exact h.woken j l k hj

/-- The leader goes on with its attempt. -/
lemma Led.setLeader (h : Led s) (hwas : (s.tasks i).leading = some k)
    (hleading : task.leading = some k) (hattempt : task.attempt = some k)
    (hwoken : task.wokenFor = none) : Led (s.setTask i task) := by
  refine h.setTask (hleading.trans hwas.symm) ?_ (fun l hl => ?_) fun l hl => ?_
  · rw [PoolTask.notifier_of_leading hleading, PoolTask.notifier_of_leading hwas]
  · cases hattempt.symm.trans hl
    refine h.lt i k ?_
    rw [PoolTask.attempt, PoolTask.notifier_of_leading hwas]
    rfl
  · cases hwoken.symm.trans hl

/-- A task that does not notify goes on alone. -/
lemma Led.setPlain (h : Led s) (hnotifier : (s.tasks i).notifier = none) (hplain : task.Plain) :
    Led (s.setTask i task) := by
  refine h.setTask ?_ ?_ (fun k hk => ?_) fun k hk => ?_
  · rw [PoolTask.leading_of_notifier hplain.notifier, PoolTask.leading_of_notifier hnotifier]
  · rw [hplain.notifier, hnotifier]
  · cases hplain.attempt.symm.trans hk
  · cases (PoolTask.wokenFor_of_attempt hplain.attempt).symm.trans hk

/-- The leader of an attempt is the only one. -/
lemma Led.leader (h : Led s) {l : Nat} (hi : (s.tasks i).leading = some k)
    (hj : (s.tasks j).leading = some l) : i = j := by
  have hk : k = l := Option.some.inj ((h.leads i k hi).symm.trans (h.leads j l hj))
  subst hk
  exact h.sole i j k (PoolTask.notifier_of_leading hi) (PoolTask.notifier_of_leading hj)

lemma Led.lead (h : Led s) {whom : ConnectFor} (hconnecting : s.connecting = none) :
    Led { s.setTask i (.connecting whom s.nextAttempt) with
      connecting := some s.nextAttempt, nextAttempt := s.nextAttempt + 1 } := by
  have hold (j k : Nat) (hj : (s.tasks j).notifier = some k) : k < s.nextAttempt :=
    h.lt j k (by rw [PoolTask.attempt, hj]; rfl)
  have hnobody (j k : Nat) : (s.tasks j).leading ≠ some k := by
    intro hj
    cases hconnecting.symm.trans (h.leads j k hj)
  refine ⟨fun j k hj => ?_, fun k hk => ⟨i, ?_⟩, fun j l k hj hl => ?_, fun j k hj => ?_,
    fun j l k hj => ?_⟩
  · change ((s.setTask i _).tasks j).leading = some k at hj
    rw [tasks_setTask] at hj
    split_ifs at hj
    · exact hj
    · exact (hnobody j k hj).elim
  · change ((s.setTask i _).tasks i).leading = some k
    rw [tasks_setTask, if_pos rfl]
    exact hk
  · change ((s.setTask i _).tasks j).notifier = some k at hj
    change ((s.setTask i _).tasks l).notifier = some k at hl
    rw [tasks_setTask] at hj hl
    split_ifs at hj hl with hji hli hli
    · rw [hji, hli]
    · cases hj
      exact (Nat.lt_irrefl _ (hold l _ hl)).elim
    · cases hl
      exact (Nat.lt_irrefl _ (hold j _ hj)).elim
    · exact h.sole j l k hj hl
  · change ((s.setTask i _).tasks j).attempt = some k at hj
    rw [tasks_setTask] at hj
    split_ifs at hj
    · cases hj
      exact Nat.lt_succ_self _
    · exact Nat.lt_succ_of_lt (h.lt j k hj)
  · change ((s.setTask i _).tasks j).wokenFor = some k at hj
    change ((s.setTask i _).tasks l).notifier ≠ some k
    rw [tasks_setTask] at hj
    split_ifs at hj
    · cases hj
    · rw [tasks_setTask]
      split_ifs
      · rintro ⟨⟩
        exact Nat.lt_irrefl _ (h.lt j _ (PoolTask.attempt_of_wokenFor hj))
      · exact h.woken j l k hj

lemma Led.removeConnecting (h : Led s) {whom : ConnectFor} {answer : Except String Bool}
    (htask : s.tasks i = .finishing whom k answer) :
    Led { s.setTask i (.notifying whom k answer) with
      connecting := if s.connecting = some k then none else s.connecting } := by
  have hleading : (s.tasks i).leading = some k := by
    rw [htask]
    rfl
  have hnotifiers (j : Nat) :
      ((s.setTask i (.notifying whom k answer)).tasks j).notifier = (s.tasks j).notifier := by
    apply keeps_setTask PoolTask.notifier
    rw [htask]
    rfl
  refine ⟨fun j l hj => ?_, fun l hl => ?_, fun j l n hj hl => ?_, fun j l hj => ?_,
    fun j n l hj => ?_⟩
  · exfalso
    change ((s.setTask i _).tasks j).leading = some l at hj
    rw [tasks_setTask] at hj
    split_ifs at hj with hji
    · cases hj
    · exact hji (h.leader hj hleading)
  · simp [h.leads i k hleading] at hl
  · exact h.sole j l n ((hnotifiers j).symm.trans hj) ((hnotifiers l).symm.trans hl)
  · change ((s.setTask i _).tasks j).attempt = some l at hj
    rw [tasks_setTask] at hj
    split_ifs at hj
    · cases hj
      exact h.lt i k (by rw [htask]; rfl)
    · exact h.lt j l hj
  · change ((s.setTask i _).tasks j).wokenFor = some l at hj
    rw [tasks_setTask] at hj
    split_ifs at hj
    · cases hj
    · intro hn
      exact h.woken j n l hj ((hnotifiers n).symm.trans hn)

lemma Led.notify (h : Led s) (hwas : (s.tasks i).notifier = some k)
    (hnotLeading : (s.tasks i).leading = none) (hplain : task.Plain) :
    Led ((s.wakeAll k).setTask i task) := by
  have htasks (j : Nat) : ((s.wakeAll k).setTask i task).tasks j =
      if j = i then task else (s.tasks j).wake k := tasks_setTask
  refine ⟨fun j l hj => ?_, fun l hl => ?_, fun j n l hj hn => ?_, fun j l hj => ?_,
    fun j n l hj hn => ?_⟩
  · rw [htasks] at hj
    split_ifs at hj
    · cases (PoolTask.leading_of_notifier hplain.notifier).symm.trans hj
    · exact h.leads j l (by simpa using hj)
  · obtain ⟨j, hj⟩ := h.led l hl
    refine ⟨j, ?_⟩
    rw [htasks, if_neg]
    · simpa using hj
    · rintro rfl
      cases hnotLeading.symm.trans hj
  · rw [htasks] at hj hn
    split_ifs at hj hn
    · cases hplain.notifier.symm.trans hj
    · cases hplain.notifier.symm.trans hj
    · cases hplain.notifier.symm.trans hn
    · exact h.sole j n l (by simpa using hj) (by simpa using hn)
  · rw [htasks] at hj
    split_ifs at hj
    · cases hplain.attempt.symm.trans hj
    · exact h.lt j l (by simpa using hj)
  · rw [htasks] at hj hn
    split_ifs at hn with hni
    · cases hplain.notifier.symm.trans hn
    · rw [PoolTask.notifier_wake] at hn
      split_ifs at hj
      · cases (PoolTask.wokenFor_of_attempt hplain.attempt).symm.trans hj
      · rcases PoolTask.wokenFor_wake hj with hj | rfl
        · exact h.woken j n l hj hn
        · exact hni (h.sole n i l hn hwas)

lemma Led.step (h : Led s) (ht : s.step m = some t) : Led t := by
  cases effect_of_step ht with
  | plain i task hwas hplain => exact h.setPlain hwas.notifier hplain
  | wait i whom attempt htask hconnecting =>
    refine h.setTask (by rw [htask]; rfl) (by rw [htask]; rfl) (fun k hk => ?_) (by rintro _ ⟨⟩)
    cases hk
    obtain ⟨j, hj⟩ := h.led attempt hconnecting
    refine h.lt j attempt ?_
    rw [PoolTask.attempt, PoolTask.notifier_of_leading hj]
    rfl
  | listen i whom attempt htask =>
    refine h.setTask (by rw [htask]; rfl) (by rw [htask]; rfl) (fun k hk => ?_) (by rintro _ ⟨⟩)
    exact h.lt i k (by rw [htask]; exact hk)
  | answer i whom attempt task htask hplain => exact h.setPlain (by rw [htask]; rfl) hplain
  | lead i whom htask hconnecting hhandles => exact h.lead hconnecting
  | connected i whom attempt htask =>
    have hset : Led (s.setTask i (.connected whom attempt s.nextConnection)) :=
      h.setLeader (by rw [htask]; rfl) rfl rfl rfl
    exact hset.congr rfl rfl rfl
  | connectFailed i error whom attempt htask =>
    have hset : Led (s.setTask i (.failed whom attempt error)) :=
      h.setLeader (by rw [htask]; rfl) rfl rfl rfl
    exact hset.congr rfl rfl rfl
  | insertHandle i whom attempt connection htask =>
    have hset : Led (s.setTask i (.inserting whom attempt connection)) :=
      h.setLeader (by rw [htask]; rfl) rfl rfl rfl
    exact hset.congr rfl rfl rfl
  | insertClient i whom attempt connection htask =>
    have hset : Led (s.setTask i (.clearing whom attempt)) :=
      h.setLeader (by rw [htask]; rfl) rfl rfl rfl
    exact hset.congr rfl rfl rfl
  | clearError i whom attempt htask =>
    have hset : Led (s.setTask i (.finishing whom attempt (.ok true))) :=
      h.setLeader (by rw [htask]; rfl) rfl rfl rfl
    exact hset.congr rfl rfl rfl
  | insertError i whom attempt error htask =>
    have hset : Led (s.setTask i (.finishing whom attempt (.error error))) :=
      h.setLeader (by rw [htask]; rfl) rfl rfl rfl
    exact hset.congr rfl rfl rfl
  | removeConnecting i whom attempt answer htask => exact h.removeConnecting htask
  | notify i whom attempt answer htask =>
    exact h.notify (by rw [htask]; rfl) (by rw [htask]; rfl) PoolTask.plain_ensured
  | acquire i m connection htask hhandles =>
    exact h.setTask (by rw [htask]; rfl) (by rw [htask]; rfl) (by rintro _ ⟨⟩) (by rintro _ ⟨⟩)
  | store i m connection htask =>
    have hset : Led (s.setTask i .done) := h.setPlain (by rw [htask]; rfl) trivial
    exact hset.congr rfl rfl rfl
  | releaseEntry i m htask =>
    have hset : Led (s.setTask i (.removing (some m))) := h.setPlain (by rw [htask]; rfl) trivial
    exact hset.congr rfl rfl rfl
  | releaseAll m => exact h.congr rfl rfl rfl
  | removeHandle i manager htask =>
    have hset : Led (s.setTask i (.shuttingDown manager)) :=
      h.setTask (by rw [htask]; rfl) (by rw [htask]; rfl) (by rintro _ ⟨⟩) (by rintro _ ⟨⟩)
    exact hset.congr rfl rfl rfl
  | removeClient i manager htask =>
    have hset : Led (s.setTask i (.forgetting manager)) := h.setPlain (by rw [htask]; rfl) trivial
    exact hset.congr rfl rfl rfl
  | forget i manager htask =>
    have hset : Led (s.setTask i .done) := h.setPlain (by rw [htask]; rfl) trivial
    cases manager with
    | none => exact hset.congr rfl rfl rfl
    | some m => exact hset.congr rfl rfl rfl

lemma led_empty : Led empty where
  leads := by rintro _ _ ⟨⟩
  led := by rintro _ ⟨⟩
  sole := by rintro _ _ _ ⟨⟩
  lt := by rintro _ _ ⟨⟩
  woken := by rintro _ _ _ ⟨⟩

/-! ### Connections -/

lemma Traced.congr (h : Traced s) (htasks : t.tasks = s.tasks) (hhandles : t.handles = s.handles)
    (hconnection : t.nextConnection = s.nextConnection) (houtcomes : t.outcomes = s.outcomes)
    (hdisconnected : t.disconnected = s.disconnected) : Traced t := by
  obtain ⟨hearly, hfresh, hhandle, hdis, houtcome⟩ := h
  rw [← htasks, ← hhandles] at *
  rw [← hconnection, ← hdisconnected] at *
  rw [← houtcomes] at hfresh houtcome
  exact ⟨hearly, hfresh, hhandle, hdis, houtcome⟩

/-- Tasks go on with no connection more. -/
lemma Traced.of_tasks (h : Traced s) (hearly : ∀ i, (t.tasks i).Early → (s.tasks i).Early)
    (hfresh : ∀ i, (t.tasks i).fresh = (s.tasks i).fresh) (hhandles : t.handles = s.handles)
    (hconnection : t.nextConnection = s.nextConnection) (houtcomes : t.outcomes = s.outcomes)
    (hdisconnected : t.disconnected = s.disconnected) : Traced t := by
  have hs : Traced { s with tasks := t.tasks } := by
    refine ⟨fun i hi => h.early i (hearly i hi), fun i k c hi => ?_, h.handle, h.disconnected,
      fun k c hk => ?_⟩
    · exact h.fresh i k c ((hfresh i).symm.trans hi)
    · refine (h.outcome k c hk).imp_left ?_
      rintro ⟨i, hi⟩
      exact ⟨i, (hfresh i).trans hi⟩
  exact hs.congr rfl hhandles hconnection houtcomes hdisconnected

lemma Traced.setTask (h : Traced s) (hearly : task.Early → (s.tasks i).Early)
    (hfresh : task.fresh = (s.tasks i).fresh) : Traced (s.setTask i task) := by
  refine h.of_tasks (fun j hj => ?_) (fun j => ?_) rfl rfl rfl rfl
  · rw [tasks_setTask] at hj
    split_ifs at hj with hji
    · rw [hji]
      exact hearly hj
    · exact hj
  · exact keeps_setTask PoolTask.fresh hfresh j

/-- A task that is not early any more, and had no connection. -/
lemma Traced.setLate (h : Traced s) (hwas : (s.tasks i).fresh = none) (hearly : ¬ task.Early)
    (hfresh : task.fresh = none) : Traced (s.setTask i task) :=
  h.setTask (fun he => (hearly he).elim) (hfresh.trans hwas.symm)

lemma Traced.lead (h : Traced s) {whom : ConnectFor} (htask : s.tasks i = .beginning whom)
    (hhandles : s.handles = none) : Traced (s.setTask i (.connecting whom k)) := by
  refine ⟨fun _ _ => hhandles, fun j l c hj => ?_, h.handle, h.disconnected, fun l c hl => ?_⟩
  · rw [tasks_setTask] at hj
    split_ifs at hj
    · cases hj
    · exact h.fresh j l c hj
  · refine (h.outcome l c hl).imp_left ?_
    rintro ⟨j, hj⟩
    refine ⟨j, ?_⟩
    rw [tasks_setTask, if_neg]
    · exact hj
    · rintro rfl
      rw [htask] at hj
      cases hj

lemma Traced.connectFailed (h : Traced s) (hled : Led s) {whom : ConnectFor} {error : String}
    (htask : s.tasks i = .connecting whom k) :
    Traced ((s.setOutcome k none).setTask i (.failed whom k error)) := by
  have hset : Traced (s.setTask i (.failed whom k error)) :=
    h.setLate (by rw [htask]; rfl) id rfl
  have hleading : (s.tasks i).leading = some k := by
    rw [htask]
    rfl
  have hnone (j : Nat) (p : Nat × Nat) :
      ((s.setTask i (.failed whom k error)).tasks j).fresh ≠ some p := by
    rw [tasks_setTask]
    split_ifs with hji
    · rintro ⟨⟩
    · intro hj
      exact hji (hled.leader (PoolTask.of_fresh hj).1 hleading)
  refine ⟨hset.early, fun j l c hj => (hnone j _ hj).elim, hset.handle, hset.disconnected,
    fun l c hl => ?_⟩
  have hlk : l ≠ k := by
    rintro rfl
    simp [McpPool.setTask, setOutcome] at hl
  exact hset.outcome l c (by simpa [McpPool.setTask, setOutcome, hlk] using hl)

lemma Traced.connected (h : Traced s) (hled : Led s) {whom : ConnectFor}
    (htask : s.tasks i = .connecting whom k) :
    Traced { (s.setOutcome k (some s.nextConnection)).setTask i
        (.connected whom k s.nextConnection) with
      nextConnection := s.nextConnection + 1 } := by
  have hleading : (s.tasks i).leading = some k := by
    rw [htask]
    rfl
  have hhandles : s.handles = none := h.early i (by rw [htask]; trivial)
  have hfresh (j l c : Nat)
      (hj : ((s.setTask i (.connected whom k s.nextConnection)).tasks j).fresh = some (l, c)) :
      j = i ∧ l = k ∧ c = s.nextConnection := by
    rw [tasks_setTask] at hj
    split_ifs at hj with hji
    · cases hj
      exact ⟨hji, rfl, rfl⟩
    · exact (hji (hled.leader (PoolTask.of_fresh hj).1 hleading)).elim
  refine ⟨fun _ _ => hhandles, fun j l c hj => ?_, fun c hc => ?_, fun c hc => ?_, fun l c hl => ?_⟩
  · obtain ⟨-, rfl, rfl⟩ := hfresh j l c hj
    refine ⟨by simp [McpPool.setTask, setOutcome], ?_, Nat.lt_succ_self _⟩
    refine Bool.eq_false_iff.mpr fun hdisconnected => ?_
    exact Nat.lt_irrefl _ (h.disconnected _ hdisconnected)
  · cases hhandles.symm.trans hc
  · exact Nat.lt_succ_of_lt (h.disconnected c hc)
  · by_cases hlk : l = k
    · subst hlk
      refine .inl ⟨i, ?_⟩
      have hc : s.nextConnection = c := by simpa [McpPool.setTask, setOutcome] using hl
      change ((s.setTask i _).tasks i).fresh = some (l, c)
      rw [tasks_setTask, if_pos rfl, ← hc]
      rfl
    · rcases h.outcome l c (by simpa [McpPool.setTask, setOutcome, hlk] using hl) with
        ⟨j, hj⟩ | hc | hc
      · have hji : j = i := hled.leader (PoolTask.of_fresh hj).1 hleading
        rw [hji, htask] at hj
        cases hj
      · exact .inr (.inl hc)
      · exact .inr (.inr hc)

lemma Traced.insertHandle (h : Traced s) (hled : Led s) {whom : ConnectFor} {c : Nat}
    (htask : s.tasks i = .connected whom k c) :
    Traced { s.setTask i (.inserting whom k c) with handles := some c } := by
  have hleading : (s.tasks i).leading = some k := by
    rw [htask]
    rfl
  have hhandles : s.handles = none := h.early i (by rw [htask]; trivial)
  have hnotEarly (j : Nat) : ¬ ((s.setTask i (.inserting whom k c)).tasks j).Early := by
    rw [tasks_setTask]
    split_ifs with hji
    · exact id
    · intro hj
      obtain ⟨l, hl⟩ := PoolTask.leading_of_early hj
      exact hji (hled.leader hl hleading)
  obtain ⟨-, hconnected, hlt⟩ := h.fresh i k c (by rw [htask]; rfl)
  refine ⟨fun j hj => (hnotEarly j hj).elim, fun j l d hj => ?_, fun d hd => ?_, h.disconnected,
    fun l d hl => ?_⟩
  · exact (hnotEarly j (PoolTask.of_fresh hj).2).elim
  · cases hd
    exact ⟨hconnected, hlt⟩
  · rcases h.outcome l d hl with ⟨j, hj⟩ | hd | hd
    · have hji : j = i := hled.leader (PoolTask.of_fresh hj).1 hleading
      rw [hji, htask] at hj
      cases hj
      exact .inr (.inl rfl)
    · cases hhandles.symm.trans hd
    · exact .inr (.inr hd)

lemma Traced.removeHandle (h : Traced s) : Traced s.removeHandle := by
  refine ⟨fun _ _ => rfl, fun j k c hj => ?_, by rintro _ ⟨⟩, fun c hc => ?_, fun k c hk => ?_⟩
  · obtain ⟨houtcome, hdisconnected, hlt⟩ := h.fresh j k c hj
    refine ⟨houtcome, ?_, hlt⟩
    rw [McpPool.removeHandle, h.early j (PoolTask.of_fresh hj).2]
    simpa using hdisconnected
  · simp only [McpPool.removeHandle] at hc
    split_ifs at hc with hhandle
    · exact (h.handle c hhandle).2
    · exact h.disconnected c hc
  · rcases h.outcome k c hk with hfresh | hhandle | hdisconnected
    · exact .inl hfresh
    · exact .inr (.inr (if_pos hhandle))
    · refine .inr (.inr ?_)
      simp [McpPool.removeHandle, hdisconnected]

lemma Traced.step (h : Traced s) (hled : Led s) (ht : s.step m = some t) : Traced t := by
  cases effect_of_step ht with
  | plain i task hwas hplain => exact h.setLate hwas.fresh hplain.not_early hplain.fresh
  | wait i whom attempt htask hconnecting => exact h.setLate (by rw [htask]; rfl) id rfl
  | listen i whom attempt htask => exact h.setLate (by rw [htask]; rfl) id rfl
  | answer i whom attempt task htask hplain =>
    exact h.setLate (by rw [htask]; rfl) hplain.not_early hplain.fresh
  | lead i whom htask hconnecting hhandles =>
    have hlead : Traced (s.setTask i (.connecting whom s.nextAttempt)) := h.lead htask hhandles
    exact hlead.congr rfl rfl rfl rfl rfl
  | connected i whom attempt htask => exact h.connected hled htask
  | connectFailed i error whom attempt htask => exact h.connectFailed hled htask
  | insertHandle i whom attempt connection htask => exact h.insertHandle hled htask
  | insertClient i whom attempt connection htask =>
    have hset : Traced (s.setTask i (.clearing whom attempt)) :=
      h.setLate (by rw [htask]; rfl) id rfl
    exact hset.congr rfl rfl rfl rfl rfl
  | clearError i whom attempt htask =>
    have hset : Traced (s.setTask i (.finishing whom attempt (.ok true))) :=
      h.setLate (by rw [htask]; rfl) id rfl
    exact hset.congr rfl rfl rfl rfl rfl
  | insertError i whom attempt error htask =>
    have hset : Traced (s.setTask i (.finishing whom attempt (.error error))) :=
      h.setLate (by rw [htask]; rfl) id rfl
    exact hset.congr rfl rfl rfl rfl rfl
  | removeConnecting i whom attempt answer htask =>
    have hset : Traced (s.setTask i (.notifying whom attempt answer)) :=
      h.setLate (by rw [htask]; rfl) id rfl
    exact hset.congr rfl rfl rfl rfl rfl
  | notify i whom attempt answer htask =>
    have hwake : Traced (s.wakeAll attempt) :=
      h.of_tasks (fun j => PoolTask.early_wake.mp) (fun j => PoolTask.fresh_wake) rfl rfl rfl rfl
    have hplain : (PoolTask.ensured answer whom).Plain := PoolTask.plain_ensured
    exact hwake.setLate (by simp [wakeAll, htask]; rfl) hplain.not_early hplain.fresh
  | acquire i m connection htask hhandles => exact h.setLate (by rw [htask]; rfl) id rfl
  | store i m connection htask =>
    have hset : Traced (s.setTask i .done) := h.setLate (by rw [htask]; rfl) id rfl
    exact hset.congr rfl rfl rfl rfl rfl
  | releaseEntry i m htask =>
    have hset : Traced (s.setTask i (.removing (some m))) := h.setLate (by rw [htask]; rfl) id rfl
    exact hset.congr rfl rfl rfl rfl rfl
  | releaseAll m => exact h.congr rfl rfl rfl rfl rfl
  | removeHandle i manager htask =>
    have hfresh : (s.removeHandle.tasks i).fresh = none := by
      change (s.tasks i).fresh = none
      rw [htask]
      rfl
    exact h.removeHandle.setLate hfresh id rfl
  | removeClient i manager htask =>
    have hset : Traced (s.setTask i (.forgetting manager)) := h.setLate (by rw [htask]; rfl) id rfl
    exact hset.congr rfl rfl rfl rfl rfl
  | forget i manager htask =>
    have hset : Traced (s.setTask i .done) := h.setLate (by rw [htask]; rfl) id rfl
    cases manager with
    | none => exact hset.congr rfl rfl rfl rfl rfl
    | some m => exact hset.congr rfl rfl rfl rfl rfl

lemma traced_empty : Traced empty where
  early := by rintro _ ⟨⟩
  fresh := by rintro _ _ _ ⟨⟩
  handle := by rintro _ ⟨⟩
  disconnected := by rintro _ ⟨⟩
  outcome := by rintro _ _ ⟨⟩

end McpPool

end Jcode
