import Jcode.Mcp.Attempts

/-!
# Waiting for an attempt

Whoever finds the `Notify` of an attempt in the map waits for it, and the leader notifies once. A
waiter that has not begun to listen by then is never woken. One that is woken looks for any
connection, which need not be the one of the attempt.
-/

namespace Jcode

open Schedule

namespace McpPool

/-- One attempt at a time, and nobody waits for an attempt whose leader has notified. -/
structure Unstranded (s : McpPool) : Prop where
  one : ∀ i j k l, (s.tasks i).leading = some k → (s.tasks j).leading = some l → i = j
  heard : (∀ i, (s.tasks i).notifier = none) → ∀ j, (s.tasks j).waits = none

/-- A waiter's answer is `Ok` if and only if its attempt has succeeded and was not disconnected. -/
def AnswersRight (s : McpPool) : PoolMove → Prop
  | .run i => ∀ whom k t, s.tasks i = .woken whom k → s.run i = some t →
      (t.tasks i = .ensured (.ok false) whom ↔
        ∃ c, s.outcomes k = some (some c) ∧ s.disconnected c = false)
  | _ => True

/-- A leader notifies when nobody has its `Notify` without listening, and a waiter looks when no
other attempt has connected the server. -/
def ListensInTime (s : McpPool) : PoolMove → Prop
  | .run i => (∀ whom k answer, s.tasks i = .notifying whom k answer →
        ∀ j whom', s.tasks j ≠ .waiting whom' k) ∧
      ∀ whom k, s.tasks i = .woken whom k → ∀ c, s.handles = some c → s.outcomes k = some (some c)
  | _ => True

/-- Everyone who waits will be notified. -/
def Heard (s : McpPool) : Prop :=
  ∀ j k, (s.tasks j).waits = some k → ∃ i, (s.tasks i).notifier = some k

variable {s t : McpPool} {m : PoolMove} {i j k : Nat} {task : PoolTask}

/-- A task goes on, and notifies as before. -/
lemma Heard.setTask (h : Heard s)
    (hnotifier : ∀ k, (s.tasks i).notifier = some k → task.notifier = some k)
    (hwaits : ∀ k, task.waits = some k → ∃ j, (s.tasks j).notifier = some k)
    (htasks : t.tasks = (s.setTask i task).tasks) : Heard t := by
  intro j k hj
  obtain ⟨l, hl⟩ : ∃ l, (s.tasks l).notifier = some k := by
    rw [htasks, tasks_setTask] at hj
    split_ifs at hj
    · exact hwaits k hj
    · exact h j k hj
  refine ⟨l, ?_⟩
  rw [htasks, tasks_setTask]
  split_ifs with hli
  · rw [hli] at hl
    exact hnotifier k hl
  · exact hl

lemma PoolTask.waits_of_plain (h : task.Plain) : task.waits = none :=
  PoolTask.waits_of_attempt h.attempt

/-- Whoever listens is woken, and nobody else waits for the attempt. -/
lemma Heard.notify (h : Heard s) (hplain : task.Plain) (hwas : (s.tasks i).notifier = some k)
    (hwaiting : ∀ j whom, s.tasks j ≠ .waiting whom k) :
    Heard ((s.wakeAll k).setTask i task) := by
  have htasks (j : Nat) : ((s.wakeAll k).setTask i task).tasks j =
      if j = i then task else (s.tasks j).wake k := tasks_setTask
  intro j l hj
  rw [htasks] at hj
  split_ifs at hj
  · cases (PoolTask.waits_of_plain hplain).symm.trans hj
  · have hwaits : (s.tasks j).waits = some l ∧ l ≠ k := by
      rcases PoolTask.wake_cases k (s.tasks j) with ⟨whom, -, hwake⟩ | ⟨hwake, hlistening⟩
      · rw [hwake] at hj
        cases hj
      · rw [hwake] at hj
        refine ⟨hj, ?_⟩
        rintro rfl
        cases htask : s.tasks j with
        | waiting whom attempt =>
          rw [htask] at hj
          cases hj
          exact hwaiting j whom htask
        | listening whom attempt =>
          rw [htask] at hj
          cases hj
          exact hlistening whom htask
        | _ =>
          rw [htask] at hj
          cases hj
    obtain ⟨n, hn⟩ := h j l hwaits.1
    refine ⟨n, ?_⟩
    rw [htasks, if_neg, PoolTask.notifier_wake]
    · exact hn
    · rintro rfl
      exact hwaits.2 (Option.some.inj (hn.symm.trans hwas))

lemma Heard.step (h : Heard s) (hled : Led s) (hm : ListensInTime s m) (ht : s.step m = some t) :
    Heard t := by
  cases effect_of_step ht with
  | plain i task hwas hplain =>
    refine h.setTask (fun k hk => ?_) (fun k hk => ?_) rfl
    · cases hwas.notifier.symm.trans hk
    · cases (PoolTask.waits_of_plain hplain).symm.trans hk
  | wait i whom attempt htask hconnecting =>
    refine h.setTask (fun k hk => ?_) (fun k hk => ?_) rfl
    · rw [htask] at hk
      cases hk
    · cases hk
      obtain ⟨j, hj⟩ := hled.led attempt hconnecting
      exact ⟨j, PoolTask.notifier_of_leading hj⟩
  | listen i whom attempt htask =>
    refine h.setTask (fun k hk => ?_) (fun k hk => ?_) rfl
    · rw [htask] at hk
      cases hk
    · exact h i k (by rw [htask]; exact hk)
  | answer i whom attempt task htask hplain =>
    refine h.setTask (fun k hk => ?_) (fun k hk => ?_) rfl
    · rw [htask] at hk
      cases hk
    · cases (PoolTask.waits_of_plain hplain).symm.trans hk
  | notify i whom attempt answer htask =>
    exact h.notify PoolTask.plain_ensured (by rw [htask]; rfl) (hm.1 whom attempt answer htask)
  | lead i whom htask | connected i whom attempt htask | connectFailed i error whom attempt htask
  | insertHandle i whom attempt connection htask | insertClient i whom attempt connection htask
  | clearError i whom attempt htask | insertError i whom attempt error htask
  | removeConnecting i whom attempt answer htask =>
    refine h.setTask (fun k hk => ?_) (fun k hk => ?_) rfl
    · rw [htask] at hk
      first | exact hk | cases hk
    · cases hk
  | acquire i m connection htask | store i m connection htask | releaseEntry i m htask
  | removeHandle i manager htask | removeClient i manager htask =>
    refine h.setTask (fun k hk => ?_) (fun k hk => ?_) rfl
    · rw [htask] at hk
      cases hk
    · cases hk
  | releaseAll m => exact h
  | forget i manager htask =>
    have hset : Heard (s.setTask i .done) := by
      refine h.setTask (fun k hk => ?_) (fun k hk => ?_) rfl
      · rw [htask] at hk
        cases hk
      · cases hk
    cases manager with
    | none => exact hset
    | some m => exact hset

lemma Heard.unstranded (h : Heard s) (hled : Led s) : Unstranded s := by
  refine ⟨fun i j k l hi hj => hled.leader hi hj, fun hnone j => ?_⟩
  cases hwaits : (s.tasks j).waits with
  | none => rfl
  | some k =>
    obtain ⟨i, hi⟩ := h j k hwaits
    cases (hnone i).symm.trans hi

lemma PoolTask.ensured_ne_failing {answer : Except String Bool} {whom whom' : ConnectFor} :
    PoolTask.ensured answer whom ≠ .failing whom' := by
  intro h
  have hplain : (PoolTask.ensured answer whom).Plain := PoolTask.plain_ensured
  cases whom with
  | pool => cases h
  | manager m all =>
    cases answer with
    | ok => cases h
    | error => cases all <;> cases h

/-- A waiter that is woken finds the connection of its attempt, if it is still there. -/
lemma answersRight (hled : Led s) (htraced : Traced s) (hm : ListensInTime s m) :
    AnswersRight s m := by
  cases m with
  | run i =>
    intro whom k t htask ht
    have hhandles : s.handles.isSome ↔ ∃ c, s.outcomes k = some (some c) ∧
        s.disconnected c = false := by
      constructor
      · intro hsome
        obtain ⟨c, hc⟩ := Option.isSome_iff_exists.mp hsome
        exact ⟨c, hm.2 whom k htask c hc, (htraced.handle c hc).1⟩
      · rintro ⟨c, houtcome, hconnected⟩
        rcases htraced.outcome k c houtcome with ⟨j, hj⟩ | hc | hc
        · have hnotifier := PoolTask.notifier_of_leading (PoolTask.of_fresh hj).1
          exact (hled.woken i j k (by rw [htask]; rfl) hnotifier).elim
        · rw [hc]
          rfl
        · cases hconnected.symm.trans hc
    rw [← hhandles]
    simp only [McpPool.run, htask, Option.some.injEq] at ht
    subst ht
    rw [tasks_setTask, if_pos rfl]
    split_ifs with hsome
    · exact ⟨fun _ => hsome, fun _ => rfl⟩
    · exact ⟨fun heq => (PoolTask.ensured_ne_failing heq.symm).elim, fun h => (hsome h).elim⟩
  | _ => trivial

/-! ### Whole runs -/

/-- Where every leader and waiter is in time, nobody is stranded and the waiters' answers are
right. -/
theorem unstranded_of_listensInTime {ms : List PoolMove}
    (hms : Guarded step ListensInTime empty ms) :
    Always step Unstranded empty ms ∧ Guarded step AnswersRight empty ms := by
  have hall : Always step (fun s => (Led s ∧ Traced s) ∧ Heard s) empty ms := by
    refine hms.always (fun _ _ _ h hm ht => ?_) ⟨⟨led_empty, traced_empty⟩, by rintro _ _ ⟨⟩⟩
    exact ⟨⟨h.1.1.step ht, h.1.2.step h.1.1 ht⟩, h.2.step h.1.1 hm ht⟩
  constructor
  · intro ks ls t hk ht
    obtain ⟨⟨hled, -⟩, hheard⟩ := hall ks ls t hk ht
    exact hheard.unstranded hled
  · refine guarded_of_steps fun ks m ls t hk ht => ?_
    obtain ⟨⟨hled, htraced⟩, -⟩ := hall ks (m :: ls) t hk ht
    subst hk
    exact answersRight hled htraced (hms.step_mem ht)

/-- One task connects and another waits for it. -/
def connectedTogether : List PoolMove :=
  [.connect 0 .pool, .connect 1 .pool, .run 0, .run 1, .run 0, .run 1, .run 0, .run 1, .run 1,
    .connected 0 none, .run 0, .run 0, .run 0, .run 0, .run 0, .run 1]

theorem unstranded_of_listensInTime_together :
    (exec step empty connectedTogether).isSome ∧ Always step Unstranded empty connectedTogether ∧
      Guarded step AnswersRight empty connectedTogether := by
  refine ⟨rfl, unstranded_of_listensInTime ?_⟩
  refine .cons trivial rfl (.cons trivial rfl (.cons ⟨nofun, nofun⟩ rfl (.cons ⟨nofun, nofun⟩ rfl
    (.cons ⟨nofun, nofun⟩ rfl (.cons ⟨nofun, nofun⟩ rfl (.cons ⟨nofun, nofun⟩ rfl
      (.cons ⟨nofun, nofun⟩ rfl (.cons ⟨nofun, nofun⟩ rfl (.cons trivial rfl
        (.cons ⟨nofun, nofun⟩ rfl (.cons ⟨nofun, nofun⟩ rfl (.cons ⟨nofun, nofun⟩ rfl
          (.cons ⟨nofun, nofun⟩ rfl (.cons ⟨?_, nofun⟩ rfl (.cons ⟨nofun, ?_⟩ rfl
            trivial)))))))))))))))
  · -- the other task listens
    rintro _ _ _ ⟨⟩ j whom
    rcases j with _ | _ | j <;> rintro ⟨⟩
  · rintro _ _ ⟨⟩ _ ⟨⟩
    rfl

/-- A task finds the `Notify` of another one, which connects and notifies before it listens. -/
def notifiedEarly : List PoolMove :=
  [.connect 0 .pool, .connect 1 .pool, .run 0, .run 1, .run 0, .run 1, .run 0, .run 1,
    .connected 0 none, .run 0, .run 0, .run 0, .run 0, .run 0, .run 1]

theorem not_unstranded :
    ¬ ∀ ms, (exec step empty ms).isSome →
      Always step Unstranded empty ms ∧ Guarded step AnswersRight empty ms := by
  intro h
  have hheard := ((h notifiedEarly rfl).1 notifiedEarly [] _ (by simp) rfl).heard
  have hwaits := hheard (fun i => by rcases i with _ | _ | i <;> rfl) 1
  cases hwaits

end McpPool

end Jcode
