import Jcode.Mcp.Attempts

/-!
# The views of a connection

A connection is in two maps of the pool and in the maps of the managers. A connect and a disconnect
change the first two one after the other, and a disconnect leaves the maps of the other managers.
The views agree at rest if a disconnect takes a handle that the others have not, whose client is
there, and no client is put into the pool while a disconnect is between the maps.
-/

namespace Jcode

open Schedule

namespace PoolTask

/-- No connect or disconnect is in flight. -/
def Over : PoolTask → Prop
  | .idle | .returned _ | .done => True
  | _ => False

/-- The connection whose client is not in the pool yet. -/
def pending : PoolTask → Option Nat
  | .connected _ _ connection | .inserting _ _ connection => some connection
  | _ => none

/-- The connection whose handle is in the pool, and the client not yet. -/
def inserts : PoolTask → Option Nat
  | .inserting _ _ connection => some connection
  | _ => none

/-- The connection whose handle a manager is about to store. -/
def copy : PoolTask → Option Nat
  | .storing _ connection => some connection
  | _ => none

/-- Between the two maps of a disconnect. -/
def Shutting : PoolTask → Prop
  | .shuttingDown _ => True
  | _ => False

variable {task : PoolTask} {c : Nat}

lemma Over.inserts (h : task.Over) : task.inserts = none := by
  cases task <;> first | rfl | exact h.elim

lemma Over.pending (h : task.Over) : task.pending = none := by
  cases task <;> first | rfl | exact h.elim

lemma Over.not_shutting (h : task.Over) : ¬ task.Shutting := by
  cases task <;> first | exact id | exact h.elim

lemma Plain.inserts (h : task.Plain) : task.inserts = none := by
  cases task <;> first | rfl | exact h.elim

lemma Plain.pending (h : task.Plain) : task.pending = none := by
  cases task <;> first | rfl | exact h.elim

lemma Plain.copy (h : task.Plain) : task.copy = none := by
  cases task <;> first | rfl | exact h.elim

lemma Plain.not_shutting (h : task.Plain) : ¬ task.Shutting := by
  cases task <;> first | exact id | exact h.elim

lemma leading_of_pending (h : task.pending = some c) : ∃ k, task.leading = some k := by
  cases task with
  | connected whom attempt connection | inserting whom attempt connection => exact ⟨attempt, rfl⟩
  | _ => cases h

lemma of_shutting (h : task.Shutting) : task.inserts = none ∧ task.pending = none := by
  cases task <;> first | exact ⟨rfl, rfl⟩ | exact h.elim

lemma pending_of_inserts (h : task.inserts = some c) : task.pending = some c := by
  cases task <;> first | exact h | cases h

@[simp] lemma inserts_wake {k : Nat} : (task.wake k).inserts = task.inserts :=
  keeps_wake PoolTask.inserts fun _ _ => rfl

@[simp] lemma pending_wake {k : Nat} : (task.wake k).pending = task.pending :=
  keeps_wake PoolTask.pending fun _ _ => rfl

@[simp] lemma copy_wake {k : Nat} : (task.wake k).copy = task.copy :=
  keeps_wake PoolTask.copy fun _ _ => rfl

lemma shutting_wake {k : Nat} : (task.wake k).Shutting ↔ task.Shutting :=
  iff_of_eq (keeps_wake PoolTask.Shutting fun _ _ => rfl)

end PoolTask

namespace McpPool

/-- The pool has one connection of the server, or none, in both maps; every other one was shut
down; and the managers have that one. -/
structure ViewsAgree (s : McpPool) : Prop where
  pool : s.handles = s.clients
  live : ∀ c, s.clients = some c → s.shutDown c = false
  others : ∀ c, c < s.nextConnection → s.clients ≠ some c → s.shutDown c = true
  managers : ∀ m c, s.entries m = some c → s.clients = some c

/-- At rest, the views agree. -/
def AgreesAtRest (s : McpPool) : Prop := (∀ i, (s.tasks i).Over) → ViewsAgree s

/-- A disconnect takes out a handle whose client is in the pool, and that no manager has, or is
about to store; and a client is put in while no disconnect is between the maps. -/
def DisconnectsApart (s : McpPool) : PoolMove → Prop
  | .run i => (∀ manager c, s.tasks i = .removing manager → s.handles = some c →
        s.clients = some c ∧ (∀ m, s.entries m ≠ some c) ∧ ∀ j m, s.tasks j ≠ .storing m c) ∧
      ∀ whom attempt c, s.tasks i = .inserting whom attempt c →
        ∀ j manager, s.tasks j ≠ .shuttingDown manager
  | _ => True

/-- What every task knows of the connections, on its way. -/
structure Viewed (s : McpPool) : Prop where
  handle : ∀ c, s.handles = some c → s.clients = some c ∨ ∃ i, (s.tasks i).inserts = some c
  client : ∀ c, s.clients = some c → s.handles = some c ∨ ∃ i, (s.tasks i).Shutting
  shutting : ∀ i c, (s.tasks i).Shutting → s.clients = some c → s.handles ≠ some c
  inserts : ∀ i c, (s.tasks i).inserts = some c → s.handles = some c
  pending : ∀ i c, (s.tasks i).pending = some c →
    s.shutDown c = false ∧ s.clients ≠ some c ∧ c < s.nextConnection
  accounted : ∀ c, c < s.nextConnection →
    s.shutDown c = true ∨ s.clients = some c ∨ ∃ i, (s.tasks i).pending = some c
  live : ∀ c, s.clients = some c → s.shutDown c = false ∧ c < s.nextConnection
  gone : ∀ c, s.shutDown c = true → c < s.nextConnection
  entry : ∀ m c, s.entries m = some c → s.handles = some c
  copy : ∀ i c, (s.tasks i).copy = some c → s.handles = some c

variable {s t : McpPool} {m : PoolMove} {i j k : Nat} {task : PoolTask}

lemma Viewed.agreesAtRest (h : Viewed s) : AgreesAtRest s := by
  intro hover
  have hhandle (c : Nat) (hc : s.handles = some c) : s.clients = some c := by
    rcases h.handle c hc with hclient | ⟨i, hi⟩
    · exact hclient
    · cases (hover i).inserts.symm.trans hi
  have hclient (c : Nat) (hc : s.clients = some c) : s.handles = some c := by
    rcases h.client c hc with hhandle | ⟨i, hi⟩
    · exact hhandle
    · exact ((hover i).not_shutting hi).elim
  refine ⟨Option.ext fun c => ⟨hhandle c, hclient c⟩, fun c hc => (h.live c hc).1,
    fun c hc hne => ?_, fun m c hm => hhandle c (h.entry m c hm)⟩
  rcases h.accounted c hc with hdown | hclient | ⟨i, hi⟩
  · exact hdown
  · exact (hne hclient).elim
  · cases (hover i).pending.symm.trans hi

/-- Tasks go on, and have the connections that they had. -/
lemma Viewed.of_tasks (h : Viewed s) {tasks : Nat → PoolTask}
    (hinserts : ∀ i, (tasks i).inserts = (s.tasks i).inserts)
    (hpending : ∀ i, (tasks i).pending = (s.tasks i).pending)
    (hcopy : ∀ i c, (tasks i).copy = some c → s.handles = some c)
    (hshutting : ∀ i, (tasks i).Shutting ↔ (s.tasks i).Shutting) :
    Viewed { s with tasks := tasks } := by
  refine ⟨fun c hc => ?_, fun c hc => ?_, fun i c hi => ?_, fun i c hi => ?_, fun i c hi => ?_,
    fun c hc => ?_, h.live, h.gone, h.entry, hcopy⟩
  · refine (h.handle c hc).imp_right ?_
    rintro ⟨i, hi⟩
    exact ⟨i, (hinserts i).trans hi⟩
  · refine (h.client c hc).imp_right ?_
    rintro ⟨i, hi⟩
    exact ⟨i, (hshutting i).mpr hi⟩
  · exact h.shutting i c ((hshutting i).mp hi)
  · exact h.inserts i c ((hinserts i).symm.trans hi)
  · exact h.pending i c ((hpending i).symm.trans hi)
  · refine (h.accounted c hc).imp_right (.imp_right ?_)
    rintro ⟨i, hi⟩
    exact ⟨i, (hpending i).trans hi⟩

/-- A task goes on, and has the connection that it had. -/
lemma Viewed.setTask (h : Viewed s) (hinserts : task.inserts = (s.tasks i).inserts)
    (hpending : task.pending = (s.tasks i).pending)
    (hcopy : ∀ c, task.copy = some c → s.handles = some c)
    (hshutting : task.Shutting ↔ (s.tasks i).Shutting) : Viewed (s.setTask i task) := by
  refine h.of_tasks (fun j => ?_) (fun j => ?_) (fun j c hj => ?_) fun j => ?_
  · exact keeps_setTask PoolTask.inserts hinserts j
  · exact keeps_setTask PoolTask.pending hpending j
  · change ((s.setTask i task).tasks j).copy = some c at hj
    rw [tasks_setTask] at hj
    split_ifs at hj
    · exact hcopy c hj
    · exact h.copy j c hj
  · exact iff_of_eq (keeps_setTask PoolTask.Shutting (propext hshutting) j)

/-- A task goes on, and has no copy of the handle. -/
lemma Viewed.setUncopied (h : Viewed s) (hinserts : task.inserts = (s.tasks i).inserts)
    (hpending : task.pending = (s.tasks i).pending) (hcopy : task.copy = none)
    (hshutting : task.Shutting ↔ (s.tasks i).Shutting) : Viewed (s.setTask i task) := by
  refine h.setTask hinserts hpending (fun c hc => ?_) hshutting
  cases hcopy.symm.trans hc

/-- A task that has no connection any more. -/
lemma Viewed.setPlain (h : Viewed s) (hinserts : (s.tasks i).inserts = none)
    (hpending : (s.tasks i).pending = none) (hshutting : ¬ (s.tasks i).Shutting)
    (hplain : task.Plain) : Viewed (s.setTask i task) := by
  exact h.setUncopied (hplain.inserts.trans hinserts.symm) (hplain.pending.trans hpending.symm)
    hplain.copy (iff_of_false hplain.not_shutting hshutting)

lemma Viewed.congr (h : Viewed s) (hhandles : t.handles = s.handles)
    (hclients : t.clients = s.clients) (htasks : t.tasks = s.tasks)
    (hentries : t.entries = s.entries) (hconnection : t.nextConnection = s.nextConnection)
    (hdown : t.shutDown = s.shutDown) : Viewed t := by
  cases s
  cases t
  subst hhandles hclients htasks hentries hconnection hdown
  exact ⟨h.handle, h.client, h.shutting, h.inserts, h.pending, h.accounted, h.live, h.gone,
    h.entry, h.copy⟩

/-- A manager has the handle of the pool, or none. -/
lemma Viewed.setEntry (h : Viewed s) {m : Nat} {entry : Option Nat}
    (hentry : ∀ c, entry = some c → s.handles = some c) : Viewed (s.setEntry m entry) := by
  refine ⟨h.handle, h.client, h.shutting, h.inserts, h.pending, h.accounted, h.live, h.gone,
    fun l c hl => ?_, h.copy⟩
  by_cases hlm : l = m
  · refine hentry c ?_
    simpa [McpPool.setEntry, hlm] using hl
  · refine h.entry l c ?_
    simpa [McpPool.setEntry, hlm] using hl

lemma Viewed.releaseEntry (h : Viewed s) {m : Nat} : Viewed (s.setEntry m none) := by
  refine h.setEntry fun c hc => ?_
  cases hc

/-! ### The steps that change a map -/

/-- Whoever has a connection that is not in the pool is the leader. -/
lemma Led.of_pending (hled : Led s) {c : Nat} (hi : (s.tasks i).leading = some k)
    (hj : (s.tasks j).pending = some c) : j = i := by
  obtain ⟨l, hl⟩ := PoolTask.leading_of_pending hj
  exact hled.leader hl hi

lemma Viewed.connected (h : Viewed s) (hled : Led s) {whom : ConnectFor}
    (htask : s.tasks i = .connecting whom k) :
    Viewed { (s.setOutcome k (some s.nextConnection)).setTask i
        (.connected whom k s.nextConnection) with
      nextConnection := s.nextConnection + 1 } := by
  have hset (j : Nat) : ((s.setTask i (.connected whom k s.nextConnection)).tasks j).inserts =
      (s.tasks j).inserts := by
    apply keeps_setTask PoolTask.inserts
    rw [htask]
    rfl
  refine ⟨fun c hc => ?_, fun c hc => ?_, fun j c hj => ?_, fun j c hj => ?_, fun j c hj => ?_,
    fun c hc => ?_, fun c hc => ?_, fun c hc => ?_, h.entry, fun j c hj => ?_⟩
  · refine (h.handle c hc).imp_right ?_
    rintro ⟨j, hj⟩
    exact ⟨j, (hset j).trans hj⟩
  · refine (h.client c hc).imp_right ?_
    rintro ⟨j, hj⟩
    refine ⟨j, ?_⟩
    change ((s.setTask i _).tasks j).Shutting
    rw [tasks_setTask, if_neg]
    · exact hj
    · rintro rfl
      rw [htask] at hj
      exact hj
  · change ((s.setTask i _).tasks j).Shutting at hj
    rw [tasks_setTask] at hj
    split_ifs at hj
    · exact hj.elim
    · exact h.shutting j c hj
  · exact h.inserts j c ((hset j).symm.trans hj)
  · change ((s.setTask i _).tasks j).pending = some c at hj
    rw [tasks_setTask] at hj
    split_ifs at hj with hji
    · cases hj
      refine ⟨Bool.eq_false_iff.mpr fun hdown => ?_, fun hclient => ?_, Nat.lt_succ_self _⟩
      · exact Nat.lt_irrefl _ (h.gone _ hdown)
      · exact Nat.lt_irrefl _ (h.live _ hclient).2
    · exact (hji (hled.of_pending (k := k) (by rw [htask]; rfl) hj)).elim
  · rcases Nat.lt_succ_iff_lt_or_eq.mp hc with hlt | rfl
    · refine (h.accounted c hlt).imp_right (.imp_right ?_)
      rintro ⟨j, hj⟩
      have hji : j = i := hled.of_pending (k := k) (by rw [htask]; rfl) hj
      rw [hji, htask] at hj
      cases hj
    · refine .inr (.inr ⟨i, ?_⟩)
      change ((s.setTask i _).tasks i).pending = _
      rw [tasks_setTask, if_pos rfl]
      rfl
  · exact ⟨(h.live c hc).1, Nat.lt_succ_of_lt (h.live c hc).2⟩
  · exact Nat.lt_succ_of_lt (h.gone c hc)
  · change ((s.setTask i _).tasks j).copy = some c at hj
    rw [tasks_setTask] at hj
    split_ifs at hj
    · cases hj
    · exact h.copy j c hj

lemma Viewed.insertHandle (h : Viewed s) (hled : Led s) (htraced : Traced s) {whom : ConnectFor}
    {c : Nat} (htask : s.tasks i = .connected whom k c) :
    Viewed { s.setTask i (.inserting whom k c) with handles := some c } := by
  have hleading : (s.tasks i).leading = some k := by
    rw [htask]
    rfl
  have hnone : s.handles = none := htraced.early i (by rw [htask]; trivial)
  have hpending (j : Nat) : ((s.setTask i (.inserting whom k c)).tasks j).pending =
      (s.tasks j).pending := by
    apply keeps_setTask PoolTask.pending
    rw [htask]
    rfl
  obtain ⟨hdown, hclient, hlt⟩ := h.pending i c (by rw [htask]; rfl)
  refine ⟨fun d hd => .inr ⟨i, ?_⟩, fun d hd => .inr ?_, fun j d hj hd => ?_, fun j d hj => ?_,
    fun j d hj => ?_, fun d hd => ?_, h.live, h.gone, fun m d hm => ?_, fun j d hj => ?_⟩
  · change ((s.setTask i _).tasks i).inserts = _
    rw [tasks_setTask, if_pos rfl]
    exact hd
  · rcases h.client d hd with hhandle | ⟨j, hj⟩
    · cases hnone.symm.trans hhandle
    · refine ⟨j, ?_⟩
      change ((s.setTask i _).tasks j).Shutting
      rw [tasks_setTask, if_neg]
      · exact hj
      · rintro rfl
        rw [htask] at hj
        exact hj
  · rintro ⟨⟩
    exact hclient hd
  · change ((s.setTask i _).tasks j).inserts = some d at hj
    rw [tasks_setTask] at hj
    split_ifs at hj with hji
    · exact hj
    · exact (hji (hled.of_pending hleading (PoolTask.pending_of_inserts hj))).elim
  · exact h.pending j d ((hpending j).symm.trans hj)
  · refine (h.accounted d hd).imp_right (.imp_right ?_)
    rintro ⟨j, hj⟩
    exact ⟨j, (hpending j).trans hj⟩
  · cases hnone.symm.trans (h.entry m d hm)
  · change ((s.setTask i _).tasks j).copy = some d at hj
    rw [tasks_setTask] at hj
    split_ifs at hj
    · cases hj
    · cases hnone.symm.trans (h.copy j d hj)

lemma Viewed.insertClient (h : Viewed s) (hled : Led s) {whom : ConnectFor} {c : Nat}
    (htask : s.tasks i = .inserting whom k c) (hapart : ∀ j, ¬ (s.tasks j).Shutting) :
    Viewed { s.setTask i (.clearing whom k) with clients := some c } := by
  have hleading : (s.tasks i).leading = some k := by
    rw [htask]
    rfl
  have hhandle : s.handles = some c := h.inserts i c (by rw [htask]; rfl)
  obtain ⟨hdown, hclient, hlt⟩ := h.pending i c (by rw [htask]; rfl)
  -- there is no other client that could be lost
  have hnone : s.clients = none := by
    cases hclients : s.clients with
    | none => rfl
    | some d =>
      rcases h.client d hclients with hd | ⟨j, hj⟩
      · cases hhandle.symm.trans hd
        exact (hclient hclients).elim
      · exact (hapart j hj).elim
  have hpending (j d : Nat) : ((s.setTask i (.clearing whom k)).tasks j).pending ≠ some d := by
    rw [tasks_setTask]
    split_ifs with hji
    · rintro ⟨⟩
    · exact fun hj => hji (hled.of_pending hleading hj)
  have hshutting (j : Nat) : ¬ ((s.setTask i (.clearing whom k)).tasks j).Shutting := by
    rw [tasks_setTask]
    split_ifs
    · exact id
    · exact hapart j
  refine ⟨fun d hd => .inl (hhandle.symm.trans hd), fun d hd => .inl (hhandle.trans hd),
    fun j d hj => (hshutting j hj).elim,
    fun j d hj => (hpending j d (PoolTask.pending_of_inserts hj)).elim,
    fun j d hj => (hpending j d hj).elim, fun d hd => ?_, fun d hd => ?_, h.gone, h.entry,
    fun j d hj => ?_⟩
  · rcases h.accounted d hd with hdown | hd | ⟨j, hj⟩
    · exact .inl hdown
    · cases hnone.symm.trans hd
    · have hji : j = i := hled.of_pending hleading hj
      rw [hji, htask] at hj
      exact .inr (.inl hj)
  · cases hd
    exact ⟨hdown, hlt⟩
  · change ((s.setTask i _).tasks j).copy = some d at hj
    rw [tasks_setTask] at hj
    split_ifs at hj
    · cases hj
    · exact h.copy j d hj

lemma Viewed.removeHandle (h : Viewed s) {manager : Option Nat}
    (htask : s.tasks i = .removing manager)
    (hm : ∀ c, s.handles = some c →
      s.clients = some c ∧ (∀ m, s.entries m ≠ some c) ∧ ∀ j m, s.tasks j ≠ .storing m c) :
    Viewed (s.removeHandle.setTask i (.shuttingDown manager)) := by
  have htasks (j : Nat) : (s.removeHandle.setTask i (.shuttingDown manager)).tasks j =
      if j = i then .shuttingDown manager else s.tasks j := tasks_setTask
  have hpending (j : Nat) : ((s.removeHandle.setTask i (.shuttingDown manager)).tasks j).pending =
      (s.tasks j).pending := by
    rw [htasks]
    split_ifs with hji
    · rw [hji, htask]
      rfl
    · rfl
  refine ⟨by rintro _ ⟨⟩, fun c _ => .inr ⟨i, ?_⟩, fun _ _ _ _ => by rintro ⟨⟩, fun j c hj => ?_,
    fun j c hj => ?_, fun c hc => ?_, h.live, h.gone, fun m c hc => ?_, fun j c hj => ?_⟩
  · rw [htasks, if_pos rfl]
    trivial
  · exfalso
    rw [htasks] at hj
    split_ifs at hj
    · cases hj
    · obtain ⟨hclient, -⟩ := hm c (h.inserts j c hj)
      exact (h.pending j c (PoolTask.pending_of_inserts hj)).2.1 hclient
  · exact h.pending j c ((hpending j).symm.trans hj)
  · refine (h.accounted c hc).imp_right (.imp_right ?_)
    rintro ⟨j, hj⟩
    exact ⟨j, (hpending j).trans hj⟩
  · exact ((hm c (h.entry m c hc)).2.1 m hc).elim
  · exfalso
    rw [htasks] at hj
    split_ifs at hj
    · cases hj
    · obtain ⟨-, -, hcopies⟩ := hm c (h.copy j c hj)
      cases hjt : s.tasks j with
      | storing m connection =>
        rw [hjt] at hj
        cases hj
        exact hcopies j m hjt
      | _ =>
        rw [hjt] at hj
        cases hj

lemma Viewed.removeClient (h : Viewed s) (hshutting : (s.tasks i).Shutting) :
    Viewed s.removeClient := by
  have hdown (c : Nat) (hc : s.clients ≠ some c) : s.removeClient.shutDown c = s.shutDown c :=
    if_neg hc
  refine ⟨fun c hc => .inr ?_, by rintro _ ⟨⟩, fun _ _ _ => by rintro ⟨⟩, h.inserts,
    fun j c hj => ?_, fun c hc => ?_, by rintro _ ⟨⟩, fun c hc => ?_, h.entry, h.copy⟩
  · rcases h.handle c hc with hclient | hinserts
    · exact (h.shutting i c hshutting hclient hc).elim
    · exact hinserts
  · obtain ⟨hfalse, hclient, hlt⟩ := h.pending j c hj
    exact ⟨(hdown c hclient).trans hfalse, by rintro ⟨⟩, hlt⟩
  · rcases h.accounted c hc with hgone | hclient | hpending
    · refine .inl ?_
      simp [McpPool.removeClient, hgone]
    · exact .inl (if_pos hclient)
    · exact .inr (.inr hpending)
  · by_cases hclient : s.clients = some c
    · exact (h.live c hclient).2
    · exact h.gone c ((hdown c hclient).symm.trans hc)

/-- A disconnect has shut the client down, and there is none in the pool. -/
lemma Viewed.forget (h : Viewed s) (hnone : s.clients = none) (hshutting : (s.tasks i).Shutting)
    (hplain : task.Plain) : Viewed (s.setTask i task) := by
  have hinserts (j : Nat) : ((s.setTask i task).tasks j).inserts = (s.tasks j).inserts := by
    apply keeps_setTask PoolTask.inserts
    rw [hplain.inserts, (PoolTask.of_shutting hshutting).1]
  have hpending (j : Nat) : ((s.setTask i task).tasks j).pending = (s.tasks j).pending := by
    apply keeps_setTask PoolTask.pending
    rw [hplain.pending, (PoolTask.of_shutting hshutting).2]
  have hclients (c : Nat) : s.clients ≠ some c := by
    rw [hnone]
    simp
  refine ⟨fun c hc => ?_, fun c hc => (hclients c hc).elim, fun _ c _ hc => (hclients c hc).elim,
    fun j c hj => h.inserts j c ((hinserts j).symm.trans hj),
    fun j c hj => h.pending j c ((hpending j).symm.trans hj), fun c hc => ?_, h.live, h.gone,
    h.entry, fun j c hj => ?_⟩
  · refine (h.handle c hc).imp_right ?_
    rintro ⟨j, hj⟩
    exact ⟨j, (hinserts j).trans hj⟩
  · refine (h.accounted c hc).imp_right (.imp_right ?_)
    rintro ⟨j, hj⟩
    exact ⟨j, (hpending j).trans hj⟩
  · rw [tasks_setTask] at hj
    split_ifs at hj
    · cases hplain.copy.symm.trans hj
    · exact h.copy j c hj

lemma Viewed.step (h : Viewed s) (hled : Led s) (htraced : Traced s) (hm : DisconnectsApart s m)
    (ht : s.step m = some t) : Viewed t := by
  cases effect_of_step ht with
  | plain i task hwas hplain =>
    exact h.setPlain hwas.inserts hwas.pending hwas.not_shutting hplain
  | wait i whom attempt htask hconnecting | listen i whom attempt htask =>
    exact h.setUncopied (by rw [htask]; rfl) (by rw [htask]; rfl) rfl (by rw [htask]; rfl)
  | answer i whom attempt task htask hplain =>
    exact h.setPlain (by rw [htask]; rfl) (by rw [htask]; rfl) (by rw [htask]; exact id) hplain
  | lead i whom htask =>
    have hset : Viewed (s.setTask i (.connecting whom s.nextAttempt)) :=
      h.setUncopied (by rw [htask]; rfl) (by rw [htask]; rfl) rfl (by rw [htask]; rfl)
    exact hset.congr rfl rfl rfl rfl rfl rfl
  | connected i whom attempt htask => exact h.connected hled htask
  | connectFailed i error whom attempt htask =>
    have hset : Viewed (s.setTask i (.failed whom attempt error)) :=
      h.setUncopied (by rw [htask]; rfl) (by rw [htask]; rfl) rfl (by rw [htask]; rfl)
    exact hset.congr rfl rfl rfl rfl rfl rfl
  | insertHandle i whom attempt connection htask => exact h.insertHandle hled htraced htask
  | insertClient i whom attempt connection htask =>
    refine h.insertClient hled htask fun j hj => ?_
    cases hjt : s.tasks j with
    | shuttingDown manager => exact hm.2 whom attempt connection htask j manager hjt
    | _ =>
      rw [hjt] at hj
      exact hj
  | clearError i whom attempt htask =>
    have hset : Viewed (s.setTask i (.finishing whom attempt (.ok true))) :=
      h.setUncopied (by rw [htask]; rfl) (by rw [htask]; rfl) rfl (by rw [htask]; rfl)
    exact hset.congr rfl rfl rfl rfl rfl rfl
  | insertError i whom attempt error htask =>
    have hset : Viewed (s.setTask i (.finishing whom attempt (.error error))) :=
      h.setUncopied (by rw [htask]; rfl) (by rw [htask]; rfl) rfl (by rw [htask]; rfl)
    exact hset.congr rfl rfl rfl rfl rfl rfl
  | removeConnecting i whom attempt answer htask =>
    have hset : Viewed (s.setTask i (.notifying whom attempt answer)) :=
      h.setUncopied (by rw [htask]; rfl) (by rw [htask]; rfl) rfl (by rw [htask]; rfl)
    exact hset.congr rfl rfl rfl rfl rfl rfl
  | notify i whom attempt answer htask =>
    have hwake : Viewed (s.wakeAll attempt) :=
      h.of_tasks (fun j => PoolTask.inserts_wake) (fun j => PoolTask.pending_wake)
        (fun j c hj => h.copy j c (by simpa using hj)) fun j => PoolTask.shutting_wake
    have htask' : (s.wakeAll attempt).tasks i = .notifying whom attempt answer := by
      simp [wakeAll, htask, PoolTask.wake]
    exact hwake.setPlain (by rw [htask']; rfl) (by rw [htask']; rfl) (by rw [htask']; exact id)
      PoolTask.plain_ensured
  | acquire i m connection htask hhandles =>
    refine h.setTask (by rw [htask]; rfl) (by rw [htask]; rfl) (fun c hc => ?_) (by rw [htask]; rfl)
    exact hhandles.trans hc
  | store i m connection htask =>
    have hentry : Viewed (s.setEntry m (some connection)) :=
      h.setEntry fun c hc => h.copy i c (by rw [htask]; exact hc)
    exact hentry.setPlain (by change (s.tasks i).inserts = none; rw [htask]; rfl)
      (by change (s.tasks i).pending = none; rw [htask]; rfl)
      (by change ¬ (s.tasks i).Shutting; rw [htask]; exact id) trivial
  | releaseEntry i m htask =>
    have hset : Viewed (s.setTask i (.removing (some m))) :=
      h.setPlain (by rw [htask]; rfl) (by rw [htask]; rfl) (by rw [htask]; exact id) trivial
    have hentry : Viewed ((s.setTask i (.removing (some m))).setEntry m none) :=
      hset.releaseEntry
    exact hentry.congr rfl rfl rfl rfl rfl rfl
  | releaseAll m => exact h.releaseEntry
  | removeHandle i manager htask => exact h.removeHandle htask fun c hc => hm.1 manager c htask hc
  | removeClient i manager htask =>
    have hshutting : (s.tasks i).Shutting := by
      rw [htask]
      trivial
    exact (h.removeClient hshutting).forget rfl hshutting trivial
  | forget i manager htask =>
    have hset : Viewed (s.setTask i .done) :=
      h.setPlain (by rw [htask]; rfl) (by rw [htask]; rfl) (by rw [htask]; exact id) trivial
    cases manager with
    | none => exact hset.congr rfl rfl rfl rfl rfl rfl
    | some m => exact hset.congr rfl rfl rfl rfl rfl rfl

lemma viewed_empty : Viewed empty where
  handle := (by rintro _ ⟨⟩)
  client := (by rintro _ ⟨⟩)
  shutting := (by rintro _ _ ⟨⟩)
  inserts := (by rintro _ _ ⟨⟩)
  pending := (by rintro _ _ ⟨⟩)
  accounted := (by rintro _ ⟨⟩)
  live := (by rintro _ ⟨⟩)
  gone := (by rintro _ ⟨⟩)
  entry := (by rintro _ _ ⟨⟩)
  copy := (by rintro _ _ ⟨⟩)

/-! ### Whole runs -/

/-- Where disconnects keep apart from connects, and from the handles of the managers, the views
agree at rest. -/
theorem agreesAtRest_of_disconnectsApart {ms : List PoolMove}
    (hms : Guarded step DisconnectsApart empty ms) : Always step AgreesAtRest empty ms := by
  have hall : Always step (fun s => (Led s ∧ Traced s) ∧ Viewed s) empty ms := by
    refine hms.always (fun _ _ _ h hm ht => ?_) ⟨⟨led_empty, traced_empty⟩, viewed_empty⟩
    exact ⟨⟨h.1.1.step ht, h.1.2.step h.1.1 ht⟩, h.2.step h.1.1 h.1.2 hm ht⟩
  intro ks ls t hk ht
  exact (hall ks ls t hk ht).2.agreesAtRest

/-- The steps of a manager that connects a server first. -/
def firstConnect (i m : Nat) : List PoolMove :=
  [.connect i (.manager m false), .run i, .run i, .run i, .connected i none, .run i, .run i, .run i,
    .run i, .run i, .run i, .run i]

/-- A manager connects the server and disconnects it. -/
def connectedAlone : List PoolMove :=
  firstConnect 0 0 ++ [.disconnect 1 (some 0), .run 1, .run 1, .run 1, .run 1]

theorem agreesAtRest_of_disconnectsApart_alone :
    (exec step empty connectedAlone).isSome ∧ Always step AgreesAtRest empty connectedAlone := by
  refine ⟨rfl, agreesAtRest_of_disconnectsApart ?_⟩
  refine .cons trivial rfl (.cons ⟨nofun, nofun⟩ rfl (.cons ⟨nofun, nofun⟩ rfl
    (.cons ⟨nofun, nofun⟩ rfl (.cons trivial rfl (.cons ⟨nofun, nofun⟩ rfl (.cons ⟨nofun, ?_⟩ rfl
      (.cons ⟨nofun, nofun⟩ rfl (.cons ⟨nofun, nofun⟩ rfl (.cons ⟨nofun, nofun⟩ rfl
        (.cons ⟨nofun, nofun⟩ rfl (.cons ⟨nofun, nofun⟩ rfl (.cons trivial rfl
          (.cons ⟨nofun, nofun⟩ rfl (.cons ⟨?_, nofun⟩ rfl (.cons ⟨nofun, nofun⟩ rfl
            (.cons ⟨nofun, nofun⟩ rfl trivial))))))))))))))))
  · rintro _ _ _ ⟨⟩ j manager
    rcases j with _ | j <;> exact nofun
  · -- the entry of the manager is gone
    rintro _ _ ⟨⟩ ⟨⟩
    refine ⟨rfl, fun m => ?_, fun j m => ?_⟩
    · rcases m with _ | m <;> exact nofun
    · rcases j with _ | _ | j <;> exact nofun

/-- Two managers have the connection, and one of them disconnects. -/
def disconnectedShared : List PoolMove :=
  firstConnect 0 0 ++ [.connect 1 (.manager 1 false), .run 1, .run 1, .run 1, .run 1,
    .disconnect 2 (some 0), .run 2, .run 2, .run 2, .run 2]

theorem not_agreesAtRest :
    ¬ ∀ ms, (exec step empty ms).isSome → Always step AgreesAtRest empty ms := by
  intro h
  have hrest := h disconnectedShared rfl disconnectedShared [] _ (by simp) rfl
  have hagree := hrest fun i => by rcases i with _ | _ | _ | i <;> trivial
  cases hagree.managers 1 0 rfl

end McpPool

end Jcode
