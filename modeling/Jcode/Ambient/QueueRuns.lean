import Jcode.Ambient.ScheduledQueue

/-!
# Many managers of one queue file

A manager saves in two renames: the old file moves to the backup, the new one into its place. Each
manager writes the queue as it remembers it, so an item stays where the ledger has it as long as
every save starts from what is on disk.
-/

namespace Jcode

open Schedule

/-- One `AmbientManager`: not created, at rest with its copy of the queue, or saving. `moved` says
that the old file is out of the way. -/
inductive ManagerPhase
  | absent
  | idle (items : List ScheduledItem)
  | saving (items : List ScheduledItem) (reply : QueueReply) (moved : Bool)
  deriving DecidableEq

/-- The queue file and its backup, the managers, the clock, and the ledger: the items whose
`schedule` has returned, what the takes have returned and what the cancels have. -/
structure QueueSystem where
  file : Option (List ScheduledItem)
  backup : List ScheduledItem
  manager : Nat → ManagerPhase
  now : DateTime
  scheduled : List ScheduledItem
  taken : List (List ScheduledItem)
  cancelled : List ScheduledItem

/-- `moveOld` and `moveNew` are the renames of a save, `fail` is any error of it. -/
inductive QueueMove
  | tick (elapsed : Nat)
  | new (n : Nat)
  | call (n : Nat) (op : QueueOp)
  | moveOld (n : Nat)
  | moveNew (n : Nat)
  | fail (n : Nat)
  deriving DecidableEq

namespace QueueSystem

variable {s t : QueueSystem} {m : QueueMove} {n k : Nat}

def setManager (s : QueueSystem) (n : Nat) (phase : ManagerPhase) : QueueSystem :=
  { s with manager := Function.update s.manager n phase }

/-- The reply reaches the caller. -/
def returns (s : QueueSystem) : QueueReply → QueueSystem
  | .scheduled item => { s with scheduled := s.scheduled ++ [item] }
  | .cancelled item => { s with cancelled := s.cancelled ++ [item] }
  | .taken ready => { s with taken := s.taken ++ [ready] }

/-- The reply of a call whose save failed: only `cancel` reports it. -/
def returnsUnsaved (s : QueueSystem) : QueueReply → QueueSystem
  | .cancelled _ => s
  | reply => s.returns reply

def step (s : QueueSystem) : QueueMove → Option QueueSystem
  | .tick elapsed => some { s with now := s.now + elapsed }
  | .new n =>
    match s.manager n with
    | .absent => some (s.setManager n (.idle (s.file.getD [])))
    | _ => none
  | .call n op =>
    match s.manager n with
    | .idle items =>
      match op.run s.now items with
      | none => some s
      | some (rest, reply) => some (s.setManager n (.saving rest reply false))
    | _ => none
  | .moveOld n =>
    match s.manager n with
    | .saving items reply false =>
      some { s.setManager n (.saving items reply true) with
        file := none
        backup := s.file.getD s.backup }
    | _ => none
  | .moveNew n =>
    match s.manager n with
    | .saving items reply _ =>
      some { (s.setManager n (.idle items)).returns reply with file := some items }
    | _ => none
  | .fail n =>
    match s.manager n with
    | .saving items reply _ => some ((s.setManager n (.idle items)).returnsUnsaved reply)
    | _ => none

/-- What is on disk: the queue file or, between the renames of a save, the file moved away. -/
def persisted (s : QueueSystem) : List ScheduledItem := s.file.getD s.backup

/-- Every item whose `schedule` returned is in one place: on disk, in what one take returned, or
among the cancelled items. Equal items are counted. -/
def EachInOnePlace (s : QueueSystem) : Prop :=
  s.scheduled.Perm (s.persisted ++ (s.taken.flatten ++ s.cancelled))

def Saving (s : QueueSystem) (n : Nat) : Prop :=
  ∃ items reply moved, s.manager n = .saving items reply moved

/-- A call that changes the queue finds in memory what is on disk while no manager is saving, and
no save fails, except that of a `cancel` which has not moved the old file. -/
def SavesCurrent (s : QueueSystem) : QueueMove → Prop
  | .call n op => ∀ items, s.manager n = .idle items → (op.run s.now items).isSome →
      items = s.persisted ∧ ∀ k, ¬ s.Saving k
  | .fail n => ∀ items reply moved, s.manager n = .saving items reply moved →
      moved = false ∧ ∃ item, reply = .cancelled item
  | _ => True

/-! ### The ledger while a manager saves -/

/-- The ledger is balanced, one manager at most is saving, and what it saves is what is on disk up
to its reply. -/
structure Balanced (s : QueueSystem) : Prop where
  ledger : s.EachInOnePlace
  one : ∀ n k, s.Saving n → s.Saving k → n = k
  change : ∀ n items reply moved, s.manager n = .saving items reply moved →
    (s.persisted ++ reply.added).Perm (items ++ reply.removed)

variable {items rest : List ScheduledItem} {reply : QueueReply} {moved : Bool}
  {phase : ManagerPhase}

lemma saving_of (h : s.manager n = .saving items reply moved) : s.Saving n := ⟨_, _, _, h⟩

lemma saving_setManager_of_ne (h : k ≠ n) : (s.setManager n phase).Saving k ↔ s.Saving k := by
  simp [Saving, setManager, h]

lemma not_saving_setManager_idle : ¬ (s.setManager n (.idle items)).Saving n := by
  simp [Saving, setManager]

lemma Saving.of_idle (h : (s.setManager n (.idle items)).Saving k) : k ≠ n ∧ s.Saving k := by
  by_cases hk : k = n
  · subst hk
    exact absurd h not_saving_setManager_idle
  · exact ⟨hk, (saving_setManager_of_ne hk).mp h⟩

/-- A manager that is at rest afterwards leaves the others as they are. -/
lemma Balanced.of_idle (h : Balanced s) (hfile : t.persisted = s.persisted)
    (hmanager : t.manager = (s.setManager n (.idle items)).manager) (hledger : t.EachInOnePlace) :
    Balanced t := by
  have hsaving {k : Nat} (hk : t.Saving k) : k ≠ n ∧ s.Saving k := by
    simp only [Saving, hmanager] at hk
    exact Saving.of_idle hk
  refine ⟨hledger, fun k l hk hl => h.one k l (hsaving hk).2 (hsaving hl).2, ?_⟩
  intro k items' reply moved hk
  have hne : k ≠ n := (hsaving (saving_of hk)).1
  simp only [hmanager, setManager, Function.update_of_ne hne] at hk
  rw [hfile]
  exact h.change k items' reply moved hk

/-- A call starts its save. -/
lemma Balanced.call (h : Balanced s) (hnone : ∀ k, ¬ s.Saving k)
    (hchange : (s.persisted ++ reply.added).Perm (rest ++ reply.removed)) :
    Balanced (s.setManager n (.saving rest reply false)) := by
  have hsaving {k : Nat} (hk : (s.setManager n (.saving rest reply false)).Saving k) : k = n := by
    by_contra hne
    exact hnone k ((saving_setManager_of_ne hne).mp hk)
  refine ⟨h.ledger, fun k l hk hl => (hsaving hk).trans (hsaving hl).symm, ?_⟩
  intro k items' reply' moved' hk
  cases hsaving (saving_of hk)
  simp only [setManager, Function.update_self, ManagerPhase.saving.injEq] at hk
  obtain ⟨rfl, rfl, rfl⟩ := hk
  exact hchange

/-- The old file moves away, and stays on disk. -/
lemma Balanced.moveOld (h : Balanced s) (hn : s.manager n = .saving items reply false) :
    Balanced { s.setManager n (.saving items reply true) with
      file := none
      backup := s.file.getD s.backup } := by
  have hsaving (k : Nat) : (s.setManager n (.saving items reply true)).Saving k → s.Saving k := by
    intro hk
    by_cases hne : k = n
    · exact hne ▸ saving_of hn
    · exact (saving_setManager_of_ne hne).mp hk
  refine ⟨h.ledger, fun k l hk hl => h.one k l (hsaving k hk) (hsaving l hl), ?_⟩
  intro k items' reply' moved' hk
  by_cases hne : k = n
  · subst hne
    simp only [setManager, Function.update_self, ManagerPhase.saving.injEq] at hk
    obtain ⟨rfl, rfl, -⟩ := hk
    exact h.change k _ _ _ hn
  · simp only [setManager, Function.update_of_ne hne] at hk
    exact h.change k _ _ _ hk

/-- The new file is in place, and the reply is in the ledger. -/
lemma Balanced.moveNew (h : Balanced s) (hn : s.manager n = .saving items reply moved) :
    Balanced { (s.setManager n (.idle items)).returns reply with file := some items } := by
  have hledger := List.perm_iff_count.mp h.ledger
  have hchange := List.perm_iff_count.mp (h.change n items reply moved hn)
  have hsaving {k : Nat} (hk : (s.setManager n (.idle items)).Saving k) : False := by
    obtain ⟨hne, hk⟩ := Saving.of_idle hk
    exact hne (h.one k n hk (saving_of hn))
  have hmanager : ((s.setManager n (.idle items)).returns reply).manager =
      (s.setManager n (.idle items)).manager := by cases reply <;> rfl
  refine ⟨List.perm_iff_count.mpr fun x => ?_, fun k l hk _ => ?_, fun k _ _ _ hk => ?_⟩
  · have hledger := hledger x
    have hchange := hchange x
    cases reply <;>
      simp only [persisted, QueueReply.added, QueueReply.removed, returns, setManager,
        Option.getD_some, List.flatten_append, List.flatten_cons, List.flatten_nil,
        List.append_nil, List.count_append] at hledger hchange ⊢ <;>
      omega
  · simp only [Saving, hmanager] at hk
    exact (hsaving hk).elim
  · simp only [hmanager] at hk
    exact (hsaving (saving_of hk)).elim

lemma Balanced.step (h : Balanced s) (hm : s.SavesCurrent m) (ht : s.step m = some t) :
    Balanced t := by
  cases m with
  | tick elapsed =>
    cases ht
    exact ⟨h.ledger, h.one, h.change⟩
  | new n =>
    cases hn : s.manager n with
    | absent =>
      simp only [QueueSystem.step, hn, Option.some.injEq] at ht
      subst ht
      exact h.of_idle rfl rfl h.ledger
    | idle | saving => simp [QueueSystem.step, hn] at ht
  | call n op =>
    cases hn : s.manager n with
    | idle items =>
      cases hrun : op.run s.now items with
      | none =>
        simp only [QueueSystem.step, hn, hrun, Option.some.injEq] at ht
        exact ht ▸ h
      | some result =>
        obtain ⟨rest, reply⟩ := result
        simp only [QueueSystem.step, hn, hrun, Option.some.injEq] at ht
        subst ht
        obtain ⟨rfl, hnone⟩ := hm items hn (by simp [hrun])
        exact h.call hnone (QueueOp.perm_run hrun)
    | absent | saving => simp [QueueSystem.step, hn] at ht
  | moveOld n =>
    cases hn : s.manager n with
    | saving items reply moved =>
      cases moved with
      | false =>
        simp only [QueueSystem.step, hn, Option.some.injEq] at ht
        subst ht
        exact h.moveOld hn
      | true => simp [QueueSystem.step, hn] at ht
    | absent | idle => simp [QueueSystem.step, hn] at ht
  | moveNew n =>
    cases hn : s.manager n with
    | saving items reply moved =>
      simp only [QueueSystem.step, hn, Option.some.injEq] at ht
      subst ht
      exact h.moveNew hn
    | absent | idle => simp [QueueSystem.step, hn] at ht
  | fail n =>
    cases hn : s.manager n with
    | saving items reply moved =>
      simp only [QueueSystem.step, hn, Option.some.injEq] at ht
      subst ht
      obtain ⟨-, item, rfl⟩ := hm items reply moved hn
      exact h.of_idle rfl rfl h.ledger
    | absent | idle => simp [QueueSystem.step, hn] at ht

/-! ### Whole runs -/

/-- No manager yet. The items on disk are all there are; without a file there are none. -/
structure AtStart (s : QueueSystem) : Prop where
  manager : ∀ n, s.manager n = .absent
  scheduled : s.scheduled = s.file.getD []
  backup : s.file = none → s.backup = []
  taken : s.taken = []
  cancelled : s.cancelled = []

lemma AtStart.balanced (h : AtStart s) : Balanced s := by
  refine ⟨?_, fun n _ ⟨_, _, _, hn⟩ => ?_, fun n _ _ _ hn => ?_⟩
  · have hpersisted : s.persisted = s.scheduled := by
      rw [h.scheduled, persisted]
      cases hfile : s.file with
      | none => simp [h.backup hfile]
      | some items => rfl
    simp [EachInOnePlace, hpersisted, h.taken, h.cancelled]
  · cases (h.manager n).symm.trans hn
  · cases (h.manager n).symm.trans hn

/-- Where each save starts from what is on disk and succeeds, every item that was scheduled is at
all times on disk, or one take returned it, or a cancel did. -/
theorem eachInOnePlace_of_savesCurrent {ms : List QueueMove} (hs : s.AtStart)
    (hms : Guarded step SavesCurrent s ms) : Always step EachInOnePlace s ms := by
  have hI : Always step Balanced s ms :=
    hms.always (fun _ _ _ h hm ht => h.step hm ht) hs.balanced
  intro ks ls t hk ht
  exact (hI ks ls t hk ht).ledger

/-- Nothing has been saved, and the clock is at 0. -/
def emptyQueue : QueueSystem := ⟨none, [], fun _ => .absent, 0, [], [], []⟩

/-- A reminder that is due at once. -/
def reminder : ScheduleRequest :=
  ⟨some 0, none, "stretch", .normal, .ambient, "session", none, none, [], none, none⟩

/-- One manager schedules the reminder, and another one, created later, takes it. -/
def scheduledAndTaken : List QueueMove :=
  [.new 0, .call 0 (.schedule reminder 7), .moveNew 0, .tick 1, .new 1, .call 1 .takeReadyItems,
    .moveOld 1, .moveNew 1]

theorem eachInOnePlace_of_savesCurrent_scheduledAndTaken :
    (exec step emptyQueue scheduledAndTaken).isSome ∧
      Always step EachInOnePlace emptyQueue scheduledAndTaken := by
  have hstart : emptyQueue.AtStart := ⟨fun _ => rfl, rfl, fun _ => rfl, rfl, rfl⟩
  have hguarded : Guarded step SavesCurrent emptyQueue scheduledAndTaken := by
    simp [scheduledAndTaken, guarded_cons, step, emptyQueue, setManager, returns, SavesCurrent,
      QueueOp.run, ScheduledQueue.push, ScheduledQueue.popReady, ScheduledQueue.takeWhere,
      ScheduleRequest.item, reminder, minutes, persisted, Saving, Function.update_apply]
    -- no manager is saving when either call is made
    constructor
    · intro k
      split_ifs <;> simp
    · intro k
      split_ifs <;> simp
  refine ⟨?_, eachInOnePlace_of_savesCurrent hstart hguarded⟩
  simp [scheduledAndTaken, exec, step, emptyQueue, setManager, returns, QueueOp.run,
    ScheduledQueue.push, ScheduledQueue.popReady, ScheduledQueue.takeWhere, ScheduleRequest.item,
    reminder, minutes]

/-- Two managers read the empty queue, and both schedule the reminder. -/
def twoSchedules : List QueueMove :=
  [.new 0, .new 1, .call 0 (.schedule reminder 7), .moveNew 0, .call 1 (.schedule reminder 8),
    .moveOld 1, .moveNew 1]

theorem not_eachInOnePlace :
    ¬ ∀ s ms, AtStart s → (exec step s ms).isSome → Always step EachInOnePlace s ms := by
  intro h
  have hstart : emptyQueue.AtStart := ⟨fun _ => rfl, rfl, fun _ => rfl, rfl, rfl⟩
  have hplace := h emptyQueue twoSchedules hstart rfl twoSchedules [] _ rfl rfl
  have hlength : 2 = 1 := hplace.length_eq
  cases hlength

end QueueSystem

end Jcode
