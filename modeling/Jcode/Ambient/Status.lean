import Jcode.Ambient.ScheduledQueue

/-!
# The two copies of the ambient status

The runner keeps an `AmbientState` in memory and the file holds another one. `run_loop` skips an
iteration by the copy in memory when the runner is disabled, and asks the copy in the file whether
it is time to run. A crash keeps only the file.
-/

namespace Jcode

open Schedule

inductive AmbientStatus
  | idle
  | running (detail : String)
  | scheduled (nextWake : DateTime)
  | paused (reason : String)
  | disabled
  deriving DecidableEq

structure AmbientState where
  status : AmbientStatus
  lastRun : Option DateTime
  lastSummary : Option String
  lastCompactions : Option Nat
  lastMemoriesModified : Option Nat
  totalCycles : Nat
  deriving DecidableEq

/-- `AmbientState::default`, which stands for a missing file. -/
def AmbientState.initial : AmbientState := ⟨.idle, none, none, none, none, 0⟩

inductive CycleStatus
  | complete
  | interrupted
  | incomplete
  deriving DecidableEq

structure AmbientCycleResult where
  summary : String
  memoriesModified : Nat
  compactions : Nat
  nextSchedule : Option ScheduleRequest
  endedAt : DateTime
  status : CycleStatus
  deriving DecidableEq

/-- The status after a cycle. -/
def AmbientCycleResult.nextStatus (result : AmbientCycleResult) (now : DateTime) : AmbientStatus :=
  match result.status with
  | .complete =>
    match result.nextSchedule with
    | some request =>
      .scheduled (request.wakeAt.getD (now + minutes (request.wakeInMinutes.getD 30)))
    | none => .idle
  | .interrupted | .incomplete => .idle

def AmbientState.recordCycle (state : AmbientState) (result : AmbientCycleResult)
    (now : DateTime) : AmbientState where
  status := result.nextStatus now
  lastRun := some result.endedAt
  lastSummary := some result.summary
  lastCompactions := some result.compactions
  lastMemoriesModified := some result.memoriesModified
  totalCycles := state.totalCycles + 1

/-- `AmbientManager::should_run`. -/
def AmbientStatus.shouldRun (enabled : Bool) (now : DateTime) : AmbientStatus → Bool
  | .idle => enabled
  | .scheduled nextWake => enabled && decide (nextWake ≤ now)
  | .disabled | .paused _ | .running _ => false

/-! ### The runner -/

/-- Where `run_loop` is: before it looks at the status, about to pause, about to ask the file,
about to take the lock, before the first mark of a cycle, in a cycle, between the two records of
its result, after it, or asleep. -/
inductive LoopPhase
  | off
  | top
  | pausing
  | deciding (allowed : Bool)
  | acquiring
  | starting
  | cycle
  | recorded (result : AmbientCycleResult)
  | ended
  | sleeping
  deriving DecidableEq

/-- The mark of a running cycle is set. -/
def LoopPhase.InCycle : LoopPhase → Prop
  | .cycle | .recorded _ => True
  | _ => False

/-- No cycle is in progress or has been decided on. -/
def LoopPhase.Waits : LoopPhase → Prop
  | .off | .top | .sleeping | .deciding false => True
  | _ => False

/-- The process with its runner, and the state file. `loaded` is what `end_ambient_cycle` has read
of the file and not yet written back. `triggered` and `stopped` remember the calls that nothing has
answered yet: an idle or scheduled runner was triggered, and the runner was stopped. -/
structure AmbientRunner where
  enabled : Bool
  pauseOnActiveSession : Bool
  alive : Bool
  memory : AmbientState
  file : Option AmbientState
  loop : LoopPhase
  loaded : Option AmbientState
  triggered : Bool
  stopped : Bool
  deriving DecidableEq

/-- The flags say whether a load or a save succeeds; `directives` whether some are pending. -/
inductive RunnerMove
  | restart (loads : Bool)
  | crash
  | runLoop
  | trigger
  | stop (saved : Bool)
  | start (saved : Bool)
  | readState (sessionActive : Bool)
  | pause
  | decide (now : DateTime) (directives loads : Bool)
  | acquire (acquired : Bool)
  | setRunningDetail (detail : String) (saved : Bool)
  | endCycleLoad (loads : Bool)
  | endCycleSave (now : DateTime) (summary : String) (memoriesModified compactions : Nat)
      (saved : Bool)
  | cycleOk (result : AmbientCycleResult) (now : DateTime) (recorded : Bool)
  | recordCycle (now : DateTime) (saved : Bool)
  | cycleErr (saved : Bool)
  | reschedule (nextWake : DateTime) (saved : Bool)
  | wake
  deriving DecidableEq

namespace AmbientRunner

variable {s t : AmbientRunner} {m : RunnerMove}

/-- `AmbientState::load`. -/
def persisted (s : AmbientRunner) : AmbientState := s.file.getD .initial

def setStatus (s : AmbientRunner) (status : AmbientStatus) : AmbientRunner :=
  { s with memory := { s.memory with status := status } }

/-- `AmbientState::save` of the copy in memory, whose error is ignored throughout. -/
def save (s : AmbientRunner) (saved : Bool) : AmbientRunner :=
  if saved then { s with file := some s.memory } else s

/-- `ambient_allowed`. -/
def ambientAllowed (s : AmbientRunner) : Bool := s.enabled && s.memory.status != .disabled

/-- `should_pause`. -/
def pauses (s : AmbientRunner) (sessionActive : Bool) : Bool :=
  s.ambientAllowed && s.pauseOnActiveSession && sessionActive

/-- The `should_run` of `run_loop`: whether an iteration may go on to a cycle. -/
def runs (s : AmbientRunner) (allowed : Bool) (now : DateTime) (directives : Bool) : Bool :=
  allowed && (s.persisted.status.shouldRun s.enabled now || directives)

def step (s : AmbientRunner) : RunnerMove → Option AmbientRunner
  | .restart loads =>
    if s.alive then none
    else some { s with
      alive := true
      memory := if loads then s.persisted else .initial
      loop := .off
      loaded := none
      triggered := false }
  | .crash =>
    if s.alive then
      some { s with alive := false, loop := .off, loaded := none, triggered := false }
    else none
  | .runLoop => if s.alive ∧ s.loop = .off then some { s with loop := .top } else none
  | .trigger =>
    if s.alive then
      match s.memory.status with
      | .scheduled _ | .idle => some { s.setStatus .idle with triggered := true }
      | _ => some s
    else none
  | .stop saved =>
    if s.alive then
      some { (s.setStatus .disabled).save saved with triggered := false, stopped := true }
    else none
  -- `running` stays set from the first iteration on, and then `start` does nothing
  | .start saved =>
    if s.alive then
      if s.loop = .off then
        some { (s.setStatus .idle).save saved with loop := .top, stopped := false }
      else some s
    else none
  | .readState sessionActive =>
    if s.loop = .top then
      some { s with
        loop := if s.pauses sessionActive then .pausing else .deciding s.ambientAllowed }
    else none
  | .pause =>
    if s.loop = .pausing then
      some { s.setStatus (.paused "user session active") with loop := .sleeping }
    else none
  | .decide now directives loads =>
    match s.loop with
    | .deciding allowed =>
      some { s with
        loop := if loads && s.runs allowed now directives then .acquiring else .sleeping
        triggered := false }
    | _ => none
  | .acquire acquired =>
    if s.loop = .acquiring then some { s with loop := if acquired then .starting else .sleeping }
    else none
  | .setRunningDetail detail saved =>
    if s.loop = .starting ∨ s.loop = .cycle then
      some { (s.setStatus (.running detail)).save saved with loop := .cycle, triggered := false }
    else none
  | .endCycleLoad loads =>
    if s.loop = .cycle ∧ loads then some { s with loaded := some s.persisted } else none
  | .endCycleSave now summary memoriesModified compactions saved =>
    match s.loaded with
    | some state =>
      let state : AmbientState :=
        { state with
          lastRun := some now
          lastSummary := some summary
          lastCompactions := some compactions
          lastMemoriesModified := some memoriesModified
          totalCycles := state.totalCycles + 1 }
      some { s with loaded := none, file := if saved then some state else s.file }
    | none => none
  | .cycleOk result now recorded =>
    if s.loop = .cycle then
      some { s with
        loop := .recorded result
        loaded := none
        file := if recorded then some (s.persisted.recordCycle result now) else s.file }
    else none
  | .recordCycle now saved =>
    match s.loop with
    | .recorded result =>
      some { ({ s with memory := s.memory.recordCycle result now }).save saved with loop := .ended }
    | _ => none
  | .cycleErr saved =>
    if s.loop = .cycle then
      some { (s.setStatus .idle).save saved with loop := .ended, loaded := none }
    else none
  | .reschedule nextWake saved =>
    if s.loop = .ended then
      match s.memory.status with
      | .running _ | .idle =>
        some { (s.setStatus (.scheduled nextWake)).save saved with loop := .sleeping }
      | _ => some { s with loop := .sleeping }
    else none
  | .wake => if s.loop = .sleeping then some { s with loop := .top } else none

/-- Where an iteration asks the file, the file has the status that the runner has; a triggered
runner may go on to a cycle, and a stopped one may not. Without a process, the file does not say
that a cycle is running. -/
structure Consulted (s : AmbientRunner) : Prop where
  agrees : ∀ allowed, s.loop = .deciding allowed → s.persisted.status = s.memory.status
  triggered : ∀ allowed now directives, s.loop = .deciding allowed → s.enabled →
    s.triggered → s.runs allowed now directives
  stopped : ∀ allowed now directives, s.loop = .deciding allowed →
    s.stopped → ¬ s.runs allowed now directives
  crashed : s.alive = false → ∀ detail, s.persisted.status ≠ .running detail

/-- Loads and saves succeed; a crash comes outside of a cycle, `trigger` when no wake is scheduled
and none is about to be, `stop` not between an iteration's look at the status and the end of its
cycle; no iteration pauses; and `end_ambient_cycle` writes back the status that the file has. -/
def KeepsAgreement (s : AmbientRunner) : RunnerMove → Prop
  | .restart loads => loads
  | .crash => ∀ detail, s.persisted.status ≠ .running detail
  | .trigger => (∀ nextWake, s.memory.status ≠ .scheduled nextWake) ∧
      (s.memory.status = .idle → s.loop ≠ .ended)
  | .stop saved =>
    saved ∧ s.loop.Waits
  | .start saved => s.loop = .off → saved
  | .readState sessionActive => ¬ s.pauses sessionActive
  | .setRunningDetail _ saved | .recordCycle _ saved | .cycleErr saved | .reschedule _ saved =>
    saved
  | .endCycleSave _ _ _ _ _ => ∀ state, s.loaded = some state → state.status = s.persisted.status
  | _ => True

/-! ### One status -/

attribute [local simp] LoopPhase.InCycle LoopPhase.Waits

/-- The two copies agree while the process lives, but for the time between the two records of a
result. -/
structure InStep (s : AmbientRunner) : Prop where
  off : s.alive = false → s.loop = .off
  agrees : s.alive = true → (∀ result, s.loop ≠ .recorded result) →
    s.persisted.status = s.memory.status
  allowed : ∀ allowed, s.loop = .deciding allowed → allowed = s.ambientAllowed
  pausing : s.loop ≠ .pausing
  running : s.loop.InCycle → ∃ detail, s.memory.status = .running detail
  triggered : s.triggered = true → s.memory.status = .idle ∧ s.loop ≠ .ended
  stopped : s.stopped = true → s.persisted.status = .disabled ∧ s.loop.Waits
  crashed : s.alive = false → ∀ detail, s.persisted.status ≠ .running detail

variable {status : AmbientStatus} {phase : LoopPhase}

@[simp] lemma persisted_save_true : (s.save true).persisted = s.memory := rfl

@[simp] lemma memory_save {saved : Bool} : (s.save saved).memory = s.memory := by
  cases saved <;> rfl

@[simp] lemma alive_save {saved : Bool} : (s.save saved).alive = s.alive := by
  cases saved <;> rfl

@[simp] lemma loop_save {saved : Bool} : (s.save saved).loop = s.loop := by
  cases saved <;> rfl

lemma InStep.alive (h : InStep s) (hloop : s.loop ≠ .off) : s.alive = true := by
  cases halive : s.alive with
  | true => rfl
  | false => exact absurd (h.off halive) hloop

lemma InStep.not_triggered (h : InStep s) (hloop : s.loop.InCycle ∨ s.loop = .ended) :
    s.triggered = false := by
  cases htriggered : s.triggered with
  | false => rfl
  | true =>
    obtain ⟨hidle, hended⟩ := h.triggered htriggered
    rcases hloop with hcycle | hloop
    · obtain ⟨detail, hrunning⟩ := h.running hcycle
      cases hidle.symm.trans hrunning
    · exact absurd hloop hended

lemma InStep.not_stopped (h : InStep s) (hloop : ¬ s.loop.Waits) : s.stopped = false := by
  cases hstopped : s.stopped with
  | false => rfl
  | true => exact absurd (h.stopped hstopped).2 hloop

/-- A triggered runner may run and a stopped one may not. -/
lemma InStep.consulted (h : InStep s) : Consulted s := by
  have hagrees {allowed : Bool} (hloop : s.loop = .deciding allowed) :
      s.persisted.status = s.memory.status := by
    refine h.agrees (h.alive ?_) (fun result hrecorded => ?_)
    · rw [hloop]
      simp
    · cases hloop.symm.trans hrecorded
  refine ⟨fun allowed hloop => hagrees hloop, fun allowed now directives hloop henabled ht => ?_,
    fun allowed now directives hloop hstopped => ?_, h.crashed⟩
  · obtain ⟨hidle, -⟩ := h.triggered ht
    simp [runs, h.allowed allowed hloop, ambientAllowed, hagrees hloop, henabled, hidle,
      AmbientStatus.shouldRun]
  · have hdisabled : s.memory.status = .disabled :=
      (hagrees hloop).symm.trans (h.stopped hstopped).1
    simp [runs, h.allowed allowed hloop, ambientAllowed, hdisabled]

/-- What is to be shown of a living process. -/
lemma InStep.of_alive (halive : t.alive = true)
    (hagrees : (∀ result, t.loop ≠ .recorded result) → t.persisted.status = t.memory.status)
    (hallowed : ∀ allowed, t.loop = .deciding allowed → allowed = t.ambientAllowed)
    (hpausing : t.loop ≠ .pausing)
    (hrunning : t.loop.InCycle → ∃ detail, t.memory.status = .running detail)
    (htriggered : t.triggered = true → t.memory.status = .idle ∧ t.loop ≠ .ended)
    (hstopped : t.stopped = true → t.persisted.status = .disabled ∧ t.loop.Waits) : InStep t where
  off hdead := absurd (halive.symm.trans hdead) Bool.noConfusion
  agrees _ := hagrees
  allowed := hallowed
  pausing := hpausing
  running := hrunning
  triggered := htriggered
  stopped := hstopped
  crashed hdead := absurd (halive.symm.trans hdead) Bool.noConfusion

/-- A step of the loop that changes neither copy. -/
lemma InStep.of_loop (h : InStep s) (halive : s.alive = true)
    (hrecorded : ∀ result, s.loop ≠ .recorded result)
    (hallowed : ∀ allowed, phase = .deciding allowed → allowed = s.ambientAllowed)
    (hpausing : phase ≠ .pausing) (hended : phase ≠ .ended) (hcycle : ¬ phase.InCycle)
    (hwaits : s.stopped = true → phase.Waits) : InStep { s with loop := phase } :=
  InStep.of_alive halive (fun _ => h.agrees halive hrecorded) hallowed hpausing
    (fun hphase => absurd hphase hcycle)
    (fun htriggered => ⟨(h.triggered htriggered).1, hended⟩)
    (fun hstopped => ⟨(h.stopped hstopped).1, hwaits hstopped⟩)

lemma InStep.of_not_triggered (h : InStep s) : InStep { s with triggered := false } where
  off := h.off
  agrees := h.agrees
  allowed := h.allowed
  pausing := h.pausing
  running := h.running
  triggered ht := nomatch ht
  stopped := h.stopped
  crashed := h.crashed

/-! ### Each step keeps it -/

lemma InStep.restart (h : InStep s) :
    InStep { s with
      alive := true
      memory := s.persisted
      loop := .off
      loaded := none
      triggered := false } :=
  InStep.of_alive rfl (fun _ => rfl) (fun _ hloop => nomatch hloop) (by rintro ⟨⟩) (by rintro ⟨⟩)
    (fun ht => nomatch ht) (fun hstopped => ⟨(h.stopped hstopped).1, trivial⟩)

lemma InStep.crash (h : InStep s) (hfile : ∀ detail, s.persisted.status ≠ .running detail) :
    InStep { s with alive := false, loop := .off, loaded := none, triggered := false } where
  off _ := rfl
  agrees halive _ := nomatch halive
  allowed _ hloop := nomatch hloop
  pausing := by simp
  running hcycle := hcycle.elim
  triggered ht := nomatch ht
  stopped hstopped := ⟨(h.stopped hstopped).1, trivial⟩
  crashed _ := hfile

lemma InStep.runLoop (h : InStep s) (halive : s.alive = true) (hloop : s.loop = .off) :
    InStep { s with loop := .top } :=
  h.of_loop halive (by simp [hloop]) (by simp) (by simp) (by simp) id fun _ => trivial

lemma InStep.trigger (h : InStep s) (hidle : s.memory.status = .idle) (hended : s.loop ≠ .ended) :
    InStep { s.setStatus .idle with triggered := true } := by
  have hsame : s.setStatus .idle = s := by simp [setStatus, ← hidle]
  rw [hsame]
  exact ⟨h.off, h.agrees, h.allowed, h.pausing, h.running, fun _ => ⟨hidle, hended⟩, h.stopped,
    h.crashed⟩

lemma InStep.stop (h : InStep s) (halive : s.alive = true) (hwaits : s.loop.Waits) :
    InStep { (s.setStatus .disabled).save true with triggered := false, stopped := true } := by
  refine InStep.of_alive halive (fun _ => rfl) (fun allowed hloop => ?_) h.pausing
    (fun hcycle => ?_) (fun ht => nomatch ht) (fun _ => ⟨rfl, hwaits⟩)
  · have hloop : s.loop = .deciding allowed := hloop
    cases allowed with
    | false => simp [ambientAllowed, save, setStatus]
    | true =>
      rw [hloop] at hwaits
      exact hwaits.elim
  · have hcycle : s.loop.InCycle := hcycle
    cases hloop : s.loop with
    | cycle | recorded =>
      rw [hloop] at hwaits
      exact hwaits.elim
    | off | top | pausing | deciding | acquiring | starting | ended | sleeping =>
      rw [hloop] at hcycle
      exact hcycle.elim

lemma InStep.start (halive : s.alive = true) :
    InStep { (s.setStatus .idle).save true with loop := .top, stopped := false } :=
  InStep.of_alive halive (fun _ => rfl) (fun _ hloop => nomatch hloop) (by rintro ⟨⟩) (by rintro ⟨⟩)
    (fun _ => ⟨rfl, by simp⟩) (by simp)

lemma InStep.readState (h : InStep s) (hloop : s.loop = .top) :
    InStep { s with loop := .deciding s.ambientAllowed } := by
  have halive : s.alive = true := h.alive (by simp [hloop])
  have hrecorded (result : AmbientCycleResult) : s.loop ≠ .recorded result := by simp [hloop]
  refine h.of_loop halive hrecorded (fun allowed hdeciding => ?_) (by simp) (by simp) id
    fun hstopped => ?_
  · cases hdeciding
    rfl
  · have hdisabled : s.memory.status = .disabled :=
      (h.agrees halive hrecorded).symm.trans (h.stopped hstopped).1
    have hallowed : s.ambientAllowed = false := by simp [ambientAllowed, hdisabled]
    rw [hallowed]
    trivial

lemma InStep.decide (h : InStep s) {allowed loads directives : Bool} {now : DateTime}
    (hloop : s.loop = .deciding allowed) :
    InStep { s with
      loop := if loads && s.runs allowed now directives then .acquiring else .sleeping
      triggered := false } := by
  have halive : s.alive = true := h.alive (by simp [hloop])
  have hrecorded (result : AmbientCycleResult) : s.loop ≠ .recorded result := by simp [hloop]
  have hdecided : InStep { s with
      loop := if loads && s.runs allowed now directives then .acquiring else .sleeping } := by
    refine h.of_loop halive hrecorded (fun _ hdeciding => ?_) ?_ ?_ ?_ fun hstopped => ?_
    · split_ifs at hdeciding
    · split_ifs <;> simp
    · split_ifs <;> simp
    · split_ifs <;> exact id
    · have hruns : s.runs allowed now directives = false := by
        simpa using h.consulted.stopped allowed now directives hloop hstopped
      simp [hruns]
  exact hdecided.of_not_triggered

lemma InStep.acquire (h : InStep s) {acquired : Bool} (hloop : s.loop = .acquiring) :
    InStep { s with loop := if acquired then .starting else .sleeping } := by
  have hstopped : s.stopped = false := h.not_stopped (by simp [hloop])
  refine h.of_loop (h.alive (by simp [hloop])) (by simp [hloop]) ?_ ?_ ?_ ?_ (by simp [hstopped])
  · cases acquired <;> simp
  · cases acquired <;> simp
  · cases acquired <;> simp
  · cases acquired <;> exact id

lemma InStep.setRunningDetail (h : InStep s) {detail : String}
    (hloop : s.loop = .starting ∨ s.loop = .cycle) :
    InStep { (s.setStatus (.running detail)).save true with
      loop := .cycle, triggered := false } := by
  have halive : s.alive = true := h.alive (by rcases hloop with hloop | hloop <;> simp [hloop])
  have hstopped : s.stopped = false := by
    refine h.not_stopped ?_
    rcases hloop with hloop | hloop <;> simp [hloop]
  refine InStep.of_alive halive (fun _ => rfl) (fun _ hdeciding => (nomatch hdeciding)) (by simp)
    (fun _ => ⟨detail, rfl⟩) (fun ht => nomatch ht) fun ht => ?_
  exact absurd (hstopped.symm.trans ht) Bool.noConfusion

lemma InStep.endCycleSave (h : InStep s) {state : AmbientState} {saved : Bool}
    (hstate : state.status = s.persisted.status) :
    InStep { s with loaded := none, file := if saved then some state else s.file } := by
  have hpersisted : (AmbientRunner.persisted
      { s with loaded := none, file := if saved then some state else s.file }).status =
      s.persisted.status := by
    cases saved with
    | true => exact hstate
    | false => rfl
  exact ⟨h.off, fun halive hloop => hpersisted.trans (h.agrees halive hloop), h.allowed, h.pausing,
    h.running, h.triggered, fun ht => ⟨hpersisted.trans (h.stopped ht).1, (h.stopped ht).2⟩,
    fun hdead detail => hpersisted ▸ h.crashed hdead detail⟩

lemma InStep.cycleOk (h : InStep s) (hloop : s.loop = .cycle) {result : AmbientCycleResult}
    {file : Option AmbientState} :
    InStep { s with loop := .recorded result, loaded := none, file := file } := by
  have htriggered : s.triggered = false :=
    h.not_triggered (.inl (by simp [hloop]))
  have hstopped : s.stopped = false := h.not_stopped (by simp [hloop])
  refine InStep.of_alive (h.alive (by simp [hloop]))
    (fun hrecorded => absurd rfl (hrecorded result))
    (fun _ hdeciding => (nomatch hdeciding)) (by simp)
    (fun _ => h.running (by simp [hloop])) (fun ht => ?_) fun ht => ?_
  · exact absurd (htriggered.symm.trans ht) Bool.noConfusion
  · exact absurd (hstopped.symm.trans ht) Bool.noConfusion

/-- The end of a cycle: what it leaves in memory is saved. -/
lemma InStep.end_cycle (h : InStep s) (hloop : s.loop.InCycle) {memory : AmbientState}
    {loaded : Option AmbientState} :
    InStep { s with memory := memory, file := some memory, loop := .ended, loaded := loaded } := by
  have hwaits : ¬ s.loop.Waits := by
    intro hwaits
    cases hphase : s.loop with
    | cycle | recorded => rw [hphase] at hwaits; exact hwaits
    | off | top | pausing | deciding | acquiring | starting | ended | sleeping =>
      rw [hphase] at hloop
      exact hloop
  have halive : s.alive = true := h.alive fun hoff => hwaits (by simp [hoff])
  have htriggered : s.triggered = false := h.not_triggered (.inl hloop)
  have hstopped : s.stopped = false := h.not_stopped hwaits
  refine InStep.of_alive halive (fun _ => rfl) (fun _ hdeciding => (nomatch hdeciding)) (by simp)
    (by rintro ⟨⟩) (fun ht => ?_) fun ht => ?_
  · exact absurd (htriggered.symm.trans ht) Bool.noConfusion
  · exact absurd (hstopped.symm.trans ht) Bool.noConfusion

lemma InStep.reschedule (h : InStep s) (hloop : s.loop = .ended) {nextWake : DateTime} :
    InStep { (s.setStatus (.scheduled nextWake)).save true with loop := .sleeping } := by
  have htriggered : s.triggered = false := h.not_triggered (.inr hloop)
  have hstopped : s.stopped = false := h.not_stopped (by simp [hloop])
  refine InStep.of_alive (h.alive (by simp [hloop])) (fun _ => rfl)
    (fun _ hdeciding => (nomatch hdeciding)) (by rintro ⟨⟩) (by rintro ⟨⟩) (fun ht => ?_)
    fun ht => ?_
  · exact absurd (htriggered.symm.trans ht) Bool.noConfusion
  · exact absurd (hstopped.symm.trans ht) Bool.noConfusion

lemma InStep.step (h : InStep s) (hm : s.KeepsAgreement m) (ht : s.step m = some t) : InStep t := by
  cases m with
  | restart loads =>
    simp only [AmbientRunner.step, Option.ite_none_left_eq_some, Option.some.injEq] at ht
    obtain ⟨-, rfl⟩ := ht
    cases (show loads = true from hm)
    exact h.restart
  | crash =>
    simp only [AmbientRunner.step, Option.ite_none_right_eq_some, Option.some.injEq] at ht
    obtain ⟨-, rfl⟩ := ht
    exact h.crash hm
  | runLoop =>
    simp only [AmbientRunner.step, Option.ite_none_right_eq_some, Option.some.injEq] at ht
    obtain ⟨⟨halive, hloop⟩, rfl⟩ := ht
    exact h.runLoop halive hloop
  | trigger =>
    simp only [AmbientRunner.step, Option.ite_none_right_eq_some] at ht
    obtain ⟨-, ht⟩ := ht
    cases hstatus : s.memory.status with
    | scheduled nextWake => exact absurd hstatus (hm.1 nextWake)
    | idle =>
      simp only [hstatus, Option.some.injEq] at ht
      exact ht ▸ h.trigger hstatus (hm.2 hstatus)
    | running | paused | disabled =>
      simp only [hstatus, Option.some.injEq] at ht
      exact ht ▸ h
  | stop saved =>
    simp only [AmbientRunner.step, Option.ite_none_right_eq_some, Option.some.injEq] at ht
    obtain ⟨halive, rfl⟩ := ht
    obtain ⟨hsaved, hwaits⟩ := hm
    cases (show saved = true from hsaved)
    exact h.stop halive hwaits
  | start saved =>
    simp only [AmbientRunner.step, Option.ite_none_right_eq_some] at ht
    obtain ⟨halive, ht⟩ := ht
    split_ifs at ht with hloop
    · cases (show saved = true from hm hloop)
      cases ht
      exact InStep.start halive
    · cases ht
      exact h
  | readState sessionActive =>
    simp only [AmbientRunner.step, Option.ite_none_right_eq_some, Option.some.injEq] at ht
    obtain ⟨hloop, rfl⟩ := ht
    rw [if_neg hm]
    exact h.readState hloop
  | pause =>
    simp only [AmbientRunner.step, Option.ite_none_right_eq_some] at ht
    exact absurd ht.1 h.pausing
  | decide now directives loads =>
    cases hloop : s.loop with
    | deciding allowed =>
      simp only [AmbientRunner.step, hloop, Option.some.injEq] at ht
      subst ht
      exact h.decide hloop
    | off | top | pausing | acquiring | starting | cycle | recorded | ended | sleeping =>
      simp [AmbientRunner.step, hloop] at ht
  | acquire acquired =>
    simp only [AmbientRunner.step, Option.ite_none_right_eq_some, Option.some.injEq] at ht
    obtain ⟨hloop, rfl⟩ := ht
    exact h.acquire hloop
  | setRunningDetail detail saved =>
    simp only [AmbientRunner.step, Option.ite_none_right_eq_some, Option.some.injEq] at ht
    obtain ⟨hloop, rfl⟩ := ht
    cases (show saved = true from hm)
    exact h.setRunningDetail hloop
  | endCycleLoad loads =>
    simp only [AmbientRunner.step, Option.ite_none_right_eq_some, Option.some.injEq] at ht
    obtain ⟨-, rfl⟩ := ht
    exact ⟨h.off, h.agrees, h.allowed, h.pausing, h.running, h.triggered, h.stopped, h.crashed⟩
  | endCycleSave now summary memoriesModified compactions saved =>
    cases hloaded : s.loaded with
    | none => simp [AmbientRunner.step, hloaded] at ht
    | some state =>
      simp only [AmbientRunner.step, hloaded, Option.some.injEq] at ht
      subst ht
      exact h.endCycleSave (hm state hloaded)
  | cycleOk result now recorded =>
    simp only [AmbientRunner.step, Option.ite_none_right_eq_some, Option.some.injEq] at ht
    obtain ⟨hloop, rfl⟩ := ht
    exact h.cycleOk hloop
  | recordCycle now saved =>
    cases hloop : s.loop with
    | recorded result =>
      simp only [AmbientRunner.step, hloop, Option.some.injEq] at ht
      subst ht
      cases (show saved = true from hm)
      exact h.end_cycle (by simp [hloop])
    | off | top | pausing | deciding | acquiring | starting | cycle | ended | sleeping =>
      simp [AmbientRunner.step, hloop] at ht
  | cycleErr saved =>
    simp only [AmbientRunner.step, Option.ite_none_right_eq_some, Option.some.injEq] at ht
    obtain ⟨hloop, rfl⟩ := ht
    cases (show saved = true from hm)
    exact h.end_cycle (by simp [hloop])
  | reschedule nextWake saved =>
    simp only [AmbientRunner.step, Option.ite_none_right_eq_some] at ht
    obtain ⟨hloop, ht⟩ := ht
    cases (show saved = true from hm)
    cases hstatus : s.memory.status with
    | running | idle =>
      simp only [hstatus, Option.some.injEq] at ht
      subst ht
      exact h.reschedule hloop
    | scheduled | paused | disabled =>
      simp only [hstatus, Option.some.injEq] at ht
      subst ht
      exact h.of_loop (h.alive (by simp [hloop])) (by simp [hloop]) (by simp) (by simp) (by simp) id
        fun _ => trivial
  | wake =>
    simp only [AmbientRunner.step, Option.ite_none_right_eq_some, Option.some.injEq] at ht
    obtain ⟨hloop, rfl⟩ := ht
    exact h.of_loop (h.alive (by simp [hloop])) (by simp [hloop]) (by simp) (by simp) (by simp) id
      fun _ => trivial

/-! ### Whole runs -/

/-- Before the first process, with a file that no crash has left in a cycle. -/
structure BeforeStart (s : AmbientRunner) : Prop where
  dead : s.alive = false
  off : s.loop = .off
  triggered : s.triggered = false
  stopped : s.stopped = true → s.persisted.status = .disabled
  status : ∀ detail, s.persisted.status ≠ .running detail

lemma BeforeStart.inStep (h : BeforeStart s) : InStep s where
  off _ := h.off
  agrees halive _ := absurd (halive.symm.trans h.dead) Bool.noConfusion
  allowed _ hloop := nomatch h.off.symm.trans hloop
  pausing := by simp [h.off]
  running hcycle := by simp [h.off] at hcycle
  triggered ht := absurd (ht.symm.trans h.triggered) Bool.noConfusion
  stopped ht := ⟨h.stopped ht, by simp [h.off]⟩
  crashed _ := h.status

/-- A new installation. -/
def newRunner : AmbientRunner where
  enabled := true
  pauseOnActiveSession := true
  alive := false
  memory := .initial
  file := none
  loop := .off
  loaded := none
  triggered := false
  stopped := false

/-- The first cycle fails, and the next wake is in half an hour. -/
def firstCycle : List RunnerMove :=
  [.restart true, .runLoop, .readState false, .decide 0 false true, .acquire true,
    .setRunningDetail "starting cycle" true, .cycleErr true, .reschedule (minutes 30) true]

/-- The runner is stopped before the next iteration, which does not run a cycle. -/
def firstCycleStopped : List RunnerMove :=
  firstCycle ++ [.stop true, .wake, .readState false, .decide (minutes 60) true true]

/-- The runner is triggered while its next wake is scheduled, and looks at the status. -/
def firstCycleTriggered : List RunnerMove :=
  firstCycle ++ [.trigger, .wake, .readState false]

end AmbientRunner

end Jcode
