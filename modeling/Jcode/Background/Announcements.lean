import Jcode.Background.LiveTasks

/-!
# The announcement of a completion

A task of the process announces its own end; the end of a detached one is announced by whichever
call finds its process gone. Several calls may find that at once, or again after the result was
overwritten, and none of them looks whether its result has been written.
-/

namespace Jcode

open Schedule

variable {F : Type}

/-- The final file that a future has made, until it is over. -/
def TaskWorker.final : TaskWorker F → Option (TaskStatusFile F)
  | .writing final | .announcing final | .abortedWriting final => some final
  | .absent | .running | .finished _ _ _ | .done | .aborted => none

/-- The task that a call is about to announce. -/
def BackgroundCall.announces : BackgroundCall F → Option String
  | .announcing id _ _ => some id
  | _ => none

/-- A terminal status is on file. -/
def BackgroundTask.Finished (task : BackgroundTask F) : Prop :=
  ∃ file, task.file = some file ∧ file.Finished

/-- A record of a task: what it has announced is on file, and it is one announcement at most. -/
structure Announced (id : String) (task : BackgroundTask F) : Prop where
  unused : task.started = none →
    task.file = none ∧ task.worker = .absent ∧ task.written = [] ∧ task.events = []
  started : ∀ started, task.started = some started →
    started.taskId = id ∧ (task.worker = .absent ↔ started.detached = true)
  file : ∀ started file, task.started = some started → task.file = some file →
    file.SameTask started
  final : ∀ started file, task.started = some started → task.worker.final = some file →
    file.SameTask started
  announcing : ∀ file, task.worker = .announcing file → file ∈ task.written
  events : ∀ event ∈ task.events,
    event.taskId = id ∧ ∃ file ∈ task.written, file.completedEvent = event
  once : task.events.length ≤ 1
  pending : task.worker ≠ .absent → task.worker ≠ .done → task.events = []
  finished : task.worker = .absent → task.events ≠ [] → task.Finished

/-- How the record of a task changes. -/
structure Grows (a b : BackgroundTask F) : Prop where
  started : ∀ started, a.started = some started → b.started = some started
  written : ∀ file ∈ a.written, file ∈ b.written
  finished : ∀ started, a.started = some started → started.detached = true → a.Finished →
    b.Finished

/-- What a call knows of the task that it is about. -/
def CallAnnounced (tasks : String → BackgroundTask F) : BackgroundCall F → Prop
  | .probing id status _ | .signalling id status _ =>
    ∃ started, (tasks id).started = some started ∧ started.detached = true ∧
      status.SameTask started
  | .writing id file next =>
    ∃ started, (tasks id).started = some started ∧ file.SameTask started ∧
      ∀ cancelling, next = .finalized cancelling → started.detached = true ∧ file.Finished
  | .announcing id file _ =>
    ∃ started, (tasks id).started = some started ∧ started.detached = true ∧
      file.SameTask started ∧ file ∈ (tasks id).written ∧ (tasks id).Finished
  | _ => True

namespace BackgroundManager

/-- Every task was announced once at most, with what a file says that was written for it. -/
def AnnouncedOnce (s : BackgroundManager F) : Prop :=
  ∀ id, (s.tasks id).events.length ≤ 1 ∧ ∀ event ∈ (s.tasks id).events,
    event.taskId = id ∧ ∃ file ∈ (s.tasks id).written, file.completedEvent = event

/-- The file of a detached task that says that it runs, or that it has ended where that was not
read, is written while no result is on file; and the writes of what will be announced succeed. -/
def AnnouncesInTime (s : BackgroundManager F) : BackgroundMove F → Prop
  | .write n written => ∀ id file next, s.calls n = .writing id file next → file.detached = true →
      (written = true → ¬ (file.Finished ∧ next.Copies) → s.finished id = false) ∧
        ∀ cancelling, next = .finalized cancelling → written = true
  | .writeFinal id written => ∀ final, (s.tasks id).worker = .writing final → written = true
  | _ => True

end BackgroundManager

/-! ### Records that change -/

variable {a b task : BackgroundTask F} {tasks tasks' : String → BackgroundTask F}
  {calls : Nat → BackgroundCall F} {call : BackgroundCall F} {id : String} {n : Nat}
  {file started : TaskStatusFile F}

lemma Grows.refl (a : BackgroundTask F) : Grows a a :=
  ⟨fun _ h => h, fun _ h => h, fun _ _ _ h => h⟩

lemma Grows.of_eq (hstarted : b.started = a.started) (hfile : b.file = a.file)
    (hwritten : b.written = a.written) : Grows a b where
  started := by simp only [hstarted, imp_self, implies_true]
  written := by simp only [hwritten, imp_self, implies_true]
  finished := by simp only [BackgroundTask.Finished, hfile, imp_self, implies_true]

lemma CallAnnounced.mono (hgrows : ∀ id, Grows (tasks id) (tasks' id))
    (h : CallAnnounced tasks call) : CallAnnounced tasks' call := by
  cases call with
  | probing id status cancelling =>
    obtain ⟨started, hstarted, hrest⟩ := h
    exact ⟨started, (hgrows id).started _ hstarted, hrest⟩
  | signalling id status finished =>
    obtain ⟨started, hstarted, hrest⟩ := h
    exact ⟨started, (hgrows id).started _ hstarted, hrest⟩
  | writing id file next =>
    obtain ⟨started, hstarted, hrest⟩ := h
    exact ⟨started, (hgrows id).started _ hstarted, hrest⟩
  | announcing id file cancelling =>
    obtain ⟨started, hstarted, hdetached, hsame, hwritten, hfinished⟩ := h
    exact ⟨started, (hgrows id).started _ hstarted, hdetached, hsame,
      (hgrows id).written _ hwritten, (hgrows id).finished _ hstarted hdetached hfinished⟩
  | idle | updateProgress | updateDelivery | status | cancel | cancelReading | sending => trivial

/-- The future goes on; file, written files and events are as they were. -/
lemma Announced.go_on (h : Announced id a) (hstarted : b.started = a.started)
    (hfile : b.file = a.file) (hwritten : b.written = a.written) (hevents : b.events = a.events)
    (habsent : b.worker = .absent ↔ a.worker = .absent)
    (hdone : a.worker = .done → b.worker = .done)
    (hfinal : ∀ started file, a.started = some started → b.worker.final = some file →
      file.SameTask started)
    (hannouncing : ∀ file, b.worker = .announcing file → file ∈ a.written) : Announced id b where
  unused hnone := by
    obtain ⟨hnofile, hworker, hnowritten, hnoevents⟩ := h.unused (hstarted ▸ hnone)
    exact ⟨hfile.trans hnofile, habsent.mpr hworker, hwritten.trans hnowritten,
      hevents.trans hnoevents⟩
  started started hs := by
    rw [habsent]
    exact h.started started (hstarted ▸ hs)
  file started file hs hf := h.file started file (hstarted ▸ hs) (hfile ▸ hf)
  final started file hs hf := hfinal started file (hstarted ▸ hs) hf
  announcing file hf := by
    rw [hwritten]
    exact hannouncing file hf
  events := by
    rw [hevents, hwritten]
    exact h.events
  once := hevents ▸ h.once
  pending hpresent hrunning := by
    rw [hevents]
    exact h.pending (fun hw => hpresent (habsent.mpr hw)) fun hw => hrunning (hdone hw)
  finished hw he := by
    obtain ⟨file, hf, hfin⟩ := h.finished (habsent.mp hw) (hevents ▸ he)
    exact ⟨file, hfile.trans hf, hfin⟩

/-- Only the delivery flags of the record change, or its place in the table. -/
lemma Announced.of_worker (h : Announced id a) (hstarted : b.started = a.started)
    (hfile : b.file = a.file) (hwritten : b.written = a.written) (hevents : b.events = a.events)
    (hworker : b.worker = a.worker) : Announced id b := by
  refine h.go_on hstarted hfile hwritten hevents ?_ ?_ ?_ ?_
  · rw [hworker]
  · rw [hworker]
    exact fun hdone => hdone
  · rw [hworker]
    exact h.final
  · rw [hworker]
    exact h.announcing

/-- A file is written for a task. -/
lemma Announced.write (h : Announced id a) {written : Bool} (hstarted : a.started = some started)
    (hsame : file.SameTask started)
    (hkeeps : started.detached = true → written = true → a.Finished → file.Finished) :
    Announced id (a.write file written) ∧ Grows a (a.write file written) := by
  cases written with
  | false => exact ⟨h, .refl a⟩
  | true =>
    refine ⟨⟨fun hnone => ?_, h.started, fun other new hs hf => ?_, h.final, fun new hf => ?_,
      fun event he => ?_, h.once, h.pending, fun hw he => ?_⟩, fun _ hs => hs, fun new hf => ?_,
      fun other hs hd hfin => ?_⟩
    · cases hstarted.symm.trans hnone
    · cases hstarted.symm.trans hs
      cases hf
      exact hsame
    · exact List.mem_append_left _ (h.announcing new hf)
    · obtain ⟨hid, new, hnew, heq⟩ := h.events event he
      exact ⟨hid, new, List.mem_append_left _ hnew, heq⟩
    · exact ⟨file, rfl, hkeeps ((h.started started hstarted).2.mp hw) rfl (h.finished hw he)⟩
    · exact List.mem_append_left _ hf
    · cases hstarted.symm.trans hs
      exact ⟨file, rfl, hkeeps hd rfl hfin⟩

/-- The first announcement of a task. -/
lemma Announced.announce (h : Announced id a) (hfile : b.file = a.file)
    (hstarted : b.started = a.started) (hwritten : b.written = a.written)
    (habsent : b.worker = .absent ↔ a.worker = .absent)
    (hover : b.worker = .absent ∧ a.Finished ∨ b.worker = .done) (hfinal : b.worker.final = none)
    (hbegun : a.started = some started) (hsame : file.SameTask started) (hmem : file ∈ a.written)
    (hnone : a.events = []) (hevents : b.events = a.events ++ [file.completedEvent]) :
    Announced id b where
  unused hno := by cases (hstarted.trans hbegun).symm.trans hno
  started started hs := by
    rw [habsent]
    exact h.started started (hstarted ▸ hs)
  file started file hs hf := h.file started file (hstarted ▸ hs) (hfile ▸ hf)
  final _ _ _ hf := by cases hfinal.symm.trans hf
  announcing _ hf := by simp [hf, TaskWorker.final] at hfinal
  events event he := by
    rw [hevents, hnone, List.nil_append, List.mem_singleton] at he
    subst he
    rw [hwritten]
    exact ⟨hsame.taskId.trans (h.started started hbegun).1, file, hmem, rfl⟩
  once := by simp [hevents, hnone]
  pending hpresent hrunning := by
    rcases hover with ⟨hw, -⟩ | hw
    · exact absurd hw hpresent
    · exact absurd hw hrunning
  finished hw _ := by
    rcases hover with ⟨-, other, hother, hfin⟩ | hdone
    · exact ⟨other, hfile.trans hother, hfin⟩
    · cases hw.symm.trans hdone

namespace BackgroundManager

/-! ### The invariant -/

variable {s t : BackgroundManager F} {m : BackgroundMove F}

/-- Every record and every call is as it should be, and a task that a call is about to announce was
not announced, and by no other call will be. -/
structure Announcing (s : BackgroundManager F) : Prop where
  records : Records.Holds Announced (fun tasks _ => CallAnnounced tasks) s.tasks s.calls
  sole : Records.Sole (·.events = []) BackgroundCall.announces s.tasks s.calls

lemma Announcing.announcedOnce (h : Announcing s) : s.AnnouncedOnce :=
  fun id => ⟨(h.records.record id).once, (h.records.record id).events⟩

lemma Announcing.congr (h : Announcing s) (htasks : t.tasks = s.tasks)
    (hcalls : t.calls = s.calls) :
    Announcing t where
  records := by
    rw [htasks, hcalls]
    exact h.records
  sole := by
    rw [htasks, hcalls]
    exact h.sole

lemma Announcing.setTask (h : Announcing s) (htask : Announced id task)
    (hgrows : Grows (s.tasks id) task) (hevents : task.events = (s.tasks id).events) :
    Announcing (s.setTask id task) where
  records := h.records.record_step Grows.refl (fun _ _ _ _ hg => CallAnnounced.mono hg) htask hgrows
  sole := h.sole.record_step hevents.trans

lemma Announcing.setCall (h : Announcing s) (hcall : CallAnnounced s.tasks call)
    (hannounces : call.announces = none) : Announcing (s.setCall n call) where
  records := h.records.user_step hcall
  sole := h.sole.user_step fun i hi => by cases hannounces.symm.trans hi

lemma Announcing.quiet (h : Announcing s) (hcall : call.Quiet) : Announcing (s.setCall n call) := by
  cases call with
  | idle | updateProgress | updateDelivery | status | sending => exact h.setCall trivial rfl
  | cancel | cancelReading | probing | signalling | writing | announcing => exact hcall.elim

lemma Announcing.report (h : Announcing s) {finished result : Bool} :
    Announcing (s.report n id finished result) := by
  have hidle : Announcing (s.setCall n .idle) := h.quiet trivial
  exact hidle.congr rfl rfl

lemma Announcing.afterFinalize (h : Announcing s) (cancelling : Option Bool) :
    Announcing (s.afterFinalize n id cancelling) := by
  cases cancelling with
  | none => exact h.quiet trivial
  | some finished => exact h.report

lemma finished_iff : s.finished id = true ↔ (s.tasks id).Finished := by
  simp [BackgroundManager.finished, BackgroundTask.Finished, Option.any_eq_true]

/-- What is on file began the task. -/
lemma Announcing.sameTask (h : Announcing s) (hfile : (s.tasks id).file = some file) :
    ∃ started, (s.tasks id).started = some started ∧ file.SameTask started := by
  have htask := h.records.record id
  cases hstarted : (s.tasks id).started with
  | none => cases hfile.symm.trans (htask.unused hstarted).1
  | some started => exact ⟨started, rfl, htask.file started file hstarted hfile⟩

/-- A future that is there is there of a task that has begun. -/
lemma Announcing.begun (h : Announcing s) (hworker : (s.tasks id).worker ≠ .absent) :
    ∃ started, (s.tasks id).started = some started := by
  cases hstarted : (s.tasks id).started with
  | none => exact absurd ((h.records.record id).unused hstarted).2.1 hworker
  | some started => exact ⟨started, rfl⟩

/-! ### The steps of a future -/

/-- A task begins. -/
lemma announced_begin {worker : TaskWorker F} {flags : Bool × Bool} {registering : Bool}
    (hworker : worker = .absent ∧ file.detached = true ∨
      worker = .running ∧ file.detached = false) :
    Announced file.taskId { BackgroundTask.unused with
      started := some file, worker := worker, flags := flags, registering := registering } := by
  have hfinal : worker.final = none := by
    rcases hworker with ⟨rfl, -⟩ | ⟨rfl, -⟩ <;> rfl
  refine ⟨by simp, ?_, fun _ _ _ hf => ?_, fun _ _ _ hf => ?_, fun _ hf => ?_, fun _ he => ?_,
    Nat.zero_le 1, fun _ _ => rfl, fun _ he => absurd rfl he⟩
  · rintro _ ⟨⟩
    refine ⟨rfl, ?_⟩
    rcases hworker with ⟨rfl, hdetached⟩ | ⟨rfl, hdetached⟩
    · exact ⟨fun _ => hdetached, fun _ => rfl⟩
    · refine ⟨by simp, fun hd => ?_⟩
      cases hdetached.symm.trans hd
  · cases hf
  · cases hfinal.symm.trans hf
  · rw [show worker = .announcing _ from hf] at hfinal
    cases hfinal
  · cases he

lemma Announcing.begin (h : Announcing s) {worker : TaskWorker F} {written : Bool}
    (hnew : (s.tasks file.taskId).started = none)
    (hworker : worker = .absent ∧ file.detached = true ∨
      worker = .running ∧ file.detached = false) : Announcing (s.begin file worker written) := by
  obtain ⟨-, -, hnowritten, hnoevents⟩ := (h.records.record file.taskId).unused hnew
  refine h.setTask ((announced_begin hworker).write rfl (.refl file) fun _ _ hfin => ?_).1
    ⟨fun _ hs => ?_, fun new hf => ?_, fun _ hs => ?_⟩ ?_
  · obtain ⟨_, ⟨⟩, -⟩ := hfin
  · cases hnew.symm.trans hs
  · rw [hnowritten] at hf
    cases hf
  · cases hnew.symm.trans hs
  · rw [BackgroundTask.events_write]
    exact hnoevents.symm

/-- The future goes on, and has written nothing more. -/
lemma Announcing.go_on (h : Announcing s) (hstarted : task.started = (s.tasks id).started)
    (hfile : task.file = (s.tasks id).file) (hwritten : task.written = (s.tasks id).written)
    (hevents : task.events = (s.tasks id).events)
    (habsent : task.worker = .absent ↔ (s.tasks id).worker = .absent)
    (hdone : (s.tasks id).worker = .done → task.worker = .done)
    (hfinal : ∀ started file, (s.tasks id).started = some started →
      task.worker.final = some file → file.SameTask started)
    (hannouncing : ∀ file, task.worker = .announcing file → file ∈ (s.tasks id).written) :
    Announcing (s.setTask id task) :=
  h.setTask ((h.records.record id).go_on hstarted hfile hwritten hevents habsent hdone hfinal
    hannouncing) (.of_eq hstarted hfile hwritten) hevents

/-- Only the delivery flags of a task change, or its place in the table. -/
lemma Announcing.same_worker (h : Announcing s) (hstarted : task.started = (s.tasks id).started)
    (hfile : task.file = (s.tasks id).file) (hwritten : task.written = (s.tasks id).written)
    (hevents : task.events = (s.tasks id).events) (hworker : task.worker = (s.tasks id).worker) :
    Announcing (s.setTask id task) :=
  h.setTask ((h.records.record id).of_worker hstarted hfile hwritten hevents hworker)
    (.of_eq hstarted hfile hwritten) hevents

lemma Announcing.readPrior (h : Announcing s) {outcome : BackgroundOutcome} {notify wake : Bool}
    {final : TaskStatusFile F} (hworker : (s.tasks id).worker = .finished outcome notify wake)
    (hstarted : (s.tasks id).started = some started) (hsame : final.SameTask started) :
    Announcing (s.setTask id { s.tasks id with worker := .writing final }) := by
  refine h.go_on rfl rfl rfl rfl (by simp [hworker]) (by simp [hworker])
    (fun other file hs hf => ?_)
    (fun file hf => ?_)
  · cases hstarted.symm.trans hs
    cases hf
    exact hsame
  · cases hf

/-- The future, or what was left of it, writes its final file. -/
lemma Announcing.writeFinal (h : Announcing s) {worker : TaskWorker F} {final : TaskStatusFile F}
    {written : Bool} (hfinal : (s.tasks id).worker.final = some final)
    (hdone : (s.tasks id).worker ≠ .done)
    (hworker : worker = .announcing final ∧ written = true ∨ worker = .aborted) :
    Announcing (s.setTask id { (s.tasks id).write final written with worker := worker }) := by
  have htask := h.records.record id
  have hpresent : (s.tasks id).worker ≠ .absent := by
    intro hw
    rw [hw] at hfinal
    cases hfinal
  obtain ⟨started, hstarted⟩ := h.begun hpresent
  have hnot : started.detached ≠ true := fun hd => hpresent ((htask.started _ hstarted).2.mpr hd)
  have hsame := htask.final started final hstarted hfinal
  obtain ⟨hwrite, hgrows⟩ := htask.write hstarted hsame fun hd => absurd hd hnot
  refine h.setTask (hwrite.go_on rfl rfl rfl rfl ?_ ?_ (fun other file hs hf => ?_)
    fun file hf => ?_) ⟨hgrows.started, hgrows.written, hgrows.finished⟩
    BackgroundTask.events_write
  · rw [BackgroundTask.worker_write]
    rcases hworker with ⟨rfl, -⟩ | rfl <;> simp [hpresent]
  · rw [BackgroundTask.worker_write]
    exact fun hw => absurd hw hdone
  · rcases hworker with ⟨rfl, -⟩ | rfl
    · cases hf
      rw [BackgroundTask.started_write] at hs
      exact htask.final other final hs hfinal
    · cases hf
  · rcases hworker with ⟨rfl, rfl⟩ | rfl
    · cases hf
      exact List.mem_append_right _ List.mem_cons_self
    · cases hf

lemma Announcing.publish (h : Announcing s) {final : TaskStatusFile F}
    (hworker : (s.tasks id).worker = .announcing final) :
    Announcing (s.setTask id { s.tasks id with
      worker := .done, events := (s.tasks id).events ++ [final.completedEvent] }) := by
  have htask := h.records.record id
  have hpresent : (s.tasks id).worker ≠ .absent := by simp [hworker]
  obtain ⟨started, hstarted⟩ := h.begun hpresent
  have hsame := htask.final started final hstarted (by rw [hworker]; rfl)
  have hnone := htask.pending (by simp [hworker]) (by simp [hworker])
  have hdone : Announced id { s.tasks id with
      worker := .done, events := (s.tasks id).events ++ [final.completedEvent] } :=
    htask.announce rfl rfl rfl (by simp [hworker]) (.inr rfl) rfl hstarted hsame
      (htask.announcing final hworker) hnone rfl
  refine ⟨h.records.record_step Grows.refl (fun _ _ _ _ hg => CallAnnounced.mono hg) hdone
    (.of_eq rfl rfl rfl), h.sole.record_step_of_unclaimed fun k hk => ?_⟩
  -- only the ends of detached tasks are announced by calls
  cases hcall : s.calls k with
  | announcing other file cancelling =>
    rw [hcall] at hk
    cases hk
    have hannounced := h.records.user k
    rw [hcall] at hannounced
    obtain ⟨began, hbegan, hdetached, -⟩ := hannounced
    have habsent := (htask.started began hbegan).2.mpr hdetached
    cases hworker.symm.trans habsent
  | idle | updateProgress | updateDelivery | status | cancel | cancelReading | probing | signalling
  | writing | sending =>
    rw [hcall] at hk
    cases hk

/-! ### The steps of a call -/

/-- A progress or delivery update writes back the file that it has read. -/
lemma Announcing.copy (h : Announcing s) {status updated : TaskStatusFile F} {next : AfterWrite}
    (hfile : (s.tasks id).file = some status) (hsame : updated.SameTask status)
    (hnext : next.Copies) : Announcing (s.setCall n (.writing id updated next)) := by
  obtain ⟨started, hstarted, hbegan⟩ := h.sameTask hfile
  refine h.setCall ⟨started, hstarted, hsame.trans hbegan, fun cancelling hfinal => ?_⟩ rfl
  rw [hfinal] at hnext
  exact hnext.elim

lemma Announcing.finalize (h : Announcing s) {status : TaskStatusFile F}
    (hfile : (s.tasks id).file = some status) (cancelling : Option Bool) :
    Announcing (s.finalize n id status cancelling) := by
  rw [BackgroundManager.finalize]
  split_ifs with hprobe
  · simp only [TaskStatusFile.needsProbe, Bool.and_eq_true] at hprobe
    obtain ⟨started, hstarted, hbegan⟩ := h.sameTask hfile
    exact h.setCall ⟨started, hstarted, hbegan.detached.symm.trans hprobe.1.2, hbegan⟩ rfl
  · exact h.afterFinalize cancelling

lemma Announcing.probe (h : Announcing s) {status : TaskStatusFile F} {cancelling : Option Bool}
    {exitCode : Option Int} {now : String} (hn : s.calls n = .probing id status cancelling) :
    Announcing (s.setCall n (.writing id
      (status.finish (TaskStatusFile.detachedOutcome exitCode) now) (.finalized cancelling))) := by
  have hcall := h.records.user n
  rw [hn] at hcall
  obtain ⟨started, hstarted, hdetached, hsame⟩ := hcall
  exact h.setCall ⟨started, hstarted, TaskStatusFile.sameTask_finish.trans hsame, fun _ _ =>
    ⟨hdetached, TaskStatusFile.finished_finish TaskStatusFile.detachedOutcome_status_ne⟩⟩ rfl

lemma Announcing.kill (h : Announcing s) {status : TaskStatusFile F} {finished : Bool}
    {now : String} (hn : s.calls n = .signalling id status finished) :
    Announcing (s.setCall n (.writing id (status.finish TaskStatusFile.cancelledOutcome now)
      (.cancelled false finished))) := by
  have hcall := h.records.user n
  rw [hn] at hcall
  obtain ⟨started, hstarted, -, hsame⟩ := hcall
  exact h.setCall ⟨started, hstarted, TaskStatusFile.sameTask_finish.trans hsame, by simp⟩ rfl

/-- The write of a call, in time. -/
lemma Announcing.write (h : Announcing s) {next : AfterWrite} {written : Bool}
    (hn : s.calls n = .writing id file next)
    (hm : file.detached = true → written = true → ¬ (file.Finished ∧ next.Copies) →
      s.finished id = false) :
    Announcing (s.setTask id ((s.tasks id).write file written)) := by
  have hcall := h.records.user n
  rw [hn] at hcall
  obtain ⟨started, hstarted, hsame, -⟩ := hcall
  have hkeeps (hd : started.detached = true) (hw : written = true) (hfin : (s.tasks id).Finished) :
      file.Finished := by
    by_contra hrunning
    have hnot := hm (hsame.detached.trans hd) hw fun hcopy => hrunning hcopy.1
    rw [finished_iff.mpr hfin] at hnot
    cases hnot
  obtain ⟨htask, hgrows⟩ := (h.records.record id).write hstarted hsame hkeeps
  exact h.setTask htask hgrows BackgroundTask.events_write

/-- The first call that has written the end of a detached task is about to announce it. -/
lemma Announcing.writeFinalized (h : Announcing s) {written : Bool} {cancelling : Option Bool}
    (hn : s.calls n = .writing id file (.finalized cancelling))
    (hm : s.AnnouncesInTime (.write n written)) :
    Announcing ((s.setTask id ((s.tasks id).write file written)).setCall n
      (.announcing id file cancelling)) := by
  have hcall := h.records.user n
  rw [hn] at hcall
  obtain ⟨started, hstarted, hsame, hfinal⟩ := hcall
  obtain ⟨hdetached, hfin⟩ := hfinal cancelling rfl
  obtain ⟨hintime, hsucceeds⟩ := hm id file _ hn (hsame.detached.trans hdetached)
  cases hsucceeds cancelling rfl
  have hrunning : ¬ (s.tasks id).Finished := by
    rw [← finished_iff, hintime rfl fun hcopy => hcopy.2]
    exact Bool.false_ne_true
  have htask := h.records.record id
  have habsent := (htask.started started hstarted).2.mpr hdetached
  have hevents : (s.tasks id).events = [] := by
    by_contra he
    exact hrunning (htask.finished habsent he)
  have hnone (k : Nat) : (s.calls k).announces ≠ some id := by
    intro hk
    cases hk' : s.calls k with
    | announcing other last reported =>
      rw [hk'] at hk
      cases hk
      have hannounced := h.records.user k
      rw [hk'] at hannounced
      obtain ⟨-, -, -, -, -, hfinished⟩ := hannounced
      exact hrunning hfinished
    | idle | updateProgress | updateDelivery | status | cancel | cancelReading | probing
    | signalling | writing | sending =>
      rw [hk'] at hk
      cases hk
  have hwrite := h.write hn fun _ hw => hintime hw
  refine ⟨hwrite.records.user_step ⟨started, ?_, hdetached, hsame, ?_, ?_⟩,
    hwrite.sole.claim rfl ?_ hnone⟩
  · simpa [BackgroundManager.setTask] using hstarted
  · simp [BackgroundManager.setTask, BackgroundTask.write]
  · exact ⟨file, by simp [BackgroundManager.setTask, BackgroundTask.write], hfin⟩
  · simpa [BackgroundManager.setTask] using hevents

lemma Announcing.announce (h : Announcing s) {cancelling : Option Bool}
    (hn : s.calls n = .announcing id file cancelling) :
    Announcing ((s.setTask id
      { s.tasks id with events := (s.tasks id).events ++ [file.completedEvent] }).afterFinalize
        n id cancelling) := by
  have hcall := h.records.user n
  rw [hn] at hcall
  obtain ⟨started, hstarted, hdetached, hsame, hmem, hfin⟩ := hcall
  obtain ⟨hnone, -⟩ := h.sole n id (by rw [hn]; rfl)
  have htask := h.records.record id
  have habsent := (htask.started started hstarted).2.mpr hdetached
  have hannounced : Announced id
      { s.tasks id with events := (s.tasks id).events ++ [file.completedEvent] } :=
    htask.announce rfl rfl rfl Iff.rfl (.inl ⟨habsent, hfin⟩) (by simp [habsent, TaskWorker.final])
      hstarted hsame hmem hnone rfl
  have hidle : Announcing (s.setCall n .idle) := h.quiet trivial
  have hevents : Announcing ((s.setCall n .idle).setTask id
      { s.tasks id with events := (s.tasks id).events ++ [file.completedEvent] }) := by
    refine ⟨hidle.records.record_step Grows.refl (fun _ _ _ _ hg => CallAnnounced.mono hg)
      hannounced (.of_eq rfl rfl rfl),
      hidle.sole.record_step_of_unclaimed (h.sole.unclaimed (by rw [hn]; rfl) rfl)⟩
  cases cancelling with
  | none => exact hevents.congr rfl rfl
  | some finished => exact hevents.congr rfl rfl

@[simp] lemma abort_eq_absent {worker : TaskWorker F} :
    worker.abort = .absent ↔ worker = .absent := by
  cases worker <;> simp [TaskWorker.abort]

lemma final_abort {worker : TaskWorker F} (h : worker.abort.final = some file) :
    worker.final = some file := by
  cases worker with
  | writing | abortedWriting => exact h
  | absent | running | finished | announcing | done | aborted => cases h

lemma Announcing.lock (h : Announcing s) {finished : Bool}
    (hstarted : (s.tasks id).started = some started) (hsame : file.SameTask started) :
    Announcing ((s.setTask id
      { s.tasks id with worker := (s.tasks id).worker.abort, cancelled := true }).setCall n
        (.writing id file (.cancelled true finished))) := by
  have htask := h.records.record id
  have habort : Announcing (s.setTask id
      { s.tasks id with worker := (s.tasks id).worker.abort, cancelled := true }) := by
    refine h.go_on rfl rfl rfl rfl abort_eq_absent (fun hdone => ?_) (fun other file hs hf => ?_)
      fun file hf => ?_
    · simp [hdone, TaskWorker.abort]
    · exact htask.final other file hs (final_abort hf)
    · cases hw : (s.tasks id).worker <;> simp [hw, TaskWorker.abort] at hf
  refine habort.setCall ⟨started, ?_, hsame, by simp⟩ rfl
  rwa [tasks_setTask_self]

lemma Announcing.step (h : Announcing s) [BEq F] (hm : s.AnnouncesInTime m)
    (ht : s.step m = some t) : Announcing t := by
  cases effect_of_step ht with
  | begin file worker written hnew _ hworker => exact h.begin hnew hworker
  | register id _ =>
    have hregister : Announcing
        (s.setTask id { s.tasks id with registering := false, returned := true }) :=
      h.same_worker rfl rfl rfl rfl rfl
    exact hregister.congr rfl rfl
  | finish id completion hworker =>
    exact h.go_on rfl rfl rfl rfl (by simp [hworker]) (by simp [hworker])
      (fun _ _ _ hf => by cases hf) fun _ hf => by cases hf
  | readPrior id readable now outcome notify wake started hworker hstarted =>
    exact h.readPrior hworker hstarted TaskStatusFile.sameTask_completion
  | writeFinal id written final hworker =>
    exact h.writeFinal (by rw [hworker]; rfl) (by simp [hworker]) (.inl ⟨rfl, hm final hworker⟩)
  | writeAborted id written final hworker =>
    exact h.writeFinal (by rw [hworker]; rfl) (by simp [hworker]) (.inr rfl)
  | publish id final hworker => exact h.publish hworker
  | quiet n call hcall => exact h.quiet hcall
  | cancel | pass => exact h.setCall trivial rfl
  | copy n id status updated next hfile _ htask hnext => exact h.copy hfile htask hnext
  | finalize n readable now id status _ hfile => exact h.finalize hfile none
  | finalizeCancel n readable now id finished status _ hfile =>
    exact h.finalize hfile (some finished)
  | unread => exact h.report
  | probe n exitCode now id status cancelling hcall => exact h.probe hcall
  | signal n now id status finished hcall =>
    have hprobing := h.records.user n
    rw [hcall] at hprobing
    exact h.setCall hprobing rfl
  | kill n now id status finished hcall => exact h.kill hcall
  | writeCopy n written id file next call hcall _ hquiet =>
    exact (h.write hcall fun hd => (hm id file next hcall hd).1).quiet hquiet
  | writeFinalized n written id file cancelling hcall => exact h.writeFinalized hcall hm
  | writeCancelled n written id file locked finished hcall =>
    have hwrite := h.write hcall fun hd => (hm id file _ hcall hd).1
    have hidle : Announcing ((s.setTask id ((s.tasks id).write file written)).setCall n .idle) :=
      hwrite.quiet trivial
    exact hidle.congr rfl rfl
  | send n id notify wake =>
    have hflags : Announcing (s.setTask id { s.tasks id with flags := (notify, wake) }) :=
      h.same_worker rfl rfl rfl rfl rfl
    exact hflags.quiet trivial
  | announce n id file cancelling hcall => exact h.announce hcall
  | lock n now id finished started _ _ hstarted =>
    exact (h.lock hstarted TaskStatusFile.sameTask_cancellation).congr rfl rfl

/-! ### Whole runs -/

lemma announcing_empty : Announcing (empty : BackgroundManager F) where
  records := by
    refine ⟨fun id => ⟨fun _ => ⟨rfl, rfl, rfl, rfl⟩, ?_, ?_, ?_, ?_, ?_, Nat.zero_le 1,
      fun _ _ => rfl, fun _ he => absurd rfl he⟩, fun _ => trivial⟩
    · rintro _ ⟨⟩
    · rintro _ _ ⟨⟩
    · rintro _ _ ⟨⟩
    · rintro _ ⟨⟩
    · rintro _ ⟨⟩
  sole := by rintro _ _ ⟨⟩

/-- Where every end is written in time, every task is announced once at most, by what is written of
it, and the manager is right about its live tasks exactly while no task of its table has ended. -/
theorem announcedOnce_of_announcesInTime [BEq F] {ms : List (BackgroundMove F)}
    (hms : Guarded step AnnouncesInTime empty ms) :
    Always step (fun s => s.AnnouncedOnce ∧ (s.LiveExact ↔ s.TableCurrent)) empty ms := by
  have hannouncing : Always step Announcing empty ms :=
    hms.always (fun _ _ _ h hm ht => h.step hm ht) announcing_empty
  intro ks ls t hk ht
  have hlisted : Listed t := exec_invariant (fun _ _ _ h ht => h.step ht) listed_empty ht
  exact ⟨(hannouncing ks ls t hk ht).announcedOnce, hlisted.liveExact_iff⟩

/-- A detached task ends and is found so by a call, while another task ends by itself. -/
def twoTasksEnd : List (BackgroundMove Nat) :=
  [.registerDetached "watch" "bash" none "session" "09:00" 100 true false true,
    .spawn "task" "bash" none "session" "09:00" true false true, .register "task",
    .call 0 (.status "watch"), .read 0 true "09:01", .probe 0 (some (some 0)) "09:01",
    .write 0 true, .announce 0, .finish "task" (.spawned (.ok ⟨some 0, none, none⟩)),
    .readPrior "task" true "09:02", .writeFinal "task" true, .publish "task"]

theorem announcedOnce_of_announcesInTime_twoTasks :
    (exec step (empty : BackgroundManager Nat) twoTasksEnd).isSome ∧
      Always step (fun s => s.AnnouncedOnce ∧ (s.LiveExact ↔ s.TableCurrent)) empty
        twoTasksEnd := by
  refine ⟨rfl, announcedOnce_of_announcesInTime ?_⟩
  refine .cons trivial rfl (.cons trivial rfl (.cons trivial rfl (.cons trivial rfl
    (.cons trivial rfl (.cons trivial rfl (.cons ?_ rfl (.cons trivial rfl (.cons trivial rfl
      (.cons trivial rfl (.cons ?_ rfl (.cons trivial rfl trivial)))))))))))
  · rintro _ _ _ ⟨⟩ -
    exact ⟨fun _ _ => by decide, fun _ _ => rfl⟩
  · exact fun _ _ => rfl

/-- Two calls find the process of one detached task gone. -/
def foundTwice : List (BackgroundMove Nat) :=
  [.registerDetached "watch" "bash" none "session" "09:00" 100 true false true,
    .call 0 (.status "watch"), .call 1 (.status "watch"), .read 0 true "09:01",
    .read 1 true "09:01", .probe 0 (some (some 0)) "09:01", .probe 1 (some (some 0)) "09:01",
    .write 0 true, .announce 0, .write 1 true, .announce 1]

/-- Two announcements of one task; and a task that has ended is still called live. -/
theorem not_announcedOnce :
    (¬ ∀ ms, (exec step (empty : BackgroundManager Nat) ms).isSome →
      Always step AnnouncedOnce empty ms) ∧
    ¬ ∀ ms, (exec step (empty : BackgroundManager Nat) ms).isSome →
      Always step LiveExact empty ms := by
  constructor
  · intro h
    have honce := (h foundTwice rfl foundTwice [] _ (by simp) rfl "watch").1
    exact absurd honce (by decide)
  · intro h
    have hexact := h twoTasksEnd rfl twoTasksEnd [] _ (by simp) rfl
    have hlive := (hexact.live rfl "task" rfl).mp rfl
    exact hlive.2.2 rfl

end BackgroundManager

end Jcode
