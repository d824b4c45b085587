import Jcode.Background.Manager

/-!
# What a finished task leaves on file

The result of a task may be written by its own completion, by a call that finds a detached process
gone and by `cancel`; progress and delivery updates copy the result they have read. It stays as it
is if nobody writes over it what was known before, and if `cancel` does not take a finished task
from the table, where its completion has left it.
-/

namespace Jcode

open Schedule

variable {F : Type}

/-- The future of the task still has its result to write. -/
def TaskWorker.Open : TaskWorker F → Prop
  | .running | .finished _ _ _ | .writing _ => True
  | _ => False

/-- A `cancel` that was called when the task had finished. -/
def AfterWrite.Late : AfterWrite → Prop
  | .finalized (some true) | .cancelled _ true => True
  | _ => False

/-- A record of a task: without a result before its future has written it, and with a future that
has something to write only in this process. -/
structure TaskOk (task : BackgroundTask F) : Prop where
  fresh : task.started = none → task.file = none ∧ ¬ task.worker.Open
  started : ∀ started, task.started = some started → task.worker.Open → started.detached = false
  final : ∀ final, task.worker = .writing final → final.detached = false
  detached : ∀ file, task.file = some file → file.detached = true → ¬ task.worker.Open
  pending : ∀ file, task.file = some file → task.worker.Open → ¬ file.Finished
  aborted : ∀ final, task.worker ≠ .abortedWriting final

/-- How the record of a task changes: its result stays. -/
structure Evolves (a b : BackgroundTask F) : Prop where
  started : a.started.isSome → b.started.isSome
  closed : a.started.isSome → ¬ a.worker.Open → ¬ b.worker.Open
  outcome : ∀ file, a.file = some file → file.Finished →
    ∃ other, b.file = some other ∧ other.outcome = file.outcome

/-- What a call knows of the task that it is about. -/
def CallOk (tasks : String → BackgroundTask F) : BackgroundCall F → Prop
  | .probing id _ cancelling =>
    (tasks id).started.isSome ∧ ¬ (tasks id).worker.Open ∧ cancelling ≠ some true
  | .signalling id _ finished =>
    (tasks id).started.isSome ∧ ¬ (tasks id).worker.Open ∧ finished = false
  | .writing id file next =>
    (tasks id).started.isSome ∧ (file.detached = true → ¬ (tasks id).worker.Open) ∧
      (next.Copies → file.Finished →
        ∃ other, (tasks id).file = some other ∧ other.outcome = file.outcome) ∧
      (¬ next.Copies → ¬ (tasks id).worker.Open) ∧ ¬ next.Late
  | .announcing _ _ cancelling => cancelling ≠ some true
  | .cancel id true | .cancelReading id true =>
    ∃ file, (tasks id).file = some file ∧ file.Finished
  | _ => True

namespace BackgroundManager

/-- A `cancel` of a task that had finished writes nothing, and reports so. -/
structure CancelsQuietly (s : BackgroundManager F) : Prop where
  report : ∀ report ∈ s.reports, report.finished = true → report.result = false
  write : ∀ n id file locked, s.calls n ≠ .writing id file (.cancelled locked true)

/-- Throughout the run, the result of a finished task stays on file, and cancels come too late for
it. -/
structure KeepsResults [BEq F] (s : BackgroundManager F) (ms : List (BackgroundMove F)) : Prop where
  outcome : ∀ ks ls js t u, ms = ks ++ (ls ++ js) → exec step s ks = some t →
    exec step t ls = some u → ∀ id file, (t.tasks id).file = some file → file.Finished →
      ∃ other, (u.tasks id).file = some other ∧ other.outcome = file.outcome
  cancel : Always step CancelsQuietly s ms

/-- A file that says that the task runs, and a result that was not read, are written only while no
result is on file; and `cancel` takes a task out of the table before its result is on file or on
its way there. -/
def WritesInTime (s : BackgroundManager F) : BackgroundMove F → Prop
  | .write n written => ∀ id file next, s.calls n = .writing id file next → written = true →
      ¬ (file.Finished ∧ next.Copies) → s.finished id = false
  | .lock n _ => ∀ id finished, s.calls n = .cancel id finished → id ∈ s.table →
      s.finished id = false ∧ ∀ final, (s.tasks id).worker ≠ .writing final
  | _ => True

end BackgroundManager

/-! ### Records that change -/

variable {a b c task : BackgroundTask F} {tasks tasks' : String → BackgroundTask F}
  {call : BackgroundCall F} {id : String} {file : TaskStatusFile F}

lemma Evolves.refl (a : BackgroundTask F) : Evolves a a :=
  ⟨id, fun _ h => h, fun file hfile _ => ⟨file, hfile, rfl⟩⟩

lemma CallOk.mono (hev : ∀ id, Evolves (tasks id) (tasks' id)) (h : CallOk tasks call) :
    CallOk tasks' call := by
  have hfinished {id : String}
      (h : ∃ file, (tasks id).file = some file ∧ file.Finished) :
      ∃ file, (tasks' id).file = some file ∧ file.Finished := by
    obtain ⟨file, hfile, hfin⟩ := h
    obtain ⟨other, hother, houtcome⟩ := (hev id).outcome file hfile hfin
    exact ⟨other, hother, hfin.of_outcome houtcome⟩
  cases call with
  | probing id status cancelling =>
    exact ⟨(hev id).started h.1, (hev id).closed h.1 h.2.1, h.2.2⟩
  | signalling id status finished =>
    exact ⟨(hev id).started h.1, (hev id).closed h.1 h.2.1, h.2.2⟩
  | writing id file next =>
    obtain ⟨hstarted, hdetached, hcopies, hcloses, hlate⟩ := h
    refine ⟨(hev id).started hstarted, fun hd => (hev id).closed hstarted (hdetached hd),
      fun hnext hfin => ?_, fun hnext => (hev id).closed hstarted (hcloses hnext), hlate⟩
    obtain ⟨other, hother, houtcome⟩ := hcopies hnext hfin
    obtain ⟨last, hlast, hsame⟩ := (hev id).outcome other hother (hfin.of_outcome houtcome)
    exact ⟨last, hlast, hsame.trans houtcome⟩
  | announcing id file cancelling => exact h
  | cancel id finished =>
    cases finished with
    | true => exact hfinished h
    | false => trivial
  | cancelReading id finished =>
    cases finished with
    | true => exact hfinished h
    | false => trivial
  | idle | updateProgress | updateDelivery | status | sending => trivial

/-- The future goes on, and the file is as it was. -/
lemma TaskOk.go_on (h : TaskOk a) (hfile : b.file = a.file) (hstarted : b.started = a.started)
    (hopen : b.worker.Open → a.worker.Open)
    (hfinal : ∀ final, b.worker = .writing final → final.detached = false)
    (haborted : ∀ final, b.worker ≠ .abortedWriting final) : TaskOk b ∧ Evolves a b := by
  refine ⟨⟨fun hnone => ?_, fun started hs hb => ?_, hfinal, fun file hf hd hb => ?_,
    fun file hf hb => ?_, haborted⟩, fun hs => hstarted ▸ hs,
    fun _ hclosed hb => hclosed (hopen hb),
    fun file hf _ => ⟨file, hfile.trans hf, rfl⟩⟩
  · obtain ⟨hnofile, hclosed⟩ := h.fresh (hstarted ▸ hnone)
    exact ⟨hfile.trans hnofile, fun hb => hclosed (hopen hb)⟩
  · exact h.started started (hstarted ▸ hs) (hopen hb)
  · exact h.detached file (hfile ▸ hf) hd (hopen hb)
  · exact h.pending file (hfile ▸ hf) (hopen hb)

/-- A future that is over, after its first result. -/
lemma TaskOk.close (h : TaskOk a) {final : TaskStatusFile F} (hopen : a.worker.Open)
    (hstarted : b.started = a.started) (hworker : b.worker = .announcing final) :
    TaskOk b ∧ Evolves a b := by
  have hclosed : ¬ b.worker.Open := by simp [hworker, TaskWorker.Open]
  refine ⟨⟨fun hnone => ?_, fun _ _ hb => absurd hb hclosed, fun final' hfinal => ?_,
    fun _ _ _ => hclosed, fun _ _ hb => absurd hb hclosed, fun final' hfinal => ?_⟩, fun hs => ?_,
    fun _ _ => hclosed, fun file hfile hfin => ?_⟩
  · exact absurd hopen (h.fresh (hstarted ▸ hnone)).2
  · cases hworker.symm.trans hfinal
  · cases hworker.symm.trans hfinal
  · rwa [hstarted]
  · exact absurd hfin (h.pending file hfile hopen)

/-- A file is written for a task. -/
lemma TaskOk.write_file (h : TaskOk a) (hfile : b.file = some file)
    (hstarted : b.started = a.started) (hworker : b.worker = a.worker)
    (hbegun : a.started.isSome) (hdetached : file.detached = true → ¬ a.worker.Open)
    (hpending : a.worker.Open → ¬ file.Finished)
    (houtcome : ∀ old, a.file = some old → old.Finished → file.outcome = old.outcome) :
    TaskOk b ∧ Evolves a b := by
  refine ⟨⟨fun hnone => ?_, ?_, ?_, fun new hnew hd => ?_, fun new hnew hopen => ?_, ?_⟩,
    fun _ => ?_, fun _ => ?_, fun old hold hfin => ?_⟩
  · rw [← hstarted, hnone] at hbegun
    exact absurd hbegun Bool.false_ne_true
  · rw [hstarted, hworker]
    exact h.started
  · rw [hworker]
    exact h.final
  · cases hfile.symm.trans hnew
    rw [hworker]
    exact hdetached hd
  · cases hfile.symm.trans hnew
    rw [hworker] at hopen
    exact hpending hopen
  · rw [hworker]
    exact h.aborted
  · rwa [hstarted]
  · rw [hworker]
    exact id
  · exact ⟨file, hfile, houtcome old hold hfin⟩

/-- A call writes the file of a task. -/
lemma TaskOk.write (h : TaskOk a) {written : Bool} (hbegun : a.started.isSome)
    (hdetached : file.detached = true → ¬ a.worker.Open)
    (hpending : a.worker.Open → ¬ file.Finished)
    (houtcome : written = true → ∀ old, a.file = some old → old.Finished →
      file.outcome = old.outcome) :
    TaskOk (a.write file written) ∧ Evolves a (a.write file written) := by
  cases written with
  | false => exact ⟨h, .refl a⟩
  | true =>
    exact h.write_file rfl BackgroundTask.started_write BackgroundTask.worker_write hbegun hdetached
      hpending (houtcome rfl)

/-- A new task. -/
lemma TaskOk.begin (hstarted : a.started = some file) (hfile : a.file = none)
    (hrunning : file.status = .running)
    (hworker : a.worker = .absent ∨ a.worker = .running ∧ file.detached = false) {written : Bool} :
    TaskOk (a.write file written) := by
  have hdetached (hopen : a.worker.Open) : file.detached = false := by
    rcases hworker with hworker | ⟨-, hdetached⟩
    · rw [hworker] at hopen
      exact hopen.elim
    · exact hdetached
  have htask : TaskOk a := by
    refine ⟨fun hnone => ?_, fun started hs hopen => ?_, fun final hfinal => ?_, fun _ hf => ?_,
      fun _ hf => ?_, fun final hfinal => ?_⟩
    · cases hstarted.symm.trans hnone
    · cases hstarted.symm.trans hs
      exact hdetached hopen
    · rcases hworker with hworker | ⟨hworker, -⟩ <;> cases hworker.symm.trans hfinal
    · cases hfile.symm.trans hf
    · cases hfile.symm.trans hf
    · rcases hworker with hworker | ⟨hworker, -⟩ <;> cases hworker.symm.trans hfinal
  have hbegun : a.started.isSome := by simp [hstarted]
  refine (htask.write hbegun (fun hd hopen => ?_) (fun _ hfin => hfin hrunning)
    fun _ old hold => ?_).1
  · exact absurd (hd.symm.trans (hdetached hopen)) Bool.noConfusion
  · cases hfile.symm.trans hold

lemma TaskOk.started_of_file (h : TaskOk task) (hfile : task.file = some file) :
    task.started.isSome := by
  cases hstarted : task.started with
  | some started => rfl
  | none => cases hfile.symm.trans (h.fresh hstarted).1

namespace BackgroundManager

/-! ### The invariant -/

variable {s t : BackgroundManager F} {m : BackgroundMove F} {n : Nat}

/-- Every record and every call is as it should be, the known results are on file, and no late
`cancel` has reported a success. -/
structure InTime (known : String → BackgroundOutcome → Prop) (s : BackgroundManager F) : Prop where
  records : Records.Holds (fun _ => TaskOk) (fun tasks _ => CallOk tasks) s.tasks s.calls
  known : ∀ id outcome, known id outcome →
    ∃ file, (s.tasks id).file = some file ∧ file.Finished ∧ file.outcome = outcome
  reports : ∀ report ∈ s.reports, report.finished = true → report.result = false

variable {known : String → BackgroundOutcome → Prop}

lemma InTime.cancelsQuietly (h : InTime known s) : CancelsQuietly s where
  report := h.reports
  write n id file locked hn := by
    have hcall := h.records.user n
    rw [hn] at hcall
    exact hcall.2.2.2.2 trivial

lemma InTime.setTask (h : InTime known s) {task : BackgroundTask F}
    (htask : TaskOk task ∧ Evolves (s.tasks id) task) : InTime known (s.setTask id task) where
  records := h.records.record_step Evolves.refl (fun _ _ _ _ hev => CallOk.mono hev) htask.1 htask.2
  known other outcome hknown := by
    obtain ⟨file, hfile, hfin, houtcome⟩ := h.known other outcome hknown
    obtain ⟨new, hnew, hsame⟩ :=
      (Records.rel_update Evolves.refl htask.2 other).outcome file hfile hfin
    exact ⟨new, hnew, hfin.of_outcome hsame, hsame.trans houtcome⟩
  reports := h.reports

lemma InTime.setCall (h : InTime known s) (hcall : CallOk s.tasks call) :
    InTime known (s.setCall n call) where
  records := h.records.user_step hcall
  known := h.known
  reports := h.reports

lemma InTime.congr (h : InTime known s) (htasks : t.tasks = s.tasks) (hcalls : t.calls = s.calls)
    (hreports : t.reports = s.reports) : InTime known t where
  records := by
    rw [htasks, hcalls]
    exact h.records
  known := htasks ▸ h.known
  reports := hreports ▸ h.reports

lemma InTime.report (h : InTime known s) {finished result : Bool}
    (hresult : finished = true → result = false) :
    InTime known (s.report n id finished result) where
  records := h.records.user_step trivial
  known := h.known
  reports := by
    intro report hmem
    rcases List.mem_append.mp hmem with hmem | hmem
    · exact h.reports report hmem
    · cases List.mem_singleton.mp hmem
      exact hresult

lemma InTime.afterFinalize (h : InTime known s) (cancelling : Option Bool) :
    InTime known (s.afterFinalize n id cancelling) := by
  cases cancelling with
  | none => exact h.setCall trivial
  | some finished => exact h.report fun _ => rfl

lemma finished_eq_false (h : s.finished id = false) (hfile : (s.tasks id).file = some file) :
    ¬ file.Finished := by
  simpa [BackgroundManager.finished, hfile] using h

/-! ### The steps of a future -/

lemma InTime.begin (h : InTime known s) {worker : TaskWorker F} {written : Bool}
    (hnew : (s.tasks file.taskId).started = none) (hrunning : file.status = .running)
    (hworker : worker = .absent ∨ worker = .running ∧ file.detached = false) :
    InTime known (s.begin file worker written) := by
  refine h.setTask ⟨TaskOk.begin rfl rfl hrunning hworker, ?_⟩
  have hnofile : (s.tasks file.taskId).file = none := ((h.records.record file.taskId).fresh hnew).1
  refine ⟨fun hs => ?_, fun hs => ?_, fun old hold => ?_⟩
  · simp [hnew] at hs
  · simp [hnew] at hs
  · cases hnofile.symm.trans hold

lemma InTime.finish (h : InTime known s) {outcome : BackgroundOutcome} {notify wake : Bool}
    (hworker : (s.tasks id).worker = .running) :
    InTime known (s.setTask id { s.tasks id with worker := .finished outcome notify wake }) := by
  refine h.setTask ((h.records.record id).go_on rfl rfl (fun _ => ?_) (fun _ hf => ?_)
    fun _ hf => ?_)
  · rw [hworker]
    trivial
  · cases hf
  · cases hf

lemma InTime.readPrior (h : InTime known s) {outcome : BackgroundOutcome} {notify wake : Bool}
    {started : TaskStatusFile F} {prior : Option (TaskStatusFile F)} {now : String}
    (hworker : (s.tasks id).worker = .finished outcome notify wake)
    (hstarted : (s.tasks id).started = some started) :
    InTime known (s.setTask id { s.tasks id with
      worker := .writing (started.completion prior outcome notify wake now) }) := by
  have hopen : (s.tasks id).worker.Open := by simp [hworker, TaskWorker.Open]
  refine h.setTask ((h.records.record id).go_on rfl rfl (fun _ => hopen) (fun final hf => ?_)
    fun _ hf => ?_)
  · cases hf
    rw [TaskStatusFile.detached_completion]
    exact (h.records.record id).started started hstarted hopen
  · cases hf

lemma InTime.writeFinal (h : InTime known s) {final : TaskStatusFile F} {written : Bool}
    (hworker : (s.tasks id).worker = .writing final) :
    InTime known (s.setTask id
      { (s.tasks id).write final written with worker := .announcing final }) := by
  have hopen : (s.tasks id).worker.Open := by simp [hworker, TaskWorker.Open]
  exact h.setTask ((h.records.record id).close hopen BackgroundTask.started_write rfl)

/-- A future that is over stays so. -/
lemma InTime.closed (h : InTime known s) {task : BackgroundTask F}
    (hfile : task.file = (s.tasks id).file) (hstarted : task.started = (s.tasks id).started)
    (hworker : task.worker = .done ∨ task.worker = .aborted ∨ task.worker = (s.tasks id).worker) :
    InTime known (s.setTask id task) := by
  refine h.setTask ((h.records.record id).go_on hfile hstarted (fun hopen => ?_)
    (fun final hf => ?_)
    fun final hf => ?_)
  · rcases hworker with hworker | hworker | hworker
    · rw [hworker] at hopen
      exact hopen.elim
    · rw [hworker] at hopen
      exact hopen.elim
    · rwa [hworker] at hopen
  · rcases hworker with hworker | hworker | hworker
    · cases hworker.symm.trans hf
    · cases hworker.symm.trans hf
    · exact (h.records.record id).final final (hworker.symm.trans hf)
  · rcases hworker with hworker | hworker | hworker
    · cases hworker.symm.trans hf
    · cases hworker.symm.trans hf
    · exact (h.records.record id).aborted final (hworker.symm.trans hf)

/-! ### The steps of a call -/

/-- What a progress or delivery update is about to write is what it has read, up to the rest of
the file. -/
lemma InTime.copy (h : InTime known s) {status updated : TaskStatusFile F} {next : AfterWrite}
    (hfile : (s.tasks id).file = some status) (houtcome : updated.outcome = status.outcome)
    (hsame : updated.SameTask status) (hnext : next.Copies) :
    InTime known (s.setCall n (.writing id updated next)) := by
  have htask := h.records.record id
  refine h.setCall ⟨htask.started_of_file hfile, fun hd => ?_, fun _ _ => ?_,
    fun hno => absurd hnext hno, fun hlate => ?_⟩
  · exact htask.detached status hfile (hsame.detached.symm.trans hd)
  · exact ⟨status, hfile, houtcome.symm⟩
  · cases next <;> first | exact hlate.elim | exact hnext.elim

/-- What was read for a status or cancel call. -/
lemma InTime.finalize (h : InTime known s) {status : TaskStatusFile F} {cancelling : Option Bool}
    (hfile : (s.tasks id).file = some status)
    (hlate : cancelling = some true → status.Finished) :
    InTime known (s.finalize n id status cancelling) := by
  rw [BackgroundManager.finalize]
  split_ifs with hprobe
  · simp only [TaskStatusFile.needsProbe, Bool.and_eq_true, beq_iff_eq] at hprobe
    obtain ⟨⟨hrunning, hdetached⟩, -⟩ := hprobe
    have htask := h.records.record id
    refine h.setCall ⟨htask.started_of_file hfile, htask.detached status hfile hdetached,
      fun hc => hlate hc hrunning⟩
  · exact h.afterFinalize cancelling

/-- The write of a call, in time. -/
lemma InTime.write (h : InTime known s) {next : AfterWrite} {written : Bool}
    (hn : s.calls n = .writing id file next)
    (hm : written = true → ¬ (file.Finished ∧ next.Copies) → s.finished id = false) :
    InTime known (s.setTask id ((s.tasks id).write file written)) := by
  have hcall := h.records.user n
  rw [hn] at hcall
  obtain ⟨hbegun, hdetached, hcopies, hcloses, -⟩ := hcall
  have htask := h.records.record id
  refine h.setTask (htask.write hbegun hdetached (fun hopen hfin => ?_) fun hw old hold hfin => ?_)
  · by_cases hnext : next.Copies
    · obtain ⟨other, hother, houtcome⟩ := hcopies hnext hfin
      exact htask.pending other hother hopen (hfin.of_outcome houtcome)
    · exact hcloses hnext hopen
  · by_cases hcopy : file.Finished ∧ next.Copies
    · obtain ⟨other, hother, houtcome⟩ := hcopies hcopy.2 hcopy.1
      cases hold.symm.trans hother
      exact houtcome.symm
    · exact absurd hfin (finished_eq_false (hm hw hcopy) hold)

lemma InTime.not_late (h : InTime known s) {next : AfterWrite}
    (hn : s.calls n = .writing id file next) : ¬ next.Late := by
  have hcall := h.records.user n
  rw [hn] at hcall
  exact hcall.2.2.2.2

/-- `cancel` takes a task that has not finished out of the table. -/
lemma InTime.lock (h : InTime known s) {finished notify wake : Bool} {started : TaskStatusFile F}
    {now : String} (hn : s.calls n = .cancel id finished)
    (hstarted : (s.tasks id).started = some started) (hfin : s.finished id = false)
    (hworker : ∀ final, (s.tasks id).worker ≠ .writing final) :
    InTime known ((s.setTask id
      { s.tasks id with worker := (s.tasks id).worker.abort, cancelled := true }).setCall n
        (.writing id (started.cancellation notify wake now) (.cancelled true finished))) := by
  have htask := h.records.record id
  have hclosed : ¬ (s.tasks id).worker.abort.Open := by
    cases hw : (s.tasks id).worker with
    | writing final => exact absurd hw (hworker final)
    | absent | running | finished | announcing | done | aborted | abortedWriting =>
      exact fun hopen => hopen
  have hlate : finished = false := by
    cases finished with
    | false => rfl
    | true =>
      have hcall := h.records.user n
      rw [hn] at hcall
      obtain ⟨file, hfile, hf⟩ := hcall
      exact absurd hf (finished_eq_false hfin hfile)
  have haborted (final : TaskStatusFile F) :
      (s.tasks id).worker.abort ≠ .abortedWriting final := by
    cases hw : (s.tasks id).worker with
    | writing final => exact absurd hw (hworker final)
    | abortedWriting final => exact absurd hw (htask.aborted final)
    | absent | running | finished | announcing | done | aborted => rintro ⟨⟩
  refine InTime.setCall (h.setTask (htask.go_on rfl rfl (fun hopen => absurd hopen hclosed)
    (fun final hf => ?_) haborted)) ?_
  · have hopen : (s.tasks id).worker.abort.Open := by
      rw [show (s.tasks id).worker.abort = .writing final from hf]
      trivial
    exact absurd hopen hclosed
  · refine ⟨?_, fun _ => ?_, fun hc => hc.elim, fun _ => ?_, ?_⟩
    · simp [hstarted]
    · simpa using hclosed
    · simpa using hclosed
    · simp [hlate, AfterWrite.Late]

/-- A quiet call is as it should be, whatever the records. -/
lemma callOk_of_quiet (hcall : call.Quiet) : CallOk tasks call := by
  cases call with
  | idle | updateProgress | updateDelivery | status | sending => trivial
  | cancel | cancelReading | probing | signalling | writing | announcing => exact hcall.elim

/-- A `cancel` sees whether the task has finished. -/
lemma InTime.startCancel (h : InTime known s) :
    InTime known (s.setCall n (.cancel id (s.finished id))) := by
  refine h.setCall ?_
  cases hfinished : s.finished id with
  | false => trivial
  | true =>
    obtain ⟨file, hfile, hf⟩ := (Option.any_eq_true _ _).mp hfinished
    exact ⟨file, hfile, of_decide_eq_true hf⟩

lemma InTime.probe (h : InTime known s) {status : TaskStatusFile F} {cancelling : Option Bool}
    {exitCode : Option Int} {now : String} (hn : s.calls n = .probing id status cancelling) :
    InTime known (s.setCall n (.writing id
      (status.finish (TaskStatusFile.detachedOutcome exitCode) now) (.finalized cancelling))) := by
  have hcall := h.records.user n
  rw [hn] at hcall
  obtain ⟨hbegun, hclosed, hlate⟩ := hcall
  refine h.setCall ⟨hbegun, fun _ => hclosed, fun hc => hc.elim, fun _ => hclosed, fun hl => ?_⟩
  cases cancelling with
  | none => exact hl
  | some finished =>
    cases finished with
    | false => exact hl
    | true => exact hlate rfl

lemma InTime.kill (h : InTime known s) {status : TaskStatusFile F} {finished : Bool} {now : String}
    (hn : s.calls n = .signalling id status finished) :
    InTime known (s.setCall n (.writing id (status.finish TaskStatusFile.cancelledOutcome now)
      (.cancelled false finished))) := by
  have hcall := h.records.user n
  rw [hn] at hcall
  obtain ⟨hbegun, hclosed, rfl⟩ := hcall
  exact h.setCall ⟨hbegun, fun _ => hclosed, fun hc => hc.elim, fun _ => hclosed, fun hl => hl⟩

lemma InTime.step (h : InTime known s) [BEq F] (hm : s.WritesInTime m) (ht : s.step m = some t) :
    InTime known t := by
  cases effect_of_step ht with
  | begin file worker written hnew hrunning hworker =>
    exact h.begin hnew hrunning (hworker.imp And.left id)
  | register id _ =>
    have hregister : InTime known
        (s.setTask id { s.tasks id with registering := false, returned := true }) :=
      h.closed rfl rfl (.inr (.inr rfl))
    exact hregister.congr rfl rfl rfl
  | finish id completion hworker => exact h.finish hworker
  | readPrior id readable now outcome notify wake started hworker hstarted =>
    exact h.readPrior hworker hstarted
  | writeFinal id written final hworker => exact h.writeFinal hworker
  | writeAborted id written final hworker =>
    exact absurd hworker ((h.records.record id).aborted final)
  | publish id final _ => exact h.closed rfl rfl (.inl rfl)
  | quiet n call hcall => exact h.setCall (callOk_of_quiet hcall)
  | cancel n id => exact h.startCancel
  | copy n id status updated next hfile houtcome htask hnext =>
    exact h.copy hfile houtcome htask hnext
  | finalize n readable now id status _ hfile => exact h.finalize hfile (by simp)
  | finalizeCancel n readable now id finished status hcall hfile =>
    refine h.finalize hfile fun hlate => ?_
    cases hlate
    have hread := h.records.user n
    rw [hcall] at hread
    obtain ⟨file, hfile', hfin⟩ := hread
    cases hfile.symm.trans hfile'
    exact hfin
  | unread n readable now id finished _ => exact h.report fun _ => rfl
  | probe n exitCode now id status cancelling hcall => exact h.probe hcall
  | signal n now id status finished hcall =>
    have hprobing := h.records.user n
    rw [hcall] at hprobing
    refine h.setCall ⟨hprobing.1, hprobing.2.1, ?_⟩
    simpa using hprobing.2.2
  | kill n now id status finished hcall => exact h.kill hcall
  | writeCopy n written id file next call hcall _ hquiet =>
    exact (h.write hcall (hm id file next hcall)).setCall (callOk_of_quiet hquiet)
  | writeFinalized n written id file cancelling hcall =>
    refine (h.write hcall (hm id file _ hcall)).setCall fun hc => ?_
    cases hc
    exact h.not_late hcall trivial
  | writeCancelled n written id file locked finished hcall =>
    have hresult : finished = true → true = false := by
      rintro rfl
      exact absurd trivial (h.not_late hcall)
    exact ((h.write hcall (hm id file _ hcall)).report hresult).congr rfl rfl rfl
  | send n id notify wake =>
    have hflags : InTime known (s.setTask id { s.tasks id with flags := (notify, wake) }) :=
      h.closed rfl rfl (.inr (.inr rfl))
    exact hflags.setCall trivial
  | announce n id file cancelling _ =>
    have hevents : InTime known (s.setTask id
        { s.tasks id with events := (s.tasks id).events ++ [file.completedEvent] }) :=
      h.closed rfl rfl (.inr (.inr rfl))
    exact hevents.afterFinalize cancelling
  | lock n now id finished started hcall hmem hstarted =>
    obtain ⟨hfin, hworker⟩ := hm id finished hcall hmem
    exact InTime.congr (h.lock hcall hstarted hfin hworker) rfl rfl rfl
  | pass n now id finished hcall _ =>
    refine h.setCall ?_
    have hcancel := h.records.user n
    rw [hcall] at hcancel
    cases finished with
    | false => trivial
    | true => exact hcancel

/-! ### Whole runs -/

lemma inTime_empty : InTime (fun _ _ => False) (empty : BackgroundManager F) where
  records := by
    have hunused : TaskOk (BackgroundTask.unused : BackgroundTask F) := by
      refine ⟨fun _ => ⟨rfl, fun hopen => hopen⟩, ?_, ?_, ?_, ?_, ?_⟩
      · rintro _ ⟨⟩
      · rintro _ ⟨⟩
      · rintro _ ⟨⟩
      · rintro _ ⟨⟩
      · rintro _ ⟨⟩
    exact ⟨fun _ => hunused, fun _ => trivial⟩
  known _ _ hknown := hknown.elim
  reports := by rintro _ ⟨⟩

/-- What is on file may be taken as known. -/
lemma InTime.know (h : InTime known s) :
    InTime (fun id outcome => ∃ file, (s.tasks id).file = some file ∧ file.Finished ∧
      file.outcome = outcome) s where
  records := h.records
  known _ _ hknown := hknown
  reports := h.reports

/-- Where every result is written in time, the result of a finished task stays on file, and a
`cancel` that comes too late does nothing. -/
theorem keepsResults_of_writesInTime [BEq F] {ms : List (BackgroundMove F)}
    (hms : Guarded step WritesInTime empty ms) : KeepsResults empty ms where
  outcome := by
    rintro ks ls js t u rfl ht hu id file hfile hfin
    have hbefore : InTime (fun _ _ => False) t :=
      exec_invariant_of_guarded (fun _ _ _ h hm hs => h.step hm hs) hms.of_append inTime_empty ht
    obtain ⟨other, hother, -, houtcome⟩ := (exec_invariant_of_guarded
      (fun _ _ _ h hm hs => h.step hm hs) (hms.of_exec ht).of_append hbefore.know hu).known id
      file.outcome ⟨file, hfile, hfin, rfl⟩
    exact ⟨other, hother, houtcome⟩
  cancel := by
    intro ks ls t hk ht
    subst hk
    exact (exec_invariant_of_guarded (fun _ _ _ h hm hs => h.step hm hs) hms.of_append
      inTime_empty ht).cancelsQuietly

/-- A task runs to its end. -/
def completedTask : List (BackgroundMove Nat) :=
  [.spawn "task" "bash" none "session" "09:00" true false true, .register "task",
    .finish "task" (.spawned (.ok ⟨some 0, none, none⟩)), .readPrior "task" true "09:01",
    .writeFinal "task" true, .publish "task"]

/-- Its delivery is updated afterwards. -/
def completedTaskUpdated : List (BackgroundMove Nat) :=
  completedTask ++ [.call 0 (.updateDelivery "task" true true), .read 0 true "09:02", .write 0 true,
    .send 0]

theorem keepsResults_of_writesInTime_updated :
    (exec step (empty : BackgroundManager Nat) completedTaskUpdated).isSome ∧
      KeepsResults empty completedTaskUpdated := by
  refine ⟨rfl, keepsResults_of_writesInTime ?_⟩
  refine .cons trivial rfl (.cons trivial rfl (.cons trivial rfl (.cons trivial rfl
    (.cons trivial rfl
    (.cons trivial rfl (.cons trivial rfl (.cons trivial rfl (.cons ?_ rfl
      (.cons trivial rfl trivial)))))))))
  -- the delivery update writes back the result that it has read
  rintro _ _ _ ⟨⟩ - hcopy
  exact absurd ⟨by decide, trivial⟩ hcopy

/-- A `cancel` finds the task in the table after its end. -/
def completedTaskCancelled : List (BackgroundMove Nat) :=
  [.call 0 (.cancel "task"), .lock 0 "09:02", .write 0 true]

theorem not_keepsResults :
    ¬ ∀ ms, (exec step (empty : BackgroundManager Nat) ms).isSome → KeepsResults empty ms := by
  intro h
  have hkeeps := h (completedTask ++ completedTaskCancelled) rfl
  obtain ⟨other, hother, houtcome⟩ :=
    hkeeps.outcome completedTask completedTaskCancelled [] _ _ (by simp) rfl rfl "task" _ rfl
      (by decide)
  cases hother
  cases houtcome

end BackgroundManager

end Jcode
