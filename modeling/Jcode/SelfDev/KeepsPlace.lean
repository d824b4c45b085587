import Jcode.SelfDev.Copies

/-!
# What is saved of a live request

The file of a request is saved by its requester, before and after its task is spawned, by the
task, by a cancel and by every listing that takes the request for stale. A save of an old copy, or
a listing that looks at the request between the two saves of its requester, overwrites the true
state. Where neither happens, a live request is pending on file, and what its task or a cancel has
written last stays.
-/

namespace Jcode

open Schedule

variable {F : Type}

/-- The future is between two awaits, and goes on to the next one even if it is aborted. -/
def BuildRunner.Working : BuildRunner → Prop
  | .listing _ | .first _ _ | .opened _ _ _ | .entered _ _ | .publishing _ _ | .published _ _ _
  | .ending _ _ | .saving _ _ _ => True
  | _ => False

/-- The function of the task has not ended. -/
def BuildRunner.Open : BuildRunner → Prop
  | .dropping _ _ | .closing _ _ | .returned _ | .done => False
  | _ => True

/-- What the function of the task has returned. -/
def BuildRunner.outcome : BuildRunner → Option BackgroundOutcome
  | .dropping _ outcome | .closing _ outcome => outcome
  | .returned outcome => some outcome
  | _ => none

/-- The copy that is saved next, with what was published. -/
def BuildRunner.toPublish : BuildRunner → Option BuildRequest
  | .published request _ _ => some request
  | _ => none

/-- The request whose task a requester has still to spawn. -/
def ListingFor.requester : ListingFor → Option String
  | .position request => some request.requestId
  | .nobody | .turn _ => none

def BuildCall.requester : BuildCall → Option String
  | .loading whom _ _ | .reconciling whom _ _ | .marking whom _ _ _ | .failed whom => whom.requester
  | .spawning request => some request.requestId
  | _ => none

/-- The save of a future does not lose the file. -/
def RequestMove.KeepsFile : RequestMove → Prop
  | .start result | .savePublished result | .saveFinal result _ => result ≠ .lost
  | _ => True

namespace BuildRecord

/-- The task has ended or was cancelled, and what it has settled, if it did, is `state`. -/
def Over (record : BuildRecord F) (state : BuildRequestState) : Prop :=
  (record.ended = true ∨ record.cancelled = true) ∧
    ∀ settled, record.settled = some settled → settled = .cancelled ∨ settled = state

/-- A record of a request, as it should be. -/
structure Kept (record : BuildRecord F) : Prop where
  pending : record.origin ≠ none → record.ended = false → record.cancelled = false →
    ∃ request, record.file = some request ∧ request.state.Pending
  settled : ∀ state, record.settled = some state →
    ∃ request, record.file = some request ∧ request.state = state
  isOver : record.settled ≠ none → record.ended = true ∨ record.cancelled = true
  status : ∀ status, record.status = some status → status.Finished →
    record.Over status.status.requestState
  working : record.runner.Working → record.cancelled = false
  opened : record.runner.Open → record.ended = false
  aborted : record.cancelled = true → record.ended = false → record.aborted = true
  outcome : ∀ outcome, record.runner.outcome = some outcome →
    record.ended = true ∧ record.Over outcome.status.requestState
  published : ∀ request, record.runner.toPublish = some request → request.state.Pending

end BuildRecord

/-- What a call has found and what it will save. -/
def ListingFor.Queued : ListingFor → Prop
  | .position request => request.state = .queued
  | .nobody | .turn _ => True

def CallKept (records : String → BuildRecord F) : BuildCall → Prop
  | .loading whom _ _ | .reconciling whom _ _ | .failed whom => whom.Queued
  | .marking whom changed _ _ =>
    whom.Queued ∧ (records changed.requestId).Over changed.state
  | .spawning request | .registering request | .saving request => request.state = .queued
  | .cancelWriting request => (records request.requestId).Over .cancelled
  | .idle | .cancelling _ | .cancelSaving _ => True

namespace BuildQueue

/-- A request that was saved is pending on file until its task has ended or it is cancelled, and
what its task has written at its end, or its cancel, stays. -/
structure KeepsPlace (s : BuildQueue F) : Prop where
  pending : ∀ id, (s.records id).origin ≠ none → (s.records id).ended = false →
    (s.records id).cancelled = false →
      ∃ request, (s.records id).file = some request ∧ request.state.Pending
  settled : ∀ id state, (s.records id).settled = some state →
    ∃ request, (s.records id).file = some request ∧ request.state = state

/-- No save loses the file. A listing that comes to a request has its task id, and finds its task
live if it runs; what it saves then does not replace a cancel. A requester saves the task id before
the task has ended or the request is cancelled. A cancel aborts a future that awaits and has not
written its last state, and saves only after the future was aborted or has ended without that. -/
def SavesInTime (s : BuildQueue F) : BuildMove → Prop
  | .advance _ m => m.KeepsFile
  | .reconcile n readable live _ => ∀ whom request todo pending,
      s.calls n = .reconciling whom (request :: todo) pending →
        request.backgroundTaskId.isSome = true ∧
          ∃ status, (s.records request.requestId).readStatus readable = some status ∧
            (status.status = .running → live = true)
  | .mark n result => result ≠ .lost ∧ ∀ whom changed todo pending,
      s.calls n = .marking whom changed todo pending →
        (s.records changed.requestId).settled ≠ some .cancelled
  | .saveTaskId n result => result ≠ .lost ∧ ∀ request, s.calls n = .saving request →
      (s.records request.requestId).ended = false ∧
        (s.records request.requestId).cancelled = false
  | .abort n _ => ∀ request, s.calls n = .cancelling request →
      (s.records request.requestId).live = true →
        ¬ (s.records request.requestId).runner.Working ∧
          (s.records request.requestId).settled = none
  | .saveCancelled n result _ => result ≠ .lost ∧ ∀ request, s.calls n = .cancelSaving request →
      (s.records request.requestId).Over .cancelled
  | _ => True

end BuildQueue

/-! ### Records that change -/

lemma BuildRunner.Working.opened {runner : BuildRunner} (h : runner.Working) : runner.Open := by
  cases runner with
  | listing | first | opened | entered | publishing | published | ending | saving => trivial
  | absent | spawned | waiting | building | dropping | closing | returned | done => exact h.elim

namespace BuildRecord

variable {a b : BuildRecord F} {request : BuildRequest} {state : BuildRequestState}
  {result : SaveResult} {runner : BuildRunner}

lemma Over.congr (h : a.Over state) (hended : b.ended = a.ended)
    (hcancelled : b.cancelled = a.cancelled) (hsettled : b.settled = a.settled) : b.Over state := by
  unfold Over
  rw [hended, hcancelled, hsettled]
  exact h

/-- What is settled as cancelled is compatible with every state. -/
lemma Over.of_cancelled (h : a.Over .cancelled) : a.Over state :=
  ⟨h.1, fun settled hs => .inl ((h.2 settled hs).elim id id)⟩

lemma Over.save (h : a.Over state) : (a.save request result).Over state := by
  cases result with
  | written | kept | lost => exact h

lemma Over.fail (h : a.Over state) {error : String} {guard : Option BuildLockGuard} :
    (a.fail error guard).Over state :=
  ⟨.inl rfl, h.2⟩

namespace Kept

lemma settled_none (h : a.Kept) (hended : a.ended = false) (hcancelled : a.cancelled = false) :
    a.settled = none := by
  by_contra hsome
  rcases h.isOver hsome with hover | hover
  · cases hended.symm.trans hover
  · cases hcancelled.symm.trans hover

/-- An open future that is not aborted belongs to a request that is not cancelled. -/
lemma not_cancelled (h : a.Kept) (hopen : a.runner.Open) (haborted : a.aborted = false) :
    a.cancelled = false := by
  by_contra hcancelled
  have habort := h.aborted (Bool.of_not_eq_false hcancelled) (h.opened hopen)
  cases haborted.symm.trans habort

/-- The future goes on. -/
lemma run (h : a.Kept) (hopen : runner.Open → a.runner.Open)
    (hworking : runner.Working → a.cancelled = false)
    (houtcome : ∀ outcome, runner.outcome = some outcome → a.runner.outcome = some outcome)
    (hpublished : ∀ request, runner.toPublish = some request → request.state.Pending) :
    Kept { a with runner := runner } where
  pending := h.pending
  settled := h.settled
  isOver := h.isOver
  status := h.status
  working := hworking
  opened hr := h.opened (hopen hr)
  aborted := h.aborted
  outcome outcome ho := h.outcome outcome (houtcome outcome ho)
  published := hpublished

/-- The future goes on, with nothing to publish yet. -/
lemma go_on (h : a.Kept) (hopen : runner.Open → a.runner.Open)
    (hworking : runner.Working → a.cancelled = false) (houtcome : runner.outcome = none)
    (hpublished : runner.toPublish = none) : Kept { a with runner := runner } := by
  refine h.run hopen hworking (fun outcome ho => ?_) fun request hr => ?_
  · cases houtcome.symm.trans ho
  · cases hpublished.symm.trans hr

/-- A live request is saved in a state that is pending. -/
lemma save_pending (h : a.Kept) (hended : a.ended = false) (hcancelled : a.cancelled = false)
    (hstate : request.state.Pending) (hresult : result ≠ .lost) : (a.save request result).Kept := by
  cases result with
  | kept => exact h
  | lost => exact absurd rfl hresult
  | written =>
    have hnone := h.settled_none hended hcancelled
    refine ⟨fun _ _ _ => ⟨request, rfl, hstate⟩, fun state hs => ?_, h.isOver, h.status, h.working,
      h.opened, h.aborted, h.outcome, h.published⟩
    cases hnone.symm.trans hs

/-- A request that is over is saved in the state that says so. -/
lemma save_over (h : a.Kept) (hover : a.Over request.state) (hsettled : a.settled ≠ some .cancelled)
    (hresult : result ≠ .lost) : (a.save request result).Kept := by
  cases result with
  | kept => exact h
  | lost => exact absurd rfl hresult
  | written =>
    refine ⟨fun _ hended hcancelled => ?_, fun state hs => ⟨request, rfl, ?_⟩, h.isOver, h.status,
      h.working, h.opened, h.aborted, h.outcome, h.published⟩
    · rcases hover.1 with hover | hover
      · cases hended.symm.trans hover
      · cases hcancelled.symm.trans hover
    · rcases hover.2 state hs with rfl | rfl
      · exact absurd hs hsettled
      · rfl

/-- The function of a live task returns an error. -/
lemma fail (h : a.Kept) (hended : a.ended = false) (hcancelled : a.cancelled = false)
    {error : String} {guard : Option BuildLockGuard} : (a.fail error guard).Kept := by
  have hnone := h.settled_none hended hcancelled
  have hover : ∀ state, (a.fail error guard).Over state := by
    refine fun state => ⟨.inl rfl, fun settled hs => ?_⟩
    cases hnone.symm.trans hs
  refine ⟨by rintro _ ⟨⟩, h.settled, fun _ => .inl rfl, fun _ _ _ => hover _, ?_, ?_,
    by rintro _ ⟨⟩,
    fun _ _ => ⟨rfl, hover _⟩, ?_⟩
  · cases guard <;> exact fun hw => hw.elim
  · cases guard <;> exact fun ho => ho.elim
  · cases guard <;> rintro _ ⟨⟩

/-- Only what has happened to the file of the task changes. -/
lemma set_status (h : a.Kept) (hstatus : ∀ status, b.status = some status → status.Finished →
      a.Over status.status.requestState) (hfile : b.file = a.file) (hrunner : b.runner = a.runner)
    (horigin : b.origin = a.origin) (hended : b.ended = a.ended)
    (hcancelled : b.cancelled = a.cancelled) (hsettled : b.settled = a.settled)
    (haborted : b.aborted = a.aborted) : b.Kept where
  pending := by
    rw [hfile, horigin, hended, hcancelled]
    exact h.pending
  settled := by
    rw [hfile, hsettled]
    exact h.settled
  isOver := by
    rw [hended, hcancelled, hsettled]
    exact h.isOver
  status status hs hfin := (hstatus status hs hfin).congr hended hcancelled hsettled
  working := by
    rw [hrunner, hcancelled]
    exact h.working
  opened := by
    rw [hrunner, hended]
    exact h.opened
  aborted := by
    rw [hended, hcancelled, haborted]
    exact h.aborted
  outcome outcome ho := by
    obtain ⟨he, hover⟩ := h.outcome outcome (hrunner ▸ ho)
    exact ⟨hended.trans he, hover.congr hended hcancelled hsettled⟩
  published := by
    rw [hrunner]
    exact h.published

/-- The task writes its last state. -/
lemma save_final (h : a.Kept) (hrunner : a.runner.Working) {guard : BuildLockGuard}
    {outcome : BackgroundOutcome} {now : String} :
    Kept { (a.save (request.finish outcome now) .written).settle outcome.status.requestState with
      runner := .dropping guard (some outcome)
      ended := true } := by
  have hnone := h.settled_none (h.opened hrunner.opened) (h.working hrunner)
  have hover : Over { (a.save (request.finish outcome now) .written).settle
      outcome.status.requestState with
      runner := .dropping guard (some outcome)
      ended := true } outcome.status.requestState := by
    refine ⟨.inl rfl, fun settled hs => .inr ?_⟩
    simpa [settle, BuildRecord.save, hnone] using hs.symm
  refine ⟨by simp, fun state hs => ⟨request.finish outcome now, rfl, ?_⟩, fun _ => .inl rfl,
    fun status hs hfin => ?_, fun hw => hw.elim, fun ho => ho.elim, by rintro _ ⟨⟩, ?_,
    by rintro _ ⟨⟩⟩
  · have hstate : outcome.status.requestState = state := by
      simpa [settle, BuildRecord.save, hnone] using hs
    exact hstate
  · -- no terminal status is on file while the future runs
    rcases (h.status status hs hfin).1 with hended | hcancelled
    · cases (h.opened hrunner.opened).symm.trans hended
    · cases (h.working hrunner).symm.trans hcancelled
  · rintro _ ⟨⟩
    exact ⟨rfl, hover⟩

/-- A cancel saves. -/
lemma save_cancelled (h : a.Kept) (hover : a.Over .cancelled) {now : String} :
    Kept { (a.save (request.cancel now) .written).settle .cancelled with cancelled := true } := by
  have hsettled : a.settled.or (some .cancelled) = some .cancelled := by
    cases hs : a.settled with
    | none => rfl
    | some state =>
      rcases hover.2 state hs with rfl | rfl <;> rfl
  have hnot : ¬ a.runner.Working := by
    intro hw
    rcases hover.1 with hended | hcancelled
    · cases (h.opened hw.opened).symm.trans hended
    · cases (h.working hw).symm.trans hcancelled
  have hall (state : BuildRequestState) :
      Over { (a.save (request.cancel now) .written).settle .cancelled with cancelled := true }
        state := by
    refine ⟨.inr rfl, fun settled hs => .inl ?_⟩
    exact (Option.some.inj (hsettled.symm.trans hs)).symm
  refine ⟨by simp, fun state hs => ⟨request.cancel now, rfl, ?_⟩, fun _ => .inr rfl,
    fun _ _ _ => hall _, fun hw => absurd hw hnot, h.opened, fun _ hended => ?_,
    fun outcome ho => ⟨(h.outcome outcome ho).1, hall _⟩, h.published⟩
  · exact Option.some.inj (hsettled.symm.trans hs)
  · rcases hover.1 with hover | hover
    · cases hended.symm.trans hover
    · exact h.aborted hover hended

/-- A cancel aborts the future. -/
lemma abort (h : a.Kept) (hnot : ¬ a.runner.Working) (hnone : a.settled = none) {live : Bool} :
    Kept { a with live := live, aborted := true, cancelled := true } := by
  have hall (state : BuildRequestState) :
      Over { a with live := live, aborted := true, cancelled := true } state := by
    refine ⟨.inr rfl, fun settled hs => ?_⟩
    cases hnone.symm.trans hs
  exact ⟨by simp, h.settled, fun _ => .inr rfl, fun _ _ _ => hall _, fun hw => absurd hw hnot,
    h.opened, fun _ _ => rfl, fun outcome ho => ⟨(h.outcome outcome ho).1, hall _⟩, h.published⟩

/-- A future is spawned for a request that has none. -/
lemma spawn (h : a.Kept) (habsent : a.runner = .absent) {started : TaskStatusFile F}
    (hrunning : started.status = .running) {written : Bool} :
    Kept { a with
      status := if written then some started else none
      started := some started
      runner := .spawned } := by
  refine ⟨h.pending, h.settled, h.isOver, fun status hs hfin => ?_, fun hw => hw.elim, fun _ => ?_,
    h.aborted, by rintro _ ⟨⟩, by rintro _ ⟨⟩⟩
  · cases written with
    | false => cases hs
    | true =>
      cases hs
      exact absurd hrunning hfin
  · refine h.opened ?_
    rw [habsent]
    trivial

lemma fails (h : a.Kept) {guard : Option BuildLockGuard} (hfails : a.Fails guard) :
    a.ended = false ∧ a.cancelled = false := by
  cases hfails with
  | spawned hrunner haborted =>
    have hopen : a.runner.Open := by
      rw [hrunner]
      trivial
    exact ⟨h.opened hopen, h.not_cancelled hopen haborted⟩
  | building guard hrunner haborted =>
    have hopen : a.runner.Open := by
      rw [hrunner]
      trivial
    exact ⟨h.opened hopen, h.not_cancelled hopen haborted⟩
  | entered request guard hrunner | publishing guard outcome hrunner
  | ending guard outcome hrunner =>
    have hworking : a.runner.Working := by
      rw [hrunner]
      trivial
    exact ⟨h.opened hworking.opened, h.working hworking⟩

/-- A future that has its turn, or has not. -/
lemma takeTurn (h : a.Kept) (hworking : a.runner.Working) (pending : List BuildRequest) :
    (a.takeTurn request pending).Kept := by
  have hended := h.opened hworking.opened
  have hcancelled := h.working hworking
  rcases takeTurn_cases pending with ⟨error, heq⟩ | ⟨head, tail, -, -, heq⟩ | heq
  · rw [heq]
    exact h.fail hended hcancelled
  · rw [heq]
    exact h.go_on (fun _ => hworking.opened) (fun _ => hcancelled) rfl rfl
  · rw [heq]
    exact h.go_on (fun _ => hworking.opened) (fun _ => hcancelled) rfl rfl

lemma advance (h : a.Kept) {m : RequestMove} (horigin : a.origin ≠ none) (hkeeps : m.KeepsFile)
    (hm : a.advance m = some b) : b.Kept ∧ ∀ state, a.Over state → b.Over state := by
  have hlive (hworking : a.runner.Working) : a.ended = false ∧ a.cancelled = false :=
    ⟨h.opened hworking.opened, h.working hworking⟩
  -- the saves of a live task
  have hworks {request : BuildRequest} {guard : BuildLockGuard} {result : SaveResult}
      {error : String} (hworking : a.runner.Working) (hstate : request.state.Pending)
      (hresult : result ≠ .lost) : ((a.save request result).fail error (some guard)).Kept ∧
        ∀ state, a.Over state → ((a.save request result).fail error (some guard)).Over state := by
    obtain ⟨hended, hcancelled⟩ := hlive hworking
    have hsave := h.save_pending hended hcancelled hstate hresult
    refine ⟨hsave.fail ?_ ?_, fun state hover => hover.save.fail⟩
    · cases result <;> exact hended
    · cases result <;> exact hcancelled
  cases advance_of_eq hm with
  | load readable request hrunner =>
    refine ⟨h.go_on (fun _ => ?_) (fun hw => hw.elim) rfl rfl, fun _ hover => hover⟩
    rw [hrunner]
    trivial
  | fail error guard hfails =>
    obtain ⟨hended, hcancelled⟩ := h.fails hfails
    exact ⟨h.fail hended hcancelled, fun state hover => hover.fail⟩
  | start request guard hrunner =>
    have hworking : a.runner.Working := by
      rw [hrunner]
      trivial
    obtain ⟨hended, hcancelled⟩ := hlive hworking
    have hsave : (a.save request.start .written).Kept :=
      h.save_pending hended hcancelled (.inr rfl) (by simp)
    exact ⟨hsave.go_on (fun _ => hworking.opened) (fun hw => hw.elim) rfl rfl,
      fun _ hover => hover⟩
  | startFailed result request guard error hrunner =>
    exact hworks (by rw [hrunner]; trivial) (.inr rfl) hkeeps
  | publish outcome guard hrunner haborted | finish outcome guard hrunner haborted =>
    have hopen : a.runner.Open := by
      rw [hrunner]
      trivial
    have hcancelled := h.not_cancelled hopen haborted
    exact ⟨h.go_on (fun _ => hopen) (fun _ => hcancelled) rfl rfl, fun _ hover => hover⟩
  | loadPublished readable request guard outcome hrunner hfile =>
    have hworking : a.runner.Working := by
      rw [hrunner]
      trivial
    obtain ⟨hended, hcancelled⟩ := hlive hworking
    obtain ⟨other, hother, hstate⟩ := h.pending horigin hended hcancelled
    cases hfile.symm.trans hother
    refine ⟨h.run (fun _ => hworking.opened) (fun _ => hcancelled) (fun _ ho => ?_) fun _ hr => ?_,
      fun _ hover => hover⟩
    · cases ho
    · cases hr
      exact hstate
  | savePublished request guard outcome hrunner =>
    have hworking : a.runner.Working := by
      rw [hrunner]
      trivial
    obtain ⟨hended, hcancelled⟩ := hlive hworking
    have hsave : (a.save request .written).Kept :=
      h.save_pending hended hcancelled (h.published _ (by rw [hrunner]; rfl)) (by simp)
    exact ⟨hsave.go_on (fun _ => hworking.opened) (fun _ => hcancelled) rfl rfl,
      fun _ hover => hover⟩
  | savePublishedFailed result request guard outcome error hrunner =>
    exact hworks (by rw [hrunner]; trivial) (h.published _ (by rw [hrunner]; rfl)) hkeeps
  | loadFinal readable request guard outcome hrunner =>
    have hworking : a.runner.Working := by
      rw [hrunner]
      trivial
    exact ⟨h.go_on (fun _ => hworking.opened) (fun _ => h.working hworking) rfl rfl,
      fun _ hover => hover⟩
  | saveFinal now request guard outcome hrunner =>
    have hworking : a.runner.Working := by
      rw [hrunner]
      trivial
    obtain ⟨hended, hcancelled⟩ := hlive hworking
    refine ⟨h.save_final hworking, fun state hover => ?_⟩
    rcases hover.1 with hover | hover
    · cases hended.symm.trans hover
    · cases hcancelled.symm.trans hover
  | saveFinalFailed result now request guard outcome error hrunner hresult =>
    have hworking : a.runner.Working := by
      rw [hrunner]
      trivial
    obtain ⟨hended, hcancelled⟩ := hlive hworking
    cases result with
    | written => exact absurd rfl hresult
    | lost => exact absurd rfl hkeeps
    | kept => exact ⟨h.fail hended hcancelled, fun state hover => hover.fail⟩
  | complete written now outcome started hrunner =>
    obtain ⟨hended, hover⟩ := h.outcome outcome (by rw [hrunner]; rfl)
    have hdone : Kept { a with runner := .done } :=
      h.go_on (fun ho => ho.elim) (fun hw => hw.elim) rfl rfl
    refine ⟨hdone.set_status (fun status hs hfin => ?_) rfl rfl rfl rfl rfl rfl rfl,
      fun _ hover => hover⟩
    cases written with
    | false => exact h.status status hs hfin
    | true =>
      cases hs
      rw [TaskStatusFile.status_completion]
      exact hover
  | dropIdle =>
    exact ⟨h.go_on (fun ho => ho.elim) (fun hw => hw.elim) rfl rfl, fun _ hover => hover⟩
  | dropBuilding guard =>
    exact ⟨h.go_on (fun ho => ho.elim) (fun hw => hw.elim) rfl rfl, fun _ hover => hover⟩

end Kept

end BuildRecord

namespace BuildQueue

open BuildRecord

/-! ### The invariant -/

variable {s t : BuildQueue F} {m : BuildMove} {id : String} {n : Nat} {record : BuildRecord F}
  {call : BuildCall} {request : BuildRequest} {state : BuildRequestState}

lemma CallKept.mono {records records' : String → BuildRecord F}
    (hover : ∀ id state, (records id).Over state → (records' id).Over state)
    (h : CallKept records call) : CallKept records' call := by
  cases call with
  | marking whom changed todo pending => exact ⟨h.1, hover _ _ h.2⟩
  | cancelWriting request => exact hover _ _ h
  | idle | loading | reconciling | failed | spawning | registering | saving | cancelling
  | cancelSaving => exact h

/-- Every record and every call is as it should be, and one requester at most spawns the task of a
request, which has none before. -/
structure Kept (s : BuildQueue F) : Prop where
  records : Records.Holds (fun _ => BuildRecord.Kept) (fun records _ => CallKept records)
    s.records s.calls
  sole : Records.Sole (·.runner = .absent) BuildCall.requester s.records s.calls

lemma Kept.keepsPlace (h : s.Kept) : KeepsPlace s where
  pending id := (h.records.record id).pending
  settled id := (h.records.record id).settled

lemma Kept.setRecord (h : s.Kept) (hrecord : record.Kept)
    (hover : ∀ state, (s.records id).Over state → record.Over state)
    (habsent : (s.records id).runner = .absent → record.runner = .absent) :
    (s.setRecord id record).Kept where
  records := Records.Holds.record_step (R := fun a b => ∀ state, a.Over state → b.Over state)
    h.records (fun _ _ ho => ho) (fun _ _ _ _ hr => CallKept.mono hr) hrecord hover
  sole := h.sole.record_step habsent

lemma Kept.setCall (h : s.Kept) (hcall : CallKept s.records call)
    (hrequester : ∀ id, call.requester = some id → (s.calls n).requester = some id) :
    (s.setCall n call).Kept where
  records := h.records.user_step hcall
  sole := h.sole.user_step hrequester

lemma Kept.congr (h : s.Kept) (hrecords : t.records = s.records) (hcalls : t.calls = s.calls) :
    t.Kept where
  records := by
    rw [hrecords, hcalls]
    exact h.records
  sole := by
    rw [hrecords, hcalls]
    exact h.sole

/-- A call that is not the requester of any request. -/
lemma Kept.setUnowned (h : s.Kept) (hcall : CallKept s.records call)
    (hrequester : call.requester = none) : (s.setCall n call).Kept := by
  refine h.setCall hcall fun id ho => ?_
  cases hrequester.symm.trans ho

lemma Kept.idle (h : s.Kept) : (s.setCall n .idle).Kept := h.setUnowned trivial rfl

lemma Kept.setRunner (h : s.Kept) {runner : BuildRunner}
    (hrecord : BuildRecord.Kept { s.records id with runner := runner })
    (hpresent : (s.records id).runner ≠ .absent) : (s.setRunner id runner).Kept :=
  h.setRecord hrecord (fun _ ho => ho) fun hr => absurd hr hpresent

lemma callKept_loadAll {records : String → BuildRecord F} {whom : ListingFor}
    {entries : List String} {loaded : List BuildRequest} (h : whom.Queued) :
    CallKept records (loadAll whom entries loaded) := by
  cases entries with
  | nil => exact h
  | cons => exact h

@[simp] lemma requester_loadAll {whom : ListingFor} {entries : List String}
    {loaded : List BuildRequest} : (loadAll whom entries loaded).requester = whom.requester := by
  cases entries <;> rfl

/-- What a requester has is a copy of the request whose task it will spawn. -/
lemma Copied.of_requester (h : Copied s) (hn : (s.calls n).requester = some id) :
    (s.records id).origin ≠ none := by
  obtain ⟨request, hmem, hid⟩ : ∃ request ∈ (s.calls n).copies, request.requestId = id := by
    cases hcall : s.calls n with
    | loading whom | reconciling whom | marking whom | failed whom =>
      rw [hcall] at hn
      cases whom with
      | position request => exact ⟨request, by simp [BuildCall.copies, ListingFor.copies],
          Option.some.inj hn⟩
      | nobody | turn => cases hn
    | spawning request =>
      rw [hcall] at hn
      exact ⟨request, List.mem_cons_self, Option.some.inj hn⟩
    | idle | registering | saving | cancelling | cancelWriting | cancelSaving =>
      rw [hcall] at hn
      cases hn
  rw [← hid]
  exact (h.copy rfl hmem).isSome

lemma Kept.working (h : s.Kept) (hrunner : (s.records id).runner.Working) :
    (s.records id).ended = false ∧ (s.records id).cancelled = false :=
  ⟨(h.records.record id).opened hrunner.opened, (h.records.record id).working hrunner⟩

/-! ### The steps -/

lemma Kept.advance (h : s.Kept) (hc : Copied s) {m : RequestMove} (hkeeps : m.KeepsFile)
    (hm : (s.records id).advance m = some record) : (s.setRecord id record).Kept := by
  have hpresent : (s.records id).runner ≠ .absent := by
    intro habsent
    cases m <;> simp [BuildRecord.advance, habsent] at hm
  obtain ⟨hrecord, hover⟩ :=
    (h.records.record id).advance ((hc.record id).origin_ne hpresent) hkeeps hm
  exact h.setRecord hrecord hover fun habsent => absurd habsent hpresent

/-- The lock does not matter. -/
lemma Kept.run (h : s.Kept) {runner : BuildRunner} (hworking : (s.records id).runner.Working)
    (houtcome : runner.outcome = none) (hpublished : runner.toPublish = none) :
    (s.setRunner id runner).Kept := by
  obtain ⟨-, hcancelled⟩ := h.working hworking
  refine h.setRunner ((h.records.record id).go_on (fun _ => hworking.opened) (fun _ => hcancelled)
    houtcome hpublished) fun habsent => ?_
  rw [habsent] at hworking
  exact hworking

/-- An ended future goes on. -/
lemma Kept.over (h : s.Kept) {runner : BuildRunner} (hpresent : (s.records id).runner ≠ .absent)
    (hnot : ¬ runner.Open) (houtcome : runner.outcome = (s.records id).runner.outcome)
    (hpublished : runner.toPublish = none) : (s.setRunner id runner).Kept := by
  refine h.setRunner ((h.records.record id).run (fun ho => absurd ho hnot)
    (fun hw => absurd hw.opened hnot) (fun outcome ho => houtcome ▸ ho) fun request hr => ?_)
      hpresent
  cases hpublished.symm.trans hr

/-- The future returns an error. -/
lemma Kept.failed (h : s.Kept) {error : String} {guard : Option BuildLockGuard}
    (hworking : (s.records id).runner.Working) :
    (s.setRecord id ((s.records id).fail error guard)).Kept := by
  obtain ⟨hended, hcancelled⟩ := h.working hworking
  refine h.setRecord ((h.records.record id).fail hended hcancelled) (fun _ ho => ho.fail)
    fun habsent => ?_
  rw [habsent] at hworking
  exact hworking.elim

/-- A save that keeps the record as it should be. -/
lemma Kept.save (h : s.Kept) {result : SaveResult}
    (hrecord : BuildRecord.Kept ((s.records id).save request result)) :
    (s.setRecord id ((s.records id).save request result)).Kept :=
  h.setRecord hrecord (fun _ ho => ho.save) fun habsent => runner_save.trans habsent

/-- A request is saved for the first time. -/
lemma Kept.firstSave (h : s.Kept) (hc : Copied s) {sessionId worktreeScope requestedAt : String}
    (hnew : (s.records id).origin = none) :
    Kept { (s.setRecord id { BuildRecord.unused with
        file := some (.initial id sessionId worktreeScope requestedAt)
        origin := some (.initial id sessionId worktreeScope requestedAt) }).setCall n
        (loadAll (.position (.initial id sessionId worktreeScope requestedAt))
          (s.entries ++ [id]) []) with
      entries := s.entries ++ [id] } := by
  have hnone (k : Nat) : (s.calls k).requester ≠ some id := fun hk => hc.of_requester hk hnew
  have hrecord : (s.setRecord id { BuildRecord.unused with
      file := some (.initial id sessionId worktreeScope requestedAt)
      origin := some (.initial id sessionId worktreeScope requestedAt) }).Kept := by
    refine h.setRecord ⟨fun _ _ _ => ⟨_, rfl, .inl rfl⟩, ?_, fun hs => absurd rfl hs, ?_,
      fun hw => hw.elim, fun _ => rfl, by rintro ⟨⟩, ?_, ?_⟩ (fun state hover => ?_) fun _ => rfl
    · rintro _ ⟨⟩
    · rintro _ ⟨⟩
    · rintro _ ⟨⟩
    · rintro _ ⟨⟩
    · rw [(hc.record id).unused hnew] at hover
      rcases hover.1 with hover | hover <;> cases hover
  refine ⟨hrecord.records.user_step (callKept_loadAll rfl), hrecord.sole.claim ?_ ?_ hnone⟩
  · exact requester_loadAll
  · simp [BuildQueue.setRecord, BuildRecord.unused]

/-- The requester spawns the task of its request. -/
lemma Kept.spawn (h : s.Kept) (hcall : s.calls n = .spawning request) {taskId : String}
    {started : TaskStatusFile F} (hrunning : started.status = .running) {written : Bool} :
    Kept ((s.setRecord request.requestId { s.records request.requestId with
      status := if written then some started else none
      started := some started
      runner := .spawned }).setCall n (.registering
        { request with backgroundTaskId := some taskId })) := by
  have hqueued := h.records.user n
  rw [hcall] at hqueued
  have hrequester : (s.calls n).requester = some request.requestId := by
    rw [hcall]
    rfl
  have habsent := (h.sole n request.requestId hrequester).1
  have hregistering : (s.setCall n (.registering
      { request with backgroundTaskId := some taskId })).Kept := h.setUnowned hqueued rfl
  refine ⟨?_, hregistering.sole.record_step_of_unclaimed (h.sole.unclaimed hrequester rfl)⟩
  exact Records.Holds.record_step (R := fun a b => ∀ state, a.Over state → b.Over state)
    hregistering.records (fun _ _ ho => ho) (fun _ _ _ _ hr => CallKept.mono hr)
    ((h.records.record request.requestId).spawn habsent hrunning) fun _ ho => ho

/-- A cancel saves, after the end of the task. -/
lemma Kept.saveCancelled (h : s.Kept) {result : SaveResult} {now : String}
    (hresult : result ≠ .lost) (hover : (s.records request.requestId).Over .cancelled) :
    (s.setRecord request.requestId (if result = .written then
      { ((s.records request.requestId).save (request.cancel now) result).settle .cancelled with
        cancelled := true }
      else (s.records request.requestId).save (request.cancel now) result)).Kept := by
  cases result with
  | lost => exact absurd rfl hresult
  | kept => exact h.setRecord (h.records.record request.requestId) (fun _ ho => ho) fun hr => hr
  | written =>
    refine h.setRecord ((h.records.record request.requestId).save_cancelled hover)
      (fun state _ => ⟨.inr rfl, fun settled hs => .inl ?_⟩) fun habsent => habsent
    cases hnone : (s.records request.requestId).settled with
    | none => simpa [BuildRecord.settle, BuildRecord.save, hnone] using hs.symm
    | some other =>
      rcases hover.2 other hnone with rfl | rfl
      · simpa [BuildRecord.settle, BuildRecord.save, hnone] using hs.symm
      · simpa [BuildRecord.settle, BuildRecord.save, hnone] using hs.symm

lemma Kept.step (h : s.Kept) (hc : Copied s) (hm : s.SavesInTime m) (ht : s.step m = some t) :
    t.Kept := by
  have hkept {n : Nat} {call : BuildCall} (hn : s.calls n = call) : CallKept s.records call :=
    hn ▸ h.records.user n
  cases effect_of_step ht with
  | advance id m record hadvance => exact h.advance hc hm hadvance
  | openLock id request queue hrunner =>
    have hopened : (s.setRunner id (.opened request queue
        ⟨request.worktreeScope, (s.locks request.worktreeScope).file.target⟩)).Kept :=
      h.run (by rw [hrunner]; trivial) rfl rfl
    exact hopened.congr rfl rfl
  | openFailed id request queue hrunner => exact h.failed (by rw [hrunner]; trivial)
  | flock id request queue guard hrunner =>
    have hentered : (s.setRunner id (.entered request guard)).Kept :=
      h.run (by rw [hrunner]; trivial) rfl rfl
    exact hentered.congr rfl rfl
  | busy id request queue guard hrunner => exact h.run (by rw [hrunner]; trivial) rfl rfl
  | unlink id removed guard outcome hrunner =>
    have hclosing : (s.setRunner id (.closing guard outcome)).Kept :=
      h.over (by simp [hrunner]) (fun ho => ho) (by rw [hrunner]; rfl) rfl
    exact hclosing.congr rfl rfl
  | close id guard outcome hrunner =>
    have hclosed : (s.setRunner id (.ofOutcome outcome)).Kept := by
      refine h.over (by simp [hrunner]) ?_ ?_ ?_
      · cases outcome <;> exact fun ho => ho
      · rw [hrunner]
        cases outcome <;> rfl
      · cases outcome <;> rfl
    exact hclosed.congr rfl rfl
  | look id n request hrunner haborted =>
    have hopen : (s.records id).runner.Open := by
      rw [hrunner]
      trivial
    have hcancelled := (h.records.record id).not_cancelled hopen haborted
    have hlisting : (s.setRunner id (.listing request)).Kept :=
      h.setRunner ((h.records.record id).go_on (fun _ => hopen) (fun _ => hcancelled) rfl rfl)
        (by simp [hrunner])
    refine hlisting.setCall (callKept_loadAll trivial) fun other ho => ?_
    rw [requester_loadAll] at ho
    cases ho
  | stay => exact h
  | idle n => exact h.idle
  | list n =>
    refine h.setCall (callKept_loadAll trivial) fun other ho => ?_
    rw [requester_loadAll] at ho
    cases ho
  | request n id sessionId worktreeScope requestedAt hnew =>
    exact h.firstSave hc hnew
  | readEntry n readable whom id entries loaded hcall =>
    refine h.setCall (callKept_loadAll (hkept hcall)) fun other ho => ?_
    rw [requester_loadAll] at ho
    rw [hcall]
    exact ho
  | reconcileKeep n readable live now whom request todo pending hcall =>
    have hqueued : whom.Queued := hkept hcall
    refine h.setCall hqueued fun other ho => ?_
    rw [hcall]
    exact ho
  | reconcile n readable live now whom request changed todo pending hcall hchanged =>
    obtain ⟨hid, status, hstatus, hlive⟩ := hm whom request todo pending hcall
    rw [hstatus] at hchanged
    obtain ⟨hfin, hstate⟩ := BuildRequest.reconcile_eq_some hid hlive hchanged
    have hover := (h.records.record request.requestId).status status (status_of_read hstatus) hfin
    refine h.setCall ⟨hkept hcall, ?_⟩ fun other ho => ?_
    · rwa [(BuildRequest.sameRequest_reconcile hchanged).requestId, hstate]
    · rw [hcall]
      exact ho
  | mark n result whom changed todo pending hcall =>
    obtain ⟨hresult, hsettled⟩ := hm
    obtain ⟨hqueued, hover⟩ := hkept hcall
    have hsave := h.save ((h.records.record changed.requestId).save_over hover
      (hsettled whom changed todo pending hcall) hresult)
    refine hsave.setCall ?_ fun other ho => ?_
    · split_ifs <;> exact hqueued
    · change (s.calls n).requester = some other
      rw [hcall, ← ho]
      split_ifs <;> rfl
  | position n request pending hcall =>
    have hqueued : request.state = .queued := hkept hcall
    refine h.setCall hqueued fun other ho => ?_
    rw [hcall]
    exact ho
  | turn n id request pending hcall hrunner =>
    have hworking : (s.records id).runner.Working := by
      rw [hrunner]
      trivial
    have hturn : (s.setRecord id ((s.records id).takeTurn request pending)).Kept := by
      refine h.setRecord ((h.records.record id).takeTurn hworking pending) (fun state ho => ?_)
        fun habsent => ?_
      · rcases takeTurn_cases pending with ⟨error, heq⟩ | ⟨head, tail, -, -, heq⟩ | heq
        · rw [heq]
          exact ho.fail
        · rw [heq]
          exact ho
        · rw [heq]
          exact ho
      · cases hrunner.symm.trans habsent
    exact hturn.idle
  | turnFailed n id request hrunner => exact (h.failed (by rw [hrunner]; trivial)).idle
  | spawn n taskId startedAt written request started hcall hrunning =>
    exact h.spawn hcall hrunning
  | register n request hcall =>
    have hlive : (s.setRecord request.requestId
        { s.records request.requestId with live := true }).Kept := by
      have hrecord := h.records.record request.requestId
      exact h.setRecord (hrecord.set_status hrecord.status rfl rfl rfl rfl rfl rfl rfl)
        (fun _ ho => ho) fun habsent => habsent
    exact hlive.setUnowned (hkept hcall) rfl
  | saveTaskId n result request hcall =>
    obtain ⟨hresult, hlive⟩ := hm
    obtain ⟨hended, hcancelled⟩ := hlive request hcall
    exact (h.save ((h.records.record request.requestId).save_pending hended hcancelled
      (.inl (hkept hcall)) hresult)).idle
  | cancel n id sessionId readable request hfile => exact h.setUnowned trivial rfl
  | abort n here request hcall hlive =>
    obtain ⟨hnot, hnone⟩ := hm request hcall hlive
    have habort : (s.setRecord request.requestId { s.records request.requestId with
        live := false, aborted := true, cancelled := true }).Kept :=
      h.setRecord ((h.records.record request.requestId).abort hnot hnone)
        (fun _ ho => ⟨.inr rfl, ho.2⟩) fun habsent => habsent
    refine habort.setUnowned ?_ rfl
    simp [CallKept, BuildQueue.setRecord, Over, hnone]
  | noAbort n here request hcall => exact h.setUnowned trivial rfl
  | writeCancelled n written now request started hcall hstarted =>
    have hover := hkept hcall
    have hrecord := h.records.record request.requestId
    have hstatus : (s.setRecord request.requestId { s.records request.requestId with
        status := if written then some (started.cancellation started.notify started.wake now)
          else (s.records request.requestId).status }).Kept := by
      refine h.setRecord (hrecord.set_status (fun status hs hfin => ?_) rfl rfl rfl rfl rfl rfl rfl)
        (fun _ ho => ho) fun habsent => habsent
      cases written with
      | true => exact hover.of_cancelled
      | false => exact hrecord.status status hs hfin
    exact hstatus.setUnowned trivial rfl
  | saveCancelled n result now request hcall =>
    obtain ⟨hresult, hover⟩ := hm
    exact (h.saveCancelled hresult (hover request hcall)).idle

/-! ### Whole runs -/

lemma kept_empty : (empty : BuildQueue F).Kept where
  records := by
    refine ⟨fun _ => ⟨fun ho => absurd rfl ho, ?_, fun hs => absurd rfl hs, ?_, fun hw => hw.elim,
      fun _ => rfl, by rintro ⟨⟩, ?_, ?_⟩, fun _ => trivial⟩
    · rintro _ ⟨⟩
    · rintro _ ⟨⟩
    · rintro _ ⟨⟩
    · rintro _ ⟨⟩
  sole := by rintro _ _ ⟨⟩

/-- Where every save is made in time, a live request is pending on file, and its last state
stays. -/
theorem keepsPlace_of_savesInTime {ms : List BuildMove}
    (hms : Guarded step SavesInTime (empty : BuildQueue F) ms) :
    Always step KeepsPlace (empty : BuildQueue F) ms := by
  have hkept : Always step (fun s => Copied s ∧ s.Kept) (empty : BuildQueue F) ms :=
    hms.always (fun _ _ _ h hm ht => ⟨h.1.step ht, h.2.step h.1 hm ht⟩) ⟨copied_empty, kept_empty⟩
  intro ks ls t hk ht
  exact (hkept ks ls t hk ht).2.keepsPlace

/-- The listing of a requester misses its own request, which then gets its task, has its turn and
is completed. -/
def completedBuild : List BuildMove :=
  [.request 0 "build" "session" "tree" "09:00" .written, .readEntry 0 false, .listed 0,
    .spawn 0 "task" "09:00" true, .register 0, .saveTaskId 0 .written,
    .advance "build" (.load true), .look "build" 0, .readEntry 0 true,
    .reconcile 0 true true "09:01",
    .listed 0, .openLock "build" true, .flock "build", .advance "build" (.start .written),
    .advance "build" (.finish ⟨.completed, some 0, none⟩ false), .advance "build" (.loadFinal true),
    .advance "build" (.saveFinal .written "09:02")]

theorem keepsPlace_of_savesInTime_completed :
    (exec step (empty : BuildQueue Nat) completedBuild).isSome ∧
      Always step KeepsPlace (empty : BuildQueue Nat) completedBuild := by
  refine ⟨rfl, keepsPlace_of_savesInTime ?_⟩
  refine .cons trivial rfl (.cons trivial rfl (.cons trivial rfl (.cons trivial rfl
    (.cons trivial rfl (.cons ⟨by simp, ?_⟩ rfl (.cons trivial rfl (.cons trivial rfl
      (.cons trivial rfl (.cons ?_ rfl (.cons trivial rfl (.cons trivial rfl (.cons trivial rfl
        (.cons (by rintro ⟨⟩) rfl (.cons trivial rfl (.cons trivial rfl (.cons (by rintro ⟨⟩) rfl
          trivial))))))))))))))))
  · rintro _ ⟨⟩
    exact ⟨rfl, rfl⟩
  · -- the listing of the task finds the task id, and the task live
    rintro _ _ _ _ ⟨⟩
    exact ⟨rfl, _, rfl, fun _ => rfl⟩

/-- The listing of a requester finds its own request, which has no task yet. -/
def requestMarked : List BuildMove :=
  [.request 0 "build" "session" "tree" "09:00" .written, .readEntry 0 true,
    .reconcile 0 false false "09:00", .mark 0 .written]

theorem not_keepsPlace :
    ¬ ∀ ms, (exec step (empty : BuildQueue Nat) ms).isSome →
      Always step KeepsPlace (empty : BuildQueue Nat) ms := by
  intro h
  have hkeeps := h requestMarked rfl requestMarked [] _ (by simp) rfl
  obtain ⟨request, hfile, hstate⟩ := hkeeps.pending "build" (by rintro ⟨⟩) rfl rfl
  cases hfile
  rcases hstate with hstate | hstate <;> cases hstate

end BuildQueue

end Jcode
