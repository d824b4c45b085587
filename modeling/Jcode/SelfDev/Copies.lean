import Jcode.SelfDev.BuildQueue

/-!
# The copies of a request

Requesters, tasks, cancels and listings have copies of requests, and save them. Every one of them
is a copy of a request that was saved, and has the id, the worktree and the time of it.
-/

namespace Jcode

open Schedule

variable {F : Type}

/-- The copy of its own request that a future has. -/
def BuildRunner.request : BuildRunner → Option BuildRequest
  | .waiting request | .listing request | .first request _ | .opened request _ _
  | .entered request _ | .published request _ _ | .saving request _ _ => some request
  | .absent | .spawned | .building _ | .publishing _ _ | .ending _ _ | .dropping _ _
  | .closing _ _ | .returned _ | .done => none

/-- The copy of its own request that a requester has. -/
def ListingFor.copies : ListingFor → List BuildRequest
  | .position request => [request]
  | .nobody | .turn _ => []

def BuildCall.copies : BuildCall → List BuildRequest
  | .idle => []
  | .loading whom _ loaded => whom.copies ++ loaded
  | .reconciling whom todo pending => whom.copies ++ (todo ++ pending)
  | .marking whom changed todo pending => whom.copies ++ (changed :: (todo ++ pending))
  | .failed whom => whom.copies
  | .spawning request | .registering request | .saving request | .cancelling request
  | .cancelWriting request | .cancelSaving request => [request]

/-- A copy of the request that has this record. -/
def BuildRecord.Copy (record : BuildRecord F) (request : BuildRequest) : Prop :=
  ∃ origin, record.origin = some origin ∧ request.SameRequest origin

/-- A record of a request: nothing of it before it is saved, and copies of it afterwards. -/
structure CopiedRecord (id : String) (record : BuildRecord F) : Prop where
  unused : record.origin = none → record = .unused
  origin : ∀ origin, record.origin = some origin → origin.requestId = id
  file : ∀ request, record.file = some request → record.Copy request
  runner : ∀ request, record.runner.request = some request → record.Copy request

/-- The copies of a call are copies of what they say. -/
def CopiedCall (records : String → BuildRecord F) (call : BuildCall) : Prop :=
  ∀ request ∈ call.copies, (records request.requestId).Copy request

namespace BuildRecord

variable {record : BuildRecord F} {request : BuildRequest} {id : String}

/-! ### What the operations leave as it is -/

@[simp] lemma origin_save {result : SaveResult} :
    (record.save request result).origin = record.origin := by
  cases result <;> rfl

@[simp] lemma runner_save {result : SaveResult} :
    (record.save request result).runner = record.runner := by
  cases result <;> rfl

@[simp] lemma origin_fail {error : String} {guard : Option BuildLockGuard} :
    (record.fail error guard).origin = record.origin := rfl

@[simp] lemma file_fail {error : String} {guard : Option BuildLockGuard} :
    (record.fail error guard).file = record.file := rfl

lemma request_fail {error : String} {guard : Option BuildLockGuard} :
    (record.fail error guard).runner.request = none := by
  cases guard <;> rfl

lemma file_save {other : BuildRequest} {result : SaveResult}
    (h : (record.save request result).file = some other) :
    other = request ∨ record.file = some other := by
  cases result with
  | written => exact .inl (Option.some.inj h).symm
  | kept => exact .inr h
  | lost => cases h

lemma takeTurn_cases (pending : List BuildRequest) :
    (∃ error, record.takeTurn request pending = record.fail error none) ∨
    (∃ head tail, pending.filter (·.worktreeScope == request.worktreeScope) = head :: tail ∧
      head.requestId = request.requestId ∧
      record.takeTurn request pending = { record with runner := .first request (head :: tail) }) ∨
    record.takeTurn request pending = { record with runner := .waiting request } := by
  unfold takeTurn
  simp only
  split
  · exact .inl ⟨_, rfl⟩
  · rename_i hindex
    obtain ⟨hlt, hhead, -⟩ := List.findIdx?_eq_some_iff_getElem.mp hindex
    cases hqueue : pending.filter (·.worktreeScope == request.worktreeScope) with
    | nil => simp [hqueue] at hlt
    | cons head tail =>
      refine .inr (.inl ⟨head, tail, rfl, ?_, rfl⟩)
      simpa [hqueue] using hhead
  · exact .inr (.inr rfl)

/-! ### Copies of a record that changes -/

lemma Copy.congr {other : BuildRecord F} (h : record.Copy request)
    (horigin : other.origin = record.origin) : other.Copy request := by
  obtain ⟨origin, ho, hsame⟩ := h
  exact ⟨origin, horigin.trans ho, hsame⟩

lemma Copy.of_same {other : BuildRequest} (h : record.Copy request)
    (hsame : other.SameRequest request) : record.Copy other := by
  obtain ⟨origin, ho, hrequest⟩ := h
  exact ⟨origin, ho, hsame.trans hrequest⟩

lemma Copy.isSome (h : record.Copy request) : record.origin ≠ none := by
  obtain ⟨origin, ho, -⟩ := h
  rw [ho]
  simp

end BuildRecord

namespace CopiedRecord

variable {a b record : BuildRecord F} {request : BuildRequest} {id : String}

lemma requestId (h : CopiedRecord id record) (hcopy : record.Copy request) :
    request.requestId = id := by
  obtain ⟨origin, ho, hsame⟩ := hcopy
  exact hsame.requestId.trans (h.origin origin ho)

/-- A record changes after its request was saved. -/
lemma of_origin (h : CopiedRecord id a) (hsome : a.origin ≠ none) (horigin : b.origin = a.origin)
    (hfile : ∀ request, b.file = some request → a.Copy request)
    (hrunner : ∀ request, b.runner.request = some request → a.Copy request) :
    CopiedRecord id b where
  unused hnone := absurd (horigin.symm.trans hnone) hsome
  origin origin ho := h.origin origin (horigin.symm.trans ho)
  file request hf := (hfile request hf).congr horigin
  runner request hr := (hrunner request hr).congr horigin

lemma origin_ne (h : CopiedRecord id a) (hrunner : a.runner ≠ .absent) : a.origin ≠ none := by
  intro hnone
  rw [h.unused hnone] at hrunner
  exact hrunner rfl

lemma fail (h : CopiedRecord id a) (hsome : a.origin ≠ none) {error : String}
    {guard : Option BuildLockGuard} : CopiedRecord id (a.fail error guard) := by
  refine h.of_origin hsome rfl h.file fun request hr => ?_
  rw [BuildRecord.request_fail] at hr
  cases hr

/-- The future goes on, with what copies it has. -/
lemma go_on (h : CopiedRecord id a) (hsome : a.origin ≠ none) (horigin : b.origin = a.origin)
    (hfile : b.file = a.file)
    (hrunner : ∀ request, b.runner.request = some request → a.Copy request) : CopiedRecord id b :=
  h.of_origin hsome horigin (fun request hf => h.file request (hfile.symm.trans hf)) hrunner

/-- The future goes on without a copy. -/
lemma go_idle (h : CopiedRecord id a) (hsome : a.origin ≠ none) (horigin : b.origin = a.origin)
    (hfile : b.file = a.file) (hrunner : b.runner.request = none) : CopiedRecord id b := by
  refine h.go_on hsome horigin hfile fun request hr => ?_
  cases hrunner.symm.trans hr

/-- A copy is saved. -/
lemma save (h : CopiedRecord id a) (hcopy : a.Copy request) {result : SaveResult} :
    CopiedRecord id (a.save request result) := by
  refine h.of_origin hcopy.isSome BuildRecord.origin_save (fun other hf => ?_) fun other hr => ?_
  · rcases BuildRecord.file_save hf with rfl | hf
    · exact hcopy
    · exact h.file other hf
  · rw [BuildRecord.runner_save] at hr
    exact h.runner other hr

lemma takeTurn (h : CopiedRecord id a) (hcopy : a.Copy request) (pending : List BuildRequest) :
    CopiedRecord id (a.takeTurn request pending) := by
  rcases BuildRecord.takeTurn_cases pending with ⟨error, heq⟩ | ⟨head, tail, -, -, heq⟩ | heq
  · rw [heq]
    exact h.fail hcopy.isSome
  · rw [heq]
    refine h.go_on hcopy.isSome rfl rfl fun other hr => ?_
    cases hr
    exact hcopy
  · rw [heq]
    refine h.go_on hcopy.isSome rfl rfl fun other hr => ?_
    cases hr
    exact hcopy

lemma advance (h : CopiedRecord id a) {m : RequestMove} (hm : a.advance m = some b) :
    CopiedRecord id b ∧ b.origin = a.origin := by
  have hsome : a.origin ≠ none := by
    intro hnone
    rw [h.unused hnone] at hm
    cases m <;> simp [BuildRecord.advance, BuildRecord.unused] at hm
  have hsaved {request : BuildRequest} {result : SaveResult} (hcopy : a.Copy request) :
      CopiedRecord id (a.save request result) := h.save hcopy
  have hquiet {c : BuildRecord F} (horigin : c.origin = a.origin) (hfile : c.file = a.file)
      (hrunner : c.runner.request = none) : CopiedRecord id c ∧ c.origin = a.origin :=
    ⟨h.go_idle hsome horigin hfile hrunner, horigin⟩
  have hcopy {request : BuildRequest} (hr : a.runner.request = some request) : a.Copy request :=
    h.runner request hr
  cases BuildRecord.advance_of_eq hm with
  | load readable request hrunner haborted hfile =>
    refine ⟨h.go_on hsome rfl rfl fun other hr => ?_, rfl⟩
    cases hr
    exact h.file request hfile
  | fail error guard => exact ⟨h.fail hsome, rfl⟩
  | start request guard hrunner =>
    have hrequest : a.Copy request := hcopy (by rw [hrunner]; rfl)
    have hstart : CopiedRecord id (a.save request.start .written) :=
      hsaved (hrequest.of_same ⟨rfl, rfl, rfl⟩)
    exact ⟨hstart.go_idle hsome rfl rfl rfl, rfl⟩
  | startFailed result request guard error hrunner =>
    have hrequest : a.Copy request := hcopy (by rw [hrunner]; rfl)
    have hstart : CopiedRecord id (a.save request.start result) :=
      hsaved (hrequest.of_same ⟨rfl, rfl, rfl⟩)
    refine ⟨hstart.fail ?_, by simp⟩
    rwa [BuildRecord.origin_save]
  | publish outcome guard => exact hquiet rfl rfl rfl
  | finish outcome guard => exact hquiet rfl rfl rfl
  | loadPublished readable request guard outcome hrunner hfile =>
    refine ⟨h.go_on hsome rfl rfl fun other hr => ?_, rfl⟩
    cases hr
    exact h.file request hfile
  | savePublished request guard outcome hrunner =>
    have hsave : CopiedRecord id (a.save request .written) := hsaved (hcopy (by rw [hrunner]; rfl))
    exact ⟨hsave.go_idle hsome rfl rfl rfl, rfl⟩
  | savePublishedFailed result request guard outcome error hrunner =>
    refine ⟨(hsaved (hcopy (by rw [hrunner]; rfl))).fail ?_, by simp⟩
    rwa [BuildRecord.origin_save]
  | loadFinal readable request guard outcome hrunner hfile =>
    refine ⟨h.go_on hsome rfl rfl fun other hr => ?_, rfl⟩
    cases hr
    exact h.file request hfile
  | saveFinal now request guard outcome hrunner =>
    have hrequest : a.Copy request := hcopy (by rw [hrunner]; rfl)
    have hfinish : CopiedRecord id (a.save (request.finish outcome now) .written) :=
      hsaved (hrequest.of_same ⟨rfl, rfl, rfl⟩)
    exact ⟨hfinish.go_idle hsome rfl rfl rfl, rfl⟩
  | saveFinalFailed result now request guard outcome error hrunner =>
    have hrequest : a.Copy request := hcopy (by rw [hrunner]; rfl)
    have hfinish : CopiedRecord id (a.save (request.finish outcome now) result) :=
      hsaved (hrequest.of_same ⟨rfl, rfl, rfl⟩)
    refine ⟨hfinish.fail ?_, by simp⟩
    rwa [BuildRecord.origin_save]
  | complete written now outcome started => exact hquiet rfl rfl rfl
  | dropIdle => exact hquiet rfl rfl rfl
  | dropBuilding guard => exact hquiet rfl rfl rfl

end CopiedRecord

namespace BuildQueue

/-! ### The copies of all -/

variable {s t : BuildQueue F} {m : BuildMove} {id : String} {n : Nat} {record : BuildRecord F}
  {call : BuildCall} {request : BuildRequest}

/-- Everything that is called a copy of a request is one. -/
def Copied (s : BuildQueue F) : Prop :=
  Records.Holds CopiedRecord (fun records _ => CopiedCall records) s.records s.calls

/-- What was saved first stays. -/
def SameOrigin (a b : BuildRecord F) : Prop :=
  ∀ origin, a.origin = some origin → b.origin = some origin

lemma CopiedCall.mono {records records' : String → BuildRecord F}
    (hsame : ∀ id, SameOrigin (records id) (records' id)) (h : CopiedCall records call) :
    CopiedCall records' call := by
  intro request hmem
  obtain ⟨origin, ho, hrequest⟩ := h request hmem
  exact ⟨origin, hsame _ origin ho, hrequest⟩

lemma Copied.setRecord (h : Copied s) (hrecord : CopiedRecord id record)
    (horigin : SameOrigin (s.records id) record) : Copied (s.setRecord id record) :=
  Records.Holds.record_step h (fun _ _ ho => ho) (fun _ _ _ _ hs => CopiedCall.mono hs) hrecord
    horigin

lemma Copied.setCall (h : Copied s) (hcall : CopiedCall s.records call) :
    Copied (s.setCall n call) :=
  Records.Holds.user_step h hcall

lemma Copied.congr (h : Copied s) (hrecords : t.records = s.records) (hcalls : t.calls = s.calls) :
    Copied t := by
  unfold Copied
  rw [hrecords, hcalls]
  exact h

/-- The call knows of no more copies than before. -/
lemma Copied.of_subset (h : Copied s) (hsubset : ∀ c ∈ call.copies, c ∈ (s.calls n).copies) :
    Copied (s.setCall n call) :=
  h.setCall fun request hmem => h.user n request (hsubset request hmem)

lemma Copied.idle (h : Copied s) : Copied (s.setCall n .idle) := h.setCall (by rintro _ ⟨⟩)

/-- The record of a copy. -/
lemma Copied.copy (h : Copied s) (hcall : s.calls n = call) (hmem : request ∈ call.copies) :
    (s.records request.requestId).Copy request :=
  h.user n request (hcall ▸ hmem)

/-- The record of a copy changes, its request and file do not, and the call goes on with it. -/
lemma Copied.touch (h : Copied s) (hcopy : (s.records id).Copy request)
    (horigin : record.origin = (s.records id).origin) (hfile : record.file = (s.records id).file)
    (hrunner : ∀ other, record.runner.request = some other →
      (s.records id).runner.request = some other) (hcall : call.copies = (s.calls n).copies) :
    Copied ((s.setRecord id record).setCall n call) := by
  have hrecord : Copied (s.setRecord id record) :=
    h.setRecord ((h.record _).go_on hcopy.isSome horigin hfile fun other hr =>
      (h.record _).runner other (hrunner other hr)) fun _ ho => horigin.trans ho
  refine hrecord.of_subset fun other hmem => ?_
  rwa [hcall] at hmem

/-- A copy is saved. -/
lemma Copied.save (h : Copied s) (hcopy : (s.records id).Copy request) (result : SaveResult) :
    Copied (s.setRecord id ((s.records id).save request result)) :=
  h.setRecord ((h.record id).save hcopy) fun _ ho => BuildRecord.origin_save.trans ho

lemma Copied.of_file (h : Copied s) (hfile : (s.records id).file = some request) :
    (s.records request.requestId).Copy request := by
  have hcopy := (h.record id).file request hfile
  rwa [(h.record id).requestId hcopy]

lemma copies_loadAll {whom : ListingFor} {entries : List String} {loaded : List BuildRequest}
    (hmem : request ∈ (loadAll whom entries loaded).copies) :
    request ∈ whom.copies ∨ request ∈ loaded := by
  cases entries with
  | nil =>
    simp only [loadAll, BuildCall.copies, List.append_nil, List.mem_append, List.mem_filter,
      BuildRequest.mem_sorted] at hmem
    exact hmem.imp_right And.left
  | cons id entries => exact List.mem_append.mp hmem

/-- The future goes on, and the file is as it was. -/
lemma Copied.setRunner (h : Copied s) {runner : BuildRunner}
    (hrunner : (s.records id).runner ≠ .absent)
    (hrequest : ∀ request, runner.request = some request →
      (s.records id).runner.request = some request) : Copied (s.setRunner id runner) := by
  have hrecord := h.record id
  refine h.setRecord (hrecord.go_on (hrecord.origin_ne hrunner) rfl rfl fun request hr => ?_)
    fun _ ho => ho
  exact hrecord.runner request (hrequest request hr)

lemma Copied.step (h : Copied s) (ht : s.step m = some t) : Copied t := by
  cases effect_of_step ht with
  | advance id m record hadvance =>
    obtain ⟨hrecord, horigin⟩ := (h.record id).advance hadvance
    exact h.setRecord hrecord fun _ ho => horigin.trans ho
  | openLock id request queue hrunner =>
    have hopened : Copied (s.setRunner id (.opened request queue
        ⟨request.worktreeScope, (s.locks request.worktreeScope).file.target⟩)) :=
      h.setRunner (by simp [hrunner]) fun other hr => by rw [hrunner]; exact hr
    exact hopened.congr rfl rfl
  | openFailed id request queue hrunner =>
    exact h.setRecord ((h.record id).fail ((h.record id).origin_ne (by simp [hrunner])))
      fun _ ho => ho
  | flock id request queue guard hrunner =>
    have hentered : Copied (s.setRunner id (.entered request guard)) :=
      h.setRunner (by simp [hrunner]) fun other hr => by rw [hrunner]; exact hr
    exact hentered.congr rfl rfl
  | busy id request queue guard hrunner =>
    exact h.setRunner (by simp [hrunner]) fun other hr => by rw [hrunner]; exact hr
  | unlink id removed guard outcome hrunner =>
    have hclosing : Copied (s.setRunner id (.closing guard outcome)) :=
      h.setRunner (by simp [hrunner]) (by rintro _ ⟨⟩)
    exact hclosing.congr rfl rfl
  | close id guard outcome hrunner =>
    have hclosed : Copied (s.setRunner id (.ofOutcome outcome)) := by
      refine h.setRunner (by simp [hrunner]) fun other hr => ?_
      cases outcome <;> cases hr
    exact hclosed.congr rfl rfl
  | look id n request hrunner =>
    have hlisting : Copied (s.setRunner id (.listing request)) :=
      h.setRunner (by simp [hrunner]) fun other hr => by rw [hrunner]; exact hr
    refine hlisting.setCall fun other hmem => ?_
    rcases copies_loadAll hmem with hmem | hmem <;> cases hmem
  | stay => exact h
  | idle n => exact h.idle
  | list n =>
    refine h.setCall fun other hmem => ?_
    rcases copies_loadAll hmem with hmem | hmem <;> cases hmem
  | request n id sessionId worktreeScope requestedAt hnew =>
    have hcopy : BuildRecord.Copy (F := F) { BuildRecord.unused with
        file := some (.initial id sessionId worktreeScope requestedAt)
        origin := some (.initial id sessionId worktreeScope requestedAt) }
        (.initial id sessionId worktreeScope requestedAt) :=
      ⟨_, rfl, .refl _⟩
    have hrecord : Copied (s.setRecord id { BuildRecord.unused with
        file := some (.initial id sessionId worktreeScope requestedAt)
        origin := some (.initial id sessionId worktreeScope requestedAt) }) := by
      refine h.setRecord ⟨by simp, ?_, ?_, by rintro _ ⟨⟩⟩ fun _ ho => ?_
      · rintro _ ⟨⟩
        rfl
      · rintro _ ⟨⟩
        exact hcopy
      · cases hnew.symm.trans ho
    have hcall : CopiedCall (s.setRecord id { BuildRecord.unused with
        file := some (.initial id sessionId worktreeScope requestedAt)
        origin := some (.initial id sessionId worktreeScope requestedAt) }).records
        (loadAll (.position (.initial id sessionId worktreeScope requestedAt))
          (s.entries ++ [id]) []) := by
      intro other hmem
      rcases copies_loadAll hmem with hmem | hmem
      · cases List.mem_singleton.mp hmem
        simpa [BuildQueue.setRecord, BuildRequest.initial] using hcopy
      · cases hmem
    exact (hrecord.setCall hcall).congr rfl rfl
  | readEntry n readable whom id entries loaded hcall =>
    refine h.setCall fun other hmem => ?_
    rcases copies_loadAll hmem with hmem | hmem
    · exact h.copy hcall (List.mem_append_left _ hmem)
    · rcases List.mem_append.mp hmem with hmem | hmem
      · exact h.copy hcall (List.mem_append_right _ hmem)
      · exact h.of_file (BuildRecord.file_of_load (Option.mem_toList.mp hmem))
  | reconcileKeep n readable live now whom request todo pending hcall =>
    refine h.of_subset fun other hmem => ?_
    rw [hcall]
    simp only [BuildCall.copies, List.mem_append, List.mem_cons, List.not_mem_nil,
      or_false] at hmem ⊢
    tauto
  | reconcile n readable live now whom request changed todo pending hcall hchanged =>
    refine h.setCall fun other hmem => ?_
    have hsame := BuildRequest.sameRequest_reconcile hchanged
    have hrequest : (s.records request.requestId).Copy request :=
      h.copy hcall (by simp [BuildCall.copies])
    simp only [BuildCall.copies, List.mem_append, List.mem_cons] at hmem
    rcases hmem with hmem | rfl | hmem
    · exact h.copy hcall (List.mem_append_left _ hmem)
    · rw [hsame.requestId]
      exact hrequest.of_same hsame
    · refine h.copy hcall ?_
      simp only [BuildCall.copies, List.mem_append, List.mem_cons]
      tauto
  | mark n result whom changed todo pending hcall =>
    have hcopy : (s.records changed.requestId).Copy changed :=
      h.copy hcall (by simp [BuildCall.copies])
    refine (h.save hcopy result).of_subset fun other hmem => ?_
    change other ∈ (s.calls n).copies
    rw [hcall]
    split_ifs at hmem
    · simp only [BuildCall.copies, List.mem_append, List.mem_cons] at hmem ⊢
      tauto
    · exact List.mem_append_left _ hmem
  | position n request pending hcall =>
    refine h.of_subset fun other hmem => ?_
    rw [hcall]
    exact List.mem_append_left _ hmem
  | turn n id request pending hcall hrunner =>
    have hcopy : (s.records id).Copy request :=
      (h.record id).runner request (by rw [hrunner]; rfl)
    have hturn : Copied (s.setRecord id ((s.records id).takeTurn request pending)) := by
      refine h.setRecord ((h.record id).takeTurn hcopy pending) fun origin ho => ?_
      rcases BuildRecord.takeTurn_cases pending with ⟨error, heq⟩ | ⟨head, tail, -, -, heq⟩ | heq
      · rw [heq]
        exact ho
      · rw [heq]
        exact ho
      · rw [heq]
        exact ho
    exact hturn.idle
  | turnFailed n id request hrunner =>
    have hfailed : Copied (s.setRecord id
        ((s.records id).fail "Failed to list pending requests" none)) :=
      h.setRecord ((h.record id).fail ((h.record id).origin_ne (by simp [hrunner])))
        fun _ ho => ho
    exact hfailed.idle
  | spawn n taskId startedAt written request started hcall =>
    have hcopy : (s.records request.requestId).Copy request :=
      h.copy hcall List.mem_cons_self
    have hspawned : Copied (s.setRecord request.requestId { s.records request.requestId with
        status := if written then some started else none
        started := some started
        runner := .spawned }) :=
      h.setRecord ((h.record _).go_idle hcopy.isSome rfl rfl rfl) fun _ ho => ho
    refine hspawned.setCall fun other hmem => ?_
    cases List.mem_singleton.mp hmem
    have hnew : (s.records request.requestId).Copy
        { request with backgroundTaskId := some taskId } := hcopy.of_same ⟨rfl, rfl, rfl⟩
    simp only [BuildQueue.setRecord, Function.update_self]
    exact hnew.congr rfl
  | register n request hcall =>
    have hcopy : (s.records request.requestId).Copy request :=
      h.copy hcall List.mem_cons_self
    refine h.touch hcopy ?_ ?_ (fun _ hr => hr) (by rw [hcall]; rfl) <;> rfl
  | saveTaskId n result request hcall =>
    exact (h.save (h.copy hcall List.mem_cons_self) result).idle
  | cancel n id sessionId readable request hfile =>
    refine h.setCall fun other hmem => ?_
    cases List.mem_singleton.mp hmem
    exact h.of_file hfile
  | abort n here request hcall =>
    have hcopy : (s.records request.requestId).Copy request :=
      h.copy hcall List.mem_cons_self
    refine h.touch hcopy ?_ ?_ (fun _ hr => hr) (by rw [hcall]; rfl) <;> rfl
  | noAbort n here request hcall =>
    refine h.of_subset fun other hmem => ?_
    rwa [hcall]
  | writeCancelled n written now request started hcall hstarted =>
    have hcopy : (s.records request.requestId).Copy request :=
      h.copy hcall List.mem_cons_self
    refine h.touch hcopy ?_ ?_ (fun _ hr => hr) (by rw [hcall]; rfl) <;> rfl
  | saveCancelled n result now request hcall =>
    have hcopy : (s.records request.requestId).Copy request :=
      h.copy hcall List.mem_cons_self
    have hcancel : (s.records request.requestId).Copy (request.cancel now) :=
      hcopy.of_same ⟨rfl, rfl, rfl⟩
    cases result with
    | written =>
      have hsave : CopiedRecord request.requestId
          ((s.records request.requestId).save (request.cancel now) .written) :=
        (h.record request.requestId).save hcancel
      have hsettled : CopiedRecord request.requestId
          { ((s.records request.requestId).save (request.cancel now) .written).settle
            .cancelled with
            cancelled := true } := hsave.go_on hcopy.isSome rfl rfl hsave.runner
      exact (h.setRecord hsettled fun _ ho => ho).idle
    | kept => exact (h.save hcancel .kept).idle
    | lost => exact (h.save hcancel .lost).idle

lemma copied_empty : Copied (empty : BuildQueue F) :=
  ⟨fun _ => ⟨fun _ => rfl, by rintro _ ⟨⟩, by rintro _ ⟨⟩, by rintro _ ⟨⟩⟩, fun _ => by rintro _ ⟨⟩⟩

/-- In every run, all copies are copies of what they say. -/
theorem copied_of_exec {ms : List BuildMove} (ht : exec step (empty : BuildQueue F) ms = some t) :
    Copied t :=
  exec_invariant (fun _ _ _ h ht => h.step ht) copied_empty ht

end BuildQueue

end Jcode
