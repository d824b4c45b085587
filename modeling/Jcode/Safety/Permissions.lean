import Jcode.Foundation.Run
import Jcode.Provider.Sse
import Mathlib.Data.List.Nodup
import Mathlib.Logic.Function.Basic

/-!
# Permission requests and decisions

A `SafetySystem` has its own queue and history, which it has read when it was created, and writes
them whole into the files. Pollers and tools without one change the files. A decision is final if
every instance that writes a list has the one that is in the file.
-/

namespace Jcode

open Schedule

structure PermissionRequest where
  id : String
  context : Option Json

structure Decision where
  requestId : String
  approved : Bool
  decidedAt : String
  decidedVia : String
  message : Option String
  deriving DecidableEq

/-- The session of a request, as it is found when the request is checked. -/
inductive OwnerSession
  | missing
  | active
  | inactive (status : String)
  deriving DecidableEq

def requestSessionId (request : PermissionRequest) : Option String :=
  request.context.bind fun context =>
    (context.getStr "session_id").or
      ((context.get "requester").bind fun requester => requester.getStr "session_id")

def staleRequestReason (owner : String → OwnerSession) (request : PermissionRequest) :
    Option String :=
  (requestSessionId request).bind fun sessionId =>
    match owner sessionId with
    | .missing => some ("owner session '" ++ sessionId ++ "' was not found")
    | .active => none
    | .inactive status => some ("owner session '" ++ sessionId ++ "' is " ++ status)

/-- The queue and the history, in the files or in an instance. -/
structure SafetyState where
  queue : List PermissionRequest
  history : List Decision

namespace SafetyState

def expiry (via : String) (decidedAt : String → String) (request : PermissionRequest)
    (reason : String) : Decision where
  requestId := request.id
  approved := false
  decidedAt := decidedAt request.id
  decidedVia := via
  message := some ("Expired automatically: " ++ reason ++ ". Original agent is no longer active.")

/-- What an expiry decides, each at its time. -/
def expired (owner : String → OwnerSession) (via : String) (decidedAt : String → String)
    (queue : List PermissionRequest) : List Decision :=
  queue.filterMap fun request =>
    (staleRequestReason owner request).map (expiry via decidedAt request)

variable (state : SafetyState)

def request (request : PermissionRequest) : SafetyState :=
  { state with queue := state.queue ++ [request] }

def decide (decision : Decision) : SafetyState where
  queue := state.queue.filter fun request => request.id != decision.requestId
  history := state.history ++ [decision]

def expire (owner : String → OwnerSession) (via : String) (decidedAt : String → String) :
    SafetyState where
  queue := state.queue.filter fun request => (staleRequestReason owner request).isNone
  history := state.history ++ expired owner via decidedAt state.queue

end SafetyState

/-- The files, the live instances, and what has been submitted and decided. -/
structure Permissions where
  files : SafetyState
  instances : Nat → Option SafetyState
  submitted : List PermissionRequest
  decided : List Decision

inductive PermissionMove
  | new (n : Nat)
  | requestPermission (n : Nat) (request : PermissionRequest)
  | expireDeadSessionRequests (n : Nat) (owner : String → OwnerSession) (via : String)
    (decidedAt : String → String)
  | recordDecision (n : Nat) (decision : Decision)
  | recordPermissionViaFile (decision : Decision)
  | expireStalePermissionsViaFile (owner : String → OwnerSession) (via : String)
    (decidedAt : String → String)

namespace Permissions

/-- No files, and no instance. -/
def empty : Permissions := ⟨⟨[], []⟩, fun _ => none, [], []⟩

/-- An instance has changed its lists, and writes the queue. -/
def persistQueue (s : Permissions) (n : Nat) (state : SafetyState) : Permissions :=
  { s with
    files := { s.files with queue := state.queue }
    instances := Function.update s.instances n (some state) }

def persistHistory (s : Permissions) (history : List Decision) : Permissions :=
  { s with files := { s.files with history := history } }

/-- One call. Request ids are new. -/
def step (s : Permissions) : PermissionMove → Option Permissions
  | .new n => some { s with instances := Function.update s.instances n (some s.files) }
  | .requestPermission n request =>
    match s.instances n with
    | none => none
    | some state =>
      if (s.submitted.any fun other => other.id == request.id) ∨
          s.decided.any fun decision => decision.requestId == request.id then none
      else
        some { s.persistQueue n (state.request request) with
          submitted := s.submitted ++ [request] }
  | .expireDeadSessionRequests n owner via decidedAt =>
    match s.instances n with
    | none => none
    | some state =>
      let expired := SafetyState.expired owner via decidedAt state.queue
      let state := state.expire owner via decidedAt
      let s' := s.persistQueue n state
      if expired.isEmpty then some s'
      else some { s'.persistHistory state.history with decided := s.decided ++ expired }
  | .recordDecision n decision =>
    match s.instances n with
    | none => none
    | some state =>
      let state := state.decide decision
      some { (s.persistQueue n state).persistHistory state.history with
        decided := s.decided ++ [decision] }
  | .recordPermissionViaFile decision =>
    some { s with files := s.files.decide decision, decided := s.decided ++ [decision] }
  | .expireStalePermissionsViaFile owner via decidedAt =>
    some { s with
      files := s.files.expire owner via decidedAt
      decided := s.decided ++ SafetyState.expired owner via decidedAt s.files.queue }

/-- What is decided is not in the queue, and in the history; and what is not is in the queue. -/
structure DecisionsFinal (s : Permissions) : Prop where
  queue : ∀ decision ∈ s.decided, ∀ request ∈ s.files.queue, request.id ≠ decision.requestId
  history : ∀ decision ∈ s.decided, decision ∈ s.files.history
  pending : ∀ request ∈ s.submitted,
    (∀ decision ∈ s.decided, decision.requestId ≠ request.id) → request ∈ s.files.queue

/-- An instance that writes a list has what is in the file, apart from what the call decides. -/
def InSync (s : Permissions) : PermissionMove → Prop
  | .requestPermission n _ => ∀ state, s.instances n = some state →
      state.queue = s.files.queue
  | .expireDeadSessionRequests n owner _ _ => ∀ state, s.instances n = some state →
      (state.queue.filter fun request => (staleRequestReason owner request).isNone) =
          (s.files.queue.filter fun request => (staleRequestReason owner request).isNone) ∧
        (∀ request ∈ s.files.queue, (staleRequestReason owner request).isSome →
          request ∈ state.queue) ∧
        ((∃ request ∈ state.queue, (staleRequestReason owner request).isSome) →
          state.history = s.files.history)
  | .recordDecision n decision => ∀ state, s.instances n = some state →
      (state.queue.filter fun request => request.id != decision.requestId) =
          (s.files.queue.filter fun request => request.id != decision.requestId) ∧
        state.history = s.files.history
  | _ => True

/-! ### The files alone -/

/-- What the files have of what was submitted and decided; submitted ids are distinct. -/
structure Sound (files : SafetyState) (submitted : List PermissionRequest)
    (decided : List Decision) : Prop where
  queue : ∀ decision ∈ decided, ∀ request ∈ files.queue, request.id ≠ decision.requestId
  history : ∀ decision ∈ decided, decision ∈ files.history
  pending : ∀ request ∈ submitted,
    (∀ decision ∈ decided, decision.requestId ≠ request.id) → request ∈ files.queue
  known : ∀ request ∈ files.queue, request ∈ submitted
  nodup : (submitted.map PermissionRequest.id).Nodup

variable {files : SafetyState} {submitted : List PermissionRequest} {decided : List Decision}
  {owner : String → OwnerSession} {via : String} {decidedAt : String → String}

/-- A decision of an expiry is about a stale request of the queue. -/
lemma mem_expired {queue : List PermissionRequest} {decision : Decision}
    (h : decision ∈ SafetyState.expired owner via decidedAt queue) :
    ∃ request ∈ queue, (staleRequestReason owner request).isSome ∧
      decision.requestId = request.id := by
  obtain ⟨request, hmem, hdecision⟩ := List.mem_filterMap.mp h
  obtain ⟨reason, hreason, rfl⟩ := Option.map_eq_some_iff.mp hdecision
  exact ⟨request, hmem, by simp [hreason], rfl⟩

/-- Every stale request of the queue is decided by an expiry. -/
lemma exists_expired {queue : List PermissionRequest} {request : PermissionRequest}
    (hmem : request ∈ queue) (hstale : (staleRequestReason owner request).isSome) :
    ∃ decision ∈ SafetyState.expired owner via decidedAt queue,
      decision.requestId = request.id := by
  obtain ⟨reason, hreason⟩ := Option.isSome_iff_exists.mp hstale
  refine ⟨SafetyState.expiry via decidedAt request reason, ?_, rfl⟩
  exact List.mem_filterMap.mpr ⟨request, hmem, by rw [hreason]; rfl⟩

lemma Sound.request (h : Sound files submitted decided) {request : PermissionRequest}
    (hnew : ∀ other ∈ submitted, other.id ≠ request.id)
    (hopen : ∀ decision ∈ decided, decision.requestId ≠ request.id) :
    Sound (files.request request) (submitted ++ [request]) decided := by
  refine ⟨fun decision hd other hmem => ?_, h.history, fun other hmem hother => ?_,
    fun other hmem => ?_, ?_⟩
  · rcases List.mem_append.mp hmem with hmem | hmem
    · exact h.queue decision hd other hmem
    · cases List.mem_singleton.mp hmem
      exact (hopen decision hd).symm
  · rcases List.mem_append.mp hmem with hmem | hmem
    · exact List.mem_append_left _ (h.pending other hmem hother)
    · exact List.mem_append_right _ hmem
  · rcases List.mem_append.mp hmem with hmem | hmem
    · exact List.mem_append_left _ (h.known other hmem)
    · exact List.mem_append_right _ hmem
  · rw [List.map_append, List.nodup_append]
    refine ⟨h.nodup, List.nodup_singleton _, ?_⟩
    rintro _ hid _ hlast rfl
    obtain ⟨other, hmem, rfl⟩ := List.mem_map.mp hid
    exact hnew other hmem (List.mem_singleton.mp hlast)

/-- Requests leave the queue, each with a decision that is recorded. -/
lemma Sound.decideAll (h : Sound files submitted decided) {keep : PermissionRequest → Bool}
    {more : List Decision}
    (hkeep : ∀ request ∈ files.queue, keep request = true →
      ∀ decision ∈ more, request.id ≠ decision.requestId)
    (hmore : ∀ request ∈ files.queue, keep request = false →
      ∃ decision ∈ more, decision.requestId = request.id) :
    Sound ⟨files.queue.filter keep, files.history ++ more⟩ submitted (decided ++ more) := by
  refine ⟨fun decision hd request hmem => ?_, fun decision hd => ?_, fun request hmem hopen => ?_,
    fun request hmem => h.known request (List.mem_of_mem_filter hmem), h.nodup⟩
  · obtain ⟨hmem, hkept⟩ := List.mem_filter.mp hmem
    rcases List.mem_append.mp hd with hd | hd
    · exact h.queue decision hd request hmem
    · exact hkeep request hmem hkept decision hd
  · exact List.mem_append.mpr ((List.mem_append.mp hd).imp_left (h.history decision))
  · have hqueue : request ∈ files.queue :=
      h.pending request hmem fun decision hd => hopen decision (List.mem_append_left _ hd)
    refine List.mem_filter.mpr ⟨hqueue, ?_⟩
    by_contra hkept
    obtain ⟨decision, hd, hid⟩ := hmore request hqueue (by simpa using hkept)
    exact hopen decision (List.mem_append_right _ hd) hid

lemma Sound.decide (h : Sound files submitted decided) (decision : Decision) :
    Sound (files.decide decision) submitted (decided ++ [decision]) := by
  refine h.decideAll (fun request hmem hkept other hother => ?_) fun request hmem hkept => ?_
  · cases List.mem_singleton.mp hother
    simpa using hkept
  · exact ⟨decision, List.mem_singleton_self _, (bne_eq_false_iff_eq.mp hkept).symm⟩

/-- An expiry decides by a queue that has the stale requests of the file. -/
lemma Sound.expire (h : Sound files submitted decided) {queue : List PermissionRequest}
    (hknown : ∀ request ∈ queue, request ∈ submitted)
    (hstale : ∀ request ∈ files.queue, (staleRequestReason owner request).isSome →
      request ∈ queue) :
    Sound ⟨files.queue.filter fun request => (staleRequestReason owner request).isNone,
      files.history ++ SafetyState.expired owner via decidedAt queue⟩ submitted
      (decided ++ SafetyState.expired owner via decidedAt queue) := by
  refine h.decideAll (fun request hmem hkept decision hd hid => ?_) fun request hmem hkept => ?_
  · -- a request with that id is stale, and ids are distinct
    obtain ⟨other, hother, hstale, hrequest⟩ := mem_expired hd
    have hsame : request = other :=
      List.inj_on_of_nodup_map h.nodup (h.known request hmem) (hknown other hother)
        (hid.trans hrequest)
    subst hsame
    simp [Option.isNone_iff_eq_none.mp hkept] at hstale
  · have hsome : (staleRequestReason owner request).isSome := by simpa using hkept
    exact exists_expired (hstale request hmem hsome) hsome

/-! ### One call -/

/-- The files have what they should, and an instance has only what was submitted. -/
structure Kept (s : Permissions) : Prop where
  files : Sound s.files s.submitted s.decided
  instances : ∀ n state, s.instances n = some state → ∀ request ∈ state.queue,
    request ∈ s.submitted

variable {s t : Permissions} {m : PermissionMove}

lemma Kept.decisionsFinal (h : Kept s) : DecisionsFinal s :=
  ⟨h.files.queue, h.files.history, h.files.pending⟩

/-- One instance has changed, and what was submitted is kept. -/
lemma Kept.update (h : Kept s) {n : Nat} {state : SafetyState} {submitted : List PermissionRequest}
    (hsub : ∀ request ∈ s.submitted, request ∈ submitted)
    (hstate : ∀ request ∈ state.queue, request ∈ submitted) :
    ∀ k other, Function.update s.instances n (some state) k = some other →
      ∀ request ∈ other.queue, request ∈ submitted := by
  intro k other hk request hmem
  rw [Function.update_apply] at hk
  split_ifs at hk with hkn
  · cases hk
    exact hstate request hmem
  · exact hsub request (h.instances k other hk request hmem)

lemma Kept.step (h : Kept s) (hm : InSync s m) (ht : s.step m = some t) : Kept t := by
  cases m with
  | new n =>
    cases ht
    exact ⟨h.files, h.update (fun _ => id) h.files.known⟩
  | requestPermission n request =>
    simp only [Permissions.step] at ht
    split at ht
    · cases ht
    · rename_i state hstate
      split_ifs at ht with hnew
      cases ht
      simp only [List.any_eq_true, beq_iff_eq, not_or, not_exists, not_and] at hnew
      refine ⟨?_, h.update (fun _ => List.mem_append_left _) fun other hmem => ?_⟩
      · have hrequest := h.files.request hnew.1 hnew.2
        simpa [persistQueue, SafetyState.request, hm state hstate] using hrequest
      · rcases List.mem_append.mp hmem with hmem | hmem
        · exact List.mem_append_left _ (h.instances n state hstate other hmem)
        · exact List.mem_append_right _ hmem
  | expireDeadSessionRequests n owner via decidedAt =>
    simp only [Permissions.step] at ht
    split at ht
    · cases ht
    · rename_i state hstate
      obtain ⟨hqueue, hstale, hhistory⟩ := hm state hstate
      have hknown := h.instances n state hstate
      have hexpire : Sound (⟨s.files.queue.filter fun request =>
            (staleRequestReason owner request).isNone, s.files.history ++
              SafetyState.expired owner via decidedAt state.queue⟩)
          s.submitted (s.decided ++ SafetyState.expired owner via decidedAt state.queue) :=
        h.files.expire hknown hstale
      have hretained : ∀ request ∈ (state.expire owner via decidedAt).queue,
          request ∈ s.submitted :=
        fun request hmem => hknown request (List.mem_of_mem_filter hmem)
      split_ifs at ht with hempty
      · cases ht
        rw [List.isEmpty_iff] at hempty
        refine ⟨?_, h.update (fun _ => id) hretained⟩
        simpa [persistQueue, SafetyState.expire, hqueue, hempty] using hexpire
      · cases ht
        have hsome : ∃ request ∈ state.queue, (staleRequestReason owner request).isSome := by
          obtain ⟨decision, hd⟩ := List.exists_mem_of_ne_nil _ (mt List.isEmpty_iff.mpr hempty)
          obtain ⟨request, hmem, hstale, -⟩ := mem_expired hd
          exact ⟨request, hmem, hstale⟩
        refine ⟨?_, h.update (fun _ => id) hretained⟩
        simpa [persistQueue, persistHistory, SafetyState.expire, hqueue, hhistory hsome]
          using hexpire
  | recordDecision n decision =>
    simp only [Permissions.step] at ht
    split at ht
    · cases ht
    · rename_i state hstate
      cases ht
      obtain ⟨hqueue, hhistory⟩ := hm state hstate
      refine ⟨?_, h.update (fun _ => id) fun request hmem =>
        h.instances n state hstate request (List.mem_of_mem_filter hmem)⟩
      simpa [persistQueue, persistHistory, SafetyState.decide, hqueue, hhistory]
        using h.files.decide decision
  | recordPermissionViaFile decision =>
    cases ht
    exact ⟨h.files.decide decision, h.instances⟩
  | expireStalePermissionsViaFile owner via decidedAt =>
    cases ht
    exact ⟨h.files.expire h.files.known fun _ hmem _ => hmem, h.instances⟩

lemma kept_empty : Kept empty where
  files := ⟨by rintro _ ⟨⟩, by rintro _ ⟨⟩, by rintro _ ⟨⟩, by rintro _ ⟨⟩, List.nodup_nil⟩
  instances := by rintro _ _ ⟨⟩

/-! ### Whole runs -/

/-- Where every instance that writes is in sync, decisions are final and nothing pending is lost. -/
theorem decisionsFinal_of_inSync {ms : List PermissionMove} (hms : Guarded step InSync empty ms) :
    Always step DecisionsFinal empty ms := by
  have hkept : Always step Kept empty ms :=
    hms.always (fun _ _ _ h hm ht => h.step hm ht) kept_empty
  intro ks ls t hk ht
  exact (hkept ks ls t hk ht).decisionsFinal

def approval (requestId : String) : Decision :=
  ⟨requestId, true, "09:00", "email_reply", none⟩

/-- An instance submits two requests and records a decision on the first; a poller decides the
second. -/
def decidedInTurn : List PermissionMove :=
  [.new 0, .requestPermission 0 ⟨"req_1", none⟩, .requestPermission 0 ⟨"req_2", none⟩,
    .recordDecision 0 (approval "req_1"), .recordPermissionViaFile (approval "req_2")]

theorem decisionsFinal_of_inSync_inTurn :
    (exec step empty decidedInTurn).isSome ∧ Always step DecisionsFinal empty decidedInTurn := by
  refine ⟨rfl, decisionsFinal_of_inSync ?_⟩
  refine .cons trivial rfl (.cons ?_ rfl (.cons ?_ rfl (.cons ?_ rfl (.cons trivial rfl trivial))))
  · rintro _ ⟨⟩
    rfl
  · rintro _ ⟨⟩
    rfl
  · rintro _ ⟨⟩
    exact ⟨rfl, rfl⟩

/-- A poller decides the request of an instance, which then submits the next one. -/
def decidedViaFile : List PermissionMove :=
  [.new 0, .requestPermission 0 ⟨"req_1", none⟩, .recordPermissionViaFile (approval "req_1"),
    .requestPermission 0 ⟨"req_2", none⟩]

theorem not_decisionsFinal :
    ¬ ∀ ms, (exec step empty ms).isSome → Always step DecisionsFinal empty ms := by
  intro h
  have hfinal := h decidedViaFile rfl decidedViaFile [] _ (by simp) rfl
  exact hfinal.queue (approval "req_1") List.mem_cons_self ⟨"req_1", none⟩ List.mem_cons_self rfl

end Permissions

end Jcode
