import Jcode.Swarm.AwaitWaiters

/-!
# What an awaiting session is told

A request is answered `completed` from its own look at the members, by the watcher of its key or
from a recorded result. Each such answer goes back to an evaluation of the members' statuses for
the same key, but not always to one made after the request arrived.
-/

namespace Jcode

open Schedule

namespace AwaitMembers

namespace AwaitSystem

variable {hashed : String → String → List String → String} {s t u : AwaitSystem} {m : Move}
  {i : Nat} {r r' : Request} {phase : Phase} {key : String}

/-- The views so far; the last one is current. -/
def views (s : AwaitSystem) : List SwarmView := s.past ++ [s.view]

/-- The members whose ids are in the first view have the awaited statuses in the second. -/
def Satisfied (reqSessionId : String) (question : AwaitQuestion) (ids statuses : SwarmView) :
    Prop :=
  modeSatisfied (awaitedMemberStatuses question.targetStatus statuses
    (watchIds reqSessionId question ids)) question.mode

instance (reqSessionId : String) (question : AwaitQuestion) (ids statuses : SwarmView) :
    Decidable (Satisfied reqSessionId question ids statuses) :=
  inferInstanceAs (Decidable (_ = true))

/-- There is nobody to wait for. -/
def Alone (reqSessionId : String) (question : AwaitQuestion) (ids : SwarmView) : Prop :=
  watchIds reqSessionId question ids = []

/-! ### Two readings of freshness -/

/-- Whenever the move answers a request `completed`, the awaited members satisfied the condition
at a moment since the request arrived. -/
def AnswersFresh (hashed : String → String → List String → String) (s : AwaitSystem)
    (m : Move) : Prop :=
  ∀ t, s.step hashed m = some t → ∀ i id answer, (i, id, answer) ∈
    t.delivered.drop s.delivered.length → answer.completed → ∀ r, t.requests[i]? = some r →
      ∃ k view, r.arrivedAt ≤ k ∧ t.views[k]? = some view ∧
        Satisfied r.reqSessionId r.question view view

/-- The members awaited under the key of `starter` were looked at since it arrived, ids first and
statuses then, and they satisfied the condition or there were none. -/
def EvaluatedFor (hashed : String → String → List String → String) (s : AwaitSystem)
    (starter : Request) : Prop :=
  ∃ asker ∈ s.requests, asker.key hashed = starter.key hashed ∧
    ∃ k₁ k₂ ids statuses, starter.arrivedAt ≤ k₁ ∧ k₁ ≤ k₂ ∧ s.views[k₁]? = some ids ∧
      s.views[k₂]? = some statuses ∧ (Alone starter.reqSessionId asker.question ids ∨
        Satisfied starter.reqSessionId asker.question ids statuses)

/-- The answer is in the state file of the key, where it was recorded at most six hours ago. -/
def Recorded (s : AwaitSystem) (key : String) (answer : AwaitMembersAnswer) : Prop :=
  ∃ state resolvedAtUnixMs, s.dir.files key = some state ∧
    state.finalResponse = some ⟨answer, resolvedAtUnixMs⟩ ∧
    s.nowMs - resolvedAtUnixMs ≤ finalStateTtlMs

/-- Whenever the move answers a request `completed`, a request with the same key has evaluated the
condition since its own arrival: the request itself, the one whose watcher answers, or one whose
answer has been recorded. -/
def AnswersEvaluated (hashed : String → String → List String → String) (s : AwaitSystem)
    (m : Move) : Prop :=
  ∀ t, s.step hashed m = some t → ∀ i id answer, (i, id, answer) ∈
    t.delivered.drop s.delivered.length → answer.completed → ∀ r, t.requests[i]? = some r →
      ∃ j starter, t.requests[j]? = some starter ∧ starter.key hashed = r.key hashed ∧
        EvaluatedFor hashed t starter ∧
        (m = .readStatuses i ∧ j = i ∨ m = .takeWaiters j ∨
          m = .loadState i ∧ s.Recorded (r.key hashed) answer)

/-! ### What stays as it is -/

/-- Requests keep all but their phase, and views are only added. -/
structure Extends (s t : AwaitSystem) : Prop where
  request : ∀ {j : Nat} {r : Request}, s.requests[j]? = some r →
    ∃ phase, t.requests[j]? = some { r with phase := phase }
  views : ∀ {k : Nat} {view : SwarmView}, s.views[k]? = some view → t.views[k]? = some view
  past : s.past.length ≤ t.past.length

def Asked (hashed : String → String → List String → String) (s : AwaitSystem) (key : String)
    (question : AwaitQuestion) : Prop :=
  ∃ asker ∈ s.requests, asker.key hashed = key ∧ asker.question = question

/-- The ids were read since the request arrived. -/
def Counted (s : AwaitSystem) (r : Request) (question : AwaitQuestion) (ids : List String) :
    Prop :=
  ∃ k view, r.arrivedAt ≤ k ∧ k ≤ s.past.length ∧ s.views[k]? = some view ∧
    ids = watchIds r.reqSessionId question view

/-- A state that belongs to the key. -/
structure Carries (hashed : String → String → List String → String) (s : AwaitSystem)
    (key : String) (state : PersistedAwaitMembersState) : Prop where
  keyed : state.key = key
  asked : Asked hashed s key state.question

/-- What is behind the phase of a request. -/
def Backed (hashed : String → String → List String → String) (s : AwaitSystem) (r : Request) :
    Phase → Prop
  | .loaded persisted | .evaluated persisted _ =>
    ∀ state, persisted = some state → Carries hashed s (r.key hashed) state
  | .counted persisted ids =>
    (∀ state, persisted = some state → Carries hashed s (r.key hashed) state) ∧
      Counted s r r.question ids
  | .pending state _ | .waiting state _ | .inTime state | .watching state
  | .watchEvaluated state _ | .selecting state _ => Carries hashed s (r.key hashed) state
  | .watchCounted state ids =>
    Carries hashed s (r.key hashed) state ∧ Counted s r state.question ids
  | .expiring state answer => Carries hashed s (r.key hashed) state ∧ answer.completed = false
  | .expired answer => answer.completed = false
  | .resolving state answer | .responding state answer =>
    Carries hashed s (r.key hashed) state ∧ (answer.completed → EvaluatedFor hashed s r)
  | .arrived | .joined | .clearing _ | .finished | .gone => True

/-- The answers in the state files come from evaluations. -/
structure FilesBacked (hashed : String → String → List String → String) (s : AwaitSystem)
    (files : String → Option PersistedAwaitMembersState) : Prop where
  asked : ∀ key state, files key = some state → Asked hashed s key state.question
  evaluated : ∀ key state final, files key = some state → state.finalResponse = some final →
    final.answer.completed → ∃ (j : Nat) (starter : Request), s.requests[j]? = some starter ∧
      starter.key hashed = key ∧ EvaluatedFor hashed s starter

lemma Extends.mem (h : Extends s t) (hr : r ∈ s.requests) :
    ∃ phase, { r with phase := phase } ∈ t.requests := by
  obtain ⟨j, hj⟩ := List.mem_iff_getElem?.mp hr
  obtain ⟨phase, hphase⟩ := h.request hj
  exact ⟨phase, List.mem_of_getElem? hphase⟩

lemma Asked.mono {question : AwaitQuestion} (h : Asked hashed s key question)
    (hext : Extends s t) : Asked hashed t key question := by
  obtain ⟨asker, hmem, hkey, hquestion⟩ := h
  obtain ⟨phase, hphase⟩ := hext.mem hmem
  exact ⟨_, hphase, hkey, hquestion⟩

lemma EvaluatedFor.mono (h : EvaluatedFor hashed s r) (hext : Extends s t) :
    EvaluatedFor hashed t r := by
  obtain ⟨asker, hmem, hkey, k₁, k₂, ids, statuses, hsince, hle, hids, hstatuses, hout⟩ := h
  obtain ⟨phase, hphase⟩ := hext.mem hmem
  exact ⟨_, hphase, hkey, k₁, k₂, ids, statuses, hsince, hle, hext.views hids,
    hext.views hstatuses, hout⟩

lemma Counted.mono {question : AwaitQuestion} {ids : List String} (h : Counted s r question ids)
    (hext : Extends s t) : Counted t r question ids := by
  obtain ⟨k, view, hsince, hle, hview, hids⟩ := h
  exact ⟨k, view, hsince, hle.trans hext.past, hext.views hview, hids⟩

lemma Carries.mono {state : PersistedAwaitMembersState} (h : Carries hashed s key state)
    (hext : Extends s t) : Carries hashed t key state :=
  ⟨h.keyed, h.asked.mono hext⟩

lemma Backed.mono (h : Backed hashed s r phase) (hext : Extends s t) :
    Backed hashed t r phase := by
  cases phase with
  | loaded persisted | evaluated persisted statuses =>
    exact fun state hstate => (h state hstate).mono hext
  | counted persisted ids =>
    exact ⟨fun state hstate => (h.1 state hstate).mono hext, h.2.mono hext⟩
  | pending state statuses | waiting state statuses | inTime state | watching state
  | watchEvaluated state statuses | selecting state statuses => exact Carries.mono h hext
  | watchCounted state ids => exact ⟨h.1.mono hext, h.2.mono hext⟩
  | expiring state answer => exact ⟨h.1.mono hext, h.2⟩
  | expired answer => exact h
  | resolving state answer | responding state answer =>
    exact ⟨h.1.mono hext, fun hcompleted => (h.2 hcompleted).mono hext⟩
  | arrived | joined | clearing key | finished | gone => trivial

lemma FilesBacked.mono {files : String → Option PersistedAwaitMembersState}
    (h : FilesBacked hashed s files) (hext : Extends s t) : FilesBacked hashed t files := by
  refine ⟨fun key state hfile => (h.asked key state hfile).mono hext,
    fun key state final hfile hfinal hcompleted => ?_⟩
  obtain ⟨j, starter, hj, hkey, heval⟩ := h.evaluated key state final hfile hfinal hcompleted
  obtain ⟨phase, hphase⟩ := hext.request hj
  exact ⟨j, _, hphase, hkey, heval.mono hext⟩

/-- The invariant. -/
structure Grounded (hashed : String → String → List String → String) (s : AwaitSystem) :
    Prop where
  arrived : ∀ r ∈ s.requests, r.arrivedAt ≤ s.past.length
  backed : ∀ r ∈ s.requests, Backed hashed s r r.phase
  files : FilesBacked hashed s s.dir.files
  registered : ∀ key, ∀ w ∈ s.queue key, ∃ r, s.requests[w.clientEventTx]? = some r ∧
    r.key hashed = key

lemma extends_setPhase (hr : s.requests[i]? = some r) (hu : u.requests = s.requests)
    (hviews : u.views = s.views) (hpast : u.past = s.past) : Extends s (u.setPhase i r phase) where
  request {j r'} hr' := by
    by_cases hij : j = i
    · subst hij
      cases hr'.symm.trans hr
      exact ⟨phase, by simp [setPhase, hu, (List.getElem?_eq_some_iff.mp hr).1]⟩
    · exact ⟨r'.phase, by simp [setPhase, hu, List.getElem?_set_ne (Ne.symm hij), hr']⟩
  views hview := by
    have hsame : (u.setPhase i r phase).views = s.views := hviews
    rwa [hsame]
  past := by
    have hsame : (u.setPhase i r phase).past = s.past := hpast
    rw [hsame]

/-- A move for one request that leaves the views as they are. -/
lemma Grounded.of_setPhase (h : Grounded hashed s) (hr : s.requests[i]? = some r)
    (ht : t = u.setPhase i r phase) (hu : u.requests = s.requests)
    (hview : u.view = s.view) (hpast : u.past = s.past) (hphase : Backed hashed s r phase)
    (hfiles : FilesBacked hashed s u.dir.files)
    (hqueue : ∀ key, ∀ w ∈ u.queue key, w ∈ s.queue key ∨
      key = r.key hashed ∧ w.clientEventTx = i) : Grounded hashed t := by
  have hext : Extends s t := ht ▸ extends_setPhase hr hu (by rw [views, views, hview, hpast]) hpast
  subst ht
  refine ⟨fun r' hr' => ?_, fun r' hr' => ?_, hfiles.mono hext, fun key w hw => ?_⟩
  · have harrived : (u.setPhase i r phase).past = s.past := hpast
    rw [harrived]
    rcases List.mem_or_eq_of_mem_set hr' with hmem | rfl
    · exact h.arrived r' (hu ▸ hmem)
    · exact h.arrived r (List.mem_of_getElem? hr)
  · rcases List.mem_or_eq_of_mem_set hr' with hmem | rfl
    · exact (h.backed r' (hu ▸ hmem)).mono hext
    · have hback : Backed hashed (u.setPhase i r phase) r phase := hphase.mono hext
      cases phase <;> exact hback
  · have hbefore : ∃ r', s.requests[w.clientEventTx]? = some r' ∧ r'.key hashed = key := by
      rcases hqueue key w hw with hw | ⟨rfl, rfl⟩
      · exact h.registered key w hw
      · exact ⟨r, hr, rfl⟩
    obtain ⟨r', hr', rfl⟩ := hbefore
    obtain ⟨phase', hphase'⟩ := hext.request hr'
    exact ⟨_, hphase', rfl⟩

/-- A request goes on, and the files and the waiters stay. -/
lemma Grounded.setPhase (h : Grounded hashed s) (hr : s.requests[i]? = some r)
    (ht : t = s.setPhase i r phase) (hphase : Backed hashed s r phase) : Grounded hashed t :=
  h.of_setPhase hr ht rfl rfl rfl hphase h.files fun _ _ hw => .inl hw

/-- A move of the environment that leaves requests, files and waiters as they are. -/
lemma Grounded.of_extends (h : Grounded hashed s) (hext : Extends s t)
    (hrequests : t.requests = s.requests) (hdir : t.dir = s.dir)
    (hruntime : t.runtime = s.runtime) : Grounded hashed t := by
  refine ⟨fun r hr => ?_, fun r hr => ?_, ?_, ?_⟩
  · exact (h.arrived r (hrequests ▸ hr)).trans hext.past
  · exact (h.backed r (hrequests ▸ hr)).mono hext
  · rw [hdir]
    exact h.files.mono hext
  · intro key w hw
    rw [queue, hruntime] at hw
    rw [hrequests]
    exact h.registered key w hw

lemma Grounded.setView (h : Grounded hashed s) (view : SwarmView) :
    Grounded hashed { s with
      view := view
      past := s.past ++ [s.view] } := by
  refine h.of_extends ⟨fun hr => ⟨_, hr⟩, fun {k view'} hview => ?_, ?_⟩ rfl rfl rfl
  · have hlt : k < s.views.length := (List.getElem?_eq_some_iff.mp hview).1
    exact (List.getElem?_append_left hlt).trans hview
  · simp

lemma Grounded.restart (h : Grounded hashed s) :
    Grounded hashed { s with
      runtime := .new
      requests := s.requests.map fun r => { r with phase := .gone } } := by
  have hext : Extends s { s with
      runtime := .new
      requests := s.requests.map fun r => { r with phase := .gone } } :=
    ⟨fun hr => ⟨.gone, by simp [hr]⟩, id, le_rfl⟩
  refine ⟨fun r hr => ?_, fun r hr => ?_, h.files.mono hext, fun key w hw => by cases hw⟩
  · obtain ⟨r', hr', rfl⟩ := List.mem_map.mp hr
    exact h.arrived r' hr'
  · obtain ⟨r', hr', rfl⟩ := List.mem_map.mp hr
    trivial

lemma Grounded.request (h : Grounded hashed s) (harrived : r.arrivedAt = s.past.length)
    (hphase : r.phase = .arrived) :
    Grounded hashed { s with requests := s.requests ++ [r] } := by
  have hext : Extends s { s with requests := s.requests ++ [r] } := by
    refine ⟨fun {j r'} hr' => ⟨r'.phase, ?_⟩, id, le_rfl⟩
    rw [List.getElem?_append_left (List.getElem?_eq_some_iff.mp hr').1, hr']
  refine ⟨fun r' hr' => ?_, fun r' hr' => ?_, h.files.mono hext, fun key w hw => ?_⟩
  · rcases List.mem_append.mp hr' with hr' | hr'
    · exact h.arrived r' hr'
    · cases List.mem_singleton.mp hr'
      exact harrived.le
  · rcases List.mem_append.mp hr' with hr' | hr'
    · exact (h.backed r' hr').mono hext
    · cases List.mem_singleton.mp hr'
      rw [hphase]
      trivial
  · obtain ⟨r', hr', hkey⟩ := h.registered key w hw
    exact ⟨r', by rw [List.getElem?_append_left (List.getElem?_eq_some_iff.mp hr').1, hr'], hkey⟩

/-! ### State files -/

end AwaitSystem

section

variable {dir : StateDir} {nowMs : Nat} {key key' : String}
  {state state' : PersistedAwaitMembersState}

lemma loadState_eq_some (h : (loadState dir nowMs key).1 = some state) :
    dir.files key = some state ∧ isStale nowMs state = false := by
  unfold loadState at h
  cases hf : dir.files key with
  | none => simp [hf] at h
  | some found =>
    simp only [hf] at h
    split at h <;> cases h
    rename_i hfresh
    exact ⟨rfl, Bool.not_eq_true _ ▸ hfresh⟩

lemma files_of_loadState (h : (loadState dir nowMs key').2.files key = some state) :
    dir.files key = some state := by
  unfold loadState at h
  cases hf : dir.files key' with
  | none => simpa [hf] using h
  | some found =>
    simp only [hf] at h
    split at h
    · by_cases hkey : key = key'
      · simp [StateDir.remove, hkey] at h
      · simpa [StateDir.remove, hkey] using h
    · exact h

lemma files_of_saveState (h : (saveState dir state).files key = some state') :
    key = state.key ∧ state' = state ∨ dir.files key = some state' := by
  by_cases hkey : key = state.key
  · subst hkey
    simp only [saveState, Function.update_self, Option.some.injEq] at h
    exact .inl ⟨rfl, h.symm⟩
  · simp only [saveState, Function.update_of_ne hkey] at h
    exact .inr h

lemma ensurePendingState_eq {sessionId : String} {question : AwaitQuestion} {deadlineUnixMs : Nat}
    {dir' : StateDir}
    (h : ensurePendingState dir nowMs key sessionId question deadlineUnixMs = (state, dir')) :
    dir.files key = some state ∧ (∀ key' state', dir'.files key' = some state' →
        dir.files key' = some state') ∨
      state = ⟨key, sessionId, question, nowMs, deadlineUnixMs, none⟩ ∧
        ∀ key' state', dir'.files key' = some state' →
          key' = key ∧ state' = state ∨ dir.files key' = some state' := by
  unfold ensurePendingState at h
  split at h
  · rename_i existing dir'' hl
    cases h
    have hfound : (loadState dir nowMs key).1 = some state := by rw [hl]
    refine .inl ⟨(loadState_eq_some hfound).1, fun key' state' hfile => ?_⟩
    have hloaded : (loadState dir nowMs key).2.files key' = some state' := by rwa [hl]
    exact files_of_loadState hloaded
  · rename_i dir'' hl
    cases h
    refine .inr ⟨rfl, fun key' state' hfile => ?_⟩
    refine (files_of_saveState hfile).imp_right fun hfile => ?_
    have hloaded : (loadState dir nowMs key).2.files key' = some state' := by rwa [hl]
    exact files_of_loadState hloaded

end

namespace AwaitSystem

variable {hashed : String → String → List String → String} {s t u : AwaitSystem} {m : Move}
  {i : Nat} {r r' : Request} {phase : Phase} {key : String}

lemma FilesBacked.of_files {files files' : String → Option PersistedAwaitMembersState}
    (h : FilesBacked hashed s files)
    (hfiles : ∀ key state, files' key = some state → files key = some state) :
    FilesBacked hashed s files' :=
  ⟨fun key state hfile => h.asked key state (hfiles key state hfile),
    fun key state final hfile => h.evaluated key state final (hfiles key state hfile)⟩

lemma FilesBacked.loadState (h : FilesBacked hashed s s.dir.files) :
    FilesBacked hashed s (AwaitMembers.loadState s.dir s.nowMs key).2.files :=
  h.of_files fun _ _ hfile => files_of_loadState hfile

/-- A recorded answer has been evaluated for its request. -/
lemma FilesBacked.persistFinal {state : PersistedAwaitMembersState} {answer : AwaitMembersAnswer}
    (h : FilesBacked hashed s s.dir.files) (hr : s.requests[i]? = some r)
    (hcarries : Carries hashed s (r.key hashed) state)
    (hanswer : answer.completed → EvaluatedFor hashed s r) :
    FilesBacked hashed s (persistFinalResponse s.dir s.nowMs state answer).files := by
  refine ⟨fun key state' hfile => ?_, fun key state' final hfile hfinal hcompleted => ?_⟩
  · rcases files_of_saveState hfile with ⟨rfl, rfl⟩ | hfile
    · exact hcarries.keyed ▸ hcarries.asked
    · exact h.asked key state' hfile
  · rcases files_of_saveState hfile with ⟨rfl, rfl⟩ | hfile
    · cases hfinal
      exact ⟨i, r, hr, hcarries.keyed.symm, hanswer hcompleted⟩
    · exact h.evaluated key state' final hfile hfinal hcompleted

lemma FilesBacked.carries {state : PersistedAwaitMembersState}
    (h : FilesBacked hashed s s.dir.files) (hfile : s.dir.files key = some state) :
    Carries hashed s key state :=
  ⟨s.dir.keyed key state hfile, h.asked key state hfile⟩

/-- The ids just read. -/
lemma Grounded.counted (h : Grounded hashed s) (hr : s.requests[i]? = some r)
    (question : AwaitQuestion) :
    Counted s r question (watchIds r.reqSessionId question s.view) :=
  ⟨s.past.length, s.view, h.arrived r (List.mem_of_getElem? hr), le_rfl, by simp [views], rfl⟩

/-- The statuses just read for them. -/
lemma Counted.evaluatedFor {question : AwaitQuestion} {ids : List String}
    (h : Counted s r question ids) (hasked : Asked hashed s (r.key hashed) question)
    (hout : awaitedMemberStatuses question.targetStatus s.view ids = [] ∨
      modeSatisfied (awaitedMemberStatuses question.targetStatus s.view ids) question.mode) :
    EvaluatedFor hashed s r := by
  obtain ⟨asker, hmem, hkey, rfl⟩ := hasked
  obtain ⟨k, view, hsince, hle, hview, rfl⟩ := h
  refine ⟨asker, hmem, hkey, k, s.past.length, view, s.view, hsince, hle, hview,
    by simp [views], hout.imp_left fun hempty => ?_⟩
  exact List.map_eq_nil_iff.mp hempty

lemma asked_self (hr : s.requests[i]? = some r) :
    Asked hashed s (r.key hashed) r.question :=
  ⟨r, List.mem_of_getElem? hr, rfl, rfl⟩

lemma Grounded.step (h : Grounded hashed s) (hs : s.step hashed m = some t) :
    Grounded hashed t := by
  have hbacked {i : Nat} {r : Request} {phase : Phase} (hr : s.requests[i]? = some r)
      (hp : r.phase = phase) : Backed hashed s r phase := hp ▸ h.backed r (List.mem_of_getElem? hr)
  cases Rule.of_step hs with
  | tick ms ht | close i ht =>
    subst ht
    exact h.of_extends ⟨fun hr => ⟨_, hr⟩, id, le_rfl⟩ rfl rfl rfl
  | setView view ht =>
    subst ht
    exact h.setView view
  | restart ht =>
    subst ht
    exact h.restart
  | request requestId reqSessionId question timeoutSecs ht =>
    subst ht
    exact h.request rfl rfl
  | replay i r state final hr hp hl hf ht =>
    exact h.of_setPhase hr ht rfl rfl rfl trivial h.files.loadState fun _ _ hw => .inl hw
  | load i r persisted hr hp hl ht =>
    refine h.of_setPhase hr ht rfl rfl rfl (fun state hstate => ?_) h.files.loadState
      fun _ _ hw => .inl hw
    exact h.files.carries (loadState_eq_some (hl.symm.trans hstate)).1
  | readIds i r persisted hr hp ht =>
    have hback := hbacked hr hp
    exact h.setPhase hr ht ⟨hback, h.counted hr r.question⟩
  | readWatched i r state hr hp ht =>
    have hback := hbacked hr hp
    exact h.setPhase hr ht ⟨hback, h.counted hr state.question⟩
  | answerEmpty i r persisted ids hr hp hempty ht =>
    exact h.of_setPhase hr ht rfl rfl rfl trivial h.files fun _ _ hw => .inl hw
  | evaluate i r persisted ids hr hp ht =>
    have hback := hbacked hr hp
    exact h.setPhase hr ht hback.1
  | watch i r state ids hr hp ht =>
    have hback := hbacked hr hp
    refine h.setPhase hr ht ?_
    unfold watchPhase
    split_ifs with hempty hsatisfied
    · exact ⟨hback.1, fun _ => hback.2.evaluatedFor hback.1.asked (.inl hempty)⟩
    · exact ⟨hback.1, fun _ => hback.2.evaluatedFor hback.1.asked (.inr hsatisfied)⟩
    · exact hback.1
  | keepPending i r state statuses hr hp ht =>
    have hback := hbacked hr hp
    exact h.setPhase hr ht (hback state rfl)
  | ensurePending i r state dir statuses hr hp hd ht =>
    rcases ensurePendingState_eq hd with ⟨hfound, hfiles⟩ | ⟨rfl, hfiles⟩
    · exact h.of_setPhase hr ht rfl rfl rfl (h.files.carries hfound) (h.files.of_files hfiles)
        fun _ _ hw => .inl hw
    · refine h.of_setPhase hr ht rfl rfl rfl ⟨rfl, asked_self hr⟩
        ⟨fun key' state' hfile => ?_, fun key' state' final hfile hfinal => ?_⟩
        fun _ _ hw => .inl hw
      · rcases hfiles key' state' hfile with ⟨rfl, rfl⟩ | hfile
        · exact asked_self hr
        · exact h.files.asked key' state' hfile
      · rcases hfiles key' state' hfile with ⟨rfl, rfl⟩ | hfile
        · cases hfinal
        · exact h.files.evaluated key' state' final hfile hfinal
  | addWaiter i r state statuses hr hp ht =>
    have hback := hbacked hr hp
    refine h.of_setPhase hr ht rfl rfl rfl hback h.files fun key w hw => ?_
    by_cases hkey : key = r.key hashed
    · subst hkey
      simp only [queue, Runtime.addWaiter, Function.update_self, Option.getD_some,
        List.mem_append, List.mem_singleton] at hw
      exact hw.imp_right fun hw => ⟨rfl, by rw [hw]⟩
    · rw [queue_addWaiter hkey] at hw
      exact .inl hw
  | expire i r state statuses hr hp ht =>
    have hback := hbacked hr hp
    exact h.setPhase hr ht ⟨hback, rfl⟩
  | goOn i r state statuses hr hp ht =>
    have hback := hbacked hr hp
    exact h.setPhase hr ht hback
  | markActive i r state phase hr hp hphase ht =>
    have hback := hbacked hr hp
    refine h.of_setPhase hr ht rfl rfl rfl ?_ h.files fun _ _ hw => .inl hw
    rcases hphase with rfl | rfl
    · exact hback
    · trivial
  | timeOut i r state statuses hr hp ht =>
    have hback := hbacked hr hp
    refine h.setPhase hr ht ⟨hback, fun hcompleted => ?_⟩
    cases hcompleted
  | retainWaiters i r state statuses phase hr hp hphase ht =>
    have hback := hbacked hr hp
    refine h.of_setPhase hr ht rfl rfl rfl ?_ h.files
      fun _ _ hw => .inl (mem_queue_of_retainOpenWaiters hw)
    rcases hphase with rfl | rfl
    · trivial
    · exact hback
  | receive i ok r state statuses phase hr hp hphase ht =>
    have hback := hbacked hr hp
    refine h.setPhase hr ht ?_
    rcases hphase with rfl | rfl
    · exact hback
    · trivial
  | persistExpired i r state answer hr hp ht =>
    have hback := hbacked hr hp
    refine h.of_setPhase hr ht rfl rfl rfl hback.2 (h.files.persistFinal hr hback.1 ?_)
      fun _ _ hw => .inl hw
    intro hcompleted
    simp [hback.2] at hcompleted
  | persistResolved i r state answer hr hp ht =>
    have hback := hbacked hr hp
    exact h.of_setPhase hr ht rfl rfl rfl hback (h.files.persistFinal hr hback.1 hback.2)
      fun _ _ hw => .inl hw
  | takeExpired i r answer hr hp ht =>
    exact h.of_setPhase hr ht rfl rfl rfl trivial h.files
      fun _ _ hw => .inl (mem_queue_of_takeWaiters hw)
  | takeResponding i r state answer hr hp ht =>
    exact h.of_setPhase hr ht rfl rfl rfl trivial h.files
      fun _ _ hw => .inl (mem_queue_of_takeWaiters hw)
  | clearActive i r key hr hp ht =>
    exact h.of_setPhase hr ht rfl rfl rfl trivial h.files fun _ _ hw => .inl hw

/-! ### Answers -/

lemma mem_answers {key : String} {answer answer' : AwaitMembersAnswer} {id : Nat}
    (h : (i, id, answer') ∈ answers (s.runtime.takeWaiters key).1 answer) :
    answer' = answer ∧ ∃ w ∈ s.queue key, w.clientEventTx = i := by
  obtain ⟨w, hw, heq⟩ := List.mem_map.mp h
  simp only [Prod.mk.injEq] at heq
  exact ⟨heq.2.2.symm, w, hw, heq.1⟩

lemma Extends.key_eq (h : Extends s t) {j : Nat} (hr : s.requests[j]? = some r)
    (hr' : t.requests[j]? = some r') : r'.key hashed = r.key hashed := by
  obtain ⟨phase, hphase⟩ := h.request hr
  cases hr'.symm.trans hphase
  rfl

lemma Grounded.answersEvaluated (h : Grounded hashed s) : AnswersEvaluated hashed s m := by
  intro t hs j id answer hmem hcompleted r' hr'
  have hquiet (hdelivered : t.delivered = s.delivered) : False := by
    rw [hdelivered, List.drop_length] at hmem
    cases hmem
  cases Rule.of_step hs with
  | replay i r state final hr hp hl hf ht =>
    have hext : Extends s t := ht ▸ extends_setPhase hr rfl rfl rfl
    have hnew : t.delivered = s.delivered ++ [(i, r.requestId, final.answer)] := ht ▸ rfl
    simp only [hnew, List.drop_left, List.mem_singleton, Prod.mk.injEq] at hmem
    obtain ⟨rfl, -, rfl⟩ := hmem
    obtain ⟨hfile, hfresh⟩ := loadState_eq_some hl
    obtain ⟨k, starter, hk, hkey, heval⟩ := h.files.evaluated _ state final hfile hf hcompleted
    obtain ⟨phase, hphase⟩ := hext.request hk
    have hrecent : s.nowMs - final.resolvedAtUnixMs ≤ finalStateTtlMs := by
      simpa [isStale, hf] using hfresh
    refine ⟨k, _, hphase, hkey.trans (hext.key_eq hr hr').symm, heval.mono hext, .inr (.inr ?_)⟩
    rw [hext.key_eq hr hr']
    exact ⟨rfl, state, final.resolvedAtUnixMs, hfile, hf, hrecent⟩
  | answerEmpty i r persisted ids hr hp hempty ht =>
    have hext : Extends s t := ht ▸ extends_setPhase hr rfl rfl rfl
    have hnew : t.delivered = s.delivered ++ [(i, r.requestId, noOtherMembers)] := ht ▸ rfl
    simp only [hnew, List.drop_left, List.mem_singleton, Prod.mk.injEq] at hmem
    obtain ⟨rfl, -, rfl⟩ := hmem
    have hback : Backed hashed s r (.counted persisted ids) :=
      hp ▸ h.backed r (List.mem_of_getElem? hr)
    obtain ⟨phase, hphase⟩ := hext.request hr
    have heval : EvaluatedFor hashed s r := hback.2.evaluatedFor (asked_self hr) (.inl hempty)
    exact ⟨j, _, hphase, (hext.key_eq hr hr').symm, heval.mono hext, .inl ⟨rfl, rfl⟩⟩
  | takeExpired i r answer' hr hp ht =>
    have hnew : t.delivered = s.delivered ++ answers (s.runtime.takeWaiters (r.key hashed)).1
        answer' := ht ▸ rfl
    have hback : Backed hashed s r (.expired answer') := hp ▸ h.backed r (List.mem_of_getElem? hr)
    have hfalse : answer'.completed = false := hback
    rw [hnew, List.drop_left] at hmem
    obtain ⟨rfl, -⟩ := mem_answers hmem
    rw [hfalse] at hcompleted
    cases hcompleted
  | takeResponding i r state answer' hr hp ht =>
    have hext : Extends s t := ht ▸ extends_setPhase hr rfl rfl rfl
    have hnew : t.delivered = s.delivered ++ answers (s.runtime.takeWaiters state.key).1 answer' :=
      ht ▸ rfl
    have hback : Backed hashed s r (.responding state answer') :=
      hp ▸ h.backed r (List.mem_of_getElem? hr)
    rw [hnew, List.drop_left] at hmem
    obtain ⟨rfl, w, hw, rfl⟩ := mem_answers hmem
    obtain ⟨r₀, hr₀, hkey₀⟩ := h.registered _ w hw
    obtain ⟨phase, hphase⟩ := hext.request hr
    have hkey : r.key hashed = r'.key hashed := by
      rw [hext.key_eq hr₀ hr', hkey₀, hback.1.keyed]
    exact ⟨i, _, hphase, hkey, (hback.2 hcompleted).mono hext, .inr (.inl rfl)⟩
  | tick ms ht | setView view ht | close i ht | restart ht
  | request requestId reqSessionId question timeoutSecs ht | load i r persisted hr hp hl ht
  | readIds i r persisted hr hp ht | readWatched i r state hr hp ht
  | evaluate i r persisted ids hr hp ht | watch i r state ids hr hp ht
  | keepPending i r state statuses hr hp ht | ensurePending i r state dir statuses hr hp hd ht
  | addWaiter i r state statuses hr hp ht | expire i r state statuses hr hp ht
  | goOn i r state statuses hr hp ht | markActive i r state phase hr hp hphase ht
  | retainWaiters i r state statuses phase hr hp hphase ht
  | timeOut i r state statuses hr hp ht | receive i ok r state statuses phase hr hp hphase ht
  | persistExpired i r state answer hr hp ht | persistResolved i r state answer hr hp ht
  | clearActive i r key hr hp ht =>
    subst ht
    exact (hquiet rfl).elim

lemma Grounded.start (hashed : String → String → List String → String) (view : SwarmView)
    (nowMs : Nat) : Grounded hashed (start view nowMs) where
  arrived := by simp [AwaitSystem.start]
  backed := by simp [AwaitSystem.start]
  files := by constructor <;> simp [AwaitSystem.start, StateDir.empty]
  registered := by simp [AwaitSystem.start, queue, Runtime.new]

end AwaitSystem

open AwaitSystem

/-- The member has completed its task. -/
def completedView : SwarmView :=
  { pairView with members := fun x => (pairView.members x).map ({ · with status := "completed" }) }

/-- A request is answered `completed`; then the member is back at "ready", and the same is asked
again. -/
def replayRun : List Move :=
  [.request 1 "req" peerCompleted none, .loadState 0, .readIds 0, .readStatuses 0,
    .ensurePending 0, .addWaiter 0, .checkDeadline 0, .markActive 0, .readIds 0, .readStatuses 0,
    .persistFinal 0, .takeWaiters 0, .clearActive 0, .setView pairView,
    .request 2 "req" peerCompleted none]

end AwaitMembers

end Jcode
