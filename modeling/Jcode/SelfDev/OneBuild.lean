import Jcode.SelfDev.Copies

/-!
# One build per worktree

A task that is first in its queue locks the file that it has opened, and removes it before it gives
the lock up. So whoever has opened the file before locks one that has no name any more, while
somebody else creates and locks the next. One task at a time runs if the lock file still has its
name when it is locked; and the tasks run in the order of their requests if nobody has come before
the first since it has looked.
-/

namespace Jcode

open Schedule

variable {F : Type}

/-- The lock that a future has, until it has closed the file. -/
def BuildRunner.guard : BuildRunner → Option BuildLockGuard
  | .entered _ guard | .building guard | .publishing guard _ | .published _ guard _
  | .ending guard _ | .saving _ guard _ | .dropping guard _ | .closing guard _ => some guard
  | .absent | .spawned | .waiting _ | .listing _ | .first _ _ | .opened _ _ _ | .returned _
  | .done => none

/-- The lock that a future has, from a successful `wait_for_turn` to the drop of the guard. -/
def BuildRunner.inside : BuildRunner → Option BuildLockGuard
  | .closing _ _ => none
  | runner => runner.guard

/-- The request of a future that was first in its queue, and that queue. -/
def BuildRunner.queue : BuildRunner → Option (BuildRequest × List BuildRequest)
  | .first request queue | .opened request queue _ => some (request, queue)
  | _ => none

/-- A listing goes through the requests in their order. -/
def BuildCall.Ordered : BuildCall → Prop
  | .reconciling _ todo pending | .marking _ _ todo pending =>
    (pending ++ todo).Pairwise BuildRequest.Before
  | _ => True

namespace BuildQueue

/-- One task at most has its turn in a worktree. -/
def OneBuild (s : BuildQueue F) : Prop :=
  ∀ id other guard guard', (s.records id).runner.inside = some guard →
    (s.records other).runner.inside = some guard' →
      guard.worktreeScope = guard'.worktreeScope → id = other

/-- Whoever takes the lock has the first of the requests of the worktree that are pending now. -/
def EntersFirst (s : BuildQueue F) : BuildMove → Prop
  | .flock id => ∀ request queue guard, (s.records id).runner = .opened request queue guard →
      guard.inode ∉ (s.locks guard.worktreeScope).flocked →
        ∀ other file, (s.records other).file = some file → file.state.Pending →
          file.worktreeScope = request.worktreeScope → request.Before file
  | _ => True

/-- Whoever takes the lock has opened the file that the path names now, and has seen all requests
of the worktree that are pending now. -/
def LocksCurrent (s : BuildQueue F) : BuildMove → Prop
  | .flock id => ∀ request queue guard, (s.records id).runner = .opened request queue guard →
      guard.inode ∉ (s.locks guard.worktreeScope).flocked →
        (s.locks guard.worktreeScope).file.inode = some guard.inode ∧
          ∀ other file, (s.records other).file = some file → file.state.Pending →
            file.worktreeScope = request.worktreeScope → ∃ seen ∈ queue, seen.requestId = other
  | _ => True

/-- Who has a lock has locked it, alone, and until the drop its file has the name; who was first in
a queue comes before everyone in it. -/
structure InTurn (s : BuildQueue F) : Prop where
  linked : ∀ id guard, (s.records id).runner.inside = some guard →
    (s.locks guard.worktreeScope).file.inode = some guard.inode
  flocked : ∀ id guard, (s.records id).runner.guard = some guard →
    guard.inode ∈ (s.locks guard.worktreeScope).flocked
  own : ∀ id other guard, (s.records id).runner.guard = some guard →
    (s.records other).runner.guard = some guard → id = other
  nodup : ∀ worktreeScope, (s.locks worktreeScope).flocked.Nodup
  ordered : ∀ n, (s.calls n).Ordered
  queue : ∀ id request queue, (s.records id).runner.queue = some (request, queue) →
    ∀ seen ∈ queue, (s.records seen.requestId).Copy seen ∧ request.Before seen

end BuildQueue

/-! ### Records that change -/

/-- No new lock and no new queue, and the request that was saved first stays. -/
structure Follows (a b : BuildRecord F) : Prop where
  origin : ∀ origin, a.origin = some origin → b.origin = some origin
  guard : ∀ guard, b.runner.guard = some guard → a.runner.guard = some guard
  inside : ∀ guard, b.runner.inside = some guard → a.runner.inside = some guard
  queue : ∀ queue, b.runner.queue = some queue → a.runner.queue = some queue

lemma guard_of_inside {runner : BuildRunner} {guard : BuildLockGuard}
    (h : runner.inside = some guard) : runner.guard = some guard := by
  cases runner <;> first | exact h | cases h

namespace Follows

variable {a b c : BuildRecord F}

lemma of_runner (horigin : b.origin = a.origin) (hrunner : b.runner = a.runner) : Follows a b where
  origin _ ho := horigin.trans ho
  guard := by
    rw [hrunner]
    exact fun _ hg => hg
  inside := by
    rw [hrunner]
    exact fun _ hg => hg
  queue := by
    rw [hrunner]
    exact fun _ hq => hq

/-- Neither lock nor queue afterwards. -/
lemma of_none (horigin : b.origin = a.origin) (hguard : b.runner.guard = none)
    (hqueue : b.runner.queue = none) : Follows a b where
  origin _ ho := horigin.trans ho
  guard guard hg := by cases hguard.symm.trans hg
  inside guard hg := by cases hguard.symm.trans (guard_of_inside hg)
  queue queue hq := by cases hqueue.symm.trans hq

/-- The same lock, and no queue. -/
lemma of_guard {guard : BuildLockGuard} (horigin : b.origin = a.origin)
    (ha : a.runner.inside = some guard) (hb : b.runner.guard = some guard)
    (hqueue : b.runner.queue = none) : Follows a b where
  origin _ ho := horigin.trans ho
  guard other hg := by
    cases hb.symm.trans hg
    exact guard_of_inside ha
  inside other hg := by
    cases hb.symm.trans (guard_of_inside hg)
    exact ha
  queue queue hq := by cases hqueue.symm.trans hq

/-- The same queue, and no lock. -/
lemma of_queue (horigin : b.origin = a.origin) (hguard : b.runner.guard = none)
    (hqueue : b.runner.queue = a.runner.queue) : Follows a b where
  origin _ ho := horigin.trans ho
  guard guard hg := by cases hguard.symm.trans hg
  inside guard hg := by cases hguard.symm.trans (guard_of_inside hg)
  queue _ hq := hqueue.symm.trans hq

lemma fails {error : String} {guard : Option BuildLockGuard} (h : a.Fails guard) :
    Follows a (a.fail error guard) := by
  cases h with
  | spawned => exact of_none rfl rfl rfl
  | entered request guard hrunner | building guard hrunner | publishing guard outcome hrunner
  | ending guard outcome hrunner => exact of_guard rfl (by rw [hrunner]; rfl) rfl rfl

lemma save_fail {request : BuildRequest} {result : SaveResult} {error : String}
    {guard : BuildLockGuard} (ha : a.runner.inside = some guard) :
    Follows a ((a.save request result).fail error (some guard)) :=
  of_guard BuildRecord.origin_save ha rfl rfl

lemma advance {m : RequestMove} (hm : a.advance m = some b) : Follows a b := by
  cases BuildRecord.advance_of_eq hm with
  | load readable request hrunner => exact of_none rfl rfl rfl
  | fail error guard hfails => exact fails hfails
  | start request guard hrunner | publish outcome guard hrunner | finish outcome guard hrunner
  | loadPublished readable request guard outcome hrunner
  | savePublished request guard outcome hrunner
  | loadFinal readable request guard outcome hrunner | saveFinal now request guard outcome hrunner
  | dropBuilding guard haborted hrunner => exact of_guard rfl (by rw [hrunner]; rfl) rfl rfl
  | startFailed result request guard error hrunner
  | savePublishedFailed result request guard outcome error hrunner
  | saveFinalFailed result now request guard outcome error hrunner =>
    exact save_fail (by rw [hrunner]; rfl)
  | complete written now outcome started hrunner => exact of_none rfl rfl rfl
  | dropIdle => exact of_none rfl rfl rfl

end Follows

namespace BuildQueue

variable {s t : BuildQueue F} {m : BuildMove} {id : String} {n : Nat} {record : BuildRecord F}
  {call : BuildCall} {request : BuildRequest} {worktreeScope : String} {lock : BuildLock}

lemma InTurn.oneBuild (h : InTurn s) : OneBuild s := by
  intro id other guard guard' hid hother hscope
  have hinode : guard.inode = guard'.inode := by
    have hlinked := h.linked id guard hid
    rw [hscope, h.linked other guard' hother] at hlinked
    exact (Option.some.inj hlinked).symm
  have hguard : guard = guard' := by
    cases guard
    cases guard'
    simp_all
  subst hguard
  exact h.own id other guard (guard_of_inside hid) (guard_of_inside hother)

/-- A record changes and has no new lock. -/
lemma InTurn.setRecord_of_queue (h : InTurn s)
    (horigin : ∀ origin, (s.records id).origin = some origin → record.origin = some origin)
    (hguard : ∀ guard, record.runner.guard = some guard → (s.records id).runner.guard = some guard)
    (hinside : ∀ guard, record.runner.inside = some guard →
      (s.records id).runner.inside = some guard)
    (hqueue : ∀ request queue, record.runner.queue = some (request, queue) →
      ∀ seen ∈ queue, (s.records seen.requestId).Copy seen ∧ request.Before seen) :
    InTurn (s.setRecord id record) := by
  have horigins (other : String) (origin : BuildRequest)
      (ho : (s.records other).origin = some origin) :
      ((s.setRecord id record).records other).origin = some origin := by
    by_cases hother : other = id
    · subst hother
      simpa [BuildQueue.setRecord] using horigin origin ho
    · simpa [BuildQueue.setRecord, hother] using ho
  have hguards (other : String) (guard : BuildLockGuard)
      (hg : ((s.setRecord id record).records other).runner.guard = some guard) :
      (s.records other).runner.guard = some guard := by
    by_cases hother : other = id
    · subst hother
      exact hguard guard (by simpa [BuildQueue.setRecord] using hg)
    · simpa [BuildQueue.setRecord, hother] using hg
  refine ⟨fun other guard hg => ?_, fun other guard hg => h.flocked other guard (hguards _ _ hg),
    fun other last guard hg hl => h.own other last guard (hguards _ _ hg) (hguards _ _ hl), h.nodup,
    h.ordered, fun other request queue hq seen hmem => ?_⟩
  · refine h.linked other guard ?_
    by_cases hother : other = id
    · subst hother
      exact hinside guard (by simpa [BuildQueue.setRecord] using hg)
    · simpa [BuildQueue.setRecord, hother] using hg
  · have hseen : (s.records seen.requestId).Copy seen ∧ request.Before seen := by
      by_cases hother : other = id
      · subst hother
        exact hqueue request queue (by simpa [BuildQueue.setRecord] using hq) seen hmem
      · exact h.queue other request queue (by simpa [BuildQueue.setRecord, hother] using hq) seen
          hmem
    obtain ⟨⟨origin, ho, hsame⟩, hbefore⟩ := hseen
    exact ⟨⟨origin, horigins _ origin ho, hsame⟩, hbefore⟩

lemma InTurn.setRecord (h : InTurn s) (hf : Follows (s.records id) record) :
    InTurn (s.setRecord id record) :=
  h.setRecord_of_queue hf.origin hf.guard hf.inside fun request queue hq =>
    h.queue id request queue (hf.queue _ hq)

lemma InTurn.setCall (h : InTurn s) (hcall : call.Ordered) : InTurn (s.setCall n call) := by
  refine ⟨h.linked, h.flocked, h.own, h.nodup, fun k => ?_, h.queue⟩
  by_cases hk : k = n
  · subst hk
    simpa [BuildQueue.setCall] using hcall
  · simpa [BuildQueue.setCall, hk] using h.ordered k

/-- The lock changes as those who have it, or are inside, allow. -/
lemma InTurn.setLock (h : InTurn s)
    (hlinked : ∀ id guard, (s.records id).runner.inside = some guard →
      guard.worktreeScope = worktreeScope → lock.file.inode = some guard.inode)
    (hflocked : ∀ id guard, (s.records id).runner.guard = some guard →
      guard.worktreeScope = worktreeScope → guard.inode ∈ lock.flocked)
    (hnodup : lock.flocked.Nodup) : InTurn (s.setLock worktreeScope lock) := by
  refine ⟨fun id guard hg => ?_, fun id guard hg => ?_, h.own, fun scope => ?_, h.ordered, h.queue⟩
  · by_cases hscope : guard.worktreeScope = worktreeScope
    · rw [hscope]
      simpa [BuildQueue.setLock] using hlinked id guard hg hscope
    · simpa [BuildQueue.setLock, hscope] using h.linked id guard hg
  · by_cases hscope : guard.worktreeScope = worktreeScope
    · rw [hscope]
      simpa [BuildQueue.setLock] using hflocked id guard hg hscope
    · simpa [BuildQueue.setLock, hscope] using h.flocked id guard hg
  · by_cases hscope : scope = worktreeScope
    · subst hscope
      simpa [BuildQueue.setLock] using hnodup
    · simpa [BuildQueue.setLock, hscope] using h.nodup scope

lemma InTurn.idle (h : InTurn s) : InTurn (s.setCall n .idle) := h.setCall trivial

lemma ordered_loadAll {whom : ListingFor} {entries : List String} {loaded : List BuildRequest} :
    (loadAll whom entries loaded).Ordered := by
  cases entries with
  | cons => trivial
  | nil =>
    have : Std.Total BuildRequest.Before := ⟨BuildRequest.Before.total⟩
    have : IsTrans BuildRequest BuildRequest.Before := ⟨fun _ _ _ => BuildRequest.Before.trans⟩
    exact (List.pairwise_insertionSort BuildRequest.Before loaded).filter _

/-! ### The steps -/

/-- The head of a queue in order, which is a copy of the request, comes before everyone. -/
lemma before_of_head {head seen : BuildRequest} {tail : List BuildRequest}
    (hordered : (head :: tail).Pairwise BuildRequest.Before) (hsame : request.SameRequest head)
    (hmem : seen ∈ head :: tail) : request.Before seen := by
  have hhead : head.Before seen := by
    rcases List.mem_cons.mp hmem with rfl | hmem
    · exact (BuildRequest.Before.total seen seen).elim id id
    · exact List.rel_of_pairwise_cons hordered hmem
  exact hhead.of_same hsame (.refl seen)

lemma InTurn.turn (h : InTurn s) (hc : Copied s) {pending : List BuildRequest}
    (hcall : s.calls n = .reconciling (.turn id) [] pending)
    (hrunner : (s.records id).runner = .listing request) :
    InTurn (s.setRecord id ((s.records id).takeTurn request pending)) := by
  rcases BuildRecord.takeTurn_cases pending with
    ⟨error, heq⟩ | ⟨head, tail, hqueue, hhead, heq⟩ | heq
  · rw [heq]
    exact h.setRecord (.of_none rfl rfl rfl)
  · rw [heq]
    have hcopy : (s.records id).Copy request := (hc.record id).runner request (by rw [hrunner]; rfl)
    have hid : request.requestId = id := (hc.record id).requestId hcopy
    have hordered : (head :: tail).Pairwise BuildRequest.Before := by
      have hpending := h.ordered n
      rw [hcall] at hpending
      simp only [BuildCall.Ordered, List.append_nil] at hpending
      rw [← hqueue]
      exact hpending.filter _
    have hcopies (seen : BuildRequest) (hmem : seen ∈ head :: tail) :
        (s.records seen.requestId).Copy seen := by
      rw [← hqueue] at hmem
      exact hc.copy hcall (List.mem_append_right _ (List.mem_of_mem_filter hmem))
    have hsame : request.SameRequest head := by
      obtain ⟨origin, ho, hrequest⟩ := hcopy
      obtain ⟨origin', ho', hhead'⟩ := hcopies head List.mem_cons_self
      rw [hhead, hid] at ho'
      cases ho.symm.trans ho'
      exact hrequest.trans hhead'.symm
    refine h.setRecord_of_queue (fun _ ho => ho) ?_ ?_ ?_
    · rintro _ ⟨⟩
    · rintro _ ⟨⟩
    · rintro _ _ ⟨⟩ seen hmem
      exact ⟨hcopies seen hmem, before_of_head hordered hsame hmem⟩
  · rw [heq]
    exact h.setRecord (.of_none rfl rfl rfl)

/-- The lock is taken, of a file that the path still names. -/
lemma InTurn.flock (h : InTurn s) {guard : BuildLockGuard}
    (hfree : guard.inode ∉ (s.locks guard.worktreeScope).flocked)
    (hlinked : (s.locks guard.worktreeScope).file.inode = some guard.inode) :
    InTurn ((s.setRunner id (.entered request guard)).setLock guard.worktreeScope
      { s.locks guard.worktreeScope with
        flocked := guard.inode :: (s.locks guard.worktreeScope).flocked }) := by
  have hwaiting : InTurn (s.setRunner id (.waiting request)) := h.setRecord (.of_none rfl rfl rfl)
  have hlock : InTurn ((s.setRunner id (.waiting request)).setLock guard.worktreeScope
      { s.locks guard.worktreeScope with
        flocked := guard.inode :: (s.locks guard.worktreeScope).flocked }) := by
    refine hwaiting.setLock (fun other guard' hg hscope => ?_) (fun other guard' hg hscope => ?_)
      (List.nodup_cons.mpr ⟨hfree, h.nodup _⟩)
    · rw [← hscope]
      exact hwaiting.linked other guard' hg
    · rw [← hscope]
      exact List.mem_cons_of_mem _ (hwaiting.flocked other guard' hg)
  have hothers (other : String) (hother : other ≠ id) :
      (s.setRunner id (.entered request guard)).records other =
        (s.setRunner id (.waiting request)).records other := by
    simp [BuildQueue.setRunner, BuildQueue.setRecord, hother]
  have hentered : ((s.setRunner id (.entered request guard)).records id).runner =
      .entered request guard := by
    simp [BuildQueue.setRunner, BuildQueue.setRecord]
  -- nobody else has this lock: the inode was free
  have hown (other : String) (hother : other ≠ id)
      (hg : ((s.setRunner id (.entered request guard)).records other).runner.guard = some guard) :
      False := by
    rw [hothers other hother] at hg
    exact hfree (hwaiting.flocked other guard hg)
  refine ⟨fun other guard' hg => ?_, fun other guard' hg => ?_, fun first last guard' hf hl => ?_,
    hlock.nodup, hlock.ordered, fun other request' queue hq seen hmem => ?_⟩
  · by_cases hother : other = id
    · subst hother
      change ((s.setRunner other (.entered request guard)).records other).runner.inside = _ at hg
      rw [hentered] at hg
      cases hg
      simpa [BuildQueue.setLock] using hlinked
    · change ((s.setRunner id (.entered request guard)).records other).runner.inside = _ at hg
      rw [hothers other hother] at hg
      exact hlock.linked other guard' hg
  · by_cases hother : other = id
    · subst hother
      change ((s.setRunner other (.entered request guard)).records other).runner.guard = _ at hg
      rw [hentered] at hg
      cases hg
      simp [BuildQueue.setLock]
    · change ((s.setRunner id (.entered request guard)).records other).runner.guard = _ at hg
      rw [hothers other hother] at hg
      exact hlock.flocked other guard' hg
  · change ((s.setRunner id (.entered request guard)).records first).runner.guard = _ at hf
    change ((s.setRunner id (.entered request guard)).records last).runner.guard = _ at hl
    by_cases hfirst : first = id
    · subst hfirst
      rw [hentered] at hf
      cases hf
      by_contra hne
      exact hown last (Ne.symm hne) hl
    · by_cases hlast : last = id
      · subst hlast
        rw [hentered] at hl
        cases hl
        exact (hown first hfirst hf).elim
      · rw [hothers first hfirst] at hf
        rw [hothers last hlast] at hl
        exact hwaiting.own first last guard' hf hl
  · change ((s.setRunner id (.entered request guard)).records other).runner.queue = _ at hq
    have hseen : ((s.setRunner id (.waiting request)).records seen.requestId).Copy seen ∧
        request'.Before seen := by
      by_cases hother : other = id
      · subst hother
        rw [hentered] at hq
        cases hq
      · rw [hothers other hother] at hq
        exact hwaiting.queue other request' queue hq seen hmem
    refine ⟨hseen.1.congr ?_, hseen.2⟩
    by_cases hother : seen.requestId = id <;>
      simp [BuildQueue.setLock, BuildQueue.setRunner, BuildQueue.setRecord, hother]

/-- Opening the lock file leaves a name that it has to it. -/
lemma InTurn.openLock (h : InTurn s) {queue : List BuildRequest}
    (hrunner : (s.records id).runner = .first request queue) :
    InTurn ((s.setRunner id (.opened request queue
      ⟨request.worktreeScope, (s.locks request.worktreeScope).file.target⟩)).setLock
        request.worktreeScope { s.locks request.worktreeScope with
          file := (s.locks request.worktreeScope).file.openCreate }) := by
  have hopened : InTurn (s.setRunner id (.opened request queue
      ⟨request.worktreeScope, (s.locks request.worktreeScope).file.target⟩)) :=
    h.setRecord (.of_queue rfl rfl (by rw [hrunner]; rfl))
  refine hopened.setLock (fun other guard hg hscope => ?_) (fun other guard hg hscope => ?_)
    (h.nodup _)
  · have hinode : (s.locks guard.worktreeScope).file.inode = some guard.inode :=
      hopened.linked other guard hg
    rw [hscope] at hinode
    exact congrArg some (LinkedFile.target_of_inode hinode)
  · have hmem : guard.inode ∈ (s.locks guard.worktreeScope).flocked :=
      hopened.flocked other guard hg
    rwa [hscope] at hmem

/-- Who removes the lock file is alone inside. -/
lemma InTurn.unlink (h : InTurn s) {guard : BuildLockGuard} {outcome : Option BackgroundOutcome}
    {file : LinkedFile} (hrunner : (s.records id).runner = .dropping guard outcome) :
    InTurn ((s.setRunner id (.closing guard outcome)).setLock guard.worktreeScope
      { s.locks guard.worktreeScope with file := file }) := by
  have hinside : (s.records id).runner.inside = some guard := by
    rw [hrunner]
    rfl
  have hf : Follows (s.records id) { s.records id with runner := .closing guard outcome } :=
    .of_guard rfl hinside rfl rfl
  have hclosing : InTurn (s.setRunner id (.closing guard outcome)) := h.setRecord hf
  refine hclosing.setLock (fun other guard' hg hscope => ?_) (fun other guard' hg hscope => ?_)
    (h.nodup _)
  · by_cases hother : other = id
    · subst hother
      simp [BuildQueue.setRunner, BuildQueue.setRecord, BuildRunner.inside] at hg
    · simp only [BuildQueue.setRunner, BuildQueue.setRecord, ne_eq, hother, not_false_eq_true,
        Function.update_of_ne] at hg
      exact (hother (h.oneBuild other id guard' guard hg hinside hscope)).elim
  · have hmem : guard'.inode ∈ (s.locks guard'.worktreeScope).flocked :=
      hclosing.flocked other guard' hg
    rwa [hscope] at hmem

/-- Closing the lock file gives up one lock, which nobody else has. -/
lemma InTurn.close (h : InTurn s) {guard : BuildLockGuard} {outcome : Option BackgroundOutcome}
    (hrunner : (s.records id).runner = .closing guard outcome) :
    InTurn ((s.setRunner id (.ofOutcome outcome)).setLock guard.worktreeScope
      { s.locks guard.worktreeScope with
        flocked := (s.locks guard.worktreeScope).flocked.erase guard.inode }) := by
  have hguard : (BuildRunner.ofOutcome outcome).guard = none := by
    cases outcome <;> rfl
  have hqueue : (BuildRunner.ofOutcome outcome).queue = none := by
    cases outcome <;> rfl
  have hclosed : InTurn (s.setRunner id (.ofOutcome outcome)) :=
    h.setRecord (.of_none rfl hguard hqueue)
  refine hclosed.setLock (fun other guard' hg hscope => ?_) (fun other guard' hg hscope => ?_)
    ((h.nodup _).erase _)
  · rw [← hscope]
    exact hclosed.linked other guard' hg
  · have hmem : guard'.inode ∈ (s.locks guard'.worktreeScope).flocked :=
      hclosed.flocked other guard' hg
    rw [hscope] at hmem
    refine (List.mem_erase_of_ne fun hinode => ?_).mpr hmem
    have hsame : guard' = guard := by
      cases guard
      cases guard'
      simp_all
    subst hsame
    have hother : other ≠ id := by
      rintro rfl
      simp [BuildQueue.setRunner, BuildQueue.setRecord, hguard] at hg
    simp only [BuildQueue.setRunner, BuildQueue.setRecord, ne_eq, hother, not_false_eq_true,
      Function.update_of_ne] at hg
    exact hother (h.own other id guard' hg (by rw [hrunner]; rfl))

lemma InTurn.step (h : InTurn s) (hc : Copied s) (hm : LocksCurrent s m) (ht : s.step m = some t) :
    InTurn t := by
  cases effect_of_step ht with
  | advance id m record hadvance => exact h.setRecord (.advance hadvance)
  | openLock id request queue hrunner => exact h.openLock hrunner
  | openFailed id request queue hrunner => exact h.setRecord (.of_none rfl rfl rfl)
  | flock id request queue guard hrunner hfree =>
    exact h.flock hfree (hm request queue guard hrunner hfree).1
  | busy id request queue guard hrunner hbusy => exact h.setRecord (.of_none rfl rfl rfl)
  | unlink id removed guard outcome hrunner => exact h.unlink hrunner
  | close id guard outcome hrunner => exact h.close hrunner
  | look id n request hrunner haborted =>
    have hlisting : InTurn (s.setRunner id (.listing request)) := h.setRecord (.of_none rfl rfl rfl)
    exact hlisting.setCall ordered_loadAll
  | stay => exact h
  | idle n => exact h.idle
  | list n => exact h.setCall ordered_loadAll
  | request n id sessionId worktreeScope requestedAt hnew =>
    have hrecord : InTurn (s.setRecord id { BuildRecord.unused with
        file := some (.initial id sessionId worktreeScope requestedAt)
        origin := some (.initial id sessionId worktreeScope requestedAt) }) :=
      h.setRecord_of_queue (fun _ ho => by cases hnew.symm.trans ho) (by rintro _ ⟨⟩)
        (by rintro _ ⟨⟩) (by rintro _ _ ⟨⟩)
    have hordered : (loadAll (.position (.initial id sessionId worktreeScope requestedAt))
        (s.entries ++ [id]) []).Ordered := ordered_loadAll
    have hcall := InTurn.setCall (n := n) hrecord hordered
    exact ⟨hcall.linked, hcall.flocked, hcall.own, hcall.nodup, hcall.ordered, hcall.queue⟩
  | readEntry n readable whom id entries loaded hcall => exact h.setCall ordered_loadAll
  | reconcileKeep n readable live now whom request todo pending hcall =>
    have hordered := h.ordered n
    rw [hcall] at hordered
    refine h.setCall ?_
    simpa [BuildCall.Ordered] using hordered
  | reconcile n readable live now whom request changed todo pending hcall hchanged =>
    have hordered := h.ordered n
    rw [hcall] at hordered
    exact h.setCall (hordered.sublist ((List.sublist_cons_self request todo).append_left pending))
  | mark n result whom changed todo pending hcall =>
    have hordered := h.ordered n
    rw [hcall] at hordered
    refine (h.setRecord (.of_runner (by simp) (by simp))).setCall ?_
    split_ifs
    · exact hordered
    · trivial
  | position n request pending hcall => exact h.setCall trivial
  | turn n id request pending hcall hrunner => exact (h.turn hc hcall hrunner).idle
  | turnFailed n id request hrunner => exact InTurn.idle (h.setRecord (.of_none rfl rfl rfl))
  | spawn n taskId startedAt written request started hcall hrunning =>
    exact InTurn.setCall (h.setRecord (.of_none rfl rfl rfl)) trivial
  | register n request hcall => exact InTurn.setCall (h.setRecord (.of_runner rfl rfl)) trivial
  | saveTaskId n result request hcall =>
    exact InTurn.idle (h.setRecord (.of_runner (by simp) (by simp)))
  | cancel n id sessionId readable request hfile => exact h.setCall trivial
  | abort n here request hcall hlive =>
    exact InTurn.setCall (h.setRecord (.of_runner rfl rfl)) trivial
  | noAbort n here request hcall => exact h.setCall trivial
  | writeCancelled n written now request started hcall hstarted =>
    exact InTurn.setCall (h.setRecord (.of_runner rfl rfl)) trivial
  | saveCancelled n result now request hcall =>
    cases result with
    | written => exact InTurn.idle (h.setRecord (.of_runner rfl rfl))
    | kept => exact InTurn.idle (h.setRecord (.of_runner rfl rfl))
    | lost => exact InTurn.idle (h.setRecord (.of_runner rfl rfl))

/-- The queue that the first has seen is still the one of those pending. -/
lemma InTurn.entersFirst (h : InTurn s) (hc : Copied s) (hm : LocksCurrent s m) :
    EntersFirst s m := by
  cases m with
  | flock id =>
    intro request queue guard hrunner hfree other file hfile hpending hscope
    obtain ⟨seen, hmem, hseen⟩ :=
      (hm request queue guard hrunner hfree).2 other file hfile hpending hscope
    obtain ⟨⟨origin, ho, hsame⟩, hbefore⟩ := h.queue id request queue
      (by rw [hrunner]; rfl) seen hmem
    obtain ⟨origin', ho', hfile'⟩ := (hc.record other).file file hfile
    rw [hseen] at ho
    cases ho.symm.trans ho'
    exact hbefore.of_same (.refl request) (hfile'.trans hsame.symm)
  | _ => trivial

/-! ### Whole runs -/

lemma inTurn_empty : InTurn (empty : BuildQueue F) where
  linked := by rintro _ _ ⟨⟩
  flocked := by rintro _ _ ⟨⟩
  own := by rintro _ _ _ ⟨⟩
  nodup _ := List.nodup_nil
  ordered _ := trivial
  queue := by rintro _ _ _ ⟨⟩

/-- Where whoever takes the lock has opened the file of that name, and has seen everyone who is
pending, one task at a time is inside, and they enter in order. -/
theorem oneBuild_of_locksCurrent {ms : List BuildMove}
    (hms : Guarded step LocksCurrent (empty : BuildQueue F) ms) :
    Always step OneBuild (empty : BuildQueue F) ms ∧
      Guarded step EntersFirst (empty : BuildQueue F) ms := by
  have hturn : Always step (fun s => Copied s ∧ InTurn s) (empty : BuildQueue F) ms :=
    hms.always (fun _ _ _ h hm ht => ⟨h.1.step ht, h.2.step h.1 hm ht⟩) ⟨copied_empty, inTurn_empty⟩
  constructor
  · intro ks ls t hk ht
    exact (hturn ks ls t hk ht).2.oneBuild
  · refine guarded_of_steps fun ks m ls t hk ht => ?_
    obtain ⟨hcopied, hin⟩ := hturn ks (m :: ls) t hk ht
    subst hk
    exact hin.entersFirst hcopied (hms.step_mem ht)

/-- A request that is first in its queue takes the lock. -/
def enteredBuild : List BuildMove :=
  [.request 0 "build" "session" "tree" "09:00" .written, .readEntry 0 false, .listed 0,
    .spawn 0 "task" "09:00" true, .register 0, .saveTaskId 0 .written,
    .advance "build" (.load true), .look "build" 0, .readEntry 0 true,
    .reconcile 0 true true "09:01",
    .listed 0, .openLock "build" true, .flock "build"]

theorem oneBuild_of_locksCurrent_entered :
    (exec step (empty : BuildQueue Nat) enteredBuild).isSome ∧
      Always step OneBuild (empty : BuildQueue Nat) enteredBuild ∧
        Guarded step EntersFirst (empty : BuildQueue Nat) enteredBuild := by
  refine ⟨rfl, oneBuild_of_locksCurrent ?_⟩
  refine .cons trivial rfl (.cons trivial rfl (.cons trivial rfl (.cons trivial rfl
    (.cons trivial rfl (.cons trivial rfl (.cons trivial rfl (.cons trivial rfl
      (.cons trivial rfl (.cons trivial rfl (.cons trivial rfl (.cons trivial rfl
        (.cons ?_ rfl trivial))))))))))))
  rintro _ _ _ ⟨⟩ -
  refine ⟨rfl, fun other file hfile hpending hscope => ⟨_, List.mem_cons_self, ?_⟩⟩
  by_cases hother : other = "build"
  · exact hother.symm
  · simp [BuildQueue.setRunner, BuildQueue.setRecord, BuildQueue.setCall, BuildQueue.setLock, empty,
      BuildRecord.unused, BuildRequest.initial, hother] at hfile

/-- The steps of a requester, with `listing` the steps of its listing. -/
def requesting (id requestedAt : String) (listing : List BuildMove) : List BuildMove :=
  .request 0 id "session" "tree" requestedAt .written :: listing ++
    [.listed 0, .spawn 0 id requestedAt true, .register 0, .saveTaskId 0 .written]

/-- The steps of a task that asks for its turn. -/
def looking (id : String) (listing : List BuildMove) : List BuildMove :=
  .look id 0 :: listing ++ [.listed 0, .openLock id true]

/-- The first build has written its last state. The second then opens the lock file, and the first
removes it. The third is requested in another process, to which the second is not live; it creates
the next lock file. -/
def lockedTwice : List BuildMove :=
  requesting "a" "09:00" [.readEntry 0 true, .reconcile 0 false false "09:00", .mark 0 .written] ++
    (.advance "a" (.load true) ::
      looking "a" [.readEntry 0 true, .reconcile 0 true true "09:00"]) ++
    [.flock "a", .advance "a" (.start .written)] ++
    requesting "b" "09:01" [.readEntry 0 true, .readEntry 0 true, .reconcile 0 true true "09:01",
      .reconcile 0 false false "09:01", .mark 0 .written] ++
    [.advance "b" (.load true), .advance "a" (.finish ⟨.completed, some 0, none⟩ false),
      .advance "a" (.loadFinal true), .advance "a" (.saveFinal .written "09:02")] ++
    looking "b" [.readEntry 0 true, .readEntry 0 true, .reconcile 0 true true "09:02"] ++
    [.unlink "a" true, .close "a"] ++
    requesting "c" "09:03" [.readEntry 0 true, .readEntry 0 true, .readEntry 0 true,
      .reconcile 0 true false "09:03", .mark 0 .written, .reconcile 0 false false "09:03",
      .mark 0 .written] ++
    (.advance "c" (.load true) :: looking "c" [.readEntry 0 true, .readEntry 0 true,
      .readEntry 0 true, .reconcile 0 true true "09:03"]) ++
    [.flock "c", .flock "b"]

theorem not_oneBuild :
    ¬ ∀ ms, (exec step (empty : BuildQueue Nat) ms).isSome →
      Always step OneBuild (empty : BuildQueue Nat) ms ∧
        Guarded step EntersFirst (empty : BuildQueue Nat) ms := by
  intro h
  have hone := (h lockedTwice rfl).1 lockedTwice [] _ (by simp) rfl
  have hsame : "b" = "c" := hone "b" "c" ⟨"tree", 0⟩ ⟨"tree", 1⟩ rfl rfl rfl
  exact absurd hsame (by decide)

end BuildQueue

end Jcode
