import Jcode.Swarm.AwaitMembers

/-!
# No awaiting session left behind

A request that loses `mark_active_if_new` relies on the watcher of its key. Whoever clears the key
must leave no open waiter in the map, unless a request is about to spawn the next watcher.
-/

namespace Jcode

open Schedule

namespace AwaitMembers

/-- After `add_waiter` and before `mark_active_if_new`, or before `take_waiters` if the deadline
has passed. -/
def Phase.registering : Phase → Bool
  | .waiting _ _ | .inTime _ | .expiring _ _ | .expired _ => true
  | _ => false

namespace AwaitSystem

variable {hashed : String → String → List String → String} {key : String} {s t u : AwaitSystem}
  {m : Move} {i : Nat} {r : Request} {phase : Phase}

/-- The waiters registered for the key. -/
def queue (key : String) (s : AwaitSystem) : List Waiter := (s.runtime.waiters key).getD []

/-- A waiter of the key whose client is still there. -/
def HasOpenWaiter (key : String) (s : AwaitSystem) : Prop :=
  ∃ w ∈ s.queue key, w.clientEventTx ∉ s.closed

def Registering (hashed : String → String → List String → String) (key : String) (s : AwaitSystem) :
    Prop :=
  ∃ r ∈ s.requests, r.key hashed = key ∧ r.phase.registering

/-- Whenever the key is not active and no request is registering, no open waiter is left. -/
def NoneStranded (hashed : String → String → List String → String) (key : String)
    (s : AwaitSystem) : Prop :=
  key ∉ s.runtime.activeKeys → ¬ Registering hashed key s → ¬ HasOpenWaiter key s

/-- The key is cleared only when the map holds no open waiter, or while a request is
registering. -/
def ClearsAnswered (hashed : String → String → List String → String) (key : String)
    (s : AwaitSystem) (m : Move) : Prop :=
  ∀ i r, m = .clearActive i → s.requests[i]? = some r → r.phase = .clearing key →
    HasOpenWaiter key s → Registering hashed key s

/-! ### What a move changes -/

lemma Registering.setPhase (h : Registering hashed key s) (hr : s.requests[i]? = some r)
    (hu : u.requests = s.requests)
    (hphase : r.key hashed = key → r.phase.registering → phase.registering) :
    Registering hashed key (u.setPhase i r phase) := by
  obtain ⟨r', hr', hkey, hreg⟩ := h
  obtain ⟨j, hj⟩ := List.mem_iff_getElem?.mp hr'
  by_cases hij : j = i
  · subst hij
    cases hj.symm.trans hr
    have hself : (u.setPhase j r phase).requests[j]? = some { r with phase := phase } := by
      simp [AwaitSystem.setPhase, hu, (List.getElem?_eq_some_iff.mp hj).1]
    exact ⟨_, List.mem_of_getElem? hself, hkey, hphase hkey hreg⟩
  · have hother : (u.setPhase i r phase).requests[j]? = some r' := by
      simp [AwaitSystem.setPhase, hu, List.getElem?_set_ne (Ne.symm hij), hj]
    exact ⟨r', List.mem_of_getElem? hother, hkey, hreg⟩

/-- A request that has just registered, or is on its way. -/
lemma registering_setPhase (hr : s.requests[i]? = some r) (hu : u.requests = s.requests)
    (hphase : phase.registering) : Registering hashed (r.key hashed) (u.setPhase i r phase) := by
  have hself : (u.setPhase i r phase).requests[i]? = some { r with phase := phase } := by
    simp [AwaitSystem.setPhase, hu, (List.getElem?_eq_some_iff.mp hr).1]
  exact ⟨_, List.mem_of_getElem? hself, rfl, hphase⟩

/-- A move for one request that adds no waiter and clears no key. -/
lemma NoneStranded.of_setPhase (h : NoneStranded hashed key s) (hr : s.requests[i]? = some r)
    (ht : t = u.setPhase i r phase) (hu : u.requests = s.requests) (hclosed : u.closed = s.closed)
    (hactive : s.runtime.activeKeys ⊆ u.runtime.activeKeys)
    (hqueue : ∀ w ∈ u.queue key, w ∈ s.queue key)
    (hphase : r.key hashed = key → r.phase.registering →
      phase.registering ∨ key ∈ u.runtime.activeKeys ∨ u.queue key = []) :
    NoneStranded hashed key t := by
  subst ht
  rintro hinactive hquiet ⟨w, hw, hopen⟩
  refine h (fun hmem => hinactive (hactive hmem)) (fun hreg => hquiet ?_)
    ⟨w, hqueue w hw, hclosed ▸ hopen⟩
  refine hreg.setPhase hr hu fun hkey hregistering => ?_
  rcases hphase hkey hregistering with hphase | hmem | hempty
  · exact hphase
  · exact absurd hmem hinactive
  · have hw : w ∈ u.queue key := hw
    rw [hempty] at hw
    cases hw

/-! ### The maps of the runtime -/

lemma queue_addWaiter {key' : String} {requestId : Nat} (hkey : key ≠ key') :
    ({ s with runtime := s.runtime.addWaiter key' requestId i } : AwaitSystem).queue key =
      s.queue key := by
  simp [queue, Runtime.addWaiter, hkey]

lemma queue_takeWaiters_self :
    ({ s with runtime := (s.runtime.takeWaiters key).2 } : AwaitSystem).queue key = [] := by
  simp [queue, Runtime.takeWaiters]

lemma mem_queue_of_takeWaiters {key' : String} {w : Waiter}
    (hw : w ∈ ({ s with runtime := (s.runtime.takeWaiters key').2 } : AwaitSystem).queue key) :
    w ∈ s.queue key := by
  by_cases hkey : key = key'
  · subst hkey
    rw [queue_takeWaiters_self] at hw
    cases hw
  · simpa [queue, Runtime.takeWaiters, hkey] using hw

lemma mem_queue_of_retainOpenWaiters {key' : String} {isClosed : Nat → Bool} {w : Waiter}
    (hw : w ∈ ({ s with
      runtime := (s.runtime.retainOpenWaiters key' isClosed).2 } : AwaitSystem).queue key) :
    w ∈ s.queue key := by
  unfold Runtime.retainOpenWaiters at hw
  split at hw
  · exact hw
  rename_i entries hentries
  by_cases hkey : key = key'
  · subst hkey
    simp only [queue, Function.update_self, hentries, Option.getD_some] at hw ⊢
    split_ifs at hw
    · cases hw
    · exact (List.mem_filter.mp hw).1
  · simpa [queue, hkey] using hw

/-! ### The moves -/

/-- Clearing the key strands the open waiters that are left, unless a request is registering. -/
lemma noneStranded_clear_iff (hr : s.requests[i]? = some r) (hp : r.phase = .clearing key) :
    NoneStranded hashed key
        (({ s with runtime := s.runtime.clearActive key } : AwaitSystem).setPhase i r .finished) ↔
      (HasOpenWaiter key s → Registering hashed key s) := by
  have hreg : Registering hashed key
      (({ s with runtime := s.runtime.clearActive key } : AwaitSystem).setPhase i r .finished) ↔
        Registering hashed key s := by
    constructor
    · rintro ⟨r', hr', hkey, hphase⟩
      rcases List.mem_or_eq_of_mem_set hr' with hmem | rfl
      · exact ⟨r', hmem, hkey, hphase⟩
      · simp [Phase.registering] at hphase
    · exact fun h => h.setPhase hr rfl fun _ hphase => by simp [hp, Phase.registering] at hphase
  have hinactive : key ∉ (s.runtime.clearActive key).activeKeys := Finset.notMem_erase _ _
  constructor
  · intro h hopen
    by_contra hquiet
    exact h hinactive (fun hreg' => hquiet (hreg.mp hreg')) hopen
  · exact fun h _ hquiet hopen => hquiet (hreg.mpr (h hopen))

lemma NoneStranded.step (h : NoneStranded hashed key s) (hG : ClearsAnswered hashed key s m)
    (hs : s.step hashed m = some t) : NoneStranded hashed key t := by
  cases Rule.of_step hs with
  | tick ms ht | setView view ht =>
    subst ht
    exact h
  | close i ht =>
    subst ht
    rintro hinactive hquiet ⟨w, hw, hopen⟩
    exact h hinactive hquiet ⟨w, hw, fun hclosed => hopen (Finset.mem_insert_of_mem hclosed)⟩
  | restart ht =>
    subst ht
    rintro - - ⟨w, hw, -⟩
    cases hw
  | request requestId reqSessionId question timeoutSecs ht =>
    subst ht
    intro hinactive hquiet
    refine h hinactive fun ⟨r, hr, hreg⟩ => hquiet ⟨r, List.mem_append_left _ hr, hreg⟩
  | addWaiter i r state statuses hr hp ht =>
    by_cases hkey : r.key hashed = key
    · subst ht hkey
      exact fun _ hquiet => absurd (registering_setPhase hr rfl rfl) hquiet
    · refine h.of_setPhase hr ht rfl rfl (fun _ hmem => hmem) (fun w hw => ?_)
        fun hkey' => absurd hkey' hkey
      rwa [queue_addWaiter (Ne.symm hkey)] at hw
  | expire i r state statuses hr hp ht | goOn i r state statuses hr hp ht
  | persistExpired i r state answer hr hp ht =>
    exact h.of_setPhase hr ht rfl rfl (fun _ hmem => hmem) (fun _ hw => hw)
      fun _ _ => .inl rfl
  | markActive i r state phase hr hp hphase ht =>
    refine h.of_setPhase hr ht rfl rfl (fun _ hmem => Finset.mem_insert_of_mem hmem)
      (fun _ hw => hw) fun hkey _ => .inr (.inl ?_)
    exact hkey ▸ Finset.mem_insert_self _ _
  | retainWaiters i r state statuses phase hr hp hphase ht =>
    refine h.of_setPhase hr ht rfl rfl (fun x hmem => ?_)
      (fun w hw => mem_queue_of_retainOpenWaiters hw)
      fun _ hreg => by simp [hp, Phase.registering] at hreg
    unfold Runtime.retainOpenWaiters
    split <;> exact hmem
  | takeExpired i r answer hr hp ht =>
    refine h.of_setPhase hr ht rfl rfl (fun _ hmem => hmem)
      (fun w hw => mem_queue_of_takeWaiters hw) fun hkey _ => .inr (.inr ?_)
    subst hkey
    exact queue_takeWaiters_self
  | takeResponding i r state answer hr hp ht =>
    exact h.of_setPhase hr ht rfl rfl (fun _ hmem => hmem)
      (fun w hw => mem_queue_of_takeWaiters hw)
      fun _ hreg => by simp [hp, Phase.registering] at hreg
  | clearActive i r key' hr hp ht =>
    by_cases hkey : key' = key
    · subst ht hkey
      exact (noneStranded_clear_iff hr hp).mpr (hG i r rfl hr hp)
    · subst ht
      intro hinactive hquiet hopen
      refine h (fun hmem => hinactive (Finset.mem_erase_of_ne_of_mem (Ne.symm hkey) hmem))
        (fun hreg => hquiet ?_) hopen
      exact hreg.setPhase hr rfl fun _ hphase => by simp [hp, Phase.registering] at hphase
  | replay i r state final hr hp hl hf ht | load i r persisted hr hp hl ht
  | readIds i r persisted hr hp ht | readWatched i r state hr hp ht
  | answerEmpty i r persisted ids hr hp hempty ht | evaluate i r persisted ids hr hp ht
  | watch i r state ids hr hp ht | keepPending i r state statuses hr hp ht
  | ensurePending i r state dir statuses hr hp hd ht
  | timeOut i r state statuses hr hp ht | receive i ok r state statuses phase hr hp hphase ht
  | persistResolved i r state answer hr hp ht =>
    exact h.of_setPhase hr ht rfl rfl (fun _ hmem => hmem) (fun _ hw => hw)
      fun _ hreg => by simp [hp, Phase.registering] at hreg

lemma NoneStranded.clearsAnswered (h : NoneStranded hashed key t)
    (hs : s.step hashed m = some t) : ClearsAnswered hashed key s m := by
  rintro i r rfl hr hp
  cases Rule.of_step hs with
  | clearActive _ r' key' hr' hp' ht =>
    cases hr.symm.trans hr'
    cases hp.symm.trans hp'
    subst ht
    exact (noneStranded_clear_iff hr hp).mp h

end AwaitSystem

open AwaitSystem

/-- For any key, no open waiter is stranded throughout a run exactly when the key is never cleared
over an open waiter while no request is registering. -/
theorem noneStranded_iff {hashed : String → String → List String → String} {key : String}
    {view : SwarmView} {nowMs : Nat} {moves : List Move} {t : AwaitSystem}
    (hrun : exec (step hashed) (start view nowMs) moves = some t) :
    Always (step hashed) (NoneStranded hashed key) (start view nowMs) moves ↔
      Guarded (step hashed) (ClearsAnswered hashed key) (start view nowMs) moves := by
  refine always_iff_guarded (I := fun _ => True) (E := fun _ _ => True) (fun _ _ _ _ _ _ => trivial)
    (fun _ _ _ _ hP _ hG hs => hP.step hG hs)
    (fun _ _ _ _ _ _ hG hs hP => hG (hP.clearsAnswered hs))
    trivial ?_ (guarded_of_forall_mem fun _ _ _ => trivial) hrun
  rintro - - ⟨w, hw, -⟩
  cases hw

/-! ### A requester and a member -/

/-- Both are in the swarm "swarm". -/
def pairView : SwarmView where
  members x := if x ∈ ["req", "peer"] then some (readyAgent x) else none
  swarmsById swarmId := if swarmId = "swarm" then {"req", "peer"} else ∅

def peerCompleted : AwaitQuestion where
  swarmId := "swarm"
  requestedIds := ["peer"]
  targetStatus := ["completed"]
  mode := none

/-- Stands for the hash. -/
def joinedHash (sessionId action : String) (components : List String) : String :=
  "\n".intercalate (sessionId :: action :: components)

def awaitKey : String := requestKey joinedHash "req" peerCompleted

/-- A request registers, spawns a watcher and finds the member not done yet. -/
def watchRun : List Move :=
  [.request 1 "req" peerCompleted none, .loadState 0, .readIds 0, .readStatuses 0,
    .ensurePending 0, .addWaiter 0, .checkDeadline 0, .markActive 0, .readIds 0, .readStatuses 0,
    .retainWaiters 0]

/-- The client goes away, and at the next event the watcher finds no waiter left. -/
def leftRun : List Move :=
  watchRun ++ [.close 0, .receive 0 true, .readIds 0, .readStatuses 0, .retainWaiters 0,
    .clearActive 0]

theorem noneStranded_iff_leftRun :
    Always (step joinedHash) (NoneStranded joinedHash awaitKey) (start pairView 0) leftRun ↔
      Guarded (step joinedHash) (ClearsAnswered joinedHash awaitKey) (start pairView 0)
        leftRun := by
  obtain ⟨t, ht⟩ := Option.isSome_iff_exists.mp
    (show (exec (step joinedHash) (start pairView 0) leftRun).isSome by decide +kernel)
  exact noneStranded_iff ht

/-- The watcher's event channel fails; it clears the key and leaves the waiter of the request in
the map. -/
theorem watcher_strands :
    ∃ t, exec (step joinedHash) (start pairView 0)
        (watchRun ++ [.receive 0 false, .clearActive 0]) = some t ∧
      ¬ NoneStranded joinedHash awaitKey t := by
  obtain ⟨t, ht, hstate⟩ := (Option.any_eq_true _ _).mp
    (show (exec (step joinedHash) (start pairView 0)
        (watchRun ++ [.receive 0 false, .clearActive 0])).any (fun t =>
      awaitKey ∉ t.runtime.activeKeys ∧ (∀ r ∈ t.requests, r.phase = .finished) ∧
        t.queue awaitKey = [⟨1, 0⟩] ∧ t.closed = ∅) by decide +kernel)
  obtain ⟨hinactive, hfinished, hqueue, hclosed⟩ := of_decide_eq_true hstate
  refine ⟨t, ht, fun h => h hinactive ?_ ⟨⟨1, 0⟩, by simp [hqueue], by simp [hclosed]⟩⟩
  rintro ⟨r, hr, -, hreg⟩
  simp [hfinished r hr, Phase.registering] at hreg

end AwaitMembers

end Jcode
