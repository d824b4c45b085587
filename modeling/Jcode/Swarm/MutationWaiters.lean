import Jcode.Swarm.MutationRuns

/-!
# No waiter left behind

A request that loses `mark_active_if_new` relies on the finishing request to find its waiter.
`finish_request` takes the waiters before it clears the active key, so a request that registers
and loses in between is never answered. That is the only way.
-/

namespace Jcode

open Schedule MutationPhase

namespace MutationSystem

variable {key : String} {s t u : MutationSystem} {i j : Nat} {p q : MutationPhase}
  {m : MutationMove}

/-- The waiters registered for the key. -/
def queue (key : String) (s : MutationSystem) : List SwarmMutationWaiter :=
  (s.runtime.waiters key).getD []

/-- The waiters that belong to request `i`. -/
def waits (key : String) (s : MutationSystem) (i : Nat) : Nat :=
  (s.queue key).countP (·.clientEventTx = i)

/-- Between `add_waiter` and `mark_active_if_new`. -/
def registering : MutationPhase → Bool
  | .waiting => true
  | _ => false

/-- `mark_active_if_new` was lost to another request. -/
def lost : MutationPhase → Bool
  | .queued => true
  | _ => false

/-- The phases in which a request may have its waiter in the map. -/
def pending : MutationPhase → Bool
  | .waiting | .marked | .executing _ | .persisted _ | .queued => true
  | _ => false

/-- A persisted state without a response, which `persist_final_response` never makes. -/
def unanswered : MutationPhase → Bool
  | .persisted st => st.finalResponse.isNone
  | _ => false

/-- A response, sent or waited for: every request but the ones still to register is owed one. -/
def owed : MutationPhase → Nat
  | .arrived | .loaded => 0
  | _ => 1

/-- No request holds the key: it is not active and no handler stands between `Some` and the end
of `finish_request`. -/
def Quiescent (key : String) (s : MutationSystem) : Prop :=
  key ∉ s.runtime.activeKeys ∧ ∀ i, ¬ s.At handling i

/-- The waiters left are those of requests still between `add_waiter` and `mark_active_if_new`,
and every request that was refused has been sent one response. -/
structure NoneStranded (key : String) (s : MutationSystem) : Prop where
  waiters : ∀ ws, s.runtime.waiters key = some ws →
    ws ≠ [] ∧ ∀ w ∈ ws, s.At registering w.clientEventTx
  answered : ∀ i, s.At refused i → (s.responses i).length = 1

/-- Whenever no request holds the key, nobody is stranded. -/
def SettledUp (key : String) (s : MutationSystem) : Prop :=
  Quiescent key s → NoneStranded key s

/-- The key is cleared only when no request that lost `mark_active_if_new` has its waiter in
the map. -/
def ClearsAnswered (key : String) (s : MutationSystem) (m : MutationMove) : Prop :=
  ∀ i, m = .clearActive i → ∀ w ∈ s.queue key, ¬ s.At lost w.clientEventTx

/-! ### Every request is accounted for -/

structure Accounted (key : String) (s : MutationSystem) : Prop where
  entry : s.runtime.waiters key ≠ some []
  owner : ∀ w ∈ s.queue key, s.At pending w.clientEventTx
  account : ∀ i, (s.responses i).length + s.waits key i = (s.phase? i).elim 0 owed
  final : ∀ i, ¬ s.At unanswered i

@[simp] lemma responses_setPhase (i j : Nat) : (s.setPhase i q).responses j = s.responses j := rfl

@[simp] lemma queue_setPhase (i : Nat) : (s.setPhase i q).queue key = s.queue key := rfl

lemma length_responses_send (messages : List (Nat × ServerEvent)) (i : Nat) :
    ((s.send messages).responses i).length =
      (s.responses i).length + messages.countP (·.1 = i) := by
  simp [responses, send, List.countP_eq_length_filter]

lemma countP_answers (runtime : SwarmMutationRuntime)
    (response : PersistedSwarmMutationResponse) (sessionId : String) (i : Nat) :
    (answers (runtime.takeWaiters key).1 response sessionId).countP (·.1 = i) =
      ((runtime.waiters key).getD []).countP (·.clientEventTx = i) := by
  simp [answers, SwarmMutationRuntime.takeWaiters, List.countP_map, Function.comp_def]

lemma Accounted.start (dir : MutationStateDir) (nowMs : Nat) :
    Accounted key (start dir nowMs) := by
  constructor <;>
    simp [At, phase?, queue, waits, responses, MutationSystem.start, SwarmMutationRuntime.new]

lemma phase?_of_setPhase (ht : t = u.setPhase i q) (hu : u.requests = s.requests)
    (h : s.phase? i = some p) (j : Nat) :
    t.phase? j = if j = i then some q else s.phase? j := by
  rw [← phase?_setPhase h]
  simp only [phase?, ht, setPhase, hu]

/-- A move that takes request `i` out of no waiter and settles its new debt. -/
lemma Accounted.of_debt (h : Accounted key s) (ht : t = u.setPhase i q)
    (hu : u.requests = s.requests) (hp : s.phase? i = some p) (hun : unanswered q = false)
    (hentry : u.runtime.waiters key ≠ some [])
    (howner : ∀ w ∈ u.queue key, (w.clientEventTx = i ∧ pending q) ∨
      (w.clientEventTx ≠ i ∧ s.At pending w.clientEventTx))
    (hacc : ∀ j, (u.responses j).length + u.waits key j + (if j = i then owed p else 0) =
      (s.responses j).length + s.waits key j + (if j = i then owed q else 0)) :
    Accounted key t := by
  have hat (f : MutationPhase → Bool) := at_of_setPhase (f := f) ht hu hp
  refine ⟨?_, fun w hw => ?_, fun j => ?_, fun j hj => ?_⟩
  · rw [ht]
    exact hentry
  · rw [ht, queue_setPhase] at hw
    exact (hat pending _).mpr (howner w hw)
  · have hj := hacc j
    have ha := h.account j
    have hwaits : t.waits key j = u.waits key j := by rw [waits, waits, ht, queue_setPhase]
    rw [phase?_of_setPhase ht hu hp j, hwaits, ht, responses_setPhase]
    split_ifs at hj ⊢ with hji
    · subst hji
      rw [hp, Option.elim_some] at ha
      rw [Option.elim_some]
      omega
    · omega
  · rcases (hat unanswered j).mp hj with ⟨-, hj⟩ | ⟨-, hj⟩
    · rw [hun] at hj
      cases hj
    · exact h.final j hj

/-- A move which leaves the waiters, the responses and the mover's debt as they are. -/
lemma Accounted.of_move (h : Accounted key s) (ht : t = u.setPhase i q)
    (hu : u.requests = s.requests) (hp : s.phase? i = some p)
    (hw : u.runtime.waiters = s.runtime.waiters) (hd : u.delivered = s.delivered)
    (ho : owed q = owed p) (hpend : pending p → pending q) (hun : unanswered q = false) :
    Accounted key t := by
  have hqueue : u.queue key = s.queue key := by rw [queue, queue, hw]
  refine h.of_debt ht hu hp hun (hw ▸ h.entry) (fun w hw' => ?_) fun j => ?_
  · have hs := h.owner w (hqueue ▸ hw')
    by_cases hwi : w.clientEventTx = i
    · rw [hwi, at_iff hp] at hs
      exact .inl ⟨hwi, hpend hs⟩
    · exact .inr ⟨hwi, hs⟩
  · rw [waits, waits, hqueue, responses, responses, hd, ho]

lemma owed_of_arrive {r : MutationRequest} (ht : t.requests = s.requests ++ [r])
    (hr : r.phase = .arrived) (j : Nat) :
    (t.phase? j).elim 0 owed = (s.phase? j).elim 0 owed := by
  rcases phase?_of_arrive ht j with h | ⟨hs, h⟩
  · rw [h]
  · simp [hs, h, hr, owed]

lemma Accounted.step (h : Accounted key s) (hl : Locked key s) (hs : s.step key m = some t) :
    Accounted key t := by
  cases MutationRule.of_step hs with
  | arrive requestId sessionId action ht =>
    have hat (f : MutationPhase → Bool) (hf : f .arrived = false) (j : Nat) :
        t.At f j ↔ s.At f j := at_of_arrive (congrArg requests ht) hf j
    have hphase := owed_of_arrive (congrArg requests ht) rfl
    refine ⟨?_, fun w hw => ?_, fun j => ?_, fun j hj => ?_⟩
    · rw [ht]
      exact h.entry
    · exact (hat pending rfl _).mpr (h.owner w (by rwa [ht] at hw))
    · rw [hphase, ← h.account j, ht]
      rfl
    · exact h.final j ((hat unanswered rfl j).mp hj)
  | tick ms ht =>
    subst ht
    exact ⟨h.entry, h.owner, h.account, h.final⟩
  | replay i state event hp hst hf ht =>
    refine h.of_debt ht rfl hp rfl h.entry (fun w hw => ?_) fun j => ?_
    · have hw' := h.owner w hw
      refine .inr ⟨fun hwi => ?_, hw'⟩
      rw [hwi, at_iff hp] at hw'
      cases hw'
    · rw [length_responses_send]
      by_cases hj : j = i
      · subst hj
        simp [owed, responses, waits, queue, send, Nat.add_right_comm]
      · simp [hj, Ne.symm hj, responses, waits, queue, send]
  | load i hp hf ht => exact h.of_move ht rfl hp rfl rfl rfl (by simp [pending]) rfl
  | addWaiter i requestId hp ht =>
    have hqueue : ({ s with runtime := s.runtime.addWaiter key requestId i } : MutationSystem).queue
        key = s.queue key ++ [⟨requestId, i⟩] := by
      simp [queue, SwarmMutationRuntime.addWaiter]
    refine h.of_debt ht rfl hp rfl ?_ (fun w hw => ?_) fun j => ?_
    · simp [SwarmMutationRuntime.addWaiter]
    · rw [hqueue, List.mem_append, List.mem_singleton] at hw
      rcases hw with hw | rfl
      · have hw' := h.owner w hw
        refine .inr ⟨fun hwi => ?_, hw'⟩
        rw [hwi, at_iff hp] at hw'
        cases hw'
      · exact .inl ⟨rfl, rfl⟩
    · rw [waits, hqueue, List.countP_append, ← waits]
      by_cases hj : j = i
      · subst hj
        simp [owed, responses, Nat.add_assoc]
      · simp [hj, Ne.symm hj, responses]
  | win i hp hk ht => exact h.of_move ht rfl hp rfl rfl rfl (fun _ => rfl) rfl
  | lose i hp hk ht => exact h.of_move ht rfl hp rfl rfl rfl (fun _ => rfl) rfl
  | ensurePending i sessionId action hp ht =>
    exact h.of_move ht rfl hp rfl rfl rfl (fun _ => rfl) rfl
  | persistFinal i state response hp ht =>
    exact h.of_move ht rfl hp rfl rfl rfl (fun _ => rfl) rfl
  | takeWaiters i state response hp hf ht =>
    have hkey : state.key = key := hl.key_eq hp rfl
    subst hkey
    refine h.of_debt ht rfl hp rfl ?_ (fun w hw => ?_) fun j => ?_
    · simp [send, SwarmMutationRuntime.takeWaiters]
    · simp [queue, send, SwarmMutationRuntime.takeWaiters] at hw
    · rw [length_responses_send, countP_answers]
      simp [owed, responses, waits, queue, send, SwarmMutationRuntime.takeWaiters]
  | takeNone i state hp hf ht => exact (h.final i ((at_iff hp).mpr (by simp [unanswered, hf]))).elim
  | clearActive i state hp ht => exact h.of_move ht rfl hp rfl rfl rfl (by simp [pending]) rfl

/-! ### Whose waiter may be left -/

/-- The waiter of a request that lost is only in the map while the key is active. -/
def LostWhileActive (key : String) (s : MutationSystem) : Prop :=
  ∀ w ∈ s.queue key, s.At lost w.clientEventTx → key ∈ s.runtime.activeKeys

lemma At.holds_of_handling (h : s.At handling i) : s.At holds i := by
  obtain ⟨p, hp, hh⟩ := h
  exact ⟨p, hp, by cases p <;> first | rfl | cases hh⟩

lemma Locked.quiescent_iff (hl : Locked key s) :
    Quiescent key s ↔ key ∉ s.runtime.activeKeys := by
  refine ⟨fun h => h.1, fun h => ⟨h, fun i hi => h ?_⟩⟩
  exact hl.active.mpr ⟨i, hi.holds_of_handling⟩

/-- A pending request holds the key, is registering or has lost. -/
lemma At.holds_or_registering_or_lost (h : s.At pending i) :
    s.At holds i ∨ s.At registering i ∨ s.At lost i := by
  obtain ⟨p, hp, hh⟩ := h
  cases p with
  | waiting => exact .inr (.inl ⟨_, hp, rfl⟩)
  | queued => exact .inr (.inr ⟨_, hp, rfl⟩)
  | marked | executing st | persisted st => exact .inl ⟨_, hp, rfl⟩
  | _ => cases hh

lemma lost_of_registering (h : registering p) : lost p = false := by
  cases p with
  | waiting => rfl
  | _ => cases h

lemma registering_of_refused (h : refused p) : registering p = false := by
  cases p with
  | replayed | queued => rfl
  | _ => cases h

lemma Accounted.length_responses (h : Accounted key s) (hi : s.At refused i)
    (hw : s.waits key i = 0) : (s.responses i).length = 1 := by
  obtain ⟨p, hp, hr⟩ := hi
  have ha := h.account i
  rw [hw, hp] at ha
  cases p with
  | replayed | queued => exact ha
  | _ => cases hr

lemma settledUp_iff (hl : Locked key s) (ha : Accounted key s) :
    SettledUp key s ↔ LostWhileActive key s := by
  constructor
  · intro h w hw hlost
    by_contra hk
    have hopen : ∀ ws, s.runtime.waiters key = some ws → ∀ w ∈ ws, s.At registering _ :=
      fun ws hws => ((h (hl.quiescent_iff.mpr hk)).waiters ws hws).2
    obtain ⟨ws, hws⟩ : ∃ ws, s.runtime.waiters key = some ws := by
      cases hws : s.runtime.waiters key with
      | none => simp [queue, hws] at hw
      | some ws => exact ⟨ws, rfl⟩
    rw [queue, hws, Option.getD_some] at hw
    obtain ⟨p, hp, hreg⟩ := hopen ws hws w hw
    rw [at_iff hp, lost_of_registering hreg] at hlost
    cases hlost
  · intro h hq
    have hopen : ∀ w ∈ s.queue key, s.At registering w.clientEventTx := by
      intro w hw
      rcases (ha.owner w hw).holds_or_registering_or_lost with hh | hr | hlo
      · exact (hq.1 (hl.active.mpr ⟨_, hh⟩)).elim
      · exact hr
      · exact (hq.1 (h w hw hlo)).elim
    refine ⟨fun ws hws => ⟨fun hnil => ha.entry (hnil ▸ hws), fun w hw => hopen w ?_⟩, ?_⟩
    · rwa [queue, hws]
    · intro i hi
      refine ha.length_responses hi (List.countP_eq_zero.mpr fun w hw hwi => ?_)
      obtain ⟨p, hp, hr⟩ := hi
      have hreg := hopen w hw
      rw [of_decide_eq_true hwi, at_iff hp, registering_of_refused hr] at hreg
      cases hreg

/-- A move which keeps the waiters and the active keys and makes no request lose. -/
lemma LostWhileActive.of_move (h : LostWhileActive key s) (ht : t = u.setPhase i q)
    (hu : u.requests = s.requests) (hp : s.phase? i = some p) (hlost : lost q = lost p)
    (hqueue : ∀ w ∈ u.queue key, w ∈ s.queue key ∨ w.clientEventTx = i ∧ lost q = false)
    (hk : key ∈ s.runtime.activeKeys → key ∈ u.runtime.activeKeys) : LostWhileActive key t := by
  intro w hw hl
  have hl' := (at_of_move ht hu hp hlost _).mp hl
  rw [ht, queue_setPhase] at hw
  rw [ht]
  rcases hqueue w hw with hw | ⟨hwi, hq⟩
  · exact hk (h w hw hl')
  · rw [hwi, at_iff hp, ← hlost, hq] at hl'
    cases hl'

lemma LostWhileActive.step (h : LostWhileActive key s) (hl : Locked key s)
    (hg : ClearsAnswered key s m) (hs : s.step key m = some t) : LostWhileActive key t := by
  have hself {u : MutationSystem} (hu : u.queue key = s.queue key) {i : Nat} {q : MutationPhase} :
      ∀ w ∈ u.queue key, w ∈ s.queue key ∨ w.clientEventTx = i ∧ lost q = false :=
    fun w hw => .inl (hu ▸ hw)
  cases MutationRule.of_step hs with
  | arrive requestId sessionId action ht =>
    intro w hw hlo
    rw [ht] at hw ⊢
    exact h w hw ((at_of_arrive (congrArg requests ht) rfl _).mp hlo)
  | tick ms ht =>
    subst ht
    exact h
  | replay i state event hp hst hf ht => exact h.of_move ht rfl hp rfl (hself rfl) id
  | load i hp hf ht => exact h.of_move ht rfl hp rfl (hself rfl) id
  | addWaiter i requestId hp ht =>
    refine h.of_move ht rfl hp rfl (fun w hw => ?_) id
    simp only [queue, SwarmMutationRuntime.addWaiter, Function.update_self, Option.getD_some,
      List.mem_append, List.mem_singleton] at hw
    rcases hw with hw | rfl
    · exact .inl hw
    · exact .inr ⟨rfl, rfl⟩
  | win i hp hk ht =>
    exact h.of_move ht rfl hp rfl (hself rfl) fun hk => Finset.mem_insert_of_mem hk
  | lose i hp hk ht =>
    intro w hw hlo
    rw [ht]
    exact Finset.mem_insert_of_mem hk
  | ensurePending i sessionId action hp ht => exact h.of_move ht rfl hp rfl (hself rfl) id
  | persistFinal i state response hp ht => exact h.of_move ht rfl hp rfl (hself rfl) id
  | takeWaiters i state response hp hf ht =>
    refine h.of_move ht rfl hp rfl (fun w hw => ?_) id
    rw [hl.key_eq hp rfl] at hw
    simp [queue, send, SwarmMutationRuntime.takeWaiters] at hw
  | takeNone i state hp hf ht => exact h.of_move ht rfl hp rfl (hself rfl) id
  | clearActive i state hp ht =>
    intro w hw hlo
    rw [ht] at hw
    exact (hg i rfl w hw ((at_of_move (s := s) ht rfl hp rfl _).mp hlo)).elim

/-- Clearing the key over the waiter of a request that lost leaves that waiter behind. -/
lemma not_lostWhileActive_of_clear (hl : Locked key s) (hg : ¬ ClearsAnswered key s m)
    (hs : s.step key m = some t) : ¬ LostWhileActive key t := by
  simp only [ClearsAnswered, not_forall, not_not] at hg
  obtain ⟨i, rfl, w, hw, hlo⟩ := hg
  cases MutationRule.of_step hs with
  | clearActive _ state hp ht =>
    intro h
    have hk := h w (by rwa [ht]) ((at_of_move (s := s) ht rfl hp rfl _).mpr hlo)
    simp [ht, setPhase, SwarmMutationRuntime.clearActive, hl.key_eq hp rfl] at hk

end MutationSystem

open MutationSystem

/-- Nobody is stranded throughout a run exactly when no handler clears the key while the waiter
of a request that lost `mark_active_if_new` is in the map. -/
theorem finishRequest_settledUp_iff {key : String} {dir : MutationStateDir} {nowMs : Nat}
    {moves : List MutationMove} {t : MutationSystem}
    (hrun : exec (step key) (start dir nowMs) moves = some t) :
    Always (step key) (SettledUp key) (start dir nowMs) moves ↔
      Guarded (step key) (ClearsAnswered key) (start dir nowMs) moves := by
  refine always_iff_guarded (I := fun s => Locked key s ∧ Accounted key s)
    (E := fun _ _ => True) (fun s m s' h _ hs => ⟨h.1.step hs, h.2.step h.1 hs⟩)
    (fun s m s' h hP _ hG hs => ?_) (fun s m s' h _ _ hG hs hP => ?_)
    ⟨.start dir nowMs, .start dir nowMs⟩ ?_ (guarded_of_steps fun _ _ _ _ _ _ => trivial) hrun
  · have hlost := (settledUp_iff h.1 h.2).mp hP
    exact (settledUp_iff (h.1.step hs) (h.2.step h.1 hs)).mpr (hlost.step h.1 hG hs)
  · have hlost := (settledUp_iff (h.1.step hs) (h.2.step h.1 hs)).mp hP
    exact not_lostWhileActive_of_clear h.1 hG hs hlost
  · rw [settledUp_iff (.start dir nowMs) (.start dir nowMs)]
    intro w hw
    simp [queue, start, SwarmMutationRuntime.new] at hw

/-- Two requests of which the second is answered along with the first. -/
def sharedRun : List MutationMove :=
  [.arrive 1 "coord" "spawn", .arrive 2 "coord" "spawn", .loadState 0, .loadState 1,
    .addWaiter 0, .markActive 0, .addWaiter 1, .markActive 1, .ensurePending 0,
    .persistFinal 0 .done, .takeWaiters 0, .clearActive 0]

theorem finishRequest_settledUp_iff_sharedRun :
    Always (step "k") (SettledUp "k") (start .empty 0) sharedRun ↔
      Guarded (step "k") (ClearsAnswered "k") (start .empty 0) sharedRun :=
  finishRequest_settledUp_iff (t := _) rfl

/-- The second request registers and loses between `take_waiters` and `clear_active`. -/
def strandedRun : List MutationMove :=
  [.arrive 1 "coord" "spawn", .arrive 2 "coord" "spawn", .loadState 0, .loadState 1,
    .addWaiter 0, .markActive 0, .ensurePending 0, .persistFinal 0 .done, .takeWaiters 0,
    .addWaiter 1, .markActive 1, .clearActive 0]

/-- No request holds the key or is on its way to it, the second request was refused and has
been sent nothing, and its waiter is still in the map. -/
theorem finishRequest_strands :
    ∃ t, exec (step "k") (start .empty 0) strandedRun = some t ∧ Quiescent "k" t ∧
      t.runtime.waiters "k" = some [⟨2, 1⟩] ∧ t.At refused 1 ∧ t.responses 1 = [] := by
  obtain ⟨t, ht⟩ : ∃ t, exec (step "k") (start .empty 0) strandedRun = some t := ⟨_, rfl⟩
  have hlock : Locked "k" t := exec_invariant (fun _ _ _ h hs => h.step hs) (.start .empty 0) ht
  obtain rfl := Option.some.inj (ht.symm.trans rfl)
  exact ⟨_, ht, hlock.quiescent_iff.mpr (by decide), rfl, ⟨_, rfl, rfl⟩, rfl⟩

end Jcode
