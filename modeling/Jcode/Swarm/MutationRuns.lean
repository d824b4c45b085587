import Jcode.Foundation.Run
import Jcode.Swarm.Mutation

/-!
# Interleaved mutation requests

Any number of requests for one mutation key run `begin_or_replay` and `finish_request` at once.
Every critical section is one move of one request, so a schedule of moves is an interleaving;
the clock is a party of its own.
-/

namespace Jcode

open Schedule

/-- Where a request stands. `executing`, `persisted` and `notified` are the handler between
`begin_or_replay` returning `Some` and the end of `finish_request`; `replayed` and `queued` are
the two ways `begin_or_replay` returns `None`. -/
inductive MutationPhase
  | arrived
  | loaded
  | waiting
  | marked
  | executing (state : PersistedSwarmMutationState)
  | persisted (state : PersistedSwarmMutationState)
  | notified (state : PersistedSwarmMutationState)
  | finished
  | replayed
  | queued
deriving DecidableEq

namespace MutationPhase

/-- The request has entered the active set and not left it. -/
def holds : MutationPhase → Bool
  | marked | executing _ | persisted _ | notified _ => true
  | _ => false

/-- `begin_or_replay` has returned `Some`. -/
def granted : MutationPhase → Bool
  | executing _ | persisted _ | notified _ | finished => true
  | _ => false

/-- The handler stands between `Some` and the end of `finish_request`. -/
def handling : MutationPhase → Bool
  | executing _ | persisted _ | notified _ => true
  | _ => false

/-- `persist_final_response` has been carried out. -/
def settled : MutationPhase → Bool
  | persisted _ | notified _ | finished => true
  | _ => false

/-- `begin_or_replay` has returned `None`. -/
def refused : MutationPhase → Bool
  | replayed | queued => true
  | _ => false

/-- The request has added its waiter. -/
def registered : MutationPhase → Bool
  | arrived | loaded | replayed => false
  | _ => true

/-- The state the handler carries. -/
def state? : MutationPhase → Option PersistedSwarmMutationState
  | executing st | persisted st | notified st => some st
  | _ => none

end MutationPhase

structure MutationRequest where
  requestId : Nat
  sessionId : String
  action : String
  phase : MutationPhase

/-- The requests in the order of their arrival; a request's index names its client channel.
`delivered` records the responses sent, with the channel. -/
structure MutationSystem where
  requests : List MutationRequest
  dir : MutationStateDir
  runtime : SwarmMutationRuntime
  nowMs : Nat
  delivered : List (Nat × ServerEvent)

inductive MutationMove
  | arrive (requestId : Nat) (sessionId action : String)
  | tick (ms : Nat)
  | loadState (i : Nat)
  | addWaiter (i : Nat)
  | markActive (i : Nat)
  | ensurePending (i : Nat)
  | persistFinal (i : Nat) (response : PersistedSwarmMutationResponse)
  | takeWaiters (i : Nat)
  | clearActive (i : Nat)

namespace MutationSystem

/-- No request yet; any state files, any clock. -/
def start (dir : MutationStateDir) (nowMs : Nat) : MutationSystem where
  requests := []
  dir := dir
  runtime := .new
  nowMs := nowMs
  delivered := []

variable (key : String) (s : MutationSystem)

def phase? (i : Nat) : Option MutationPhase := s.requests[i]?.map (·.phase)

def setPhase (i : Nat) (p : MutationPhase) : MutationSystem :=
  { s with requests := s.requests.modify i fun r => { r with phase := p } }

def send (messages : List (Nat × ServerEvent)) : MutationSystem :=
  { s with delivered := s.delivered ++ messages }

/-- The responses sent to request `i`. -/
def responses (i : Nat) : List ServerEvent :=
  (s.delivered.filter fun m => m.1 = i).map (·.2)

/-- The sends of `finish_request`, one for each waiter taken. -/
def answers (taken : List (Nat × Nat)) (response : PersistedSwarmMutationResponse)
    (sessionId : String) : List (Nat × ServerEvent) :=
  taken.map fun waiter => (waiter.2, response.intoServerEvent waiter.1 sessionId)

/-- One critical section of one request, a new request, or the passing of time. The sends of
`finish_request` follow `take_waiters` without an await point in between. -/
def step : MutationMove → Option MutationSystem
  | .arrive requestId sessionId action =>
    some { s with requests := s.requests ++ [⟨requestId, sessionId, action, .arrived⟩] }
  | .tick ms => some { s with nowMs := s.nowMs + ms }
  | .loadState i =>
    match s.requests[i]? with
    | some ⟨requestId, sessionId, _, .arrived⟩ =>
      let loaded := loadState s.dir s.nowMs key
      let s := { s with dir := loaded.2 }
      match loaded.1.bind (·.finalResponse) with
      | some response =>
        some ((s.send [(i, response.intoServerEvent requestId sessionId)]).setPhase i .replayed)
      | none => some (s.setPhase i .loaded)
    | _ => none
  | .addWaiter i =>
    match s.requests[i]? with
    | some ⟨requestId, _, _, .loaded⟩ =>
      some ({ s with runtime := s.runtime.addWaiter key requestId i }.setPhase i .waiting)
    | _ => none
  | .markActive i =>
    match s.requests[i]? with
    | some ⟨_, _, _, .waiting⟩ =>
      match s.runtime.markActiveIfNew key with
      | (true, runtime) => some ({ s with runtime := runtime }.setPhase i .marked)
      | (false, runtime) => some ({ s with runtime := runtime }.setPhase i .queued)
    | _ => none
  | .ensurePending i =>
    match s.requests[i]? with
    | some ⟨_, sessionId, action, .marked⟩ =>
      let ensured := ensurePendingState s.dir s.nowMs key action sessionId
      some ({ s with dir := ensured.2 }.setPhase i (.executing ensured.1))
    | _ => none
  | .persistFinal i response =>
    match s.requests[i]? with
    | some ⟨_, _, _, .executing state⟩ =>
      let next := persistFinalResponse s.dir state response
      some ({ s with dir := next.2 }.setPhase i (.persisted next.1))
    | _ => none
  | .takeWaiters i =>
    match s.requests[i]? with
    | some ⟨_, _, _, .persisted state⟩ =>
      match state.finalResponse with
      | some response =>
        let taken := s.runtime.takeWaiters state.key
        let s := { s with runtime := taken.2 }.send (answers taken.1 response state.sessionId)
        some (s.setPhase i (.notified state))
      | none => some (s.setPhase i (.notified state))
    | _ => none
  | .clearActive i =>
    match s.requests[i]? with
    | some ⟨_, _, _, .notified state⟩ =>
      some ({ s with runtime := s.runtime.clearActive state.key }.setPhase i .finished)
    | _ => none

end MutationSystem

/-! ### The moves as rules -/

open MutationSystem MutationPhase

/-- What each move requires and what it leads to. -/
inductive MutationRule (key : String) (s t : MutationSystem) : MutationMove → Prop
  | arrive (requestId : Nat) (sessionId action : String)
      (ht : t = { s with requests := s.requests ++ [⟨requestId, sessionId, action, .arrived⟩] }) :
    MutationRule key s t (.arrive requestId sessionId action)
  | tick (ms : Nat) (ht : t = { s with nowMs := s.nowMs + ms }) :
    MutationRule key s t (.tick ms)
  | replay (i : Nat) (state : PersistedSwarmMutationState) (event : ServerEvent)
      (hp : s.phase? i = some .arrived)
      (hl : (loadState s.dir s.nowMs key).1 = some state) (hf : state.finalResponse.isSome)
      (ht : t = ({ s with dir := (loadState s.dir s.nowMs key).2 }.send [(i, event)]).setPhase i
        .replayed) :
    MutationRule key s t (.loadState i)
  | load (i : Nat) (hp : s.phase? i = some .arrived)
      (hf : (loadState s.dir s.nowMs key).1.bind (·.finalResponse) = none)
      (ht : t = { s with dir := (loadState s.dir s.nowMs key).2 }.setPhase i .loaded) :
    MutationRule key s t (.loadState i)
  | addWaiter (i requestId : Nat) (hp : s.phase? i = some .loaded)
      (ht : t = { s with runtime := s.runtime.addWaiter key requestId i }.setPhase i .waiting) :
    MutationRule key s t (.addWaiter i)
  | win (i : Nat) (hp : s.phase? i = some .waiting) (hk : key ∉ s.runtime.activeKeys)
      (ht : t = { s with runtime := (s.runtime.markActiveIfNew key).2 }.setPhase i .marked) :
    MutationRule key s t (.markActive i)
  | lose (i : Nat) (hp : s.phase? i = some .waiting) (hk : key ∈ s.runtime.activeKeys)
      (ht : t = { s with runtime := (s.runtime.markActiveIfNew key).2 }.setPhase i .queued) :
    MutationRule key s t (.markActive i)
  | ensurePending (i : Nat) (sessionId action : String) (hp : s.phase? i = some .marked)
      (ht : t = { s with dir := (ensurePendingState s.dir s.nowMs key action sessionId).2 }.setPhase
        i (.executing (ensurePendingState s.dir s.nowMs key action sessionId).1)) :
    MutationRule key s t (.ensurePending i)
  | persistFinal (i : Nat) (state : PersistedSwarmMutationState)
      (response : PersistedSwarmMutationResponse) (hp : s.phase? i = some (.executing state))
      (ht : t = { s with dir := (persistFinalResponse s.dir state response).2 }.setPhase i
        (.persisted (persistFinalResponse s.dir state response).1)) :
    MutationRule key s t (.persistFinal i response)
  | takeWaiters (i : Nat) (state : PersistedSwarmMutationState)
      (response : PersistedSwarmMutationResponse) (hp : s.phase? i = some (.persisted state))
      (hf : state.finalResponse = some response)
      (ht : t = ({ s with runtime := (s.runtime.takeWaiters state.key).2 }.send
        (answers (s.runtime.takeWaiters state.key).1 response state.sessionId)).setPhase i
          (.notified state)) :
    MutationRule key s t (.takeWaiters i)
  | takeNone (i : Nat) (state : PersistedSwarmMutationState)
      (hp : s.phase? i = some (.persisted state)) (hf : state.finalResponse = none)
      (ht : t = s.setPhase i (.notified state)) :
    MutationRule key s t (.takeWaiters i)
  | clearActive (i : Nat) (state : PersistedSwarmMutationState)
      (hp : s.phase? i = some (.notified state))
      (ht : t = { s with runtime := s.runtime.clearActive state.key }.setPhase i .finished) :
    MutationRule key s t (.clearActive i)

lemma phase?_of_get {s : MutationSystem} {i : Nat} {r : MutationRequest}
    (h : s.requests[i]? = some r) : s.phase? i = some r.phase := by
  simp [phase?, h]

/-- Every enabled move is an instance of a rule. -/
lemma MutationRule.of_step {key : String} {s t : MutationSystem} {m : MutationMove}
    (h : s.step key m = some t) : MutationRule key s t m := by
  cases m with
  | arrive requestId sessionId action =>
    cases h
    exact .arrive requestId sessionId action rfl
  | tick ms =>
    cases h
    exact .tick ms rfl
  | loadState i =>
    simp only [step] at h
    split at h
    · rename_i hr
      split at h
      · rename_i response hf
        obtain ⟨state, hl, hs⟩ := Option.bind_eq_some_iff.mp hf
        cases h
        exact .replay i state _ (phase?_of_get hr) hl (by simp [hs]) rfl
      · rename_i hf
        cases h
        exact .load i (phase?_of_get hr) hf rfl
    · cases h
  | addWaiter i =>
    simp only [step] at h
    split at h
    · rename_i hr
      cases h
      exact .addWaiter i _ (phase?_of_get hr) rfl
    · cases h
  | markActive i =>
    simp only [step] at h
    split at h
    · rename_i hr
      by_cases hk : key ∈ s.runtime.activeKeys
      · simp only [SwarmMutationRuntime.markActiveIfNew, hk, not_true_eq_false, decide_false,
          Option.some.injEq] at h
        exact .lose i (phase?_of_get hr) hk h.symm
      · simp only [SwarmMutationRuntime.markActiveIfNew, hk, not_false_eq_true, decide_true,
          Option.some.injEq] at h
        exact .win i (phase?_of_get hr) hk h.symm
    · cases h
  | ensurePending i =>
    simp only [step] at h
    split at h
    · rename_i hr
      cases h
      exact .ensurePending i _ _ (phase?_of_get hr) rfl
    · cases h
  | persistFinal i response =>
    simp only [step] at h
    split at h
    · rename_i hr
      cases h
      exact .persistFinal i _ response (phase?_of_get hr) rfl
    · cases h
  | takeWaiters i =>
    simp only [step] at h
    split at h
    · rename_i state hr
      split at h
      · rename_i response hf
        cases h
        exact .takeWaiters i state response (phase?_of_get hr) hf rfl
      · rename_i hf
        cases h
        exact .takeNone i state (phase?_of_get hr) hf rfl
    · cases h
  | clearActive i =>
    simp only [step] at h
    split at h
    · rename_i hr
      cases h
      exact .clearActive i _ (phase?_of_get hr) rfl
    · cases h

/-! ### Who stands where -/

namespace MutationSystem

variable {key : String} {s t u : MutationSystem} {i j : Nat} {p q : MutationPhase}
  {f : MutationPhase → Bool} {m : MutationMove}

/-- Request `i` is in a phase which `f` picks out. -/
def At (s : MutationSystem) (f : MutationPhase → Bool) (i : Nat) : Prop :=
  ∃ p, s.phase? i = some p ∧ f p

lemma phase?_setPhase (h : s.phase? i = some p) (j : Nat) :
    (s.setPhase i q).phase? j = if j = i then some q else s.phase? j := by
  by_cases hj : j = i
  · subst hj
    obtain ⟨r, hr, -⟩ := Option.map_eq_some_iff.mp h
    simp [phase?, setPhase, hr]
  · simp [phase?, setPhase, hj, Ne.symm hj]

lemma at_iff (h : s.phase? i = some p) : s.At f i ↔ f p := by
  simp [At, h]

/-- After a move, request `i` stands where the move put it and the others where they stood. -/
lemma at_of_setPhase (ht : t = u.setPhase i q) (hu : u.requests = s.requests)
    (h : s.phase? i = some p) (j : Nat) :
    t.At f j ↔ (j = i ∧ f q) ∨ (j ≠ i ∧ s.At f j) := by
  have hphase : t.phase? j = (s.setPhase i q).phase? j := by simp only [phase?, ht, setPhase, hu]
  by_cases hj : j = i
  · subst hj
    rw [phase?_setPhase h, if_pos rfl] at hphase
    simp [at_iff hphase]
  · rw [phase?_setPhase h, if_neg hj] at hphase
    simp [At, hphase, hj]

/-- A request that keeps its mark in `f` leaves `f` as it was. -/
lemma at_of_move (ht : t = u.setPhase i q) (hu : u.requests = s.requests)
    (h : s.phase? i = some p) (hf : f q = f p) (j : Nat) : t.At f j ↔ s.At f j := by
  rw [at_of_setPhase ht hu h, hf]
  by_cases hj : j = i
  · subst hj
    simp [at_iff h]
  · simp [hj]

lemma phase?_of_arrive {r : MutationRequest} (ht : t.requests = s.requests ++ [r]) (j : Nat) :
    t.phase? j = s.phase? j ∨ s.phase? j = none ∧ t.phase? j = some r.phase := by
  simp only [phase?, ht, List.getElem?_append]
  by_cases hj : j < s.requests.length
  · simp [hj]
  · rw [if_neg hj, List.getElem?_eq_none (not_lt.mp hj)]
    rcases Nat.eq_zero_or_pos (j - s.requests.length) with h | h
    · simp [h]
    · simp [Nat.ne_of_gt h]

/-- A new request has `arrived` and nothing else. -/
lemma at_of_arrive {r : MutationRequest} (ht : t.requests = s.requests ++ [r])
    (hr : f r.phase = false) (j : Nat) : t.At f j ↔ s.At f j := by
  rcases phase?_of_arrive ht j with h | ⟨hs, h⟩
  · rw [At, At, h]
  · simp [At, hs, h, hr]

/-! ### The active key as a lock -/

/-- The phase carries the state of some other key. -/
def strayed (key : String) (p : MutationPhase) : Bool := p.state?.any (·.key ≠ key)

/-- The key is active exactly while some request holds it, and one request at most holds it. -/
structure Locked (key : String) (s : MutationSystem) : Prop where
  unique : ∀ i j, s.At holds i → s.At holds j → i = j
  active : key ∈ s.runtime.activeKeys ↔ ∃ i, s.At holds i
  keyed : ∀ i, ¬ s.At (strayed key) i

lemma Locked.key_eq (h : Locked key s) {state : PersistedSwarmMutationState}
    (hp : s.phase? i = some p) (hs : p.state? = some state) : state.key = key := by
  by_contra hk
  exact h.keyed i ((at_iff hp).mpr (by simp [strayed, hs, hk]))

lemma Locked.start (dir : MutationStateDir) (nowMs : Nat) : Locked key (start dir nowMs) := by
  constructor <;> simp [At, phase?, MutationSystem.start, SwarmMutationRuntime.new]

/-- A move that neither takes nor releases the key keeps the lock. -/
lemma Locked.of_move (h : Locked key s) (ht : t = u.setPhase i q)
    (hu : u.requests = s.requests) (hp : s.phase? i = some p) (hq : q.holds = p.holds)
    (hk : strayed key q = false)
    (hr : key ∈ t.runtime.activeKeys ↔ key ∈ s.runtime.activeKeys) : Locked key t where
  unique j k hj hk' :=
    h.unique j k ((at_of_move ht hu hp hq j).mp hj) ((at_of_move ht hu hp hq k).mp hk')
  active := by
    rw [hr, h.active]
    exact exists_congr fun j => (at_of_move ht hu hp hq j).symm
  keyed j hj := by
    rcases (at_of_setPhase ht hu hp j).mp hj with ⟨-, hj⟩ | ⟨-, hj⟩
    · rw [hk] at hj
      cases hj
    · exact h.keyed j hj

lemma Locked.step (h : Locked key s) (hs : s.step key m = some t) : Locked key t := by
  cases MutationRule.of_step hs with
  | arrive requestId sessionId action ht =>
    have hat (f : MutationPhase → Bool) (hf : f .arrived = false) (j : Nat) :
        t.At f j ↔ s.At f j := at_of_arrive (congrArg requests ht) hf j
    refine ⟨fun j k hj hk => ?_, ?_, fun j hj => ?_⟩
    · exact h.unique j k ((hat holds rfl j).mp hj) ((hat holds rfl k).mp hk)
    · rw [ht, h.active]
      exact exists_congr fun j => (ht ▸ (hat holds rfl j)).symm
    · exact h.keyed j ((hat (strayed key) rfl j).mp hj)
  | tick ms ht =>
    subst ht
    exact ⟨h.unique, h.active, h.keyed⟩
  | replay i state event hp hl hf ht =>
    exact h.of_move ht rfl hp rfl rfl (by rw [ht]; rfl)
  | load i hp hf ht => exact h.of_move ht rfl hp rfl rfl (by rw [ht]; rfl)
  | addWaiter i requestId hp ht =>
    exact h.of_move ht rfl hp rfl rfl (by rw [ht]; rfl)
  | win i hp hk ht =>
    have hfree (j : Nat) : ¬ s.At holds j := fun hj => hk (h.active.mpr ⟨j, hj⟩)
    have hat (f : MutationPhase → Bool) := at_of_setPhase (s := s) (f := f) ht rfl hp
    refine ⟨fun j k hj hk => ?_, ?_, fun j hj => ?_⟩
    · simp only [hat, hfree, and_false, or_false] at hj hk
      rw [hj.1, hk.1]
    · refine ⟨fun _ => ⟨i, (hat holds i).mpr (.inl ⟨rfl, rfl⟩)⟩, fun _ => ?_⟩
      rw [ht]
      exact Finset.mem_insert_self key _
    · rcases (hat _ j).mp hj with ⟨-, hj⟩ | ⟨-, hj⟩
      · cases hj
      · exact h.keyed j hj
  | lose i hp hk ht =>
    refine h.of_move ht rfl hp rfl rfl ⟨fun _ => hk, fun _ => ?_⟩
    rw [ht]
    exact Finset.mem_insert_self key _
  | ensurePending i sessionId action hp ht =>
    refine h.of_move ht rfl hp rfl ?_ (by rw [ht]; rfl)
    simp [strayed, state?, ensurePendingState_key]
  | persistFinal i state response hp ht =>
    refine h.of_move ht rfl hp rfl ?_ (by rw [ht]; rfl)
    simp [strayed, state?, persistFinalResponse, h.key_eq hp rfl]
  | takeWaiters i state response hp hf ht =>
    refine h.of_move ht rfl hp rfl ?_ (by rw [ht]; rfl)
    simp [strayed, state?, h.key_eq hp rfl]
  | takeNone i state hp hf ht =>
    refine h.of_move ht rfl hp rfl ?_ (by rw [ht]; rfl)
    simp [strayed, state?, h.key_eq hp rfl]
  | clearActive i state hp ht =>
    have hkey : state.key = key := h.key_eq hp rfl
    have hat (f : MutationPhase → Bool) := at_of_setPhase (s := s) (f := f) ht rfl hp
    have hfree (j : Nat) : ¬ t.At holds j := by
      intro hj
      rcases (hat holds j).mp hj with ⟨-, hj⟩ | ⟨hji, hj⟩
      · cases hj
      · exact hji (h.unique j i hj ((at_iff hp).mpr rfl))
    refine ⟨fun j k hj => (hfree j hj).elim, ?_, fun j hj => ?_⟩
    · refine ⟨fun hk => ?_, fun ⟨j, hj⟩ => (hfree j hj).elim⟩
      simp [ht, setPhase, SwarmMutationRuntime.clearActive, hkey] at hk
    · rcases (hat _ j).mp hj with ⟨-, hj⟩ | ⟨-, hj⟩
      · cases hj
      · exact h.keyed j hj

end MutationSystem

end Jcode
