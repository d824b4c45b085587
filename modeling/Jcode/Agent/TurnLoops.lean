import Jcode.Agent.ContextLimit

/-!
# The turn loops at a context limit

`run_turn`, `run_turn_streaming` and `run_turn_streaming_mpsc` from one request to the next, under
any outcomes of the requests. The loops recover at the same three points; they differ in where
they go on after a request that could not be opened.

Every run writes a log of its requests and recoveries.
-/

namespace Jcode

/-- `MAX_CONTEXT_LIMIT_RETRIES`. -/
def maxContextLimitRetries : Nat := 5

inductive TurnLoop
  | runTurn
  | runTurnStreaming
  | runTurnStreamingMpsc
deriving DecidableEq

/-- Where a loop stands. -/
inductive TurnPhase
  | building
  /-- The future of a request is being polled, or polled again. -/
  | opening (completed : Bool)
  | streaming (usage : StreamUsage)
  | returned (result : Except String Unit)
  | panicked

/-- Where the `continue` behind a recovered open error leads. In the streaming loops it is inside
of the loop that polls the future. -/
def TurnLoop.afterOpenError : TurnLoop → TurnPhase
  | .runTurn => .building
  | .runTurnStreaming => .opening true
  | .runTurnStreamingMpsc => .opening true

section

variable (E T : Type)

/-- What a run writes down. A request is logged with the messages of the session and with the
manager that its messages come from, a recovery with the manager that it leaves. -/
inductive LoopEvent
  | requested (all : List Message) (source : Option (CompactionManager E))
      (request : ProviderRequest T)
  | opened
  | recovered (manager : CompactionManager E)
  | gaveUp
  | completed
  | resumed

structure TurnRun where
  agent : TurnAgent E T
  contextLimitRetries : Nat
  phase : TurnPhase
  log : List (LoopEvent E T)

/-- What happens next. The rest of a round, from the end of the stream on, is left to `finish`:
it returns, or goes on with `result = none`. -/
inductive TurnInput
  | build (moment : BuildMoment E T)
  | poll
  | opened
  | openError (moment : RecoveryMoment) (error : String)
  | arrives (moment : ArrivalMoment) (event : StreamEvent)
  | streamError (moment : RecoveryMoment) (error : String)
  | streamEnd (finish : TurnAgent E T → TurnAgent E T) (result : Option (Except String Unit))
  | taskFinishes (report : CompactionManager.TaskReport)

end

namespace TurnRun

variable {E T : Type} (env : CompactionEnv E) (lowercase : String → String) (loop : TurnLoop)
  (s : TurnRun E T)

def start (a : TurnAgent E T) : TurnRun E T where
  agent := a
  contextLimitRetries := 0
  phase := .building
  log := []

def request (moment : BuildMoment E T) : TurnRun E T :=
  let (request, agent) := s.agent.buildRequest env moment
  { s with
    agent := agent
    phase := .opening false
    log := s.log ++
      [.requested agent.providerMessages (TurnAgent.requestSource env s.agent moment) request] }

/-- The transcript can be compacted, and the turn tried again. -/
def Recovers (moment : RecoveryMoment) (error : String) : Prop :=
  (s.agent.tryAutoCompactAfterContextLimit env lowercase moment error).1

/-- What a loop does with an error; `next` is where it goes on after a recovery. -/
def afterError (next : TurnPhase) (moment : RecoveryMoment) (error : String) : TurnRun E T :=
  let (recovered, agent) := s.agent.tryAutoCompactAfterContextLimit env lowercase moment error
  if recovered then
    let contextLimitRetries := s.contextLimitRetries + 1
    if contextLimitRetries > maxContextLimitRetries then
      { agent := agent
        contextLimitRetries := contextLimitRetries
        phase := .returned (.error ("Context limit exceeded after " ++
          toString maxContextLimitRetries ++ " compaction retries"))
        log := s.log ++ [.gaveUp] }
    else
      { agent := agent
        contextLimitRetries := contextLimitRetries
        phase := next
        log := s.log ++ [.recovered agent.manager] }
  else { s with agent := agent, phase := .returned (.error error) }

def finishTask (task : CompactionTask) (report : CompactionManager.TaskReport) : TurnRun E T :=
  let manager := { s.agent.manager with
    pendingTask := some (CompactionManager.finishTask task report) }
  { s with agent := { s.agent with manager := manager } }

def step (s : TurnRun E T) : TurnInput E T → Option (TurnRun E T)
  | .build moment =>
    match s.phase with
    | .building => some (s.request env moment)
    | _ => none
  | .poll =>
    match s.phase with
    | .opening false => some s
    | .opening true => some { s with phase := .panicked, log := s.log ++ [.resumed] }
    | _ => none
  | .opened =>
    match s.phase with
    | .opening false => some { s with
        contextLimitRetries := 0
        phase := .streaming .empty
        log := s.log ++ [.opened] }
    | _ => none
  | .openError moment error =>
    match s.phase with
    | .opening false => some (s.afterError env lowercase loop.afterOpenError moment error)
    | _ => none
  | .arrives moment event =>
    match s.phase with
    | .streaming usage =>
      -- an error event is a `streamError`
      if event.isError then none
      else
        let (usage, agent) := s.agent.noteEvent lowercase moment usage event
        some { s with agent := agent, phase := .streaming usage }
    | _ => none
  | .streamError moment error =>
    match s.phase with
    | .streaming _ => some (s.afterError env lowercase .building moment error)
    | _ => none
  | .streamEnd finish result =>
    match s.phase with
    | .streaming _ => some { s with
        agent := finish s.agent
        phase := result.elim .building .returned
        log := s.log ++ [.completed] }
    | _ => none
  | .taskFinishes report =>
    match s.agent.manager.pendingTask with
    | some task => if task.outcome.isNone then some (s.finishTask task report) else none
    | none => none

/-! ### What a step can do -/

/-- The steps, one constructor for each thing that a loop or its environment does. -/
inductive Steps : TurnInput E T → TurnRun E T → Prop
  | build (moment : BuildMoment E T) (hphase : s.phase = .building) :
      Steps (.build moment) (s.request env moment)
  | wait (hphase : s.phase = .opening false) : Steps .poll s
  | resume (hphase : s.phase = .opening true) :
      Steps .poll { s with phase := .panicked, log := s.log ++ [.resumed] }
  | opened (hphase : s.phase = .opening false) :
      Steps .opened { s with
        contextLimitRetries := 0
        phase := .streaming .empty
        log := s.log ++ [.opened] }
  | openError (moment : RecoveryMoment) (error : String) (hphase : s.phase = .opening false) :
      Steps (.openError moment error) (s.afterError env lowercase loop.afterOpenError moment error)
  | arrives (moment : ArrivalMoment) (event : StreamEvent) (usage usage' : StreamUsage)
      (agent : TurnAgent E T) (hphase : s.phase = .streaming usage) :
      Steps (.arrives moment event) { s with agent := agent, phase := .streaming usage' }
  | streamError (moment : RecoveryMoment) (error : String) (usage : StreamUsage)
      (hphase : s.phase = .streaming usage) :
      Steps (.streamError moment error) (s.afterError env lowercase .building moment error)
  | streamEnd (finish : TurnAgent E T → TurnAgent E T) (result : Option (Except String Unit))
      (usage : StreamUsage) (hphase : s.phase = .streaming usage) :
      Steps (.streamEnd finish result) { s with
        agent := finish s.agent
        phase := result.elim .building .returned
        log := s.log ++ [.completed] }
  | taskFinishes (report : CompactionManager.TaskReport) (task : CompactionTask) :
      Steps (.taskFinishes report) (s.finishTask task report)

variable {env lowercase loop s} {s' : TurnRun E T} {input : TurnInput E T}

lemma steps_of_step (h : step env lowercase loop s input = some s') :
    Steps env lowercase loop s input s' := by
  cases input with
  | build moment =>
    simp only [step] at h
    split at h
    · cases h
      exact .build moment ‹_›
    · cases h
  | poll =>
    simp only [step] at h
    split at h
    · cases h
      exact .wait ‹_›
    · cases h
      exact .resume ‹_›
    · cases h
  | opened =>
    simp only [step] at h
    split at h
    · cases h
      exact .opened ‹_›
    · cases h
  | openError moment error =>
    simp only [step] at h
    split at h
    · cases h
      exact .openError moment error ‹_›
    · cases h
  | arrives moment event =>
    simp only [step] at h
    split at h
    · split_ifs at h
      cases h
      exact .arrives moment event _ _ _ ‹_›
    · cases h
  | streamError moment error =>
    simp only [step] at h
    split at h
    · cases h
      exact .streamError moment error _ ‹_›
    · cases h
  | streamEnd finish result =>
    simp only [step] at h
    split at h
    · cases h
      exact .streamEnd finish result _ ‹_›
    · cases h
  | taskFinishes report =>
    simp only [step] at h
    split at h
    · split_ifs at h
      cases h
      exact .taskFinishes report _
    · cases h

variable (env lowercase s) in
/-- An error is returned, or it is the sixth in a row, or the transcript is compacted and the loop
goes on. -/
lemma afterError_cases (next : TurnPhase) (moment : RecoveryMoment) (error : String) :
    (¬ s.Recovers env lowercase moment error ∧
      (s.afterError env lowercase next moment error).log = s.log ∧
      ∃ result, (s.afterError env lowercase next moment error).phase = .returned result) ∨
    (s.Recovers env lowercase moment error ∧ maxContextLimitRetries ≤ s.contextLimitRetries ∧
      (s.afterError env lowercase next moment error).log = s.log ++ [.gaveUp] ∧
      ∃ result, (s.afterError env lowercase next moment error).phase = .returned result) ∨
    (s.Recovers env lowercase moment error ∧ s.contextLimitRetries < maxContextLimitRetries ∧
      ∃ agent : TurnAgent E T, agent.Compacted ∧ s.afterError env lowercase next moment error =
        { agent := agent
          contextLimitRetries := s.contextLimitRetries + 1
          phase := next
          log := s.log ++ [.recovered agent.manager] }) := by
  by_cases hrecovers : s.Recovers env lowercase moment error
  · have hcompacted := TurnAgent.compacted_of_recovery hrecovers
    rw [Recovers] at hrecovers
    by_cases hlast : s.contextLimitRetries + 1 > maxContextLimitRetries
    · refine .inr (.inl ⟨hrecovers, Nat.le_of_lt_succ hlast, ?_, ?_⟩)
      · simp only [afterError, hrecovers, if_true, if_pos hlast]
      · simp only [afterError, hrecovers, if_true, if_pos hlast]
        exact ⟨_, rfl⟩
    · refine .inr (.inr ⟨hrecovers, Nat.lt_of_not_le fun h => hlast (Nat.lt_succ_of_le h), _,
        hcompacted, ?_⟩)
      simp only [afterError, hrecovers, if_true, if_neg hlast]
  · rw [Recovers, Bool.not_eq_true] at hrecovers
    refine .inl ⟨fun h => Bool.false_ne_true (hrecovers.symm.trans h), ?_, ?_⟩
    · simp only [afterError, hrecovers, Bool.false_eq_true, if_false]
    · simp only [afterError, hrecovers, Bool.false_eq_true, if_false]
      exact ⟨_, rfl⟩

end TurnRun

end Jcode
