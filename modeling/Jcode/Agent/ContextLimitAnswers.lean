import Mathlib.Data.List.Chain
import Jcode.Agent.TurnLoops
import Jcode.Compaction.Coverage
import Jcode.Foundation.Run

/-!
# Answers to a context limit

The log of a turn loop, read as the loops are meant: every recovery is answered by a new request
for the compacted transcript, a request that has given its result is left alone, and there are
only so many recoveries in a row.
-/

namespace Jcode

open Schedule TurnRun

/-! ### Recoveries in a row -/

/-- The recoveries since the last call that completed, and whether a stream has been opened after
the first of them. -/
structure RecoveryRow where
  recoveries : Nat
  reopened : Bool
deriving DecidableEq

section

variable {E T : Type}

def RecoveryRow.note (row : RecoveryRow) : LoopEvent E T → RecoveryRow
  | .recovered _ => { row with recoveries := row.recoveries + 1 }
  | .opened => { row with reopened := row.reopened || 0 < row.recoveries }
  | .completed => ⟨0, false⟩
  | _ => row

def recoveryRow (log : List (LoopEvent E T)) : RecoveryRow := log.foldl RecoveryRow.note ⟨0, false⟩

lemma recoveryRow_snoc (log : List (LoopEvent E T)) (event : LoopEvent E T) :
    recoveryRow (log ++ [event]) = (recoveryRow log).note event := by
  rw [recoveryRow, List.foldl_append]
  rfl

/-! ### What the loops are meant to do -/

/-- A recovery is answered by a request for the transcript it has compacted. -/
def AnsweredBy : LoopEvent E T → LoopEvent E T → Prop
  | .recovered m, .requested all source request => TurnAgent.BuiltFrom m all source request
  | .recovered _, _ => False
  | _, _ => True

structure AnswersContextLimits (s : TurnRun E T) : Prop where
  answered : s.log.IsChain AnsweredBy
  goesOn : ∀ m, s.log.getLast? = some (.recovered m) → s.phase = .building
  notResumed : .resumed ∉ s.log
  bounded : ∀ before, before <+: s.log → (recoveryRow before).recoveries ≤ maxContextLimitRetries
  givesUp : ∀ before, before ++ [.gaveUp] <+: s.log →
    (recoveryRow before).recoveries = maxContextLimitRetries

/-- A sixth recovery in a row is only asked for when no stream has opened since the first. -/
def FitsRow (s : TurnRun E T) : Prop :=
  (recoveryRow s.log).recoveries < maxContextLimitRetries ∨ (recoveryRow s.log).reopened = false

/-- What the loops can cope with: the streaming loops with no open error that is recovered, all
of them with no sixth context limit in a row when a stream has opened in between, and with nobody
else at the manager when a recovery is answered. -/
def KeepsAnswering (env : CompactionEnv E) (lowercase : String → String) (loop : TurnLoop)
    (s : TurnRun E T) : TurnInput E T → Prop
  | .build moment => (∃ m, s.log.getLast? = some (.recovered m)) → moment.lockFree
  | .openError moment error =>
    s.Recovers env lowercase moment error → loop = .runTurn ∧ FitsRow s
  | .streamError moment error => s.Recovers env lowercase moment error → FitsRow s
  | _ => True

end

/-! ### The counter and the row -/

section

variable {E T : Type} {env : CompactionEnv E} {lowercase : String → String} {loop : TurnLoop}
  {s s' : TurnRun E T} {input : TurnInput E T}

/-- The counter of a loop against the recoveries it has made in a row. -/
structure Counted (retries : Nat) (row : RecoveryRow) : Prop where
  same : row.reopened = false → retries = row.recoveries
  fewer : row.reopened = true → retries < row.recoveries

lemma Counted.recovered {retries : Nat} {row : RecoveryRow} (h : Counted retries row)
    (m : CompactionManager E) :
    Counted (retries + 1) (row.note (.recovered m : LoopEvent E T)) :=
  ⟨fun hrow => congrArg (· + 1) (h.same hrow), fun hrow => Nat.succ_lt_succ (h.fewer hrow)⟩

lemma Counted.opened {retries : Nat} {row : RecoveryRow} (h : Counted retries row) :
    Counted 0 (row.note (.opened : LoopEvent E T)) := by
  simp only [RecoveryRow.note]
  constructor
  · intro hrow
    simp only [Bool.or_eq_false_iff, decide_eq_false_iff_not] at hrow
    exact (Nat.eq_zero_of_not_pos hrow.2).symm
  · intro hrow
    simp only [Bool.or_eq_true, decide_eq_true_eq] at hrow
    obtain hrow | hrow := hrow
    · exact Nat.zero_lt_of_lt (h.fewer hrow)
    · exact hrow

/-- What holds of a loop whatever happens. -/
structure Tracked (loop : TurnLoop) (s : TurnRun E T) : Prop where
  counted : (∀ result, s.phase ≠ .returned result) →
    Counted s.contextLimitRetries (recoveryRow s.log)
  reset : ∀ usage, s.phase = .streaming usage → s.contextLimitRetries = 0
  atMostOne : loop ≠ .runTurn → s.phase = .building ∨ s.phase = .opening false →
    s.contextLimitRetries ≤ 1
  compacted : s.phase = .building → ∀ m, s.log.getLast? = some (.recovered m) →
    s.agent.Compacted ∧ m.Extends s.agent.manager
  resuming : s.phase = .opening true → ∃ m, s.log.getLast? = some (.recovered m)

lemma tracked_of_returned {result : Except String Unit} (h : s.phase = .returned result) :
    Tracked loop s := by
  refine ⟨fun hno => absurd h (hno result), fun usage hphase => ?_, fun _ hphase => ?_,
    fun hphase => ?_, fun hphase => ?_⟩
  · cases h.symm.trans hphase
  · obtain hphase | hphase := hphase <;> cases h.symm.trans hphase
  · cases h.symm.trans hphase
  · cases h.symm.trans hphase

/-- An error is met while a request is being opened, or in its stream. -/
lemma Tracked.afterError (h : Tracked loop s) {next : TurnPhase}
    (hrunning : ∀ result, s.phase ≠ .returned result) (moment : RecoveryMoment) (error : String)
    (hnext : next = .building ∨ next = .opening true)
    (hone : loop ≠ .runTurn → next = .building → s.contextLimitRetries = 0) :
    Tracked loop (s.afterError env lowercase next moment error) := by
  obtain ⟨-, -, result, hreturned⟩ | ⟨-, -, -, result, hreturned⟩ | ⟨-, -, agent, hagent, heq⟩ :=
    afterError_cases env lowercase s next moment error
  · exact tracked_of_returned hreturned
  · exact tracked_of_returned hreturned
  · rw [heq]
    refine ⟨fun _ => ?_, fun usage hphase => ?_, fun hloop hphase => ?_, fun _ m hm => ?_,
      fun _ => ⟨_, List.getLast?_concat⟩⟩
    · rw [recoveryRow_snoc]
      exact (h.counted hrunning).recovered agent.manager
    · obtain rfl | rfl := hnext <;> cases hphase
    · obtain rfl | rfl := hnext
      · exact (congrArg (· + 1) (hone hloop rfl)).le
      · obtain hphase | hphase := hphase <;> cases hphase
    · rw [List.getLast?_concat] at hm
      cases hm
      exact ⟨hagent, .refl _⟩

lemma Tracked.step (h : Tracked loop s) (hs : step env lowercase loop s input = some s') :
    Tracked loop s' := by
  cases steps_of_step hs with
  | build moment hphase =>
    refine ⟨fun _ => ?_, fun _ hp => (nomatch hp), fun hloop _ => h.atMostOne hloop (.inl hphase),
      fun hp => (nomatch hp), fun hp => (nomatch hp)⟩
    rw [request, recoveryRow_snoc]
    exact h.counted fun result => by simp [hphase]
  | wait hphase => exact h
  | resume hphase =>
    refine ⟨fun _ => ?_, fun _ hp => (nomatch hp), fun _ hp => by simp at hp,
      fun hp => (nomatch hp),
      fun hp => (nomatch hp)⟩
    rw [recoveryRow_snoc]
    exact h.counted fun result => by simp [hphase]
  | opened hphase =>
    refine ⟨fun _ => ?_, fun _ _ => rfl, fun _ _ => Nat.zero_le _, fun hp => (nomatch hp),
      fun hp => (nomatch hp)⟩
    rw [recoveryRow_snoc]
    exact (h.counted fun result => by simp [hphase]).opened
  | openError moment error hphase =>
    refine h.afterError (fun result => by simp [hphase]) moment error ?_ fun hloop hnext => ?_
    · cases loop <;> simp [TurnLoop.afterOpenError]
    · cases loop <;> simp_all [TurnLoop.afterOpenError]
  | arrives moment event usage usage' agent hphase =>
    exact ⟨fun _ => h.counted fun result => by simp [hphase], fun _ _ => h.reset usage hphase,
      fun _ hp => by simp at hp, fun hp => (nomatch hp), fun hp => (nomatch hp)⟩
  | streamError moment error usage hphase =>
    exact h.afterError (fun result => by simp [hphase]) moment error (.inl rfl)
      fun _ _ => h.reset usage hphase
  | streamEnd finish result usage hphase =>
    refine ⟨fun _ => ?_, fun _ _ => h.reset usage hphase,
      fun _ _ => (h.reset usage hphase).le.trans (Nat.zero_le 1), fun _ m hm => ?_, fun hp => ?_⟩
    · rw [recoveryRow_snoc, RecoveryRow.note, h.reset usage hphase]
      exact ⟨fun _ => rfl, fun hrow => (nomatch hrow)⟩
    · rw [List.getLast?_concat] at hm
      cases hm
    · cases result <;> cases hp
  | taskFinishes report task =>
    refine ⟨h.counted, h.reset, h.atMostOne, fun hp m hm => ?_, h.resuming⟩
    obtain ⟨hagent, hext⟩ := h.compacted hp m hm
    exact ⟨⟨hagent.session, hagent.manager⟩, hext.count_le, hext.summary⟩

lemma Tracked.start (a : TurnAgent E T) : Tracked loop (.start a) :=
  ⟨fun _ => ⟨fun _ => rfl, fun h => (nomatch h)⟩, fun _ h => (nomatch h), fun _ _ => Nat.zero_le _,
    fun _ _ h => (nomatch h), fun h => (nomatch h)⟩

/-! ### Runs that answer -/

lemma AnswersContextLimits.of_log (h : AnswersContextLimits s) (hlog : s'.log = s.log)
    (hphase : ∀ m, s.log.getLast? = some (.recovered m) → s'.phase = .building) :
    AnswersContextLimits s' where
  answered := hlog ▸ h.answered
  goesOn m hm := hphase m (hlog ▸ hm)
  notResumed := hlog ▸ h.notResumed
  bounded before hb := h.bounded before (hlog ▸ hb)
  givesUp before hb := h.givesUp before (hlog ▸ hb)

lemma AnswersContextLimits.snoc (h : AnswersContextLimits s) {event : LoopEvent E T}
    (hlog : s'.log = s.log ++ [event])
    (hlast : ∀ m, s.log.getLast? = some (.recovered m) → AnsweredBy (.recovered m) event)
    (hgo : ∀ m, event = .recovered m → s'.phase = .building) (hresumed : event ≠ .resumed)
    (hbound : ((recoveryRow s.log).note event).recoveries ≤ maxContextLimitRetries)
    (hgive : event = .gaveUp → (recoveryRow s.log).recoveries = maxContextLimitRetries) :
    AnswersContextLimits s' where
  answered := by
    rw [hlog, List.isChain_append]
    refine ⟨h.answered, List.isChain_singleton _, fun e he e' he' => ?_⟩
    cases he'
    cases e with
    | recovered m => exact hlast m he
    | _ => trivial
  goesOn m hm := by
    rw [hlog, List.getLast?_concat] at hm
    exact hgo m (Option.some.inj hm)
  notResumed := by
    rw [hlog, List.mem_append, List.mem_singleton]
    rintro (hmem | hmem)
    · exact h.notResumed hmem
    · exact hresumed hmem.symm
  bounded before hb := by
    rw [hlog, List.prefix_concat_iff] at hb
    obtain rfl | hb := hb
    · rw [recoveryRow_snoc]
      exact hbound
    · exact h.bounded before hb
  givesUp before hb := by
    rw [hlog, List.prefix_concat_iff] at hb
    obtain heq | hb := hb
    · obtain ⟨rfl, hevent⟩ := List.append_inj' heq rfl
      exact hgive (List.singleton_inj.mp hevent).symm
    · exact h.givesUp before hb

/-- Away from the top of the outer loop no recovery is waiting for its answer. -/
lemma AnswersContextLimits.nothingOwed (h : AnswersContextLimits s) (hphase : s.phase ≠ .building)
    (event : LoopEvent E T) (m : CompactionManager E) (hm : s.log.getLast? = some (.recovered m)) :
    AnsweredBy (.recovered m) event :=
  absurd (h.goesOn m hm) hphase

lemma AnswersContextLimits.bounded_now (h : AnswersContextLimits s) :
    (recoveryRow s.log).recoveries ≤ maxContextLimitRetries :=
  h.bounded _ (List.prefix_refl _)

/-- The counter gives up at the sixth recovery of the row. -/
lemma Counted.eq_of_le {retries : Nat} {row : RecoveryRow} (h : Counted retries row)
    (hle : maxContextLimitRetries ≤ retries) (hbound : row.recoveries ≤ maxContextLimitRetries) :
    row.recoveries = maxContextLimitRetries ∧ row.reopened = false := by
  cases hrow : row.reopened with
  | false => exact ⟨(hbound.antisymm (h.same hrow ▸ hle)), rfl⟩
  | true => exact absurd (h.fewer hrow) (hbound.trans hle).not_gt

lemma FitsRow.lt (h : FitsRow s) (hcounted : Counted s.contextLimitRetries (recoveryRow s.log))
    (hlt : s.contextLimitRetries < maxContextLimitRetries) :
    (recoveryRow s.log).recoveries < maxContextLimitRetries := by
  obtain h | h := h
  · exact h
  · exact hcounted.same h ▸ hlt

/-- An error that the row has room for, met away from the top of the outer loop. -/
lemma AnswersContextLimits.afterError (h : AnswersContextLimits s)
    (hcounted : Counted s.contextLimitRetries (recoveryRow s.log)) (hphase : s.phase ≠ .building)
    {next : TurnPhase} {moment : RecoveryMoment} {error : String}
    (hnext : s.Recovers env lowercase moment error → next = .building ∧ FitsRow s) :
    AnswersContextLimits (s.afterError env lowercase next moment error) := by
  obtain ⟨-, hlog, -⟩ | ⟨-, hle, hlog, -⟩ | ⟨hrecovers, hlt, agent, -, heq⟩ :=
    afterError_cases env lowercase s next moment error
  · exact h.of_log hlog fun m hm => absurd (h.goesOn m hm) hphase
  · exact h.snoc hlog (h.nothingOwed hphase _) (fun m hm => (nomatch hm)) (fun hm => (nomatch hm))
      h.bounded_now fun _ => (hcounted.eq_of_le hle h.bounded_now).1
  · obtain ⟨rfl, hfits⟩ := hnext hrecovers
    rw [heq]
    exact h.snoc rfl (h.nothingOwed hphase _) (fun _ _ => rfl) (fun hm => (nomatch hm))
      (hfits.lt hcounted hlt) fun hm => (nomatch hm)

lemma AnswersContextLimits.step (h : AnswersContextLimits s) (ht : Tracked loop s)
    (hkeep : KeepsAnswering env lowercase loop s input)
    (hs : step env lowercase loop s input = some s') : AnswersContextLimits s' := by
  cases steps_of_step hs with
  | build moment hphase =>
    refine h.snoc rfl (fun m hm => ?_) (fun m hm => (nomatch hm)) (fun hm => (nomatch hm))
      h.bounded_now fun hm => (nomatch hm)
    obtain ⟨hcompacted, hext⟩ := ht.compacted hphase m hm
    exact TurnAgent.buildRequest_builtFrom hcompacted hext (hkeep ⟨m, hm⟩)
  | wait hphase => exact h
  | resume hphase =>
    obtain ⟨m, hm⟩ := ht.resuming hphase
    cases hphase.symm.trans (h.goesOn m hm)
  | opened hphase =>
    exact h.snoc rfl (h.nothingOwed (by simp [hphase]) _) (fun m hm => (nomatch hm))
      (fun hm => (nomatch hm)) h.bounded_now fun hm => (nomatch hm)
  | openError moment error hphase =>
    refine h.afterError (ht.counted fun result => by simp [hphase]) (by simp [hphase])
      fun hrecovers => ?_
    obtain ⟨rfl, hfits⟩ := hkeep hrecovers
    exact ⟨rfl, hfits⟩
  | arrives moment event usage usage' agent hphase =>
    exact h.of_log rfl fun m hm => absurd (h.goesOn m hm) (by simp [hphase])
  | streamError moment error usage hphase =>
    exact h.afterError (ht.counted fun result => by simp [hphase]) (by simp [hphase])
      fun hrecovers => ⟨rfl, hkeep hrecovers⟩
  | streamEnd finish result usage hphase =>
    exact h.snoc rfl (h.nothingOwed (by simp [hphase]) _) (fun m hm => (nomatch hm))
      (fun hm => (nomatch hm)) (Nat.zero_le _) fun hm => (nomatch hm)
  | taskFinishes report task => exact h.of_log rfl h.goesOn

/-! ### Runs that do not -/

lemma not_answers_afterError (h : AnswersContextLimits s)
    (hcounted : Counted s.contextLimitRetries (recoveryRow s.log)) {next : TurnPhase}
    {moment : RecoveryMoment} {error : String} (hrecovers : s.Recovers env lowercase moment error)
    (hretries : next ≠ .building → s.contextLimitRetries < maxContextLimitRetries)
    (hnext : ¬ (next = .building ∧ FitsRow s)) :
    ¬ AnswersContextLimits (s.afterError env lowercase next moment error) := by
  intro h'
  obtain ⟨hno, -⟩ | ⟨-, hle, -⟩ | ⟨-, hlt, agent, -, heq⟩ :=
    afterError_cases env lowercase s next moment error
  · exact hno hrecovers
  · refine hnext ⟨?_, .inr (hcounted.eq_of_le hle h.bounded_now).2⟩
    by_contra hne
    exact (hretries hne).not_ge hle
  · rw [heq] at h'
    refine hnext ⟨h'.goesOn _ List.getLast?_concat, ?_⟩
    -- one more recovery has still been within the bound
    have hbound := h'.bounded_now
    rw [recoveryRow_snoc] at hbound
    exact .inl hbound

lemma not_answers_step (h : AnswersContextLimits s) (ht : Tracked loop s)
    (hbreak : ¬ KeepsAnswering env lowercase loop s input)
    (hs : step env lowercase loop s input = some s') : ¬ AnswersContextLimits s' := by
  cases steps_of_step hs with
  | build moment hphase =>
    obtain ⟨⟨m, hm⟩, hlock⟩ := Classical.not_imp.mp hbreak
    intro h'
    have hchain := (List.isChain_append.mp h'.answered).2.2 _ hm _ rfl
    obtain ⟨m', hsource, -⟩ := hchain
    rw [TurnAgent.requestSource_of_locked (Bool.eq_false_iff.mpr hlock)] at hsource
    cases hsource
  | openError moment error hphase =>
    obtain ⟨hrecovers, hnext⟩ := Classical.not_imp.mp hbreak
    refine not_answers_afterError h (ht.counted fun result => by simp [hphase]) hrecovers
      (fun hne => ?_) fun ⟨hbuilding, hfits⟩ => hnext ⟨?_, hfits⟩
    · have hloop : loop ≠ .runTurn := by
        rintro rfl
        exact hne rfl
      exact (ht.atMostOne hloop (.inr hphase)).trans_lt (by decide)
    · cases loop with
      | runTurn => rfl
      | _ => cases hbuilding
  | streamError moment error usage hphase =>
    obtain ⟨hrecovers, hfits⟩ := Classical.not_imp.mp hbreak
    exact not_answers_afterError h (ht.counted fun result => by simp [hphase]) hrecovers
      (fun hne => absurd rfl hne) fun hnext => hfits hnext.2
  | _ => exact absurd trivial hbreak

/-- A loop that meets no open error it recovers from takes the steps of the others. -/
lemma step_eq_of_keeps {loop' : TurnLoop} (hkeep : KeepsAnswering env lowercase loop s input)
    (hkeep' : KeepsAnswering env lowercase loop' s input) :
    step env lowercase loop s input = step env lowercase loop' s input := by
  cases input with
  | openError moment error =>
    by_cases hrecovers : s.Recovers env lowercase moment error
    · rw [(hkeep hrecovers).1, (hkeep' hrecovers).1]
    · rw [Recovers, Bool.not_eq_true] at hrecovers
      simp only [TurnRun.step, TurnRun.afterError, hrecovers]
      rfl
  | _ => rfl

lemma exec_eq_of_keeps {loop' : TurnLoop} {inputs : List (TurnInput E T)}
    (hkeep : Guarded (step env lowercase loop) (KeepsAnswering env lowercase loop) s inputs)
    (hkeep' : Guarded (step env lowercase loop') (KeepsAnswering env lowercase loop') s inputs) :
    exec (step env lowercase loop) s inputs = exec (step env lowercase loop') s inputs := by
  induction inputs generalizing s with
  | nil => rfl
  | cons input inputs ih =>
    have hstep := step_eq_of_keeps hkeep.1 hkeep'.1
    rw [exec_cons, exec_cons, ← hstep]
    cases hs : step env lowercase loop s input with
    | none => rfl
    | some s' => exact ih (hkeep.2 s' hs) (hkeep'.2 s' (hstep.symm.trans hs))

lemma answersContextLimits_start (a : TurnAgent E T) : AnswersContextLimits (.start a) where
  answered := .nil
  goesOn m hm := nomatch hm
  notResumed := List.not_mem_nil
  bounded before hb := by
    rw [List.prefix_nil.mp hb]
    exact Nat.zero_le _
  givesUp before hb := by
    have hlength := hb.length_le
    rw [List.length_append] at hlength
    exact absurd hlength (Nat.not_succ_le_zero _)

end

/-! ### The three loops -/

/-- A run of a turn loop answers its context limits throughout if and only if it meets only what
the loop can cope with, and on such runs the loops do the same. -/
theorem turnLoops_answer_iff {E T : Type} (env : CompactionEnv E) (lowercase : String → String)
    (a : TurnAgent E T) (inputs : List (TurnInput E T)) :
    (∀ loop t, exec (step env lowercase loop) (.start a) inputs = some t →
      (Always (step env lowercase loop) AnswersContextLimits (.start a) inputs ↔
        Guarded (step env lowercase loop) (KeepsAnswering env lowercase loop) (.start a) inputs)) ∧
    ∀ loop loop',
      Guarded (step env lowercase loop) (KeepsAnswering env lowercase loop) (.start a) inputs →
      Guarded (step env lowercase loop') (KeepsAnswering env lowercase loop') (.start a) inputs →
      exec (step env lowercase loop) (.start a) inputs =
        exec (step env lowercase loop') (.start a) inputs := by
  refine ⟨fun loop t ht => ?_, fun loop loop' hkeep hkeep' => exec_eq_of_keeps hkeep hkeep'⟩
  refine always_iff_guarded (I := Tracked loop) (E := fun _ _ => True)
    (fun s i s' h _ hs => h.step hs) (fun s i s' h hP _ hG hs => hP.step h hG hs)
    (fun s i s' h hP _ hG hs => not_answers_step hP h hG hs) (.start a)
    (answersContextLimits_start a) (guarded_of_forall_mem fun _ _ _ => trivial) ht

/-! ### Two runs -/

def LoopEvent.isResumed {E T : Type} : LoopEvent E T → Bool
  | .resumed => true
  | _ => false

/-- A fresh agent with twelve messages. -/
def twelveMessages : TurnAgent Unit Unit where
  messages := List.replicate 12 sixteenBytes
  compaction := none
  tracking := .reset
  manager := .new .reactive defaultConfig
  providerSessionId := none
  lockedTools := none

def quietBuild : BuildMoment Unit Unit where
  stamp _ := ("message", 0)
  lockFree := true
  usesJcodeCompaction := true
  embed _ := none
  definitions := ()
  staticPart := ""
  dynamicPart := ""
  memory := none

def quietRecovery : RecoveryMoment where
  nativeLockFree := true
  lockFree := true
  supportsCompaction := true
  contextWindow := 1000

/-- The first request is refused as too long, the second is answered. -/
def refusedOnce : List (TurnInput Unit Unit) :=
  [.build quietBuild, .openError quietRecovery "prompt is too long", .build quietBuild, .opened,
    .streamEnd id (some (.ok ()))]

theorem turnLoops_answer_iff_refusedOnce :
    Always (step exactEnv String.toLower .runTurn) AnswersContextLimits (.start twelveMessages)
        refusedOnce ↔
      Guarded (step exactEnv String.toLower .runTurn)
        (KeepsAnswering exactEnv String.toLower .runTurn) (.start twelveMessages) refusedOnce := by
  obtain ⟨t, ht⟩ := Option.isSome_iff_exists.mp (show (exec (step exactEnv String.toLower .runTurn)
    (.start twelveMessages) refusedOnce).isSome by decide +kernel)
  exact (turnLoops_answer_iff exactEnv String.toLower twelveMessages refusedOnce).1 .runTurn t ht

/-- The refused request of a streaming loop is polled again. -/
def refusedAndPolled : List (TurnInput Unit Unit) :=
  [.build quietBuild, .openError quietRecovery "prompt is too long", .poll]

/-- Every stream is opened and then runs into the context limit. -/
def refusedInStreams : List (TurnInput Unit Unit) :=
  (List.replicate 6
    [.build quietBuild, .opened, .streamError quietRecovery "prompt is too long"]).flatten

/-- The streaming loops resume a future that has completed, and no loop stops after five recoveries
when each of its requests opens a stream. -/
theorem turnLoops_resume :
    ¬ Always (step exactEnv String.toLower .runTurnStreaming) AnswersContextLimits
        (.start twelveMessages) refusedAndPolled ∧
      ¬ Always (step exactEnv String.toLower .runTurnStreamingMpsc) AnswersContextLimits
        (.start twelveMessages) refusedAndPolled ∧
      ∀ loop, ¬ Always (step exactEnv String.toLower loop) AnswersContextLimits
        (.start twelveMessages) refusedInStreams := by
  have hresumed : ∀ loop ∈ [TurnLoop.runTurnStreaming, .runTurnStreamingMpsc],
      ¬ Always (step exactEnv String.toLower loop) AnswersContextLimits (.start twelveMessages)
        refusedAndPolled := by
    intro loop hloop
    have hend : (exec (step exactEnv String.toLower loop) (.start twelveMessages)
        refusedAndPolled).any (·.log.any LoopEvent.isResumed) := by
      revert loop
      decide +kernel
    intro h
    obtain ⟨t, ht, hany⟩ := (Option.any_eq_true _ _).mp hend
    obtain ⟨event, hmem, hevent⟩ := List.any_eq_true.mp hany
    cases event with
    | resumed => exact (h refusedAndPolled [] t (List.append_nil _).symm ht).notResumed hmem
    | _ => cases hevent
  refine ⟨hresumed _ (by simp), hresumed _ (by simp), fun loop h => ?_⟩
  have hend : (exec (step exactEnv String.toLower loop) (.start twelveMessages)
      refusedInStreams).any fun t => (recoveryRow t.log).recoveries = 6 := by
    cases loop <;> decide +kernel
  obtain ⟨t, ht, hsix⟩ := (Option.any_eq_true _ _).mp hend
  have hbound := (h refusedInStreams [] t (List.append_nil _).symm ht).bounded_now
  rw [of_decide_eq_true hsix] at hbound
  exact absurd hbound (by decide)

end Jcode
