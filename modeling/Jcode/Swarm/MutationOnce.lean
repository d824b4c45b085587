import Jcode.Swarm.MutationRuns

/-!
# At most one execution

`begin_or_replay` looks for a final response on disk before it enters the key's lock and does
not look again afterwards. A request that looked before the response was written and enters
after the lock was released executes the mutation a second time. That is the only way.
-/

namespace Jcode

open Schedule MutationPhase

namespace MutationSystem

variable {key : String} {s t u : MutationSystem} {i j : Nat} {p q : MutationPhase}
  {m : MutationMove}

/-- `begin_or_replay` has returned `Some` to one request at most. -/
def AtMostOnce (s : MutationSystem) : Prop :=
  ∀ i j, s.At granted i → s.At granted j → i = j

/-- The clock stays inside the TTLs. -/
def ClockInside (key : String) (s : MutationSystem) (_ : MutationMove) : Prop :=
  InsideTtl s.dir s.nowMs key

/-- A request which goes on to `ensure_pending_state` finds no final response there. -/
def EntersUnanswered (key : String) (s : MutationSystem) (m : MutationMove) : Prop :=
  ∀ i, m = .ensurePending i → ¬ HasFinal s.dir key

instance (s : MutationSystem) (m : MutationMove) : Decidable (ClockInside key s m) :=
  inferInstanceAs (Decidable (InsideTtl s.dir s.nowMs key))

/-- The request has passed the look at the final response. -/
def begun : MutationPhase → Bool
  | .arrived | .replayed => false
  | _ => true

/-- A final response is on disk once a request has settled, and otherwise only if it was there
before any request began. -/
structure Recorded (key : String) (s : MutationSystem) : Prop where
  written : ∀ i, s.At settled i → HasFinal s.dir key
  origin : HasFinal s.dir key → (∃ i, s.At settled i) ∨ ∀ i, ¬ s.At begun i

lemma Recorded.start (dir : MutationStateDir) (nowMs : Nat) : Recorded key (start dir nowMs) := by
  constructor <;> simp [At, phase?, MutationSystem.start]

/-- A move that neither settles nor begins a request and leaves the response alone. -/
lemma Recorded.of_move (h : Recorded key s) (ht : t = u.setPhase i q)
    (hu : u.requests = s.requests) (hp : s.phase? i = some p) (hq : settled q = settled p)
    (hb : begun q = begun p) (hd : HasFinal t.dir key ↔ HasFinal s.dir key) : Recorded key t where
  written j hj := hd.mpr (h.written j ((at_of_move ht hu hp hq j).mp hj))
  origin hf := by
    refine (h.origin (hd.mp hf)).imp (fun ⟨j, hj⟩ => ⟨j, (at_of_move ht hu hp hq j).mpr hj⟩) ?_
    exact fun hn j hj => hn j ((at_of_move ht hu hp hb j).mp hj)

lemma Recorded.step (h : Recorded key s) (hl : Locked key s)
    (hc : InsideTtl s.dir s.nowMs key) (hs : s.step key m = some t) : Recorded key t := by
  have hload := loadState_of_insideTtl hc
  cases MutationRule.of_step hs with
  | arrive requestId sessionId action ht =>
    have hat (f : MutationPhase → Bool) (hf : f .arrived = false) (j : Nat) :
        t.At f j ↔ s.At f j := at_of_arrive (congrArg requests ht) hf j
    have hd : t.dir = s.dir := by rw [ht]
    refine ⟨fun j hj => ?_, fun hf => ?_⟩
    · exact hd ▸ h.written j ((hat settled rfl j).mp hj)
    · refine (h.origin (hd ▸ hf)).imp (fun ⟨j, hj⟩ => ⟨j, (hat settled rfl j).mpr hj⟩) ?_
      exact fun hn j hj => hn j ((hat begun rfl j).mp hj)
  | tick ms ht =>
    subst ht
    exact ⟨h.written, h.origin⟩
  | replay i state event hp hst hf ht =>
    exact h.of_move ht rfl hp rfl rfl (by rw [ht, hload]; rfl)
  | load i hp hf ht =>
    have hno : ¬ HasFinal t.dir key := by
      rintro ⟨st, hst, hfin⟩
      have hst' : s.dir.files key = some st := by simpa [ht, setPhase, hload] using hst
      rw [hload, hst', Option.bind_some] at hf
      simp [hf] at hfin
    have hno' : ¬ HasFinal s.dir key := by simpa [ht, setPhase, hload] using hno
    refine ⟨fun j hj => ?_, fun hf => (hno hf).elim⟩
    exact (hno' (h.written j ((at_of_move ht rfl hp rfl j).mp hj))).elim
  | addWaiter i requestId hp ht => exact h.of_move ht rfl hp rfl rfl (by rw [ht]; rfl)
  | win i hp hk ht => exact h.of_move ht rfl hp rfl rfl (by rw [ht]; rfl)
  | lose i hp hk ht => exact h.of_move ht rfl hp rfl rfl (by rw [ht]; rfl)
  | ensurePending i sessionId action hp ht =>
    refine h.of_move ht rfl hp rfl rfl ?_
    rw [ht]
    exact hasFinal_ensurePendingState hc
  | persistFinal i state response hp ht =>
    have hfin : HasFinal t.dir key := by
      rw [ht]
      exact hasFinal_persistFinalResponse (hl.key_eq hp rfl)
    refine ⟨fun _ _ => hfin, fun _ => .inl ⟨i, ?_⟩⟩
    exact (at_of_setPhase ht rfl hp i).mpr (.inl ⟨rfl, rfl⟩)
  | takeWaiters i state response hp hf ht => exact h.of_move ht rfl hp rfl rfl (by rw [ht]; rfl)
  | takeNone i state hp hf ht => exact h.of_move ht rfl hp rfl rfl (by rw [ht]; rfl)
  | clearActive i state hp ht => exact h.of_move ht rfl hp rfl rfl (by rw [ht]; rfl)

/-- A granted request holds the key or has settled. -/
lemma At.holds_or_settled (h : s.At granted i) : s.At holds i ∨ s.At settled i := by
  obtain ⟨p, hp, hg⟩ := h
  cases p with
  | executing st => exact .inl ⟨_, hp, rfl⟩
  | persisted st => exact .inl ⟨_, hp, rfl⟩
  | notified st => exact .inl ⟨_, hp, rfl⟩
  | finished => exact .inr ⟨_, hp, rfl⟩
  | _ => cases hg

lemma AtMostOnce.of_iff (h : AtMostOnce s) (hst : ∀ j, t.At granted j ↔ s.At granted j) :
    AtMostOnce t :=
  fun i j hi hj => h i j ((hst i).mp hi) ((hst j).mp hj)

/-- Only `ensure_pending_state` grants. -/
lemma granted_of_step (hs : s.step key m = some t) (hm : ∀ i, m ≠ .ensurePending i) (j : Nat) :
    t.At granted j ↔ s.At granted j := by
  cases MutationRule.of_step hs with
  | arrive requestId sessionId action ht => exact at_of_arrive (congrArg requests ht) rfl j
  | tick ms ht =>
    subst ht
    exact Iff.rfl
  | replay i state event hp hst hf ht => exact at_of_move ht rfl hp rfl j
  | load i hp hf ht => exact at_of_move ht rfl hp rfl j
  | addWaiter i requestId hp ht => exact at_of_move ht rfl hp rfl j
  | win i hp hk ht => exact at_of_move ht rfl hp rfl j
  | lose i hp hk ht => exact at_of_move ht rfl hp rfl j
  | ensurePending i sessionId action hp ht => exact (hm i rfl).elim
  | persistFinal i state response hp ht => exact at_of_move ht rfl hp rfl j
  | takeWaiters i state response hp hf ht => exact at_of_move ht rfl hp rfl j
  | takeNone i state hp hf ht => exact at_of_move ht rfl hp rfl j
  | clearActive i state hp ht => exact at_of_move ht rfl hp rfl j

lemma AtMostOnce.step (h : AtMostOnce s) (hl : Locked key s) (hr : Recorded key s)
    (hg : EntersUnanswered key s m) (hs : s.step key m = some t) : AtMostOnce t := by
  by_cases hm : ∃ i, m = .ensurePending i
  · obtain ⟨i, rfl⟩ := hm
    cases MutationRule.of_step hs with
    | ensurePending _ sessionId action hp ht =>
      -- nobody was granted before: a granted request holds the key, which is `i`'s, or has settled
      have hnone (j : Nat) : j ≠ i → ¬ s.At granted j := by
        intro hji hj
        rcases hj.holds_or_settled with hj | hj
        · exact hji (hl.unique j i hj ((at_iff hp).mpr rfl))
        · exact hg i rfl (hr.written j hj)
      have honly (j : Nat) (hj : t.At granted j) : j = i := by
        rcases (at_of_setPhase (s := s) ht rfl hp j).mp hj with ⟨hj, -⟩ | ⟨hji, hj⟩
        · exact hj
        · exact (hnone j hji hj).elim
      exact fun j k hj hk => (honly j hj).trans (honly k hk).symm
  · exact h.of_iff (granted_of_step hs fun i hi => hm ⟨i, hi⟩)

lemma not_atMostOnce_of_answered (hr : Recorded key s) (hg : ¬ EntersUnanswered key s m)
    (hs : s.step key m = some t) : ¬ AtMostOnce t := by
  simp only [EntersUnanswered, not_forall, not_not] at hg
  obtain ⟨i, rfl, hfin⟩ := hg
  cases MutationRule.of_step hs with
  | ensurePending _ sessionId action hp ht =>
    have hat := at_of_setPhase (s := s) (f := granted) ht rfl hp
    rcases hr.origin hfin with ⟨j, hj⟩ | hfresh
    · have hji : j ≠ i := by
        rintro rfl
        simp [at_iff hp, settled] at hj
      have hgj : s.At granted j := by
        obtain ⟨p, hpj, hset⟩ := hj
        exact ⟨p, hpj, by cases p <;> first | rfl | cases hset⟩
      intro honce
      exact hji (honce j i ((hat j).mpr (.inr ⟨hji, hgj⟩)) ((hat i).mpr (.inl ⟨rfl, rfl⟩)))
    · exact (hfresh i ((at_iff hp).mpr rfl)).elim

end MutationSystem

open MutationSystem

/-- With the clock inside the TTLs, a mutation key's requests are given permission to execute at
most once throughout a run exactly when no request reaches `ensure_pending_state` after the
final response has been written. -/
theorem beginOrReplay_atMostOnce_iff {key : String} {dir : MutationStateDir} {nowMs : Nat}
    {moves : List MutationMove} {t : MutationSystem}
    (hrun : exec (step key) (start dir nowMs) moves = some t)
    (hclock : Guarded (step key) (ClockInside key) (start dir nowMs) moves) :
    Always (step key) AtMostOnce (start dir nowMs) moves ↔
      Guarded (step key) (EntersUnanswered key) (start dir nowMs) moves := by
  refine always_iff_guarded (I := fun s => Locked key s ∧ Recorded key s)
    (fun s m s' h hc hs => ⟨h.1.step hs, h.2.step h.1 hc hs⟩)
    (fun s m s' h hP _ hG hs => hP.step h.1 h.2 hG hs)
    (fun s m s' h _ _ hG hs => not_atMostOnce_of_answered h.2 hG hs)
    ⟨.start dir nowMs, .start dir nowMs⟩ ?_ hclock hrun
  intro i j hi
  simp [At, phase?, start] at hi

/-- One request, from its arrival to the end of `finish_request`. -/
def soleRun : List MutationMove :=
  [.arrive 1 "coord" "spawn", .loadState 0, .addWaiter 0, .markActive 0, .ensurePending 0,
    .persistFinal 0 .done, .takeWaiters 0, .clearActive 0]

theorem beginOrReplay_atMostOnce_iff_soleRun :
    Always (step "k") AtMostOnce (start .empty 0) soleRun ↔
      Guarded (step "k") (EntersUnanswered "k") (start .empty 0) soleRun :=
  beginOrReplay_atMostOnce_iff (t := _) rfl (by decide)

/-- Two requests look for a final response; the first executes and finishes before the second
goes on. -/
def overtakenRun : List MutationMove :=
  [.arrive 1 "coord" "spawn", .arrive 2 "coord" "spawn", .loadState 0, .loadState 1,
    .addWaiter 0, .markActive 0, .ensurePending 0, .persistFinal 0 .done, .takeWaiters 0,
    .clearActive 0, .addWaiter 1, .markActive 1, .ensurePending 1]

/-- The overtaken request is given permission to execute as well. -/
theorem beginOrReplay_executes_twice :
    ¬ ∀ (key : String) (dir : MutationStateDir) (nowMs : Nat) (moves : List MutationMove)
        (t : MutationSystem), exec (step key) (start dir nowMs) moves = some t →
      Guarded (step key) (ClockInside key) (start dir nowMs) moves → AtMostOnce t := by
  intro h
  have h01 := h "k" .empty 0 overtakenRun _ rfl (by decide) 0 1 ⟨_, rfl, rfl⟩ ⟨_, rfl, rfl⟩
  exact absurd h01 (by decide)

end Jcode
