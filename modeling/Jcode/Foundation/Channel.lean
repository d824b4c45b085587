import Jcode.Foundation.Run

/-!
# Bounded channels

A sender puts a list of items into a queue of bounded length, a receiver takes them out and folds
them into its state, and may stop early. The two take their steps in any order. At the end the
receiver has the fold of all items, whatever the order was.
-/

namespace Channel

open Schedule

universe u v
variable {α : Type u} {σ : Type v}

structure State (α : Type u) (σ : Type v) where
  unsent : List α
  queue : List α
  receiver : σ

inductive Label
  | send
  | receive
deriving DecidableEq

/-- What is sent to a receiver that has stopped is lost, so no step is taken then. -/
def step (capacity : Nat) (receive : σ → α → σ) (stopped : σ → Bool) (s : State α σ) :
    Label → Option (State α σ)
  | .send =>
    match s.unsent with
    | [] => none
    | a :: unsent =>
      if s.queue.length < capacity ∧ !stopped s.receiver then
        some { s with unsent := unsent, queue := s.queue ++ [a] }
      else none
  | .receive =>
    match s.queue with
    | [] => none
    | a :: queue =>
      if stopped s.receiver then none
      else some { s with queue := queue, receiver := receive s.receiver a }

def start (sent : List α) (receiver : σ) : State α σ where
  unsent := sent
  queue := []
  receiver := receiver

/-- The receiver has stopped or has taken everything. -/
def Done (stopped : σ → Bool) (s : State α σ) : Prop :=
  stopped s.receiver ∨ s.unsent = [] ∧ s.queue = []

variable {capacity : Nat} {receive : σ → α → σ} {stopped : σ → Bool} {s t : State α σ}
  {sent : List α} {receiver : σ}

/-- What the receiver makes of everything on its way to it. -/
def State.outcome (receive : σ → α → σ) (s : State α σ) : σ :=
  (s.queue ++ s.unsent).foldl receive s.receiver

lemma step_outcome {l : Label} (h : step capacity receive stopped s l = some t) :
    t.outcome receive = s.outcome receive := by
  cases l with
  | send =>
    cases hunsent : s.unsent with
    | nil => simp [step, hunsent] at h
    | cons a unsent =>
      simp only [step, hunsent, Option.ite_none_right_eq_some, Option.some.injEq] at h
      obtain ⟨-, rfl⟩ := h
      rw [State.outcome, State.outcome, hunsent, List.append_assoc]
      rfl
  | receive =>
    cases hqueue : s.queue with
    | nil => simp [step, hqueue] at h
    | cons a queue =>
      simp only [step, hqueue, Option.ite_none_left_eq_some, Option.some.injEq] at h
      obtain ⟨-, rfl⟩ := h
      rw [State.outcome, State.outcome, hqueue]
      rfl

lemma foldl_of_stopped (hstop : ∀ r a, stopped r → receive r a = r) (h : stopped receiver) :
    sent.foldl receive receiver = receiver := by
  induction sent with
  | nil => rfl
  | cons a sent ih => rw [List.foldl_cons, hstop receiver a h, ih]

/-- At the end the receiver has the fold of all items. -/
theorem receiver_of_done (hstop : ∀ r a, stopped r → receive r a = r) {is : List Label}
    (h : exec (step capacity receive stopped) (start sent receiver) is = some s)
    (hdone : Done stopped s) : s.receiver = sent.foldl receive receiver := by
  have houtcome : s.outcome receive = sent.foldl receive receiver :=
    exec_invariant (I := fun t => t.outcome receive = sent.foldl receive receiver)
      (fun _ _ _ ih hstep => (step_outcome hstep).trans ih) rfl h
  rw [← houtcome, State.outcome]
  obtain hstopped | ⟨hunsent, hqueue⟩ := hdone
  · rw [foldl_of_stopped hstop hstopped]
  · rw [hunsent, hqueue]
    rfl

/-- A state that is not at its end has a step. -/
lemma exists_step (hcapacity : 0 < capacity) (h : ¬ Done stopped s) :
    ∃ l t, step capacity receive stopped s l = some t ∧
      2 * t.unsent.length + t.queue.length < 2 * s.unsent.length + s.queue.length := by
  rw [Done, not_or] at h
  obtain ⟨hstopped, hleft⟩ := h
  rw [Bool.not_eq_true] at hstopped
  cases hqueue : s.queue with
  | cons a queue =>
    refine ⟨.receive, _, by rw [step, hqueue]; exact if_neg (by simp [hstopped]), ?_⟩
    simp
  | nil =>
    cases hunsent : s.unsent with
    | nil => exact absurd ⟨hunsent, hqueue⟩ hleft
    | cons a unsent =>
      refine ⟨.send, _, by rw [step, hunsent]; exact if_pos (by simpa [hstopped, hqueue]), ?_⟩
      simp [hqueue]
      omega

/-- Some run comes to its end. -/
theorem exists_done (hcapacity : 0 < capacity) (s : State α σ) :
    ∃ is t, exec (step capacity receive stopped) s is = some t ∧ Done stopped t := by
  induction hn : 2 * s.unsent.length + s.queue.length using Nat.strongRecOn
    generalizing s with
  | _ n ih =>
    by_cases hdone : Done stopped s
    · exact ⟨[], s, rfl, hdone⟩
    · obtain ⟨l, t, hstep, hlt⟩ := @exists_step _ _ _ receive _ _ hcapacity hdone
      obtain ⟨is, u, hexec, hu⟩ := ih _ (hn ▸ hlt) t rfl
      exact ⟨l :: is, u, exec_cons_eq_some.mpr ⟨t, hstep, hexec⟩, hu⟩

end Channel
