import Mathlib.Tactic.Common

/-!
# Schedules of a labelled step function

A system is given by a partial step function `step : σ → ι → Option σ`: the label says which
party moves (and carries every choice of the environment), `none` says that the move is not
enabled. A run is a schedule, a list of labels, carried out from a start state.

`exec` carries a schedule out, `Guarded` says that every step of it is taken in a state which
a guard allows, and the induction rules below turn a step lemma into a statement about every
state that is reached.
-/

namespace Schedule

universe u v
variable {σ : Type u} {ι : Type v} (step : σ → ι → Option σ)

/-- Carry out a schedule; `none` as soon as a move is not enabled. -/
def exec : σ → List ι → Option σ
  | s, []      => some s
  | s, i :: is =>
    match step s i with
    | none    => none
    | some s' => exec s' is

/-- Every step of the schedule is taken in a state where `G` allows its label. -/
def Guarded (G : σ → ι → Prop) : σ → List ι → Prop
  | _, []      => True
  | s, i :: is => G s i ∧ ∀ s', step s i = some s' → Guarded G s' is

/-- `P` holds in every state the schedule passes through, the start state included. -/
def Always (P : σ → Prop) (s : σ) (is : List ι) : Prop :=
  ∀ ks ls t, is = ks ++ ls → exec step s ks = some t → P t

variable {step} {G H : σ → ι → Prop} {s s' : σ} {i : ι} {is js : List ι}

@[simp] lemma exec_nil : exec step s [] = some s := rfl

lemma exec_cons : exec step s (i :: is) = (step s i).bind (exec step · is) := by
  simp only [exec]
  cases step s i <;> rfl

/-- A successful schedule splits after its first label. -/
lemma exec_cons_eq_some {t : σ} :
    exec step s (i :: is) = some t ↔ ∃ s', step s i = some s' ∧ exec step s' is = some t := by
  rw [exec_cons, Option.bind_eq_some_iff]

@[simp] lemma exec_singleton : exec step s [i] = step s i := by
  rw [exec_cons]
  cases step s i <;> rfl

lemma exec_append : exec step s (is ++ js) = (exec step s is).bind (exec step · js) := by
  induction is generalizing s with
  | nil => rfl
  | cons i is ih =>
    rw [List.cons_append, exec_cons, exec_cons]
    cases step s i with
    | none => rfl
    | some s' => exact ih

lemma exec_append_eq_some {t : σ} :
    exec step s (is ++ js) = some t ↔
      ∃ m, exec step s is = some m ∧ exec step m js = some t := by
  rw [exec_append, Option.bind_eq_some_iff]

/-- The last step of a schedule, exposed. -/
lemma exec_snoc (h : exec step s is = some s') : exec step s (is ++ [i]) = step s' i := by
  rw [exec_append, h, Option.bind_some, exec_cons]
  cases step s' i <;> rfl

/-- Where every move is enabled, every schedule can be carried out. -/
lemma exec_of_total (h : ∀ s i, (step s i).isSome) : ∃ t, exec step s is = some t := by
  induction is generalizing s with
  | nil => exact ⟨s, rfl⟩
  | cons i is ih =>
    obtain ⟨s', hs'⟩ := Option.isSome_iff_exists.mp (h s i)
    obtain ⟨t, ht⟩ := ih (s := s')
    exact ⟨t, exec_cons_eq_some.mpr ⟨s', hs', ht⟩⟩

@[simp] lemma guarded_nil : Guarded step G s [] := trivial

lemma guarded_cons :
    Guarded step G s (i :: is) ↔ G s i ∧ ∀ s', step s i = some s' → Guarded step G s' is :=
  Iff.rfl

/-- One allowed step, and the rest of the schedule from where it leads. -/
lemma Guarded.cons (hi : G s i) (hs : step s i = some s') (h : Guarded step G s' is) :
    Guarded step G s (i :: is) := by
  refine ⟨hi, fun t ht => ?_⟩
  cases hs.symm.trans ht
  exact h

lemma Guarded.mono (hGH : ∀ s i, G s i → H s i) (h : Guarded step G s is) :
    Guarded step H s is := by
  induction is generalizing s with
  | nil => trivial
  | cons i is ih => exact ⟨hGH _ _ h.1, fun s' hs' => ih (h.2 s' hs')⟩

lemma Guarded.and (hG : Guarded step G s is) (hH : Guarded step H s is) :
    Guarded step (fun s i => G s i ∧ H s i) s is := by
  induction is generalizing s with
  | nil => trivial
  | cons i is ih => exact ⟨⟨hG.1, hH.1⟩, fun s' hs' => ih (hG.2 s' hs') (hH.2 s' hs')⟩

/-- Labels that are allowed in every state. -/
lemma guarded_of_forall_mem (h : ∀ i ∈ is, ∀ s, G s i) : Guarded step G s is := by
  induction is generalizing s with
  | nil => trivial
  | cons i is ih =>
    exact ⟨h i (List.mem_cons_self) s, fun s' _ => ih fun j hj => h j (List.mem_cons_of_mem i hj)⟩

/-- An initial part of a guarded schedule is guarded. -/
lemma Guarded.of_append (h : Guarded step G s (is ++ js)) : Guarded step G s is := by
  induction is generalizing s with
  | nil => trivial
  | cons i is ih => exact ⟨h.1, fun s' hs' => ih (h.2 s' hs')⟩

/-- A guarded schedule is guarded from where its first part ends. -/
lemma Guarded.of_exec {t : σ} (h : Guarded step G s (is ++ js)) (ht : exec step s is = some t) :
    Guarded step G t js := by
  induction is generalizing s with
  | nil =>
    cases ht
    exact h
  | cons i is ih =>
    obtain ⟨m, hm, hmt⟩ := exec_cons_eq_some.mp ht
    exact ih (h.2 m hm) hmt

/-- A guarded schedule goes on with a step that is allowed where it ends. -/
lemma Guarded.snoc (h : Guarded step G s is) (hi : ∀ t, exec step s is = some t → G t i) :
    Guarded step G s (is ++ [i]) := by
  induction is generalizing s with
  | nil => exact ⟨hi s rfl, fun _ _ => trivial⟩
  | cons j is ih =>
    exact ⟨h.1, fun s' hs' => ih (h.2 s' hs') fun t ht =>
      hi t (exec_cons_eq_some.mpr ⟨s', hs', ht⟩)⟩

/-- Guards that can be evaluated can be evaluated along a schedule. -/
instance decidableGuarded [∀ s i, Decidable (G s i)] :
    ∀ s is, Decidable (Guarded step G s is)
  | _, []      => isTrue trivial
  | s, i :: is =>
    match hs : step s i with
    | none    => decidable_of_iff (G s i) (by simp [guarded_cons, hs])
    | some s' =>
      have := decidableGuarded s' is
      decidable_of_iff (G s i ∧ Guarded step G s' is) (by simp [guarded_cons, hs])

/-- The guard holds of every step that a guarded schedule takes. -/
lemma Guarded.step_mem (h : Guarded step G s (is ++ i :: js)) (hs' : exec step s is = some s') :
    G s' i := by
  induction is generalizing s with
  | nil =>
    cases hs'
    exact h.1
  | cons j is ih =>
    obtain ⟨m, hm, hms⟩ := exec_cons_eq_some.mp hs'
    exact ih (h.2 m hm) hms

/-- A schedule is guarded when each of its steps, taken where it is taken, is allowed. -/
lemma guarded_of_steps
    (h : ∀ ks i ls t, is = ks ++ i :: ls → exec step s ks = some t → G t i) :
    Guarded step G s is := by
  induction is generalizing s with
  | nil => trivial
  | cons i is ih =>
    refine ⟨h [] i is s rfl rfl, fun s' hs' => ih fun ks j ls t hk ht => ?_⟩
    exact h (i :: ks) j ls t (by rw [hk, List.cons_append]) (exec_cons_eq_some.mpr ⟨s', hs', ht⟩)

/-! ### Invariants of runs -/

/-- What every guarded step preserves holds in every state a guarded schedule reaches. -/
theorem exec_invariant_of_guarded {I : σ → Prop}
    (hstep : ∀ s i s', I s → G s i → step s i = some s' → I s')
    (hG : Guarded step G s is) (hI : I s) (hs' : exec step s is = some s') : I s' := by
  induction is generalizing s with
  | nil =>
    cases hs'
    exact hI
  | cons i is ih =>
    obtain ⟨m, hm, hms⟩ := exec_cons_eq_some.mp hs'
    exact ih (hG.2 m hm) (hstep _ _ _ hI hG.1 hm) hms

/-- Guards that are the same under an invariant allow the same schedules. -/
theorem guarded_congr_of_invariant {I : σ → Prop}
    (hstep : ∀ s i s', I s → step s i = some s' → I s')
    (hGH : ∀ s i, I s → (G s i ↔ H s i)) (hI : I s) :
    Guarded step G s is ↔ Guarded step H s is := by
  induction is generalizing s with
  | nil => exact Iff.rfl
  | cons i is ih =>
    rw [guarded_cons, guarded_cons, hGH s i hI]
    exact and_congr_right fun _ => forall₂_congr fun s' hs' => ih (hstep s i s' hI hs')

/-- What every step preserves holds in every state a schedule reaches. -/
theorem exec_invariant {I : σ → Prop} (hstep : ∀ s i s', I s → step s i = some s' → I s')
    (hI : I s) (hs' : exec step s is = some s') : I s' := by
  induction is generalizing s with
  | nil =>
    cases hs'
    exact hI
  | cons i is ih =>
    obtain ⟨m, hm, hms⟩ := exec_cons_eq_some.mp hs'
    exact ih (hstep _ _ _ hI hm) hms

/-- A property kept by every guarded step holds throughout a guarded schedule. -/
theorem Guarded.always {P : σ → Prop} (hstep : ∀ s i s', P s → G s i → step s i = some s' → P s')
    (hG : Guarded step G s is) (hP : P s) : Always step P s is := by
  rintro ks ls t rfl ht
  exact exec_invariant_of_guarded hstep hG.of_append hP ht

/-- Along an invariant of the runs that an environment `E` allows, let the guard keep `Q`, which
gives `P`, and let every step outside the guard break `P`. Then such a run has `P` throughout if and
only if it is guarded. -/
theorem always_iff_guarded_of_stronger {I P Q : σ → Prop} {E : σ → ι → Prop}
    (hI : ∀ s i s', I s → E s i → step s i = some s' → I s')
    (hkeep : ∀ s i s', I s → Q s → E s i → G s i → step s i = some s' → Q s')
    (hbreak : ∀ s i s', I s → Q s → E s i → ¬ G s i → step s i = some s' → ¬ P s')
    (hQP : ∀ s, Q s → P s)
    {t : σ} (hI0 : I s) (hQ0 : Q s) (hE : Guarded step E s is) (ht : exec step s is = some t) :
    Always step P s is ↔ Guarded step G s is := by
  constructor
  · intro hP
    induction is generalizing s with
    | nil => trivial
    | cons i is ih =>
      obtain ⟨n, hn, hnt⟩ := exec_cons_eq_some.mp ht
      have hG : G s i := by
        by_contra hG
        exact hbreak s i n hI0 hQ0 hE.1 hG hn (hP [i] is n rfl (by rw [exec_singleton, hn]))
      refine Guarded.cons hG hn ?_
      apply ih (hI s i n hI0 hE.1 hn) (hkeep s i n hI0 hQ0 hE.1 hG hn) (hE.2 n hn) hnt
      intro ks ls m hk hm
      exact hP (i :: ks) ls m (congrArg (i :: ·) hk) (exec_cons_eq_some.mpr ⟨n, hn, hm⟩)
  · intro hG ks ls m hk hm
    have hIQ : Always step (fun s => I s ∧ Q s) s is := (hE.and hG).always
      (fun s i s' h hg hs => ⟨hI s i s' h.1 hg.1 hs, hkeep s i s' h.1 h.2 hg.1 hg.2 hs⟩) ⟨hI0, hQ0⟩
    exact hQP m (hIQ ks ls m hk hm).2

/-- If, along an invariant of the runs that an environment `E` allows, the guard is exactly what
keeps a property, then such a run has the property throughout if and only if it is guarded. -/
theorem always_iff_guarded {I P : σ → Prop} {E : σ → ι → Prop}
    (hI : ∀ s i s', I s → E s i → step s i = some s' → I s')
    (hkeep : ∀ s i s', I s → P s → E s i → G s i → step s i = some s' → P s')
    (hbreak : ∀ s i s', I s → P s → E s i → ¬ G s i → step s i = some s' → ¬ P s')
    {t : σ} (hI0 : I s) (hP0 : P s) (hE : Guarded step E s is) (ht : exec step s is = some t) :
    Always step P s is ↔ Guarded step G s is :=
  always_iff_guarded_of_stronger hI hkeep hbreak (fun _ h => h) hI0 hP0 hE ht

end Schedule
