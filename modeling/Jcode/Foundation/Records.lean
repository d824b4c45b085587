import Mathlib.Logic.Function.Basic

/-!
# Records and their users

A system of records, each under its key, and of users, each of which may know something about some
records. A step changes one record and one user. An invariant of such a system has a part for each
record and a part for each user, and what a user knows has to survive how records change. A user
may also claim a record, alone, and then the record changes in no way that breaks the claim.
-/

namespace Records

variable {ι κ α β : Type*}

/-- `P` holds of every record, and `Q` of every user. -/
structure Holds (P : ι → α → Prop) (Q : (ι → α) → κ → β → Prop) (records : ι → α)
    (users : κ → β) : Prop where
  record : ∀ i, P i (records i)
  user : ∀ k, Q records k (users k)

variable {P : ι → α → Prop} {Q : (ι → α) → κ → β → Prop} {R : α → α → Prop}
  {records : ι → α} {users : κ → β} {i : ι} {k : κ} {a : α} {b : β}

/-- Every record changes as the changed one does, or not at all. -/
lemma rel_update [DecidableEq ι] (hrefl : ∀ a, R a a) (hR : R (records i) a) (j : ι) :
    R (records j) (Function.update records i a j) := by
  by_cases hj : j = i
  · subst hj
    rwa [Function.update_self]
  · rw [Function.update_of_ne hj]
    exact hrefl _

/-- A step that changes one record. -/
lemma Holds.record_step [DecidableEq ι] (h : Holds P Q records users) (hrefl : ∀ a, R a a)
    (hmono : ∀ r r' k b, (∀ i, R (r i) (r' i)) → Q r k b → Q r' k b)
    (hP : P i a) (hR : R (records i) a) : Holds P Q (Function.update records i a) users where
  record j := by
    by_cases hj : j = i
    · subst hj
      rwa [Function.update_self]
    · rw [Function.update_of_ne hj]
      exact h.record j
  user k := hmono records _ k (users k) (rel_update hrefl hR) (h.user k)

/-- A step that changes one user. -/
lemma Holds.user_step [DecidableEq κ] (h : Holds P Q records users) (hQ : Q records k b) :
    Holds P Q records (Function.update users k b) where
  record := h.record
  user l := by
    by_cases hl : l = k
    · subst hl
      rwa [Function.update_self]
    · rw [Function.update_of_ne hl]
      exact h.user l

/-! ### Claims -/

/-- A record that a user claims has `C`, and no other user claims it. -/
def Sole (C : α → Prop) (claims : β → Option ι) (records : ι → α) (users : κ → β) : Prop :=
  ∀ k i, claims (users k) = some i → C (records i) ∧ ∀ l, claims (users l) = some i → l = k

variable {C : α → Prop} {claims : β → Option ι}

/-- A record changes as a claim allows. -/
lemma Sole.record_step [DecidableEq ι] (h : Sole C claims records users)
    (hC : C (records i) → C a) : Sole C claims (Function.update records i a) users := by
  intro k j hk
  obtain ⟨hj, hsole⟩ := h k j hk
  refine ⟨?_, hsole⟩
  by_cases hji : j = i
  · subst hji
    rw [Function.update_self]
    exact hC hj
  · rwa [Function.update_of_ne hji]

/-- A record changes that nobody claims. -/
lemma Sole.record_step_of_unclaimed [DecidableEq ι] (h : Sole C claims records users)
    (hnone : ∀ k, claims (users k) ≠ some i) :
    Sole C claims (Function.update records i a) users := by
  intro k j hk
  have hji : j ≠ i := by
    rintro rfl
    exact hnone k hk
  rw [Function.update_of_ne hji]
  exact h k j hk

/-- A user changes and claims nothing new. -/
lemma Sole.user_step [DecidableEq κ] (h : Sole C claims records users)
    (hb : ∀ i, claims b = some i → claims (users k) = some i) :
    Sole C claims records (Function.update users k b) := by
  have hold {l : κ} {j : ι} (hl : claims (Function.update users k b l) = some j) :
      claims (users l) = some j := by
    by_cases hlk : l = k
    · subst hlk
      rw [Function.update_self] at hl
      exact hb j hl
    · rwa [Function.update_of_ne hlk] at hl
  exact fun l j hl => ⟨(h l j (hold hl)).1, fun l' hl' => (h l j (hold hl)).2 l' (hold hl')⟩

/-- A user claims a record that nobody does. -/
lemma Sole.claim [DecidableEq κ] (h : Sole C claims records users) (hb : claims b = some i)
    (hC : C (records i)) (hnone : ∀ k, claims (users k) ≠ some i) :
    Sole C claims records (Function.update users k b) := by
  intro l j hl
  by_cases hlk : l = k
  · subst hlk
    rw [Function.update_self, hb] at hl
    cases hl
    refine ⟨hC, fun l' hl' => ?_⟩
    by_contra hne
    rw [Function.update_of_ne hne] at hl'
    exact hnone l' hl'
  · rw [Function.update_of_ne hlk] at hl
    refine ⟨(h l j hl).1, fun l' hl' => ?_⟩
    by_cases hl'k : l' = k
    · subst hl'k
      rw [Function.update_self, hb] at hl'
      cases hl'
      exact absurd hl (hnone l)
    · rw [Function.update_of_ne hl'k] at hl'
      exact (h l j hl).2 l' hl'

/-- Once its claim is given up, nobody claims the record. -/
lemma Sole.unclaimed [DecidableEq κ] (h : Sole C claims records users)
    (hk : claims (users k) = some i) (hb : claims b = none) (l : κ) :
    claims (Function.update users k b l) ≠ some i := by
  by_cases hlk : l = k
  · subst hlk
    rw [Function.update_self, hb]
    exact nofun
  · rw [Function.update_of_ne hlk]
    exact fun hl => hlk ((h k i hk).2 l hl)

end Records
