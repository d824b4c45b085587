import Mathlib.Data.List.Infix
import Mathlib.Data.Set.Function

/-!
# Hashes of prefixes

A chain has one hash for every nonempty prefix of a list, each made from the one before it and the
hash of the next entry. Where no two prefixes share a hash, a list that was seen before begins a
later one exactly when its hash is that of the later one's prefix of its length.
-/

universe u v
variable {α : Type u} {η : Type v} (extend : η → η → η)

namespace HashChain

/-- The left fold of the hashes of a list; there is none of no hash. -/
def fold : List η → Option η
  | [] => none
  | h :: hs => some (hs.foldl extend h)

/-- The chain with the hash of one more entry. -/
def push (chain : List η) (h : η) : List η :=
  chain ++ [match chain.getLast? with
    | some prev => extend prev h
    | none => h]

/-- The chain of a list of hashes. -/
def ofHashes (hs : List η) : List η := hs.foldl (push extend) []

variable {extend} {hs : List η} {h : η}

@[simp] lemma ofHashes_nil : ofHashes extend ([] : List η) = [] := rfl

lemma ofHashes_concat : ofHashes extend (hs ++ [h]) = push extend (ofHashes extend hs) h :=
  List.foldl_concat ..

@[simp] lemma length_ofHashes : (ofHashes extend hs).length = hs.length := by
  induction hs using List.reverseRecOn with
  | nil => rfl
  | append_singleton hs h ih => simp [ofHashes_concat, push, ih]

lemma fold_concat : fold extend (hs ++ [h]) =
    some (match fold extend hs with
      | some prev => extend prev h
      | none => h) := by
  cases hs with
  | nil => rfl
  | cons h' hs => simp [fold]

/-- The last hash of a chain is that of the whole list. -/
lemma getLast?_ofHashes : (ofHashes extend hs).getLast? = fold extend hs := by
  induction hs using List.reverseRecOn with
  | nil => rfl
  | append_singleton hs h ih =>
    rw [ofHashes_concat, fold_concat, ← ih]
    exact List.getLast?_concat

/-- Each hash of a chain is that of the prefix which ends at its place. -/
theorem getElem?_ofHashes {i : ℕ} (hi : i < hs.length) :
    (ofHashes extend hs)[i]? = fold extend (hs.take (i + 1)) := by
  induction hs using List.reverseRecOn with
  | nil => exact absurd hi (Nat.not_lt_zero i)
  | append_singleton hs h ih =>
    rw [List.length_append, List.length_singleton] at hi
    obtain hlt | rfl := Nat.lt_succ_iff_lt_or_eq.mp hi
    · have hi' : i < (ofHashes extend hs).length := by rwa [length_ofHashes]
      rw [ofHashes_concat, push, List.getElem?_append_left hi', ih hlt,
        List.take_append_of_le_length hlt]
    · rw [List.take_of_length_le (by simp), ← getLast?_ofHashes, List.getLast?_eq_getElem?]
      simp

/-! ### Prefixes by their hashes -/

variable {hash : α → η} {seen now : List α}

/-- The hash of a list by those of its entries. -/
def hashOf (extend : η → η → η) (hash : α → η) (l : List α) : Option η := fold extend (l.map hash)

@[simp] lemma hashOf_nil : hashOf extend hash [] = none := rfl

lemma hashOf_eq_none : hashOf extend hash seen = none ↔ seen = [] := by
  cases seen <;> simp [hashOf, fold]

/-- Where hashes tell the prefixes of lists apart, they tell whether a list begins another one. -/
theorem hashOf_take_eq_iff {S : Set (List α)} (hinj : S.InjOn (hashOf extend hash))
    (hseen : seen ∈ S) (hnow : now.take seen.length ∈ S) :
    hashOf extend hash (now.take seen.length) = hashOf extend hash seen ↔ seen <+: now := by
  rw [hinj.eq_iff hnow hseen, List.prefix_iff_eq_take, eq_comm]

end HashChain
