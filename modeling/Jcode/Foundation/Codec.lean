import Mathlib.Data.Countable.Basic
import Mathlib.Data.Finmap
import Mathlib.Data.String.Basic
import Mathlib.Logic.Equiv.List
import Mathlib.Tactic.DeriveCountable

/-!
# Text formats

A format encodes values as texts and may fail to decode a text. Every countable type has one
that loses nothing: a value's number in unary, between braces.
-/

universe u

instance Char.instCountable : Countable Char :=
  Function.Injective.countable (f := Char.toNat) fun _ _ h => Char.toNat_inj.mp h

instance String.instCountable : Countable String :=
  Function.Injective.countable (f := String.toList) fun _ _ h => String.toList_inj.mp h

instance Finmap.instCountable {α : Type u} {β : α → Type u} [Countable α]
    [∀ a, Countable (β a)] : Countable (Finmap β) :=
  Function.Injective.countable (f := Finmap.entries) fun _ _ h => Finmap.ext h

structure TextCodec (α : Type u) where
  encode : α → String
  decode : String → Option α

namespace TextCodec

variable {α : Type u}

/-- Decoding undoes encoding of the values with property `P`. -/
def LosslessOn (codec : TextCodec α) (P : α → Prop) : Prop :=
  ∀ a, P a → codec.decode (codec.encode a) = some a

/-- A text that was cut off is not decoded, whether it ends there or another one follows. -/
structure RejectsTorn (codec : TextCodec α) : Prop where
  decode_cut : ∀ a text, text.toList <+: (codec.encode a).toList → text ≠ codec.encode a →
    codec.decode text = none
  decode_joined : ∀ a b text, text ≠ "" → text.toList <+: (codec.encode a).toList →
    codec.decode (text ++ codec.encode b) = none

/-! ### The unary format -/

/-- `{`, as many `1` as the number says, `}`. -/
def unaryText (n : Nat) : List Char := '{' :: (List.replicate n '1' ++ ['}'])

lemma unaryText_inj {m n : Nat} : unaryText m = unaryText n ↔ m = n := by
  refine ⟨fun h => ?_, congrArg unaryText⟩
  have hlen := congrArg List.length h
  simpa [unaryText] using hlen

lemma idxOf_unaryText (n : Nat) : (unaryText n).idxOf '}' = n + 1 := by
  simp [unaryText, List.idxOf_append, List.mem_replicate]

lemma count_unaryText (n : Nat) : (unaryText n).count '{' = 1 := by
  simp [unaryText, List.count_replicate]

open Classical in
/-- The format for a numbering of the values. -/
noncomputable def unaryBy (number : α → Nat) : TextCodec α where
  encode a := String.ofList (unaryText (number a))
  decode text := if h : ∃ a : α, text.toList = unaryText (number a) then some h.choose else none

section

variable {number : α → Nat}

lemma toList_encode_unaryBy (a : α) :
    ((unaryBy number).encode a).toList = unaryText (number a) := by
  simp [unaryBy]

/-- The unary format reads back what it has written. -/
lemma decode_encode_unaryBy (hnumber : Function.Injective number) (a : α) :
    (unaryBy number).decode ((unaryBy number).encode a) = some a := by
  have h : ∃ b : α, ((unaryBy number).encode a).toList = unaryText (number b) :=
    ⟨a, toList_encode_unaryBy a⟩
  have hb : number h.choose = number a :=
    unaryText_inj.mp (h.choose_spec.symm.trans (toList_encode_unaryBy a))
  exact (dif_pos h).trans (congrArg some (hnumber hb))

/-- It reads nothing else. -/
lemma eq_unaryText_of_decode {text : String} {a : α}
    (h : (unaryBy number).decode text = some a) : text.toList = unaryText (number a) := by
  simp only [unaryBy] at h
  split_ifs at h with hex
  rw [← Option.some.inj h]
  exact hex.choose_spec

/-- A unary text starts with the only opening brace and ends with the only closing one. -/
lemma unaryBy_rejectsTorn : (unaryBy number).RejectsTorn where
  decode_cut a text hpre hne := by
    rw [toList_encode_unaryBy] at hpre
    by_contra hdecode
    obtain ⟨b, hb⟩ := Option.ne_none_iff_exists'.mp hdecode
    have htext := eq_unaryText_of_decode hb
    obtain ⟨rest, hrest⟩ := hpre
    have hidx := congrArg (List.idxOf '}') hrest
    rw [htext, List.idxOf_append_of_mem (by simp [unaryText]), idxOf_unaryText,
      idxOf_unaryText] at hidx
    refine hne (String.toList_inj.mp ?_)
    rw [htext, toList_encode_unaryBy, Nat.succ.inj hidx]
  decode_joined a b text hne hpre := by
    rw [toList_encode_unaryBy] at hpre
    by_contra hdecode
    obtain ⟨c, hc⟩ := Option.ne_none_iff_exists'.mp hdecode
    have hcount := congrArg (List.count '{') (eq_unaryText_of_decode hc)
    rw [String.toList_append, List.count_append, toList_encode_unaryBy, count_unaryText,
      count_unaryText] at hcount
    have hopen : '{' ∈ text.toList := by
      cases htext : text.toList with
      | nil => exact absurd (String.toList_eq_nil_iff.mp htext) hne
      | cons ch rest =>
        rw [htext, unaryText, List.cons_prefix_cons] at hpre
        exact hpre.1 ▸ List.mem_cons_self
    have hpos := List.count_pos_iff.mpr hopen
    omega

end

variable [Countable α]

/-- A numbering in which the given value comes first. -/
noncomputable def numberFrom [DecidableEq α] (first a : α) : Nat :=
  if a = first then 0 else (exists_injective_nat α).choose a + 1

lemma numberFrom_injective [DecidableEq α] (first : α) :
    Function.Injective (numberFrom first) := by
  intro a b h
  simp only [numberFrom] at h
  split_ifs at h with ha hb hb
  · rw [ha, hb]
  · exact (exists_injective_nat α).choose_spec (Nat.succ.inj h)

noncomputable def unary (α : Type u) [Countable α] : TextCodec α :=
  unaryBy (exists_injective_nat α).choose

lemma unary_losslessOn (P : α → Prop) : (unary α).LosslessOn P :=
  fun a _ => decode_encode_unaryBy (exists_injective_nat α).choose_spec a

/-- No unary text starts with another character than an opening brace. -/
lemma encode_unary_ne {text : String} (h : text.toList.head? ≠ some '{') (a : α) :
    (unary α).encode a ≠ text := by
  rintro rfl
  exact h (by rw [unary, toList_encode_unaryBy]; rfl)

/-! ### A given text for a given value -/

/-- Writes one value as the given text, and every other value as before. -/
def pinned {α : Type u} [DecidableEq α] (codec : TextCodec α) (value : α) (text : String) :
    TextCodec α where
  encode a := if a = value then text else codec.encode a
  decode t := if t = text then some value else codec.decode t

lemma LosslessOn.pinned {α : Type u} [DecidableEq α] {codec : TextCodec α} {P : α → Prop}
    {value : α} {text : String} (h : codec.LosslessOn P) (htext : ∀ a, codec.encode a ≠ text) :
    (codec.pinned value text).LosslessOn P := by
  intro a ha
  by_cases hvalue : a = value
  · simp [TextCodec.pinned, hvalue]
  · simp [TextCodec.pinned, hvalue, htext a, h a ha]

end TextCodec
