import Mathlib.Tactic.Common

/-!
# Texts cut at bytes

Offsets into a text count bytes. A text can be cut at an offset that is not inside of a character.
-/

namespace CharBytes

/-- The size of a text in bytes. -/
def width : List Char → Nat
  | [] => 0
  | c :: text => c.utf8Size + width text

/-- What is in front of an offset and behind it, unless the offset is inside of a character. -/
def cut : List Char → Nat → Option (List Char × List Char)
  | text, 0 => some ([], text)
  | [], _ + 1 => none
  | c :: text, n + 1 =>
    if c.utf8Size ≤ n + 1 then
      (cut text (n + 1 - c.utf8Size)).map fun (front, back) => (c :: front, back)
    else none

/-- What is between two offsets. -/
def slice (text : List Char) (start stop : Nat) : Option (List Char) :=
  if start ≤ stop then
    (cut text stop).bind fun parts => (cut parts.1 start).map (·.2)
  else none

/-- The offset is not inside of a character. -/
def IsBoundary (text : List Char) (n : Nat) : Prop :=
  ∃ front back, text = front ++ back ∧ width front = n

/-- The offset of the first character of a kind. -/
def find (p : Char → Bool) : List Char → Option Nat
  | [] => none
  | c :: text => if p c then some 0 else (find p text).map (c.utf8Size + ·)

/-- The offset of the last character of a kind. -/
def rfind (p : Char → Bool) : List Char → Option Nat
  | [] => none
  | c :: text =>
    match rfind p text with
    | some n => some (c.utf8Size + n)
    | none => if p c then some 0 else none

attribute [local simp] cut find rfind

variable {text front front' back back' middle : List Char} {n start stop : Nat} {p : Char → Bool}
  {c : Char}

@[simp] lemma width_nil : width [] = 0 := rfl

@[simp] lemma width_cons : width (c :: text) = c.utf8Size + width text := rfl

@[simp] lemma width_append : width (front ++ back) = width front + width back := by
  induction front with
  | nil => simp
  | cons c front ih =>
    rw [List.cons_append, width_cons, width_cons, ih]
    omega

lemma width_eq_zero : width text = 0 ↔ text = [] := by
  cases text with
  | nil => simp
  | cons c text =>
    have hpos := c.utf8Size_pos
    simp only [width_cons, reduceCtorEq, iff_false]
    omega

/-- Of two beginnings of a text the one with fewer bytes begins the other. -/
lemma exists_between (h : front ++ back = front' ++ back') (hle : width front ≤ width front') :
    ∃ middle, front' = front ++ middle ∧ back = middle ++ back' := by
  rcases List.append_eq_append_iff.mp h with ⟨middle, hfront, hback⟩ | ⟨middle, hfront, hback⟩
  · exact ⟨middle, hfront, hback⟩
  · rw [hfront, width_append] at hle
    have hnil : middle = [] := width_eq_zero.mp (by omega)
    subst hnil
    exact ⟨[], by simpa using hfront.symm, by simpa using hback.symm⟩

lemma eq_of_width_eq (h : front ++ back = front' ++ back') (hwidth : width front = width front') :
    front = front' ∧ back = back' := by
  obtain ⟨middle, rfl, rfl⟩ := exists_between h (Nat.le_of_eq hwidth)
  rw [width_append] at hwidth
  have hnil : middle = [] := width_eq_zero.mp (by omega)
  simp [hnil]

/-! ### Cuts -/

lemma cut_append (front back : List Char) : cut (front ++ back) (width front) = some (front, back) := by
  induction front with
  | nil =>
    cases back <;> rfl
  | cons c front ih =>
    obtain ⟨m, hm⟩ : ∃ m, c.utf8Size + width front = m + 1 :=
      ⟨c.utf8Size + width front - 1, by have := c.utf8Size_pos; omega⟩
    rw [List.cons_append, width_cons, hm, cut, if_pos (by omega), ← hm, Nat.add_sub_cancel_left, ih]
    rfl

lemma cut_eq_some : cut text n = some (front, back) ↔ text = front ++ back ∧ width front = n := by
  constructor
  · intro h
    induction text generalizing n front with
    | nil =>
      cases n with
      | zero =>
        simp only [cut, Option.some.injEq, Prod.mk.injEq] at h
        obtain ⟨rfl, rfl⟩ := h
        exact ⟨rfl, rfl⟩
      | succ n => simp at h
    | cons c text ih =>
      cases n with
      | zero =>
        simp only [cut, Option.some.injEq, Prod.mk.injEq] at h
        obtain ⟨rfl, rfl⟩ := h
        exact ⟨rfl, rfl⟩
      | succ n =>
        rw [cut] at h
        split_ifs at h with hle
        obtain ⟨⟨front', back'⟩, hcut, heq⟩ := Option.map_eq_some_iff.mp h
        obtain ⟨rfl, rfl⟩ := Prod.mk.inj heq
        obtain ⟨htext, hwidth⟩ := ih hcut
        refine ⟨by rw [htext, List.cons_append], ?_⟩
        rw [width_cons, hwidth]
        omega
  · rintro ⟨rfl, rfl⟩
    exact cut_append front back

lemma isSome_cut : (cut text n).isSome ↔ IsBoundary text n := by
  rw [Option.isSome_iff_exists]
  constructor
  · rintro ⟨⟨front, back⟩, h⟩
    exact ⟨front, back, cut_eq_some.mp h⟩
  · rintro ⟨front, back, h⟩
    exact ⟨(front, back), cut_eq_some.mpr h⟩

instance : Decidable (IsBoundary text n) := decidable_of_iff _ isSome_cut

lemma slice_eq_some : slice text start stop = some middle ↔ ∃ front back,
    text = front ++ middle ++ back ∧ width front = start ∧ width (front ++ middle) = stop := by
  constructor
  · intro h
    rw [slice] at h
    split_ifs at h with hle
    obtain ⟨⟨before, back⟩, hcut, h⟩ := Option.bind_eq_some_iff.mp h
    obtain ⟨⟨front, middle'⟩, hcut', rfl⟩ := Option.map_eq_some_iff.mp h
    obtain ⟨rfl, hstop⟩ := cut_eq_some.mp hcut
    obtain ⟨rfl, hstart⟩ := cut_eq_some.mp hcut'
    exact ⟨front, back, rfl, hstart, hstop⟩
  · rintro ⟨front, back, rfl, rfl, rfl⟩
    rw [slice, if_pos (by simp), cut_append, Option.bind_some, cut_append]
    rfl

lemma isBoundary_zero : IsBoundary text 0 := ⟨[], text, rfl, rfl⟩

lemma isBoundary_width : IsBoundary text (width text) := ⟨text, [], by simp, rfl⟩

/-- Two boundaries in order cut a text into three parts. -/
lemma IsBoundary.parts (hstart : IsBoundary text start) (hstop : IsBoundary text stop)
    (hle : start ≤ stop) : ∃ front middle back,
      text = front ++ middle ++ back ∧ width front = start ∧ width (front ++ middle) = stop := by
  obtain ⟨front, back, rfl, rfl⟩ := hstart
  obtain ⟨front', back', h, rfl⟩ := hstop
  obtain ⟨middle, rfl, rfl⟩ := exists_between h hle
  exact ⟨front, middle, back', by rw [List.append_assoc], rfl, rfl⟩

lemma IsBoundary.le (h : IsBoundary text n) : n ≤ width text := by
  obtain ⟨front, back, rfl, rfl⟩ := h
  rw [width_append]
  omega

/-- No boundary is inside of a character. -/
lemma not_isBoundary_inside (hpos : 0 < n) (hlt : n < c.utf8Size) :
    ¬ IsBoundary (front ++ c :: back) (width front + n) := by
  rintro ⟨front', back', h, hwidth⟩
  obtain ⟨middle, rfl, hmiddle⟩ := exists_between h (by omega)
  rw [width_append] at hwidth
  cases middle with
  | nil =>
    rw [width_nil] at hwidth
    omega
  | cons d middle =>
    obtain ⟨rfl, -⟩ := List.cons.inj hmiddle
    rw [width_cons] at hwidth
    omega

/-! ### Searches -/

lemma find_eq_some (h : find p text = some n) : ∃ front c back,
    text = front ++ c :: back ∧ width front = n ∧ p c := by
  induction text generalizing n with
  | nil => cases h
  | cons c text ih =>
    rw [find] at h
    split_ifs at h with hp
    · cases h
      exact ⟨[], c, text, rfl, rfl, hp⟩
    · obtain ⟨m, hfind, rfl⟩ := Option.map_eq_some_iff.mp h
      obtain ⟨front, d, back, rfl, rfl, hd⟩ := ih hfind
      exact ⟨c :: front, d, back, rfl, rfl, hd⟩

lemma rfind_eq_none : rfind p text = none ↔ ∀ c ∈ text, ¬ p c := by
  induction text with
  | nil => simp
  | cons c text ih =>
    rw [rfind, List.forall_mem_cons, ← ih]
    cases rfind p text <;> simp

lemma rfind_eq_some (h : rfind p text = some n) : ∃ front c back,
    text = front ++ c :: back ∧ width front = n ∧ p c ∧ ∀ d ∈ back, ¬ p d := by
  induction text generalizing n with
  | nil => cases h
  | cons c text ih =>
    rw [rfind] at h
    cases hrest : rfind p text with
    | some m =>
      rw [hrest] at h
      cases h
      obtain ⟨front, d, back, rfl, rfl, hd⟩ := ih hrest
      exact ⟨c :: front, d, back, rfl, rfl, hd⟩
    | none =>
      rw [hrest] at h
      simp only [Option.ite_none_right_eq_some, Option.some.injEq] at h
      obtain ⟨hp, rfl⟩ := h
      exact ⟨[], c, text, rfl, rfl, hp, rfind_eq_none.mp hrest⟩

/-- The last character of a kind is known by its kind. -/
lemma last_unique {before before' after after' : List Char} {d : Char}
    (h : before ++ c :: after = before' ++ d :: after') (hc : p c) (hd : p d)
    (hafter : ∀ e ∈ after, ¬ p e) (hafter' : ∀ e ∈ after', ¬ p e) : c = d := by
  rcases List.append_eq_append_iff.mp h with ⟨middle, -, hmiddle⟩ | ⟨middle, -, hmiddle⟩
  · cases middle with
    | nil => exact (List.cons.inj hmiddle).1
    | cons e middle =>
      have hmem : d ∈ after := by
        rw [(List.cons.inj hmiddle).2]
        exact List.mem_append_right _ List.mem_cons_self
      exact absurd hd (hafter d hmem)
  · cases middle with
    | nil => exact (List.cons.inj hmiddle).1.symm
    | cons e middle =>
      have hmem : c ∈ after' := by
        rw [(List.cons.inj hmiddle).2]
        exact List.mem_append_right _ List.mem_cons_self
      exact absurd hc (hafter' c hmem)

end CharBytes
