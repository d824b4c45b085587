import Mathlib.Data.List.Sort
import Mathlib.Data.List.TakeWhile
import Mathlib.Tactic.Common

/-!
# Replacing ranges of a list

An edit replaces a range of a list by a text. `spliced` makes edits that are in order all at once;
`applyAll` makes them one at a time from the last to the first, so that the earlier ranges stay
where they are. The two agree on edits in order.

Edits that were sorted by their start, by a stable sort, are in order if the ranges are apart and
no edit that inserts at the start of a range comes after the edit of that range.
-/

namespace Splice

universe u

/-- The `len` elements from `start` on are replaced by `text`. -/
structure Edit (α : Type u) where
  start : Nat
  len : Nat
  text : List α
  deriving DecidableEq

variable {α : Type u}

namespace Edit

def stop (e : Edit α) : Nat := e.start + e.len

def apply (e : Edit α) (l : List α) : List α := l.take e.start ++ (e.text ++ l.drop e.stop)

/-- The ranges have nothing in common, and neither is within the other. -/
def Apart (e f : Edit α) : Prop := e.stop ≤ f.start ∨ f.stop ≤ e.start

lemma Apart.symm {e f : Edit α} (h : Apart e f) : Apart f e := Or.symm h

/-- An insertion comes before what replaces the range that begins there. -/
def Before (e f : Edit α) : Prop := e.start < f.start ∨ e.start = f.start ∧ e.len ≤ f.len

instance (e f : Edit α) : Decidable (e.Before f) := inferInstanceAs (Decidable (_ ∨ _))

lemma Before.of_stop_le {e f : Edit α} (h : e.stop ≤ f.start) : e.Before f := by
  simp only [Before, stop] at h ⊢
  omega

end Edit

def applyAll (edits : List (Edit α)) (l : List α) : List α := edits.foldr Edit.apply l

/-- What becomes of the list from `pos` on. -/
def spliced (l : List α) (pos : Nat) : List (Edit α) → List α
  | [] => l.drop pos
  | e :: es => (l.drop pos).take (e.start - pos) ++ (e.text ++ spliced l e.stop es)

/-- Each range begins where the one before ends or later, and all are within `n` elements. -/
def InOrder (n : Nat) (pos : Nat) : List (Edit α) → Prop
  | [] => pos ≤ n
  | e :: es => pos ≤ e.start ∧ InOrder n e.stop es

/-- Sorted by their starts alone; the sort is stable. -/
def byStart (edits : List (Edit α)) : List (Edit α) :=
  edits.insertionSort fun e f => e.start ≤ f.start

/-- All edits, in the order of what they replace. -/
def ordered (edits : List (Edit α)) : List (Edit α) := edits.insertionSort Edit.Before

variable {l m t : List α} {e q : Edit α} {es fs edits : List (Edit α)} {n pos : Nat}

/-! ### Edits in order -/

lemma InOrder.le (h : InOrder n pos es) : pos ≤ n := by
  induction es generalizing pos with
  | nil => exact h
  | cons e es ih =>
    have hstop : e.start + e.len ≤ n := ih h.2
    exact h.1.trans (by omega)

lemma InOrder.mono {n' : Nat} (h : InOrder n pos es) (hn : n ≤ n') : InOrder n' pos es := by
  induction es generalizing pos with
  | nil => exact Nat.le_trans h hn
  | cons e es ih => exact ⟨h.1, ih h.2⟩

lemma inOrder_of_pairwise (hpos : pos ≤ n) (hstart : ∀ e ∈ es, pos ≤ e.start)
    (hstop : ∀ e ∈ es, e.stop ≤ n) (hes : es.Pairwise fun e f => e.stop ≤ f.start) :
    InOrder n pos es := by
  induction es generalizing pos with
  | nil => exact hpos
  | cons e es ih =>
    obtain ⟨hnext, hes⟩ := List.pairwise_cons.mp hes
    refine ⟨hstart e List.mem_cons_self, ih (hstop e List.mem_cons_self) hnext ?_ hes⟩
    exact fun f hf => hstop f (List.mem_cons_of_mem _ hf)

@[simp] lemma applyAll_nil : applyAll [] l = l := rfl

lemma applyAll_cons : applyAll (e :: es) l = e.apply (applyAll es l) := rfl

lemma applyAll_append : applyAll (es ++ fs) l = applyAll es (applyAll fs l) :=
  List.foldr_append

/-- An edit at the end of a prefix. -/
lemma apply_take_append (hstop : e.stop ≤ l.length) :
    e.apply (l.take e.stop ++ t) = l.take e.start ++ (e.text ++ t) := by
  have hle : e.start ≤ e.stop := Nat.le_add_right _ _
  have htake : (l.take e.stop).length = e.stop := List.length_take_of_le hstop
  rw [Edit.apply, List.take_append_of_le_length (by omega), List.take_take, Nat.min_eq_left hle,
    List.drop_append_of_le_length (by omega), List.drop_eq_nil_of_le (by omega), List.nil_append]

/-- What is behind the range is left alone. -/
lemma apply_append (h : e.stop ≤ m.length) : e.apply (m ++ t) = e.apply m ++ t := by
  have hstart : e.start ≤ m.length := (Nat.le_add_right _ _).trans h
  rw [Edit.apply, Edit.apply, List.take_append_of_le_length hstart,
    List.drop_append_of_le_length h, List.append_assoc, List.append_assoc]

lemma length_apply (h : e.start ≤ l.length) :
    (e.apply l).length = e.start + e.text.length + (l.length - e.stop) := by
  rw [Edit.apply, List.length_append, List.length_append, List.length_take_of_le h,
    List.length_drop, ← Nat.add_assoc]

/-- One after the other from the last on, edits in order do what they do at once. -/
theorem applyAll_eq (h : InOrder l.length pos es) :
    applyAll es l = l.take pos ++ spliced l pos es := by
  induction es generalizing pos with
  | nil => exact (List.take_append_drop pos l).symm
  | cons e es ih =>
    obtain ⟨hstart, hes⟩ := h
    have hstop : e.stop ≤ l.length := hes.le
    calc applyAll (e :: es) l = e.apply (l.take e.stop ++ spliced l e.stop es) :=
          congrArg e.apply (ih hes)
      _ = l.take e.start ++ (e.text ++ spliced l e.stop es) := apply_take_append hstop
      _ = l.take pos ++ (l.drop pos).take (e.start - pos) ++ (e.text ++ spliced l e.stop es) := by
          rw [List.take_drop, Nat.add_sub_cancel' hstart]
          nth_rewrite 1 [← List.take_append_drop pos (l.take e.start)]
          rw [List.take_take, Nat.min_eq_left hstart]
      _ = l.take pos ++ spliced l pos (e :: es) := by rw [List.append_assoc, spliced]

lemma spliced_append_right (h : InOrder m.length pos es) :
    spliced (m ++ t) pos es = spliced m pos es ++ t := by
  induction es generalizing pos with
  | nil => exact List.drop_append_of_le_length h
  | cons e es ih =>
    have hstop : e.stop ≤ m.length := h.2.le
    have hle : e.start ≤ m.length := (Nat.le_add_right _ _).trans hstop
    have hpos : pos ≤ m.length := h.1.trans hle
    rw [spliced, spliced, ih h.2, List.drop_append_of_le_length hpos,
      List.take_append_of_le_length (by rw [List.length_drop]; omega)]
    simp only [List.append_assoc]

lemma applyAll_append_right (h : InOrder m.length pos es) :
    applyAll es (m ++ t) = applyAll es m ++ t := by
  have hlonger : InOrder (m ++ t).length pos es := h.mono (by simp)
  rw [applyAll_eq h, applyAll_eq hlonger, List.take_append_of_le_length h.le,
    spliced_append_right h, List.append_assoc]

lemma mem_applyAll {a : α} (h : a ∈ applyAll es l) : a ∈ l ∨ ∃ e ∈ es, a ∈ e.text := by
  induction es with
  | nil => exact .inl h
  | cons e es ih =>
    have hrest : a ∈ applyAll es l → a ∈ l ∨ ∃ f ∈ e :: es, a ∈ f.text := fun ha =>
      (ih ha).imp_right fun ⟨f, hf, haf⟩ => ⟨f, List.mem_cons_of_mem _ hf, haf⟩
    have happly : a ∈ e.apply (applyAll es l) := h
    rcases List.mem_append.mp happly with ha | ha
    · exact hrest (List.mem_of_mem_take ha)
    · rcases List.mem_append.mp ha with ha | ha
      · exact .inr ⟨e, List.mem_cons_self, ha⟩
      · exact hrest (List.mem_of_mem_drop ha)

lemma mem_spliced {a : α} (h : a ∈ spliced l pos es) : a ∈ l ∨ ∃ e ∈ es, a ∈ e.text := by
  induction es generalizing pos with
  | nil => exact .inl (List.mem_of_mem_drop h)
  | cons e es ih =>
    rcases List.mem_append.mp h with ha | ha
    · exact .inl (List.mem_of_mem_drop (List.mem_of_mem_take ha))
    · rcases List.mem_append.mp ha with ha | ha
      · exact .inr ⟨e, List.mem_cons_self, ha⟩
      · exact (ih ha).imp_right fun ⟨f, hf, haf⟩ => ⟨f, List.mem_cons_of_mem _ hf, haf⟩

lemma text_infix_spliced (h : e ∈ es) : e.text <:+: spliced l pos es := by
  induction es generalizing pos with
  | nil => cases h
  | cons f es ih =>
    rcases List.mem_cons.mp h with rfl | h
    · exact ⟨(l.drop pos).take (e.start - pos), spliced l e.stop es, List.append_assoc _ _ _⟩
    · have htext : e.text <:+: spliced l f.stop es := ih h
      exact htext.trans ⟨(l.drop pos).take (f.start - pos) ++ f.text, [], by simp [spliced]⟩

/-! ### Edits sorted by start -/

lemma byStart_perm : (byStart edits).Perm edits := List.perm_insertionSort _ _

@[simp] lemma mem_byStart : e ∈ byStart edits ↔ e ∈ edits := List.mem_insertionSort _

lemma pairwise_start_byStart : (byStart edits).Pairwise fun e f => e.start ≤ f.start := by
  have : Std.Total fun e f : Edit α => e.start ≤ f.start := ⟨fun e f => Nat.le_total _ _⟩
  have : IsTrans (Edit α) fun e f => e.start ≤ f.start := ⟨fun _ _ _ => Nat.le_trans⟩
  exact List.pairwise_insertionSort _ _

/-- Where an edit goes among edits that are sorted. -/
lemma byStart_cons (e : Edit α) (edits : List (Edit α)) :
    ∃ as bs, byStart edits = as ++ bs ∧ byStart (e :: edits) = as ++ e :: bs ∧
      (∀ a ∈ as, a.start < e.start) ∧ ∀ b ∈ bs, e.start ≤ b.start := by
  have hinsert : byStart (e :: edits) = _ ++ e :: _ := List.orderedInsert_eq_take_drop _ _ _
  refine ⟨_, _, List.takeWhile_append_dropWhile.symm, hinsert, fun a ha => ?_, ?_⟩
  · simpa using List.mem_takeWhile_imp ha
  · have hsorted : (byStart (e :: edits)).Pairwise fun e f => e.start ≤ f.start :=
      pairwise_start_byStart
    rw [hinsert] at hsorted
    exact (List.pairwise_cons.mp (List.pairwise_append.mp hsorted).2.1).1

/-- The sort is stable: of two edits with one start, the first stays the first. -/
lemma pairwise_byStart {R : Edit α → Edit α → Prop} (h : edits.Pairwise R) :
    (byStart edits).Pairwise fun e f =>
      e.start < f.start ∧ (R e f ∨ R f e) ∨ e.start = f.start ∧ R e f := by
  induction edits with
  | nil => exact .nil
  | cons e edits ih =>
    obtain ⟨he, hedits⟩ := List.pairwise_cons.mp h
    obtain ⟨as, bs, hsplit, hcons, has, hbs⟩ := byStart_cons e edits
    have hmem : ∀ f, f ∈ as ++ bs → R e f := fun f hf => he f (mem_byStart.mp (hsplit ▸ hf))
    have hsorted := ih hedits
    rw [hsplit, List.pairwise_append] at hsorted
    obtain ⟨has', hbs', habs⟩ := hsorted
    rw [hcons, List.pairwise_append, List.pairwise_cons]
    refine ⟨has', ⟨fun b hb => ?_, hbs'⟩, fun a ha b hb => ?_⟩
    · have hR : R e b := hmem b (List.mem_append_right _ hb)
      rcases (hbs b hb).lt_or_eq with hlt | heq
      · exact .inl ⟨hlt, .inl hR⟩
      · exact .inr ⟨heq, hR⟩
    · rcases List.mem_cons.mp hb with rfl | hb
      · exact .inl ⟨has a ha, .inr (hmem a (List.mem_append_left _ ha))⟩
      · exact habs a ha b hb

/-- The edits with one start stay in their order. -/
lemma filter_byStart (edits : List (Edit α)) (k : Nat) :
    (byStart edits).filter (fun e => e.start = k) = edits.filter fun e => e.start = k := by
  induction edits with
  | nil => rfl
  | cons e edits ih =>
    obtain ⟨as, bs, hsplit, hcons, has, -⟩ := byStart_cons e edits
    rw [hsplit, List.filter_append] at ih
    rw [hcons, List.filter_append, List.filter_cons, List.filter_cons, ← ih]
    by_cases hk : e.start = k
    · have hnil : as.filter (fun a => a.start = k) = [] := by
        refine List.filter_eq_nil_iff.mpr fun a ha => ?_
        have := has a ha
        simp only [decide_eq_true_eq]
        omega
      rw [hnil]
      simp [hk]
    · simp [hk]

/-- Sorted by start, the first ends before the second begins. -/
def Fits (e f : Edit α) : Prop := e.stop ≤ f.start ∨ f.stop ≤ e.start ∧ f.start < e.start

lemma pairwise_byStart_of_fits (h : edits.Pairwise Fits) :
    (byStart edits).Pairwise fun e f => e.stop ≤ f.start := by
  refine (pairwise_byStart h).imp fun {e f} hef => ?_
  simp only [Fits, Edit.stop] at hef ⊢
  omega

lemma ordered_of_pairwise (h : edits.Pairwise fun e f => e.stop ≤ f.start) :
    ordered edits = edits :=
  (h.imp Edit.Before.of_stop_le).insertionSort_eq

/-- Edits that fit are made, from the last in the file to the first, all at once. -/
theorem applyAll_byStart (h : edits.Pairwise Fits) (hstop : ∀ e ∈ edits, e.stop ≤ l.length) :
    applyAll (byStart edits) l = spliced l 0 (ordered (byStart edits)) := by
  have hpairwise := pairwise_byStart_of_fits h
  have horder : InOrder l.length 0 (byStart edits) :=
    inOrder_of_pairwise (Nat.zero_le _) (fun _ _ => Nat.zero_le _)
      (fun e he => hstop e (mem_byStart.mp he)) hpairwise
  rw [applyAll_eq horder, ordered_of_pairwise hpairwise]
  rfl

/-! ### Insertions after the edit of the range -/

lemma applyAll_insertions {p : Nat} (hp : p ≤ l.length)
    (hes : ∀ e ∈ es, e.start = p ∧ e.len = 0) :
    applyAll es l = l.take p ++ (es.flatMap Edit.text ++ l.drop p) := by
  induction es with
  | nil => exact (List.take_append_drop p l).symm
  | cons e es ih =>
    obtain ⟨hstart, hlen⟩ := hes e List.mem_cons_self
    have hstop : e.stop = p := by rw [Edit.stop, hstart, hlen, Nat.add_zero]
    have hrest : applyAll es l = l.take e.stop ++ (es.flatMap Edit.text ++ l.drop p) :=
      hstop ▸ ih fun f hf => hes f (List.mem_cons_of_mem _ hf)
    calc applyAll (e :: es) l = e.apply (applyAll es l) := rfl
      _ = l.take p ++ (e.text ++ (es.flatMap Edit.text ++ l.drop p)) := by
        rw [hrest, apply_take_append (hstop ▸ hp), hstart]
      _ = l.take p ++ ((e :: es).flatMap Edit.text ++ l.drop p) := by
        rw [List.flatMap_cons, List.append_assoc]

section

variable {as ys zs : List (Edit α)} (has : InOrder q.start 0 as)
  (hys : ∀ y ∈ ys, y.start = q.start ∧ y.len = 0) (hzs : InOrder l.length q.stop zs)
include has hys hzs

/-- An edit is made after insertions at its start: it takes off what they have inserted. -/
lemma applyAll_late : applyAll (as ++ q :: (ys ++ zs)) l =
    applyAll as (l.take q.start) ++ (q.text ++
      (ys.flatMap Edit.text ++ (l.drop q.start).take q.len).drop q.len ++ spliced l q.stop zs) := by
  have hstop : q.start + q.len ≤ l.length := hzs.le
  have hmid : l.take q.stop = l.take q.start ++ (l.drop q.start).take q.len := List.take_add
  have htake : (l.take q.start).length = q.start := List.length_take_of_le (by omega)
  have hlen : ((l.drop q.start).take q.len).length = q.len :=
    List.length_take_of_le (by rw [List.length_drop]; omega)
  have hafter : applyAll (ys ++ zs) l = l.take q.start ++ (ys.flatMap Edit.text ++
      ((l.drop q.start).take q.len ++ spliced l q.stop zs)) := by
    rw [applyAll_append, applyAll_eq hzs, applyAll_insertions (p := q.start) _ hys, hmid,
      List.append_assoc, List.take_append_of_le_length htake.ge,
      List.drop_append_of_le_length htake.ge, List.take_of_length_le htake.le,
      List.drop_eq_nil_of_le htake.le, List.nil_append]
    rw [List.length_append, hmid, List.length_append]
    omega
  calc applyAll (as ++ q :: (ys ++ zs)) l = applyAll as (q.apply (applyAll (ys ++ zs) l)) :=
        applyAll_append
    _ = applyAll as (l.take q.start ++ (q.text ++
          (ys.flatMap Edit.text ++ (l.drop q.start).take q.len).drop q.len ++
            spliced l q.stop zs)) := by
        rw [hafter, Edit.apply, List.take_append_of_le_length htake.ge,
          List.take_of_length_le htake.le, List.drop_append, htake, Edit.stop,
          List.drop_eq_nil_of_le (by omega), Nat.add_sub_cancel_left, List.nil_append,
          ← List.append_assoc (ys.flatMap _),
          List.drop_append_of_le_length (by rw [List.length_append]; omega), List.append_assoc]
    _ = _ := applyAll_append_right (htake.symm ▸ has)

/-- The insertions are made after the edit, as they should. -/
lemma applyAll_early : applyAll (as ++ (ys ++ q :: zs)) l =
    applyAll as (l.take q.start) ++ (ys.flatMap Edit.text ++ q.text ++ spliced l q.stop zs) := by
  have hstop : q.start + q.len ≤ l.length := hzs.le
  have htake : (l.take q.start).length = q.start := List.length_take_of_le (by omega)
  have hq : applyAll (q :: zs) l = l.take q.start ++ (q.text ++ spliced l q.stop zs) := by
    rw [← apply_take_append hzs.le, ← applyAll_eq hzs]
    rfl
  rw [applyAll_append, applyAll_append, hq, applyAll_insertions (p := q.start) _ hys,
    List.take_append_of_le_length htake.ge, List.drop_append_of_le_length htake.ge,
    List.take_of_length_le htake.le, List.drop_eq_nil_of_le htake.le, List.nil_append,
    applyAll_append_right (htake.symm ▸ has), List.append_assoc (ys.flatMap Edit.text)]
  rw [List.length_append]
  omega

/-- The two ways agree if what they make of the range is the same. -/
theorem applyAll_late_eq_iff :
    applyAll (as ++ q :: (ys ++ zs)) l = applyAll (as ++ (ys ++ q :: zs)) l ↔
      q.text ++ (ys.flatMap Edit.text ++ (l.drop q.start).take q.len).drop q.len =
        ys.flatMap Edit.text ++ q.text := by
  rw [applyAll_late has hys hzs, applyAll_early has hys hzs, List.append_cancel_left_eq,
    List.append_cancel_right_eq]

end

lemma ordered_append (hes : es.Pairwise Edit.Before) (hfs : ∀ e ∈ es, ∀ f ∈ fs, e.Before f) :
    ordered (es ++ fs) = es ++ ordered fs := by
  induction es with
  | nil => rfl
  | cons e es ih =>
    obtain ⟨he, hes⟩ := List.pairwise_cons.mp hes
    have hrest := ih hes fun f hf => hfs f (List.mem_cons_of_mem _ hf)
    have hbefore : ∀ f ∈ es ++ fs, e.Before f := fun f hf =>
      (List.mem_append.mp hf).elim (he f) (hfs e List.mem_cons_self f)
    calc ordered (e :: es ++ fs) = e :: ordered (es ++ fs) :=
          List.insertionSort_cons_of_forall_rel _ hbefore
      _ = e :: es ++ ordered fs := congrArg (e :: ·) hrest

lemma ordered_cons_append {ys zs : List (Edit α)} (hys : ∀ y ∈ ys, ¬ q.Before y)
    (hzs : ∀ z ∈ zs, q.Before z) (hpairwise : (ys ++ zs).Pairwise Edit.Before) :
    ordered (q :: (ys ++ zs)) = ys ++ q :: zs := by
  have hsorted : ordered (q :: (ys ++ zs)) = (ys ++ zs).orderedInsert Edit.Before q :=
    congrArg (List.orderedInsert _ q) hpairwise.insertionSort_eq
  rw [hsorted, List.orderedInsert_eq_take_drop, List.takeWhile_append_of_pos (by simpa using hys),
    List.dropWhile_append_of_pos (by simpa using hys)]
  cases zs with
  | nil => simp
  | cons z zs => simp [hzs z List.mem_cons_self]

section

variable {bs cs : List (Edit α)}

/-- All edits fit, but for insertions at the start of `q` that come after it. -/
structure FitsButLate (q : Edit α) (bs cs : List (Edit α)) : Prop where
  len_pos : 0 < q.len
  others : (bs ++ cs).Pairwise Fits
  before : ∀ b ∈ bs, Fits b q
  after : ∀ c ∈ cs, Fits q c ∨ c.start = q.start ∧ c.len = 0

/-- The insertions at the start of `q`. -/
def lateInsertions (q : Edit α) (cs : List (Edit α)) : List (Edit α) :=
  cs.filter fun c => c.start = q.start

lemma FitsButLate.late (h : FitsButLate q bs cs) {y : Edit α} (hy : y ∈ lateInsertions q cs) :
    y.start = q.start ∧ y.len = 0 := by
  obtain ⟨hmem, hstart⟩ := List.mem_filter.mp hy
  have hstart : y.start = q.start := of_decide_eq_true hstart
  have hpos := h.len_pos
  have hafter := h.after y hmem
  simp only [Fits, Edit.stop] at hafter
  omega

lemma FitsButLate.pairwise_byStart (h : FitsButLate q bs cs) :
    (byStart (bs ++ q :: cs)).Pairwise fun e f =>
      e.stop ≤ f.start ∨ e = q ∧ f.start = q.start ∧ f.len = 0 := by
  obtain ⟨hbs, hcs, hbc⟩ := List.pairwise_append.mp h.others
  have hpairwise : (bs ++ q :: cs).Pairwise fun e f =>
      Fits e f ∨ e = q ∧ f.start = q.start ∧ f.len = 0 := by
    refine List.pairwise_append.mpr ⟨hbs.imp .inl, List.pairwise_cons.mpr ⟨fun c hc => ?_,
      hcs.imp .inl⟩, fun b hb c hc => ?_⟩
    · exact (h.after c hc).imp_right fun hlate => ⟨rfl, hlate⟩
    · rcases List.mem_cons.mp hc with rfl | hc
      · exact .inl (h.before b hb)
      · exact .inl (hbc b hb c hc)
  refine (Splice.pairwise_byStart hpairwise).imp fun {e f} hef => ?_
  simp only [Fits, Edit.stop] at hef ⊢
  rcases hef with ⟨hlt, (hef | ⟨rfl, hstart, -⟩) | hef | ⟨rfl, hstart, hlen⟩⟩ | ⟨heq, hef | hlate⟩
  all_goals first | omega | exact .inr hlate

/-- The late insertions come first of what is sorted behind `q`. -/
lemma late_prefix {ds : List (Edit α)} (hds : ds.Pairwise fun e f => e.stop ≤ f.start)
    (hqd : ∀ d ∈ ds, q.stop ≤ d.start ∨ d.start = q.start) :
    ∃ ys zs, ds = ys ++ zs ∧ (∀ y ∈ ys, y.start = q.start) ∧ ∀ z ∈ zs, q.stop ≤ z.start := by
  induction ds with
  | nil => exact ⟨[], [], rfl, nofun, nofun⟩
  | cons d ds ih =>
    obtain ⟨hd, hds⟩ := List.pairwise_cons.mp hds
    rcases hqd d List.mem_cons_self with hfirst | hlate
    · refine ⟨[], d :: ds, rfl, nofun, fun z hz => ?_⟩
      rcases List.mem_cons.mp hz with rfl | hz
      · exact hfirst
      · exact hfirst.trans ((Nat.le_add_right _ _).trans (hd z hz))
    · obtain ⟨ys, zs, rfl, hys, hzs⟩ := ih hds fun z hz => hqd z (List.mem_cons_of_mem _ hz)
      exact ⟨d :: ys, zs, rfl, List.forall_mem_cons.mpr ⟨hlate, hys⟩, hzs⟩

/-- Where `q` and the late insertions are among the sorted edits. -/
lemma FitsButLate.split (h : FitsButLate q bs cs)
    (hstop : ∀ e ∈ bs ++ q :: cs, e.stop ≤ n) :
    ∃ as zs, byStart (bs ++ q :: cs) = as ++ q :: (lateInsertions q cs ++ zs) ∧
      as.Pairwise (fun e f => e.stop ≤ f.start) ∧ (∀ a ∈ as, a.stop ≤ q.start) ∧
      zs.Pairwise (fun e f => e.stop ≤ f.start) ∧ (∀ z ∈ zs, q.stop ≤ z.start) ∧
      ∀ z ∈ zs, z.stop ≤ n := by
  have hpos := h.len_pos
  obtain ⟨as, ds, hsplit⟩ :=
    List.append_of_mem (mem_byStart.mpr (List.mem_append_right bs (List.mem_cons_self (a := q))))
  have hpairwise := h.pairwise_byStart
  rw [hsplit, List.pairwise_append, List.pairwise_cons] at hpairwise
  obtain ⟨has, ⟨hqd, hds⟩, hasq⟩ := hpairwise
  have hself : ¬ (q.stop ≤ q.start ∨ q = q ∧ q.start = q.start ∧ q.len = 0) := by
    simp only [Edit.stop]
    omega
  have hqas : q ∉ as := fun hmem => hself (hasq q hmem q List.mem_cons_self)
  have hqds : q ∉ ds := fun hmem => hself (hqd q hmem)
  have horder : ∀ {es : List (Edit α)}, q ∉ es →
      es.Pairwise (fun e f => e.stop ≤ f.start ∨ e = q ∧ f.start = q.start ∧ f.len = 0) →
      es.Pairwise fun e f => e.stop ≤ f.start := fun hq hes =>
    hes.imp_of_mem fun he _ hef => hef.resolve_right fun hlate => hq (hlate.1 ▸ he)
  have hds := horder hqds hds
  obtain ⟨ys, zs, rfl, hys, hzs⟩ := late_prefix hds fun d hd => (hqd d hd).imp_right (·.2.1)
  have hlate : lateInsertions q cs = ys := by
    have hfilter := filter_byStart (bs ++ q :: cs) q.start
    have hyfilter : ys.filter (fun e => e.start = q.start) = ys :=
      List.filter_eq_self.mpr fun y hy => decide_eq_true (hys y hy)
    have hzfilter : zs.filter (fun e => e.start = q.start) = [] :=
      List.filter_eq_nil_iff.mpr fun z hz => by
        have := hzs z hz
        simp only [Edit.stop, decide_eq_true_eq] at this ⊢
        omega
    rw [hsplit] at hfilter
    simp only [List.filter_append, List.filter_cons, decide_true, if_true] at hfilter
    rw [hyfilter, hzfilter, List.append_nil] at hfilter
    exact ((List.append_cons_inj_of_notMem (fun hq => hqas (List.mem_of_mem_filter hq))
      fun hq => hqds (List.mem_append_left _ hq)).mp hfilter).2.2.symm
  refine ⟨as, zs, by rw [hsplit, hlate], horder hqas has, fun a ha => ?_,
    (List.pairwise_append.mp hds).2.1, hzs, fun z hz => ?_⟩
  · exact (hasq a ha q List.mem_cons_self).resolve_right fun hlate => hqas (hlate.1 ▸ ha)
  · refine hstop z (mem_byStart.mp ?_)
    rw [hsplit]
    exact List.mem_append_right _ (List.mem_cons_of_mem _ (List.mem_append_right _ hz))

/-- The sorted edits, and the order in which they would do what they do at once. -/
lemma FitsButLate.normal (h : FitsButLate q bs cs)
    (hstop : ∀ e ∈ bs ++ q :: cs, e.stop ≤ l.length) :
    ∃ as zs, InOrder q.start 0 as ∧ InOrder l.length q.stop zs ∧
      byStart (bs ++ q :: cs) = as ++ q :: (lateInsertions q cs ++ zs) ∧
      spliced l 0 (ordered (byStart (bs ++ q :: cs))) =
        applyAll (as ++ (lateInsertions q cs ++ q :: zs)) l := by
  obtain ⟨as, zs, hsplit, has, hasq, hzs, hqz, hzstop⟩ := h.split hstop
  have hq : q.stop ≤ l.length := hstop q (List.mem_append_right _ List.mem_cons_self)
  have hpos := h.len_pos
  have hasOrder : InOrder q.start 0 as :=
    inOrder_of_pairwise (Nat.zero_le _) (fun _ _ => Nat.zero_le _) hasq has
  have hzsOrder : InOrder l.length q.stop zs := inOrder_of_pairwise hq hqz hzstop hzs
  set ys := lateInsertions q cs with hys
  have hlate : ∀ y ∈ ys, y.start = q.start ∧ y.len = 0 := fun y hy => h.late hy
  have hyz : ∀ y ∈ ys, ∀ z ∈ q :: zs, y.stop ≤ z.start := fun y hy z hz => by
    obtain ⟨hstart, hlen⟩ := hlate y hy
    rcases List.mem_cons.mp hz with rfl | hz
    · simp [Edit.stop, hstart, hlen]
    · have := hqz z hz
      simp only [Edit.stop] at this ⊢
      omega
  have hyy : ys.Pairwise fun e f => e.stop ≤ f.start :=
    List.pairwise_of_forall_mem_list fun y hy y' hy' => by
      simp [Edit.stop, hlate y hy, hlate y' hy']
  have hgood : (as ++ (ys ++ q :: zs)).Pairwise fun e f => e.stop ≤ f.start := by
    refine List.pairwise_append.mpr ⟨has, List.pairwise_append.mpr ⟨hyy,
      List.pairwise_cons.mpr ⟨hqz, hzs⟩, hyz⟩, fun a ha f hf => ?_⟩
    have hstart : q.start ≤ f.start := by
      rcases List.mem_append.mp hf with hf | hf
      · exact (hlate f hf).1.ge
      · rcases List.mem_cons.mp hf with rfl | hf
        · exact Nat.le_refl _
        · exact (Nat.le_add_right _ _).trans (hqz f hf)
    exact (hasq a ha).trans hstart
  have hgoodOrder : InOrder l.length 0 (as ++ (ys ++ q :: zs)) := by
    refine inOrder_of_pairwise (Nat.zero_le _) (fun _ _ => Nat.zero_le _) (fun e he => ?_) hgood
    have hmem : e ∈ byStart (bs ++ q :: cs) := by
      rw [hsplit]
      simp only [List.mem_append, List.mem_cons] at he ⊢
      tauto
    exact hstop e (mem_byStart.mp hmem)
  have hordered : ordered (byStart (bs ++ q :: cs)) = as ++ (ys ++ q :: zs) := by
    have hbefore := hgood.imp Edit.Before.of_stop_le
    obtain ⟨has', hrest, hbetween⟩ := List.pairwise_append.mp hbefore
    have hsub : (ys ++ zs).Sublist (ys ++ q :: zs) :=
      (List.Sublist.refl _).append (List.sublist_cons_self _ _)
    rw [hsplit, ordered_append has' fun a ha f hf => hbetween a ha f ?_,
      ordered_cons_append (fun y hy => ?_) (fun z hz => .of_stop_le (hqz z hz))
        (hrest.sublist hsub)]
    · have := hlate y hy
      simp only [Edit.Before]
      omega
    · simp only [List.mem_append, List.mem_cons] at hf ⊢
      tauto
  refine ⟨as, zs, hasOrder, hzsOrder, hsplit, ?_⟩
  rw [hordered, applyAll_eq hgoodOrder]
  rfl

/-- What edits that fit but for late insertions make is what they make at once if the text of the
range is the same. -/
theorem FitsButLate.applyAll_byStart (h : FitsButLate q bs cs)
    (hstop : ∀ e ∈ bs ++ q :: cs, e.stop ≤ l.length) :
    applyAll (byStart (bs ++ q :: cs)) l = spliced l 0 (ordered (byStart (bs ++ q :: cs))) ↔
      q.text ++ ((lateInsertions q cs).flatMap Edit.text ++
          (l.drop q.start).take q.len).drop q.len =
        (lateInsertions q cs).flatMap Edit.text ++ q.text := by
  obtain ⟨as, zs, has, hzs, hsorted, hspliced⟩ := h.normal hstop
  rw [hspliced, hsorted, applyAll_late_eq_iff has (fun _ => h.late) hzs]

/-- Late insertions leave the length as it should be. -/
lemma FitsButLate.length_applyAll (h : FitsButLate q bs cs)
    (hstop : ∀ e ∈ bs ++ q :: cs, e.stop ≤ l.length) :
    (applyAll (byStart (bs ++ q :: cs)) l).length =
      (spliced l 0 (ordered (byStart (bs ++ q :: cs)))).length := by
  obtain ⟨as, zs, has, hzs, hsorted, hspliced⟩ := h.normal hstop
  have hle : q.start + q.len ≤ l.length := hzs.le
  have hmid : ((l.drop q.start).take q.len).length = q.len :=
    List.length_take_of_le (by rw [List.length_drop]; omega)
  rw [hspliced, hsorted, applyAll_late has (fun _ => h.late) hzs,
    applyAll_early has (fun _ => h.late) hzs]
  simp only [List.length_append, List.length_drop, hmid]
  omega

end

end Splice
