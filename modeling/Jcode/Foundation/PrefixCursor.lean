import Jcode.Foundation.Run
import Mathlib.Data.List.Basic
import Mathlib.Order.Lattice

/-!
# Cursors that compact the front of a log

A log grows at its end while a cursor moves over its front: the first `count` entries have been
compacted. Compacting happens at once (`drop`) or in the background: `start` hands a slice of
the log to a job, `apply` advances the cursor by the length of that slice, possibly much later.
Every advance remembers the slice it was made for.

Two questions are answered for arbitrary entries. When is every entry behind the cursor one that
its advance was made for (`Covered`)? And, when the log may also be truncated, when is the log
its compacted entries followed by the others (`Summarised`)?
-/

namespace PrefixCursor

open Schedule

universe u
variable {α : Type u}

/-- A part of the log, cut out at `start`. -/
structure Slice (α : Type u) where
  start : Nat
  entries : List α

/-- The cursor moved from `before` to `after` for `slice`. -/
structure Advance (α : Type u) where
  before : Nat
  after : Nat
  slice : Slice α

structure Cursor (α : Type u) where
  log : List α
  count : Nat
  pending : Option (Slice α)
  advances : List (Advance α)

inductive Op (α : Type u)
  | append (x : α)
  | truncate (n : Nat)
  | start (k : Nat)
  | cancel
  | drop (k : Nat)
  | apply

namespace Cursor

variable (c : Cursor α)

/-- Where the entries still to compact begin; a cursor beyond the log counts for nothing. -/
def activeStart : Nat := if c.count ≤ c.log.length then c.count else 0

def active : List α := c.log.drop c.activeStart

/-- The first `k` entries still to compact. -/
def cut (k : Nat) : Slice α := ⟨c.activeStart, c.active.take k⟩

def advance (slice : Slice α) : Cursor α :=
  { c with
    count := c.count + slice.entries.length
    advances := c.advances ++ [⟨c.count, c.count + slice.entries.length, slice⟩] }

def step : Op α → Option (Cursor α)
  | .append x => some { c with log := c.log ++ [x] }
  | .truncate n => some { c with log := c.log.take n }
  | .start k =>
    if c.pending.isNone ∧ 0 < k ∧ k ≤ c.active.length then some { c with pending := some (c.cut k) }
    else none
  | .cancel => some { c with pending := none }
  | .drop k => if 0 < k ∧ k ≤ c.active.length then some (c.advance (c.cut k)) else none
  | .apply => c.pending.map fun slice => { c with pending := none }.advance slice

end Cursor

variable {c d : Cursor α} {op : Op α} {k : Nat}

lemma Cursor.activeStart_of_le (h : c.count ≤ c.log.length) : c.activeStart = c.count := if_pos h

lemma Cursor.activeStart_le_count : c.activeStart ≤ c.count := by
  unfold Cursor.activeStart
  split_ifs <;> omega

lemma Cursor.cut_entries_length (h : k ≤ c.active.length) : (c.cut k).entries.length = k := by
  simp [Cursor.cut, h]

/-- A cut depends on the log and the count only. -/
lemma Cursor.cut_congr (hlog : d.log = c.log) (hcount : d.count = c.count) : d.cut k = c.cut k := by
  simp only [Cursor.cut, Cursor.active, Cursor.activeStart, hlog, hcount]

/-! ### What each operation can do -/

/-- The rules of `Cursor.step`. -/
inductive Rule (c d : Cursor α) : Op α → Prop
  | append (x : α) (hd : d = { c with log := c.log ++ [x] }) : Rule c d (.append x)
  | truncate (n : Nat) (hd : d = { c with log := c.log.take n }) : Rule c d (.truncate n)
  | start (k : Nat) (hp : c.pending = none) (hk : 0 < k) (hle : k ≤ c.active.length)
      (hd : d = { c with pending := some (c.cut k) }) : Rule c d (.start k)
  | cancel (hd : d = { c with pending := none }) : Rule c d .cancel
  | drop (k : Nat) (hk : 0 < k) (hle : k ≤ c.active.length) (hd : d = c.advance (c.cut k)) :
    Rule c d (.drop k)
  | apply (slice : Slice α) (hp : c.pending = some slice)
      (hd : d = { c with pending := none }.advance slice) : Rule c d .apply

lemma Rule.of_step (h : c.step op = some d) : Rule c d op := by
  cases op with
  | append x =>
    cases h
    exact .append x rfl
  | truncate n =>
    cases h
    exact .truncate n rfl
  | start k =>
    simp only [Cursor.step] at h
    split_ifs at h with hk
    cases h
    exact .start k (Option.isNone_iff_eq_none.mp hk.1) hk.2.1 hk.2.2 rfl
  | cancel =>
    cases h
    exact .cancel rfl
  | drop k =>
    simp only [Cursor.step] at h
    split_ifs at h with hk
    cases h
    exact .drop k hk.1 hk.2 rfl
  | apply =>
    obtain ⟨slice, hp, hd⟩ := Option.map_eq_some_iff.mp h
    exact .apply slice hp hd.symm

/-! ### Entries behind the cursor -/

def Advance.Over (a : Advance α) (i : Nat) : Prop := a.before ≤ i ∧ i < a.after

/-- Entry `i` of the log is a member of the slice. -/
def Slice.Holds (slice : Slice α) (log : List α) (i : Nat) : Prop :=
  slice.start ≤ i ∧ ∃ x, slice.entries[i - slice.start]? = some x ∧ log[i]? = some x

/-- The cursor is inside the log, and each entry behind it was a member of the slice that was
handed to the compaction which advanced the cursor over it. -/
def Covered (c : Cursor α) : Prop :=
  c.count ≤ c.log.length ∧ ∀ i < c.count,
    (∃ a ∈ c.advances, a.Over i) ∧ ∀ a ∈ c.advances, a.Over i → a.slice.Holds c.log i

/-- The job that is applied was started where the cursor still stands. -/
def AppliesFresh (c : Cursor α) (op : Op α) : Prop :=
  op = .apply → ∀ slice, c.pending = some slice → slice.start = c.count

/-- The log is never cut. -/
def Grows (_ : Cursor α) (op : Op α) : Prop := ∀ n, op ≠ .truncate n

/-- The advances lead up to the cursor, and the pending slice is a part of the log from a
place the cursor has reached. -/
structure Tracked (c : Cursor α) : Prop where
  ended : ∀ a ∈ c.advances, a.after ≤ c.count
  tiled : ∀ i < c.count, ∃ a ∈ c.advances, a.Over i
  handed : ∀ slice, c.pending = some slice →
    slice.start ≤ c.count ∧ slice.entries ≠ [] ∧ slice.entries <+: c.log.drop slice.start

lemma Tracked.of_empty {log : List α} : Tracked (⟨log, 0, none, []⟩ : Cursor α) := by
  constructor <;> simp

lemma Tracked.cancel (h : Tracked c) : Tracked { c with pending := none } :=
  ⟨h.ended, h.tiled, fun _ hp => nomatch hp⟩

lemma Tracked.advance {slice : Slice α} (h : Tracked c) : Tracked (c.advance slice) where
  ended a ha := by
    rcases List.mem_append.mp ha with ha | ha
    · exact (h.ended a ha).trans (Nat.le_add_right _ _)
    · simp [List.mem_singleton.mp ha, Cursor.advance]
  tiled i hi := by
    by_cases hc : i < c.count
    · obtain ⟨a, ha, ho⟩ := h.tiled i hc
      exact ⟨a, List.mem_append_left _ ha, ho⟩
    · exact ⟨_, List.mem_append_right _ (List.mem_singleton_self _), not_lt.mp hc, hi⟩
  handed slice hs := by
    obtain ⟨hle, hne, hpre⟩ := h.handed slice hs
    exact ⟨hle.trans (Nat.le_add_right _ _), hne, hpre⟩

/-- A slice cut now is a part of the log. -/
lemma Cursor.cut_prefix : (c.cut k).entries <+: c.log.drop (c.cut k).start :=
  List.take_prefix k _

lemma Tracked.step (h : Tracked c) (hg : Grows c op) (hs : c.step op = some d) : Tracked d := by
  cases Rule.of_step hs with
  | append x hd =>
    subst hd
    refine ⟨h.ended, h.tiled, fun slice hp => ?_⟩
    obtain ⟨hle, hne, hpre⟩ := h.handed slice hp
    refine ⟨hle, hne, hpre.trans ?_⟩
    rw [List.drop_append]
    exact List.prefix_append _ _
  | truncate n hd => exact (hg n rfl).elim
  | start k hp hk hle hd =>
    subst hd
    refine ⟨h.ended, h.tiled, fun slice hsl => ?_⟩
    cases hsl
    refine ⟨Cursor.activeStart_le_count, ?_, Cursor.cut_prefix⟩
    rw [← List.length_pos_iff, Cursor.cut_entries_length hle]
    exact hk
  | cancel hd =>
    subst hd
    exact h.cancel
  | drop k hk hle hd =>
    subst hd
    exact h.advance
  | apply slice hp hd =>
    subst hd
    exact h.cancel.advance

/-- An entry of a part of the log, seen in the slice. -/
lemma Slice.holds_of_prefix {slice : Slice α} {log : List α} {i : Nat}
    (hpre : slice.entries <+: log.drop slice.start) (hle : slice.start ≤ i)
    (hlt : i < slice.start + slice.entries.length) : slice.Holds log i := by
  have hi : i - slice.start < slice.entries.length := by omega
  refine ⟨hle, slice.entries[i - slice.start], List.getElem?_eq_getElem hi, ?_⟩
  have h := List.prefix_iff_getElem?.mp hpre (i - slice.start) hi
  rwa [List.getElem?_drop, Nat.add_sub_cancel' hle] at h

/-- An advance by a slice which was cut where the cursor stands covers what it passes. -/
lemma Covered.advance {slice : Slice α} (hc : Covered c) (h : Tracked c)
    (hstart : slice.start = c.count) (hpre : slice.entries <+: c.log.drop slice.start) :
    Covered (c.advance slice) := by
  have hlen := hpre.length_le
  rw [List.length_drop, hstart] at hlen
  have hin := hc.1
  refine ⟨by simp only [Cursor.advance]; omega,
    fun i hi => ⟨h.advance.tiled i hi, fun a ha ho => ?_⟩⟩
  rcases List.mem_append.mp ha with ha | ha
  · exact (hc.2 i (ho.2.trans_le (h.ended a ha))).2 a ha ho
  · rw [List.mem_singleton.mp ha] at ho ⊢
    exact Slice.holds_of_prefix hpre (hstart ▸ ho.1) (hstart ▸ ho.2)

lemma Covered.append {x : α} (hc : Covered c) : Covered { c with log := c.log ++ [x] } := by
  refine ⟨by simpa using Nat.le_succ_of_le hc.1, fun i hi => ⟨(hc.2 i hi).1, fun a ha ho => ?_⟩⟩
  obtain ⟨hle, y, hy, hlog⟩ := (hc.2 i hi).2 a ha ho
  refine ⟨hle, y, hy, ?_⟩
  rw [List.getElem?_append_left (lt_of_lt_of_le hi hc.1), hlog]

/-- Covering is kept by every operation whose job is fresh. -/
lemma Covered.step (hc : Covered c) (h : Tracked c) (hg : Grows c op) (hf : AppliesFresh c op)
    (hs : c.step op = some d) : Covered d := by
  cases Rule.of_step hs with
  | append x hd =>
    subst hd
    exact hc.append
  | truncate n hd => exact (hg n rfl).elim
  | start k hp hk hle hd =>
    subst hd
    exact hc
  | cancel hd =>
    subst hd
    exact hc
  | drop k hk hle hd =>
    subst hd
    exact hc.advance h (Cursor.activeStart_of_le hc.1) Cursor.cut_prefix
  | apply slice hp hd =>
    subst hd
    obtain ⟨-, -, hpre⟩ := h.handed slice hp
    exact Covered.advance (c := { c with pending := none }) hc h.cancel (hf rfl slice hp) hpre

/-- A job that is applied after the cursor has moved on leaves an entry behind the cursor which
it was not handed. -/
lemma not_covered_of_stale (h : Tracked c) (hf : ¬ AppliesFresh c op) (hs : c.step op = some d) :
    ¬ Covered d := by
  simp only [AppliesFresh, not_forall] at hf
  obtain ⟨rfl, slice, hp, hne⟩ := hf
  cases Rule.of_step hs with
  | apply slice' hp' hd =>
    cases hp.symm.trans hp'
    obtain ⟨hle, hnil, -⟩ := h.handed slice hp
    have hpos := List.length_pos_iff.mpr hnil
    subst hd
    intro hcov
    -- the last entry passed lies beyond the end of the slice
    have hlast := hcov.2 (c.count + slice.entries.length - 1)
      (by simp only [Cursor.advance]; omega)
    obtain ⟨-, x, hx, -⟩ := hlast.2 ⟨c.count, c.count + slice.entries.length, slice⟩
      (List.mem_append_right _ (List.mem_singleton_self _)) (by simp only [Advance.Over]; omega)
    rw [List.getElem?_eq_none (by simp only; omega)] at hx
    cases hx

/-! ### Logs that are also truncated -/

/-- The entries which the advances were made for, in order. -/
def Cursor.compacted (c : Cursor α) : List α := c.advances.flatMap (·.slice.entries)

/-- The log begins with the entries that were compacted, and the cursor stands behind them. -/
def Summarised (c : Cursor α) : Prop :=
  c.count ≤ c.log.length ∧ c.compacted = c.log.take c.count

/-- A truncation leaves what was compacted, and a job is applied to the entries it was handed. -/
def KeepsCompacted (c : Cursor α) : Op α → Prop
  | .truncate n => c.count ≤ n
  | .apply => ∀ slice, c.pending = some slice → slice.entries <+: c.log.drop c.count
  | _ => True

lemma Summarised.advance {slice : Slice α} (h : Summarised c)
    (hpre : slice.entries <+: c.log.drop c.count) : Summarised (c.advance slice) := by
  have hlen := hpre.length_le
  rw [List.length_drop] at hlen
  have hin := h.1
  refine ⟨by simp only [Cursor.advance]; omega, ?_⟩
  have hcomp : (c.advance slice).compacted = c.compacted ++ slice.entries := by
    simp [Cursor.compacted, Cursor.advance]
  rw [hcomp, h.2, List.prefix_iff_eq_take.mp hpre]
  simp only [Cursor.advance, List.take_add, ← List.prefix_iff_eq_take.mp hpre]

/-- Every operation that leaves the compacted entries alone keeps the log summarised. -/
lemma Summarised.step (h : Summarised c) (hk : KeepsCompacted c op) (hs : c.step op = some d) :
    Summarised d := by
  cases Rule.of_step hs with
  | append x hd =>
    subst hd
    refine ⟨by simpa using Nat.le_succ_of_le h.1, ?_⟩
    rw [List.take_append_of_le_length h.1]
    exact h.2
  | truncate n hd =>
    subst hd
    refine ⟨?_, ?_⟩
    · rw [List.length_take]
      exact le_min hk h.1
    · rw [List.take_take, min_eq_left hk]
      exact h.2
  | start k hp hk' hle hd =>
    subst hd
    exact h
  | cancel hd =>
    subst hd
    exact h
  | drop k hk' hle hd =>
    subst hd
    refine h.advance ?_
    have hpre := Cursor.cut_prefix (c := c) (k := k)
    rwa [show (c.cut k).start = c.count from Cursor.activeStart_of_le h.1] at hpre
  | apply slice hp hd =>
    subst hd
    exact Summarised.advance (c := { c with pending := none }) h (hk slice hp)

/-- A summarised log is its compacted entries followed by the active ones. -/
lemma Summarised.log_eq (h : Summarised c) : c.log = c.compacted ++ c.active := by
  rw [h.2, Cursor.active, Cursor.activeStart_of_le h.1, List.take_append_drop]

end PrefixCursor
