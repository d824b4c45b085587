import Mathlib.Tactic.Common
import Mathlib.Data.List.Basic

/-!
# Append-only logs of lines

A log file holds one record a line. It is written by appending a record and the newline, and read
line by line until the first line that is not a record. The characters, the records and the
encoding are arbitrary.

If encoded records hold no newline, a file of complete lines reads as the records it was written
from. A line that was torn stays in the file: whatever is appended joins it, and reading stops
there.
-/

namespace LineLog

universe u v
variable {α : Type u} {ρ : Type v}

/-! ### Lines -/

/-- The content written for some lines. -/
def frame (nl : α) (ls : List (List α)) : List α := ls.flatMap (· ++ [nl])

lemma frame_cons {nl : α} {line : List α} {ls : List (List α)} :
    frame nl (line :: ls) = line ++ nl :: frame nl ls := by
  simp [frame]

lemma frame_append {nl : α} {ls ls' : List (List α)} :
    frame nl (ls ++ ls') = frame nl ls ++ frame nl ls' :=
  List.flatMap_append

lemma append_cons_injective {nl : α} {l l' rest rest' : List α} (hl : nl ∉ l) (hl' : nl ∉ l')
    (h : l ++ nl :: rest = l' ++ nl :: rest') : l = l' ∧ rest = rest' := by
  induction l generalizing l' with
  | nil =>
    cases l' with
    | nil => exact ⟨rfl, (List.cons.inj h).2⟩
    | cons x l' => exact absurd ((List.cons.inj h).1 ▸ List.mem_cons_self) hl'
  | cons x l ih =>
    cases l' with
    | nil => exact absurd ((List.cons.inj h).1 ▸ List.mem_cons_self) hl
    | cons y l' =>
      obtain ⟨rfl, htail⟩ := List.cons.inj h
      obtain ⟨rfl, hrest⟩ := ih (mt (List.mem_cons_of_mem x) hl)
        (mt (List.mem_cons_of_mem x) hl') htail
      exact ⟨rfl, hrest⟩

/-- Lines without newlines can be told from what is written for them. -/
lemma frame_injective {nl : α} {ls ls' : List (List α)} (h : ∀ l ∈ ls, nl ∉ l)
    (h' : ∀ l ∈ ls', nl ∉ l) (heq : frame nl ls = frame nl ls') : ls = ls' := by
  induction ls generalizing ls' with
  | nil =>
    cases ls' with
    | nil => rfl
    | cons l' ls' => simp [frame] at heq
  | cons l ls ih =>
    cases ls' with
    | nil => simp [frame] at heq
    | cons l' ls' =>
      obtain ⟨hl, hls⟩ := List.forall_mem_cons.mp h
      obtain ⟨hl', hls'⟩ := List.forall_mem_cons.mp h'
      rw [frame_cons, frame_cons] at heq
      obtain ⟨rfl, hrest⟩ := append_cons_injective hl hl' heq
      rw [ih hls hls' hrest]

section

variable [DecidableEq α] (nl cr : α)

/-- A carriage return before the newline belongs to the line ending. -/
def stripCr (line : List α) : List α :=
  if line.getLast? = some cr then line.dropLast else line

/-- Read lines with the part of the current line already read; the last one may be unfinished. -/
def linesFrom (current : List α) : List α → List (List α)
  | [] => if current = [] then [] else [current]
  | x :: xs =>
    if x = nl then stripCr cr current :: linesFrom [] xs else linesFrom (current ++ [x]) xs

def lines (content : List α) : List (List α) := linesFrom nl cr [] content

attribute [local simp] linesFrom

variable {nl cr} {line current rest : List α} {ls : List (List α)}

lemma stripCr_of_ne (h : line.getLast? ≠ some cr) : stripCr cr line = line := if_neg h

lemma linesFrom_line (h : nl ∉ line) :
    linesFrom nl cr current (line ++ nl :: rest) =
      stripCr cr (current ++ line) :: lines nl cr rest := by
  induction line generalizing current with
  | nil => simp [lines]
  | cons x line ih =>
    obtain ⟨hx, hl⟩ := not_or.mp (mt List.mem_cons.mpr h)
    rw [List.cons_append, linesFrom, if_neg (Ne.symm hx), ih hl, List.append_assoc,
      List.singleton_append]

lemma linesFrom_unfinished (h : nl ∉ line) :
    linesFrom nl cr current line = if current ++ line = [] then [] else [current ++ line] := by
  induction line generalizing current with
  | nil => rw [linesFrom, List.append_nil]
  | cons x line ih =>
    obtain ⟨hx, hl⟩ := not_or.mp (mt List.mem_cons.mpr h)
    rw [linesFrom, if_neg (Ne.symm hx), ih hl, List.append_assoc, List.singleton_append]

lemma notMem_stripCr (h : nl ∉ line) : nl ∉ stripCr cr line := by
  rw [stripCr]
  split_ifs
  · exact fun hmem => h ((List.dropLast_sublist _).subset hmem)
  · exact h

/-- A line has no newline. -/
lemma notMem_of_mem_linesFrom {content : List α} (hcurrent : nl ∉ current)
    (h : line ∈ linesFrom nl cr current content) : nl ∉ line := by
  induction content generalizing current with
  | nil =>
    rw [linesFrom] at h
    split_ifs at h
    · cases h
    · rwa [List.mem_singleton.mp h]
  | cons x xs ih =>
    rw [linesFrom] at h
    split_ifs at h with hx
    · rcases List.mem_cons.mp h with rfl | h
      · exact notMem_stripCr hcurrent
      · exact ih List.not_mem_nil h
    · refine ih (fun hmem => ?_) h
      rcases List.mem_append.mp hmem with hmem | hmem
      · exact hcurrent hmem
      · exact hx (List.mem_singleton.mp hmem).symm

lemma notMem_of_mem_lines {content : List α} (h : line ∈ lines nl cr content) : nl ∉ line :=
  notMem_of_mem_linesFrom List.not_mem_nil h

/-- The first line of a content. -/
lemma lines_line (h : nl ∉ line) :
    lines nl cr (line ++ nl :: rest) = stripCr cr line :: lines nl cr rest :=
  linesFrom_line h

/-- A content without newline is one unfinished line. -/
lemma lines_unfinished (h : nl ∉ line) :
    lines nl cr line = if line = [] then [] else [line] :=
  linesFrom_unfinished h

lemma length_linesFrom {content : List α} : (linesFrom nl cr current content).length =
    content.count nl +
      if content.getLast? = some nl ∨ current = [] ∧ content = [] then 0 else 1 := by
  induction content generalizing current with
  | nil =>
    rw [linesFrom]
    split_ifs <;> simp_all
  | cons x xs ih =>
    rw [linesFrom]
    by_cases hx : x = nl
    · rw [if_pos hx, List.length_cons, ih, hx, List.count_cons_self]
      cases xs <;> simp [Nat.add_right_comm]
    · rw [if_neg hx, ih, List.count_cons_of_ne hx]
      cases xs <;> simp [hx]

/-- There is a line for every newline, and one for what stands behind the last. -/
lemma length_lines {content : List α} : (lines nl cr content).length =
    content.count nl + if content.getLast? = some nl ∨ content = [] then 0 else 1 := by
  rw [lines, length_linesFrom]
  simp

/-- Complete lines read as they were written, whatever follows. -/
lemma lines_frame_append (h : ∀ l ∈ ls, nl ∉ l ∧ l.getLast? ≠ some cr) :
    lines nl cr (frame nl ls ++ rest) = ls ++ lines nl cr rest := by
  induction ls with
  | nil => rfl
  | cons l ls ih =>
    obtain ⟨hnl, hcr⟩ := h l List.mem_cons_self
    rw [frame_cons, List.append_assoc, List.cons_append, lines_line hnl, stripCr_of_ne hcr,
      ih fun l' hl' => h l' (List.mem_cons_of_mem l hl'), List.cons_append]

end

/-! ### Records -/

/-- What a reader makes of one line. -/
inductive Outcome (ρ : Type v)
  | invalid
  | blank
  | malformed
  | record (r : ρ)

/-- Read records up to the first malformed line; an invalid line makes the whole read fail. -/
def readRecords (classify : List α → Outcome ρ) : List (List α) → Option (List ρ)
  | [] => some []
  | l :: ls =>
    match classify l with
    | .invalid => none
    | .blank => readRecords classify ls
    | .malformed => some []
    | .record r => (readRecords classify ls).map (r :: ·)

variable {classify : List α → Outcome ρ} {encode : ρ → List α} {rs : List ρ}
  {ls : List (List α)} {l : List α}

lemma readRecords_append (h : ∀ r ∈ rs, classify (encode r) = .record r) :
    readRecords classify (rs.map encode ++ ls) = (readRecords classify ls).map (rs ++ ·) := by
  induction rs with
  | nil => simp
  | cons r rs ih =>
    have hr := h r List.mem_cons_self
    simp [readRecords, hr, ih fun r' hr' => h r' (List.mem_cons_of_mem r hr'),
      Function.comp_def]

end LineLog
