import Jcode.Tool.ApplyPatch
import Mathlib.Data.List.Induction

/-!
# Replacements are made all at once

The ranges of the chunks come one after the other, but for two kinds of chunks that do not look at
the position: those at the end of the file, and insertions, which go before a last line that is
empty. Where these keep off the other ranges, the result is the file with every range replaced.
-/

namespace Jcode

open Splice

/-- One turn of the loop over the chunks. -/
structure Turn (path : String) (lines : List Line) (chunks : List UpdateFileChunk) where
  before : List UpdateFileChunk
  chunk : UpdateFileChunk
  later : List UpdateFileChunk
  earlier : List Replacement
  lineIndex : Nat
  replacement : Replacement
  next : Nat
  chunks_eq : chunks = before ++ chunk :: later
  placed_before : placeChunks path lines 0 before = .ok (earlier, lineIndex)
  placed : placeChunk path lines lineIndex chunk = .ok (replacement, next)

/-- The lines of the pure insertions. -/
def insertedLines (chunks : List UpdateFileChunk) : List Line :=
  (chunks.filter fun chunk => chunk.oldLines = []).flatMap UpdateFileChunk.newLines

/-- Every range is replaced by its text, and all other lines are kept. -/
structure Simultaneous (lines : List Line) (chunks : List UpdateFileChunk)
    (replacements : List Replacement) : Prop where
  inBounds : ∀ r ∈ replacements, r.stop ≤ lines.length
  disjoint : replacements.Pairwise Edit.Apart
  applied : applyReplacements lines replacements =
    some (spliced lines 0 (ordered replacements))
  ofChunks : ∃ placed : List Replacement, placed.Perm replacements ∧
    List.Forall₂ IsTextOf chunks placed
  contiguous : ∀ r ∈ replacements, r.text <:+: spliced lines 0 (ordered replacements)

section

variable {path : String} {lines : List Line} {chunks : List UpdateFileChunk}

/-- The new lines for an empty last line and those of the later insertions come out in order. -/
def Turn.LastLineClear (turn : Turn path lines chunks) : Prop :=
  lines.getLast? = some [] → turn.replacement.stop = lines.length → turn.replacement.len = 1 →
    turn.replacement.text ++ (insertedLines turn.later ++ [[]]).drop 1 =
      insertedLines turn.later ++ turn.replacement.text

/-- A chunk at the end of the file, or one that has an empty last line of the file, is off the
others. -/
structure Turn.Clear (turn : Turn path lines chunks) : Prop where
  endOfFile : turn.chunk.isEndOfFile = true → turn.replacement.len ≠ 0 →
    ∀ r ∈ turn.earlier, r.stop ≤ turn.replacement.start ∨ lines.length ≤ r.start
  lastLines : lines.getLast? = some [] → turn.replacement.stop = lines.length →
    1 < turn.replacement.len → ∀ chunk ∈ chunks, chunk.oldLines ≠ []
  lastLine : turn.LastLineClear

end

/-! ### The turns of the loop -/

variable {path : String} {lines : List Line} {chunks before later : List UpdateFileChunk}
  {chunk : UpdateFileChunk} {placed earlier rest : List Replacement} {r q : Replacement}
  {lineIndex next last : Nat}

lemma placeChunks_cons :
    placeChunks path lines lineIndex (chunk :: chunks) = .ok (placed, last) ↔
      ∃ r next rest, placeChunk path lines lineIndex chunk = .ok (r, next) ∧
        placeChunks path lines next chunks = .ok (rest, last) ∧ placed = r :: rest := by
  rw [placeChunks]
  constructor
  · intro h
    split at h
    · cases h
    · rename_i r next hchunk
      cases hrest : placeChunks path lines next chunks with
      | error e =>
        rw [hrest] at h
        cases h
      | ok result =>
        rw [hrest] at h
        cases h
        exact ⟨r, next, result.1, hchunk, hrest, rfl⟩
  · rintro ⟨r, next, rest, hchunk, hrest, rfl⟩
    rw [hchunk]
    simp only [hrest]
    rfl

lemma placeChunks_append : placeChunks path lines lineIndex (before ++ later) = .ok (placed, last) ↔
    ∃ earlier next rest, placeChunks path lines lineIndex before = .ok (earlier, next) ∧
      placeChunks path lines next later = .ok (rest, last) ∧ placed = earlier ++ rest := by
  induction before generalizing lineIndex placed with
  | nil =>
    constructor
    · intro h
      exact ⟨[], lineIndex, placed, rfl, h, rfl⟩
    · rintro ⟨earlier, next, rest, hbefore, hlater, rfl⟩
      cases hbefore
      exact hlater
  | cons chunk before ih =>
    simp only [List.cons_append, placeChunks_cons, ih]
    constructor
    · rintro ⟨r, next, _, hchunk, ⟨earlier, k, rest, hbefore, hlater, rfl⟩, rfl⟩
      exact ⟨r :: earlier, k, rest, ⟨r, next, earlier, hchunk, hbefore, rfl⟩, hlater, rfl⟩
    · rintro ⟨_, k, rest, ⟨r, next, earlier, hchunk, hbefore, rfl⟩, hlater, rfl⟩
      exact ⟨r, next, earlier ++ rest, hchunk, ⟨earlier, k, rest, hbefore, hlater, rfl⟩, rfl⟩

lemma placeChunks_le (hle : lineIndex ≤ lines.length)
    (h : placeChunks path lines lineIndex chunks = .ok (placed, last)) :
    lineIndex ≤ last ∧ last ≤ lines.length := by
  induction chunks generalizing lineIndex placed with
  | nil => cases h; exact ⟨Nat.le_refl _, hle⟩
  | cons chunk chunks ih =>
    obtain ⟨r, next, rest, hchunk, hrest, rfl⟩ := placeChunks_cons.mp h
    obtain ⟨hnext, hnextLe, -⟩ := placeChunk_cases hle hchunk
    obtain ⟨hlast, hlastLe⟩ := ih hnextLe hrest
    exact ⟨hnext.trans hlast, hlastLe⟩

/-- A range of the loop is an insertion, or within what the loop has passed. -/
lemma mem_placeChunks (hle : lineIndex ≤ lines.length)
    (h : placeChunks path lines lineIndex chunks = .ok (placed, last)) (hr : r ∈ placed) :
    (∃ chunk ∈ chunks, chunk.oldLines = [] ∧ r = ⟨insertionIdx lines, 0, chunk.newLines⟩) ∨
      r.stop ≤ last := by
  induction chunks generalizing lineIndex placed with
  | nil => cases h; cases hr
  | cons chunk chunks ih =>
    obtain ⟨r', next, rest, hchunk, hrest, rfl⟩ := placeChunks_cons.mp h
    obtain ⟨-, hnextLe, hcases⟩ := placeChunk_cases hle hchunk
    rcases List.mem_cons.mp hr with rfl | hr
    · rcases hcases with ⟨hold, hr⟩ | ⟨-, hnext, -⟩
      · exact .inl ⟨chunk, List.mem_cons_self, hold, hr⟩
      · exact .inr (hnext ▸ (placeChunks_le hnextLe hrest).1)
    · refine (ih hnextLe hrest hr).imp_left ?_
      rintro ⟨chunk, hmem, hchunk⟩
      exact ⟨chunk, List.mem_cons_of_mem _ hmem, hchunk⟩

/-- The turn of a replacement that the loop has placed. -/
lemma exists_turn (h : placeChunks path lines 0 chunks = .ok (placed, last))
    (hsplit : placed = earlier ++ r :: rest) :
    ∃ turn : Turn path lines chunks, turn.earlier = earlier ∧ turn.replacement = r ∧
      placeChunks path lines turn.next turn.later = .ok (rest, last) := by
  suffices hturn : ∀ {lineIndex : Nat} {chunks : List UpdateFileChunk},
      placeChunks path lines lineIndex chunks = .ok (earlier ++ r :: rest, last) →
      ∃ before chunk later i next, chunks = before ++ chunk :: later ∧
        placeChunks path lines lineIndex before = .ok (earlier, i) ∧
        placeChunk path lines i chunk = .ok (r, next) ∧
        placeChunks path lines next later = .ok (rest, last) by
    obtain ⟨before, chunk, later, i, next, hchunks, hbefore, hchunk, hlater⟩ := hturn (hsplit ▸ h)
    exact ⟨⟨before, chunk, later, earlier, i, r, next, hchunks, hbefore, hchunk⟩, rfl, rfl, hlater⟩
  clear h hsplit
  induction earlier with
  | nil =>
    intro lineIndex chunks h
    cases chunks with
    | nil => cases h
    | cons chunk chunks =>
      obtain ⟨r', next, rest', hchunk, hrest, heq⟩ := placeChunks_cons.mp h
      cases heq
      exact ⟨[], chunk, chunks, lineIndex, next, rfl, rfl, hchunk, hrest⟩
  | cons e earlier ih =>
    intro lineIndex chunks h
    cases chunks with
    | nil => cases h
    | cons chunk chunks =>
      obtain ⟨r', next, rest', hchunk, hrest, heq⟩ := placeChunks_cons.mp h
      cases heq
      obtain ⟨before, chunk', later, i, next', rfl, hbefore, hchunk', hlater⟩ := ih hrest
      exact ⟨chunk :: before, chunk', later, i, next', rfl,
        placeChunks_cons.mpr ⟨_, _, _, hchunk, hbefore, rfl⟩, hchunk', hlater⟩

variable (turn : Turn path lines chunks)

namespace Turn

lemma lineIndex_le : turn.lineIndex ≤ lines.length :=
  (placeChunks_le (Nat.zero_le _) turn.placed_before).2

lemma chunk_mem : turn.chunk ∈ chunks := by
  have hmem : turn.chunk ∈ turn.before ++ turn.chunk :: turn.later :=
    List.mem_append_right _ List.mem_cons_self
  rwa [← turn.chunks_eq] at hmem

/-- The loop goes on behind the turn. -/
lemma exists_rest (h : placeChunks path lines 0 chunks = .ok (placed, last)) :
    ∃ rest, placeChunks path lines turn.next turn.later = .ok (rest, last) ∧
      placed = turn.earlier ++ turn.replacement :: rest := by
  rw [turn.chunks_eq, placeChunks_append] at h
  obtain ⟨earlier, next, rest, hbefore, hlater, rfl⟩ := h
  obtain ⟨hearlier, hnext⟩ := Prod.mk.inj (Except.ok.inj (hbefore.symm.trans turn.placed_before))
  subst hearlier hnext
  obtain ⟨r, next, rest', hchunk, hrest, rfl⟩ := placeChunks_cons.mp hlater
  obtain ⟨hr, hnext⟩ := Prod.mk.inj (Except.ok.inj (hchunk.symm.trans turn.placed))
  subst hr hnext
  exact ⟨rest', hrest, rfl⟩

lemma cases : turn.lineIndex ≤ turn.next ∧ turn.next ≤ lines.length ∧
    (turn.chunk.oldLines = [] ∧
        turn.replacement = ⟨insertionIdx lines, 0, turn.chunk.newLines⟩ ∨
      turn.chunk.oldLines ≠ [] ∧ turn.next = turn.replacement.stop ∧
        FoundAt lines turn.lineIndex turn.chunk turn.replacement) :=
  placeChunk_cases turn.lineIndex_le turn.placed

lemma of_mem_earlier (h : r ∈ turn.earlier) :
    (∃ chunk ∈ chunks, chunk.oldLines = [] ∧ r = ⟨insertionIdx lines, 0, chunk.newLines⟩) ∨
      r.stop ≤ turn.lineIndex := by
  refine (mem_placeChunks (Nat.zero_le _) turn.placed_before h).imp_left ?_
  rintro ⟨chunk, hmem, hchunk⟩
  have hmem' : chunk ∈ turn.before ++ turn.chunk :: turn.later := List.mem_append_left _ hmem
  rw [← turn.chunks_eq] at hmem'
  exact ⟨chunk, hmem', hchunk⟩

end Turn

/-- A relation of each replacement to those before it. -/
lemma pairwise_of_turns {R : Replacement → Replacement → Prop}
    (h : placeChunks path lines 0 chunks = .ok (placed, last))
    (hturn : ∀ turn : Turn path lines chunks, ∀ e ∈ turn.earlier, R e turn.replacement) :
    placed.Pairwise R := by
  have hsplit : ∀ earlier r rest, placed = earlier ++ r :: rest → ∀ e ∈ earlier, R e r := by
    intro earlier r rest heq e he
    obtain ⟨turn, rfl, rfl, -⟩ := exists_turn h heq
    exact hturn turn e he
  clear h hturn
  induction placed using List.reverseRecOn with
  | nil => exact .nil
  | append_singleton placed r ih =>
    refine List.pairwise_append.mpr ⟨ih fun earlier r' rest heq => ?_, List.pairwise_singleton _ _,
      fun e he f hf => ?_⟩
    · exact hsplit earlier r' (rest ++ [r]) (by rw [heq, List.append_assoc, List.cons_append])
    · rw [List.mem_singleton.mp hf]
      exact hsplit placed r [] rfl e he

/-! ### How the ranges of two chunks can meet -/

/-- An insertion, at the start of the last line, of a chunk that comes after the one of that
line. -/
def LateLast (lines : List Line) (e f : Replacement) : Prop :=
  lines.getLast? = some [] ∧ e.stop = lines.length ∧ e.len = 1 ∧ f.start = e.start ∧ f.len = 0

lemma insertionIdx_of_empty (h : lines.getLast? = some []) :
    insertionIdx lines + 1 = lines.length := by
  have hpos : 0 < lines.length := List.length_pos_of_ne_nil (by rintro rfl; cases h)
  rw [insertionIdx, if_pos h]
  omega

lemma insertionIdx_of_not_empty (h : lines.getLast? ≠ some []) :
    insertionIdx lines = lines.length :=
  if_neg h

lemma insertionIdx_le : insertionIdx lines ≤ lines.length := by
  by_cases h : lines.getLast? = some []
  · have := insertionIdx_of_empty h
    omega
  · exact (insertionIdx_of_not_empty h).le

/-- What is off another range and yet out of order goes before the last line. -/
lemma Turn.lateLast {e : Replacement} (he : e ∈ turn.earlier)
    (hapart : e.Apart turn.replacement) (hfits : ¬ Fits e turn.replacement) :
    LateLast lines e turn.replacement := by
  simp only [Edit.Apart, Fits, Edit.stop] at hapart hfits
  have hzero : turn.replacement.len = 0 ∧ turn.replacement.start = e.start ∧ 0 < e.len := by omega
  obtain ⟨hlen, hstart, hpos⟩ := hzero
  have hle : e.stop ≤ turn.lineIndex := by
    rcases turn.of_mem_earlier he with ⟨chunk, -, -, rfl⟩ | hle
    · exact absurd hpos (Nat.lt_irrefl 0)
    · exact hle
  have hindex := turn.lineIndex_le
  simp only [Edit.stop] at hle
  obtain ⟨-, -, ⟨-, hr⟩ | ⟨-, -, hfound⟩⟩ := turn.cases
  · rw [hr] at hstart
    have hins : insertionIdx lines = e.start := hstart
    by_cases hlast : lines.getLast? = some []
    · have := insertionIdx_of_empty hlast
      refine ⟨hlast, ?_, ?_, by rw [hr]; exact hins, hlen⟩
      · simp only [Edit.stop]
        omega
      · omega
    · have := insertionIdx_of_not_empty hlast
      omega
  · have := hfound.le_start (.inr hlen)
    omega

/-- Where every turn is clear, the ranges are apart. -/
lemma Turn.apart (hclear : ∀ turn : Turn path lines chunks, turn.Clear)
    (h : placeChunks path lines 0 chunks = .ok (placed, last)) {e : Replacement}
    (he : e ∈ turn.earlier) : e.Apart turn.replacement := by
  -- a range over the last line and more has no insertion beside it
  have hcover : ∀ f ∈ placed, lines.getLast? = some [] → f.stop = lines.length → 1 < f.len →
      ∀ chunk ∈ chunks, chunk.oldLines ≠ [] := by
    intro f hf
    obtain ⟨earlier, rest, hsplit⟩ := List.append_of_mem hf
    obtain ⟨turn, -, rfl, -⟩ := exists_turn h hsplit
    exact (hclear turn).lastLines
  obtain ⟨rest, -, hplaced⟩ := turn.exists_rest h
  have heMem : e ∈ placed := by
    rw [hplaced]
    exact List.mem_append_left _ he
  have hindex := turn.lineIndex_le
  have hins : insertionIdx lines ≤ lines.length := insertionIdx_le
  rcases turn.of_mem_earlier he with ⟨chunk, hmem, hold, rfl⟩ | hle
  · obtain ⟨-, -, ⟨-, hr⟩ | ⟨-, -, hfound⟩⟩ := turn.cases
    · rw [hr]
      exact .inl (Nat.le_refl _)
    · have hstop := hfound.stop_le
      simp only [Edit.Apart, Edit.stop, Nat.add_zero] at hstop ⊢
      by_cases hlast : lines.getLast? = some []
      · have hidx := insertionIdx_of_empty hlast
        by_cases hend : turn.replacement.stop = lines.length
        · have hlen : turn.replacement.len ≤ 1 := by
            by_contra hlt
            exact (hclear turn).lastLines hlast hend (Nat.lt_of_not_le hlt) chunk hmem hold
          simp only [Edit.stop] at hend
          omega
        · simp only [Edit.stop] at hend
          omega
      · have hidx := insertionIdx_of_not_empty hlast
        omega
  · obtain ⟨-, -, ⟨hold, hr⟩ | ⟨-, -, hfound⟩⟩ := turn.cases
    · rw [hr]
      by_cases hlast : lines.getLast? = some []
      · have hidx := insertionIdx_of_empty hlast
        simp only [Edit.Apart, Edit.stop, Nat.add_zero] at hle ⊢
        by_cases hend : e.stop = lines.length
        · have hlen : e.len ≤ 1 := by
            by_contra hlt
            exact hcover e heMem hlast hend (Nat.lt_of_not_le hlt) _ turn.chunk_mem hold
          simp only [Edit.stop] at hend
          omega
        · simp only [Edit.stop] at hend
          omega
      · rw [insertionIdx_of_not_empty hlast]
        exact .inl (hle.trans hindex)
    · by_cases hend : turn.chunk.isEndOfFile = true ∧ turn.replacement.len ≠ 0
      · have hstop := hfound.endOfFile hend.1 hend.2
        refine ((hclear turn).endOfFile hend.1 hend.2 e he).imp_right fun hstart => ?_
        rw [hstop]
        exact hstart
      · refine .inl (hle.trans (hfound.le_start ?_))
        simpa [or_iff_not_imp_left] using hend

lemma stop_le_of_placeChunks (h : placeChunks path lines 0 chunks = .ok (placed, last))
    (hr : r ∈ placed) : r.stop ≤ lines.length := by
  rcases mem_placeChunks (Nat.zero_le _) h hr with ⟨chunk, -, -, rfl⟩ | hle
  · exact insertionIdx_le
  · exact hle.trans (placeChunks_le (Nat.zero_le _) h).2

lemma forall₂_isTextOf (hle : lineIndex ≤ lines.length)
    (h : placeChunks path lines lineIndex chunks = .ok (placed, last)) :
    List.Forall₂ IsTextOf chunks placed := by
  induction chunks generalizing lineIndex placed with
  | nil => cases h; exact .nil
  | cons chunk chunks ih =>
    obtain ⟨r, next, rest, hchunk, hrest, rfl⟩ := placeChunks_cons.mp h
    obtain ⟨-, hnext, hcases⟩ := placeChunk_cases hle hchunk
    refine .cons ?_ (ih hnext hrest)
    rcases hcases with ⟨hold, rfl⟩ | ⟨-, -, hfound⟩
    · exact .inl ⟨by rw [hold]; rfl, rfl⟩
    · exact hfound.isTextOf

/-- A chunk without old lines has placed an insertion. -/
lemma exists_insertion (hle : lineIndex ≤ lines.length)
    (h : placeChunks path lines lineIndex chunks = .ok (placed, last)) (hmem : chunk ∈ chunks)
    (hold : chunk.oldLines = []) : ⟨insertionIdx lines, 0, chunk.newLines⟩ ∈ placed := by
  induction chunks generalizing lineIndex placed with
  | nil => cases hmem
  | cons chunk' chunks ih =>
    obtain ⟨r, next, rest, hchunk, hrest, rfl⟩ := placeChunks_cons.mp h
    obtain ⟨-, hnext, hcases⟩ := placeChunk_cases hle hchunk
    rcases List.mem_cons.mp hmem with rfl | hmem
    · obtain ⟨-, rfl⟩ := hcases.resolve_right fun hfound => hfound.1 hold
      exact List.mem_cons_self
    · exact List.mem_cons_of_mem _ (ih hnext hrest hmem)

/-- The insertions behind a chunk of the last line are those of the later chunks. -/
lemma flatMap_lateInsertions (hblank : lines.getLast? = some []) (hstop : q.stop = lines.length)
    (hlen : q.len = 1) (hindex : lineIndex = lines.length)
    (h : placeChunks path lines lineIndex later = .ok (rest, last))
    (hapart : ∀ f ∈ rest, q.Apart f) :
    (lateInsertions q rest).flatMap Edit.text = insertedLines later := by
  have hins := insertionIdx_of_empty hblank
  induction later generalizing lineIndex rest with
  | nil => cases h; rfl
  | cons chunk later ih =>
    obtain ⟨r, next, rest, hchunk, hrest, rfl⟩ := placeChunks_cons.mp h
    obtain ⟨hnext, hnextLe, hcases⟩ := placeChunk_cases hindex.le hchunk
    have hlater := ih (by omega) hrest fun f hf => hapart f (List.mem_cons_of_mem _ hf)
    rcases hcases with ⟨hold, rfl⟩ | ⟨hold, -, hfound⟩
    · have hstart : insertionIdx lines = q.start := by
        simp only [Edit.stop] at hstop
        omega
      rw [lateInsertions, List.filter_cons_of_pos (by simpa using hstart), List.flatMap_cons,
        ← lateInsertions, hlater, insertedLines, insertedLines,
        List.filter_cons_of_pos (by simpa using hold), List.flatMap_cons]
    · have hstart : r.start ≠ q.start := fun heq => by
        have hq := hapart r List.mem_cons_self
        have hle := hfound.le_start
        simp only [Edit.Apart, Edit.stop] at hq hstop
        omega
      rw [lateInsertions, List.filter_cons_of_neg (by simpa using hstart), ← lateInsertions,
        hlater, insertedLines, insertedLines, List.filter_cons_of_neg (by simpa using hold)]

section

variable (h : placeChunks path lines 0 chunks = .ok (placed, last))
  (hapart : placed.Pairwise Edit.Apart)
include h hapart

lemma pairwise_fits_or_lateLast :
    placed.Pairwise fun e f => Fits e f ∨ LateLast lines e f := by
  have hturns : placed.Pairwise fun e f => e.Apart f → Fits e f ∨ LateLast lines e f :=
    pairwise_of_turns h fun turn e he hef => or_iff_not_imp_left.mpr (turn.lateLast he hef)
  exact hapart.imp₂ (fun _ _ hef himp => himp hef) hturns

/-- A chunk of the empty last line is in order with all but the insertions behind it. -/
lemma Turn.fitsButLate (hstop : turn.replacement.stop = lines.length)
    (hlen : turn.replacement.len = 1)
    (hplaced : placed = turn.earlier ++ turn.replacement :: rest) :
    FitsButLate turn.replacement turn.earlier rest := by
  have hpairwise := pairwise_fits_or_lateLast h hapart
  rw [hplaced, List.pairwise_append, List.pairwise_cons] at hapart
  obtain ⟨-, ⟨hafter, -⟩, hbefore⟩ := hapart
  have hothers : ∀ e ∈ turn.earlier ++ rest, ∀ f, ¬ LateLast lines e f := by
    rintro e he f ⟨-, hestop, helen, -⟩
    have hapart : e.Apart turn.replacement := by
      rcases List.mem_append.mp he with he | he
      · exact hbefore e he _ List.mem_cons_self
      · exact (hafter e he).symm
    simp only [Edit.Apart, Edit.stop] at hapart hestop hstop
    omega
  rw [hplaced] at hpairwise
  obtain ⟨-, hpairwise', hbefore'⟩ := List.pairwise_append.mp hpairwise
  have hsub : (turn.earlier ++ rest).Sublist (turn.earlier ++ turn.replacement :: rest) :=
    (List.Sublist.refl _).append (List.sublist_cons_self _ _)
  refine ⟨by omega, (hpairwise.sublist hsub).imp_of_mem fun he _ hef =>
    hef.resolve_right (hothers _ he _), fun b hb => ?_, fun c hc => ?_⟩
  · refine (hbefore' b hb _ List.mem_cons_self).resolve_right fun hlate => ?_
    have := hlate.2.2.2.2
    omega
  · exact ((List.pairwise_cons.mp hpairwise').1 c hc).imp_right (·.2.2.2)

/-- The replacements do what they do at once if a chunk of the empty last line is right with the
insertions behind it. -/
lemma Turn.applyAll_iff (hblank : lines.getLast? = some [])
    (hstop : turn.replacement.stop = lines.length) (hlen : turn.replacement.len = 1) :
    applyAll (byStart placed) lines = spliced lines 0 (ordered (byStart placed)) ↔
      turn.replacement.text ++ (insertedLines turn.later ++ [[]]).drop 1 =
        insertedLines turn.later ++ turn.replacement.text := by
  obtain ⟨rest, hrest, hplaced⟩ := turn.exists_rest h
  have hfits := turn.fitsButLate h hapart hstop hlen hplaced
  have hbounds : ∀ e ∈ placed, e.stop ≤ lines.length := fun e he => stop_le_of_placeChunks h he
  have hnext : turn.next = lines.length := by
    obtain ⟨-, hle, ⟨-, hr⟩ | ⟨-, hnext, -⟩⟩ := turn.cases
    · rw [hr] at hlen
      cases hlen
    · rw [hnext, hstop]
  have hq : ∀ f ∈ rest, turn.replacement.Apart f := by
    rw [hplaced] at hapart
    exact (List.pairwise_cons.mp (List.pairwise_append.mp hapart).2.1).1
  have hmid : (lines.drop turn.replacement.start).take turn.replacement.len = [[]] := by
    obtain ⟨front, rfl⟩ := List.getLast?_eq_some_iff.mp hblank
    have hstart : turn.replacement.start = front.length := by
      simp only [Edit.stop, List.length_append, List.length_singleton] at hstop
      omega
    simp [hstart, hlen]
  rw [hplaced] at hbounds
  have hiff := hfits.applyAll_byStart hbounds
  rwa [← hplaced, flatMap_lateInsertions hblank hstop hlen hnext hrest hq, hmid, hlen] at hiff

/-- All ranges fit if no chunk has the empty last line alone. -/
lemma fits_or_exists_turn : placed.Pairwise Fits ∨ ∃ turn : Turn path lines chunks,
    lines.getLast? = some [] ∧ turn.replacement.stop = lines.length ∧
      turn.replacement.len = 1 := by
  refine or_iff_not_imp_right.mpr fun hlast => ?_
  refine (pairwise_fits_or_lateLast h hapart).imp_of_mem fun he _ hef => ?_
  refine hef.resolve_right fun hlate => hlast ?_
  obtain ⟨earlier, rest, hsplit⟩ := List.append_of_mem he
  obtain ⟨turn, -, rfl, -⟩ := exists_turn h hsplit
  exact ⟨turn, hlate.1, hlate.2.1, hlate.2.2.1⟩

/-- Ranges that are apart are replaced all at once if the empty last line comes out in order. -/
lemma applyAll_eq_iff :
    applyAll (byStart placed) lines = spliced lines 0 (ordered (byStart placed)) ↔
      ∀ turn : Turn path lines chunks, turn.LastLineClear := by
  constructor
  · intro happlied turn hblank hstop hlen
    exact (turn.applyAll_iff h hapart hblank hstop hlen).mp happlied
  · intro hclear
    rcases fits_or_exists_turn h hapart with hfits | ⟨turn, hblank, hstop, hlen⟩
    · exact applyAll_byStart hfits fun r hr => stop_le_of_placeChunks h hr
    · exact (turn.applyAll_iff h hapart hblank hstop hlen).mpr (hclear turn hblank hstop hlen)

/-- The number of lines is right in any case. -/
lemma length_applyAll : (applyAll (byStart placed) lines).length =
    (spliced lines 0 (ordered (byStart placed))).length := by
  have hbounds : ∀ r ∈ placed, r.stop ≤ lines.length := fun r hr => stop_le_of_placeChunks h hr
  rcases fits_or_exists_turn h hapart with hfits | ⟨turn, -, hstop, hlen⟩
  · rw [applyAll_byStart hfits hbounds]
  · obtain ⟨rest, -, hplaced⟩ := turn.exists_rest h
    have hfits := turn.fitsButLate h hapart hstop hlen hplaced
    rw [hplaced] at hbounds ⊢
    exact hfits.length_applyAll hbounds

end

/-! ### All replacements -/

variable {replacements : List Replacement}

lemma of_computeReplacements (h : computeReplacements path lines chunks = .ok replacements) :
    ∃ placed last, placeChunks path lines 0 chunks = .ok (placed, last) ∧
      replacements = byStart placed := by
  cases hplaced : placeChunks path lines 0 chunks with
  | error e =>
    rw [computeReplacements, hplaced] at h
    cases h
  | ok result =>
    rw [computeReplacements, hplaced] at h
    cases h
    exact ⟨result.1, result.2, rfl, rfl⟩

/-- The replacements that were computed are made one at a time, and no insertion panics. -/
lemma applyReplacements_byStart (h : placeChunks path lines 0 chunks = .ok (placed, last)) :
    applyReplacements lines (byStart placed) = some (applyAll (byStart placed) lines) := by
  refine applyReplacements_eq pairwise_start_byStart fun r hr => ?_
  exact (Nat.le_add_right _ _).trans (stop_le_of_placeChunks h (mem_byStart.mp hr))

lemma Turn.clear (h : placeChunks path lines 0 chunks = .ok (placed, last))
    (hapart : placed.Pairwise Edit.Apart) (hlast : turn.LastLineClear) : turn.Clear := by
  obtain ⟨rest, -, hplaced⟩ := turn.exists_rest h
  have hsplit := hapart
  rw [hplaced, List.pairwise_append, List.pairwise_cons] at hsplit
  obtain ⟨-, ⟨hafter, -⟩, hbefore⟩ := hsplit
  refine ⟨fun heof hlen e he => ?_, fun hblank hstop hlen chunk hmem hold => ?_, hlast⟩
  · obtain ⟨-, -, ⟨-, hr⟩ | ⟨-, -, hfound⟩⟩ := turn.cases
    · rw [hr] at hlen
      exact absurd rfl hlen
    · refine (hbefore e he _ List.mem_cons_self).imp_right fun hle => ?_
      rwa [← hfound.endOfFile heof hlen]
  · -- an insertion before the last line would be within the range
    have hinsertion := exists_insertion (Nat.zero_le _) h hmem hold
    have hins := insertionIdx_of_empty hblank
    rw [hplaced, List.mem_append, List.mem_cons] at hinsertion
    have hoff : (⟨insertionIdx lines, 0, chunk.newLines⟩ : Replacement).Apart
        turn.replacement := by
      rcases hinsertion with hmem | heq | hmem
      · exact hbefore _ hmem _ List.mem_cons_self
      · rw [← heq] at hlen
        exact absurd hlen (Nat.not_lt_zero 1)
      · exact (hafter _ hmem).symm
    simp only [Edit.Apart, Edit.stop] at hoff hstop
    omega

/-- The replacements are simultaneous if and only if every turn of the loop is clear. -/
theorem simultaneous_iff_clear
    (h : computeReplacements path lines chunks = .ok replacements) :
    Simultaneous lines chunks replacements ↔ ∀ turn : Turn path lines chunks, turn.Clear := by
  obtain ⟨placed, last, hplaced, rfl⟩ := of_computeReplacements h
  have hbounds : ∀ r ∈ placed, r.stop ≤ lines.length := fun r hr =>
    stop_le_of_placeChunks hplaced hr
  have happly := applyReplacements_byStart hplaced
  constructor
  · intro hsim turn
    have hapart : placed.Pairwise Edit.Apart :=
      (byStart_perm.pairwise_iff Edit.Apart.symm).mp hsim.disjoint
    have happlied := Option.some.inj (happly.symm.trans hsim.applied)
    exact turn.clear hplaced hapart ((applyAll_eq_iff hplaced hapart).mp happlied turn)
  · intro hclear
    have hapart : placed.Pairwise Edit.Apart :=
      pairwise_of_turns hplaced fun turn e he => turn.apart hclear hplaced he
    have happlied := (applyAll_eq_iff hplaced hapart).mpr fun turn => (hclear turn).lastLine
    refine ⟨fun r hr => hbounds r (mem_byStart.mp hr), ?_, by rw [happly, happlied],
      ⟨placed, byStart_perm.symm, forall₂_isTextOf (Nat.zero_le _) hplaced⟩, fun r hr => ?_⟩
    · exact (byStart_perm.pairwise_iff Edit.Apart.symm).mpr hapart
    · exact text_infix_spliced ((List.mem_insertionSort Edit.Before).mpr hr)

/-- Two chunks, one after the other. -/
def twoChunks : List UpdateFileChunk :=
  [⟨none, ["a".toList], ["x".toList, "y".toList], false⟩,
    ⟨none, ["c".toList, "d".toList], ["z".toList], false⟩]

theorem simultaneous_iff_clear_twoChunks :
    Simultaneous ["a".toList, "b".toList, "c".toList, "d".toList] twoChunks
      [⟨0, 1, ["x".toList, "y".toList]⟩, ⟨2, 2, ["z".toList]⟩] := by
  have hplaced : computeReplacements "f" ["a".toList, "b".toList, "c".toList, "d".toList]
      twoChunks = .ok [⟨0, 1, ["x".toList, "y".toList]⟩, ⟨2, 2, ["z".toList]⟩] := rfl
  refine (simultaneous_iff_clear hplaced).mpr fun turn =>
    ⟨fun heof => ?_, by rintro ⟨⟩, by rintro ⟨⟩⟩
  have hmem := turn.chunk_mem
  simp only [twoChunks, List.mem_cons, List.not_mem_nil, or_false] at hmem
  rcases hmem with hchunk | hchunk <;> simp [hchunk] at heof

/-- The second chunk is looked for at the end of the file, where the first one was found. -/
def overlapping : List UpdateFileChunk :=
  [⟨none, ["a".toList, "b".toList], ["x".toList], false⟩, ⟨none, ["b".toList], ["y".toList], true⟩]

theorem not_simultaneous : ¬ ∀ path lines chunks replacements,
    computeReplacements path lines chunks = .ok replacements →
      Simultaneous lines chunks replacements := by
  intro h
  have hsim := h "f" ["a".toList, "b".toList] overlapping
    [⟨0, 2, ["x".toList]⟩, ⟨1, 1, ["y".toList]⟩] rfl
  rcases (List.pairwise_cons.mp hsim.disjoint).1 _ List.mem_cons_self with hle | hle
  · exact absurd hle (by decide)
  · exact absurd hle (by decide)

end Jcode
