import Jcode.Foundation.Splice
import Jcode.Message

/-!
# The chunks of `apply_patch`

A chunk of an update is found in the lines of the file and becomes a replacement of a range of
lines. The replacements are sorted by their start and made from the last to the first.
-/

namespace Jcode

open Splice

/-- A line, without its line feed. -/
abbrev Line := List Char

/-- `str::trim_end`. -/
def trimEnd (line : Line) : Line := (line.reverse.dropWhile isWhitespace).reverse

/-- `str::trim`, of a line. -/
def trimLine (line : Line) : Line := trimEnd (line.dropWhile isWhitespace)

structure UpdateFileChunk where
  changeContext : Option Line
  oldLines : List Line
  newLines : List Line
  isEndOfFile : Bool
  deriving DecidableEq

/-- A start, a number of old lines, and the new lines. -/
abbrev Replacement := Edit Line

/-- One pass: the first place from `searchStart` on where the lines are the same, as `norm` has
them. -/
def seekPass (norm : Line → Line) (lines pattern : List Line) (searchStart : Nat) : Option Nat :=
  (List.range' searchStart (lines.length - pattern.length + 1 - searchStart)).find? fun i =>
    ((lines.drop i).take pattern.length).map norm == pattern.map norm

def seekSequence (lines pattern : List Line) (start : Nat) (eof : Bool) : Option Nat :=
  if pattern = [] then some start
  else if lines.length < pattern.length then none
  else
    let searchStart := if eof then lines.length - pattern.length else start
    (seekPass id lines pattern searchStart).or
      ((seekPass trimEnd lines pattern searchStart).or
        (seekPass trimLine lines pattern searchStart))

/-- Where the position is behind the context of a chunk. -/
def afterContext (lines : List Line) (lineIndex : Nat) (context : Option Line) : Option Nat :=
  match context with
  | none => some lineIndex
  | some ctxLine => (seekSequence lines [ctxLine] lineIndex false).map (· + 1)

def insertionIdx (lines : List Line) : Nat :=
  if lines.getLast? = some [] then lines.length - 1 else lines.length

def dropLastEmpty (lines : List Line) : List Line :=
  if lines.getLast? = some [] then lines.dropLast else lines

/-- The range of a chunk with old lines. Their last line is left out where it is empty and they are
not found with it. -/
def findOldLines (lines : List Line) (lineIndex : Nat) (chunk : UpdateFileChunk) :
    Option Replacement :=
  match seekSequence lines chunk.oldLines lineIndex chunk.isEndOfFile with
  | some start => some ⟨start, chunk.oldLines.length, chunk.newLines⟩
  | none =>
    if chunk.oldLines.getLast? = some [] then
      (seekSequence lines chunk.oldLines.dropLast lineIndex chunk.isEndOfFile).map fun start =>
        ⟨start, chunk.oldLines.dropLast.length, dropLastEmpty chunk.newLines⟩
    else none

/-- The replacement of one chunk, and the position behind it. -/
def placeChunk (path : String) (lines : List Line) (lineIndex : Nat) (chunk : UpdateFileChunk) :
    Except String (Replacement × Nat) :=
  match afterContext lines lineIndex chunk.changeContext with
  | none =>
    .error ("Failed to find context '" ++ String.ofList (chunk.changeContext.getD []) ++ "' in " ++
      path)
  | some lineIndex =>
    if chunk.oldLines = [] then .ok (⟨insertionIdx lines, 0, chunk.newLines⟩, lineIndex)
    else
      match findOldLines lines lineIndex chunk with
      | some replacement => .ok (replacement, replacement.stop)
      | none =>
        .error ("Failed to find expected lines in " ++ path ++ ":\n" ++
          String.ofList (['\n'].intercalate chunk.oldLines))

/-- The loop over the chunks: their replacements, and the position behind the last one. -/
def placeChunks (path : String) (lines : List Line) (lineIndex : Nat) :
    List UpdateFileChunk → Except String (List Replacement × Nat)
  | [] => .ok ([], lineIndex)
  | chunk :: chunks =>
    match placeChunk path lines lineIndex chunk with
    | .error e => .error e
    | .ok (replacement, lineIndex) =>
      (placeChunks path lines lineIndex chunks).map fun (replacements, lineIndex) =>
        (replacement :: replacements, lineIndex)

def computeReplacements (path : String) (lines : List Line) (chunks : List UpdateFileChunk) :
    Except String (List Replacement) :=
  (placeChunks path lines 0 chunks).map fun (replacements, _) => byStart replacements

/-- `lines.remove(start)`, `count` times. -/
def removeLines (start : Nat) : Nat → List Line → List Line
  | 0, lines => lines
  | count + 1, lines =>
    removeLines start count (if start < lines.length then lines.eraseIdx start else lines)

/-- `lines.insert(start + offset, …)` of each new line, which panics behind the end. -/
def insertLines (start : Nat) : List Line → List Line → Option (List Line)
  | [], lines => some lines
  | newLine :: newLines, lines =>
    if start ≤ lines.length then insertLines (start + 1) newLines (lines.insertIdx start newLine)
    else none

/-- From the last replacement to the first; `none` where an insertion panics. -/
def applyReplacements (lines : List Line) (replacements : List Replacement) : Option (List Line) :=
  replacements.foldr
    (fun replacement lines => lines.bind fun lines =>
      insertLines replacement.start replacement.text
        (removeLines replacement.start replacement.len lines))
    (some lines)

/-- The lines of a content; the last one, if it is empty, is what follows the last line feed. -/
def contentLines (contents : List Char) : List Line :=
  dropLastEmpty (contents.splitOn '\n')

/-- The lines as they are written. -/
def joinLines (lines : List Line) : List Char :=
  ['\n'].intercalate (if lines.getLast? = some [] then lines else lines ++ [[]])

/-- The new content of a file, `none` for a panic. -/
def applyUpdateChunks (path : String) (contents : List Char) (chunks : List UpdateFileChunk) :
    Except String (Option (List Char)) :=
  (computeReplacements path (contentLines contents) chunks).map fun replacements =>
    (applyReplacements (contentLines contents) replacements).map joinLines

/-! ### What is found -/

variable {lines pattern : List Line} {start lineIndex i : Nat} {eof : Bool}
  {chunk : UpdateFileChunk} {chunks : List UpdateFileChunk} {path : String}
  {replacement : Replacement}

lemma of_seekPass {norm : Line → Line} (hlen : pattern.length ≤ lines.length)
    (h : seekPass norm lines pattern start = some i) :
    start ≤ i ∧ i + pattern.length ≤ lines.length := by
  have hmem := List.mem_range'_1.mp (List.mem_of_find?_eq_some h)
  omega

/-- Old lines are found from the position on, or, at the end of the file, as its last lines. -/
lemma of_seekSequence (hne : pattern ≠ []) (h : seekSequence lines pattern start eof = some i) :
    i + pattern.length ≤ lines.length ∧ (eof = false → start ≤ i) ∧
      (eof = true → i + pattern.length = lines.length) := by
  rw [seekSequence, if_neg hne] at h
  split_ifs at h with hlen heof
  · simp only [Option.or_eq_some_iff] at h
    have hpass : lines.length - pattern.length ≤ i ∧ i + pattern.length ≤ lines.length := by
      rcases h with h | ⟨-, h | ⟨-, h⟩⟩ <;> exact of_seekPass (Nat.le_of_not_lt hlen) h
    exact ⟨hpass.2, fun hfalse => by simp [heof] at hfalse, fun _ => by omega⟩
  · simp only [Option.or_eq_some_iff] at h
    have hpass : start ≤ i ∧ i + pattern.length ≤ lines.length := by
      rcases h with h | ⟨-, h | ⟨-, h⟩⟩ <;> exact of_seekPass (Nat.le_of_not_lt hlen) h
    exact ⟨hpass.2, fun _ => hpass.1, fun htrue => absurd htrue heof⟩

/-- An empty line is found where the last line is empty and not behind. -/
lemma seekSequence_empty_ne_none (hlast : lines.getLast? = some [])
    (hstart : eof = true ∨ start < lines.length) :
    seekSequence lines [[]] start eof ≠ none := by
  obtain ⟨front, rfl⟩ := List.getLast?_eq_some_iff.mp hlast
  have hlen : ¬ (front ++ [[]]).length < [([] : Line)].length := by simp
  rw [seekSequence, if_neg (List.cons_ne_nil _ _), if_neg hlen]
  have hpass : ∀ s, s ≤ front.length → (seekPass id (front ++ [[]]) [[]] s).isSome := by
    intro s hs
    rw [seekPass, List.find?_isSome]
    exact ⟨front.length, List.mem_range'_1.mpr (by simp; omega), by simp⟩
  have hs : (if eof then (front ++ [[]]).length - [([] : Line)].length else start) ≤
      front.length := by
    split_ifs with heof
    · simp
    · have : start < front.length + 1 := by simpa [heof] using hstart
      omega
  obtain ⟨i, hi⟩ := Option.isSome_iff_exists.mp (hpass _ hs)
  simp only [hi, Option.some_or]
  exact Option.some_ne_none i

/-- The new lines of a chunk, without the last one if it is empty and so is the last old line,
which was not there. -/
def IsTextOf (chunk : UpdateFileChunk) (replacement : Replacement) : Prop :=
  replacement.len = chunk.oldLines.length ∧ replacement.text = chunk.newLines ∨
    chunk.oldLines.getLast? = some [] ∧ replacement.len + 1 = chunk.oldLines.length ∧
      replacement.text = dropLastEmpty chunk.newLines

/-- What is known of the range of a chunk that is placed from `lineIndex` on. -/
structure FoundAt (lines : List Line) (lineIndex : Nat) (chunk : UpdateFileChunk)
    (replacement : Replacement) : Prop where
  stop_le : replacement.stop ≤ lines.length
  le_start : chunk.isEndOfFile = false ∨ replacement.len = 0 → lineIndex ≤ replacement.start
  endOfFile : chunk.isEndOfFile = true → replacement.len ≠ 0 → replacement.stop = lines.length
  empty : replacement.len = 0 → lines.getLast? = some [] → replacement.start = lines.length
  isTextOf : IsTextOf chunk replacement

lemma of_findOldLines (hle : lineIndex ≤ lines.length) (hold : chunk.oldLines ≠ [])
    (h : findOldLines lines lineIndex chunk = some replacement) :
    FoundAt lines lineIndex chunk replacement := by
  have hpos : 0 < chunk.oldLines.length := List.length_pos_of_ne_nil hold
  rw [findOldLines] at h
  split at h
  · rename_i start hstart
    cases h
    obtain ⟨hstop, hnot, heof⟩ := of_seekSequence hold hstart
    exact ⟨hstop, fun h => hnot (h.resolve_right hpos.ne'), fun h _ => heof h,
      fun h => absurd h hpos.ne', .inl ⟨rfl, rfl⟩⟩
  · rename_i hnone
    split_ifs at h with hlast
    obtain ⟨start, hstart, rfl⟩ := Option.map_eq_some_iff.mp h
    have htext : chunk.oldLines.dropLast.length + 1 = chunk.oldLines.length := by
      rw [List.length_dropLast]
      omega
    by_cases hdrop : chunk.oldLines.dropLast = []
    · -- the only old line is empty and was not found: nothing is left to look for
      rw [seekSequence, if_pos hdrop] at hstart
      cases hstart
      have hsingle : chunk.oldLines = [[]] := by
        obtain ⟨front, heq⟩ := List.getLast?_eq_some_iff.mp hlast
        rw [heq, List.dropLast_concat] at hdrop
        rw [heq, hdrop, List.nil_append]
      refine ⟨?_, fun _ => Nat.le_refl _, fun _ h => absurd ?_ h, fun _ hblank => ?_,
        .inr ⟨hlast, htext, rfl⟩⟩
      · simpa [Edit.stop, hdrop] using hle
      · simp [hdrop]
      · by_contra hne
        rw [hsingle] at hnone
        exact seekSequence_empty_ne_none hblank (.inr (lt_of_le_of_ne hle hne)) hnone
    · obtain ⟨hstop, hnot, heof⟩ := of_seekSequence hdrop hstart
      have hlen : chunk.oldLines.dropLast.length ≠ 0 := (List.length_pos_of_ne_nil hdrop).ne'
      exact ⟨hstop, fun h => hnot (h.resolve_right hlen), fun h _ => heof h,
        fun h => absurd h hlen, .inr ⟨hlast, htext, rfl⟩⟩

lemma of_afterContext {context : Option Line} {next : Nat} (hle : lineIndex ≤ lines.length)
    (h : afterContext lines lineIndex context = some next) :
    lineIndex ≤ next ∧ next ≤ lines.length := by
  cases context with
  | none => cases h; exact ⟨Nat.le_refl _, hle⟩
  | some ctxLine =>
    obtain ⟨idx, hidx, rfl⟩ := Option.map_eq_some_iff.mp h
    obtain ⟨hstop, hstart, -⟩ := of_seekSequence (List.cons_ne_nil _ _) hidx
    exact ⟨(hstart rfl).trans (Nat.le_succ _), hstop⟩

/-- A chunk that was placed is an insertion, or its old lines were found. -/
lemma placeChunk_cases {next : Nat} (hle : lineIndex ≤ lines.length)
    (h : placeChunk path lines lineIndex chunk = .ok (replacement, next)) :
    lineIndex ≤ next ∧ next ≤ lines.length ∧
      (chunk.oldLines = [] ∧ replacement = ⟨insertionIdx lines, 0, chunk.newLines⟩ ∨
        chunk.oldLines ≠ [] ∧ next = replacement.stop ∧
          FoundAt lines lineIndex chunk replacement) := by
  rw [placeChunk] at h
  split at h
  · cases h
  · rename_i index hcontext
    obtain ⟨hindex, hindexLe⟩ := of_afterContext hle hcontext
    split_ifs at h with hold
    · cases h
      exact ⟨hindex, hindexLe, .inl ⟨hold, rfl⟩⟩
    · split at h
      · rename_i found hfound
        cases h
        have hat := of_findOldLines hindexLe hold hfound
        refine ⟨?_, hat.stop_le, .inr ⟨hold, rfl, ⟨hat.stop_le, fun h => hindex.trans
          (hat.le_start h), hat.endOfFile, hat.empty, hat.isTextOf⟩⟩⟩
        by_cases hend : chunk.isEndOfFile = true ∧ replacement.len ≠ 0
        · rw [hat.endOfFile hend.1 hend.2]
          exact hle
        · refine hindex.trans ((hat.le_start ?_).trans (Nat.le_add_right _ _))
          simpa [or_iff_not_imp_left] using hend
      · cases h

/-! ### What is applied -/

lemma removeLines_eq {count : Nat} :
    removeLines start count lines = lines.take start ++ lines.drop (start + count) := by
  induction count generalizing lines with
  | zero => exact (List.take_append_drop start lines).symm
  | succ count ih =>
    rw [removeLines, ih]
    split_ifs with hlt
    · have hlen : (lines.take start).length = start := List.length_take_of_le (Nat.le_of_lt hlt)
      rw [List.eraseIdx_eq_take_drop_succ, List.take_append_of_le_length hlen.ge,
        List.take_of_length_le hlen.le, List.drop_append, hlen, List.drop_drop,
        List.drop_eq_nil_of_le (by omega), List.nil_append]
      congr 2
      omega
    · rw [List.drop_eq_nil_of_le (by omega), List.drop_eq_nil_of_le (by omega)]

lemma insertLines_eq {newLines : List Line} (h : start ≤ lines.length) :
    insertLines start newLines lines =
      some (lines.take start ++ (newLines ++ lines.drop start)) := by
  induction newLines generalizing start lines with
  | nil => simp [insertLines]
  | cons newLine newLines ih =>
    have hlen : (lines.take start).length = start := List.length_take_of_le h
    have hinsert : lines.insertIdx start newLine =
        (lines.take start ++ [newLine]) ++ lines.drop start := by
      have htail := List.modifyTailIdx_add (List.cons newLine) 0 (lines.take start)
        (lines.drop start)
      rw [List.take_append_drop, hlen] at htail
      rw [List.append_assoc, List.singleton_append]
      exact htail
    have hfront : (lines.take start ++ [newLine]).length = start + 1 := by
      rw [List.length_append, hlen, List.length_singleton]
    rw [insertLines, if_pos h, ih (by rw [hinsert, List.length_append]; omega), hinsert,
      List.take_append_of_le_length hfront.ge, List.take_of_length_le hfront.le,
      List.drop_append_of_le_length hfront.ge, List.drop_eq_nil_of_le hfront.le]
    simp

/-- Removing and inserting line by line is one edit. -/
lemma insertLines_removeLines (h : replacement.start ≤ lines.length) :
    insertLines replacement.start replacement.text
        (removeLines replacement.start replacement.len lines) =
      some (replacement.apply lines) := by
  have hlen : (lines.take replacement.start).length = replacement.start :=
    List.length_take_of_le h
  rw [removeLines_eq, insertLines_eq (by rw [List.length_append]; omega),
    List.take_append_of_le_length hlen.ge, List.take_of_length_le hlen.le,
    List.drop_append_of_le_length hlen.ge, List.drop_eq_nil_of_le hlen.le, List.nil_append]
  rfl

/-- Lines before all edits stay. -/
lemma le_length_applyAll {replacements : List Replacement} {k : Nat} (hk : k ≤ lines.length)
    (h : ∀ r ∈ replacements, k ≤ r.start) : k ≤ (applyAll replacements lines).length := by
  induction replacements with
  | nil => exact hk
  | cons r replacements ih =>
    obtain ⟨hr, hrest⟩ := List.forall_mem_cons.mp h
    have hlen : k ≤ (applyAll replacements lines).length := ih hrest
    change k ≤ (r.apply (applyAll replacements lines)).length
    rw [Edit.apply, List.length_append, List.length_take]
    omega

/-- No insertion panics where the replacements are sorted and start within the file. -/
lemma applyReplacements_eq {replacements : List Replacement}
    (hsorted : replacements.Pairwise fun r r' => r.start ≤ r'.start)
    (hstart : ∀ r ∈ replacements, r.start ≤ lines.length) :
    applyReplacements lines replacements = some (applyAll replacements lines) := by
  induction replacements with
  | nil => rfl
  | cons r replacements ih =>
    obtain ⟨hr, hsorted⟩ := List.pairwise_cons.mp hsorted
    obtain ⟨hle, hstart⟩ := List.forall_mem_cons.mp hstart
    have hrest : applyReplacements lines replacements = some (applyAll replacements lines) :=
      ih hsorted hstart
    rw [applyReplacements, List.foldr_cons, ← applyReplacements, hrest, Option.bind_some,
      insertLines_removeLines (le_length_applyAll hle hr)]
    rfl

end Jcode
