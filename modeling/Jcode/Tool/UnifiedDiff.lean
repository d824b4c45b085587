import Jcode.Tool.ParseApplyPatch
import Mathlib.Algebra.Group.Nat.Defs

/-!
# Unified diffs

The `patch` tool reads a text with `---` and `+++` headers into one patch for each file. A
modification takes the position of every hunk from its header and replaces as many lines as the
hunk has old ones, the last hunk first. The counts in the headers and the text of the old lines
are not looked at.
-/

namespace Jcode

structure Hunk where
  oldStart : Nat
  oldLines : List Line
  newLines : List Line
  deriving DecidableEq

structure FilePatch where
  path : Line
  hunks : List Hunk
  isNew : Bool
  isDelete : Bool
  deriving DecidableEq

/-! ### Hunks -/

/-- `str::split_whitespace`, of a header. -/
def headerParts (line : Line) : List Line :=
  (line.splitOnP isWhitespace).filter fun part => part ≠ []

/-- `str::parse::<usize>`. -/
def parseUsize (part : Line) : Option Nat :=
  let digits := (stripPrefix "+" part).getD part
  if digits ≠ [] ∧ digits.all Char.isDigit = true ∧ Nat.ofDigitChars 10 digits 0 < 2 ^ 64 then
    some (Nat.ofDigitChars 10 digits 0)
  else none

/-- The old start of a header `@@ -start,count +start,count @@`, if it has three parts. -/
def hunkOldStart (header : Line) : Option Nat :=
  match headerParts header with
  | _ :: part :: _ :: _ =>
    let oldRange := (stripPrefix "-" part).getD part
    some ((parseUsize (oldRange.takeWhile fun c => c ≠ ',')).getD 1)
  | _ => none

/-- The line ends the hunk before it. -/
def EndsHunk (line : Line) : Prop := StartsWith line "@@" ∨ StartsWith line "---"

instance (line : Line) : Decidable (EndsHunk line) := inferInstanceAs (Decidable (_ ∨ _))

/-- The old line that a line of a hunk stands for: a deleted line or a context line. -/
def readOld : Line → List Line
  | '-' :: content => [content]
  | ' ' :: content => [content]
  | _ => []

/-- The new line that a line of a hunk stands for: an inserted line or a context line. -/
def readNew : Line → List Line
  | '+' :: content => [content]
  | ' ' :: content => [content]
  | _ => []

/-- The old and the new lines of a hunk, and the lines that are left. -/
def hunkLines (oldLines newLines : List Line) :
    List Line → (List Line × List Line) × List Line
  | [] => ((oldLines, newLines), [])
  | line :: lines =>
    if EndsHunk line then ((oldLines, newLines), line :: lines)
    else hunkLines (oldLines ++ readOld line) (newLines ++ readNew line) lines

/-- The hunk of a header and the lines behind it, and the lines that are left. -/
def parseHunk (header : Line) (lines : List Line) : Option Hunk × List Line :=
  match hunkOldStart header with
  | none => (none, lines)
  | some oldStart =>
    let read := hunkLines [] [] lines
    (some ⟨oldStart, read.1.1, read.1.2⟩, read.2)

lemma hunkLines_suffix {oldLines newLines lines : List Line} :
    (hunkLines oldLines newLines lines).2 <:+ lines := by
  induction lines generalizing oldLines newLines with
  | nil => exact List.suffix_refl _
  | cons line lines ih =>
    rw [hunkLines]
    split_ifs
    · exact List.suffix_refl _
    · exact ih.trans (List.suffix_cons _ _)

lemma parseHunk_suffix {header : Line} {lines : List Line} :
    (parseHunk header lines).2 <:+ lines := by
  rw [parseHunk]
  split
  · exact List.suffix_refl _
  · exact hunkLines_suffix

/-- The hunks of one file, and the lines that are left. -/
def parseHunks : List Line → List Hunk × List Line
  | [] => ([], [])
  | line :: lines =>
    if StartsWith line "---" then ([], line :: lines)
    else if StartsWith line "@@" then
      let read := parseHunk line lines
      let rest := parseHunks read.2
      (read.1.toList ++ rest.1, rest.2)
    else parseHunks lines
termination_by lines => lines.length
decreasing_by
  · exact Nat.lt_succ_of_le parseHunk_suffix.length_le
  · exact Nat.lt_succ_self _

lemma parseHunks_suffix {lines : List Line} : (parseHunks lines).2 <:+ lines := by
  fun_induction parseHunks lines with
  | case1 => exact List.suffix_refl _
  | case2 => exact List.suffix_refl _
  | case3 _ _ _ _ read rest ih =>
    exact ih.trans (parseHunk_suffix.trans (List.suffix_cons _ _))
  | case4 _ _ _ _ ih => exact ih.trans (List.suffix_cons _ _)

/-! ### Files -/

def devNull : Line := "/dev/null".toList

/-- The name in a header, up to a tab. -/
def headerFile (start : String) (line : Line) : Line :=
  ((stripPrefix start line).getD []).takeWhile fun c => c ≠ '\t'

/-- The path that a patch is for. -/
def patchPath (oldFile newFile : Line) : Line :=
  if newFile = devNull then (stripPrefix "a/" oldFile).getD oldFile
  else (stripPrefix "b/" newFile).getD newFile

/-- The patch, if it has hunks or is for a whole file. -/
def pushPatch (patch : FilePatch) : List FilePatch :=
  if patch.hunks ≠ [] ∨ patch.isNew = true ∨ patch.isDelete = true then [patch] else []

/-- The patch of a file with the hunks that were read for it. -/
def filePatch (oldFile newFile : Line) (hunks : List Hunk) : FilePatch :=
  ⟨patchPath oldFile newFile, hunks, oldFile = devNull, newFile = devNull⟩

/-- The loop over the lines of the text. -/
def parsePatchLines : List Line → List FilePatch
  | [] => []
  | line :: lines =>
    if StartsWith line "---" then
      match lines with
      | [] => []
      | next :: rest =>
        if StartsWith next "+++" then
          let read := parseHunks rest
          pushPatch (filePatch (headerFile "--- " line) (headerFile "+++ " next) read.1) ++
            parsePatchLines read.2
        else parsePatchLines (next :: rest)
    else parsePatchLines lines
termination_by lines => lines.length
decreasing_by
  · have hle : (parseHunks rest).2.length ≤ rest.length := parseHunks_suffix.length_le
    simp only [List.length_cons]
    omega
  · exact Nat.lt_succ_self _
  · exact Nat.lt_succ_self _

def parsePatch (text : List Char) : List FilePatch := parsePatchLines (LineLog.lines '\n' '\r' text)

/-! ### Applying a patch -/

/-- What a file holds. -/
inductive FileContents
  | text (contents : List Char)
  | notUtf8 (bytes : List UInt8)
  deriving DecidableEq

/-- `Vec::splice`, which panics where the range is not within the lines. -/
def splice (lines : List Line) (start stop : Nat) (newLines : List Line) : Option (List Line) :=
  if start ≤ stop ∧ stop ≤ lines.length then
    some (lines.take start ++ (newLines ++ lines.drop stop))
  else none

/-- The end is clamped to the file, the start is not. -/
def applyHunk (hunk : Hunk) (lines : List Line) : Option (List Line) :=
  let start := hunk.oldStart - 1
  splice lines start (min (start + hunk.oldLines.length) lines.length) hunk.newLines

/-- The hunks are applied from the last to the first. -/
def applyHunks (hunks : List Hunk) (lines : List Line) : Option (List Line) :=
  hunks.foldr (fun hunk lines => lines.bind (applyHunk hunk)) (some lines)

/-- `lines.join("\n") + "\n"`. -/
def joinPatched (lines : List Line) : List Char := ['\n'].intercalate lines ++ ['\n']

/-- The modification of the contents. -/
def modifiedContents (hunks : List Hunk) (contents : List Char) : Option (List Char) :=
  (applyHunks hunks (LineLog.lines '\n' '\r' contents)).map joinPatched

def modifiedMessage (hunks : List Hunk) : String :=
  "modified (" ++ toString hunks.length ++ " hunks)"

/-- The answer, and the file at the path after the call; nothing where the call panics. -/
def applyPatchWithDiff (patch : FilePatch) (file : Option FileContents) :
    Option (Except String String × Option FileContents) :=
  if patch.isDelete then
    if file.isSome then some (.ok "deleted", none) else some (.error "file does not exist", none)
  else if patch.isNew then
    if file.isSome then some (.error "file already exists", file)
    else
      some (.ok "created", some (.text (LineLog.frame '\n' (patch.hunks.flatMap Hunk.newLines))))
  else
    match file with
    | none => some (.error "file does not exist", none)
    | some (.notUtf8 bytes) =>
      some (.error "stream did not contain valid UTF-8", some (.notUtf8 bytes))
    | some (.text contents) =>
      (modifiedContents patch.hunks contents).map fun newContents =>
        (.ok (modifiedMessage patch.hunks), some (.text newContents))

end Jcode
