import Jcode.Foundation.LineLog
import Jcode.Tool.ApplyPatch

/-!
# The parser of `apply_patch`

Three loops share the lines that are left: over the directives of the patch, over the chunks of an
update, and over the lines of a chunk. Each gives back the lines it has not gone over.
-/

namespace Jcode

inductive PatchHunk
  | addFile (path : Line) (contents : List Char)
  | deleteFile (path : Line)
  | updateFile (path : Line) (moveTo : Option Line) (chunks : List UpdateFileChunk)
  deriving DecidableEq

/-- `str::strip_prefix`. -/
def stripPrefix (start : String) (line : Line) : Option Line :=
  if start.toList <+: line then some (line.drop start.length) else none

def StartsWith (line : Line) (start : String) : Prop := start.toList <+: line

instance (line : Line) (start : String) : Decidable (StartsWith line start) :=
  inferInstanceAs (Decidable (_ <+: _))

def endOfFile : Line := "*** End of File".toList

/-! ### One chunk -/

/-- What a line of a chunk says about the old lines: a context line or a removed one. -/
def oldContent : Line → Option Line
  | [] => some []
  | ' ' :: content => some content
  | '-' :: content => some content
  | _ => none

/-- What a line of a chunk says about the new lines: a context line or an added one. -/
def newContent : Line → Option Line
  | [] => some []
  | ' ' :: content => some content
  | '+' :: content => some content
  | _ => none

def IsDiffLine (line : Line) : Prop := (oldContent line).isSome ∨ (newContent line).isSome

instance (line : Line) : Decidable (IsDiffLine line) := inferInstanceAs (Decidable (_ ∨ _))

/-- What the loop over the lines of a chunk collects. -/
structure ChunkLines where
  oldLines : List Line
  newLines : List Line
  isEndOfFile : Bool
  hadDiffLines : Bool
  deriving DecidableEq

/-- The lines of a chunk, and those that are left. -/
def chunkLines (oldLines newLines : List Line) (hadDiffLines : Bool) :
    List Line → ChunkLines × List Line
  | [] => (⟨oldLines, newLines, false, hadDiffLines⟩, [])
  | cl :: lines =>
    if cl = endOfFile then (⟨oldLines, newLines, true, hadDiffLines⟩, lines)
    else if StartsWith cl "*** " ∨ StartsWith cl "@@" then
      (⟨oldLines, newLines, false, hadDiffLines⟩, cl :: lines)
    else if IsDiffLine cl then
      chunkLines (oldLines ++ (oldContent cl).toList) (newLines ++ (newContent cl).toList)
        true lines
    else if hadDiffLines then (⟨oldLines, newLines, false, hadDiffLines⟩, cl :: lines)
    else chunkLines oldLines newLines hadDiffLines lines

lemma chunkLines_suffix {oldLines newLines lines : List Line} {hadDiffLines : Bool} :
    (chunkLines oldLines newLines hadDiffLines lines).2 <:+ lines := by
  induction lines generalizing oldLines newLines hadDiffLines with
  | nil => exact List.suffix_refl _
  | cons cl lines ih =>
    rw [chunkLines]
    split_ifs
    · exact List.suffix_cons _ _
    · exact List.suffix_refl _
    · exact ih.trans (List.suffix_cons _ _)
    · exact List.suffix_refl _
    · exact ih.trans (List.suffix_cons _ _)

/-- The chunk, if it has diff lines or a context. -/
def pushChunk (changeContext : Option Line) (lines : ChunkLines) : List UpdateFileChunk :=
  if lines.hadDiffLines = true ∨ changeContext.isSome then
    [⟨changeContext, lines.oldLines, lines.newLines, lines.isEndOfFile⟩]
  else []

/-! ### One update -/

/-- The line between two chunks ends the update. -/
def endsUpdate (current : Line) : Prop := StartsWith current "*** " ∧ current ≠ endOfFile

instance (current : Line) : Decidable (endsUpdate current) := inferInstanceAs (Decidable (_ ∧ _))

/-- A line between two chunks that is passed over. -/
def isBlankBetween (current : Line) : Prop :=
  trimLine current = [] ∧ ¬ StartsWith current " " ∧ ¬ StartsWith current "+" ∧
    ¬ StartsWith current "-"

instance (current : Line) : Decidable (isBlankBetween current) :=
  inferInstanceAs (Decidable (_ ∧ _))

/-- The context of the chunk that a line begins, and whether the line is its header. -/
def chunkHeader (isFirstChunk : Bool) (current : Line) : Option (Option Line × Bool) :=
  if current = "@@".toList then some (none, true)
  else
    match stripPrefix "@@ " current with
    | some context => some (some context, true)
    | none => if isFirstChunk then some (none, false) else none

lemma chunkHeader_false {isFirstChunk : Bool} {current : Line} {context : Option Line}
    (h : chunkHeader isFirstChunk current = some (context, false)) : isFirstChunk = true := by
  by_contra hfirst
  rw [chunkHeader] at h
  split_ifs at h
  · cases h
  · cases hcontext : stripPrefix "@@ " current with
    | none => simp [hcontext] at h
    | some context => simp [hcontext] at h

/-- The lines that the chunk is read from: a header is gone over. -/
def chunkInput (isHeader : Bool) (line : Line) (lines : List Line) : List Line :=
  if isHeader then lines else line :: lines

lemma chunkInput_suffix {isHeader : Bool} {line : Line} {lines : List Line} :
    chunkInput isHeader line lines <:+ line :: lines := by
  cases isHeader
  · exact List.suffix_refl _
  · exact List.suffix_cons _ _

/-- The chunks of an update, and the lines that are left. -/
def updateChunks (isFirstChunk : Bool) : List Line → List UpdateFileChunk × List Line
  | [] => ([], [])
  | line :: lines =>
    let current := trimEnd line
    if endsUpdate current then ([], line :: lines)
    else if isBlankBetween current then updateChunks isFirstChunk lines
    else
      match _hheader : chunkHeader isFirstChunk current with
      | none => ([], line :: lines)
      | some (changeContext, isHeader) =>
        let read := chunkLines [] [] false (chunkInput isHeader line lines)
        let rest := updateChunks false read.2
        (pushChunk changeContext read.1 ++ rest.1, rest.2)
termination_by lines => 2 * lines.length + isFirstChunk.toNat
decreasing_by
  · rw [List.length_cons]
    omega
  · -- the line is gone, or the chunk is the first one and has no header
    have hle : (chunkLines [] [] false (chunkInput isHeader line lines)).2.length ≤ _ :=
      chunkLines_suffix.length_le
    rw [List.length_cons]
    cases isHeader with
    | true =>
      simp only [chunkInput, if_true, Bool.toNat_false] at hle ⊢
      omega
    | false =>
      rw [chunkHeader_false _hheader]
      simp only [chunkInput, Bool.false_eq_true, if_false, List.length_cons, Bool.toNat_false,
        Bool.toNat_true] at hle ⊢
      omega

/-- The lines of an update, with the line behind the header where the file goes. -/
def takeMoveTo : List Line → Option Line × List Line
  | [] => (none, [])
  | line :: lines =>
    match stripPrefix "*** Move to: " (trimEnd line) with
    | some target => (some (trimLine target), lines)
    | none => (none, line :: lines)

/-- The added lines of a new file, and the lines that are left. -/
def addedContents (contents : List Char) : List Line → List Char × List Line
  | [] => (contents, [])
  | current :: lines =>
    if StartsWith current "*** " then (contents, current :: lines)
    else
      match stripPrefix "+" current with
      | some added => addedContents (contents ++ added ++ ['\n']) lines
      | none => addedContents contents lines

/-! ### The patch -/

/-- One turn over a line and those behind it: a directive, if the line is one, and the lines that
are left. -/
def parseDirective (line : Line) (lines : List Line) :
    Except String (Option PatchHunk × List Line) :=
  match stripPrefix "*** Add File: " line with
  | some path =>
    let added := addedContents [] lines
    .ok (some (.addFile (trimLine path) added.1), added.2)
  | none =>
    match stripPrefix "*** Delete File: " line with
    | some path => .ok (some (.deleteFile (trimLine path)), lines)
    | none =>
      match stripPrefix "*** Update File: " line with
      | some path =>
        let moved := takeMoveTo lines
        let update := updateChunks true moved.2
        if update.1 = [] then
          .error ("Update file hunk for '" ++ String.ofList (trimLine path) ++ "' has no changes")
        else .ok (some (.updateFile (trimLine path) moved.1 update.1), update.2)
      | none => .ok (none, lines)

variable {isFirstChunk : Bool} {lines left : List Line} {chunks : List UpdateFileChunk}
  {line : Line}

lemma updateChunks_suffix : (updateChunks isFirstChunk lines).2 <:+ lines := by
  fun_induction updateChunks isFirstChunk lines with
  | case1 => exact List.suffix_refl _
  | case2 => exact List.suffix_refl _
  | case3 _ _ _ _ _ _ ih => exact ih.trans (List.suffix_cons _ _)
  | case4 => exact List.suffix_refl _
  | case5 _ line lines _ _ _ _ isHeader _ read rest ih =>
    have hread : read.2 <:+ chunkInput isHeader line lines := chunkLines_suffix
    exact ih.trans (hread.trans chunkInput_suffix)

lemma takeMoveTo_suffix : (takeMoveTo lines).2 <:+ lines := by
  cases lines with
  | nil => exact List.suffix_refl _
  | cons line lines =>
    rw [takeMoveTo]
    split
    · exact List.suffix_cons _ _
    · exact List.suffix_refl _

lemma addedContents_suffix {contents : List Char} :
    (addedContents contents lines).2 <:+ lines := by
  induction lines generalizing contents with
  | nil => exact List.suffix_refl _
  | cons current lines ih =>
    rw [addedContents]
    split_ifs
    · exact List.suffix_refl _
    · split
      · exact ih.trans (List.suffix_cons _ _)
      · exact ih.trans (List.suffix_cons _ _)

/-- What a turn leaves is an end of the lines. -/
lemma parseDirective_suffix {hunk : Option PatchHunk}
    (h : parseDirective line lines = .ok (hunk, left)) : left <:+ lines := by
  rw [parseDirective] at h
  split at h
  · cases h
    exact addedContents_suffix
  · split at h
    · cases h
      exact List.suffix_refl _
    · split at h
      · dsimp only at h
        split_ifs at h
        cases h
        exact updateChunks_suffix.trans takeMoveTo_suffix
      · cases h
        exact List.suffix_refl _

def isEndPatch (line : Line) : Prop := trimLine (trimEnd line) = "*** End Patch".toList

instance (line : Line) : Decidable (isEndPatch line) := inferInstanceAs (Decidable (_ = _))

/-- The directives up to the end of the patch. -/
def parseDirectives : List Line → Except String (List PatchHunk)
  | [] => .ok []
  | line :: lines =>
    if isEndPatch line then .ok []
    else
      match _hturn : parseDirective (trimEnd line) lines with
      | .error e => .error e
      | .ok (hunk, left) => (parseDirectives left).map (hunk.toList ++ ·)
termination_by lines => lines.length
decreasing_by exact Nat.lt_succ_of_le (parseDirective_suffix _hturn).length_le

/-- The lines behind the line that begins the patch. -/
def patchLines (input : String) : Option (List Line) :=
  match (LineLog.lines '\n' '\r' input.toList).dropWhile
      fun line => trimLine line ≠ "*** Begin Patch".toList with
  | [] => none
  | _ :: lines => some lines

def parseApplyPatch (input : String) : Except String (List PatchHunk) :=
  match patchLines input with
  | none => .error "Patch must contain *** Begin Patch"
  | some lines =>
    match parseDirectives lines with
    | .error e => .error e
    | .ok hunks => if hunks = [] then .error "No valid patch directives found" else .ok hunks

end Jcode
