import Jcode.Foundation.LineLog
import Jcode.Foundation.Occurrences
import Jcode.Tool.ApplyPatch
import Mathlib.Data.List.Infix

/-!
# The edit tool

`edit` replaces a text in a file if it is found there once. It is looked for from the beginning and
again behind what was found, and its line is counted in the text in front of it.
-/

namespace Jcode

structure EditInput where
  filePath : String
  oldString : List Char
  newString : List Char
  replaceAll : Bool
deriving DecidableEq

/-- What reading the file gives. -/
inductive EditedFile
  | missing
  | unreadable (error : String)
  | text (content : List Char)
deriving DecidableEq

/-- What is written back, and what the answer is made from. -/
structure EditOutput where
  newContent : List Char
  occurrences : Nat
  startLine : Nat
  endLine : Nat
  context : Nat × Nat × List Line
deriving DecidableEq

def textLines (text : List Char) : List Line := LineLog.lines '\n' '\r' text

/-- Find the line number where a text starts, from one. -/
def findLineNumber (content substring : List Char) : Nat :=
  match findFirst substring content with
  | some (before, _) => (textLines before).length + 1
  | none => 1

/-- Lines around the edited region, with the first and the last one's number. -/
def extractContext (content : List Char) (editStart editEnd padding : Nat) :
    Nat × Nat × List Line :=
  let lines := textLines content
  let start := editStart - (padding + 1)
  let stop := min (editEnd + padding) lines.length
  (start + 1, stop, (lines.take stop).drop start)

/-- `try_flexible_match` finds nothing that it would replace; it says what is close. Rust panics
where there are no old lines, which is for an empty text only, and that is always found. -/
def tryFlexibleMatch (content oldString : List Char) (filePath : String) : String :=
  let trimmed := trimLine oldString
  if trimmed <:+: content ∧ trimmed ≠ oldString then
    "old_string not found exactly, but found after trimming whitespace.\n" ++
      "Try using the exact string from the file, including leading/trailing whitespace."
  else
    let oldLines := textLines oldString
    let contentLines := textLines content
    let found := (List.range (contentLines.length + 1 - oldLines.length)).find? fun i =>
      (((contentLines.drop i).take oldLines.length).zip oldLines).all fun (a, b) =>
        trimLine a == trimLine b
    match found with
    | some i =>
      "old_string not found exactly, but found with different indentation around line " ++
        toString (i + 1) ++ ".\nMake sure to preserve the exact whitespace from the file."
    | none =>
      "old_string not found in " ++ filePath ++
        ".\nUse the read tool to see the current file contents."

/-- `replacen` with a count of one. -/
def replaceFirst (content oldString newString : List Char) : List Char :=
  match findFirst oldString content with
  | some (before, after) => before ++ newString ++ after
  | none => content

/-- `matches(..).count()`. -/
def countMatches (content oldString : List Char) : Nat := (splitAll oldString content).length - 1

/-- `EditTool::execute`; writing the file may fail. -/
def editExecute (file : EditedFile) (writeError : Option String) (params : EditInput) :
    Except String EditOutput :=
  if params.oldString = params.newString then
    .error "old_string and new_string must be different"
  else
    match file with
    | .missing => .error ("File not found: " ++ params.filePath)
    | .unreadable error => .error error
    | .text content =>
      let occurrences := countMatches content params.oldString
      if occurrences = 0 then
        .error (tryFlexibleMatch content params.oldString params.filePath)
      else if occurrences > 1 ∧ params.replaceAll = false then
        .error ("old_string found " ++ toString occurrences ++ " times in the file. Either:\n" ++
          "1. Provide more context to make it unique, or\n" ++
          "2. Set replace_all: true to replace all occurrences")
      else
        let newContent :=
          if params.replaceAll then
            List.intercalate params.newString (splitAll params.oldString content)
          else replaceFirst content params.oldString params.newString
        let startLine := findLineNumber content params.oldString
        match writeError with
        | some error => .error error
        | none =>
          let endLine := startLine + ((textLines params.newString).length - 1)
          .ok
            { newContent
              occurrences
              startLine
              endLine
              context := extractContext newContent startLine endLine 3 }

/-! ### What is replaced -/

/-- The only occurrence is replaced, and its line is one more than the newlines in front of it. -/
def ReplacesOnlyMatch (content oldString newString : List Char) (out : EditOutput) : Prop :=
  ∃ before after, content = before ++ oldString ++ after ∧
    (∀ before', OccursAt oldString content before' → before' = before) ∧
    out.newContent = before ++ newString ++ after ∧
    out.startLine = 1 + before.count '\n'

/-- The text begins with a line. -/
def AtLineStart (before : List Char) : Prop := before = [] ∨ before.getLast? = some '\n'

variable {filePath : String} {file : EditedFile} {writeError : Option String}
  {content oldString newString before after : List Char} {out : EditOutput}

lemma length_textLines_eq_count :
    (textLines before).length = before.count '\n' ↔ AtLineStart before := by
  rw [textLines, LineLog.length_lines, AtLineStart]
  split_ifs with h
  · simpa using h.symm
  · simpa [and_comm] using not_or.mp h

/-- What the edit comes to where it replaces one match. -/
def editedOnce (content oldString newString : List Char) : EditOutput :=
  let newContent := replaceFirst content oldString newString
  let startLine := findLineNumber content oldString
  let endLine := startLine + ((textLines newString).length - 1)
  { newContent
    occurrences := 1
    startLine
    endLine
    context := extractContext newContent startLine endLine 3 }

/-- Without `replace_all` the edit goes through for one match only. -/
lemma editExecute_eq_ok :
    editExecute (.text content) writeError ⟨filePath, oldString, newString, false⟩ = .ok out ↔
      (oldString ≠ newString ∧ countMatches content oldString = 1 ∧ writeError = none) ∧
        editedOnce content oldString newString = out := by
  simp only [editExecute, and_true, Bool.false_eq_true, if_false]
  split_ifs with hsame hzero hmany
  · simp [hsame]
  · simp [hzero]
  · have hne : countMatches content oldString ≠ 1 := by
      intro hone
      exact absurd hmany (by omega)
    simp [hne]
  · have hone : countMatches content oldString = 1 := by omega
    cases writeError with
    | none => simp [hsame, hone, editedOnce]
    | some error => simp

/-- Where there is one match, the edit is right if nothing overlaps it and it begins a line. -/
lemma replacesOnlyMatch_editedOnce (hcount : countMatches content oldString = 1) :
    ReplacesOnlyMatch content oldString newString (editedOnce content oldString newString) ↔
      NoOverlap oldString content ∧
        ∀ before, OccursAt oldString content before → AtLineStart before := by
  have hpieces : (splitAll oldString content).length = 2 := by
    rw [countMatches] at hcount
    omega
  obtain ⟨first, rest, hfind, heq, -, -⟩ := exists_of_length_splitAll hpieces
  have hfirst : OccursAt oldString content first := occursAt_of_eq heq
  have hline : (editedOnce content oldString newString).startLine =
      (textLines first).length + 1 := by
    simp only [editedOnce, findLineNumber, hfind]
  constructor
  · rintro ⟨before, after, -, hunique, -, hstart⟩
    have hbefore : first = before := hunique first hfirst
    constructor
    · intro b b' hb hb' hlt
      rw [hunique b hb, hunique b' hb'] at hlt
      exact absurd hlt (lt_irrefl _)
    · intro b hb
      rw [hunique b hb, ← hbefore, ← length_textLines_eq_count]
      rw [hline, ← hbefore] at hstart
      omega
  · rintro ⟨hno, hstarts⟩
    refine ⟨first, rest, heq, fun b hb => hb.unique_of_noOverlap hpieces hno hfirst, ?_, ?_⟩
    · simp only [editedOnce, replaceFirst, hfind]
    · rw [hline, length_textLines_eq_count.mpr (hstarts first hfirst), Nat.add_comm]

/-- The edit replaces an unambiguous match and names its line exactly if the one match that it
finds does not overlap another occurrence and begins a line. -/
theorem editExecute_replacesOnlyMatch_iff (filePath : String) (writeError : Option String)
    (content oldString newString : List Char) :
    (∀ out, editExecute (.text content) writeError ⟨filePath, oldString, newString, false⟩ =
        .ok out → ReplacesOnlyMatch content oldString newString out) ↔
      (oldString ≠ newString → countMatches content oldString = 1 → writeError = none →
        NoOverlap oldString content ∧
          ∀ before, OccursAt oldString content before → AtLineStart before) := by
  constructor
  · intro h hne hcount hwrite
    apply (replacesOnlyMatch_editedOnce hcount).mp
    exact h _ (editExecute_eq_ok.mpr ⟨⟨hne, hcount, hwrite⟩, rfl⟩)
  · intro h out hout
    obtain ⟨⟨hne, hcount, hwrite⟩, rfl⟩ := editExecute_eq_ok.mp hout
    exact (replacesOnlyMatch_editedOnce hcount).mpr (h hne hcount hwrite)

/-- The two occurrences of `aa` in `aaa` overlap, and one match is found. -/
theorem not_editExecute_replacesOnlyMatch :
    ¬ ∀ (filePath : String) (writeError : Option String)
      (content oldString newString : List Char) (out : EditOutput),
      editExecute (.text content) writeError ⟨filePath, oldString, newString, false⟩ = .ok out →
        ReplacesOnlyMatch content oldString newString out := by
  intro h
  have hdone : editExecute (.text ['a', 'a', 'a']) none ⟨"file", ['a', 'a'], ['b'], false⟩ =
      .ok (editedOnce ['a', 'a', 'a'] ['a', 'a'] ['b']) := by decide +kernel
  obtain ⟨before, after, -, hunique, -, -⟩ := h _ _ _ _ _ _ hdone
  have hfirst : [] = before := hunique [] (by decide +kernel)
  have hsecond : ['a'] = before := hunique ['a'] (by decide +kernel)
  rw [← hfirst] at hsecond
  cases hsecond

end Jcode
