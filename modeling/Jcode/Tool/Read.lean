import Jcode.Compaction.Accounting
import Jcode.Foundation.CharBytes
import Jcode.Foundation.LineLog

/-!
# Pages of a file

The `read` tool shows the lines of a text file from an offset on, as many as a limit, and says
where to continue. The end of the range is a sum that is not checked, and a read of no lines at all
says to continue where it has begun.
-/

namespace Jcode

namespace ReadTool

/-! ### Ranges -/

def defaultLimit : Nat := 5000

def maxLineLen : Nat := 2000

/-- The numbers are `usize`. -/
structure ReadInput where
  startLine : Option Nat
  endLine : Option Nat
  offset : Option Nat
  limit : Option Nat
  deriving DecidableEq

inductive ReadRangeStyle
  | offsetLimit
  | startEnd
  deriving DecidableEq

structure NormalizedReadRange where
  offset : Nat
  limit : Nat
  style : ReadRangeStyle
  deriving DecidableEq

/-- The sum of two `usize`, or nothing when it overflows. -/
def checkedAdd (a b : Nat) : Option Nat := if a + b < 2 ^ 64 then some (a + b) else none

def NormalizedReadRange.nextOffset (range : NormalizedReadRange) : Option Nat :=
  checkedAdd range.offset range.limit

def NormalizedReadRange.nextStartLine (range : NormalizedReadRange) : Option Nat :=
  range.nextOffset.bind fun nextOffset => checkedAdd nextOffset 1

def hasStartEnd (params : ReadInput) : Bool := params.startLine.isSome || params.endLine.isSome

def hasMixedOffset (params : ReadInput) : Bool :=
  match params.startLine, params.endLine, params.offset with
  | some startLine, _, some offset =>
    if startLine = 0 then true else checkedAdd offset 1 ≠ some startLine
  | none, some _, some offset => offset ≠ 0
  | _, _, offset => offset.isSome

def normalizeReadRange (params : ReadInput) : Except String NormalizedReadRange :=
  if hasStartEnd params && hasMixedOffset params then
    .error "Use either start_line/end_line (1-based) or offset (0-based), not both. `limit` may be used with either style."
  else if hasStartEnd params then
    let startLine := params.startLine.getD 1
    if startLine = 0 then .error "start_line must be 1 or greater (it is 1-based)."
    else
      match params.endLine with
      | some endLine =>
        if endLine = 0 then .error "end_line must be 1 or greater (it is 1-based)."
        else if endLine < startLine then
          .error s!"end_line ({endLine}) must be greater than or equal to start_line ({startLine})."
        else .ok ⟨startLine - 1, endLine - startLine + 1, .startEnd⟩
      | none => .ok ⟨startLine - 1, params.limit.getD defaultLimit, .startEnd⟩
  else .ok ⟨params.offset.getD 0, params.limit.getD defaultLimit, .offsetLimit⟩

/-! ### The read -/

/-- No text is longer than `isize::MAX` bytes. -/
structure TextFile where
  content : List Char
  fits : CharBytes.width content < 2 ^ 63

def TextFile.lines (file : TextFile) : List (List Char) := LineLog.lines '\n' '\r' file.content

def padded (lineNum : Nat) : String :=
  "".pushn ' ' (5 - (toString lineNum).length) ++ toString lineNum

def renderLine (lineNum : Nat) (line : List Char) : String :=
  if CharBytes.width line > maxLineLen then
    padded lineNum ++ "\t" ++ truncateStrBoundary (String.ofList line) maxLineLen ++ "...\n"
  else padded lineNum ++ "\t" ++ String.ofList line ++ "\n"

structure ReadState where
  output : String
  totalLines : Nat
  truncatedLineCount : Nat

/-- One turn of the loop over the lines. -/
def readLine (range : NormalizedReadRange) (endExclusive : Nat) (state : ReadState)
    (line : List Char × Nat) : ReadState :=
  if line.2 < range.offset then { state with totalLines := line.2 + 1 }
  -- the remaining lines are only counted
  else if line.2 ≥ endExclusive then { state with totalLines := line.2 + 1 }
  else
    { output := state.output ++ renderLine (line.2 + 1) line.1
      totalLines := line.2 + 1
      truncatedLineCount :=
        if CharBytes.width line.1 > maxLineLen then state.truncatedLineCount + 1
        else state.truncatedLineCount }

inductive ContinuationHint
  | offset (offset : Nat)
  | startLine (startLine : Nat)
  deriving DecidableEq

def ContinuationHint.text : ContinuationHint → String
  | .offset next => s!"offset={next}"
  | .startLine next => s!"start_line={next}"

def continuationHint (range : NormalizedReadRange) : Option ContinuationHint :=
  match range.style with
  | .offsetLimit => range.nextOffset.map .offset
  | .startEnd => range.nextStartLine.map .startLine

def remark (remaining : Nat) (hint : ContinuationHint) : String :=
  s!"\n... {remaining} more lines (use {hint.text} to continue)\n"

/-- The answer to the caller, the hint that is in it, and the summary for the other sessions. -/
structure ReadAnswer where
  output : String
  hint : Option ContinuationHint
  summary : String
  deriving DecidableEq

def orEmptyFile (output : String) : String := if output = "" then "(empty file)" else output

/-- The read of a text file, or nothing when its arithmetic overflows. -/
def readText (file : TextFile) (range : NormalizedReadRange) : Option ReadAnswer := do
  let endExclusive ← checkedAdd range.offset range.limit
  let state := file.lines.zipIdx.foldl (readLine range endExclusive) ⟨"", 0, 0⟩
  let stop := min endExclusive state.totalLines
  let firstLine ← checkedAdd range.offset 1
  let summary := s!"read lines {firstLine}-{stop} of {state.totalLines}"
  if stop < state.totalLines then
    let hint ← continuationHint range
    let output := state.output ++ remark (state.totalLines - stop) hint
    return ⟨orEmptyFile output, some hint, summary⟩
  else return ⟨orEmptyFile state.output, none, summary⟩

variable {file : TextFile} {params : ReadInput} {range : NormalizedReadRange} {a b c k : Nat}
  {lines : List (List Char)} {answer : ReadAnswer}

/-! ### What a read is to show -/

/-- The lines with an index from `start` on and before `stop`. -/
def shown (lines : List (List Char × Nat)) (start stop : Nat) : List (List Char × Nat) :=
  lines.filter fun line => start ≤ line.2 ∧ line.2 < stop

def renderLines (lines : List (List Char × Nat)) : String :=
  String.join (lines.map fun line => renderLine (line.2 + 1) line.1)

/-- The hint points behind the start of the range. -/
def ContinuationHint.IsBeyond (range : NormalizedReadRange) : ContinuationHint → Prop
  | .offset next => range.offset < next
  | .startLine next => range.offset + 1 < next

/-- The answer shows the range, and says how to go on when lines remain. -/
inductive Shows (file : TextFile) (range : NormalizedReadRange) (answer : ReadAnswer) : Prop
  | last (hhint : answer.hint = none) (hall : file.lines.length ≤ range.offset + range.limit)
      (houtput : answer.output = orEmptyFile
        (renderLines (shown file.lines.zipIdx range.offset (range.offset + range.limit))))
  | more {hint : ContinuationHint} (hhint : answer.hint = some hint) (hbeyond : hint.IsBeyond range)
      (hremain : range.offset + range.limit < file.lines.length)
      (houtput : answer.output =
        renderLines (shown file.lines.zipIdx range.offset (range.offset + range.limit)) ++
          remark (file.lines.length - (range.offset + range.limit)) hint)

/-- The read ends without overflow and shows its range. -/
def ReadsExactly (file : TextFile) (range : NormalizedReadRange) : Prop :=
  ∃ answer, readText file range = some answer ∧ Shows file range answer

/-- The range ends before the largest number, and shows a line if there is one left. -/
structure Fits (file : TextFile) (range : NormalizedReadRange) : Prop where
  stop : range.offset + range.limit < 2 ^ 64
  first : range.offset + 1 < 2 ^ 64
  progress : 0 < range.limit ∨ file.lines.length ≤ range.offset

/-! ### The loop over the lines -/

lemma renderLines_cons {line : List Char × Nat} {rest : List (List Char × Nat)} :
    renderLines (line :: rest) = renderLine (line.2 + 1) line.1 ++ renderLines rest := by
  simp [renderLines, String.join_cons]

lemma output_readLine {state : ReadState} {line : List Char × Nat} :
    (readLine range b state line).output =
      state.output ++ renderLines (shown [line] range.offset b) := by
  by_cases hin : range.offset ≤ line.2 ∧ line.2 < b
  · have hshown : shown [line] range.offset b = [line] := by simp [shown, hin]
    rw [readLine, if_neg (by omega), if_neg (by omega), hshown]
    simp [renderLines]
  · have hshown : shown [line] range.offset b = [] := by simpa [shown] using hin
    rw [readLine, hshown]
    split_ifs with hbefore hbehind
    · simp [renderLines]
    · simp [renderLines]
    all_goals exact absurd ⟨not_lt.mp hbefore, not_le.mp hbehind⟩ hin

lemma output_foldl {state : ReadState} {numbered : List (List Char × Nat)} :
    (numbered.foldl (readLine range b) state).output =
      state.output ++ renderLines (shown numbered range.offset b) := by
  induction numbered generalizing state with
  | nil => simp [shown, renderLines]
  | cons line rest ih =>
    have hsplit : shown (line :: rest) range.offset b =
        shown [line] range.offset b ++ shown rest range.offset b := by
      simp [shown, List.filter_cons]
      split_ifs <;> rfl
    rw [List.foldl_cons, ih, output_readLine, hsplit, String.append_assoc]
    simp [renderLines, String.join_append]

lemma totalLines_foldl {state : ReadState} (h : state.totalLines = k) :
    ((lines.zipIdx k).foldl (readLine range b) state).totalLines = k + lines.length := by
  induction lines generalizing state k with
  | nil => simp [h]
  | cons line lines ih =>
    have hline : (readLine range b state (line, k)).totalLines = k + 1 := by
      rw [readLine]
      split_ifs <;> rfl
    rw [List.zipIdx_cons, List.foldl_cons, ih hline, List.length_cons]
    omega

lemma length_lines_lt (file : TextFile) : file.lines.length + 1 < 2 ^ 64 := by
  have hchars : ∀ content : List Char, content.length ≤ CharBytes.width content := by
    intro content
    induction content with
    | nil => simp
    | cons c content ih =>
      have hpos := c.utf8Size_pos
      simp only [List.length_cons, CharBytes.width_cons]
      omega
  have hcount : file.content.count '\n' ≤ file.content.length := List.count_le_length
  have hlines : file.lines.length ≤ file.content.count '\n' + 1 := by
    rw [TextFile.lines, LineLog.length_lines]
    split_ifs <;> omega
  have hfits := file.fits
  have hwidth := hchars file.content
  omega

/-! ### One read -/

lemma checkedAdd_eq_some : checkedAdd a b = some c ↔ a + b < 2 ^ 64 ∧ a + b = c := by
  rw [checkedAdd, Option.ite_none_right_eq_some, Option.some_inj]

/-- A read that ends is over the lines of its range. -/
lemma readText_eq (hstop : range.offset + range.limit < 2 ^ 64)
    (hfirst : range.offset + 1 < 2 ^ 64) :
    readText file range =
      let text := renderLines (shown file.lines.zipIdx range.offset (range.offset + range.limit))
      let stop := min (range.offset + range.limit) file.lines.length
      let summary := s!"read lines {range.offset + 1}-{stop} of {file.lines.length}"
      if stop < file.lines.length then
        (continuationHint range).map fun hint =>
          ⟨orEmptyFile (text ++ remark (file.lines.length - stop) hint), some hint, summary⟩
      else some ⟨orEmptyFile text, none, summary⟩ := by
  have hoffset : checkedAdd range.offset range.limit = some (range.offset + range.limit) :=
    checkedAdd_eq_some.mpr ⟨hstop, rfl⟩
  have hone : checkedAdd range.offset 1 = some (range.offset + 1) :=
    checkedAdd_eq_some.mpr ⟨hfirst, rfl⟩
  have houtput : (file.lines.zipIdx.foldl (readLine range (range.offset + range.limit))
      ⟨"", 0, 0⟩).output =
        renderLines (shown file.lines.zipIdx range.offset (range.offset + range.limit)) := by
    rw [output_foldl, String.empty_append]
  have htotal : (file.lines.zipIdx.foldl (readLine range (range.offset + range.limit))
      ⟨"", 0, 0⟩).totalLines = file.lines.length := by
    rw [totalLines_foldl rfl, Nat.zero_add]
  simp only [readText, hoffset, hone, Option.bind_eq_bind, Option.bind_some, houtput, htotal,
    Option.pure_def]
  split_ifs <;> cases continuationHint range <;> rfl

lemma orEmptyFile_of_ne {output : String} (h : output ≠ "") : orEmptyFile output = output :=
  if_neg h

lemma append_remark_ne (text : String) (hint : ContinuationHint) :
    text ++ remark k hint ≠ "" := by
  intro h
  have hempty := (String.append_eq_empty_iff.mp h).2
  simp [remark] at hempty

/-- The hint says where the range ends. -/
lemma continuationHint_eq (hstop : range.offset + range.limit + 1 < 2 ^ 64) :
    continuationHint range = some (match range.style with
      | .offsetLimit => .offset (range.offset + range.limit)
      | .startEnd => .startLine (range.offset + range.limit + 1)) := by
  have hnext : range.nextOffset = some (range.offset + range.limit) :=
    checkedAdd_eq_some.mpr ⟨by omega, rfl⟩
  have hline : range.nextStartLine = some (range.offset + range.limit + 1) := by
    rw [NormalizedReadRange.nextStartLine, hnext]
    exact checkedAdd_eq_some.mpr ⟨hstop, rfl⟩
  rw [continuationHint, hnext, hline]
  cases range.style <;> rfl

/-- Where a hint says to continue, as an offset. -/
def ContinuationHint.start : ContinuationHint → Nat
  | .offset next => next
  | .startLine next => next - 1

/-- A read that leaves lines says to continue at the end of its range. -/
lemma start_of_continuationHint {hint : ContinuationHint} (h : continuationHint range = some hint) :
    hint.start = range.offset + range.limit := by
  rw [continuationHint] at h
  split at h
  · obtain ⟨next, hnext, rfl⟩ := Option.map_eq_some_iff.mp h
    exact (checkedAdd_eq_some.mp hnext).2.symm
  · obtain ⟨line, hline, rfl⟩ := Option.map_eq_some_iff.mp h
    obtain ⟨next, hnext, hline⟩ := Option.bind_eq_some_iff.mp hline
    have hstop := (checkedAdd_eq_some.mp hnext).2
    have hnextLine := (checkedAdd_eq_some.mp hline).2
    show line - 1 = range.offset + range.limit
    omega

lemma ContinuationHint.IsBeyond.lt_start {hint : ContinuationHint} (h : hint.IsBeyond range) :
    range.offset < hint.start := by
  cases hint with
  | offset next => exact h
  | startLine next => exact Nat.lt_sub_of_add_lt h

lemma bounds_of_readText (h : readText file range = some answer) :
    range.offset + range.limit < 2 ^ 64 ∧ range.offset + 1 < 2 ^ 64 := by
  obtain ⟨stop, hstop, hrest⟩ := Option.bind_eq_some_iff.mp h
  obtain ⟨first, hfirst, -⟩ := Option.bind_eq_some_iff.mp hrest
  exact ⟨(checkedAdd_eq_some.mp hstop).1, (checkedAdd_eq_some.mp hfirst).1⟩

/-- A hint is given when lines remain. -/
lemma hint_of_readText (h : readText file range = some answer) :
    answer.hint = if range.offset + range.limit < file.lines.length then continuationHint range
      else none := by
  obtain ⟨hstop, hfirst⟩ := bounds_of_readText h
  rw [readText_eq hstop hfirst] at h
  by_cases hremain : range.offset + range.limit < file.lines.length
  · rw [if_pos (by omega)] at h
    obtain ⟨hint, hhint, rfl⟩ := Option.map_eq_some_iff.mp h
    rw [if_pos hremain, hhint]
  · rw [if_neg (by omega)] at h
    obtain rfl := Option.some_inj.mp h
    rw [if_neg hremain]

/-- A read shows its range if and only if the range fits. -/
lemma readsExactly_iff : ReadsExactly file range ↔ Fits file range := by
  constructor
  · rintro ⟨answer, hanswer, hshows⟩
    obtain ⟨hstop, hfirst⟩ := bounds_of_readText hanswer
    refine ⟨hstop, hfirst, ?_⟩
    cases hshows with
    | last _ hall _ =>
      rcases Nat.eq_zero_or_pos range.limit with hzero | hpos
      · exact .inr (by simpa [hzero] using hall)
      · exact .inl hpos
    | more hhint hbeyond hremain _ =>
      rw [hint_of_readText hanswer, if_pos hremain] at hhint
      have hstart := start_of_continuationHint hhint
      have hlt := hbeyond.lt_start
      exact .inl (by omega)
  · rintro ⟨hstop, hfirst, hprogress⟩
    have hlines := length_lines_lt file
    rw [ReadsExactly, readText_eq hstop hfirst]
    by_cases hremain : range.offset + range.limit < file.lines.length
    · have hend : min (range.offset + range.limit) file.lines.length =
          range.offset + range.limit := min_eq_left hremain.le
      have hlimit : 0 < range.limit := by omega
      obtain ⟨hint, hhint, hbeyond⟩ :
          ∃ hint, continuationHint range = some hint ∧ hint.IsBeyond range := by
        refine ⟨_, continuationHint_eq (by omega), ?_⟩
        cases range.style with
        | offsetLimit => exact Nat.lt_add_of_pos_right hlimit
        | startEnd =>
          show range.offset + 1 < range.offset + range.limit + 1
          omega
      simp only [hend, if_pos hremain, hhint, Option.map_some]
      exact ⟨_, rfl, .more rfl hbeyond hremain (orEmptyFile_of_ne (append_remark_ne _ _))⟩
    · have hend : ¬ min (range.offset + range.limit) file.lines.length < file.lines.length := by
        omega
      simp only [if_neg hend]
      exact ⟨_, rfl, .last rfl (not_lt.mp hremain) rfl⟩

/-! ### Pages -/

/-- A request whose range is accepted. -/
structure Request where
  params : ReadInput
  range : NormalizedReadRange
  accepted : normalizeReadRange params = .ok range

/-- The request names the start that the hint gives. -/
def ContinuationHint.AskedBy (params : ReadInput) : ContinuationHint → Prop
  | .offset next => params.offset = some next
  | .startLine next => params.startLine = some next

/-- The second request follows the hint of the first. -/
def Continues (file : TextFile) (first second : Request) : Prop :=
  ∃ answer hint, readText file first.range = some answer ∧ answer.hint = some hint ∧
    hint.AskedBy second.params

/-- Which fields of the parameters give the start of an accepted range. -/
lemma offset_of_normalizeReadRange (h : normalizeReadRange params = .ok range) :
    (hasStartEnd params = true ∧ hasMixedOffset params = false ∧
        range.offset + 1 = params.startLine.getD 1) ∨
      hasStartEnd params = false ∧ range.offset = params.offset.getD 0 := by
  cases hstartEnd : hasStartEnd params with
  | false =>
    simp only [normalizeReadRange, hstartEnd, Bool.false_and, Bool.false_eq_true, if_false] at h
    obtain rfl := Except.ok.inj h
    exact .inr ⟨rfl, rfl⟩
  | true =>
    cases hmixed : hasMixedOffset params with
    | true => simp [normalizeReadRange, hstartEnd, hmixed] at h
    | false =>
      refine .inl ⟨rfl, rfl, ?_⟩
      simp only [normalizeReadRange, hstartEnd, hmixed, Bool.and_false, Bool.false_eq_true,
        if_false, if_true] at h
      by_cases hzero : params.startLine.getD 1 = 0
      · simp [hzero] at h
      · rw [if_neg hzero] at h
        split at h
        · split_ifs at h
          obtain rfl := Except.ok.inj h
          exact Nat.succ_pred hzero
        · obtain rfl := Except.ok.inj h
          exact Nat.succ_pred hzero

/-- A request that names the start of a hint begins there. -/
lemma offset_of_askedBy {hint : ContinuationHint}
    (haccepted : normalizeReadRange params = .ok range) (hasked : hint.AskedBy params) : range.offset = hint.start := by
  obtain ⟨startLine, endLine, offset, limit⟩ := params
  cases hint with
  | offset next =>
    obtain rfl : offset = some next := hasked
    rcases offset_of_normalizeReadRange haccepted with
      ⟨hstartEnd, hmixed, hstart⟩ | ⟨-, hoffset⟩
    · show range.offset = next
      cases startLine with
      | some line =>
        simp only [hasMixedOffset] at hmixed
        split_ifs at hmixed
        have hline : checkedAdd next 1 = some line := by simpa using hmixed
        have heq := (checkedAdd_eq_some.mp hline).2
        simp only [Option.getD_some] at hstart
        omega
      | none =>
        cases endLine with
        | some line =>
          have hzero : next = 0 := by simpa [hasMixedOffset] using hmixed
          simp only [Option.getD_none] at hstart
          omega
        | none => simp [hasStartEnd] at hstartEnd
    · exact hoffset
  | startLine next =>
    obtain rfl : startLine = some next := hasked
    rcases offset_of_normalizeReadRange haccepted with ⟨-, -, hstart⟩ | ⟨hnone, -⟩
    · exact Nat.eq_sub_of_add_eq hstart
    · simp [hasStartEnd] at hnone

/-- A request that follows a hint starts where the range of the first ends, and lines remain. -/
lemma offset_of_continues {first second : Request} (h : Continues file first second) :
    second.range.offset = first.range.offset + first.range.limit ∧
      second.range.offset < file.lines.length := by
  obtain ⟨answer, hint, hanswer, hhint, hasked⟩ := h
  rw [hint_of_readText hanswer] at hhint
  split_ifs at hhint with hremain
  have hstart := offset_of_askedBy second.accepted hasked
  rw [start_of_continuationHint hhint] at hstart
  exact ⟨hstart, hstart ▸ hremain⟩

def Request.stop (request : Request) : Nat := request.range.offset + request.range.limit

def Request.shown (file : TextFile) (request : Request) : List (List Char × Nat) :=
  ReadTool.shown file.lines.zipIdx request.range.offset request.stop

/-- Requests that follow the hints show every line from the first offset on once, up to where the
last one stops, and they cannot go on for ever. -/
structure PagesExactly (file : TextFile) (first : Request) (rest : List Request) : Prop where
  each : ∀ request ∈ first :: rest, ReadsExactly file request.range
  once : (first :: rest).flatMap (Request.shown file) =
    shown file.lines.zipIdx first.range.offset (rest.getLastD first).stop
  complete : ∀ answer, readText file (rest.getLastD first).range = some answer →
    answer.hint = none → (first :: rest).flatMap (Request.shown file) =
      file.lines.zipIdx.filter fun line => first.range.offset ≤ line.2
  ends : rest.length ≤ file.lines.length

lemma shown_eq_nil (h : b ≤ k) : shown (lines.zipIdx k) a b = [] := by
  apply List.filter_eq_nil_iff.mpr
  intro line hline
  have hle := List.le_snd_of_mem_zipIdx hline
  simp only [decide_eq_true_eq, not_and, not_lt]
  omega

/-- Adjacent ranges show what one long range shows. -/
lemma shown_append (hab : a ≤ b) (hbc : b ≤ c) :
    shown (lines.zipIdx k) a b ++ shown (lines.zipIdx k) b c = shown (lines.zipIdx k) a c := by
  induction lines generalizing k with
  | nil => rfl
  | cons line lines ih =>
    have hrest := ih (k := k + 1)
    simp only [List.zipIdx_cons, shown, List.filter_cons, decide_eq_true_eq] at hrest ⊢
    by_cases hk : k < b
    · have hnot : ¬ (b ≤ k ∧ k < c) := by omega
      have hsame : a ≤ k ∧ k < c ↔ a ≤ k ∧ k < b := by omega
      rw [if_neg hnot]
      simp only [hsame]
      split_ifs
      · rw [List.cons_append, hrest]
      · exact hrest
    · have hnot : ¬ (a ≤ k ∧ k < b) := by omega
      have hsame : a ≤ k ∧ k < c ↔ b ≤ k ∧ k < c := by omega
      have hnil : shown (lines.zipIdx (k + 1)) a b = [] := shown_eq_nil (by omega)
      rw [shown] at hnil
      rw [hnil, List.nil_append] at hrest
      rw [if_neg hnot, hnil, List.nil_append, hrest]
      simp only [hsame]

variable {first : Request} {rest : List Request}

/-- The ranges of a run of requests adjoin each other. -/
lemma shown_of_chain (h : List.IsChain (Continues file) (first :: rest)) :
    first.stop ≤ (rest.getLastD first).stop ∧ (first :: rest).flatMap (Request.shown file) =
      shown file.lines.zipIdx first.range.offset (rest.getLastD first).stop := by
  induction rest generalizing first with
  | nil => exact ⟨le_refl _, by simp [Request.shown]⟩
  | cons second rest ih =>
    obtain ⟨hcontinues, hrest⟩ := List.isChain_cons_cons.mp h
    obtain ⟨hoffset, -⟩ := offset_of_continues hcontinues
    have hoffset : second.range.offset = first.stop := hoffset
    have hsecond : second.range.offset ≤ second.stop := Nat.le_add_right _ _
    obtain ⟨hle, hshown⟩ := ih hrest
    rw [List.getLastD_cons]
    refine ⟨by omega, ?_⟩
    rw [List.flatMap_cons, hshown, Request.shown, hoffset]
    exact shown_append (Nat.le_add_right _ _) (by omega)

/-- Every request that follows another starts at a later line. -/
lemma length_of_chain (h : List.IsChain (Continues file) (first :: rest))
    (hfits : ∀ request ∈ first :: rest, Fits file request.range) :
    rest.length + first.range.offset ≤ max file.lines.length first.range.offset := by
  induction rest generalizing first with
  | nil => simp
  | cons second rest ih =>
    obtain ⟨hcontinues, hrest⟩ := List.isChain_cons_cons.mp h
    obtain ⟨hfirst, hfits⟩ := List.forall_mem_cons.mp hfits
    obtain ⟨hoffset, hremain⟩ := offset_of_continues hcontinues
    have hlength := ih hrest hfits
    rw [max_eq_left hremain.le] at hlength
    have hprogress := hfirst.progress
    rw [List.length_cons]
    omega

/-- Following the hints covers the file if and only if every range on the way fits. -/
theorem pagesExactly_iff (hchain : List.IsChain (Continues file) (first :: rest)) :
    PagesExactly file first rest ↔ ∀ request ∈ first :: rest, Fits file request.range := by
  constructor
  · intro h request hrequest
    exact readsExactly_iff.mp (h.each request hrequest)
  · intro hfits
    obtain ⟨-, honce⟩ := shown_of_chain hchain
    refine ⟨fun request hrequest => readsExactly_iff.mpr (hfits request hrequest), honce, ?_, ?_⟩
    · intro answer hanswer hnone
      have hlines := length_lines_lt file
      have hall : file.lines.length ≤ (rest.getLastD first).stop := by
        by_contra hremain
        rw [Request.stop, not_le] at hremain
        rw [hint_of_readText hanswer, if_pos hremain, continuationHint_eq (by omega)] at hnone
        cases hnone
      rw [honce]
      apply List.filter_congr
      intro line hline
      have hlt := List.snd_lt_of_mem_zipIdx hline
      simp only [decide_eq_decide, and_iff_left_iff_imp]
      omega
    · have hlength := length_of_chain hchain hfits
      omega

def threeLines : TextFile := ⟨"one\ntwo\nthree\n".toList, by decide⟩

/-- Two pages of at most two lines, by offsets. -/
def firstPage : Request := ⟨⟨none, none, none, some 2⟩, ⟨0, 2, .offsetLimit⟩, by decide⟩

def secondPage : Request := ⟨⟨none, none, some 2, some 2⟩, ⟨2, 2, .offsetLimit⟩, by decide⟩

theorem pagesExactly_threeLines : PagesExactly threeLines firstPage [secondPage] := by
  have hcontinues : Continues threeLines firstPage secondPage := by
    refine ⟨_, .offset 2, rfl, ?_, rfl⟩
    decide +kernel
  have hchain : List.IsChain (Continues threeLines) [firstPage, secondPage] :=
    List.isChain_pair.mpr hcontinues
  refine (pagesExactly_iff hchain).mpr ?_
  intro request hrequest
  simp only [List.mem_cons, List.not_mem_nil, or_false] at hrequest
  rcases hrequest with rfl | rfl <;> exact ⟨by decide, by decide, .inl (by decide)⟩

/-- One line from the last offset that there is. -/
def lastOffset : Request :=
  ⟨⟨none, none, some (2 ^ 64 - 1), some 1⟩, ⟨2 ^ 64 - 1, 1, .offsetLimit⟩, by decide⟩

/-- No lines at all from the start. -/
def noLines : Request := ⟨⟨none, none, none, some 0⟩, ⟨0, 0, .offsetLimit⟩, by decide⟩

/-- The end of the first range overflows, and the hint of the second says to ask again. -/
theorem not_pagesExactly :
    ¬ PagesExactly threeLines lastOffset [] ∧ ¬ PagesExactly threeLines noLines [] := by
  constructor
  · intro h
    obtain ⟨answer, hanswer, -⟩ := h.each lastOffset List.mem_cons_self
    have hnone : readText threeLines lastOffset.range = none := by decide +kernel
    rw [hnone] at hanswer
    cases hanswer
  · intro h
    obtain ⟨answer, hanswer, hshows⟩ := h.each noLines List.mem_cons_self
    have hsame : (readText threeLines noLines.range).bind ReadAnswer.hint = some (.offset 0) := by
      decide +kernel
    rw [hanswer] at hsame
    cases hshows with
    | last hhint _ _ => simp [hhint] at hsame
    | more hhint hbeyond _ _ =>
      obtain rfl := Option.some_inj.mp (hhint.symm.trans hsame)
      exact Nat.lt_irrefl 0 hbeyond

end ReadTool

end Jcode
