import Jcode.Background.Manager
import Jcode.Foundation.Pieces
import Jcode.Foundation.Regex
import Jcode.Provider.Sse
import Jcode.Swarm.Member
import Mathlib.Data.List.DropRight

/-!
# Notifications of background tasks

The end of a background task is announced to the model and to the user as a markdown text. The
interface reads the text again to draw the announcement.
-/

namespace Jcode

open Regex

/-! ### Characters and lines -/

def backtick : Char := Char.ofNat 96

def apostrophe : Char := Char.ofNat 39

def middleDot : Char := Char.ofNat 183

def notBacktick (c : Char) : Bool := c ≠ backtick

/-- The dot of a regular expression. -/
def notLineFeed (c : Char) : Bool := c ≠ '\n'

def trimChars (text : List Char) : List Char :=
  (text.dropWhile isWhitespace).rdropWhile isWhitespace

/-- Line ends with a carriage return become line feeds. -/
def normalizeLineEnds (text : List Char) : List Char :=
  (replaceAll "\r\n".toList "\n".toList text).map fun c => if c = '\r' then '\n' else c

def fence : List Char := "```".toList

def sanitizeFencedBlock (text : List Char) : List Char :=
  replaceAll fence "``\u200b`".toList text

/-! ### The text -/

/-- What `{:.1}` prints of an `f64`: a number is rounded to tenths. -/
inductive RoundedSeconds
  | nan
  | infinite (negative : Bool)
  | tenths (negative : Bool) (n : Nat)
  deriving DecidableEq

def RoundedSeconds.text : RoundedSeconds → String
  | nan => "NaN"
  | infinite negative => (if negative then "-" else "") ++ "inf"
  | tenths negative n =>
    (if negative then "-" else "") ++ Nat.repr (n / 10) ++ "." ++ Nat.repr (n % 10)

/-- The event of a completion, with what only the notification shows of it. -/
structure BackgroundTaskReport extends BackgroundTaskCompleted where
  outputPreview : String
  durationSecs : RoundedSeconds
  deriving DecidableEq

def formatBackgroundTaskStatus : BackgroundTaskStatus → String
  | .completed => "✓ completed"
  | .superseded => "↻ superseded"
  | .failed => "✗ failed"
  | .running => "running"

def formatExitCode : Option Int → String
  | some code => "exit " ++ toString code
  | none => "exit n/a"

def normalizeBackgroundTaskPreview (preview : String) : Option (List Char) :=
  let trimmed := (normalizeLineEnds preview.toList).rdropWhile isWhitespace
  if trimChars trimmed = [] then none else some (sanitizeFencedBlock trimmed)

def sanitizeBackgroundTaskLabel (text : String) : List Char :=
  text.toList.map fun c => if c = backtick then apostrophe else c

def backgroundTaskDisplayName (toolName : String) (displayName : Option String) : Option String :=
  (displayName.map trim).filter fun name => name ≠ "" ∧ name ≠ toolName

def backgroundTaskHeaderLabel (toolName : String) (displayName : Option String) : List Char :=
  match backgroundTaskDisplayName toolName displayName with
  | some displayName =>
    "`".toList ++ sanitizeBackgroundTaskLabel displayName ++ "` (`".toList ++
      sanitizeBackgroundTaskLabel toolName ++ "`)".toList
  | none => "`".toList ++ sanitizeBackgroundTaskLabel toolName ++ "`".toList

def stripStreamPrefix (line : List Char) : List Char :=
  (("[stderr] ".toList.isPrefixOf? (trimChars line)).or
    ("[stdout] ".toList.isPrefixOf? (trimChars line))).getD (trimChars line)

/-- The first line that says why a build failed, or the first that names an error. -/
def backgroundTaskFailureSummary (preview : String) : Option (List Char) :=
  let shown := ((lines (normalizeLineEnds preview.toList)).map stripStreamPrefix).filter (· ≠ [])
  (shown.find? fun line => "Compile terminated by signal".toList <:+: line ∨
      "Source tree drift detected".toList <:+: line ∨ "source metadata".toList <:+: line).or
    (shown.find? fun line => "error:".toList <+: line ∨ "Error:".toList <+: line ∨
      "Failed:".toList <+: line)

namespace BackgroundTaskReport

variable (task : BackgroundTaskReport)

def header : List Char :=
  "**Background task** `".toList ++ task.taskId.toList ++ "` · ".toList ++
    backgroundTaskHeaderLabel task.toolName task.displayName ++ " · ".toList ++
    (formatBackgroundTaskStatus task.status).toList ++ " · ".toList ++
    task.durationSecs.text.toList ++ "s · ".toList ++ (formatExitCode task.exitCode).toList

def failureSection : Option (List Char) :=
  if task.status = .failed then
    (backgroundTaskFailureSummary task.outputPreview).map fun summary =>
      "_Failure:_ ".toList ++ sanitizeFencedBlock summary
  else none

def previewSection : List Char :=
  match normalizeBackgroundTaskPreview task.outputPreview with
  | some preview => "```text\n".toList ++ preview ++ "\n```".toList
  | none => "_No output captured._".toList

def fullOutputCommand : List Char :=
  "bg action=\"output\" task_id=\"".toList ++ task.taskId.toList ++ "\"".toList

def fullOutputSection : List Char :=
  "_Full output:_ `".toList ++ task.fullOutputCommand ++ "`".toList

/-- The sections, with empty lines between them. -/
def notificationSections : List (List Char) :=
  task.header :: task.failureSection.toList ++ [task.previewSection, task.fullOutputSection]

end BackgroundTaskReport

def sectionBreak : List Char := "\n\n".toList

def formatBackgroundTaskNotificationMarkdown (task : BackgroundTaskReport) : String :=
  String.ofList (sectionBreak.intercalate task.notificationSections)

/-! ### Reading the text -/

def durationRegex : Regex Char :=
  .seq (.many true 1 Char.isDigit)
    (.seq (.either (.seq (.text ".".toList) (.many true 1 Char.isDigit)) .empty)
      (.text "s".toList))

def headerRegex : Regex Char :=
  .seq atStart <| .seq (.text "**Background task** `".toList) <|
  .seq (.group "task_id" (.many true 1 notBacktick)) <| .seq (.text "` · ".toList) <|
  .seq (.group "label" (.many false 1 notLineFeed)) <| .seq (.text " · ".toList) <|
  .seq (.group "status" (.many false 1 notLineFeed)) <| .seq (.text " · ".toList) <|
  .seq (.group "duration" durationRegex) <| .seq (.text " · ".toList) <|
  .seq (.group "exit_label" (.many true 1 notLineFeed)) atEnd

def fullOutputRegex : Regex Char :=
  .seq atStart <| .seq (.text "_Full output:_ `".toList) <|
  .seq (.group "command" (.many true 1 notBacktick)) <| .seq (.text "`".toList) atEnd

def namedRegex : Regex Char :=
  .seq atStart <| .seq (.text "`".toList) <|
  .seq (.group "display_name" (.many true 1 notBacktick)) <| .seq (.text "` (`".toList) <|
  .seq (.group "tool_name" (.many true 1 notBacktick)) <| .seq (.text "`)".toList) atEnd

def toolRegex : Regex Char :=
  .seq atStart <| .seq (.text "`".toList) <|
  .seq (.group "tool_name" (.many true 1 notBacktick)) <| .seq (.text "`".toList) atEnd

/-- The name of the tool and the name that is shown. -/
def parseBackgroundTaskHeaderLabel (label : List Char) : List Char × Option (List Char) :=
  match namedRegex.captures label with
  | some groups => (groupNamed "tool_name" groups, some (groupNamed "display_name" groups))
  | none =>
    match toolRegex.captures label with
    | some groups => (groupNamed "tool_name" groups, none)
    | none => (trimChars label, none)

structure ParsedBackgroundTaskNotification where
  taskId : String
  toolName : String
  displayName : Option String
  status : String
  duration : String
  exitLabel : String
  failureSummary : Option String
  preview : Option String
  fullOutputCommand : String
  deriving DecidableEq

/-- What the sections behind the header have given so far. -/
structure NotificationSections where
  preview : Option (List Char)
  failureSummary : Option (List Char)
  fullOutputCommand : Option (List Char)

def fencedPreview (trimmed : List Char) : Option (List Char) :=
  ("```text\n".toList.isPrefixOf? trimmed).bind ("\n```".toList.isSuffixOf? ·)

def parseSection (state : NotificationSections) (part : List Char) : NotificationSections :=
  let trimmed := trimChars part
  if trimmed = [] then state
  else
    match fullOutputRegex.captures trimmed with
    | some groups => { state with fullOutputCommand := some (groupNamed "command" groups) }
    | none =>
      match "_Failure:_ ".toList.isPrefixOf? trimmed with
      | some summary => { state with failureSummary := some summary }
      | none =>
        if trimmed = "_No output captured._".toList then { state with preview := none }
        else
          match fencedPreview trimmed with
          | some preview => { state with preview := some preview }
          | none => state

def parseSections (parts : List (List Char)) : NotificationSections :=
  parts.foldl parseSection ⟨none, none, none⟩

def parseBackgroundTaskNotificationMarkdown (content : String) :
    Option ParsedBackgroundTaskNotification :=
  match splitAll sectionBreak (normalizeLineEnds content.toList) with
  | [] => none
  | header :: parts =>
    (headerRegex.captures (trimChars header)).bind fun groups =>
      let (toolName, displayName) := parseBackgroundTaskHeaderLabel (groupNamed "label" groups)
      let sections := parseSections parts
      sections.fullOutputCommand.map fun command =>
        { taskId := String.ofList (groupNamed "task_id" groups)
          toolName := String.ofList toolName
          displayName := displayName.map String.ofList
          status := String.ofList (groupNamed "status" groups)
          duration := String.ofList (groupNamed "duration" groups)
          exitLabel := String.ofList (groupNamed "exit_label" groups)
          failureSummary := sections.failureSummary.map String.ofList
          preview := sections.preview.map String.ofList
          fullOutputCommand := String.ofList command }

end Jcode
