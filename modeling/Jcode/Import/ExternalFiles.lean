import Jcode.Foundation.Occurrences
import Jcode.Import.External
import Jcode.Mcp.Protocol

/-!
# The files of external sessions

A session of Codex or Pi is a file of lines, one of OpenCode a file of its own and a file for each
message. The importers read them line by line and file by file.
-/

namespace Jcode

/-! ### Files -/

/-- A line of a file: it is not UTF-8, or no JSON, or the parser of `serde_json` makes a value of
it. -/
inductive FileLine
  | unreadable
  | malformed
  | parsed (value : Json)

/-- The modification time is the one the file system reports, if it does. -/
structure ExternalFile where
  path : String
  modified : Option Nat
  lines : List FileLine

/-- The path has the components below the directory of the messages; the time of modification is in
nanoseconds. There is no value if the file is no JSON. -/
structure MessageFile where
  path : List String
  modified : Nat
  value : Option Json

/-- The files of a session of OpenCode. The files of a directory are those that end in `json`, as
they are enumerated. -/
structure OpenCodeFiles where
  path : String
  modified : Option Nat
  value : Option Json
  messagesBase : String
  messageFiles : String → List MessageFile
  distinct : ∀ directory, ((messageFiles directory).map MessageFile.path).Nodup

/-- What the readers take from the clock and from `chrono`. -/
structure ExternalClock where
  now : Nat
  parseRfc3339 : String → Option Nat
  fromTimestampMillis : Int → Option Nat

variable (clock : ExternalClock)

def parseRfc3339Json (value : Option Json) : Option Nat :=
  (value.bind Json.asStr).bind clock.parseRfc3339

/-- The `as_i64` of a time; the value of a number that is not negative is known. -/
def Json.millis : Json → Option Int
  | .number (some n) _ => if n < 2 ^ 63 then some n else none
  | value => value.asI64

def Json.timeMillis (key : String) (value : Json) : Option Nat :=
  ((value.get "time").bind (Json.get key)).bind fun time =>
    time.millis.bind clock.fromTimestampMillis

/-! ### Texts -/

/-- A text is put down trimmed, if anything is left of it. -/
def textPiece (text : String) : List String := if trim text = "" then [] else [trim text]

mutual

/-- The `visit` of `extract_text_from_json_value`. -/
def Json.visitText : Json → List String
  | .string text => textPiece text
  | .array items => visitTextItems items
  | .object fields =>
    match (Json.object fields).getStr "text" with
    | some text => textPiece text
    | none =>
      (((Json.object fields).getStr "title").map textPiece).getD [] ++ visitTextFields fields
  | _ => []

def visitTextItems : List Json → List String
  | [] => []
  | item :: items => item.visitText ++ visitTextItems items

def visitTextFields : List (String × Json) → List String
  | [] => []
  | (key, nested) :: fields =>
    (if key = "type" ∨ key = "title" then [] else nested.visitText) ++ visitTextFields fields

end

def extractTextFromJsonValue (value : Json) : String := " ".intercalate value.visitText

/-! ### What the importers find in a session -/

/-- `str::replace` by the empty text. -/
def removeText (pattern text : String) : String :=
  String.ofList (splitAll pattern.toList text.toList).flatten

def codexTitleCandidate (text : String) : Option String :=
  let cleaned := trim (removeText "<environment_context>" text)
  if cleaned = "" then none
  else if "# AGENTS.md instructions".toList.isPrefixOf cleaned.toList ∨
      "<permissions instructions>".toList.isPrefixOf cleaned.toList ∨
      containsText cleaned "\n<INSTRUCTIONS>" then none
  else some (truncateTitle cleaned)

/-- The directory in the first line that names one. -/
def codexWorkingDir (text : String) : Option String :=
  (((lines text.toList).map String.ofList).find? fun line => containsText line "<cwd>").bind
    fun line =>
      let cwd := trim (removeText "</cwd>" (removeText "<cwd>" line))
      if cwd = "" then none else some cwd

/-- What the messages of a session give so far. -/
structure ImportState where
  title : Option String
  workingDir : Option String
  model : Option String
  providerKey : Option String
  updatedAt : Option Nat
  records : List ExternalRecord

inductive ImportError
  | io
  | json
  | message (text : String)
  deriving DecidableEq

/-- A line that is not UTF-8 ends the import. -/
def importedValues : List FileLine → Except ImportError (List Json)
  | [] => .ok []
  | .unreadable :: _ => .error .io
  | .malformed :: rest => importedValues rest
  | .parsed value :: rest => (importedValues rest).map (value :: ·)

variable (piDigest : String → String) (run : ImportRun)

/-! ### Codex -/

def codexMeta (header : Json) : Json :=
  if header.getStr "type" = some "session_meta" then (header.get "payload").getD header
  else header

structure CodexLine where
  role : String
  content : Json
  timestamp : Option Json
  model : Option Json

def codexLine (value : Json) : Option CodexLine :=
  let lineType := (value.getStr "type").getD ""
  if lineType = "message" then
    (value.getStr "role").map fun role =>
      ⟨role, (value.get "content").getD .null, value.get "timestamp", value.get "model"⟩
  else if lineType = "response_item" then
    (value.get "payload").bind fun payload =>
      if payload.getStr "type" = some "message" then
        (payload.getStr "role").map fun role =>
          ⟨role, (payload.get "content").getD .null,
            (value.get "timestamp").or (payload.get "timestamp"), payload.get "model"⟩
      else none
  else none

def ImportState.codexMessage (state : ImportState) (value : Json) : ImportState :=
  match codexLine value with
  | none => state
  | some line =>
    match importedRole line.role with
    | none => state
    | some role =>
      let text := extractTextFromJsonValue line.content
      let timestamp := parseRfc3339Json clock line.timestamp
      { state with
        title := state.title.or (if role = .user then codexTitleCandidate text else none)
        workingDir := state.workingDir.or (codexWorkingDir text)
        model := state.model.or (line.model.bind Json.asStr)
        updatedAt := timestamp.or state.updatedAt
        records := state.records ++ [⟨line.role, text, timestamp⟩] }

/-- The session before it is saved. -/
def importCodexSessionFromPath (file : ExternalFile) (sessionIdHint : Option String) :
    Except ImportError Session :=
  match file.lines with
  | [] => .error (.message ("Codex session file is empty: " ++ file.path))
  | .unreadable :: _ => .error .io
  | .malformed :: _ => .error .json
  | .parsed header :: rest =>
    let info := codexMeta header
    match ((info.getStr "id").filter (· ≠ "")).or sessionIdHint with
    | none => .error (.message ("Codex session id missing in " ++ file.path))
    | some sessionId =>
      let createdAt := ((parseRfc3339Json clock (info.get "timestamp")).or
        (parseRfc3339Json clock (header.get "timestamp"))).getD clock.now
      (importedValues rest).map fun values =>
        let state := values.foldl (ImportState.codexMessage clock)
          ⟨none, info.getStr "cwd", none, none, some createdAt, []⟩
        finalizedSession piDigest .codex sessionId run
          { sessionId := some sessionId
            title := state.title.or (some ("Codex session " ++ sessionId))
            workingDir := state.workingDir
            model := state.model
            providerKey := some "openai-codex"
            createdAt := createdAt
            updatedAt := state.updatedAt }
          (some sessionId) (some "openai-codex") (state.records.filterMap convertRecord)

/-! ### Pi -/

def ImportState.piMessage (state : ImportState) (message : Json) (timestamp : Option Nat) :
    ImportState :=
  let role := (message.getStr "role").getD ""
  match importedRole role with
  | none => state
  | some author =>
    let text := extractTextFromJsonValue ((message.get "content").getD .null)
    { state with
      title := state.title.or
        (if author = .user ∧ trim text ≠ "" then some (truncateTitle text) else none)
      model := state.model.or (message.getStr "model")
      records := state.records ++ [⟨role, text, timestamp⟩] }

def ImportState.piLine (state : ImportState) (value : Json) : ImportState :=
  let timestamp := parseRfc3339Json clock (value.get "timestamp")
  let state := { state with updatedAt := timestamp.or state.updatedAt }
  if value.getStr "type" = some "model_change" then
    { state with
      providerKey := (value.getStr "provider").or state.providerKey
      model := (value.getStr "modelId").or state.model }
  else if value.getStr "type" = some "message" then
    match value.get "message" with
    | none => state
    | some message => state.piMessage message timestamp
  else state

/-- `fileStem` is the name of a file without its ending. -/
def importPiSession (fileStem : String → Option String) (file : ExternalFile) :
    Except ImportError Session :=
  match file.lines with
  | [] => .error (.message ("Pi session file is empty: " ++ file.path))
  | .unreadable :: _ => .error .io
  | .malformed :: _ => .error .json
  | .parsed header :: rest =>
    if header.getStr "type" ≠ some "session" then
      .error (.message ("Invalid Pi session header in " ++ file.path))
    else
      let sessionId := (header.getStr "id").filter (· ≠ "")
      let createdAt := (parseRfc3339Json clock (header.get "timestamp")).getD clock.now
      (importedValues rest).map fun values =>
        let state := values.foldl (ImportState.piLine clock)
          ⟨none, header.getStr "cwd", none, some "pi", some createdAt, []⟩
        finalizedSession piDigest .pi file.path run
          { sessionId := sessionId
            title := state.title.or ((fileStem file.path).map ("Pi session " ++ ·))
            workingDir := state.workingDir
            model := state.model
            providerKey := state.providerKey
            createdAt := createdAt
            updatedAt := state.updatedAt }
          sessionId state.providerKey (state.records.filterMap convertRecord)

/-! ### OpenCode -/

/-- A key of a message, or of the model in it. -/
def Json.modelStr (key : String) (value : Json) : Option String :=
  ((value.get key).or ((value.get "model").bind (Json.get key))).bind Json.asStr

/-- The content of a message, or the summary if the content is blank. -/
def openCodeText (value : Json) : String :=
  ((((value.get "content").map extractTextFromJsonValue).filter fun text => trim text ≠ "").or
    ((value.get "summary").map extractTextFromJsonValue)).getD ""

/-- The message of a file, if it is one of the user or the assistant. -/
def openCodeRecord (file : MessageFile) : Option ExternalRecord :=
  file.value.bind fun value =>
    let role := (value.getStr "role").getD ""
    if (importedRole role).isSome then
      some ⟨role, openCodeText value, value.timeMillis clock "created"⟩
    else none

def ImportState.openCodeMessage (state : ImportState) (file : MessageFile) : ImportState :=
  match file.value, openCodeRecord clock file with
  | some value, some record =>
    { state with
      model := state.model.or (value.modelStr "modelID")
      providerKey :=
        if state.providerKey = some "opencode" then
          (value.modelStr "providerID").or state.providerKey
        else state.providerKey
      updatedAt := record.timestamp.or state.updatedAt
      records := state.records ++ [record] }
  | _, _ => state

/-- `collect_files_recursive`. -/
def collectFilesRecursive (files : List MessageFile) : List MessageFile :=
  files.mergeSort fun a b => a.path ≤ b.path

def importOpenCodeSessionFromPath (files : OpenCodeFiles) (sessionIdHint : Option String) :
    Except ImportError Session :=
  match files.value with
  | none => .error .json
  | some value =>
    match ((value.getStr "id").filter (· ≠ "")).or sessionIdHint with
    | none => .error (.message ("OpenCode session id missing in " ++ files.path))
    | some sessionId =>
      let createdAt := (value.timeMillis clock "created").getD clock.now
      let messages := files.messageFiles (files.messagesBase ++ "/" ++ sessionId)
      let state := (collectFilesRecursive messages).foldl (ImportState.openCodeMessage clock)
        ⟨(value.getStr "title").map truncateTitle, value.getStr "directory", none, some "opencode",
          (value.timeMillis clock "updated").or (some createdAt), []⟩
      .ok <| finalizedSession piDigest .openCode sessionId run
        { sessionId := some sessionId
          title := state.title.or (some ("OpenCode session " ++ sessionId))
          workingDir := state.workingDir
          model := state.model
          providerKey := state.providerKey
          createdAt := createdAt
          updatedAt := state.updatedAt }
        (some sessionId) state.providerKey ((sortRecords state.records).filterMap convertRecord)

end Jcode
