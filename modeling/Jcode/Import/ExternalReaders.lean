import Jcode.Foundation.BoundedHeap
import Jcode.Foundation.CharBytes
import Jcode.Import.ExternalFiles
import Mathlib.Data.Prod.Lex

/-!
# The readers of external sessions

The search over sessions has readers of its own for the files that the importers read.
-/

namespace Jcode

/-! ### Texts -/

def toolTypes : List String := ["tool_use", "tool_result", "function_call"]

mutual

/-- The `visit` of `extract_external_text_from_json`. -/
def Json.visitExternalText (includeTools : Bool) : Json → List String
  | .string text => textPiece text
  | .array items => visitExternalItems includeTools items
  | .object fields =>
    if !includeTools ∧ ((Json.object fields).getStr "type").getD "" ∈ toolTypes then []
    else
      (match (Json.object fields).getStr "text" with
        | some text => textPiece text
        | none =>
          if includeTools then
            (((Json.object fields).getStr "content").map textPiece).getD []
          else []) ++
        visitExternalFields includeTools fields
  | _ => []

def visitExternalItems (includeTools : Bool) : List Json → List String
  | [] => []
  | item :: items => item.visitExternalText includeTools ++ visitExternalItems includeTools items

def visitExternalFields (includeTools : Bool) : List (String × Json) → List String
  | [] => []
  | (key, nested) :: fields =>
    (if key ∈ ["type", "text", "content"] then [] else nested.visitExternalText includeTools) ++
      visitExternalFields includeTools fields

end

def extractExternalTextFromJson (includeTools : Bool) (value : Json) : String :=
  "\n".intercalate (value.visitExternalText includeTools)

/-! ### Records -/

structure ExternalMessageRecord where
  role : String
  text : String
  timestamp : Option Nat
  id : Option String
  deriving DecidableEq

structure ExternalSessionRecord where
  source : String
  sessionId : String
  shortName : Option String
  title : Option String
  workingDir : Option String
  providerKey : Option String
  model : Option String
  createdAt : Nat
  updatedAt : Nat
  path : String
  messages : List ExternalMessageRecord
  deriving DecidableEq

inductive ReadError
  | io
  | json
  deriving DecidableEq

/-- What a reader returns; nothing if it panics. -/
abbrev ReaderResult := Option (Except ReadError (Option ExternalSessionRecord))

/-- `&session_id[..session_id.len().min(8)]`; nothing if it panics. -/
def shortId (sessionId : String) : Option String :=
  (CharBytes.cut sessionId.toList (min (CharBytes.width sessionId.toList) 8)).map
    fun parts => String.ofList parts.1

/-- `str::trim` leaves nothing of a blank text, which makes no message. -/
def messageRecord (role text : String) (timestamp : Option Nat) (id : Option String) :
    Option ExternalMessageRecord :=
  if (importedRole role).isSome ∧ trim text ≠ "" then some ⟨role, text, timestamp, id⟩ else none

/-- A line that is not UTF-8 ends the file. -/
def readValues : List FileLine → List Json
  | [] => []
  | .unreadable :: _ => []
  | .malformed :: rest => readValues rest
  | .parsed value :: rest => value :: readValues rest

variable (clock : ExternalClock) (includeTools : Bool)

/-! ### Codex -/

/-- The role and the content of a line that is a message. -/
def codexRoleAndContent (value : Json) : Option (String × Json) :=
  let lineType := (value.getStr "type").getD ""
  if lineType = "message" then
    (value.getStr "role").map fun role => (role, (value.get "content").getD .null)
  else if lineType = "response_item" then
    (value.get "payload").bind fun payload =>
      if payload.getStr "type" = some "message" then
        (payload.getStr "role").map fun role => (role, (payload.get "content").getD .null)
      else none
  else none

def codexRecord (value : Json) : Option ExternalMessageRecord :=
  (codexRoleAndContent value).bind fun message =>
    messageRecord message.1 (extractExternalTextFromJson includeTools message.2)
      (parseRfc3339Json clock (value.get "timestamp")) (value.getStr "id")

def loadCodexExternalSession (file : ExternalFile) : ReaderResult :=
  match file.lines with
  | [] => some (.ok none)
  | .unreadable :: _ => some (.error .io)
  | .malformed :: _ => some (.error .json)
  | .parsed header :: rest =>
    let info := codexMeta header
    let sessionId := (info.getStr "id").getD ""
    if sessionId = "" then some (.ok none)
    else
      let createdAt := ((parseRfc3339Json clock (info.get "timestamp")).or
        (parseRfc3339Json clock (header.get "timestamp"))).getD clock.now
      let messages := (readValues rest).filterMap (codexRecord clock includeTools)
      (shortId sessionId).map fun short =>
        .ok <| some
          { source := "codex"
            sessionId := sessionId
            shortName := some ("codex " ++ short)
            title := some ("Codex session " ++ short)
            workingDir := info.getStr "cwd"
            providerKey := some "openai-codex"
            model := none
            createdAt := createdAt
            updatedAt := (messages.filterMap ExternalMessageRecord.timestamp).foldl max
              (file.modified.getD createdAt)
            path := file.path
            messages := messages }

/-! ### Pi -/

def piRecord (value : Json) : Option ExternalMessageRecord :=
  if value.getStr "type" = some "message" then
    (value.get "message").bind fun message =>
      messageRecord ((message.getStr "role").getD "")
        (extractExternalTextFromJson includeTools ((message.get "content").getD .null))
        (parseRfc3339Json clock (value.get "timestamp")) (value.getStr "id")
  else none

/-- The provider and the model after a line. -/
def piModelChange (current : Option String × Option String) (value : Json) :
    Option String × Option String :=
  if value.getStr "type" = some "model_change" then
    ((value.getStr "provider").or current.1, (value.getStr "modelId").or current.2)
  else current

def loadPiExternalSession (file : ExternalFile) : ReaderResult :=
  match file.lines with
  | [] => some (.ok none)
  | .unreadable :: _ => some (.error .io)
  | .malformed :: _ => some (.error .json)
  | .parsed header :: rest =>
    let sessionId := (header.getStr "id").getD ""
    if header.getStr "type" ≠ some "session" then some (.ok none)
    else if sessionId = "" then some (.ok none)
    else
      let createdAt := (parseRfc3339Json clock (header.get "timestamp")).getD clock.now
      let values := readValues rest
      let (providerKey, model) := values.foldl piModelChange (some "pi", none)
      (shortId sessionId).map fun short =>
        .ok <| some
          { source := "pi"
            sessionId := sessionId
            shortName := some ("pi " ++ short)
            title := some ("Pi session " ++ short)
            workingDir := header.getStr "cwd"
            providerKey := providerKey
            model := model
            createdAt := createdAt
            updatedAt :=
              (values.filterMap fun value => parseRfc3339Json clock (value.get "timestamp")).foldl
                max (file.modified.getD createdAt)
            path := file.path
            messages := values.filterMap (piRecord clock includeTools) }

/-! ### OpenCode -/

def MessageFile.seconds (file : MessageFile) : Nat := file.modified / 10 ^ 9

/-- The files are compared by the second of their modification, and then by their paths. -/
def MessageFile.key (file : MessageFile) : Nat ×ₗ List String := toLex (file.seconds, file.path)

/-- `collect_recent_files_recursive`: the newest files, from the newest on. -/
def collectRecentFilesRecursive (files : List MessageFile) (limit : Nat) : List MessageFile :=
  (BoundedHeap.fill MessageFile.key (fun least file => least.key < file.key) limit files).mergeSort
    fun a b => b.key ≤ a.key

/-- The role of a file is that of the user or the assistant. -/
def hasRole (value : Json) : Bool := (importedRole ((value.getStr "role").getD "")).isSome

/-- The summary of a message, or its content. -/
def openCodeExternalText (value : Json) : String :=
  (((value.get "summary").or (value.get "content")).map
    (extractExternalTextFromJson includeTools)).getD ""

def openCodeMessageRecord (file : MessageFile) : Option ExternalMessageRecord :=
  file.value.bind fun value =>
    messageRecord ((value.getStr "role").getD "") (openCodeExternalText includeTools value) none
      (value.getStr "id")

def truncateTitleText (text : String) (maxChars : Nat) : String :=
  let trimmed := (trim text).toList
  if trimmed.length ≤ maxChars then String.ofList trimmed
  else String.ofList (trimmed.take (maxChars - 1) ++ ['…'])

/-- `messages_base.join(session_id)`. -/
def joinPath (base path : String) : String :=
  if path.toList.head? = some '/' then path else base ++ "/" ++ path

def loadOpenCodeExternalSession (files : OpenCodeFiles) (maxScanSessions : Nat) : ReaderResult :=
  match files.value with
  | none => some (.error .json)
  | some value =>
    let sessionId := (value.getStr "id").getD ""
    if sessionId = "" then some (.ok none)
    else
      let createdAt := (value.timeMillis clock "created").getD clock.now
      let recent := collectRecentFilesRecursive
        (files.messageFiles (joinPath files.messagesBase sessionId)) maxScanSessions
      let values := (recent.filterMap MessageFile.value).filter hasRole
      (shortId sessionId).map fun short =>
        .ok <| some
          { source := "opencode"
            sessionId := sessionId
            shortName := some ("opencode " ++ short)
            title := some (((value.getStr "title").map (truncateTitleText · 72)).getD
              ("OpenCode session " ++ short))
            workingDir := value.getStr "directory"
            providerKey := values.foldl (fun key value => (value.modelStr "providerID").or key)
              (some "opencode")
            model := values.findSome? (Json.modelStr "modelID")
            createdAt := createdAt
            updatedAt := ((value.timeMillis clock "updated").or files.modified).getD createdAt
            path := files.path
            messages := recent.filterMap (openCodeMessageRecord includeTools) }

end Jcode
