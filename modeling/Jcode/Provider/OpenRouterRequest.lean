import Jcode.Provider.OpenAiCollect

/-!
# The messages of an OpenRouter request

`complete` of `OpenRouterProvider` (`openrouter_provider_impl.rs`), up to the `api_messages` it
sends. A first pass converts the messages and keeps results that come before their call; two
passes give calls without an output the text for a missing one, and a last pass puts every output
right behind its call. Log messages and the counters for them are left out.
-/

namespace Jcode.OpenRouter

inductive ContentPart
  | text (text : String) (cacheControl : Option CacheControl)
  | imageUrl (url : String)
deriving DecidableEq

inductive UserContent
  | text (text : String)
  | parts (parts : List ContentPart)
deriving DecidableEq

structure ApiToolCall where
  id : String
  name : String
  arguments : String
deriving DecidableEq

inductive ApiMessage
  | system (content : String)
  | user (content : UserContent)
  | assistant (content : Option String) (toolCalls : Option (List ApiToolCall))
      (reasoningContent : Option String)
  | tool (toolCallId content : String)
deriving DecidableEq

/-! ### Settings -/

/-- What `complete` reads of the provider, the model and the environment. -/
structure RequestSettings where
  thinkingOverride : Option Bool
  isKimiProfile : Bool
  disablesThinkingByDefault : Bool
  isKimiModel : Bool
  supportsCache : Bool
  system : String

namespace RequestSettings

variable (settings : RequestSettings)

def thinkingEnabledForRequest : Option Bool :=
  match settings.thinkingOverride with
  | some overrideValue => some overrideValue
  | none =>
    if settings.isKimiProfile || settings.disablesThinkingByDefault then some false
    else if settings.isKimiModel then some true
    else none

def allowReasoning : Bool := settings.thinkingEnabledForRequest ≠ some false

def includeReasoningContent : Bool :=
  settings.thinkingEnabledForRequest = some true ||
    (settings.allowReasoning && settings.isKimiModel)

end RequestSettings

/-! ### The cache breakpoint -/

/-- The first element that `mark` changes is changed. -/
def markFirst {α : Type*} (mark : α → Option α) : List α → List α
  | [] => []
  | a :: l =>
    match mark a with
    | some marked => marked :: l
    | none => a :: markFirst mark l

def markLast {α : Type*} (mark : α → Option α) (l : List α) : List α :=
  (markFirst mark l.reverse).reverse

def markText : ContentBlock → Option ContentBlock
  | .text text cacheControl => some (.text text (some (cacheControl.getD ⟨"ephemeral", none⟩)))
  | _ => none

def isText : ContentBlock → Bool
  | .text _ _ => true
  | _ => false

/-- The last text of a user message is marked. -/
def markMessage (msg : Message) : Option Message :=
  if msg.role = .user ∧ msg.content.any isText then
    some { msg with content := markLast markText msg.content }
  else none

def addCacheBreakpoint (messages : List Message) : List Message :=
  markLast markMessage messages

/-! ### Conversion -/

/-- A single text without a marker is sent as it is. -/
def contentFromParts : List ContentPart → Option UserContent
  | [] => none
  | [.text text none] => some (.text text)
  | parts => some (.parts parts)

structure ToolTracking where
  toolCallsSeen : Finset String
  pendingToolResults : String → Option String
  usedToolResults : Finset String

structure Conversion extends ToolTracking where
  apiMessages : List ApiMessage

namespace Conversion

variable (st : Conversion)

def push (msgs : List ApiMessage) : Conversion := { st with apiMessages := st.apiMessages ++ msgs }

def pushUser (parts : List ContentPart) : Conversion :=
  st.push ((contentFromParts parts).map ApiMessage.user).toList

def convertResult (toolUseId output : String) : Conversion :=
  if toolUseId ∈ st.usedToolResults then st
  else if toolUseId ∈ st.toolCallsSeen then
    { st.push [.tool (sanitizeToolId toolUseId) output] with
      usedToolResults := insert toolUseId st.usedToolResults }
  else if (st.pendingToolResults toolUseId).isSome then st
  else
    { st with pendingToolResults := Function.update st.pendingToolResults toolUseId (some output) }

end Conversion

/-- `pendingUserParts` are the parts since the last message that was pushed. -/
def convertUserBlock : Conversion × List ContentPart → ContentBlock →
    Conversion × List ContentPart
  | (st, pendingUserParts), .text text cacheControl =>
    (st, pendingUserParts ++ [.text text cacheControl])
  | (st, pendingUserParts), .image mediaType data =>
    (st, pendingUserParts ++ [.imageUrl ("data:" ++ mediaType ++ ";base64," ++ data)])
  | (st, pendingUserParts), .toolResult toolUseId content isError =>
    ((st.pushUser pendingUserParts).convertResult toolUseId (resultOutput content isError), [])
  | (st, pendingUserParts), .reasoning _ | (st, pendingUserParts), .toolUse _ _ _
  | (st, pendingUserParts), .openAICompaction _ => (st, pendingUserParts)

def convertUser (st : Conversion) (content : List ContentBlock) : Conversion :=
  let (st, pendingUserParts) := content.foldl convertUserBlock (st, [])
  st.pushUser pendingUserParts

/-- What is gathered of one assistant message. -/
structure AssistantBuild extends ToolTracking where
  textContent : String
  reasoningContent : String
  toolCalls : List ApiToolCall
  postToolOutputs : List (String × String)
  missingToolOutputs : List String

namespace AssistantBuild

variable (build : AssistantBuild)

def start (tracking : ToolTracking) : AssistantBuild where
  toToolTracking := tracking
  textContent := ""
  reasoningContent := ""
  toolCalls := []
  postToolOutputs := []
  missingToolOutputs := []

/-- `hasFutureOutput` says whether a later message has a result for the id. -/
def convertUse (hasFutureOutput : String → Bool) (id name input : String) : AssistantBuild :=
  let build := { build with
    toolCalls := build.toolCalls ++ [ApiToolCall.mk (sanitizeToolId id) name (callArguments input)]
    toolCallsSeen := insert id build.toolCallsSeen }
  match build.pendingToolResults id with
  | some output =>
    { build with
      pendingToolResults := Function.update build.pendingToolResults id none
      postToolOutputs := build.postToolOutputs ++ [(id, output)]
      usedToolResults := insert id build.usedToolResults }
  | none =>
    if hasFutureOutput id then build
    else
      { build with
        missingToolOutputs := build.missingToolOutputs ++ [id]
        usedToolResults := insert id build.usedToolResults }

def convertAssistantBlock (hasFutureOutput : String → Bool) : ContentBlock → AssistantBuild
  | .text text _ => { build with textContent := build.textContent ++ text }
  | .reasoning text => { build with reasoningContent := build.reasoningContent ++ text }
  | .toolUse id name input => build.convertUse hasFutureOutput id name input
  | .toolResult _ _ _ | .image _ _ | .openAICompaction _ => build

def assistantMsg (settings : RequestSettings) : ApiMessage :=
  .assistant
    (if build.textContent.isEmpty then none else some build.textContent)
    (if build.toolCalls.isEmpty then none else some build.toolCalls)
    (if settings.allowReasoning ∧
        (settings.includeReasoningContent ∨ ¬ build.reasoningContent.isEmpty) ∧
        (¬ build.reasoningContent.isEmpty ∨ ¬ build.toolCalls.isEmpty) then
      some (if build.reasoningContent.isEmpty then " " else build.reasoningContent)
    else none)

/-- The outputs that are known with their calls. -/
def outputs : List (String × String) :=
  build.postToolOutputs ++ build.missingToolOutputs.map fun id => (id, missingOutput)

/-- The message and the outputs that are sent behind it. -/
def messages (settings : RequestSettings) : List ApiMessage :=
  if ¬ build.textContent.isEmpty ∨ ¬ build.toolCalls.isEmpty ∨ ¬ build.reasoningContent.isEmpty then
    build.assistantMsg settings ::
      build.outputs.map fun (id, output) => .tool (sanitizeToolId id) output
  else []

end AssistantBuild

def convertAssistant (settings : RequestSettings) (hasFutureOutput : String → Bool)
    (st : Conversion) (content : List ContentBlock) : Conversion :=
  let build := content.foldl (·.convertAssistantBlock hasFutureOutput)
    (AssistantBuild.start st.toToolTracking)
  { toToolTracking := build.toToolTracking
    apiMessages := st.apiMessages ++ build.messages settings }

def convertMessage (settings : RequestSettings) (lastPos : String → Option Nat) (st : Conversion)
    (msg : Message) (idx : Nat) : Conversion :=
  match msg.role with
  | .user => convertUser st msg.content
  | .assistant => convertAssistant settings (fun id => (lastPos id).any (idx < ·)) st msg.content

def systemMessage (system : String) : List ApiMessage :=
  if system.isEmpty then [] else [.system system]

def Conversion.start (system : String) : Conversion where
  toolCallsSeen := ∅
  pendingToolResults := fun _ => none
  usedToolResults := ∅
  apiMessages := systemMessage system

def convert (settings : RequestSettings) (messages : List Message) : Conversion :=
  messages.zipIdx.foldl
    (fun st (msg, idx) => convertMessage settings (toolResultLastPos messages) st msg idx)
    (Conversion.start settings.system)

/-! ### Calls without an output -/

def ApiMessage.calls : ApiMessage → List ApiToolCall
  | .assistant _ toolCalls _ => toolCalls.getD []
  | _ => []

/-- The ids with an output from here on, and for each message the calls without one. -/
def missingByIndex : List ApiMessage → Finset String × List (List String)
  | [] => (∅, [])
  | msg :: msgs =>
    let (outputsAfter, missing) := missingByIndex msgs
    match msg with
    | .tool id _ => (insert id outputsAfter, [] :: missing)
    | msg =>
      let (outputsAfter, ids) := msg.calls.foldl (fun (outputsAfter, ids) call =>
        if call.id ∈ outputsAfter then (outputsAfter, ids)
        else (insert call.id outputsAfter, ids ++ [call.id])) (outputsAfter, [])
      (outputsAfter, ids :: missing)

def missingMsg (id : String) : ApiMessage := .tool id missingOutput

/-- With reasoning allowed, a message with calls is given some. -/
def fillReasoning (allowReasoning : Bool) : ApiMessage → ApiMessage
  | .assistant content (some toolCalls) reasoningContent =>
    .assistant content (some toolCalls)
      (if allowReasoning ∧ reasoningContent.all (trim · = "") then some " " else reasoningContent)
  | msg => msg

def normalize (allowReasoning : Bool) (msgs : List ApiMessage) : List ApiMessage :=
  (msgs.zip (missingByIndex msgs).2).flatMap fun (msg, missing) =>
    fillReasoning allowReasoning msg :: missing.map missingMsg

/-- The place of the first output for the id. -/
def toolOutputPosition (msgs : List ApiMessage) (id : String) : Option Nat :=
  msgs.findIdx? fun
    | .tool toolCallId _ => toolCallId = id
    | _ => false

/-- The calls whose first output is not behind them. -/
def missingAfter (msgs : List ApiMessage) : Finset String :=
  (msgs.zipIdx.flatMap fun (msg, idx) => (msg.calls.map (·.id)).filter fun id =>
    !(toolOutputPosition msgs id).any (idx < ·)).toFinset

/-- `walk` is the order in which a set of ids is walked. -/
def appendMissing (walk : Finset String → List String) (msgs : List ApiMessage) :
    List ApiMessage :=
  msgs ++ (walk (missingAfter msgs)).map missingMsg

/-! ### Order -/

/-- The first output of an id stays, except that a missing one gives way. -/
def toolOutputMapStep (map : String → Option String) : ApiMessage → String → Option String
  | .tool id content =>
    match map id with
    | some existing =>
      if existing = missingOutput ∧ content ≠ missingOutput then
        Function.update map id (some content)
      else map
    | none => Function.update map id (some content)
  | _ => map

def toolOutputMap (msgs : List ApiMessage) : String → Option String :=
  msgs.foldl toolOutputMapStep fun _ => none

/-- A message with the outputs of its calls; outputs elsewhere are dropped. -/
def withOutputs (map : String → Option String) : ApiMessage → List ApiMessage
  | .tool _ _ => []
  | msg =>
    msg :: msg.calls.map fun call => .tool call.id ((map call.id).getD missingOutput)

def reorder (msgs : List ApiMessage) : List ApiMessage :=
  msgs.flatMap (withOutputs (toolOutputMap msgs))

/-- The `api_messages` of a request. -/
def apiMessages (settings : RequestSettings) (walk : Finset String → List String)
    (messages : List Message) : List ApiMessage :=
  let effectiveMessages := if settings.supportsCache then addCacheBreakpoint messages else messages
  let converted := (convert settings effectiveMessages).apiMessages
  reorder (appendMissing walk (normalize settings.allowReasoning converted))

end Jcode.OpenRouter
