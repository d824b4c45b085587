import Jcode.Compaction.Core
import Jcode.Swarm.Member

/-!
# The input of an OpenAI request

`build_responses_input_with_logger` (`jcode-provider-openai/request.rs`) turns the messages into
the items of a request. A first pass collects items and gives each call its output as far as it
can; results without a call become user messages, calls without an output get a synthetic one,
and a last pass puts every output right behind its call. Log messages are left out.
-/

namespace Jcode

inductive InputPart
  | inputText (text : String)
  | inputImage (imageUrl : String)
deriving DecidableEq

inductive ResponsesItem
  | userMessage (content : List InputPart)
  | assistantMessage (text : String)
  | compaction (encryptedContent : String)
  | functionCall (name arguments callId : String)
  | functionCallOutput (callId output : String)
deriving DecidableEq

def toolOutputMissingText : String :=
  "Tool output missing (session interrupted before tool execution completed)"

def missingOutput : String := "[Error] " ++ toolOutputMissingText

def sanitizeToolId (id : String) : String :=
  if id.isEmpty then "unknown"
  else String.ofList (id.toList.map fun c => if c.isAlphanum || c ∈ ['_', '-'] then c else '_')

/-- The output of a tool result as it is sent. -/
def resultOutput (content : String) (isError : Option Bool) : String :=
  if isError = some true then "[Error] " ++ content else content

/-- The arguments of a call; an input that is not a JSON object is not sent. -/
def callArguments (input : String) : String :=
  if input.toList.head? = some '{' then input else "\x7b\x7d"

def orphanToolOutputToUserMessage (callId output : String) : Option ResponsesItem :=
  let output := trim output
  if output = "" ∨ output = missingOutput then none
  else some (.userMessage
    [.inputText ("[Recovered orphaned tool output: " ++ callId ++ "]\n" ++ output)])

/-! ### Collection -/

def lastPosInBlock (idx : Nat) (pos : String → Option Nat) : ContentBlock → String → Option Nat
  | .toolResult toolUseId _ _ => Function.update pos toolUseId (some idx)
  | _ => pos

def lastPosInMessage (pos : String → Option Nat) : Message × Nat → String → Option Nat
  | (msg, idx) =>
    match msg.role with
    | .user => msg.content.foldl (lastPosInBlock idx) pos
    | .assistant => pos

/-- The position of the last message with a result for the id. -/
def toolResultLastPos (messages : List Message) : String → Option Nat :=
  messages.zipIdx.foldl lastPosInMessage fun _ => none

/-- What the collecting pass keeps. `pendingOutputs` holds each id once. -/
structure RequestBuild where
  items : List ResponsesItem
  openCalls : List String
  pendingOutputs : List (String × String)
  usedOutputs : Finset String
  contentParts : List InputPart

namespace RequestBuild

variable (st : RequestBuild)

def empty : RequestBuild where
  items := []
  openCalls := []
  pendingOutputs := []
  usedOutputs := ∅
  contentParts := []

def push (item : ResponsesItem) : RequestBuild := { st with items := st.items ++ [item] }

/-- The parts so far become a user message. -/
def flushParts : RequestBuild :=
  if st.contentParts.isEmpty then st
  else { st.push (.userMessage st.contentParts) with contentParts := [] }

def pendingOutput (id : String) : Option String :=
  (st.pendingOutputs.find? (·.1 = id)).map (·.2)

/-- An output is sent for the id. -/
def useOutput (id output : String) : RequestBuild :=
  { st.push (.functionCallOutput (sanitizeToolId id) output) with
    usedOutputs := insert id st.usedOutputs }

def collectResult (toolUseId output : String) : RequestBuild :=
  if toolUseId ∈ st.usedOutputs then st
  else if toolUseId ∈ st.openCalls then
    { st.useOutput toolUseId output with openCalls := st.openCalls.filter (· ≠ toolUseId) }
  else if (st.pendingOutput toolUseId).isSome then st
  else { st with pendingOutputs := st.pendingOutputs ++ [(toolUseId, output)] }

def collectUserBlock : ContentBlock → RequestBuild
  | .image mediaType data =>
    { st with contentParts :=
        st.contentParts ++ [.inputImage ("data:" ++ mediaType ++ ";base64," ++ data)] }
  | .text text _ => { st with contentParts := st.contentParts ++ [.inputText text] }
  | .openAICompaction encryptedContent =>
    if openaiEncryptedContentIsSendable encryptedContent then
      st.flushParts.push (.compaction encryptedContent)
    else
      st.flushParts.push (.userMessage
        [.inputText (openaiEncryptedContentFallbackSummary encryptedContent.utf8ByteSize)])
  | .toolResult toolUseId content isError =>
    st.flushParts.collectResult toolUseId (resultOutput content isError)
  | .reasoning _ | .toolUse _ _ _ => st

/-- `hasFutureOutput` says whether a later message has a result for the id. -/
def collectUse (hasFutureOutput : String → Bool) (id name input : String) : RequestBuild :=
  let st := st.push (.functionCall name (callArguments input) (sanitizeToolId id))
  match st.pendingOutput id with
  | some output =>
    { st.useOutput id output with pendingOutputs := st.pendingOutputs.filter (·.1 ≠ id) }
  | none =>
    if hasFutureOutput id then
      if id ∈ st.openCalls then st else { st with openCalls := st.openCalls ++ [id] }
    else st.useOutput id missingOutput

def collectAssistantBlock (hasFutureOutput : String → Bool) : ContentBlock → RequestBuild
  | .text text _ => st.push (.assistantMessage text)
  | .toolUse id name input => st.collectUse hasFutureOutput id name input
  | .reasoning _ | .toolResult _ _ _ | .image _ _ | .openAICompaction _ => st

def collectMessage (lastPos : String → Option Nat) (msg : Message) (idx : Nat) : RequestBuild :=
  match msg.role with
  | .user => (msg.content.foldl collectUserBlock st).flushParts
  | .assistant =>
    msg.content.foldl (collectAssistantBlock · fun id => (lastPos id).any (idx < ·)) st

def collect (messages : List Message) : RequestBuild :=
  messages.zipIdx.foldl
    (fun st (msg, idx) => st.collectMessage (toolResultLastPos messages) msg idx) empty

/-- One call that is still open after the last message. -/
def closeCall (callId : String) : RequestBuild :=
  if callId ∈ st.usedOutputs then st
  else
    match st.pendingOutput callId with
    | some output =>
      { st.push (.functionCallOutput (sanitizeToolId callId) output) with
        pendingOutputs := st.pendingOutputs.filter (·.1 ≠ callId) }
    | none => st.push (.functionCallOutput (sanitizeToolId callId) missingOutput)

/-- The results that found no call, in the order of their ids. -/
def pendingOrphans : List ResponsesItem :=
  (st.pendingOutputs.insertionSort fun a b => a.1 ≤ b.1).filterMap fun (callId, output) =>
    orphanToolOutputToUserMessage (sanitizeToolId callId) output

end RequestBuild

/-! ### Ordering -/

/-- The call ids that have an output. -/
def outputIds (items : List ResponsesItem) : Finset String :=
  (items.filterMap fun
    | .functionCallOutput callId _ => some callId
    | _ => none).toFinset

/-- Calls whose id has no output get one. -/
def injectMissing : Finset String → List ResponsesItem → List ResponsesItem
  | _, [] => []
  | ids, .functionCall name arguments callId :: items =>
    if callId ∈ ids then .functionCall name arguments callId :: injectMissing ids items
    else
      .functionCall name arguments callId :: .functionCallOutput callId missingOutput ::
        injectMissing (insert callId ids) items
  | ids, item :: items => item :: injectMissing ids items

/-- The first output of an id stays, except that a synthetic one gives way. -/
def outputMapStep (map : String → Option String) : ResponsesItem → String → Option String
  | .functionCallOutput callId output =>
    match map callId with
    | some existing =>
      if existing = missingOutput ∧ output ≠ missingOutput then
        Function.update map callId (some output)
      else map
    | none => Function.update map callId (some output)
  | _ => map

def outputMap (items : List ResponsesItem) : String → Option String :=
  items.foldl outputMapStep fun _ => none

/-- Each call is followed by the output of its id; `used` are the ids of the calls so far. -/
def reorder (map : String → Option String) : Finset String → List ResponsesItem →
    List ResponsesItem
  | _, [] => []
  | used, .functionCall name arguments callId :: items =>
    .functionCall name arguments callId ::
      .functionCallOutput callId ((map callId).getD missingOutput) ::
      reorder map (insert callId used) items
  | used, .functionCallOutput callId output :: items =>
    if callId ∈ used then reorder map used items
    else (orphanToolOutputToUserMessage callId output).toList ++ reorder map used items
  | used, item :: items => item :: reorder map used items

open RequestBuild

/-- The items before they are ordered; `order` is the order in which the set of open calls is
walked. -/
def collectedItems (messages : List Message) (order : List String) : List ResponsesItem :=
  let st := order.foldl closeCall (collect messages)
  st.items ++ st.pendingOrphans

def orderItems (items : List ResponsesItem) : List ResponsesItem :=
  let normalized := injectMissing (outputIds items) items
  reorder (outputMap normalized) ∅ normalized

def buildResponsesInput (messages : List Message) : List ResponsesItem :=
  orderItems (collectedItems messages (collect messages).openCalls)

end Jcode
