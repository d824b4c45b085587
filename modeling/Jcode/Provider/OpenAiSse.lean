import Mathlib.Data.Finmap
import Jcode.Agent.StreamingTurn
import Jcode.Provider.OpenAiRequest
import Jcode.Provider.Sse

/-!
# The stream of the OpenAI provider

`OpenAIResponsesStream` and the handling of the events of the Responses API. The JSON parsers,
base64, the files of generated images and the lower-case mapping are parameters; a fallback id is
numbered by a count that starts with the stream.
-/

namespace Jcode.OpenAi

/-- The fields of an event of the Responses API. -/
structure ResponseSseEvent where
  kind : String
  item : Option Json
  delta : Option String
  itemId : Option String
  callId : Option String
  name : Option String
  arguments : Option String
  response : Option Json
  error : Option Json

structure StreamingToolCallState where
  callId : Option String
  name : Option String
  arguments : String
deriving DecidableEq

def StreamingToolCallState.default : StreamingToolCallState := ⟨none, none, ""⟩

/-- How the files of a generated image come out: the paths of the image and of its metadata. -/
inductive ImageFiles
  | noDirectory
  | notSaved
  | saved (path : String) (metadataPath : Option String)
deriving DecidableEq

/-- What the handling of an event calls outside of itself. -/
structure SseEnv where
  lowercase : String → String
  parseEvent : String → Option ResponseSseEvent
  /-- The compact text of a value. -/
  compact : Json → String
  /-- The first JSON value of a text, as its compact text, and what is behind it. -/
  nextValue : List Char → Option (String × List Char)
  /-- The number of bytes that a base64 text stands for. -/
  base64Length : String → Option Nat
  saveImage : Json → ImageFiles
  fallbackId : Nat → String

structure SseState where
  sawTextDelta : Bool
  streamingToolCalls : Finmap fun _ : String => StreamingToolCallState
  completedToolItems : Finset String
  /-- The fallback ids handed out. -/
  fallbackIds : Nat

def SseState.new : SseState := ⟨false, ∅, ∅, 0⟩

/-- The queue and the state. -/
abbrev Work := List StreamEvent × SseState

/-- The returned event, the queue and the state. -/
abbrev Handled := Option StreamEvent × List StreamEvent × SseState

section

variable (env : SseEnv)

/-! ### Errors -/

def websocketFallbackNotice : String := "falling back from websockets to https transport"

def isWebsocketFallbackNotice (data : String) : Bool :=
  containsText (env.lowercase data) websocketFallbackNotice

/-- `error` is where the error was found. -/
def describedError (error : Json) : String :=
  let message := (error.getStr "message").getD "OpenAI response stream error (unknown)"
  let mentions (part : String) := containsText (env.lowercase message) (env.lowercase part)
  match error.getStr "type", error.getStr "code" with
  | some errorType, some code =>
    if !mentions errorType && !mentions code then errorType ++ " (" ++ code ++ "): " ++ message
    else if !mentions errorType then errorType ++ ": " ++ message
    else if !mentions code then code ++ ": " ++ message
    else message
  | some errorType, none =>
    if !mentions errorType then errorType ++ ": " ++ message else message
  | none, some code => if !mentions code then code ++ ": " ++ message else message
  | none, none => message

def extractErrorWithRetry (response topLevelError : Option Json) : String × Option Nat :=
  match (response.bind (·.get "error")).or topLevelError with
  | some error =>
    (describedError env error,
      (error.getU64 "retry_after").or (response.bind (·.getU64 "retry_after")))
  | none =>
    let message := response.bind fun response =>
      ((response.get "status_message").or (response.get "message")).bind Json.asStr
    (message.getD "OpenAI response stream error (no error details)", none)

/-! ### Tool calls -/

def normalizeOpenaiToolArguments (rawArguments : String) : String :=
  if trim rawArguments = "" then "\x7b\x7d" else rawArguments

def streamingToolItemId (item : Json) : Option String :=
  (item.getStr "id").or (item.getStr "item_id")

def isToolCallItem (item : Json) : Bool :=
  item.getStr "type" = some "function_call" || item.getStr "type" = some "custom_tool_call"

def toolCallEvents (id name arguments : String) : List StreamEvent :=
  [.toolUseStart id name, .toolInputDelta arguments, .toolUseEnd]

/-- Nothing is returned for a call without a name. -/
def streamToolCallFromState (itemId : Option String) (call : StreamingToolCallState) (w : Work) :
    Handled :=
  match call.name.filter (!·.isEmpty) with
  | none => (none, w)
  | some toolName =>
    let known := (call.callId.filter (!·.isEmpty)).or itemId
    let rawCallId := known.getD (fallbackCallId (env.fallbackId w.2.fallbackIds))
    let s := if known.isSome then w.2 else { w.2 with fallbackIds := w.2.fallbackIds + 1 }
    let arguments := normalizeOpenaiToolArguments
      (if call.arguments.isEmpty then "\x7b\x7d" else call.arguments)
    popFront (w.1 ++ toolCallEvents (sanitizeToolId rawCallId) toolName arguments, s)

/-- What stands behind a recovered call, unless it is a piece of the event around it. -/
def sanitizeRecoveredToolSuffix (suffix : String) : String :=
  let trimmed := trim suffix
  let normalized := String.ofList (trimmed.toList.dropWhile (· = '"'))
  let starts (text : String) := text.toList.isPrefixOf normalized.toList
  if trimmed = "" then ""
  else if starts ",\"item_id\"" || starts ",\"output_index\"" || starts ",\"sequence_number\"" ||
      starts ",\"call_id\"" || starts ",\"type\":\"response." ||
      starts "," && containsText normalized "\"item_id\"" &&
        (containsText normalized "\"output_index\"" ||
          containsText normalized "\"sequence_number\"") then ""
  else suffix

def streamTextOrRecoveredToolCall (text : String) (w : Work) : Handled :=
  if text.isEmpty then (none, w)
  else
    match parseTextWrappedToolCall env.nextValue text with
    | some call =>
      let suffix := sanitizeRecoveredToolSuffix call.suffix
      let id := fallbackCallId (env.fallbackId w.2.fallbackIds)
      popFront (w.1 ++ (if call.textBefore.isEmpty then [] else [.textDelta call.textBefore]) ++
        toolCallEvents id call.toolName call.arguments ++
        (if suffix.isEmpty then [] else [.textDelta suffix]),
        { w.2 with fallbackIds := w.2.fallbackIds + 1 })
    | none => (some (.textDelta text), w)

/-! ### Responses -/

def extractCachedInputTokens (usage : Json) : Option Nat :=
  ((usage.get "input_tokens_details").or (usage.get "prompt_tokens_details")).bind
    (·.getU64 "cached_tokens")

def extractUsageFromResponse (response : Json) : Option StreamEvent :=
  (response.get "usage").bind fun usage =>
    let inputTokens := usage.getU64 "input_tokens"
    let outputTokens := usage.getU64 "output_tokens"
    let cacheReadInputTokens := extractCachedInputTokens usage
    if inputTokens.isSome || outputTokens.isSome || cacheReadInputTokens.isSome then
      some (.tokenUsage inputTokens outputTokens cacheReadInputTokens none)
    else none

def extractLastAssistantMessagePhase (response : Json) : Option String :=
  ((response.get "output").bind Json.asArray).bind fun output =>
    output.reverse.findSome? fun item =>
      if item.getStr "type" = some "message" ∧ item.getStr "role" = some "assistant" then
        item.getStr "phase"
      else none

def extractStopReasonFromResponse (response : Json) : Option String :=
  let status := response.getStr "status"
  if status = some "completed" then
    if extractLastAssistantMessagePhase response = some "commentary" then some "commentary"
    else none
  else
    ((response.get "incomplete_details").bind (·.getStr "reason")).or (status.filter (!·.isEmpty))

/-- A response that has ended: its usage and the end of the message. -/
def endOfResponse (response : Option Json) (stopReason : Option String) (w : Work) : Handled :=
  popFront (w.1 ++ (response.bind extractUsageFromResponse).toList ++ [.messageEnd stopReason],
    w.2)

/-! ### Items -/

def generatedImageMarkdown (path : String) (metadataPath : Option String) : String :=
  "\n![Generated image](" ++ path ++ ")\n\nGenerated image saved to `" ++ path ++ "`." ++
    (metadataPath.elim "" fun metadataPath => "\nMetadata saved to `" ++ metadataPath ++ "`.") ++
    "\n"

def handleOpenaiImageGenerationItem (item : Json) (w : Work) : Handled :=
  match (item.getStr "result").filter (!·.isEmpty) with
  | none => (none, w)
  | some result =>
    match env.base64Length result with
    | none => (some (.textDelta
        "\n[Generated image received, but SSC-TUI could not decode it.]\n"), w)
    | some length =>
      match env.saveImage item with
      | .noDirectory => (some (.textDelta ("\n[Generated image received (" ++ toString length ++
          " bytes), but SSC-TUI could not save it.]\n")), w)
      | .notSaved => (some (.textDelta
          "\n[Generated image received, but SSC-TUI could not save it.]\n"), w)
      | .saved path metadataPath =>
        (some (.generatedImage ((item.getStr "id").getD "image") path metadataPath
            ((item.getStr "output_format").getD "png") (item.getStr "revised_prompt")),
          w.1 ++ [.textDelta (generatedImageMarkdown path metadataPath)], w.2)

/-- The arguments of a call item: a text, or a value that is written out. -/
def itemArguments (item : Json) : Option String :=
  (item.getStr "arguments").or ((item.get "input").bind fun input =>
    if input.isObject || input.isArray then some (env.compact input) else input.asStr)

def messageText (item : Json) : String :=
  String.join ((((item.get "content").bind Json.asArray).getD []).filterMap fun entry =>
    if entry.getStr "type" = some "output_text" ∨ entry.getStr "type" = some "text" then
      entry.getStr "text"
    else none)

def summaryText (summary : List Json) : String :=
  summary.foldl
    (fun text entry =>
      if entry.getStr "type" = some "summary_text" then
        match entry.getStr "text" with
        | some part => (if text.isEmpty then text else text ++ "\n") ++ part
        | none => text
      else text)
    ""

def handleOpenaiOutputItem (item : Json) (w : Work) : Handled :=
  match item.getStr "type" with
  | some "compaction" =>
    match item.getStr "encrypted_content" with
    | some encryptedContent =>
      (some (.compaction "openai_native_auto" none (some encryptedContent)), w)
    | none => (none, w)
  | some "function_call" | some "custom_tool_call" =>
    let arguments := normalizeOpenaiToolArguments ((itemArguments env item).getD "\x7b\x7d")
    popFront (w.1 ++ toolCallEvents ((item.getStr "call_id").getD "")
      ((item.getStr "name").getD "") arguments, w.2)
  | some "image_generation_call" => handleOpenaiImageGenerationItem env item w
  | some "message" =>
    if w.2.sawTextDelta then (none, w)
    else streamTextOrRecoveredToolCall env (messageText item) w
  | some "reasoning" =>
    let text := summaryText (((item.get "summary").bind Json.asArray).getD [])
    if text.isEmpty then (none, w)
    else popFront (w.1 ++ [.thinkingStart, .thinkingDelta text, .thinkingEnd], w.2)
  | _ => (none, w)

/-! ### Events -/

namespace SseState

variable (s : SseState)

def streamingToolCall (itemId : String) : StreamingToolCallState :=
  (s.streamingToolCalls.lookup itemId).getD .default

def setStreamingToolCall (itemId : String) (call : StreamingToolCallState) : SseState :=
  { s with streamingToolCalls := s.streamingToolCalls.insert itemId call }

end SseState

/-- An item that has been added: its call is kept until its arguments are done. -/
def noteAddedItem (item : Json) (itemId : String) (s : SseState) : SseState :=
  let call := s.streamingToolCall itemId
  let arguments :=
    match (item.getStr "arguments").or (item.getStr "input") with
    | some arguments => arguments
    | none => ((item.get "input").filter fun input => input.isObject || input.isArray).elim
        call.arguments env.compact
  s.setStreamingToolCall itemId
    { callId := (item.getStr "call_id").or call.callId
      name := (item.getStr "name").or call.name
      arguments := arguments }

def handleAddedItem (item : Option Json) (w : Work) : Handled :=
  match item with
  | none => (none, w)
  | some item =>
    if item.getStr "type" = some "reasoning" then (some .thinkingStart, w)
    else
      match streamingToolItemId item with
      | some itemId =>
        if isToolCallItem item then (none, w.1, noteAddedItem env item itemId w.2) else (none, w)
      | none => (none, w)

/-- What an event says about a call, over what is known of it. -/
def StreamingToolCallState.told (call : StreamingToolCallState) (event : ResponseSseEvent) :
    StreamingToolCallState :=
  { call with callId := event.callId.or call.callId, name := event.name.or call.name }

def handleArgumentsDelta (event : ResponseSseEvent) (w : Work) : Handled :=
  match event.itemId with
  | none => (none, w)
  | some itemId =>
    let call := (w.2.streamingToolCall itemId).told event
    (none, w.1, w.2.setStreamingToolCall itemId
      { call with arguments := call.arguments ++ event.delta.getD "" })

def handleArgumentsDone (event : ResponseSseEvent) (w : Work) : Handled :=
  match event.itemId with
  | none => (none, w)
  | some itemId =>
    let call := (w.2.streamingToolCall itemId).told event
    let call := { call with arguments := event.arguments.getD call.arguments }
    let s := { w.2 with streamingToolCalls := w.2.streamingToolCalls.erase itemId }
    match streamToolCallFromState env (some itemId) call (w.1, s) with
    | (some toolEvent, pending, s) =>
      (some toolEvent, pending,
        { s with completedToolItems := insert itemId s.completedToolItems })
    | (none, pending, s) => (none, pending, s.setStreamingToolCall itemId call)

/-- An item of a call that has been completed is not handled a second time. -/
def handleDoneItem (item : Option Json) (w : Work) : Handled :=
  match item with
  | none => (none, w)
  | some item =>
    match (streamingToolItemId item).filter fun itemId =>
        itemId ∈ w.2.completedToolItems && isToolCallItem item with
    | some itemId =>
      (none, w.1, { w.2 with completedToolItems := w.2.completedToolItems.erase itemId })
    | none => handleOpenaiOutputItem env item w

def handleKind (event : ResponseSseEvent) (w : Work) : Handled :=
  match event.kind with
  | "response.output_text.delta" =>
    match event.delta with
    | some delta => streamTextOrRecoveredToolCall env delta (w.1, { w.2 with sawTextDelta := true })
    | none => (none, w)
  | "response.reasoning.delta" | "response.reasoning_summary_text.delta" =>
    (event.delta.map .thinkingDelta, w)
  | "response.reasoning.done" | "response.output_item.added" => handleAddedItem env event.item w
  | "response.function_call_arguments.delta" => handleArgumentsDelta event w
  | "response.function_call_arguments.done" => handleArgumentsDone env event w
  | "response.output_item.done" => handleDoneItem env event.item w
  | "response.incomplete" =>
    endOfResponse event.response
      ((event.response.bind extractStopReasonFromResponse).or (some "incomplete")) w
  | "response.completed" =>
    endOfResponse event.response (event.response.bind extractStopReasonFromResponse) w
  | "response.failed" | "response.error" | "error" =>
    let (message, retryAfterSecs) := extractErrorWithRetry env event.response event.error
    (some (.error message retryAfterSecs), w)
  | _ => (none, w)

def parseOpenaiResponseEvent (data : String) (w : Work) : Handled :=
  if data = "[DONE]" then (some (.messageEnd none), w)
  else if isWebsocketFallbackNotice env data then (none, w)
  else if containsText (env.lowercase data) "stream disconnected before completion" then
    (some (.error data none), w)
  else
    match env.parseEvent data with
    | none => (none, w)
    | some event => handleKind env event w

/-- The data lines of an event, joined; an event without any is passed over. -/
def eventData (event : List Char) : Option String :=
  match (lines event).filterMap sseDataLine with
  | [] => none
  | dataLines => some ("\n".intercalate (dataLines.map String.ofList))

def handleEvent (s : SseState) (pending : List StreamEvent) (event : List Char) : Handled :=
  match eventData event with
  | none => (none, pending, s)
  | some data => parseOpenaiResponseEvent env data (pending, s)

end

/-! ### What is returned and queued -/

section

variable {env : SseEnv} {s : SseState} {events : List StreamEvent}

lemma noSession_toolCallEvents (id name arguments : String) :
    NoSession (toolCallEvents id name arguments) := by
  simp [NoSession, toolCallEvents]

lemma streamToolCallFromState_wellHandled (itemId : Option String) (call : StreamingToolCallState) :
    WellHandled (streamToolCallFromState env itemId call ([], s)) := by
  rw [streamToolCallFromState]
  split
  · exact wellHandled_none
  · exact wellHandled_popFront (noSession_toolCallEvents _ _ _)

lemma streamTextOrRecoveredToolCall_wellHandled (text : String) :
    WellHandled (streamTextOrRecoveredToolCall env text ([], s)) := by
  rw [streamTextOrRecoveredToolCall]
  split_ifs
  · exact wellHandled_none
  · split
    · apply wellHandled_popFront
      dsimp only
      split_ifs <;> simp [NoSession, toolCallEvents]
    · exact wellHandled_some (by simp) noSession_nil

lemma noSession_usage (response : Option Json) :
    NoSession (response.bind extractUsageFromResponse).toList := by
  intro sid hmem
  rw [Option.mem_toList, Option.bind_eq_some_iff] at hmem
  obtain ⟨response, -, hmem⟩ := hmem
  rw [extractUsageFromResponse, Option.bind_eq_some_iff] at hmem
  obtain ⟨usage, -, hmem⟩ := hmem
  dsimp only at hmem
  split_ifs at hmem
  cases hmem

lemma endOfResponse_wellHandled (response : Option Json) (stopReason : Option String) :
    WellHandled (endOfResponse response stopReason ([], s)) := by
  apply wellHandled_popFront
  exact noSession_append.mpr ⟨noSession_usage response, by simp [NoSession]⟩

lemma handleOpenaiImageGenerationItem_wellHandled (item : Json) :
    WellHandled (handleOpenaiImageGenerationItem env item ([], s)) := by
  rw [handleOpenaiImageGenerationItem]
  split
  · exact wellHandled_none
  · split
    · exact wellHandled_some (by simp) noSession_nil
    · split
      · exact wellHandled_some (by simp) noSession_nil
      · exact wellHandled_some (by simp) noSession_nil
      · exact wellHandled_some (by simp) (by simp [NoSession])

lemma handleOpenaiOutputItem_wellHandled (item : Json) :
    WellHandled (handleOpenaiOutputItem env item ([], s)) := by
  rw [handleOpenaiOutputItem]
  split
  · split
    · exact wellHandled_some (by simp) noSession_nil
    · exact wellHandled_none
  · exact wellHandled_popFront (noSession_toolCallEvents _ _ _)
  · exact wellHandled_popFront (noSession_toolCallEvents _ _ _)
  · exact handleOpenaiImageGenerationItem_wellHandled item
  · split_ifs
    · exact wellHandled_none
    · exact streamTextOrRecoveredToolCall_wellHandled _
  · dsimp only
    split_ifs
    · exact wellHandled_none
    · exact wellHandled_popFront (by simp [NoSession])
  · exact wellHandled_none

lemma handleAddedItem_wellHandled (item : Option Json) :
    WellHandled (handleAddedItem env item ([], s)) := by
  cases item with
  | none => exact wellHandled_none
  | some item =>
    simp only [handleAddedItem]
    split_ifs
    · exact wellHandled_some (by simp) noSession_nil
    · split <;> exact wellHandled_none
    · split <;> exact wellHandled_none

lemma handleArgumentsDelta_wellHandled (event : ResponseSseEvent) :
    WellHandled (handleArgumentsDelta event ([], s)) := by
  rw [handleArgumentsDelta]
  split <;> exact wellHandled_none

lemma handleArgumentsDone_wellHandled (event : ResponseSseEvent) :
    WellHandled (handleArgumentsDone env event ([], s)) := by
  rw [handleArgumentsDone]
  split
  · exact wellHandled_none
  · rename_i itemId _
    dsimp only
    split
    all_goals
      rename_i hcall
      have hwell := hcall ▸ @streamToolCallFromState_wellHandled env _ (some itemId) _
    · exact ⟨fun hnone => (nomatch hnone), hwell.noSession⟩
    · exact ⟨fun _ => hwell.quiet rfl, hwell.noSession⟩

lemma handleDoneItem_wellHandled (item : Option Json) :
    WellHandled (handleDoneItem env item ([], s)) := by
  cases item with
  | none => exact wellHandled_none
  | some item =>
    simp only [handleDoneItem]
    split
    · exact wellHandled_none
    · exact handleOpenaiOutputItem_wellHandled item

lemma thinkingDelta_wellHandled (delta : Option String) :
    WellHandled (delta.map .thinkingDelta, [], s) := by
  cases delta with
  | none => exact wellHandled_none
  | some delta => exact wellHandled_some (by simp) noSession_nil

lemma handleKind_wellHandled (event : ResponseSseEvent) :
    WellHandled (handleKind env event ([], s)) := by
  rw [handleKind]
  split
  · split
    · exact streamTextOrRecoveredToolCall_wellHandled _
    · exact wellHandled_none
  · exact thinkingDelta_wellHandled _
  · exact thinkingDelta_wellHandled _
  · exact handleAddedItem_wellHandled _
  · exact handleAddedItem_wellHandled _
  · exact handleArgumentsDelta_wellHandled event
  · exact handleArgumentsDone_wellHandled event
  · exact handleDoneItem_wellHandled _
  · exact endOfResponse_wellHandled _ _
  · exact endOfResponse_wellHandled _ _
  · exact wellHandled_some (by simp) noSession_nil
  · exact wellHandled_some (by simp) noSession_nil
  · exact wellHandled_some (by simp) noSession_nil
  · exact wellHandled_none

lemma handleEvent_wellHandled (event : List Char) :
    WellHandled (handleEvent env s [] event) := by
  rw [handleEvent]
  split
  · exact wellHandled_none
  · rw [parseOpenaiResponseEvent]
    split_ifs
    · exact wellHandled_some (by simp) noSession_nil
    · exact wellHandled_none
    · exact wellHandled_some (by simp) noSession_nil
    · split
      · exact wellHandled_none
      · exact handleKind_wellHandled _

end

/-- Nothing is left at the end of the body. -/
def handler (env : SseEnv) : FrameHandler SseState Char StreamEvent where
  handle := handleEvent env
  finish s := ([], s)
  quiet _ event := (handleEvent_wellHandled event).quiet
  finished _ := rfl

end Jcode.OpenAi
