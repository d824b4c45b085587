import Jcode.Provider.Sse

/-!
# The stream of the OpenRouter provider

`OpenRouterStream`: the queue is filled event by event, and a tool call is kept until the next one,
a finish reason or the end of the body. The pin of the upstream provider and log messages are left
out. `parse` is `serde_json::from_str`.
-/

namespace Jcode.OpenRouter

structure ToolCallAccumulator where
  id : String
  name : String
  arguments : String
deriving DecidableEq

structure SseState where
  currentToolCall : Option ToolCallAccumulator
  providerEmitted : Bool
  reasoningStarted : Bool
deriving DecidableEq

def SseState.new : SseState := ⟨none, false, false⟩

/-- The queue and the state. -/
abbrev Work := List StreamEvent × SseState

namespace Work

variable (w : Work)

def push (events : List StreamEvent) : Work := (w.1 ++ events, w.2)

def pushThinkingDelta (text : String) : Work :=
  let w := if w.2.reasoningStarted then w
    else (w.1 ++ [.thinkingStart], { w.2 with reasoningStarted := true })
  w.push [.thinkingDelta text]

def closeReasoningIfStarted : Work :=
  if w.2.reasoningStarted then (w.1 ++ [.thinkingEnd], { w.2 with reasoningStarted := false })
  else w

/-- Emit the pending tool call, if it has an id. -/
def emitToolCall : Work :=
  match w.2.currentToolCall with
  | none => w
  | some call =>
    (w.1 ++ if call.id.isEmpty then []
      else [.toolUseStart call.id call.name, .toolInputDelta call.arguments, .toolUseEnd],
      { w.2 with currentToolCall := none })

/-- A tool call with an id is a new one. -/
def startToolCall (call : Json) : Work :=
  match call.getStr "id" with
  | none => w
  | some id =>
    let name := ((call.get "function").bind (·.getStr "name")).getD ""
    (w.emitToolCall.1, { w.2 with currentToolCall := some ⟨id, name, ""⟩ })

def accumulateArguments (call : Json) : Work :=
  match (call.get "function").bind (·.getStr "arguments"), w.2.currentToolCall with
  | some arguments, some call =>
    (w.1, { w.2 with
      currentToolCall := some { call with arguments := call.arguments ++ arguments } })
  | _, _ => w

def handleToolCall (call : Json) : Work := (w.startToolCall call).accumulateArguments call

def handleReasoning (delta : Json) : Work :=
  match ((delta.get "reasoning_content").or (delta.get "reasoning")).bind Json.asStr with
  | some reasoning => if reasoning.isEmpty then w else w.pushThinkingDelta reasoning
  | none => w

def handleContent (delta : Json) : Work :=
  match delta.getStr "content" with
  | some content => if content.isEmpty then w else w.push [.textDelta content]
  | none => w

/-- The end of the message itself is told by `[DONE]`. -/
def handleFinishReason (choice : Json) : Work :=
  match choice.getStr "finish_reason" with
  | some _ => w.emitToolCall.closeReasoningIfStarted
  | none => w

def handleChoice (choice : Json) : Work :=
  match (choice.get "delta").or (choice.get "message") with
  | none => w
  | some delta =>
    let toolCalls := ((delta.get "tool_calls").bind Json.asArray).getD []
    (toolCalls.foldl handleToolCall
      ((w.handleReasoning delta).handleContent delta)).handleFinishReason choice

def handleUsage (usage : Json) : Work :=
  let inputTokens := usage.getU64 "prompt_tokens"
  let outputTokens := usage.getU64 "completion_tokens"
  let cacheReadInputTokens := (usage.getU64 "cached_tokens").or
    (((usage.get "prompt_tokens_details").bind (·.getU64 "cached_tokens")).or
      (usage.getU64 "cache_read_input_tokens"))
  let cacheCreationInputTokens := usage.getU64 "cache_creation_input_tokens"
  if inputTokens.isSome || outputTokens.isSome || cacheReadInputTokens.isSome then
    w.push [.tokenUsage inputTokens outputTokens cacheReadInputTokens cacheCreationInputTokens]
  else w

/-- The upstream provider is told once. -/
def handleProvider (parsed : Json) : Work :=
  match parsed.getStr "provider" with
  | some provider =>
    if w.2.providerEmitted then w
    else (w.1 ++ [.upstreamProvider provider], { w.2 with providerEmitted := true })
  | none => w

end Work

/-- The data of an event is its last data line. -/
def eventData (event : List Char) : Option (List Char) :=
  ((lines event).filterMap sseDataLine).getLast?

variable (parse : String → Option Json)

def handleEvent (s : SseState) (pending : List StreamEvent) (event : List Char) :
    Option StreamEvent × List StreamEvent × SseState :=
  match eventData event with
  | none => (none, pending, s)
  | some data =>
    if data = "[DONE]".toList then
      popFront ((Work.closeReasoningIfStarted (pending, s)).push [.messageEnd none])
    else
      match parse (String.ofList data) with
      | none => (none, pending, s)
      | some parsed =>
        let w := Work.handleProvider (pending, s) parsed
        match parsed.get "error" with
        | some error =>
          (some (.error ((error.getStr "message").getD "OpenRouter error") none), w)
        | none =>
          let w := (((parsed.get "choices").bind Json.asArray).getD []).foldl Work.handleChoice w
          let w := (parsed.get "usage").elim w w.handleUsage
          popFront w

/-- What is left at the end of the body. -/
def finishStream (s : SseState) : List StreamEvent × SseState :=
  (Work.emitToolCall ([], s)).closeReasoningIfStarted

variable {parse}

/-! ### What is queued -/

section

variable {w : Work}

namespace Work

lemma noSession_push (h : NoSession w.1) {events : List StreamEvent}
    (hevents : NoSession events) : NoSession (w.push events).1 :=
  noSession_append.mpr ⟨h, hevents⟩

lemma noSession_pushThinkingDelta (h : NoSession w.1) (text : String) :
    NoSession (w.pushThinkingDelta text).1 := by
  rw [pushThinkingDelta]
  split_ifs
  · exact noSession_push h (by simp [NoSession])
  · exact noSession_push (noSession_push h (by simp [NoSession])) (by simp [NoSession])

lemma noSession_closeReasoningIfStarted (h : NoSession w.1) :
    NoSession w.closeReasoningIfStarted.1 := by
  rw [closeReasoningIfStarted]
  split_ifs
  · exact noSession_push h (by simp [NoSession])
  · exact h

lemma noSession_emitToolCall (h : NoSession w.1) : NoSession w.emitToolCall.1 := by
  rw [emitToolCall]
  split
  · exact h
  · refine noSession_push h ?_
    split_ifs <;> simp [NoSession]

lemma noSession_handleToolCall (h : NoSession w.1) (call : Json) :
    NoSession (w.handleToolCall call).1 := by
  have hstart : NoSession (w.startToolCall call).1 := by
    rw [startToolCall]
    split
    · exact h
    · exact noSession_emitToolCall h
  rw [handleToolCall, accumulateArguments]
  split <;> exact hstart

lemma noSession_foldl {f : Work → Json → Work}
    (hf : ∀ w item, NoSession w.1 → NoSession (f w item).1) (items : List Json)
    (h : NoSession w.1) : NoSession (items.foldl f w).1 := by
  induction items generalizing w with
  | nil => exact h
  | cons item items ih => exact ih (hf w item h)

lemma noSession_handleReasoning (h : NoSession w.1) (delta : Json) :
    NoSession (w.handleReasoning delta).1 := by
  rw [handleReasoning]
  split
  · split_ifs
    · exact h
    · exact noSession_pushThinkingDelta h _
  · exact h

lemma noSession_handleContent (h : NoSession w.1) (delta : Json) :
    NoSession (w.handleContent delta).1 := by
  rw [handleContent]
  split
  · split_ifs
    · exact h
    · exact noSession_push h (by simp [NoSession])
  · exact h

lemma noSession_handleFinishReason (h : NoSession w.1) (choice : Json) :
    NoSession (w.handleFinishReason choice).1 := by
  rw [handleFinishReason]
  split
  · exact noSession_closeReasoningIfStarted (noSession_emitToolCall h)
  · exact h

lemma noSession_handleChoice (h : NoSession w.1) (choice : Json) :
    NoSession (w.handleChoice choice).1 := by
  rw [handleChoice]
  split
  · exact h
  · apply noSession_handleFinishReason
    apply noSession_foldl fun w call h => noSession_handleToolCall h call
    exact noSession_handleContent (noSession_handleReasoning h _) _

lemma noSession_handleUsage (h : NoSession w.1) (usage : Json) :
    NoSession (w.handleUsage usage).1 := by
  rw [handleUsage]
  split_ifs
  · exact noSession_push h (by simp [NoSession])
  · exact h

lemma noSession_handleProvider (h : NoSession w.1) (parsed : Json) :
    NoSession (w.handleProvider parsed).1 := by
  rw [handleProvider]
  split
  · split_ifs
    · exact h
    · exact noSession_push h (by simp [NoSession])
  · exact h

end Work

end

lemma handleEvent_wellHandled (s : SseState) (event : List Char) :
    WellHandled (handleEvent parse s [] event) := by
  have hstart : NoSession (([], s) : Work).1 := noSession_nil
  rw [handleEvent]
  split
  · exact wellHandled_none
  · split_ifs
    · exact wellHandled_popFront
        (Work.noSession_push (Work.noSession_closeReasoningIfStarted hstart) (by simp [NoSession]))
    · split
      · exact wellHandled_none
      · rename_i parsed _
        have hprovider := Work.noSession_handleProvider hstart parsed
        dsimp only
        split
        · exact wellHandled_some (by simp) hprovider
        · apply wellHandled_popFront
          have hchoices := Work.noSession_foldl
            (fun w choice h => Work.noSession_handleChoice h choice)
            (((parsed.get "choices").bind Json.asArray).getD []) hprovider
          cases parsed.get "usage" with
          | none => exact hchoices
          | some usage => exact Work.noSession_handleUsage hchoices usage

lemma finishStream_state (s : SseState) :
    (finishStream s).2.currentToolCall = none ∧ (finishStream s).2.reasoningStarted = false := by
  have hemit : (Work.emitToolCall ([], s)).2.currentToolCall = none := by
    rw [Work.emitToolCall]
    split
    · assumption
    · rfl
  rw [finishStream, Work.closeReasoningIfStarted]
  split_ifs with hstarted
  · exact ⟨hemit, rfl⟩
  · exact ⟨hemit, Bool.eq_false_iff.mpr hstarted⟩

lemma finishStream_finished (s : SseState) :
    finishStream (finishStream s).2 = ([], (finishStream s).2) := by
  obtain ⟨hcall, hstarted⟩ := finishStream_state s
  rw [finishStream, Work.emitToolCall, Work.closeReasoningIfStarted]
  simp [hcall, hstarted]

lemma noSession_finishStream (s : SseState) : NoSession (finishStream s).1 :=
  Work.noSession_closeReasoningIfStarted (Work.noSession_emitToolCall noSession_nil)

def handler (parse : String → Option Json) : FrameHandler SseState Char StreamEvent where
  handle := handleEvent parse
  finish := finishStream
  quiet s event := (handleEvent_wellHandled s event).quiet
  finished := finishStream_finished

end Jcode.OpenRouter
