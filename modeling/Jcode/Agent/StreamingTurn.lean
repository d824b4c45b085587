import Mathlib.Data.List.DropRight
import Jcode.Agent.RetriedStream
import Jcode.Swarm.Member

/-!
# A streaming turn

How `run_turn_streaming_mpsc` handles the stream of one response: what it sends to the client, and
the text and tool calls that it stores. Kept are the events of the client that show text and tool
calls. An input of a recovered tool call is kept as its compact text.
-/

namespace Jcode

inductive StreamServerEvent
  | textDelta (text : String)
  | textReplace (text : String)
  | toolStart (id name : String)
  | toolInput (delta : String)
  | toolExec (id name : String)
deriving DecidableEq

/-- The text that a client shows. -/
def clientText (sent : List StreamServerEvent) : String :=
  sent.foldl
    (fun shown event =>
      match event with
      | .textDelta text => shown ++ text
      | .textReplace text => text
      | _ => shown)
    ""

/-! ### Tool calls in the text -/

/-- What stands before a marker of a tool call. -/
def markerPrefix (text : String) : Option (List Char) :=
  ((splitFirst "to=functions.".toList text.toList).or
    (splitFirst "+#+#".toList text.toList)).map (·.1)

section

/-- `nextValue` is the first JSON value of a text and what is behind it (`serde_json`). -/
def wrappedArguments (nextValue : List Char → Option (String × List Char)) :
    List Char → Option (String × String) → Option (String × String)
  | [], fallback => fallback
  | c :: rest, fallback =>
    if c = '{' then
      match nextValue (c :: rest) with
      | none => wrappedArguments nextValue rest fallback
      | some (value, after) =>
        if value.toList.head? = some '{' then
          let suffix := trim (String.ofList after)
          if suffix = "" then some (value, suffix)
          else wrappedArguments nextValue rest (fallback.or (some (value, suffix)))
        else wrappedArguments nextValue rest fallback
    else wrappedArguments nextValue rest fallback

structure WrappedToolCall where
  textBefore : String
  toolName : String
  arguments : String
  suffix : String
deriving DecidableEq

variable (nextValue : List Char → Option (String × List Char))

def parseTextWrappedToolCall (text : String) : Option WrappedToolCall :=
  match splitFirst "to=functions.".toList text.toList with
  | none => none
  | some (before, after) =>
    let toolName := after.takeWhile fun c => c.isAlphanum || c = '_'
    if toolName = [] then none
    else
      (wrappedArguments nextValue (after.drop toolName.length) none).map
        fun (arguments, suffix) => {
        textBefore := String.ofList (before.rdropWhile isWhitespace)
        toolName := String.ofList toolName
        arguments := arguments
        suffix := suffix }

def fallbackPrefix : String := "fallback_text_call_"

def fallbackCallId (newId : String) : String := fallbackPrefix ++ newId

/-- The text without the tool call, and the call. -/
def recoverTextWrappedToolCall (newId : String) (textContent : String) (toolCalls : List ToolCall) :
    Option (String × ToolCall) :=
  if toolCalls ≠ [] ∨ trim textContent = "" then none
  else
    (parseTextWrappedToolCall nextValue textContent).map fun call =>
      let separator := if call.textBefore ≠ "" ∧ call.suffix ≠ "" then "\n" else ""
      (call.textBefore ++ separator ++ call.suffix,
        ⟨fallbackCallId newId, call.toolName, call.arguments⟩)

end

/-! ### The loop -/

structure StreamingTurn where
  textContent : String
  textWrappedDetected : Bool
  toolCalls : List ToolCall
  currentTool : Option ToolCall
  currentToolInput : String
  sent : List StreamServerEvent
deriving DecidableEq

def durationLine (durationSecs : String) : String := "Thought for " ++ durationSecs ++ "s\n"

def interruptedNote : String := "\n\n[generation interrupted - server reloading]"

namespace StreamingTurn

def start : StreamingTurn where
  textContent := ""
  textWrappedDetected := false
  toolCalls := []
  currentTool := none
  currentToolInput := ""
  sent := []

def send (s : StreamingTurn) (event : StreamServerEvent) : StreamingTurn :=
  { s with sent := s.sent ++ [event] }

def handleTextDelta (s : StreamingTurn) (text : String) : StreamingTurn :=
  let s := { s with textContent := s.textContent ++ text }
  if s.textWrappedDetected then s
  else
    match markerPrefix s.textContent with
    | some before =>
      { s with textWrappedDetected := true }.send
        (.textReplace (String.ofList (before.rdropWhile isWhitespace)))
    | none => s.send (.textDelta text)

def handle (showThinking : Bool) (s : StreamingTurn) : StreamEvent → StreamingTurn
  | .thinkingDelta thinking =>
    if showThinking then s.send (.textDelta ("💭 " ++ thinking ++ "\n")) else s
  | .thinkingDone durationSecs => s.send (.textDelta (durationLine durationSecs))
  | .textDelta text => s.handleTextDelta text
  | .toolUseStart id name =>
    { s with currentTool := some ⟨id, name, ""⟩, currentToolInput := "" }.send (.toolStart id name)
  | .toolInputDelta delta =>
    { s with currentToolInput := s.currentToolInput ++ delta }.send (.toolInput delta)
  | .toolUseEnd =>
    match s.currentTool with
    | some tool =>
      { s with
        toolCalls := s.toolCalls ++ [{ tool with input := s.currentToolInput }]
        currentTool := none
        currentToolInput := "" }.send (.toolExec tool.id tool.name)
    | none => s
  | _ => s

/-- A graceful shutdown keeps what there is so far. -/
def interrupt (s : StreamingTurn) : StreamingTurn :=
  { s with textContent := s.textContent ++ interruptedNote }.send (.textDelta interruptedNote)

/-- The loop over the events, each with whether a graceful shutdown has been asked for by then;
`none` is an error of the stream. -/
def handleAll (showThinking : Bool) (s : StreamingTurn) :
    List (StreamEvent × Bool) → Option StreamingTurn
  | [] => some s
  | (.error _ _, _) :: _ => none
  | (.textDelta text, gracefulShutdown) :: events =>
    let s := s.handle showThinking (.textDelta text)
    if gracefulShutdown then some s.interrupt else s.handleAll showThinking events
  | (event, _) :: events => (s.handle showThinking event).handleAll showThinking events

/-- A tool call in the text is taken out of it. -/
def recover (nextValue : List Char → Option (String × List Char)) (newId : String)
    (s : StreamingTurn) : StreamingTurn :=
  match recoverTextWrappedToolCall nextValue newId s.textContent s.toolCalls with
  | none => s
  | some (textContent, call) =>
    let s := { s with textContent := textContent, toolCalls := s.toolCalls ++ [call] }
    if fallbackPrefix.toList <+: call.id.toList then
      (((s.send (.textReplace textContent)).send (.toolStart call.id call.name)).send
        (.toolInput call.input)).send (.toolExec call.id call.name)
    else s

end StreamingTurn

/-- The response as it is stored and as it was sent. -/
def handleResponse (nextValue : List Char → Option (String × List Char)) (newId : String)
    (showThinking : Bool) (events : List (StreamEvent × Bool)) : Option StreamingTurn :=
  (StreamingTurn.start.handleAll showThinking events).map (·.recover nextValue newId)

end Jcode
