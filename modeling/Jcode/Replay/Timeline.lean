import Jcode.Compaction.Accounting
import Jcode.Session.Model

/-!
# Replay timelines

How a session is exported to a timeline (`export_timeline`), and how a timeline is played back
(`timeline_to_replay_events`). The export pairs results with calls by the ids of the calls, the
playback gives calls ids of its own and keeps those that are pending in a list. Times are
milliseconds.
-/

namespace Jcode

namespace Replay

/-! ### Timelines -/

/-- The input of a tool is kept as its compact text. -/
inductive TimelineEventKind
  | userMessage (text : String)
  | thinking (duration : Nat)
  | streamText (text : String) (speed : Nat)
  | toolStart (name input : String)
  | toolDone (name output : String) (isError : Bool)
  | tokenUsage (input output : Nat) (cacheRead cacheCreation : Option Nat)
  | done
  | memoryInjection (summary content : String) (count : Nat)
  | displayMessage (role : String) (title : Option String) (content : String)
  | swarmStatus (members : List SwarmMemberStatus)
  | swarmPlan (swarmId : String) (version : Nat) (items : List PlanItem)
      (participants : List String) (reason : Option String)
deriving DecidableEq

structure TimelineEvent where
  t : Nat
  kind : TimelineEventKind
deriving DecidableEq

def maxInitialReplayIdleMs : Nat := 0

def capInitialReplayIdle (events : List TimelineEvent) : List TimelineEvent :=
  match events.head? with
  | none => events
  | some first =>
    let shift := first.t - maxInitialReplayIdleMs
    if shift = 0 then events else events.map fun event => { event with t := event.t - shift }

/-! ### The export -/

/-- The texts of a message, a line break between two of them. -/
def extractText (blocks : List ContentBlock) : String :=
  blocks.foldl
    (fun text block =>
      match block with
      | .text t _ => (if text = "" then text else text ++ "\n") ++ t
      | _ => text)
    ""

def truncateForTimeline (s : String) : String :=
  if s.utf8ByteSize > 500 then truncateStrBoundary s 497 ++ "..." else s

/-- The pending tools are known by the ids and names of their calls. -/
structure ExportState where
  events : List TimelineEvent
  t : Nat
  pendingTools : List (String × String)
deriving DecidableEq

namespace ExportState

def start : ExportState := ⟨[], 0, []⟩

/-- An event now, and a pause after it. -/
def push (s : ExportState) (kind : TimelineEventKind) (pause : Nat) : ExportState :=
  { s with events := s.events ++ [⟨s.t, kind⟩], t := s.t + pause }

def pushInjection (s : ExportState) (injection : StoredMemoryInjection) : ExportState :=
  s.push (.memoryInjection injection.summary injection.content injection.count) 500

/-- The stored time of a message, when it is later. -/
def advance (createdAt : Nat) (timestamp : Option Nat) (s : ExportState) : ExportState :=
  match timestamp with
  | some ts => if ts - createdAt > s.t then { s with t := ts - createdAt } else s
  | none => s

def pushResult (toolDurationMs : Option Nat) (s : ExportState) : ContentBlock → ExportState
  | .toolResult toolUseId content isError =>
    let toolName := ((s.pendingTools.find? (·.1 = toolUseId)).map (·.2)).getD "tool"
    let durationMs := toolDurationMs.getD 500
    { s.push (.toolDone toolName (truncateForTimeline content) (isError.getD false))
        (min durationMs 100) with
      pendingTools := s.pendingTools.filter (·.1 ≠ toolUseId) }
  | _ => s

def pushToolUse (s : ExportState) : ContentBlock → ExportState
  | .toolUse id name input =>
    { s.push (.toolStart name input) 200 with pendingTools := s.pendingTools ++ [(id, name)] }
  | _ => s

end ExportState

def isToolResult : ContentBlock → Bool
  | .toolResult _ _ _ => true
  | _ => false

def exportUser (s : ExportState) (message : StoredMessage) : ExportState :=
  let s := message.content.foldl (ExportState.pushResult message.toolDurationMs) s
  if message.content.any isToolResult then s
  else
    -- a regular user message
    let text := extractText message.content
    if text = "" then s else s.push (.userMessage text) 300

/-- The thinking phase and the text. -/
def exportOpening (s : ExportState) (text : String) (hasToolUses : Bool) : ExportState :=
  let s := if text ≠ "" ∨ hasToolUses then s.push (.thinking 800) 800 else s
  if text ≠ "" then s.push (.streamText text 80) (text.utf8ByteSize * 1000 / (80 * 4)) else s

def exportUsage (s : ExportState) : Option StoredTokenUsage → ExportState
  | some usage => s.push (.tokenUsage usage.inputTokens usage.outputTokens
      usage.cacheReadInputTokens usage.cacheCreationInputTokens) 0
  | none => s

def exportAssistant (s : ExportState) (message : StoredMessage) : ExportState :=
  let hasToolUses := message.content.any Session.isToolUse
  let s := exportOpening s (extractText message.content) hasToolUses
  let s := exportUsage s message.tokenUsage
  let s := message.content.foldl ExportState.pushToolUse s
  if hasToolUses then s else s.push .done 200

def exportMessage (session : PersistedSession) (s : ExportState) (message : StoredMessage × Nat) :
    ExportState :=
  let injections := session.memoryInjections.filter (·.beforeMessage = some message.2)
  let s := injections.foldl ExportState.pushInjection s
  let s := s.advance session.createdAt message.1.timestamp
  match message.1.role with
  | .user => exportUser s message.1
  | .assistant => exportAssistant s message.1

/-- A final `Done` unless there is one. -/
def finish (s : ExportState) : List TimelineEvent :=
  match s.events.getLast? with
  | none => s.events
  | some last => if last.kind = .done then s.events else s.events ++ [⟨s.t, .done⟩]

def recordKind : StoredReplayEventKind → TimelineEventKind
  | .displayMessage role title content => .displayMessage role title content
  | .swarmStatus members => .swarmStatus members
  | .swarmPlan swarmId version items participants reason =>
    .swarmPlan swarmId version items participants reason

def exportRecord (createdAt : Nat) (event : StoredReplayEvent) : TimelineEvent :=
  ⟨event.timestamp - createdAt, recordKind event.kind⟩

def exportTimeline (session : PersistedSession) : List TimelineEvent :=
  let s := session.messages.zipIdx.foldl (exportMessage session) .start
  let events := finish s ++ session.replayEvents.map (exportRecord session.createdAt)
  capInitialReplayIdle (events.mergeSort fun a b => a.t ≤ b.t)

/-! ### The playback -/

inductive ServerEvent
  | textDelta (text : String)
  | toolStart (id name : String)
  | toolInput (delta : String)
  | toolExec (id name : String)
  | toolDone (id name output : String) (error : Option String)
  | tokenUsage (input output : Nat) (cacheReadInput cacheCreationInput : Option Nat)
  | done (id : Nat)
deriving DecidableEq

inductive ReplayEvent
  | server (event : ServerEvent)
  | userMessage (text : String)
  | startProcessing
  | memoryInjection (summary content : String) (count : Nat)
  | displayMessage (role : String) (title : Option String) (content : String)
  | swarmStatus (members : List SwarmMemberStatus)
  | swarmPlan (swarmId : String) (version : Nat) (items : List PlanItem)
deriving DecidableEq

structure Playback where
  out : List (Nat × ReplayEvent)
  prevT : Nat
  turnId : Nat
  toolIdCounter : Nat
  pendingToolIds : List String
deriving DecidableEq

/-- Chunks of four characters, about one token each. -/
def chunks : List Char → List (List Char)
  | a :: b :: c :: d :: rest => [a, b, c, d] :: chunks rest
  | [] => []
  | rest => [rest]

def replayToolId (counter : Nat) : String := "replay_tool_" ++ toString counter

namespace Playback

def start : Playback := ⟨[], 0, 1, 0, []⟩

def emit (p : Playback) (delay : Nat) (event : ReplayEvent) : Playback :=
  { p with out := p.out ++ [(delay, event)] }

/-- The text in chunks, the first of them after the delay of the event. -/
def emitText (p : Playback) (delay : Nat) (text : String) (speed : Nat) : Playback :=
  let msPerChunk := if speed > 0 then 1000 / speed else 12
  { p with
    out := p.out ++ (chunks text.toList).zipIdx.map fun (chunk, i) =>
      (if i = 0 then delay else msPerChunk, .server (.textDelta (String.ofList chunk))) }

def emitToolStart (p : Playback) (delay : Nat) (name input : String) : Playback :=
  let id := replayToolId (p.toolIdCounter + 1)
  let p := { p with
    toolIdCounter := p.toolIdCounter + 1
    pendingToolIds := p.pendingToolIds ++ [id] }
  let p := p.emit delay (.server (.toolStart id name))
  let p := if input ≠ "" ∧ input ≠ "null" then p.emit 0 (.server (.toolInput input)) else p
  p.emit 50 (.server (.toolExec id name))

/-- The last pending id is taken, or a new one when there is none. -/
def emitToolDone (p : Playback) (delay : Nat) (name output : String) (isError : Bool) :
    Playback :=
  let error := if isError then some output else none
  match p.pendingToolIds.getLast? with
  | some id =>
    { p with pendingToolIds := p.pendingToolIds.dropLast }.emit delay
      (.server (.toolDone id name output error))
  | none =>
    { p with toolIdCounter := p.toolIdCounter + 1 }.emit delay
      (.server (.toolDone (replayToolId (p.toolIdCounter + 1)) name output error))

def step (p : Playback) (event : TimelineEvent) : Playback :=
  let delay := if p.out = [] then maxInitialReplayIdleMs else event.t - p.prevT
  let p := { p with prevT := event.t }
  match event.kind with
  | .userMessage text => p.emit delay (.userMessage text)
  | .thinking _ => p.emit delay .startProcessing
  | .streamText text speed => p.emitText delay text speed
  | .toolStart name input => p.emitToolStart delay name input
  | .toolDone name output isError => p.emitToolDone delay name output isError
  | .tokenUsage input output cacheRead cacheCreation =>
    p.emit delay (.server (.tokenUsage input output cacheRead cacheCreation))
  | .done => { p with turnId := p.turnId + 1 }.emit delay (.server (.done p.turnId))
  | .memoryInjection summary content count =>
    p.emit delay (.memoryInjection summary content count)
  | .displayMessage role title content => p.emit delay (.displayMessage role title content)
  | .swarmStatus members => p.emit delay (.swarmStatus members)
  | .swarmPlan swarmId version items _ _ => p.emit delay (.swarmPlan swarmId version items)

end Playback

def timelineToReplayEvents (timeline : List TimelineEvent) : List (Nat × ReplayEvent) :=
  (timeline.foldl Playback.step .start).out

end Replay

end Jcode
