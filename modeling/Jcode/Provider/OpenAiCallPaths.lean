import Jcode.Foundation.Interleave
import Jcode.Provider.OpenAiSse

/-!
# Two ways to a tool call

The events of a function call come piece by piece, mixed with those of other calls. A call is
emitted when its arguments are done, if its name is known by then, or else with its finished item.
-/

namespace Jcode.OpenAi

/-! ### The events of an item -/

/-- The item of a function call is added, arguments come, they are done, or the item is done. -/
inductive CallEvent
  | added (item : Json)
  | delta (callId name delta : Option String)
  | argumentsDone (callId name arguments : Option String)
  | itemDone (item : Json)

/-- With the id of the item that the event is about. -/
def callEvent (event : ResponseSseEvent) : Option (Option String × CallEvent) :=
  match event.kind with
  | "response.output_item.added" =>
    event.item.map fun item => (streamingToolItemId item, .added item)
  | "response.function_call_arguments.delta" =>
    some (event.itemId, .delta event.callId event.name event.delta)
  | "response.function_call_arguments.done" =>
    some (event.itemId, .argumentsDone event.callId event.name event.arguments)
  | "response.output_item.done" =>
    event.item.map fun item => (streamingToolItemId item, .itemDone item)
  | _ => none

namespace CallEvent

def isArgumentsDone : CallEvent → Bool
  | .argumentsDone _ _ _ => true
  | _ => false

def isItemDone : CallEvent → Bool
  | .itemDone _ => true
  | _ => false

/-- The items that come with an event are tool calls. -/
def onToolCall : CallEvent → Bool
  | .added item | .itemDone item => isToolCallItem item
  | _ => true

/-- What is told of a call before its item is done. -/
def callId : CallEvent → Option String
  | .added item => item.getStr "call_id"
  | .delta callId _ _ | .argumentsDone callId _ _ => callId
  | .itemDone _ => none

def name : CallEvent → Option String
  | .added item => item.getStr "name"
  | .delta _ name _ | .argumentsDone _ name _ => name
  | .itemDone _ => none

end CallEvent

section

variable (env : SseEnv)

def addedArguments (item : Json) : Option String :=
  ((item.getStr "arguments").or (item.getStr "input")).or
    (((item.get "input").filter fun input => input.isObject || input.isArray).map env.compact)

/-- The arguments that a call has by its events. -/
def toldArguments (events : List CallEvent) : String :=
  events.foldl
    (fun text => fun
      | .added item => (addedArguments env item).getD text
      | .delta _ _ delta => text ++ delta.getD ""
      | .argumentsDone _ _ arguments => arguments.getD text
      | .itemDone _ => text)
    ""

/-- A function call and the events about it. They tell nothing but what the finished item says. -/
structure CallItem where
  final : Json
  /-- In front of the event of the arguments that are done. -/
  before : List CallEvent
  argumentsDone : Option CallEvent
  isToolCall : isToolCallItem final
  before_telling : ∀ event ∈ before,
    event.onToolCall ∧ event.isArgumentsDone = false ∧ event.isItemDone = false
  argumentsDone_telling : ∀ event ∈ argumentsDone, event.isArgumentsDone
  callId_eq : ∀ event ∈ before ++ argumentsDone.toList, ∀ id, event.callId = some id →
    final.getStr "call_id" = some id
  name_eq : ∀ event ∈ before ++ argumentsDone.toList, ∀ name, event.name = some name →
    final.getStr "name" = some name
  arguments_eq : argumentsDone.isSome →
    toldArguments env (before ++ argumentsDone.toList) = (itemArguments env final).getD ""

namespace CallItem

variable {env} (item : CallItem env)

def key : Option String := streamingToolItemId item.final

def told : List CallEvent := item.before ++ item.argumentsDone.toList

def events : List CallEvent := item.told ++ [.itemDone item.final]

end CallItem

/-- The event of a text that is not the end of the stream. -/
def callEventOf (data : String) : Option (Option String × CallEvent) :=
  if data = "[DONE]" then none else (env.parseEvent data).bind callEvent

/-- The events of items in any order, each with its item. -/
structure Interleaved {ι : Type} [DecidableEq ι] (items : ι → CallItem env)
    (stream : List (ι × String)) : Prop where
  events_eq : ∀ i, partOf i stream ≠ [] → (partOf i stream).map (callEventOf env) =
    (items i).events.map fun event => some ((items i).key, event)
  keys_ne : ∀ i j, partOf i stream ≠ [] → partOf j stream ≠ [] → (items i).key.isSome →
    (items i).key = (items j).key → i = j

/-! ### What is emitted -/

/-- All that is returned and queued for an event. -/
def handleData (s : SseState) (data : String) : List StreamEvent × SseState :=
  let handled := parseOpenaiResponseEvent env data ([], s)
  (handled.1.toList ++ handled.2.1, handled.2.2)

/-- What a finished item is to emit if no other event came. -/
def doneAlone (final : Json) : List StreamEvent :=
  let handled := handleDoneItem env (some final) ([], .new)
  handled.1.toList ++ handled.2.1

/-- Of the events of each item one emits something: the call that the finished item alone emits. -/
def EmittedAsDone {ι : Type} [DecidableEq ι] (items : ι → CallItem env)
    (stream : List (ι × String)) : Prop :=
  ∀ i, partOf i stream ≠ [] →
    (partOf i (runParts (handleData env) .new stream).1).filter (!·.isEmpty) =
      [doneAlone env (items i).final]

/-! ### When the ways agree -/

/-- A text that is taken for an error of the stream. -/
def isDisconnectNotice (data : String) : Bool :=
  !isWebsocketFallbackNotice env data &&
    containsText (env.lowercase data) "stream disconnected before completion"

/-- The events that are not taken for notices. -/
def heard (texts : List String) : List CallEvent :=
  (texts.filter (!isWebsocketFallbackNotice env ·)).filterMap fun data =>
    (callEventOf env data).map (·.2)

def isTold (value : Option String) : Bool := value.any (!·.isEmpty)

/-- The arguments are done and the name is known. -/
def emitsEarly (key : Option String) (events : List CallEvent) : Bool :=
  key.isSome && events.any (·.isArgumentsDone) && events.any (isTold ·.name)

/-- The id of the finished item is the one that is told, or else that of the item, without what
`sanitizeToolId` replaces, and no piece of the arguments is missing. -/
def AgreesWithDone (final : Json) (events : List CallEvent) : Prop :=
  let finalId := (final.getStr "call_id").getD ""
  sanitizeToolId (if events.any (isTold ·.callId) then finalId
      else (streamingToolItemId final).getD "") = finalId ∧
    normalizeOpenaiToolArguments (toldArguments env events) =
      normalizeOpenaiToolArguments ((itemArguments env final).getD "")

/-- No event of the item is taken for an error, a call that is emitted early is as the finished item
says, and the finished item of any other is heard. -/
def WaysAgree (final : Json) (texts : List String) : Prop :=
  (∀ data ∈ texts, isDisconnectNotice env data = false) ∧
    if emitsEarly (streamingToolItemId final) (heard env texts) then
      AgreesWithDone env final (heard env texts)
    else (heard env texts).any (·.isItemDone)

/-! ### What is kept of one item -/

/-- What the state holds of an item. -/
structure CallView where
  call : StreamingToolCallState
  completed : Bool

def CallView.new : CallView := ⟨.default, false⟩

/-- There is nothing of an item without an id. -/
def SseState.viewOf (s : SseState) : Option String → CallView
  | some itemId => ⟨s.streamingToolCall itemId, itemId ∈ s.completedToolItems⟩
  | none => .new

def StreamingToolCallState.tell (call : StreamingToolCallState) (event : CallEvent) :
    StreamingToolCallState where
  callId := event.callId.or call.callId
  name := event.name.or call.name
  arguments := match event with
    | .added item => (addedArguments env item).getD call.arguments
    | .delta _ _ delta => call.arguments ++ delta.getD ""
    | .argumentsDone _ _ arguments => arguments.getD call.arguments
    | .itemDone _ => call.arguments

def StreamingToolCallState.tellAll (call : StreamingToolCallState) (events : List CallEvent) :
    StreamingToolCallState :=
  events.foldl (fun call event => call.tell env event) call

def earlyCall (itemId name : String) (call : StreamingToolCallState) : List StreamEvent :=
  toolCallEvents (sanitizeToolId ((call.callId.filter (!·.isEmpty)).getD itemId)) name
    (normalizeOpenaiToolArguments call.arguments)

def stepView (key : Option String) (v : CallView) (event : CallEvent) :
    List StreamEvent × CallView :=
  match key, event with
  | none, .itemDone final => (doneAlone env final, v)
  | none, _ => ([], v)
  | some _, .itemDone final =>
    if v.completed then ([], { v with completed := false }) else (doneAlone env final, v)
  | some itemId, event =>
    let call := v.call.tell env event
    if event.isArgumentsDone then
      match call.name.filter (!·.isEmpty) with
      | some name => (earlyCall itemId name call, ⟨.default, true⟩)
      | none => ([], { v with call := call })
    else ([], { v with call := call })

def stepTextView (key : Option String) (v : CallView) (data : String) :
    List StreamEvent × CallView :=
  if isWebsocketFallbackNotice env data then ([], v)
  else if isDisconnectNotice env data then ([.error data none], v)
  else
    match callEventOf env data with
    | some (_, event) => stepView env key v event
    | none => ([], v)

end

variable {env : SseEnv} {ι : Type} {s : SseState} {key : Option String} {event : CallEvent}
  {events : List CallEvent} {v : CallView} {data : String} {texts : List String}

lemma popFront_events {σ : Type} (w : List StreamEvent × σ) :
    (popFront w).1.toList ++ (popFront w).2.1 = w.1 ∧ (popFront w).2.2 = w.2 := by
  obtain ⟨events, s⟩ := w
  cases events <;> exact ⟨rfl, rfl⟩

lemma isToolCallItem_iff {item : Json} : isToolCallItem item ↔
    item.getStr "type" = some "function_call" ∨ item.getStr "type" = some "custom_tool_call" := by
  simp [isToolCallItem]

lemma normalize_getD (arguments : Option String) :
    normalizeOpenaiToolArguments (arguments.getD "\x7b\x7d") =
      normalizeOpenaiToolArguments (arguments.getD "") := by
  cases arguments with
  | none => decide
  | some arguments => rfl

lemma normalize_ite (arguments : String) :
    normalizeOpenaiToolArguments (if arguments.isEmpty then "\x7b\x7d" else arguments) =
      normalizeOpenaiToolArguments arguments := by
  split_ifs with hempty
  · rw [String.isEmpty_iff] at hempty
    rw [hempty]
    decide
  · rfl

lemma handleOpenaiOutputItem_toolCall {final : Json} (h : isToolCallItem final) :
    handleOpenaiOutputItem env final ([], s) =
      popFront (toolCallEvents ((final.getStr "call_id").getD "") ((final.getStr "name").getD "")
        (normalizeOpenaiToolArguments ((itemArguments env final).getD "")), s) := by
  rw [handleOpenaiOutputItem, ← normalize_getD]
  rcases isToolCallItem_iff.mp h with htype | htype <;> rw [htype] <;> rfl

lemma doneAlone_eq {final : Json} (h : isToolCallItem final) : doneAlone env final =
    toolCallEvents ((final.getStr "call_id").getD "") ((final.getStr "name").getD "")
      (normalizeOpenaiToolArguments ((itemArguments env final).getD "")) := by
  have hnew : (streamingToolItemId final).filter (fun itemId =>
      itemId ∈ SseState.new.completedToolItems && isToolCallItem final) = none := by
    cases streamingToolItemId final with
    | none => rfl
    | some itemId => simp [SseState.new]
  rw [doneAlone, handleDoneItem]
  dsimp only
  rw [hnew]
  dsimp only
  rw [handleOpenaiOutputItem_toolCall h]
  exact (popFront_events _).1

/-! ### One event -/

/-- An event is handled as far as its own item goes, and other items are left as they are. -/
structure Simulates (s : SseState) (key : Option String) (step : List StreamEvent × CallView)
    (handled : Handled) : Prop where
  emitted : handled.1.toList ++ handled.2.1 = step.1
  own : handled.2.2.viewOf key = step.2
  other : ∀ key', key' ≠ key → handled.2.2.viewOf key' = s.viewOf key'

lemma viewOf_setStreamingToolCall (itemId : String) (call : StreamingToolCallState) :
    (s.setStreamingToolCall itemId call).viewOf key =
      if key = some itemId then ⟨call, itemId ∈ s.completedToolItems⟩ else s.viewOf key := by
  cases key with
  | none => rfl
  | some itemId' =>
    rw [SseState.viewOf, SseState.setStreamingToolCall, SseState.streamingToolCall]
    by_cases h : itemId' = itemId
    · subst h
      simp [Finmap.lookup_insert]
    · simp [h, Finmap.lookup_insert_of_ne, SseState.viewOf, SseState.streamingToolCall]

lemma viewOf_erase (itemId : String) :
    { s with streamingToolCalls := s.streamingToolCalls.erase itemId }.viewOf key =
      if key = some itemId then ⟨.default, itemId ∈ s.completedToolItems⟩ else s.viewOf key := by
  cases key with
  | none => rfl
  | some itemId' =>
    rw [SseState.viewOf, SseState.streamingToolCall]
    by_cases h : itemId' = itemId
    · subst h
      simp [Finmap.lookup_erase]
    · simp [h, Finmap.lookup_erase_ne, SseState.viewOf, SseState.streamingToolCall]

lemma viewOf_completed (itemId : String) :
    { s with
      streamingToolCalls := s.streamingToolCalls.erase itemId
      completedToolItems := insert itemId s.completedToolItems }.viewOf key =
      if key = some itemId then ⟨.default, true⟩ else s.viewOf key := by
  cases key with
  | none => rfl
  | some itemId' =>
    rw [SseState.viewOf, SseState.streamingToolCall]
    by_cases h : itemId' = itemId
    · subst h
      simp [Finmap.lookup_erase]
    · simp [h, Finmap.lookup_erase_ne, SseState.viewOf, SseState.streamingToolCall]

lemma viewOf_eraseCompleted (itemId : String) :
    { s with completedToolItems := s.completedToolItems.erase itemId }.viewOf key =
      if key = some itemId then { s.viewOf key with completed := false } else s.viewOf key := by
  cases key with
  | none => rfl
  | some itemId' =>
    by_cases h : itemId' = itemId
    · subst h
      simp [SseState.viewOf, SseState.streamingToolCall]
    · simp [h, SseState.viewOf, SseState.streamingToolCall]

/-- What is told of a call is kept. -/
lemma simulates_set {itemId : String} {call : StreamingToolCallState} :
    Simulates s (some itemId) ([], { s.viewOf (some itemId) with call := call })
      (none, [], s.setStreamingToolCall itemId call) where
  emitted := rfl
  own := by rw [viewOf_setStreamingToolCall, if_pos rfl]; rfl
  other := fun key' h => by rw [viewOf_setStreamingToolCall, if_neg h]

lemma simulates_nothing (h : s.viewOf key = v) : Simulates s key ([], v) (none, [], s) :=
  ⟨rfl, h, fun _ _ => rfl⟩

lemma noteAddedItem_eq (item : Json) (itemId : String) : noteAddedItem env item itemId s =
    s.setStreamingToolCall itemId ((s.streamingToolCall itemId).tell env (.added item)) := by
  rw [noteAddedItem, StreamingToolCallState.tell, addedArguments]
  congr 2
  cases (item.getStr "arguments").or (item.getStr "input") with
  | some arguments => rfl
  | none => cases (item.get "input").filter fun input => input.isObject || input.isArray <;> rfl

lemma simulates_added {item : Json} (h : isToolCallItem item) :
    Simulates s (streamingToolItemId item)
      (stepView env (streamingToolItemId item) (s.viewOf (streamingToolItemId item)) (.added item))
      (handleAddedItem env (some item) ([], s)) := by
  have htype : item.getStr "type" ≠ some "reasoning" := by
    rcases isToolCallItem_iff.mp h with htype | htype <;> simp [htype]
  rw [handleAddedItem]
  dsimp only
  rw [if_neg htype]
  cases streamingToolItemId item with
  | none => exact simulates_nothing rfl
  | some itemId =>
    dsimp only
    rw [if_pos h, noteAddedItem_eq]
    exact simulates_set

lemma simulates_delta {e : ResponseSseEvent} :
    Simulates s e.itemId
      (stepView env e.itemId (s.viewOf e.itemId) (.delta e.callId e.name e.delta))
      (handleArgumentsDelta e ([], s)) := by
  rw [handleArgumentsDelta]
  cases e.itemId with
  | none => exact simulates_nothing rfl
  | some itemId => exact simulates_set

/-- With an id of the item a call is emitted as soon as it has a name. -/
lemma streamToolCallFromState_eq (itemId : String) (call : StreamingToolCallState) :
    streamToolCallFromState env (some itemId) call ([], s) =
      match call.name.filter (!·.isEmpty) with
      | some name => popFront (earlyCall itemId name call, s)
      | none => (none, [], s) := by
  rw [streamToolCallFromState]
  cases call.name.filter (!·.isEmpty) with
  | none => rfl
  | some name =>
    dsimp only
    rw [earlyCall, normalize_ite]
    cases call.callId.filter (!·.isEmpty) <;> rfl

lemma simulates_argumentsDone {e : ResponseSseEvent} :
    Simulates s e.itemId
      (stepView env e.itemId (s.viewOf e.itemId) (.argumentsDone e.callId e.name e.arguments))
      (handleArgumentsDone env e ([], s)) := by
  rw [handleArgumentsDone]
  cases e.itemId with
  | none => exact simulates_nothing rfl
  | some itemId =>
    have hcall : { (s.streamingToolCall itemId).told e with
        arguments := e.arguments.getD ((s.streamingToolCall itemId).told e).arguments } =
        (s.viewOf (some itemId)).call.tell env (.argumentsDone e.callId e.name e.arguments) := rfl
    dsimp only
    rw [streamToolCallFromState_eq, hcall]
    simp only [stepView, CallEvent.isArgumentsDone, if_true]
    generalize (s.viewOf (some itemId)).call.tell env _ = call
    cases call.name.filter (!·.isEmpty) with
    | none =>
      refine ⟨rfl, ?_, fun key' h => ?_⟩
      · rw [viewOf_setStreamingToolCall, if_pos rfl]
        rfl
      · rw [viewOf_setStreamingToolCall, if_neg h, viewOf_erase, if_neg h]
    | some name =>
      refine ⟨rfl, ?_, fun key' h => ?_⟩
      · exact (viewOf_completed itemId).trans (if_pos rfl)
      · exact (viewOf_completed itemId).trans (if_neg h)

lemma simulates_doneAlone {final : Json} (h : isToolCallItem final) :
    Simulates s key (doneAlone env final, s.viewOf key)
      (handleOpenaiOutputItem env final ([], s)) := by
  rw [handleOpenaiOutputItem_toolCall h, ← doneAlone_eq h]
  obtain ⟨hout, hstate⟩ := popFront_events (doneAlone env final, s)
  refine ⟨hout, ?_, fun key' _ => ?_⟩
  · rw [hstate]
  · rw [hstate]

lemma simulates_itemDone {final : Json} (h : isToolCallItem final) :
    Simulates s (streamingToolItemId final)
      (stepView env (streamingToolItemId final) (s.viewOf (streamingToolItemId final))
        (.itemDone final))
      (handleDoneItem env (some final) ([], s)) := by
  rw [handleDoneItem]
  cases streamingToolItemId final with
  | none => exact simulates_doneAlone h
  | some itemId =>
    by_cases hcompleted : itemId ∈ s.completedToolItems
    · have hfilter : (some itemId).filter (fun itemId =>
          itemId ∈ s.completedToolItems && isToolCallItem final) = some itemId := by
        simp [h, hcompleted]
      have hview : (s.viewOf (some itemId)).completed = true := decide_eq_true hcompleted
      dsimp only
      rw [hfilter, stepView, if_pos hview]
      refine ⟨rfl, ?_, fun key' hkey => ?_⟩
      · rw [viewOf_eraseCompleted, if_pos rfl]
      · rw [viewOf_eraseCompleted, if_neg hkey]
    · have hfilter : (some itemId).filter (fun itemId =>
          itemId ∈ s.completedToolItems && isToolCallItem final) = none := by
        simp [hcompleted]
      have hview : ¬ (s.viewOf (some itemId)).completed = true := by
        simpa [SseState.viewOf] using hcompleted
      dsimp only
      rw [hfilter, stepView, if_neg hview]
      exact simulates_doneAlone h

/-- The handling of an event follows what is kept of its item. -/
lemma simulates_handleKind {e : ResponseSseEvent} (h : callEvent e = some (key, event))
    (hcall : event.onToolCall) :
    Simulates s key (stepView env key (s.viewOf key) event) (handleKind env e ([], s)) := by
  rw [callEvent] at h
  split at h
  · rename_i hkind
    obtain ⟨item, hitem, heq⟩ := Option.map_eq_some_iff.mp h
    cases heq
    rw [handleKind, hkind, hitem]
    exact simulates_added hcall
  · rename_i hkind
    cases h
    rw [handleKind, hkind]
    exact simulates_delta
  · rename_i hkind
    cases h
    rw [handleKind, hkind]
    exact simulates_argumentsDone
  · rename_i hkind
    obtain ⟨item, hitem, heq⟩ := Option.map_eq_some_iff.mp h
    cases heq
    rw [handleKind, hkind, hitem]
    exact simulates_itemDone hcall
  · cases h

lemma simulates_handleData (h : callEventOf env data = some (key, event))
    (hcall : event.onToolCall) :
    Simulates s key (stepTextView env key (s.viewOf key) data)
      (parseOpenaiResponseEvent env data ([], s)) := by
  rw [callEventOf] at h
  split_ifs at h with hdone
  obtain ⟨e, hparse, he⟩ := Option.bind_eq_some_iff.mp h
  rw [parseOpenaiResponseEvent, if_neg hdone, stepTextView, isDisconnectNotice]
  by_cases hfallback : isWebsocketFallbackNotice env data
  · rw [if_pos hfallback, if_pos hfallback]
    exact simulates_nothing rfl
  · rw [if_neg hfallback, if_neg hfallback]
    simp only [hfallback, Bool.not_false, Bool.true_and]
    by_cases hnotice : containsText (env.lowercase data) "stream disconnected before completion"
    · rw [if_pos hnotice, if_pos hnotice]
      exact ⟨rfl, rfl, fun _ _ => rfl⟩
    · rw [if_neg hnotice, if_neg hnotice, hparse, callEventOf, if_neg hdone, hparse]
      simp only [Option.bind_some, he]
      exact simulates_handleKind he hcall

/-! ### The events of one item alone -/

namespace CallItem

variable {item : CallItem env}

lemma onToolCall (h : event ∈ item.events) : event.onToolCall := by
  rcases List.mem_append.mp h with h | h
  · rcases List.mem_append.mp h with h | h
    · exact (item.before_telling event h).1
    · have hdone := item.argumentsDone_telling event (Option.mem_toList.mp h)
      cases event with
      | argumentsDone => rfl
      | _ => cases hdone
  · rw [List.mem_singleton.mp h]
    exact item.isToolCall

lemma callId_eq_of_mem (h : event ∈ item.events) {id : String} (hid : event.callId = some id) :
    item.final.getStr "call_id" = some id := by
  rcases List.mem_append.mp h with h | h
  · exact item.callId_eq event h id hid
  · rw [List.mem_singleton.mp h] at hid
    cases hid

lemma name_eq_of_mem (h : event ∈ item.events) {name : String} (hname : event.name = some name) :
    item.final.getStr "name" = some name := by
  rcases List.mem_append.mp h with h | h
  · exact item.name_eq event h name hname
  · rw [List.mem_singleton.mp h] at hname
    cases hname

end CallItem

lemma callEventOf_of_mem {item : CallItem env}
    (h : texts.map (callEventOf env) = item.events.map fun event => some (item.key, event))
    (hdata : data ∈ texts) :
    ∃ event ∈ item.events, callEventOf env data = some (item.key, event) := by
  have hmem : callEventOf env data ∈ item.events.map fun event => some (item.key, event) :=
    h ▸ List.mem_map_of_mem hdata
  obtain ⟨event, hevent, heq⟩ := List.mem_map.mp hmem
  exact ⟨event, hevent, heq.symm⟩

variable [DecidableEq ι] {items : ι → CallItem env} {stream : List (ι × String)} {i : ι}

/-- The events of other items change nothing. -/
lemma partOf_emitted (h : Interleaved env items stream) (hi : partOf i stream ≠ []) :
    partOf i (runParts (handleData env) .new stream).1 =
      (runEvents (stepTextView env (items i).key) .new (partOf i stream)).1 := by
  have hnew : SseState.new.viewOf (items i).key = .new := by
    cases (items i).key with
    | none => rfl
    | some itemId => simp [SseState.viewOf, SseState.streamingToolCall, SseState.new, CallView.new]
  rw [← hnew]
  apply partOf_runParts fun s : SseState => s.viewOf (items i).key
  · intro data hdata s
    obtain ⟨event, hevent, hof⟩ := callEventOf_of_mem (h.events_eq i hi) (mem_partOf.mpr hdata)
    have hsim := simulates_handleData (s := s) hof (CallItem.onToolCall hevent)
    exact ⟨hsim.emitted, hsim.own⟩
  · intro j data hdata hj s
    have hmem := mem_partOf.mpr hdata
    have hne : partOf j stream ≠ [] := List.ne_nil_of_mem hmem
    obtain ⟨event, hevent, hof⟩ := callEventOf_of_mem (h.events_eq j hne) hmem
    have hsim := simulates_handleData (s := s) hof (CallItem.onToolCall hevent)
    cases hkey : (items i).key with
    | none => rfl
    | some itemId =>
      rw [← hkey]
      refine hsim.other _ fun heq => hj ?_
      exact (h.keys_ne i j hi hne (by simp [hkey]) heq).symm

lemma heard_cons_of_notice (h : isWebsocketFallbackNotice env data) :
    heard env (data :: texts) = heard env texts := by
  simp [heard, h]

lemma heard_cons (h : ¬ isWebsocketFallbackNotice env data) :
    heard env (data :: texts) = ((callEventOf env data).map (·.2)).toList ++ heard env texts := by
  simp only [heard, List.filter_cons, h, Bool.not_false, if_true]
  cases hof : callEventOf env data with
  | none => simp [hof]
  | some event => simp [hof]

/-- Notices that are dropped emit nothing. -/
lemma emitted_heard (h : ∀ data ∈ texts, isDisconnectNotice env data = false) :
    (runEvents (stepTextView env key) v texts).1.filter (!·.isEmpty) =
      (runEvents (stepView env key) v (heard env texts)).1.filter (!·.isEmpty) := by
  induction texts generalizing v with
  | nil => rfl
  | cons data texts ih =>
    obtain ⟨hdata, htexts⟩ := List.forall_mem_cons.mp h
    rw [runEvents, stepTextView]
    by_cases hfallback : isWebsocketFallbackNotice env data
    · rw [if_pos hfallback, heard_cons_of_notice hfallback]
      exact ih htexts
    · rw [if_neg hfallback, hdata, if_neg Bool.false_ne_true, heard_cons hfallback]
      cases callEventOf env data with
      | none => exact ih htexts
      | some event =>
        rw [Option.map_some, Option.toList_some, List.singleton_append, runEvents, List.filter_cons,
          List.filter_cons, ih htexts]

lemma heard_sublist {item : CallItem env}
    (h : texts.map (callEventOf env) = item.events.map fun event => some (item.key, event)) :
    (heard env texts).Sublist item.events := by
  have hall : texts.filterMap (fun data => (callEventOf env data).map (·.2)) = item.events := by
    calc texts.filterMap (fun data => (callEventOf env data).map (·.2))
        = (texts.map (callEventOf env)).filterMap (Option.map (·.2)) := by
          rw [List.filterMap_map]
          rfl
      _ = item.events := by
          rw [h, List.filterMap_map]
          exact List.filterMap_some
  rw [← hall]
  exact List.filter_sublist.filterMap _

lemma isTold_iff {value : Option String} : isTold value ↔ ∃ x, value = some x ∧ x ≠ "" := by
  cases value with
  | none => simp [isTold]
  | some x => simp [isTold]

/-- The last value that is told, where all are one. -/
lemma filter_foldl_told {told : CallEvent → Option String} {value : Option String}
    (h : ∀ event ∈ events, ∀ x, told event = some x → value = some x) :
    (events.foldl (fun kept event => (told event).or kept) none).filter (!·.isEmpty) =
      if events.any (isTold <| told ·) then value else none := by
  induction events using List.reverseRecOn with
  | nil => rfl
  | append_singleton events event ih =>
    have ih := ih fun event' hmem => h event' (List.mem_append_left _ hmem)
    rw [List.foldl_append, List.foldl_cons, List.foldl_nil, List.any_append]
    cases htold : told event with
    | none => simpa [htold, isTold] using ih
    | some x =>
      have hvalue := h event (by simp) x htold
      by_cases hx : x = ""
      · have hnone : ∀ event' ∈ events, isTold (told event') = false := by
          intro event' hmem
          cases htold' : told event' with
          | none => rfl
          | some y =>
            have hy := h event' (List.mem_append_left _ hmem) y htold'
            have : y = "" := by rw [← hx]; exact Option.some.inj (hy.symm.trans hvalue)
            simp [isTold, this]
        have hany : events.any (isTold <| told ·) = false :=
          List.any_eq_false.mpr fun event' hmem => by simp [hnone event' hmem]
        rw [hany]
        simp [isTold, htold, hx]
      · simp [htold, isTold, hx, hvalue]

lemma tellAll_callId (call : StreamingToolCallState) : (call.tellAll env events).callId =
    events.foldl (fun kept event => event.callId.or kept) call.callId := by
  induction events generalizing call with
  | nil => rfl
  | cons event events ih => exact ih _

lemma tellAll_name (call : StreamingToolCallState) : (call.tellAll env events).name =
    events.foldl (fun kept event => event.name.or kept) call.name := by
  induction events generalizing call with
  | nil => rfl
  | cons event events ih => exact ih _

lemma tellAll_arguments :
    (StreamingToolCallState.default.tellAll env events).arguments = toldArguments env events := by
  induction events using List.reverseRecOn with
  | nil => rfl
  | append_singleton events event ih =>
    rw [toldArguments, StreamingToolCallState.tellAll, List.foldl_append, List.foldl_append,
      ← toldArguments, ← ih]
    cases event <;> rfl

/-- As long as the arguments are not done they are kept. -/
lemma runEvents_telling (env : SseEnv) (v : CallView) (itemId : String)
    (h : ∀ event ∈ events, event.isArgumentsDone = false ∧ event.isItemDone = false) :
    (runEvents (stepView env (some itemId)) v events).1.filter (!·.isEmpty) = [] ∧
      (runEvents (stepView env (some itemId)) v events).2 =
        { v with call := v.call.tellAll env events } := by
  induction events generalizing v with
  | nil => exact ⟨rfl, rfl⟩
  | cons event events ih =>
    obtain ⟨⟨hdone, hitem⟩, hevents⟩ := List.forall_mem_cons.mp h
    have hstep : stepView env (some itemId) v event =
        ([], { v with call := v.call.tell env event }) := by
      cases event with
      | argumentsDone => cases hdone
      | itemDone => cases hitem
      | _ => rfl
    rw [runEvents, hstep]
    exact ih _ hevents

/-- Without an id of the item only the finished item counts. -/
lemma runEvents_none (h : ∀ event ∈ events, event.isItemDone = false) :
    (runEvents (stepView env none) v events).1.filter (!·.isEmpty) = [] ∧
      (runEvents (stepView env none) v events).2 = v := by
  induction events with
  | nil => exact ⟨rfl, rfl⟩
  | cons event events ih =>
    obtain ⟨hitem, hevents⟩ := List.forall_mem_cons.mp h
    have hstep : stepView env none v event = ([], v) := by
      cases event with
      | itemDone => cases hitem
      | _ => rfl
    rw [runEvents, hstep]
    exact ih hevents

lemma stepView_argumentsDone {itemId : String} (h : event.isArgumentsDone) :
    stepView env (some itemId) v event =
      match (v.call.tell env event).name.filter (!·.isEmpty) with
      | some name => (earlyCall itemId name (v.call.tell env event), ⟨.default, true⟩)
      | none => ([], { v with call := v.call.tell env event }) := by
  cases event with
  | argumentsDone => rfl
  | _ => cases h

lemma runEvents_last {final : Json} {last : List CallEvent} (hcall : isToolCallItem final)
    (hlast : last.Sublist [.itemDone final]) (hv : key = none ∨ v.completed = false) :
    (runEvents (stepView env key) v last).1.filter (!·.isEmpty) =
      if last.any (·.isItemDone) then [doneAlone env final] else [] := by
  rcases List.sublist_singleton.mp hlast with rfl | rfl
  · rfl
  · have hstep : (stepView env key v (.itemDone final)).1 = doneAlone env final := by
      cases key with
      | none => rfl
      | some itemId =>
        rw [stepView, hv.resolve_left (by simp)]
        rfl
    have hne : doneAlone env final ≠ [] := by simp [doneAlone_eq hcall, toolCallEvents]
    rw [runEvents, hstep]
    simp [runEvents, CallEvent.isItemDone, hne]

/-- What is heard of an item, in the order of its events. -/
structure Heard (item : CallItem env) (events before done last : List CallEvent) : Prop where
  eq : events = before ++ done ++ last
  before_sublist : before.Sublist item.before
  done_sublist : done.Sublist item.argumentsDone.toList
  last_sublist : last.Sublist [.itemDone item.final]

namespace Heard

variable {item : CallItem env} {before done last : List CallEvent}

lemma exists_of_sublist (h : events.Sublist item.events) :
    ∃ before done last, Heard item events before done last := by
  obtain ⟨told, last, rfl, htold, hlast⟩ := List.sublist_append_iff.mp h
  obtain ⟨before, done, rfl, hbefore, hdone⟩ := List.sublist_append_iff.mp htold
  exact ⟨before, done, last, rfl, hbefore, hdone, hlast⟩

variable (h : Heard item events before done last)
include h

lemma telling (hevent : event ∈ before) :
    event.isArgumentsDone = false ∧ event.isItemDone = false :=
  (item.before_telling event (h.before_sublist.mem hevent)).2

lemma done_cases : done = [] ∨ ∃ event, done = [event] ∧ event.isArgumentsDone := by
  have hsub := h.done_sublist
  cases hitem : item.argumentsDone with
  | none => exact .inl (List.sublist_nil.mp (by simpa [hitem] using hsub))
  | some event =>
    rcases List.sublist_singleton.mp (by simpa [hitem] using hsub) with hnil | hone
    · exact .inl hnil
    · exact .inr ⟨event, hone, item.argumentsDone_telling event hitem⟩

/-- The finished item tells nothing new. -/
lemma tellAll_eq : StreamingToolCallState.default.tellAll env events =
    StreamingToolCallState.default.tellAll env (before ++ done) := by
  rw [h.eq, StreamingToolCallState.tellAll, List.foldl_append]
  rcases List.sublist_singleton.mp h.last_sublist with rfl | rfl
  · rfl
  · rfl

lemma emitted_early {itemId name : String} (hdone : done = [event])
    (hevent : event.isArgumentsDone)
    (hname : (StreamingToolCallState.default.tellAll env events).name.filter (!·.isEmpty) =
      some name) :
    (runEvents (stepView env (some itemId)) .new events).1.filter (!·.isEmpty) =
      [earlyCall itemId name (StreamingToolCallState.default.tellAll env events)] := by
  obtain ⟨hout, hview⟩ := runEvents_telling env .new itemId fun _ hmem => h.telling hmem
  have htell : (CallView.new.call.tellAll env before).tell env event =
      StreamingToolCallState.default.tellAll env events := by
    rw [h.tellAll_eq, hdone, StreamingToolCallState.tellAll, StreamingToolCallState.tellAll,
      List.foldl_append]
    rfl
  generalize StreamingToolCallState.default.tellAll env events = call at htell hname ⊢
  rw [h.eq, hdone, runEvents_append, runEvents_append, hview, List.filter_append,
    List.filter_append, hout, runEvents, stepView_argumentsDone hevent]
  dsimp only
  rw [htell, hname]
  rcases List.sublist_singleton.mp h.last_sublist with hlast | hlast
  · rw [hlast]
    rfl
  · rw [hlast]
    rfl

/-- In front of the finished item nothing is emitted, and the item is not completed. -/
lemma quiet_of_late (hlate : key = none ∨ done = [] ∨
      (StreamingToolCallState.default.tellAll env events).name.filter (!·.isEmpty) = none) :
    (runEvents (stepView env key) .new (before ++ done)).1.filter (!·.isEmpty) = [] ∧
      (key = none ∨ (runEvents (stepView env key) .new (before ++ done)).2.completed = false) := by
  cases key with
  | none =>
    have hitem : ∀ event ∈ before ++ done, event.isItemDone = false := by
      intro event hmem
      rcases List.mem_append.mp hmem with hmem | hmem
      · exact (h.telling hmem).2
      · rcases h.done_cases with rfl | ⟨d, rfl, hd⟩
        · cases hmem
        · rw [List.mem_singleton.mp hmem]
          cases d with
          | argumentsDone => rfl
          | _ => cases hd
    exact ⟨(runEvents_none hitem).1, .inl rfl⟩
  | some itemId =>
    obtain ⟨hout, hview⟩ := runEvents_telling env .new itemId fun _ hmem => h.telling hmem
    rcases h.done_cases with rfl | ⟨d, rfl, hd⟩
    · rw [List.append_nil]
      exact ⟨hout, .inr (by rw [hview]; rfl)⟩
    · have htell : (CallView.new.call.tellAll env before).tell env d =
          StreamingToolCallState.default.tellAll env events := by
        rw [h.tellAll_eq, StreamingToolCallState.tellAll, StreamingToolCallState.tellAll,
          List.foldl_append]
        rfl
      have hname := (hlate.resolve_left (by simp)).resolve_left (by simp)
      rw [runEvents_append, hview, List.filter_append, hout, runEvents, stepView_argumentsDone hd]
      dsimp only
      rw [htell, hname]
      exact ⟨rfl, .inr rfl⟩

lemma emitted_late (hlate : key = none ∨ done = [] ∨
      (StreamingToolCallState.default.tellAll env events).name.filter (!·.isEmpty) = none) :
    (runEvents (stepView env key) .new events).1.filter (!·.isEmpty) =
      if last.any (·.isItemDone) then [doneAlone env item.final] else [] := by
  obtain ⟨hout, hview⟩ := h.quiet_of_late hlate
  rw [h.eq, runEvents_append, List.filter_append, hout,
    runEvents_last item.isToolCall h.last_sublist hview]
  rfl

end Heard

/-! ### Both ways -/

namespace Heard

variable {item : CallItem env} {before done last : List CallEvent}
  (h : Heard item events before done last)
include h

lemma mem_events (hmem : event ∈ events) : event ∈ item.events := by
  rw [h.eq] at hmem
  refine List.Sublist.mem hmem ?_
  exact (h.before_sublist.append h.done_sublist).append h.last_sublist

lemma filter_name : (StreamingToolCallState.default.tellAll env events).name.filter (!·.isEmpty) =
    if events.any (isTold ·.name) then item.final.getStr "name" else none := by
  rw [tellAll_name]
  exact filter_foldl_told fun event hmem name =>
    CallItem.name_eq_of_mem (h.mem_events hmem)

lemma filter_callId :
    (StreamingToolCallState.default.tellAll env events).callId.filter (!·.isEmpty) =
      if events.any (isTold ·.callId) then item.final.getStr "call_id" else none := by
  rw [tellAll_callId]
  exact filter_foldl_told fun event hmem id =>
    CallItem.callId_eq_of_mem (h.mem_events hmem)

lemma any_isArgumentsDone : events.any (·.isArgumentsDone) = !done.isEmpty := by
  have hbefore : before.any (·.isArgumentsDone) = false :=
    List.any_eq_false.mpr fun event hmem => by simp [(h.telling hmem).1]
  have hlast : last.any (·.isArgumentsDone) = false := by
    rcases List.sublist_singleton.mp h.last_sublist with rfl | rfl <;> rfl
  rw [h.eq, List.any_append, List.any_append, hbefore, hlast]
  rcases h.done_cases with rfl | ⟨d, rfl, hd⟩
  · rfl
  · simp [hd]

lemma any_isItemDone : events.any (·.isItemDone) = last.any (·.isItemDone) := by
  have hbefore : before.any (·.isItemDone) = false :=
    List.any_eq_false.mpr fun event hmem => by simp [(h.telling hmem).2]
  have hdone : done.any (·.isItemDone) = false := by
    rcases h.done_cases with rfl | ⟨d, rfl, hd⟩
    · rfl
    · cases d with
      | argumentsDone => rfl
      | _ => cases hd
  rw [h.eq, List.any_append, List.any_append, hbefore, hdone]
  rfl

lemma exists_name (hname : events.any (isTold ·.name)) :
    ∃ name, item.final.getStr "name" = some name ∧
      (StreamingToolCallState.default.tellAll env events).name.filter (!·.isEmpty) = some name := by
  rw [h.filter_name, if_pos hname]
  obtain ⟨event, hmem, htold⟩ := List.any_eq_true.mp hname
  obtain ⟨name, heq, -⟩ := isTold_iff.mp htold
  have hfinal := CallItem.name_eq_of_mem (h.mem_events hmem) heq
  exact ⟨name, hfinal, hfinal⟩

lemma earlyCall_eq_iff {itemId name : String} (hkey : item.key = some itemId)
    (hname : item.final.getStr "name" = some name) :
    earlyCall itemId name (StreamingToolCallState.default.tellAll env events) =
      doneAlone env item.final ↔ AgreesWithDone env item.final events := by
  have hid : ((StreamingToolCallState.default.tellAll env events).callId.filter
        (!·.isEmpty)).getD itemId =
      if events.any (isTold ·.callId) then (item.final.getStr "call_id").getD ""
        else (streamingToolItemId item.final).getD "" := by
    rw [h.filter_callId]
    split_ifs with htold
    · obtain ⟨event, hmem, htold⟩ := List.any_eq_true.mp htold
      obtain ⟨id, heq, -⟩ := isTold_iff.mp htold
      rw [CallItem.callId_eq_of_mem (h.mem_events hmem) heq]
      rfl
    · rw [← CallItem.key, hkey]
      rfl
  rw [earlyCall, doneAlone_eq item.isToolCall, hid, hname, tellAll_arguments, AgreesWithDone]
  simp [toolCallEvents]

/-- What is heard of an item emits the call of the finished item, and nothing else. -/
lemma emitted_eq_iff :
    (runEvents (stepView env item.key) .new events).1.filter (!·.isEmpty) =
        [doneAlone env item.final] ↔
      if emitsEarly item.key events then AgreesWithDone env item.final events
      else events.any (·.isItemDone) := by
  split_ifs with hearly
  · rw [emitsEarly, Bool.and_eq_true, Bool.and_eq_true, h.any_isArgumentsDone] at hearly
    obtain ⟨⟨hkey, hdone⟩, hname⟩ := hearly
    obtain ⟨itemId, hkey⟩ := Option.isSome_iff_exists.mp hkey
    obtain ⟨name, hfinal, hname⟩ := h.exists_name hname
    rcases h.done_cases with hnil | ⟨d, hd, hdone'⟩
    · simp [hnil] at hdone
    · rw [hkey, h.emitted_early hd hdone' hname, List.singleton_inj, h.earlyCall_eq_iff hkey hfinal]
  · have hlate : item.key = none ∨ done = [] ∨
        (StreamingToolCallState.default.tellAll env events).name.filter (!·.isEmpty) = none := by
      rw [h.filter_name]
      rw [emitsEarly, h.any_isArgumentsDone] at hearly
      by_cases hname : events.any (isTold ·.name)
      · cases hkey : item.key with
        | none => exact .inl rfl
        | some itemId => exact .inr (.inl (by simpa [hkey, hname] using hearly))
      · exact .inr (.inr (if_neg hname))
    rw [h.emitted_late hlate, h.any_isItemDone]
    split_ifs with hlast
    · simpa using hlast
    · simpa using hlast

end Heard

lemma error_mem_emitted (hdata : data ∈ texts) (h : isDisconnectNotice env data) :
    [.error data none] ∈ (runEvents (stepTextView env key) v texts).1 := by
  induction texts generalizing v with
  | nil => cases hdata
  | cons other texts ih =>
    rw [runEvents]
    rcases List.mem_cons.mp hdata with rfl | hdata
    · have hfallback : isWebsocketFallbackNotice env data = false := by
        rw [isDisconnectNotice, Bool.and_eq_true] at h
        simpa using h.1
      rw [stepTextView, hfallback, h]
      exact List.mem_cons_self
    · exact List.mem_cons_of_mem _ (ih hdata)

/-- The events of an item emit its call once if and only if both ways to the call agree. -/
lemma emitted_texts_iff {item : CallItem env}
    (h : texts.map (callEventOf env) = item.events.map fun event => some (item.key, event)) :
    (runEvents (stepTextView env item.key) .new texts).1.filter (!·.isEmpty) =
      [doneAlone env item.final] ↔ WaysAgree env item.final texts := by
  by_cases hnotice : ∀ data ∈ texts, isDisconnectNotice env data = false
  · obtain ⟨before, done, last, hheard⟩ := Heard.exists_of_sublist (heard_sublist h)
    rw [emitted_heard hnotice, hheard.emitted_eq_iff, WaysAgree, and_iff_right hnotice]
    rfl
  · constructor
    · intro heq
      simp only [not_forall, Bool.not_eq_false] at hnotice
      obtain ⟨data, hdata, hdisconnect⟩ := hnotice
      have hmem : [.error data none] ∈ (runEvents (stepTextView env item.key) .new texts).1 :=
        error_mem_emitted hdata hdisconnect
      have hfilter : [.error data none] ∈
          (runEvents (stepTextView env item.key) .new texts).1.filter (!·.isEmpty) :=
        List.mem_filter.mpr ⟨hmem, rfl⟩
      rw [heq, List.mem_singleton, doneAlone_eq item.isToolCall] at hfilter
      cases hfilter
    · exact fun hagree => absurd hagree.1 hnotice

lemma emitted_part_iff (h : Interleaved env items stream) (hi : partOf i stream ≠ []) :
    (partOf i (runParts (handleData env) .new stream).1).filter (!·.isEmpty) =
      [doneAlone env (items i).final] ↔ WaysAgree env (items i).final (partOf i stream) := by
  rw [partOf_emitted h hi]
  exact emitted_texts_iff (h.events_eq i hi)

/-- In every interleaving of the events of calls each call is emitted once, as its finished item
alone emits it, if and only if both ways to each call agree. -/
theorem emittedAsDone_iff (h : Interleaved env items stream) :
    EmittedAsDone env items stream ↔
      ∀ i, partOf i stream ≠ [] → WaysAgree env (items i).final (partOf i stream) :=
  forall_congr' fun _ => forall_congr' fun hi => emitted_part_iff h hi

/-! ### Two calls -/

/-- A text and the event that it stands for. -/
abbrev EventText := String × ResponseSseEvent

def finishedItem (itemId callId : String) : Json :=
  .object [("type", .string "function_call"), ("id", .string itemId), ("call_id", .string callId),
    ("name", .string "ls"), ("arguments", .string "[]")]

def itemDoneText (itemId callId : String) : EventText :=
  ("\x7b\"type\":\"response.output_item.done\",\"item\":\x7b\"type\":\"function_call\",\"id\":\"" ++
      itemId ++ "\",\"call_id\":\"" ++ callId ++
      "\",\"name\":\"ls\",\"arguments\":\"[]\"\x7d\x7d",
    ⟨"response.output_item.done", some (finishedItem itemId callId), none, none, none, none, none,
      none, none⟩)

/-- The arguments are done before anything else is told. -/
def argumentsDoneText (itemId : String) (callId : Option String) : EventText :=
  ("\x7b\"type\":\"response.function_call_arguments.done\",\"item_id\":\"" ++ itemId ++
      callId.elim "" (fun callId => "\",\"call_id\":\"" ++ callId) ++
      "\",\"name\":\"ls\",\"arguments\":\"[]\"\x7d",
    ⟨"response.function_call_arguments.done", none, none, some itemId, callId, some "ls",
      some "[]", none, none⟩)

/-- The texts are in lower case. -/
def envOf (texts : List EventText) : SseEnv where
  lowercase := id
  parseEvent text := (texts.find? (·.1 = text)).map (·.2)
  compact _ := ""
  nextValue _ := none
  base64Length _ := none
  saveImage _ := .noDirectory
  fallbackId := toString

/-- A call whose arguments are done before its item is. -/
def earlyItem (env : SseEnv) (itemId callId : String) (told : Option String)
    (h : ∀ id, told = some id → id = callId) : CallItem env where
  final := finishedItem itemId callId
  before := []
  argumentsDone := some (.argumentsDone told (some "ls") (some "[]"))
  isToolCall := rfl
  before_telling := by simp
  argumentsDone_telling := by simp [CallEvent.isArgumentsDone]
  callId_eq := by
    intro event hmem id hid
    obtain rfl := List.mem_singleton.mp hmem
    obtain rfl := h id hid
    rfl
  name_eq := by
    intro event hmem name hname
    obtain rfl := List.mem_singleton.mp hmem
    obtain rfl := Option.some.inj hname
    rfl
  arguments_eq _ := rfl

/-- A call of which only the finished item comes. -/
def lateItem (env : SseEnv) (itemId callId : String) : CallItem env where
  final := finishedItem itemId callId
  before := []
  argumentsDone := none
  isToolCall := rfl
  before_telling := by simp
  argumentsDone_telling := by simp
  callId_eq := by simp
  name_eq := by simp
  arguments_eq := by simp

/-- A text that is read as its event. -/
structure ReadsAs (env : SseEnv) (text : EventText) : Prop where
  ne_done : text.1 ≠ "[DONE]"
  no_fallback : isWebsocketFallbackNotice env text.1 = false
  no_disconnect : isDisconnectNotice env text.1 = false
  parsed : env.parseEvent text.1 = some text.2

lemma ReadsAs.callEventOf_eq {text : EventText} (h : ReadsAs env text) :
    callEventOf env text.1 = callEvent text.2 := by
  rw [callEventOf, if_neg h.ne_done, h.parsed]
  rfl

lemma map_callEventOf {texts : List EventText} (h : ∀ text ∈ texts, ReadsAs env text) :
    (texts.map (·.1)).map (callEventOf env) = texts.map fun text => callEvent text.2 := by
  rw [List.map_map]
  exact List.map_congr_left fun text hmem => (h text hmem).callEventOf_eq

lemma heard_eq {texts : List EventText} (h : ∀ text ∈ texts, ReadsAs env text) :
    heard env (texts.map (·.1)) =
      texts.filterMap fun text => (callEvent text.2).map (·.2) := by
  induction texts with
  | nil => rfl
  | cons text texts ih =>
    obtain ⟨htext, htexts⟩ := List.forall_mem_cons.mp h
    rw [List.map_cons, heard_cons (by simp [htext.no_fallback]), htext.callEventOf_eq, ih htexts]
    cases hevent : callEvent text.2 with
    | none => simp [hevent]
    | some event => simp [hevent]

lemma parseEvent_envOf {texts : List EventText} (hnodup : (texts.map (·.1)).Nodup)
    {text : EventText} (hmem : text ∈ texts) :
    (envOf texts).parseEvent text.1 = some text.2 := by
  have hfind : texts.find? (·.1 = text.1) = some text := by
    cases heq : texts.find? (·.1 = text.1) with
    | none => simpa using List.find?_eq_none.mp heq text hmem
    | some other =>
      have hother : other.1 = text.1 := by simpa using List.find?_some heq
      exact congrArg some
        (List.inj_on_of_nodup_map hnodup (List.mem_of_find?_eq_some heq) hmem hother)
  exact congrArg (Option.map (·.2)) hfind

def sampleTexts : List EventText :=
  [argumentsDoneText "a" (some "x"), argumentsDoneText "a" none, itemDoneText "b" "y",
    itemDoneText "a" "x"]

lemma itemDoneText_fst (itemId callId : String) : (itemDoneText itemId callId).1 =
  "\x7b\"type\":\"response.output_item.done\",\"item\":\x7b\"type\":\"function_call\",\"id\":\"" ++
    itemId ++ "\",\"call_id\":\"" ++ callId ++
    "\",\"name\":\"ls\",\"arguments\":\"[]\"\x7d\x7d" := rfl

lemma argumentsDoneText_fst (itemId : String) (callId : Option String) :
    (argumentsDoneText itemId callId).1 =
      "\x7b\"type\":\"response.function_call_arguments.done\",\"item_id\":\"" ++ itemId ++
        callId.elim "" (fun callId => "\",\"call_id\":\"" ++ callId) ++
        "\",\"name\":\"ls\",\"arguments\":\"[]\"\x7d" := rfl

lemma space_notMem_itemDoneText {itemId callId : String} (hid : ' ' ∉ itemId.toList)
    (hcall : ' ' ∉ callId.toList) : ' ' ∉ (itemDoneText itemId callId).1.toList := by
  simp only [itemDoneText_fst, String.toList_append, List.mem_append, not_or]
  exact ⟨⟨⟨⟨notMem_toList_ofList (by decide), hid⟩, notMem_toList_ofList (by decide)⟩, hcall⟩,
    notMem_toList_ofList (by decide)⟩

lemma space_notMem_argumentsDoneText {itemId : String} {callId : Option String}
    (hid : ' ' ∉ itemId.toList) (hcall : ∀ id ∈ callId, ' ' ∉ id.toList) :
    ' ' ∉ (argumentsDoneText itemId callId).1.toList := by
  have htold :
      ' ' ∉ (callId.elim "" (fun callId => "\",\"call_id\":\"" ++ callId)).toList := by
    cases callId with
    | none => exact List.not_mem_nil
    | some id =>
      rw [Option.elim_some, String.toList_append, List.mem_append, not_or]
      exact ⟨notMem_toList_ofList (by decide), hcall id rfl⟩
  simp only [argumentsDoneText_fst, String.toList_append, List.mem_append, not_or]
  exact ⟨⟨⟨notMem_toList_ofList (by decide), hid⟩, htold⟩, notMem_toList_ofList (by decide)⟩

lemma head_itemDoneText {itemId callId : String} :
    (itemDoneText itemId callId).1.toList.head? = some '\x7b' := by
  simp only [itemDoneText_fst, String.toList_append, List.append_assoc]
  rw [String.toList_ofList]
  rfl

lemma head_argumentsDoneText {itemId : String} {callId : Option String} :
    (argumentsDoneText itemId callId).1.toList.head? = some '\x7b' := by
  simp only [argumentsDoneText_fst, String.toList_append, List.append_assoc]
  rw [String.toList_ofList]
  rfl

/-- The notices have spaces. -/
lemma readsAs_of_notMem {texts : List EventText} (hnodup : (texts.map (·.1)).Nodup)
    {text : EventText} (hmem : text ∈ texts) (hspace : ' ' ∉ text.1.toList)
    (hhead : text.1.toList.head? = some '\x7b') : ReadsAs (envOf texts) text := by
  have hnotice : ∀ notice : String, ' ' ∈ notice.toList →
      containsText ((envOf texts).lowercase text.1) notice = false :=
    fun notice hnotice => containsText_eq_false hnotice hspace
  refine ⟨?_, hnotice _ (by decide), ?_, parseEvent_envOf hnodup hmem⟩
  · intro hdone
    rw [hdone] at hhead
    simp at hhead
  · rw [isDisconnectNotice, hnotice _ (by decide), Bool.and_false]

lemma reads_sampleTexts : ∀ text ∈ sampleTexts, ReadsAs (envOf sampleTexts) text := by
  have hnodup : (sampleTexts.map (·.1)).Nodup := by decide +kernel
  intro text hmem
  apply readsAs_of_notMem hnodup hmem
  · simp only [sampleTexts, List.mem_cons, List.not_mem_nil, or_false] at hmem
    rcases hmem with rfl | rfl | rfl | rfl
    · exact space_notMem_argumentsDoneText (by simp) (by simp)
    · exact space_notMem_argumentsDoneText (by simp) (by simp)
    · exact space_notMem_itemDoneText (by simp) (by simp)
    · exact space_notMem_itemDoneText (by simp) (by simp)
  · simp only [sampleTexts, List.mem_cons, List.not_mem_nil, or_false] at hmem
    rcases hmem with rfl | rfl | rfl | rfl
    · exact head_argumentsDoneText
    · exact head_argumentsDoneText
    · exact head_itemDoneText
    · exact head_itemDoneText

lemma waysAgree_of_reads {final : Json} {texts : List EventText}
    (h : ∀ text ∈ texts, ReadsAs env text)
    (hagree : if emitsEarly (streamingToolItemId final)
          (texts.filterMap fun text => (callEvent text.2).map (·.2)) then
        AgreesWithDone env final (texts.filterMap fun text => (callEvent text.2).map (·.2))
      else (texts.filterMap fun text => (callEvent text.2).map (·.2)).any (·.isItemDone)) :
    WaysAgree env final (texts.map (·.1)) := by
  rw [WaysAgree, heard_eq h]
  refine ⟨?_, hagree⟩
  intro data hdata
  obtain ⟨text, hmem, rfl⟩ := List.mem_map.mp hdata
  exact (h text hmem).no_disconnect

/-- The events of two calls, one of them in the midst of those of the other. -/
def mixedStream : List (Bool × String) :=
  [(true, (argumentsDoneText "a" (some "x")).1), (false, (itemDoneText "b" "y").1),
    (true, (itemDoneText "a" "x").1)]

def mixedItems : Bool → CallItem (envOf sampleTexts)
  | true => earlyItem _ "a" "x" (some "x") (by simp)
  | false => lateItem _ "b" "y"

def mixedTexts : Bool → List EventText
  | true => [argumentsDoneText "a" (some "x"), itemDoneText "a" "x"]
  | false => [itemDoneText "b" "y"]

lemma partOf_mixedStream (i : Bool) : partOf i mixedStream = (mixedTexts i).map (·.1) := by
  cases i <;> rfl

lemma reads_mixedTexts (i : Bool) :
    ∀ text ∈ mixedTexts i, ReadsAs (envOf sampleTexts) text := by
  intro text hmem
  apply reads_sampleTexts
  cases i with
  | true => rcases List.mem_pair.mp hmem with rfl | rfl <;> simp [sampleTexts]
  | false => simp [List.mem_singleton.mp hmem, sampleTexts]

lemma mixedStream_interleaved : Interleaved (envOf sampleTexts) mixedItems mixedStream where
  events_eq i _ := by
    rw [partOf_mixedStream, map_callEventOf (reads_mixedTexts i)]
    cases i <;> rfl
  keys_ne i j _ _ _ hkey := by
    cases i <;> cases j <;> first | rfl | exact absurd hkey (by decide)

/-- Both calls are emitted once. -/
theorem emittedAsDone_mixed : EmittedAsDone (envOf sampleTexts) mixedItems mixedStream := by
  apply (emittedAsDone_iff mixedStream_interleaved).mpr
  intro i _
  rw [partOf_mixedStream]
  apply waysAgree_of_reads (reads_mixedTexts i)
  cases i with
  | true =>
    rw [if_pos (by decide +kernel)]
    exact ⟨by decide +kernel, by decide +kernel⟩
  | false =>
    rw [if_neg (by decide +kernel)]
    rfl

/-- The call id is told by nothing but the finished item. -/
def untoldItem : CallItem (envOf sampleTexts) := earlyItem _ "a" "x" none (by simp)

def untoldTexts : List EventText := [argumentsDoneText "a" none, itemDoneText "a" "x"]

def untoldStream : List (Unit × String) := untoldTexts.map fun text => ((), text.1)

lemma partOf_untoldStream : partOf () untoldStream = untoldTexts.map (·.1) := rfl

lemma reads_untoldTexts : ∀ text ∈ untoldTexts, ReadsAs (envOf sampleTexts) text := by
  intro text hmem
  apply reads_sampleTexts
  rcases List.mem_pair.mp hmem with rfl | rfl <;> simp [sampleTexts]

lemma untoldStream_interleaved :
    Interleaved (envOf sampleTexts) (fun _ => untoldItem) untoldStream where
  events_eq _ _ := by
    rw [partOf_untoldStream, map_callEventOf reads_untoldTexts]
    rfl
  keys_ne _ _ _ _ _ _ := rfl

/-- The call is emitted with the id of its item. -/
theorem not_emittedAsDone_untold :
    Interleaved (envOf sampleTexts) (fun _ => untoldItem) untoldStream ∧
      ¬ EmittedAsDone (envOf sampleTexts) (fun _ => untoldItem) untoldStream := by
  refine ⟨untoldStream_interleaved, fun h => ?_⟩
  have hne : partOf () untoldStream ≠ [] := by simp [partOf_untoldStream, untoldTexts]
  have hagree := (emitted_part_iff untoldStream_interleaved hne).mp (h () hne)
  rw [partOf_untoldStream, WaysAgree, heard_eq reads_untoldTexts, if_pos (by decide +kernel)]
    at hagree
  exact absurd hagree.2.1 (by decide +kernel)

end Jcode.OpenAi
