import Jcode.Provider.Retries
import Jcode.Provider.Sse

/-!
# The stream of the Anthropic provider

The chunk loop of `stream_response`. What `serde_json` reads from the data of an event is a
parameter; log messages, the accumulated input of a tool call and the timeout are left out.
-/

namespace Jcode.Anthropic

structure SseEvent where
  eventType : String
  data : String
deriving DecidableEq

structure UsageInfo where
  inputTokens : Option Nat
  outputTokens : Option Nat
  cacheReadInputTokens : Option Nat
  cacheCreationInputTokens : Option Nat
deriving DecidableEq

inductive ApiContentBlockStart
  | text
  | toolUse (id name : String)
deriving DecidableEq

inductive ApiDelta
  | textDelta (text : String)
  | inputJsonDelta (partialJson : String)
deriving DecidableEq

/-- The parsers of the data of an event, and the full lower-case mapping. -/
structure SseEnv where
  lowercase : String → String
  messageStart : String → Option (Option UsageInfo)
  contentBlockStart : String → Option ApiContentBlockStart
  contentBlockDelta : String → Option ApiDelta
  /-- The usage and the stop reason. -/
  messageDelta : String → Option (Option UsageInfo × Option String)
  isOauth : Bool

structure SseState where
  inToolUse : Bool
  tokens : TokenCounts
deriving DecidableEq

def SseState.new : SseState := ⟨false, none, none, none, none⟩

def mapToolNameFromOauth (name : String) : String :=
  match name with
  | "Bash" => "bash"
  | "Read" => "read"
  | "Write" => "write"
  | "Edit" => "edit"
  | "Glob" => "glob"
  | "Grep" => "grep"
  | "Agent" => "subagent"
  | "ScheduleWakeup" => "schedule"
  | "Skill" => "skill_manage"
  | _ => name

/-! ### Events of the body -/

/-- What a line says of the event: its type, or its data. -/
def readLine (event : SseEvent) (line : List Char) : SseEvent :=
  match "event: ".toList.isPrefixOf? line with
  | some rest => { event with eventType := String.ofList rest }
  | none =>
    match sseDataLine line with
    | some rest => { event with data := String.ofList rest }
    | none => event

/-- The event of a block; there is none without a type and data. -/
def sseEvent (block : List Char) : Option SseEvent :=
  let event := (lines block).foldl readLine ⟨"", ""⟩
  if event.eventType = "" ∧ event.data = "" then none else some event

/-- The block is taken from the buffer even if it has no event. -/
def parseSseEvent (buffer : List Char) : Option SseEvent × List Char :=
  match sseSeparator.cut buffer with
  | none => (none, buffer)
  | some (block, rest) => (sseEvent block, rest)

section

variable (env : SseEnv)

def processSseEvent (event : SseEvent) (s : SseState) : List StreamEvent × SseState :=
  match event.eventType with
  | "message_start" =>
    match env.messageStart event.data with
    | some (some usage) => ([], { s with tokens := { s.tokens with
        inputTokens := usage.inputTokens
        cacheReadInputTokens := usage.cacheReadInputTokens
        cacheCreationInputTokens := usage.cacheCreationInputTokens } })
    | _ => ([], s)
  | "content_block_start" =>
    match env.contentBlockStart event.data with
    | some (.toolUse id name) =>
      ([.toolUseStart id (if env.isOauth then mapToolNameFromOauth name else name)],
        { s with inToolUse := true })
    | _ => ([], s)
  | "content_block_delta" =>
    match env.contentBlockDelta event.data with
    | some (.textDelta text) => ([.textDelta text], s)
    | some (.inputJsonDelta partialJson) => ([.toolInputDelta partialJson], s)
    | none => ([], s)
  | "content_block_stop" =>
    (if s.inToolUse then [.toolUseEnd] else [], { s with inToolUse := false })
  | "message_delta" =>
    match env.messageDelta event.data with
    | some (usage, stopReason) =>
      ((stopReason.map fun stopReason => .messageEnd (some stopReason)).toList,
        usage.elim s fun usage =>
          { s with tokens := { s.tokens with outputTokens := usage.outputTokens } })
    | none => ([], s)
  | "error" => ([.error event.data none], s)
  | _ => ([], s)

/-! ### The chunk loop -/

/-- What is read from a buffer: the events that are sent, the error that ends the stream, and what
is left. -/
structure Drained where
  sent : List StreamEvent
  failure : Option String
  buffer : List Char
  state : SseState

/-- The events of the buffer, up to a block without one. -/
def drain (buffer : List Char) (s : SseState) : Drained :=
  match _h : sseSeparator.cut buffer with
  | none => ⟨[], none, buffer, s⟩
  | some (block, rest) =>
    match sseEvent block with
    | none => ⟨[], none, rest, s⟩
    | some event =>
      let processed := processSseEvent env event s
      match forwardEvents env.lowercase processed.1 with
      | (sent, some error) => ⟨sent, some error, rest, processed.2⟩
      | (sent, none) =>
        let later := drain rest processed.2
        { later with sent := sent ++ later.sent }
termination_by buffer.length
decreasing_by exact length_lt_of_splitFirst sseSeparator.ne_nil _h

def readChunks : List ByteArray → List Char → SseState → List StreamEvent × Option String
  | [], _, s => (finalUsage s.tokens, none)
  | chunk :: chunks, buffer, s =>
    let drained := drain env (buffer ++ Utf8.readLossy chunk) s
    match drained.failure with
    | some error => (drained.sent, some error)
    | none =>
      let later := readChunks chunks drained.buffer drained.state
      (drained.sent ++ later.1, later.2)

/-- The events of a body in chunks, and the error that ends them. -/
def streamChunks (chunks : List ByteArray) : List StreamEvent × Option String :=
  readChunks env chunks [] .new

/-! ### The events of the blocks in order -/

/-- What is sent for blocks, with the state behind them. -/
def readBlocks : List (List Char) → SseState → List StreamEvent × Except String SseState
  | [], s => ([], .ok s)
  | block :: blocks, s =>
    match sseEvent block with
    | none => readBlocks blocks s
    | some event =>
      let processed := processSseEvent env event s
      match forwardEvents env.lowercase processed.1 with
      | (sent, some error) => (sent, .error error)
      | (sent, none) =>
        let later := readBlocks blocks processed.2
        (sent ++ later.1, later.2)

/-- The token counts are sent behind the last block. -/
def endOfBody : List StreamEvent × Except String SseState → List StreamEvent × Option String
  | (sent, .error error) => (sent, some error)
  | (sent, .ok s) => (sent ++ finalUsage s.tokens, none)

/-- A whole body, block by block. -/
def streamBody (body : List Char) : List StreamEvent × Option String :=
  endOfBody (readBlocks env (sseSeparator.frames body).1 .new)

/-- The loop over a buffer stops behind such a block. -/
def isBlank (block : List Char) : Bool := (sseEvent block).isNone

/-- The blocks that the chunks have left in the buffer. -/
def unreadBlocks (chunks : List (List Char)) : List (List Char) :=
  unread isBlank [] (sseSeparator.completed [] chunks)

end

/-! ### The chunk loop reads the blocks in order -/

section

variable {env : SseEnv} {buffer block rest : List Char} {blocks : List (List Char)} {s : SseState}

lemma drain_of_cut_none (h : sseSeparator.cut buffer = none) :
    drain env buffer s = ⟨[], none, buffer, s⟩ := by
  rw [drain]
  split
  · rfl
  · rename_i heq
    cases h.symm.trans heq

lemma drain_of_cut_some (h : sseSeparator.cut buffer = some (block, rest)) :
    drain env buffer s =
      match sseEvent block with
      | none => ⟨[], none, rest, s⟩
      | some event =>
        let processed := processSseEvent env event s
        match forwardEvents env.lowercase processed.1 with
        | (sent, some error) => ⟨sent, some error, rest, processed.2⟩
        | (sent, none) =>
          let later := drain env rest processed.2
          { later with sent := sent ++ later.sent } := by
  rw [drain]
  split
  · rename_i heq
    cases h.symm.trans heq
  · rename_i heq
    cases h.symm.trans heq
    rfl

/-- What the loop over a buffer has done to its blocks, with more of them behind. -/
structure DrainedFrom (env : SseEnv) (buffer : List Char) (s : SseState) (d : Drained) : Prop where
  failed : ∀ error, d.failure = some error → ∀ more,
    readBlocks env ((sseSeparator.frames buffer).1 ++ more) s = (d.sent, .error error)
  frames : d.failure = none → sseSeparator.frames d.buffer =
    ((((sseSeparator.frames buffer).1.dropWhile fun block => !isBlank block).drop 1),
      (sseSeparator.frames buffer).2)
  read : d.failure = none → ∀ more,
    readBlocks env ((sseSeparator.frames buffer).1 ++ more) s =
      (d.sent ++ (readBlocks env ((sseSeparator.frames d.buffer).1 ++ more) d.state).1,
        (readBlocks env ((sseSeparator.frames d.buffer).1 ++ more) d.state).2)

lemma drain_spec (env : SseEnv) (buffer : List Char) (s : SseState) :
    DrainedFrom env buffer s (drain env buffer s) := by
  induction buffer using Separator.frames_induction sseSeparator generalizing s with
  | rest buffer h =>
    rw [drain_of_cut_none h]
    refine ⟨fun _ herror => (nomatch herror), fun _ => ?_, fun _ _ => rfl⟩
    rw [Separator.frames_of_none h]
    rfl
  | frame buffer block rest h ih =>
    rw [drain_of_cut_some h]
    cases hevent : sseEvent block with
    | none =>
      refine ⟨fun _ herror => (nomatch herror), fun _ => ?_, fun _ more => ?_⟩
      · simp [Separator.frames_of_some h, isBlank, hevent]
      · rw [Separator.frames_of_some h, List.cons_append, readBlocks, hevent]
        rfl
    | some event =>
      have hkeeps : isBlank block = false := by rw [isBlank, hevent]; rfl
      have hall (more : List (List Char)) :
          readBlocks env ((sseSeparator.frames buffer).1 ++ more) s =
            readBlocks env (block :: ((sseSeparator.frames rest).1 ++ more)) s := by
        rw [Separator.frames_of_some h, List.cons_append]
      rcases hforward : forwardEvents env.lowercase (processSseEvent env event s).1 with
        ⟨sent, _ | error⟩
      · have ih := ih (processSseEvent env event s).2
        simp only [hforward]
        refine ⟨fun error herror more => ?_, fun hnone => ?_, fun hnone more => ?_⟩
        · rw [hall, readBlocks, hevent]
          simp only [hforward, ih.failed error herror more]
        · rw [ih.frames hnone, Separator.frames_of_some h]
          simp [hkeeps]
        · rw [hall, readBlocks, hevent]
          simp only [hforward, ih.read hnone more, List.append_assoc]
      · simp only [hforward]
        refine ⟨fun error' herror more => ?_, fun hnone => (nomatch hnone),
          fun hnone => (nomatch hnone)⟩
        cases herror
        rw [hall, readBlocks, hevent]
        simp only [hforward]

lemma readBlocks_of_isBlank (h : ∀ block ∈ blocks, isBlank block) :
    readBlocks env blocks s = ([], .ok s) := by
  induction blocks with
  | nil => rfl
  | cons block blocks ih =>
    rw [readBlocks, Option.isNone_iff_eq_none.mp (h block List.mem_cons_self)]
    exact ih fun b hb => h b (List.mem_cons_of_mem block hb)

lemma readChunks_eq (env : SseEnv) (chunks : List ByteArray) (buffer : List Char) (s : SseState)
    (hread : ∀ block ∈ unread isBlank (sseSeparator.frames buffer).1
      (sseSeparator.completed (sseSeparator.frames buffer).2 (chunks.map Utf8.readLossy)),
      isBlank block) :
    readChunks env chunks buffer s =
      endOfBody (readBlocks env ((sseSeparator.frames buffer).1 ++
        (sseSeparator.completed (sseSeparator.frames buffer).2
          (chunks.map Utf8.readLossy)).flatten) s) := by
  induction chunks generalizing buffer s with
  | nil =>
    rw [List.map_nil, Separator.completed, unread] at hread
    rw [List.map_nil, Separator.completed, List.flatten_nil, List.append_nil,
      readBlocks_of_isBlank hread]
    rfl
  | cons chunk chunks ih =>
    have hspec := drain_spec env (buffer ++ Utf8.readLossy chunk) s
    have hframes := @Separator.frames_append _ _ sseSeparator buffer (Utf8.readLossy chunk)
    rw [List.map_cons, Separator.completed, unread] at hread
    rw [List.map_cons, Separator.completed, List.flatten_cons, ← List.append_assoc, readChunks]
    have hblocks := congrArg Prod.fst hframes
    have hrest := congrArg Prod.snd hframes
    dsimp only at hblocks hrest
    rw [← hblocks, ← hrest]
    rw [← hblocks, ← hrest] at hread
    cases hfailure : (drain env (buffer ++ Utf8.readLossy chunk) s).failure with
    | some error =>
      rw [hspec.failed error hfailure]
      rfl
    | none =>
      have hleft := hspec.frames hfailure
      have hlater := ih (drain env (buffer ++ Utf8.readLossy chunk) s).buffer
        (drain env (buffer ++ Utf8.readLossy chunk) s).state
      rw [hleft] at hlater
      rw [hspec.read hfailure, hleft]
      dsimp only
      rw [hlater hread]
      dsimp only
      generalize readBlocks env _ _ = result
      obtain ⟨sent, error | s'⟩ := result
      · rfl
      · simp [endOfBody]

/-- If all that is left has no events, the loop has read the whole body. -/
theorem streamChunks_eq {chunks : List ByteArray}
    (hread : ∀ block ∈ unreadBlocks (chunks.map Utf8.readLossy), isBlank block) :
    streamChunks env chunks = streamBody env (chunks.flatMap Utf8.readLossy) := by
  have hempty : sseSeparator.frames [] = ([], []) := Separator.frames_of_none (by decide)
  have hall := readChunks_eq env chunks [] SseState.new
  rw [hempty] at hall
  rw [streamChunks, hall hread, streamBody, List.nil_append,
    Separator.flatten_completed _ _ (by decide), List.nil_append, List.flatMap_def]

end

/-! ### The body of a retried stream -/

section

variable (env : SseEnv)

/-- All events of the blocks, with the state behind them. -/
def processBlocks : List (List Char) → SseState → List StreamEvent × SseState
  | [], s => ([], s)
  | block :: blocks, s =>
    match sseEvent block with
    | none => processBlocks blocks s
    | some event =>
      let processed := processSseEvent env event s
      let later := processBlocks blocks processed.2
      (processed.1 ++ later.1, later.2)

variable {env}

lemma noSession_processSseEvent (event : SseEvent) (s : SseState) :
    NoSession (processSseEvent env event s).1 := by
  rw [processSseEvent]
  split
  · split <;> exact noSession_nil
  · split <;> simp [NoSession]
  · split <;> simp [NoSession]
  · split_ifs <;> simp [NoSession]
  · split <;> simp [NoSession]
  · simp [NoSession]
  · exact noSession_nil

lemma forwardEvents_append {lowercase : String → String} (events more : List StreamEvent) :
    forwardEvents lowercase (events ++ more) =
      match forwardEvents lowercase events with
      | (sent, some error) => (sent, some error)
      | (sent, none) =>
        (sent ++ (forwardEvents lowercase more).1, (forwardEvents lowercase more).2) := by
  induction events with
  | nil => rfl
  | cons event events ih =>
    cases event with
    | error message retryAfterSecs =>
      rw [List.cons_append, forwardEvents, forwardEvents, ih]
      split_ifs
      · rfl
      · rcases forwardEvents lowercase events with ⟨sent, _ | error⟩ <;> rfl
    | _ =>
      simp only [List.cons_append, forwardEvents, ih]
      rcases forwardEvents lowercase events with ⟨sent, _ | error⟩ <;> rfl

lemma noSession_processBlocks (blocks : List (List Char)) (s : SseState) :
    NoSession (processBlocks env blocks s).1 := by
  induction blocks generalizing s with
  | nil => exact noSession_nil
  | cons block blocks ih =>
    rw [processBlocks]
    split
    · exact ih s
    · exact noSession_append.mpr ⟨noSession_processSseEvent _ s, ih _⟩

/-- The events are sent up to an error that is worth a retry. -/
lemma readBlocks_eq (blocks : List (List Char)) (s : SseState) :
    readBlocks env blocks s =
      match forwardEvents env.lowercase (processBlocks env blocks s).1 with
      | (sent, some error) => (sent, .error error)
      | (sent, none) => (sent, .ok (processBlocks env blocks s).2) := by
  induction blocks generalizing s with
  | nil => rfl
  | cons block blocks ih =>
    rw [readBlocks, processBlocks]
    split
    · exact ih s
    · rename_i event _
      dsimp only
      rw [forwardEvents_append, ih]
      rcases forwardEvents env.lowercase (processSseEvent env event s).1 with ⟨sent, _ | error⟩
      · dsimp only
        rcases forwardEvents env.lowercase
          (processBlocks env blocks (processSseEvent env event s).2).1 with
        ⟨later, _ | error⟩ <;> rfl
      · rfl

/-- The body of a response whose connection holds. -/
def responseBody (env : SseEnv) (body : List Char) : ResponseBody where
  events := (processBlocks env (sseSeparator.frames body).1 .new).1
  failure := none
  tokens := (processBlocks env (sseSeparator.frames body).1 .new).2.tokens
  noSession := noSession_processBlocks (sseSeparator.frames body).1 .new

theorem streamResponse_responseBody (body : List Char) :
    streamResponse env.lowercase (.accepted (responseBody env body)) =
      ([.connectionPhase .connecting, .connectionPhase .waitingForResponse] ++
        (streamBody env body).1, (streamBody env body).2) := by
  rw [streamResponse, streamBody, readBlocks_eq, responseBody]
  dsimp only
  rcases forwardEvents env.lowercase
    (processBlocks env (sseSeparator.frames body).1 .new).1 with ⟨sent, _ | error⟩
  · simp [endOfBody]
  · rfl

end

end Jcode.Anthropic
