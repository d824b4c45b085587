import Jcode.Compaction.ToolPairs
import Jcode.Foundation.MergeRuns
import Jcode.Provider.OpenAiRequest

/-!
# The messages of an Anthropic request

`format_messages` of `AnthropicProvider`, and the cache markers that are placed on the messages of
a request. The check at the end of `format_messages` only writes to the log and is left out.
-/

namespace Jcode.Anthropic

/-- `ephemeral` or `ephemeral_1h`. -/
structure CacheControlParam where
  kind : String
  ttl : Option String
deriving DecidableEq

inductive ToolResultContentBlock
  | text (text : String)
  | image (mediaType data : String)
deriving DecidableEq

inductive ToolResultContent
  | text (text : String)
  | blocks (blocks : List ToolResultContentBlock)
deriving DecidableEq

inductive ApiContentBlock
  | text (text : String) (cacheControl : Option CacheControlParam)
  | toolUse (id name input : String) (cacheControl : Option CacheControlParam)
  | toolResult (toolUseId : String) (content : ToolResultContent) (isError : Bool)
  | image (mediaType data : String)
deriving DecidableEq

structure ApiMessage where
  role : Role
  content : List ApiContentBlock
deriving DecidableEq

def mapToolNameForOauth (name : String) : String :=
  match name with
  | "bash" => "Bash"
  | "read" => "Read"
  | "write" => "Write"
  | "edit" => "Edit"
  | "glob" => "Glob"
  | "grep" => "Grep"
  | "subagent" => "Agent"
  | "schedule" => "ScheduleWakeup"
  | "skill_manage" => "Skill"
  | _ => name

/-- The calls without a result, wherever in the transcript it could be. -/
def danglingIds (messages : List Message) : Finset String :=
  (toolUseIds (blocksOf messages)).toFinset \ (toolResultIds (blocksOf messages)).toFinset

lemma mem_danglingIds {messages : List Message} {id : String} : id ∈ danglingIds messages ↔
    id ∈ toolUseIds (blocksOf messages) ∧ id ∉ toolResultIds (blocksOf messages) := by
  simp [danglingIds]

/-! ### Content blocks -/

def ToolResultContent.addImage (mediaType data : String) : ToolResultContent → ToolResultContent
  | .text content => .blocks [.text content, .image mediaType data]
  | .blocks content => .blocks (content ++ [.image mediaType data])

/-- An image behind a tool result becomes part of it. -/
def pushImage (result : List ApiContentBlock) (mediaType data : String) : List ApiContentBlock :=
  match result.getLast? with
  | some (.toolResult toolUseId content isError) =>
    result.dropLast ++ [.toolResult toolUseId (content.addImage mediaType data) isError]
  | _ => result ++ [.image mediaType data]

section

variable (isOauth : Bool)

def formatContentBlock (result : List ApiContentBlock) : ContentBlock → List ApiContentBlock
  | .text text _ => result ++ [.text text none]
  | .toolUse id name input => result ++ [.toolUse (sanitizeToolId id)
      (if isOauth then mapToolNameForOauth name else name) (callArguments input) none]
  | .toolResult toolUseId content isError =>
    result ++ [.toolResult (sanitizeToolId toolUseId) (.text content) (isError.getD false)]
  | .image mediaType data => pushImage result mediaType data
  | .reasoning _ | .openAICompaction _ => result

def formatContentBlocks (blocks : List ContentBlock) : List ApiContentBlock :=
  blocks.foldl (formatContentBlock isOauth) []

/-! ### Messages -/

def interruptedText : String := "[Session interrupted before tool execution completed]"

def syntheticResult (id : String) : ApiContentBlock :=
  .toolResult (sanitizeToolId id) (.text interruptedText) true

/-- The results that an assistant message is given for its calls without one. -/
def syntheticResults (dangling : Finset String) (msg : Message) : List ApiContentBlock :=
  match msg.role with
  | .user => []
  | .assistant => ((toolUseIds msg.content).filter (· ∈ dangling)).map syntheticResult

/-- A message without content is not sent. -/
def contentMessage (role : Role) (content : List ApiContentBlock) : List ApiMessage :=
  if content.isEmpty then [] else [⟨role, content⟩]

lemma eq_of_mem_contentMessage {role : Role} {content : List ApiContentBlock} {m : ApiMessage}
    (h : m ∈ contentMessage role content) : m = ⟨role, content⟩ := by
  rw [contentMessage] at h
  split_ifs at h
  · cases h
  · exact List.mem_singleton.mp h

def formatMessage (dangling : Finset String) (msg : Message) : List ApiMessage :=
  contentMessage msg.role (formatContentBlocks isOauth msg.content) ++
    contentMessage .user (syntheticResults dangling msg)

/-- Messages of one role behind each other become one. -/
def mergeMessages : RunJoin ApiMessage Role where
  key := ApiMessage.role
  join last msg := ⟨last.role, last.content ++ msg.content⟩
  key_join _ _ := rfl

def formatMessages (messages : List Message) : List ApiMessage :=
  mergeMessages.merge (messages.flatMap (formatMessage isOauth (danglingIds messages)))

end

/-! ### Cache markers -/

def mark (cacheControl : CacheControlParam) : ApiContentBlock → Option ApiContentBlock
  | .text text _ => some (.text text (some cacheControl))
  | .toolUse id name input _ => some (.toolUse id name input (some cacheControl))
  | .toolResult _ _ _ | .image _ _ => none

/-- The last block that can be marked is marked; `blocks` are the blocks from the last one on. -/
def markFirst (cacheControl : CacheControlParam) : List ApiContentBlock → List ApiContentBlock
  | [] => []
  | block :: blocks =>
    match mark cacheControl block with
    | some marked => marked :: blocks
    | none => block :: markFirst cacheControl blocks

def markMessage (cacheControl : CacheControlParam) (msg : ApiMessage) : ApiMessage :=
  { msg with content := (markFirst cacheControl msg.content.reverse).reverse }

/-- The places of the last two assistant messages. -/
def assistantIndices (messages : List ApiMessage) : List Nat :=
  ((messages.zipIdx.filter fun p => p.1.role = .assistant).map (·.2)).reverse.take 2

def addMessageCacheBreakpoint (ephemeral : CacheControlParam) (messages : List ApiMessage) :
    List ApiMessage :=
  if messages.length < 3 then messages
  else (assistantIndices messages).foldl
    (fun messages idx => messages.modify idx (markMessage ephemeral)) messages

def formatMessagesWithIdentity (ephemeral : CacheControlParam) (messages : List ApiMessage) :
    List ApiMessage :=
  addMessageCacheBreakpoint ephemeral messages

end Jcode.Anthropic
