import Mathlib.Data.Finset.Lattice.Lemmas
import Jcode.Provider.OpenAiRequest

/-!
# The collecting pass

What the transcript and the items of a request hold, and a rule for the collecting pass: what its
steps keep, with the parts, tool uses and results so far and the results to come, holds at the end.
-/

namespace Jcode

open RequestBuild

/-! ### The transcript -/

structure ToolUse where
  id : String
  name : String
  input : String
deriving DecidableEq

/-- A tool result with its output as it is sent. -/
structure ToolResult where
  toolUseId : String
  output : String
deriving DecidableEq

/-- A part of a message. -/
inductive TranscriptPart
  | user (part : InputPart)
  | assistant (text : String)
  | compaction (encryptedContent : String)
deriving DecidableEq

def ContentBlock.toolUses : ContentBlock → List ToolUse
  | .toolUse id name input => [⟨id, name, input⟩]
  | _ => []

def ContentBlock.toolResults : ContentBlock → List ToolResult
  | .toolResult toolUseId content isError => [⟨toolUseId, resultOutput content isError⟩]
  | _ => []

def ContentBlock.userParts : ContentBlock → List TranscriptPart
  | .image mediaType data => [.user (.inputImage ("data:" ++ mediaType ++ ";base64," ++ data))]
  | .text body _ => [.user (.inputText body)]
  | .openAICompaction encryptedContent =>
    if openaiEncryptedContentIsSendable encryptedContent then [.compaction encryptedContent]
    else [.user (.inputText (openaiEncryptedContentFallbackSummary encryptedContent.utf8ByteSize))]
  | _ => []

def ContentBlock.assistantParts : ContentBlock → List TranscriptPart
  | .text body _ => [.assistant body]
  | _ => []

/-- Tools are used in assistant messages. -/
def Message.toolUses (msg : Message) : List ToolUse :=
  match msg.role with
  | .user => []
  | .assistant => msg.content.flatMap (·.toolUses)

/-- Results are given in user messages. -/
def Message.toolResults (msg : Message) : List ToolResult :=
  match msg.role with
  | .user => msg.content.flatMap (·.toolResults)
  | .assistant => []

def Message.parts (msg : Message) : List TranscriptPart :=
  match msg.role with
  | .user => msg.content.flatMap (·.userParts)
  | .assistant => msg.content.flatMap (·.assistantParts)

def toolUses (messages : List Message) : List ToolUse := messages.flatMap (·.toolUses)

def toolResults (messages : List Message) : List ToolResult := messages.flatMap (·.toolResults)

def transcriptParts (messages : List Message) : List TranscriptPart := messages.flatMap (·.parts)

def firstOutput (results : List ToolResult) (id : String) : Option String :=
  (results.find? (·.toolUseId = id)).map (·.output)

/-- What the transcript has for a call: its first result, or the text for a missing one. -/
def expectedOutput (messages : List Message) (id : String) : String :=
  (firstOutput (toolResults messages) id).getD missingOutput

/-! ### The items -/

def ResponsesItem.parts : ResponsesItem → List TranscriptPart
  | .userMessage content => content.map .user
  | .assistantMessage text => [.assistant text]
  | .compaction encryptedContent => [.compaction encryptedContent]
  | _ => []

def itemParts (items : List ResponsesItem) : List TranscriptPart := items.flatMap (·.parts)

def ResponsesItem.isCall : ResponsesItem → Bool
  | .functionCall _ _ _ => true
  | _ => false

def functionCalls (items : List ResponsesItem) : List ResponsesItem := items.filter (·.isCall)

def ToolUse.call (u : ToolUse) : ResponsesItem :=
  .functionCall u.name (callArguments u.input) (sanitizeToolId u.id)

/-- Every output comes after a call with its id; `ids` are the calls so far. -/
def OutputsKnown : Finset String → List ResponsesItem → Prop
  | _, [] => True
  | ids, .functionCall _ _ callId :: items => OutputsKnown (insert callId ids) items
  | ids, .functionCallOutput callId _ :: items => callId ∈ ids ∧ OutputsKnown ids items
  | ids, .userMessage _ :: items | ids, .assistantMessage _ :: items
  | ids, .compaction _ :: items => OutputsKnown ids items

def ResponsesItem.callIds : ResponsesItem → List String
  | .functionCall _ _ callId => [callId]
  | _ => []

variable {ids : Finset String} {items more : List ResponsesItem} {item : ResponsesItem}
  {callId output id : String}

lemma mem_callIds : callId ∈ items.flatMap (·.callIds) ↔
    ∃ name arguments, .functionCall name arguments callId ∈ items := by
  rw [List.mem_flatMap]
  constructor
  · rintro ⟨item, hitem, hid⟩
    cases item with
    | functionCall name arguments callId' =>
      rw [List.mem_singleton.mp hid]
      exact ⟨name, arguments, hitem⟩
    | _ => cases hid
  · rintro ⟨name, arguments, hitem⟩
    exact ⟨_, hitem, List.mem_singleton_self callId⟩

lemma outputsKnown_append : OutputsKnown ids (items ++ more) ↔
    OutputsKnown ids items ∧
      OutputsKnown (ids ∪ (items.flatMap (·.callIds)).toFinset) more := by
  induction items generalizing ids with
  | nil =>
    simp [OutputsKnown]
  | cons item items ih =>
    cases item with
    | functionCall name arguments callId =>
      have hids : insert callId ids ∪ (items.flatMap (·.callIds)).toFinset = ids ∪
          ((ResponsesItem.functionCall name arguments callId :: items).flatMap
            (·.callIds)).toFinset := by
        ext c
        simp [ResponsesItem.callIds]
      rw [List.cons_append, OutputsKnown, OutputsKnown, ih, hids]
    | functionCallOutput callId output =>
      rw [List.cons_append, OutputsKnown, OutputsKnown, ih, and_assoc]
      rfl
    | _ => exact ih

/-! ### Positions of results -/

lemma lastPosInBlock_apply (block : ContentBlock) (idx : Nat) (pos : String → Option Nat) :
    lastPosInBlock idx pos block id =
      if id ∈ block.toolResults.map (·.toolUseId) then some idx else pos id := by
  cases block with
  | toolResult toolUseId content isError =>
    by_cases hid : id = toolUseId <;> simp [lastPosInBlock, ContentBlock.toolResults, hid]
  | _ => rfl

lemma lastPosInBlock_foldl (blocks : List ContentBlock) (idx : Nat) (pos : String → Option Nat) :
    blocks.foldl (lastPosInBlock idx) pos id =
      if id ∈ (blocks.flatMap (·.toolResults)).map (·.toolUseId) then some idx else pos id := by
  induction blocks generalizing pos with
  | nil => rfl
  | cons block blocks ih =>
    rw [List.foldl_cons, ih, lastPosInBlock_apply]
    simp only [List.flatMap_cons, List.map_append, List.mem_append]
    by_cases hrest : id ∈ (blocks.flatMap (·.toolResults)).map (·.toolUseId)
    · rw [if_pos hrest, if_pos (.inr hrest)]
    · simp only [hrest, or_false, if_false]

lemma toolResultLastPos_concat (messages : List Message) (msg : Message) :
    toolResultLastPos (messages ++ [msg]) id =
      if id ∈ msg.toolResults.map (·.toolUseId) then some messages.length
      else toolResultLastPos messages id := by
  rw [toolResultLastPos, List.zipIdx_append, List.foldl_append, List.zipIdx_singleton,
    List.foldl_cons, List.foldl_nil, Nat.zero_add, lastPosInMessage]
  cases hrole : msg.role with
  | user =>
    simp only [lastPosInBlock_foldl, Message.toolResults, hrole]
    rfl
  | assistant => simp [Message.toolResults, hrole, toolResultLastPos]

/-- A later message has a result for the id. -/
lemma hasFutureOutput_iff (messages : List Message) (idx : Nat) :
    (toolResultLastPos messages id).any (idx < ·) ↔
      id ∈ (toolResults (messages.drop (idx + 1))).map (·.toolUseId) := by
  induction messages using List.reverseRecOn with
  | nil => simp [toolResultLastPos, toolResults]
  | append_singleton messages msg ih =>
    rw [toolResultLastPos_concat]
    by_cases hlen : idx + 1 ≤ messages.length
    · rw [List.drop_append_of_le_length hlen]
      split_ifs with hmsg
      · simp only [toolResults, List.flatMap_append, List.map_append, List.mem_append]
        refine iff_of_true ?_ (.inr ?_)
        · exact decide_eq_true (Nat.lt_of_succ_le hlen)
        · simpa using hmsg
      · rw [ih]
        simp only [toolResults, List.flatMap_append, List.map_append, List.mem_append]
        exact (or_iff_left (by simpa using hmsg)).symm
    · have hdrop : (messages ++ [msg]).drop (idx + 1) = [] := by
        rw [List.drop_eq_nil_iff, List.length_append, List.length_singleton]
        omega
      rw [hdrop]
      refine iff_of_false ?_ (by simp [toolResults])
      split_ifs with hmsg
      · have hle : ¬ idx < messages.length := fun h => hlen (Nat.succ_le_of_lt h)
        simpa using hle
      · rw [ih, List.drop_eq_nil_of_le (by omega)]
        simp [toolResults]

/-! ### Steps -/

namespace RequestBuild

variable {st : RequestBuild}

@[simp] lemma flushParts_contentParts : st.flushParts.contentParts = [] := by
  rw [flushParts]
  split_ifs with hempty
  · exact List.isEmpty_iff.mp hempty
  · rfl

@[simp] lemma flushParts_openCalls : st.flushParts.openCalls = st.openCalls := by
  rw [flushParts]
  split_ifs <;> rfl

@[simp] lemma flushParts_usedOutputs : st.flushParts.usedOutputs = st.usedOutputs := by
  rw [flushParts]
  split_ifs <;> rfl

@[simp] lemma flushParts_pendingOutputs : st.flushParts.pendingOutputs = st.pendingOutputs := by
  rw [flushParts]
  split_ifs <;> rfl

lemma collectUse_contentParts (hasFutureOutput : String → Bool) (id name input : String) :
    (st.collectUse hasFutureOutput id name input).contentParts = st.contentParts := by
  rw [collectUse]
  split
  · rfl
  · split_ifs <;> rfl

lemma collectAssistantBlock_contentParts (hasFutureOutput : String → Bool)
    (block : ContentBlock) :
    (st.collectAssistantBlock hasFutureOutput block).contentParts = st.contentParts := by
  cases block with
  | toolUse id name input => exact collectUse_contentParts hasFutureOutput id name input
  | _ => rfl

end RequestBuild

/-- What each step of the collecting pass keeps, for the parts, uses and results so far and the
results to come. -/
structure KeptByCollect (Inv : List TranscriptPart → List ToolUse → List ToolResult →
    List ToolResult → RequestBuild → Prop) : Prop where
  empty : ∀ future, Inv [] [] [] future empty
  addPart : ∀ {parts uses results future st} part, Inv parts uses results future st →
    Inv (parts ++ [.user part]) uses results future
      { st with contentParts := st.contentParts ++ [part] }
  flushParts : ∀ {parts uses results future st}, Inv parts uses results future st →
    Inv parts uses results future st.flushParts
  push : ∀ {parts uses results future st} item, item.isCall = false →
    (∀ callId output, item ≠ .functionCallOutput callId output) → st.contentParts = [] →
    Inv parts uses results future st →
    Inv (parts ++ item.parts) uses results future (st.push item)
  result : ∀ {parts uses results future st} (r : ToolResult),
    Inv parts uses results (r :: future) st →
    Inv parts uses (results ++ [r]) future (st.collectResult r.toolUseId r.output)
  use : ∀ {parts uses results future st} (u : ToolUse) (hasFutureOutput : String → Bool),
    (∀ id, hasFutureOutput id ↔ id ∈ future.map (·.toolUseId)) →
    Inv parts uses results future st →
    Inv parts (uses ++ [u]) results future (st.collectUse hasFutureOutput u.id u.name u.input)

namespace KeptByCollect

variable {Inv : List TranscriptPart → List ToolUse → List ToolResult → List ToolResult →
    RequestBuild → Prop} {parts : List TranscriptPart} {uses : List ToolUse}
  {results future : List ToolResult} {st : RequestBuild}

lemma collectUserBlock (h : KeptByCollect Inv) (block : ContentBlock)
    (hinv : Inv parts uses results (block.toolResults ++ future) st) :
    Inv (parts ++ block.userParts) uses (results ++ block.toolResults) future
      (st.collectUserBlock block) := by
  have hnil {block : ContentBlock} (hresults : block.toolResults = [])
      (hblock : Inv (parts ++ block.userParts) uses results future
        (st.collectUserBlock block)) :
      Inv (parts ++ block.userParts) uses (results ++ block.toolResults) future
        (st.collectUserBlock block) := by
    rwa [hresults, List.append_nil]
  cases block with
  | image mediaType data => exact hnil rfl (h.addPart _ hinv)
  | text body cacheControl => exact hnil rfl (h.addPart _ hinv)
  | openAICompaction encryptedContent =>
    apply hnil rfl
    rw [RequestBuild.collectUserBlock, ContentBlock.userParts]
    split_ifs
    · exact h.push (.compaction _) rfl (by simp) flushParts_contentParts (h.flushParts hinv)
    · exact h.push (.userMessage [.inputText _]) rfl (by simp) flushParts_contentParts
        (h.flushParts hinv)
  | toolResult toolUseId content isError =>
    have hresult := h.result ⟨toolUseId, resultOutput content isError⟩ (h.flushParts hinv)
    rwa [← List.append_nil parts] at hresult
  | reasoning text =>
    apply hnil rfl
    rwa [← List.append_nil parts] at hinv
  | toolUse id name input =>
    apply hnil rfl
    rwa [← List.append_nil parts] at hinv

lemma collectAssistantBlock (h : KeptByCollect Inv) (block : ContentBlock)
    {hasFutureOutput : String → Bool}
    (hfuture : ∀ id, hasFutureOutput id ↔ id ∈ future.map (·.toolUseId))
    (hparts : st.contentParts = []) (hinv : Inv parts uses results future st) :
    Inv (parts ++ block.assistantParts) (uses ++ block.toolUses) results future
      (st.collectAssistantBlock hasFutureOutput block) := by
  cases block with
  | text body cacheControl =>
    have hpush := h.push (.assistantMessage body) rfl (by simp) hparts hinv
    rwa [← List.append_nil uses] at hpush
  | toolUse id name input =>
    have huse := h.use ⟨id, name, input⟩ hasFutureOutput hfuture hinv
    rwa [← List.append_nil parts] at huse
  | _ => rwa [← List.append_nil parts, ← List.append_nil uses] at hinv

lemma foldl_collectUserBlock (h : KeptByCollect Inv) (blocks : List ContentBlock)
    (hinv : Inv parts uses results (blocks.flatMap (·.toolResults) ++ future) st) :
    Inv (parts ++ blocks.flatMap (·.userParts)) uses
      (results ++ blocks.flatMap (·.toolResults)) future
      (blocks.foldl RequestBuild.collectUserBlock st) := by
  induction blocks generalizing parts results st with
  | nil => simpa using hinv
  | cons block blocks ih =>
    rw [List.flatMap_cons, List.append_assoc] at hinv
    simpa using ih (h.collectUserBlock block hinv)

lemma foldl_collectAssistantBlock (h : KeptByCollect Inv) (blocks : List ContentBlock)
    {hasFutureOutput : String → Bool}
    (hfuture : ∀ id, hasFutureOutput id ↔ id ∈ future.map (·.toolUseId))
    (hparts : st.contentParts = []) (hinv : Inv parts uses results future st) :
    Inv (parts ++ blocks.flatMap (·.assistantParts)) (uses ++ blocks.flatMap (·.toolUses)) results
        future (blocks.foldl (RequestBuild.collectAssistantBlock · hasFutureOutput) st) ∧
      (blocks.foldl (RequestBuild.collectAssistantBlock · hasFutureOutput) st).contentParts =
        [] := by
  induction blocks generalizing parts uses st with
  | nil => exact ⟨by simpa using hinv, hparts⟩
  | cons block blocks ih =>
    simpa using ih ((collectAssistantBlock_contentParts hasFutureOutput block).trans hparts)
      (h.collectAssistantBlock block hfuture hparts hinv)

/-- One message, with the results of the later messages to come. -/
lemma collectMessage (h : KeptByCollect Inv) (before : List Message) (msg : Message)
    (rest : List Message) (hparts : st.contentParts = [])
    (hinv : Inv parts uses results (toolResults (msg :: rest)) st) :
    Inv (parts ++ msg.parts) (uses ++ msg.toolUses) (results ++ msg.toolResults)
        (toolResults rest) (st.collectMessage
          (toolResultLastPos (before ++ msg :: rest)) msg before.length) ∧
      (st.collectMessage
        (toolResultLastPos (before ++ msg :: rest)) msg before.length).contentParts = [] := by
  rw [toolResults, List.flatMap_cons] at hinv
  cases hrole : msg.role with
  | user =>
    simp only [RequestBuild.collectMessage, Message.parts, Message.toolUses, Message.toolResults,
      hrole] at hinv ⊢
    rw [List.append_nil]
    exact ⟨h.flushParts (h.foldl_collectUserBlock msg.content hinv), flushParts_contentParts⟩
  | assistant =>
    simp only [RequestBuild.collectMessage, Message.parts, Message.toolUses, Message.toolResults,
      hrole] at hinv ⊢
    rw [List.append_nil]
    refine h.foldl_collectAssistantBlock msg.content (fun id ↦ ?_) hparts hinv
    rw [hasFutureOutput_iff, List.drop_append, List.drop_eq_nil_of_le (Nat.le_succ _)]
    simp [toolResults]

/-- What the steps keep holds when all messages are collected. -/
theorem collect (h : KeptByCollect Inv) (messages : List Message) :
    Inv (transcriptParts messages) (toolUses messages) (toolResults messages) []
        (collect messages) ∧
      (collect messages).contentParts = [] := by
  have hloop (rest before : List Message) (st : RequestBuild)
      (hmessages : messages = before ++ rest) (hparts : st.contentParts = [])
      (hinv : Inv (transcriptParts before) (toolUses before) (toolResults before)
        (toolResults rest) st) :
      let st' := (rest.zipIdx before.length).foldl (fun st entry =>
        st.collectMessage (toolResultLastPos messages) entry.1 entry.2) st
      Inv (transcriptParts messages) (toolUses messages) (toolResults messages) [] st' ∧
        st'.contentParts = [] := by
    induction rest generalizing before st with
    | nil =>
      rw [List.append_nil] at hmessages
      rw [hmessages]
      exact ⟨hinv, hparts⟩
    | cons msg rest ih =>
      rw [List.zipIdx_cons, List.foldl_cons]
      have hnext := h.collectMessage before msg rest hparts hinv
      rw [← hmessages] at hnext
      have hend := ih (before ++ [msg]) _ (by rw [hmessages, List.append_assoc]; rfl) hnext.2
        (by simpa [transcriptParts, toolUses, toolResults] using hnext.1)
      rwa [List.length_append, List.length_singleton] at hend
  exact hloop messages [] RequestBuild.empty rfl rfl (h.empty (toolResults messages))

end KeptByCollect

end Jcode
