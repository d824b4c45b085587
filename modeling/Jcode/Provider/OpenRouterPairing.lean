import Jcode.Provider.OpenAiAnswers
import Jcode.Provider.OpenRouterPasses

/-!
# The outputs and parts of an OpenRouter request

Every call of a request has one output behind it, in the order of the calls. With distinct ids of
the tool uses, it is the one of the transcript wherever no other tool use has the same sanitized
id. The parts of the messages are sent once and in their order; reasoning only where it is allowed.
-/

namespace Jcode.OpenRouter

/-! ### Parts -/

inductive SentPart
  | user (part : InputPart)
  | text (text : String)
  | reasoning (text : String)
deriving DecidableEq

def SentPart.isReasoning : SentPart → Bool
  | .reasoning _ => true
  | _ => false

/-- A blank reasoning shows nothing in a message with calls. -/
def assistantParts (hasCalls : Bool) (text reasoning : String) : List SentPart :=
  (if text = "" then [] else [.text text]) ++
    if reasoning = "" ∨ (hasCalls ∧ trim reasoning = "") then [] else [.reasoning reasoning]

def ContentPart.sent : ContentPart → SentPart
  | .text body _ => .user (.inputText body)
  | .imageUrl url => .user (.inputImage url)

def UserContent.sent : UserContent → List SentPart
  | .text body => [.user (.inputText body)]
  | .parts userParts => userParts.map (·.sent)

def ApiMessage.parts : ApiMessage → List SentPart
  | .user content => content.sent
  | .assistant content toolCalls reasoningContent =>
    assistantParts (!(toolCalls.getD []).isEmpty) (content.getD "") (reasoningContent.getD "")
  | .system _ | .tool _ _ => []

def blockParts : ContentBlock → List ContentPart
  | .text text cacheControl => [.text text cacheControl]
  | .image mediaType data => [.imageUrl ("data:" ++ mediaType ++ ";base64," ++ data)]
  | _ => []

def blockText : ContentBlock → String
  | .text text _ => text
  | _ => ""

def blockReasoning : ContentBlock → String
  | .reasoning text => text
  | _ => ""

/-- The parts of a message: those of the user, or the text and the reasoning of the assistant. -/
def messageParts (msg : Message) : List SentPart :=
  match msg.role with
  | .user => (msg.content.flatMap blockParts).map (·.sent)
  | .assistant => assistantParts (!msg.toolUses.isEmpty) (String.join (msg.content.map blockText))
      (String.join (msg.content.map blockReasoning))

/-- The parts that may be sent. -/
def allowedParts (allowReasoning : Bool) (parts : List SentPart) : List SentPart :=
  parts.filter fun part => allowReasoning || !part.isReasoning

def toolCall (u : ToolUse) : ApiToolCall := ⟨sanitizeToolId u.id, u.name, callArguments u.input⟩

/-- No other tool use has the sanitized id. -/
def Alone (messages : List Message) (u : ToolUse) : Prop :=
  ∀ v ∈ toolUses messages, sanitizeToolId v.id = sanitizeToolId u.id → v.id = u.id

/-- Every call is answered, and nothing else is; where the call is alone, by the output that the
transcript has for it. What may be sent of the transcript is sent once and in its order. -/
structure Pairs (allowReasoning : Bool) (messages : List Message) (request : List ApiMessage) :
    Prop where
  answers : ∃ answers, readAnswers [] request = some answers ∧
    List.Forall₂ (fun u answer => answer.1 = toolCall u ∧
      (Alone messages u → answer.2 = expectedOutput messages u.id)) (toolUses messages) answers
  parts : request.flatMap (·.parts) = allowedParts allowReasoning (messages.flatMap messageParts)

/-! ### Messages of a conversion -/

section

variable {settings : RequestSettings} {msgs more : List ApiMessage}
  {parts moreParts : List SentPart} {uses moreUses : List ToolUse}

/-- The messages have the parts and the calls. -/
structure Sends (settings : RequestSettings) (msgs : List ApiMessage) (parts : List SentPart)
    (uses : List ToolUse) : Prop where
  parts : msgs.flatMap (fun msg => (fillReasoning settings.allowReasoning msg).parts) = parts
  calls : msgs.flatMap (·.calls) = uses.map toolCall

namespace Sends

lemma append (h : Sends settings msgs parts uses) (hmore : Sends settings more moreParts moreUses) :
    Sends settings (msgs ++ more) (parts ++ moreParts) (uses ++ moreUses) where
  parts := by rw [List.flatMap_append, h.parts, hmore.parts]
  calls := by rw [List.flatMap_append, h.calls, hmore.calls, List.map_append]

lemma append_outputs (h : Sends settings msgs parts uses) (outputs : List (String × String)) :
    Sends settings (msgs ++ outputs.map fun (id, output) => .tool id output) parts uses := by
  have hnone : Sends settings (outputs.map fun (id, output) => .tool id output) [] [] := by
    constructor <;> rw [List.flatMap_map] <;> exact List.flatMap_eq_nil_iff.mpr fun _ _ => rfl
  simpa using h.append hnone

lemma pushUser {st : Conversion} (h : Sends settings st.apiMessages parts uses)
    (userParts : List ContentPart) :
    Sends settings (st.pushUser userParts).apiMessages (parts ++ userParts.map (·.sent)) uses := by
  have hparts : Sends settings ((contentFromParts userParts).map ApiMessage.user).toList
      (userParts.map (·.sent)) [] := by
    rw [contentFromParts.eq_def]
    split
    · exact ⟨rfl, rfl⟩
    · exact ⟨rfl, rfl⟩
    · exact ⟨List.append_nil _, rfl⟩
  rw [← List.append_nil uses]
  exact h.append hparts

end Sends

lemma systemMessage_sends (system : String) : Sends settings (systemMessage system) [] [] := by
  rw [systemMessage]
  split_ifs <;> exact ⟨rfl, rfl⟩

/-- Of an assistant message, the text and what is allowed of the reasoning is sent. -/
lemma parts_assistantMsg (build : AssistantBuild) :
    (fillReasoning settings.allowReasoning (build.assistantMsg settings)).parts =
      allowedParts settings.allowReasoning
        (assistantParts (!build.toolCalls.isEmpty) build.textContent build.reasoningContent) := by
  have hspace : trim " " = "" := by decide
  rw [AssistantBuild.assistantMsg]
  generalize settings.includeReasoningContent = includeReasoningContent
  cases settings.allowReasoning with
  | false =>
    cases hcalls : build.toolCalls <;> by_cases htext : build.textContent = "" <;>
      by_cases hreasoning : build.reasoningContent = "" <;>
      simp [fillReasoning, ApiMessage.parts, allowedParts, assistantParts, SentPart.isReasoning, *]
  | true =>
    cases hcalls : build.toolCalls with
    | nil =>
      by_cases htext : build.textContent = "" <;>
        by_cases hreasoning : build.reasoningContent = "" <;>
        simp [fillReasoning, ApiMessage.parts, allowedParts, assistantParts, *]
    | cons call calls =>
      by_cases htext : build.textContent = "" <;>
        by_cases hreasoning : build.reasoningContent = "" <;>
        by_cases hblank : trim build.reasoningContent = "" <;>
        cases includeReasoningContent <;>
        simp [fillReasoning, ApiMessage.parts, allowedParts, assistantParts, *]

end

/-! ### Tool results -/

/-- The outputs in the messages, with their sanitized ids. -/
def sentBy (msgs : List ApiMessage) : Set (String × String) :=
  {entry | .tool entry.1 entry.2 ∈ msgs}

/-- What is known of the tool uses and the results so far, with the results to come and the
outputs sent so far. -/
structure Tracks (uses : List ToolUse) (results future : List ToolResult)
    (tracking : ToolTracking) (sent : Set (String × String)) : Prop where
  seen : ∀ id, id ∈ tracking.toolCallsSeen ↔ id ∈ uses.map (·.id)
  used_seen : ∀ id ∈ tracking.usedToolResults, id ∈ tracking.toolCallsSeen
  pending : ∀ id ∉ tracking.toolCallsSeen, tracking.pendingToolResults id = firstOutput results id
  waits : ∀ id ∈ tracking.toolCallsSeen, id ∉ tracking.usedToolResults →
    firstOutput results id = none ∧ id ∈ future.map (·.toolUseId)
  sent : ∀ entry, entry ∈ sent ↔ ∃ id ∈ tracking.usedToolResults,
    entry = (sanitizeToolId id, (firstOutput (results ++ future) id).getD missingOutput)

section

variable {uses : List ToolUse} {results future : List ToolResult} {tracking : ToolTracking}
  {sent sent' : Set (String × String)} {r : ToolResult} {u : ToolUse} {id output : String}

lemma sentBy_append (msgs more : List ApiMessage) :
    sentBy (msgs ++ more) = sentBy msgs ∪ sentBy more := by
  ext entry
  exact List.mem_append

lemma exists_mem_insert {used : Finset String} {p : String → Prop} :
    (∃ id' ∈ insert id used, p id') ↔ (∃ id' ∈ used, p id') ∨ p id := by
  rw [Finset.exists_mem_insert, or_comm]

namespace Tracks

/-- A call that waits goes on waiting when there is a result for another one. -/
lemma waits_of_ne (h : Tracks uses results (r :: future) tracking sent)
    (hseen : id ∈ tracking.toolCallsSeen) (hused : id ∉ tracking.usedToolResults)
    (hne : r.toolUseId ≠ id) :
    firstOutput (results ++ [r]) id = none ∧ id ∈ future.map (·.toolUseId) := by
  obtain ⟨hnone, hfuture⟩ := h.waits id hseen hused
  rw [firstOutput_append, hnone, firstOutput_singleton, if_neg hne]
  exact ⟨rfl, (List.mem_cons.mp hfuture).resolve_left hne.symm⟩

/-- A result that is not the first one for its id changes nothing. -/
lemma skip (h : Tracks uses results (r :: future) tracking sent)
    (hused : r.toolUseId ∈ tracking.usedToolResults ∨
      r.toolUseId ∉ tracking.toolCallsSeen ∧
        (tracking.pendingToolResults r.toolUseId).isSome) :
    Tracks uses (results ++ [r]) future tracking sent := by
  refine ⟨h.seen, h.used_seen, fun id hid => ?_, fun id hid hnot => ?_, ?_⟩
  · rw [h.pending id hid, firstOutput_append, firstOutput_singleton]
    split_ifs with hr
    · subst hr
      obtain hused | ⟨hseen, hsome⟩ := hused
      · exact absurd (h.used_seen _ hused) hid
      · rw [h.pending _ hseen] at hsome
        rw [Option.or_of_isSome hsome]
    · rw [Option.or_none]
  · apply h.waits_of_ne hid hnot
    rintro rfl
    exact hused.elim hnot fun hor => hor.1 hid
  · rw [List.append_assoc]
    exact h.sent

/-- The first result for its id is kept until its call comes. -/
lemma keep (h : Tracks uses results (r :: future) tracking sent)
    (hseen : r.toolUseId ∉ tracking.toolCallsSeen)
    (hnone : tracking.pendingToolResults r.toolUseId = none) :
    Tracks uses (results ++ [r]) future
      { tracking with pendingToolResults :=
          Function.update tracking.pendingToolResults r.toolUseId (some r.output) } sent := by
  refine ⟨h.seen, h.used_seen, fun id hid => ?_, fun id hid hnot => ?_, ?_⟩
  · rw [firstOutput_append, firstOutput_singleton, ← h.pending id hid]
    by_cases hr : id = r.toolUseId
    · subst hr
      dsimp only
      rw [Function.update_self, if_pos rfl, hnone]
      rfl
    · dsimp only
      rw [Function.update_of_ne hr, if_neg (Ne.symm hr), Option.or_none]
  · apply h.waits_of_ne hid hnot
    rintro rfl
    exact hseen hid
  · rw [List.append_assoc]
    exact h.sent

/-- The first result behind its call is sent. -/
lemma take (h : Tracks uses results (r :: future) tracking sent)
    (hseen : r.toolUseId ∈ tracking.toolCallsSeen)
    (hused : r.toolUseId ∉ tracking.usedToolResults)
    (hsent : ∀ entry, entry ∈ sent' ↔
      entry ∈ sent ∨ entry = (sanitizeToolId r.toolUseId, r.output)) :
    Tracks uses (results ++ [r]) future
      { tracking with
        usedToolResults := insert r.toolUseId tracking.usedToolResults } sent' := by
  refine ⟨h.seen, fun id hid => ?_, fun id hid => ?_, fun id hid hnot => ?_, fun entry => ?_⟩
  · obtain rfl | hid := Finset.mem_insert.mp hid
    · exact hseen
    · exact h.used_seen id hid
  · rw [h.pending id hid, firstOutput_append, firstOutput_singleton,
      if_neg (ne_of_mem_of_not_mem hseen hid), Option.or_none]
  · rw [Finset.mem_insert, not_or] at hnot
    exact h.waits_of_ne hid hnot.2 (Ne.symm hnot.1)
  · have hfirst : firstOutput (results ++ r :: future) r.toolUseId = some r.output := by
      rw [firstOutput_append, (h.waits _ hseen hused).1, ← List.singleton_append,
        firstOutput_append, firstOutput_singleton, if_pos rfl]
      rfl
    rw [hsent, h.sent, exists_mem_insert, List.append_assoc, List.singleton_append, hfirst]
    rfl

/-- A call without a result so far waits for one to come. -/
lemma await (h : Tracks uses results future tracking sent) (hnew : u.id ∉ uses.map (·.id))
    (hnone : tracking.pendingToolResults u.id = none) (hfuture : u.id ∈ future.map (·.toolUseId)) :
    Tracks (uses ++ [u]) results future
      { tracking with toolCallsSeen := insert u.id tracking.toolCallsSeen } sent := by
  refine ⟨fun id => ?_, fun id hid => Finset.mem_insert_of_mem (h.used_seen id hid),
    fun id hid => ?_, fun id hid hnot => ?_, h.sent⟩
  · rw [Finset.mem_insert, h.seen, List.map_append, List.mem_append, or_comm]
    simp
  · exact h.pending id fun hseen => hid (Finset.mem_insert_of_mem hseen)
  · obtain rfl | hseen := Finset.mem_insert.mp hid
    · exact ⟨(h.pending _ fun hseen => hnew ((h.seen _).mp hseen)).symm.trans hnone, hfuture⟩
    · exact h.waits id hseen hnot

/-- A call whose output is known is answered. -/
lemma answer (h : Tracks uses results future tracking sent)
    {pending : String → Option String}
    (hpending : ∀ id, id ≠ u.id → pending id = tracking.pendingToolResults id)
    (houtput : (firstOutput (results ++ future) u.id).getD missingOutput = output)
    (hsent : ∀ entry, entry ∈ sent' ↔ entry ∈ sent ∨ entry = (sanitizeToolId u.id, output)) :
    Tracks (uses ++ [u]) results future
      ⟨insert u.id tracking.toolCallsSeen, pending, insert u.id tracking.usedToolResults⟩
      sent' := by
  refine ⟨fun id => ?_, fun id hid => ?_, fun id hid => ?_, fun id hid hnot => ?_,
    fun entry => ?_⟩
  · rw [Finset.mem_insert, h.seen, List.map_append, List.mem_append, or_comm]
    simp
  · exact Finset.insert_subset_insert _ h.used_seen hid
  · rw [Finset.mem_insert, not_or] at hid
    exact (hpending id hid.1).trans (h.pending id hid.2)
  · rw [Finset.mem_insert, not_or] at hnot
    exact h.waits id ((Finset.mem_insert.mp hid).resolve_left hnot.1) hnot.2
  · rw [hsent, h.sent, exists_mem_insert, houtput]

end Tracks

end

/-! ### One message -/

section

variable {settings : RequestSettings} {st : Conversion} {parts : List SentPart}
  {uses : List ToolUse} {results future : List ToolResult} {r : ToolResult}

lemma sentBy_pushUser (userParts : List ContentPart) :
    sentBy (st.pushUser userParts).apiMessages = sentBy st.apiMessages := by
  rw [Conversion.pushUser, Conversion.push, sentBy_append]
  convert Set.union_empty _
  ext entry
  cases contentFromParts userParts <;> simp [sentBy]

lemma Tracks.convertResult
    (h : Tracks uses results (r :: future) st.toToolTracking (sentBy st.apiMessages)) :
    Tracks uses (results ++ [r]) future (st.convertResult r.toolUseId r.output).toToolTracking
      (sentBy (st.convertResult r.toolUseId r.output).apiMessages) := by
  rw [Conversion.convertResult]
  split_ifs with hused hseen hpending
  · exact h.skip (.inl hused)
  · apply h.take hseen hused
    intro entry
    simp [Conversion.push, sentBy, Prod.ext_iff]
  · exact h.skip (.inr ⟨hseen, hpending⟩)
  · exact h.keep hseen (Option.not_isSome_iff_eq_none.mp hpending)

lemma Sends.convertResult (h : Sends settings st.apiMessages parts uses)
    (toolUseId output : String) :
    Sends settings (st.convertResult toolUseId output).apiMessages parts uses := by
  rw [Conversion.convertResult]
  split_ifs
  · exact h
  · exact h.append_outputs [(sanitizeToolId toolUseId, output)]
  · exact h
  · exact h

lemma Sends.foldl_convertUserBlock (content : List ContentBlock) (userParts : List ContentPart)
    (h : Sends settings st.apiMessages parts uses) :
    Sends settings ((content.foldl convertUserBlock (st, userParts)).1.pushUser
        (content.foldl convertUserBlock (st, userParts)).2).apiMessages
      (parts ++ (userParts ++ content.flatMap blockParts).map (·.sent)) uses := by
  induction content generalizing st userParts parts with
  | nil =>
    rw [List.flatMap_nil, List.append_nil]
    exact h.pushUser userParts
  | cons block content ih =>
    rw [List.foldl_cons, List.flatMap_cons, ← List.append_assoc]
    cases block with
    | text body cacheControl => exact ih _ h
    | image mediaType data => exact ih _ h
    | toolResult toolUseId output isError =>
      have hnone : blockParts (.toolResult toolUseId output isError) = [] := rfl
      rw [hnone, List.append_nil, List.map_append, ← List.append_assoc]
      exact ih [] ((h.pushUser userParts).convertResult toolUseId (resultOutput output isError))
    | _ =>
      rw [blockParts, List.append_nil]
      · exact ih _ h
      all_goals simp

lemma Tracks.foldl_convertUserBlock (content : List ContentBlock) {userParts : List ContentPart}
    (h : Tracks uses results (content.flatMap (·.toolResults) ++ future) st.toToolTracking
      (sentBy st.apiMessages)) :
    Tracks uses (results ++ content.flatMap (·.toolResults)) future
      (content.foldl convertUserBlock (st, userParts)).1.toToolTracking
      (sentBy (content.foldl convertUserBlock (st, userParts)).1.apiMessages) := by
  induction content generalizing st userParts results with
  | nil => simpa using h
  | cons block content ih =>
    rw [List.foldl_cons, List.flatMap_cons]
    cases block with
    | toolResult toolUseId output isError =>
      rw [List.flatMap_cons, ← sentBy_pushUser userParts] at h
      rw [← List.append_assoc]
      exact ih (Tracks.convertResult h)
    | _ => exact ih h

lemma convertUser_sends (content : List ContentBlock)
    (h : Sends settings st.apiMessages parts uses) :
    Sends settings (convertUser st content).apiMessages
      (parts ++ (content.flatMap blockParts).map (·.sent)) uses :=
  h.foldl_convertUserBlock content []

lemma convertUser_tracks (content : List ContentBlock)
    (h : Tracks uses results (content.flatMap (·.toolResults) ++ future) st.toToolTracking
      (sentBy st.apiMessages)) :
    Tracks uses (results ++ content.flatMap (·.toolResults)) future
      (convertUser st content).toToolTracking (sentBy (convertUser st content).apiMessages) := by
  rw [convertUser]
  dsimp only
  rw [sentBy_pushUser]
  exact h.foldl_convertUserBlock content

end

/-! ### One assistant message -/

section

variable {settings : RequestSettings} {st : Conversion} {build : AssistantBuild}
  {parts : List SentPart} {uses : List ToolUse} {results future : List ToolResult} {u : ToolUse}
  {base : List ApiMessage} {hasFutureOutput : String → Bool}

/-- The outputs of the build, as they are sent. -/
def outputMsgs (build : AssistantBuild) : List ApiMessage :=
  build.outputs.map fun (id, output) => .tool (sanitizeToolId id) output

/-- What is gathered of the blocks so far; only calls have outputs. -/
structure Gathered (build : AssistantBuild) (content : List ContentBlock) : Prop where
  text : build.textContent = String.join (content.map blockText)
  reasoning : build.reasoningContent = String.join (content.map blockReasoning)
  calls : build.toolCalls = (content.flatMap (·.toolUses)).map toolCall
  outputs : build.outputs.length ≤ build.toolCalls.length

namespace Gathered

variable {content : List ContentBlock}

/-- One block more, with what it adds. -/
lemma add {build' : AssistantBuild} (h : Gathered build content) (block : ContentBlock)
    (htext : build'.textContent = build.textContent ++ blockText block)
    (hreasoning : build'.reasoningContent = build.reasoningContent ++ blockReasoning block)
    (hcalls : build'.toolCalls = build.toolCalls ++ block.toolUses.map toolCall)
    (houtputs : build'.outputs.length ≤ build.outputs.length + block.toolUses.length) :
    Gathered build' (content ++ [block]) where
  text := by simp [htext, h.text]
  reasoning := by simp [hreasoning, h.reasoning]
  calls := by simp [hcalls, h.calls]
  outputs := by
    rw [hcalls, List.length_append, List.length_map]
    exact houtputs.trans (Nat.add_le_add_right h.outputs _)

lemma convertUse (h : Gathered build content) (id name input : String) :
    Gathered (build.convertUse hasFutureOutput id name input)
      (content ++ [.toolUse id name input]) := by
  rw [AssistantBuild.convertUse]
  dsimp only
  split
  · refine h.add _ String.append_empty.symm String.append_empty.symm rfl ?_
    simp [AssistantBuild.outputs, ContentBlock.toolUses, add_assoc]
  · split_ifs
    · exact h.add _ String.append_empty.symm String.append_empty.symm rfl (Nat.le_succ _)
    · refine h.add _ String.append_empty.symm String.append_empty.symm rfl ?_
      simp [AssistantBuild.outputs, ContentBlock.toolUses, add_assoc]

lemma convertAssistantBlock (h : Gathered build content) (block : ContentBlock) :
    Gathered (build.convertAssistantBlock hasFutureOutput block) (content ++ [block]) := by
  have hnone (text : String) : text = text ++ "" := String.append_empty.symm
  have hsame : build.toolCalls = build.toolCalls ++ [] := (List.append_nil _).symm
  cases block with
  | toolUse id name input => exact h.convertUse id name input
  | text body cacheControl => exact h.add _ rfl (hnone _) hsame le_rfl
  | reasoning body => exact h.add _ (hnone _) rfl hsame le_rfl
  | _ => exact h.add _ (hnone _) (hnone _) hsame le_rfl

lemma foldl (h : Gathered build content) (more : List ContentBlock) :
    Gathered (more.foldl (·.convertAssistantBlock hasFutureOutput) build) (content ++ more) := by
  induction more generalizing build content with
  | nil => simpa using h
  | cons block more ih =>
    rw [← List.singleton_append, ← List.append_assoc]
    exact ih (h.convertAssistantBlock block)

/-- The text and the calls are sent, and the reasoning if it is allowed. -/
lemma sends (h : Gathered build content) (settings : RequestSettings) :
    Sends settings (build.messages settings) (allowedParts settings.allowReasoning
      (assistantParts (!(content.flatMap (·.toolUses)).isEmpty)
        (String.join (content.map blockText)) (String.join (content.map blockReasoning))))
      (content.flatMap (·.toolUses)) := by
  have hcalls : build.toolCalls.isEmpty = (content.flatMap (·.toolUses)).isEmpty := by
    rw [h.calls, List.isEmpty_map]
  have hmsg : Sends settings [build.assistantMsg settings] (allowedParts settings.allowReasoning
      (assistantParts (!(content.flatMap (·.toolUses)).isEmpty)
        (String.join (content.map blockText)) (String.join (content.map blockReasoning))))
      (content.flatMap (·.toolUses)) := by
    constructor
    · rw [List.flatMap_singleton, parts_assistantMsg, h.text, h.reasoning, hcalls]
    · rw [List.flatMap_singleton, ← h.calls, AssistantBuild.assistantMsg, ApiMessage.calls]
      cases build.toolCalls <;> rfl
  rw [AssistantBuild.messages]
  split_ifs with hsome
  · have houtputs := hmsg.append_outputs
      (build.outputs.map fun (id, output) => (sanitizeToolId id, output))
    rwa [List.map_map] at houtputs
  · obtain ⟨htext, hnocalls, hreasoning⟩ : build.textContent = "" ∧
        build.toolCalls = [] ∧ build.reasoningContent = "" := by
      simpa using hsome
    have huses : content.flatMap (·.toolUses) = [] := by
      rw [hnocalls] at hcalls
      exact List.isEmpty_iff.mp hcalls.symm
    rw [← h.text, ← h.reasoning, htext, hreasoning, huses]
    exact ⟨rfl, rfl⟩

lemma sentBy_messages (h : Gathered build content) (settings : RequestSettings) :
    sentBy (build.messages settings) = sentBy (outputMsgs build) := by
  ext entry
  rw [AssistantBuild.messages]
  split_ifs with hsome
  · simp [sentBy, AssistantBuild.assistantMsg, outputMsgs]
  · have hnocalls : build.toolCalls = [] := by
      simp_all
    have houtputs := h.outputs
    rw [hnocalls, List.length_nil, Nat.le_zero, List.length_eq_zero_iff] at houtputs
    rw [outputMsgs, houtputs]
    rfl

end Gathered

/-! ### The outputs of an assistant message -/

/-- With one output more, the output is sent with its sanitized id. -/
lemma sentBy_outputMsgs {build' : AssistantBuild} (id output : String)
    (h : ∀ known, known ∈ build'.outputs ↔ known ∈ build.outputs ∨ known = (id, output))
    (entry : String × String) :
    entry ∈ sentBy (base ++ outputMsgs build') ↔
      entry ∈ sentBy (base ++ outputMsgs build) ∨ entry = (sanitizeToolId id, output) := by
  have hmsgs (build : AssistantBuild) : entry ∈ sentBy (outputMsgs build) ↔
      ∃ known ∈ build.outputs, (sanitizeToolId known.1, known.2) = entry := by
    simp [sentBy, outputMsgs, Prod.ext_iff]
  rw [sentBy_append, sentBy_append, Set.mem_union, Set.mem_union, hmsgs, hmsgs, or_assoc]
  apply or_congr_right
  simp only [h]
  constructor
  · rintro ⟨known, hknown | rfl, rfl⟩
    · exact .inl ⟨known, hknown, rfl⟩
    · exact .inr rfl
  · rintro (⟨known, hknown, rfl⟩ | rfl)
    · exact ⟨known, .inl hknown, rfl⟩
    · exact ⟨_, .inr rfl, rfl⟩

lemma Tracks.convertUse
    (hfuture : ∀ id, hasFutureOutput id ↔ id ∈ future.map (·.toolUseId))
    (hnew : u.id ∉ uses.map (·.id))
    (h : Tracks uses results future build.toToolTracking (sentBy (base ++ outputMsgs build))) :
    Tracks (uses ++ [u]) results future
      (build.convertUse hasFutureOutput u.id u.name u.input).toToolTracking
      (sentBy (base ++ outputMsgs (build.convertUse hasFutureOutput u.id u.name u.input))) := by
  have hpending := h.pending u.id fun hseen => hnew ((h.seen u.id).mp hseen)
  rw [AssistantBuild.convertUse]
  dsimp only
  split
  next output hsome =>
    refine h.answer (fun id hid => Function.update_of_ne hid _ _) ?_
      (sentBy_outputMsgs u.id output fun known => ?_)
    · rw [firstOutput_append, ← hpending, hsome]
      rfl
    · simp only [AssistantBuild.outputs, List.mem_append, List.mem_singleton]
      exact or_right_comm
  next hnone =>
    split_ifs with hnext
    · exact h.await hnew hnone ((hfuture u.id).mp hnext)
    · refine h.answer (fun _ _ => rfl) ?_
        (sentBy_outputMsgs u.id missingOutput fun known => ?_)
      · rw [firstOutput_append, ← hpending, hnone,
          firstOutput_eq_none_iff.mpr fun hfut => hnext ((hfuture u.id).mpr hfut)]
        rfl
      · simp [AssistantBuild.outputs, or_assoc]

lemma Tracks.foldl_convertAssistantBlock (content : List ContentBlock)
    (hfuture : ∀ id, hasFutureOutput id ↔ id ∈ future.map (·.toolUseId))
    (hnodup : ((uses ++ content.flatMap (·.toolUses)).map (·.id)).Nodup)
    (h : Tracks uses results future build.toToolTracking (sentBy (base ++ outputMsgs build))) :
    let build' := content.foldl (·.convertAssistantBlock hasFutureOutput) build
    Tracks (uses ++ content.flatMap (·.toolUses)) results future build'.toToolTracking
      (sentBy (base ++ outputMsgs build')) := by
  induction content generalizing build uses with
  | nil => simpa using h
  | cons block content ih =>
    rw [List.flatMap_cons, ← List.append_assoc] at hnodup ⊢
    apply ih hnodup
    cases block with
    | toolUse id name input =>
      have hnew : id ∉ uses.map (·.id) := by
        rw [List.map_append, List.map_append] at hnodup
        have hleft := hnodup.of_append_left
        rw [ContentBlock.toolUses, List.map_singleton, ← List.concat_eq_append,
          List.nodup_concat] at hleft
        exact hleft.1
      exact Tracks.convertUse hfuture (show ToolUse.id ⟨id, name, input⟩ ∉ _ from hnew) h
    | _ =>
      rw [ContentBlock.toolUses, List.append_nil]
      · exact h
      all_goals simp

end

/-! ### All messages -/

section

variable {settings : RequestSettings} {st : Conversion} {parts : List SentPart}
  {uses : List ToolUse} {results : List ToolResult}

lemma allowedParts_append (allowReasoning : Bool) (parts more : List SentPart) :
    allowedParts allowReasoning (parts ++ more) =
      allowedParts allowReasoning parts ++ allowedParts allowReasoning more :=
  List.filter_append ..

/-- What holds of a conversion with the parts, tool uses and results so far and the results to
come. -/
structure Converted (settings : RequestSettings) (parts : List SentPart) (uses : List ToolUse)
    (results future : List ToolResult) (st : Conversion) : Prop where
  sends : Sends settings st.apiMessages parts uses
  tracks : (uses.map (·.id)).Nodup →
    Tracks uses results future st.toToolTracking (sentBy st.apiMessages)

/-- Parts of the user may always be sent. -/
lemma allowedParts_user (allowReasoning : Bool) (userParts : List ContentPart) :
    allowedParts allowReasoning (userParts.map (·.sent)) = userParts.map (·.sent) := by
  rw [allowedParts, List.filter_eq_self]
  intro part hpart
  obtain ⟨userPart, -, rfl⟩ := List.mem_map.mp hpart
  cases userPart <;> exact Bool.or_true _

lemma convertAssistant_sends {hasFutureOutput : String → Bool} (content : List ContentBlock)
    (h : Sends settings st.apiMessages parts uses) :
    Sends settings (convertAssistant settings hasFutureOutput st content).apiMessages
      (parts ++ allowedParts settings.allowReasoning
        (assistantParts (!(content.flatMap (·.toolUses)).isEmpty)
          (String.join (content.map blockText)) (String.join (content.map blockReasoning))))
      (uses ++ content.flatMap (·.toolUses)) := by
  have hstart : Gathered (AssistantBuild.start st.toToolTracking) [] := ⟨rfl, rfl, rfl, le_rfl⟩
  exact h.append ((hstart.foldl content).sends settings)

lemma convertAssistant_tracks {hasFutureOutput : String → Bool} {future : List ToolResult}
    (content : List ContentBlock)
    (hfuture : ∀ id, hasFutureOutput id ↔ id ∈ future.map (·.toolUseId))
    (hnodup : ((uses ++ content.flatMap (·.toolUses)).map (·.id)).Nodup)
    (h : Tracks uses results future st.toToolTracking (sentBy st.apiMessages)) :
    Tracks (uses ++ content.flatMap (·.toolUses)) results future
      (convertAssistant settings hasFutureOutput st content).toToolTracking
      (sentBy (convertAssistant settings hasFutureOutput st content).apiMessages) := by
  have hstart : Gathered (AssistantBuild.start st.toToolTracking) [] := ⟨rfl, rfl, rfl, le_rfl⟩
  rw [convertAssistant]
  dsimp only
  rw [sentBy_append, (hstart.foldl content).sentBy_messages, ← sentBy_append]
  apply Tracks.foldl_convertAssistantBlock content hfuture hnodup
  rwa [show outputMsgs (AssistantBuild.start st.toToolTracking) = [] from rfl, List.append_nil]

lemma Converted.convertMessage (before : List Message) (msg : Message) (rest : List Message)
    (h : Converted settings parts uses results (toolResults (msg :: rest)) st) :
    Converted settings (parts ++ allowedParts settings.allowReasoning (messageParts msg))
      (uses ++ msg.toolUses) (results ++ msg.toolResults) (toolResults rest)
      (convertMessage settings (toolResultLastPos (before ++ msg :: rest)) st msg
        before.length) := by
  obtain ⟨hsends, htracks⟩ := h
  rw [toolResults, List.flatMap_cons] at htracks
  cases hrole : msg.role with
  | user =>
    simp only [OpenRouter.convertMessage, messageParts, Message.toolUses, Message.toolResults,
      hrole, List.append_nil, allowedParts_user] at htracks ⊢
    exact ⟨convertUser_sends msg.content hsends,
      fun hnodup => convertUser_tracks msg.content (htracks hnodup)⟩
  | assistant =>
    simp only [OpenRouter.convertMessage, messageParts, Message.toolUses, Message.toolResults,
      hrole, List.append_nil, List.nil_append] at htracks ⊢
    refine ⟨convertAssistant_sends msg.content hsends, fun hnodup => ?_⟩
    refine convertAssistant_tracks msg.content (fun id => ?_) hnodup (htracks ?_)
    · rw [hasFutureOutput_iff, List.drop_append, List.drop_eq_nil_of_le (Nat.le_succ _)]
      simp [toolResults]
    · rw [List.map_append] at hnodup
      exact hnodup.of_append_left

variable (settings) in
theorem convert_converted (messages : List Message) :
    Converted settings (allowedParts settings.allowReasoning (messages.flatMap messageParts))
      (toolUses messages) (toolResults messages) [] (convert settings messages) := by
  have hloop (rest before : List Message) (st : Conversion) (hmessages : messages = before ++ rest)
      (h : Converted settings (allowedParts settings.allowReasoning (before.flatMap messageParts))
        (toolUses before) (toolResults before) (toolResults rest) st) :
      Converted settings (allowedParts settings.allowReasoning (messages.flatMap messageParts))
        (toolUses messages) (toolResults messages) []
        ((rest.zipIdx before.length).foldl (fun st entry =>
          OpenRouter.convertMessage settings (toolResultLastPos messages) st entry.1 entry.2)
          st) := by
    induction rest generalizing before st with
    | nil =>
      rw [List.append_nil] at hmessages
      rwa [hmessages]
    | cons msg rest ih =>
      rw [List.zipIdx_cons, List.foldl_cons]
      have hnext := h.convertMessage before msg rest
      rw [← hmessages, ← allowedParts_append] at hnext
      have hend := ih (before ++ [msg]) _ (by rw [hmessages, List.append_assoc]; rfl)
        (by simpa [toolUses, toolResults] using hnext)
      rwa [List.length_append, List.length_singleton] at hend
  refine hloop messages [] _ rfl ⟨systemMessage_sends settings.system, fun _ => ?_⟩
  refine ⟨fun id => ?_, fun id hid => ?_, fun _ _ => rfl, fun id hid => ?_, fun entry => ?_⟩
  · exact iff_of_false (Finset.notMem_empty id) (List.not_mem_nil)
  · cases Finset.notMem_empty id hid
  · cases Finset.notMem_empty id hid
  · have hnone : entry ∉ sentBy (systemMessage settings.system) := by
      rw [systemMessage]
      split_ifs <;> simp [sentBy]
    exact iff_of_false hnone fun hused => Finset.notMem_empty _ hused.choose_spec.1

end

/-! ### The cache breakpoint -/

section

variable {α β : Type*} {mark : α → Option α} {l : List α} {f : α → β}

/-- What does not see the marks does not see the marked element. -/
lemma map_markFirst (h : ∀ a marked, mark a = some marked → f marked = f a) :
    (markFirst mark l).map f = l.map f := by
  induction l with
  | nil => rfl
  | cons a l ih =>
    rw [markFirst]
    cases hmark : mark a with
    | none => exact congrArg (f a :: ·) ih
    | some marked => exact congrArg (· :: l.map f) (h a marked hmark)

lemma map_markLast (h : ∀ a marked, mark a = some marked → f marked = f a) :
    (markLast mark l).map f = l.map f := by
  rw [markLast, List.map_reverse, map_markFirst h, List.map_reverse, List.reverse_reverse]

end

section

variable {messages : List Message} {β : Type*} {f : Message → List β}

lemma flatMap_markText {γ : Type*} {g : ContentBlock → List γ} {content : List ContentBlock}
    (h : ∀ text cacheControl cacheControl', g (.text text cacheControl) =
      g (.text text cacheControl')) :
    (markLast markText content).flatMap g = content.flatMap g := by
  rw [List.flatMap_def, List.flatMap_def, map_markLast]
  intro block marked hmark
  cases block with
  | text body cacheControl =>
    cases hmark
    exact h _ _ _
  | _ => cases hmark

/-- What a message of the user gives must not see the markers of its texts. -/
lemma flatMap_addCacheBreakpoint
    (h : ∀ content timestamp toolDurationMs,
      f ⟨.user, markLast markText content, timestamp, toolDurationMs⟩ =
        f ⟨.user, content, timestamp, toolDurationMs⟩) :
    (addCacheBreakpoint messages).flatMap f = messages.flatMap f := by
  rw [addCacheBreakpoint, List.flatMap_def, List.flatMap_def, map_markLast]
  intro msg marked hmark
  rw [markMessage] at hmark
  split_ifs at hmark with hmsg
  cases hmark
  obtain ⟨role, content, timestamp, toolDurationMs⟩ := msg
  cases hmsg.1
  exact h content timestamp toolDurationMs

lemma toolUses_addCacheBreakpoint : toolUses (addCacheBreakpoint messages) = toolUses messages :=
  flatMap_addCacheBreakpoint fun _ _ _ => rfl

lemma toolResults_addCacheBreakpoint :
    toolResults (addCacheBreakpoint messages) = toolResults messages :=
  flatMap_addCacheBreakpoint fun _ _ _ => flatMap_markText fun _ _ _ => rfl

lemma messageParts_addCacheBreakpoint :
    (addCacheBreakpoint messages).flatMap messageParts = messages.flatMap messageParts := by
  apply flatMap_addCacheBreakpoint
  intro content timestamp toolDurationMs
  simp only [messageParts, List.map_flatMap]
  exact flatMap_markText fun _ _ _ => rfl

end

/-! ### The request -/

section

variable {settings : RequestSettings} {walk : Finset String → List String}
  {messages : List Message} {u : ToolUse}

lemma mem_realOutputs {msgs : List ApiMessage} {entry : String × String} :
    entry ∈ msgs.flatMap (·.realOutputs) ↔ entry ∈ sentBy msgs ∧ entry.2 ≠ missingOutput := by
  rw [List.mem_flatMap]
  constructor
  · rintro ⟨msg, hmsg, hentry⟩
    cases msg with
    | tool id content =>
      rw [ApiMessage.realOutputs] at hentry
      split_ifs at hentry with hcontent
      · cases hentry
      · cases List.mem_singleton.mp hentry
        exact ⟨hmsg, hcontent⟩
    | _ => cases hentry
  · rintro ⟨hsent, hreal⟩
    refine ⟨_, hsent, ?_⟩
    rw [ApiMessage.realOutputs, if_neg hreal]
    exact List.mem_singleton_self _

/-- The outputs of a conversion are those of the transcript for its tool uses. -/
lemma mem_sentBy_convert (hnodup : DistinctUses messages) {entry : String × String} :
    entry ∈ sentBy (convert settings messages).apiMessages ↔ ∃ u ∈ toolUses messages,
      entry = (sanitizeToolId u.id, expectedOutput messages u.id) := by
  have htracks := (convert_converted settings messages).tracks hnodup
  rw [htracks.sent, List.append_nil]
  constructor
  · rintro ⟨id, hused, rfl⟩
    obtain ⟨u, hu, rfl⟩ := List.mem_map.mp ((htracks.seen id).mp (htracks.used_seen id hused))
    exact ⟨u, hu, rfl⟩
  · rintro ⟨u, hu, rfl⟩
    refine ⟨u.id, ?_, rfl⟩
    by_contra hused
    have hseen := (htracks.seen u.id).mpr (List.mem_map_of_mem hu)
    cases (htracks.waits u.id hseen hused).2

/-- Where a tool use is alone, the output for it is sent. -/
lemma sentOutput_of_alone (hnodup : DistinctUses messages) (hu : u ∈ toolUses messages)
    (halone : Alone messages u) :
    sentOutput (convert settings messages).apiMessages (sanitizeToolId u.id) =
      expectedOutput messages u.id := by
  rw [sentOutput]
  cases hfind : ((convert settings messages).apiMessages.flatMap (·.realOutputs)).find?
      (·.1 = sanitizeToolId u.id) with
  | none =>
    have hmissing := List.find?_eq_none.mp hfind
      (sanitizeToolId u.id, expectedOutput messages u.id)
    rw [mem_realOutputs, mem_sentBy_convert hnodup] at hmissing
    by_contra hne
    exact hmissing ⟨⟨u, hu, rfl⟩, Ne.symm hne⟩ (decide_eq_true rfl)
  | some entry =>
    have hentry := List.mem_of_find?_eq_some hfind
    have hid : entry.1 = sanitizeToolId u.id := by simpa using List.find?_some hfind
    rw [mem_realOutputs, mem_sentBy_convert hnodup] at hentry
    obtain ⟨⟨v, hv, rfl⟩, -⟩ := hentry
    rw [Option.map_some, Option.getD_some, halone v hv hid]

/-- The outputs behind the calls show no parts. -/
lemma parts_answered (outputs : String → String) (msgs : List ApiMessage) :
    (msgs.flatMap (answered outputs)).flatMap (·.parts) = msgs.flatMap (·.parts) := by
  rw [List.flatMap_assoc]
  apply List.flatMap_congr
  intro msg _
  cases msg with
  | tool id content => rfl
  | _ =>
    rw [answered, withOutputs, List.flatMap_cons]
    · simp [ApiMessage.parts]
    all_goals
      intro id content h
      cases h

/-- The passes over a conversion make a request. -/
lemma pairs_reorder (hnodup : DistinctUses messages) :
    Pairs settings.allowReasoning messages (reorder (appendMissing walk
      (normalize settings.allowReasoning (convert settings messages).apiMessages))) := by
  obtain ⟨hparts, hcalls⟩ := (convert_converted settings messages).sends
  rw [reorder_passes, ← List.flatMap_map]
  constructor
  · rw [readAnswers_answered]
    refine ⟨_, rfl, ?_⟩
    simp only [List.flatMap_map, calls_fillReasoning]
    rw [hcalls, List.map_map, List.forall₂_map_right_iff, List.forall₂_same]
    exact fun u hu => ⟨rfl, sentOutput_of_alone hnodup hu⟩
  · rw [parts_answered, List.flatMap_map, hparts]

lemma Pairs.of_addCacheBreakpoint {allowReasoning : Bool} {request : List ApiMessage}
    (h : Pairs allowReasoning (addCacheBreakpoint messages) request) :
    Pairs allowReasoning messages request := by
  have hexpected : expectedOutput (addCacheBreakpoint messages) = expectedOutput messages := by
    funext id
    rw [expectedOutput, toolResults_addCacheBreakpoint, expectedOutput]
  have halone : Alone (addCacheBreakpoint messages) = Alone messages := by
    funext u
    rw [Alone, toolUses_addCacheBreakpoint, Alone]
  obtain ⟨answers, parts⟩ := h
  rw [toolUses_addCacheBreakpoint, hexpected, halone] at answers
  rw [messageParts_addCacheBreakpoint] at parts
  exact ⟨answers, parts⟩

theorem apiMessages_pairs (settings : RequestSettings) (walk : Finset String → List String)
    (messages : List Message) (hnodup : DistinctUses messages) :
    Pairs settings.allowReasoning messages (apiMessages settings walk messages) := by
  rw [apiMessages]
  split_ifs
  · apply Pairs.of_addCacheBreakpoint
    apply pairs_reorder
    rwa [DistinctUses, toolUses_addCacheBreakpoint]
  · exact pairs_reorder hnodup

end

/-- Two calls with one result, which comes before them. -/
theorem apiMessages_pairs_earlyResult :
    let settings : RequestSettings := ⟨none, false, false, true, true, "be brief"⟩
    let messages : List Message := [
      ⟨.user, [.text "look" none, .toolResult "call.1" "done" none], none, none⟩,
      ⟨.assistant, [.reasoning "why", .toolUse "call.1" "read" "\x7b\x7d",
        .toolUse "call.2" "read" "\x7b\x7d"], none, none⟩]
    Pairs settings.allowReasoning messages (apiMessages settings (fun _ => []) messages) := by
  apply apiMessages_pairs
  unfold DistinctUses
  decide

/-- With thinking switched off, a reasoning of the transcript is not sent. -/
theorem not_apiMessages_pairs : ¬ ∀ settings walk messages, DistinctUses messages →
    readAnswers [] (apiMessages settings walk messages) = some ((toolUses messages).map fun u =>
      (toolCall u, expectedOutput messages u.id)) ∧
    (apiMessages settings walk messages).flatMap (·.parts) = messages.flatMap messageParts := by
  intro h
  have hparts := (h ⟨some false, false, false, false, false, ""⟩ (fun _ => [])
    [⟨.assistant, [.reasoning "why", .text "done" none], none, none⟩] List.nodup_nil).2
  exact absurd hparts (by decide +kernel)

end Jcode.OpenRouter
