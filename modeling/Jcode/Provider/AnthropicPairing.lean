import Mathlib.Data.List.Flatten
import Jcode.Provider.AnthropicRequest

/-!
# Calls and results in an Anthropic request

Which transcripts give a request in which the roles alternate and every call has its result in the
next message, and that nothing else than results for open calls is added.
-/

namespace Jcode.Anthropic

/-! ### Transcripts -/

def closestAssistant (earlier : List Message) : Option Message :=
  earlier.reverse.find? fun msg => msg.role = .assistant

/-- Every result answers a call of the closest assistant message before it, and no call has two. -/
structure AnsweredInPlace (messages : List Message) : Prop where
  distinct : ((toolUseIds (blocksOf messages)).map sanitizeToolId).Nodup
  inUserMessage : ∀ msg ∈ messages, msg.role = .assistant → toolResultIds msg.content = []
  answers : ∀ earlier msg later, messages = earlier ++ msg :: later →
    ∀ id ∈ toolResultIds msg.content,
      ∃ a, closestAssistant earlier = some a ∧ id ∈ toolUseIds a.content
  once : (toolResultIds (blocksOf messages)).Nodup

/-- The same from an assistant message on, whose calls are `calls`. -/
def AnswersFrom : List String → List Message → Prop
  | _, [] => True
  | calls, msg :: messages =>
    match msg.role with
    | .user => (∀ id ∈ toolResultIds msg.content, id ∈ calls) ∧ AnswersFrom calls messages
    | .assistant => toolResultIds msg.content = [] ∧ AnswersFrom (toolUseIds msg.content) messages

/-! ### Requests -/

namespace ApiContentBlock

def toolUseId? : ApiContentBlock → Option String
  | toolUse id _ _ _ => some id
  | _ => none

def toolResultId? : ApiContentBlock → Option String
  | toolResult toolUseId _ _ => some toolUseId
  | _ => none

end ApiContentBlock

namespace ApiMessage

variable (msg : ApiMessage)

def useIds : List String := msg.content.filterMap (·.toolUseId?)

def resultIds : List String := msg.content.filterMap (·.toolResultId?)

end ApiMessage

/-- What the API asks of the messages of a request. -/
structure ValidRequest (request : List ApiMessage) : Prop where
  alternate : request.IsChain fun a b => a.role ≠ b.role
  answered : ∀ earlier msg later, request = earlier ++ msg :: later → msg.role = .assistant →
    ∀ id ∈ msg.useIds, ∃ next, later.head? = some next ∧ next.resultIds.count id = 1
  answers : ∀ earlier msg later, request = earlier ++ msg :: later →
    ∀ id ∈ msg.resultIds, ∃ previous, earlier.getLast? = some previous ∧ id ∈ previous.useIds

/-- A block of the transcript on its own. Reasoning and compaction items are not sent. -/
def apiPart (isOauth : Bool) : ContentBlock → Option ApiContentBlock
  | .text text _ => some (.text text none)
  | .toolUse id name input => some (.toolUse (sanitizeToolId id)
      (if isOauth then mapToolNameForOauth name else name) (callArguments input) none)
  | .toolResult toolUseId content isError =>
    some (.toolResult (sanitizeToolId toolUseId) (.text content) (isError.getD false))
  | .image mediaType data => some (.image mediaType data)
  | .reasoning _ | .openAICompaction _ => none

/-- A tool result apart from the images that it has taken up. -/
def ApiContentBlock.parts : ApiContentBlock → List ApiContentBlock
  | .toolResult toolUseId (.blocks blocks) isError => blocks.map fun
    | .text content => .toolResult toolUseId (.text content) isError
    | .image mediaType data => .image mediaType data
  | block => [block]

/-! ### Blocks -/

section

variable {isOauth : Bool} {blocks : List ContentBlock} {result : List ApiContentBlock}

lemma eq_dropLast_append {α : Type} {l : List α} {a : α} (h : l.getLast? = some a) :
    l = l.dropLast ++ [a] := (List.dropLast_append_getLast? a h).symm

lemma parts_addImage (toolUseId : String) (content : ToolResultContent) (isError : Bool)
    (mediaType data : String) :
    (ApiContentBlock.toolResult toolUseId (content.addImage mediaType data) isError).parts =
      (ApiContentBlock.toolResult toolUseId content isError).parts ++ [.image mediaType data] := by
  cases content with
  | text content => rfl
  | blocks content => simp [ToolResultContent.addImage, ApiContentBlock.parts]

lemma parts_pushImage (mediaType data : String) :
    (pushImage result mediaType data).flatMap ApiContentBlock.parts =
      result.flatMap ApiContentBlock.parts ++ [.image mediaType data] := by
  rw [pushImage]
  split
  · rename_i toolUseId content isError hlast
    rw [List.flatMap_append, List.flatMap_singleton, parts_addImage, ← List.append_assoc]
    conv_rhs => rw [eq_dropLast_append hlast]
    rw [List.flatMap_append, List.flatMap_singleton]
  · rw [List.flatMap_append]
    rfl

lemma parts_formatContentBlock (block : ContentBlock) :
    (formatContentBlock isOauth result block).flatMap ApiContentBlock.parts =
      result.flatMap ApiContentBlock.parts ++ (apiPart isOauth block).toList := by
  cases block with
  | image mediaType data => exact parts_pushImage mediaType data
  | reasoning | openAICompaction => exact (List.append_nil _).symm
  | text | toolUse | toolResult => exact List.flatMap_append

lemma parts_formatContentBlocks (isOauth : Bool) (blocks : List ContentBlock) :
    (formatContentBlocks isOauth blocks).flatMap ApiContentBlock.parts =
      blocks.filterMap (apiPart isOauth) := by
  suffices h : ∀ result, (blocks.foldl (formatContentBlock isOauth) result).flatMap
      ApiContentBlock.parts = result.flatMap ApiContentBlock.parts ++
        blocks.filterMap (apiPart isOauth) by
    exact h []
  intro result
  induction blocks generalizing result with
  | nil => exact (List.append_nil _).symm
  | cons block blocks ih =>
    rw [List.foldl_cons, ih, parts_formatContentBlock, List.append_assoc]
    cases h : apiPart isOauth block <;> simp [h]

/-- Ids are not changed by the images that a result takes up. -/
lemma filterMap_pushImage {f : ApiContentBlock → Option String}
    (himage : ∀ mediaType data, f (.image mediaType data) = none)
    (hresult : ∀ id content content' isError,
      f (.toolResult id content isError) = f (.toolResult id content' isError))
    (mediaType data : String) :
    (pushImage result mediaType data).filterMap f = result.filterMap f := by
  rw [pushImage]
  split
  · rename_i toolUseId content isError hlast
    conv_rhs => rw [eq_dropLast_append hlast]
    simp only [List.filterMap_append, List.filterMap_cons, List.filterMap_nil,
      hresult toolUseId (content.addImage mediaType data) content]
  · simp [himage]

lemma toolUseIds_formatContentBlock (block : ContentBlock) :
    (formatContentBlock isOauth result block).filterMap (·.toolUseId?) =
      result.filterMap (·.toolUseId?) ++ (block.toolUseId?.map sanitizeToolId).toList := by
  cases block with
  | image mediaType data =>
    exact (filterMap_pushImage (fun _ _ => rfl) (fun _ _ _ _ => rfl) _ _).trans
      (List.append_nil _).symm
  | reasoning | openAICompaction => exact (List.append_nil _).symm
  | text | toolUse | toolResult => exact List.filterMap_append

lemma toolResultIds_formatContentBlock (block : ContentBlock) :
    (formatContentBlock isOauth result block).filterMap (·.toolResultId?) =
      result.filterMap (·.toolResultId?) ++ (block.toolResultId?.map sanitizeToolId).toList := by
  cases block with
  | image mediaType data =>
    exact (filterMap_pushImage (fun _ _ => rfl) (fun _ _ _ _ => rfl) _ _).trans
      (List.append_nil _).symm
  | reasoning | openAICompaction => exact (List.append_nil _).symm
  | text | toolUse | toolResult => exact List.filterMap_append

/-- What each block adds to a list of ids is what all of them add. -/
lemma filterMap_formatContentBlocks {f : ApiContentBlock → Option String}
    {g : ContentBlock → Option String}
    (hblock : ∀ result block, (formatContentBlock isOauth result block).filterMap f =
      result.filterMap f ++ ((g block).map sanitizeToolId).toList)
    (blocks : List ContentBlock) :
    (formatContentBlocks isOauth blocks).filterMap f = (blocks.filterMap g).map sanitizeToolId := by
  suffices h : ∀ result, (blocks.foldl (formatContentBlock isOauth) result).filterMap f =
      result.filterMap f ++ (blocks.filterMap g).map sanitizeToolId by
    exact h []
  intro result
  induction blocks generalizing result with
  | nil => exact (List.append_nil _).symm
  | cons block blocks ih =>
    rw [List.foldl_cons, ih, hblock, List.append_assoc]
    cases h : g block <;> simp [h]

/-- The calls of formatted blocks. -/
lemma toolUseIds_formatContentBlocks (isOauth : Bool) (blocks : List ContentBlock) :
    (formatContentBlocks isOauth blocks).filterMap (·.toolUseId?) =
      (toolUseIds blocks).map sanitizeToolId :=
  filterMap_formatContentBlocks (fun _ => toolUseIds_formatContentBlock) blocks

/-- The results of formatted blocks. -/
lemma toolResultIds_formatContentBlocks (isOauth : Bool) (blocks : List ContentBlock) :
    (formatContentBlocks isOauth blocks).filterMap (·.toolResultId?) =
      (toolResultIds blocks).map sanitizeToolId :=
  filterMap_formatContentBlocks (fun _ => toolResultIds_formatContentBlock) blocks

end

/-! ### Merged messages -/

section

variable {calls : List String} {msg first : ApiMessage} {request : List ApiMessage}

/-- The results up to the next assistant message. -/
def resultsUntilAssistant (request : List ApiMessage) : List String :=
  (request.takeWhile fun msg => msg.role = .user).flatMap ApiMessage.resultIds

/-- Messages that are paired once they are merged; `calls` are those of the last assistant. -/
def PairedMessages : List String → List ApiMessage → Prop
  | _, [] => True
  | calls, msg :: request =>
    match msg.role with
    | .user => (∀ id ∈ msg.resultIds, id ∈ calls) ∧ PairedMessages calls request
    | .assistant => msg.resultIds = [] ∧ (∀ id ∈ msg.useIds, id ∈ resultsUntilAssistant request) ∧
        PairedMessages msg.useIds request

/-- Each message answers the calls of the one before it, whose calls are `calls`. -/
def PairedRequest : List String → List ApiMessage → Prop
  | _, [] => True
  | calls, msg :: request =>
    (∀ id ∈ msg.resultIds, id ∈ calls) ∧
      (msg.role = .assistant → ∀ id ∈ msg.useIds, ∃ next, request.head? = some next ∧
        id ∈ next.resultIds) ∧
      PairedRequest msg.useIds request

lemma role_of_ne_user {role : Role} (h : role ≠ .user) : role = .assistant := by
  cases role with
  | user => exact absurd rfl h
  | assistant => rfl

lemma role_of_ne_assistant {role : Role} (h : role ≠ .assistant) : role = .user := by
  cases role with
  | user => rfl
  | assistant => exact absurd rfl h

lemma role_join {a b : ApiMessage} : (mergeMessages.join a b).role = a.role := rfl

lemma useIds_join (a b : ApiMessage) :
    (mergeMessages.join a b).useIds = a.useIds ++ b.useIds := List.filterMap_append

lemma resultIds_join (a b : ApiMessage) :
    (mergeMessages.join a b).resultIds = a.resultIds ++ b.resultIds := List.filterMap_append

lemma pairedMessages_user (hrole : msg.role = .user) : PairedMessages calls (msg :: request) ↔
    (∀ id ∈ msg.resultIds, id ∈ calls) ∧ PairedMessages calls request := by
  rw [PairedMessages, hrole]

lemma pairedMessages_assistant (hrole : msg.role = .assistant) :
    PairedMessages calls (msg :: request) ↔ msg.resultIds = [] ∧
      (∀ id ∈ msg.useIds, id ∈ resultsUntilAssistant request) ∧
      PairedMessages msg.useIds request := by
  rw [PairedMessages, hrole]

lemma resultsUntilAssistant_user (hrole : msg.role = .user) :
    resultsUntilAssistant (msg :: request) = msg.resultIds ++ resultsUntilAssistant request := by
  rw [resultsUntilAssistant, List.takeWhile_cons_of_pos (by simpa using hrole), List.flatMap_cons]
  rfl

lemma resultsUntilAssistant_assistant (hrole : msg.role = .assistant) :
    resultsUntilAssistant (msg :: request) = [] := by
  rw [resultsUntilAssistant, List.takeWhile_cons_of_neg (by simp [hrole])]
  rfl

/-- The first merged message of a user run has the results up to the next assistant message. -/
lemma exists_head_mergeFrom (hrole : msg.role = .user) (request : List ApiMessage) :
    ∃ next, (mergeMessages.mergeFrom msg request).head? = some next ∧
      next.resultIds = msg.resultIds ++ resultsUntilAssistant request := by
  rw [RunJoin.mergeFrom_eq]
  refine ⟨_, rfl, ?_⟩
  rw [RunJoin.content_foldl resultIds_join, resultsUntilAssistant]
  simp only [mergeMessages, hrole, eq_comm (a := Role.user)]

lemma eq_nil_of_assistant_next (hrole : msg.role = .assistant)
    (h : ∀ id ∈ first.useIds, id ∈ resultsUntilAssistant (msg :: request)) :
    first.useIds = [] := by
  rw [resultsUntilAssistant_assistant hrole] at h
  exact List.eq_nil_iff_forall_not_mem.mpr fun id hid => List.not_mem_nil (h id hid)

lemma pairedRequest_mergeFrom (h : PairedMessages calls (first :: request)) :
    PairedRequest calls (mergeMessages.mergeFrom first request) := by
  induction request generalizing calls first with
  | nil =>
    cases hfirst : first.role with
    | user =>
      rw [pairedMessages_user hfirst] at h
      refine ⟨h.1, fun hrole => ?_, trivial⟩
      cases hfirst.symm.trans hrole
    | assistant =>
      obtain ⟨hresults, huses, -⟩ := (pairedMessages_assistant hfirst).mp h
      refine ⟨fun id hid => ?_, fun _ id hid => ?_, trivial⟩
      · rw [hresults] at hid
        cases hid
      · cases huses id hid
  | cons msg request ih =>
    rw [RunJoin.mergeFrom]
    cases hfirst : first.role with
    | user =>
      obtain ⟨hresults, hrest⟩ := (pairedMessages_user hfirst).mp h
      split_ifs with hkey
      · have hmsg : msg.role = .user := hkey.symm.trans hfirst
        obtain ⟨hmore, hrest⟩ := (pairedMessages_user hmsg).mp hrest
        apply ih
        rw [pairedMessages_user (role_join.trans hfirst), resultIds_join]
        exact ⟨fun id hid => (List.mem_append.mp hid).elim (hresults id) (hmore id), hrest⟩
      · have hmsg := role_of_ne_user fun hmsg => hkey (hfirst.trans hmsg.symm)
        refine ⟨hresults, fun hrole => ?_, ih ?_⟩
        · cases hfirst.symm.trans hrole
        · exact (pairedMessages_assistant hmsg).mpr ((pairedMessages_assistant hmsg).mp hrest)
    | assistant =>
      obtain ⟨hresults, huses, hrest⟩ := (pairedMessages_assistant hfirst).mp h
      split_ifs with hkey
      · have hmsg : msg.role = .assistant := hkey.symm.trans hfirst
        have hnone := eq_nil_of_assistant_next hmsg huses
        obtain ⟨hmore, hmsgUses, hrest⟩ := (pairedMessages_assistant hmsg).mp hrest
        apply ih
        rw [pairedMessages_assistant (role_join.trans hfirst), resultIds_join, useIds_join, hnone,
          hresults, hmore]
        exact ⟨rfl, hmsgUses, hrest⟩
      · have hmsg := role_of_ne_assistant fun hmsg => hkey (hfirst.trans hmsg.symm)
        refine ⟨?_, fun _ id hid => ?_, ih hrest⟩
        · rw [hresults]
          exact fun id hid => absurd hid List.not_mem_nil
        · obtain ⟨next, hnext, hnextResults⟩ := exists_head_mergeFrom hmsg request
          refine ⟨next, hnext, ?_⟩
          rw [hnextResults, ← resultsUntilAssistant_user hmsg]
          exact huses id hid

lemma pairedRequest_append {earlier later : List ApiMessage}
    (h : PairedRequest calls (earlier ++ later)) :
    PairedRequest ((earlier.getLast?.map ApiMessage.useIds).getD calls) later := by
  induction earlier generalizing calls with
  | nil => exact h
  | cons msg earlier ih =>
    have hrest := ih h.2.2
    cases earlier with
    | nil => exact hrest
    | cons next earlier =>
      rw [List.getLast?_cons_cons]
      cases hlast : (next :: earlier).getLast? with
      | none => cases List.getLast?_eq_none_iff.mp hlast
      | some last =>
        rw [hlast] at hrest
        exact hrest

theorem validRequest_of_paired (hchain : request.IsChain fun a b => a.role ≠ b.role)
    (hnodup : (request.flatMap ApiMessage.resultIds).Nodup) (h : PairedRequest [] request) :
    ValidRequest request where
  alternate := hchain
  answered earlier msg later hsplit hrole id hid := by
    rw [hsplit] at h
    obtain ⟨-, huses, -⟩ := pairedRequest_append h
    obtain ⟨next, hnext, hmem⟩ := huses hrole id hid
    refine ⟨next, hnext, List.count_eq_one_of_mem ?_ hmem⟩
    have hmember : next ∈ request := by
      rw [hsplit]
      exact List.mem_append_right _ (List.mem_cons_of_mem _ (List.mem_of_head? hnext))
    exact (List.nodup_flatMap.mp hnodup).1 next hmember
  answers earlier msg later hsplit id hid := by
    rw [hsplit] at h
    have hcall := (pairedRequest_append h).1 id hid
    cases hlast : earlier.getLast? with
    | none =>
      rw [hlast] at hcall
      cases hcall
    | some previous =>
      rw [hlast] at hcall
      exact ⟨previous, rfl, hcall⟩

end

/-! ### From the transcript to the request -/

section

variable {isOauth : Bool} {dangling : Finset String} {calls : List String} {msg : Message}
  {messages : List Message}

lemma resultIds_contentMessage (role : Role) (content : List ApiContentBlock) :
    (contentMessage role content).flatMap ApiMessage.resultIds =
      content.filterMap (·.toolResultId?) := by
  rw [contentMessage]
  split_ifs with hempty
  · rw [List.isEmpty_iff.mp hempty]
    rfl
  · exact List.append_nil _

/-- The calls of a message that get a result with it. -/
def addedIds (dangling : Finset String) (msg : Message) : List String :=
  match msg.role with
  | .user => []
  | .assistant => (toolUseIds msg.content).filter (· ∈ dangling)

lemma toolResultIds_syntheticResults : (syntheticResults dangling msg).filterMap (·.toolResultId?) =
    (addedIds dangling msg).map sanitizeToolId := by
  rw [syntheticResults, addedIds]
  cases msg.role with
  | user => rfl
  | assistant =>
    rw [List.filterMap_map]
    exact congrFun (List.filterMap_eq_map (f := sanitizeToolId)) _

lemma resultIds_formatMessage :
    (formatMessage isOauth dangling msg).flatMap ApiMessage.resultIds =
      (toolResultIds msg.content ++ addedIds dangling msg).map sanitizeToolId := by
  rw [formatMessage, List.flatMap_append, resultIds_contentMessage, resultIds_contentMessage,
    toolResultIds_formatContentBlocks, toolResultIds_syntheticResults, List.map_append]

lemma resultIds_formatMessages (messages : List Message) :
    (formatMessages isOauth messages).flatMap ApiMessage.resultIds =
      (messages.flatMap fun msg =>
        toolResultIds msg.content ++ addedIds (danglingIds messages) msg).map sanitizeToolId := by
  rw [formatMessages, RunJoin.flatMap_merge resultIds_join, List.flatMap_assoc, List.map_flatMap]
  simp only [resultIds_formatMessage]

lemma addedIds_sublist : (addedIds dangling msg).Sublist (toolUseIds msg.content) := by
  rw [addedIds]
  split
  · exact List.nil_sublist _
  · exact List.filter_sublist

lemma mem_dangling_of_addedIds {id : String} (h : id ∈ addedIds dangling msg) : id ∈ dangling := by
  rw [addedIds] at h
  split at h
  · cases h
  · exact of_decide_eq_true (List.mem_filter.mp h).2

lemma toolUseIds_blocksOf (messages : List Message) :
    toolUseIds (blocksOf messages) = messages.flatMap fun msg => toolUseIds msg.content := by
  rw [toolUseIds, blocksOf, List.filterMap_flatMap]
  rfl

lemma toolResultIds_blocksOf (messages : List Message) :
    toolResultIds (blocksOf messages) = messages.flatMap fun msg => toolResultIds msg.content := by
  rw [toolResultIds, blocksOf, List.filterMap_flatMap]
  rfl

lemma added_sublist : (messages.flatMap (addedIds dangling)).Sublist
    (toolUseIds (blocksOf messages)) := by
  rw [toolUseIds_blocksOf]
  exact List.Sublist.flatMap_right messages fun _ _ => addedIds_sublist

/-- No id has two results. -/
lemma nodup_resultIds (hdistinct : ((toolUseIds (blocksOf messages)).map sanitizeToolId).Nodup)
    (honce : (toolResultIds (blocksOf messages)).Nodup)
    (hcalls : toolResultIds (blocksOf messages) ⊆ toolUseIds (blocksOf messages)) :
    ((formatMessages isOauth messages).flatMap ApiMessage.resultIds).Nodup := by
  have hperm := List.flatMap_append_perm messages (fun msg => toolResultIds msg.content)
    (addedIds (danglingIds messages))
  have hadded : (messages.flatMap (addedIds (danglingIds messages))).Sublist
      (toolUseIds (blocksOf messages)) := added_sublist
  have hdisjoint : List.Disjoint (toolResultIds (blocksOf messages))
      (messages.flatMap (addedIds (danglingIds messages))) := by
    intro id hresult hadded
    obtain ⟨msg, -, hid⟩ := List.mem_flatMap.mp hadded
    exact (mem_danglingIds.mp (mem_dangling_of_addedIds hid)).2 hresult
  rw [← toolResultIds_blocksOf] at hperm
  rw [resultIds_formatMessages, (hperm.map sanitizeToolId).nodup_iff.symm]
  apply List.Nodup.map_on
  · intro id hid id' hid' heq
    have hsub := List.append_subset.mpr ⟨hcalls, hadded.subset⟩
    exact List.inj_on_of_nodup_map hdistinct (hsub hid) (hsub hid') heq
  · exact honce.append (hadded.nodup (List.Nodup.of_map _ hdistinct)) hdisjoint

/-! ### Transcripts that are answered in place -/

lemma answersFrom_user (hrole : msg.role = .user) : AnswersFrom calls (msg :: messages) ↔
    (∀ id ∈ toolResultIds msg.content, id ∈ calls) ∧ AnswersFrom calls messages := by
  rw [AnswersFrom, hrole]

lemma answersFrom_assistant (hrole : msg.role = .assistant) : AnswersFrom calls (msg :: messages) ↔
    toolResultIds msg.content = [] ∧ AnswersFrom (toolUseIds msg.content) messages := by
  rw [AnswersFrom, hrole]

/-- The calls of the closest assistant message. -/
def closestCalls (earlier : List Message) : List String :=
  ((closestAssistant earlier).map fun msg => toolUseIds msg.content).getD []

lemma closestAssistant_concat (earlier : List Message) :
    closestAssistant (earlier ++ [msg]) =
      if msg.role = .assistant then some msg else closestAssistant earlier := by
  rw [closestAssistant, List.reverse_concat, List.find?_cons]
  split_ifs with hrole <;> simp [hrole, closestAssistant]

lemma mem_closestCalls {earlier : List Message} {id : String} : id ∈ closestCalls earlier ↔
    ∃ a, closestAssistant earlier = some a ∧ id ∈ toolUseIds a.content := by
  rw [closestCalls]
  cases closestAssistant earlier <;> simp

lemma closestCalls_concat (earlier : List Message) : closestCalls (earlier ++ [msg]) =
    match msg.role with
    | .user => closestCalls earlier
    | .assistant => toolUseIds msg.content := by
  rw [closestCalls, closestAssistant_concat]
  cases msg.role <;> rfl

/-- The places in a list are its head and the places in its tail. -/
lemma forall_split_cons {α : Type} {a : α} {l : List α} {P : List α → α → Prop} :
    (∀ before b later, a :: l = before ++ b :: later → P before b) ↔
      P [] a ∧ ∀ before b later, l = before ++ b :: later → P (a :: before) b := by
  constructor
  · intro h
    exact ⟨h [] a l rfl, fun before b later hl => h (a :: before) b later (congrArg (a :: ·) hl)⟩
  · rintro ⟨hhead, htail⟩ before b later hl
    cases before with
    | nil =>
      cases hl
      exact hhead
    | cons c before =>
      obtain ⟨rfl, hrest⟩ := List.cons.inj hl
      exact htail before b later hrest

/-- The results of a message answer the closest calls before it. -/
def AnswersClosest (before : List Message) (msg : Message) : Prop :=
  ∀ id ∈ toolResultIds msg.content, id ∈ closestCalls before

/-- The two ways to say that results answer the closest calls. -/
lemma answersFrom_iff (earlier : List Message) : AnswersFrom (closestCalls earlier) messages ↔
    (∀ msg ∈ messages, msg.role = .assistant → toolResultIds msg.content = []) ∧
      ∀ before msg later, messages = before ++ msg :: later →
        AnswersClosest (earlier ++ before) msg := by
  induction messages generalizing earlier with
  | nil => simp [AnswersFrom]
  | cons msg messages ih =>
    have ih := ih (earlier ++ [msg])
    simp only [closestCalls_concat, List.append_assoc, List.singleton_append] at ih
    have hsplits := forall_split_cons (a := msg) (l := messages)
      (P := fun before => AnswersClosest (earlier ++ before))
    rw [hsplits, List.forall_mem_cons, List.append_nil]
    cases hrole : msg.role with
    | user =>
      rw [hrole] at ih
      rw [answersFrom_user hrole, ih]
      constructor
      · rintro ⟨hmsg, hroles, hrest⟩
        exact ⟨⟨fun h => (nomatch h), hroles⟩, hmsg, hrest⟩
      · rintro ⟨⟨-, hroles⟩, hmsg, hrest⟩
        exact ⟨hmsg, hroles, hrest⟩
    | assistant =>
      rw [hrole] at ih
      rw [answersFrom_assistant hrole, ih]
      constructor
      · rintro ⟨hmsg, hroles, hrest⟩
        refine ⟨⟨fun _ => hmsg, hroles⟩, fun id hid => ?_, hrest⟩
        rw [hmsg] at hid
        cases hid
      · rintro ⟨⟨hmsg, hroles⟩, -, hrest⟩
        exact ⟨hmsg rfl, hroles, hrest⟩

/-- Results that answer the closest calls, each call once. -/
lemma answeredInPlace_of (hdistinct : ((toolUseIds (blocksOf messages)).map sanitizeToolId).Nodup)
    (h : AnswersFrom [] messages) (honce : (toolResultIds (blocksOf messages)).Nodup) :
    AnsweredInPlace messages :=
  have ⟨hroles, hsplits⟩ := (answersFrom_iff []).mp h
  { distinct := hdistinct
    inUserMessage := hroles
    answers := fun before msg later hsplit id hid =>
      mem_closestCalls.mp (hsplits before msg later hsplit id hid)
    once := honce }

lemma answersFrom_of_inPlace (h : AnsweredInPlace messages) : AnswersFrom [] messages := by
  refine (answersFrom_iff []).mpr ⟨h.inUserMessage, fun before msg later hsplit id hid => ?_⟩
  exact mem_closestCalls.mpr (h.answers before msg later hsplit id hid)

lemma mem_of_answersFrom (h : AnswersFrom calls messages) {id : String}
    (hid : id ∈ toolResultIds (blocksOf messages)) :
    id ∈ calls ∨ id ∈ toolUseIds (blocksOf messages) := by
  induction messages generalizing calls with
  | nil => cases hid
  | cons msg messages ih =>
    rw [toolResultIds_blocksOf, List.flatMap_cons, List.mem_append, ← toolResultIds_blocksOf] at hid
    rw [toolUseIds_blocksOf, List.flatMap_cons, List.mem_append, ← toolUseIds_blocksOf]
    cases hrole : msg.role with
    | user =>
      obtain ⟨hmsg, hrest⟩ := (answersFrom_user hrole).mp h
      rcases hid with hid | hid
      · exact .inl (hmsg id hid)
      · exact (ih hrest hid).imp_right .inr
    | assistant =>
      obtain ⟨hmsg, hrest⟩ := (answersFrom_assistant hrole).mp h
      rcases hid with hid | hid
      · rw [hmsg] at hid
        cases hid
      · exact .inr (ih hrest hid)

/-- The results up to the next assistant message of the transcript. -/
def resultsAhead (messages : List Message) : List String :=
  toolResultIds (blocksOf (messages.takeWhile fun msg => msg.role = .user))

/-- A call that has its result later has it before the next assistant message. -/
lemma mem_resultsAhead (h : AnswersFrom calls messages)
    (hnodup : (calls ++ toolUseIds (blocksOf messages)).Nodup) {id : String} (hcall : id ∈ calls)
    (hid : id ∈ toolResultIds (blocksOf messages)) : id ∈ resultsAhead messages := by
  induction messages with
  | nil => cases hid
  | cons msg messages ih =>
    rw [toolUseIds_blocksOf, List.flatMap_cons, ← toolUseIds_blocksOf] at hnodup
    cases hrole : msg.role with
    | user =>
      obtain ⟨-, hrest⟩ := (answersFrom_user hrole).mp h
      rw [resultsAhead, List.takeWhile_cons_of_pos (by simpa using hrole), toolResultIds_blocksOf,
        List.flatMap_cons, List.mem_append, ← toolResultIds_blocksOf]
      rw [toolResultIds_blocksOf, List.flatMap_cons, List.mem_append, ← toolResultIds_blocksOf]
        at hid
      rcases hid with hid | hid
      · exact .inl hid
      · refine .inr (ih hrest (hnodup.sublist ?_) hid)
        exact (List.sublist_append_right _ _).append_left calls
    | assistant =>
      obtain ⟨hmsg, hrest⟩ := (answersFrom_assistant hrole).mp h
      rw [toolResultIds_blocksOf, List.flatMap_cons, hmsg, List.nil_append,
        ← toolResultIds_blocksOf] at hid
      have hlater := List.mem_append.mpr (mem_of_answersFrom hrest hid)
      exact absurd hlater (List.disjoint_of_nodup_append hnodup hcall)

/-! ### The request of such a transcript -/

lemma role_of_mem_contentMessage {role : Role} {content : List ApiContentBlock} {m : ApiMessage}
    (h : m ∈ contentMessage role content) : m.role = role := by
  rw [eq_of_mem_contentMessage h]

lemma resultsUntilAssistant_append {users more : List ApiMessage}
    (h : ∀ m ∈ users, m.role = .user) :
    resultsUntilAssistant (users ++ more) =
      users.flatMap ApiMessage.resultIds ++ resultsUntilAssistant more := by
  induction users with
  | nil => rfl
  | cons m users ih =>
    rw [List.cons_append, resultsUntilAssistant_user (h m List.mem_cons_self),
      ih fun m hm => h m (List.mem_cons_of_mem _ hm), List.flatMap_cons, List.append_assoc]

lemma pairedMessages_append {ids : List String} {users more : List ApiMessage}
    (h : ∀ m ∈ users, m.role = .user) : PairedMessages ids (users ++ more) ↔
      (∀ id ∈ users.flatMap ApiMessage.resultIds, id ∈ ids) ∧ PairedMessages ids more := by
  induction users with
  | nil => simp
  | cons m users ih =>
    rw [List.cons_append, pairedMessages_user (h m List.mem_cons_self),
      ih fun m hm => h m (List.mem_cons_of_mem _ hm), List.flatMap_cons, List.forall_mem_append,
      and_assoc]

lemma formatMessage_user (hrole : msg.role = .user) : formatMessage isOauth dangling msg =
    contentMessage .user (formatContentBlocks isOauth msg.content) := by
  rw [formatMessage, syntheticResults, hrole]
  exact List.append_nil _

lemma resultIds_of_user (hrole : msg.role = .user) :
    (formatMessage isOauth dangling msg).flatMap ApiMessage.resultIds =
      (toolResultIds msg.content).map sanitizeToolId := by
  rw [resultIds_formatMessage, addedIds, hrole, List.append_nil]

lemma role_of_user (hrole : msg.role = .user) :
    ∀ m ∈ formatMessage isOauth dangling msg, m.role = .user := by
  rw [formatMessage_user hrole]
  exact fun m => role_of_mem_contentMessage

lemma mem_resultsUntilAssistant {id : String} (hid : id ∈ resultsAhead messages) :
    sanitizeToolId id ∈
      resultsUntilAssistant (messages.flatMap (formatMessage isOauth dangling)) := by
  induction messages with
  | nil => cases hid
  | cons msg messages ih =>
    cases hrole : msg.role with
    | user =>
      rw [List.flatMap_cons, resultsUntilAssistant_append (role_of_user hrole),
        resultIds_of_user hrole]
      rw [resultsAhead, List.takeWhile_cons_of_pos (by simpa using hrole), toolResultIds_blocksOf,
        List.flatMap_cons, List.mem_append, ← toolResultIds_blocksOf] at hid
      rcases hid with hid | hid
      · exact List.mem_append_left _ (List.mem_map_of_mem hid)
      · exact List.mem_append_right _ (ih hid)
    | assistant =>
      rw [resultsAhead, List.takeWhile_cons_of_neg (by simp [hrole])] at hid
      cases hid

/-- Calls without an answer only matter to what answers them. -/
lemma pairedMessages_mono {ids ids' : List String} (hsub : ids ⊆ ids')
    {request : List ApiMessage} (h : PairedMessages ids request) : PairedMessages ids' request := by
  induction request with
  | nil => trivial
  | cons m request ih =>
    cases hrole : m.role with
    | user =>
      rw [pairedMessages_user hrole] at h ⊢
      exact ⟨fun id hid => hsub (h.1 id hid), ih h.2⟩
    | assistant =>
      exact (pairedMessages_assistant hrole).mpr ((pairedMessages_assistant hrole).mp h)

/-- An assistant message in front: its open calls are answered with it, the others later. -/
lemma pairedMessages_assistantMessage {ids : List String} {more : List ApiMessage}
    (hrole : msg.role = .assistant) (hresults : toolResultIds msg.content = [])
    (huses : ∀ id ∈ toolUseIds msg.content, id ∉ dangling →
      sanitizeToolId id ∈ resultsUntilAssistant more)
    (hmore : PairedMessages ((toolUseIds msg.content).map sanitizeToolId) more) :
    PairedMessages ids (formatMessage isOauth dangling msg ++ more) := by
  have hsynthetic : ∀ m ∈ contentMessage .user (syntheticResults dangling msg), m.role = .user :=
    fun _ => role_of_mem_contentMessage
  have hadded : (contentMessage .user (syntheticResults dangling msg)).flatMap
      ApiMessage.resultIds = (addedIds dangling msg).map sanitizeToolId := by
    rw [resultIds_contentMessage, toolResultIds_syntheticResults]
  rw [formatMessage, hrole, contentMessage]
  split_ifs with hempty
  · -- a message without content has no calls
    have hnone : toolUseIds msg.content = [] := by
      rw [← List.map_eq_nil_iff (f := sanitizeToolId), ← toolUseIds_formatContentBlocks isOauth,
        List.isEmpty_iff.mp hempty]
      rfl
    have hnoneAdded : addedIds dangling msg = [] := List.sublist_nil.mp (hnone ▸ addedIds_sublist)
    rw [List.nil_append, pairedMessages_append hsynthetic, hadded]
    rw [hnone] at hmore
    rw [hnoneAdded]
    exact ⟨fun id hid => absurd hid List.not_mem_nil,
      pairedMessages_mono (List.nil_subset _) hmore⟩
  · rw [List.append_assoc, List.singleton_append, pairedMessages_assistant rfl,
      pairedMessages_append hsynthetic, resultsUntilAssistant_append hsynthetic, hadded]
    rw [ApiMessage.resultIds, ApiMessage.useIds, toolResultIds_formatContentBlocks, hresults,
      toolUseIds_formatContentBlocks]
    refine ⟨rfl, fun id hid => ?_, fun id hid => ?_, hmore⟩
    · obtain ⟨id, hcall, rfl⟩ := List.mem_map.mp hid
      by_cases hdangling : id ∈ dangling
      · refine List.mem_append_left _ (List.mem_map_of_mem ?_)
        rw [addedIds, hrole]
        exact List.mem_filter.mpr ⟨hcall, decide_eq_true hdangling⟩
      · exact List.mem_append_right _ (huses id hcall hdangling)
    · exact (addedIds_sublist.map sanitizeToolId).subset hid

lemma pairedMessages_format (h : AnswersFrom calls messages)
    (hnodup : (calls ++ toolUseIds (blocksOf messages)).Nodup)
    (hanswered : ∀ id ∈ toolUseIds (blocksOf messages), id ∉ dangling →
      id ∈ toolResultIds (blocksOf messages)) :
    PairedMessages (calls.map sanitizeToolId)
      (messages.flatMap (formatMessage isOauth dangling)) := by
  induction messages generalizing calls with
  | nil => trivial
  | cons msg messages ih =>
    rw [toolUseIds_blocksOf, List.flatMap_cons, ← toolUseIds_blocksOf] at hnodup hanswered
    rw [toolResultIds_blocksOf, List.flatMap_cons, ← toolResultIds_blocksOf] at hanswered
    rw [List.flatMap_cons]
    cases hrole : msg.role with
    | user =>
      obtain ⟨hmsg, hrest⟩ := (answersFrom_user hrole).mp h
      rw [pairedMessages_append (role_of_user hrole), resultIds_of_user hrole]
      refine ⟨fun id hid => (List.map_subset sanitizeToolId hmsg) hid, ih hrest ?_ ?_⟩
      · exact hnodup.sublist ((List.sublist_append_right _ _).append_left calls)
      · intro id hid hdangling
        have hresult := hanswered id (List.mem_append_right _ hid) hdangling
        -- a result here answers an earlier call, which has another id
        refine (List.mem_append.mp hresult).resolve_left fun hhere => ?_
        exact List.disjoint_of_nodup_append hnodup (hmsg id hhere) (List.mem_append_right _ hid)
    | assistant =>
      obtain ⟨hmsg, hrest⟩ := (answersFrom_assistant hrole).mp h
      rw [hmsg, List.nil_append] at hanswered
      have hlater := (List.nodup_append.mp hnodup).2.1
      apply pairedMessages_assistantMessage hrole hmsg
      · intro id hid hdangling
        apply mem_resultsUntilAssistant
        exact mem_resultsAhead hrest hlater hid
          (hanswered id (List.mem_append_left _ hid) hdangling)
      · apply ih hrest hlater
        exact fun id hid => hanswered id (List.mem_append_right _ hid)

lemma parts_contentMessage (role : Role) (content : List ApiContentBlock) :
    (contentMessage role content).flatMap (fun m => m.content.flatMap ApiContentBlock.parts) =
      content.flatMap ApiContentBlock.parts := by
  rw [contentMessage]
  split_ifs with hempty
  · rw [List.isEmpty_iff.mp hempty]
    rfl
  · exact List.append_nil _

lemma parts_syntheticResults :
    (syntheticResults dangling msg).flatMap ApiContentBlock.parts =
      syntheticResults dangling msg := by
  rw [syntheticResults]
  cases msg.role with
  | user => rfl
  | assistant =>
    rw [List.flatMap_map, List.map_eq_flatMap]
    rfl

/-- The request has the blocks of the transcript in order, and results for the open calls. -/
lemma parts_formatMessages (isOauth : Bool) (messages : List Message) :
    (formatMessages isOauth messages).flatMap (fun m => m.content.flatMap ApiContentBlock.parts) =
      messages.flatMap fun msg => msg.content.filterMap (apiPart isOauth) ++
        syntheticResults (danglingIds messages) msg := by
  rw [formatMessages, RunJoin.flatMap_merge fun _ _ => List.flatMap_append, List.flatMap_assoc]
  congr 1
  funext msg
  rw [formatMessage, List.flatMap_append, parts_contentMessage, parts_contentMessage,
    parts_formatContentBlocks, parts_syntheticResults]

end

/-- A transcript whose results answer the closest calls gives a valid request, with all blocks
that the API knows and with results for the calls that have none. -/
theorem formatMessages_valid (isOauth : Bool) (messages : List Message)
    (h : AnsweredInPlace messages) :
    ValidRequest (formatMessages isOauth messages) ∧
      (formatMessages isOauth messages).flatMap
          (fun m => m.content.flatMap ApiContentBlock.parts) =
        messages.flatMap fun msg => msg.content.filterMap (apiPart isOauth) ++
          syntheticResults (danglingIds messages) msg := by
  refine ⟨?_, parts_formatMessages isOauth messages⟩
  have hanswers := answersFrom_of_inPlace h
  have hcalls : toolResultIds (blocksOf messages) ⊆ toolUseIds (blocksOf messages) :=
    fun id hid => (mem_of_answersFrom hanswers hid).resolve_left List.not_mem_nil
  have hpaired : PairedMessages []
      (messages.flatMap (formatMessage isOauth (danglingIds messages))) := by
    apply pairedMessages_format hanswers (List.Nodup.of_map _ h.distinct)
    intro id hid hdangling
    by_contra hnone
    exact hdangling (mem_danglingIds.mpr ⟨hid, hnone⟩)
  have hchain : (formatMessages isOauth messages).IsChain fun a b => a.role ≠ b.role :=
    RunJoin.isChain_merge (J := mergeMessages) _
  apply validRequest_of_paired hchain (nodup_resultIds h.distinct h.once hcalls)
  rw [formatMessages]
  cases hmessages : messages.flatMap (formatMessage isOauth (danglingIds messages)) with
  | nil => trivial
  | cons first request =>
    rw [RunJoin.merge_cons]
    exact pairedRequest_mergeFrom (hmessages ▸ hpaired)

/-- Two calls, one of them without a result. -/
def twoCalls : List Message := [
  ⟨.user, [.text "list the files" none], none, none⟩,
  ⟨.assistant, [.toolUse "ls" "bash" "\x7b\x7d", .toolUse "cat" "read" "\x7b\x7d"], none, none⟩,
  ⟨.user, [.toolResult "ls" "a.png" none, .image "image/png" "AA=="], none, none⟩]

theorem formatMessages_valid_twoCalls :
    ValidRequest (formatMessages false twoCalls) ∧
      (formatMessages false twoCalls).flatMap
          (fun m => m.content.flatMap ApiContentBlock.parts) =
        twoCalls.flatMap fun msg => msg.content.filterMap (apiPart false) ++
          syntheticResults (danglingIds twoCalls) msg := by
  refine formatMessages_valid false twoCalls (answeredInPlace_of (by decide +kernel) ?_ ?_)
  · simp [AnswersFrom, twoCalls, ContentBlock.toolUseId?, ContentBlock.toolResultId?]
  · decide

/-- A transcript with nothing but reasoning is not sent. -/
theorem formatMessages_dropsReasoning :
    AnsweredInPlace [⟨.user, [.reasoning "hm"], none, none⟩] ∧
      formatMessages false [⟨.user, [.reasoning "hm"], none, none⟩] = [] := by
  refine ⟨answeredInPlace_of List.nodup_nil ?_ List.nodup_nil, rfl⟩
  simp [AnswersFrom, ContentBlock.toolResultId?]

end Jcode.Anthropic
