import Jcode.Provider.OpenAiPairing

/-!
# Nothing is lost in a request

With distinct ids, every text, image and call of the transcript is sent once and in its order, and
the results without a call follow as recovered messages. The results with a call are all sent
exactly if any two uses with one sanitized id show the same output.
-/

namespace Jcode

open RequestBuild

variable {used : Finset String} {items : List ResponsesItem} {map : String → Option String}

/-- A blank output and the text for a missing one show nothing. -/
def shown (output : String) : Option String :=
  if trim output = "" ∨ trim output = missingOutput then none else some output

def callOutputs (items : List ResponsesItem) : List String :=
  items.filterMap fun
    | .functionCallOutput _ output => some output
    | _ => none

def ToolResult.recovered (r : ToolResult) : Option TranscriptPart :=
  (shown r.output).map fun output => .user (.inputText
    ("[Recovered orphaned tool output: " ++ sanitizeToolId r.toolUseId ++ "]\n" ++ trim output))

/-- The results without a use, in the order of their ids. -/
def recoveredParts (messages : List Message) : List TranscriptPart :=
  (((toolResults messages).filter (·.toolUseId ∉ (toolUses messages).map (·.id))).insertionSort
    fun a b => a.toolUseId ≤ b.toolUseId).filterMap (·.recovered)

/-- Everything that the transcript shows is sent once, and in its order. -/
structure Conserved (messages : List Message) : Prop where
  parts : itemParts (buildResponsesInput messages) =
    transcriptParts messages ++ recoveredParts messages
  calls : functionCalls (buildResponsesInput messages) = (toolUses messages).map ToolUse.call
  outputs : (callOutputs (buildResponsesInput messages)).map shown =
    (toolUses messages).map fun u => shown (expectedOutput messages u.id)

def DistinctResults (messages : List Message) : Prop :=
  ((toolResults messages).map (·.toolUseId)).Nodup

/-- Any two uses with one sanitized id show the same output. -/
def ShownAgree (messages : List Message) : Prop :=
  ∀ u ∈ toolUses messages, ∀ v ∈ toolUses messages,
    sanitizeToolId u.id = sanitizeToolId v.id →
      shown (expectedOutput messages u.id) = shown (expectedOutput messages v.id)

/-! ### The ordering pass -/

/-- Behind its call, an output is dropped and shows up nowhere else. -/
lemma itemParts_reorder (h : OutputsKnown used items) :
    itemParts (reorder map used items) = itemParts items := by
  induction items generalizing used with
  | nil => rfl
  | cons item items ih =>
    cases item with
    | functionCall name arguments callId => exact ih h
    | functionCallOutput callId output =>
      rw [reorder, if_pos h.1]
      exact ih h.2
    | _ => exact congrArg (ResponsesItem.parts _ ++ ·) (ih h)

lemma functionCalls_reorder : functionCalls (reorder map used items) = functionCalls items := by
  induction items generalizing used with
  | nil => rfl
  | cons item items ih =>
    cases item with
    | functionCall name arguments callId =>
      exact congrArg (.functionCall name arguments callId :: ·) ih
    | functionCallOutput callId output =>
      obtain hdropped | ⟨content, hmessage⟩ := reorder_output_cases map used callId output items
      · rw [hdropped]
        exact ih
      · rw [hmessage]
        exact ih
    | _ => exact ih

lemma callOutputs_of_paired (h : Paired items) :
    callOutputs items = (answeredCalls items).map (·.output) := by
  induction items using Paired.induct with
  | case1 name arguments callId callId' output items ih =>
    exact congrArg (output :: ·) (ih h.2)
  | case2 name arguments callId items hnext =>
    rw [Paired] at h
    · cases h
    · exact hnext
  | case3 callId output items => cases h
  | case4 item items _ hcall houtput ih =>
    cases item with
    | functionCall name arguments callId => exact (hcall name arguments callId rfl).elim
    | functionCallOutput callId output => exact (houtput callId output rfl).elim
    | _ => exact ih h
  | case5 => rfl

/-! ### The collected items -/

variable (messages : List Message)

lemma outputsKnown_requestItems : OutputsKnown ∅ (requestItems messages) := by
  have horphans (ids : Finset String) (items : List ResponsesItem)
      (h : ∀ item ∈ items, ∃ content, item = .userMessage content) : OutputsKnown ids items := by
    induction items with
    | nil => trivial
    | cons item items ih =>
      rw [List.forall_mem_cons] at h
      obtain ⟨⟨content, rfl⟩, hitems⟩ := h
      exact ih hitems
  rw [requestItems_eq, outputsKnown_append]
  exact ⟨(collect_kept messages).items.known, horphans _ _ fun _ ↦ mem_pendingOrphans⟩

variable {messages}

/-- A result is recovered exactly if its output shows something. -/
lemma itemParts_filterMap_orphan (results : List ToolResult) :
    itemParts (results.filterMap fun r ↦
      orphanToolOutputToUserMessage (sanitizeToolId r.toolUseId) r.output) =
      results.filterMap (·.recovered) := by
  induction results with
  | nil => rfl
  | cons r results ih =>
    rw [List.filterMap_cons, List.filterMap_cons, orphanToolOutputToUserMessage,
      ToolResult.recovered, shown]
    split_ifs
    · exact ih
    · exact congrArg (_ :: ·) ih

lemma itemParts_pendingOrphans (huses : DistinctUses messages)
    (hresults : DistinctResults messages) :
    itemParts (collect messages).pendingOrphans = recoveredParts messages := by
  have horphans := (collect_answered huses).pending.orphans hresults
  rw [pendingOrphans, horphans, recoveredParts,
    ← List.map_insertionSort (fun a b ↦ a.toolUseId ≤ b.toolUseId) _ _ _ fun _ _ _ _ ↦ Iff.rfl,
    List.filterMap_map]
  exact itemParts_filterMap_orphan _

theorem parts_conserved (huses : DistinctUses messages) (hresults : DistinctResults messages) :
    itemParts (buildResponsesInput messages) =
      transcriptParts messages ++ recoveredParts messages := by
  have hparts := (collect_kept messages).items.parts
  rw [collect_contentParts, List.map_nil, List.append_nil] at hparts
  rw [buildResponsesInput_eq, itemParts_reorder (outputsKnown_requestItems messages),
    requestItems_eq, itemParts_append, itemParts_pendingOrphans huses hresults, hparts]

/-- The result of a use is the output that the transcript has for it. -/
theorem expectedOutput_of_mem (hresults : DistinctResults messages) {r : ToolResult}
    (hr : r ∈ toolResults messages) : expectedOutput messages r.toolUseId = r.output := by
  have hfind (results : List ToolResult) (hnodup : (results.map (·.toolUseId)).Nodup)
      (hr : r ∈ results) : firstOutput results r.toolUseId = some r.output := by
    induction results with
    | nil => cases hr
    | cons first results ih =>
      rw [List.map_cons, List.nodup_cons] at hnodup
      rw [← List.singleton_append, firstOutput_append, firstOutput_singleton]
      obtain rfl | hr := List.mem_cons.mp hr
      · rw [if_pos rfl, Option.some_or]
      · have hne : first.toolUseId ≠ r.toolUseId :=
          (ne_of_mem_of_not_mem (List.mem_map_of_mem hr) hnodup.1).symm
        rw [if_neg hne, Option.none_or, ih hnodup.2 hr]
  rw [expectedOutput, hfind _ hresults hr, Option.getD_some]

variable (messages) in
theorem functionCalls_buildResponsesInput :
    functionCalls (buildResponsesInput messages) = (toolUses messages).map ToolUse.call := by
  rw [buildResponsesInput_eq, functionCalls_reorder, functionCalls_requestItems]

variable (messages) in
theorem callOutputs_buildResponsesInput :
    callOutputs (buildResponsesInput messages) =
      (toolUses messages).map fun u ↦ sentOutput messages (sanitizeToolId u.id) := by
  have hpaired : Paired (buildResponsesInput messages) := by
    rw [buildResponsesInput_eq]
    exact paired_reorder
  rw [callOutputs_of_paired hpaired, answeredCalls_buildResponsesInput, List.map_map]
  rfl

lemma outputs_conserved_iff : (callOutputs (buildResponsesInput messages)).map shown =
      (toolUses messages).map (fun u ↦ shown (expectedOutput messages u.id)) ↔
    ∀ u ∈ toolUses messages, shown (sentOutput messages (sanitizeToolId u.id)) =
      shown (expectedOutput messages u.id) := by
  rw [callOutputs_buildResponsesInput, List.map_map, List.map_inj_left]
  simp only [Function.comp_apply]

theorem buildResponsesInput_conserves_iff (messages : List Message)
    (huses : DistinctUses messages) (hresults : DistinctResults messages) :
    Conserved messages ↔ ShownAgree messages := by
  constructor
  · intro hconserved u hu v hv hid
    have hsent := outputs_conserved_iff.mp hconserved.outputs
    rw [← hsent u hu, hid, hsent v hv]
  · intro hagree
    refine ⟨parts_conserved huses hresults, functionCalls_buildResponsesInput messages,
      outputs_conserved_iff.mpr fun u hu ↦ ?_⟩
    obtain ⟨v, hv, hid, hsent⟩ := sentOutput_expected huses hu
    rw [hsent, hagree v hv u hu hid]

/-- A call with its result, and a result without a call. -/
theorem buildResponsesInput_conserves_iff_oneCall :
    let messages : List Message := [
      ⟨.assistant, [.text "reading" none, .toolUse "call.1" "read" "\x7b\x7d"], none, none⟩,
      ⟨.user, [.toolResult "call.1" "done" none, .toolResult "call.0" "late" none], none, none⟩]
    Conserved messages ↔ ShownAgree messages := by
  apply buildResponsesInput_conserves_iff
  · unfold DistinctUses
    decide
  · unfold DistinctResults
    decide

/-- Of two uses whose ids are sanitized to one id, the result of the second is not sent. -/
theorem buildResponsesInput_losesResult :
    ∃ messages, DistinctUses messages ∧ DistinctResults messages ∧ ¬ Conserved messages := by
  let uses := [ContentBlock.toolUse "a.b" "read" "\x7b\x7d", .toolUse "a_b" "read" "\x7b\x7d"]
  let results := [ContentBlock.toolResult "a.b" "one" none, .toolResult "a_b" "two" none]
  refine ⟨[⟨.assistant, uses, none, none⟩, ⟨.user, results, none, none⟩], ?_, ?_, fun h ↦ ?_⟩
  · unfold DistinctUses
    decide
  · unfold DistinctResults
    decide
  · exact absurd h.outputs (by decide +kernel)

end Jcode
