import Jcode.Provider.OpenAiAnswers

/-!
# The output behind each call

In every request, each call is followed by its output and there are no other outputs. Which output
this is depends on the sanitized id of the call alone, so where the ids of the tool uses differ, it
is the one of the transcript exactly if any two uses with one sanitized id have the same output.
-/

namespace Jcode

open RequestBuild

variable {ids used : Finset String} {items : List ResponsesItem}
  {map : String → Option String} {callId output : String}

/-- Each call is followed by an output with its id, and there is no other output. -/
def Paired : List ResponsesItem → Prop
  | .functionCall _ _ callId :: .functionCallOutput callId' _ :: items =>
    callId' = callId ∧ Paired items
  | .functionCall _ _ _ :: _ | .functionCallOutput _ _ :: _ => False
  | _ :: items => Paired items
  | [] => True

structure AnsweredCall where
  name : String
  arguments : String
  callId : String
  output : String
deriving DecidableEq

/-- The calls with the outputs that follow them. -/
def answeredCalls : List ResponsesItem → List AnsweredCall
  | .functionCall name arguments callId :: .functionCallOutput _ output :: items =>
    ⟨name, arguments, callId, output⟩ :: answeredCalls items
  | _ :: items => answeredCalls items
  | [] => []

/-! ### The ordering pass -/

def ResponsesItem.answer (map : String → Option String) : ResponsesItem → Option AnsweredCall
  | .functionCall name arguments callId =>
    some ⟨name, arguments, callId, (map callId).getD missingOutput⟩
  | _ => none

lemma orphan_cases (callId output : String) :
    orphanToolOutputToUserMessage callId output = none ∨
      ∃ content, orphanToolOutputToUserMessage callId output = some (.userMessage content) := by
  rw [orphanToolOutputToUserMessage]
  split_ifs
  · exact .inl rfl
  · exact .inr ⟨_, rfl⟩

/-- An output of the input is dropped or made into a message. -/
lemma reorder_output_cases (map : String → Option String) (used : Finset String)
    (callId output : String) (items : List ResponsesItem) :
    reorder map used (.functionCallOutput callId output :: items) = reorder map used items ∨
      ∃ content, reorder map used (.functionCallOutput callId output :: items) =
        .userMessage content :: reorder map used items := by
  rw [reorder]
  split_ifs
  · exact .inl rfl
  · obtain hnone | ⟨content, hsome⟩ := orphan_cases callId output
    · rw [hnone]
      exact .inl rfl
    · rw [hsome]
      exact .inr ⟨content, rfl⟩

theorem paired_reorder : Paired (reorder map used items) := by
  induction items generalizing used with
  | nil => trivial
  | cons item items ih =>
    cases item with
    | functionCall name arguments callId => exact ⟨rfl, ih⟩
    | functionCallOutput callId output =>
      obtain hdropped | ⟨content, hmessage⟩ := reorder_output_cases map used callId output items
      · rw [hdropped]
        exact ih
      · rw [hmessage]
        exact ih
    | _ => exact ih

theorem answeredCalls_reorder :
    answeredCalls (reorder map used items) = items.filterMap (·.answer map) := by
  induction items generalizing used with
  | nil => rfl
  | cons item items ih =>
    cases item with
    | functionCall name arguments callId =>
      rw [reorder, answeredCalls, ih]
      rfl
    | functionCallOutput callId output =>
      obtain hdropped | ⟨content, hmessage⟩ := reorder_output_cases map used callId output items
      · rw [hdropped]
        exact ih
      · rw [hmessage]
        exact ih
    | _ => exact ih

/-- The answers are those of the calls alone. -/
lemma filterMap_answer (items : List ResponsesItem) :
    items.filterMap (·.answer map) = (functionCalls items).filterMap (·.answer map) := by
  induction items with
  | nil => rfl
  | cons item items ih =>
    cases item with
    | functionCall name arguments callId =>
      simpa [functionCalls, ResponsesItem.isCall, ResponsesItem.answer] using ih
    | _ => exact ih

@[simp] lemma functionCalls_injectMissing :
    functionCalls (injectMissing ids items) = functionCalls items := by
  induction items generalizing ids with
  | nil => rfl
  | cons item items ih =>
    cases item with
    | functionCall name arguments callId =>
      rw [injectMissing]
      split_ifs
      · exact congrArg (.functionCall name arguments callId :: ·) ih
      · exact congrArg (.functionCall name arguments callId :: ·) ih
    | _ => exact ih

lemma injectMissing_eq_self (h : ∀ callId ∈ items.flatMap (·.callIds), callId ∈ ids) :
    injectMissing ids items = items := by
  induction items with
  | nil => rfl
  | cons item items ih =>
    rw [List.flatMap_cons, List.forall_mem_append] at h
    cases item with
    | functionCall name arguments callId =>
      rw [injectMissing, if_pos (h.1 callId (List.mem_singleton_self _)), ih h.2]
    | _ => exact congrArg _ (ih h.2)

/-! ### The map of outputs -/

/-- An output leaves the map as it is, with some output for its id, or is put in. -/
lemma outputMapStep_cases (map : String → Option String) (callId output : String) :
    (outputMapStep map (.functionCallOutput callId output) = map ∧ (map callId).isSome) ∨
      outputMapStep map (.functionCallOutput callId output) =
        Function.update map callId (some output) := by
  cases hmap : map callId with
  | none =>
    right
    simp only [outputMapStep, hmap]
  | some existing =>
    simp only [outputMapStep, hmap]
    split_ifs
    · exact .inr rfl
    · exact .inl ⟨rfl, rfl⟩

lemma outputMapStep_mono (item : ResponsesItem) (h : (map callId).isSome) :
    (outputMapStep map item callId).isSome := by
  cases item with
  | functionCallOutput id output =>
    obtain ⟨hsame, -⟩ | hput := outputMapStep_cases map id output
    · rwa [hsame]
    · rw [hput]
      by_cases hid : callId = id <;> simp [hid, h]
  | _ => exact h

lemma outputMapStep_self (output : String) :
    (outputMapStep map (.functionCallOutput callId output) callId).isSome := by
  obtain ⟨hsame, hsome⟩ | hput := outputMapStep_cases map callId output
  · rwa [hsame]
  · simp [hput]

lemma outputMapStep_some {item : ResponsesItem}
    (h : outputMapStep map item callId = some output) :
    item = .functionCallOutput callId output ∨ map callId = some output := by
  cases item with
  | functionCallOutput id out =>
    obtain ⟨hsame, -⟩ | hput := outputMapStep_cases map id out
    · rw [hsame] at h
      exact .inr h
    · rw [hput] at h
      by_cases hid : callId = id
      · subst hid
        left
        simpa using h
      · right
        simpa [hid] using h
  | _ => exact .inr h

lemma foldl_outputMapStep_some (h : items.foldl outputMapStep map callId = some output) :
    .functionCallOutput callId output ∈ items ∨ map callId = some output := by
  induction items generalizing map with
  | nil => exact .inr h
  | cons item items ih =>
    obtain hmem | hstep := ih h
    · exact .inl (List.mem_cons_of_mem _ hmem)
    · obtain rfl | hmap := outputMapStep_some hstep
      · exact .inl List.mem_cons_self
      · exact .inr hmap

lemma foldl_outputMapStep_isSome (map : String → Option String)
    (h : callId ∈ outputIds items ∨ (map callId).isSome) :
    (items.foldl outputMapStep map callId).isSome := by
  induction items generalizing map with
  | nil => exact h.resolve_left (by simp [outputIds])
  | cons item items ih =>
    apply ih
    obtain h | h := h
    · obtain ⟨output, hmem⟩ := mem_outputIds.mp h
      obtain rfl | hmem := List.mem_cons.mp hmem
      · exact .inr (outputMapStep_self output)
      · exact .inl (mem_outputIds.mpr ⟨output, hmem⟩)
    · exact .inr (outputMapStep_mono item h)

/-- An id with an output in the items has one of its outputs in the map. -/
lemma outputMap_of_mem (h : callId ∈ outputIds items) :
    ∃ output, outputMap items callId = some output ∧
      .functionCallOutput callId output ∈ items := by
  obtain ⟨output, hmap⟩ := Option.isSome_iff_exists.mp
    (foldl_outputMapStep_isSome (fun _ ↦ none) (.inl h))
  exact ⟨output, hmap, (foldl_outputMapStep_some hmap).resolve_right (by simp)⟩

/-! ### The collected items -/

variable (messages : List Message) {order : List String}

lemma foldl_closeCall (h : ∀ id ∈ order, id ∈ (collect messages).openCalls) :
    order.foldl closeCall (collect messages) = collect messages := by
  induction order with
  | nil => rfl
  | cons id order ih =>
    rw [List.forall_mem_cons] at h
    have hused := ((collect_kept messages).open_future id h.1).resolve_right (by simp)
    rw [List.foldl_cons, closeCall, if_pos hused, ih h.2]

/-- Every call has its output by now, in whatever order the open calls are walked. -/
theorem collectedItems_order (h : ∀ id ∈ order, id ∈ (collect messages).openCalls) :
    collectedItems messages order =
      (collect messages).items ++ (collect messages).pendingOrphans := by
  rw [collectedItems, foldl_closeCall messages h]

lemma mem_pendingOrphans {st : RequestBuild} {item : ResponsesItem}
    (h : item ∈ st.pendingOrphans) : ∃ content, item = .userMessage content := by
  obtain ⟨⟨callId, output⟩, -, horphan⟩ := List.mem_filterMap.mp h
  simp only at horphan
  obtain hnone | ⟨content, hsome⟩ := orphan_cases (sanitizeToolId callId) output
  · rw [hnone] at horphan
    cases horphan
  · rw [hsome] at horphan
    exact ⟨content, (Option.some.inj horphan).symm⟩

def requestItems : List ResponsesItem := collectedItems messages (collect messages).openCalls

lemma requestItems_eq : requestItems messages =
    (collect messages).items ++ (collect messages).pendingOrphans :=
  collectedItems_order messages fun _ h ↦ h

lemma functionCalls_requestItems :
    functionCalls (requestItems messages) = (toolUses messages).map ToolUse.call := by
  rw [requestItems_eq, functionCalls_append, (collect_kept messages).items.calls,
    functionCalls, List.filter_eq_nil_iff.mpr, List.append_nil]
  intro item hitem
  obtain ⟨content, rfl⟩ := mem_pendingOrphans hitem
  exact Bool.false_ne_true

lemma output_mem_requestItems :
    .functionCallOutput callId output ∈ requestItems messages ↔
      .functionCallOutput callId output ∈ (collect messages).items := by
  rw [requestItems_eq, List.mem_append, or_iff_left]
  intro horphan
  obtain ⟨content, heq⟩ := mem_pendingOrphans horphan
  cases heq

/-- Every call id has an output. -/
lemma callIds_requestItems :
    ∀ callId ∈ (requestItems messages).flatMap (·.callIds),
      callId ∈ outputIds (requestItems messages) := by
  intro callId hid
  obtain ⟨name, arguments, hmem⟩ := mem_callIds.mp hid
  have hcall : .functionCall name arguments callId ∈ functionCalls (requestItems messages) :=
    List.mem_filter.mpr ⟨hmem, rfl⟩
  rw [functionCalls_requestItems] at hcall
  obtain ⟨u, hu, heq⟩ := List.mem_map.mp hcall
  have hkept := collect_kept messages
  have hused : u.id ∈ (collect messages).usedOutputs := by
    obtain hused | hopen := hkept.use_known u.id (List.mem_map_of_mem hu)
    · exact hused
    · exact (hkept.open_future u.id hopen).resolve_right (by simp)
  obtain ⟨output, hout⟩ := mem_outputIds.mp (hkept.items.used_output u.id hused)
  cases heq
  exact mem_outputIds.mpr ⟨output, (output_mem_requestItems messages).mpr hout⟩

lemma buildResponsesInput_eq : buildResponsesInput messages =
    reorder (outputMap (requestItems messages)) ∅ (requestItems messages) := by
  have hself := injectMissing_eq_self (callIds_requestItems messages)
  rw [buildResponsesInput, orderItems, ← requestItems, hself]

/-- The output that is put behind the calls with the id. -/
def sentOutput (callId : String) : String :=
  (outputMap (requestItems messages) callId).getD missingOutput

theorem answeredCalls_buildResponsesInput :
    answeredCalls (buildResponsesInput messages) = (toolUses messages).map fun u ↦
      ⟨u.name, callArguments u.input, sanitizeToolId u.id,
        sentOutput messages (sanitizeToolId u.id)⟩ := by
  rw [buildResponsesInput_eq, answeredCalls_reorder, filterMap_answer,
    functionCalls_requestItems, List.filterMap_map]
  exact congrFun List.filterMap_eq_map (toolUses messages)

/-! ### Distinct tool uses -/

variable {messages}

/-- The output sent for a use is the one that the transcript has for a use with the same sanitized
id. -/
theorem sentOutput_expected (h : DistinctUses messages) {u : ToolUse}
    (hu : u ∈ toolUses messages) :
    ∃ v ∈ toolUses messages, sanitizeToolId v.id = sanitizeToolId u.id ∧
      sentOutput messages (sanitizeToolId u.id) = expectedOutput messages v.id := by
  have hcall : sanitizeToolId u.id ∈ (requestItems messages).flatMap (·.callIds) :=
    mem_callIds_of_use (functionCalls_requestItems messages) (List.mem_map_of_mem hu)
  obtain ⟨output, hmap, hmem⟩ := outputMap_of_mem (callIds_requestItems messages _ hcall)
  have houtputs := (collect_answered h).outputs
  obtain ⟨id, hused, hid, hout⟩ :=
    houtputs.output_used _ _ ((output_mem_requestItems messages).mp hmem)
  obtain ⟨v, hv, rfl⟩ := List.mem_map.mp (houtputs.used_use id hused)
  refine ⟨v, hv, hid.symm, ?_⟩
  rw [sentOutput, hmap, Option.getD_some, hout, List.append_nil]
  rfl

/-- Any two uses with one sanitized id have the same output. -/
def OutputsAgree (messages : List Message) : Prop :=
  ∀ u ∈ toolUses messages, ∀ v ∈ toolUses messages,
    sanitizeToolId u.id = sanitizeToolId v.id →
      expectedOutput messages u.id = expectedOutput messages v.id

def ToolUse.answered (messages : List Message) (u : ToolUse) : AnsweredCall where
  name := u.name
  arguments := callArguments u.input
  callId := sanitizeToolId u.id
  output := expectedOutput messages u.id

lemma answeredCalls_iff : answeredCalls (buildResponsesInput messages) =
      (toolUses messages).map (·.answered messages) ↔
    ∀ u ∈ toolUses messages,
      sentOutput messages (sanitizeToolId u.id) = expectedOutput messages u.id := by
  rw [answeredCalls_buildResponsesInput, List.map_inj_left]
  simp [ToolUse.answered]

theorem buildResponsesInput_answers_iff (messages : List Message) :
    (Paired (buildResponsesInput messages) ∧
      (DistinctUses messages → answeredCalls (buildResponsesInput messages) =
        (toolUses messages).map (·.answered messages))) ↔
      (DistinctUses messages → OutputsAgree messages) := by
  have hpaired : Paired (buildResponsesInput messages) := by
    rw [buildResponsesInput_eq]
    exact paired_reorder
  rw [and_iff_right hpaired]
  apply forall_congr'
  intro hdistinct
  rw [answeredCalls_iff]
  constructor
  · intro hsent u hu v hv hid
    rw [← hsent u hu, hid, hsent v hv]
  · intro hagree u hu
    obtain ⟨v, hv, hid, hsent⟩ := sentOutput_expected hdistinct hu
    rw [hsent, hagree v hv u hu hid]

/-- Two uses whose ids are sanitized to one id: the second gets the output of the first. -/
theorem buildResponsesInput_mixesOutputs :
    ∃ messages, DistinctUses messages ∧ answeredCalls (buildResponsesInput messages) ≠
      (toolUses messages).map (·.answered messages) := by
  let uses := [ContentBlock.toolUse "a.b" "read" "\x7b\x7d", .toolUse "a_b" "read" "\x7b\x7d"]
  let results := [ContentBlock.toolResult "a.b" "one" none, .toolResult "a_b" "two" none]
  refine ⟨[⟨.assistant, uses, none, none⟩, ⟨.user, results, none, none⟩], ?_, ?_⟩
  · unfold DistinctUses
    decide
  · decide +kernel

end Jcode
