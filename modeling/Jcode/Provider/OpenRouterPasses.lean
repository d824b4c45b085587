import Jcode.Provider.OpenRouterRequest

/-!
# The passes over a converted request

Whatever the conversion gives, the passes behind it keep its messages but for the outputs, and put
behind every call one output: the first one with the id of the call that is not the text for a
missing output, if there is one.
-/

namespace Jcode.OpenRouter

variable {msgs : List ApiMessage} {msg : ApiMessage} {map : String → Option String} {id : String}
  {allowReasoning : Bool} {walk : Finset String → List String}

/-- Reads the messages with `calls` still to be answered: behind each message with calls there has
to be one output for each of them in their order, and no outputs elsewhere. -/
def readAnswers : List ApiToolCall → List ApiMessage → Option (List (ApiToolCall × String))
  | call :: calls, .tool id content :: msgs =>
    if id = call.id then (readAnswers calls msgs).map ((call, content) :: ·) else none
  | _ :: _, _ | [], .tool _ _ :: _ => none
  | [], msg :: msgs => readAnswers msg.calls msgs
  | [], [] => some []

/-- The output, but not the text for a missing one. -/
def ApiMessage.realOutputs : ApiMessage → List (String × String)
  | .tool id content => if content = missingOutput then [] else [(id, content)]
  | _ => []

/-- The first output for the id that is not missing. -/
def sentOutput (msgs : List ApiMessage) (id : String) : String :=
  (((msgs.flatMap (·.realOutputs)).find? (·.1 = id)).map (·.2)).getD missingOutput

/-! ### The outputs by id -/

lemma sentOutput_cons_tool (toolCallId content : String) :
    sentOutput (.tool toolCallId content :: msgs) id =
      if toolCallId = id ∧ content ≠ missingOutput then content else sentOutput msgs id := by
  rw [sentOutput, List.flatMap_cons, ApiMessage.realOutputs]
  by_cases hcontent : content = missingOutput
  · rw [if_pos hcontent, if_neg fun h => h.2 hcontent]
    rfl
  · rw [if_neg hcontent]
    by_cases hid : toolCallId = id
    · rw [if_pos ⟨hid, hcontent⟩, hid]
      simp
    · rw [if_neg fun h => hid h.1, List.singleton_append,
        List.find?_cons_of_neg (by simpa using hid)]
      rfl

lemma toolOutputMapStep_tool (toolCallId content : String) :
    (toolOutputMapStep map (.tool toolCallId content) id).getD missingOutput =
      if toolCallId = id ∧ (map id).getD missingOutput = missingOutput then content
      else (map id).getD missingOutput := by
  by_cases hid : toolCallId = id
  · subst hid
    simp only [toolOutputMapStep, true_and]
    cases hmap : map toolCallId with
    | none => simp
    | some existing =>
      simp only [Option.getD_some]
      by_cases hexisting : existing = missingOutput
      · by_cases hcontent : content = missingOutput <;> simp [hexisting, hcontent, hmap]
      · simp [hexisting, hmap]
  · rw [if_neg fun h => hid h.1]
    have hother (value : Option String) : Function.update map toolCallId value id = map id :=
      Function.update_of_ne (Ne.symm hid) _ _
    simp only [toolOutputMapStep]
    cases map toolCallId with
    | none => simp only [hother]
    | some existing =>
      dsimp only
      split_ifs
      · rw [hother]
      · rfl

/-- The first output in the map or, where there is none, in the messages. -/
lemma foldl_toolOutputMapStep (msgs : List ApiMessage) :
    (msgs.foldl toolOutputMapStep map id).getD missingOutput =
      if (map id).getD missingOutput = missingOutput then sentOutput msgs id
      else (map id).getD missingOutput := by
  induction msgs generalizing map with
  | nil =>
    split_ifs with h
    · exact h
    · rfl
  | cons msg msgs ih =>
    rw [List.foldl_cons, ih]
    cases msg with
    | tool toolCallId content =>
      rw [toolOutputMapStep_tool, sentOutput_cons_tool]
      split_ifs <;> simp_all
    | _ => rfl

lemma toolOutputMap_getD :
    (toolOutputMap msgs id).getD missingOutput = sentOutput msgs id := by
  rw [toolOutputMap, foldl_toolOutputMapStep]
  exact if_pos rfl

/-! ### Added outputs -/

lemma length_missingByIndex : (missingByIndex msgs).2.length = msgs.length := by
  induction msgs with
  | nil => rfl
  | cons msg msgs ih =>
    cases msg <;> exact congrArg (· + 1) ih

section

variable {β : Type*} {f : ApiMessage → List β}

/-- What does not look at the added outputs sees the messages with their reasoning filled. -/
lemma flatMap_normalize (h : ∀ id, f (missingMsg id) = []) :
    (normalize allowReasoning msgs).flatMap f =
      msgs.flatMap fun msg => f (fillReasoning allowReasoning msg) := by
  have hzip (missing : List (List String)) (hlength : missing.length = msgs.length) :
      ((msgs.zip missing).flatMap fun entry =>
        fillReasoning allowReasoning entry.1 :: entry.2.map missingMsg).flatMap f =
        msgs.flatMap fun msg => f (fillReasoning allowReasoning msg) := by
    induction msgs generalizing missing with
    | nil => rfl
    | cons msg msgs ih =>
      cases missing with
      | nil => cases hlength
      | cons ids missing =>
        have hids : (ids.map missingMsg).flatMap f = [] := by simp [h]
        rw [List.zip_cons_cons, List.flatMap_cons, List.flatMap_append,
          ih missing (Nat.succ.inj hlength), List.flatMap_cons, hids, List.append_nil]
        rfl
  exact hzip _ length_missingByIndex

lemma flatMap_appendMissing (h : ∀ id, f (missingMsg id) = []) :
    (appendMissing walk msgs).flatMap f = msgs.flatMap f := by
  have hids (ids : List String) : (ids.map missingMsg).flatMap f = [] := by simp [h]
  rw [appendMissing, List.flatMap_append, hids, List.append_nil]

end

@[simp] lemma realOutputs_fillReasoning :
    (fillReasoning allowReasoning msg).realOutputs = msg.realOutputs := by
  rw [fillReasoning.eq_def]
  split <;> rfl

@[simp] lemma calls_fillReasoning : (fillReasoning allowReasoning msg).calls = msg.calls := by
  rw [fillReasoning.eq_def]
  split <;> rfl

lemma realOutputs_missingMsg (id : String) : (missingMsg id).realOutputs = [] := by
  rw [missingMsg, ApiMessage.realOutputs, if_pos rfl]

lemma sentOutput_passes :
    sentOutput (appendMissing walk (normalize allowReasoning msgs)) id = sentOutput msgs id := by
  rw [sentOutput, flatMap_appendMissing realOutputs_missingMsg,
    flatMap_normalize realOutputs_missingMsg, sentOutput]
  simp only [realOutputs_fillReasoning]

/-! ### The last pass -/

/-- A message that is no output, with the outputs behind its calls. -/
def answered (outputs : String → String) (msg : ApiMessage) : List ApiMessage :=
  withOutputs (fun id => some (outputs id)) msg

lemma withOutputs_toolOutputMap :
    withOutputs (toolOutputMap msgs) = answered (sentOutput msgs) := by
  funext msg
  cases msg with
  | tool id content => rfl
  | _ => simp only [answered, withOutputs, toolOutputMap_getD, Option.getD_some]

theorem reorder_passes : reorder (appendMissing walk (normalize allowReasoning msgs)) =
    msgs.flatMap fun msg => answered (sentOutput msgs) (fillReasoning allowReasoning msg) := by
  have houtputs : sentOutput (appendMissing walk (normalize allowReasoning msgs)) =
      sentOutput msgs := funext fun id => sentOutput_passes
  rw [reorder, withOutputs_toolOutputMap, houtputs, flatMap_appendMissing fun _ => rfl,
    flatMap_normalize fun _ => rfl]

lemma readAnswers_append (outputs : String → String) (calls : List ApiToolCall)
    (msgs : List ApiMessage) :
    readAnswers calls ((calls.map fun call => .tool call.id (outputs call.id)) ++ msgs) =
      (readAnswers [] msgs).map ((calls.map fun call => (call, outputs call.id)) ++ ·) := by
  induction calls with
  | nil => exact Option.map_id'.symm
  | cons call calls ih =>
    rw [List.map_cons, List.cons_append, readAnswers, if_pos rfl, ih, Option.map_map]
    rfl

/-- Every call has its output behind it. -/
theorem readAnswers_answered (outputs : String → String) (msgs : List ApiMessage) :
    readAnswers [] (msgs.flatMap (answered outputs)) =
      some ((msgs.flatMap (·.calls)).map fun call => (call, outputs call.id)) := by
  induction msgs with
  | nil => rfl
  | cons msg msgs ih =>
    rw [List.flatMap_cons, List.flatMap_cons, List.map_append]
    cases msg with
    | tool id content => exact ih
    | _ =>
      rw [answered, withOutputs, List.cons_append, readAnswers]
      · exact (readAnswers_append outputs _ _).trans (congrArg (Option.map _) ih)
      all_goals simp

end Jcode.OpenRouter
