import Jcode.Foundation.Pieces
import Jcode.Provider.OpenRouterCalls

/-!
# Tool calls out of fragments

Whether the events of a response hold every tool call as one triple, whatever the order of its
fragments.
-/

namespace Jcode.OpenRouter

/-! ### The fragments in a body -/

def fragmentOf (call : Json) : ToolCallFragment where
  index := (call.getU64 "index").getD 0
  id := call.getStr "id"
  name := (call.get "function").bind (·.getStr "name")
  arguments := (call.get "function").bind (·.getStr "arguments")

def finishSignals (choice : Json) : List CallSignal :=
  match choice.getStr "finish_reason" with
  | some _ => [.finish]
  | none => []

def choiceSignals (choice : Json) : List CallSignal :=
  match (choice.get "delta").or (choice.get "message") with
  | none => []
  | some delta =>
    let toolCalls := ((delta.get "tool_calls").bind Json.asArray).getD []
    toolCalls.map (fun call => .fragment (fragmentOf call)) ++ finishSignals choice

variable (parse : String → Option Json)

/-- An error has no choices. -/
def frameSignals (event : List Char) : List CallSignal :=
  match eventData event with
  | none => []
  | some data =>
    if data = "[DONE]".toList then [.done]
    else
      match parse (String.ofList data) with
      | none => []
      | some parsed =>
        match parsed.get "error" with
        | some _ => []
        | none => (((parsed.get "choices").bind Json.asArray).getD []).flatMap choiceSignals

def bodySignals (body : List Char) : List CallSignal :=
  (sseSeparator.frames body).1.flatMap (frameSignals parse)

/-! ### The calls in the events -/

/-- The triples of a stream and the ends of its message. -/
def readMarks : List StreamEvent → Option (List CallMark)
  | [] => some []
  | .toolUseStart id name :: .toolInputDelta arguments :: .toolUseEnd :: events =>
    (readMarks events).map (.call ⟨id, name, arguments⟩ :: ·)
  | .toolUseStart _ _ :: _ => none
  | .toolInputDelta _ :: _ => none
  | .toolUseEnd :: _ => none
  | .messageEnd _ :: events => (readMarks events).map (.messageEnd :: ·)
  | _ :: events => readMarks events

/-- Whether thinking is going on behind the events. -/
def thinkingAfter : Bool → List StreamEvent → Option Bool
  | thinking, [] => some thinking
  | false, .thinkingStart :: events => thinkingAfter true events
  | true, .thinkingStart :: _ => none
  | true, .thinkingEnd :: events => thinkingAfter false events
  | false, .thinkingEnd :: _ => none
  | true, .thinkingDelta _ :: events => thinkingAfter true events
  | false, .thinkingDelta _ :: _ => none
  | thinking, _ :: events => thinkingAfter thinking events

/-- Thinking is bracketed, and every tool call comes as one triple before the end of the message. -/
def ToolCallsReassembled (events : List StreamEvent) (fragments : List ToolCallFragment) : Prop :=
  thinkingAfter false events = some false ∧
    ∃ marks, readMarks events = some marks ∧ Reassembled marks fragments

variable {parse} {events events' : List StreamEvent} {marks : List CallMark} {w w' w'' : Work}
  {signals signals' : List CallSignal}

lemma readMarks_append (h : readMarks events = some marks) :
    readMarks (events ++ events') = (readMarks events').map (marks ++ ·) := by
  fun_induction readMarks events generalizing marks with
  | case1 =>
    obtain rfl := Option.some.inj h
    simp
  | case2 id name arguments events ih =>
    obtain ⟨marks, hmarks, rfl⟩ := Option.map_eq_some_iff.mp h
    simp [readMarks, ih hmarks, Function.comp_def]
  | case3 => cases h
  | case4 => cases h
  | case5 => cases h
  | case6 reason events ih =>
    obtain ⟨marks, hmarks, rfl⟩ := Option.map_eq_some_iff.mp h
    simp [readMarks, ih hmarks, Function.comp_def]
  | case7 event events _ hstart hdelta hstop hend ih =>
    rw [← ih h]
    cases event with
    | toolUseStart id name => exact (hstart id name rfl).elim
    | toolInputDelta delta => exact (hdelta delta rfl).elim
    | toolUseEnd => exact (hstop rfl).elim
    | messageEnd reason => exact (hend reason rfl).elim
    | _ => rfl

lemma thinkingAfter_append {thinking : Bool} : thinkingAfter thinking (events ++ events') =
    (thinkingAfter thinking events).bind fun thinking => thinkingAfter thinking events' := by
  induction events generalizing thinking with
  | nil => rfl
  | cons event events ih =>
    cases event <;> cases thinking <;> first | rfl | exact ih

/-! ### What is added for a fragment -/

/-- What is queued for signals, and what is kept of them. -/
structure Acts (s : SseState) (signals : List CallSignal) (added : List StreamEvent)
    (s' : SseState) : Prop where
  marks : readMarks added = some (runCalls s.currentToolCall signals).1
  kept : s'.currentToolCall = (runCalls s.currentToolCall signals).2
  thinking : thinkingAfter s.reasoningStarted added = some s'.reasoningStarted

def Adds (w : Work) (signals : List CallSignal) (w' : Work) : Prop :=
  ∃ added, w'.1 = w.1 ++ added ∧ Acts w.2 signals added w'.2

lemma Acts.nil (s : SseState) : Acts s [] [] s := ⟨rfl, rfl, rfl⟩

lemma Acts.append {s s' s'' : SseState} (h : Acts s signals events s')
    (h' : Acts s' signals' events' s'') : Acts s (signals ++ signals') (events ++ events') s'' where
  marks := by
    rw [readMarks_append h.marks, h'.marks, runCalls_append, h.kept]
    rfl
  kept := by rw [h'.kept, runCalls_append, h.kept]
  thinking := by rw [thinkingAfter_append, h.thinking, Option.bind_some, h'.thinking]

lemma accumulateArguments_eq (call : Json) : w.accumulateArguments call =
    (w.1, { w.2 with currentToolCall := w.2.currentToolCall.map fun kept =>
      { kept with arguments := kept.arguments ++ (fragmentOf call).arguments.getD "" } }) := by
  obtain ⟨queue, current, emitted, started⟩ := w
  rw [Work.accumulateArguments, fragmentOf]
  cases (call.get "function").bind (·.getStr "arguments") with
  | none => cases current <;> simp
  | some arguments => cases current <;> rfl

lemma emitToolCall_reasoningStarted :
    w.emitToolCall.2.reasoningStarted = w.2.reasoningStarted := by
  rw [Work.emitToolCall]
  split <;> rfl

namespace Adds

lemma refl (w : Work) : Adds w [] w := ⟨[], (List.append_nil _).symm, .nil _⟩

lemma trans (h : Adds w signals w') (h' : Adds w' signals' w'') :
    Adds w (signals ++ signals') w'' := by
  obtain ⟨added, heq, hacts⟩ := h
  obtain ⟨added', heq', hacts'⟩ := h'
  exact ⟨added ++ added', by rw [heq', heq, List.append_assoc], hacts.append hacts'⟩

/-- What tells nothing of tool calls. -/
lemma trans_left (h : Adds w [] w') (h' : Adds w' signals w'') : Adds w signals w'' := h.trans h'

lemma foldl {f : Work → Json → Work} {signalsOf : Json → List CallSignal}
    (hf : ∀ w item, Adds w (signalsOf item) (f w item)) (items : List Json) (w : Work) :
    Adds w (items.flatMap signalsOf) (items.foldl f w) := by
  induction items generalizing w with
  | nil => exact refl w
  | cons item items ih => exact (hf w item).trans (ih (f w item))

variable (w)

lemma push {event : StreamEvent} (hmarks : readMarks [event] = some [])
    (hthinking : ∀ thinking, thinkingAfter thinking [event] = some thinking) :
    Adds w [] (w.push [event]) :=
  ⟨[event], rfl, hmarks, rfl, hthinking _⟩

lemma pushThinkingDelta (text : String) : Adds w [] (w.pushThinkingDelta text) := by
  rw [Work.pushThinkingDelta]
  split_ifs with hstarted
  · refine ⟨[.thinkingDelta text], rfl, rfl, rfl, ?_⟩
    rw [Work.push, hstarted]
    rfl
  · refine ⟨[.thinkingStart, .thinkingDelta text], List.append_assoc _ _ _, rfl, rfl, ?_⟩
    rw [Bool.eq_false_iff.mpr hstarted]
    rfl

lemma closeReasoningIfStarted : Adds w [] w.closeReasoningIfStarted := by
  rw [Work.closeReasoningIfStarted]
  split_ifs with hstarted
  · refine ⟨[.thinkingEnd], rfl, rfl, rfl, ?_⟩
    rw [hstarted]
    rfl
  · exact refl w

lemma emitToolCall : Adds w [.finish] w.emitToolCall := by
  rw [Work.emitToolCall]
  split
  · rename_i hnone
    refine ⟨[], (List.append_nil _).symm, ?_, ?_, rfl⟩
    · rw [hnone]
      rfl
    · rw [hnone]
      rfl
  · rename_i call hsome
    refine ⟨_, rfl, ?_, ?_, ?_⟩
    · rw [hsome]
      simp only [runCalls, stepCalls, flushCall, List.append_nil]
      split_ifs <;> rfl
    · rw [hsome]
      rfl
    · split_ifs <;> rfl

lemma handleToolCall (call : Json) :
    Adds w [.fragment (fragmentOf call)] (w.handleToolCall call) := by
  rw [Work.handleToolCall, accumulateArguments_eq, Work.startToolCall]
  cases hid : call.getStr "id" with
  | none =>
    refine ⟨[], (List.append_nil _).symm, ?_, ?_, rfl⟩
    · simp [runCalls, stepCalls, fragmentOf, hid, readMarks]
    · simp [runCalls, stepCalls, fragmentOf, hid]
  | some id =>
    obtain ⟨added, heq, hmarks, -, hthinking⟩ := emitToolCall w
    refine ⟨added, heq, ?_, ?_, ?_⟩
    · simpa [runCalls, stepCalls, fragmentOf, hid] using hmarks
    · simp [runCalls, stepCalls, fragmentOf, hid]
    · rw [hthinking, emitToolCall_reasoningStarted]

lemma handleReasoning (delta : Json) : Adds w [] (w.handleReasoning delta) := by
  rw [Work.handleReasoning]
  split
  · split_ifs
    · exact refl w
    · exact pushThinkingDelta w _
  · exact refl w

lemma handleContent (delta : Json) : Adds w [] (w.handleContent delta) := by
  rw [Work.handleContent]
  split
  · split_ifs
    · exact refl w
    · exact push w rfl fun thinking => by cases thinking <;> rfl
  · exact refl w

lemma handleFinishReason (choice : Json) :
    Adds w (finishSignals choice) (w.handleFinishReason choice) := by
  rw [Work.handleFinishReason, finishSignals]
  cases choice.getStr "finish_reason" with
  | some reason => exact (emitToolCall w).trans (closeReasoningIfStarted _)
  | none => exact refl w

lemma handleChoice (choice : Json) : Adds w (choiceSignals choice) (w.handleChoice choice) := by
  rw [Work.handleChoice, choiceSignals]
  cases (choice.get "delta").or (choice.get "message") with
  | none => exact refl w
  | some delta =>
    have hstart := (handleReasoning w delta).trans_left (handleContent _ delta)
    have hcalls := foldl (fun w call => handleToolCall w call)
      (((delta.get "tool_calls").bind Json.asArray).getD [])
      ((w.handleReasoning delta).handleContent delta)
    rw [← List.map_eq_flatMap] at hcalls
    exact (hstart.trans_left hcalls).trans (handleFinishReason _ choice)

lemma handleUsage (usage : Json) : Adds w [] (w.handleUsage usage) := by
  rw [Work.handleUsage]
  split_ifs
  · exact push w rfl fun thinking => by cases thinking <;> rfl
  · exact refl w

lemma handleProvider (parsed : Json) : Adds w [] (w.handleProvider parsed) := by
  rw [Work.handleProvider]
  split
  · split_ifs
    · exact refl w
    · refine ⟨[.upstreamProvider _], rfl, rfl, rfl, ?_⟩
      cases w.2.reasoningStarted <;> rfl
  · exact refl w

lemma pushMessageEnd : Adds w [.done] (w.closeReasoningIfStarted.push [.messageEnd none]) := by
  refine (closeReasoningIfStarted w).trans_left ⟨[.messageEnd none], rfl, rfl, rfl, ?_⟩
  rw [Work.push]
  cases w.closeReasoningIfStarted.2.reasoningStarted <;> rfl

end Adds

/-! ### The events of a body -/

lemma acts_error {s s' : SseState} {message : String} {retryAfterSecs : Option Nat}
    (h : Acts s signals events s') :
    Acts s signals (.error message retryAfterSecs :: events) s' where
  marks := h.marks
  kept := h.kept
  thinking := by
    rw [← h.thinking]
    cases s.reasoningStarted <;> rfl

lemma acts_popFront {s : SseState} (h : Adds ([], s) signals w) :
    Acts s signals ((popFront w).1.toList ++ (popFront w).2.1) (popFront w).2.2 := by
  obtain ⟨added, heq, hacts⟩ := h
  obtain ⟨queue, s'⟩ := w
  obtain rfl : queue = added := heq
  cases queue with
  | nil => exact hacts
  | cons event queue => exact hacts

lemma acts_handleEvent (s : SseState) (event : List Char) :
    Acts s (frameSignals parse event)
      ((handleEvent parse s [] event).1.toList ++ (handleEvent parse s [] event).2.1)
      (handleEvent parse s [] event).2.2 := by
  rw [handleEvent, frameSignals]
  cases eventData event with
  | none => exact .nil s
  | some data =>
    dsimp only
    split_ifs
    · exact acts_popFront (Adds.pushMessageEnd ([], s))
    · cases parse (String.ofList data) with
      | none => exact .nil s
      | some parsed =>
        have hprovider := Adds.handleProvider ([], s) parsed
        dsimp only
        cases parsed.get "error" with
        | some error =>
          obtain ⟨added, heq, hacts⟩ := hprovider
          rw [heq]
          exact acts_error hacts
        | none =>
          have hchoices := hprovider.trans_left
            (Adds.foldl (fun w choice => Adds.handleChoice w choice)
              (((parsed.get "choices").bind Json.asArray).getD []) _)
          apply acts_popFront
          cases parsed.get "usage" with
          | none => exact hchoices
          | some usage => simpa using hchoices.trans (Adds.handleUsage _ usage)

lemma acts_outputs (s : SseState) (frames : List (List Char)) :
    Acts s (frames.flatMap (frameSignals parse)) ((handler parse).outputs s frames).1
      ((handler parse).outputs s frames).2 := by
  induction frames generalizing s with
  | nil => exact .nil s
  | cons frame frames ih => exact (acts_handleEvent s frame).append (ih _)

lemma acts_finishStream (s : SseState) :
    Acts s [.finish] (finishStream s).1 (finishStream s).2 := by
  obtain ⟨added, heq, hacts⟩ := (Adds.emitToolCall ([], s)).trans (.closeReasoningIfStarted _)
  rw [finishStream, heq]
  exact hacts

lemma acts_decode (parse : String → Option Json) (body : List Char) : ∃ s, s.reasoningStarted = false ∧
    Acts .new (bodySignals parse body ++ [.finish])
      ((handler parse).decode sseSeparator .new body) s :=
  ⟨_, (finishStream_state _).2, (acts_outputs .new _).append (acts_finishStream _)⟩

lemma callMarks_eq : callMarks signals = (runCalls none (signals ++ [.finish])).1 := by
  rw [runCalls_concat]
  rfl

lemma reassembled_decode_iff (parse : String → Option Json) (body : List Char)
    (hone : OneIndexEach (fragmentsOf (bodySignals parse body))) :
    ToolCallsReassembled ((handler parse).decode sseSeparator .new body)
      (fragmentsOf (bodySignals parse body)) ↔ InTurn (bodySignals parse body) := by
  obtain ⟨s, hfalse, hmarks, -, hthinking⟩ := acts_decode parse body
  rw [hfalse] at hthinking
  rw [← reassembled_callMarks_iff hone, ToolCallsReassembled, callMarks_eq]
  constructor
  · rintro ⟨-, marks, hread, hre⟩
    rwa [Option.some.inj (hread.symm.trans hmarks)] at hre
  · exact fun hre => ⟨hthinking, _, hmarks, hre⟩

/-- Where every tool call has one index, they come as one triple each if and only if their fragments
come in turn. -/
theorem toolCallsReassembled_iff {chunks : List ByteArray}
    (hemits : (handler parse).Emits sseSeparator Utf8.readOrDrop (FrameHandler.initial .new) chunks
      events)
    (hone : OneIndexEach (fragmentsOf (bodySignals parse (chunks.flatMap Utf8.readOrDrop)))) :
    ToolCallsReassembled events
        (fragmentsOf (bodySignals parse (chunks.flatMap Utf8.readOrDrop))) ↔
      InTurn (bodySignals parse (chunks.flatMap Utf8.readOrDrop)) := by
  rw [FrameHandler.emits_initial_iff.mp hemits]
  exact reassembled_decode_iff _ _ hone

/-! ### Two calls -/

/-- A text and its value. -/
abbrev Sample := String × Json

def firstSample (index : Nat) (id : String) : Sample :=
  ("\x7b\"index\":" ++ toString index ++ ",\"id\":\"" ++ id ++
      "\",\"function\":\x7b\"name\":\"ls\",\"arguments\":\"[\"\x7d\x7d",
    .object [("index", .number index (toString index)), ("id", .string id),
      ("function", .object [("name", .string "ls"), ("arguments", .string "[")])])

def laterSample (index : Nat) : Sample :=
  ("\x7b\"index\":" ++ toString index ++ ",\"function\":\x7b\"arguments\":\"]\"\x7d\x7d",
    .object [("index", .number index (toString index)),
      ("function", .object [("arguments", .string "]")])])

def deltaSample (calls : List Sample) : Sample :=
  ("\x7b" ++ ("\"choices\":[\x7b\"delta\":\x7b\"tool_calls\":[" ++
      ",".intercalate (calls.map (·.1)) ++ "]\x7d\x7d]\x7d"),
    .object [("choices", .array [.object [("delta",
      .object [("tool_calls", .array (calls.map (·.2)))])]])])

def parseSamples (samples : List Sample) (text : String) : Option Json :=
  (samples.find? (·.1 = text)).map (·.2)

def sampleBody (samples : List Sample) : String :=
  String.join (samples.map fun sample => "data: " ++ sample.1 ++ "\n\n")

def inTurnSamples : List Sample :=
  [deltaSample [firstSample 0 "a", laterSample 0, firstSample 1 "b"]]

def interleavedSamples : List Sample :=
  [deltaSample [firstSample 0 "a", firstSample 1 "b"], deltaSample [laterSample 0, laterSample 1]]

/-- The text is one line, and is read as the value. -/
structure Reads (parse : String → Option Json) (sample : Sample) : Prop where
  line : '\n' ∉ sample.1.toList
  head : sample.1.toList.head? = some '\x7b'
  parsed : parse sample.1 = some sample.2

lemma cut_of_not_mem {frame rest : List Char} (h : '\n' ∉ frame) :
    sseSeparator.cut (frame ++ '\n' :: '\n' :: rest) = some (frame, rest) := by
  induction frame with
  | nil => rfl
  | cons c frame ih =>
    rw [List.mem_cons, not_or] at h
    rw [Separator.cut] at ih ⊢
    rw [List.cons_append, splitFirst_cons_of_not_isPrefix, ih h.2]
    · rfl
    · rintro ⟨tail, htail⟩
      exact h.1 (List.cons.inj htail).1

lemma eventData_of_line {text : List Char} (hline : '\n' ∉ text)
    (hhead : text.head? = some '\x7b') : eventData ("data: ".toList ++ text) = some text := by
  have hsplit : ("data: ".toList ++ text).splitOn '\n' = ["data: ".toList ++ text] := by
    apply List.splitOnP_eq_singleton
    intro c hc
    have hne : c ≠ '\n' := by
      rintro rfl
      simp [hline] at hc
    simpa using hne
  have hne : "data: ".toList ++ text ≠ [] := by simp
  obtain ⟨tail, rfl⟩ : ∃ tail, text = '\x7b' :: tail := List.head?_eq_some_iff.mp hhead
  rw [eventData, lines, hsplit]
  rfl

lemma frameSignals_of_reads {sample : Sample} (h : Reads parse sample)
    (herror : sample.2.get "error" = none) :
    frameSignals parse ("data: ".toList ++ sample.1.toList) =
      (((sample.2.get "choices").bind Json.asArray).getD []).flatMap choiceSignals := by
  have hdone : sample.1.toList ≠ "[DONE]".toList := by
    intro heq
    have hhead := h.head
    rw [heq] at hhead
    simp at hhead
  rw [frameSignals, eventData_of_line h.line h.head]
  dsimp only
  rw [if_neg hdone, String.ofList_toList, h.parsed]
  dsimp only
  rw [herror]

lemma frames_sampleBody {samples : List Sample} (h : ∀ sample ∈ samples, Reads parse sample) :
    sseSeparator.frames (sampleBody samples).toList =
      (samples.map fun sample => "data: ".toList ++ sample.1.toList, []) := by
  induction samples with
  | nil => exact Separator.frames_of_none (by decide)
  | cons sample samples ih =>
    obtain ⟨hsample, hsamples⟩ := List.forall_mem_cons.mp h
    have hframe : '\n' ∉ "data: ".toList ++ sample.1.toList := by
      simpa using hsample.line
    have hbody : (sampleBody (sample :: samples)).toList =
        ("data: ".toList ++ sample.1.toList) ++ '\n' :: '\n' :: (sampleBody samples).toList := by
      simp [sampleBody, String.join_cons]
    rw [hbody, Separator.frames_of_some (cut_of_not_mem hframe), ih hsamples]
    rfl

lemma bodySignals_sampleBody {samples : List Sample} (h : ∀ sample ∈ samples, Reads parse sample)
    (herror : ∀ sample ∈ samples, sample.2.get "error" = none) :
    bodySignals parse (sampleBody samples).toList = samples.flatMap fun sample =>
      (((sample.2.get "choices").bind Json.asArray).getD []).flatMap choiceSignals := by
  rw [bodySignals, frames_sampleBody h, List.flatMap_map]
  exact List.flatMap_congr fun sample hmem =>
    frameSignals_of_reads (h sample hmem) (herror sample hmem)

lemma parseSamples_first {sample : Sample} {samples : List Sample} :
    parseSamples (sample :: samples) sample.1 = some sample.2 := by
  simp [parseSamples]

lemma parseSamples_second {first second : Sample} (h : first.1.toList ≠ second.1.toList) :
    parseSamples [first, second] second.1 = some second.2 := by
  have hne : first.1 ≠ second.1 := fun heq => h (congrArg String.toList heq)
  simp [parseSamples, hne]

lemma head_deltaSample {calls : List Sample} :
    (deltaSample calls).1.toList.head? = some '\x7b' := by
  rw [deltaSample, String.toList_append]
  rfl

lemma newline_notMem_firstSample {index : Nat} {id : String}
    (hindex : '\n' ∉ (toString index).toList) (hid : '\n' ∉ id.toList) :
    '\n' ∉ (firstSample index id).1.toList := by
  unfold firstSample
  simp only [String.toList_append, List.mem_append, not_or]
  exact ⟨⟨⟨⟨notMem_toList_ofList (by decide), hindex⟩, notMem_toList_ofList (by decide)⟩, hid⟩,
    notMem_toList_ofList (by decide)⟩

lemma newline_notMem_laterSample {index : Nat} (hindex : '\n' ∉ (toString index).toList) :
    '\n' ∉ (laterSample index).1.toList := by
  unfold laterSample
  simp only [String.toList_append, List.mem_append, not_or]
  exact ⟨⟨notMem_toList_ofList (by decide), hindex⟩, notMem_toList_ofList (by decide)⟩

lemma newline_notMem_deltaSample {calls : List Sample}
    (h : ∀ call ∈ calls, '\n' ∉ call.1.toList) : '\n' ∉ (deltaSample calls).1.toList := by
  have htexts : '\n' ∉ (",".intercalate (calls.map (·.1))).toList := by
    rw [String.toList_intercalate]
    intro hmem
    rcases mem_of_mem_intercalate hmem with hmem | ⟨text, htext, hmem⟩
    · simp at hmem
    · simp only [List.map_map, List.mem_map] at htext
      obtain ⟨call, hcall, rfl⟩ := htext
      exact h call hcall hmem
  unfold deltaSample
  simp only [String.toList_append, List.mem_append, not_or]
  exact ⟨notMem_toList_ofList (by decide), ⟨by simp, htexts⟩, notMem_toList_ofList (by decide)⟩

lemma newline_notMem_samples {calls : List Sample} (h : ∀ call ∈ calls,
    call ∈ [firstSample 0 "a", laterSample 0, firstSample 1 "b", laterSample 1]) :
    '\n' ∉ (deltaSample calls).1.toList := by
  apply newline_notMem_deltaSample
  intro call hcall
  have hmem := h call hcall
  simp only [List.mem_cons, List.not_mem_nil, or_false] at hmem
  rcases hmem with rfl | rfl | rfl | rfl
  · exact newline_notMem_firstSample (by decide) (by simp)
  · exact newline_notMem_laterSample (by decide)
  · exact newline_notMem_firstSample (by decide) (by simp)
  · exact newline_notMem_laterSample (by decide)

lemma bodySignals_inTurnSamples :
    bodySignals (parseSamples inTurnSamples) (sampleBody inTurnSamples).toList =
      [.fragment ⟨0, some "a", some "ls", some "["⟩, .fragment ⟨0, none, none, some "]"⟩,
        .fragment ⟨1, some "b", some "ls", some "["⟩] := by
  have hreads : ∀ sample ∈ inTurnSamples, Reads (parseSamples inTurnSamples) sample :=
    List.forall_mem_singleton.mpr
      ⟨newline_notMem_samples (by simp), head_deltaSample, parseSamples_first⟩
  have herror : ∀ sample ∈ inTurnSamples, sample.2.get "error" = none :=
    List.forall_mem_singleton.mpr rfl
  rw [bodySignals_sampleBody hreads herror]
  decide +kernel

lemma bodySignals_interleavedSamples :
    bodySignals (parseSamples interleavedSamples) (sampleBody interleavedSamples).toList =
      [.fragment ⟨0, some "a", some "ls", some "["⟩, .fragment ⟨1, some "b", some "ls", some "["⟩,
        .fragment ⟨0, none, none, some "]"⟩, .fragment ⟨1, none, none, some "]"⟩] := by
  have hne : (deltaSample [firstSample 0 "a", firstSample 1 "b"]).1.toList ≠
      (deltaSample [laterSample 0, laterSample 1]).1.toList := by
    have hparts : ∀ calls : List Sample, (deltaSample calls).1.toList =
        '\x7b' :: ("\"choices\":[\x7b\"delta\":\x7b\"tool_calls\":[".toList ++
          (",".intercalate (calls.map (·.1))).toList ++ "]\x7d\x7d]\x7d".toList) := by
      intro calls
      rw [deltaSample, String.toList_append, String.toList_append, String.toList_append]
      rfl
    rw [hparts, hparts, ne_eq, List.cons_inj_right, List.append_cancel_right_eq,
      List.append_cancel_left_eq]
    simp [firstSample, laterSample]
  have hreads : ∀ sample ∈ interleavedSamples, Reads (parseSamples interleavedSamples) sample := by
    refine List.forall_mem_cons.mpr ⟨?_, List.forall_mem_singleton.mpr ?_⟩
    · exact ⟨newline_notMem_samples (by simp), head_deltaSample, parseSamples_first⟩
    · exact ⟨newline_notMem_samples (by simp), head_deltaSample, parseSamples_second hne⟩
  have herror : ∀ sample ∈ interleavedSamples, sample.2.get "error" = none :=
    List.forall_mem_cons.mpr ⟨rfl, List.forall_mem_singleton.mpr rfl⟩
  rw [bodySignals_sampleBody hreads herror]
  decide +kernel

lemma flatMap_readOrDrop_sampleBody (samples : List Sample) :
    [(sampleBody samples).toByteArray].flatMap Utf8.readOrDrop = (sampleBody samples).toList := by
  simp [Utf8.readOrDrop_toByteArray]

/-- A call after all of another one: both come as a whole. -/
theorem toolCallsReassembled_inTurn : ToolCallsReassembled
    ((handler (parseSamples inTurnSamples)).decode sseSeparator .new
      (sampleBody inTurnSamples).toList)
    [⟨0, some "a", some "ls", some "["⟩, ⟨0, none, none, some "]"⟩,
      ⟨1, some "b", some "ls", some "["⟩] := by
  have hemits : (handler (parseSamples inTurnSamples)).Emits sseSeparator Utf8.readOrDrop
      (FrameHandler.initial .new) [(sampleBody inTurnSamples).toByteArray] _ :=
    FrameHandler.emits_initial_iff.mpr rfl
  have h := toolCallsReassembled_iff hemits
  simp only [flatMap_readOrDrop_sampleBody, bodySignals_inTurnSamples] at h
  exact (h (by decide)).mpr (by decide)

/-- The arguments of two calls come in turns: those of the first are given to the second. -/
theorem not_toolCallsReassembled_interleaved :
    ∃ parse chunks events, (handler parse).Emits sseSeparator Utf8.readOrDrop
        (FrameHandler.initial .new) chunks events ∧
      fragmentsOf (bodySignals parse (chunks.flatMap Utf8.readOrDrop)) =
        [⟨0, some "a", some "ls", some "["⟩, ⟨1, some "b", some "ls", some "["⟩,
          ⟨0, none, none, some "]"⟩, ⟨1, none, none, some "]"⟩] ∧
      readMarks events = some [.call ⟨"a", "ls", "["⟩, .call ⟨"b", "ls", "[]]"⟩] ∧
      OneIndexEach (fragmentsOf (bodySignals parse (chunks.flatMap Utf8.readOrDrop))) ∧
      ¬ ToolCallsReassembled events
        (fragmentsOf (bodySignals parse (chunks.flatMap Utf8.readOrDrop))) := by
  refine ⟨parseSamples interleavedSamples, [(sampleBody interleavedSamples).toByteArray], _,
    FrameHandler.emits_initial_iff.mpr rfl, ?_⟩
  obtain ⟨s, -, hmarks, -⟩ :=
    acts_decode (parseSamples interleavedSamples) (sampleBody interleavedSamples).toList
  rw [flatMap_readOrDrop_sampleBody, hmarks]
  have hiff := reassembled_decode_iff (parseSamples interleavedSamples)
    (sampleBody interleavedSamples).toList
  rw [bodySignals_interleavedSamples] at hiff ⊢
  exact ⟨rfl, by decide, by decide, fun h => absurd ((hiff (by decide)).mp h) (by decide)⟩

end Jcode.OpenRouter
