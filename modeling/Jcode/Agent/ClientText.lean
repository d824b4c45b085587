import Jcode.Agent.StreamingTurn

/-!
# The text that the client sees

Folding the deltas and replacements that a streaming turn sends gives the text that it stores
exactly if a tool call is recovered from the text, or neither a marker of one nor a thinking
duration comes.
-/

namespace Jcode

/-! ### The client -/

section

variable {sent : List StreamServerEvent} {text delta : String}

lemma clientText_delta : clientText (sent ++ [.textDelta delta]) = clientText sent ++ delta := by
  simp [clientText]

lemma clientText_replace : clientText (sent ++ [.textReplace text]) = text := by
  simp [clientText]

lemma clientText_toolStart {id name : String} :
    clientText (sent ++ [.toolStart id name]) = clientText sent := by
  simp [clientText]

lemma clientText_toolInput : clientText (sent ++ [.toolInput delta]) = clientText sent := by
  simp [clientText]

lemma clientText_toolExec {id name : String} :
    clientText (sent ++ [.toolExec id name]) = clientText sent := by
  simp [clientText]

/-! ### Markers -/

/-- A marker starts with one of two characters that are no white space. -/
lemma exists_of_markerPrefix {before : List Char} (h : markerPrefix text = some before) :
    ∃ m rest, text.toList = before ++ m :: rest ∧ (m = 't' ∨ m = '+') := by
  rw [markerPrefix, Option.map_eq_some_iff] at h
  obtain ⟨⟨before', after⟩, hsplit, rfl⟩ := h
  obtain hsplit | ⟨-, hsplit⟩ := Option.or_eq_some_iff.mp hsplit
  · have heq := eq_of_splitFirst hsplit
    refine ⟨'t', "o=functions.".toList ++ after, ?_, .inl rfl⟩
    rw [heq, List.append_assoc]
    rfl
  · have heq := eq_of_splitFirst hsplit
    refine ⟨'+', "#+#".toList ++ after, ?_, .inr rfl⟩
    rw [heq, List.append_assoc]
    rfl

lemma markerPrefix_append (h : (markerPrefix text).isSome) :
    (markerPrefix (text ++ delta)).isSome := by
  rw [markerPrefix, Option.isSome_map, Option.isSome_or, Bool.or_eq_true] at h ⊢
  rw [String.toList_append]
  obtain h | h := h
  · obtain ⟨⟨before, after⟩, hsplit⟩ := Option.isSome_iff_exists.mp h
    exact .inl (by rw [splitFirst_append hsplit]; rfl)
  · obtain ⟨⟨before, after⟩, hsplit⟩ := Option.isSome_iff_exists.mp h
    exact .inr (by rw [splitFirst_append hsplit]; rfl)

end

/-! ### The loop -/

def isTextDelta : StreamEvent → Bool
  | .textDelta _ => true
  | _ => false

/-- The events up to a text at which a graceful shutdown is seen. -/
def handledEvents : List (StreamEvent × Bool) → List StreamEvent
  | [] => []
  | (event, gracefulShutdown) :: events =>
    if isTextDelta event && gracefulShutdown then [event] else event :: handledEvents events

def interrupted (events : List (StreamEvent × Bool)) : Bool :=
  events.any fun (event, gracefulShutdown) => isTextDelta event && gracefulShutdown

/-- The text as it came, with the note of an interruption. -/
def receivedText (events : List (StreamEvent × Bool)) : String :=
  textOf (handledEvents events) ++ if interrupted events then interruptedNote else ""

/-- The text of the events, with the lines for the thinking durations where they come. -/
def shownText : List StreamEvent → String
  | [] => ""
  | .textDelta text :: evs => text ++ shownText evs
  | .thinkingDone durationSecs :: evs => durationLine durationSecs ++ shownText evs
  | _ :: evs => shownText evs

namespace StreamingTurn

attribute [local simp] shownText

variable {events : List (StreamEvent × Bool)} {evs : List StreamEvent} {s : StreamingTurn}

lemma handleAll_eq (showThinking : Bool) (h : ∀ e ∈ events, ¬ e.1.isError) :
    s.handleAll showThinking events =
      let t := (handledEvents events).foldl (handle showThinking) s
      some (if interrupted events then t.interrupt else t) := by
  induction events generalizing s with
  | nil => rfl
  | cons e events ih =>
    obtain ⟨event, gracefulShutdown⟩ := e
    rw [List.forall_mem_cons] at h
    cases event with
    | error message retryAfterSecs => exact absurd rfl h.1
    | textDelta text =>
      cases gracefulShutdown with
      | true => rfl
      | false => exact ih h.2
    | _ => exact ih h.2

@[simp] lemma send_sent (event : StreamServerEvent) : (s.send event).sent = s.sent ++ [event] := rfl

@[simp] lemma send_textContent (event : StreamServerEvent) :
    (s.send event).textContent = s.textContent := rfl

lemma handleTextDelta_cases (text : String) :
    (s.handleTextDelta text).textContent = s.textContent ++ text ∧
    (s.handleTextDelta text).toolCalls = s.toolCalls ∧
    (s.handleTextDelta text).currentTool = s.currentTool ∧
    (s.handleTextDelta text).currentToolInput = s.currentToolInput ∧
    ((s.textWrappedDetected = true ∧ (s.handleTextDelta text).textWrappedDetected = true ∧
        (s.handleTextDelta text).sent = s.sent) ∨
      (s.textWrappedDetected = false ∧
        ∃ before, markerPrefix (s.textContent ++ text) = some before ∧
        (s.handleTextDelta text).textWrappedDetected = true ∧ (s.handleTextDelta text).sent =
          s.sent ++ [.textReplace (String.ofList (before.rdropWhile isWhitespace))]) ∨
      (s.textWrappedDetected = false ∧ markerPrefix (s.textContent ++ text) = none ∧
        (s.handleTextDelta text).textWrappedDetected = false ∧
        (s.handleTextDelta text).sent = s.sent ++ [.textDelta text])) := by
  rw [handleTextDelta]
  cases hdetected : s.textWrappedDetected with
  | true => simp
  | false =>
    cases hmarker : markerPrefix (s.textContent ++ text) with
    | none => simp [send]
    | some before => simp [send]

lemma toolCalls_foldl :
    (evs.foldl (handle false) s).toolCalls =
      s.toolCalls ++ callsIn s.currentTool s.currentToolInput evs := by
  induction evs generalizing s with
  | nil => simp [callsIn]
  | cons event evs ih =>
    rw [List.foldl_cons, ih]
    cases event with
    | toolUseEnd =>
      rw [handle]
      cases htool : s.currentTool with
      | none => simp [callsIn, htool]
      | some tool => simp [callsIn, send]
    | textDelta text =>
      obtain ⟨-, hcalls, htool, hinput, -⟩ := s.handleTextDelta_cases text
      rw [handle, hcalls, htool, hinput]
      rfl
    | _ => simp [callsIn, handle, send]

/-- How the text of the client and the stored text are related: without a marker, the client has the
durations besides; behind one, it has the trimmed text in front of the marker, and durations. -/
structure Shows (evs : List StreamEvent) (s : StreamingTurn) : Prop where
  text : s.textContent = textOf evs
  unmarked : s.textWrappedDetected = false →
    markerPrefix s.textContent = none ∧ clientText s.sent = shownText evs
  marked : s.textWrappedDetected = true → (markerPrefix s.textContent).isSome ∧
    ∃ before m rest thinking, s.textContent.toList = before ++ m :: rest ∧ (m = 't' ∨ m = '+') ∧
      (clientText s.sent).toList = before.rdropWhile isWhitespace ++ thinking ∧
      (thinking = [] ∨ thinking.head? = some 'T')

lemma shows_start : Shows [] start where
  text := rfl
  unmarked _ := ⟨by simp [markerPrefix, splitFirst, start], rfl⟩
  marked h := by cases h

lemma shownText_append (more : List StreamEvent) :
    shownText (evs ++ more) = shownText evs ++ shownText more := by
  induction evs with
  | nil => exact String.empty_append.symm
  | cons event evs ih =>
    cases event with
    | textDelta text => rw [List.cons_append, shownText, shownText, ih, String.append_assoc]
    | thinkingDone durationSecs =>
      rw [List.cons_append, shownText, shownText, ih, String.append_assoc]
    | _ => exact ih

lemma length_textOf_le (evs : List StreamEvent) : (textOf evs).length ≤ (shownText evs).length := by
  induction evs with
  | nil => exact Nat.le_refl 0
  | cons event evs ih =>
    cases event with
    | textDelta text =>
      rw [textOf, shownText, String.length_append, String.length_append]
      exact Nat.add_le_add_left ih _
    | thinkingDone durationSecs =>
      rw [shownText, String.length_append]
      exact Nat.le_trans ih (Nat.le_add_left _ _)
    | _ => exact ih

/-- A duration makes the text longer. -/
theorem shownText_eq_iff : shownText evs = textOf evs ↔
    ∀ durationSecs, .thinkingDone durationSecs ∉ evs := by
  induction evs with
  | nil => simp [textOf]
  | cons event evs ih =>
    cases event with
    | textDelta text =>
      rw [shownText, textOf, ← String.toList_inj, String.toList_append, String.toList_append,
        List.append_cancel_left_eq, String.toList_inj, ih]
      simp
    | thinkingDone durationSecs =>
      refine iff_of_false (fun heq => ?_) fun h => h durationSecs List.mem_cons_self
      have htext : textOf (.thinkingDone durationSecs :: evs) = textOf evs := rfl
      have hlength := congrArg String.length heq
      have hle := length_textOf_le evs
      rw [shownText, String.length_append, durationLine, String.length_append,
        String.length_append, htext] at hlength
      have hpositive : 0 < "Thought for ".length := by decide
      omega
    | _ => simpa [shownText, textOf] using ih

/-- An event that shows nothing. -/
lemma Shows.skip {event : StreamEvent} {t : StreamingTurn} (h : Shows evs s)
    (hevent : textOf [event] = "" ∧ shownText [event] = "")
    (hcontent : t.textContent = s.textContent)
    (hdetected : t.textWrappedDetected = s.textWrappedDetected)
    (hsent : clientText t.sent = clientText s.sent) : Shows (evs ++ [event]) t := by
  constructor
  · rw [hcontent, h.text, textOf_append, hevent.1, String.append_empty]
  · rw [hdetected, hcontent, hsent, shownText_append, hevent.2, String.append_empty]
    exact h.unmarked
  · rw [hdetected, hcontent, hsent]
    exact h.marked

lemma Shows.thinkingDone (h : Shows evs s) (durationSecs : String) :
    Shows (evs ++ [.thinkingDone durationSecs]) (s.handle false (.thinkingDone durationSecs)) := by
  have htext : clientText (s.handle false (.thinkingDone durationSecs)).sent =
      clientText s.sent ++ durationLine durationSecs := clientText_delta
  constructor
  · rw [textOf_append]
    exact h.text.trans String.append_empty.symm
  · intro hdetected
    obtain ⟨hmarker, hclient⟩ := h.unmarked hdetected
    refine ⟨hmarker, ?_⟩
    rw [htext, hclient, shownText_append, shownText, shownText, String.append_empty]
  · intro hdetected
    obtain ⟨hmarker, before, m, rest, thinking, hcontent, hm, hclient, hthinking⟩ :=
      h.marked hdetected
    refine ⟨hmarker, before, m, rest, thinking ++ (durationLine durationSecs).toList, hcontent, hm,
      ?_, .inr ?_⟩
    · rw [htext, String.toList_append, hclient, List.append_assoc]
    · obtain rfl | hhead := hthinking
      · simp [durationLine]
      · rw [List.head?_append, hhead, Option.some_or]

lemma Shows.textDelta (h : Shows evs s) (text : String) :
    Shows (evs ++ [.textDelta text]) (s.handle false (.textDelta text)) := by
  obtain ⟨hcontent, -, -, -, hcases⟩ := s.handleTextDelta_cases text
  rw [handle]
  have htext : (s.handleTextDelta text).textContent = textOf (evs ++ [.textDelta text]) := by
    rw [hcontent, h.text, textOf_append]
    simp [textOf]
  obtain ⟨hwas, hnow, hsent⟩ | ⟨hwas, before, hmarker, hnow, hsent⟩ |
    ⟨hwas, hmarker, hnow, hsent⟩ := hcases
  · refine ⟨htext, fun hno => absurd (hnow.symm.trans hno) (by simp), fun _ => ?_⟩
    obtain ⟨hmarker, before, m, rest, thinking, hlist, hm, hclient, hhead⟩ := h.marked hwas
    rw [hcontent, hsent]
    refine ⟨markerPrefix_append hmarker, before, m, rest ++ text.toList, thinking, ?_, hm, hclient,
      hhead⟩
    rw [String.toList_append, hlist, List.append_assoc]
    rfl
  · refine ⟨htext, fun hno => absurd (hnow.symm.trans hno) (by simp), fun _ => ?_⟩
    obtain ⟨m, rest, hlist, hm⟩ := exists_of_markerPrefix hmarker
    rw [hcontent, hsent, clientText_replace]
    refine ⟨by rw [hmarker]; rfl, before, m, rest, [], hlist, hm, ?_, .inl rfl⟩
    rw [String.toList_ofList, List.append_nil]
  · refine ⟨htext, fun _ => ?_, fun hyes => absurd (hnow.symm.trans hyes) (by simp)⟩
    rw [hcontent, hsent, clientText_delta, (h.unmarked hwas).2, shownText_append, shownText,
      shownText, String.append_empty]
    exact ⟨hmarker, rfl⟩

lemma Shows.handle (h : Shows evs s) (event : StreamEvent) :
    Shows (evs ++ [event]) (s.handle false event) := by
  cases event with
  | textDelta text => exact h.textDelta text
  | thinkingDone durationSecs => exact h.thinkingDone durationSecs
  | toolUseStart id name => exact h.skip ⟨rfl, rfl⟩ rfl rfl clientText_toolStart
  | toolInputDelta delta => exact h.skip ⟨rfl, rfl⟩ rfl rfl clientText_toolInput
  | toolUseEnd =>
    rw [StreamingTurn.handle]
    split
    · exact h.skip ⟨rfl, rfl⟩ rfl rfl clientText_toolExec
    · exact h.skip ⟨rfl, rfl⟩ rfl rfl rfl
  | _ => exact h.skip ⟨rfl, rfl⟩ rfl rfl rfl

theorem shows_foldl (evs : List StreamEvent) :
    Shows evs (evs.foldl (StreamingTurn.handle false) start) := by
  induction evs using List.reverseRecOn with
  | nil => exact shows_start
  | append_singleton evs event ih =>
    rw [List.foldl_append]
    exact ih.handle event

lemma Shows.not_detected (h : Shows evs s) (hmarker : markerPrefix (textOf evs) = none) :
    s.textWrappedDetected = false := by
  rw [Bool.eq_false_iff]
  intro hdetected
  have hsome := (h.marked hdetected).1
  rw [h.text, hmarker] at hsome
  cases hsome

/-- Behind a marker the texts differ: what the client has behind the trimmed text is nothing, or
starts with a letter with which the stored text does not go on. -/
lemma Shows.clientText_eq_iff (h : Shows evs s) : clientText s.sent = s.textContent ↔
    markerPrefix (textOf evs) = none ∧ ∀ durationSecs, .thinkingDone durationSecs ∉ evs := by
  rw [← shownText_eq_iff, ← h.text]
  cases hdetected : s.textWrappedDetected with
  | false =>
    obtain ⟨hmarker, hclient⟩ := h.unmarked hdetected
    rw [and_iff_right hmarker, hclient]
  | true =>
    obtain ⟨hmarker, before, m, rest, thinking, hlist, hm, hclient, hhead⟩ := h.marked hdetected
    refine iff_of_false (fun hsame => ?_) fun hnone => ?_
    · have hspace :
          before.rdropWhile isWhitespace ++ before.rtakeWhile isWhitespace = before :=
        List.rdropWhile_append_rtakeWhile
      rw [hsame, hlist] at hclient
      nth_rewrite 1 [← hspace] at hclient
      rw [List.append_assoc, List.append_cancel_left_eq] at hclient
      obtain rfl | hhead := hhead
      · simp at hclient
      · rw [← hclient] at hhead
        cases hrest : before.rtakeWhile isWhitespace with
        | nil =>
          rw [hrest] at hhead
          obtain rfl : m = 'T' := Option.some.inj hhead
          exact absurd hm (by decide)
        | cons c space =>
          have hc : isWhitespace c := by
            apply List.mem_rtakeWhile_imp (l := before)
            rw [hrest]
            exact List.mem_cons_self
          rw [hrest] at hhead
          obtain rfl : c = 'T' := Option.some.inj hhead
          exact absurd hc (by decide)
    · rw [hnone.1] at hmarker
      cases hmarker

lemma interrupt_textContent : s.interrupt.textContent = s.textContent ++ interruptedNote := rfl

lemma clientText_interrupt : clientText s.interrupt.sent = clientText s.sent ++ interruptedNote :=
  clientText_delta

lemma clientText_interrupt_iff : clientText s.interrupt.sent = s.interrupt.textContent ↔
    clientText s.sent = s.textContent := by
  rw [clientText_interrupt, interrupt_textContent, ← String.toList_inj, String.toList_append,
    String.toList_append, List.append_cancel_right_eq, String.toList_inj]

/-- A recovered call has an id by which it is announced to the client. -/
lemma clientText_recover {nextValue : List Char → Option (String × List Char)} {newId : String}
    (h : (recoverTextWrappedToolCall nextValue newId s.textContent s.toolCalls).isSome) :
    clientText (s.recover nextValue newId).sent = (s.recover nextValue newId).textContent := by
  obtain ⟨⟨textContent, call⟩, hrecover⟩ := Option.isSome_iff_exists.mp h
  have hid : fallbackPrefix.toList <+: call.id.toList := by
    rw [recoverTextWrappedToolCall, Option.ite_none_left_eq_some,
      Option.map_eq_some_iff] at hrecover
    obtain ⟨-, wrapped, -, heq⟩ := hrecover
    rw [← congrArg (·.2.id) heq, fallbackCallId, String.toList_append]
    exact List.prefix_append _ _
  rw [recover, hrecover]
  simp only [hid, if_true, send_sent, send_textContent]
  rw [clientText_toolExec, clientText_toolInput, clientText_toolStart, clientText_replace]

lemma recover_of_none {nextValue : List Char → Option (String × List Char)} {newId : String}
    (h : recoverTextWrappedToolCall nextValue newId s.textContent s.toolCalls = none) :
    s.recover nextValue newId = s := by
  rw [recover, h]

end StreamingTurn

/-! ### The stored text -/

section

variable (nextValue : List Char → Option (String × List Char)) (newId : String)
  (events : List (StreamEvent × Bool))

/-- A tool call is found in the text, and none was made otherwise. -/
def RecoversCall : Prop :=
  NoCall (handledEvents events) ∧ trim (receivedText events) ≠ "" ∧
    (parseTextWrappedToolCall nextValue (receivedText events)).isSome

/-- The text has no marker of a tool call, and no thinking duration is shown. -/
def PlainText : Prop :=
  markerPrefix (textOf (handledEvents events)) = none ∧
    ∀ durationSecs, .thinkingDone durationSecs ∉ handledEvents events

variable {events} in
lemma handleResponse_recovers (h : ∀ e ∈ events, ¬ e.1.isError) :
    ∃ s : StreamingTurn, handleResponse nextValue newId false events =
        some (s.recover nextValue newId) ∧
      s.textContent = receivedText events ∧
      ((recoverTextWrappedToolCall nextValue newId s.textContent s.toolCalls).isSome ↔
        RecoversCall nextValue events) ∧
      (clientText s.sent = s.textContent ↔ PlainText events) ∧
      (markerPrefix (textOf (handledEvents events)) = none → clientText s.sent =
        shownText (handledEvents events) ++
          if interrupted events then interruptedNote else "") := by
  have hshows := StreamingTurn.shows_foldl (handledEvents events)
  have hcalls := @StreamingTurn.toolCalls_foldl (handledEvents events) .start
  have hresponse := StreamingTurn.handleAll_eq (s := .start) false h
  simp only at hresponse
  generalize (handledEvents events).foldl (StreamingTurn.handle false) .start = t at *
  generalize hs : (if interrupted events then t.interrupt else t) = s at *
  have hcontent : s.textContent = receivedText events := by
    rw [← hs, receivedText, ← hshows.text]
    split_ifs
    · rfl
    · exact String.append_empty.symm
  have hrecovers : (recoverTextWrappedToolCall nextValue newId s.textContent s.toolCalls).isSome ↔
      RecoversCall nextValue events := by
    have htools : s.toolCalls = callsIn none "" (handledEvents events) := by
      rw [← hs]
      split_ifs
      · exact hcalls.trans (List.nil_append _)
      · exact hcalls.trans (List.nil_append _)
    rw [RecoversCall, ← callsIn_none_eq_nil_iff "", recoverTextWrappedToolCall, htools, hcontent]
    split_ifs with hno
    · refine iff_of_false Bool.false_ne_true fun hyes => ?_
      exact hno.elim (fun hne => hne hyes.1) hyes.2.1
    · rw [not_or, not_not] at hno
      rw [Option.isSome_map, and_iff_right hno.1, and_iff_right hno.2]
  have hsame : clientText s.sent = s.textContent ↔ PlainText events := by
    rw [PlainText, ← hshows.clientText_eq_iff, ← hs]
    split_ifs
    · exact StreamingTurn.clientText_interrupt_iff
    · rfl
  have hshown (hmarker : markerPrefix (textOf (handledEvents events)) = none) :
      clientText s.sent = shownText (handledEvents events) ++
        if interrupted events then interruptedNote else "" := by
    have hplain := (hshows.unmarked (hshows.not_detected hmarker)).2
    rw [← hs, ← hplain]
    split_ifs
    · exact StreamingTurn.clientText_interrupt
    · exact String.append_empty.symm
  exact ⟨s, by rw [handleResponse, hresponse, Option.map_some], hcontent, hrecovers, hsame, hshown⟩

/-- The client shows the text that is stored. -/
def ShowsStoredText : Prop :=
  ∀ s, handleResponse nextValue newId false events = some s → clientText s.sent = s.textContent

variable {events}

theorem showsStoredText_iff (h : ∀ e ∈ events, ¬ e.1.isError) :
    ShowsStoredText nextValue newId events ↔
      RecoversCall nextValue events ∨ PlainText events := by
  obtain ⟨s, hresponse, -, hrecovers, hsame, -⟩ := handleResponse_recovers nextValue newId h
  have hshown : ShowsStoredText nextValue newId events ↔
      clientText (s.recover nextValue newId).sent = (s.recover nextValue newId).textContent := by
    rw [ShowsStoredText, hresponse]
    exact ⟨fun hall => hall _ rfl, fun heq _ hsome => Option.some.inj hsome ▸ heq⟩
  rw [hshown, ← hrecovers, ← hsame]
  cases hrecover : recoverTextWrappedToolCall nextValue newId s.textContent s.toolCalls with
  | none =>
    rw [StreamingTurn.recover_of_none hrecover]
    exact (or_iff_right Bool.false_ne_true).symm
  | some recovered =>
    have hisSome := congrArg Option.isSome hrecover
    exact iff_of_true (StreamingTurn.clientText_recover hisSome) (.inl rfl)

/-- Prose with a marker in it: the client is left with the text in front of the marker. -/
example : ¬ ShowsStoredText (fun _ => none) "1"
    [(.textDelta "See +#+# here", false), (.messageEnd none, false)] :=
  fun h => absurd (h _ rfl) (by decide +kernel)

/-- Where no marker comes without a tool call behind it, the client has the stored text, with the
lines for the thinking durations where they come. -/
theorem handleResponse_shows (h : ∀ e ∈ events, ¬ e.1.isError)
    (hmarker : RecoversCall nextValue events ∨
      markerPrefix (textOf (handledEvents events)) = none) :
    ∃ s, handleResponse nextValue newId false events = some s ∧
      (RecoversCall nextValue events → clientText s.sent = s.textContent) ∧
      (¬ RecoversCall nextValue events →
        let note := if interrupted events then interruptedNote else ""
        s.textContent = textOf (handledEvents events) ++ note ∧
          clientText s.sent = shownText (handledEvents events) ++ note) := by
  obtain ⟨s, hresponse, hcontent, hrecovers, -, hshown⟩ :=
    handleResponse_recovers nextValue newId h
  refine ⟨_, hresponse, fun hyes => ?_, fun hno => ?_⟩
  · exact StreamingTurn.clientText_recover (hrecovers.mpr hyes)
  · have hnone := Option.not_isSome_iff_eq_none.mp (mt hrecovers.mp hno)
    rw [StreamingTurn.recover_of_none hnone]
    exact ⟨hcontent, hshown (hmarker.resolve_left hno)⟩

/-- A thinking duration in front of the text. -/
theorem handleResponse_shows_hello :
    let events := [(StreamEvent.thinkingDone "1.2", false), (.textDelta "Hello", false)]
    ∃ s, handleResponse (fun _ => none) "1" false events = some s ∧
      (RecoversCall (fun _ => none) events → clientText s.sent = s.textContent) ∧
      (¬ RecoversCall (fun _ => none) events →
        let note := if interrupted events then interruptedNote else ""
        s.textContent = textOf (handledEvents events) ++ note ∧
          clientText s.sent = shownText (handledEvents events) ++ note) :=
  handleResponse_shows (fun _ => none) "1" (by decide) (.inr (by decide +kernel))

/-- The line for a thinking duration is not in the stored text. -/
theorem handleResponse_thinkingDone :
    ¬ ShowsStoredText (fun _ => none) "1"
      [(.thinkingDone "1.2", false), (.textDelta "Hello", false), (.messageEnd none, false)] :=
  fun h => absurd (h _ rfl) (by decide +kernel)

end

end Jcode
