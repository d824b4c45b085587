import Mathlib.Data.List.Basic
import Jcode.Agent.TurnStream

/-!
# One attempt in one message

The turn loop keeps what the failed attempts of a stream have sent. The message has the text and the
tool calls of the attempt that succeeds exactly if the failed ones have sent no text, have completed
no tool call, and have left no tool open for that attempt to complete.
-/

namespace Jcode

open StreamEvent

/-! ### Text and tool calls of events -/

def textOf : List StreamEvent → String
  | [] => ""
  | .textDelta text :: events => text ++ textOf events
  | _ :: events => textOf events

/-- The calls that are completed, with the tool that is open at first and its input. -/
def callsIn : Option ToolCall → String → List StreamEvent → List ToolCall
  | _, _, [] => []
  | _, _, .toolUseStart id name :: events => callsIn (some ⟨id, name, ""⟩) "" events
  | tool, input, .toolInputDelta delta :: events => callsIn tool (input ++ delta) events
  | some tool, input, .toolUseEnd :: events =>
    { tool with input := input } :: callsIn none "" events
  | tool, input, _ :: events => callsIn tool input events

/-- No tool is opened and completed later. -/
def NoCall (events : List StreamEvent) : Prop :=
  ∀ id name, ¬ [.toolUseStart id name, .toolUseEnd].Sublist events

/-- The failed attempts leave nothing in the message of the last one. -/
structure NothingKept (failed last : List StreamEvent) : Prop where
  noText : ∀ text, .textDelta text ∈ failed → text = ""
  noCall : NoCall failed
  noOpen : (∀ id name, .toolUseStart id name ∉ failed) ∨
    .toolUseEnd ∉ last.takeWhile (!·.isToolUseStart)

section

attribute [local simp] textOf callsIn

variable {events failed last : List StreamEvent} {s : TurnStream} {tool : ToolCall}

lemma textContent_foldl :
    (events.foldl TurnStream.accumulate s).textContent = s.textContent ++ textOf events := by
  induction events generalizing s with
  | nil => simp
  | cons event events ih =>
    rw [List.foldl_cons, ih]
    cases event with
    | textDelta text => rw [TurnStream.accumulate, textOf, String.append_assoc]
    | toolUseEnd =>
      rw [TurnStream.accumulate]
      split <;> rfl
    | _ => rfl

lemma toolCalls_foldl :
    (events.foldl TurnStream.accumulate s).toolCalls =
      s.toolCalls ++ callsIn s.currentTool s.currentToolInput events := by
  induction events generalizing s with
  | nil => simp
  | cons event events ih =>
    rw [List.foldl_cons, ih]
    cases event with
    | toolUseEnd =>
      rw [TurnStream.accumulate]
      cases htool : s.currentTool with
      | none => simp [htool]
      | some tool => simp
    | _ => simp [TurnStream.accumulate]

lemma attemptMessage_eq : attemptMessage events = (textOf events, callsIn none "" events) := by
  rw [attemptMessage, textContent_foldl, toolCalls_foldl]
  simp [TurnStream.start]

lemma textOf_append (more : List StreamEvent) :
    textOf (events ++ more) = textOf events ++ textOf more := by
  induction events with
  | nil => exact String.empty_append.symm
  | cons event events ih =>
    cases event with
    | textDelta text => rw [List.cons_append, textOf, textOf, ih, String.append_assoc]
    | _ => exact ih

lemma textOf_eq_empty_iff : textOf events = "" ↔ ∀ text, .textDelta text ∈ events → text = "" := by
  induction events with
  | nil => simp
  | cons event events ih =>
    cases event with
    | textDelta text => simp [ih]
    | _ => simp [ih]

/-- The input so far of no open tool is dropped by the next tool. -/
lemma callsIn_none (input : String) : callsIn none input events = callsIn none "" events := by
  induction events generalizing input with
  | nil => rfl
  | cons event events ih =>
    cases event with
    | toolUseStart id name => rfl
    | toolInputDelta delta => rw [callsIn, callsIn, ih, ih ("" ++ delta)]
    | _ => exact ih input

lemma callsIn_some_eq_nil_iff (input : String) :
    callsIn (some tool) input events = [] ↔ .toolUseEnd ∉ events := by
  induction events generalizing tool input with
  | nil => simp
  | cons event events ih =>
    cases event with
    | toolUseEnd => simp
    | _ => simp [ih]

lemma noCall_start_cons {id name : String} :
    NoCall (.toolUseStart id name :: events) ↔ .toolUseEnd ∉ events := by
  constructor
  · intro h hend
    exact h id name (.cons_cons _ (List.singleton_sublist.mpr hend))
  · intro hend id' name' hsub
    obtain hsub | ⟨-, hsub⟩ := List.cons_sublist_cons'.mp hsub
    · exact hend (hsub.subset (by simp))
    · exact hend (List.singleton_sublist.mp hsub)

lemma noCall_cons {event : StreamEvent} (h : event.isToolUseStart = false) :
    NoCall (event :: events) ↔ NoCall events := by
  apply forall_congr'
  intro id
  apply forall_congr'
  intro name
  rw [List.cons_sublist_cons', or_iff_left]
  rintro ⟨rfl, -⟩
  cases h

lemma callsIn_none_eq_nil_iff (input : String) :
    callsIn none input events = [] ↔ NoCall events := by
  induction events generalizing input with
  | nil => simp [NoCall]
  | cons event events ih =>
    cases event with
    | toolUseStart id name => rw [callsIn, callsIn_some_eq_nil_iff, noCall_start_cons]
    | toolInputDelta delta => rw [callsIn, ih, noCall_cons rfl]
    | _ => exact (ih input).trans (noCall_cons rfl).symm

variable (tool) in
/-- A tool that is open at first is completed before the next one starts, or makes no difference. -/
lemma callsIn_some (input : String) :
    (.toolUseEnd ∉ events.takeWhile (!·.isToolUseStart) →
      callsIn (some tool) input events = callsIn none "" events) ∧
    (.toolUseEnd ∈ events.takeWhile (!·.isToolUseStart) →
      ∃ call, callsIn (some tool) input events = call :: callsIn none "" events) := by
  induction events generalizing input with
  | nil => simp
  | cons event events ih =>
    cases event with
    | toolUseStart id name => simp [isToolUseStart]
    | toolUseEnd => simp [isToolUseStart]
    | toolInputDelta delta =>
      rw [callsIn, callsIn, callsIn_none]
      simpa [isToolUseStart] using ih (input ++ delta)
    | _ => simpa [callsIn, isToolUseStart] using ih input

/-- Without an end, a tool stays open. -/
lemma currentTool_foldl_of_noEnd (hend : .toolUseEnd ∉ events) :
    (events.foldl TurnStream.accumulate s).currentTool.isSome ↔
      s.currentTool.isSome ∨ ∃ id name, .toolUseStart id name ∈ events := by
  induction events generalizing s with
  | nil => simp
  | cons event events ih =>
    rw [List.mem_cons, not_or] at hend
    rw [List.foldl_cons, ih hend.2]
    cases event with
    | toolUseEnd => exact absurd rfl hend.1
    | toolUseStart id name =>
      exact iff_of_true (.inl rfl) (.inr ⟨id, name, List.mem_cons_self⟩)
    | _ => simp [TurnStream.accumulate]

lemma currentTool_foldl_of_noCall (hcall : NoCall events) (hs : s.currentTool = none) :
    (events.foldl TurnStream.accumulate s).currentTool = none ↔
      ∀ id name, .toolUseStart id name ∉ events := by
  induction events generalizing s with
  | nil => simpa using hs
  | cons event events ih =>
    rw [List.foldl_cons]
    cases event with
    | toolUseStart id name =>
      have hopen := (currentTool_foldl_of_noEnd (s := s.accumulate (.toolUseStart id name))
        (noCall_start_cons.mp hcall)).mpr (.inl rfl)
      simp only [Option.isSome_iff_ne_none] at hopen
      exact iff_of_false hopen fun h => h id name List.mem_cons_self
    | toolUseEnd =>
      rw [ih ((noCall_cons rfl).mp hcall) (by simp [TurnStream.accumulate, hs])]
      simp
    | _ =>
      rw [ih ((noCall_cons rfl).mp hcall) (by exact hs)]
      simp

lemma callsIn_eq_iff (tool : Option ToolCall) (input : String) :
    callsIn tool input events = callsIn none "" events ↔
      tool = none ∨ .toolUseEnd ∉ events.takeWhile (!·.isToolUseStart) := by
  cases tool with
  | none => exact iff_of_true (callsIn_none input) (.inl rfl)
  | some tool =>
    rw [or_iff_right (by simp)]
    constructor
    · intro heq hend
      obtain ⟨call, hcall⟩ := (callsIn_some tool input).2 hend
      simpa using hcall.symm.trans heq
    · exact (callsIn_some tool input).1

lemma length_callsIn_le (events : List StreamEvent) (tool : Option ToolCall) (input : String) :
    (callsIn none "" events).length ≤ (callsIn tool input events).length := by
  by_cases heq : callsIn tool input events = callsIn none "" events
  · exact Nat.le_of_eq (congrArg List.length heq.symm)
  · cases tool with
    | none => exact absurd (callsIn_none input) heq
    | some tool =>
      have hend := mt (callsIn_some tool input).1 heq
      obtain ⟨call, hcall⟩ := (callsIn_some tool input).2 (not_not.mp hend)
      rw [hcall]
      exact Nat.le_succ _

/-- What is in the message of a failed and of a last attempt is what the last one has sent. -/
theorem attemptMessage_append_iff :
    attemptMessage (failed ++ last) = attemptMessage last ↔ NothingKept failed last := by
  have hmessage : attemptMessage (failed ++ last) =
      (textOf failed ++ textOf last, callsIn none "" failed ++
        callsIn (failed.foldl TurnStream.accumulate .start).currentTool
          (failed.foldl TurnStream.accumulate .start).currentToolInput last) := by
    rw [attemptMessage, List.foldl_append, textContent_foldl, textContent_foldl, toolCalls_foldl,
      toolCalls_foldl]
    simp [TurnStream.start]
  rw [hmessage, attemptMessage_eq, Prod.mk.injEq]
  constructor
  · rintro ⟨htext, hcalls⟩
    have hnone : callsIn none "" failed = [] := by
      have hlength := congrArg List.length hcalls
      rw [List.length_append] at hlength
      have hle := length_callsIn_le last
        (failed.foldl TurnStream.accumulate .start).currentTool
        (failed.foldl TurnStream.accumulate .start).currentToolInput
      rw [← List.length_eq_zero_iff]
      omega
    have hnoCall := (callsIn_none_eq_nil_iff "").mp hnone
    rw [hnone, List.nil_append, callsIn_eq_iff,
      currentTool_foldl_of_noCall hnoCall rfl] at hcalls
    refine ⟨textOf_eq_empty_iff.mp ?_, hnoCall, hcalls⟩
    have hlist := congrArg String.toList htext
    rw [String.toList_append, List.append_left_eq_self] at hlist
    exact String.toList_eq_nil_iff.mp hlist
  · rintro ⟨hnoText, hnoCall, hnoOpen⟩
    rw [textOf_eq_empty_iff.mpr hnoText, (callsIn_none_eq_nil_iff "").mpr hnoCall,
      List.nil_append, callsIn_eq_iff, currentTool_foldl_of_noCall hnoCall rfl]
    exact ⟨String.empty_append, hnoOpen⟩

end

/-! ### Runs of attempts -/

section

variable {sent : Nat → List StreamEvent} {Ended Retried : Nat → Prop} {items : List StreamItem}
  {attempt k : Nat}

/-- The attempts before are retried, and this one ends without an error. -/
def SucceedsAt (Ended Retried : Nat → Prop) (k : Nat) : Prop :=
  k < maxRetries ∧ Ended k ∧ ∀ i < k, Retried i

/-- What is sent from an attempt on: the events up to an attempt that succeeds, or, where none does,
some events and an error. -/
def SendsFrom (sent : Nat → List StreamEvent) (Succeeds : Nat → Prop) (attempt : Nat)
    (items : List StreamItem) : Prop :=
  (∃ k, Succeeds k ∧ attempt ≤ k ∧
    items = ((List.range' attempt (k + 1 - attempt)).flatMap sent).map .ok) ∨
  ((∀ k, ¬ Succeeds k) ∧ ∃ (events : List StreamEvent) (error : String),
    (∀ event ∈ events, ∃ i, event ∈ sent i) ∧ items = events.map .ok ++ [.error error])

lemma SendsFrom.success {Succeeds : Nat → Prop} (h : Succeeds attempt) :
    SendsFrom sent Succeeds attempt ((sent attempt).map .ok) := by
  refine .inl ⟨attempt, h, Nat.le_refl _, ?_⟩
  rw [Nat.add_sub_cancel_left]
  simp

lemma SendsFrom.retry {Succeeds : Nat → Prop} (h : SendsFrom sent Succeeds (attempt + 1) items) :
    SendsFrom sent Succeeds attempt ((sent attempt).map .ok ++ items) := by
  obtain ⟨k, hk, hle, rfl⟩ | ⟨hnone, events, error, hevents, rfl⟩ := h
  · refine .inl ⟨k, hk, by omega, ?_⟩
    rw [← List.map_append, show k + 1 - attempt = (k + 1 - (attempt + 1)) + 1 by omega,
      List.range'_succ, List.flatMap_cons]
  · refine .inr ⟨hnone, sent attempt ++ events, error, ?_, ?_⟩
    · rw [List.forall_mem_append]
      exact ⟨fun event h => ⟨attempt, h⟩, hevents⟩
    · rw [List.map_append, List.append_assoc]

lemma SendsFrom.giveUp {Succeeds : Nat → Prop} (h : ∀ k, ¬ Succeeds k) (error : String) :
    SendsFrom sent Succeeds attempt ((sent attempt).map .ok ++ [.error error]) :=
  .inr ⟨h, sent attempt, error, fun _ hevent => ⟨attempt, hevent⟩, rfl⟩

/-- An attempt that does not succeed and has no attempt after it is the last one. -/
lemma not_succeedsAt (hended : ∀ i, Retried i → ¬ Ended i) (hbefore : ∀ i < attempt, Retried i)
    (hend : attempt < maxRetries → ¬ Ended attempt)
    (hretry : attempt + 1 < maxRetries → ¬ Retried attempt) (k : Nat) :
    ¬ SucceedsAt Ended Retried k := by
  rintro ⟨hk, hkend, hretried⟩
  obtain hlt | rfl | hgt := Nat.lt_trichotomy k attempt
  · exact hended k (hbefore k hlt) hkend
  · exact hend hk hkend
  · exact hretry (Nat.lt_of_le_of_lt hgt hk) (hretried attempt hgt)

lemma succeedsAt_unique (hended : ∀ i, Retried i → ¬ Ended i) {j : Nat}
    (hj : SucceedsAt Ended Retried j) (hk : SucceedsAt Ended Retried k) : j = k := by
  obtain hlt | heq | hgt := Nat.lt_trichotomy j k
  · exact absurd hj.2.1 (hended j (hk.2.2 j hlt))
  · exact heq
  · exact absurd hk.2.1 (hended k (hj.2.2 k hgt))

/-- The condition under which nothing of a failed attempt is kept. An error event of any attempt
leaves the turn without a message of this stream. -/
def KeepsOneAttempt (sent : Nat → List StreamEvent) (Succeeds : Nat → Prop) : Prop :=
  ∀ k, Succeeds k → (∀ i ≤ k, ∀ event ∈ sent i, ¬ event.isError) →
    NothingKept ((List.range k).flatMap sent) (sent k)

/-- A message of a producer that retries so has only what one attempt has sent exactly if nothing of
the failed attempts is kept. -/
theorem oneAttempt_iff (hended : ∀ i, Retried i → ¬ Ended i)
    (hsession : ∀ i sid, .sessionId sid ∉ sent i)
    (hitems : SendsFrom sent (SucceedsAt Ended Retried) 0 items) :
    OneAttempt items sent (SucceedsAt Ended Retried) ↔
      KeepsOneAttempt sent (SucceedsAt Ended Retried) := by
  rw [oneAttempt_iff_foldl]
  obtain ⟨k, hk, -, rfl⟩ | ⟨hnone, events, error, hevents, rfl⟩ := hitems
  · have hsplit : (List.range' 0 (k + 1 - 0)).flatMap sent =
        (List.range k).flatMap sent ++ sent k := by
      rw [Nat.sub_zero, ← List.range_eq_range', List.range_succ, List.flatMap_append,
        List.flatMap_singleton]
    have hevents (P : StreamEvent → Prop) :
        (∀ event ∈ (List.range k).flatMap sent ++ sent k, P event) ↔
          ∀ i ≤ k, ∀ event ∈ sent i, P event := by
      rw [List.forall_mem_append]
      constructor
      · intro h i hi event hevent
        obtain rfl | hlt := Nat.eq_or_lt_of_le hi
        · exact h.2 event hevent
        · exact h.1 event (List.mem_flatMap.mpr ⟨i, List.mem_range.mpr hlt, hevent⟩)
      · intro h
        refine ⟨fun event hevent => ?_, h k (Nat.le_refl k)⟩
        obtain ⟨i, hi, hevent⟩ := List.mem_flatMap.mp hevent
        exact h i (Nat.le_of_lt (List.mem_range.mp hi)) event hevent
    have hnosession : ∀ sid, .sessionId sid ∉ (List.range k).flatMap sent ++ sent k := by
      intro sid h
      exact (hevents (· ≠ .sessionId sid)).mpr
        (fun i _ event hevent heq => hsession i sid (heq ▸ hevent)) _ h rfl
    rw [hsplit]
    by_cases herror : ∀ i ≤ k, ∀ event ∈ sent i, ¬ event.isError
    · rw [foldl_receive_ok ((hevents _).mpr herror) hnosession]
      have hmessage : (Reception.reading
          (((List.range k).flatMap sent ++ sent k).foldl TurnStream.accumulate .start)).message =
          some (attemptMessage ((List.range k).flatMap sent ++ sent k)) := rfl
      rw [hmessage]
      constructor
      · intro hone j hj _
        obtain ⟨i, hi, hmsg⟩ := hone _ rfl
        rw [succeedsAt_unique hended hi hk] at hmsg
        rw [succeedsAt_unique hended hj hk]
        exact attemptMessage_append_iff.mp hmsg
      · intro hkeeps msg hmsg
        refine ⟨k, hk, ?_⟩
        rw [← Option.some.inj hmsg]
        exact attemptMessage_append_iff.mpr (hkeeps k hk herror)
    · have hbroken : ∃ event ∈ (List.range k).flatMap sent ++ sent k, event.isError := by
        by_contra hnone
        exact herror ((hevents _).mp fun event h hise => hnone ⟨event, h, hise⟩)
      rw [foldl_receive_error hbroken hnosession]
      refine iff_of_true (fun _ h => by cases h) fun j hj hnoError => ?_
      rw [succeedsAt_unique hended hj hk] at hnoError
      exact absurd hnoError herror
  · have hbroken :
        (events.map Except.ok ++ [Except.error error]).foldl Reception.receive (.reading .start) =
        .broken := by
      have hnosession : ∀ sid, .sessionId sid ∉ events := by
        intro sid h
        obtain ⟨i, hi⟩ := hevents _ h
        exact hsession i sid hi
      rw [List.foldl_append]
      by_cases hise : ∃ event ∈ events, event.isError
      · rw [foldl_receive_error hise hnosession]
        rfl
      · rw [foldl_receive_ok (fun event h hevent => hise ⟨event, h, hevent⟩) hnosession]
        rfl
    rw [hbroken]
    exact iff_of_true (fun _ h => by cases h) fun k hk => absurd hk (hnone k)

end

end Jcode
