import Jcode.Foundation.Channel
import Jcode.Provider.Retries

/-!
# The stream of a turn

How `Agent::run_turn` builds the assistant message from the events that come over the channel. Only
the text, the tool calls and what ends the stream are kept.
-/

namespace Jcode

/-- The input is the text that is parsed as JSON. -/
structure ToolCall where
  id : String
  name : String
  input : String
deriving DecidableEq

structure TurnStream where
  textContent : String
  toolCalls : List ToolCall
  currentTool : Option ToolCall
  currentToolInput : String
  sawMessageEnd : Bool
deriving DecidableEq

namespace TurnStream

def start : TurnStream where
  textContent := ""
  toolCalls := []
  currentTool := none
  currentToolInput := ""
  sawMessageEnd := false

def accumulate (s : TurnStream) : StreamEvent → TurnStream
  | .textDelta text => { s with textContent := s.textContent ++ text }
  | .toolUseStart id name => { s with currentTool := some ⟨id, name, ""⟩, currentToolInput := "" }
  | .toolInputDelta delta => { s with currentToolInput := s.currentToolInput ++ delta }
  | .toolUseEnd =>
    match s.currentTool with
    | some tool =>
      { s with
        toolCalls := s.toolCalls ++ [{ tool with input := s.currentToolInput }]
        currentTool := none
        currentToolInput := "" }
    | none => s
  | .messageEnd _ => { s with sawMessageEnd := true }
  | _ => s

end TurnStream

/-- The loop over the stream: it goes on, has ended at a session id, or has ended without a message
(it compacts and asks again, or fails). -/
inductive Reception
  | reading (s : TurnStream)
  | complete (s : TurnStream)
  | broken
deriving DecidableEq

namespace Reception

def receive : Reception → StreamItem → Reception
  | .reading s, .ok event =>
    match event with
    | .error _ _ => .broken
    | .sessionId _ => if s.sawMessageEnd then .complete s else .reading s
    | event => .reading (s.accumulate event)
  | .reading _, .error _ => .broken
  | r, _ => r

def stopped : Reception → Bool
  | .reading _ => false
  | .complete _ | .broken => true

/-- The text and the tool calls of the assistant message. -/
def message : Reception → Option (String × List ToolCall)
  | .reading s | .complete s => some (s.textContent, s.toolCalls)
  | .broken => none

lemma receive_of_stopped (r : Reception) (item : StreamItem) (h : r.stopped) :
    r.receive item = r := by
  cases r with
  | reading s => cases h
  | _ => rfl

end Reception

/-- What the turn has from one attempt alone. -/
def attemptMessage (events : List StreamEvent) : String × List ToolCall :=
  let s := events.foldl TurnStream.accumulate .start
  (s.textContent, s.toolCalls)

/-- The channel from the provider to the turn loop. -/
abbrev streamChannel : Channel.State StreamItem Reception → Channel.Label →
    Option (Channel.State StreamItem Reception) :=
  Channel.step 100 Reception.receive Reception.stopped

/-- However the items are sent and received, a message has the text and the tool calls of one
attempt, which succeeds. -/
def OneAttempt (items : List StreamItem) (sent : Nat → List StreamEvent) (Succeeds : Nat → Prop) :
    Prop :=
  ∀ schedule final msg,
    Schedule.exec streamChannel (Channel.start items (.reading .start)) schedule = some final →
    Channel.Done Reception.stopped final → final.receiver.message = some msg →
    ∃ k, Succeeds k ∧ msg = attemptMessage (sent k)

/-! ### What is kept -/

section

variable {events : List StreamEvent} {items : List StreamItem} {s : TurnStream}

/-- Over the channel comes the fold of what is sent. -/
theorem oneAttempt_iff_foldl {sent : Nat → List StreamEvent} {Succeeds : Nat → Prop} :
    OneAttempt items sent Succeeds ↔
      ∀ msg, (items.foldl Reception.receive (.reading .start)).message = some msg →
        ∃ k, Succeeds k ∧ msg = attemptMessage (sent k) := by
  constructor
  · intro h msg hmsg
    obtain ⟨schedule, final, hexec, hdone⟩ := @Channel.exists_done _ _ 100 Reception.receive
      Reception.stopped (by omega)
      (Channel.start items (.reading .start))
    refine h schedule final msg hexec hdone ?_
    rwa [Channel.receiver_of_done Reception.receive_of_stopped hexec hdone]
  · intro h schedule final msg hexec hdone hmsg
    rw [Channel.receiver_of_done Reception.receive_of_stopped hexec hdone] at hmsg
    exact h msg hmsg

lemma foldl_receive_ok (herror : ∀ e ∈ events, ¬ e.isError)
    (hsession : ∀ sid, .sessionId sid ∉ events) :
    (events.map Except.ok).foldl Reception.receive (.reading s) =
      .reading (events.foldl TurnStream.accumulate s) := by
  induction events generalizing s with
  | nil => rfl
  | cons event events ih =>
    rw [List.forall_mem_cons] at herror
    have hrest : ∀ sid, .sessionId sid ∉ events :=
      fun sid h => hsession sid (List.mem_cons_of_mem _ h)
    rw [List.map_cons, List.foldl_cons, List.foldl_cons, ← ih herror.2 hrest]
    cases event with
    | error message retryAfterSecs => exact absurd rfl herror.1
    | sessionId sid => exact absurd List.mem_cons_self (hsession sid)
    | _ => rfl

lemma foldl_receive_broken : items.foldl Reception.receive .broken = .broken := by
  induction items with
  | nil => rfl
  | cons item items ih => exact ih

lemma foldl_receive_error (herror : ∃ e ∈ events, e.isError)
    (hsession : ∀ sid, .sessionId sid ∉ events) :
    (events.map Except.ok).foldl Reception.receive (.reading s) = .broken := by
  induction events generalizing s with
  | nil => simp at herror
  | cons event events ih =>
    have hrest : ∀ sid, .sessionId sid ∉ events :=
      fun sid h => hsession sid (List.mem_cons_of_mem _ h)
    obtain ⟨e, he, hise⟩ := herror
    rw [List.map_cons, List.foldl_cons]
    cases event with
    | error message retryAfterSecs => exact foldl_receive_broken
    | sessionId sid => exact absurd List.mem_cons_self (hsession sid)
    | _ =>
      obtain rfl | he := List.mem_cons.mp he
      · cases hise
      · exact ih ⟨e, he, hise⟩ hrest

end

end Jcode
