import Jcode.Foundation.Run
import Jcode.Message

/-!
# Soft interrupts

Messages for a session wait in a queue in memory or, while the queue cannot be reached, in a file
(`soft_interrupt_store.rs`). The agent puts what is in the file into its queue when it is
restored, writes the queue to the file when it is closed and injects the queue into the transcript
(`agent/interrupts.rs`). The agent does one of these at a time; messages come in at any moment.
-/

namespace Jcode

open Schedule

inductive SoftInterruptSource
  | user
  | system
  | backgroundTask
deriving DecidableEq

/-- A message with the number of its request, which tells it from messages with the same text. -/
structure SoftInterruptMessage where
  serial : Nat
  content : String
  urgent : Bool
  source : SoftInterruptSource
deriving DecidableEq

/-- A message of the transcript: the parts of one source, joined. -/
structure InjectedSoftInterrupt where
  source : SoftInterruptSource
  parts : List SoftInterruptMessage
deriving DecidableEq

def softInterruptSessionDisplayRole : SoftInterruptSource → Option StoredDisplayRole
  | .user => none
  | .system => some .system
  | .backgroundTask => some .backgroundTask

/-- What is added to the session. -/
def InjectedSoftInterrupt.content (injected : InjectedSoftInterrupt) :
    Role × List ContentBlock × Option StoredDisplayRole :=
  (.user, [.text ("\n\n".intercalate (injected.parts.map (·.content))) none],
    softInterruptSessionDisplayRole injected.source)

/-! ### Groups of one source -/

def flushGroup (injected : List InjectedSoftInterrupt) (source : SoftInterruptSource)
    (parts : List SoftInterruptMessage) : List InjectedSoftInterrupt :=
  if parts = [] then injected else injected ++ [⟨source, parts⟩]

/-- The loop of `inject_soft_interrupts` with its `current_source` and `current_parts`. -/
def injectLoop : List SoftInterruptMessage → Option SoftInterruptSource →
    List SoftInterruptMessage → List InjectedSoftInterrupt → List InjectedSoftInterrupt
  | [], none, _, injected => injected
  | [], some source, parts, injected => flushGroup injected source parts
  | message :: messages, none, parts, injected =>
    injectLoop messages (some message.source) (parts ++ [message]) injected
  | message :: messages, some source, parts, injected =>
    if source ≠ message.source then
      injectLoop messages (some message.source) [message] (flushGroup injected source parts)
    else injectLoop messages (some source) (parts ++ [message]) injected

def injectSoftInterrupts (messages : List SoftInterruptMessage) : List InjectedSoftInterrupt :=
  injectLoop messages none [] []

lemma flatMap_flushGroup (injected : List InjectedSoftInterrupt) (source : SoftInterruptSource)
    (parts : List SoftInterruptMessage) :
    (flushGroup injected source parts).flatMap (·.parts) = injected.flatMap (·.parts) ++ parts := by
  unfold flushGroup
  split_ifs with h <;> simp [h]

lemma flatMap_injectLoop {messages parts : List SoftInterruptMessage}
    {source : Option SoftInterruptSource} {injected : List InjectedSoftInterrupt}
    (h : source = none → parts = []) :
    (injectLoop messages source parts injected).flatMap (·.parts) =
      injected.flatMap (·.parts) ++ parts ++ messages := by
  induction messages generalizing source parts injected with
  | nil =>
    cases source with
    | none => simp [injectLoop, h rfl]
    | some source => simp [injectLoop, flatMap_flushGroup]
  | cons message messages ih =>
    cases source with
    | none => simp [injectLoop, ih, h rfl]
    | some source =>
      simp only [injectLoop]
      split_ifs
      · simp [ih, flatMap_flushGroup]
      · simp [ih]

/-- Every message is in one group, in the order of the queue. -/
lemma flatMap_injectSoftInterrupts (messages : List SoftInterruptMessage) :
    (injectSoftInterrupts messages).flatMap (·.parts) = messages := by
  simp [injectSoftInterrupts, flatMap_injectLoop]

/-! ### The system -/

/-- What the agent is doing: nothing, restoring from the file (having read it, having removed it),
writing a snapshot or injecting. -/
inductive InterruptPhase
  | idle
  | taking (loaded : List SoftInterruptMessage)
  | extending (loaded : List SoftInterruptMessage)
  | snapshotting (pending : List SoftInterruptMessage)
  | injecting (messages : List SoftInterruptMessage)
deriving DecidableEq

/-- A deferred append: not begun, or having read the file. -/
inductive AppendPhase
  | none
  | started (message : SoftInterruptMessage)
  | loaded (message : SoftInterruptMessage) (current : List SoftInterruptMessage)
deriving DecidableEq

/-- The queue in memory, the file (a missing one is empty) and the transcript. `accepted` are the
messages whose request has reported success, `mirrored` what the last snapshot wrote. -/
structure InterruptSystem where
  queue : List SoftInterruptMessage
  store : List SoftInterruptMessage
  transcript : List InjectedSoftInterrupt
  agent : InterruptPhase
  appends : Nat → AppendPhase
  issued : Nat
  accepted : List SoftInterruptMessage
  mirrored : List SoftInterruptMessage

/-- `ok` tells whether the operation on the file succeeds. `drop` is the end of an agent; the next
one for the session starts with an empty queue. -/
inductive InterruptMove
  | enqueue (content : String) (urgent : Bool) (source : SoftInterruptSource)
  | startAppend (content : String) (urgent : Bool) (source : SoftInterruptSource)
  | loadAppend (n : Nat) (ok : Bool)
  | writeAppend (n : Nat) (ok : Bool)
  | takeStore (ok : Bool)
  | removeTaken (ok : Bool)
  | extendQueue
  | cloneQueue
  | writeSnapshot (ok : Bool)
  | drainQueue
  | addMessages
  | drop

namespace InterruptSystem

def start : InterruptSystem where
  queue := []
  store := []
  transcript := []
  agent := .idle
  appends _ := .none
  issued := 0
  accepted := []
  mirrored := []

variable (s : InterruptSystem)

def setAppend (n : Nat) (phase : AppendPhase) : InterruptSystem :=
  { s with appends := Function.update s.appends n phase }

def step : InterruptMove → Option InterruptSystem
  | .enqueue content urgent source =>
    let message : SoftInterruptMessage := ⟨s.issued, content, urgent, source⟩
    some { s with
      queue := s.queue ++ [message]
      issued := s.issued + 1
      accepted := message :: s.accepted }
  | .startAppend content urgent source =>
    some { s.setAppend s.issued (.started ⟨s.issued, content, urgent, source⟩) with
      issued := s.issued + 1 }
  | .loadAppend n ok =>
    match s.appends n with
    | .started message => some (s.setAppend n (if ok then .loaded message s.store else .none))
    | _ => none
  | .writeAppend n ok =>
    match s.appends n with
    | .loaded message current =>
      if ok then some { s.setAppend n .none with
        store := current ++ [message]
        accepted := message :: s.accepted }
      else some (s.setAppend n .none)
    | _ => none
  | .takeStore ok =>
    match s.agent with
    | .idle => some (if ok then { s with agent := .taking s.store } else s)
    | _ => none
  | .removeTaken ok =>
    match s.agent with
    | .taking loaded =>
      some (if ok then { s with
        store := []
        agent := .extending loaded
        mirrored := [] }
      else { s with agent := .extending loaded })
    | _ => none
  | .extendQueue =>
    match s.agent with
    | .extending loaded => some { s with
        queue := s.queue ++ loaded
        agent := .idle }
    | _ => none
  | .cloneQueue =>
    match s.agent with
    | .idle => some { s with agent := .snapshotting s.queue }
    | _ => none
  | .writeSnapshot ok =>
    match s.agent with
    | .snapshotting pending =>
      some (if ok then { s with
        store := pending
        agent := .idle
        mirrored := pending }
      else { s with agent := .idle })
    | _ => none
  | .drainQueue =>
    match s.agent with
    | .idle => some { s with
        queue := []
        agent := .injecting s.queue }
    | _ => none
  | .addMessages =>
    match s.agent with
    | .injecting messages => some { s with
        transcript := s.transcript ++ injectSoftInterrupts messages
        agent := .idle }
    | _ => none
  | .drop =>
    match s.agent with
    | .idle => some { s with
        queue := []
        mirrored := [] }
    | _ => none

/-! ### What a move can do -/

/-- The moves that can be made, by what each finds and leaves. -/
inductive Rule (s : InterruptSystem) : InterruptMove → InterruptSystem → Prop
  | enqueue (content : String) (urgent : Bool) (source : SoftInterruptSource) :
    Rule s (.enqueue content urgent source) { s with
      queue := s.queue ++ [⟨s.issued, content, urgent, source⟩]
      issued := s.issued + 1
      accepted := ⟨s.issued, content, urgent, source⟩ :: s.accepted }
  | startAppend (content : String) (urgent : Bool) (source : SoftInterruptSource) :
    Rule s (.startAppend content urgent source)
      { s.setAppend s.issued (.started ⟨s.issued, content, urgent, source⟩) with
        issued := s.issued + 1 }
  | loadAppend (n : Nat) (message : SoftInterruptMessage)
      (hstarted : s.appends n = .started message) :
    Rule s (.loadAppend n true) (s.setAppend n (.loaded message s.store))
  | loadFails (n : Nat) (message : SoftInterruptMessage)
      (hstarted : s.appends n = .started message) :
    Rule s (.loadAppend n false) (s.setAppend n .none)
  | writeAppend (n : Nat) (message : SoftInterruptMessage) (current : List SoftInterruptMessage)
      (hloaded : s.appends n = .loaded message current) :
    Rule s (.writeAppend n true) { s.setAppend n .none with
      store := current ++ [message]
      accepted := message :: s.accepted }
  | writeFails (n : Nat) (message : SoftInterruptMessage) (current : List SoftInterruptMessage)
      (hloaded : s.appends n = .loaded message current) :
    Rule s (.writeAppend n false) (s.setAppend n .none)
  | takeStore (hagent : s.agent = .idle) :
    Rule s (.takeStore true) { s with agent := .taking s.store }
  | takeFails (hagent : s.agent = .idle) : Rule s (.takeStore false) s
  | removeTaken (loaded : List SoftInterruptMessage) (hagent : s.agent = .taking loaded) :
    Rule s (.removeTaken true) { s with
      store := []
      agent := .extending loaded
      mirrored := [] }
  | keepTaken (loaded : List SoftInterruptMessage) (hagent : s.agent = .taking loaded) :
    Rule s (.removeTaken false) { s with agent := .extending loaded }
  | extendQueue (loaded : List SoftInterruptMessage) (hagent : s.agent = .extending loaded) :
    Rule s .extendQueue { s with
      queue := s.queue ++ loaded
      agent := .idle }
  | cloneQueue (hagent : s.agent = .idle) :
    Rule s .cloneQueue { s with agent := .snapshotting s.queue }
  | writeSnapshot (pending : List SoftInterruptMessage) (hagent : s.agent = .snapshotting pending) :
    Rule s (.writeSnapshot true) { s with
      store := pending
      agent := .idle
      mirrored := pending }
  | snapshotFails (pending : List SoftInterruptMessage) (hagent : s.agent = .snapshotting pending) :
    Rule s (.writeSnapshot false) { s with agent := .idle }
  | drainQueue (hagent : s.agent = .idle) :
    Rule s .drainQueue { s with
      queue := []
      agent := .injecting s.queue }
  | addMessages (messages : List SoftInterruptMessage) (hagent : s.agent = .injecting messages) :
    Rule s .addMessages { s with
      transcript := s.transcript ++ injectSoftInterrupts messages
      agent := .idle }
  | drop (hagent : s.agent = .idle) :
    Rule s .drop { s with
      queue := []
      mirrored := [] }

lemma Rule.of_step {s t : InterruptSystem} {m : InterruptMove} (h : s.step m = some t) :
    Rule s m t := by
  cases m with
  | enqueue content urgent source =>
    cases h
    exact .enqueue content urgent source
  | startAppend content urgent source =>
    cases h
    exact .startAppend content urgent source
  | loadAppend n ok =>
    simp only [step] at h
    split at h <;> cases h
    cases ok with
    | true => exact .loadAppend n _ ‹_›
    | false => exact .loadFails n _ ‹_›
  | writeAppend n ok =>
    simp only [step] at h
    split at h
    · cases ok with
      | true =>
        cases h
        exact .writeAppend n _ _ ‹_›
      | false =>
        cases h
        exact .writeFails n _ _ ‹_›
    · cases h
  | takeStore ok =>
    simp only [step] at h
    split at h <;> cases h
    cases ok with
    | true => exact .takeStore ‹_›
    | false => exact .takeFails ‹_›
  | removeTaken ok =>
    simp only [step] at h
    split at h <;> cases h
    cases ok with
    | true => exact .removeTaken _ ‹_›
    | false => exact .keepTaken _ ‹_›
  | writeSnapshot ok =>
    simp only [step] at h
    split at h <;> cases h
    cases ok with
    | true => exact .writeSnapshot _ ‹_›
    | false => exact .snapshotFails _ ‹_›
  | extendQueue =>
    simp only [step] at h
    split at h <;> cases h
    exact .extendQueue _ ‹_›
  | cloneQueue =>
    simp only [step] at h
    split at h <;> cases h
    exact .cloneQueue ‹_›
  | drainQueue =>
    simp only [step] at h
    split at h <;> cases h
    exact .drainQueue ‹_›
  | addMessages =>
    simp only [step] at h
    split at h <;> cases h
    exact .addMessages _ ‹_›
  | drop =>
    simp only [step] at h
    split at h <;> cases h
    exact .drop ‹_›

end InterruptSystem

end Jcode
