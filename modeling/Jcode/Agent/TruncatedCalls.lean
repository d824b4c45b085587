import Jcode.Agent.TurnStream
import Jcode.Foundation.SplitFirst
import Jcode.Session.ProviderCache
import Jcode.Session.RoundTrip

/-!
# Truncated tool calls

A response that stops early can leave tool calls whose input was cut off. The turn loops store the
response with all of its calls first, and discard the truncated ones afterwards; they correct what
they have stored only when no call is left.
-/

namespace Jcode

open CachedSession

/-! ### Stop reasons -/

def asciiLowercase (text : String) : String := String.ofList (text.toList.map Char.toLower)

def shouldContinueAfterStopReason (stopReason : String) : Bool :=
  let reason := asciiLowercase (trim stopReason)
  if reason = "" then false
  else if reason = "stop" || reason = "end_turn" || reason = "tool_use" then false
  else
    containsText reason "incomplete" || containsText reason "max_output_tokens" ||
      containsText reason "max_tokens" || containsText reason "length" ||
      containsText reason "trunc" || containsText reason "commentary"

/-! ### The session of an agent -/

variable {format : SessionFormat} {json : SessionJson}

/-- A session with its files: its cache is in step with its messages, and it remembers what the
files hold. -/
structure AgentSession (format : SessionFormat) (json : SessionJson) where
  session : CachedSession
  files : Directory
  sync : CacheInSync json session
  inFiles : session.persistState.snapshotExists = false ∨
    ∃ saved, session.toSession.StoredIn format files saved

namespace AgentSession

lemma inFiles_of_mutatesTo {session session' : Session} {files : Directory}
    (hmut : session.MutatesTo session')
    (h : session.persistState.snapshotExists = false ∨
      ∃ saved, session.StoredIn format files saved) :
    session'.persistState.snapshotExists = false ∨
      ∃ saved, session'.StoredIn format files saved := by
  apply h.imp
  · exact fun hnew => hmut.snapshotExists.trans hnew
  · rintro ⟨saved, hsaved⟩
    exact ⟨saved, hsaved.mutatesTo hmut⟩

lemma messages_save (fs : Directory) (session : Session) (run : SaveRun) :
    (Jcode.save format fs session run).1.messages = session.messages := by
  rw [save_toPersistedSession]
  rfl

variable (s : AgentSession format json)

def messages : List StoredMessage := s.session.messages

def appendStoredMessage (message : StoredMessage) : AgentSession format json where
  session := s.session.appendStoredMessage json message
  files := s.files
  sync := s.sync.appendStoredMessage message
  inFiles :=
    have happly : (SessionMutation.appendStoredMessage message).apply s.session.toSession =
      some (s.session.toSession.appendStoredMessage message) := rfl
    inFiles_of_mutatesTo (SessionMutation.apply_mutatesTo happly (by simp)) s.inFiles

def removeToolUseBlocks (messageId : String) : AgentSession format json where
  session := s.session.removeToolUseBlocks messageId
  files := s.files
  sync :=
    have hmutate : s.session.mutate json (.removeToolUseBlocks messageId) =
      some (s.session.removeToolUseBlocks messageId) := rfl
    s.sync.mutated (mutated_of_mutate hmutate)
  inFiles := by
    have hsession : (s.session.removeToolUseBlocks messageId).toSession =
        s.session.toSession.removeToolUseBlocks messageId := by
      rw [CachedSession.removeToolUseBlocks, Session.removeToolUseBlocks]
      split_ifs <;> rfl
    have happly : (SessionMutation.removeToolUseBlocks messageId).apply s.session.toSession =
        some (s.session.removeToolUseBlocks messageId).toSession := by
      rw [hsession]
      rfl
    exact inFiles_of_mutatesTo (SessionMutation.apply_mutatesTo happly (by simp)) s.inFiles

def save (run : SaveRun) : AgentSession format json where
  session := { s.session with toSession := (Jcode.save format s.files s.session.toSession run).1 }
  files := (Jcode.save format s.files s.session.toSession run).2
  sync := s.sync.congr (messages_save ..) rfl rfl rfl rfl
  inFiles := .inr ⟨_, save_storedIn run s.inFiles⟩

/-- The session as a load finds it. -/
def load : Option Session :=
  (loadFromPath format s.files (sessionPath s.session.id)).1

end AgentSession

/-! ### The end of a response -/

/-- The inputs of the calls are the compact texts of JSON values. -/
structure AssistantResponse where
  textContent : String
  reasoningContent : String
  storeReasoningContent : Bool
  toolCalls : List ToolCall
  stopReason : Option String

/-- What the clock, the random numbers and the provider give when a response is stored. -/
structure StoreMoment where
  messageId : String
  now : Nat
  usage : StoredTokenUsage
  saved : SaveRun
  repaired : SaveRun

def toolUseBlock (call : ToolCall) : ContentBlock := .toolUse call.id call.name call.input

def contentBlocks (response : AssistantResponse) : List ContentBlock :=
  (if response.textContent = "" then [] else [.text response.textContent none]) ++
    (if response.storeReasoningContent && response.reasoningContent ≠ "" then
      [.reasoning response.reasoningContent] else []) ++
    response.toolCalls.map toolUseBlock

/-- The message that a response is stored as. -/
def storedResponse (response : AssistantResponse) (moment : StoreMoment) : StoredMessage where
  id := moment.messageId
  role := .assistant
  content := contentBlocks response
  displayRole := none
  timestamp := some moment.now
  toolDurationMs := none
  tokenUsage := some moment.usage

def isNull (call : ToolCall) : Bool := call.input = "null"

structure FinishedResponse (format : SessionFormat) (json : SessionJson) where
  session : AgentSession format json
  toolCalls : List ToolCall
  messageId : Option String

variable (s : AgentSession format json) (response : AssistantResponse) (moment : StoreMoment)

/-- The response goes into the session with all of its calls, and the session is saved. -/
def storeResponse : FinishedResponse format json :=
  if contentBlocks response = [] then ⟨s, response.toolCalls, none⟩
  else
    ⟨(s.appendStoredMessage (storedResponse response moment)).save moment.saved,
      response.toolCalls, some moment.messageId⟩

def filterTruncatedToolCalls (stored : FinishedResponse format json) (stopReason : Option String)
    (run : SaveRun) : FinishedResponse format json :=
  if !shouldContinueAfterStopReason (stopReason.getD "") then stored
  else
    let toolCalls := stored.toolCalls.filter (!isNull ·)
    let discarded := stored.toolCalls.length - toolCalls.length
    if discarded > 0 ∧ toolCalls = [] then
      match stored.messageId with
      | some messageId =>
        { stored with
          session := (stored.session.removeToolUseBlocks messageId).save run
          toolCalls := toolCalls }
      | none => { stored with toolCalls := toolCalls }
    else { stored with toolCalls := toolCalls }

def finishResponse : FinishedResponse format json :=
  filterTruncatedToolCalls (storeResponse s response moment) response.stopReason moment.repaired

/-! ### Stored calls and calls to execute -/

def storedToolUses (messages : List StoredMessage) (messageId : String) : List ContentBlock :=
  ((messages.filter (·.id = messageId)).flatMap (·.content)).filter Session.isToolUse

/-- The calls in the stored message are those that are left to execute; the provider is sent what
is stored, and a load finds the same calls. -/
structure CallsAgree (finished : FinishedResponse format json) (messageId : String) : Prop where
  transcript : storedToolUses finished.session.messages messageId =
    finished.toolCalls.map toolUseBlock
  provider : (finished.session.session.providerMessages json).1 =
    finished.session.messages.map (·.toMessage)
  files : finished.messageId = some messageId → ∃ loaded, finished.session.load = some loaded ∧
    storedToolUses loaded.messages messageId = finished.toolCalls.map toolUseBlock

variable {s response moment} {messages : List StoredMessage} {messageId : String}

lemma storedToolUses_eq_nil (hfresh : ∀ message ∈ messages, message.id ≠ messageId) :
    storedToolUses messages messageId = [] := by
  have hnone : messages.filter (·.id = messageId) = [] := by
    apply List.filter_eq_nil_iff.mpr
    simpa using hfresh
  rw [storedToolUses, hnone]
  rfl

lemma storedToolUses_append_singleton {message : StoredMessage}
    (hfresh : ∀ message ∈ messages, message.id ≠ messageId) (hid : message.id = messageId) :
    storedToolUses (messages ++ [message]) messageId =
      message.content.filter Session.isToolUse := by
  have hnone := storedToolUses_eq_nil hfresh
  rw [storedToolUses] at hnone ⊢
  rw [List.filter_append, List.flatMap_append, List.filter_append, hnone]
  simp [hid]

/-- Every call of a response is stored. -/
lemma filter_contentBlocks (response : AssistantResponse) :
    (contentBlocks response).filter Session.isToolUse = response.toolCalls.map toolUseBlock := by
  have hcalls : (response.toolCalls.map toolUseBlock).filter Session.isToolUse =
      response.toolCalls.map toolUseBlock := by
    apply List.filter_eq_self.mpr
    intro block hblock
    obtain ⟨call, -, rfl⟩ := List.mem_map.mp hblock
    rfl
  rw [contentBlocks, List.filter_append, hcalls]
  split_ifs <;> simp [Session.isToolUse]

/-- The first message with the id loses its calls. -/
lemma withoutToolUse_append_singleton {message : StoredMessage}
    (hfresh : ∀ message ∈ messages, message.id ≠ messageId) (hid : message.id = messageId) :
    Session.withoutToolUse messageId (messages ++ [message]) =
      messages ++ [{ message with content := message.content.filter (!Session.isToolUse ·) }] := by
  induction messages with
  | nil => rw [List.nil_append, Session.withoutToolUse, if_pos hid]; rfl
  | cons first rest ih =>
    obtain ⟨hfirst, hrest⟩ := List.forall_mem_cons.mp hfresh
    rw [List.cons_append, Session.withoutToolUse, if_neg hfirst, ih hrest, List.cons_append]

/-- A save leaves the messages in the files. -/
lemma AgentSession.load_save (hformat : format.Lawful) (s : AgentSession format json)
    (run : SaveRun) : ∃ loaded, (s.save run).load = some loaded ∧ loaded.messages = s.messages := by
  have hload := (save_storedIn run s.inFiles).loadFromPath hformat
  refine ⟨_, congrArg Prod.fst hload, ?_⟩
  rfl

lemma AgentSession.messages_saved (s : AgentSession format json) (run : SaveRun) :
    (s.save run).messages = s.messages :=
  AgentSession.messages_save ..

/-- The provider is sent the messages of the session. -/
lemma AgentSession.providerMessages_eq (s : AgentSession format json) :
    (s.session.providerMessages json).1 = s.messages.map (·.toMessage) := by
  show _ = s.session.messagesForProviderUncached
  rw [← messagesForProviderUncached_providerMessages]
  exact s.sync.providerMessages_complete.cache

lemma AgentSession.messages_removeToolUseBlocks (s : AgentSession format json)
    (hmem : ∃ message ∈ s.messages, message.id = messageId) :
    (s.removeToolUseBlocks messageId).messages =
      Session.withoutToolUse messageId s.messages := by
  obtain ⟨message, hmessage, hid⟩ := hmem
  have hany : s.session.messages.any (·.id = messageId) = true :=
    List.any_eq_true.mpr ⟨message, hmessage, by simpa using hid⟩
  show (s.session.removeToolUseBlocks messageId).messages = _
  rw [CachedSession.removeToolUseBlocks, if_pos hany, Session.removeToolUseBlocks, if_pos hany]
  rfl

/-- Once the session is saved, its calls are those that the files and the provider have. -/
lemma callsAgree_save_iff (hformat : format.Lawful) {run : SaveRun} {toolCalls : List ToolCall} :
    CallsAgree ⟨s.save run, toolCalls, some messageId⟩ messageId ↔
      storedToolUses s.messages messageId = toolCalls.map toolUseBlock := by
  constructor
  · intro h
    have htranscript := h.transcript
    rwa [AgentSession.messages_saved] at htranscript
  · intro h
    refine ⟨?_, AgentSession.providerMessages_eq _, fun _ => ?_⟩
    · rwa [AgentSession.messages_saved]
    · obtain ⟨loaded, hload, hmessages⟩ := s.load_save hformat run
      exact ⟨loaded, hload, by rwa [hmessages]⟩

/-- How a response that asks for continuation ends: nothing was stored, all of its calls are
removed, or the stored message stays. -/
lemma finishResponse_cases (s : AgentSession format json) (response : AssistantResponse)
    (moment : StoreMoment)
    (hasks : shouldContinueAfterStopReason (response.stopReason.getD "") = true) :
    (contentBlocks response = [] ∧ response.toolCalls = [] ∧
        finishResponse s response moment = ⟨s, [], none⟩) ∨
      ((∀ call ∈ response.toolCalls, isNull call = true) ∧ finishResponse s response moment =
        ⟨(((s.appendStoredMessage (storedResponse response moment)).save
            moment.saved).removeToolUseBlocks moment.messageId).save moment.repaired, [],
          some moment.messageId⟩) ∨
      (response.toolCalls = [] ∨ response.toolCalls.filter (!isNull ·) ≠ []) ∧
        finishResponse s response moment =
          ⟨(s.appendStoredMessage (storedResponse response moment)).save moment.saved,
            response.toolCalls.filter (!isNull ·), some moment.messageId⟩ := by
  by_cases hblocks : contentBlocks response = []
  · have hcalls : response.toolCalls = [] := by
      rw [contentBlocks] at hblocks
      exact List.map_eq_nil_iff.mp (List.append_eq_nil_iff.mp hblocks).2
    refine .inl ⟨hblocks, hcalls, ?_⟩
    simp [finishResponse, storeResponse, filterTruncatedToolCalls, hblocks, hcalls]
  · right
    simp only [finishResponse, storeResponse, if_neg hblocks, filterTruncatedToolCalls, hasks,
      Bool.not_true, Bool.false_eq_true, if_false]
    by_cases hnone : response.toolCalls.filter (!isNull ·) = []
    · by_cases hcalls : response.toolCalls = []
      · right
        simp [hcalls]
      · left
        have hpos : 0 < response.toolCalls.length := List.length_pos_iff.mpr hcalls
        constructor
        · simpa using hnone
        · simp [hnone, hpos]
    · exact .inr ⟨.inr hnone, by simp [hnone]⟩

/-- Of a response that asks for continuation, the stored calls are those that are left if and only
if none of them is truncated or all are. -/
theorem callsAgree_iff (hformat : format.Lawful)
    (hfresh : ∀ message ∈ s.messages, message.id ≠ moment.messageId)
    (hasks : shouldContinueAfterStopReason (response.stopReason.getD "") = true) :
    CallsAgree (finishResponse s response moment) moment.messageId ↔
      (∀ call ∈ response.toolCalls, isNull call = false) ∨
        ∀ call ∈ response.toolCalls, isNull call = true := by
  have hmessages : (s.appendStoredMessage (storedResponse response moment)).messages =
      s.messages ++ [storedResponse response moment] := rfl
  rcases finishResponse_cases s response moment hasks with
    ⟨-, hcalls, hfinish⟩ | ⟨hnull, hfinish⟩ | ⟨hkept, hfinish⟩
  · rw [hfinish, hcalls]
    refine iff_of_true ⟨storedToolUses_eq_nil hfresh, s.providerMessages_eq, by simp⟩
      (.inl (by simp))
  · rw [hfinish, callsAgree_save_iff hformat]
    refine iff_of_true ?_ (.inr hnull)
    rw [AgentSession.messages_removeToolUseBlocks, AgentSession.messages_saved, hmessages,
      withoutToolUse_append_singleton hfresh rfl, storedToolUses_append_singleton hfresh rfl]
    · simp
    · refine ⟨storedResponse response moment, ?_, rfl⟩
      rw [AgentSession.messages_saved, hmessages]
      simp
  · rw [hfinish, callsAgree_save_iff hformat, hmessages, storedToolUses_append_singleton hfresh rfl,
      storedResponse, filter_contentBlocks]
    constructor
    · intro hsame
      have hlength := congrArg List.length hsame
      rw [List.length_map, List.length_map] at hlength
      left
      simpa using List.length_filter_eq_length_iff.mp hlength.symm
    · rintro (hnone | hall)
      · rw [List.filter_eq_self.mpr (by simpa using hnone)]
      · have hnil : response.toolCalls.filter (!isNull ·) = [] := by simpa using hall
        rw [(hkept.resolve_right (not_not_intro hnil))]
        rfl

/-- A session that has just been created. -/
def createdSession (format : SessionFormat) : AgentSession format plainJson where
  session := newSession.withNewCaches
  files := fun _ => none
  sync := (Opened.created newSession rfl rfl rfl rfl).cacheInSync
  inFiles := .inl rfl

def replyMoment : StoreMoment := ⟨"reply", 2, ⟨0, 0, none, none⟩, savedAt 2, savedAt 3⟩

/-- A response with calls that was cut off at the limit of its tokens. -/
def cutResponse (toolCalls : List ToolCall) : AssistantResponse :=
  ⟨"On it.", "", false, toolCalls, some "max_tokens"⟩

lemma cutResponse_asks (toolCalls : List ToolCall) : shouldContinueAfterStopReason
    ((cutResponse toolCalls).stopReason.getD "") = true := by
  show shouldContinueAfterStopReason "max_tokens" = true
  decide

theorem callsAgree_allTruncated :
    CallsAgree (finishResponse (createdSession (unaryFormat redatedEntry))
      (cutResponse [⟨"1", "bash", "null"⟩]) replyMoment) "reply" := by
  have hfresh : ∀ message ∈ (createdSession (unaryFormat redatedEntry)).messages,
      message.id ≠ replyMoment.messageId := by rintro _ ⟨⟩
  exact (callsAgree_iff (unaryFormat_lawful _) hfresh (cutResponse_asks _)).mpr (.inr (by decide))

/-- A call that arrived and one that was cut off. -/
def mixedCalls : List ToolCall := [⟨"1", "read", "\x7b\x7d"⟩, ⟨"2", "bash", "null"⟩]

/-- The truncated call is discarded, and stays in the stored message. -/
theorem not_callsAgree :
    ¬ CallsAgree (finishResponse (createdSession (unaryFormat redatedEntry))
      (cutResponse mixedCalls) replyMoment) "reply" := by
  rcases finishResponse_cases (createdSession (unaryFormat redatedEntry)) (cutResponse mixedCalls)
      replyMoment (cutResponse_asks _) with
    ⟨-, hcalls, -⟩ | ⟨hnull, -⟩ | ⟨-, hfinish⟩
  · exact absurd hcalls (by decide)
  · exact absurd hnull (by decide)
  · rw [hfinish]
    intro h
    have hstored := (callsAgree_save_iff (unaryFormat_lawful redatedEntry)).mp h
    exact absurd hstored (by decide)

end Jcode
