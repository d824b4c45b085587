import Mathlib.Tactic.Common

/-!
# Messages

Conversation messages (`jcode-message-types`), their stored form (`jcode-session-types`) and
which stored messages count as part of the visible conversation (`session.rs`).
-/

namespace Jcode

inductive Role
  | user
  | assistant
deriving DecidableEq

structure CacheControl where
  kind : String
  ttl : Option String
deriving DecidableEq

/-- The `input` of a tool use is a JSON value; it is kept as its compact text. -/
inductive ContentBlock
  | text (text : String) (cacheControl : Option CacheControl)
  | reasoning (text : String)
  | toolUse (id name input : String)
  | toolResult (toolUseId content : String) (isError : Option Bool)
  | image (mediaType data : String)
  | openAICompaction (encryptedContent : String)
deriving DecidableEq

/-- Timestamps are milliseconds. -/
structure Message where
  role : Role
  content : List ContentBlock
  timestamp : Option Nat
  toolDurationMs : Option Nat
deriving DecidableEq

inductive StoredDisplayRole
  | system
  | backgroundTask
deriving DecidableEq

structure StoredTokenUsage where
  inputTokens : Nat
  outputTokens : Nat
  cacheReadInputTokens : Option Nat
  cacheCreationInputTokens : Option Nat
deriving DecidableEq

structure StoredMessage where
  id : String
  role : Role
  content : List ContentBlock
  displayRole : Option StoredDisplayRole
  timestamp : Option Nat
  toolDurationMs : Option Nat
  tokenUsage : Option StoredTokenUsage
deriving DecidableEq

def StoredMessage.toMessage (message : StoredMessage) : Message where
  role := message.role
  content := message.content
  timestamp := message.timestamp
  toolDurationMs := message.toolDurationMs

/-! ### The visible conversation -/

/-- The characters with the Unicode property `White_Space`, which `trim_start` removes. -/
def isWhitespace (c : Char) : Bool :=
  let n := c.toNat
  (0x9 ≤ n && n ≤ 0xd) || n = 0x20 || n = 0x85 || n = 0xa0 || n = 0x1680 ||
    (0x2000 ≤ n && n ≤ 0x200a) || n = 0x2028 || n = 0x2029 || n = 0x202f || n = 0x205f || n = 0x3000

/-- A text is checked character by character. -/
lemma forall_mem_of_all {p : Char → Prop} [DecidablePred p] {text : List Char}
    (h : text.all fun c => decide (p c)) : ∀ c ∈ text, p c := by
  simpa using h

lemma isWhitespace_of_isDigit {c : Char} (h : c.isDigit = true) : isWhitespace c = false := by
  have hrange : 48 ≤ c.toNat ∧ c.toNat ≤ 57 := by
    simpa [Char.isDigit, UInt32.le_iff_toNat_le] using h
  simp only [isWhitespace, Bool.or_eq_false_iff, Bool.and_eq_false_iff, decide_eq_false_iff_not]
  omega

def isInternalSystemReminderMessage (message : StoredMessage) : Bool :=
  let text := message.content.findSome? fun
    | .text text _ => some (text.toList.dropWhile isWhitespace)
    | _ => none
  text.any fun text => "<system-reminder>".toList.isPrefixOf text

def isVisibleConversationMessage (message : StoredMessage) : Bool :=
  message.displayRole.isNone && !isInternalSystemReminderMessage message

def visibleConversationMessageCount (messages : List StoredMessage) : Nat :=
  (messages.filter isVisibleConversationMessage).length

/-- The loop of `stored_len_for_visible_conversation_message`, from `storedIndex` on with
`count` visible messages seen. -/
def storedLenFrom (visibleIndex storedIndex count : Nat) : List StoredMessage → Option Nat
  | [] => none
  | message :: messages =>
    if isVisibleConversationMessage message then
      if count + 1 = visibleIndex then some (storedIndex + 1)
      else storedLenFrom visibleIndex (storedIndex + 1) (count + 1) messages
    else storedLenFrom visibleIndex (storedIndex + 1) count messages

def storedLenForVisibleConversationMessage (messages : List StoredMessage) (visibleIndex : Nat) :
    Option Nat :=
  if visibleIndex = 0 then none else storedLenFrom visibleIndex 0 0 messages

lemma storedLenFrom_le {visibleIndex n : Nat} {messages : List StoredMessage} :
    ∀ {storedIndex count}, storedLenFrom visibleIndex storedIndex count messages = some n →
      storedIndex < n ∧ n ≤ storedIndex + messages.length := by
  induction messages with
  | nil =>
    intro storedIndex count h
    cases h
  | cons message messages ih =>
    intro storedIndex count h
    simp only [storedLenFrom] at h
    split_ifs at h
    · cases h
      simp
    all_goals
      have := ih h
      simp only [List.length_cons]
      omega

/-- A rewind point lies inside the transcript. -/
lemma storedLenForVisibleConversationMessage_le {visibleIndex n : Nat}
    {messages : List StoredMessage}
    (h : storedLenForVisibleConversationMessage messages visibleIndex = some n) :
    0 < n ∧ n ≤ messages.length := by
  unfold storedLenForVisibleConversationMessage at h
  split_ifs at h
  simpa using storedLenFrom_le h

end Jcode
