import Jcode.Message
import Mathlib.Data.Finset.Basic
import Mathlib.Algebra.GroupWithZero.Nat

/-!
# Compaction core

Sizes, token estimates and the cutoff search of `jcode-compaction-core`.
-/

namespace Jcode

/-! ### Constants -/

def defaultTokenBudget : Nat := 200000

/-- Keep this many recent turns verbatim. -/
def recentTurnsToKeep : Nat := 10

/-- Absolute minimum of turns kept by an emergency compaction. -/
def minTurnsToKeep : Nat := 2

def charsPerToken : Nat := 4

/-- Tokens for the system prompt and the tool definitions. -/
def systemOverheadTokens : Nat := 18000

def tokenHistoryWindow : Nat := 20

def embedMaxCharsPerMsg : Nat := 512

def embeddingHistoryWindow : Nat := 10

/-- `OPENAI_ENCRYPTED_CONTENT_PROVIDER_MAX_CHARS` and `OPENAI_ENCRYPTED_CONTENT_SAFE_MAX_CHARS`. -/
def openaiEncryptedContentProviderMaxChars : Nat := 10485760
def openaiEncryptedContentSafeMaxChars : Nat := 9500000

/-! ### Summaries -/

structure Summary where
  text : String
  openaiEncryptedContent : Option String
  coversUpToTurn : Nat
  originalTurnCount : Nat
deriving DecidableEq

def compactedSummaryTextBlock (summary : String) : String :=
  "## Previous Conversation Summary\n\n" ++ summary ++ "\n\n---\n\n"

def openaiEncryptedContentIsSendable (encryptedContent : String) : Bool :=
  encryptedContent.utf8ByteSize ≤ openaiEncryptedContentSafeMaxChars

def openaiEncryptedContentFallbackSummary (encryptedContentLen : Nat) : String :=
  "OpenAI native compaction state was discarded because its encrypted payload was " ++
    toString encryptedContentLen ++ " chars, above Jcode's safe replay limit of " ++
    toString openaiEncryptedContentSafeMaxChars ++ " chars (provider hard limit: " ++
    toString openaiEncryptedContentProviderMaxChars ++ " chars). Earlier compacted details may " ++
    "be unavailable; use the recent visible messages and session search/tools if exact prior " ++
    "details are needed."

/-! ### Sizes -/

/-- `content_char_count`; `len` of a string is its size in bytes. -/
def contentCharCount (content : List ContentBlock) : Nat :=
  (content.map fun
    | .text text _ => text.utf8ByteSize
    | .reasoning text => text.utf8ByteSize
    | .toolUse _ _ input => input.utf8ByteSize + 50
    | .toolResult _ content _ => content.utf8ByteSize + 20
    | .image _ data => data.utf8ByteSize
    | .openAICompaction encryptedContent => encryptedContent.utf8ByteSize).sum

def messageCharCount (msg : Message) : Nat := contentCharCount msg.content

def summaryPayloadCharCount (summary : Summary) : Nat :=
  match summary.openaiEncryptedContent with
  | some value => value.utf8ByteSize
  | none => summary.text.utf8ByteSize

def estimateCompactionTokensFromChars (totalChars tokenBudget : Nat) : Nat :=
  let msgTokens := totalChars / charsPerToken
  let overhead := if tokenBudget ≥ defaultTokenBudget / 2 then systemOverheadTokens else 0
  msgTokens + overhead

def estimateCompactionTokens (summary : Option Summary) (activeMessageChars tokenBudget : Nat) :
    Nat :=
  let summaryChars := (summary.map summaryPayloadCharCount).getD 0
  estimateCompactionTokensFromChars (summaryChars + activeMessageChars) tokenBudget

/-! ### Semantic texts -/

def pushSemanticExcerpt (target source : String) (maxChars : Nat) : String :=
  if source.isEmpty then target
  else
    let target := if target.isEmpty then target else target.push ' '
    target ++ String.ofList (source.toList.take maxChars)

def semanticGoalText (messages : List Message) : String :=
  messages.foldl (fun text msg => msg.content.foldl (fun text block =>
    match block with
    | .text blockText _ => pushSemanticExcerpt text blockText 200
    | .toolResult _ content _ => pushSemanticExcerpt text content 100
    | _ => text) text) ""

def semanticMessageText (msg : Message) : String :=
  msg.content.foldl (fun text block =>
    match block with
    | .text blockText _ => pushSemanticExcerpt text blockText embedMaxCharsPerMsg
    | _ => text) ""

/-! ### The cutoff search -/

/-- `available_tool_ids` and `missing_tool_ids`. -/
structure ToolIds where
  available : Finset String
  missing : Finset String
deriving DecidableEq

def ToolIds.empty : ToolIds where
  available := ∅
  missing := ∅

def ToolIds.seeBlock (ids : ToolIds) : ContentBlock → ToolIds
  | .toolUse id _ _ =>
    { available := insert id ids.available, missing := ids.missing.erase id }
  | .toolResult toolUseId _ _ =>
    if toolUseId ∈ ids.available then ids
    else { ids with missing := insert toolUseId ids.missing }
  | _ => ids

def ToolIds.see (ids : ToolIds) (msg : Message) : ToolIds := msg.content.foldl seeBlock ids

/-- The backward walk: the prefix reversed, from the cutoff down. -/
def walkBackward (ids : ToolIds) : List Message → Nat
  | [] => 0
  | msg :: earlier =>
    let ids := ids.see msg
    if ids.missing = ∅ then earlier.length else walkBackward ids earlier

/-- Find a cutoff that leaves no kept tool result without its tool call; `0` if there is none. -/
def safeCompactionCutoff (messages : List Message) (initialCutoff : Nat) : Nat :=
  let cutoff := min initialCutoff messages.length
  let ids := (messages.drop cutoff).foldl ToolIds.see .empty
  if ids.missing = ∅ then cutoff else walkBackward ids (messages.take cutoff).reverse

lemma walkBackward_le {ids : ToolIds} {messages : List Message} :
    walkBackward ids messages ≤ messages.length := by
  induction messages generalizing ids with
  | nil => exact Nat.le_refl 0
  | cons msg earlier ih =>
    simp only [walkBackward, List.length_cons]
    split_ifs
    · omega
    · have := @ih (ids.see msg)
      omega

/-- The search never moves the cutoff forward and stays inside the messages. -/
lemma safeCompactionCutoff_le {messages : List Message} {initialCutoff : Nat} :
    safeCompactionCutoff messages initialCutoff ≤ min initialCutoff messages.length := by
  simp only [safeCompactionCutoff]
  split_ifs
  · exact Nat.le_refl _
  · refine walkBackward_le.trans ?_
    simp

end Jcode
