import Mathlib.Tactic.Common

/-!
# Stream events

What a provider's stream yields (`StreamEvent` of `jcode-message-types`).
-/

namespace Jcode

inductive ConnectionPhase
  | authenticating
  | connecting
  | waitingForResponse
  | streaming
  | retrying (attempt max : Nat)
deriving DecidableEq

/-- The duration of `thinkingDone` is kept as its text with one decimal, the input of a native
tool call as its compact text. -/
inductive StreamEvent
  | textDelta (text : String)
  | toolUseStart (id name : String)
  | toolInputDelta (delta : String)
  | toolUseEnd
  | toolResult (toolUseId content : String) (isError : Bool)
  | generatedImage (id path : String) (metadataPath : Option String) (outputFormat : String)
      (revisedPrompt : Option String)
  | thinkingStart
  | thinkingDelta (thinking : String)
  | thinkingEnd
  | thinkingDone (durationSecs : String)
  | messageEnd (stopReason : Option String)
  | tokenUsage (inputTokens outputTokens cacheReadInputTokens cacheCreationInputTokens : Option Nat)
  | connectionType (connection : String)
  | connectionPhase (phase : ConnectionPhase)
  | statusDetail (detail : String)
  | error (message : String) (retryAfterSecs : Option Nat)
  | sessionId (sid : String)
  | compaction (trigger : String) (preTokens : Option Nat) (openaiEncryptedContent : Option String)
  | upstreamProvider (provider : String)
  | nativeToolCall (requestId toolName input : String)
deriving DecidableEq

namespace StreamEvent

def isError : StreamEvent → Bool
  | .error _ _ => true
  | _ => false

def isToolUseStart : StreamEvent → Bool
  | .toolUseStart _ _ => true
  | _ => false

end StreamEvent

end Jcode
