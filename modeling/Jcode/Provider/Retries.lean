import Jcode.Foundation.SplitFirst
import Jcode.Provider.StreamEvent

/-!
# Retries of a stream

`run_stream_with_retries` of the OpenRouter and the Anthropic provider: what goes over the channel
to the turn loop for a sequence of attempts. `lowercase` is the full lower-case mapping. Pauses and
log messages are left out.
-/

namespace Jcode

/-- The token counts at the end of a stream. -/
structure TokenCounts where
  inputTokens : Option Nat
  outputTokens : Option Nat
  cacheReadInputTokens : Option Nat
  cacheCreationInputTokens : Option Nat
deriving DecidableEq

/-- What is read from the body of a response, and the text of the error that ends it. Neither
provider reads a session id. -/
structure ResponseBody where
  events : List StreamEvent
  failure : Option String
  tokens : TokenCounts
  noSession : ∀ sid, .sessionId sid ∉ events

/-- How one attempt comes out. -/
inductive Attempt
  | refused (error : String)
  | accepted (body : ResponseBody)

/-- An item of the channel: an event, or the text of an error. -/
abbrev StreamItem := Except String StreamEvent

def maxRetries : Nat := 3

def transientMarkers : List String := [
  "connection reset", "connection closed", "connection refused", "connection aborted",
  "broken pipe", "timed out", "timeout", "operation timed out", "error decoding",
  "error reading", "unexpected eof", "tls handshake eof", "badrecordmac", "bad_record_mac",
  "fatal alert: badrecordmac", "fatal alert: bad_record_mac",
  "received fatal alert: badrecordmac", "received fatal alert: bad_record_mac",
  "decryption failed or bad record mac", "temporary failure in name resolution",
  "failed to lookup address information", "dns error", "name or service not known",
  "no route to host", "network is unreachable", "host is unreachable"]

def isTransientTransportError (errorStr : String) : Bool :=
  transientMarkers.any (containsText errorStr.toLower)

def failedAfterRetries (error : String) : String :=
  "Failed after " ++ toString maxRetries ++ " retries: " ++ error

section

variable (lowercase : String → String) (attempts : Nat → Attempt)

/-! ### OpenRouter -/

namespace OpenRouter

def isRetryableError (errorStr : String) : Bool :=
  isTransientTransportError errorStr || containsText errorStr "stream error" ||
    containsText errorStr "eof" ||
    containsText errorStr "5" &&
      (containsText errorStr "50" || containsText errorStr "502" || containsText errorStr "503" ||
        containsText errorStr "504" || containsText errorStr "internal server error") ||
    containsText errorStr "overloaded"

/-- What an attempt sends, and its error. -/
def streamResponse : Attempt → List StreamEvent × Option String
  | .refused error => ([.connectionPhase .connecting], some error)
  | .accepted body =>
    (.connectionPhase .connecting :: .connectionPhase .waitingForResponse :: body.events,
      body.failure)

/-- What is sent from an attempt on, with the number of attempts that are left. -/
def runAttempts : Nat → Nat → Option String → List StreamItem
  | 0, _, lastError => (lastError.map fun error => .error (failedAfterRetries error)).toList
  | left + 1, attempt, _ =>
    let (events, failure) := streamResponse (attempts attempt)
    events.map .ok ++
      match failure with
      | none => []
      | some error =>
        if isRetryableError (lowercase error) ∧ attempt + 1 < maxRetries then
          runAttempts left (attempt + 1) (some error)
        else [.error error]

def runStreamWithRetries : List StreamItem := runAttempts lowercase attempts maxRetries 0 none

end OpenRouter

/-! ### Anthropic -/

namespace Anthropic

def isRetryableError (errorStr : String) : Bool :=
  isTransientTransportError errorStr || containsText errorStr "500 internal server error" ||
    containsText errorStr "502 bad gateway" || containsText errorStr "503 service unavailable" ||
    containsText errorStr "504 gateway timeout" || containsText errorStr "overloaded" ||
    containsText errorStr "429 too many requests" || containsText errorStr "rate limit" ||
    containsText errorStr "rate_limit" || containsText errorStr "api_error" ||
    containsText errorStr "internal server error"

def isOauthAuthError (errorStr : String) : Bool :=
  containsText errorStr "oauth token has expired" || containsText errorStr "token has expired" ||
    containsText errorStr "authentication_error" || containsText errorStr "invalid token" ||
    containsText errorStr "invalid_grant" ||
    containsText errorStr "does not meet scope requirement" ||
    (containsText errorStr "401 unauthorized" || containsText errorStr "403 forbidden") &&
      (containsText errorStr "oauth" || containsText errorStr "token")

/-- The events up to an error event that is worth a retry. -/
def forwardEvents : List StreamEvent → List StreamEvent × Option String
  | [] => ([], none)
  | .error message retryAfterSecs :: events =>
    if isRetryableError (lowercase message) then ([], some ("Retryable stream error: " ++ message))
    else
      let (sent, failure) := forwardEvents events
      (.error message retryAfterSecs :: sent, failure)
  | event :: events =>
    let (sent, failure) := forwardEvents events
    (event :: sent, failure)

def finalUsage (tokens : TokenCounts) : List StreamEvent :=
  if tokens.inputTokens.isSome ∨ tokens.outputTokens.isSome then
    [.tokenUsage tokens.inputTokens tokens.outputTokens tokens.cacheReadInputTokens
      tokens.cacheCreationInputTokens]
  else []

/-- What an attempt sends, and its error. -/
def streamResponse : Attempt → List StreamEvent × Option String
  | .refused error => ([.connectionPhase .connecting], some error)
  | .accepted body =>
    let start := [.connectionPhase .connecting, .connectionPhase .waitingForResponse]
    match forwardEvents lowercase body.events with
    | (sent, some error) => (start ++ sent, some error)
    | (sent, none) =>
      match body.failure with
      | some error => (start ++ sent, some error)
      | none => (start ++ sent ++ finalUsage body.tokens, none)

def retryPhase (attempt : Nat) : List StreamEvent :=
  if attempt > 0 then [.connectionPhase (.retrying (attempt + 1) maxRetries)] else []

variable (isOauth : Bool) (refresh : Except String Unit)

/-- What is sent from an attempt on, with the number of attempts that are left and whether a token
refresh was forced. `refresh` is how that comes out. -/
def runAttempts : Nat → Nat → Option String → Bool → List StreamItem
  | 0, _, lastError, _ => (lastError.map fun error => .error (failedAfterRetries error)).toList
  | left + 1, attempt, _, attemptedForcedRefresh =>
    let (events, failure) := streamResponse lowercase (attempts attempt)
    (retryPhase attempt ++ events).map .ok ++
      match failure with
      | none => []
      | some error =>
        if isOauth ∧ isOauthAuthError (lowercase error) ∧ !attemptedForcedRefresh then
          .ok (.connectionPhase .authenticating) ::
            match refresh with
            | .ok () => runAttempts left (attempt + 1) (some error) true
            | .error refreshError => [.error (error ++ "\n\nAutomatic Claude OAuth refresh failed: " ++
                refreshError ++
                "\nRun `jcode login --provider claude` (preferred) or `claude`, then retry.")]
        else if isRetryableError (lowercase error) ∧ attempt + 1 < maxRetries then
          runAttempts left (attempt + 1) (some error) attemptedForcedRefresh
        else if isOauth ∧ isOauthAuthError (lowercase error) then
          [.error (error ++ "\n\nClaude OAuth authentication failed. " ++
            "Run `jcode login --provider claude` (preferred) or `claude`, then retry.")]
        else [.error error]

def runStreamWithRetries : List StreamItem :=
  runAttempts lowercase attempts isOauth refresh maxRetries 0 none false

end Anthropic

end

end Jcode
