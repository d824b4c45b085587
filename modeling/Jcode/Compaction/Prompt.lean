import Jcode.Compaction.EmergencyTruncation

/-!
# The prompt for a summary

`build_compaction_prompt` puts the conversation in front of the instructions and cuts it off when
both are too long. The 50 bytes it reserves for what stands around the conversation are fewer than
the remark about the cut and the separator take.
-/

namespace Jcode

def summaryPrompt : String :=
  "Summarize our conversation so you can continue this work later.\n\n" ++
  "Write in natural language with these sections:\n" ++
  "- **Context:** What we're working on and why (1-2 sentences)\n" ++
  "- **What we did:** Key actions taken, files changed, problems solved\n" ++
  "- **Current state:** What works, what's broken, what's next\n" ++
  "- **User preferences:** Specific requirements or decisions they made\n\n" ++
  "Be concise but preserve important details. You can search the full conversation later if you " ++
  "need exact error messages or code snippets."

/-! ### The conversation -/

def conversationBlockText : ContentBlock → String
  | .text text _ => text ++ "\n"
  | .toolUse _ name input => "[Tool: " ++ name ++ " - " ++ input ++ "]\n"
  | .toolResult _ content _ =>
    let truncated :=
      if content.utf8ByteSize > 500 then truncateStrBoundary content 500 ++ "... (truncated)"
      else content
    "[Result: " ++ truncated ++ "]\n"
  | .reasoning _ => ""
  | .image _ _ => "[Image]\n"
  | .openAICompaction _ => "[OpenAI native compaction]\n"

def roleStr : Role → String
  | .user => "User"
  | .assistant => "Assistant"

def buildCompactionConversationText (messages : List Message) (existingSummary : Option Summary) :
    String :=
  let conversationText :=
    match existingSummary with
    | some summary => "## Previous Summary\n\n" ++ summary.text ++ "\n\n## New Conversation\n\n"
    | none => ""
  messages.foldl (fun conversationText msg =>
    let conversationText := conversationText ++ ("**" ++ roleStr msg.role ++ ":**\n")
    msg.content.foldl (fun text block => text ++ conversationBlockText block) conversationText ++
      "\n") conversationText

/-! ### The prompt -/

/-- What is reserved for everything but the conversation. -/
def promptOverhead : Nat := summaryPrompt.utf8ByteSize + 50

def truncationMarker : String :=
  "\n\n... [earlier conversation truncated to fit context window]\n"

def promptSeparator : String := "\n\n---\n\n"

def buildCompactionPrompt (messages : List Message) (existingSummary : Option Summary)
    (maxPromptChars : Nat) : String :=
  let conversationText := buildCompactionConversationText messages existingSummary
  let conversationText :=
    if conversationText.utf8ByteSize + promptOverhead > maxPromptChars ∧
        maxPromptChars > promptOverhead then
      truncateStrBoundary conversationText (maxPromptChars - promptOverhead) ++ truncationMarker
    else conversationText
  conversationText ++ promptSeparator ++ summaryPrompt

/-- The prompt is within the limit, ends with the instructions, and the conversation is whole or
cut between two characters. -/
structure KeepsBudget (messages : List Message) (existingSummary : Option Summary)
    (maxPromptChars : Nat) : Prop where
  size : (buildCompactionPrompt messages existingSummary maxPromptChars).utf8ByteSize ≤
    maxPromptChars
  instructions : ∃ front,
    buildCompactionPrompt messages existingSummary maxPromptChars = front ++ summaryPrompt
  cut : ∃ kept rest, buildCompactionConversationText messages existingSummary = kept ++ rest ∧
    (buildCompactionPrompt messages existingSummary maxPromptChars =
        kept ++ promptSeparator ++ summaryPrompt ∧ rest = "" ∨
      buildCompactionPrompt messages existingSummary maxPromptChars =
        kept ++ truncationMarker ++ promptSeparator ++ summaryPrompt)

variable {messages : List Message} {existingSummary : Option Summary} {maxPromptChars n : Nat}

lemma prompt_of_fits (h : (buildCompactionConversationText messages existingSummary).utf8ByteSize +
    promptOverhead ≤ maxPromptChars) :
    buildCompactionPrompt messages existingSummary maxPromptChars =
      buildCompactionConversationText messages existingSummary ++ promptSeparator ++
        summaryPrompt := by
  rw [buildCompactionPrompt, if_neg (by omega)]

lemma prompt_of_not_fits (hmax : promptOverhead < maxPromptChars)
    (h : ¬ (buildCompactionConversationText messages existingSummary).utf8ByteSize +
      promptOverhead ≤ maxPromptChars) :
    buildCompactionPrompt messages existingSummary maxPromptChars =
      truncateStrBoundary (buildCompactionConversationText messages existingSummary)
        (maxPromptChars - promptOverhead) ++ truncationMarker ++ promptSeparator ++
        summaryPrompt := by
  rw [buildCompactionPrompt, if_pos (by omega)]

lemma utf8ByteSize_truncationMarker : truncationMarker.utf8ByteSize = 61 := rfl

lemma utf8ByteSize_summaryPrompt : summaryPrompt.utf8ByteSize = 508 := by decide +kernel

lemma promptOverhead_eq : promptOverhead = 558 := by decide +kernel

lemma utf8ByteSize_promptSeparator : promptSeparator.utf8ByteSize = 7 := rfl

lemma lt_truncateStrBoundary {value : String} (h : n < value.utf8ByteSize) :
    n < (truncateStrBoundary value n).utf8ByteSize + 4 := by
  rw [truncateStrBoundary, utf8ByteSize_ofList]
  rw [← bytes_toList] at h
  exact lt_bytes_takeBytes h

/-- With the remark about the cut the prompt is always too long. -/
lemma lt_prompt_of_not_fits (hmax : promptOverhead < maxPromptChars)
    (h : ¬ (buildCompactionConversationText messages existingSummary).utf8ByteSize +
      promptOverhead ≤ maxPromptChars) :
    maxPromptChars <
      (buildCompactionPrompt messages existingSummary maxPromptChars).utf8ByteSize := by
  have hkept : maxPromptChars - promptOverhead <
      (truncateStrBoundary (buildCompactionConversationText messages existingSummary)
        (maxPromptChars - promptOverhead)).utf8ByteSize + 4 := lt_truncateStrBoundary (by omega)
  rw [prompt_of_not_fits hmax h]
  rw [promptOverhead_eq] at hkept hmax
  simp only [String.utf8ByteSize_append, utf8ByteSize_truncationMarker,
    utf8ByteSize_promptSeparator, utf8ByteSize_summaryPrompt, promptOverhead_eq]
  omega

lemma keepsBudget_of_fits
    (h : (buildCompactionConversationText messages existingSummary).utf8ByteSize +
      promptOverhead ≤ maxPromptChars) : KeepsBudget messages existingSummary maxPromptChars where
  size := by
    rw [prompt_of_fits h]
    rw [promptOverhead_eq] at h
    simp only [String.utf8ByteSize_append, utf8ByteSize_promptSeparator,
      utf8ByteSize_summaryPrompt]
    omega
  instructions := ⟨_, prompt_of_fits h⟩
  cut := ⟨_, "", (String.append_empty).symm, .inl ⟨prompt_of_fits h, rfl⟩⟩

/-- The prompt keeps its budget exactly if the conversation fits and nothing is cut off. -/
theorem keepsBudget_iff (messages : List Message) (existingSummary : Option Summary)
    (maxPromptChars : Nat) (hmax : promptOverhead < maxPromptChars) :
    KeepsBudget messages existingSummary maxPromptChars ↔
      (buildCompactionConversationText messages existingSummary).utf8ByteSize +
        promptOverhead ≤ maxPromptChars := by
  constructor
  · intro hkeeps
    by_contra hlong
    exact absurd hkeeps.size (lt_prompt_of_not_fits hmax hlong).not_ge
  · exact keepsBudget_of_fits

/-- A user message of a thousand letters. -/
def thousandLetters : List Message := [⟨.user, [.text (letters 1000) none], none, none⟩]

lemma utf8ByteSize_thousandLetters :
    (buildCompactionConversationText thousandLetters none).utf8ByteSize = 1012 := by
  have hletters : (letters 1000).utf8ByteSize = 1000 := utf8ByteSize_replicate 1000
  have hrole : ("**" ++ roleStr .user ++ ":**\n").utf8ByteSize = 10 := by decide +kernel
  have hnewline : "\n".utf8ByteSize = 1 := rfl
  simp only [buildCompactionConversationText, thousandLetters, List.foldl_cons, List.foldl_nil,
    conversationBlockText, String.utf8ByteSize_append, hletters, hnewline] at hrole ⊢
  rw [String.utf8ByteSize_empty, hrole]

theorem keepsBudget_iff_thousandLetters :
    promptOverhead < 2000 ∧ (KeepsBudget thousandLetters none 2000 ↔
      (buildCompactionConversationText thousandLetters none).utf8ByteSize +
        promptOverhead ≤ 2000) :=
  have hroom : promptOverhead < 2000 := by
    rw [promptOverhead_eq]
    decide
  ⟨hroom, keepsBudget_iff thousandLetters none 2000 hroom⟩

theorem not_keepsBudget :
    ¬ ∀ (messages : List Message) (existingSummary : Option Summary) (maxPromptChars : Nat),
      promptOverhead < maxPromptChars →
        KeepsBudget messages existingSummary maxPromptChars := by
  intro h
  have hroom : promptOverhead < 800 := by
    rw [promptOverhead_eq]
    decide
  have hlong : ¬ (buildCompactionConversationText thousandLetters none).utf8ByteSize +
      promptOverhead ≤ 800 := by
    rw [utf8ByteSize_thousandLetters]
    omega
  exact (lt_prompt_of_not_fits hroom hlong).not_ge (h thousandLetters none 800 hroom).size

end Jcode
