import Jcode.Message

/-!
# Statistics of content blocks

`ContentBlockMemoryStats` (`session/memory_profile.rs`) counts blocks and bytes by kind. Statistics
of parts can be merged, and what a message adds to the statistics of the messages before it is what
it comes to by itself.
-/

namespace Jcode

def LARGE_MEMORY_BLOB_THRESHOLD_BYTES : Nat := 16 * 1024

@[ext]
structure ContentBlockMemoryStats where
  blockCount : Nat
  textBlocks : Nat
  textBytes : Nat
  reasoningBlocks : Nat
  reasoningBytes : Nat
  toolUseBlocks : Nat
  toolUseInputJsonBytes : Nat
  toolResultBlocks : Nat
  toolResultBytes : Nat
  imageBlocks : Nat
  imageDataBytes : Nat
  openaiCompactionBlocks : Nat
  openaiCompactionBytes : Nat
  largeBlockCount : Nat
  largeBlockBytes : Nat
  largeToolResultCount : Nat
  largeToolResultBytes : Nat
  maxBlockBytes : Nat
  maxToolResultBytes : Nat
deriving DecidableEq

namespace ContentBlockMemoryStats

def default : ContentBlockMemoryStats where
  blockCount := 0
  textBlocks := 0
  textBytes := 0
  reasoningBlocks := 0
  reasoningBytes := 0
  toolUseBlocks := 0
  toolUseInputJsonBytes := 0
  toolResultBlocks := 0
  toolResultBytes := 0
  imageBlocks := 0
  imageDataBytes := 0
  openaiCompactionBlocks := 0
  openaiCompactionBytes := 0
  largeBlockCount := 0
  largeBlockBytes := 0
  largeToolResultCount := 0
  largeToolResultBytes := 0
  maxBlockBytes := 0
  maxToolResultBytes := 0

variable (stats other : ContentBlockMemoryStats)

def mergeFrom : ContentBlockMemoryStats where
  blockCount := stats.blockCount + other.blockCount
  textBlocks := stats.textBlocks + other.textBlocks
  textBytes := stats.textBytes + other.textBytes
  reasoningBlocks := stats.reasoningBlocks + other.reasoningBlocks
  reasoningBytes := stats.reasoningBytes + other.reasoningBytes
  toolUseBlocks := stats.toolUseBlocks + other.toolUseBlocks
  toolUseInputJsonBytes := stats.toolUseInputJsonBytes + other.toolUseInputJsonBytes
  toolResultBlocks := stats.toolResultBlocks + other.toolResultBlocks
  toolResultBytes := stats.toolResultBytes + other.toolResultBytes
  imageBlocks := stats.imageBlocks + other.imageBlocks
  imageDataBytes := stats.imageDataBytes + other.imageDataBytes
  openaiCompactionBlocks := stats.openaiCompactionBlocks + other.openaiCompactionBlocks
  openaiCompactionBytes := stats.openaiCompactionBytes + other.openaiCompactionBytes
  largeBlockCount := stats.largeBlockCount + other.largeBlockCount
  largeBlockBytes := stats.largeBlockBytes + other.largeBlockBytes
  largeToolResultCount := stats.largeToolResultCount + other.largeToolResultCount
  largeToolResultBytes := stats.largeToolResultBytes + other.largeToolResultBytes
  maxBlockBytes := max stats.maxBlockBytes other.maxBlockBytes
  maxToolResultBytes := max stats.maxToolResultBytes other.maxToolResultBytes

def recordBytes (bytes : Nat) : ContentBlockMemoryStats :=
  let stats := { stats with maxBlockBytes := max stats.maxBlockBytes bytes }
  if bytes ≥ LARGE_MEMORY_BLOB_THRESHOLD_BYTES then
    { stats with
      largeBlockCount := stats.largeBlockCount + 1
      largeBlockBytes := stats.largeBlockBytes + bytes }
  else stats

/-- The results keep their own count of large ones. -/
def recordToolResult (bytes : Nat) : ContentBlockMemoryStats :=
  let stats := { stats with
    toolResultBlocks := stats.toolResultBlocks + 1
    toolResultBytes := stats.toolResultBytes + bytes
    maxToolResultBytes := max stats.maxToolResultBytes bytes }
  if bytes ≥ LARGE_MEMORY_BLOB_THRESHOLD_BYTES then
    { stats with
      largeToolResultCount := stats.largeToolResultCount + 1
      largeToolResultBytes := stats.largeToolResultBytes + bytes }
  else stats

/-- The input of a tool use is kept as its JSON text. -/
def recordBlock (block : ContentBlock) : ContentBlockMemoryStats :=
  let stats := { stats with blockCount := stats.blockCount + 1 }
  match block with
  | .text text _ =>
    { stats with
      textBlocks := stats.textBlocks + 1
      textBytes := stats.textBytes + text.utf8ByteSize }.recordBytes text.utf8ByteSize
  | .reasoning text =>
    { stats with
      reasoningBlocks := stats.reasoningBlocks + 1
      reasoningBytes := stats.reasoningBytes + text.utf8ByteSize }.recordBytes text.utf8ByteSize
  | .toolUse _ _ input =>
    { stats with
      toolUseBlocks := stats.toolUseBlocks + 1
      toolUseInputJsonBytes := stats.toolUseInputJsonBytes + input.utf8ByteSize
      }.recordBytes input.utf8ByteSize
  | .toolResult _ content _ =>
    (stats.recordToolResult content.utf8ByteSize).recordBytes content.utf8ByteSize
  | .image _ data =>
    { stats with
      imageBlocks := stats.imageBlocks + 1
      imageDataBytes := stats.imageDataBytes + data.utf8ByteSize }.recordBytes data.utf8ByteSize
  | .openAICompaction encryptedContent =>
    { stats with
      openaiCompactionBlocks := stats.openaiCompactionBlocks + 1
      openaiCompactionBytes := stats.openaiCompactionBytes + encryptedContent.utf8ByteSize
      }.recordBytes encryptedContent.utf8ByteSize

def payloadTextBytes : Nat :=
  stats.textBytes + stats.reasoningBytes + stats.toolResultBytes + stats.imageDataBytes +
    stats.openaiCompactionBytes

variable {stats other} {block : ContentBlock} {bytes : Nat}

@[simp] lemma mergeFrom_default : stats.mergeFrom default = stats := by
  simp [mergeFrom, default]

@[simp] lemma default_mergeFrom : default.mergeFrom stats = stats := by
  simp [mergeFrom, default]

lemma mergeFrom_assoc (more : ContentBlockMemoryStats) :
    (stats.mergeFrom other).mergeFrom more = stats.mergeFrom (other.mergeFrom more) := by
  simp [mergeFrom, Nat.add_assoc, Nat.max_assoc]

lemma recordBytes_mergeFrom :
    (stats.mergeFrom other).recordBytes bytes = stats.mergeFrom (other.recordBytes bytes) := by
  unfold recordBytes
  split_ifs
  · simp [mergeFrom, Nat.add_assoc, Nat.max_assoc]
  · simp [mergeFrom, Nat.max_assoc]

lemma recordToolResult_mergeFrom : (stats.mergeFrom other).recordToolResult bytes =
    stats.mergeFrom (other.recordToolResult bytes) := by
  unfold recordToolResult
  split_ifs
  · simp [mergeFrom, Nat.add_assoc, Nat.max_assoc]
  · simp [mergeFrom, Nat.add_assoc, Nat.max_assoc]

/-- A block may be recorded before or after the statistics are merged. -/
lemma recordBlock_mergeFrom :
    (stats.mergeFrom other).recordBlock block = stats.mergeFrom (other.recordBlock block) := by
  cases block with
  | toolResult toolUseId content isError =>
    simp only [recordBlock]
    rw [← recordBytes_mergeFrom, ← recordToolResult_mergeFrom]
    simp [mergeFrom, Nat.add_assoc]
  | text | reasoning | toolUse | image | openAICompaction =>
    simp only [recordBlock]
    rw [← recordBytes_mergeFrom]
    simp [mergeFrom, Nat.add_assoc]

end ContentBlockMemoryStats

open ContentBlockMemoryStats

def summarizeBlocks (blocks : List ContentBlock) : ContentBlockMemoryStats :=
  blocks.foldl recordBlock default

def summarizeMessageContent (messages : List (List ContentBlock)) : ContentBlockMemoryStats :=
  messages.foldl (fun stats blocks => blocks.foldl recordBlock stats) default

lemma foldl_recordBlock (stats : ContentBlockMemoryStats) (blocks : List ContentBlock) :
    blocks.foldl recordBlock stats = stats.mergeFrom (summarizeBlocks blocks) := by
  have hfold : ∀ other : ContentBlockMemoryStats, blocks.foldl recordBlock (stats.mergeFrom other) =
      stats.mergeFrom (blocks.foldl recordBlock other) := by
    induction blocks with
    | nil => exact fun _ => rfl
    | cons block blocks ih =>
      intro other
      rw [List.foldl_cons, List.foldl_cons, recordBlock_mergeFrom, ih]
  rw [summarizeBlocks, ← hfold, mergeFrom_default]

/-- What one more message adds is what it comes to by itself. -/
lemma summarize_concat (messages : List (List ContentBlock)) (blocks : List ContentBlock) :
    summarizeMessageContent (messages ++ [blocks]) =
      (summarizeMessageContent messages).mergeFrom (summarizeBlocks blocks) := by
  rw [summarizeMessageContent, List.foldl_append, List.foldl_cons, List.foldl_nil,
    foldl_recordBlock]
  rfl

end Jcode
