import Jcode.Compaction.Accounting
import Jcode.Compaction.ToolPairs

/-!
# Truncated tool results

`emergency_truncate_tool_results` keeps the beginning and the end of a long result. What is kept is
cut between characters, and with the remark in the middle it stays below the limit, so that a second
pass finds nothing to truncate.
-/

namespace Jcode

/-! ### Prefixes taken by bytes -/

/-- The size of a text, as Rust's `len`. -/
def bytes (chars : List Char) : Nat := (chars.map Char.utf8Size).sum

section

variable {chars chars' : List Char} {n : Nat}

@[simp] lemma bytes_nil : bytes [] = 0 := rfl

@[simp] lemma bytes_cons {c : Char} : bytes (c :: chars) = c.utf8Size + bytes chars := by
  simp [bytes]

@[simp] lemma bytes_append : bytes (chars ++ chars') = bytes chars + bytes chars' := by
  simp [bytes]

@[simp] lemma bytes_reverse : bytes chars.reverse = bytes chars := by
  simp [bytes]

@[simp] lemma utf8ByteSize_ofList : (String.ofList chars).utf8ByteSize = bytes chars := by
  induction chars with
  | nil => rfl
  | cons c chars ih =>
    rw [String.ofList_cons, String.utf8ByteSize_append, ih, bytes_cons,
      String.utf8ByteSize_singleton]

lemma bytes_toList {text : String} : bytes text.toList = text.utf8ByteSize := by
  rw [← utf8ByteSize_ofList, String.ofList_toList]

lemma bytes_takeBytes_le : bytes (takeBytes n chars) ≤ n := by
  induction chars generalizing n with
  | nil => exact Nat.zero_le n
  | cons c chars ih =>
    rw [takeBytes]
    split_ifs with hfits
    · rw [bytes_cons]
      have hrest := ih (n := n - c.utf8Size)
      omega
    · exact Nat.zero_le n

lemma takeBytes_prefix : takeBytes n chars <+: chars := by
  induction chars generalizing n with
  | nil => exact List.prefix_rfl
  | cons c chars ih =>
    rw [takeBytes]
    split_ifs with hfits
    · exact (List.cons_prefix_cons).mpr ⟨rfl, ih⟩
    · exact List.nil_prefix

/-- A text that does not fit leaves less room than its next character takes. -/
lemma lt_bytes_takeBytes (h : n < bytes chars) : n < bytes (takeBytes n chars) + 4 := by
  induction chars generalizing n with
  | nil => cases h
  | cons c chars ih =>
    rw [takeBytes]
    split_ifs with hfits
    · rw [bytes_cons] at h ⊢
      have hrest := ih (n := n - c.utf8Size) (by omega)
      omega
    · have hsize := c.utf8Size_le_four
      simp only [bytes_nil]
      omega

/-- A beginning and an end that are shorter together do not overlap. -/
lemma disjoint_of_bytes {head rest tail front : List Char} (hhead : head ++ rest = chars)
    (htail : front ++ tail = chars) (h : bytes head + bytes tail < bytes chars) :
    ∃ dropped, chars = head ++ dropped ++ tail := by
  have hsame : head ++ rest = front ++ tail := hhead.trans htail.symm
  rcases List.append_eq_append_iff.mp hsame with ⟨dropped, hfront, -⟩ | ⟨overlap, hhead', htail'⟩
  · exact ⟨dropped, by rw [← htail, hfront]⟩
  · rw [← hhead, bytes_append, htail', bytes_append] at h
    omega

end

/-! ### One result -/

lemma utf8ByteSize_toString_le {n : Nat} (h : n < 2 ^ 64) : (toString n).utf8ByteSize ≤ 20 := by
  have hdigits : (Nat.toDigits 10 n).length ≤ 20 :=
    (Nat.length_toDigits_le_iff (by decide) (by decide)).mpr (h.trans (by decide))
  have hone : ∀ c ∈ Nat.toDigits 10 n, c.utf8Size = 1 := by
    intro c hc
    have hdigit := Nat.isDigit_of_mem_toDigits (by decide) (by decide) hc
    simp only [Char.isDigit, Bool.and_eq_true, decide_eq_true_eq] at hdigit
    have hnine := UInt32.le_iff_toNat_le.mp hdigit.2
    rw [Char.utf8Size, if_pos]
    exact UInt32.le_iff_toNat_le.mpr (hnine.trans (by decide))
  have hsum : bytes (Nat.toDigits 10 n) = (Nat.toDigits 10 n).length := by
    rw [bytes, List.map_congr_left hone]
    simp
  rw [Nat.toString_eq_ofList_toDigits, utf8ByteSize_ofList, hsum]
  exact hdigits

/-- The remark between the two parts of a result from which `count` bytes were dropped. -/
def truncationRemark (count : Nat) : String :=
  "\n\n... [" ++ toString count ++ " chars truncated for context recovery] ...\n\n"

lemma utf8ByteSize_truncationRemark_le {count : Nat} (h : count < 2 ^ 64) :
    (truncationRemark count).utf8ByteSize ≤ 71 := by
  have hcount := utf8ByteSize_toString_le h
  have hfront : "\n\n... [".utf8ByteSize = 7 := rfl
  have hback : " chars truncated for context recovery] ...\n\n".utf8ByteSize = 44 := rfl
  rw [truncationRemark, String.utf8ByteSize_append, String.utf8ByteSize_append, hfront, hback]
  omega

lemma truncateStrBoundary_le {value : String} {n : Nat} :
    (truncateStrBoundary value n).utf8ByteSize ≤ n := by
  rw [truncateStrBoundary, utf8ByteSize_ofList]
  exact bytes_takeBytes_le

lemma tailStrBoundary_le {value : String} {n : Nat} :
    (tailStrBoundary value n).utf8ByteSize ≤ n := by
  rw [tailStrBoundary, utf8ByteSize_ofList, bytes_reverse]
  exact bytes_takeBytes_le

/-- The two parts lie apart in a text that is longer than both may be. -/
lemma exists_dropped {value : String} {n k : Nat} (h : n + k < value.utf8ByteSize) :
    ∃ dropped, value = truncateStrBoundary value n ++ dropped ++ tailStrBoundary value k := by
  obtain ⟨rest, hrest⟩ : takeBytes n value.toList <+: value.toList := takeBytes_prefix
  obtain ⟨front, hfront⟩ : takeBytes k value.toList.reverse <+: value.toList.reverse :=
    takeBytes_prefix
  have hback : front.reverse ++ (takeBytes k value.toList.reverse).reverse = value.toList := by
    rw [← List.reverse_append, hfront, List.reverse_reverse]
  have hsize : bytes (takeBytes n value.toList) +
      bytes (takeBytes k value.toList.reverse).reverse < bytes value.toList := by
    have hhead : bytes (takeBytes n value.toList) ≤ n := bytes_takeBytes_le
    have htail : bytes (takeBytes k value.toList.reverse) ≤ k := bytes_takeBytes_le
    rw [bytes_reverse, bytes_toList]
    omega
  obtain ⟨dropped, hdropped⟩ := disjoint_of_bytes hrest hback hsize
  refine ⟨String.ofList dropped, ?_⟩
  rw [truncateStrBoundary, tailStrBoundary, ← String.ofList_append, ← String.ofList_append,
    ← hdropped, String.ofList_toList]

/-- What a long result becomes: a part in the middle is dropped and its size is remarked. -/
def CutInMiddle (maxChars : Nat) (content content' : String) : Prop :=
  ∃ head dropped tail, content = head ++ dropped ++ tail ∧
    content' = head ++ truncationRemark dropped.utf8ByteSize ++ tail ∧
    head.utf8ByteSize ≤ maxChars / 2 ∧ tail.utf8ByteSize ≤ maxChars / 4

lemma cutInMiddle_emergencyTruncated {content : String} {maxChars : Nat}
    (h : maxChars < content.utf8ByteSize) :
    CutInMiddle maxChars content (emergencyTruncatedToolResult content maxChars) := by
  obtain ⟨dropped, hdropped⟩ : ∃ dropped, content = truncateStrBoundary content (maxChars / 2) ++
      dropped ++ tailStrBoundary content (maxChars / 4) := exists_dropped (by omega)
  have hsize := congrArg String.utf8ByteSize hdropped
  rw [String.utf8ByteSize_append, String.utf8ByteSize_append] at hsize
  have hcount : content.utf8ByteSize - ((truncateStrBoundary content (maxChars / 2)).utf8ByteSize +
      (tailStrBoundary content (maxChars / 4)).utf8ByteSize) = dropped.utf8ByteSize := by
    omega
  refine ⟨_, dropped, _, hdropped, ?_, truncateStrBoundary_le, tailStrBoundary_le⟩
  simp only [emergencyTruncatedToolResult, hcount, truncationRemark, String.append_assoc]

/-- The two parts and the remark stay below the limit. -/
lemma CutInMiddle.size_le {content content' : String}
    (h : CutInMiddle emergencyToolResultMaxChars content content')
    (hsize : content.utf8ByteSize < 2 ^ 64) :
    content'.utf8ByteSize ≤ emergencyToolResultMaxChars := by
  obtain ⟨head, dropped, tail, rfl, rfl, hhead, htail⟩ := h
  rw [String.utf8ByteSize_append, String.utf8ByteSize_append] at hsize
  have hremark : (truncationRemark dropped.utf8ByteSize).utf8ByteSize ≤ 71 :=
    utf8ByteSize_truncationRemark_le (by omega)
  rw [String.utf8ByteSize_append, String.utf8ByteSize_append]
  simp only [emergencyToolResultMaxChars] at *
  omega

/-! ### All messages -/

/-- The size of a result is a machine word, as of any text. -/
def ContentBlock.SizeFits : ContentBlock → Prop
  | .toolResult _ content _ => content.utf8ByteSize < 2 ^ 64
  | _ => True

/-- What the truncation does with one block. -/
inductive TruncatedBlock (maxChars : Nat) : ContentBlock → ContentBlock → Prop
  | kept {block : ContentBlock} (h : ¬ oversizedResult maxChars block) :
    TruncatedBlock maxChars block block
  | cut {toolUseId content content' : String} {isError : Option Bool}
    (h : maxChars < content.utf8ByteSize) (hcut : CutInMiddle maxChars content content') :
    TruncatedBlock maxChars (.toolResult toolUseId content isError)
      (.toolResult toolUseId content' isError)

/-- Nothing but the contents of long results differs. -/
def TruncatedMessage (maxChars : Nat) (msg msg' : Message) : Prop :=
  msg' = { msg with content := msg'.content } ∧
    List.Forall₂ (TruncatedBlock maxChars) msg.content msg'.content

lemma truncatedBlock_truncateBlock (maxChars : Nat) (block : ContentBlock) :
    TruncatedBlock maxChars block (truncateBlock maxChars block) := by
  cases block with
  | toolResult toolUseId content isError =>
    rw [truncateBlock]
    split_ifs with hlong
    · exact .cut hlong (cutInMiddle_emergencyTruncated hlong)
    · exact .kept (by simpa [oversizedResult] using hlong)
  | text | reasoning | toolUse | image | openAICompaction => exact .kept (by simp [oversizedResult])

lemma not_oversized_truncateBlock {block : ContentBlock} (h : block.SizeFits) :
    ¬ oversizedResult emergencyToolResultMaxChars
      (truncateBlock emergencyToolResultMaxChars block) := by
  cases block with
  | toolResult toolUseId content isError =>
    rw [truncateBlock]
    split_ifs with hlong
    · simpa [oversizedResult] using (cutInMiddle_emergencyTruncated hlong).size_le h
    · simpa [oversizedResult] using hlong
  | text | reasoning | toolUse | image | openAICompaction => simp [truncateBlock, oversizedResult]

lemma forall₂_map_self {α : Type} {R : α → α → Prop} {f : α → α} (h : ∀ x, R x (f x))
    (xs : List α) : List.Forall₂ R xs (xs.map f) := by
  rw [List.forall₂_map_right_iff]
  exact List.forall₂_same.mpr fun x _ => h x

lemma truncatedMessage_map (maxChars : Nat) (messages : List Message) :
    List.Forall₂ (TruncatedMessage maxChars) messages
      (emergencyTruncateToolResults messages maxChars).2 := by
  apply forall₂_map_self
  intro msg
  exact ⟨rfl, forall₂_map_self (truncatedBlock_truncateBlock maxChars) msg.content⟩

lemma mem_blocksOf_emergencyTruncate {messages : List Message} {maxChars : Nat}
    {block : ContentBlock} :
    block ∈ blocksOf (emergencyTruncateToolResults messages maxChars).2 ↔
      ∃ block' ∈ blocksOf messages, truncateBlock maxChars block' = block := by
  simp only [emergencyTruncateToolResults, blocksOf, List.flatMap_map, ← List.map_flatMap,
    List.mem_map]

/-- A result of 4001 letters, and a short one. -/
def longAndShortResults : List Message := [resultMessage (letters 4001), resultMessage "done"]

lemma sizeFits_longAndShortResults : ∀ block ∈ blocksOf longAndShortResults, block.SizeFits := by
  have hletters : (letters 4001).utf8ByteSize = 4001 := utf8ByteSize_replicate 4001
  intro block hblock
  simp only [blocksOf, longAndShortResults, resultMessage, List.flatMap_cons, List.flatMap_nil,
    List.singleton_append, List.append_nil, List.mem_cons, List.not_mem_nil, or_false] at hblock
  rcases hblock with rfl | rfl
  · rw [ContentBlock.SizeFits, hletters]
    decide
  · show "done".utf8ByteSize < 2 ^ 64
    decide

end Jcode
