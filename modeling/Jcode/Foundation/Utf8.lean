import Mathlib.Tactic.Common

/-!
# UTF-8 in chunks

A text arrives as bytes in chunks, and every chunk is decoded on its own: strictly, when a chunk
that is not UTF-8 by itself is dropped, or lossily, when what is malformed in it is replaced. As
long as no cut falls inside of a character both give the text back.
-/

namespace Utf8

/-! ### Lossy decoding -/

/-- What may follow the first byte of a character: the range of the second byte, and the number of
bytes that follow. -/
def following (b : UInt8) : Option (UInt8 × UInt8 × Nat) :=
  if 0xc2 ≤ b ∧ b ≤ 0xdf then some (0x80, 0xbf, 1)
  else if b = 0xe0 then some (0xa0, 0xbf, 2)
  else if b = 0xed then some (0x80, 0x9f, 2)
  else if 0xe1 ≤ b ∧ b ≤ 0xef then some (0x80, 0xbf, 2)
  else if b = 0xf0 then some (0x90, 0xbf, 3)
  else if 0xf1 ≤ b ∧ b ≤ 0xf3 then some (0x80, 0xbf, 3)
  else if b = 0xf4 then some (0x80, 0x8f, 3)
  else none

/-- The bytes that are replaced together: the longest start of a character, or a single byte. -/
def malformedLength : List UInt8 → Nat
  | [] => 0
  | b :: rest =>
    match following b, rest with
    | some (low, high, count), c :: rest =>
      if low ≤ c ∧ c ≤ high then
        2 + ((rest.take (count - 1)).takeWhile fun b => 0x80 ≤ b && b ≤ 0xbf).length
      else 1
    | _, _ => 1

lemma malformedLength_pos (b : UInt8) (rest : List UInt8) : 0 < malformedLength (b :: rest) := by
  unfold malformedLength
  split
  · contradiction
  · split
    · split_ifs <;> omega
    · exact Nat.one_pos

def replacementCharacter : Char := Char.ofNat 0xfffd

def lossyChars : List UInt8 → List Char
  | [] => []
  | b :: rest =>
    match (b :: rest).toByteArray.utf8DecodeChar? 0 with
    | some c => c :: lossyChars ((b :: rest).drop c.utf8Size)
    | none => replacementCharacter :: lossyChars ((b :: rest).drop (malformedLength (b :: rest)))
termination_by bytes => bytes.length
decreasing_by
  · have := c.utf8Size_pos
    rw [List.length_drop, List.length_cons]
    omega
  · have := malformedLength_pos b rest
    rw [List.length_drop, List.length_cons]
    omega

/-- `String::from_utf8_lossy`. -/
def fromUtf8Lossy (bytes : ByteArray) : String :=
  (String.fromUTF8? bytes).getD (String.ofList (lossyChars bytes.toList))

/-- What is read of a chunk when one that is not UTF-8 is dropped. -/
def readOrDrop (bytes : ByteArray) : List Char := (String.fromUTF8? bytes).elim [] String.toList

/-- What is read of a chunk when malformed bytes are replaced. -/
def readLossy (bytes : ByteArray) : List Char := (fromUtf8Lossy bytes).toList

def join (chunks : List ByteArray) : ByteArray := chunks.foldr (· ++ ·) .empty

/-! ### Chunks that end with a character -/

/-- Every chunk is UTF-8 by itself: no cut falls inside of a character. -/
def CutBetweenChars (chunks : List ByteArray) : Prop := ∀ chunk ∈ chunks, chunk.IsValidUTF8

variable {bytes : ByteArray} {chunks : List ByteArray} {text : String}

lemma fromUTF8?_of_valid (h : bytes.IsValidUTF8) :
    ∃ text, String.fromUTF8? bytes = some text ∧ bytes = text.toByteArray :=
  ⟨String.fromUTF8 bytes h, dif_pos h, rfl⟩

lemma readLossy_of_valid (h : bytes.IsValidUTF8) : readLossy bytes = readOrDrop bytes := by
  obtain ⟨text, htext, -⟩ := fromUTF8?_of_valid h
  rw [readLossy, fromUtf8Lossy, readOrDrop, htext]
  rfl

lemma exists_text (h : CutBetweenChars chunks) :
    ∃ text : String, join chunks = text.toByteArray ∧ chunks.flatMap readOrDrop = text.toList := by
  induction chunks with
  | nil => exact ⟨"", rfl, rfl⟩
  | cons chunk chunks ih =>
    obtain ⟨first, hfirst, hbytes⟩ := fromUTF8?_of_valid (h chunk List.mem_cons_self)
    obtain ⟨rest, hjoin, hread⟩ := ih fun c hc => h c (List.mem_cons_of_mem chunk hc)
    refine ⟨first ++ rest, ?_, ?_⟩
    · rw [String.toByteArray_append, ← hbytes, ← hjoin]
      rfl
    · rw [List.flatMap_cons, readOrDrop, hfirst, hread, String.toList_append]
      rfl

theorem flatMap_readOrDrop (h : CutBetweenChars chunks) (htext : join chunks = text.toByteArray) :
    chunks.flatMap readOrDrop = text.toList := by
  obtain ⟨text', hjoin, hread⟩ := exists_text h
  rw [hread, String.toByteArray_inj.mp (hjoin.symm.trans htext)]

lemma readOrDrop_toByteArray (text : String) : readOrDrop text.toByteArray = text.toList := by
  have h : String.fromUTF8? text.toByteArray = some text := by
    rw [String.fromUTF8?, dif_pos text.isValidUTF8]
    rfl
  rw [readOrDrop, h]
  rfl

lemma readOrDrop_of_not_valid (h : ¬ bytes.IsValidUTF8) : readOrDrop bytes = [] := by
  rw [readOrDrop, String.fromUTF8?, dif_neg h]
  rfl

lemma size_pos_of_not_valid (h : ¬ bytes.IsValidUTF8) : 0 < bytes.size := by
  apply Nat.pos_of_ne_zero
  intro hsize
  apply h
  rw [ByteArray.size_eq_zero_iff.mp hsize]
  exact ByteArray.isValidUTF8_empty

/-- Every dropped chunk makes the text shorter than the bytes. -/
lemma size_flatMap_readOrDrop (chunks : List ByteArray) :
    (String.ofList (chunks.flatMap readOrDrop)).toByteArray.size ≤ (join chunks).size ∧
      ((String.ofList (chunks.flatMap readOrDrop)).toByteArray.size = (join chunks).size →
        CutBetweenChars chunks) := by
  induction chunks with
  | nil => exact ⟨Nat.le_refl _, fun _ _ hmem => (nomatch hmem)⟩
  | cons chunk chunks ih =>
    obtain ⟨hle, heq⟩ := ih
    have hjoin : (join (chunk :: chunks)).size = chunk.size + (join chunks).size := by
      rw [← ByteArray.size_append]
      rfl
    by_cases hchunk : chunk.IsValidUTF8
    · obtain ⟨text, htext, hbytes⟩ := fromUTF8?_of_valid hchunk
      rw [List.flatMap_cons, hbytes, readOrDrop_toByteArray, String.ofList_append,
        String.ofList_toList,
        String.toByteArray_append, ByteArray.size_append, ← hbytes, hjoin]
      refine ⟨by omega, fun h => ?_⟩
      have hchunks := heq (by omega)
      intro c hc
      rcases List.mem_cons.mp hc with rfl | hc
      · exact hchunk
      · exact hchunks c hc
    · have hpos := size_pos_of_not_valid hchunk
      rw [List.flatMap_cons, readOrDrop_of_not_valid hchunk, List.nil_append, hjoin]
      exact ⟨by omega, fun h => by omega⟩

/-- The text comes out whole exactly if no cut falls inside of a character. -/
theorem flatMap_readOrDrop_iff (htext : join chunks = text.toByteArray) :
    chunks.flatMap readOrDrop = text.toList ↔ CutBetweenChars chunks := by
  constructor
  · intro hread
    apply (size_flatMap_readOrDrop chunks).2
    rw [hread, String.ofList_toList, htext]
  · intro hcut
    exact flatMap_readOrDrop hcut htext

/-! ### Occurrences in bytes -/

/-- Only the first byte of a character can begin one. -/
lemma not_isUTF8FirstByte_of_mem_tail {c : Char} {front tail : List UInt8} {b : UInt8}
    (h : String.utf8EncodeChar c = front ++ b :: tail) (hfront : front ≠ []) :
    ¬ b.IsUTF8FirstByte := by
  have hlength : front.length < (String.utf8EncodeChar c).length := by
    rw [h, List.length_append, List.length_cons]
    omega
  have hget : (String.utf8EncodeChar c)[front.length] = b := by simp [h]
  rw [← hget, UInt8.isUTF8FirstByte_getElem_utf8EncodeChar]
  exact fun hzero => hfront (List.length_eq_zero_iff.mp hzero)

lemma exists_firstByte (c : Char) :
    ∃ b tail, String.utf8EncodeChar c = b :: tail ∧ b.IsUTF8FirstByte := by
  have hpos : 0 < (String.utf8EncodeChar c).length := by
    rw [String.length_utf8EncodeChar]
    exact c.utf8Size_pos
  obtain ⟨b, tail, h⟩ := List.exists_cons_of_length_pos hpos
  have hfirst : (String.utf8EncodeChar c)[0].IsUTF8FirstByte ↔ 0 = 0 :=
    UInt8.isUTF8FirstByte_getElem_utf8EncodeChar
  refine ⟨b, tail, h, ?_⟩
  have hget : (String.utf8EncodeChar c)[0] = b := by simp [h]
  rw [← hget, hfirst]

lemma isPrefix_of_bytes {text part : List Char} {rest : List UInt8}
    (h : text.flatMap String.utf8EncodeChar = part.flatMap String.utf8EncodeChar ++ rest) :
    part <+: text := by
  refine List.isPrefix_of_utf8Encode_append_eq_utf8Encode rest.toByteArray ?_
  refine ByteArray.ext (Array.toList_inj.mp ?_)
  rw [ByteArray.data_append, List.data_toByteArray, Array.toList_append]
  simp only [List.utf8Encode, List.data_toByteArray]
  exact h.symm

/-- The bytes of a text are found only where the text is. -/
lemma infix_of_bytes {text part : List Char} {before after : List UInt8} (hpart : part ≠ [])
    (h : text.flatMap String.utf8EncodeChar =
      before ++ part.flatMap String.utf8EncodeChar ++ after) : part <:+: text := by
  induction text generalizing before with
  | nil =>
    obtain ⟨c, part, rfl⟩ := List.exists_cons_of_ne_nil hpart
    obtain ⟨b, tail, hb, -⟩ := exists_firstByte c
    simp [hb] at h
  | cons c text ih =>
    cases before with
    | nil => exact (isPrefix_of_bytes h).isInfix
    | cons b before =>
      rw [List.flatMap_cons, List.append_assoc] at h
      rcases List.append_eq_append_iff.mp h with ⟨middle, hbefore, hrest⟩ | ⟨middle, hc, hrest⟩
      · rw [← List.append_assoc] at hrest
        exact List.infix_cons (ih hrest)
      · cases middle with
        | nil =>
          rw [List.nil_append] at hrest
          have hrest' : text.flatMap String.utf8EncodeChar =
              [] ++ part.flatMap String.utf8EncodeChar ++ after := hrest.symm
          exact List.infix_cons (ih hrest')
        | cons d middle =>
          -- the occurrence would begin inside of a character
          obtain ⟨e, part, rfl⟩ := List.exists_cons_of_ne_nil hpart
          obtain ⟨first, tail, hfirst, hisFirst⟩ := exists_firstByte e
          have hd : d = first := by
            rw [List.flatMap_cons, hfirst] at hrest
            exact (List.cons.inj hrest).1.symm
          exact absurd (hd ▸ hisFirst) (not_isUTF8FirstByte_of_mem_tail hc (List.cons_ne_nil _ _))

end Utf8
