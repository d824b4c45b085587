import Mathlib.Tactic.Common
import Mathlib.Logic.Function.Basic

/-!
# Storage

Files and the ways `jcode-storage` writes them: whole files through a temporary file, a backup
and a rename, and journals by appending a line.
-/

namespace Jcode

abbrev Bytes := List UInt8

/-- The bytes of a text. -/
def utf8 (text : String) : Bytes := text.toUTF8.data.toList

/-- `read_to_string`: bytes that are not UTF-8 are an error. -/
def readUtf8 (bytes : Bytes) : Option String := String.fromUTF8? ⟨bytes.toArray⟩

@[simp] lemma readUtf8_utf8 (text : String) : readUtf8 (utf8 text) = some text := by
  simp only [readUtf8, utf8, String.toUTF8_eq_toByteArray, Array.toArray_toList]
  exact dif_pos text.isValidUTF8

lemma utf8_eq_flatMap (text : String) : utf8 text = text.toList.flatMap String.utf8EncodeChar := by
  simp only [utf8, String.toUTF8_eq_toByteArray, ← String.utf8Encode_toList, List.utf8Encode,
    List.data_toByteArray]

lemma utf8_append (a b : String) : utf8 (a ++ b) = utf8 a ++ utf8 b := by
  simp [utf8_eq_flatMap]

lemma readUtf8_eq_some {bytes : Bytes} {text : String} :
    readUtf8 bytes = some text ↔ bytes = utf8 text := by
  constructor
  · intro h
    simp only [readUtf8, String.fromUTF8?] at h
    split_ifs at h with hvalid
    rw [← Option.some.inj h]
    simp [utf8, String.fromUTF8]
  · rintro rfl
    exact readUtf8_utf8 text

/-- A byte below 128 is a character of its own. -/
lemma exists_char_of_mem_utf8 {b : UInt8} {text : String} (hb : b.toNat < 128)
    (h : b ∈ utf8 text) : ∃ c ∈ text.toList, c.toNat = b.toNat := by
  rw [utf8_eq_flatMap, List.mem_flatMap] at h
  obtain ⟨c, hc, hbc⟩ := h
  refine ⟨c, hc, ?_⟩
  simp only [String.utf8EncodeChar] at hbc
  split_ifs at hbc with h1 h2 h3
  · rw [List.mem_singleton.mp hbc, UInt8.toNat_ofNat', Nat.mod_eq_of_lt (by omega)]
    rfl
  all_goals
    exfalso
    simp only [List.mem_cons, List.not_mem_nil, or_false] at hbc
    rcases hbc with rfl | rfl | rfl | rfl
    all_goals
      rw [UInt8.toNat_ofNat'] at hb
      omega

lemma toList_prefix_of_utf8_prefix {a b : String} (h : utf8 a <+: utf8 b) :
    a.toList <+: b.toList := by
  obtain ⟨rest, h⟩ := h
  refine List.isPrefix_of_utf8Encode_append_eq_utf8Encode rest.toByteArray ?_
  rw [String.utf8Encode_toList, String.utf8Encode_toList]
  refine ByteArray.ext (Array.toList_inj.mp ?_)
  rw [ByteArray.data_append, List.data_toByteArray, Array.toList_append]
  exact h

/-! ### Files of one directory -/

/-- A file name, cut at the dot in front of its extension. -/
structure FileName where
  stem : String
  extension : String
deriving DecidableEq

def FileName.withExtension (path : FileName) (extension : String) : FileName :=
  { path with extension }

abbrev Directory := FileName → Option Bytes

namespace Directory

variable (fs : Directory)

def write (path : FileName) (bytes : Bytes) : Directory := Function.update fs path (some bytes)

def remove (path : FileName) : Directory := Function.update fs path none

/-- `std::fs::rename`: atomic, and replaces the target; a file renamed to itself stays. -/
def rename (source target : FileName) : Directory :=
  match fs source with
  | some bytes => (fs.remove source).write target bytes
  | none => fs

def pathExists (path : FileName) : Bool := (fs path).isSome

def fileLenOrZero (path : FileName) : Nat := ((fs path).map (·.length)).getD 0

end Directory

/-! ### Whole files -/

/-- The extension of the temporary file, with the process id and a random number. -/
def tmpExtension (pid nonce : Nat) : String := "tmp." ++ toString pid ++ "." ++ toString nonce

/-- The previous version moves to the backup, if there is one. -/
def backUp (fs : Directory) (path : FileName) : Directory :=
  if fs.pathExists path then fs.rename path (path.withExtension "bak") else fs

/-- `write_bytes_inner`, carried out to its end; `tmp` is the extension of the temporary file. -/
def writeBytesInner (fs : Directory) (path : FileName) (tmp : String) (bytes : Bytes) : Directory :=
  let tmpPath := path.withExtension tmp
  (backUp (fs.write tmpPath bytes) path).rename tmpPath path

/-- `read_json`: a file whose text cannot be parsed is recovered from its backup, which is copied
over it. -/
def readJson {α : Type} (parse : String → Option α) (fs : Directory) (path : FileName) :
    Option α × Directory :=
  match (fs path).bind readUtf8 with
  | none => (none, fs)
  | some text =>
    match parse text with
    | some value => (some value, fs)
    | none =>
      match fs (path.withExtension "bak") with
      | none => (none, fs)
      | some backup =>
        match (readUtf8 backup).bind parse with
        | some value => (some value, fs.write path backup)
        | none => (none, fs)

/-- A file that can be parsed is read and left alone. -/
lemma readJson_eq {α : Type} {parse : String → Option α} {fs : Directory} {path : FileName}
    {text : String} {value : α} (hfile : fs path = some (utf8 text))
    (hparse : parse text = some value) : readJson parse fs path = (some value, fs) := by
  simp [readJson, hfile, hparse]

/-! ### Journals -/

def newline : UInt8 := 10

def carriageReturn : UInt8 := 13

/-- How an append ends; a write that fails leaves the first bytes of the line. -/
inductive AppendOutcome
  | written
  | openFailed
  | writeFailed (written : Nat)
deriving DecidableEq

def appendBytes (fs : Directory) (path : FileName) (bytes : Bytes) : Directory :=
  fs.write path ((fs path).getD [] ++ bytes)

/-- `append_json_line_fast` with the encoded value. -/
def appendJsonLineFast (fs : Directory) (path : FileName) (text : Bytes) :
    AppendOutcome → Directory
  | .written => appendBytes fs path (text ++ [newline])
  | .openFailed => fs
  | .writeFailed written => appendBytes fs path ((text ++ [newline]).take written)

lemma tmpExtension_ne {pid nonce : Nat} {extension : String}
    (h : extension.toList.head? ≠ some 't') : tmpExtension pid nonce ≠ extension := by
  rintro rfl
  simp [tmpExtension] at h

lemma FileName.withExtension_inj {path : FileName} {a b : String} :
    path.withExtension a = path.withExtension b ↔ a = b := by
  simp [withExtension]

lemma FileName.eq_withExtension {path : FileName} {a : String} :
    path = path.withExtension a ↔ path.extension = a := by
  cases path
  simp [withExtension]

section

variable {fs : Directory} {path source target other : FileName} {bytes : Bytes}

lemma Directory.write_apply :
    fs.write path bytes other = if other = path then some bytes else fs other := by
  simp [write, Function.update_apply]

lemma Directory.rename_apply (h : fs source = some bytes) :
    fs.rename source target other =
      if other = target then some bytes else if other = source then none else fs other := by
  simp [rename, h, remove, write, Function.update_apply]

/-- The previous version, if there is one, is in the backup. -/
lemma backUp_apply (hext : path.extension ≠ "bak") :
    backUp fs path other =
      if other = path then none
      else if other = path.withExtension "bak" then (fs path).or (fs (path.withExtension "bak"))
      else fs other := by
  have hpb : path ≠ path.withExtension "bak" := mt FileName.eq_withExtension.mp hext
  unfold backUp Directory.pathExists
  cases hp : fs path with
  | none =>
    rw [if_neg (by simp)]
    split_ifs with h1 h2
    · rw [h1, hp]
    · rw [h2, Option.none_or]
    · rfl
  | some content =>
    rw [if_pos (by simp), Directory.rename_apply hp, Option.some_or]
    split_ifs with h1 h2
    · exact absurd (h2.symm.trans h1) hpb
    all_goals rfl

/-- A written file holds what was written, its backup the previous version if there was one. -/
lemma writeBytesInner_apply {tmp : String} (htmp : path.extension ≠ tmp) (hbak : "bak" ≠ tmp)
    (hext : path.extension ≠ "bak") :
    writeBytesInner fs path tmp bytes other =
      if other = path.withExtension tmp then none
      else if other = path then some bytes
      else if other = path.withExtension "bak" then (fs path).or (fs (path.withExtension "bak"))
      else fs other := by
  have hpt : path ≠ path.withExtension tmp := mt FileName.eq_withExtension.mp htmp
  have hbt : path.withExtension "bak" ≠ path.withExtension tmp :=
    mt FileName.withExtension_inj.mp hbak
  have hheld : backUp (fs.write (path.withExtension tmp) bytes) path (path.withExtension tmp) =
      some bytes := by
    rw [backUp_apply hext, if_neg hpt.symm, if_neg hbt.symm, Directory.write_apply, if_pos rfl]
  rw [writeBytesInner, Directory.rename_apply hheld, backUp_apply hext]
  simp only [Directory.write_apply, if_neg hpt, if_neg hbt]
  split_ifs with h1 h2
  · exact hpt (h1.symm.trans h2)
  all_goals rfl

end

end Jcode
