import Jcode.Foundation.Codec
import Jcode.Foundation.Run
import Jcode.Storage

/-!
# Replacing a file

`write_bytes_inner`, one file operation at a time. Every operation may fail, and the process may
stop between any two of them. The old file moves to the backup before the new one moves into its
place, and `read_json` only looks at the backup when there is a file that it cannot parse.
-/

namespace Jcode

open Schedule

/-- The arguments of `write_bytes_inner`, the process id and the random number. The extension of
the path is what follows its last dot. -/
structure AtomicWrite where
  path : FileName
  cut : '.' ∉ path.extension.toList
  pid : Nat
  nonce : Nat
  bytes : Bytes
  durable : Bool

/-- The file operation that comes next. `backedUp` says whether the old file has moved to the
backup, `cleaning` removes the temporary file after an error. -/
inductive ReplacePhase
  | ensuringDir
  | creating
  | writing (written : Nat)
  | syncing
  | checking
  | backingUp
  | replacing (backedUp : Bool)
  | syncingDir
  | cleaning (backedUp : Bool)
  | failed (backedUp : Bool)
  | done
deriving DecidableEq

/-- How the next operation ends; `wrote` is a write of some bytes that is not the last. -/
inductive FileOutcome
  | ok
  | wrote (count : Nat)
  | error
deriving DecidableEq

structure ReplaceState where
  files : Directory
  phase : ReplacePhase

def ReplaceState.start (fs : Directory) : ReplaceState := ⟨fs, .ensuringDir⟩

namespace AtomicWrite

variable (w : AtomicWrite)

def tmpPath : FileName := w.path.withExtension (tmpExtension w.pid w.nonce)

def bakPath : FileName := w.path.withExtension "bak"

/-- One operation of `write_bytes_inner`. -/
def step (s : ReplaceState) (outcome : FileOutcome) : Option ReplaceState :=
  match s.phase, outcome with
  | .ensuringDir, .ok => some ⟨s.files, .creating⟩
  | .ensuringDir, .error => some ⟨s.files, .failed false⟩
  | .creating, .ok => some ⟨s.files.write w.tmpPath [], .writing 0⟩
  | .creating, .error => some ⟨s.files, .cleaning false⟩
  | .writing written, .wrote count =>
    some ⟨s.files.write w.tmpPath (w.bytes.take (written + count)), .writing (written + count)⟩
  | .writing _, .ok =>
    some ⟨s.files.write w.tmpPath w.bytes, if w.durable then .syncing else .checking⟩
  | .writing _, .error => some ⟨s.files, .cleaning false⟩
  | .syncing, .ok => some ⟨s.files, .checking⟩
  | .syncing, .error => some ⟨s.files, .cleaning false⟩
  -- `Path::exists` is false when the metadata cannot be read
  | .checking, .ok =>
    some ⟨s.files, if s.files.pathExists w.path then .backingUp else .replacing false⟩
  | .checking, .error => some ⟨s.files, .replacing false⟩
  -- the result of this rename is ignored
  | .backingUp, .ok => some ⟨s.files.rename w.path w.bakPath, .replacing true⟩
  | .backingUp, .error => some ⟨s.files, .replacing false⟩
  | .replacing _, .ok =>
    some ⟨s.files.rename w.tmpPath w.path, if w.durable then .syncingDir else .done⟩
  | .replacing backedUp, .error => some ⟨s.files, .cleaning backedUp⟩
  | .syncingDir, .ok | .syncingDir, .error => some ⟨s.files, .done⟩
  | .cleaning backedUp, .ok => some ⟨s.files.remove w.tmpPath, .failed backedUp⟩
  | .cleaning backedUp, .error => some ⟨s.files, .failed backedUp⟩
  | _, _ => none

/-! ### The three files -/

variable {w}

lemma tmpPath_ne_path : w.tmpPath ≠ w.path := by
  intro h
  refine w.cut ?_
  rw [FileName.eq_withExtension.mp h.symm]
  simp [tmpExtension]

lemma tmpPath_ne_bakPath : w.tmpPath ≠ w.bakPath := by
  intro h
  exact tmpExtension_ne (by decide) (FileName.withExtension_inj.mp h)

lemma bakPath_eq_path : w.bakPath = w.path ↔ w.path.extension = "bak" :=
  eq_comm.trans FileName.eq_withExtension

end AtomicWrite

namespace ReplacePhase

/-- The old file has moved to the backup and the new one is not in its place. -/
def backedUp : ReplacePhase → Bool
  | replacing b | cleaning b | failed b => b
  | _ => false

/-- The new file is in place. -/
def replaced : ReplacePhase → Bool
  | syncingDir | done => true
  | _ => false

/-- The temporary file is complete and not moved yet. -/
def holdsTmp : ReplacePhase → Bool
  | syncing | checking | backingUp | replacing _ => true
  | _ => false

end ReplacePhase

/-- The path has no file any more and not yet a new one: the old one is in the backup. A path with
the backup's own extension is its own backup and never without a file. -/
def AtomicWrite.Displaced (w : AtomicWrite) (phase : ReplacePhase) : Prop :=
  phase.backedUp = true ∧ w.path.extension ≠ "bak"

namespace AtomicWrite

variable {w : AtomicWrite} {fs files files' : Directory} {phase phase' : ReplacePhase}
  {s t : ReplaceState} {outcome : FileOutcome} {outcomes : List FileOutcome}

/-! ### What a write has done so far -/

/-- The three files, by the phase: the temporary file is complete, the path has lost its file, has
the new one, or is as it was. -/
structure Inv (w : AtomicWrite) (fs files : Directory) (phase : ReplacePhase) : Prop where
  tmp : phase.holdsTmp → files w.tmpPath = some w.bytes
  moved : w.Displaced phase → files w.path = none
  kept : ¬ w.Displaced phase → phase.replaced = false → ∀ p, p ≠ w.tmpPath → files p = fs p
  placed : phase.replaced → files w.path = some w.bytes

lemma Inv.start : Inv w fs fs .ensuringDir where
  tmp ht := by cases ht
  moved hd := by cases hd.1
  kept _ _ _ _ := rfl
  placed hr := by cases hr

/-- An operation that touches no file but the temporary one. -/
lemma Inv.congr (h : Inv w fs files phase) (hfiles : ∀ p, p ≠ w.tmpPath → files' p = files p)
    (htmp : phase'.holdsTmp → files' w.tmpPath = some w.bytes)
    (hbacked : phase'.backedUp = phase.backedUp)
    (hreplaced : phase'.replaced = phase.replaced) : Inv w fs files' phase' where
  tmp := htmp
  moved hd := by
    rw [hfiles _ tmpPath_ne_path.symm]
    exact h.moved ⟨hbacked ▸ hd.1, hd.2⟩
  kept hd hr p hp := by
    rw [hfiles p hp]
    exact h.kept (fun hd' => hd ⟨hbacked ▸ hd'.1, hd'.2⟩) (hreplaced ▸ hr) p hp
  placed hr := by
    rw [hfiles _ tmpPath_ne_path.symm]
    exact h.placed (hreplaced ▸ hr)

/-- An operation that touches no file. -/
lemma Inv.next (h : Inv w fs files phase) (htmp : phase'.holdsTmp → phase.holdsTmp)
    (hbacked : phase'.backedUp = phase.backedUp)
    (hreplaced : phase'.replaced = phase.replaced) : Inv w fs files phase' :=
  h.congr (fun _ _ => rfl) (fun ht => h.tmp (htmp ht)) hbacked hreplaced

/-- The temporary file is written. -/
lemma Inv.write (h : Inv w fs files phase) {bytes : Bytes}
    (hbytes : phase'.holdsTmp → bytes = w.bytes) (hbacked : phase'.backedUp = phase.backedUp)
    (hreplaced : phase'.replaced = phase.replaced) :
    Inv w fs (files.write w.tmpPath bytes) phase' := by
  refine h.congr (fun p hp => ?_) (fun ht => ?_) hbacked hreplaced
  · rw [Directory.write_apply, if_neg hp]
  · rw [Directory.write_apply, if_pos rfl, hbytes ht]

/-- The old file moves to the backup: a rename to itself when the path is its own backup. -/
lemma Inv.backUp (h : Inv w fs files .backingUp) :
    Inv w fs (files.rename w.path w.bakPath) (.replacing true) := by
  have htmp : files w.tmpPath = some w.bytes := h.tmp rfl
  have hkept := h.kept (fun hd => by cases hd.1) rfl
  cases hp : files w.path with
  | none =>
    have hsame : files.rename w.path w.bakPath = files := by simp [Directory.rename, hp]
    rw [hsame]
    exact ⟨fun _ => htmp, fun _ => hp, fun _ _ => hkept, fun hr => by cases hr⟩
  | some bytes =>
    have hrename (p : FileName) : files.rename w.path w.bakPath p =
        if p = w.bakPath then some bytes else if p = w.path then none else files p :=
      Directory.rename_apply hp
    refine ⟨fun _ => ?_, fun hd => ?_, fun hd _ p hpt => ?_, fun hr => by cases hr⟩
    · rw [hrename, if_neg tmpPath_ne_bakPath, if_neg tmpPath_ne_path, htmp]
    · rw [hrename, if_neg fun heq => hd.2 (bakPath_eq_path.mp heq.symm), if_pos rfl]
    · -- the path is its own backup
      have hbak : w.bakPath = w.path := by
        refine bakPath_eq_path.mpr (not_not.mp fun hne => hd ⟨rfl, hne⟩)
      rw [hrename, hbak]
      split_ifs with hpp
      · rw [hpp, ← hkept _ tmpPath_ne_path.symm, hp]
      · exact hkept p hpt

/-- The new file moves into place. -/
lemma Inv.replace {backedUp : Bool} (h : Inv w fs files (.replacing backedUp))
    (hbacked : phase'.backedUp = false) (htmp : phase'.holdsTmp = false)
    (hreplaced : phase'.replaced = true) :
    Inv w fs (files.rename w.tmpPath w.path) phase' where
  tmp ht := by simp [htmp] at ht
  moved hd := by simp [Displaced, hbacked] at hd
  kept _ hr := by simp [hreplaced] at hr
  placed _ := by rw [Directory.rename_apply (h.tmp rfl), if_pos rfl]

lemma Inv.step (h : Inv w fs s.files s.phase) (hs : w.step s outcome = some t) :
    Inv w fs t.files t.phase := by
  obtain ⟨files, phase⟩ := s
  cases phase with
  | ensuringDir =>
    cases outcome <;> cases hs
    all_goals exact h.next (fun ht => by cases ht) rfl rfl
  | creating =>
    cases outcome <;> cases hs
    · exact h.write (fun ht => by cases ht) rfl rfl
    · exact h.next (fun ht => by cases ht) rfl rfl
  | writing written =>
    cases outcome <;> cases hs
    · exact h.write (fun _ => rfl) (by cases w.durable <;> rfl) (by cases w.durable <;> rfl)
    · exact h.write (fun ht => by cases ht) rfl rfl
    · exact h.next (fun ht => by cases ht) rfl rfl
  | syncing =>
    cases outcome <;> cases hs
    · exact h.next (fun _ => rfl) rfl rfl
    · exact h.next (fun ht => by cases ht) rfl rfl
  | checking =>
    cases outcome <;> cases hs
    · split
      all_goals exact h.next (fun _ => rfl) rfl rfl
    · exact h.next (fun _ => rfl) rfl rfl
  | backingUp =>
    cases outcome <;> cases hs
    · exact h.backUp
    · exact h.next (fun _ => rfl) rfl rfl
  | replacing backedUp =>
    cases outcome <;> cases hs
    · cases w.durable
      all_goals exact h.replace rfl rfl rfl
    · exact h.next (fun ht => by cases ht) rfl rfl
  | syncingDir =>
    cases outcome <;> cases hs
    all_goals exact h.next (fun ht => by cases ht) rfl rfl
  | cleaning backedUp =>
    cases outcome <;> cases hs
    · exact h.congr (fun p hp => Function.update_of_ne hp _ _) (fun ht => by cases ht) rfl rfl
    · exact h.next (fun ht => by cases ht) rfl rfl
  | failed backedUp => cases outcome <;> cases hs
  | done => cases outcome <;> cases hs

lemma Inv.exec (hrun : exec w.step (.start fs) outcomes = some s) : Inv w fs s.files s.phase :=
  exec_invariant (I := fun s => Inv w fs s.files s.phase) (fun _ _ _ h hs => h.step hs) .start hrun

/-- A write in which nothing fails and nothing stops. -/
def undisturbed (w : AtomicWrite) (fs : Directory) : List FileOutcome :=
  [.ok, .ok, .ok] ++ (if w.durable then [.ok] else []) ++ [.ok] ++
    (if fs.pathExists w.path then [.ok] else []) ++ [.ok] ++ if w.durable then [.ok] else []

/-- `writeBytesInner` is such a write. -/
lemma exec_undisturbed (w : AtomicWrite) (fs : Directory) :
    exec w.step (.start fs) (w.undisturbed fs) =
      some ⟨writeBytesInner fs w.path (tmpExtension w.pid w.nonce) w.bytes, .done⟩ := by
  have hwrite : (fs.write w.tmpPath []).write w.tmpPath w.bytes = fs.write w.tmpPath w.bytes := by
    simp [Directory.write]
  have hexists : (fs.write w.tmpPath w.bytes).pathExists w.path = fs.pathExists w.path := by
    simp [Directory.pathExists, Directory.write_apply, tmpPath_ne_path.symm]
  have hinner : writeBytesInner fs w.path (tmpExtension w.pid w.nonce) w.bytes =
      (if fs.pathExists w.path then (fs.write w.tmpPath w.bytes).rename w.path w.bakPath
        else fs.write w.tmpPath w.bytes).rename w.tmpPath w.path := by
    rw [← hexists]
    rfl
  rw [hinner]
  cases hdurable : w.durable <;> cases hpath : fs.pathExists w.path
  all_goals simp [undisturbed, exec, step, ReplaceState.start, hdurable, hpath, hwrite, hexists]

end AtomicWrite

/-! ### Reading after an interrupted write -/

section

variable {α : Type} {parse : String → Option α} {format : TextCodec α} {w : AtomicWrite}
  {fs fs' : Directory} {path : FileName} {old new : α} {s : ReplaceState}
  {outcomes : List FileOutcome}

/-- `read_json` gives one of the two values. -/
def ReadsEither (parse : String → Option α) (fs : Directory) (path : FileName) (old new : α) :
    Prop :=
  (readJson parse fs path).1 = some old ∨ (readJson parse fs path).1 = some new

/-- Reading looks at the file and at its backup. -/
lemma readJson_congr (hpath : fs' path = fs path)
    (hbak : fs' (path.withExtension "bak") = fs (path.withExtension "bak")) :
    (readJson parse fs' path).1 = (readJson parse fs path).1 := by
  unfold readJson
  rw [hpath, hbak]
  cases (fs path).bind readUtf8 with
  | none => rfl
  | some text =>
    cases hparse : parse text with
    | some value => simp [hparse]
    | none =>
      cases fs (path.withExtension "bak") with
      | none => simp [hparse]
      | some backup => cases hbackup : (readUtf8 backup).bind parse <;> simp [hparse, hbackup]

/-- A missing file is not read from its backup. -/
lemma readJson_missing (h : fs path = none) : (readJson parse fs path).1 = none := by
  simp [readJson, h]

/-- Wherever a write of a JSON file stops, by a crash or by an error, `read_json` gives the old
value or the new one: exactly if the path is not left without a file between the two renames. -/
theorem readJson_writeBytesInner_iff (hold : (readJson format.decode fs w.path).1 = some old)
    (hbytes : w.bytes = utf8 (format.encode new))
    (hnew : format.decode (format.encode new) = some new)
    (hrun : exec w.step (.start fs) outcomes = some s) :
    ReadsEither format.decode s.files w.path old new ↔ ¬ w.Displaced s.phase := by
  have hinv := AtomicWrite.Inv.exec hrun
  constructor
  · intro hread hd
    have hnone : (readJson format.decode s.files w.path).1 = none :=
      readJson_missing (hinv.moved hd)
    rcases hread with hread | hread
    all_goals cases hnone.symm.trans hread
  · intro hd
    cases hreplaced : s.phase.replaced with
    | true =>
      right
      rw [readJson_eq ((hinv.placed hreplaced).trans (congrArg some hbytes)) hnew]
    | false =>
      left
      rw [readJson_congr (hinv.kept hd hreplaced _ AtomicWrite.tmpPath_ne_path.symm)
        (hinv.kept hd hreplaced _ AtomicWrite.tmpPath_ne_bakPath.symm), hold]

end

/-! ### A file with a truth value -/

def boolFormat : TextCodec Bool where
  encode value := if value then "true" else "false"
  decode text := if text = "true" then some true else if text = "false" then some false else none

def boolFiles : Directory := fun path =>
  if path = ⟨"state", "json"⟩ then some (utf8 "true") else none

/-- `false` is about to replace `true`. -/
def boolWrite : AtomicWrite where
  path := ⟨"state", "json"⟩
  cut := by decide
  pid := 1
  nonce := 1
  bytes := utf8 (boolFormat.encode false)
  durable := false

lemma readJson_boolFiles : (readJson boolFormat.decode boolFiles boolWrite.path).1 = some true := by
  have hfile : boolFiles boolWrite.path = some (utf8 "true") := rfl
  have hparse : boolFormat.decode "true" = some true := rfl
  rw [readJson_eq hfile hparse]

/-- Both renames fail, and the old file is still there. -/
def failedRenames : List FileOutcome := [.ok, .ok, .wrote 2, .ok, .ok, .error, .error, .ok]

theorem readJson_writeBytesInner_iff_failedRenames :
    ∃ s, exec boolWrite.step (.start boolFiles) failedRenames = some s ∧
      (ReadsEither boolFormat.decode s.files boolWrite.path true false ↔
        ¬ boolWrite.Displaced s.phase) := by
  obtain ⟨s, hs⟩ := Option.isSome_iff_exists.mp
    (show (exec boolWrite.step (.start boolFiles) failedRenames).isSome from rfl)
  exact ⟨s, hs, readJson_writeBytesInner_iff readJson_boolFiles rfl (by decide) hs⟩

/-- A crash between the two renames leaves nothing to read. -/
theorem writeBytesInner_displaces :
    ¬ ∀ (α : Type) (format : TextCodec α) (w : AtomicWrite) (fs : Directory) (old new : α)
        (outcomes : List FileOutcome) (s : ReplaceState),
        (readJson format.decode fs w.path).1 = some old → w.bytes = utf8 (format.encode new) →
        format.decode (format.encode new) = some new →
        exec w.step (.start fs) outcomes = some s →
        ReadsEither format.decode s.files w.path old new := by
  intro h
  have hread := h Bool boolFormat boolWrite boolFiles true false [.ok, .ok, .ok, .ok, .ok] _
    readJson_boolFiles rfl (by decide) rfl
  have hmissing : (readJson boolFormat.decode
      (((boolFiles.write boolWrite.tmpPath []).write boolWrite.tmpPath boolWrite.bytes).rename
        boolWrite.path boolWrite.bakPath) boolWrite.path).1 = none := by
    refine readJson_missing ?_
    decide +kernel
  rcases hread with hread | hread
  all_goals cases hmissing.symm.trans hread

end Jcode
