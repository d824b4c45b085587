import Jcode.Import.ReadersAgree
import Mathlib.Data.List.Palindrome

/-!
# The order of the messages of OpenCode

The importer sorts the messages of OpenCode by their times of creation. The reader takes the files
that were modified last first, and leaves them in this order.
-/

namespace Jcode

variable {clock : ExternalClock} {piDigest : String → String} {run : ImportRun}
  {includeTools : Bool} {value : Json} {file : MessageFile} {messages : List MessageFile}
  {files : OpenCodeFiles}

/-! ### Messages -/

/-- A content or a summary, and not both. -/
structure IsPlainMessage (value : Json) : Prop where
  single : value.get "content" = none ∨ value.get "summary" = none
  content : ∀ content ∈ value.get "content", IsPlainContent content
  summary : ∀ summary ∈ value.get "summary", IsPlainContent summary

lemma trim_openCodeText_iff (h : IsPlainMessage value) :
    trim (openCodeExternalText includeTools value) = "" ↔ trim (openCodeText value) = "" := by
  unfold openCodeExternalText openCodeText
  cases hcontent : value.get "content" with
  | none =>
    cases hsummary : value.get "summary" with
    | none => simp
    | some summary => simpa using trim_extract_iff includeTools (h.summary summary hsummary)
  | some content =>
    have hsummary : value.get "summary" = none := by
      rcases h.single with hnone | hnone
      · rw [hcontent] at hnone
        cases hnone
      · exact hnone
    have hblank := trim_extract_iff includeTools (h.content content hcontent)
    have hempty : trim "" = "" := rfl
    by_cases htext : trim (extractTextFromJsonValue content) = ""
    · simp [hsummary, hblank, htext, hempty, Option.filter_some]
    · simp [hsummary, hblank, htext, Option.filter_some]

/-- The role of a message that has a text. -/
def messageRole (file : MessageFile) : Option Role :=
  file.value.bind fun value =>
    if trim (openCodeText value) = "" then none else importedRole ((value.getStr "role").getD "")

lemma openCodeRecord_author :
    (openCodeRecord clock file).bind ExternalRecord.author = messageRole file := by
  unfold openCodeRecord messageRole
  cases file.value with
  | none => rfl
  | some value =>
    cases hrole : importedRole ((value.getStr "role").getD "") <;>
      simp [convertRecord_author, hrole]

lemma openCodeMessageRecord_author (h : ∀ value ∈ file.value, IsPlainMessage value) :
    (openCodeMessageRecord includeTools file).map ExternalMessageRecord.author =
      (messageRole file).map some := by
  unfold openCodeMessageRecord messageRole
  cases hvalue : file.value with
  | none => rfl
  | some value =>
    have hblank : trim (openCodeExternalText includeTools value) = "" ↔ _ :=
      trim_openCodeText_iff (h value hvalue)
    simp only [Option.bind_some]
    rw [messageRecord_author ⟨(value.getStr "role").getD "", openCodeText value, none⟩ hblank,
      convertRecord_author]

lemma records_openCodeMessage (clock : ExternalClock) (state : ImportState) (file : MessageFile) :
    (state.openCodeMessage clock file).records =
      state.records ++ (openCodeRecord clock file).toList := by
  unfold ImportState.openCodeMessage
  cases hvalue : file.value with
  | none => simp [openCodeRecord, hvalue]
  | some value => cases openCodeRecord clock file <;> simp

/-! ### The order of modification -/

def byModification (messages : List MessageFile) : List MessageFile :=
  messages.mergeSort fun a b => a.key ≤ b.key

lemma pairwise_byModification :
    (byModification messages).Pairwise fun a b => a.key ≤ b.key := by
  have htrans : IsTrans MessageFile fun a b => a.key ≤ b.key := ⟨fun _ _ _ => le_trans⟩
  have htotal : Std.Total fun a b : MessageFile => a.key ≤ b.key :=
    ⟨fun a b => le_total a.key b.key⟩
  exact List.pairwise_mergeSort' _ _

lemma pairwise_collectRecentFilesRecursive {limit : Nat} :
    (collectRecentFilesRecursive messages limit).Pairwise fun a b => b.key ≤ a.key := by
  have htrans : IsTrans MessageFile fun a b => b.key ≤ a.key :=
    ⟨fun _ _ _ hba hcb => le_trans hcb hba⟩
  have htotal : Std.Total fun a b : MessageFile => b.key ≤ a.key :=
    ⟨fun a b => le_total b.key a.key⟩
  exact List.pairwise_mergeSort' _ _

lemma eq_of_key (hdistinct : (messages.map MessageFile.path).Nodup) {a b : MessageFile}
    (ha : a ∈ messages) (hb : b ∈ messages) (hkey : a.key = b.key) : a = b := by
  apply List.inj_on_of_nodup_map hdistinct ha hb
  exact congrArg (fun key => (ofLex key).2) hkey

/-- Where there is room the reader has all files, the last modified first. -/
lemma collectRecentFilesRecursive_eq {limit : Nat}
    (hdistinct : (messages.map MessageFile.path).Nodup) (hroom : messages.length ≤ limit) :
    collectRecentFilesRecursive messages limit = (byModification messages).reverse := by
  have hperm : (collectRecentFilesRecursive messages limit).Perm messages :=
    (List.mergeSort_perm _ _).trans (BoundedHeap.fill_perm hroom)
  have hperm' : (byModification messages).reverse.Perm messages :=
    (List.reverse_perm _).trans (List.mergeSort_perm _ _)
  apply (hperm.trans hperm'.symm).eq_of_pairwise _
    pairwise_collectRecentFilesRecursive
    (List.pairwise_reverse.mpr pairwise_byModification)
  intro a b ha hb hba hab
  exact eq_of_key hdistinct (hperm.mem_iff.mp ha) (hperm'.mem_iff.mp hb) (le_antisymm hab hba)

/-! ### The order of creation -/

def created (clock : ExternalClock) (file : MessageFile) : Option Nat :=
  file.value.bind fun value => value.timeMillis clock "created"

def byCreation (clock : ExternalClock) (messages : List MessageFile) : List MessageFile :=
  messages.mergeSort fun a b => timestampLe (created clock a) (created clock b)

lemma timestampLe_trans {a b c : Option Nat} (hab : timestampLe a b = true)
    (hbc : timestampLe b c = true) : timestampLe a c = true := by
  cases a <;> cases b <;> cases c <;> simp [timestampLe] at *
  omega

lemma timestampLe_total (a b : Option Nat) : timestampLe a b = true ∨ timestampLe b a = true := by
  cases a <;> cases b <;> simp [timestampLe]
  omega

lemma timestampLe_antisymm {a b : Option Nat} (hab : timestampLe a b = true)
    (hba : timestampLe b a = true) : a = b := by
  cases a <;> cases b <;> simp [timestampLe] at *
  omega

/-- A stable sort by times is sorted by times. -/
lemma pairwise_timestampLe {α : Type} (time : α → Option Nat) (items : List α) :
    (items.mergeSort fun a b => timestampLe (time a) (time b)).Pairwise
      fun a b => timestampLe (time a) (time b) = true := by
  apply List.pairwise_mergeSort
  · intro a b c
    exact timestampLe_trans
  · intro a b
    simpa using timestampLe_total (time a) (time b)

lemma of_openCodeRecord {record : ExternalRecord} (h : openCodeRecord clock file = some record) :
    record.timestamp = created clock file ∧ (importedRole record.role).isSome := by
  unfold openCodeRecord at h
  unfold created
  cases hvalue : file.value with
  | none => simp [hvalue] at h
  | some value =>
    simp only [hvalue, Option.bind_some, Option.ite_none_right_eq_some, Option.some.injEq] at h
    obtain ⟨hrole, rfl⟩ := h
    exact ⟨rfl, hrole⟩

/-- Files with contents or summaries, whose messages were created at different times. -/
structure IsPlainDirectory (clock : ExternalClock) (messages : List MessageFile) : Prop where
  plain : ∀ file ∈ messages, ∀ value ∈ file.value, IsPlainMessage value
  distinct : ((messages.filterMap (openCodeRecord clock)).map ExternalRecord.timestamp).Nodup

/-- The importer has the records of the files in the order of their creation. -/
lemma sortRecords_eq (h : IsPlainDirectory clock messages) :
    sortRecords ((collectFilesRecursive messages).filterMap (openCodeRecord clock)) =
      (byCreation clock messages).filterMap (openCodeRecord clock) := by
  set records := (collectFilesRecursive messages).filterMap (openCodeRecord clock) with hrecords
  have hperm : records.Perm (messages.filterMap (openCodeRecord clock)) :=
    (List.mergeSort_perm _ _).filterMap _
  have hfilter : (records.filter fun record => (importedRole record.role).isSome) = records := by
    rw [List.filter_eq_self]
    intro record hrecord
    obtain ⟨file, -, hfile⟩ := List.mem_filterMap.mp hrecord
    exact (of_openCodeRecord hfile).2
  have hsort : (sortRecords records).Perm (messages.filterMap (openCodeRecord clock)) := by
    rw [sortRecords, hfilter]
    exact (List.mergeSort_perm _ _).trans hperm
  have hcreation : ((byCreation clock messages).filterMap (openCodeRecord clock)).Perm
      (messages.filterMap (openCodeRecord clock)) := (List.mergeSort_perm _ _).filterMap _
  have hsorted : ((byCreation clock messages).filterMap (openCodeRecord clock)).Pairwise
      fun a b => timestampLe a.timestamp b.timestamp = true := by
    rw [List.pairwise_filterMap]
    apply (pairwise_timestampLe (created clock) messages).imp
    intro a b hab x hx y hy
    rwa [(of_openCodeRecord hx).1, (of_openCodeRecord hy).1]
  apply (hsort.trans hcreation.symm).eq_of_pairwise _
    (pairwise_timestampLe ExternalRecord.timestamp _) hsorted
  intro a b ha hb hab hba
  exact List.inj_on_of_nodup_map h.distinct (hsort.mem_iff.mp ha) (hcreation.mem_iff.mp hb)
    (timestampLe_antisymm hab hba)

/-! ### OpenCode -/

def openCodeSessionId (files : OpenCodeFiles) : String :=
  (files.value.bind (Json.getStr "id")).getD ""

/-- The messages that are read, and those that are imported: the directories differ if the id is an
absolute path. -/
def readMessages (files : OpenCodeFiles) : List MessageFile :=
  files.messageFiles (joinPath files.messagesBase (openCodeSessionId files))

def importedMessages (files : OpenCodeFiles) : List MessageFile :=
  files.messageFiles (files.messagesBase ++ "/" ++ openCodeSessionId files)

/-- The session has plain messages, and the reader has room for them. -/
structure IsPlainOpenCode (clock : ExternalClock) (files : OpenCodeFiles) (maxScanSessions : Nat) :
    Prop where
  read : IsPlainDirectory clock (readMessages files)
  imported : IsPlainDirectory clock (importedMessages files)
  room : (readMessages files).length ≤ maxScanSessions

/-- The roles in the order of modification are, read backwards, those in the order of creation. -/
def SameBackwards (clock : ExternalClock) (files : OpenCodeFiles) : Prop :=
  openCodeSessionId files ≠ "" →
    ((byModification (readMessages files)).filterMap messageRole).reverse =
      (byCreation clock (importedMessages files)).filterMap messageRole

lemma reads_openCode {maxScanSessions : Nat} (h : IsPlainOpenCode clock files maxScanSessions) :
    Reads (((byModification (readMessages files)).filterMap messageRole).reverse.map some)
      (openCodeSessionId files)
      (loadOpenCodeExternalSession clock includeTools files maxScanSessions) := by
  have hdistinct : ((readMessages files).map MessageFile.path).Nodup := files.distinct _
  have hauthors : ((collectRecentFilesRecursive (readMessages files) maxScanSessions).filterMap
      (openCodeMessageRecord includeTools)).map ExternalMessageRecord.author =
        ((byModification (readMessages files)).filterMap messageRole).reverse.map some := by
    rw [← List.filterMap_reverse, ← collectRecentFilesRecursive_eq hdistinct h.room,
      List.map_filterMap, List.map_filterMap]
    apply List.filterMap_congr
    intro file hfile
    apply openCodeMessageRecord_author
    apply h.read.plain file
    rw [collectRecentFilesRecursive_eq hdistinct h.room] at hfile
    exact (List.mergeSort_perm _ _).mem_iff.mp (List.mem_reverse.mp hfile)
  unfold readMessages openCodeSessionId at hauthors ⊢
  unfold loadOpenCodeExternalSession
  cases hvalue : files.value with
  | none => exact .early _
  | some value =>
    rw [hvalue] at hauthors
    dsimp only [Option.bind_some] at hauthors ⊢
    split_ifs with hid
    · rw [hid]
      exact .early _
    · exact .short hid _ fun _ => hauthors

/-- An id that is there and not empty is the one that the importer takes. -/
lemma exists_of_getD_ne {id : Option String} (h : id.getD "" ≠ "") :
    ∃ known, id = some known ∧ id.filter (fun id => decide (id ≠ "")) = some known := by
  cases id with
  | none => exact (h rfl).elim
  | some known => exact ⟨known, rfl, by simpa [Option.filter_some] using h⟩

lemma authors_importOpenCode {hint : Option String} {session : Session}
    (h : importOpenCodeSessionFromPath clock piDigest run files hint = .ok session)
    (hid : openCodeSessionId files ≠ "")
    (hplain : IsPlainDirectory clock (importedMessages files)) :
    session.authors = (byCreation clock (importedMessages files)).filterMap messageRole := by
  unfold importOpenCodeSessionFromPath at h
  unfold importedMessages openCodeSessionId at *
  cases hvalue : files.value with
  | none => simp [hvalue] at hid
  | some value =>
    rw [hvalue] at h hplain hid
    dsimp only [Option.bind_some] at h hplain hid ⊢
    obtain ⟨id, hsome, hfilter⟩ := exists_of_getD_ne hid
    rw [hsome, Option.getD_some] at hplain ⊢
    rw [hfilter, Option.some_or] at h
    cases h
    rw [authors_finalizedSession, records_foldl (records_openCodeMessage clock), List.nil_append,
      sortRecords_eq hplain, List.filterMap_filterMap]
    exact List.filterMap_congr fun file _ => openCodeRecord_author

lemma exists_importOpenCode (clock : ExternalClock) (hid : openCodeSessionId files ≠ "")
    (hint : Option String) :
    ∃ session, importOpenCodeSessionFromPath clock piDigest run files hint = .ok session := by
  unfold importOpenCodeSessionFromPath openCodeSessionId at *
  cases hvalue : files.value with
  | none => simp [hvalue] at hid
  | some value =>
    rw [hvalue, Option.bind_some] at hid
    obtain ⟨id, -, hfilter⟩ := exists_of_getD_ne hid
    dsimp only
    rw [hfilter, Option.some_or]
    exact ⟨_, rfl⟩

lemma readersAgree_openCode_iff {maxScanSessions : Nat}
    (h : IsPlainOpenCode clock files maxScanSessions) (hint : Option String) :
    ReadersAgree (openCodeSessionId files)
      (loadOpenCodeExternalSession clock includeTools files maxScanSessions)
      (importOpenCodeSessionFromPath clock piDigest run files hint) ↔
        ShortFits (openCodeSessionId files) ∧ SameBackwards clock files := by
  rw [(reads_openCode h).agree_iff]
  apply and_congr_right
  intro _
  apply forall_congr'
  intro hid
  have hsome : Function.Injective (List.map (some : Role → Option Role)) :=
    List.map_injective_iff.mpr (Option.some_injective _)
  constructor
  · intro hagree
    obtain ⟨session, himport⟩ := exists_importOpenCode clock hid hint
    rw [← authors_importOpenCode himport hid h.imported]
    exact hsome (hagree session himport)
  · intro hsame session himport
    rw [authors_importOpenCode himport hid h.imported, hsame]

/-! #### Messages that were modified as they were created -/

/-- Of two messages with a text, the one that was created later was modified in a later second. -/
def ModifiedInOrder (clock : ExternalClock) (messages : List MessageFile) : Prop :=
  ∀ a ∈ messages, ∀ b ∈ messages, a ≠ b → (messageRole a).isSome → (messageRole b).isSome →
    timestampLe (created clock a) (created clock b) = true → a.seconds < b.seconds

lemma byModification_eq_byCreation (hdistinct : (messages.map MessageFile.path).Nodup)
    (horder : ModifiedInOrder clock messages) :
    (byModification messages).filterMap messageRole =
      (byCreation clock messages).filterMap messageRole := by
  have hfilter : ∀ l : List MessageFile,
      l.filterMap messageRole = (l.filter fun file => (messageRole file).isSome).filterMap
        messageRole := by
    intro l
    rw [List.filterMap_filter]
    apply List.filterMap_congr
    intro file _
    cases messageRole file <;> rfl
  rw [hfilter, hfilter (byCreation clock messages)]
  congr 1
  have hperm : (byModification messages).Perm messages := List.mergeSort_perm _ _
  have hperm' : (byCreation clock messages).Perm messages := List.mergeSort_perm _ _
  have hnodup : (byCreation clock messages).Nodup := hperm'.nodup_iff.mpr hdistinct.of_map
  have hcreation : ((byCreation clock messages).filter fun file =>
      (messageRole file).isSome).Pairwise fun a b => a.key ≤ b.key := by
    have hpairs := (pairwise_timestampLe (created clock) messages).and hnodup
    apply (hpairs.filter fun file => (messageRole file).isSome).imp_of_mem
    intro a b ha hb hab
    have hlt := horder a (hperm'.mem_iff.mp (List.mem_of_mem_filter ha)) b
      (hperm'.mem_iff.mp (List.mem_of_mem_filter hb)) hab.2
      (List.mem_filter.mp ha).2 (List.mem_filter.mp hb).2 hab.1
    exact Prod.Lex.toLex_le_toLex.mpr (Or.inl hlt)
  apply ((hperm.trans hperm'.symm).filter _).eq_of_pairwise _
    (pairwise_byModification.filter _) hcreation
  intro a b ha hb hab hba
  exact eq_of_key hdistinct (hperm.mem_iff.mp (List.mem_of_mem_filter ha))
    (hperm'.mem_iff.mp (List.mem_of_mem_filter hb)) (le_antisymm hab hba)

/-- The reader then agrees with the importer on the sequences of roles that are palindromes. -/
theorem sameBackwards_iff_palindrome (hpath : (openCodeSessionId files).toList.head? ≠ some '/')
    (horder : ModifiedInOrder clock (readMessages files)) :
    SameBackwards clock files ↔ (openCodeSessionId files ≠ "" →
      ((byCreation clock (readMessages files)).filterMap messageRole).Palindrome) := by
  have hsame : importedMessages files = readMessages files := by
    rw [readMessages, joinPath, if_neg hpath, importedMessages]
  have hdistinct : ((readMessages files).map MessageFile.path).Nodup := files.distinct _
  rw [SameBackwards, hsame, byModification_eq_byCreation hdistinct horder]
  simp only [List.Palindrome.iff_reverse_eq]

/-! ### The three formats -/

/-- What the readers and the importers depend on besides the files. -/
structure ReaderSetting where
  clock : ExternalClock
  piDigest : String → String
  run : ImportRun
  fileStem : String → Option String
  includeTools : Bool

inductive ExternalSessionFiles
  | codex (file : ExternalFile) (sessionIdHint : Option String)
  | pi (file : ExternalFile)
  | openCode (files : OpenCodeFiles) (sessionIdHint : Option String) (maxScanSessions : Nat)

namespace ExternalSessionFiles

def sessionId : ExternalSessionFiles → String
  | codex file _ => codexSessionId file
  | pi file => piSessionId file
  | openCode files _ _ => openCodeSessionId files

def read (setting : ReaderSetting) : ExternalSessionFiles → ReaderResult
  | codex file _ => loadCodexExternalSession setting.clock setting.includeTools file
  | pi file => loadPiExternalSession setting.clock setting.includeTools file
  | openCode files _ maxScanSessions =>
    loadOpenCodeExternalSession setting.clock setting.includeTools files maxScanSessions

def imported (setting : ReaderSetting) : ExternalSessionFiles → Except ImportError Session
  | codex file hint =>
    importCodexSessionFromPath setting.clock setting.piDigest setting.run file hint
  | pi file =>
    importPiSession setting.clock setting.piDigest setting.run setting.fileStem file
  | openCode files hint _ =>
    importOpenCodeSessionFromPath setting.clock setting.piDigest setting.run files hint

def IsPlain (clock : ExternalClock) : ExternalSessionFiles → Prop
  | codex file _ => IsPlainCodex file
  | pi file => IsPlainPi file
  | openCode files _ maxScanSessions => IsPlainOpenCode clock files maxScanSessions

def KeepsOrder (clock : ExternalClock) : ExternalSessionFiles → Prop
  | openCode files _ _ => SameBackwards clock files
  | _ => True

end ExternalSessionFiles

def plainSetting : ReaderSetting where
  clock := ⟨0, fun _ => none, fun millis => some millis.toNat⟩
  piDigest := id
  run := codexRun
  fileStem := some
  includeTools := true

def codexQuestion (id : String) : ExternalFile where
  path := "rollout.jsonl"
  modified := none
  lines := [.parsed (.object [("id", .string id)]), .parsed (.object
    [("type", .string "message"), ("role", .string "user"), ("content", .string "question")])]

lemma isPlainCodex_codexQuestion (id : String) : IsPlainCodex (codexQuestion id) := by
  intro value hvalue line hline
  rw [List.mem_singleton.mp hvalue] at hline
  cases hline
  trivial

def openCodeMessage (role path : String) (time : Nat) (text : String) : MessageFile where
  path := [path]
  modified := time * 10 ^ 9
  value := some <| .object
    [("role", .string role), ("time", .object [("created", .number (some time) text)]),
      ("content", .string "text")]

def conversation : List MessageFile :=
  [openCodeMessage "user" "msg_1.json" 1 "1", openCodeMessage "assistant" "msg_2.json" 2 "2"]

def openCodeConversation : OpenCodeFiles where
  path := "ses_1.json"
  modified := none
  value := some (.object [("id", .string "ses_1")])
  messagesBase := "message"
  messageFiles := fun directory => if directory = "message/ses_1" then conversation else []
  distinct := by
    intro directory
    split_ifs
    · decide
    · exact List.nodup_nil

lemma readMessages_openCodeConversation : readMessages openCodeConversation = conversation := by
  rfl

lemma importedMessages_openCodeConversation :
    importedMessages openCodeConversation = conversation := by
  rfl

lemma isPlainDirectory_conversation : IsPlainDirectory plainSetting.clock conversation where
  plain := by
    intro file hfile value hvalue
    obtain ⟨role, path, time, text, rfl⟩ : ∃ role path time text,
        file = openCodeMessage role path time text := by
      rcases List.mem_pair.mp hfile with rfl | rfl <;> exact ⟨_, _, _, _, rfl⟩
    cases hvalue
    refine ⟨Or.inr rfl, ?_, by rintro _ ⟨⟩⟩
    rintro content ⟨⟩
    trivial
  distinct := by decide +kernel

lemma byModification_conversation : byModification conversation = conversation := by
  apply List.mergeSort_of_pairwise
  apply List.pairwise_pair.mpr
  have hlt : (openCodeMessage "user" "msg_1.json" 1 "1").key <
      (openCodeMessage "assistant" "msg_2.json" 2 "2").key :=
    Prod.Lex.toLex_lt_toLex.mpr (Or.inl (by decide))
  exact decide_eq_true hlt.le

lemma byCreation_conversation : byCreation plainSetting.clock conversation = conversation := by
  apply List.mergeSort_of_pairwise
  exact List.pairwise_pair.mpr rfl

lemma isPlainOpenCode_conversation :
    IsPlainOpenCode plainSetting.clock openCodeConversation 2 where
  read := isPlainDirectory_conversation
  imported := isPlainDirectory_conversation
  room := by decide +kernel

lemma modifiedInOrder_conversation : ModifiedInOrder plainSetting.clock conversation := by
  intro a ha b hb hne _ _ hle
  rcases List.mem_pair.mp ha with rfl | rfl <;> rcases List.mem_pair.mp hb with rfl | rfl
  · exact absurd rfl hne
  · decide
  · cases hle
  · exact absurd rfl hne

end Jcode
