import Jcode.Import.ExternalReaders
import Jcode.Import.Resume
import Jcode.Swarm.MemberRecovery

/-!
# The readers of external sessions and the importers

A reader finds the messages that the importer of the same files makes a session of. It panics at a
session id whose first eight bytes end inside a character, and the reader of OpenCode returns the
messages from the newest on.
-/

namespace Jcode

variable {text role : String} {value content block : Json} {includeTools : Bool}
  {clock : ExternalClock}

/-! ### Texts and blocks of texts -/

def IsTextBlock (block : Json) : Prop :=
  ∃ type text, type ∉ toolTypes ∧
    (block = .object [("type", .string type), ("text", .string text)] ∨
      block = .object [("text", .string text), ("type", .string type)])

/-- A text or an array of blocks of text, or no content. -/
def IsPlainContent : Json → Prop
  | .null => True
  | .string _ => True
  | .array blocks => ∀ block ∈ blocks, IsTextBlock block
  | _ => False

lemma visitText_block (h : IsTextBlock block) : ∃ text, block.visitText = textPiece text ∧
    ∀ includeTools, block.visitExternalText includeTools = textPiece text := by
  obtain ⟨type, text, htype, rfl | rfl⟩ := h <;>
    refine ⟨text, by simp [Json.visitText, Json.getStr, Json.get, Json.asStr], ?_⟩ <;>
    intro includeTools <;>
    simp [Json.visitExternalText, visitExternalFields, Json.getStr, Json.get, Json.asStr, htype]

/-- Both readings put down the same texts. -/
lemma visitText_plain (h : IsPlainContent content) : ∃ texts : List String,
    content.visitText = texts.flatMap textPiece ∧
      ∀ includeTools, content.visitExternalText includeTools = texts.flatMap textPiece := by
  cases content with
  | null => exact ⟨[], rfl, fun _ => rfl⟩
  | string text =>
    refine ⟨[text], ?_, ?_⟩
    · simp [Json.visitText]
    · simp [Json.visitExternalText]
  | array blocks =>
    simp only [Json.visitText, Json.visitExternalText]
    induction blocks with
    | nil => exact ⟨[], rfl, fun _ => rfl⟩
    | cons block blocks ih =>
      obtain ⟨text, hvisit, hexternal⟩ := visitText_block (h block List.mem_cons_self)
      obtain ⟨texts, hvisits, hexternals⟩ := ih fun other hother =>
        h other (List.mem_cons_of_mem block hother)
      refine ⟨text :: texts, ?_, ?_⟩
      · rw [visitTextItems, hvisit, hvisits, List.flatMap_cons]
      · intro includeTools
        rw [visitExternalItems, hexternal, hexternals, List.flatMap_cons]
  | bool | number | object => exact h.elim

/-- What is left of a text that is trimmed is not blank. -/
lemma trim_trim_ne (h : trim text ≠ "") : trim (trim text) ≠ "" := by
  intro hblank
  rw [trim_eq_empty] at hblank
  apply h
  rw [trim, String.toList_ofList] at hblank
  rw [trim, String.ofList_eq_empty_iff, List.reverse_eq_nil_iff]
  by_contra hne
  have hhead := List.head_dropWhile_not isWhitespace hne
  have hmem := List.head_mem hne
  rw [hblank _ (List.mem_reverse.mpr hmem)] at hhead
  cases hhead

lemma trim_ne_of_mem_textPiece {piece : String} (h : piece ∈ textPiece text) : trim piece ≠ "" := by
  unfold textPiece at h
  split_ifs at h with htrim
  · cases h
  · rw [List.mem_singleton.mp h]
    exact trim_trim_ne htrim

/-- Texts that are not blank are not blank together. -/
lemma trim_intercalate {pieces : List String} (sep : String)
    (h : ∀ piece ∈ pieces, trim piece ≠ "") : trim (sep.intercalate pieces) = "" ↔ pieces = [] := by
  constructor
  · intro hblank
    cases pieces with
    | nil => rfl
    | cons piece pieces =>
      exfalso
      apply h piece List.mem_cons_self
      rw [trim_eq_empty] at hblank ⊢
      intro c hc
      apply hblank c
      cases pieces with
      | nil => simpa using hc
      | cons next pieces => simp [String.intercalate_cons_cons, hc]
  · rintro rfl
    rw [String.intercalate_nil]
    rfl

/-- A text is blank in one reading if it is in the other. -/
lemma trim_extract_iff (includeTools : Bool) (h : IsPlainContent content) :
    trim (extractExternalTextFromJson includeTools content) = "" ↔
      trim (extractTextFromJsonValue content) = "" := by
  obtain ⟨texts, hvisit, hexternal⟩ := visitText_plain h
  have hpieces : ∀ piece ∈ texts.flatMap textPiece, trim piece ≠ "" := by
    intro piece hpiece
    obtain ⟨text, -, htext⟩ := List.mem_flatMap.mp hpiece
    exact trim_ne_of_mem_textPiece htext
  rw [extractExternalTextFromJson, extractTextFromJsonValue, hvisit, hexternal,
    trim_intercalate _ hpieces, trim_intercalate _ hpieces]

/-! ### Messages -/

def ExternalMessageRecord.author (record : ExternalMessageRecord) : Option Role :=
  importedRole record.role

def ExternalRecord.author (record : ExternalRecord) : Option Role :=
  (convertRecord record).map ExternalMessage.role

lemma convertRecord_author {record : ExternalRecord} :
    record.author = if trim record.text = "" then none else importedRole record.role := by
  unfold ExternalRecord.author convertRecord
  cases importedRole record.role with
  | none => simp
  | some role => by_cases htext : trim record.text = "" <;> simp [htext]

/-- A reader and an importer make a message of the same role, or none. -/
lemma messageRecord_author {external : String} {timestamp : Option Nat} {id : Option String}
    (record : ExternalRecord) (h : trim external = "" ↔ trim record.text = "") :
    (messageRecord record.role external timestamp id).map ExternalMessageRecord.author =
      record.author.map some := by
  rw [convertRecord_author]
  unfold messageRecord
  cases hrole : importedRole record.role with
  | none => simp
  | some role =>
    by_cases htext : trim record.text = "" <;>
      simp [h, htext, ExternalMessageRecord.author, hrole]

/-- Of every line or file the messages agree, so the roles do. -/
lemma authors_eq {α : Type} {items : List α} {read : α → Option ExternalMessageRecord}
    {imported : α → Option ExternalRecord}
    (h : ∀ item ∈ items, (read item).map ExternalMessageRecord.author =
      ((imported item).bind ExternalRecord.author).map some) :
    (items.filterMap read).map ExternalMessageRecord.author =
      ((items.filterMap imported).filterMap ExternalRecord.author).map some := by
  rw [List.map_filterMap, List.filterMap_filterMap, List.map_filterMap]
  exact List.filterMap_congr h

/-! ### Lines -/

/-- An importer that ends reads the lines that a reader reads. -/
lemma readValues_of_importedValues {lines : List FileLine} {values : List Json}
    (h : importedValues lines = .ok values) : readValues lines = values := by
  induction lines generalizing values with
  | nil =>
    cases h
    rfl
  | cons line lines ih =>
    cases line with
    | unreadable => cases h
    | malformed => exact ih h
    | parsed value =>
      rw [importedValues] at h
      cases hrest : importedValues lines with
      | error error =>
        rw [hrest] at h
        cases h
      | ok rest =>
        rw [hrest] at h
        cases h
        rw [readValues, ih hrest]

def codexImportRecord (clock : ExternalClock) (value : Json) : Option ExternalRecord :=
  (codexLine value).bind fun line =>
    if (importedRole line.role).isSome then
      some ⟨line.role, extractTextFromJsonValue line.content, parseRfc3339Json clock line.timestamp⟩
    else none

lemma records_codexMessage (clock : ExternalClock) (state : ImportState) (value : Json) :
    (state.codexMessage clock value).records =
      state.records ++ (codexImportRecord clock value).toList := by
  unfold ImportState.codexMessage codexImportRecord
  cases codexLine value with
  | none => simp
  | some line => cases hrole : importedRole line.role <;> simp [hrole]

def piImportRecord (clock : ExternalClock) (value : Json) : Option ExternalRecord :=
  if value.getStr "type" = some "message" then
    (value.get "message").bind fun message =>
      let role := (message.getStr "role").getD ""
      if (importedRole role).isSome then
        some ⟨role, extractTextFromJsonValue ((message.get "content").getD .null),
          parseRfc3339Json clock (value.get "timestamp")⟩
      else none
  else none

lemma records_piLine (clock : ExternalClock) (state : ImportState) (value : Json) :
    (state.piLine clock value).records =
      state.records ++ (piImportRecord clock value).toList := by
  unfold ImportState.piLine piImportRecord
  by_cases hchange : value.getStr "type" = some "model_change"
  · simp [hchange]
  · by_cases hmessage : value.getStr "type" = some "message"
    · simp only [hmessage, if_true]
      cases value.get "message" with
      | none => simp
      | some message =>
        simp only [ImportState.piMessage, Option.bind_some]
        cases importedRole ((message.getStr "role").getD "") <;> simp
    · simp [hchange, hmessage]

/-- The records of a loop that puts down at most one for each item. -/
lemma records_foldl {α : Type} {step : ImportState → α → ImportState}
    {record : α → Option ExternalRecord}
    (hstep : ∀ state item, (step state item).records = state.records ++ (record item).toList)
    (items : List α) (state : ImportState) :
    (items.foldl step state).records = state.records ++ items.filterMap record := by
  induction items generalizing state with
  | nil => simp
  | cons item items ih =>
    rw [List.foldl_cons, ih, hstep]
    cases hrecord : record item <;> simp [hrecord]

lemma codexRoleAndContent_eq :
    codexRoleAndContent value = (codexLine value).map fun line => (line.role, line.content) := by
  unfold codexRoleAndContent codexLine
  by_cases hmessage : (value.getStr "type").getD "" = "message"
  · simp [hmessage, Function.comp_def]
  · by_cases hitem : (value.getStr "type").getD "" = "response_item"
    · simp only [hitem]
      cases value.get "payload" with
      | none => simp
      | some payload =>
        by_cases hpayload : payload.getStr "type" = some "message" <;>
          simp [hpayload, Function.comp_def]
    · simp [hmessage, hitem]

lemma codexRecord_author (h : ∀ line ∈ codexLine value, IsPlainContent line.content) :
    (codexRecord clock includeTools value).map ExternalMessageRecord.author =
      ((codexImportRecord clock value).bind ExternalRecord.author).map some := by
  rw [codexRecord, codexRoleAndContent_eq, codexImportRecord]
  cases hline : codexLine value with
  | none => rfl
  | some line =>
    have hblank := trim_extract_iff includeTools (h line hline)
    simp only [Option.map_some, Option.bind_some]
    rw [messageRecord_author ⟨line.role, extractTextFromJsonValue line.content,
      parseRfc3339Json clock line.timestamp⟩ hblank]
    cases hrole : importedRole line.role <;> simp [convertRecord_author, hrole]

def piContent (value : Json) : Json :=
  (((value.get "message").bind (Json.get "content"))).getD .null

lemma piRecord_author
    (h : value.getStr "type" = some "message" → IsPlainContent (piContent value)) :
    (piRecord clock includeTools value).map ExternalMessageRecord.author =
      ((piImportRecord clock value).bind ExternalRecord.author).map some := by
  unfold piRecord piImportRecord
  by_cases htype : value.getStr "type" = some "message"
  · have hplain := h htype
    rw [if_pos htype, if_pos htype]
    cases hmessage : value.get "message" with
    | none => rfl
    | some message =>
      rw [piContent, hmessage, Option.bind_some] at hplain
      have hblank := trim_extract_iff includeTools hplain
      simp only [Option.bind_some]
      rw [messageRecord_author ⟨(message.getStr "role").getD "",
        extractTextFromJsonValue ((message.get "content").getD .null),
        parseRfc3339Json clock (value.get "timestamp")⟩ hblank]
      cases hrole : importedRole ((message.getStr "role").getD "") <;>
        simp [convertRecord_author, hrole]
  · simp [htype]

/-! ### Sessions -/

def Session.authors (session : Session) : List Role := session.messages.map StoredMessage.role

def ExternalSessionRecord.authors (record : ExternalSessionRecord) : List (Option Role) :=
  record.messages.map ExternalMessageRecord.author

/-- The session of a reader has the messages of the importer's session, and the reader returns. A
session without an id is none to the reader. -/
structure ReadersAgree (sessionId : String) (read : ReaderResult)
    (imported : Except ImportError Session) : Prop where
  returns : read ≠ none
  agrees : sessionId ≠ "" → ∀ session, imported = .ok session →
    ∃ record, read = some (.ok (some record)) ∧ record.authors = session.authors.map some

/-- The first eight bytes of the id, or all of it, end between two characters. -/
def ShortFits (sessionId : String) : Prop :=
  CharBytes.IsBoundary sessionId.toList (min (CharBytes.width sessionId.toList) 8)

instance (sessionId : String) : Decidable (ShortFits sessionId) :=
  inferInstanceAs (Decidable (CharBytes.IsBoundary _ _))

lemma isSome_shortId {sessionId : String} : (shortId sessionId).isSome ↔ ShortFits sessionId := by
  rw [shortId, Option.isSome_map, CharBytes.isSome_cut]
  rfl

lemma shortFits_empty : ShortFits "" := CharBytes.isBoundary_zero

section

variable {sessionId : String} {read : ReaderResult} {imported : Except ImportError Session}
  {authors : List (Option Role)}

/-- What a reader can do: it returns before it gets as far as the id, or it has its messages and
cuts the id last. -/
inductive Reads (authors : List (Option Role)) : String → ReaderResult → Prop
  | early (result : Except ReadError (Option ExternalSessionRecord)) :
      Reads authors "" (some result)
  | short {sessionId : String} (hid : sessionId ≠ "") (make : String → ExternalSessionRecord)
      (hmake : ∀ short, (make short).authors = authors) :
      Reads authors sessionId ((shortId sessionId).map fun short => .ok (some (make short)))

lemma Reads.agree_iff (h : Reads authors sessionId read) :
    ReadersAgree sessionId read imported ↔ ShortFits sessionId ∧
      (sessionId ≠ "" → ∀ session, imported = .ok session →
        authors = session.authors.map some) := by
  cases h with
  | early result =>
    refine iff_of_true ⟨Option.some_ne_none result, ?_⟩ ⟨shortFits_empty, ?_⟩
    · exact fun h => (h rfl).elim
    · exact fun h => (h rfl).elim
  | short hid make hmake =>
    rw [← isSome_shortId]
    constructor
    · intro h
      obtain ⟨short, hshort⟩ : ∃ short, shortId sessionId = some short := by
        apply Option.ne_none_iff_exists'.mp
        intro hnone
        apply h.returns
        rw [hnone, Option.map_none]
      refine ⟨by rw [hshort, Option.isSome_some], ?_⟩
      intro _ session himported
      obtain ⟨record, hrecord, hauthors⟩ := h.agrees hid session himported
      rw [hshort] at hrecord
      cases hrecord
      rw [← hauthors, hmake]
    · rintro ⟨hsome, hauthors⟩
      obtain ⟨short, hshort⟩ := Option.isSome_iff_exists.mp hsome
      rw [hshort, Option.map_some]
      refine ⟨Option.some_ne_none _, ?_⟩
      intro hid session himported
      exact ⟨make short, rfl, by rw [hmake, hauthors hid session himported]⟩

end

/-- The messages of a session are the records that were put down. -/
lemma authors_finalizedSession {piDigest : String → String} {source : ExternalSource}
    {sessionId : String} {run : ImportRun} {header : ExternalHeader}
    {providerSessionId providerKey : Option String} {records : List ExternalRecord} :
    (finalizedSession piDigest source sessionId run header providerSessionId providerKey
      (records.filterMap convertRecord)).authors = records.filterMap ExternalRecord.author := by
  have himport : (finalizedSession piDigest source sessionId run header providerSessionId
      providerKey (records.filterMap convertRecord)).IsImportOf
        (importedSessionId piDigest source sessionId) (records.filterMap convertRecord) :=
    isImportOf_finalizedSession
  have hroles : ∀ {messages : List ExternalMessage} {stored : List StoredMessage},
      List.Forall₂ IsStoredAs messages stored →
        stored.map StoredMessage.role = messages.map ExternalMessage.role := by
    intro messages stored h
    induction h with
    | nil => rfl
    | cons hstored _ ih =>
      obtain ⟨freshId, rfl⟩ := hstored
      rw [List.map_cons, List.map_cons, ih]
      rfl
  rw [Session.authors, hroles himport.messages, List.map_filterMap]
  rfl

variable {piDigest : String → String} {run : ImportRun} {file : ExternalFile}

/-! ### Codex and Pi -/

def codexSessionId (file : ExternalFile) : String :=
  match file.lines with
  | .parsed header :: _ => ((codexMeta header).getStr "id").getD ""
  | _ => ""

lemma reads_codex : Reads
    (((readValues file.lines.tail).filterMap (codexRecord clock includeTools)).map
      ExternalMessageRecord.author)
    (codexSessionId file) (loadCodexExternalSession clock includeTools file) := by
  unfold codexSessionId loadCodexExternalSession
  cases file.lines with
  | nil => exact .early _
  | cons line rest =>
    cases line with
    | unreadable => exact .early _
    | malformed => exact .early _
    | parsed header =>
      dsimp only
      split_ifs with hid
      · rw [hid]
        exact .early _
      · exact .short hid _ fun _ => rfl

lemma authors_importCodex {hint : Option String} {session : Session}
    (h : importCodexSessionFromPath clock piDigest run file hint = .ok session) :
    session.authors = ((readValues file.lines.tail).filterMap
      (codexImportRecord clock)).filterMap ExternalRecord.author := by
  unfold importCodexSessionFromPath at h
  cases hlines : file.lines with
  | nil => simp [hlines] at h
  | cons line rest =>
    rw [hlines] at h
    cases line with
    | unreadable => cases h
    | malformed => cases h
    | parsed header =>
      dsimp only at h
      split at h
      · cases h
      · cases hvalues : importedValues rest with
        | error error =>
          rw [hvalues] at h
          cases h
        | ok values =>
          rw [hvalues] at h
          cases h
          rw [authors_finalizedSession, records_foldl (records_codexMessage clock),
            List.nil_append, List.tail_cons, readValues_of_importedValues hvalues]

/-- The messages of the lines have plain contents. -/
def IsPlainCodex (file : ExternalFile) : Prop :=
  ∀ value ∈ readValues file.lines.tail, ∀ line ∈ codexLine value, IsPlainContent line.content

lemma readersAgree_codex_iff (hplain : IsPlainCodex file) (hint : Option String) :
    ReadersAgree (codexSessionId file) (loadCodexExternalSession clock includeTools file)
      (importCodexSessionFromPath clock piDigest run file hint) ↔
        ShortFits (codexSessionId file) := by
  rw [reads_codex.agree_iff]
  apply and_iff_left
  intro _ session himported
  rw [authors_importCodex himported]
  exact authors_eq fun value hvalue => codexRecord_author (hplain value hvalue)

def piSessionId (file : ExternalFile) : String :=
  match file.lines with
  | .parsed header :: _ =>
    if header.getStr "type" = some "session" then (header.getStr "id").getD "" else ""
  | _ => ""

lemma reads_pi : Reads
    (((readValues file.lines.tail).filterMap (piRecord clock includeTools)).map
      ExternalMessageRecord.author)
    (piSessionId file) (loadPiExternalSession clock includeTools file) := by
  unfold piSessionId loadPiExternalSession
  cases file.lines with
  | nil => exact .early _
  | cons line rest =>
    cases line with
    | unreadable => exact .early _
    | malformed => exact .early _
    | parsed header =>
      dsimp only
      by_cases htype : header.getStr "type" = some "session"
      · rw [if_pos htype, if_neg (not_not.mpr htype)]
        split_ifs with hid
        · rw [hid]
          exact .early _
        · exact .short hid _ fun _ => rfl
      · rw [if_neg htype, if_pos htype]
        exact .early _

lemma authors_importPi {fileStem : String → Option String} {session : Session}
    (h : importPiSession clock piDigest run fileStem file = .ok session) :
    session.authors = ((readValues file.lines.tail).filterMap
      (piImportRecord clock)).filterMap ExternalRecord.author := by
  unfold importPiSession at h
  cases hlines : file.lines with
  | nil => simp [hlines] at h
  | cons line rest =>
    rw [hlines] at h
    cases line with
    | unreadable => cases h
    | malformed => cases h
    | parsed header =>
      dsimp only at h
      split_ifs at h with htype
      cases hvalues : importedValues rest with
      | error error =>
        rw [hvalues] at h
        cases h
      | ok values =>
        rw [hvalues] at h
        cases h
        rw [authors_finalizedSession, records_foldl (records_piLine clock), List.nil_append,
          List.tail_cons, readValues_of_importedValues hvalues]

def IsPlainPi (file : ExternalFile) : Prop :=
  ∀ value ∈ readValues file.lines.tail, value.getStr "type" = some "message" →
    IsPlainContent (piContent value)

lemma readersAgree_pi_iff {fileStem : String → Option String} (hplain : IsPlainPi file) :
    ReadersAgree (piSessionId file) (loadPiExternalSession clock includeTools file)
      (importPiSession clock piDigest run fileStem file) ↔ ShortFits (piSessionId file) := by
  rw [reads_pi.agree_iff]
  apply and_iff_left
  intro _ session himported
  rw [authors_importPi himported]
  exact authors_eq fun value hvalue => piRecord_author (hplain value hvalue)

end Jcode
