import Jcode.Session.Persistence

/-!
# What the files of a session hold

What is relied on in the JSON of sessions, and what the loader makes of a snapshot and a journal
of complete lines.
-/

namespace Jcode

open LineLog

/-- What JSON promises: nothing is lost, and a journal entry is an object on one line. -/
structure SessionFormat.Lawful (format : SessionFormat) : Prop where
  snapshot_lossless : format.snapshot.LosslessOn fun _ => True
  entry_lossless : format.entry.LosslessOn fun _ => True
  entry_braces : ∀ entry, ∃ body, (format.entry.encode entry).toList = '{' :: (body ++ ['}'])
  entry_printable : ∀ entry, ∀ c ∈ (format.entry.encode entry).toList, 0x20 ≤ c.toNat

/-! ### Trimmed texts -/

section

variable {text : String} {body : List Char}

lemma trim_toList (h : text.toList = '{' :: body) :
    (trim text).toList = ('{' :: body).rdropWhile isWhitespace := by
  have hbrace : ¬ isWhitespace '{' = true := by decide
  rw [trim, h, List.dropWhile_cons_of_neg hbrace, String.toList_ofList]
  rfl

/-- Nothing is trimmed from a text in braces. -/
lemma trim_eq_self (h : text.toList = '{' :: (body ++ ['}'])) : trim text = text := by
  refine String.toList_inj.mp ?_
  have hbrace : ¬ isWhitespace '}' = true := by decide
  rw [trim_toList h, ← List.cons_append, List.rdropWhile_concat_neg _ _ _ hbrace, ← h.symm]
  rfl

/-- After an opening brace only the end is trimmed. -/
lemma trim_prefix (h : text.toList = '{' :: body) :
    trim text ≠ "" ∧ (trim text).toList <+: text.toList := by
  have hne : ('{' :: body).rdropWhile isWhitespace ≠ [] := by
    intro hnil
    have hbrace := List.rdropWhile_eq_nil_iff.mp hnil '{' List.mem_cons_self
    exact absurd hbrace (by decide)
  constructor
  · intro hempty
    rw [← trim_toList h, hempty] at hne
    exact hne rfl
  · rw [trim_toList h, h]
    exact List.rdropWhile_prefix _ _

end

variable {format : SessionFormat}

/-! ### Journal lines -/

/-- The text of an entry, as a line of the journal. -/
def entryBytes (format : SessionFormat) (entry : SessionJournalEntry) : Bytes :=
  utf8 (format.entry.encode entry)

namespace SessionFormat.Lawful

variable (hformat : format.Lawful) (entry : SessionJournalEntry)

include hformat

lemma lt_of_mem_entryBytes {b : UInt8} (hb : b.toNat < 128)
    (h : b ∈ entryBytes format entry) : 0x20 ≤ b.toNat := by
  obtain ⟨c, hc, hcb⟩ := exists_char_of_mem_utf8 hb h
  exact hcb ▸ hformat.entry_printable entry c hc

lemma newline_notMem : newline ∉ entryBytes format entry := fun h =>
  absurd (hformat.lt_of_mem_entryBytes entry (by decide) h) (by decide)

lemma carriageReturn_notMem : carriageReturn ∉ entryBytes format entry := fun h =>
  absurd (hformat.lt_of_mem_entryBytes entry (by decide) h) (by decide)

lemma readJournalLine : readJournalLine format (entryBytes format entry) = .record entry := by
  obtain ⟨body, hbody⟩ := hformat.entry_braces entry
  have hne : format.entry.encode entry ≠ "" := by
    intro h
    simp [h] at hbody
  simp only [Jcode.readJournalLine, entryBytes, readUtf8_utf8, trim_eq_self hbody]
  rw [if_neg hne, hformat.entry_lossless entry trivial]

/-- Entries that were completely written are read, whatever follows them. -/
lemma readRecords_frame (entries : List SessionJournalEntry) (rest : Bytes) :
    readRecords (Jcode.readJournalLine format) (LineLog.lines newline carriageReturn
        (frame newline (entries.map (entryBytes format)) ++ rest)) =
      (readRecords (Jcode.readJournalLine format) (LineLog.lines newline carriageReturn rest)).map
        (entries ++ ·) := by
  rw [lines_frame_append, readRecords_append]
  · exact fun entry _ => hformat.readJournalLine entry
  · intro line hline
    obtain ⟨entry, -, rfl⟩ := List.mem_map.mp hline
    exact ⟨hformat.newline_notMem entry,
      fun h => hformat.carriageReturn_notMem entry (List.mem_of_getLast? h)⟩

end SessionFormat.Lawful

/-! ### Torn lines -/

section

variable {entry entry' : SessionJournalEntry} {tail : Bytes} {text : String}

/-- The text of a torn line starts with the brace of the entry. -/
lemma torn_text (hformat : format.Lawful) (htail : utf8 text <+: entryBytes format entry)
    (hne : utf8 text ≠ []) :
    text.toList <+: (format.entry.encode entry).toList ∧ ∃ body, text.toList = '{' :: body := by
  have hpre := toList_prefix_of_utf8_prefix htail
  refine ⟨hpre, ?_⟩
  obtain ⟨body, hbody⟩ := hformat.entry_braces entry
  rw [hbody] at hpre
  cases htext : text.toList with
  | nil => simp [utf8_eq_flatMap, htext] at hne
  | cons c rest =>
    rw [htext, List.cons_prefix_cons] at hpre
    exact ⟨rest, by rw [hpre.1]⟩

/-- A torn line is not an entry, unless only its newline is missing. -/
lemma readJournalLine_torn (hformat : format.Lawful) (htorn : format.entry.RejectsTorn)
    (htail : tail <+: entryBytes format entry) (hne : tail ≠ []) :
    readJournalLine format tail = .invalid ∨ readJournalLine format tail = .malformed ∨
      readJournalLine format tail = .record entry := by
  unfold readJournalLine
  cases hread : readUtf8 tail with
  | none => exact .inl rfl
  | some text =>
    obtain rfl := readUtf8_eq_some.mp hread
    obtain ⟨hpre, body, hbody⟩ := torn_text hformat htail hne
    obtain ⟨hblank, htrim⟩ := trim_prefix hbody
    refine .inr ?_
    dsimp only
    rw [if_neg hblank]
    by_cases hwhole : trim text = format.entry.encode entry
    · rw [hwhole, hformat.entry_lossless entry trivial]
      exact .inr rfl
    · rw [htorn.decode_cut entry _ (htrim.trans hpre) hwhole]
      exact .inl rfl

/-- A torn line stays malformed with an entry behind it. -/
lemma readJournalLine_joined (hformat : format.Lawful) (htorn : format.entry.RejectsTorn)
    (htail : tail <+: entryBytes format entry) (hne : tail ≠ [])
    (hread : readJournalLine format tail ≠ .invalid) :
    readJournalLine format (tail ++ entryBytes format entry') = .malformed := by
  unfold readJournalLine at hread
  cases htext : readUtf8 tail with
  | none => simp [htext] at hread
  | some text =>
    obtain rfl := readUtf8_eq_some.mp htext
    obtain ⟨hpre, body, hbody⟩ := torn_text hformat htail hne
    obtain ⟨body', hbody'⟩ := hformat.entry_braces entry'
    have hjoined : (text ++ format.entry.encode entry').toList =
        '{' :: ((body ++ '{' :: body') ++ ['}']) := by
      simp [hbody, hbody']
    have hblank : text ++ format.entry.encode entry' ≠ "" := by
      intro h
      simp [h] at hjoined
    have htext' : text ≠ "" := by
      rintro rfl
      simp at hbody
    simp only [readJournalLine, entryBytes, ← utf8_append, readUtf8_utf8, trim_eq_self hjoined]
    rw [if_neg hblank, htorn.decode_joined entry entry' text htext' hpre]

end

/-! ### Stored sessions -/

/-- A snapshot `base`, and a journal of complete lines. -/
structure StoredAt (format : SessionFormat) (fs : Directory) (sessionId : String)
    (base : PersistedSession) (entries : List SessionJournalEntry) : Prop where
  snapshot : fs (sessionPath sessionId) = some (utf8 (format.snapshot.encode base))
  journal : (fs (sessionJournalPath sessionId)).getD [] =
    frame newline (entries.map (entryBytes format))

variable {fs : Directory} {sessionId : String} {base : PersistedSession}
  {entries : List SessionJournalEntry}

lemma readJournal_eq (path : FileName) :
    readJournal format fs path = readRecords (readJournalLine format)
      (LineLog.lines newline carriageReturn ((fs path).getD [])) := by
  unfold readJournal
  cases fs path <;> rfl

/-- A session as the loader leaves it. -/
def loadedSession (stored : PersistedSession) : Session :=
  Session.resetPersistState ⟨stored, .default⟩ true

/-- The loader replays what it can read of the journal over the snapshot. -/
lemma loadFromPath_snapshot (hformat : format.Lawful)
    (h : fs (sessionPath sessionId) = some (utf8 (format.snapshot.encode base))) :
    loadFromPath format fs (sessionPath sessionId) =
      ((readJournal format fs (sessionJournalPath sessionId)).map fun entries =>
        loadedSession (base.replay entries), fs) := by
  have hread := readJson_eq h (hformat.snapshot_lossless base trivial)
  have hexists : fs.pathExists (sessionPath sessionId) = true := by
    simp [Directory.pathExists, h]
  simp only [loadFromPath, hread, Option.bind_some, hexists]
  rfl

/-- Behind complete lines, a torn one is ignored, makes the journal unreadable, or is whole but for
its newline. -/
lemma readJournal_torn (hformat : format.Lawful) (htorn : format.entry.RejectsTorn)
    {path : FileName} {entry : SessionJournalEntry} {tail : Bytes}
    (hjournal : (fs path).getD [] = frame newline (entries.map (entryBytes format)) ++ tail)
    (htail : tail <+: entryBytes format entry) :
    readJournal format fs path = none ∨ readJournal format fs path = some entries ∨
      readJournal format fs path = some (entries ++ [entry]) := by
  have hnl : newline ∉ tail := fun h => hformat.newline_notMem entry (htail.subset h)
  rw [readJournal_eq, hjournal, hformat.readRecords_frame, lines_unfinished hnl]
  split_ifs with hne
  · exact .inr (.inl (by simp [readRecords]))
  · rcases readJournalLine_torn hformat htorn htail hne with h | h | h
    · exact .inl (by simp [readRecords, h])
    · exact .inr (.inl (by simp [readRecords, h]))
    · exact .inr (.inr (by simp [readRecords, h]))

namespace StoredAt

lemma readJournal (h : StoredAt format fs sessionId base entries) (hformat : format.Lawful) :
    readJournal format fs (sessionJournalPath sessionId) = some entries := by
  have hread := hformat.readRecords_frame entries []
  rw [List.append_nil] at hread
  rw [readJournal_eq, h.journal, hread]
  simp [LineLog.lines, linesFrom, readRecords]

/-- What is stored is loaded. -/
lemma loadFromPath (h : StoredAt format fs sessionId base entries) (hformat : format.Lawful) :
    loadFromPath format fs (sessionPath sessionId) =
      (some (loadedSession (base.replay entries)), fs) := by
  rw [loadFromPath_snapshot hformat h.snapshot, h.readJournal hformat]
  rfl

end StoredAt

/-! ### A concrete format -/

deriving instance Countable for Role, CacheControl, ContentBlock, StoredDisplayRole,
  StoredTokenUsage, StoredMessage, SessionStatus, SessionImproveMode, StoredCompactionState,
  GitState, EnvSnapshot, StoredMemoryInjection, SwarmMemberStatus
deriving instance Countable for StoredReplayEventKind
deriving instance Countable for StoredReplayEvent, SessionJournalMeta
deriving instance Countable for SessionJournalEntry, PersistedSession

/-- Unary texts; the text of the given entry is `{}`. -/
noncomputable def unaryFormat (first : SessionJournalEntry) : SessionFormat where
  snapshot := .unary PersistedSession
  entry := .unaryBy (TextCodec.numberFrom first)

lemma unaryFormat_lawful (first : SessionJournalEntry) : (unaryFormat first).Lawful where
  snapshot_lossless := TextCodec.unary_losslessOn _
  entry_lossless entry _ :=
    TextCodec.decode_encode_unaryBy (TextCodec.numberFrom_injective first) entry
  entry_braces entry := ⟨_, TextCodec.toList_encode_unaryBy entry⟩
  entry_printable entry c hc := by
    simp only [unaryFormat, TextCodec.toList_encode_unaryBy, TextCodec.unaryText, List.mem_cons,
      List.mem_append, List.mem_replicate, List.not_mem_nil, or_false] at hc
    rcases hc with rfl | ⟨-, rfl⟩ | rfl <;> decide

lemma unaryFormat_rejectsTorn (first : SessionJournalEntry) :
    (unaryFormat first).entry.RejectsTorn :=
  TextCodec.unaryBy_rejectsTorn

lemma encode_unaryFormat (first : SessionJournalEntry) :
    (unaryFormat first).entry.encode first = "\x7b\x7d" := by
  refine String.toList_inj.mp ?_
  rw [unaryFormat, TextCodec.toList_encode_unaryBy]
  simp [TextCodec.unaryText, TextCodec.numberFrom]

lemma entryBytes_unaryFormat (first : SessionJournalEntry) :
    entryBytes (unaryFormat first) first = [123, 125] := by
  rw [entryBytes, encode_unaryFormat]
  decide

end Jcode
