import Jcode.Replay.Faithful

/-!
# What the export writes

The export writes the entries of the transcript in their order, and the time it writes them at never
decreases. Sorting by time therefore keeps them in order and only puts the persisted events between
them.
-/

namespace Jcode

namespace Replay

variable {entries before rest : List TranscriptEntry} {names ids : String → String}
  {id name text : String} {s : ExportState} {kind : TimelineEventKind} {pause : Nat}

lemma callPairs_of_quiet {entry : TranscriptEntry} (hcall : callPair entry = none) :
    callPairs (before ++ [entry]) = callPairs before := by
  simp [callPairs, hcall]

lemma resultIds_of_quiet {entry : TranscriptEntry} (hresult : resultId entry = none) :
    resultIds (before ++ [entry]) = resultIds before := by
  simp [resultIds, hresult]

/-- What the playback shows of an export so far. -/
def ExportState.view (s : ExportState) : View :=
  (s.events.map (·.kind)).foldl View.step .start

/-- The export has written the entries `before`, and knows which calls are open. -/
structure Exported (names : String → String) (before : List TranscriptEntry) (s : ExportState) :
    Prop where
  view : s.view = before.foldl (View.showEntry names) .start
  pendingTools : s.pendingTools = (callPairs before).filter (·.1 ∉ resultIds before)
  ordered : s.events.Pairwise fun a b => a.t ≤ b.t
  past : ∀ event ∈ s.events, event.t ≤ s.t
  base : ∀ event ∈ s.events, playedRecord event.kind = none

lemma exported_start : Exported names [] .start where
  view := rfl
  pendingTools := rfl
  ordered := .nil
  past := by rintro _ ⟨⟩
  base := by rintro _ ⟨⟩

lemma view_push (s : ExportState) (kind : TimelineEventKind) (pause : Nat) :
    (s.push kind pause).view = s.view.step kind := by
  simp [ExportState.view, ExportState.push]

namespace Exported

/-- One event is written, with what it makes of the open calls. -/
lemma push {after : List TranscriptEntry} {pendingTools : List (String × String)}
    (h : Exported names before s) (hkind : playedRecord kind = none)
    (hview : (before.foldl (View.showEntry names) .start).step kind =
      after.foldl (View.showEntry names) .start)
    (hpending : pendingTools = (callPairs after).filter (·.1 ∉ resultIds after)) :
    Exported names after { s.push kind pause with pendingTools := pendingTools } where
  view := by
    rw [← hview, ← h.view]
    exact view_push s kind pause
  pendingTools := hpending
  ordered := by
    apply List.pairwise_append.mpr
    refine ⟨h.ordered, List.pairwise_singleton .., ?_⟩
    intro event hevent last hlast
    rw [List.mem_singleton.mp hlast]
    exact h.past event hevent
  past event hevent := by
    rcases List.mem_append.mp hevent with hevent | hevent
    · exact (h.past event hevent).trans (Nat.le_add_right _ _)
    · rw [List.mem_singleton.mp hevent]
      exact Nat.le_add_right _ _
  base event hevent := by
    rcases List.mem_append.mp hevent with hevent | hevent
    · exact h.base event hevent
    · rwa [List.mem_singleton.mp hevent]

/-- An event that shows nothing. -/
lemma push_quiet (h : Exported names before s) (hkind : playedRecord kind = none)
    (hstep : ∀ v : View, v.step kind = v) : Exported names before (s.push kind pause) :=
  h.push hkind (hstep _) h.pendingTools

lemma advance (h : Exported names before s) (createdAt : Nat) (timestamp : Option Nat) :
    Exported names before (s.advance createdAt timestamp) := by
  unfold ExportState.advance
  split
  · split_ifs with hlater
    · exact ⟨h.view, h.pendingTools, h.ordered, fun event hevent =>
        (h.past event hevent).trans hlater.le, h.base⟩
    · exact h
  · exact h

/-- A pending tool is found under its name. -/
lemma toolName_eq (h : Exported names before s) (hopen : id ∈ unanswered before)
    (hnames : ∀ pair ∈ callPairs before, names pair.1 = pair.2) :
    ((s.pendingTools.find? (·.1 = id)).map (·.2)).getD "tool" = names id := by
  obtain ⟨hcall, hanswer⟩ := List.mem_filter.mp hopen
  obtain ⟨pair, hpair, rfl⟩ := List.mem_map.mp hcall
  have hpending : pair ∈ s.pendingTools := by
    rw [h.pendingTools]
    exact List.mem_filter.mpr ⟨hpair, hanswer⟩
  have hsome : (s.pendingTools.find? (·.1 = pair.1)).isSome := by
    rw [List.find?_isSome]
    exact ⟨pair, hpending, by simp⟩
  obtain ⟨found, hfound⟩ := Option.isSome_iff_exists.mp hsome
  have hsame : found.1 = pair.1 := by simpa using List.find?_some hfound
  have hmem : found ∈ callPairs before := by
    have hmem := List.mem_of_find?_eq_some hfound
    rw [h.pendingTools] at hmem
    exact List.mem_of_mem_filter hmem
  rw [hfound, Option.map_some, Option.getD_some, ← hnames found hmem, hsame]

lemma pushResult (h : Exported names before s) {content : String} {isError : Option Bool}
    (hopen : id ∈ unanswered before)
    (hnames : ∀ pair ∈ callPairs before, names pair.1 = pair.2) (durationMs : Option Nat) :
    Exported names (before ++ [.result id content (isError.getD false)])
      (s.pushResult durationMs (.toolResult id content isError)) := by
  refine h.push rfl ?_ ?_
  · rw [h.toolName_eq hopen hnames, List.foldl_append]
    rfl
  · rw [callPairs_of_quiet rfl, h.pendingTools, List.filter_filter, resultIds_append]
    congr 1
    funext pair
    simp [resultIds, resultId, and_comm, eq_comm]

/-- The results of a message. -/
lemma pushResults (h : Exported names before s) {blocks : List ContentBlock}
    (hanswers : EachBehind Answers before (blocks.filterMap resultEntry))
    (hnames : ∀ pair ∈ callPairs before, names pair.1 = pair.2) (durationMs : Option Nat) :
    Exported names (before ++ blocks.filterMap resultEntry)
      (blocks.foldl (ExportState.pushResult durationMs) s) := by
  induction blocks generalizing before s with
  | nil => simpa using h
  | cons block blocks ih =>
    cases block with
    | toolResult id content isError =>
      have hentry : resultEntry (.toolResult id content isError) =
          some (.result id content (isError.getD false)) := rfl
      rw [List.filterMap_cons_some hentry] at hanswers ⊢
      obtain ⟨hopen, hrest⟩ := hanswers
      have h' := ih (h.pushResult (hopen id rfl) hnames durationMs) hrest
        (by rwa [callPairs_of_quiet rfl])
      rwa [List.append_assoc, List.singleton_append] at h'
    | _ => exact ih h hanswers hnames

lemma pushToolUse (h : Exported names before s) {input : String} (hnew : id ∉ callIds before)
    (hbefore : EachAfter Answers before) :
    Exported names (before ++ [.call id name]) (s.pushToolUse (.toolUse id name input)) := by
  have hnotMem : id ∉ resultIds before := fun hid => hnew (resultIds_subset hbefore hid)
  have hcalls : callPairs (before ++ [.call id name]) = callPairs before ++ [(id, name)] :=
    List.filterMap_append
  refine h.push rfl ?_ ?_
  · rw [List.foldl_append]
    rfl
  · rw [resultIds_of_quiet rfl, h.pendingTools, hcalls, List.filter_append]
    simp [hnotMem]

/-- The calls of a message. -/
lemma pushToolUses (h : Exported names before s) {blocks : List ContentBlock}
    (hdistinct : (callIds (before ++ blocks.filterMap callEntry)).Nodup)
    (hbefore : EachAfter Answers before) :
    Exported names (before ++ blocks.filterMap callEntry)
      (blocks.foldl ExportState.pushToolUse s) := by
  induction blocks generalizing before s with
  | nil => simpa using h
  | cons block blocks ih =>
    cases block with
    | toolUse id name input =>
      have hentry : callEntry (.toolUse id name input) = some (.call id name) := rfl
      rw [List.filterMap_cons_some hentry] at hdistinct ⊢
      have hnew : id ∉ callIds before := by
        rw [callIds_append] at hdistinct
        intro hid
        exact (List.nodup_append.mp hdistinct).2.2 id hid id List.mem_cons_self rfl
      rw [← List.singleton_append, ← List.append_assoc] at hdistinct ⊢
      exact ih (h.pushToolUse hnew hbefore) hdistinct
        (EachAfter.concat.mpr ⟨hbefore, by rintro _ ⟨⟩⟩)
    | _ => exact ih h hdistinct hbefore

/-- Text without calls or results. -/
lemma push_text (h : Exported names before s) {entry : TranscriptEntry}
    (hkind : playedRecord kind = none) (hcall : callPair entry = none)
    (hresult : resultId entry = none)
    (hview : ∀ v : View, v.step kind = v.showEntry names entry) :
    Exported names (before ++ [entry]) (s.push kind pause) := by
  refine h.push hkind ?_ ?_
  · rw [List.foldl_append, hview]
    rfl
  · rw [callPairs_of_quiet hcall, resultIds_of_quiet hresult]
    exact h.pendingTools

/-- Text is streamed into the assistant message that is open. -/
lemma push_stream (h : Exported names (before ++ [.assistant ""]) s) {speed : Nat}
    (htext : text ≠ "") :
    Exported names (before ++ [.assistant text]) (s.push (.streamText text speed) pause) := by
  refine h.push rfl ?_ ?_
  · rw [List.foldl_append, List.foldl_append]
    simp only [List.foldl_cons, List.foldl_nil, View.showEntry, View.step, if_neg htext,
      addText_assistant, String.empty_append]
  · have hpending := h.pendingTools
    rwa [callPairs_of_quiet rfl, resultIds_of_quiet rfl] at hpending ⊢

/-- A user message. -/
lemma exportUser (h : Exported names before s) {message : StoredMessage}
    (hrole : message.role = .user)
    (hanswers : EachBehind Answers before (messageEntries message))
    (hnames : ∀ pair ∈ callPairs before, names pair.1 = pair.2) :
    Exported names (before ++ messageEntries message) (Replay.exportUser s message) := by
  rw [messageEntries, hrole] at hanswers ⊢
  by_cases hresults : message.content.any isToolResult = true
  · simp only [if_pos hresults, Replay.exportUser] at hanswers ⊢
    exact h.pushResults hanswers hnames _
  · have hnone : message.content.filterMap resultEntry = [] := by
      rw [List.any_eq_true] at hresults
      apply List.filterMap_eq_nil_iff.mpr
      intro block hblock
      cases block with
      | toolResult id content isError => exact absurd ⟨_, hblock, rfl⟩ hresults
      | _ => rfl
    have hs : Exported names before
        (message.content.foldl (ExportState.pushResult message.toolDurationMs) s) := by
      have hpushed := h.pushResults (by rw [hnone]; trivial) hnames message.toolDurationMs
      rwa [hnone, List.append_nil] at hpushed
    simp only [if_neg hresults, Replay.exportUser]
    split_ifs
    · rwa [List.append_nil]
    · exact hs.push_text rfl rfl rfl fun _ => rfl

/-- An assistant message opens with its text. -/
lemma exportOpening (h : Exported names before s) (text : String) (hasToolUses : Bool) :
    Exported names (before ++ opening text hasToolUses)
      (Replay.exportOpening s text hasToolUses) := by
  have hthinking : Exported names (before ++ [.assistant ""]) (s.push (.thinking 800) 800) :=
    h.push_text rfl rfl rfl fun _ => rfl
  rw [opening, Replay.exportOpening]
  by_cases htext : text = ""
  · subst htext
    cases hasToolUses with
    | true => exact hthinking
    | false => simpa using h
  · simp only [ne_eq, htext, not_false_eq_true, true_or, if_true]
    exact hthinking.push_stream htext

lemma exportUsage (h : Exported names before s) (usage : Option StoredTokenUsage) :
    Exported names before (Replay.exportUsage s usage) := by
  cases usage with
  | none => exact h
  | some usage => exact h.push_quiet rfl fun _ => rfl

/-- An assistant message. -/
lemma exportAssistant (h : Exported names before s) {message : StoredMessage}
    (hrole : message.role = .assistant)
    (hdistinct : (callIds (before ++ messageEntries message)).Nodup)
    (hbefore : EachAfter Answers before) :
    Exported names (before ++ messageEntries message) (Replay.exportAssistant s message) := by
  rw [messageEntries, hrole] at hdistinct ⊢
  simp only [← List.append_assoc] at hdistinct ⊢
  have hopened := (h.exportOpening (extractText message.content)
    (message.content.any Session.isToolUse)).exportUsage message.tokenUsage
  have hanswers : EachAfter Answers (before ++ opening (extractText message.content)
      (message.content.any Session.isToolUse)) := by
    rw [opening]
    split_ifs
    · exact EachAfter.concat.mpr ⟨hbefore, by rintro _ ⟨⟩⟩
    · rwa [List.append_nil]
  have hcalls := hopened.pushToolUses hdistinct hanswers
  rw [Replay.exportAssistant]
  split_ifs
  · exact hcalls
  · exact hcalls.push_quiet rfl fun _ => rfl

/-- One message, with the injections before it. -/
lemma exportMessage (h : Exported names before s) (session : PersistedSession)
    {message : StoredMessage} {index : Nat}
    (hdistinct : (callIds (before ++ messageEntries message)).Nodup)
    (hanswers : EachAfter Answers (before ++ messageEntries message))
    (hnames : ∀ pair ∈ callPairs before, names pair.1 = pair.2) :
    Exported names (before ++ messageEntries message)
      (Replay.exportMessage session s (message, index)) := by
  obtain ⟨hbefore, hmessage⟩ := EachBehind.append.mp hanswers
  have hinjections : ∀ (injections : List StoredMemoryInjection) {s : ExportState},
      Exported names before s →
        Exported names before (injections.foldl ExportState.pushInjection s) := by
    intro injections
    induction injections with
    | nil => exact id
    | cons injection injections ih => exact fun h => ih (h.push_quiet rfl fun _ => rfl)
  have hstart := (hinjections
    (session.memoryInjections.filter (·.beforeMessage = some index)) h).advance
      session.createdAt message.timestamp
  rw [Replay.exportMessage]
  dsimp only
  split
  · exact hstart.exportUser ‹_› hmessage hnames
  · exact hstart.exportAssistant ‹_› hdistinct hbefore

end Exported

/-- All messages of a session. -/
lemma exported_foldl (session : PersistedSession) (messages : List StoredMessage) (index : Nat)
    (h : Exported names before s) (hentries : entries = before ++ transcript messages)
    (hpaired : WellPaired entries) (hnames : ∀ pair ∈ callPairs entries, names pair.1 = pair.2) :
    Exported names entries ((messages.zipIdx index).foldl (exportMessage session) s) := by
  induction messages generalizing before s index with
  | nil =>
    rw [hentries]
    simpa [transcript] using h
  | cons message messages ih =>
    have hsplit : entries = (before ++ messageEntries message) ++ transcript messages := by
      rw [hentries, transcript, List.flatMap_cons, List.append_assoc]
      rfl
    have hdistinct : (callIds (before ++ messageEntries message)).Nodup := by
      have hall := hpaired.distinct
      rw [hsplit, callIds_append] at hall
      exact (List.nodup_append.mp hall).1
    have hanswers : EachAfter Answers (before ++ messageEntries message) := by
      have hall := hpaired.answers
      rw [hsplit] at hall
      exact hall.of_append
    have hbefore : ∀ pair ∈ callPairs before, names pair.1 = pair.2 := by
      intro pair hpair
      apply hnames
      rw [hentries, callPairs, List.filterMap_append]
      exact List.mem_append_left _ hpair
    exact ih (index + 1) (h.exportMessage session hdistinct hanswers hbefore) hsplit

/-! ### The timeline -/

variable {session : PersistedSession} {base recorded : List TimelineEvent}

/-- Sorting by time puts the persisted events between the others, which keep their order. -/
lemma filter_mergeSort (hordered : base.Pairwise fun a b => a.t ≤ b.t)
    (hbase : ∀ event ∈ base, playedRecord event.kind = none)
    (hrecorded : ∀ event ∈ recorded, playedRecord event.kind ≠ none) :
    ((base ++ recorded).mergeSort fun a b => a.t ≤ b.t).filter
      (fun event => (playedRecord event.kind).isNone) = base := by
  set sorted := (base ++ recorded).mergeSort fun a b => decide (a.t ≤ b.t) with hsorted
  have hkept : base.filter (fun event => (playedRecord event.kind).isNone) = base := by
    apply List.filter_eq_self.mpr
    intro event hevent
    simp [hbase event hevent]
  have hnone : recorded.filter (fun event => (playedRecord event.kind).isNone) = [] := by
    apply List.filter_eq_nil_iff.mpr
    intro event hevent
    simpa [Option.isSome_iff_ne_none] using hrecorded event hevent
  have hsublist : base.Sublist sorted := by
    apply List.sublist_mergeSort
    · intro a b c hab hbc
      simp only [decide_eq_true_eq] at hab hbc ⊢
      exact hab.trans hbc
    · intro a b
      simpa using le_total a.t b.t
    · exact hordered.imp fun hle => by simpa using hle
    · exact List.sublist_append_left _ _
  have hperm : (sorted.filter fun event => (playedRecord event.kind).isNone).Perm base := by
    have hfiltered := (List.mergeSort_perm (base ++ recorded) fun a b =>
      decide (a.t ≤ b.t)).filter fun event => (playedRecord event.kind).isNone
    rwa [List.filter_append, hkept, hnone, List.append_nil, ← hsorted] at hfiltered
  have hfiltered := hsublist.filter fun event => (playedRecord event.kind).isNone
  rw [hkept] at hfiltered
  exact (hfiltered.eq_of_length hperm.length_eq.symm).symm

lemma map_kind_capInitialReplayIdle (events : List TimelineEvent) :
    (capInitialReplayIdle events).map (·.kind) = events.map (·.kind) := by
  unfold capInitialReplayIdle
  split
  · rfl
  · dsimp only
    split_ifs
    · rfl
    · rw [List.map_map]
      rfl

/-- The final `Done` shows nothing. -/
lemma Exported.finish (h : Exported names entries s) :
    ∃ s', Exported names entries s' ∧ Replay.finish s = s'.events := by
  rw [Replay.finish]
  split
  · exact ⟨s, h, rfl⟩
  · split_ifs
    · exact ⟨s, h, rfl⟩
    · exact ⟨s.push .done 0, h.push_quiet rfl fun _ => rfl, rfl⟩

lemma nameOf_eq (hdistinct : (callIds entries).Nodup) {pair : String × String}
    (hpair : pair ∈ callPairs entries) : nameOf entries pair.1 = pair.2 := by
  have hsome : ((callPairs entries).find? (·.1 = pair.1)).isSome := by
    rw [List.find?_isSome]
    exact ⟨pair, hpair, by simp⟩
  obtain ⟨found, hfound⟩ := Option.isSome_iff_exists.mp hsome
  have hsame : found.1 = pair.1 := by simpa using List.find?_some hfound
  have heq : found = pair :=
    List.inj_on_of_nodup_map hdistinct (List.mem_of_find?_eq_some hfound) hpair hsame
  rw [nameOf, hfound, heq]
  rfl

lemma playedRecord_exportRecord (createdAt : Nat) (event : StoredReplayEvent) :
    playedRecord (exportRecord createdAt event).kind = some (recordEvent event) := by
  obtain ⟨timestamp, kind⟩ := event
  cases kind <;> rfl

/-- The messages of a session and its persisted events, before they are sorted. -/
lemma exists_exported (h : WellPaired (transcript session.messages)) :
    ∃ s, Exported (nameOf (transcript session.messages)) (transcript session.messages) s ∧
      exportTimeline session = capInitialReplayIdle ((s.events ++
        session.replayEvents.map (exportRecord session.createdAt)).mergeSort
          fun a b => a.t ≤ b.t) := by
  have hall := exported_foldl session session.messages 0 exported_start rfl h
    fun pair hpair => nameOf_eq h.distinct hpair
  obtain ⟨s, hs, hfinish⟩ := hall.finish
  refine ⟨s, hs, ?_⟩
  rw [exportTimeline, hfinish]

/-- The playback shows the transcript, with results for the calls that were started last. -/
lemma view_exportTimeline (h : WellPaired (transcript session.messages)) :
    ((exportTimeline session).foldl Playback.step .start).view =
      (transcript session.messages).foldl
        (View.showEntry (nameOf (transcript session.messages))) .start := by
  obtain ⟨s, hs, htimeline⟩ := exists_exported h
  have hrecorded : ∀ event ∈ session.replayEvents.map (exportRecord session.createdAt),
      playedRecord event.kind ≠ none := by
    intro event hevent
    obtain ⟨stored, -, rfl⟩ := List.mem_map.mp hevent
    simp [playedRecord_exportRecord]
  rw [view_foldl, htimeline, map_kind_capInitialReplayIdle, foldl_step_filter, List.filter_map]
  simp only [Function.comp_def]
  rw [filter_mergeSort hs.ordered hs.base hrecorded]
  exact hs.view

lemma items_exportTimeline (h : WellPaired (transcript session.messages)) :
    (shown (timelineToReplayEvents (exportTimeline session))).items =
      played (nameOf (transcript session.messages)) 0 [] (transcript session.messages) := by
  have hitems := congrArg (fun v : View => v.items) (view_exportTimeline h)
  rw [items_foldl_showEntry] at hitems
  exact hitems

/-- Every persisted event is in the timeline once. -/
lemma records_exportTimeline (h : WellPaired (transcript session.messages)) :
    ((exportTimeline session).filterMap fun event => playedRecord event.kind).Perm
      (session.replayEvents.map recordEvent) := by
  obtain ⟨s, hs, htimeline⟩ := exists_exported h
  have hcap : ((exportTimeline session).filterMap fun event => playedRecord event.kind) =
      ((exportTimeline session).map (·.kind)).filterMap playedRecord := by
    rw [List.filterMap_map]
    rfl
  have hbase : (s.events.filterMap fun event => playedRecord event.kind) = [] :=
    List.filterMap_eq_nil_iff.mpr hs.base
  rw [hcap, htimeline, map_kind_capInitialReplayIdle, List.filterMap_map]
  refine ((List.mergeSort_perm _ _).filterMap _).trans (.of_eq ?_)
  rw [List.filterMap_append, List.filterMap_map]
  simp only [Function.comp_def, playedRecord_exportRecord, hbase, List.nil_append,
    List.filterMap_eq_map']

def replayedMessage (role : Role) (content : List ContentBlock) : StoredMessage where
  id := ""
  role := role
  content := content
  displayRole := none
  timestamp := none
  toolDurationMs := none
  tokenUsage := none

/-- A session of its messages alone. -/
def sessionOf (messages : List StoredMessage) : PersistedSession :=
  { (Session.createWithId "session" none none none none false 1 0).toPersistedSession with
    messages := messages }

/-- Two calls, one after the other. -/
def oneByOne : List StoredMessage :=
  [replayedMessage .assistant [.toolUse "1" "read" "null"],
    replayedMessage .user [.toolResult "1" "text" none],
    replayedMessage .assistant [.toolUse "2" "bash" "null"],
    replayedMessage .user [.toolResult "2" "done" none]]

/-- Two calls at once, with their results in the order of the calls. -/
def atOnce : List StoredMessage :=
  [replayedMessage .assistant [.toolUse "1" "read" "null", .toolUse "2" "bash" "null"],
    replayedMessage .user [.toolResult "1" "text" none],
    replayedMessage .user [.toolResult "2" "done" none]]

end Replay

end Jcode
