import Mathlib.Data.Set.Function
import Jcode.Foundation.EachAfter
import Jcode.Replay.Timeline

/-!
# What a replay shows

A replay shows the messages of a session in their order. The playback gives a result to the call
that was started last, so it shows the right results if and only if every result of the session
answers the last call that is still open.
-/

namespace Jcode

namespace Replay

/-! ### Transcripts -/

/-- What a session has to show: the ids are those of the session. -/
inductive TranscriptEntry
  | user (text : String)
  | assistant (text : String)
  | call (id name : String)
  | result (id output : String) (isError : Bool)
deriving DecidableEq

def callEntry : ContentBlock → Option TranscriptEntry
  | .toolUse id name _ => some (.call id name)
  | _ => none

def resultEntry : ContentBlock → Option TranscriptEntry
  | .toolResult id content isError => some (.result id content (isError.getD false))
  | _ => none

/-- The text of an assistant message, unless it has neither text nor calls. -/
def opening (text : String) (hasToolUses : Bool) : List TranscriptEntry :=
  if text ≠ "" ∨ hasToolUses then [.assistant text] else []

/-- A user message with results is shown as these; calls are made by assistant messages. -/
def messageEntries (message : StoredMessage) : List TranscriptEntry :=
  let text := extractText message.content
  match message.role with
  | .user =>
    if message.content.any isToolResult then message.content.filterMap resultEntry
    else if text = "" then [] else [.user text]
  | .assistant =>
    opening text (message.content.any Session.isToolUse) ++ message.content.filterMap callEntry

def transcript (messages : List StoredMessage) : List TranscriptEntry :=
  messages.flatMap messageEntries

def callPair : TranscriptEntry → Option (String × String)
  | .call id name => some (id, name)
  | _ => none

def resultId : TranscriptEntry → Option String
  | .result id _ _ => some id
  | _ => none

def callPairs (entries : List TranscriptEntry) : List (String × String) :=
  entries.filterMap callPair

def callIds (entries : List TranscriptEntry) : List String := (callPairs entries).map (·.1)

def resultIds (entries : List TranscriptEntry) : List String := entries.filterMap resultId

/-- The calls without a result, in the order in which they were started. -/
def unanswered (entries : List TranscriptEntry) : List String :=
  (callIds entries).filter (· ∉ resultIds entries)

def Answers (before : List TranscriptEntry) (entry : TranscriptEntry) : Prop :=
  ∀ id ∈ resultId entry, id ∈ unanswered before

def AnswersLast (before : List TranscriptEntry) (entry : TranscriptEntry) : Prop :=
  ∀ id ∈ resultId entry, (unanswered before).getLast? = some id

instance (before : List TranscriptEntry) (entry : TranscriptEntry) :
    Decidable (Answers before entry) :=
  inferInstanceAs (Decidable (∀ id ∈ resultId entry, id ∈ unanswered before))

instance (before : List TranscriptEntry) (entry : TranscriptEntry) :
    Decidable (AnswersLast before entry) :=
  inferInstanceAs (Decidable (∀ id ∈ resultId entry, (unanswered before).getLast? = some id))

/-- The calls have ids of their own, and every result answers an earlier call that has none. -/
structure WellPaired (entries : List TranscriptEntry) : Prop where
  distinct : (callIds entries).Nodup
  answers : EachAfter Answers entries

/-! ### What is shown -/

inductive ReplayItem
  | user (text : String)
  | assistant (text : String)
  | call (id name : String)
  | result (id name output : String) (error : Option String)
deriving DecidableEq

/-- The client: what it shows, and the calls that it was told to execute. -/
structure Shown where
  items : List ReplayItem
  execs : List (String × String)
deriving DecidableEq

/-- Text goes to the assistant message that is open. -/
def addText (text : String) (items : List ReplayItem) : List ReplayItem :=
  match items.getLast? with
  | some (.assistant shown) => items.dropLast ++ [.assistant (shown ++ text)]
  | _ => items ++ [.assistant text]

def Shown.step (s : Shown) : ReplayEvent → Shown
  | .userMessage text => { s with items := s.items ++ [.user text] }
  | .startProcessing => { s with items := s.items ++ [.assistant ""] }
  | .server (.textDelta text) => { s with items := addText text s.items }
  | .server (.toolStart id name) => { s with items := s.items ++ [.call id name] }
  | .server (.toolExec id name) => { s with execs := s.execs ++ [(id, name)] }
  | .server (.toolDone id name output error) =>
    { s with items := s.items ++ [.result id name output error] }
  | _ => s

def shown (out : List (Nat × ReplayEvent)) : Shown :=
  (out.map (·.2)).foldl Shown.step ⟨[], []⟩

def startedCall : ReplayItem → Option (String × String)
  | .call id name => some (id, name)
  | _ => none

def isRecord : ReplayEvent → Bool
  | .displayMessage _ _ _ => true
  | .swarmStatus _ => true
  | .swarmPlan _ _ _ => true
  | _ => false

/-- A persisted replay event as it is played back. -/
def recordEvent (event : StoredReplayEvent) : ReplayEvent :=
  match event.kind with
  | .displayMessage role title content => .displayMessage role title content
  | .swarmStatus members => .swarmStatus members
  | .swarmPlan swarmId version items _ _ => .swarmPlan swarmId version items

/-- The name of a call. -/
def nameOf (entries : List TranscriptEntry) (id : String) : String :=
  (((callPairs entries).find? (·.1 = id)).map (·.2)).getD "tool"

/-- An entry as it is to be shown, when `ids` are the new ids of the calls. -/
def replayItem (names ids : String → String) : TranscriptEntry → ReplayItem
  | .user text => .user text
  | .assistant text => .assistant text
  | .call id name => .call (ids id) name
  | .result id output isError =>
    .result (ids id) (names id) (truncateForTimeline output)
      (if isError then some (truncateForTimeline output) else none)

/-- The replay shows the transcript with new ids for the calls, each call is executed under the id
that it was started with, and every persisted event is played back once. -/
structure ReplaysWith (session : PersistedSession) (ids : String → String)
    (out : List (Nat × ReplayEvent)) : Prop where
  fresh : Set.InjOn ids {id | id ∈ callIds (transcript session.messages)}
  items : (shown out).items = (transcript session.messages).map
    (replayItem (nameOf (transcript session.messages)) ids)
  execs : (shown out).execs = (shown out).items.filterMap startedCall
  records : ((out.map (·.2)).filter isRecord).Perm (session.replayEvents.map recordEvent)

def FaithfulReplay (session : PersistedSession) : Prop :=
  ∃ ids, ReplaysWith session ids (timelineToReplayEvents (exportTimeline session))

variable {entries before rest : List TranscriptEntry} {entry : TranscriptEntry}
  {names ids : String → String} {id name text : String} {n : Nat} {pending : List String}

/-! ### Open calls -/

lemma callIds_append : callIds (before ++ rest) = callIds before ++ callIds rest := by
  simp [callIds, callPairs]

lemma resultIds_append : resultIds (before ++ rest) = resultIds before ++ resultIds rest := by
  simp [resultIds]

lemma unanswered_subset : unanswered entries ⊆ callIds entries :=
  List.filter_sublist.subset

lemma unanswered_of_quiet (hcall : callPair entry = none) (hresult : resultId entry = none) :
    unanswered (before ++ [entry]) = unanswered before := by
  have hcalls : callIds [entry] = [] := by simp [callIds, callPairs, hcall]
  have hresults : resultIds [entry] = [] := by simp [resultIds, hresult]
  rw [unanswered, callIds_append, resultIds_append, hcalls, hresults, List.append_nil,
    List.append_nil]
  rfl

/-- Results answer calls. -/
lemma resultIds_subset (h : EachAfter Answers entries) : resultIds entries ⊆ callIds entries := by
  induction entries using List.reverseRecOn with
  | nil => exact List.Subset.refl _
  | append_singleton before entry ih =>
    obtain ⟨hbefore, hentry⟩ := EachAfter.concat.mp h
    intro id hid
    rw [callIds_append]
    rw [resultIds_append, List.mem_append] at hid
    apply List.mem_append_left
    rcases hid with hid | hid
    · exact ih hbefore hid
    · apply unanswered_subset
      apply hentry
      simpa [resultIds] using hid

/-- A call that is started is open. -/
lemma unanswered_call (hnew : id ∉ callIds before) (h : EachAfter Answers before) :
    unanswered (before ++ [.call id name]) = unanswered before ++ [id] := by
  have hnotMem : id ∉ resultIds before := fun hid => hnew (resultIds_subset h hid)
  have hresults : resultIds (before ++ [.call id name]) = resultIds before := by
    simp [resultIds, resultId]
  rw [unanswered, hresults, callIds_append, List.filter_append]
  have hcalls : callIds [.call id name] = [id] := rfl
  rw [hcalls, List.filter_cons_of_pos (by simpa using hnotMem)]
  rfl

/-- A result closes its call. -/
lemma unanswered_result {output : String} {isError : Bool} :
    unanswered (before ++ [.result id output isError]) =
      (unanswered before).filter (· ≠ id) := by
  have hcalls : callIds (before ++ [.result id output isError]) = callIds before := by
    simp [callIds, callPairs, callPair]
  rw [unanswered, hcalls, unanswered, List.filter_filter, resultIds_append]
  congr 1
  funext other
  simp [resultIds, resultId, and_comm, eq_comm]

lemma replayToolId_injective : Function.Injective replayToolId := by
  intro m n h
  have hrepr : Nat.repr m = Nat.repr n := by simpa [replayToolId] using h
  have hdigits : Nat.toDigits 10 m = Nat.toDigits 10 n := by
    rw [← Nat.toList_repr, ← Nat.toList_repr, hrepr]
  rw [← Nat.ofDigitChars_ten_toDigits (n := m), hdigits, Nat.ofDigitChars_ten_toDigits]

/-! ### The playback of a transcript -/

/-- What is shown of a transcript when results go to the call that was started last: `n` ids have
been given out, and `pending` are open. -/
def played (names : String → String) :
    Nat → List String → List TranscriptEntry → List ReplayItem
  | _, _, [] => []
  | n, pending, .user text :: rest => .user text :: played names n pending rest
  | n, pending, .assistant text :: rest => .assistant text :: played names n pending rest
  | n, pending, .call _ name :: rest =>
    .call (replayToolId (n + 1)) name ::
      played names (n + 1) (pending ++ [replayToolId (n + 1)]) rest
  | n, pending, .result id output isError :: rest =>
    let error := if isError then some (truncateForTimeline output) else none
    match pending.getLast? with
    | some replayId =>
      .result replayId (names id) (truncateForTimeline output) error ::
        played names n pending.dropLast rest
    | none =>
      .result (replayToolId (n + 1)) (names id) (truncateForTimeline output) error ::
        played names (n + 1) pending rest

/-- The calls have the ids from `n` on. -/
def Numbered (ids : String → String) (n : Nat) (entries : List TranscriptEntry) : Prop :=
  ∀ k id, (callIds entries)[k]? = some id → ids id = replayToolId (n + k + 1)

lemma numbered_of_quiet (entry : TranscriptEntry) (hcall : callPair entry = none) :
    Numbered ids n (entry :: rest) ↔ Numbered ids n rest := by
  have hcalls : callIds (entry :: rest) = callIds rest := by simp [callIds, callPairs, hcall]
  rw [Numbered, Numbered, hcalls]

lemma numbered_call : Numbered ids n (.call id name :: rest) ↔
    replayToolId (n + 1) = ids id ∧ Numbered ids (n + 1) rest := by
  have hcalls : callIds (.call id name :: rest) = id :: callIds rest := rfl
  rw [Numbered, hcalls]
  constructor
  · intro h
    refine ⟨(h 0 id rfl).symm, fun k other hother => ?_⟩
    rw [h (k + 1) other hother]
    congr 1
    omega
  · rintro ⟨hfirst, hrest⟩ k other hother
    cases k with
    | zero =>
      obtain rfl := Option.some_inj.mp hother
      exact hfirst.symm
    | succ k =>
      rw [hrest k other hother]
      congr 1
      omega

/-- Closing the last open call leaves the others. -/
lemma dropLast_eq_filter {l : List String} (hnodup : l.Nodup) (hlast : l.getLast? = some id) :
    l.dropLast = l.filter (· ≠ id) := by
  obtain ⟨front, rfl⟩ := List.getLast?_eq_some_iff.mp hlast
  have hnotMem : id ∉ front := by
    intro hid
    exact (List.nodup_append.mp hnodup).2.2 id hid id (List.mem_singleton_self id) rfl
  rw [List.dropLast_concat, List.filter_append, List.filter_eq_self.mpr]
  · simp
  · intro other hother
    simpa using fun heq : other = id => hnotMem (heq ▸ hother)

/-- What is played back is right if and only if the ids are those that were given out and every
result answers the last open call. -/
lemma played_eq_iff (hentries : entries = before ++ rest) (hdistinct : (callIds entries).Nodup)
    (hbefore : EachAfter Answers before) (hrest : EachBehind Answers before rest)
    (hids : Set.InjOn ids {id | id ∈ callIds entries}) :
    played names n ((unanswered before).map ids) rest = rest.map (replayItem names ids) ↔
      Numbered ids n rest ∧ EachBehind AnswersLast before rest := by
  induction rest generalizing before n with
  | nil => simp [played, Numbered, callIds, callPairs, EachBehind]
  | cons entry rest ih =>
    have hsplit : entries = (before ++ [entry]) ++ rest := by simp [hentries]
    obtain ⟨hentry, hrest⟩ := hrest
    have hbefore' : EachAfter Answers (before ++ [entry]) :=
      EachAfter.concat.mpr ⟨hbefore, hentry⟩
    cases entry with
    | user text =>
      have hopen : unanswered (before ++ [.user text]) = unanswered before :=
        unanswered_of_quiet rfl rfl
      have ih := ih (n := n) hsplit hbefore' hrest
      rw [hopen] at ih
      simp only [played, List.map_cons, replayItem, List.cons.injEq, true_and, EachBehind,
        numbered_of_quiet (.user text) rfl, ih]
      simp [AnswersLast, resultId]
    | assistant text =>
      have hopen : unanswered (before ++ [.assistant text]) = unanswered before :=
        unanswered_of_quiet rfl rfl
      have ih := ih (n := n) hsplit hbefore' hrest
      rw [hopen] at ih
      simp only [played, List.map_cons, replayItem, List.cons.injEq, true_and, EachBehind,
        numbered_of_quiet (.assistant text) rfl, ih]
      simp [AnswersLast, resultId]
    | call id name =>
      have hnew : id ∉ callIds before := by
        rw [hentries, callIds_append] at hdistinct
        intro hid
        exact (List.nodup_append.mp hdistinct).2.2 id hid id List.mem_cons_self rfl
      have ih := ih (n := n + 1) hsplit hbefore' hrest
      rw [unanswered_call hnew hbefore, List.map_append, List.map_singleton] at ih
      rw [played, List.map_cons, replayItem, List.cons.injEq, numbered_call, EachBehind]
      simp only [ReplayItem.call.injEq, and_true]
      constructor
      · rintro ⟨hid, hplayed⟩
        rw [hid] at hplayed
        obtain ⟨hnumbered, hlast⟩ := ih.mp hplayed
        exact ⟨⟨hid, hnumbered⟩, by simp [AnswersLast, resultId], hlast⟩
      · rintro ⟨⟨hid, hnumbered⟩, -, hlast⟩
        rw [hid]
        exact ⟨rfl, ih.mpr ⟨hnumbered, hlast⟩⟩
    | result id output isError =>
      have hopen : id ∈ unanswered before := hentry id rfl
      have hne : unanswered before ≠ [] := List.ne_nil_of_mem hopen
      obtain ⟨last, hlast⟩ := Option.ne_none_iff_exists'.mp (mt List.getLast?_eq_none_iff.mp hne)
      have hnodup : (unanswered before).Nodup := by
        rw [hentries, callIds_append] at hdistinct
        exact (List.nodup_append.mp hdistinct).1.filter _
      have hmem : ∀ other ∈ unanswered before, other ∈ callIds entries := by
        intro other hother
        rw [hentries, callIds_append]
        exact List.mem_append_left _ (unanswered_subset hother)
      have hlastMem : last ∈ unanswered before := List.mem_of_getLast? hlast
      have ih := ih (n := n) hsplit hbefore' hrest
      rw [unanswered_result] at ih
      rw [played, List.getLast?_map, hlast, Option.map_some, List.map_cons, replayItem,
        List.cons.injEq, EachBehind, numbered_of_quiet (.result id output isError) rfl]
      simp only [ReplayItem.result.injEq, and_true]
      have hhead : AnswersLast before (.result id output isError) ↔ ids last = ids id := by
        constructor
        · intro h
          rw [Option.some_inj.mp (hlast.symm.trans (h id rfl))]
        · rintro h other ⟨⟩
          rw [hlast, hids (hmem last hlastMem) (hmem id hopen) h]
      rw [hhead]
      constructor
      · rintro ⟨heq, hplayed⟩
        have hlast' : (unanswered before).getLast? = some id := hhead.mpr heq id rfl
        rw [← List.map_dropLast, dropLast_eq_filter hnodup hlast'] at hplayed
        obtain ⟨hnumbered, hrest⟩ := ih.mp hplayed
        exact ⟨hnumbered, heq, hrest⟩
      · rintro ⟨hnumbered, heq, hrest⟩
        have hlast' : (unanswered before).getLast? = some id := hhead.mpr heq id rfl
        rw [← List.map_dropLast, dropLast_eq_filter hnodup hlast']
        exact ⟨heq, ih.mpr ⟨hnumbered, hrest⟩⟩

/-! ### What the playback shows -/

/-- What the client shows, and the ids that the playback has given out. -/
structure View extends Shown where
  counter : Nat
  pending : List String

def Playback.view (p : Playback) : View where
  toShown := shown p.out
  counter := p.toolIdCounter
  pending := p.pendingToolIds

def playedRecord : TimelineEventKind → Option ReplayEvent
  | .displayMessage role title content => some (.displayMessage role title content)
  | .swarmStatus members => some (.swarmStatus members)
  | .swarmPlan swarmId version items _ _ => some (.swarmPlan swarmId version items)
  | _ => none

namespace View

def start : View := ⟨⟨[], []⟩, 0, []⟩

def step (v : View) : TimelineEventKind → View
  | .userMessage text => { v with items := v.items ++ [.user text] }
  | .thinking _ => { v with items := v.items ++ [.assistant ""] }
  | .streamText text _ => if text = "" then v else { v with items := addText text v.items }
  | .toolStart name _ =>
    let id := replayToolId (v.counter + 1)
    { items := v.items ++ [.call id name]
      execs := v.execs ++ [(id, name)]
      counter := v.counter + 1
      pending := v.pending ++ [id] }
  | .toolDone name output isError =>
    let error := if isError then some output else none
    match v.pending.getLast? with
    | some id =>
      { v with items := v.items ++ [.result id name output error], pending := v.pending.dropLast }
    | none =>
      { v with
        items := v.items ++ [.result (replayToolId (v.counter + 1)) name output error]
        counter := v.counter + 1 }
  | _ => v

end View

variable {p : Playback} {event : TimelineEvent} {v : View} {items : List ReplayItem}

lemma shown_append (out more : List (Nat × ReplayEvent)) :
    shown (out ++ more) = (more.map (·.2)).foldl Shown.step (shown out) := by
  simp [shown]

lemma addText_assistant (shownText text : String) :
    addText text (items ++ [.assistant shownText]) = items ++ [.assistant (shownText ++ text)] := by
  simp [addText]

lemma addText_addText (first second : String) :
    addText second (addText first items) = addText (first ++ second) items := by
  rcases List.eq_nil_or_concat items with rfl | ⟨front, last, rfl⟩
  · simp [addText]
  · cases last <;> simp [addText, String.append_assoc]

/-- The chunks of a text add up to it. -/
lemma foldl_chunks (text : List Char) (s : Shown) :
    ((chunks text).map fun chunk =>
      ReplayEvent.server (.textDelta (String.ofList chunk))).foldl Shown.step s =
      if text = [] then s else { s with items := addText (String.ofList text) s.items } := by
  fun_induction chunks text generalizing s with
  | case1 a b c d rest ih =>
    rw [List.map_cons, List.foldl_cons, ih]
    simp only [Shown.step, reduceCtorEq, if_false]
    split_ifs with hrest
    · rw [hrest]
    · rw [addText_addText, ← String.ofList_append]
      rfl
  | case2 => rfl
  | case3 rest hshort hne => simp [if_neg (mt id hne), Shown.step]

lemma view_emit (delay : Nat) (event : ReplayEvent) :
    (p.emit delay event).view = { p.view with toShown := p.view.toShown.step event } := by
  simp [Playback.view, Playback.emit, shown_append]

lemma view_emitText (delay : Nat) (text : String) (speed : Nat) :
    (p.emitText delay text speed).view =
      if text = "" then p.view else { p.view with items := addText text p.view.items } := by
  have hchunks := foldl_chunks text.toList (shown p.out)
  simp only [String.toList_eq_nil_iff, String.ofList_toList] at hchunks
  have hdeltas : ((chunks text.toList).zipIdx.map fun part => ReplayEvent.server
      (.textDelta (String.ofList part.1))) = (chunks text.toList).map fun chunk =>
        ReplayEvent.server (.textDelta (String.ofList chunk)) := by
    conv_rhs => rw [← List.zipIdx_map_fst 0 (chunks text.toList), List.map_map]
    rfl
  simp only [Playback.view, Playback.emitText, shown_append, List.map_map, Function.comp_def,
    hdeltas, hchunks]
  split_ifs <;> rfl

/-- One event of the timeline is played back. -/
lemma view_step : (p.step event).view = p.view.step event.kind := by
  obtain ⟨t, kind⟩ := event
  cases kind with
  | streamText text speed =>
    rw [Playback.step, view_emitText]
    rfl
  | toolStart name input =>
    simp only [Playback.step, Playback.emitToolStart]
    split_ifs <;> simp only [view_emit] <;> rfl
  | toolDone name output isError =>
    have hpending : p.view.pending = p.pendingToolIds := rfl
    simp only [Playback.step, Playback.emitToolDone, View.step, hpending]
    cases p.pendingToolIds.getLast? with
    | some id =>
      rw [view_emit]
      rfl
    | none =>
      rw [view_emit]
      rfl
  | _ =>
    rw [Playback.step, view_emit]
    rfl

lemma view_foldl (timeline : List TimelineEvent) :
    (timeline.foldl Playback.step p).view =
      (timeline.map (·.kind)).foldl View.step p.view := by
  induction timeline generalizing p with
  | nil => rfl
  | cons event timeline ih =>
    rw [List.foldl_cons, ih, view_step, List.map_cons, List.foldl_cons]

/-- Persisted events change nothing of it. -/
lemma foldl_step_filter (kinds : List TimelineEventKind) :
    kinds.foldl View.step v =
      (kinds.filter fun kind => (playedRecord kind).isNone).foldl View.step v := by
  induction kinds generalizing v with
  | nil => rfl
  | cons kind kinds ih =>
    rw [List.foldl_cons, ih, List.filter_cons]
    cases kind <;> rfl

/-- A call is executed under the id that it was started with. -/
lemma execs_step (h : v.execs = v.items.filterMap startedCall) (kind : TimelineEventKind) :
    (v.step kind).execs = (v.step kind).items.filterMap startedCall := by
  have htext : ∀ text, (addText text v.items).filterMap startedCall =
      v.items.filterMap startedCall := by
    intro text
    rcases List.eq_nil_or_concat v.items with hnil | ⟨front, last, hitems⟩
    · simp [hnil, addText, startedCall]
    · rw [hitems]
      cases last <;> simp [addText, List.filterMap_cons, startedCall]
  cases kind with
  | streamText text speed =>
    rw [View.step]
    split_ifs
    · exact h
    · exact h.trans (htext text).symm
  | toolDone name output isError =>
    rw [View.step]
    split <;> simp [startedCall, h]
  | _ => simp [View.step, startedCall, h]

lemma execs_foldl (kinds : List TimelineEventKind) (h : v.execs = v.items.filterMap startedCall) :
    (kinds.foldl View.step v).execs =
      (kinds.foldl View.step v).items.filterMap startedCall := by
  induction kinds generalizing v with
  | nil => exact h
  | cons kind kinds ih => exact ih (execs_step h kind)

/-- What one entry of the transcript adds. -/
def View.showEntry (names : String → String) (v : View) : TranscriptEntry → View
  | .user text => v.step (.userMessage text)
  | .assistant text => { v with items := v.items ++ [.assistant text] }
  | .call _ name => v.step (.toolStart name "")
  | .result id output isError => v.step (.toolDone (names id) (truncateForTimeline output) isError)

lemma items_foldl_showEntry :
    (entries.foldl (View.showEntry names) v).items =
      v.items ++ played names v.counter v.pending entries := by
  induction entries generalizing v with
  | nil => simp [played]
  | cons entry entries ih =>
    rw [List.foldl_cons, ih]
    cases entry with
    | result id output isError =>
      simp only [View.showEntry, View.step, played]
      split <;> simp
    | _ => simp [View.showEntry, View.step, played]

/-- A persisted event is played back as it is. -/
lemma records_step (p : Playback) (event : TimelineEvent) :
    ((p.step event).out.map (·.2)).filter isRecord =
      (p.out.map (·.2)).filter isRecord ++ (playedRecord event.kind).toList := by
  obtain ⟨t, kind⟩ := event
  cases kind with
  | streamText text speed =>
    have hdeltas : ((chunks text.toList).zipIdx.map fun part => ReplayEvent.server
        (.textDelta (String.ofList part.1))).filter isRecord = [] := by
      apply List.filter_eq_nil_iff.mpr
      intro event hevent
      obtain ⟨part, -, rfl⟩ := List.mem_map.mp hevent
      exact Bool.false_ne_true
    simp only [Playback.step, Playback.emitText, List.map_append, List.filter_append,
      List.map_map, Function.comp_def, hdeltas]
    rfl
  | toolStart name input =>
    simp only [Playback.step, Playback.emitToolStart]
    split_ifs <;> simp [Playback.emit, isRecord, playedRecord]
  | toolDone name output isError =>
    simp only [Playback.step, Playback.emitToolDone]
    split <;> simp [Playback.emit, isRecord, playedRecord]
  | _ => simp [Playback.step, Playback.emit, isRecord, playedRecord]

lemma records_foldl (timeline : List TimelineEvent) :
    ((timeline.foldl Playback.step p).out.map (·.2)).filter isRecord =
      (p.out.map (·.2)).filter isRecord ++
        timeline.filterMap fun event => playedRecord event.kind := by
  induction timeline generalizing p with
  | nil => simp
  | cons event timeline ih =>
    rw [List.foldl_cons, ih, records_step, List.append_assoc, List.filterMap_cons]
    cases playedRecord event.kind <;> rfl

end Replay

end Jcode
