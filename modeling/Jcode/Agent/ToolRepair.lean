import Jcode.Compaction.ToolClosure

/-!
# Repairs of missing tool outputs

The agent scans only what was added to its transcript since the last repair and remembers the ids
of the part before. A rewind forgets them. After any run a repair comes to the same as one that
scans everything.
-/

namespace Jcode

/-! ### The transcript with its outputs -/

def resultIdsOf (messages : List StoredMessage) : List String := messages.flatMap scannedResultIds

/-- The calls of a message that are not answered. -/
def unanswered (known : Finset String) (message : StoredMessage) : List String :=
  (scannedCallIds message).filter (· ∉ known)

def outputsFor (stamp : Nat → String × Nat) (position : Nat) (ids : List String) :
    List StoredMessage :=
  (ids.zipIdx position).map fun (id, i) => missingToolOutput (stamp i) id

/-- Every message is followed by the outputs for its calls that are not answered. -/
def withOutputs (stamp : Nat → String × Nat) (known : Finset String) :
    Nat → List StoredMessage → List StoredMessage
  | _, [] => []
  | position, message :: messages =>
    let missing := unanswered known message
    message :: outputsFor stamp (position + 1) missing ++
      withOutputs stamp known (position + 1 + missing.length) messages

/-- The repairs of messages that begin at an index. -/
def repairsFrom (known : Finset String) (index : Nat) (messages : List StoredMessage) :
    List (Nat × List String) :=
  (messages.zipIdx index).filterMap fun entry =>
    let missing := unanswered known entry.1
    if missing = [] then none else some (entry.2, missing)

section

variable {stamp : Nat → String × Nat} {known : Finset String}
  {messages messages' front back : List StoredMessage} {message : StoredMessage}
  {position index inserted : Nat} {id : String} {ids : List String}

@[simp] lemma outputsFor_nil : outputsFor stamp position [] = [] := rfl

lemma outputsFor_cons : outputsFor stamp position (id :: ids) =
    missingToolOutput (stamp position) id :: outputsFor stamp (position + 1) ids := rfl

@[simp] lemma length_outputsFor : (outputsFor stamp position ids).length = ids.length := by
  simp [outputsFor]

lemma insertIdx_length_append {α : Type} {front back : List α} {x : α} :
    (front ++ back).insertIdx front.length x = front ++ x :: back := by
  induction front with
  | nil => simp
  | cons y front ih => simp [ih]

lemma drop_zipIdx {α : Type} {l : List α} {start k : Nat} :
    (l.zipIdx start).drop k = (l.drop k).zipIdx (start + k) := by
  induction k generalizing l start with
  | zero => simp
  | succ k ih =>
    cases l with
    | nil => simp
    | cons x l => rw [List.zipIdx_cons, List.drop_succ_cons, List.drop_succ_cons, ih,
        Nat.add_right_comm, Nat.add_assoc]

lemma insertMissing_eq (h : position = front.length) :
    insertMissing stamp position ids (front ++ back) =
      front ++ outputsFor stamp position ids ++ back := by
  induction ids generalizing front position with
  | nil => simp [insertMissing]
  | cons id ids ih =>
    have hone : (front ++ back).insertIdx position (missingToolOutput (stamp position) id) =
        (front ++ [missingToolOutput (stamp position) id]) ++ back := by
      rw [h, insertIdx_length_append, List.append_assoc, List.singleton_append]
    rw [insertMissing, hone, ih (by simp [h]), outputsFor_cons]
    simp

lemma repairsFrom_cons_of_answered (h : unanswered known message = []) :
    repairsFrom known index (message :: messages) = repairsFrom known (index + 1) messages := by
  simp [repairsFrom, h]

lemma repairsFrom_cons (h : unanswered known message ≠ []) :
    repairsFrom known index (message :: messages) =
      (index, unanswered known message) :: repairsFrom known (index + 1) messages := by
  simp [repairsFrom, h]

/-- Inserted one after the other, the outputs come to stand behind their messages. -/
lemma insertRepairs_eq (h : front.length = index + inserted) :
    insertRepairs stamp inserted (repairsFrom known index messages) (front ++ messages) =
      front ++ withOutputs stamp known front.length messages := by
  induction messages generalizing front index inserted with
  | nil => simp [repairsFrom, insertRepairs, withOutputs]
  | cons message messages ih =>
    rw [withOutputs]
    by_cases hmissing : unanswered known message = []
    · rw [repairsFrom_cons_of_answered hmissing, hmissing, ← List.singleton_append,
        ← List.append_assoc,
        ih (by simp [h, Nat.add_right_comm])]
      simp
    · have hplace : insertMissing stamp (index + 1 + inserted) (unanswered known message)
          (front ++ message :: messages) =
            (front ++ [message] ++
              outputsFor stamp (front.length + 1) (unanswered known message)) ++ messages := by
        rw [← List.singleton_append, ← List.append_assoc, insertMissing_eq (by simp [h]; omega)]
        rw [show index + 1 + inserted = front.length + 1 by omega]
      rw [repairsFrom_cons hmissing, insertRepairs, hplace, ih (by simp [h]; omega)]
      simp [Nat.add_assoc, Nat.add_comm 1]

lemma withOutputs_append (stamp : Nat → String × Nat) (position : Nat)
    (messages' : List StoredMessage) (h : ∀ message ∈ messages, unanswered known message = []) :
    withOutputs stamp known position (messages ++ messages') =
      messages ++ withOutputs stamp known (position + messages.length) messages' := by
  induction messages generalizing position with
  | nil => rfl
  | cons message messages ih =>
    obtain ⟨hnone, hrest⟩ := List.forall_mem_cons.mp h
    rw [List.cons_append, withOutputs, hnone, ih _ hrest]
    simp [Nat.add_assoc, Nat.add_comm 1]

/-! ### Its results and calls -/

lemma mem_unanswered :
    id ∈ unanswered known message ↔ id ∈ scannedCallIds message ∧ id ∉ known := by
  simp [unanswered]

@[simp] lemma resultIdsOf_cons :
    resultIdsOf (message :: messages) = scannedResultIds message ++ resultIdsOf messages :=
  List.flatMap_cons

@[simp] lemma resultIdsOf_append :
    resultIdsOf (messages ++ messages') = resultIdsOf messages ++ resultIdsOf messages' :=
  List.flatMap_append

lemma resultIdsOf_outputsFor : resultIdsOf (outputsFor stamp position ids) = ids := by
  induction ids generalizing position with
  | nil => rfl
  | cons id ids ih =>
    rw [outputsFor_cons, resultIdsOf_cons, ih]
    rfl

lemma scannedCallIds_of_output (h : message ∈ outputsFor stamp position ids) :
    scannedCallIds message = [] := by
  obtain ⟨entry, -, rfl⟩ := List.mem_map.mp h
  rfl

/-- The results are those from before, and one for each call that was not answered. -/
lemma mem_resultIdsOf_withOutputs :
    id ∈ resultIdsOf (withOutputs stamp known position messages) ↔
      id ∈ resultIdsOf messages ∨ ∃ message ∈ messages, id ∈ unanswered known message := by
  induction messages generalizing position with
  | nil => simp [withOutputs, resultIdsOf]
  | cons message messages ih =>
    rw [withOutputs, List.cons_append, resultIdsOf_cons, resultIdsOf_append,
      resultIdsOf_outputsFor, resultIdsOf_cons]
    simp only [List.mem_append, ih, List.exists_mem_cons_iff]
    tauto

/-- The calls are in messages from before. -/
lemma mem_of_mem_withOutputs (h : message ∈ withOutputs stamp known position messages) :
    message ∈ messages ∨ scannedCallIds message = [] := by
  induction messages generalizing position with
  | nil => cases h
  | cons first messages ih =>
    rw [withOutputs, List.cons_append, List.mem_cons, List.mem_append] at h
    rcases h with rfl | h | h
    · exact .inl List.mem_cons_self
    · exact .inr (scannedCallIds_of_output h)
    · exact (ih h).imp_left (List.mem_cons_of_mem _)

end

/-! ### The tracking -/

/-- What a scan of the first messages leaves behind: their results, and every call answered. -/
structure Scanned (tracking : ToolTracking) (messages : List StoredMessage) : Prop where
  inside : tracking.toolOutputScanIndex ≤ messages.length
  results : ∀ id, id ∈ tracking.toolResultIds ↔
    id ∈ resultIdsOf (messages.take tracking.toolOutputScanIndex)
  answered : ∀ message ∈ messages.take tracking.toolOutputScanIndex,
    ∀ id ∈ scannedCallIds message, id ∈ tracking.toolResultIds

section

variable {stamp stamp' : Nat → String × Nat} {tracking : ToolTracking}
  {messages : List StoredMessage} {message : StoredMessage}

lemma scanned_reset (messages : List StoredMessage) : Scanned .reset messages where
  inside := Nat.zero_le _
  results := by simp [ToolTracking.reset, resultIdsOf]
  answered := by simp [ToolTracking.reset]

lemma Scanned.append (h : Scanned tracking messages) (message : StoredMessage) :
    Scanned tracking (messages ++ [message]) := by
  have htake : (messages ++ [message]).take tracking.toolOutputScanIndex =
      messages.take tracking.toolOutputScanIndex := List.take_append_of_le_length h.inside
  refine ⟨h.inside.trans (by simp), ?_, ?_⟩
  · rw [htake]
    exact h.results
  · rw [htake]
    exact h.answered

lemma Scanned.sync (h : Scanned tracking messages) : tracking.sync messages = tracking := by
  rw [ToolTracking.sync, if_neg (Nat.not_lt.mpr h.inside)]

/-- The remembered results and those of the scanned part are the results of the transcript. -/
lemma Scanned.mem_knownResultIds (h : Scanned tracking messages) {id : String} :
    id ∈ tracking.knownResultIds messages ↔ id ∈ resultIdsOf messages := by
  have hscanned : (tracking.scanned messages).flatMap (fun entry => scannedResultIds entry.1) =
      resultIdsOf (messages.drop tracking.toolOutputScanIndex) := by
    rw [ToolTracking.scanned, drop_zipIdx, resultIdsOf, ← List.flatMap_map, List.zipIdx_map_fst]
  rw [ToolTracking.knownResultIds, hscanned, Finset.mem_union, h.results, List.mem_toFinset,
    ← List.mem_append, ← resultIdsOf_append, List.take_append_drop]

/-- The known results do not depend on where the scan begins. -/
lemma Scanned.knownResultIds (h : Scanned tracking messages) :
    tracking.knownResultIds messages = (resultIdsOf messages).toFinset := by
  ext id
  rw [h.mem_knownResultIds, List.mem_toFinset]

lemma Scanned.missingRepairs (h : Scanned tracking messages) :
    tracking.missingRepairs messages = repairsFrom (resultIdsOf messages).toFinset
      tracking.toolOutputScanIndex (messages.drop tracking.toolOutputScanIndex) := by
  rw [ToolTracking.missingRepairs, ToolTracking.scanned, drop_zipIdx, h.knownResultIds,
    Nat.zero_add, repairsFrom]
  rfl

/-- Nothing in the part that was scanned before is missing. -/
lemma Scanned.unanswered_eq_nil (h : Scanned tracking messages)
    (hmessage : message ∈ messages.take tracking.toolOutputScanIndex) :
    unanswered (resultIdsOf messages).toFinset message = [] := by
  rw [List.eq_nil_iff_forall_not_mem]
  intro id hid
  obtain ⟨hcall, hunknown⟩ := mem_unanswered.mp hid
  apply hunknown
  rw [List.mem_toFinset, ← h.mem_knownResultIds, ToolTracking.knownResultIds]
  exact Finset.mem_union_left _ (h.answered message hmessage id hcall)

/-- The transcript after a repair; where the scan began makes no difference. -/
lemma Scanned.transcript_repair (h : Scanned tracking messages) :
    (repairMissingToolOutputs stamp tracking messages).2.2 =
      withOutputs stamp (resultIdsOf messages).toFinset 0 messages := by
  have hlength : (messages.take tracking.toolOutputScanIndex).length =
      tracking.toolOutputScanIndex := List.length_take_of_le h.inside
  calc (repairMissingToolOutputs stamp tracking messages).2.2
      = insertRepairs stamp 0 (repairsFrom (resultIdsOf messages).toFinset
          tracking.toolOutputScanIndex (messages.drop tracking.toolOutputScanIndex))
          (messages.take tracking.toolOutputScanIndex ++
            messages.drop tracking.toolOutputScanIndex) := by
        rw [List.take_append_drop, ← h.missingRepairs]
        simp only [repairMissingToolOutputs, h.sync]
    _ = withOutputs stamp (resultIdsOf messages).toFinset 0
          (messages.take tracking.toolOutputScanIndex ++
            messages.drop tracking.toolOutputScanIndex) := by
        rw [insertRepairs_eq (by simpa using hlength),
          withOutputs_append stamp 0 _ fun message => h.unanswered_eq_nil, Nat.zero_add]
    _ = withOutputs stamp (resultIdsOf messages).toFinset 0 messages := by
        rw [List.take_append_drop]

lemma mem_repairsFrom {known : Finset String} {index : Nat} {id : String} :
    id ∈ (repairsFrom known index messages).flatMap (·.2) ↔
      ∃ message ∈ messages, id ∈ unanswered known message := by
  induction messages generalizing index with
  | nil => simp [repairsFrom]
  | cons message messages ih =>
    by_cases hmissing : unanswered known message = []
    · rw [repairsFrom_cons_of_answered hmissing, ih]
      simp [hmissing]
    · rw [repairsFrom_cons hmissing, List.flatMap_cons, List.mem_append, ih]
      simp

lemma Scanned.mem_missingRepairs (h : Scanned tracking messages) {id : String} :
    id ∈ (tracking.missingRepairs messages).flatMap (·.2) ↔
      ∃ message ∈ messages, id ∈ unanswered (resultIdsOf messages).toFinset message := by
  rw [h.missingRepairs, mem_repairsFrom]
  constructor
  · rintro ⟨message, hmessage, hid⟩
    exact ⟨message, List.mem_of_mem_drop hmessage, hid⟩
  · rintro ⟨message, hmessage, hid⟩
    rw [← List.take_append_drop tracking.toolOutputScanIndex messages, List.mem_append] at hmessage
    rcases hmessage with htake | hdrop
    · rw [h.unanswered_eq_nil htake] at hid
      cases hid
    · exact ⟨message, hdrop, hid⟩

/-- With the outputs every call has a result. -/
lemma answered_withOutputs {id : String}
    (h : message ∈ withOutputs stamp (resultIdsOf messages).toFinset 0 messages)
    (hid : id ∈ scannedCallIds message) :
    id ∈ resultIdsOf (withOutputs stamp (resultIdsOf messages).toFinset 0 messages) := by
  rw [mem_resultIdsOf_withOutputs]
  rcases mem_of_mem_withOutputs h with hmessage | hnone
  · by_cases hknown : id ∈ resultIdsOf messages
    · exact .inl hknown
    · exact .inr ⟨message, hmessage, mem_unanswered.mpr ⟨hid, by simpa using hknown⟩⟩
  · rw [hnone] at hid
    cases hid

/-- A repair leaves the whole transcript scanned. -/
lemma Scanned.repair (h : Scanned tracking messages) :
    Scanned (repairMissingToolOutputs stamp tracking messages).2.1
      (repairMissingToolOutputs stamp tracking messages).2.2 := by
  have hindex : (repairMissingToolOutputs stamp tracking messages).2.1.toolOutputScanIndex =
      (repairMissingToolOutputs stamp tracking messages).2.2.length := rfl
  have hresults (id : String) :
      id ∈ (repairMissingToolOutputs stamp tracking messages).2.1.toolResultIds ↔
        id ∈ resultIdsOf (repairMissingToolOutputs stamp tracking messages).2.2 := by
    rw [h.transcript_repair, mem_resultIdsOf_withOutputs, ← h.mem_missingRepairs,
      ← h.mem_knownResultIds]
    simp only [repairMissingToolOutputs, h.sync, Finset.mem_union, List.mem_toFinset]
  refine ⟨hindex.le, fun id => ?_, fun message hmessage id hid => ?_⟩
  · rw [hindex, List.take_length]
    exact hresults id
  · rw [hindex, List.take_length] at hmessage
    rw [hresults]
    rw [h.transcript_repair] at hmessage ⊢
    exact answered_withOutputs hmessage hid

/-- Where everything has been scanned, nothing is inserted. -/
lemma Scanned.repair_of_all (h : Scanned tracking messages)
    (hall : tracking.toolOutputScanIndex = messages.length) :
    (repairMissingToolOutputs stamp tracking messages).1 = 0 ∧
      (repairMissingToolOutputs stamp tracking messages).2.2 = messages := by
  have hnone : tracking.missingRepairs messages = [] := by
    rw [h.missingRepairs, hall, List.drop_length]
    rfl
  simp [repairMissingToolOutputs, h.sync, hnone, insertRepairs]

end

/-! ### Runs -/

/-- The transcript of the agent, the tracking, and what a rewind keeps for its undo. -/
structure RepairedTranscript where
  messages : List StoredMessage
  tracking : ToolTracking
  rewindUndoSnapshot : Option (List StoredMessage)

inductive TranscriptMove
  | append (message : StoredMessage)
  | rewindToMessage (messageIndex : Nat)
  | undoRewind
  | repairMissingToolOutputs (stamp : Nat → String × Nat)

namespace RepairedTranscript

def start (transcript : List StoredMessage) : RepairedTranscript where
  messages := transcript
  tracking := .reset
  rewindUndoSnapshot := none

variable (s : RepairedTranscript)

def rewindToMessage (messageIndex : Nat) : RepairedTranscript :=
  match storedLenForVisibleConversationMessage s.messages messageIndex with
  | none => s
  | some storedLen =>
    { messages := s.messages.take storedLen
      tracking := .reset
      rewindUndoSnapshot := some s.messages }

def undoRewind : RepairedTranscript :=
  match s.rewindUndoSnapshot with
  | none => s
  | some messages => { messages, tracking := .reset, rewindUndoSnapshot := none }

def repair (stamp : Nat → String × Nat) : RepairedTranscript :=
  let (_, tracking, messages) := repairMissingToolOutputs stamp s.tracking s.messages
  { s with messages, tracking }

def step : TranscriptMove → RepairedTranscript
  | .append message => { s with messages := s.messages ++ [message] }
  | .rewindToMessage messageIndex => s.rewindToMessage messageIndex
  | .undoRewind => s.undoRewind
  | .repairMissingToolOutputs stamp => s.repair stamp

/-- The state after some moves. -/
def after (transcript : List StoredMessage) (moves : List TranscriptMove) : RepairedTranscript :=
  moves.foldl step (start transcript)

variable {s}

lemma scanned_step (h : Scanned s.tracking s.messages) (move : TranscriptMove) :
    Scanned (s.step move).tracking (s.step move).messages := by
  cases move with
  | append message => exact h.append message
  | rewindToMessage messageIndex =>
    rw [step, rewindToMessage]
    split
    · exact h
    · exact scanned_reset _
  | undoRewind =>
    rw [step, undoRewind]
    split
    · exact h
    · exact scanned_reset _
  | repairMissingToolOutputs stamp => exact h.repair

lemma scanned_after (transcript : List StoredMessage) (moves : List TranscriptMove) :
    Scanned (after transcript moves).tracking (after transcript moves).messages := by
  have hrun : ∀ (moves : List TranscriptMove) (s : RepairedTranscript),
      Scanned s.tracking s.messages →
      Scanned (moves.foldl step s).tracking (moves.foldl step s).messages := by
    intro moves
    induction moves with
    | nil => exact fun s h => h
    | cons move moves ih => exact fun s h => ih (s.step move) (scanned_step h move)
  exact hrun moves _ (scanned_reset transcript)

end RepairedTranscript

/-! ### What a repair does -/

/-- The second transcript is the first one with outputs for the calls that no message answers, each
message followed by those for its own calls. -/
structure Repairs (messages repaired : List StoredMessage) : Prop where
  complete : ∀ message ∈ repaired, ∀ id ∈ scannedCallIds message,
    ∃ answer ∈ repaired, id ∈ scannedResultIds answer
  placed : ∃ groups : List (StoredMessage × List StoredMessage),
    messages = groups.map (·.1) ∧ repaired = groups.flatMap (fun group => group.1 :: group.2) ∧
    ∀ group ∈ groups, List.Forall₂ (fun id output => ∃ stamp, output = missingToolOutput stamp id)
      ((scannedCallIds group.1).filter fun id =>
        ∀ message ∈ messages, id ∉ scannedResultIds message) group.2

section

variable {stamp : Nat → String × Nat} {known : Finset String} {messages : List StoredMessage}

lemma forall₂_outputsFor {position : Nat} {ids : List String} :
    List.Forall₂ (fun id output => ∃ stamp, output = missingToolOutput stamp id) ids
      (outputsFor stamp position ids) := by
  induction ids generalizing position with
  | nil => exact .nil
  | cons id ids ih => exact .cons ⟨_, rfl⟩ ih

lemma exists_groups (stamp : Nat → String × Nat) (known : Finset String) (position : Nat)
    (messages : List StoredMessage) :
    ∃ groups : List (StoredMessage × List StoredMessage), messages = groups.map (·.1) ∧
      withOutputs stamp known position messages =
        groups.flatMap (fun group => group.1 :: group.2) ∧
      ∀ group ∈ groups, List.Forall₂
        (fun id output => ∃ stamp, output = missingToolOutput stamp id)
        (unanswered known group.1) group.2 := by
  induction messages generalizing position with
  | nil => exact ⟨[], rfl, rfl, by simp⟩
  | cons message messages ih =>
    obtain ⟨groups, hmessages, hrepaired, hgroups⟩ :=
      ih (position + 1 + (unanswered known message).length)
    refine ⟨(message, outputsFor stamp (position + 1) (unanswered known message)) :: groups,
      by rw [List.map_cons, ← hmessages], ?_, List.forall_mem_cons.mpr ⟨?_, hgroups⟩⟩
    · rw [withOutputs, hrepaired, List.flatMap_cons]
    · exact forall₂_outputsFor

lemma repairs_withOutputs :
    Repairs messages (withOutputs stamp (resultIdsOf messages).toFinset 0 messages) where
  complete message hmessage id hid := by
    simpa [resultIdsOf] using answered_withOutputs hmessage hid
  placed := by
    obtain ⟨groups, hmessages, hrepaired, hgroups⟩ :=
      exists_groups stamp (resultIdsOf messages).toFinset 0 messages
    refine ⟨groups, hmessages, hrepaired, fun group hgroup => ?_⟩
    simpa [unanswered, resultIdsOf] using hgroups group hgroup

end

open RepairedTranscript

/-- After any appends, rewinds, undos and repairs, a repair answers every call and inserts nothing
but the answers, a second one inserts nothing, and a scan of everything comes to the same. -/
theorem repairMissingToolOutputs_spec (transcript : List StoredMessage)
    (moves : List TranscriptMove) (stamp stamp' : Nat → String × Nat) :
    Repairs (after transcript moves).messages ((after transcript moves).repair stamp).messages ∧
    ((repairMissingToolOutputs stamp' ((after transcript moves).repair stamp).tracking
        ((after transcript moves).repair stamp).messages).1 = 0 ∧
      (((after transcript moves).repair stamp).repair stamp').messages =
        ((after transcript moves).repair stamp).messages) ∧
    ((after transcript moves).repair stamp).messages =
      (repairMissingToolOutputs stamp .reset (after transcript moves).messages).2.2 := by
  have hscanned := scanned_after transcript moves
  have hrepaired : ((after transcript moves).repair stamp).messages =
      withOutputs stamp (resultIdsOf (after transcript moves).messages).toFinset 0
        (after transcript moves).messages := hscanned.transcript_repair
  refine ⟨?_, ?_, ?_⟩
  · rw [hrepaired]
    exact repairs_withOutputs
  · have hagain : Scanned ((after transcript moves).repair stamp).tracking
        ((after transcript moves).repair stamp).messages := hscanned.repair
    exact hagain.repair_of_all rfl
  · rw [hrepaired, (scanned_reset _).transcript_repair]

end Jcode
