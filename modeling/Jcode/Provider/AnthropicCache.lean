import Jcode.Provider.AnthropicRequest

/-!
# The cached start of an Anthropic request

When a transcript goes on, its request keeps the messages of the one before, and the newest cache
marker of the one before is found again at the same block.
-/

namespace Jcode.Anthropic

/-! ### Transcripts that go on -/

section

variable {isOauth : Bool} {messages more : List Message} {dangling : Finset String}

/-- Every call of the messages has a result in them. -/
def AllAnswered (messages : List Message) : Prop :=
  toolUseIds (blocksOf messages) ⊆ toolResultIds (blocksOf messages)

lemma syntheticResults_congr {dangling' : Finset String} {msg : Message}
    (h : ∀ id ∈ toolUseIds msg.content, id ∈ dangling ↔ id ∈ dangling') :
    syntheticResults dangling msg = syntheticResults dangling' msg := by
  rw [syntheticResults, syntheticResults]
  cases msg.role with
  | user => rfl
  | assistant => exact congrArg _ (List.filter_congr fun id hid => decide_eq_decide.mpr (h id hid))

/-- What is formatted of a transcript is not changed by what comes later. -/
lemma formatMessage_append (h : AllAnswered messages) :
    (messages ++ more).flatMap (formatMessage isOauth (danglingIds (messages ++ more))) =
      messages.flatMap (formatMessage isOauth (danglingIds messages)) ++
        more.flatMap (formatMessage isOauth (danglingIds (messages ++ more))) := by
  rw [List.flatMap_append]
  congr 1
  apply List.flatMap_congr
  intro msg hmsg
  rw [formatMessage, formatMessage]
  congr 2
  apply syntheticResults_congr
  intro id hid
  -- a call of the messages has its result in them, whatever comes later
  have hcall : id ∈ toolUseIds (blocksOf messages) := by
    obtain ⟨block, hblock, huse⟩ := mem_toolUseIds.mp hid
    exact mem_toolUseIds.mpr ⟨block, List.mem_flatMap_of_mem hmsg hblock, huse⟩
  have hlater : id ∈ toolResultIds (blocksOf (messages ++ more)) := by
    rw [blocksOf, List.flatMap_append, toolResultIds_append]
    exact List.mem_append_left _ (h hcall)
  rw [mem_danglingIds, mem_danglingIds]
  exact iff_of_false (fun hdangling => hdangling.2 hlater) fun hdangling => hdangling.2 (h hcall)

/-- The messages of a request stay as they are, but for the last one, which may get longer. -/
lemma formatMessages_append (h : AllAnswered messages) {done : List ApiMessage} {last : ApiMessage}
    (hdone : formatMessages isOauth messages = done ++ [last]) :
    formatMessages isOauth (messages ++ more) = done ++ mergeMessages.mergeFrom last
      (more.flatMap (formatMessage isOauth (danglingIds (messages ++ more)))) := by
  rw [formatMessages, formatMessage_append h]
  exact RunJoin.merge_append hdone

lemma foldl_join (first : ApiMessage) (run : List ApiMessage) :
    run.foldl mergeMessages.join first =
      ⟨first.role, first.content ++ run.flatMap ApiMessage.content⟩ := by
  induction run generalizing first with
  | nil => simp
  | cons msg run ih =>
    rw [List.foldl_cons, ih, List.flatMap_cons, ← List.append_assoc]
    rfl

lemma mergeFrom_extends (last : ApiMessage) (request : List ApiMessage) :
    ∃ extension later, mergeMessages.mergeFrom last request =
      ⟨last.role, last.content ++ extension⟩ :: later := by
  rw [RunJoin.mergeFrom_eq, foldl_join]
  exact ⟨_, _, rfl⟩

end

/-! ### Markers -/

def ApiContentBlock.isMarked : ApiContentBlock → Bool
  | .text _ cacheControl | .toolUse _ _ _ cacheControl => cacheControl.isSome
  | .toolResult _ _ _ | .image _ _ => false

def markedIn (blocks : List ApiContentBlock) : List Nat :=
  (blocks.zipIdx.filter fun p => p.1.isMarked).map (·.2)

/-- The places of the markers, the oldest first. -/
def markers (request : List ApiMessage) : List (Nat × Nat) :=
  request.zipIdx.flatMap fun p => (markedIn p.1.content).map (p.2, ·)

def blockAt (request : List ApiMessage) (place : Nat × Nat) : Option ApiContentBlock :=
  request[place.1]?.bind fun msg => msg.content[place.2]?

def Unmarked (request : List ApiMessage) : Prop :=
  ∀ msg ∈ request, ∀ block ∈ msg.content, block.isMarked = false

section

variable {ephemeral : CacheControlParam} {blocks : List ApiContentBlock} {msg : ApiMessage}

lemma markedIn_eq_nil (h : ∀ block ∈ blocks, block.isMarked = false) : markedIn blocks = [] := by
  rw [markedIn, List.map_eq_nil_iff, List.filter_eq_nil_iff]
  rintro ⟨block, i⟩ hmem
  simp [h block (List.fst_mem_of_mem_zipIdx hmem)]

lemma length_markedIn (blocks : List ApiContentBlock) :
    (markedIn blocks).length = blocks.countP (·.isMarked) := by
  rw [markedIn, List.length_map, ← List.countP_eq_length_filter]
  conv_rhs => rw [← List.zipIdx_map_fst 0 blocks, List.countP_map]
  rfl

lemma countP_markFirst (h : ∀ block ∈ blocks, block.isMarked = false) :
    (markFirst ephemeral blocks).countP (·.isMarked) ≤ 1 := by
  induction blocks with
  | nil => exact Nat.zero_le 1
  | cons block blocks ih =>
    have hrest := fun b hb => h b (List.mem_cons_of_mem block hb)
    have hnone : blocks.countP (·.isMarked) = 0 := by
      rw [List.countP_eq_zero]
      exact fun b hb => by simp [hrest b hb]
    rw [markFirst]
    split
    · rw [List.countP_cons, hnone]
      split_ifs <;> omega
    · rw [List.countP_cons, h block List.mem_cons_self]
      exact ih hrest

/-- A message is given at most one marker. -/
lemma length_markedIn_markMessage (h : ∀ block ∈ msg.content, block.isMarked = false) :
    (markedIn (markMessage ephemeral msg).content).length ≤ 1 := by
  rw [length_markedIn, markMessage, List.countP_reverse]
  exact countP_markFirst fun block hblock => h block (List.mem_reverse.mp hblock)

/-- Messages that are changed at some places, each once. -/
lemma foldl_modify (f : ApiMessage → ApiMessage) {indices : List Nat} (hnodup : indices.Nodup)
    (request : List ApiMessage) :
    indices.foldl (fun request idx => request.modify idx f) request =
      request.mapIdx fun i msg => if i ∈ indices then f msg else msg := by
  induction indices generalizing request with
  | nil =>
    apply List.ext_getElem?
    simp
  | cons idx indices ih =>
    obtain ⟨hnot, hnodup⟩ := List.nodup_cons.mp hnodup
    rw [List.foldl_cons, ih hnodup]
    apply List.ext_getElem?
    intro i
    rw [List.getElem?_mapIdx, List.getElem?_mapIdx, List.getElem?_modify]
    by_cases hi : idx = i
    · subst hi
      cases request[idx]? <;> simp [hnot]
    · cases request[i]? <;> simp [hi, Ne.symm hi]

lemma nodup_assistantIndices (request : List ApiMessage) : (assistantIndices request).Nodup := by
  apply List.Nodup.sublist (List.take_sublist 2 _)
  rw [List.nodup_reverse]
  apply List.Nodup.sublist (List.filter_sublist.map Prod.snd)
  rw [List.zipIdx_map_snd]
  exact List.nodup_range'

lemma addMessageCacheBreakpoint_eq {request : List ApiMessage} (h : 3 ≤ request.length) :
    addMessageCacheBreakpoint ephemeral request = request.mapIdx fun i msg =>
      if i ∈ assistantIndices request then markMessage ephemeral msg else msg := by
  rw [addMessageCacheBreakpoint, if_neg (by omega), foldl_modify _ (nodup_assistantIndices request)]

lemma zipIdx_mapIdx {α β : Type} (f : Nat → α → β) (l : List α) :
    (l.mapIdx f).zipIdx = l.zipIdx.map fun p => (f p.2 p.1, p.2) := by
  apply List.ext_getElem?
  intro i
  rw [List.getElem?_zipIdx, List.getElem?_mapIdx, List.getElem?_map, List.getElem?_zipIdx]
  cases l[i]? <;> simp

/-- The markers of a message, if it is one of the last two of the assistant. -/
def placedAt (ephemeral : CacheControlParam) (indices : List Nat) (p : ApiMessage × Nat) :
    List (Nat × Nat) :=
  if p.2 ∈ indices then (markedIn (markMessage ephemeral p.1).content).map (p.2, ·) else []

/-- The markers of a request that is long enough are on its last two assistant messages. -/
lemma markers_addMessageCacheBreakpoint {request : List ApiMessage} (h : 3 ≤ request.length)
    (hunmarked : Unmarked request) :
    markers (addMessageCacheBreakpoint ephemeral request) =
      request.zipIdx.flatMap (placedAt ephemeral (assistantIndices request)) := by
  rw [addMessageCacheBreakpoint_eq h, markers, zipIdx_mapIdx, List.flatMap_map]
  apply List.flatMap_congr
  rintro ⟨msg, i⟩ hmem
  rw [placedAt]
  dsimp only
  split_ifs
  · rfl
  · rw [markedIn_eq_nil (hunmarked msg (List.fst_mem_of_mem_zipIdx hmem))]
    rfl

/-! ### No marker before the markers are placed -/

lemma isMarked_formatContentBlock {isOauth : Bool} {result : List ApiContentBlock}
    (h : ∀ block ∈ result, block.isMarked = false) (block : ContentBlock) :
    ∀ b ∈ formatContentBlock isOauth result block, b.isMarked = false := by
  have hpush (b : ApiContentBlock) (hb : b.isMarked = false) (l : List ApiContentBlock)
      (hl : ∀ b ∈ l, b.isMarked = false) : ∀ b' ∈ l ++ [b], b'.isMarked = false := by
    intro b' hb'
    rcases List.mem_append.mp hb' with hb' | hb'
    · exact hl b' hb'
    · rw [List.mem_singleton.mp hb', hb]
  cases block with
  | image mediaType data =>
    rw [formatContentBlock, pushImage]
    split
    · exact hpush _ rfl _ fun b hb => h b (List.mem_of_mem_dropLast hb)
    · exact hpush _ rfl _ h
  | reasoning | openAICompaction => exact h
  | text | toolUse | toolResult => exact hpush _ rfl _ h

lemma isMarked_formatContentBlocks (isOauth : Bool) (blocks : List ContentBlock) :
    ∀ b ∈ formatContentBlocks isOauth blocks, b.isMarked = false := by
  suffices h : ∀ result, (∀ b ∈ result, b.isMarked = false) →
      ∀ b ∈ blocks.foldl (formatContentBlock isOauth) result, b.isMarked = false by
    exact h [] fun b hb => (nomatch hb)
  induction blocks with
  | nil => exact fun _ h => h
  | cons block blocks ih => exact fun result h => ih _ (isMarked_formatContentBlock h block)

lemma unmarked_formatMessages (isOauth : Bool) (messages : List Message) :
    Unmarked (formatMessages isOauth messages) := by
  intro msg hmsg block hblock
  have hmem : block ∈ (formatMessages isOauth messages).flatMap ApiMessage.content :=
    List.mem_flatMap_of_mem hmsg hblock
  rw [formatMessages, RunJoin.flatMap_merge fun _ _ => rfl, List.flatMap_assoc] at hmem
  obtain ⟨m, -, hm⟩ := List.mem_flatMap.mp hmem
  obtain ⟨sent, hsent, hblock⟩ := List.mem_flatMap.mp hm
  rw [formatMessage] at hsent
  rcases List.mem_append.mp hsent with hsent | hsent
  · rw [eq_of_mem_contentMessage hsent] at hblock
    exact isMarked_formatContentBlocks isOauth m.content block hblock
  · rw [eq_of_mem_contentMessage hsent, syntheticResults] at hblock
    split at hblock
    · cases hblock
    · obtain ⟨id, -, rfl⟩ := List.mem_map.mp hblock
      rfl

end

/-! ### The two requests -/

/-- A request that ends with the user, in which the roles alternate. -/
lemma exists_assistant_user {request : List ApiMessage} (hlength : 3 ≤ request.length)
    (hchain : request.IsChain fun a b => a.role ≠ b.role)
    (hlast : request.getLast?.map ApiMessage.role = some .user) :
    ∃ done a u, request = done ++ [a, u] ∧ a.role = .assistant ∧ u.role = .user := by
  rcases List.eq_nil_or_concat request with rfl | ⟨init, u, rfl⟩
  · cases hlast
  rcases List.eq_nil_or_concat init with rfl | ⟨done, a, rfl⟩
  · simp at hlength
  rw [List.concat_eq_append, List.concat_eq_append, List.getLast?_concat] at hlast
  have hu : u.role = .user := Option.some.inj hlast
  rw [List.concat_eq_append, List.concat_eq_append, List.append_assoc, List.singleton_append,
    List.isChain_split] at hchain
  have hne : a.role ≠ u.role := (List.isChain_cons_cons.mp hchain.2).1
  refine ⟨done, a, u, by simp, ?_, hu⟩
  cases ha : a.role with
  | user => exact absurd (ha.trans hu.symm) hne
  | assistant => rfl

section

variable {isOauth : Bool} {messages : List Message}

/-- After an assistant message with content there are only user messages. -/
lemma formatMessages_reply (h : AllAnswered messages) {done : List ApiMessage} {u : ApiMessage}
    (hdone : formatMessages isOauth messages = done ++ [u]) (hu : u.role = .user)
    {assistant user : Message} (hassistant : assistant.role = .assistant)
    (huser : user.role = .user) (hcontent : formatContentBlocks isOauth assistant.content ≠ []) :
    ∃ reply later, formatMessages isOauth (messages ++ [assistant, user]) =
        done ++ u :: reply :: later ∧ reply.role = .assistant ∧
      ∀ msg ∈ later, msg.role = .user := by
  have husers : ∀ (dangling : Finset String), ∀ m ∈ contentMessage .user
      (syntheticResults dangling assistant) ++ formatMessage isOauth dangling user,
      m.role = .user := by
    intro dangling m hm
    rw [formatMessage, huser] at hm
    simp only [List.mem_append] at hm
    rcases hm with hm | hm | hm <;> rw [eq_of_mem_contentMessage hm]
  rw [formatMessages_append h hdone, List.flatMap_cons, List.flatMap_singleton, formatMessage,
    List.append_assoc, contentMessage, if_neg (by simpa using hcontent), List.singleton_append,
    hassistant, RunJoin.mergeFrom, if_neg (by simp [mergeMessages, hu]), RunJoin.mergeFrom_eq]
  refine ⟨_, _, rfl, RunJoin.key_foldl (J := mergeMessages) _ _, fun msg hmsg => ?_⟩
  obtain ⟨m, hm, hkey⟩ := RunJoin.exists_key_eq hmsg
  exact hkey.trans (husers _ m (List.dropWhile_sublist _ |>.subset hm))

end

/-- The places of all assistant messages, from the last one on. -/
def assistantPlaces (request : List ApiMessage) : List Nat :=
  ((request.zipIdx.filter fun p => p.1.role = .assistant).map (·.2)).reverse

lemma assistantPlaces_concat (request : List ApiMessage) (msg : ApiMessage) :
    assistantPlaces (request ++ [msg]) =
      if msg.role = .assistant then request.length :: assistantPlaces request
      else assistantPlaces request := by
  rw [assistantPlaces, List.zipIdx_append, List.filter_append, List.map_append]
  split_ifs with hrole <;> simp [hrole, assistantPlaces]

lemma assistantPlaces_append {later : List ApiMessage} (h : ∀ msg ∈ later, msg.role = .user)
    (request : List ApiMessage) : assistantPlaces (request ++ later) = assistantPlaces request := by
  induction later using List.reverseRecOn with
  | nil => rw [List.append_nil]
  | append_singleton later msg ih =>
    have hmsg := h msg (List.mem_append_right _ List.mem_cons_self)
    rw [← List.append_assoc, assistantPlaces_concat, if_neg (by simp [hmsg])]
    exact ih fun m hm => h m (List.mem_append_left _ hm)

lemma lt_of_mem_assistantPlaces {request : List ApiMessage} {i : Nat}
    (h : i ∈ assistantPlaces request) : i < request.length := by
  rw [assistantPlaces, List.mem_reverse, List.mem_map] at h
  obtain ⟨p, hp, rfl⟩ := h
  simpa using List.snd_lt_of_mem_zipIdx (List.mem_of_mem_filter hp)

section

variable {ephemeral : CacheControlParam} {done later : List ApiMessage} {a u reply : ApiMessage}

lemma assistantIndices_request (ha : a.role = .assistant) (hu : u.role = .user) :
    assistantIndices (done ++ [a, u]) = done.length :: (assistantPlaces done).take 1 := by
  have hplaces : assistantPlaces (done ++ [a, u]) = done.length :: assistantPlaces done := by
    rw [List.append_cons, assistantPlaces_concat, if_neg (by simp [hu]), assistantPlaces_concat,
      if_pos ha]
  exact congrArg (List.take 2) hplaces

lemma assistantIndices_reply (ha : a.role = .assistant) (hu : u.role = .user)
    (hreply : reply.role = .assistant) (hlater : ∀ msg ∈ later, msg.role = .user) :
    assistantIndices (done ++ a :: u :: reply :: later) = [done.length + 2, done.length] := by
  have hplaces : assistantPlaces (done ++ a :: u :: reply :: later) =
      (done.length + 2) :: done.length :: assistantPlaces done := by
    rw [List.append_cons, List.append_cons, List.append_cons, assistantPlaces_append hlater,
      assistantPlaces_concat, if_pos hreply, assistantPlaces_concat, if_neg (by simp [hu]),
      assistantPlaces_concat, if_pos ha]
    simp
  exact congrArg (List.take 2) hplaces

/-- Neither a message that is not one of the last two of the assistant nor what is in front of
them is marked. -/
lemma flatMap_placedAt_eq_nil {indices : List Nat} {request : List ApiMessage} {k : Nat}
    (h : ∀ i ∈ indices, i < k ∨ k + request.length ≤ i) :
    (request.zipIdx k).flatMap (placedAt ephemeral indices) = [] := by
  rw [List.flatMap_eq_nil_iff]
  rintro ⟨msg, i⟩ hmem
  rw [placedAt, if_neg]
  intro hi
  have hle := List.le_snd_of_mem_zipIdx hmem
  have hlt := List.snd_lt_add_of_mem_zipIdx hmem
  have := h i hi
  dsimp only at hle hlt
  omega

lemma placedAt_of_mem {indices : List Nat} {i : Nat} (h : i ∈ indices) : placedAt ephemeral indices
    (a, i) = (markedIn (markMessage ephemeral a).content).map (i, ·) := if_pos h

lemma placedAt_of_notMem {indices : List Nat} {i : Nat} (h : i ∉ indices) :
    placedAt ephemeral indices (a, i) = [] := if_neg h

/-- The newest markers of a request are those of its last assistant message. -/
lemma exists_markers_request (ephemeral : CacheControlParam) (done : List ApiMessage)
    (ha : a.role = .assistant) (hu : u.role = .user) :
    ∃ before, (done ++ [a, u]).zipIdx.flatMap
        (placedAt ephemeral (assistantIndices (done ++ [a, u]))) =
      before ++ (markedIn (markMessage ephemeral a).content).map (done.length, ·) := by
  have hplaces : done.length + 1 ∉ done.length :: (assistantPlaces done).take 1 := by
    intro hmem
    rcases List.mem_cons.mp hmem with heq | hmem
    · omega
    · have := lt_of_mem_assistantPlaces (List.mem_of_mem_take hmem)
      omega
  rw [assistantIndices_request ha hu, List.zipIdx_append, List.flatMap_append, Nat.zero_add]
  refine ⟨_, congrArg _ ?_⟩
  rw [List.zipIdx_cons, List.zipIdx_singleton, List.flatMap_cons, List.flatMap_singleton,
    placedAt_of_mem List.mem_cons_self, placedAt_of_notMem hplaces, List.append_nil]

lemma markers_reply (ha : a.role = .assistant) (hu : u.role = .user)
    (hreply : reply.role = .assistant) (hlater : ∀ msg ∈ later, msg.role = .user) :
    (done ++ a :: u :: reply :: later).zipIdx.flatMap
        (placedAt ephemeral (assistantIndices (done ++ a :: u :: reply :: later))) =
      (markedIn (markMessage ephemeral a).content).map (done.length, ·) ++
        (markedIn (markMessage ephemeral reply).content).map (done.length + 2, ·) := by
  rw [assistantIndices_reply ha hu hreply hlater, List.zipIdx_append, List.flatMap_append,
    Nat.zero_add, List.zipIdx_cons, List.zipIdx_cons, List.zipIdx_cons, List.flatMap_cons,
    List.flatMap_cons, List.flatMap_cons]
  rw [flatMap_placedAt_eq_nil fun i hi => ?_, flatMap_placedAt_eq_nil fun i hi => ?_,
    placedAt_of_mem (by simp), placedAt_of_notMem (by simp), placedAt_of_mem (by simp)]
  · rw [List.nil_append, List.nil_append, List.append_nil]
  · simp only [List.mem_cons, List.not_mem_nil, or_false] at hi
    omega
  · simp only [List.mem_cons, List.not_mem_nil, or_false] at hi
    omega

/-- The older of two markers is the one of the first of two messages that are marked once. -/
lemma eq_of_markers {α : Type} {older newer : α} {l l' : List α} (hl : l.length ≤ 1)
    (hl' : l'.length ≤ 1) (h : l ++ l' = [older, newer]) : l = [older] := by
  match l, hl with
  | [], _ =>
    rw [List.nil_append] at h
    rw [h] at hl'
    simp at hl'
  | [a], _ => rw [(List.cons.inj h).1]

lemma blockAt_marked {request : List ApiMessage} (hlength : 3 ≤ request.length) {i j : Nat}
    (hi : i ∈ assistantIndices request) (ha : request[i]? = some a) :
    blockAt (addMessageCacheBreakpoint ephemeral request) (i, j) =
      (markMessage ephemeral a).content[j]? := by
  rw [blockAt, addMessageCacheBreakpoint_eq hlength, List.getElem?_mapIdx, ha]
  simp [hi]

end

/-- A call that is answered, and a reply. -/
def answeredCall : List Message := [
  ⟨.user, [.text "list the files" none], none, none⟩,
  ⟨.assistant, [.toolUse "ls" "bash" "\x7b\x7d"], none, none⟩,
  ⟨.user, [.toolResult "ls" "a.txt" none], none, none⟩]

end Jcode.Anthropic
