import Jcode.Compaction.Manager

/-!
# Tool calls and their results

Which tool results of a list of messages have their tool call in the list, and what the cutoff
search of a compaction guarantees about the messages that are kept.
-/

namespace Jcode

def ContentBlock.toolUseId? : ContentBlock → Option String
  | toolUse id _ _ => some id
  | _ => none

def ContentBlock.toolResultId? : ContentBlock → Option String
  | toolResult toolUseId _ _ => some toolUseId
  | _ => none

def toolUseIds (blocks : List ContentBlock) : List String :=
  blocks.filterMap ContentBlock.toolUseId?

def toolResultIds (blocks : List ContentBlock) : List String :=
  blocks.filterMap ContentBlock.toolResultId?

/-- Every tool result has its tool call among the blocks. -/
def ToolClosed (blocks : List ContentBlock) : Prop :=
  ∀ id ∈ toolResultIds blocks, id ∈ toolUseIds blocks

/-- Every tool result has its tool call before it, or among the calls that were `seen` before. -/
def PairedAfter (seen : List String) : List ContentBlock → Prop
  | [] => True
  | .toolUse id _ _ :: blocks => PairedAfter (id :: seen) blocks
  | .toolResult toolUseId _ _ :: blocks => toolUseId ∈ seen ∧ PairedAfter seen blocks
  | _ :: blocks => PairedAfter seen blocks

def blocksOf (messages : List Message) : List ContentBlock := messages.flatMap (·.content)

instance (blocks : List ContentBlock) : Decidable (ToolClosed blocks) :=
  inferInstanceAs (Decidable (∀ id ∈ toolResultIds blocks, id ∈ toolUseIds blocks))

instance decidablePairedAfter (seen : List String) : ∀ blocks, Decidable (PairedAfter seen blocks)
  | [] => isTrue trivial
  | .toolUse id _ _ :: blocks => decidablePairedAfter (id :: seen) blocks
  | .toolResult _ _ _ :: blocks =>
    have := decidablePairedAfter seen blocks
    inferInstanceAs (Decidable (_ ∧ _))
  | .text _ _ :: blocks | .reasoning _ :: blocks | .image _ _ :: blocks |
    .openAICompaction _ :: blocks => decidablePairedAfter seen blocks

section

variable {block : ContentBlock} {blocks blocks' : List ContentBlock} {id : String}

@[simp] lemma toolUseIds_nil : toolUseIds [] = [] := rfl

@[simp] lemma toolResultIds_nil : toolResultIds [] = [] := rfl

@[simp] lemma toolUseIds_cons :
    toolUseIds (block :: blocks) = block.toolUseId?.toList ++ toolUseIds blocks := by
  cases h : block.toolUseId? <;> simp [toolUseIds, h]

@[simp] lemma toolResultIds_cons :
    toolResultIds (block :: blocks) = block.toolResultId?.toList ++ toolResultIds blocks := by
  cases h : block.toolResultId? <;> simp [toolResultIds, h]

@[simp] lemma toolUseIds_append :
    toolUseIds (blocks ++ blocks') = toolUseIds blocks ++ toolUseIds blocks' := by
  simp [toolUseIds]

@[simp] lemma toolResultIds_append :
    toolResultIds (blocks ++ blocks') = toolResultIds blocks ++ toolResultIds blocks' := by
  simp [toolResultIds]

lemma mem_toolUseIds : id ∈ toolUseIds blocks ↔ ∃ block ∈ blocks, block.toolUseId? = some id := by
  simp [toolUseIds]

lemma mem_toolResultIds :
    id ∈ toolResultIds blocks ↔ ∃ block ∈ blocks, block.toolResultId? = some id := by
  simp [toolResultIds]

/-- Further blocks whose results have their calls here or there. -/
lemma ToolClosed.append (h : ToolClosed blocks)
    (h' : ∀ id ∈ toolResultIds blocks', id ∈ toolUseIds blocks ∨ id ∈ toolUseIds blocks') :
    ToolClosed (blocks ++ blocks') := by
  intro id hid
  rw [toolUseIds_append, List.mem_append]
  rw [toolResultIds_append, List.mem_append] at hid
  rcases hid with hid | hid
  · exact .inl (h id hid)
  · exact h' id hid

lemma PairedAfter.closed {seen : List String} (h : PairedAfter seen blocks) :
    ∀ id ∈ toolResultIds blocks, id ∈ seen ∨ id ∈ toolUseIds blocks := by
  induction blocks generalizing seen with
  | nil => simp
  | cons block blocks ih =>
    intro id hid
    cases block with
    | toolUse useId name input =>
      rcases ih h id (by simpa [ContentBlock.toolResultId?] using hid) with hseen | huse
      · rcases List.mem_cons.mp hseen with rfl | hseen
        · exact .inr (by simp [ContentBlock.toolUseId?])
        · exact .inl hseen
      · exact .inr (by simp [huse])
    | toolResult useId content isError =>
      have hids : id = useId ∨ id ∈ toolResultIds blocks := by
        simpa [ContentBlock.toolResultId?] using hid
      rcases hids with rfl | hid
      · exact .inl h.1
      · exact (ih h.2 id hid).imp_right fun huse => by simp [huse]
    | text | reasoning | image | openAICompaction =>
      rcases ih h id (by simpa [ContentBlock.toolResultId?] using hid) with hseen | huse
      · exact .inl hseen
      · exact .inr (by simp [huse])

/-- A transcript in which every result comes after its call contains the calls. -/
lemma toolClosed_of_paired (h : PairedAfter [] blocks) : ToolClosed blocks := by
  intro id hid
  simpa using h.closed id hid

end

/-! ### The cutoff search -/

/-- What the search knows after some blocks: the calls, and the results without a call. -/
def ToolIds.Of (ids : ToolIds) (blocks : List ContentBlock) : Prop :=
  (∀ id, id ∈ ids.available ↔ id ∈ toolUseIds blocks) ∧
    ∀ id, id ∈ ids.missing ↔ id ∈ toolResultIds blocks ∧ id ∉ toolUseIds blocks

namespace ToolIds

variable {ids : ToolIds} {blocks blocks' : List ContentBlock} {msg : Message}
  {messages : List Message}

lemma of_empty : ToolIds.empty.Of [] := by
  simp [Of, ToolIds.empty]

/-- The order of the blocks does not matter. -/
lemma Of.congr (h : ids.Of blocks) (hb : ∀ block, block ∈ blocks ↔ block ∈ blocks') :
    ids.Of blocks' := by
  have huse (id : String) : id ∈ toolUseIds blocks ↔ id ∈ toolUseIds blocks' := by
    simp [mem_toolUseIds, hb]
  have hresult (id : String) : id ∈ toolResultIds blocks ↔ id ∈ toolResultIds blocks' := by
    simp [mem_toolResultIds, hb]
  exact ⟨fun id => (h.1 id).trans (huse id), fun id => by rw [h.2 id, hresult, huse]⟩

lemma Of.seeBlock (h : ids.Of blocks) (block : ContentBlock) :
    (ids.seeBlock block).Of (block :: blocks) := by
  cases block with
  | toolUse useId name input =>
    refine ⟨fun id => ?_, fun id => ?_⟩
    · simp [ToolIds.seeBlock, ContentBlock.toolUseId?, h.1 id]
    · simp only [ToolIds.seeBlock, Finset.mem_erase, h.2 id, toolResultIds_cons, toolUseIds_cons,
        ContentBlock.toolUseId?, ContentBlock.toolResultId?, Option.toList_none,
        Option.toList_some, List.nil_append, List.singleton_append, List.mem_cons, not_or]
      tauto
  | toolResult useId content isError =>
    simp only [ToolIds.seeBlock]
    split_ifs with havailable
    · have huse : useId ∈ toolUseIds blocks := (h.1 useId).mp havailable
      refine ⟨fun id => by simp [ContentBlock.toolUseId?, h.1 id], fun id => ?_⟩
      simp only [h.2 id, toolResultIds_cons, toolUseIds_cons, ContentBlock.toolUseId?,
        ContentBlock.toolResultId?, Option.toList_none, Option.toList_some, List.nil_append,
        List.singleton_append, List.mem_cons]
      constructor
      · exact fun hid => ⟨.inr hid.1, hid.2⟩
      · rintro ⟨rfl | hid, hno⟩
        · exact (hno huse).elim
        · exact ⟨hid, hno⟩
    · have huse : useId ∉ toolUseIds blocks := fun huse => havailable ((h.1 useId).mpr huse)
      refine ⟨fun id => by simp [ContentBlock.toolUseId?, h.1 id], fun id => ?_⟩
      simp only [Finset.mem_insert, h.2 id, toolResultIds_cons, toolUseIds_cons,
        ContentBlock.toolUseId?, ContentBlock.toolResultId?, Option.toList_none,
        Option.toList_some, List.nil_append, List.singleton_append, List.mem_cons]
      constructor
      · rintro (rfl | hid)
        · exact ⟨.inl rfl, huse⟩
        · exact ⟨.inr hid.1, hid.2⟩
      · rintro ⟨rfl | hid, hno⟩
        · exact .inl rfl
        · exact .inr ⟨hid, hno⟩
  | text | reasoning | image | openAICompaction =>
    exact ⟨fun id => by simp [ToolIds.seeBlock, ContentBlock.toolUseId?, h.1 id],
      fun id => by simp [ToolIds.seeBlock, ContentBlock.toolUseId?, ContentBlock.toolResultId?,
        h.2 id]⟩

/-- A message in front of the blocks that have been seen. -/
lemma Of.see (h : ids.Of blocks) (msg : Message) : (ids.see msg).Of (msg.content ++ blocks) := by
  unfold ToolIds.see
  induction msg.content generalizing ids blocks with
  | nil => exact h
  | cons block content ih =>
    refine (ih (h.seeBlock block)).congr fun block' => ?_
    simp only [List.mem_append, List.mem_cons]
    tauto

lemma Of.foldl (h : ids.Of blocks) (messages : List Message) :
    (messages.foldl ToolIds.see ids).Of (blocksOf messages ++ blocks) := by
  induction messages generalizing ids blocks with
  | nil => exact h
  | cons msg messages ih =>
    refine (ih (h.see msg)).congr fun block => ?_
    simp only [blocksOf, List.flatMap_cons, List.mem_append]
    tauto

/-- Nothing is missing when every result has its call. -/
lemma Of.missing_eq_empty (h : ids.Of blocks) : ids.missing = ∅ ↔ ToolClosed blocks := by
  simp only [Finset.eq_empty_iff_forall_notMem, h.2, not_and, not_not]
  rfl

end ToolIds

/-- The cutoff is closed: behind it, every result has its call. -/
def ClosedFrom (messages : List Message) (cutoff : Nat) : Prop :=
  ToolClosed (blocksOf (messages.drop cutoff))

section

variable {messages : List Message} {ids : ToolIds} {cutoff c k : Nat}

/-- The walk stops at the first closed cutoff below an open one, or at the front. -/
lemma walkBackward_spec (hids : ids.Of (blocksOf (messages.drop cutoff)))
    (hle : cutoff ≤ messages.length) (hopen : ¬ ClosedFrom messages cutoff) :
    (walkBackward ids (messages.take cutoff).reverse ≠ 0 →
      ClosedFrom messages (walkBackward ids (messages.take cutoff).reverse)) ∧
    ∀ c, walkBackward ids (messages.take cutoff).reverse < c → c ≤ cutoff →
      ¬ ClosedFrom messages c := by
  induction cutoff generalizing ids with
  | zero => exact ⟨fun h => (h rfl).elim, fun c hlt hc => absurd hc (by omega)⟩
  | succ cutoff ih =>
    have hlt : cutoff < messages.length := hle
    have htake : (messages.take (cutoff + 1)).reverse =
        messages[cutoff] :: (messages.take cutoff).reverse := by
      rw [List.take_succ_eq_append_getElem hlt, List.reverse_append]
      rfl
    have hsee : (ids.see messages[cutoff]).Of (blocksOf (messages.drop cutoff)) := by
      rw [List.drop_eq_getElem_cons hlt, blocksOf, List.flatMap_cons]
      exact hids.see _
    have hone (c : Nat) (hc : cutoff < c) (hc' : c ≤ cutoff + 1) : ¬ ClosedFrom messages c := by
      obtain rfl : c = cutoff + 1 := by omega
      exact hopen
    rw [htake, walkBackward]
    split_ifs with hmissing
    · rw [List.length_reverse, List.length_take_of_le hlt.le]
      exact ⟨fun _ => hsee.missing_eq_empty.mp hmissing, hone⟩
    · obtain ⟨hclosed, hmax⟩ := ih hsee hlt.le fun h => hmissing (hsee.missing_eq_empty.mpr h)
      refine ⟨hclosed, fun c hc hc' => ?_⟩
      by_cases hcut : c ≤ cutoff
      · exact hmax c hc hcut
      · exact hone c (by omega) hc'

/-- The search finds the last closed cutoff up to the initial one, or gives up with zero. -/
theorem safeCompactionCutoff_spec (messages : List Message) (k : Nat) :
    (safeCompactionCutoff messages k ≠ 0 →
      ClosedFrom messages (safeCompactionCutoff messages k)) ∧
    ∀ c, safeCompactionCutoff messages k < c → c ≤ min k messages.length →
      ¬ ClosedFrom messages c := by
  have hids : ((messages.drop (min k messages.length)).foldl ToolIds.see .empty).Of
      (blocksOf (messages.drop (min k messages.length))) := by
    simpa using ToolIds.of_empty.foldl (messages.drop (min k messages.length))
  simp only [safeCompactionCutoff]
  split_ifs with hmissing
  · exact ⟨fun _ => hids.missing_eq_empty.mp hmissing, fun c hlt hle => absurd hle (by omega)⟩
  · exact walkBackward_spec hids (min_le_right _ _) fun h => hmissing (hids.missing_eq_empty.mpr h)

end

namespace CompactionManager

variable {E : Type} {env : CompactionEnv E} {m m' : CompactionManager E}
  {allMessages : List Message} {embed : String → Option E} {n : Nat}

lemma closedFrom_hardCutoff {active : List Message} {tokenBudget turnsToKeep : Nat}
    (h : hardCutoff active tokenBudget turnsToKeep ≠ 0) :
    ClosedFrom active (hardCutoff active tokenBudget turnsToKeep) := by
  induction turnsToKeep using hardCutoff.induct active tokenBudget with
  | case1 turnsToKeep cutoff hfits =>
    rw [hardCutoff, if_pos hfits] at h ⊢
    exact (safeCompactionCutoff_spec active _).1 h
  | case2 turnsToKeep cutoff hfits hmin =>
    rw [hardCutoff, if_neg hfits, if_pos hmin] at h ⊢
    exact (safeCompactionCutoff_spec active _).1 h
  | case3 turnsToKeep cutoff hfits hmin ih =>
    rw [hardCutoff, if_neg hfits, if_neg hmin] at h ⊢
    exact ih h

lemma hardCompact_closed (h : m.hardCompactWith env allMessages = .ok (n, m')) :
    ClosedFrom (m.activeMessages allMessages) n := by
  simp only [hardCompactWith] at h
  split_ifs at h with hlen hzero
  cases h
  exact closedFrom_hardCutoff hzero

/-- A task that a call starts leaves the messages behind its cutoff closed. -/
lemma startTask_closed {cutoff : Nat} {trigger : String}
    (h : safeCompactionCutoff (m.activeMessages allMessages) cutoff ≠ 0) :
    ClosedFrom (m.activeMessages allMessages) (m.startTask allMessages
      (safeCompactionCutoff (m.activeMessages allMessages) cutoff) trigger).pendingCutoff :=
  (safeCompactionCutoff_spec _ _).1 h

lemma maybeStart_closed (hnone : m.pendingTask = none)
    (h : (m.maybeStartCompactionWith env embed allMessages).pendingTask.isSome) :
    ClosedFrom (m.activeMessages allMessages)
      (m.maybeStartCompactionWith env embed allMessages).pendingCutoff := by
  unfold maybeStartCompactionWith at h ⊢
  dsimp only at h ⊢
  split_ifs at h ⊢ with hs hzero hsafe
  · simp [hnone] at h
  · simp [hnone] at h
  · exact startTask_closed hsafe
  · simp [hnone] at h

/-- A task that is started may be applied to the messages it is started on. -/
lemma maybeStart_closed_cases (m : CompactionManager E) (env : CompactionEnv E)
    (embed : String → Option E) (allMessages : List Message) :
    m.maybeStartCompactionWith env embed allMessages = m ∨
      m.Starts (m.maybeStartCompactionWith env embed allMessages) allMessages ∧
        ClosedFrom (m.activeMessages allMessages)
          (m.maybeStartCompactionWith env embed allMessages).pendingCutoff := by
  refine (maybeStart_cases m env embed allMessages).imp_right fun hstarts => ⟨hstarts, ?_⟩
  refine maybeStart_closed hstarts.1 ?_
  obtain ⟨-, cutoff, trigger, -, -, heq⟩ := hstarts
  rw [heq]
  rfl

lemma forceCompact_closed (h : m.forceCompactWith env allMessages = .ok m') :
    ClosedFrom (m.activeMessages allMessages) m'.pendingCutoff := by
  simp only [forceCompactWith] at h
  split_ifs at h with hp hlen husage hzero hsafe
  cases h
  exact startTask_closed hsafe

end CompactionManager

end Jcode
