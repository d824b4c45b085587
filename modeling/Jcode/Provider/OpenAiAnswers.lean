import Jcode.Provider.OpenAiCollect

/-!
# The calls and outputs of the collected items

The items hold the parts and calls of the transcript in their order, an output only behind a call
with its id, and an output for each call. Where the ids of the tool uses differ, each output is the
one that the transcript has for a use, and what stays pending are the results without a use.
-/

namespace Jcode

open RequestBuild

section

variable {parts : List TranscriptPart} {uses : List ToolUse} {results future : List ToolResult}
  {st : RequestBuild} {callId output id : String}

/-! ### Lookups -/

lemma mem_outputIds {items : List ResponsesItem} :
    callId ∈ outputIds items ↔ ∃ output, .functionCallOutput callId output ∈ items := by
  rw [outputIds, List.mem_toFinset, List.mem_filterMap]
  constructor
  · rintro ⟨item, hitem, hid⟩
    cases item with
    | functionCallOutput callId' output =>
      rw [← Option.some.inj hid]
      exact ⟨output, hitem⟩
    | _ => cases hid
  · rintro ⟨output, hitem⟩
    exact ⟨_, hitem, rfl⟩

lemma firstOutput_append (more : List ToolResult) :
    firstOutput (results ++ more) id = (firstOutput results id).or (firstOutput more id) := by
  rw [firstOutput, List.find?_append, firstOutput, firstOutput]
  cases results.find? (·.toolUseId = id) <;> rfl

lemma firstOutput_eq_none_iff :
    firstOutput results id = none ↔ id ∉ results.map (·.toolUseId) := by
  simp [firstOutput]

lemma firstOutput_singleton (r : ToolResult) :
    firstOutput [r] id = if r.toolUseId = id then some r.output else none := by
  rw [firstOutput]
  by_cases hid : r.toolUseId = id <;> simp [hid]

lemma itemParts_append (items more : List ResponsesItem) :
    itemParts (items ++ more) = itemParts items ++ itemParts more :=
  List.flatMap_append

lemma functionCalls_append (items more : List ResponsesItem) :
    functionCalls (items ++ more) = functionCalls items ++ functionCalls more :=
  List.filter_append ..

lemma mem_outputIds_push {item : ResponsesItem} (h : callId ∈ outputIds st.items) :
    callId ∈ outputIds (st.push item).items := by
  rw [mem_outputIds] at h ⊢
  obtain ⟨output, hitem⟩ := h
  exact ⟨output, List.mem_append_left _ hitem⟩

lemma mem_callIds_of_use {items : List ResponsesItem}
    (hcalls : functionCalls items = uses.map ToolUse.call) (h : id ∈ uses.map (·.id)) :
    sanitizeToolId id ∈ items.flatMap (·.callIds) := by
  obtain ⟨u, hu, rfl⟩ := List.mem_map.mp h
  have hcall : u.call ∈ functionCalls items := by
    rw [hcalls]
    exact List.mem_map_of_mem hu
  exact mem_callIds.mpr ⟨_, _, List.mem_of_mem_filter hcall⟩

/-! ### Every run -/

/-- What holds of the items, whatever is still to come. -/
structure ItemsKept (parts : List TranscriptPart) (uses : List ToolUse) (st : RequestBuild) :
    Prop where
  parts : itemParts st.items ++ st.contentParts.map .user = parts
  calls : functionCalls st.items = uses.map ToolUse.call
  known : OutputsKnown ∅ st.items
  open_use : ∀ id ∈ st.openCalls, id ∈ uses.map (·.id)
  used_output : ∀ id ∈ st.usedOutputs, sanitizeToolId id ∈ outputIds st.items

namespace ItemsKept

lemma flushParts (h : ItemsKept parts uses st) : ItemsKept parts uses st.flushParts := by
  rw [RequestBuild.flushParts]
  split_ifs
  · exact h
  · refine ⟨?_, ?_, ?_, h.open_use, fun id hid ↦ mem_outputIds_push (h.used_output id hid)⟩
    · rw [← h.parts, RequestBuild.push, itemParts_append]
      simp [itemParts, ResponsesItem.parts]
    · rw [← h.calls, RequestBuild.push, functionCalls_append]
      exact List.append_nil _
    · exact outputsKnown_append.mpr ⟨h.known, trivial⟩

lemma push (h : ItemsKept parts uses st) {item : ResponsesItem} (hcall : item.isCall = false)
    (houtput : ∀ callId output, item ≠ .functionCallOutput callId output)
    (hparts : st.contentParts = []) :
    ItemsKept (parts ++ item.parts) uses (st.push item) := by
  refine ⟨?_, ?_, ?_, h.open_use, fun id hid ↦ mem_outputIds_push (h.used_output id hid)⟩
  · rw [← h.parts, RequestBuild.push, itemParts_append, hparts]
    simp [itemParts]
  · rw [← h.calls, RequestBuild.push, functionCalls_append, functionCalls, functionCalls,
      List.filter_singleton, hcall]
    exact List.append_nil _
  · refine outputsKnown_append.mpr ⟨h.known, ?_⟩
    cases item with
    | functionCall name arguments callId => cases hcall
    | functionCallOutput callId output => exact absurd rfl (houtput callId output)
    | _ => trivial

lemma pushCall (h : ItemsKept parts uses st) (u : ToolUse) :
    ItemsKept parts (uses ++ [u]) (st.push u.call) := by
  refine ⟨?_, ?_, ?_, fun id hid ↦ ?_, fun id hid ↦ mem_outputIds_push (h.used_output id hid)⟩
  · rw [← h.parts, RequestBuild.push, itemParts_append]
    simp [itemParts, ResponsesItem.parts, ToolUse.call]
  · rw [RequestBuild.push, functionCalls_append, h.calls, List.map_append]
    rfl
  · exact outputsKnown_append.mpr ⟨h.known, trivial⟩
  · rw [List.map_append]
    exact List.mem_append_left _ (h.open_use id hid)

lemma useOutput (h : ItemsKept parts uses st) (hid : id ∈ uses.map (·.id)) (output : String) :
    ItemsKept parts uses (st.useOutput id output) := by
  refine ⟨?_, ?_, ?_, h.open_use, fun other hother ↦ ?_⟩
  · rw [← h.parts, RequestBuild.useOutput, RequestBuild.push, itemParts_append]
    simp [itemParts, ResponsesItem.parts]
  · rw [← h.calls, RequestBuild.useOutput, RequestBuild.push, functionCalls_append]
    exact List.append_nil _
  · refine outputsKnown_append.mpr ⟨h.known, Finset.mem_union_right _ ?_, trivial⟩
    exact List.mem_toFinset.mpr (mem_callIds_of_use h.calls hid)
  · obtain rfl | hused := Finset.mem_insert.mp hother
    · exact mem_outputIds.mpr ⟨output, List.mem_append_right _ (List.mem_singleton_self _)⟩
    · exact mem_outputIds_push (h.used_output other hused)

end ItemsKept

/-- What holds of the items and the open calls of every transcript. -/
structure Kept (parts : List TranscriptPart) (uses : List ToolUse) (_ future : List ToolResult)
    (st : RequestBuild) : Prop where
  items : ItemsKept parts uses st
  open_future : ∀ id ∈ st.openCalls, id ∈ st.usedOutputs ∨ id ∈ future.map (·.toolUseId)
  use_known : ∀ id ∈ uses.map (·.id), id ∈ st.usedOutputs ∨ id ∈ st.openCalls

lemma Kept.result {r : ToolResult} (h : Kept parts uses results (r :: future) st) :
    Kept parts uses (results ++ [r]) future (st.collectResult r.toolUseId r.output) := by
  have hfuture : ∀ id ∈ st.openCalls, id ≠ r.toolUseId →
      id ∈ st.usedOutputs ∨ id ∈ future.map (·.toolUseId) := by
    intro id hid hne
    have hor := h.open_future id hid
    rwa [List.map_cons, List.mem_cons, or_iff_right hne] at hor
  rw [collectResult]
  split_ifs with hused hopen hpending
  · refine ⟨h.items, fun id hid ↦ ?_, h.use_known⟩
    by_cases hr : id = r.toolUseId
    · exact .inl (hr ▸ hused)
    · exact hfuture id hid hr
  · have hitems := h.items.useOutput (h.items.open_use _ hopen) r.output
    refine ⟨⟨hitems.parts, hitems.calls, hitems.known, fun id hid ↦ ?_, hitems.used_output⟩,
      fun id hid ↦ ?_, fun id hid ↦ ?_⟩
    · exact h.items.open_use id (List.mem_of_mem_filter hid)
    · have hne : id ≠ r.toolUseId := by simpa using (List.mem_filter.mp hid).2
      exact (hfuture id (List.mem_of_mem_filter hid) hne).imp_left Finset.mem_insert_of_mem
    · by_cases hr : id = r.toolUseId
      · exact .inl (Finset.mem_insert.mpr (.inl hr))
      · exact (h.use_known id hid).imp Finset.mem_insert_of_mem
          fun h ↦ List.mem_filter.mpr ⟨h, by simpa using hr⟩
  · exact ⟨h.items, fun id hid ↦ hfuture id hid (ne_of_mem_of_not_mem hid hopen), h.use_known⟩
  · refine ⟨⟨h.items.parts, h.items.calls, h.items.known, h.items.open_use,
      h.items.used_output⟩, fun id hid ↦ ?_, h.use_known⟩
    exact hfuture id hid (ne_of_mem_of_not_mem hid hopen)

lemma Kept.use {u : ToolUse} {hasFutureOutput : String → Bool}
    (hfuture : ∀ id, hasFutureOutput id ↔ id ∈ future.map (·.toolUseId))
    (h : Kept parts uses results future st) :
    Kept parts (uses ++ [u]) results future
      (st.collectUse hasFutureOutput u.id u.name u.input) := by
  have hcall := h.items.pushCall u
  have hid : u.id ∈ (uses ++ [u]).map (·.id) := by simp
  have hknown : ∀ id ∈ (uses ++ [u]).map (·.id), id = u.id ∨ id ∈ st.usedOutputs ∨
      id ∈ st.openCalls := by
    intro id hid
    rw [List.map_append, List.mem_append, List.map_singleton, List.mem_singleton] at hid
    exact hid.symm.imp_right (h.use_known id)
  have huse (output : String) (pending : List (String × String)) :
      Kept parts (uses ++ [u]) results future
        { (st.push u.call).useOutput u.id output with pendingOutputs := pending } := by
    have hitems := hcall.useOutput hid output
    refine ⟨⟨hitems.parts, hitems.calls, hitems.known, hitems.open_use, hitems.used_output⟩,
      fun id hid ↦ (h.open_future id hid).imp_left Finset.mem_insert_of_mem, fun id hid ↦ ?_⟩
    obtain rfl | hused := hknown id hid
    · exact .inl (Finset.mem_insert_self _ _)
    · exact hused.imp_left Finset.mem_insert_of_mem
  rw [collectUse]
  split
  · exact huse _ _
  · split_ifs with hnext hopen
    · refine ⟨hcall, h.open_future, fun id hid ↦ ?_⟩
      obtain rfl | hused := hknown id hid
      · exact .inr hopen
      · exact hused
    · refine ⟨⟨hcall.parts, hcall.calls, hcall.known, fun id hid' ↦ ?_, hcall.used_output⟩,
        fun id hid' ↦ ?_, fun id hid' ↦ ?_⟩
      · obtain hid' | hid' := List.mem_append.mp hid'
        · exact hcall.open_use id hid'
        · rwa [List.mem_singleton.mp hid']
      · obtain hid' | hid' := List.mem_append.mp hid'
        · exact h.open_future id hid'
        · rw [List.mem_singleton.mp hid']
          exact .inr ((hfuture u.id).mp hnext)
      · obtain rfl | hused := hknown id hid'
        · exact .inr (List.mem_append_right _ (List.mem_singleton_self _))
        · exact hused.imp_right (List.mem_append_left _)
    · exact huse _ _

theorem kept_keptByCollect : KeptByCollect Kept where
  empty future := ⟨⟨rfl, rfl, trivial, by simp [RequestBuild.empty],
    by simp [RequestBuild.empty]⟩, by simp [RequestBuild.empty], by simp⟩
  addPart part h := by
    refine ⟨⟨?_, h.items.calls, h.items.known, h.items.open_use, h.items.used_output⟩,
      h.open_future, h.use_known⟩
    rw [← h.items.parts, List.map_append, List.append_assoc]
    rfl
  flushParts h := ⟨h.items.flushParts, by simpa using h.open_future, by simpa using h.use_known⟩
  push item hcall houtput hparts h :=
    ⟨h.items.push hcall houtput hparts, h.open_future, h.use_known⟩
  result _ h := h.result
  use _ _ hfuture h := h.use hfuture

/-! ### Distinct tool uses -/

/-- The pending outputs are those of the results without a use. -/
structure PendingKept (uses : List ToolUse) (results : List ToolResult) (st : RequestBuild) :
    Prop where
  waits : ∀ id, id ∉ uses.map (·.id) → st.pendingOutput id = firstOutput results id
  taken : ∀ id ∈ uses.map (·.id), st.pendingOutput id = none
  orphans : (results.map (·.toolUseId)).Nodup → st.pendingOutputs =
    (results.filter (·.toolUseId ∉ uses.map (·.id))).map fun r ↦ (r.toolUseId, r.output)

namespace PendingKept

lemma of_pending (h : PendingKept uses results st) {st' : RequestBuild}
    (heq : st'.pendingOutputs = st.pendingOutputs) : PendingKept uses results st' := by
  refine ⟨fun id hid ↦ ?_, fun id hid ↦ ?_, fun hnodup ↦ heq.trans (h.orphans hnodup)⟩
  · rw [pendingOutput, heq]
    exact h.waits id hid
  · rw [pendingOutput, heq]
    exact h.taken id hid

lemma skip_of_use {r : ToolResult} (h : PendingKept uses results st)
    (huse : r.toolUseId ∈ uses.map (·.id)) : PendingKept uses (results ++ [r]) st := by
  refine ⟨fun id hid ↦ ?_, h.taken, fun hnodup ↦ ?_⟩
  · rw [firstOutput_append, firstOutput_singleton, if_neg (ne_of_mem_of_not_mem huse hid),
      Option.or_none, h.waits id hid]
  · rw [h.orphans (List.nodup_append.mp (by simpa using hnodup)).1, List.filter_append,
      List.filter_singleton]
    simp [huse]

lemma skip_of_pending {r : ToolResult} (h : PendingKept uses results st)
    (hpending : (st.pendingOutput r.toolUseId).isSome) : PendingKept uses (results ++ [r]) st := by
  have huse : r.toolUseId ∉ uses.map (·.id) := by
    intro huse
    rw [h.taken _ huse] at hpending
    cases hpending
  rw [h.waits _ huse] at hpending
  refine ⟨fun id hid ↦ ?_, h.taken, fun hnodup ↦ ?_⟩
  · rw [h.waits id hid, firstOutput_append, firstOutput_singleton]
    split_ifs with hr
    · rw [← hr, Option.or_of_isSome hpending]
    · rw [Option.or_none]
  · have hnew : firstOutput results r.toolUseId = none := by
      rw [firstOutput_eq_none_iff]
      rw [List.map_append, List.map_singleton, ← List.concat_eq_append, List.nodup_concat] at hnodup
      exact hnodup.1
    rw [hnew] at hpending
    cases hpending

lemma add {r : ToolResult} (h : PendingKept uses results st)
    (huse : r.toolUseId ∉ uses.map (·.id)) :
    PendingKept uses (results ++ [r])
      { st with pendingOutputs := st.pendingOutputs ++ [(r.toolUseId, r.output)] } := by
  have hlookup (id : String) : pendingOutput
      { st with pendingOutputs := st.pendingOutputs ++ [(r.toolUseId, r.output)] } id =
      (st.pendingOutput id).or (firstOutput [r] id) := by
    rw [pendingOutput, List.find?_append, pendingOutput, firstOutput_singleton]
    by_cases hr : r.toolUseId = id <;> cases st.pendingOutputs.find? (·.1 = id) <;> simp [hr]
  refine ⟨fun id hid ↦ ?_, fun id hid ↦ ?_, fun hnodup ↦ ?_⟩
  · rw [hlookup, h.waits id hid, firstOutput_append]
  · rw [hlookup, h.taken id hid, firstOutput_singleton,
      if_neg (ne_of_mem_of_not_mem hid huse).symm, Option.or_none]
  · simp only
    rw [h.orphans (List.nodup_append.mp (by simpa using hnodup)).1, List.filter_append,
      List.filter_singleton, decide_eq_true huse, List.map_append]
    rfl

lemma use {u : ToolUse} (h : PendingKept uses results st) :
    PendingKept (uses ++ [u]) results
      { st with pendingOutputs := st.pendingOutputs.filter (·.1 ≠ u.id) } := by
  have hlookup (id : String) : pendingOutput
      { st with pendingOutputs := st.pendingOutputs.filter (·.1 ≠ u.id) } id =
      if id = u.id then none else st.pendingOutput id := by
    rw [pendingOutput, List.find?_filter, pendingOutput]
    split_ifs with hu
    · simp [hu]
    · congr 2
      funext entry
      by_cases hentry : entry.1 = id <;> simp [hentry, hu]
  have hmem (id : String) : id ∈ (uses ++ [u]).map (·.id) ↔ id ∈ uses.map (·.id) ∨ id = u.id := by
    simp
  refine ⟨fun id hid ↦ ?_, fun id hid ↦ ?_, fun hnodup ↦ ?_⟩
  · rw [hmem, not_or] at hid
    rw [hlookup, if_neg hid.2, h.waits id hid.1]
  · rw [hlookup]
    split_ifs with hu
    · rfl
    · exact h.taken id (((hmem id).mp hid).resolve_right hu)
  · simp only
    rw [h.orphans hnodup, List.filter_map, List.filter_filter]
    congr 1
    apply List.filter_congr
    intro r _
    simp only [Function.comp_apply, hmem, not_or, Bool.decide_and]
    exact Bool.and_comm _ _

lemma filter_eq_self (h : st.pendingOutput id = none) :
    st.pendingOutputs.filter (·.1 ≠ id) = st.pendingOutputs := by
  rw [pendingOutput, Option.map_eq_none_iff, List.find?_eq_none] at h
  rw [List.filter_eq_self]
  intro entry hentry
  simpa using h entry hentry

end PendingKept

/-- The outputs of the items are those of the uses; `all` are all results of the transcript. -/
structure OutputsKept (uses : List ToolUse) (results all : List ToolResult) (st : RequestBuild) :
    Prop where
  used_use : ∀ id ∈ st.usedOutputs, id ∈ uses.map (·.id)
  open_unused : ∀ id ∈ st.openCalls, id ∉ st.usedOutputs
  open_waits : ∀ id ∈ st.openCalls, firstOutput results id = none
  used_output : ∀ id ∈ st.usedOutputs, .functionCallOutput (sanitizeToolId id)
    ((firstOutput all id).getD missingOutput) ∈ st.items
  output_used : ∀ callId output, .functionCallOutput callId output ∈ st.items →
    ∃ id ∈ st.usedOutputs, callId = sanitizeToolId id ∧
      output = (firstOutput all id).getD missingOutput

namespace OutputsKept

lemma useOutput {all : List ToolResult} (h : OutputsKept uses results all st)
    (huse : id ∈ uses.map (·.id)) (hopen : id ∉ st.openCalls)
    (houtput : (firstOutput all id).getD missingOutput = output) :
    OutputsKept uses results all (st.useOutput id output) := by
  refine ⟨fun other hother ↦ ?_, fun other hother hused ↦ ?_, h.open_waits, fun other hother ↦ ?_,
    fun callId out hout ↦ ?_⟩
  · obtain rfl | hother := Finset.mem_insert.mp hother
    · exact huse
    · exact h.used_use other hother
  · obtain rfl | hused := Finset.mem_insert.mp hused
    · exact hopen hother
    · exact h.open_unused other hother hused
  · obtain rfl | hother := Finset.mem_insert.mp hother
    · rw [houtput]
      exact List.mem_append_right _ (List.mem_singleton_self _)
    · exact List.mem_append_left _ (h.used_output other hother)
  · obtain hout | hout := List.mem_append.mp hout
    · obtain ⟨other, hother, heq⟩ := h.output_used callId out hout
      exact ⟨other, Finset.mem_insert_of_mem hother, heq⟩
    · obtain ⟨rfl, rfl⟩ : callId = sanitizeToolId id ∧ out = output := by
        simpa using hout
      exact ⟨id, Finset.mem_insert_self _ _, rfl, houtput.symm⟩

/-- Items that are no outputs change nothing. -/
lemma of_items {all : List ToolResult} (h : OutputsKept uses results all st)
    {st' : RequestBuild} (hused : st'.usedOutputs = st.usedOutputs)
    (hopen : st'.openCalls = st.openCalls)
    (hitems : ∀ callId output, .functionCallOutput callId output ∈ st'.items ↔
      .functionCallOutput callId output ∈ st.items) :
    OutputsKept uses results all st' := by
  obtain ⟨used_use, open_unused, open_waits, used_output, output_used⟩ := h
  constructor <;> simp only [hused, hopen, hitems] <;> assumption

/-- A result that no open call waits for changes nothing. -/
lemma skip {all : List ToolResult} {r : ToolResult} (h : OutputsKept uses results all st)
    (hopen : r.toolUseId ∉ st.openCalls) : OutputsKept uses (results ++ [r]) all st := by
  refine ⟨h.used_use, h.open_unused, fun id hid ↦ ?_, h.used_output, h.output_used⟩
  rw [firstOutput_append, h.open_waits id hid, firstOutput_singleton,
    if_neg (ne_of_mem_of_not_mem hid hopen).symm]
  rfl

lemma addUse {all : List ToolResult} (h : OutputsKept uses results all st) (u : ToolUse) :
    OutputsKept (uses ++ [u]) results all st := by
  refine ⟨fun id hid ↦ ?_, h.open_unused, h.open_waits, h.used_output, h.output_used⟩
  rw [List.map_append]
  exact List.mem_append_left _ (h.used_use id hid)

lemma openCall {all : List ToolResult} (h : OutputsKept uses results all st)
    (hused : id ∉ st.usedOutputs) (hwaits : firstOutput results id = none) :
    OutputsKept uses results all { st with openCalls := st.openCalls ++ [id] } := by
  refine ⟨h.used_use, fun other hother ↦ ?_, fun other hother ↦ ?_, h.used_output, h.output_used⟩
  · obtain hother | hother := List.mem_append.mp hother
    · exact h.open_unused other hother
    · rwa [List.mem_singleton.mp hother]
  · obtain hother | hother := List.mem_append.mp hother
    · exact h.open_waits other hother
    · rwa [List.mem_singleton.mp hother]

lemma closeCall {all : List ToolResult} (h : OutputsKept uses results all st) :
    OutputsKept uses results all
      { st with openCalls := st.openCalls.filter (· ≠ id) } :=
  ⟨h.used_use, fun other hother ↦ h.open_unused other (List.mem_of_mem_filter hother),
    fun other hother ↦ h.open_waits other (List.mem_of_mem_filter hother), h.used_output,
    h.output_used⟩

end OutputsKept

/-- What holds while the ids of the uses differ. -/
structure Answered (uses : List ToolUse) (results future : List ToolResult) (st : RequestBuild) :
    Prop where
  pending : PendingKept uses results st
  outputs : OutputsKept uses results (results ++ future) st

lemma Answered.result {r : ToolResult} (hkept : Kept parts uses results (r :: future) st)
    (h : Answered uses results (r :: future) st) :
    Answered uses (results ++ [r]) future (st.collectResult r.toolUseId r.output) := by
  obtain ⟨hpending, houtputs⟩ := h
  have hall : results ++ r :: future = results ++ [r] ++ future := by simp
  rw [hall] at houtputs
  rw [collectResult]
  split_ifs with hused hopen hsome
  · refine ⟨hpending.skip_of_use (houtputs.used_use _ hused), houtputs.skip fun hopen ↦ ?_⟩
    exact houtputs.open_unused _ hopen hused
  · have huse := hkept.items.open_use _ hopen
    refine ⟨(hpending.skip_of_use huse).of_pending rfl, ?_⟩
    have hclosed : r.toolUseId ∉ st.openCalls.filter (· ≠ r.toolUseId) := by simp
    refine (houtputs.closeCall.skip hclosed).useOutput huse hclosed ?_
    rw [List.append_assoc, firstOutput_append, houtputs.open_waits _ hopen, firstOutput_append,
      firstOutput_singleton, if_pos rfl]
    rfl
  · exact ⟨hpending.skip_of_pending hsome, houtputs.skip hopen⟩
  · refine ⟨hpending.add fun huse ↦ ?_, (houtputs.skip hopen).of_items rfl rfl fun _ _ ↦ .rfl⟩
    exact (hkept.use_known _ huse).elim hused hopen

lemma Answered.use {u : ToolUse} {hasFutureOutput : String → Bool}
    (hfuture : ∀ id, hasFutureOutput id ↔ id ∈ future.map (·.toolUseId))
    (hkept : Kept parts uses results future st) (hnew : u.id ∉ uses.map (·.id))
    (h : Answered uses results future st) :
    Answered (uses ++ [u]) results future
      (st.collectUse hasFutureOutput u.id u.name u.input) := by
  have hid : u.id ∈ (uses ++ [u]).map (·.id) := by simp
  have hopen : u.id ∉ st.openCalls := fun hopen ↦ hnew (hkept.items.open_use _ hopen)
  have hcall : OutputsKept (uses ++ [u]) results (results ++ future) (st.push u.call) := by
    refine (h.outputs.addUse u).of_items rfl rfl fun callId output ↦ ?_
    simp [RequestBuild.push, ToolUse.call]
  have hwaits := h.pending.waits u.id hnew
  rw [collectUse]
  cases hpending : st.pendingOutput u.id with
  | some output =>
    rw [show (st.push _).pendingOutput u.id = some output from hpending]
    refine ⟨h.pending.use.of_pending rfl, (hcall.useOutput hid hopen ?_).of_items rfl rfl
      fun _ _ ↦ .rfl⟩
    rw [firstOutput_append, ← hwaits, hpending]
    rfl
  | none =>
    rw [show (st.push _).pendingOutput u.id = none from hpending]
    have hsame : PendingKept (uses ++ [u]) results st :=
      h.pending.use.of_pending (PendingKept.filter_eq_self hpending).symm
    rw [hpending] at hwaits
    simp only
    rw [if_neg (show u.id ∉ (st.push _).openCalls from hopen)]
    split_ifs with hnext
    · refine ⟨hsame.of_pending rfl, hcall.openCall ?_ hwaits.symm⟩
      exact fun hused ↦ hnew (h.outputs.used_use _ hused)
    · refine ⟨hsame.of_pending rfl, hcall.useOutput hid hopen ?_⟩
      rw [firstOutput_append, ← hwaits,
        firstOutput_eq_none_iff.mpr fun hfut ↦ hnext ((hfuture u.id).mpr hfut)]
      rfl

/-- With distinct ids of the uses, the outputs are answers. -/
theorem answered_keptByCollect : KeptByCollect fun parts uses results future st ↦
    Kept parts uses results future st ∧
      ((uses.map (·.id)).Nodup → Answered uses results future st) where
  empty future := by
    refine ⟨kept_keptByCollect.empty future, fun _ ↦
      ⟨⟨fun _ _ ↦ rfl, fun _ _ ↦ rfl, fun _ ↦ rfl⟩, ?_⟩⟩
    constructor <;> simp [RequestBuild.empty]
  addPart part h := by
    refine ⟨kept_keptByCollect.addPart part h.1, fun hnodup ↦ ?_⟩
    have hanswered := h.2 hnodup
    exact ⟨hanswered.pending.of_pending rfl, hanswered.outputs.of_items rfl rfl fun _ _ ↦ .rfl⟩
  flushParts h := by
    refine ⟨kept_keptByCollect.flushParts h.1, fun hnodup ↦ ?_⟩
    have hanswered := h.2 hnodup
    refine ⟨hanswered.pending.of_pending flushParts_pendingOutputs,
      hanswered.outputs.of_items flushParts_usedOutputs flushParts_openCalls fun callId output ↦ ?_⟩
    rw [RequestBuild.flushParts]
    split_ifs
    · rfl
    · simp [RequestBuild.push]
  push item hcall houtput hparts h := by
    refine ⟨kept_keptByCollect.push item hcall houtput hparts h.1, fun hnodup ↦ ?_⟩
    have hanswered := h.2 hnodup
    refine ⟨hanswered.pending.of_pending rfl,
      hanswered.outputs.of_items rfl rfl fun callId output ↦ ?_⟩
    simp [RequestBuild.push, (houtput callId output).symm]
  result r h := ⟨h.1.result, fun hnodup ↦ (h.2 hnodup).result h.1⟩
  use u hasFutureOutput hfuture h := by
    refine ⟨h.1.use hfuture, fun hnodup ↦ ?_⟩
    rw [List.map_append, List.map_singleton, ← List.concat_eq_append, List.nodup_concat] at hnodup
    exact (h.2 hnodup.2).use hfuture h.1 hnodup.1

end

/-! ### The end of the pass -/

variable (messages : List Message)

theorem collect_kept :
    Kept (transcriptParts messages) (toolUses messages) (toolResults messages) []
      (collect messages) :=
  (kept_keptByCollect.collect messages).1

lemma collect_contentParts : (collect messages).contentParts = [] :=
  (kept_keptByCollect.collect messages).2

def DistinctUses : Prop := ((toolUses messages).map (·.id)).Nodup

variable {messages} in
theorem collect_answered (h : DistinctUses messages) :
    Answered (toolUses messages) (toolResults messages) [] (collect messages) :=
  (answered_keptByCollect.collect messages).1.2 h

end Jcode
