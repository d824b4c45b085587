import Jcode.Foundation.EachAfter
import Jcode.Provider.OpenRouterSse
import Mathlib.Data.List.Nodup

/-!
# Fragments of tool calls

Tool calls arrive in fragments that carry the index of their call. The stream keeps one call at a
time and does not look at the index.
-/

namespace Jcode.OpenRouter

/-! ### What the stream makes of fragments -/

structure ToolCallFragment where
  index : Nat
  id : Option String
  name : Option String
  arguments : Option String
deriving DecidableEq

/-- What matters to tool calls: a fragment, a finish reason or `[DONE]`. -/
inductive CallSignal
  | fragment (f : ToolCallFragment)
  | finish
  | done
deriving DecidableEq

/-- What is emitted of them: a tool call as a whole, or the end of the message. -/
inductive CallMark
  | call (c : ToolCallAccumulator)
  | messageEnd
deriving DecidableEq

def flushCall : Option ToolCallAccumulator → List CallMark
  | none => []
  | some call => if call.id.isEmpty then [] else [.call call]

/-- What is emitted, and the call that is kept. -/
def stepCalls (current : Option ToolCallAccumulator) :
    CallSignal → List CallMark × Option ToolCallAccumulator
  | .fragment f =>
    let start : List CallMark × Option ToolCallAccumulator := match f.id with
      | some id => (flushCall current, some ⟨id, f.name.getD "", ""⟩)
      | none => ([], current)
    (start.1, start.2.map fun call =>
      { call with arguments := call.arguments ++ f.arguments.getD "" })
  | .finish => (flushCall current, none)
  | .done => ([.messageEnd], current)

def runCalls (current : Option ToolCallAccumulator) :
    List CallSignal → List CallMark × Option ToolCallAccumulator
  | [] => ([], current)
  | signal :: signals =>
    let step := stepCalls current signal
    (step.1 ++ (runCalls step.2 signals).1, (runCalls step.2 signals).2)

/-- What is emitted of a whole stream. -/
def callMarks (signals : List CallSignal) : List CallMark :=
  (runCalls none signals).1 ++ flushCall (runCalls none signals).2

/-! ### What the fragments are fragments of -/

def fragmentsOf (signals : List CallSignal) : List ToolCallFragment :=
  signals.filterMap fun
    | .fragment f => some f
    | _ => none

def callsOf (marks : List CallMark) : List ToolCallAccumulator :=
  marks.filterMap fun
    | .call c => some c
    | .messageEnd => none

/-- The arguments of the fragments with an index. -/
def inputOf (index : Nat) (fragments : List ToolCallFragment) : String :=
  String.join ((fragments.filter (·.index = index)).map fun f => f.arguments.getD "")

def startFragments (fragments : List ToolCallFragment) : List ToolCallFragment :=
  fragments.filter (·.id.isSome)

/-- The call that begins with a fragment. -/
def callOf (fragments : List ToolCallFragment) (f : ToolCallFragment) : ToolCallAccumulator :=
  ⟨f.id.getD "", f.name.getD "", inputOf f.index fragments⟩

def expectedCalls (fragments : List ToolCallFragment) : List ToolCallAccumulator :=
  (startFragments fragments).map (callOf fragments)

/-- The first fragment with an index has an id, that of no other call, and a name. Later ones have
neither. -/
def FirstOrLater (earlier : List ToolCallFragment) (f : ToolCallFragment) : Prop :=
  if f.index ∈ earlier.map (·.index) then f.id = none ∧ f.name = none
  else f.id.isSome ∧ f.name.isSome ∧ f.id ∉ earlier.map (·.id)

/-- Every tool call has one index. -/
def OneIndexEach : List ToolCallFragment → Prop := EachAfter FirstOrLater

/-- No call comes after the end of the message. -/
def BeforeEndAt (earlier : List CallMark) : CallMark → Prop
  | .call _ => .messageEnd ∉ earlier
  | .messageEnd => True

/-- Every call is emitted once, with all of its fragments, and before the end of the message. -/
def Reassembled (marks : List CallMark) (fragments : List ToolCallFragment) : Prop :=
  (callsOf marks).Perm (expectedCalls fragments) ∧ EachAfter BeforeEndAt marks

/-! ### Fragments that come in turn -/

/-- The index of the call that was started last, if no finish reason came since. -/
def openIndex (signals : List CallSignal) : Option Nat :=
  signals.foldl (fun current => fun
    | .fragment f => if f.id.isSome then some f.index else current
    | .finish => none
    | .done => current) none

/-- A call has an id that is not empty, and starts before the end of the message. Arguments belong
to the call that is open, and no call is open at the end of the message. -/
def InTurnAt (earlier : List CallSignal) : CallSignal → Prop
  | .fragment f =>
    if f.id.isSome then f.id ≠ some "" ∧ .done ∉ earlier
    else f.arguments.getD "" ≠ "" → openIndex earlier = some f.index
  | .finish => True
  | .done => openIndex earlier = none

def InTurn : List CallSignal → Prop := EachAfter InTurnAt

instance decidableOneIndexEach : DecidablePred OneIndexEach := fun fragments =>
  have (earlier : List ToolCallFragment) (f : ToolCallFragment) :
    Decidable (FirstOrLater earlier f) := by unfold FirstOrLater; infer_instance
  inferInstanceAs (Decidable (EachAfter FirstOrLater fragments))

instance decidableInTurn : DecidablePred InTurn := fun signals =>
  have (earlier : List CallSignal) (signal : CallSignal) : Decidable (InTurnAt earlier signal) := by
    cases signal <;> unfold InTurnAt <;> infer_instance
  inferInstanceAs (Decidable (EachAfter InTurnAt signals))

variable {signals signals' earlier : List CallSignal} {fragments : List ToolCallFragment}
  {f g : ToolCallFragment} {current : Option ToolCallAccumulator} {marks : List CallMark}
  {c : ToolCallAccumulator} {index : Nat}

/-! ### Runs -/

lemma runCalls_append : runCalls current (signals ++ signals') =
    ((runCalls current signals).1 ++ (runCalls (runCalls current signals).2 signals').1,
      (runCalls (runCalls current signals).2 signals').2) := by
  induction signals generalizing current with
  | nil => rfl
  | cons signal signals ih =>
    rw [List.cons_append, runCalls, runCalls, ih, List.append_assoc]

lemma runCalls_concat {signal : CallSignal} : runCalls current (signals ++ [signal]) =
    ((runCalls current signals).1 ++ (stepCalls (runCalls current signals).2 signal).1,
      (stepCalls (runCalls current signals).2 signal).2) := by
  rw [runCalls_append, runCalls, runCalls, List.append_nil]

lemma mem_flushCall : .call c ∈ flushCall current ↔ current = some c ∧ c.id ≠ "" := by
  cases current with
  | none => simp [flushCall]
  | some call =>
    rw [flushCall]
    split_ifs with hid
    · simp only [List.not_mem_nil, Option.some.injEq, false_iff, not_and, not_not]
      rintro rfl
      simpa using hid
    · simp only [List.mem_singleton, CallMark.call.injEq, Option.some.injEq]
      constructor
      · rintro rfl
        exact ⟨rfl, by simpa using hid⟩
      · rintro ⟨rfl, -⟩
        rfl

lemma mem_callsOf : c ∈ callsOf marks ↔ .call c ∈ marks := by
  rw [callsOf, List.mem_filterMap]
  constructor
  · rintro ⟨mark, hmark, hc⟩
    cases mark with
    | call c' => simpa using (Option.some.inj hc) ▸ hmark
    | messageEnd => cases hc
  · exact fun h => ⟨.call c, h, rfl⟩

lemma callsOf_append {marks' : List CallMark} :
    callsOf (marks ++ marks') = callsOf marks ++ callsOf marks' :=
  List.filterMap_append

/-! ### Fragments of one call each -/

lemma startFragments_concat : startFragments (fragments ++ [f]) =
    startFragments fragments ++ if f.id.isSome then [f] else [] := by
  rw [startFragments, List.filter_append, List.filter_cons, List.filter_nil]
  rfl

lemma fragmentsOf_concat_fragment :
    fragmentsOf (signals ++ [.fragment f]) = fragmentsOf signals ++ [f] := by
  simp [fragmentsOf]

lemma inputOf_concat : inputOf index (fragments ++ [f]) =
    inputOf index fragments ++ if f.index = index then f.arguments.getD "" else "" := by
  rw [inputOf, List.filter_append, List.map_append, inputOf]
  by_cases h : f.index = index
  · simp [h, String.join]
  · simp [h]

lemma inputOf_append {later : List ToolCallFragment} : inputOf index (fragments ++ later) =
    inputOf index fragments ++ inputOf index later := by
  induction later using List.reverseRecOn with
  | nil => simp [inputOf, String.join]
  | append_singleton later f ih =>
    rw [← List.append_assoc, inputOf_concat, ih, inputOf_concat, String.append_assoc]

/-- There is nothing with an index that has not come. -/
lemma inputOf_eq_empty (h : index ∉ fragments.map (·.index)) : inputOf index fragments = "" := by
  have hfilter : fragments.filter (·.index = index) = [] := by
    rw [List.filter_eq_nil_iff]
    intro f hf hindex
    exact h (List.mem_map.mpr ⟨f, hf, of_decide_eq_true hindex⟩)
  rw [inputOf, hfilter]
  rfl

lemma mem_of_mem_startFragments (h : g ∈ startFragments fragments) : g ∈ fragments :=
  (List.mem_filter.mp h).1

namespace OneIndexEach

lemma concat :
    OneIndexEach (fragments ++ [f]) ↔ OneIndexEach fragments ∧ FirstOrLater fragments f :=
  EachAfter.concat

lemma nodup_index (h : OneIndexEach fragments) :
    ((startFragments fragments).map (·.index)).Nodup := by
  induction fragments using List.reverseRecOn with
  | nil => exact List.nodup_nil
  | append_singleton fragments f ih =>
    obtain ⟨h, hf⟩ := concat.mp h
    rw [startFragments_concat]
    split_ifs with hid
    · rw [FirstOrLater] at hf
      split_ifs at hf with hindex
      · simp [hf.1] at hid
      · rw [List.map_append, List.map_singleton, ← List.concat_eq_append, List.nodup_concat]
        refine ⟨fun hmem => hindex ?_, ih h⟩
        exact List.map_subset _ (fun g hg => mem_of_mem_startFragments hg) hmem
    · simpa using ih h

lemma nodup_id (h : OneIndexEach fragments) :
    ((startFragments fragments).map (·.id)).Nodup := by
  induction fragments using List.reverseRecOn with
  | nil => exact List.nodup_nil
  | append_singleton fragments f ih =>
    obtain ⟨h, hf⟩ := concat.mp h
    rw [startFragments_concat]
    split_ifs with hid
    · rw [FirstOrLater] at hf
      split_ifs at hf with hindex
      · simp [hf.1] at hid
      · rw [List.map_append, List.map_singleton, ← List.concat_eq_append, List.nodup_concat]
        refine ⟨fun hmem => hf.2.2 ?_, ih h⟩
        exact List.map_subset _ (fun g hg => mem_of_mem_startFragments hg) hmem
    · simpa using ih h

/-- The call of every fragment has begun. -/
lemma exists_start (h : OneIndexEach fragments) (hf : f ∈ fragments) :
    ∃ g ∈ startFragments fragments, g.index = f.index := by
  induction fragments using List.reverseRecOn generalizing f with
  | nil => cases hf
  | append_singleton fragments e ih =>
    obtain ⟨hinit, he⟩ := concat.mp h
    rw [startFragments_concat]
    rcases List.mem_append.mp hf with hf | hf
    · obtain ⟨g, hg, hindex⟩ := ih hinit hf
      exact ⟨g, List.mem_append_left _ hg, hindex⟩
    · rw [List.mem_singleton.mp hf]
      rw [FirstOrLater] at he
      split_ifs at he with hindex
      · obtain ⟨f', hf', heq⟩ := List.mem_map.mp hindex
        obtain ⟨g, hg, hg'⟩ := ih hinit hf'
        exact ⟨g, List.mem_append_left _ hg, hg'.trans heq⟩
      · exact ⟨e, by simp [he.1], rfl⟩

/-- A call is known by its id. -/
lemma eq_of_id_eq (h : OneIndexEach fragments) {g' : ToolCallFragment}
    (hg : g ∈ startFragments fragments) (hg' : g' ∈ startFragments fragments)
    (hid : g.id = g'.id) : g = g' :=
  List.inj_on_of_nodup_map h.nodup_id hg hg' hid

lemma eq_of_call_id_eq (h : OneIndexEach fragments) {g' : ToolCallFragment}
    {fragments' : List ToolCallFragment} (hg : g ∈ startFragments fragments)
    (hg' : g' ∈ startFragments fragments)
    (hid : (callOf fragments g).id = (callOf fragments' g').id) : g = g' := by
  obtain ⟨id, hsome⟩ := Option.isSome_iff_exists.mp (List.mem_filter.mp hg).2
  obtain ⟨id', hsome'⟩ := Option.isSome_iff_exists.mp (List.mem_filter.mp hg').2
  apply h.eq_of_id_eq hg hg'
  simpa [callOf, hsome, hsome'] using hid

end OneIndexEach

/-! ### What is emitted -/

lemma messageEnd_not_mem_flushCall : .messageEnd ∉ flushCall current := by
  cases current with
  | none => simp [flushCall]
  | some call => simp [flushCall]

lemma messageEnd_mem_runCalls : .messageEnd ∈ (runCalls none signals).1 ↔ .done ∈ signals := by
  induction signals using List.reverseRecOn with
  | nil => simp [runCalls]
  | append_singleton signals signal ih =>
    rw [runCalls_concat, List.mem_append, ih, List.mem_append, List.mem_singleton]
    apply or_congr_right
    cases signal with
    | fragment f =>
      rw [stepCalls]
      cases f.id with
      | none => simp
      | some id => simp [messageEnd_not_mem_flushCall]
    | finish => simp [stepCalls, messageEnd_not_mem_flushCall]
    | done => simp [stepCalls]

lemma beforeEnd_flushCall (h : EachAfter BeforeEndAt marks)
    (hend : current ≠ none → .messageEnd ∉ marks) :
    EachAfter BeforeEndAt (marks ++ flushCall current) := by
  cases current with
  | none => simpa [flushCall] using h
  | some call =>
    rw [flushCall]
    split_ifs
    · simpa using h
    · exact EachAfter.concat.mpr ⟨h, hend (by simp)⟩

lemma not_beforeEnd {marks' : List CallMark} (hend : .messageEnd ∈ marks)
    (hcall : .call c ∈ marks') : ¬ EachAfter BeforeEndAt (marks ++ marks') := by
  intro h
  obtain ⟨before, after, rfl⟩ := List.append_of_mem hcall
  rw [← List.append_assoc] at h
  exact h.cons_of_append (List.mem_append_left _ hend)

/-- A call without an id is never emitted. -/
lemma id_ne_empty_of_mem_runCalls (h : .call c ∈ (runCalls current signals).1) : c.id ≠ "" := by
  induction signals generalizing current with
  | nil => cases h
  | cons signal signals ih =>
    rw [runCalls] at h
    rcases List.mem_append.mp h with h | h
    · cases signal with
      | fragment f =>
        rw [stepCalls] at h
        cases hid : f.id with
        | none => simp [hid] at h
        | some id => exact (mem_flushCall.mp (by simpa [hid] using h)).2
      | finish => exact (mem_flushCall.mp h).2
      | done => simp [stepCalls] at h
    · exact ih h

lemma id_ne_empty_of_mem_callMarks (h : .call c ∈ callMarks signals) : c.id ≠ "" := by
  rcases List.mem_append.mp h with h | h
  · exact id_ne_empty_of_mem_runCalls h
  · exact (mem_flushCall.mp h).2

/-- A call that is kept is emitted in the end. -/
lemma exists_call_of_kept (hid : c.id ≠ "") :
    ∃ c', .call c' ∈ (runCalls (some c) signals).1 ++ flushCall (runCalls (some c) signals).2 := by
  induction signals generalizing c with
  | nil => exact ⟨c, by simpa [runCalls] using mem_flushCall.mpr ⟨rfl, hid⟩⟩
  | cons signal signals ih =>
    have hflush : .call c ∈ flushCall (some c) := mem_flushCall.mpr ⟨rfl, hid⟩
    simp only [runCalls, List.append_assoc]
    cases signal with
    | fragment f =>
      rw [stepCalls]
      cases f.id with
      | none =>
        obtain ⟨c', hc'⟩ := ih (c := { c with arguments := c.arguments ++ f.arguments.getD "" }) hid
        exact ⟨c', List.mem_append_right _ hc'⟩
      | some id => exact ⟨c, List.mem_append_left _ hflush⟩
    | finish => exact ⟨c, List.mem_append_left _ hflush⟩
    | done =>
      obtain ⟨c', hc'⟩ := ih hid
      exact ⟨c', List.mem_append_right _ hc'⟩

lemma callMarks_append : callMarks (signals ++ signals') =
    (runCalls none signals).1 ++ ((runCalls (runCalls none signals).2 signals').1 ++
      flushCall (runCalls (runCalls none signals).2 signals').2) := by
  rw [callMarks, runCalls_append, List.append_assoc]

/-! ### Streams in turn -/

/-- The calls that began are those that were emitted and the one that is kept, with all that has
come of them. -/
def Kept (signals : List CallSignal) : Prop :=
  ((runCalls none signals).2 = none ∧ openIndex signals = none ∧
    callsOf (runCalls none signals).1 = expectedCalls (fragmentsOf signals)) ∨
  ∃ closed g, (runCalls none signals).2 = some (callOf (fragmentsOf signals) g) ∧
    openIndex signals = some g.index ∧
    startFragments (fragmentsOf signals) = closed ++ [g] ∧
    callsOf (runCalls none signals).1 = closed.map (callOf (fragmentsOf signals))

lemma openIndex_concat {signal : CallSignal} : openIndex (signals ++ [signal]) =
    match signal with
    | .fragment f => if f.id.isSome then some f.index else openIndex signals
    | .finish => none
    | .done => openIndex signals := by
  rw [openIndex, List.foldl_append]
  cases signal <;> rfl

namespace InTurn

lemma concat {signal : CallSignal} :
    InTurn (signals ++ [signal]) ↔ InTurn signals ∧ InTurnAt signals signal :=
  EachAfter.concat

lemma openIndex_eq_none (h : InTurn signals) (hdone : .done ∈ signals) :
    openIndex signals = none := by
  induction signals using List.reverseRecOn with
  | nil => rfl
  | append_singleton signals signal ih =>
    obtain ⟨hinit, hsignal⟩ := concat.mp h
    rw [openIndex_concat]
    cases signal with
    | fragment f =>
      have hdone' : .done ∈ signals := by simpa using hdone
      rw [InTurnAt] at hsignal
      dsimp only
      split_ifs at hsignal ⊢ with hid
      · exact absurd hdone' hsignal.2
      · exact ih hinit hdone'
    | finish => rfl
    | done => exact hsignal

lemma id_ne_empty (h : InTurn signals) (hg : g ∈ startFragments (fragmentsOf signals)) :
    g.id.getD "" ≠ "" := by
  induction signals using List.reverseRecOn with
  | nil => simp [fragmentsOf, startFragments] at hg
  | append_singleton signals signal ih =>
    obtain ⟨hinit, hsignal⟩ := concat.mp h
    cases signal with
    | fragment f =>
      rw [fragmentsOf_concat_fragment, startFragments_concat] at hg
      rcases List.mem_append.mp hg with hg | hg
      · exact ih hinit hg
      · rw [InTurnAt] at hsignal
        split_ifs at hg hsignal with hid
        · obtain rfl := List.mem_singleton.mp hg
          obtain ⟨id, hsome⟩ := Option.isSome_iff_exists.mp hid
          rw [hsome] at hsignal ⊢
          simpa using hsignal.1
        · cases hg
    | finish => exact ih hinit (by simpa [fragmentsOf] using hg)
    | done => exact ih hinit (by simpa [fragmentsOf] using hg)

end InTurn

/-- A fragment of another call leaves a call as it is. -/
lemma callOf_concat_of_ne (h : f.index ≠ g.index) :
    callOf (fragments ++ [f]) g = callOf fragments g := by
  rw [callOf, inputOf_concat, if_neg h, String.append_empty]
  rfl

lemma callOf_concat_of_empty (h : f.arguments.getD "" = "") :
    callOf (fragments ++ [f]) g = callOf fragments g := by
  rw [callOf, inputOf_concat, h, ite_self, String.append_empty]
  rfl

lemma map_callOf_concat {calls : List ToolCallFragment} (h : ∀ g ∈ calls, f.index ≠ g.index) :
    calls.map (callOf (fragments ++ [f])) = calls.map (callOf fragments) := by
  apply List.map_congr_left
  intro g hg
  exact callOf_concat_of_ne (h g hg)

lemma callsOf_flushCall_callOf (h : g.id.getD "" ≠ "") :
    callsOf (flushCall (some (callOf fragments g))) = [callOf fragments g] := by
  have hid : (callOf fragments g).id.isEmpty = false := by simpa [callOf] using h
  simp [flushCall, hid, callsOf]

namespace Kept

/-- With the call that is kept all that began are emitted. -/
lemma callsOf_flushCall (h : Kept signals) (hturn : InTurn signals) :
    callsOf ((runCalls none signals).1 ++ flushCall (runCalls none signals).2) =
      expectedCalls (fragmentsOf signals) := by
  rw [callsOf_append]
  rcases h with ⟨hcurrent, -, hcalls⟩ | ⟨closed, g, hcurrent, -, hstart, hcalls⟩
  · rw [hcurrent, hcalls]
    exact List.append_nil _
  · have hid : g.id.getD "" ≠ "" := hturn.id_ne_empty (by simp [hstart])
    rw [hcurrent, hcalls, callsOf_flushCall_callOf hid, expectedCalls, hstart, List.map_append,
      List.map_singleton]

lemma openIndex_ne_none (h : Kept signals) (hcurrent : (runCalls none signals).2 ≠ none) :
    openIndex signals ≠ none := by
  rcases h with ⟨hnone, -⟩ | ⟨-, g, -, hopen, -⟩
  · exact absurd hnone hcurrent
  · simp [hopen]

/-- A call starts. -/
lemma start (h : Kept signals) (hturn : InTurn signals) (hid : f.id.isSome)
    (hone : OneIndexEach (fragmentsOf signals ++ [f])) : Kept (signals ++ [.fragment f]) := by
  obtain ⟨hinit, hf⟩ := OneIndexEach.concat.mp hone
  rw [FirstOrLater] at hf
  split_ifs at hf with hindex
  · simp [hf.1] at hid
  have hfresh : ∀ g ∈ startFragments (fragmentsOf signals), f.index ≠ g.index := by
    intro g hg heq
    exact hindex (heq ▸ List.mem_map_of_mem (mem_of_mem_startFragments hg))
  obtain ⟨id, hsome⟩ := Option.isSome_iff_exists.mp hid
  refine .inr ⟨startFragments (fragmentsOf signals), f, ?_, ?_, ?_, ?_⟩
  · rw [runCalls_concat, fragmentsOf_concat_fragment, callOf, inputOf_concat,
      inputOf_eq_empty hindex, stepCalls, hsome]
    simp
  · rw [openIndex_concat]
    exact if_pos hid
  · rw [fragmentsOf_concat_fragment, startFragments_concat, if_pos hid]
  · rw [runCalls_concat, fragmentsOf_concat_fragment, map_callOf_concat hfresh, ← expectedCalls,
      ← h.callsOf_flushCall hturn, stepCalls, hsome]

/-- Arguments come for the call that is open. -/
lemma continue_open (h : Kept signals) (hid : f.id = none)
    (hopen : f.arguments.getD "" ≠ "" → openIndex signals = some f.index)
    (hone : OneIndexEach (fragmentsOf signals)) : Kept (signals ++ [.fragment f]) := by
  have hstart : startFragments (fragmentsOf signals ++ [f]) =
      startFragments (fragmentsOf signals) := by
    rw [startFragments_concat, hid]
    exact List.append_nil _
  have hindex : openIndex (signals ++ [.fragment f]) = openIndex signals := by
    rw [openIndex_concat]
    exact if_neg (by simp [hid])
  have hmarks : (runCalls none (signals ++ [.fragment f])).1 = (runCalls none signals).1 := by
    rw [runCalls_concat, stepCalls, hid]
    exact List.append_nil _
  have hcurrent : (runCalls none (signals ++ [.fragment f])).2 =
      (runCalls none signals).2.map fun call =>
        { call with arguments := call.arguments ++ f.arguments.getD "" } := by
    rw [runCalls_concat, stepCalls, hid]
  rw [Kept, hmarks, hindex, hcurrent, fragmentsOf_concat_fragment, hstart, expectedCalls, hstart]
  by_cases hempty : f.arguments.getD "" = ""
  · have hcall : callOf (fragmentsOf signals ++ [f]) = callOf (fragmentsOf signals) :=
      funext fun _ => callOf_concat_of_empty hempty
    rw [hcall, hempty]
    simpa [Kept, expectedCalls] using h
  · rcases h with ⟨-, hnone, -⟩ | ⟨closed, g, hsome, hg, hcalls, hclosed⟩
    · simp [hopen hempty] at hnone
    · have heq : f.index = g.index := Option.some.inj ((hopen hempty).symm.trans hg)
      have hdisjoint : ∀ g' ∈ closed, f.index ≠ g'.index := by
        intro g' hg' heq'
        have hnodup := hone.nodup_index
        rw [hcalls, List.map_append, List.nodup_append] at hnodup
        exact hnodup.2.2 g'.index (List.mem_map_of_mem hg') g.index (by simp) (heq'.symm.trans heq)
      refine .inr ⟨closed, g, ?_, hg, hcalls, ?_⟩
      · rw [hsome, callOf, callOf, inputOf_concat, if_pos heq]
        rfl
      · rw [hclosed, map_callOf_concat hdisjoint]

end Kept

/-- In a stream in turn the calls are kept well. -/
lemma InTurn.kept (h : InTurn signals) (hone : OneIndexEach (fragmentsOf signals)) :
    Kept signals := by
  induction signals using List.reverseRecOn with
  | nil => exact .inl ⟨rfl, rfl, rfl⟩
  | append_singleton signals signal ih =>
    obtain ⟨hinit, hsignal⟩ := concat.mp h
    cases signal with
    | fragment f =>
      rw [fragmentsOf_concat_fragment] at hone
      have hkept := ih hinit (OneIndexEach.concat.mp hone).1
      rw [InTurnAt] at hsignal
      split_ifs at hsignal with hid
      · exact hkept.start hinit hid hone
      · exact hkept.continue_open (by simpa using hid) hsignal (OneIndexEach.concat.mp hone).1
    | finish =>
      have hkept := ih hinit (by simpa [fragmentsOf] using hone)
      refine .inl ⟨by rw [runCalls_concat, stepCalls], by rw [openIndex_concat], ?_⟩
      rw [runCalls_concat, stepCalls, hkept.callsOf_flushCall hinit]
      simp [fragmentsOf]
    | done =>
      have hkept := ih hinit (by simpa [fragmentsOf] using hone)
      rw [InTurnAt] at hsignal
      rcases hkept with ⟨hcurrent, hopen, hcalls⟩ | ⟨-, g, -, hopen, -⟩
      · refine .inl ⟨?_, ?_, ?_⟩
        · rw [runCalls_concat, stepCalls, hcurrent]
        · rw [openIndex_concat, hopen]
        · rw [runCalls_concat, stepCalls, callsOf_append, hcalls]
          simp [fragmentsOf, callsOf]
      · simp [hopen] at hsignal

/-- Behind `[DONE]` no call is kept. -/
lemma InTurn.messageEnd_not_mem (h : InTurn signals) (hone : OneIndexEach (fragmentsOf signals))
    (hcurrent : (runCalls none signals).2 ≠ none) : .messageEnd ∉ (runCalls none signals).1 := by
  rw [messageEnd_mem_runCalls]
  intro hdone
  exact (h.kept hone).openIndex_ne_none hcurrent (h.openIndex_eq_none hdone)

lemma InTurn.beforeEnd (h : InTurn signals) (hone : OneIndexEach (fragmentsOf signals)) :
    EachAfter BeforeEndAt (runCalls none signals).1 := by
  induction signals using List.reverseRecOn with
  | nil => exact EachAfter.nil
  | append_singleton signals signal ih =>
    have hinit := (concat.mp h).1
    have hone' : OneIndexEach (fragmentsOf signals) := by
      rw [fragmentsOf, List.filterMap_append] at hone
      exact hone.of_append
    have hmarks := ih hinit hone'
    have hflush := beforeEnd_flushCall hmarks (hinit.messageEnd_not_mem hone')
    rw [runCalls_concat]
    cases signal with
    | fragment f =>
      rw [stepCalls]
      cases f.id with
      | none => simpa using hmarks
      | some id => exact hflush
    | finish => exact hflush
    | done => exact EachAfter.concat.mpr ⟨hmarks, trivial⟩

lemma InTurn.reassembled (h : InTurn signals) (hone : OneIndexEach (fragmentsOf signals)) :
    Reassembled (callMarks signals) (fragmentsOf signals) := by
  refine ⟨?_, beforeEnd_flushCall (h.beforeEnd hone) (h.messageEnd_not_mem hone)⟩
  rw [callMarks, (h.kept hone).callsOf_flushCall h]

/-! ### Streams out of turn -/

namespace Reassembled

variable {later : List CallSignal}

/-- Every call has an id that is not empty. -/
lemma id_ne_empty (h : Reassembled (callMarks signals) (fragmentsOf signals))
    (hg : g ∈ startFragments (fragmentsOf signals)) : g.id.getD "" ≠ "" := by
  have hcall : callOf (fragmentsOf signals) g ∈ callsOf (callMarks signals) :=
    h.1.mem_iff.mpr (List.mem_map_of_mem hg)
  exact id_ne_empty_of_mem_callMarks (mem_callsOf.mp hcall)

/-- No call is kept behind the end of the message. -/
lemma kept_eq_none (h : Reassembled (callMarks (earlier ++ later)) fragments)
    (hdone : .messageEnd ∈ (runCalls none earlier).1) :
    ∀ c, (runCalls none earlier).2 = some c → c.id = "" := by
  intro c hc
  by_contra hid
  have hend := h.2
  rw [callMarks_append, hc] at hend
  obtain ⟨c', hc'⟩ := exists_call_of_kept hid
  exact not_beforeEnd hdone hc' hend

end Reassembled

/-- A call that is not open was emitted. -/
lemma Kept.mem_callsOf (h : Kept signals) (hg : g ∈ startFragments (fragmentsOf signals))
    (hopen : openIndex signals ≠ some g.index) :
    callOf (fragmentsOf signals) g ∈ callsOf (runCalls none signals).1 := by
  rcases h with ⟨-, -, hcalls⟩ | ⟨closed, g', -, hg'open, hstart, hcalls⟩
  · rw [hcalls]
    exact List.mem_map_of_mem hg
  · rw [hcalls]
    apply List.mem_map_of_mem
    rw [hstart] at hg
    rcases List.mem_append.mp hg with hmem | hmem
    · exact hmem
    · rw [List.mem_singleton.mp hmem] at hopen
      exact absurd hg'open hopen

lemma inputOf_ne_of_arguments {later : List ToolCallFragment} (h : f.arguments.getD "" ≠ "") :
    inputOf f.index (fragments ++ f :: later) ≠ inputOf f.index fragments := by
  intro heq
  rw [← List.singleton_append, ← List.append_assoc, inputOf_append, inputOf_concat, if_pos rfl]
    at heq
  have hlength := congrArg String.length heq
  simp only [String.length_append] at hlength
  exact h (String.length_eq_zero_iff.mp (by omega))

/-- Arguments for a call that is not open are lost to it. -/
lemma not_reassembled_of_closed {later : List CallSignal} (hkept : Kept earlier)
    (hone : OneIndexEach (fragmentsOf (earlier ++ .fragment f :: later))) (hid : f.id = none)
    (hempty : f.arguments.getD "" ≠ "") (hopen : openIndex earlier ≠ some f.index) :
    ¬ Reassembled (callMarks (earlier ++ .fragment f :: later))
      (fragmentsOf (earlier ++ .fragment f :: later)) := by
  have happend : fragmentsOf (earlier ++ .fragment f :: later) =
      fragmentsOf earlier ++ f :: fragmentsOf later := by
    simp [fragmentsOf]
  rw [happend] at hone ⊢
  have hone' : OneIndexEach (fragmentsOf earlier ++ [f]) := by
    rw [← List.singleton_append, ← List.append_assoc] at hone
    exact hone.of_append
  obtain ⟨g, hg, hindex⟩ := hone'.exists_start (List.mem_append_right _ List.mem_cons_self)
  have hg' : g ∈ startFragments (fragmentsOf earlier) := by
    simpa [startFragments_concat, hid] using hg
  intro h
  have hcall : callOf (fragmentsOf earlier) g ∈
      expectedCalls (fragmentsOf earlier ++ f :: fragmentsOf later) := by
    apply h.1.mem_iff.mp
    rw [callMarks_append, callsOf_append]
    exact List.mem_append_left _ (hkept.mem_callsOf hg' (by rwa [hindex]))
  obtain ⟨g', hg'', heq⟩ := List.mem_map.mp hcall
  have hsame : g' = g := by
    apply hone.eq_of_call_id_eq hg'' _ (congrArg ToolCallAccumulator.id heq)
    rw [startFragments, List.filter_append]
    exact List.mem_append_left _ hg'
  have hinput := congrArg ToolCallAccumulator.arguments heq
  rw [hsame, callOf, callOf, hindex] at hinput
  exact inputOf_ne_of_arguments hempty hinput

/-- A call without an id, or one that starts behind `[DONE]`. -/
lemma not_reassembled_of_start {later : List CallSignal} (hid : f.id.isSome)
    (h : ¬ (f.id ≠ some "" ∧ .done ∉ earlier)) :
    ¬ Reassembled (callMarks (earlier ++ .fragment f :: later))
      (fragmentsOf (earlier ++ .fragment f :: later)) := by
  intro hre
  obtain ⟨id, hsome⟩ := Option.isSome_iff_exists.mp hid
  have hmem : f ∈ startFragments (fragmentsOf (earlier ++ .fragment f :: later)) := by
    simp [startFragments, fragmentsOf, hid]
  have hne : id ≠ "" := by simpa [hsome] using hre.id_ne_empty hmem
  have hdone : .done ∈ earlier ++ [.fragment f] := by
    simpa [hsome, hne] using h
  rw [← List.singleton_append, ← List.append_assoc] at hre
  apply hne
  apply hre.kept_eq_none (messageEnd_mem_runCalls.mpr hdone)
    ⟨id, f.name.getD "", "" ++ f.arguments.getD ""⟩
  rw [runCalls_concat, stepCalls, hsome]
  rfl

lemma not_reassembled_of_done {later : List CallSignal} (hkept : Kept earlier)
    (hturn : InTurn earlier) (h : openIndex earlier ≠ none) :
    ¬ Reassembled (callMarks (earlier ++ .done :: later)) fragments := by
  intro hre
  rw [← List.singleton_append, ← List.append_assoc] at hre
  rcases hkept with ⟨-, hnone, -⟩ | ⟨closed, g, hcurrent, -, hstart, -⟩
  · exact h hnone
  · have hid : g.id.getD "" ≠ "" := hturn.id_ne_empty (by simp [hstart])
    apply hid
    apply hre.kept_eq_none (messageEnd_mem_runCalls.mpr (by simp)) (callOf (fragmentsOf earlier) g)
    rw [runCalls_concat, stepCalls, hcurrent]

/-- The calls are put together exactly when they come in turn. -/
lemma reassembled_callMarks_iff (hone : OneIndexEach (fragmentsOf signals)) :
    Reassembled (callMarks signals) (fragmentsOf signals) ↔ InTurn signals := by
  constructor
  · intro hre
    by_contra h
    obtain ⟨earlier, signal, later, rfl, hearlier, hsignal⟩ := EachAfter.exists_first h
    have hone' : OneIndexEach (fragmentsOf earlier) := by
      rw [fragmentsOf, List.filterMap_append] at hone
      exact hone.of_append
    have hkept := InTurn.kept hearlier hone'
    cases signal with
    | fragment f =>
      rw [InTurnAt] at hsignal
      split_ifs at hsignal with hid
      · exact not_reassembled_of_start hid hsignal hre
      · rw [Classical.not_imp] at hsignal
        exact not_reassembled_of_closed hkept hone (by simpa using hid) hsignal.1 hsignal.2 hre
    | finish => exact hsignal trivial
    | done => exact not_reassembled_of_done hkept hearlier hsignal hre
  · exact fun h => h.reassembled hone

end Jcode.OpenRouter
