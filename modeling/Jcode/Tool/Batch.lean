import Jcode.Compaction.Accounting
import Jcode.Foundation.FanOut
import Jcode.Foundation.SortedMap
import Jcode.Provider.Sse

/-!
# The batch tool

`batch` runs up to ten tools at once. Its input is repaired first (`normalize_batch_input`), by the
names of keys: parameters may stand beside the name of the tool, or under a name that is not theirs.
The fields of an object are a sorted map.
-/

namespace Jcode

open FanOut Schedule

namespace Batch

abbrev Fields := List (String × Json)

/-! ### The repair of the input -/

def parameterAliases : List String := ["arguments", "args", "input"]

/-- "name" used instead of "tool" -/
def takeName (obj : Fields) : Fields :=
  match SortedMap.get "tool" obj with
  | some _ => obj
  | none =>
    match SortedMap.get "name" obj with
    | none => obj
    | some name => SortedMap.insert "tool" name (SortedMap.erase "name" obj)

/-- The first of the aliases that there is. -/
def findAlias (obj : Fields) : Option (String × Json) :=
  parameterAliases.findSome? fun key => (SortedMap.get key obj).map (key, ·)

def takeAlias (obj : Fields) : Fields :=
  match SortedMap.get "parameters" obj with
  | some _ => obj
  | none =>
    match findAlias obj with
    | none => obj
    | some (key, value) => SortedMap.insert "parameters" value (SortedMap.erase key obj)

/-- The fields move from the call to its parameters. -/
def moveKeys (keys : List String) (obj params : Fields) : Fields × Fields :=
  keys.foldl
    (fun acc key =>
      match SortedMap.get key acc.1 with
      | none => acc
      | some value => (SortedMap.erase key acc.1, SortedMap.insert key value acc.2))
    (obj, params)

/-- Parameters at the same level as "tool" -/
def takeFlat (obj : Fields) : Fields :=
  match SortedMap.get "parameters" obj, SortedMap.get "tool" obj with
  | none, some name =>
    let keys := (obj.map Prod.fst).filter (· ≠ "tool")
    let (obj, params) := moveKeys keys obj []
    let obj := if params = [] then obj else SortedMap.insert "parameters" (.object params) obj
    SortedMap.insert "tool" name obj
  | _, _ => obj

def normalizeCall : Json → Json
  | .object obj => .object (takeFlat (takeAlias (takeName obj)))
  | call => call

def normalizeBatchInput : Json → Json
  | .object input =>
    match SortedMap.get "tool_calls" input with
    | some (.array calls) =>
      .object (SortedMap.insert "tool_calls" (.array (calls.map normalizeCall)) input)
    | _ => .object input
  | input => input

/-! ### The decoded input -/

structure ToolCallInput where
  tool : String
  parameters : Option Json

/-- A null is no parameters. -/
def nonNull : Json → Option Json
  | .null => none
  | value => some value

/-- A tool has its name under one of two keys; both are a duplicate field. Structures are read from
arrays as well. -/
def decodeCall : Json → Option ToolCallInput
  | .object obj =>
    let tool :=
      match SortedMap.get "tool" obj, SortedMap.get "name" obj with
      | some tool, none | none, some tool => tool.asStr
      | _, _ => none
    tool.map fun tool => ⟨tool, (SortedMap.get "parameters" obj).bind nonNull⟩
  | .array [tool] => tool.asStr.map fun tool => ⟨tool, none⟩
  | .array [tool, parameters] => tool.asStr.map fun tool => ⟨tool, nonNull parameters⟩
  | _ => none

def decodeBatchInput (input : Json) : Option (List ToolCallInput) :=
  let toolCalls :=
    match input with
    | .object input => SortedMap.get "tool_calls" input
    | .array [toolCalls] => some toolCalls
    | _ => none
  (toolCalls.bind Json.asArray).bind fun calls => calls.mapM decodeCall

def ToolCallInput.resolvedParameters (call : ToolCallInput) : String × Json :=
  match call.parameters with
  | some params => (call.tool, params)
  | none => (call.tool, .object [])

/-! ### The run -/

def maxParallel : Nat := 10

inductive Error
  | invalid
  | noToolCalls
  | tooMany
  | nested
deriving DecidableEq

/-- The text of a value that does not decode is the decoder's. -/
def Error.message : Error → Option String
  | .invalid => none
  | .noToolCalls => some "No tool calls provided"
  | .tooMany => some s!"Maximum {maxParallel} parallel tool calls allowed"
  | .nested => some "Cannot batch the 'batch' tool"

/-- What the registry is asked to execute. -/
structure Subcall where
  index : Nat
  toolName : String
  parameters : Json

/-- The id of a subcall in the context it is executed with. -/
def Subcall.toolCallId (call : Subcall) : String :=
  "batch-" ++ toString (call.index + 1) ++ "-" ++ call.toolName

def subcalls (calls : List ToolCallInput) : List Subcall :=
  calls.mapIdx fun i call => ⟨i, call.resolvedParameters.1, call.resolvedParameters.2⟩

def prepare (input : Json) : Except Error (List Subcall) :=
  match decodeBatchInput (normalizeBatchInput input) with
  | none => .error .invalid
  | some calls =>
    if calls = [] then .error .noToolCalls
    else if calls.length > maxParallel then .error .tooMany
    else if calls.any (·.tool = "batch") then .error .nested
    else .ok (subcalls calls)

/-- The text of an error, or the output of the tool. -/
abbrev Result := Except String String

/-- The text of a section, and the counts of what succeeded and failed. -/
structure Report where
  output : String
  successCount : Nat
  errorCount : Nat
deriving DecidableEq

def resultText (numTools : Nat) : Result → String
  | .ok out =>
    let maxPerTool := 50000 / max numTools 1
    if out.utf8ByteSize > maxPerTool then
      truncateStrBoundary out maxPerTool ++ "...\n(truncated)"
    else out
  | .error e => "Error: " ++ e

def Report.push (numTools : Nat) (report : Report) (entry : Subcall × Result) : Report :=
  let output := report.output ++ ("--- [" ++ toString (entry.1.index + 1) ++ "] " ++
    entry.1.toolName ++ " ---\n") ++ resultText numTools entry.2 ++ "\n\n"
  match entry.2 with
  | .ok _ => { report with output := output, successCount := report.successCount + 1 }
  | .error _ => { report with output := output, errorCount := report.errorCount + 1 }

def format (numTools : Nat) (results : List (Subcall × Result)) : String :=
  let report := results.foldl (Report.push numTools) ⟨"", 0, 0⟩
  report.output ++ ("Completed: " ++ toString report.successCount ++ " succeeded, " ++
    toString report.errorCount ++ " failed")

/-- The output of a batch whose subcalls have all ended. -/
def output (calls : List Subcall) (s : FanOut.State Subcall Result) : String :=
  format calls.length (s.gathered Subcall.index)

/-! ### Calls in the flat form -/

/-- A call as the schema has it: parameters stand beside the name of the tool. An object alone under
an alias could be either. -/
structure FlatCall where
  tool : String
  args : Fields
  sorted : SortedMap.Sorted args
  notBatch : tool ≠ "batch"
  notTool : SortedMap.get "tool" args = none
  notParameters : SortedMap.get "parameters" args = none
  unambiguous : ∀ key ∈ parameterAliases, ∀ obj, args ≠ [(key, .object obj)]

namespace FlatCall

variable (call : FlatCall)

def fields : Fields := SortedMap.insert "tool" (.string call.tool) call.args

def json : Json := .object call.fields

/-- What is to be executed for the call at a place. -/
def subcall (i : Nat) : Subcall := ⟨i, call.tool, .object call.args⟩

/-- No parameter has the name of an alias. -/
def NoAlias : Prop := ∀ key ∈ parameterAliases, SortedMap.get key call.args = none

end FlatCall

def sectionText (numTools i : Nat) (tool : String) (result : Result) : String :=
  ("--- [" ++ toString (i + 1) ++ "] " ++ tool ++ " ---\n") ++ resultText numTools result ++ "\n\n"

def summary (results : List Result) : String :=
  "Completed: " ++ toString (results.countP Except.isOk) ++ " succeeded, " ++
    toString (results.countP (¬ ·.isOk)) ++ " failed"

/-- In whichever order the subcalls end, each call is executed once with its own arguments, and the
sections report what the calls end with, in order. The repair of the input is one of its own. -/
def Delivers (input : Json) (calls : List FlatCall) : Prop :=
  (∃ subs, prepare input = .ok subs ∧
    ∀ labels s, exec (FanOut.step Subcall.index) (FanOut.start subs) labels = some s → s.Done →
      s.started.Perm (calls.mapIdx fun i call => call.subcall i) ∧
        ∃ results : List Result, results.length = calls.length ∧
          (∀ i result, results[i]? = some result → .finish i result ∈ labels) ∧
            output subs s = String.join ((calls.zip results).mapIdx fun i x =>
              sectionText calls.length i x.1.tool x.2) ++ summary results) ∧
    normalizeBatchInput (normalizeBatchInput input) = normalizeBatchInput input

/-! ### What the repair does -/

section

variable {obj params : Fields} {key k : String} {value : Json}

lemma findAlias_eq_none : findAlias obj = none ↔
    ∀ key ∈ parameterAliases, SortedMap.get key obj = none := by
  simp [findAlias, List.findSome?_eq_none_iff]

lemma of_findAlias_eq_some (h : findAlias obj = some (key, value)) :
    key ∈ parameterAliases ∧ SortedMap.get key obj = some value := by
  obtain ⟨key', hmem, hkey⟩ := List.exists_of_findSome?_eq_some h
  obtain ⟨value', hget, heq⟩ := Option.map_eq_some_iff.1 hkey
  cases heq
  exact ⟨hmem, hget⟩

/-- The aliases are none of the keys that the repair or the decoding looks for. -/
lemma ne_of_mem_aliases (h : key ∈ parameterAliases) :
    key ≠ "tool" ∧ key ≠ "name" ∧ key ≠ "parameters" := by
  simp only [parameterAliases, List.mem_cons, List.not_mem_nil, or_false] at h
  rcases h with rfl | rfl | rfl <;> decide

/-- What has been moved is gone. -/
lemma get_moveKeys_fst {keys : List String} : SortedMap.get k (moveKeys keys obj params).1 =
    if k ∈ keys then none else SortedMap.get k obj := by
  induction keys generalizing obj params with
  | nil => simp [moveKeys]
  | cons key keys ih =>
    rw [moveKeys, List.foldl_cons, ← moveKeys]
    cases hget : SortedMap.get key obj with
    | none =>
      rw [ih]
      by_cases hk : k = key
      · simp [hk, hget]
      · simp [hk]
    | some value =>
      rw [ih, SortedMap.get_erase]
      by_cases hk : k = key
      · simp [hk]
      · simp [hk, Ne.symm hk]

lemma moveKeys_snd_ne_nil {keys : List String} (h : params ≠ []) :
    (moveKeys keys obj params).2 ≠ [] := by
  induction keys generalizing obj params with
  | nil => exact h
  | cons key keys ih =>
    rw [moveKeys, List.foldl_cons, ← moveKeys]
    cases SortedMap.get key obj with
    | none => exact ih h
    | some value =>
      refine ih fun hnil => ?_
      have hself := SortedMap.get_insert_self (k := key) (v := value) (m := params)
      change SortedMap.insert key value params = [] at hnil
      rw [hnil] at hself
      cases hself

/-- Sorted entries are moved as they are. -/
lemma moveKeys_snd {entries : Fields} (hsorted : SortedMap.Sorted entries)
    (hget : ∀ e ∈ entries, SortedMap.get e.1 obj = some e.2)
    (hlt : ∀ e ∈ params, ∀ e' ∈ entries, e.1 < e'.1) :
    (moveKeys (entries.map Prod.fst) obj params).2 = params ++ entries := by
  induction entries generalizing obj params with
  | nil => simp [moveKeys]
  | cons e entries ih =>
    obtain ⟨hhead, htail⟩ := List.pairwise_cons.1 hsorted
    obtain ⟨he, hentries⟩ := List.forall_mem_cons.1 hget
    rw [List.map_cons, moveKeys, List.foldl_cons, ← moveKeys, he]
    have hparams : ∀ e' ∈ params, e'.1 < e.1 := fun e' he' => hlt e' he' e List.mem_cons_self
    simp only
    rw [SortedMap.insert_of_forall_lt hparams, ih htail, List.append_assoc]
    · rfl
    · intro e' he'
      rw [SortedMap.get_erase, if_neg (hhead e' he').ne, hentries e' he']
    · intro e₁ he₁ e₂ he₂
      rcases List.mem_append.1 he₁ with he₁ | he₁
      · exact hlt e₁ he₁ e₂ (List.mem_cons_of_mem _ he₂)
      · obtain rfl := List.mem_singleton.1 he₁
        exact hhead e₂ he₂

/-- Nothing is left to be repaired. -/
structure Repaired (obj : Fields) : Prop where
  name : SortedMap.get "tool" obj = none → SortedMap.get "name" obj = none
  parameters : SortedMap.get "parameters" obj = none → findAlias obj = none ∧ takeFlat obj = obj

lemma takeName_of_name (h : SortedMap.get "tool" obj = none → SortedMap.get "name" obj = none) :
    takeName obj = obj := by
  rw [takeName]
  cases htool : SortedMap.get "tool" obj with
  | some _ => rfl
  | none => rw [h htool]

lemma takeAlias_of_parameters (h : SortedMap.get "parameters" obj = none → findAlias obj = none) :
    takeAlias obj = obj := by
  rw [takeAlias]
  cases hparams : SortedMap.get "parameters" obj with
  | some _ => rfl
  | none => rw [h hparams]

lemma takeFlat_of_parameters (h : SortedMap.get "parameters" obj ≠ none) : takeFlat obj = obj := by
  rw [takeFlat]
  cases hparams : SortedMap.get "parameters" obj with
  | some _ => rfl
  | none => exact absurd hparams h

lemma takeFlat_of_tool (h : SortedMap.get "tool" obj = none) : takeFlat obj = obj := by
  rw [takeFlat, h]
  cases SortedMap.get "parameters" obj <;> rfl

lemma Repaired.eq (h : Repaired obj) : takeFlat (takeAlias (takeName obj)) = obj := by
  rw [takeName_of_name h.name, takeAlias_of_parameters fun hnone => (h.parameters hnone).1]
  by_cases hparams : SortedMap.get "parameters" obj = none
  · exact (h.parameters hparams).2
  · exact takeFlat_of_parameters hparams

lemma takeName_name (h : SortedMap.get "tool" (takeName obj) = none) :
    SortedMap.get "name" (takeName obj) = none := by
  rw [takeName] at *
  cases htool : SortedMap.get "tool" obj with
  | some _ => simp [htool] at h
  | none =>
    cases hname : SortedMap.get "name" obj with
    | some _ => simp [htool, hname] at h
    | none => simp [hname]

/-- An alias that is taken leaves the keys of the tool alone. -/
lemma get_takeAlias (hk : k ∉ parameterAliases) (hparams : k ≠ "parameters") :
    SortedMap.get k (takeAlias obj) = SortedMap.get k obj := by
  rw [takeAlias]
  cases SortedMap.get "parameters" obj with
  | some _ => rfl
  | none =>
    cases halias : findAlias obj with
    | none => rfl
    | some found =>
      have hne : found.1 ≠ k := fun heq => hk (heq ▸ (of_findAlias_eq_some halias).1)
      simp only
      rw [SortedMap.get_insert_of_ne hparams.symm, SortedMap.get_erase, if_neg hne]

lemma takeAlias_parameters (h : SortedMap.get "parameters" (takeAlias obj) = none) :
    takeAlias obj = obj ∧ findAlias obj = none := by
  rw [takeAlias] at *
  cases hparams : SortedMap.get "parameters" obj with
  | some _ => simp [hparams] at h
  | none =>
    cases halias : findAlias obj with
    | none => exact ⟨rfl, rfl⟩
    | some found => simp [hparams, halias] at h

/-- The fields that are moved are put under their key, if there are any. -/
lemma takeFlat_eq_or (obj : Fields) :
    takeFlat obj = obj ∨ SortedMap.get "parameters" (takeFlat obj) ≠ none ∧
      SortedMap.get "tool" (takeFlat obj) ≠ none := by
  rw [takeFlat]
  cases SortedMap.get "parameters" obj with
  | some _ => exact .inl rfl
  | none =>
    cases htool : SortedMap.get "tool" obj with
    | none => exact .inl rfl
    | some name =>
      cases hkeys : (obj.map Prod.fst).filter (· ≠ "tool") with
      | nil =>
        -- The tool is alone, and is put back where it was.
        have hall : ∀ e ∈ obj, e.1 = "tool" := by simpa using hkeys
        cases obj with
        | nil => cases htool
        | cons e obj =>
          have he : e.1 = "tool" := hall e List.mem_cons_self
          rw [SortedMap.get_cons, if_pos he] at htool
          obtain rfl := Option.some.inj htool
          left
          simp only [moveKeys, List.foldl_nil, if_true]
          rw [SortedMap.insert, if_pos he.symm, ← he]
      | cons key keys =>
        right
        have hmem : key ∈ (obj.map Prod.fst).filter (· ≠ "tool") := hkeys ▸ List.mem_cons_self
        obtain ⟨value, hvalue⟩ : ∃ value, SortedMap.get key obj = some value := by
          obtain ⟨e, he, rfl⟩ := List.mem_map.1 (List.mem_filter.1 hmem).1
          refine Option.ne_none_iff_exists'.1 fun hnone => ?_
          exact SortedMap.get_eq_none_iff.1 hnone e he rfl
        have hne : (moveKeys (key :: keys) obj []).2 ≠ [] := by
          rw [moveKeys, List.foldl_cons, hvalue]
          exact moveKeys_snd_ne_nil (List.cons_ne_nil _ _)
        simp only [hne, if_false]
        rw [SortedMap.get_insert_of_ne (by decide), SortedMap.get_insert_self,
          SortedMap.get_insert_self]
        exact ⟨Option.some_ne_none _, Option.some_ne_none _⟩

lemma repaired (obj : Fields) : Repaired (takeFlat (takeAlias (takeName obj))) := by
  have hname : SortedMap.get "tool" (takeAlias (takeName obj)) = none →
      SortedMap.get "name" (takeAlias (takeName obj)) = none := by
    rw [get_takeAlias (by decide) (by decide), get_takeAlias (by decide) (by decide)]
    exact takeName_name
  rcases takeFlat_eq_or (takeAlias (takeName obj)) with heq | ⟨hparams, htool⟩
  · refine ⟨heq.symm ▸ hname, fun hparams => ?_⟩
    rw [heq] at hparams ⊢
    obtain ⟨halias, hnone⟩ := takeAlias_parameters hparams
    exact ⟨halias.symm ▸ hnone, heq⟩
  · exact ⟨fun hnone => absurd hnone htool, fun hnone => absurd hnone hparams⟩

theorem normalizeBatchInput_idem (input : Json) :
    normalizeBatchInput (normalizeBatchInput input) = normalizeBatchInput input := by
  have hcall : normalizeCall ∘ normalizeCall = normalizeCall := by
    funext call
    cases call with
    | object obj => exact congrArg Json.object (repaired obj).eq
    | _ => rfl
  cases input with
  | object input =>
    rw [normalizeBatchInput]
    split
    next calls hcalls =>
      simp only [normalizeBatchInput, SortedMap.get_insert_self, SortedMap.insert_insert,
        List.map_map]
      rw [hcall]
    next hcalls =>
      rw [normalizeBatchInput]
      split
      next calls hcalls' => exact absurd hcalls' (hcalls calls)
      next => rfl
  | _ => rfl

end

/-! ### What is executed for a call -/

namespace FlatCall

variable {call : FlatCall} {key : String} {value : Json}

/-- An alias hides the other parameters. -/
def parameters (call : FlatCall) : Json :=
  match findAlias call.args with
  | none => .object call.args
  | some (_, value) => (nonNull value).getD (.object [])

lemma get_tool (call : FlatCall) : SortedMap.get "tool" call.fields = some (.string call.tool) :=
  SortedMap.get_insert_self

lemma get_fields (h : key ≠ "tool") :
    SortedMap.get key call.fields = SortedMap.get key call.args :=
  SortedMap.get_insert_of_ne h.symm

lemma findAlias_fields (call : FlatCall) : findAlias call.fields = findAlias call.args := by
  simp only [findAlias, parameterAliases, List.findSome?_cons, List.findSome?_nil]
  rw [get_fields (by decide), get_fields (by decide), get_fields (by decide)]

lemma takeName_fields (call : FlatCall) : takeName call.fields = call.fields :=
  takeName_of_name fun h => by rw [get_tool] at h; cases h

lemma get_parameters (call : FlatCall) : SortedMap.get "parameters" call.fields = none :=
  (get_fields (by decide)).trans call.notParameters

lemma decodeCall_object {obj : Fields} {tool : String}
    (htool : SortedMap.get "tool" obj = some (.string tool)) :
    decodeCall (.object obj) =
      match SortedMap.get "name" obj with
      | none => some ⟨tool, (SortedMap.get "parameters" obj).bind nonNull⟩
      | some _ => none := by
  simp only [decodeCall, htool]
  cases SortedMap.get "name" obj <;> rfl

/-- Without an alias the parameters are all that stands beside the name. -/
lemma decodeCall_of_noAlias (h : findAlias call.args = none) : ∃ input,
    decodeCall (normalizeCall call.json) = some input ∧
      input.resolvedParameters = (call.tool, .object call.args) := by
  have halias : takeAlias call.fields = call.fields :=
    takeAlias_of_parameters fun _ => (findAlias_fields call).trans h
  have hkeys : (call.fields.map Prod.fst).filter (· ≠ "tool") = call.args.map Prod.fst := by
    have herase : SortedMap.erase "tool" call.fields = call.args :=
      SortedMap.erase_insert.trans (SortedMap.erase_of_get_eq_none call.notTool)
    rw [← congrArg (List.map Prod.fst) herase, SortedMap.erase, List.filter_map]
    rfl
  have hparams : (moveKeys (call.args.map Prod.fst) call.fields []).2 = call.args := by
    refine moveKeys_snd call.sorted (fun e he => ?_) fun e he => absurd he List.not_mem_nil
    have hget : SortedMap.get e.1 call.args = some e.2 := call.sorted.get_of_mem he
    rw [get_fields, hget]
    rintro heq
    rw [heq, call.notTool] at hget
    cases hget
  have hname :
      SortedMap.get "name" (moveKeys (call.args.map Prod.fst) call.fields []).1 = none := by
    rw [get_moveKeys_fst, get_fields (by decide)]
    split
    next => rfl
    next hmem =>
      exact SortedMap.get_eq_none_iff.2 fun e he heq => hmem (heq ▸ List.mem_map_of_mem he)
  have hflat : takeFlat call.fields = SortedMap.insert "tool" (.string call.tool)
      (if call.args = [] then (moveKeys (call.args.map Prod.fst) call.fields []).1
      else SortedMap.insert "parameters" (.object call.args)
        (moveKeys (call.args.map Prod.fst) call.fields []).1) := by
    simp only [takeFlat, get_parameters, get_tool, hkeys, hparams]
  have hobj : normalizeCall call.json = .object (takeFlat call.fields) := by
    rw [json, normalizeCall, takeName_fields, halias]
  rw [hobj, hflat, decodeCall_object SortedMap.get_insert_self,
    SortedMap.get_insert_of_ne (by decide), SortedMap.get_insert_of_ne (by decide)]
  split_ifs with hnil
  · rw [hname, get_moveKeys_fst, get_parameters, ite_self, hnil]
    exact ⟨_, rfl, rfl⟩
  · rw [SortedMap.get_insert_of_ne (by decide), hname, SortedMap.get_insert_self]
    exact ⟨_, rfl, rfl⟩

lemma decodeCall_of_alias (h : findAlias call.args = some (key, value)) {input : ToolCallInput}
    (hinput : decodeCall (normalizeCall call.json) = some input) :
    input.resolvedParameters = (call.tool, (nonNull value).getD (.object [])) := by
  have hne := ne_of_mem_aliases (of_findAlias_eq_some h).1
  have halias : takeAlias call.fields =
      SortedMap.insert "parameters" value (SortedMap.erase key call.fields) := by
    simp only [takeAlias, get_parameters, findAlias_fields, h]
  have hflat : takeFlat (takeAlias call.fields) = takeAlias call.fields :=
    takeFlat_of_parameters (by rw [halias, SortedMap.get_insert_self]; exact Option.some_ne_none _)
  have htool : SortedMap.get "tool" (takeAlias call.fields) = some (.string call.tool) := by
    rw [get_takeAlias (by decide) (by decide), get_tool]
  rw [json, normalizeCall, takeName_fields, hflat, decodeCall_object htool] at hinput
  split at hinput
  next =>
    cases hinput
    rw [halias, SortedMap.get_insert_self, Option.bind_some, ToolCallInput.resolvedParameters]
    cases nonNull value <;> rfl
  next => cases hinput

lemma resolvedParameters_eq {input : ToolCallInput}
    (hinput : decodeCall (normalizeCall call.json) = some input) :
    input.resolvedParameters = (call.tool, call.parameters) := by
  rw [parameters]
  cases h : findAlias call.args with
  | none =>
    obtain ⟨input', hinput', heq⟩ := decodeCall_of_noAlias h
    cases hinput.symm.trans hinput'
    exact heq
  | some found => exact decodeCall_of_alias h hinput

/-- Where there is an alias, the parameters are others. -/
lemma parameters_eq_iff : call.parameters = .object call.args ↔ findAlias call.args = none := by
  rw [parameters]
  cases h : findAlias call.args with
  | none => simp
  | some found =>
    obtain ⟨key, value⟩ := found
    have hmem : (key, value) ∈ call.args := SortedMap.mem_of_get (of_findAlias_eq_some h).2
    simp only [reduceCtorEq, iff_false]
    cases value with
    | null =>
      intro heq
      simp [nonNull] at heq
      rw [heq] at hmem
      cases hmem
    | object obj =>
      intro heq
      have hsize := List.sizeOf_lt_of_mem hmem
      simp [nonNull] at heq
      simp [heq] at hsize
      omega
    | _ =>
      intro heq
      simp [nonNull] at heq

end FlatCall

/-! ### What comes out -/

/-- The sections of the entries, and the counts of their results. -/
lemma foldl_push {numTools : Nat} {entries : List (Subcall × Result)} {report : Report} :
    entries.foldl (Report.push numTools) report =
      ⟨report.output ++ String.join (entries.map fun x =>
          sectionText numTools x.1.index x.1.toolName x.2),
        report.successCount + (entries.map Prod.snd).countP Except.isOk,
        report.errorCount + (entries.map Prod.snd).countP (¬ ·.isOk)⟩ := by
  induction entries generalizing report with
  | nil => simp
  | cons x entries ih =>
    obtain ⟨subcall, result⟩ := x
    rw [List.foldl_cons, ih]
    cases result with
    | ok out =>
      simp only [List.map_cons, List.countP_cons, String.join_cons]
      simp [Report.push, sectionText, Except.isOk, Except.toBool, String.append_assoc]
      omega
    | error e =>
      simp only [List.map_cons, List.countP_cons, String.join_cons]
      simp [Report.push, sectionText, Except.isOk, Except.toBool, String.append_assoc]
      omega

lemma format_eq {numTools : Nat} {entries : List (Subcall × Result)} :
    format numTools entries =
      String.join (entries.map fun x => sectionText numTools x.1.index x.1.toolName x.2) ++
        summary (entries.map Prod.snd) := by
  simp [format, foldl_push, summary]

lemma mapIdx_map {α β γ : Type} (l : List α) (f : α → β) (g : Nat → β → γ) :
    (l.map f).mapIdx g = l.mapIdx fun i a => g i (f a) :=
  List.ext_getElem (by simp) (by simp)

lemma pairwise_mapIdx {α : Type} (calls : List α) {f : Nat → α → Subcall}
    (hf : ∀ i call, (f i call).index = i) :
    (calls.mapIdx f).Pairwise fun a b => a.index < b.index := by
  rw [List.pairwise_iff_getElem]
  intro i j hi hj hlt
  rw [List.getElem_mapIdx, List.getElem_mapIdx, hf, hf]
  exact hlt

section

variable {input : Json} {calls : List FlatCall}

lemma resolvedParameters_fst (input : ToolCallInput) : input.resolvedParameters.1 = input.tool := by
  rw [ToolCallInput.resolvedParameters]
  cases input.parameters <;> rfl

lemma mapM_decodeCall {inputs : List ToolCallInput}
    (h : (calls.map FlatCall.json).mapM (decodeCall ∘ normalizeCall) = some inputs) :
    inputs.map ToolCallInput.resolvedParameters =
      calls.map fun call => (call.tool, call.parameters) := by
  induction calls generalizing inputs with
  | nil =>
    cases h
    rfl
  | cons call calls ih =>
    simp only [List.map_cons, List.mapM_cons, Option.bind_eq_bind, Option.bind_eq_some_iff,
      Option.pure_def, Option.some.injEq] at h
    obtain ⟨input, hinput, inputs, hinputs, rfl⟩ := h
    rw [List.map_cons, List.map_cons, ih hinputs, FlatCall.resolvedParameters_eq hinput]

lemma exists_mapM_decodeCall (h : ∀ call ∈ calls, findAlias call.args = none) :
    ∃ inputs, (calls.map FlatCall.json).mapM (decodeCall ∘ normalizeCall) = some inputs := by
  induction calls with
  | nil => exact ⟨[], rfl⟩
  | cons call calls ih =>
    obtain ⟨hcall, hcalls⟩ := List.forall_mem_cons.1 h
    obtain ⟨input, hinput, -⟩ := FlatCall.decodeCall_of_noAlias hcall
    obtain ⟨inputs, hinputs⟩ := ih hcalls
    refine ⟨input :: inputs, ?_⟩
    rw [List.map_cons, List.mapM_cons, hinputs, Function.comp_apply, hinput]
    rfl

/-- A batch of calls in the flat form. -/
structure FlatBatch (input : Json) (calls : List FlatCall) : Prop where
  object : ∃ fields, input = .object fields ∧
    SortedMap.get "tool_calls" fields = some (.array (calls.map FlatCall.json))
  ne_nil : calls ≠ []
  length_le : calls.length ≤ maxParallel

lemma decodeBatchInput_eq (h : FlatBatch input calls) :
    decodeBatchInput (normalizeBatchInput input) =
      (calls.map FlatCall.json).mapM (decodeCall ∘ normalizeCall) := by
  obtain ⟨fields, rfl, hcalls⟩ := h.object
  simp only [normalizeBatchInput, hcalls, decodeBatchInput, SortedMap.get_insert_self,
    Option.bind_some, Json.asArray, List.mapM_map]

/-- What is executed has the parameters that the repair leaves. -/
lemma subcalls_eq {inputs : List ToolCallInput}
    (h : inputs.map ToolCallInput.resolvedParameters =
      calls.map fun call => (call.tool, call.parameters)) :
    subcalls inputs = calls.mapIdx fun i call => ⟨i, call.tool, call.parameters⟩ := by
  have hmap : subcalls inputs =
      (inputs.map ToolCallInput.resolvedParameters).mapIdx fun i x => ⟨i, x.1, x.2⟩ := by
    rw [mapIdx_map, subcalls]
  rw [hmap, h, mapIdx_map]

lemma prepare_eq (h : FlatBatch input calls) {inputs : List ToolCallInput}
    (hinputs : decodeBatchInput (normalizeBatchInput input) = some inputs) :
    prepare input = .ok (calls.mapIdx fun i call => ⟨i, call.tool, call.parameters⟩) := by
  rw [decodeBatchInput_eq h] at hinputs
  have hmap := mapM_decodeCall hinputs
  have hlength : inputs.length = calls.length := by simpa using congrArg List.length hmap
  have hnil : inputs ≠ [] := by
    rintro rfl
    exact h.ne_nil (List.length_eq_zero_iff.1 hlength.symm)
  have hbatch : inputs.any (·.tool = "batch") = false := by
    rw [List.any_eq_false]
    intro input' hinput'
    obtain ⟨call, -, hcall⟩ := List.mem_map.1 (hmap ▸ List.mem_map_of_mem hinput')
    rw [← resolvedParameters_fst, ← hcall]
    simpa using call.notBatch
  rw [prepare, decodeBatchInput_eq h, hinputs]
  simp only [hnil, hlength, hbatch, if_false, subcalls_eq hmap]
  rw [if_neg (Nat.not_lt.2 h.length_le)]
  simp

lemma delivers_of_noAlias (h : FlatBatch input calls)
    (hnone : ∀ call ∈ calls, findAlias call.args = none) : Delivers input calls := by
  obtain ⟨inputs, hinputs⟩ := exists_mapM_decodeCall hnone
  have hsubs : (calls.mapIdx fun i call => (⟨i, call.tool, call.parameters⟩ : Subcall)) =
      calls.mapIdx fun i call => call.subcall i := by
    refine List.mapIdx_eq_mapIdx_iff.2 fun i hi => ?_
    rw [FlatCall.parameters_eq_iff.2 (hnone _ (List.getElem_mem hi)), FlatCall.subcall]
  refine ⟨⟨_, (prepare_eq h ((decodeBatchInput_eq h).trans hinputs)).trans (by rw [hsubs]), ?_⟩,
    normalizeBatchInput_idem input⟩
  intro labels s hs hdone
  have hkept := Kept.exec hs
  have hgathered := hkept.gathered_map_fst hdone (pairwise_mapIdx calls fun _ _ => rfl)
  have hlength : (s.gathered Subcall.index).length = calls.length := by
    simpa using congrArg List.length hgathered
  have hget : ∀ (i : Nat) (x : Subcall × Result), (s.gathered Subcall.index)[i]? = some x →
      ∃ call : FlatCall, calls[i]? = some call ∧ call.subcall i = x.1 := by
    intro i x hx
    have hfst := congrArg (·[i]?) hgathered
    simp only [List.getElem?_map, hx, Option.map_some, List.getElem?_mapIdx] at hfst
    exact Option.map_eq_some_iff.1 hfst.symm
  refine ⟨hkept.perm_started hdone, (s.gathered Subcall.index).map Prod.snd, ?_, ?_, ?_⟩
  · rw [List.length_map, hlength]
  · intro i result hresult
    rw [List.getElem?_map] at hresult
    obtain ⟨x, hx, rfl⟩ := Option.map_eq_some_iff.1 hresult
    obtain ⟨call, -, hcall⟩ := hget i x hx
    have hmem := mem_gathered hs (List.mem_of_getElem? hx)
    rwa [← hcall] at hmem
  · rw [output, format_eq, List.length_mapIdx]
    congr 2
    refine List.ext_getElem (by simp [hlength]) fun i hi _ => ?_
    rw [List.length_map] at hi
    obtain ⟨call, hcall, hx⟩ := hget i _ (List.getElem?_eq_getElem hi)
    obtain ⟨_, rfl⟩ := List.getElem?_eq_some_iff.1 hcall
    simp [← hx, FlatCall.subcall]

lemma noAlias_of_delivers (h : FlatBatch input calls) (hdelivers : Delivers input calls) :
    ∀ call ∈ calls, findAlias call.args = none := by
  obtain ⟨⟨subs, hsubs, hruns⟩, -⟩ := hdelivers
  obtain ⟨inputs, hinputs⟩ : ∃ inputs,
      decodeBatchInput (normalizeBatchInput input) = some inputs := by
    rw [prepare] at hsubs
    cases hdecode : decodeBatchInput (normalizeBatchInput input) with
    | none => simp [hdecode] at hsubs
    | some inputs => exact ⟨inputs, rfl⟩
  have heq := hsubs.symm.trans (prepare_eq h hinputs)
  cases heq
  obtain ⟨labels, s, hs, hdone⟩ := exists_run Subcall.index
    (calls.mapIdx fun i call => (⟨i, call.tool, call.parameters⟩ : Subcall))
    fun _ => (.ok "" : Result)
  have hperm := ((Kept.exec hs).perm_started hdone).symm.trans (hruns labels s hs hdone).1
  have hsame := eq_of_perm hperm
    ((pairwise_mapIdx calls fun _ _ => rfl).imp fun hlt => hlt.le)
    (pairwise_mapIdx calls fun _ _ => rfl)
  intro call hcall
  obtain ⟨i, hi, rfl⟩ := List.getElem_of_mem hcall
  have hparams := congrArg Subcall.parameters (List.mapIdx_eq_mapIdx_iff.1 hsame i hi)
  exact FlatCall.parameters_eq_iff.1 hparams

/-- Each call gets its own arguments where no parameter has the name of an alias. -/
theorem delivers_iff (h : FlatBatch input calls) :
    Delivers input calls ↔ ∀ call ∈ calls, call.NoAlias := by
  simp only [FlatCall.NoAlias, ← findAlias_eq_none]
  exact ⟨noAlias_of_delivers h, delivers_of_noAlias h⟩

end

/-! ### Batches -/

def batchOf (calls : List FlatCall) : Json :=
  .object [("tool_calls", .array (calls.map FlatCall.json))]

lemma flatBatch_batchOf {calls : List FlatCall} (hnil : calls ≠ []) (hle : calls.length ≤ 10) :
    FlatBatch (batchOf calls) calls :=
  ⟨⟨_, rfl, rfl⟩, hnil, hle⟩

def readFile : FlatCall where
  tool := "read"
  args := [("file_path", .string "file1.txt")]
  sorted := by decide
  notBatch := by decide
  notTool := rfl
  notParameters := rfl
  unambiguous := by simp

/-- The name is a parameter here. -/
def grepNamed : FlatCall where
  tool := "grep"
  args := [("name", .string "a.rs"), ("pattern", .string "foo")]
  sorted := by decide
  notBatch := by decide
  notTool := rfl
  notParameters := rfl
  unambiguous := by simp

theorem delivers_readFile_grepNamed :
    Delivers (batchOf [readFile, grepNamed]) [readFile, grepNamed] := by
  refine (delivers_iff (flatBatch_batchOf (List.cons_ne_nil _ _) (by decide))).2 ?_
  simp only [FlatCall.NoAlias, parameterAliases, List.forall_mem_cons]
  exact ⟨⟨rfl, rfl, rfl, by simp⟩, ⟨rfl, rfl, rfl, by simp⟩, by simp⟩

/-- A call of the `mcp` tool, which has a parameter "args". -/
def connectServer : FlatCall where
  tool := "mcp"
  args := [("action", .string "connect"), ("args", .array [.string "server-filesystem"]),
    ("command", .string "npx"), ("server", .string "files")]
  sorted := by decide
  notBatch := by decide
  notTool := rfl
  notParameters := rfl
  unambiguous := by simp

/-- Of the parameters, the list of arguments alone is left. -/
theorem not_delivers_connectServer :
    prepare (batchOf [connectServer]) =
        .ok [⟨0, "mcp", .array [.string "server-filesystem"]⟩] ∧
      ¬Delivers (batchOf [connectServer]) [connectServer] := by
  refine ⟨rfl, fun h => ?_⟩
  have hnone := noAlias_of_delivers (flatBatch_batchOf (List.cons_ne_nil _ _) (by decide)) h
    connectServer List.mem_cons_self
  cases hnone
end Batch

end Jcode
