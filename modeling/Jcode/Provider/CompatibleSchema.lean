import Jcode.Provider.StrictValues

/-!
# Compatible schemas

Before a schema goes to the provider, `openai_compatible_schema` renames `oneOf` and merges the
branches of `allOf` into the object that holds them. What comes out has neither keyword, and is left
alone from then on.
-/

namespace Jcode

/-! ### Equal values -/

namespace Json

mutual

/-- `==` on values. Numbers are compared by their texts. -/
def same : Json → Json → Bool
  | .null, .null => true
  | .bool a, .bool b => a == b
  | .number m text, .number n text' => m == n && text == text'
  | .string a, .string b => a == b
  | .array items, .array items' => sameItems items items'
  | .object fields, .object fields' => sameFields fields fields'
  | _, _ => false

def sameItems : List Json → List Json → Bool
  | [], [] => true
  | item :: items, item' :: items' => same item item' && sameItems items items'
  | _, _ => false

def sameFields : Fields → Fields → Bool
  | [], [] => true
  | (key, value) :: fields, (key', value') :: fields' =>
    key == key' && same value value' && sameFields fields fields'
  | _, _ => false

end

variable {s t : Json}

lemma sameItems_iff {items items' : List Json}
    (h : ∀ item ∈ items, ∀ t, same item t ↔ item = t) :
    sameItems items items' ↔ items = items' := by
  induction items generalizing items' with
  | nil => cases items' <;> simp [sameItems]
  | cons item items ih =>
    obtain ⟨hitem, hitems⟩ := List.forall_mem_cons.mp h
    cases items' with
    | nil => simp [sameItems]
    | cons item' items' => simp [sameItems, hitem, ih hitems]

lemma sameFields_iff {fields fields' : Fields} (h : ∀ e ∈ fields, ∀ t, same e.2 t ↔ e.2 = t) :
    sameFields fields fields' ↔ fields = fields' := by
  induction fields generalizing fields' with
  | nil => cases fields' <;> simp [sameFields]
  | cons e fields ih =>
    obtain ⟨he, hfields⟩ := List.forall_mem_cons.mp h
    cases fields' with
    | nil => simp [sameFields]
    | cons e' fields' => simp [sameFields, he, ih hfields, Prod.ext_iff]

lemma same_iff : same s t ↔ s = t := by
  induction s using induction_parts generalizing t with
  | h s ih =>
    cases s with
    | array items =>
      have hitems : ∀ items', sameItems items items' ↔ items = items' := fun items' =>
        sameItems_iff fun item hitem t => (ih item hitem).1
      cases t with
      | array items' => simpa [same] using hitems items'
      | null | bool | number | string | object => simp [same]
    | object fields =>
      have hfields : ∀ fields', sameFields fields fields' ↔ fields = fields' := fun fields' =>
        sameFields_iff fun e he t => (ih e.2 (List.mem_map_of_mem he)).1
      cases t with
      | object fields' => simpa [same] using hfields fields'
      | null | bool | number | string | array => simp [same]
    | null | bool | number | string => cases t <;> simp [same]

instance : DecidableEq Json := fun _ _ => decidable_of_iff _ same_iff

end Json

/-! ### Merging -/

namespace OpenAiSchema

open Json

def collectStrings : Json → Option (List String)
  | .string s => some [s]
  | .array items => items.mapM asStr
  | _ => none

/-- Push what is not there yet. -/
def pushMissing {α : Type} [DecidableEq α] (combined items : List α) : List α :=
  items.foldl (fun combined item => if item ∈ combined then combined else combined ++ [item])
    combined

/-- A single string is not kept in an array. -/
def combineStrings : List String → Json
  | [s] => .string s
  | combined => .array (combined.map .string)

def mergeStringSets (existing incoming : Json) : Option Json := do
  let combined ← collectStrings existing
  let items ← collectStrings incoming
  some (combineStrings (pushMissing combined items))

/-- The keywords whose values are merged as sets of strings. -/
def setKeywords : List String := ["required", "enum", "type"]

/-- The keywords of which the first value stays. -/
def textKeywords : List String := ["description", "title"]

mutual

/-- Every entry is merged into what is at its key. -/
def mergeSchemaObjects (target : Fields) : Fields → Fields
  | [] => target
  | (key, value) :: incoming =>
    let merged :=
      match SortedMap.get key target with
      | none => value
      | some existing =>
        if key ∈ mapKeywords then mergeMapKeyword existing value
        else if key ∈ setKeywords then (mergeStringSets existing value).getD existing
        else if key ∈ textKeywords then existing
        else if key = "additionalProperties" then mergeAdditional existing value
        else mergeSchemaValues existing value
    mergeSchemaObjects (SortedMap.insert key merged target) incoming
termination_by structural incoming => incoming

def mergeMapKeyword (existing : Json) : Json → Json
  | .object children =>
    match existing with
    | .object existing => .object (mergeChildren existing children)
    | _ => .object children
  | incoming => incoming
termination_by structural incoming => incoming

def mergeChildren (existing : Fields) : Fields → Fields
  | [] => existing
  | (key, value) :: children =>
    let merged :=
      match SortedMap.get key existing with
      | none => value
      | some child => mergeSchemaValues child value
    mergeChildren (SortedMap.insert key merged existing) children
termination_by structural children => children

/-- No other properties are allowed as soon as one of the two says so. -/
def mergeAdditional (existing : Json) : Json → Json
  | .object incoming =>
    match existing with
    | .object existing => .object (mergeSchemaObjects existing incoming)
    | _ => existing
  | .bool false => .bool false
  | _ => existing
termination_by structural incoming => incoming

def mergeSchemaValues (existing incoming : Json) : Json :=
  if existing = incoming then existing
  else
    match incoming with
    | .object incoming =>
      match existing with
      | .object existing => .object (mergeSchemaObjects existing incoming)
      | _ => .object incoming
    | .array items =>
      match existing with
      | .array existing => .array (pushMissing existing items)
      | _ => .array items
    | incoming => incoming
termination_by structural incoming

end

/-! ### The walk -/

def mergeBranch (merged : Fields) : Json → Fields
  | .object itemMap => mergeSchemaObjects merged itemMap
  | _ => merged

/-- Branches that are no objects become alternatives. -/
def addFallback (merged : Fields) (fallback : List Json) : Fields :=
  if fallback = [] then merged
  else
    match SortedMap.get "anyOf" merged with
    | some (.array existing) => SortedMap.insert "anyOf" (.array (existing ++ fallback)) merged
    | _ => SortedMap.insert "anyOf" (.array fallback) merged

def flattenAllOf (map : Fields) : Fields :=
  let rest := SortedMap.erase "allOf" map
  match SortedMap.get "allOf" map with
  | some (.array items) =>
    addFallback (items.foldl mergeBranch rest) (items.filter fun item => !item.isObject)
  | _ => rest

def normalizedKey (key : String) : String := if key = "oneOf" then "anyOf" else key

/-- The entries are inserted one after the other. -/
def collectEntries (entries : Fields) : Fields :=
  SortedMap.update (fun _ _ value => value) [] entries

mutual

def openaiCompatibleSchema : Json → Json
  | .object map => .object (flattenAllOf (collectEntries (compatibleEntries map)))
  | .array items => .array (compatibleItems items)
  | .null => .null
  | .bool value => .bool value
  | .number asU64 text => .number asU64 text
  | .string value => .string value

def compatibleEntries : Fields → Fields
  | [] => []
  | (key, value) :: map =>
    (normalizedKey key, openaiCompatibleSchema value) :: compatibleEntries map

def compatibleItems : List Json → List Json
  | [] => []
  | item :: items => openaiCompatibleSchema item :: compatibleItems items

end

/-! ### Tools -/

/-- A tool, as it is offered to the model. -/
structure ToolDefinition where
  name : String
  description : String
  inputSchema : Json

def buildTool (t : ToolDefinition) : Json :=
  let compatibleSchema := openaiCompatibleSchema t.inputSchema
  let supportsStrict := schemaSupportsStrict compatibleSchema
  let parameters :=
    if supportsStrict then strictNormalizeSchema compatibleSchema else compatibleSchema
  .object [("description", .string t.description), ("name", .string t.name),
    ("parameters", parameters), ("strict", .bool supportsStrict), ("type", .string "function")]

def buildTools (tools : List ToolDefinition) : List Json := tools.map buildTool

/-! ### Merges as updates -/

variable {target incoming children map : Fields} {items : List Json} {key : String}
  {existing value s : Json} {admits : String → Prop}

/-- What is at a keyword behind a merge. -/
def mergeKeyword (key : String) (existing : Option Json) (value : Json) : Json :=
  match existing with
  | none => value
  | some existing =>
    if key ∈ mapKeywords then mergeMapKeyword existing value
    else if key ∈ setKeywords then (mergeStringSets existing value).getD existing
    else if key ∈ textKeywords then existing
    else if key = "additionalProperties" then mergeAdditional existing value
    else mergeSchemaValues existing value

def mergeChild (_ : String) (existing : Option Json) (value : Json) : Json :=
  match existing with
  | none => value
  | some child => mergeSchemaValues child value

lemma mergeSchemaObjects_eq :
    mergeSchemaObjects target incoming = SortedMap.update mergeKeyword target incoming := by
  induction incoming generalizing target with
  | nil => rfl
  | cons e incoming ih => exact ih

lemma mergeChildren_eq :
    mergeChildren target children = SortedMap.update mergeChild target children := by
  induction children generalizing target with
  | nil => rfl
  | cons e children ih => exact ih

lemma mergeSchemaValues_self (value : Json) : mergeSchemaValues value value = value := by
  cases value <;> simp [mergeSchemaValues]

/-- Equal values, two objects and two arrays are put together. Otherwise the newer value stays. -/
lemma mergeSchemaValues_cases (existing value : Json) :
    (existing = value ∧ mergeSchemaValues existing value = existing) ∨
      (∃ target incoming, existing = .object target ∧ value = .object incoming ∧
        mergeSchemaValues existing value = .object (mergeSchemaObjects target incoming)) ∨
      (∃ items items', existing = .array items ∧ value = .array items' ∧
        mergeSchemaValues existing value = .array (pushMissing items items')) ∨
      mergeSchemaValues existing value = value := by
  by_cases h : existing = value
  · left
    refine ⟨h, ?_⟩
    cases value <;> simp [mergeSchemaValues, h]
  · right
    cases value with
    | object incoming =>
      cases existing with
      | object target => exact .inl ⟨target, incoming, rfl, rfl, by simp [mergeSchemaValues, h]⟩
      | array | null | bool | number | string => exact .inr (.inr (by simp [mergeSchemaValues]))
    | array items' =>
      cases existing with
      | array items => exact .inr (.inl ⟨items, items', rfl, rfl, by simp [mergeSchemaValues, h]⟩)
      | object | null | bool | number | string => exact .inr (.inr (by simp [mergeSchemaValues]))
    | null | bool | number | string => exact .inr (.inr (by simp [mergeSchemaValues, h]))

/-! ### Keys -/

/-- Every object is a sorted map whose keys are admitted. -/
inductive Over (admits : String → Prop) : Json → Prop
  | null : Over admits .null
  | bool (value : Bool) : Over admits (.bool value)
  | number (asU64 : Option Nat) (text : String) : Over admits (.number asU64 text)
  | string (value : String) : Over admits (.string value)
  | array {items : List Json} (h : ∀ item ∈ items, Over admits item) : Over admits (.array items)
  | object {fields : Fields} (h : SortedMap.Sorted fields) (hkeys : ∀ e ∈ fields, admits e.1)
    (hvalues : ∀ e ∈ fields, Over admits e.2) : Over admits (.object fields)

lemma over_array : Over admits (.array items) ↔ ∀ item ∈ items, Over admits item :=
  ⟨fun h => by cases h with | array h => exact h, .array⟩

lemma over_object : Over admits (.object map) ↔
    SortedMap.Sorted map ∧ (∀ e ∈ map, admits e.1) ∧ ∀ e ∈ map, Over admits e.2 :=
  ⟨fun h => by cases h with | object h hkeys hvalues => exact ⟨h, hkeys, hvalues⟩,
    fun h => .object h.1 h.2.1 h.2.2⟩

lemma over_strings (texts : List String) : Over admits (.array (texts.map .string)) := by
  apply Over.array
  intro item hitem
  obtain ⟨text, -, rfl⟩ := List.mem_map.mp hitem
  exact .string text

namespace Over

lemma of_get (h : Over admits (.object map)) (hget : SortedMap.get key map = some value) :
    Over admits value :=
  (over_object.mp h).2.2 _ (SortedMap.mem_of_get hget)

lemma of_mem_parts {c : Json} (h : Over admits s) (hc : c ∈ s.parts) : Over admits c := by
  cases h with
  | array h => exact h c hc
  | object h hkeys hvalues =>
    obtain ⟨e, he, rfl⟩ := List.mem_map.mp hc
    exact hvalues e he
  | null | bool | number | string => cases hc

lemma insert (h : Over admits (.object map)) (hkey : admits key) (hvalue : Over admits value) :
    Over admits (.object (SortedMap.insert key value map)) := by
  obtain ⟨hsorted, hkeys, hvalues⟩ := over_object.mp h
  refine .object hsorted.insert ?_ ?_
  · intro e he
    rcases SortedMap.mem_insert he with rfl | he
    · exact hkey
    · exact hkeys e he
  · intro e he
    rcases SortedMap.mem_insert he with rfl | he
    · exact hvalue
    · exact hvalues e he

lemma update {f : String → Option Json → Json → Json} (htarget : Over admits (.object target))
    (hkeys : ∀ e ∈ incoming, admits e.1)
    (hf : ∀ e ∈ incoming, ∀ old, (∀ v ∈ old, Over admits v) → Over admits (f e.1 old e.2)) :
    Over admits (.object (SortedMap.update f target incoming)) := by
  obtain ⟨hsorted, htargets, hvalues⟩ := over_object.mp htarget
  refine .object hsorted.update ?_ (SortedMap.forall_update hvalues hf)
  intro e he
  rcases SortedMap.key_of_mem_update he with ⟨e', he', hkey⟩ | ⟨e', he', hkey⟩
  · exact hkey ▸ htargets e' he'
  · exact hkey ▸ hkeys e' he'

end Over

/-! ### What merges keep -/

lemma over_combineStrings (texts : List String) : Over admits (combineStrings texts) := by
  unfold combineStrings
  split
  · exact .string _
  · exact over_strings _

lemma over_mergeStringSets (hexisting : Over admits existing) :
    Over admits ((mergeStringSets existing value).getD existing) := by
  cases hmerged : mergeStringSets existing value with
  | none => exact hexisting
  | some merged =>
    simp only [mergeStringSets, Option.bind_eq_bind, Option.bind_eq_some_iff, Option.some.injEq]
      at hmerged
    obtain ⟨combined, -, items, -, rfl⟩ := hmerged
    exact over_combineStrings _

lemma mem_pushMissing {α : Type} [DecidableEq α] {existing items : List α} {item : α} :
    item ∈ pushMissing existing items ↔ item ∈ existing ∨ item ∈ items := by
  induction items generalizing existing with
  | nil => simp [pushMissing]
  | cons first items ih =>
    rw [pushMissing, List.foldl_cons, ← pushMissing, ih, List.mem_cons]
    split_ifs with hfirst
    · constructor
      · rintro (h | h)
        · exact .inl h
        · exact .inr (.inr h)
      · rintro (h | rfl | h)
        · exact .inl h
        · exact .inl hfirst
        · exact .inr h
    · rw [List.mem_append, List.mem_singleton, or_assoc]

lemma over_mergeChildren (hexisting : Over admits (.object map))
    (hchildren : Over admits (.object children))
    (h : ∀ c ∈ children, ∀ old, Over admits old → Over admits (mergeSchemaValues old c.2)) :
    Over admits (.object (mergeChildren map children)) := by
  obtain ⟨-, hkeys, hvalues⟩ := over_object.mp hchildren
  rw [mergeChildren_eq]
  refine hexisting.update hkeys ?_
  intro c hc old hold
  cases old with
  | none => exact hvalues c hc
  | some child => exact h c hc child (hold child rfl)

/-- What a merge of values and one of objects keep. -/
structure MergeKeeps (admits : String → Prop) (s : Json) : Prop where
  values : ∀ existing, Over admits existing → Over admits (mergeSchemaValues existing s)
  objects : ∀ target fields, s = .object fields → Over admits (.object target) →
    Over admits (.object (mergeSchemaObjects target fields))

lemma over_mergeMapKeyword (hexisting : Over admits existing) (hs : Over admits s)
    (h : ∀ c ∈ s.parts, MergeKeeps admits c) : Over admits (mergeMapKeyword existing s) := by
  cases s with
  | object children =>
    cases existing with
    | object map =>
      apply over_mergeChildren hexisting hs
      intro c hc
      exact (h c.2 (List.mem_map_of_mem hc)).values
    | array | null | bool | number | string => exact hs
  | array | null | bool | number | string => exact hs

lemma over_mergeAdditional (hexisting : Over admits existing) (h : MergeKeeps admits s) :
    Over admits (mergeAdditional existing s) := by
  cases s with
  | object incoming =>
    cases existing with
    | object map => exact h.objects map incoming rfl hexisting
    | array | null | bool | number | string => exact hexisting
  | bool value =>
    cases value with
    | false => exact .bool false
    | true => exact hexisting
  | array | null | number | string => exact hexisting

lemma over_mergeKeyword {old : Option Json} (hold : ∀ v ∈ old, Over admits v)
    (hs : Over admits s) (h : MergeKeeps admits s) (hparts : ∀ c ∈ s.parts, MergeKeeps admits c) :
    Over admits (mergeKeyword key old s) := by
  cases old with
  | none => exact hs
  | some existing =>
    have hexisting := hold existing rfl
    simp only [mergeKeyword]
    split_ifs
    · exact over_mergeMapKeyword hexisting hs hparts
    · exact over_mergeStringSets hexisting
    · exact hexisting
    · exact over_mergeAdditional hexisting h
    · exact h.values existing hexisting

/-- Merges bring in no keys of their own. -/
theorem mergeKeeps (hs : Over admits s) : MergeKeeps admits s := by
  induction s using induction_parts with
  | h s ih =>
    have hparts : ∀ c ∈ s.parts, MergeKeeps admits c := fun c hc =>
      (ih c hc).1 (hs.of_mem_parts hc)
    have hobjects : ∀ target fields, s = .object fields → Over admits (.object target) →
        Over admits (.object (mergeSchemaObjects target fields)) := by
      rintro target fields rfl htarget
      obtain ⟨-, hkeys, hvalues⟩ := over_object.mp hs
      rw [mergeSchemaObjects_eq]
      refine htarget.update hkeys ?_
      intro e he old hold
      have hmem := List.mem_map_of_mem (f := Prod.snd) he
      refine over_mergeKeyword hold (hvalues e he) (hparts _ hmem) ?_
      intro d hd
      exact (ih e.2 hmem).2 d hd ((hvalues e he).of_mem_parts hd)
    refine ⟨?_, hobjects⟩
    intro existing hexisting
    rcases mergeSchemaValues_cases existing s with
      ⟨-, heq⟩ | ⟨target, incoming, rfl, rfl, heq⟩ | ⟨items, items', rfl, rfl, heq⟩ | heq
    · rwa [heq]
    · rw [heq]
      exact hobjects target incoming rfl hexisting
    · rw [heq]
      apply Over.array
      intro item hitem
      rcases mem_pushMissing.mp hitem with hitem | hitem
      · exact over_array.mp hexisting item hitem
      · exact over_array.mp hs item hitem
    · rwa [heq]

/-! ### Flat schemas -/

def unmergedKeywords : List String := ["allOf", "oneOf"]

/-- Every object is a sorted map without `allOf` and `oneOf`. -/
abbrev Flat : Json → Prop := Over (· ∉ unmergedKeywords)

lemma over_mergeBranch (hmap : Over admits (.object map)) (hs : Over admits s) :
    Over admits (.object (mergeBranch map s)) := by
  cases s with
  | object itemMap => exact (mergeKeeps hs).objects map itemMap rfl hmap
  | array | null | bool | number | string => exact hmap

lemma over_foldl_mergeBranch (hmap : Over admits (.object map))
    (hitems : ∀ item ∈ items, Over admits item) :
    Over admits (.object (items.foldl mergeBranch map)) := by
  induction items generalizing map with
  | nil => exact hmap
  | cons item items ih =>
    obtain ⟨hitem, hitems⟩ := List.forall_mem_cons.mp hitems
    exact ih (over_mergeBranch hmap hitem) hitems

lemma over_addFallback (hkey : admits "anyOf") (hmap : Over admits (.object map))
    (hitems : ∀ item ∈ items, Over admits item) :
    Over admits (.object (addFallback map items)) := by
  rw [addFallback]
  split_ifs
  · exact hmap
  · split
    next existing hexisting =>
      have hbranches := over_array.mp (hmap.of_get hexisting)
      exact hmap.insert hkey (.array (List.forall_mem_append.mpr ⟨hbranches, hitems⟩))
    next => exact hmap.insert hkey (.array hitems)

/-- The branches of `allOf` are flat already, and so is all but that keyword. -/
lemma flat_flattenAllOf (hsorted : SortedMap.Sorted map) (hkeys : ∀ e ∈ map, e.1 ≠ "oneOf")
    (hvalues : ∀ e ∈ map, Flat e.2) : Flat (.object (flattenAllOf map)) := by
  have hrest : Flat (.object (SortedMap.erase "allOf" map)) := by
    refine .object hsorted.erase ?_ fun e he => hvalues e (List.mem_of_mem_filter he)
    intro e he
    have hne : e.1 ≠ "allOf" := by simpa using List.of_mem_filter he
    simpa [unmergedKeywords] using ⟨hne, hkeys e (List.mem_of_mem_filter he)⟩
  rw [flattenAllOf]
  split
  next items hget =>
    have hitems := over_array.mp (hvalues _ (SortedMap.mem_of_get hget))
    refine over_addFallback (by decide) (over_foldl_mergeBranch hrest hitems) ?_
    intro item hitem
    exact hitems item (List.mem_of_mem_filter hitem)
  next => exact hrest

def compatibleEntry (e : String × Json) : String × Json :=
  (normalizedKey e.1, openaiCompatibleSchema e.2)

lemma compatibleEntries_eq : compatibleEntries map = map.map compatibleEntry := by
  induction map with
  | nil => rfl
  | cons e map ih => exact congrArg _ ih

lemma compatibleItems_eq : compatibleItems items = items.map openaiCompatibleSchema := by
  induction items with
  | nil => rfl
  | cons item items ih => exact congrArg _ ih

lemma openaiCompatibleSchema_object : openaiCompatibleSchema (.object map) =
    .object (flattenAllOf (collectEntries (map.map compatibleEntry))) := by
  rw [openaiCompatibleSchema, compatibleEntries_eq]

lemma openaiCompatibleSchema_array :
    openaiCompatibleSchema (.array items) = .array (items.map openaiCompatibleSchema) := by
  rw [openaiCompatibleSchema, compatibleItems_eq]

lemma normalizedKey_ne (key : String) : normalizedKey key ≠ "oneOf" := by
  rw [normalizedKey]
  split_ifs with h
  · decide
  · exact h

/-- Every entry that is collected is one of the entries. -/
lemma mem_of_mem_collectEntries {entries : Fields} {e : String × Json}
    (h : e ∈ collectEntries entries) : e ∈ entries := by
  have hmem : ∀ source target : Fields,
      e ∈ SortedMap.update (fun _ _ value => value) target source → e ∈ target ∨ e ∈ source := by
    intro source
    induction source with
    | nil => exact fun _ h => .inl h
    | cons first source ih =>
      intro target h
      rw [List.mem_cons]
      rcases ih _ h with h | h
      · exact (SortedMap.mem_insert h).symm.imp_right .inl
      · exact .inr (.inr h)
  exact (hmem entries [] h).resolve_left List.not_mem_nil

lemma sorted_collectEntries (entries : Fields) : SortedMap.Sorted (collectEntries entries) :=
  SortedMap.Sorted.nil.update

lemma flat_openaiCompatibleSchema (s : Json) : Flat (openaiCompatibleSchema s) := by
  induction s using induction_parts with
  | h s ih =>
    cases s with
    | object map =>
      rw [openaiCompatibleSchema_object]
      apply flat_flattenAllOf (sorted_collectEntries _)
      · intro e' he'
        obtain ⟨e, -, rfl⟩ := List.mem_map.mp (mem_of_mem_collectEntries he')
        exact normalizedKey_ne e.1
      · intro e' he'
        obtain ⟨e, he, rfl⟩ := List.mem_map.mp (mem_of_mem_collectEntries he')
        exact (ih e.2 (List.mem_map_of_mem he)).1
    | array items =>
      rw [openaiCompatibleSchema_array]
      apply Over.array
      intro item' hitem'
      obtain ⟨item, hitem, rfl⟩ := List.mem_map.mp hitem'
      exact (ih item hitem).1
    | null => exact .null
    | bool value => exact .bool value
    | number asU64 text => exact .number asU64 text
    | string value => exact .string value

lemma flattenAllOf_of_get (h : SortedMap.get "allOf" map = none) : flattenAllOf map = map := by
  rw [flattenAllOf, h, SortedMap.erase_of_get_eq_none h]

lemma openaiCompatibleSchema_of_flat (h : Flat s) : openaiCompatibleSchema s = s := by
  induction h with
  | null | bool | number | string => rfl
  | array _ ih =>
    rw [openaiCompatibleSchema_array, List.map_congr_left ih, List.map_id']
  | @object map hsorted hkeys _ ih =>
    have hentries : map.map compatibleEntry = map := by
      conv_rhs => rw [← List.map_id map]
      apply List.map_congr_left
      intro e he
      have hkey : e.1 ≠ "oneOf" := fun heq => hkeys e he (heq ▸ by decide)
      rw [compatibleEntry, ih e he, normalizedKey, if_neg hkey]
      rfl
    have hget : SortedMap.get "allOf" map = none :=
      SortedMap.get_eq_none_iff.mpr fun e he heq => hkeys e he (heq ▸ by decide)
    rw [openaiCompatibleSchema_object, hentries, collectEntries, SortedMap.update_nil hsorted,
      flattenAllOf_of_get hget]

/-- What the walk makes is flat, and what is flat is all that it leaves alone. -/
theorem flat_iff_openaiCompatibleSchema (s : Json) :
    Flat (openaiCompatibleSchema s) ∧ (openaiCompatibleSchema s = s ↔ Flat s) := by
  refine ⟨flat_openaiCompatibleSchema s, ?_, openaiCompatibleSchema_of_flat⟩
  intro h
  rw [← h]
  exact flat_openaiCompatibleSchema s

/-! ### What strict mode adds -/

lemma flat_nullSchema : Flat nullSchema :=
  .object (List.pairwise_singleton _ _) (by decide) (by simpa using Over.string "null")

lemma flat_wrapNullable (h : Flat s) : Flat (wrapNullable s) := by
  refine .object (List.pairwise_singleton _ _) (by simp [unmergedKeywords]) ?_
  simpa using Over.array (by simpa using ⟨h, flat_nullSchema⟩)

lemma flat_makeSchemaNullable (h : Flat s) : Flat (makeSchemaNullable s) := by
  cases s with
  | object map =>
    simp only [makeSchemaNullable]
    split
    next t htype =>
      split_ifs
      · exact h
      · exact h.insert (by decide) (over_strings [t, "null"])
    next types htype =>
      have htypes := over_array.mp (h.of_get htype)
      refine h.insert (by decide) (.array ?_)
      rw [pushNullType]
      split_ifs
      · exact htypes
      · exact List.forall_mem_append.mpr ⟨htypes, by simpa using Over.string "null"⟩
    next =>
      split
      next anyOf hanyOf =>
        have hbranches := over_array.mp (h.of_get hanyOf)
        refine h.insert (by decide) (.array ?_)
        rw [pushNullSchema]
        split_ifs
        · exact hbranches
        · exact List.forall_mem_append.mpr ⟨hbranches, by simpa using flat_nullSchema⟩
      next => exact flat_wrapNullable h
  | array | null | bool | number | string => exact flat_wrapNullable h

lemma flat_requireProperties (out : Fields) {properties : Fields} (h : Flat (.object properties)) :
    Flat (.object (requireProperties out properties)) := by
  obtain ⟨hsorted, hkeys, hvalues⟩ := over_object.mp h
  refine .object (hsorted.map_entries fun _ => rfl) ?_ ?_
  · intro e' he'
    obtain ⟨e, he, rfl⟩ := List.mem_map.mp he'
    exact hkeys e he
  · intro e' he'
    obtain ⟨e, he, rfl⟩ := List.mem_map.mp he'
    rw [requireProperty]
    split_ifs
    · exact hvalues e he
    · exact flat_makeSchemaNullable (hvalues e he)

lemma flat_closeMap (h : Flat (.object map)) : Flat (.object (closeMap map)) := by
  have hrequired : Flat (.object (normalizeRequiredProperties map)) := by
    rw [normalizeRequiredProperties]
    split
    next properties hproperties =>
      have hproperties' := flat_requireProperties map (h.of_get hproperties)
      exact (h.insert (by decide) hproperties').insert (by decide) (over_strings _)
    next => exact h
  by_cases hcloses : Closes map
  · rw [closeMap_of_closes hcloses]
    exact hrequired.insert (by decide) (.bool false)
  · rwa [closeMap_of_not_closes hcloses]

lemma flat_normalizeStrictSchemaKeyword (h : Flat value)
    (ih : ∀ t ∈ schemasAt key value, Flat t → Flat (strictNormalizeSchema t)) :
    Flat (normalizeStrictSchemaKeyword key value) := by
  by_cases hkey : key ∈ mapKeywords
  · rw [normalizeStrictSchemaKeyword, if_pos hkey]
    cases value with
    | object children =>
      obtain ⟨hsorted, hkeys, hvalues⟩ := over_object.mp h
      rw [schemasAt_map hkey] at ih
      rw [normalizeMapKeyword_object]
      refine .object (hsorted.map _) ?_ ?_
      · intro c' hc'
        obtain ⟨c, hc, rfl⟩ := List.mem_map.mp hc'
        exact hkeys c hc
      · intro c' hc'
        obtain ⟨c, hc, rfl⟩ := List.mem_map.mp hc'
        exact ih c.2 (List.mem_map_of_mem hc) (hvalues c hc)
    | array | null | bool | number | string =>
      rw [normalizeMapKeyword_of_ne fun children => by simp]
      exact ih _ (List.mem_singleton_self _) h
  · rw [normalizeStrictSchemaKeyword_of_notMem hkey]
    rw [schemasAt_of_notMem hkey] at ih
    exact ih value (List.mem_singleton_self value) h

lemma flat_strictNormalizeSchema (h : Flat s) : Flat (strictNormalizeSchema s) := by
  induction s using induction_schemas with
  | object map ih =>
    obtain ⟨hsorted, hkeys, hvalues⟩ := over_object.mp h
    rw [strictNormalizeSchema_object]
    apply flat_closeMap
    refine .object (hsorted.map_entries fun _ => rfl) ?_ ?_
    · intro e' he'
      obtain ⟨e, he, rfl⟩ := List.mem_map.mp he'
      exact hkeys e he
    · intro e' he'
      obtain ⟨e, he, rfl⟩ := List.mem_map.mp he'
      exact flat_normalizeStrictSchemaKeyword (hvalues e he) fun t ht => ih e he t ht
  | array items ih =>
    rw [strictNormalizeSchema_array]
    apply Over.array
    intro item' hitem'
    obtain ⟨item, hitem, rfl⟩ := List.mem_map.mp hitem'
    exact ih item hitem (over_array.mp h item hitem)
  | leaf s hobject harray => rwa [strictNormalizeSchema_leaf hobject harray]

lemma Over.sorted (h : Over admits s) : s.Sorted := by
  induction h with
  | null => exact .null
  | bool value => exact .bool value
  | number asU64 text => exact .number asU64 text
  | string value => exact .string value
  | array _ ih => exact .array ih
  | object hsorted _ _ ih => exact .object hsorted ih

/-- What is sent as the parameters of a tool. -/
structure Sendable (strict : Bool) (parameters : Json) : Prop where
  flat : Flat parameters
  closed : strict → IsStrict parameters
  again : openaiCompatibleSchema parameters = parameters
  againStrict : strict → strictNormalizeSchema parameters = parameters

end OpenAiSchema

end Jcode
