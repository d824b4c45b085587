import Jcode.Provider.JsonSchema

/-!
# Strict schemas

A tool is offered in strict mode if `schema_supports_strict` admits its schema, with what
`strict_normalize_schema` makes of it: every property is required, no other is allowed, and one that
was optional may be null. The walk takes every value for a schema, except that it knows the keywords
whose values are maps of schemas.
-/

namespace Jcode.OpenAiSchema

open Json

/-! ### Which schemas are strict -/

def schemaIsObjectTyped (map : Fields) : Bool :=
  match SortedMap.get "type" map with
  | some (.string t) => t = "object"
  | some (.array types) => types.any fun v => v.asStr = some "object"
  | _ => false

def checkMap (map : Fields) : Bool :=
  let hasProperties :=
    match SortedMap.get "properties" map with
    | some (.object props) => !props.isEmpty
    | _ => false
  let isOpen :=
    match SortedMap.get "additionalProperties" map with
    | some (.bool true) | some (.object _) => true
    | _ => false
  !schemaIsObjectTyped map || hasProperties && !isOpen

mutual

def schemaSupportsStrict : Json → Bool
  | .object map => checkMap map && valuesSupportStrict map
  | .array items => itemsSupportStrict items
  | _ => true

def valuesSupportStrict : Fields → Bool
  | [] => true
  | (_, value) :: map => schemaSupportsStrict value && valuesSupportStrict map

def itemsSupportStrict : List Json → Bool
  | [] => true
  | item :: items => schemaSupportsStrict item && itemsSupportStrict items

end

/-! ### Null -/

def nullSchema : Json := .object [("type", .string "null")]

def schemaContainsNullType (schema : Json) : Bool := schema.getStr "type" = some "null"

def pushNullType (types : List Json) : List Json :=
  if types.any fun v => v.asStr = some "null" then types else types ++ [.string "null"]

def pushNullSchema (anyOf : List Json) : List Json :=
  if anyOf.any schemaContainsNullType then anyOf else anyOf ++ [nullSchema]

def wrapNullable (schema : Json) : Json := .object [("anyOf", .array [schema, nullSchema])]

def makeSchemaNullable : Json → Json
  | .object map =>
    match SortedMap.get "type" map with
    | some (.string t) =>
      if t = "null" then .object map
      else .object (SortedMap.insert "type" (.array [.string t, .string "null"]) map)
    | some (.array types) => .object (SortedMap.insert "type" (.array (pushNullType types)) map)
    | _ =>
      match SortedMap.get "anyOf" map with
      | some (.array anyOf) =>
        .object (SortedMap.insert "anyOf" (.array (pushNullSchema anyOf)) map)
      | _ => wrapNullable (.object map)
  | other => wrapNullable other

/-! ### The walk -/

def existingRequiredKeys (map : Fields) : List String :=
  match SortedMap.get "required" map with
  | some (.array arr) => arr.filterMap asStr
  | _ => []

def propertyNames (properties : Fields) : List String :=
  (properties.map Prod.fst).mergeSort (· ≤ ·)

def requireProperty (existingRequired : List String) (property : String × Json) : String × Json :=
  (property.1,
    if property.1 ∈ existingRequired then property.2 else makeSchemaNullable property.2)

def normalizeRequiredProperties (map : Fields) : Fields :=
  match SortedMap.get "properties" map with
  | some (.object properties) =>
    let properties' := properties.map (requireProperty (existingRequiredKeys map))
    SortedMap.insert "required" (.array ((propertyNames properties).map .string))
      (SortedMap.insert "properties" (.object properties') map)
  | _ => map

/-- The end of `normalize_map`, when the values are normalized. -/
def closeMap (out : Fields) : Fields :=
  let closed := normalizeRequiredProperties out
  if schemaIsObjectTyped out || (SortedMap.get "properties" closed).isSome then
    SortedMap.insert "additionalProperties" (.bool false) closed
  else closed

mutual

/-- The entries of an object are in the order in which they are inserted. -/
def strictNormalizeSchema : Json → Json
  | .object map => .object (closeMap (normalizeKeywords map))
  | .array items => .array (normalizeItems items)
  | .null => .null
  | .bool value => .bool value
  | .number asU64 text => .number asU64 text
  | .string value => .string value

/-- `normalize_strict_schema_keyword` on every entry. -/
def normalizeKeywords : Fields → Fields
  | [] => []
  | (key, value) :: map =>
    (key, if key ∈ mapKeywords then normalizeMapKeyword value else strictNormalizeSchema value) ::
      normalizeKeywords map

def normalizeMapKeyword : Json → Json
  | .object children => .object (normalizeChildren children)
  | .array items => .array (normalizeItems items)
  | .null => .null
  | .bool value => .bool value
  | .number asU64 text => .number asU64 text
  | .string value => .string value

def normalizeChildren : Fields → Fields
  | [] => []
  | (key, value) :: children => (key, strictNormalizeSchema value) :: normalizeChildren children

def normalizeItems : List Json → List Json
  | [] => []
  | item :: items => strictNormalizeSchema item :: normalizeItems items

end

def normalizeStrictSchemaKeyword (key : String) (value : Json) : Json :=
  if key ∈ mapKeywords then normalizeMapKeyword value else strictNormalizeSchema value

def normalizeEntry (e : String × Json) : String × Json :=
  (e.1, normalizeStrictSchemaKeyword e.1 e.2)

variable {map out children properties : Fields} {items types anyOf : List Json} {key : String}
  {s t value : Json}

lemma normalizeKeywords_eq : normalizeKeywords map = map.map normalizeEntry := by
  induction map with
  | nil => rfl
  | cons e map ih => rw [normalizeKeywords, ih, List.map_cons]; rfl

lemma normalizeChildren_eq :
    normalizeChildren children = children.map fun e => (e.1, strictNormalizeSchema e.2) := by
  induction children with
  | nil => rfl
  | cons e children ih => rw [normalizeChildren, ih, List.map_cons]

lemma normalizeItems_eq : normalizeItems items = items.map strictNormalizeSchema := by
  induction items with
  | nil => rfl
  | cons item items ih => rw [normalizeItems, ih, List.map_cons]

@[simp] lemma strictNormalizeSchema_object :
    strictNormalizeSchema (.object map) = .object (closeMap (map.map normalizeEntry)) := by
  rw [strictNormalizeSchema, normalizeKeywords_eq]

@[simp] lemma strictNormalizeSchema_array :
    strictNormalizeSchema (.array items) = .array (items.map strictNormalizeSchema) := by
  rw [strictNormalizeSchema, normalizeItems_eq]

lemma normalizeMapKeyword_object : normalizeMapKeyword (.object children) =
    .object (children.map fun e => (e.1, strictNormalizeSchema e.2)) := by
  rw [normalizeMapKeyword, normalizeChildren_eq]

lemma normalizeMapKeyword_of_ne (h : ∀ children, value ≠ .object children) :
    normalizeMapKeyword value = strictNormalizeSchema value := by
  cases value with
  | object children => exact absurd rfl (h children)
  | array items => rw [normalizeMapKeyword, strictNormalizeSchema]
  | null | bool | number | string => rfl

lemma normalizeStrictSchemaKeyword_of_notMem (h : key ∉ mapKeywords) :
    normalizeStrictSchemaKeyword key value = strictNormalizeSchema value := if_neg h

lemma get_normalizeEntry : SortedMap.get key (map.map normalizeEntry) =
    (SortedMap.get key map).map (normalizeStrictSchemaKeyword key) := by
  induction map with
  | nil => rfl
  | cons e map ih =>
    rw [List.map_cons, SortedMap.get_cons, SortedMap.get_cons, ih]
    split_ifs with hkey hkey' hkey'
    · subst hkey
      rfl
    · exact absurd hkey hkey'
    · exact absurd hkey' hkey
    · rfl

@[simp] lemma asStr_strictNormalizeSchema : (strictNormalizeSchema s).asStr = s.asStr := by
  cases s with
  | object map => rw [strictNormalizeSchema_object]; rfl
  | array items => rw [strictNormalizeSchema_array]; rfl
  | null | bool | number | string => rfl

/-! ### The keys of a closed map -/

/-- No other properties are allowed behind the walk. -/
def Closes (map : Fields) : Prop :=
  schemaIsObjectTyped map = true ∨ (SortedMap.get "properties" map).isSome = true

lemma isSome_properties_normalizeRequiredProperties :
    (SortedMap.get "properties" (normalizeRequiredProperties out)).isSome =
      (SortedMap.get "properties" out).isSome := by
  unfold normalizeRequiredProperties
  split
  next hproperties =>
    rw [SortedMap.get_insert_of_ne (by decide), SortedMap.get_insert_self, hproperties]
    rfl
  next => rfl

lemma closeMap_of_closes (h : Closes out) :
    closeMap out =
      SortedMap.insert "additionalProperties" (.bool false) (normalizeRequiredProperties out) := by
  apply if_pos
  rw [isSome_properties_normalizeRequiredProperties, Bool.or_eq_true]
  exact h

lemma closeMap_of_not_closes (h : ¬ Closes out) :
    closeMap out = normalizeRequiredProperties out := by
  apply if_neg
  rw [isSome_properties_normalizeRequiredProperties, Bool.or_eq_true]
  exact h

lemma get_closeMap_of_ne (hadditional : key ≠ "additionalProperties") :
    SortedMap.get key (closeMap out) = SortedMap.get key (normalizeRequiredProperties out) := by
  by_cases h : Closes out
  · rw [closeMap_of_closes h, SortedMap.get_insert_of_ne hadditional.symm]
  · rw [closeMap_of_not_closes h]

lemma get_closeMap (hadditional : key ≠ "additionalProperties") (hproperties : key ≠ "properties")
    (hrequired : key ≠ "required") : SortedMap.get key (closeMap out) = SortedMap.get key out := by
  rw [get_closeMap_of_ne hadditional]
  unfold normalizeRequiredProperties
  split
  next =>
    rw [SortedMap.get_insert_of_ne hrequired.symm, SortedMap.get_insert_of_ne hproperties.symm]
  next => rfl

/-- The properties, as the walk leaves them. -/
def requireProperties (out properties : Fields) : Fields :=
  properties.map (requireProperty (existingRequiredKeys out))

lemma normalizeRequiredProperties_of_get
    (h : SortedMap.get "properties" out = some (.object properties)) :
    normalizeRequiredProperties out =
      SortedMap.insert "required" (.array ((propertyNames properties).map .string))
        (SortedMap.insert "properties" (.object (requireProperties out properties)) out) := by
  unfold normalizeRequiredProperties
  rw [h]
  rfl

lemma get_properties_closeMap (h : SortedMap.get "properties" out = some (.object properties)) :
    SortedMap.get "properties" (closeMap out) =
      some (.object (requireProperties out properties)) := by
  rw [get_closeMap_of_ne (by decide), normalizeRequiredProperties_of_get h,
    SortedMap.get_insert_of_ne (by decide), SortedMap.get_insert_self]

lemma get_required_closeMap (h : SortedMap.get "properties" out = some (.object properties)) :
    SortedMap.get "required" (closeMap out) =
      some (.array ((propertyNames properties).map .string)) := by
  rw [get_closeMap_of_ne (by decide), normalizeRequiredProperties_of_get h,
    SortedMap.get_insert_self]

lemma schemaIsObjectTyped_congr (h : SortedMap.get "type" map = SortedMap.get "type" out) :
    schemaIsObjectTyped map = schemaIsObjectTyped out := by
  unfold schemaIsObjectTyped
  rw [h]

lemma schemaIsObjectTyped_closeMap : schemaIsObjectTyped (closeMap out) = schemaIsObjectTyped out :=
  schemaIsObjectTyped_congr (get_closeMap (by decide) (by decide) (by decide))

@[simp] lemma propertyNames_requireProperties :
    propertyNames (requireProperties out properties) = propertyNames properties := by
  rw [propertyNames, propertyNames, requireProperties, List.map_map]
  rfl

lemma mem_closeMap {e : String × Json} (h : e ∈ closeMap out) :
    e ∈ out ∨ e = ("additionalProperties", .bool false) ∨
      ∃ properties, SortedMap.get "properties" out = some (.object properties) ∧
        (e = ("required", .array ((propertyNames properties).map .string)) ∨
          e = ("properties", .object (requireProperties out properties))) := by
  have hrequired : e ∈ normalizeRequiredProperties out → e ∈ out ∨
      ∃ properties, SortedMap.get "properties" out = some (.object properties) ∧
        (e = ("required", .array ((propertyNames properties).map .string)) ∨
          e = ("properties", .object (requireProperties out properties))) := by
    intro h
    unfold normalizeRequiredProperties at h
    split at h
    next properties hproperties =>
      rcases SortedMap.mem_insert h with rfl | h
      · exact .inr ⟨properties, hproperties, .inl rfl⟩
      · rcases SortedMap.mem_insert h with rfl | h
        · exact .inr ⟨properties, hproperties, .inr rfl⟩
        · exact .inl h
    next => exact .inl h
  by_cases hcloses : Closes out
  · rw [closeMap_of_closes hcloses] at h
    rcases SortedMap.mem_insert h with rfl | h
    · exact .inr (.inl rfl)
    · exact (hrequired h).imp_right .inr
  · rw [closeMap_of_not_closes hcloses] at h
    exact (hrequired h).imp_right .inr

end Jcode.OpenAiSchema
