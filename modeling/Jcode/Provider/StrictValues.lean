import Jcode.Provider.StrictSchema

/-!
# Strict values

The values that `strict_normalize_schema` leaves as they are, and that what it makes is one of them.
-/

namespace Jcode.OpenAiSchema

open Json

variable {map out children properties : Fields} {items types anyOf : List Json} {key : String}
  {s t value : Json}

/-! ### Strict values -/

/-- What the walk takes for schemas in the value of a keyword. -/
def schemasAt (key : String) : Json → List Json
  | .object children => if key ∈ mapKeywords then children.map Prod.snd else [.object children]
  | value => [value]

lemma schemasAt_of_notMem (h : key ∉ mapKeywords) : schemasAt key value = [value] := by
  cases value with
  | object children => exact if_neg h
  | array | null | bool | number | string => rfl

lemma schemasAt_map (h : key ∈ mapKeywords) :
    schemasAt key (.object children) = children.map Prod.snd := if_pos h

lemma mem_parts_of_mem_schemasAt (h : t ∈ schemasAt key value) : t = value ∨ t ∈ value.parts := by
  cases value with
  | object children =>
    by_cases hkey : key ∈ mapKeywords
    · rw [schemasAt_map hkey] at h
      exact .inr h
    · rw [schemasAt_of_notMem hkey] at h
      exact .inl (List.mem_singleton.mp h)
  | array | null | bool | number | string => exact .inl (List.mem_singleton.mp h)

/-- Induction on the walk. -/
theorem induction_schemas {P : Json → Prop}
    (object : ∀ map : Fields, (∀ e ∈ map, ∀ t ∈ schemasAt e.1 e.2, P t) → P (.object map))
    (array : ∀ items : List Json, (∀ item ∈ items, P item) → P (.array items))
    (leaf : ∀ s : Json, s.isObject = false → s.isArray = false → P s) (s : Json) : P s := by
  induction s using induction_parts with
  | h s ih =>
    cases s with
    | object map =>
      apply object
      intro e he t ht
      have hpart := ih e.2 (List.mem_map_of_mem he)
      rcases mem_parts_of_mem_schemasAt ht with rfl | ht
      · exact hpart.1
      · exact hpart.2 t ht
    | array items => exact array items fun item hitem => (ih item hitem).1
    | null | bool | number | string => exact leaf _ rfl rfl

lemma strictNormalizeSchema_leaf (hobject : s.isObject = false) (harray : s.isArray = false) :
    strictNormalizeSchema s = s := by
  cases s with
  | object | array => contradiction
  | null | bool | number | string => rfl

/-- The walk goes from entry to entry. -/
lemma schemasAt_normalizeStrictSchemaKeyword :
    schemasAt key (normalizeStrictSchemaKeyword key value) =
      (schemasAt key value).map strictNormalizeSchema := by
  by_cases hkey : key ∈ mapKeywords
  · rw [normalizeStrictSchemaKeyword, if_pos hkey]
    cases value with
    | object children =>
      rw [normalizeMapKeyword_object, schemasAt_map hkey, schemasAt_map hkey, List.map_map,
        List.map_map]
      rfl
    | array items =>
      rw [normalizeMapKeyword, schemasAt, schemasAt, List.map_singleton, strictNormalizeSchema]
      all_goals simp
    | null | bool | number | string => rfl
  · rw [normalizeStrictSchemaKeyword_of_notMem hkey, schemasAt_of_notMem hkey,
      schemasAt_of_notMem hkey, List.map_singleton]

/-- All properties of an object are required, and no others are allowed. -/
structure ClosedMap (map : Fields) : Prop where
  required : ∀ properties, SortedMap.get "properties" map = some (.object properties) →
    SortedMap.get "required" map = some (.array ((propertyNames properties).map .string))
  additional : Closes map → SortedMap.get "additionalProperties" map = some (.bool false)

/-- Every object that the walk reaches is closed. -/
inductive IsStrict : Json → Prop
  | null : IsStrict .null
  | bool (value : Bool) : IsStrict (.bool value)
  | number (asU64 : Option Nat) (text : String) : IsStrict (.number asU64 text)
  | string (value : String) : IsStrict (.string value)
  | array {items : List Json} (h : ∀ item ∈ items, IsStrict item) : IsStrict (.array items)
  | object {map : Fields} (h : ClosedMap map)
    (hvalues : ∀ e ∈ map, ∀ t ∈ schemasAt e.1 e.2, IsStrict t) : IsStrict (.object map)

lemma isStrict_array : IsStrict (.array items) ↔ ∀ item ∈ items, IsStrict item :=
  ⟨fun h => by cases h with | array h => exact h, .array⟩

lemma isStrict_object : IsStrict (.object map) ↔
    ClosedMap map ∧ ∀ e ∈ map, ∀ t ∈ schemasAt e.1 e.2, IsStrict t :=
  ⟨fun h => by cases h with | object h hvalues => exact ⟨h, hvalues⟩, fun h => .object h.1 h.2⟩

lemma isStrict_strings (texts : List String) : IsStrict (.array (texts.map .string)) := by
  apply IsStrict.array
  intro item hitem
  obtain ⟨text, -, rfl⟩ := List.mem_map.mp hitem
  exact .string text

lemma closedMap_closeMap : ClosedMap (closeMap out) where
  required properties h := by
    cases hproperties : SortedMap.get "properties" out with
    | none =>
      rw [get_closeMap_of_ne (by decide), normalizeRequiredProperties, hproperties] at h
      simp only [hproperties] at h
      cases h
    | some value =>
      cases value with
      | object given =>
        rw [get_properties_closeMap hproperties] at h
        cases h
        rw [get_required_closeMap hproperties, propertyNames_requireProperties]
      | array | null | bool | number | string =>
        rw [get_closeMap_of_ne (by decide), normalizeRequiredProperties, hproperties] at h
        simp only [hproperties] at h
        cases h
  additional h := by
    have hcloses : Closes out := by
      rw [Closes, schemaIsObjectTyped_closeMap, get_closeMap_of_ne (by decide),
        isSome_properties_normalizeRequiredProperties] at h
      exact h
    rw [closeMap_of_closes hcloses, SortedMap.get_insert_self]

/-- A keyword that closes nothing is changed. -/
lemma ClosedMap.insert (h : ClosedMap map) (hproperties : key ≠ "properties")
    (hrequired : key ≠ "required") (hadditional : key ≠ "additionalProperties")
    (htyped : schemaIsObjectTyped (SortedMap.insert key value map) = schemaIsObjectTyped map) :
    ClosedMap (SortedMap.insert key value map) where
  required properties hget := by
    rw [SortedMap.get_insert_of_ne hproperties] at hget
    rw [SortedMap.get_insert_of_ne hrequired]
    exact h.required properties hget
  additional hcloses := by
    rw [Closes, htyped, SortedMap.get_insert_of_ne hproperties] at hcloses
    rw [SortedMap.get_insert_of_ne hadditional]
    exact h.additional hcloses

lemma IsStrict.insert (h : IsStrict (.object map)) (hkey : key ∉ mapKeywords)
    (hrequired : key ≠ "required") (hadditional : key ≠ "additionalProperties")
    (htyped : schemaIsObjectTyped (SortedMap.insert key value map) = schemaIsObjectTyped map)
    (hvalue : IsStrict value) : IsStrict (.object (SortedMap.insert key value map)) := by
  obtain ⟨hclosed, hvalues⟩ := isStrict_object.mp h
  have hproperties : key ≠ "properties" := by
    rintro rfl
    exact hkey (by decide)
  refine .object (hclosed.insert hproperties hrequired hadditional htyped) ?_
  intro e he
  rcases SortedMap.mem_insert he with rfl | he
  · rw [schemasAt_of_notMem hkey]
    rintro t ht
    rw [List.mem_singleton.mp ht]
    exact hvalue
  · exact hvalues e he

lemma IsStrict.of_get (h : IsStrict (.object map)) (hkey : key ∉ mapKeywords)
    (hget : SortedMap.get key map = some value) : IsStrict value := by
  apply (isStrict_object.mp h).2 _ (SortedMap.mem_of_get hget)
  rw [schemasAt_of_notMem hkey]
  exact List.mem_singleton_self value

lemma isStrict_nullSchema : IsStrict nullSchema := by
  refine .object ⟨fun properties h => (nomatch h), fun h => ?_⟩ ?_
  · rcases h with h | h <;> cases h
  · rintro e he t ht
    obtain rfl := List.mem_singleton.mp he
    obtain rfl := List.mem_singleton.mp ht
    exact .string _

lemma IsStrict.wrapNullable (h : IsStrict s) : IsStrict (wrapNullable s) := by
  refine .object ⟨fun properties h => (nomatch h), fun h => ?_⟩ ?_
  · rcases h with h | h <;> cases h
  · rintro e he t ht
    obtain rfl := List.mem_singleton.mp he
    obtain rfl := List.mem_singleton.mp ht
    apply IsStrict.array
    simp [h, isStrict_nullSchema]

lemma any_pushNullType :
    ((pushNullType types).any fun v => v.asStr = some "object") =
      types.any fun v => v.asStr = some "object" := by
  unfold pushNullType
  split_ifs
  · rfl
  · rw [List.any_append]
    exact Bool.or_false _

/-- Null is a type more, or an alternative more. -/
lemma IsStrict.makeSchemaNullable (h : IsStrict s) : IsStrict (makeSchemaNullable s) := by
  cases s with
  | object map =>
    simp only [OpenAiSchema.makeSchemaNullable]
    split
    next t htype =>
      split_ifs
      · exact h
      · refine h.insert (by decide) (by decide) (by decide) ?_ ?_
        · simp [schemaIsObjectTyped, htype, asStr]
        · exact isStrict_strings [t, "null"]
    next types htype =>
      have htypes := isStrict_array.mp (h.of_get (by decide) htype)
      refine h.insert (by decide) (by decide) (by decide) ?_ (.array ?_)
      · simp only [schemaIsObjectTyped, SortedMap.get_insert_self, any_pushNullType, htype]
      · unfold pushNullType
        split_ifs
        · exact htypes
        · exact List.forall_mem_append.mpr ⟨htypes, by simpa using IsStrict.string "null"⟩
    next =>
      split
      next anyOf hanyOf =>
        have hbranches := isStrict_array.mp (h.of_get (by decide) hanyOf)
        refine h.insert (by decide) (by decide) (by decide) ?_ (.array ?_)
        · exact schemaIsObjectTyped_congr (SortedMap.get_insert_of_ne (by decide))
        · unfold pushNullSchema
          split_ifs
          · exact hbranches
          · exact List.forall_mem_append.mpr ⟨hbranches, by simpa using isStrict_nullSchema⟩
      next => exact h.wrapNullable
  | array | null | bool | number | string => exact h.wrapNullable

/-- What the walk makes of a value is strict. -/
theorem isStrict_strictNormalizeSchema (s : Json) : IsStrict (strictNormalizeSchema s) := by
  induction s using induction_schemas with
  | object map ih =>
    rw [strictNormalizeSchema_object]
    have hvalues : ∀ e ∈ map.map normalizeEntry, ∀ t ∈ schemasAt e.1 e.2, IsStrict t := by
      intro e' he' t' ht'
      obtain ⟨e, he, rfl⟩ := List.mem_map.mp he'
      change t' ∈ schemasAt e.1 (normalizeStrictSchemaKeyword e.1 e.2) at ht'
      rw [schemasAt_normalizeStrictSchemaKeyword] at ht'
      obtain ⟨t, ht, rfl⟩ := List.mem_map.mp ht'
      exact ih e he t ht
    refine .object closedMap_closeMap ?_
    intro e he
    rcases mem_closeMap he with he | rfl | ⟨properties, hproperties, rfl | rfl⟩
    · exact hvalues e he
    · rintro t ht
      obtain rfl := List.mem_singleton.mp ht
      exact .bool false
    · rintro t ht
      obtain rfl := List.mem_singleton.mp ht
      exact isStrict_strings _
    · have hkey : "properties" ∈ mapKeywords := by decide
      have hold := hvalues _ (SortedMap.mem_of_get hproperties)
      rw [schemasAt_map hkey] at hold
      rw [schemasAt_map hkey, requireProperties, List.map_map]
      rintro t ht
      obtain ⟨property, hmem, rfl⟩ := List.mem_map.mp ht
      have hproperty := hold _ (List.mem_map_of_mem hmem)
      simp only [Function.comp_apply, requireProperty]
      split_ifs
      · exact hproperty
      · exact hproperty.makeSchemaNullable
  | array items ih =>
    rw [strictNormalizeSchema_array]
    apply IsStrict.array
    intro item' hitem'
    obtain ⟨item, hitem, rfl⟩ := List.mem_map.mp hitem'
    exact ih item hitem
  | leaf s hobject harray =>
    rw [strictNormalizeSchema_leaf hobject harray]
    cases s with
    | object | array => contradiction
    | null => exact .null
    | bool value => exact .bool value
    | number asU64 text => exact .number asU64 text
    | string value => exact .string value

/-! ### The walk again -/

lemma sorted_nullSchema : nullSchema.Sorted := by
  refine .object (List.pairwise_singleton _ _) ?_
  simpa using Sorted.string "null"

lemma sorted_wrapNullable (h : s.Sorted) : (wrapNullable s).Sorted := by
  refine .object (List.pairwise_singleton _ _) ?_
  simpa using Sorted.array (by simpa using ⟨h, sorted_nullSchema⟩)

lemma sorted_strings (texts : List String) : (array (texts.map .string)).Sorted := by
  apply Sorted.array
  intro item hitem
  obtain ⟨text, -, rfl⟩ := List.mem_map.mp hitem
  exact .string text

lemma sorted_makeSchemaNullable (h : s.Sorted) : (makeSchemaNullable s).Sorted := by
  cases s with
  | object map =>
    simp only [OpenAiSchema.makeSchemaNullable]
    split
    next t htype =>
      split_ifs
      · exact h
      · exact h.insert (sorted_strings [t, "null"])
    next types htype =>
      have htypes := sorted_array.mp (h.of_get htype)
      refine h.insert (.array ?_)
      unfold pushNullType
      split_ifs
      · exact htypes
      · exact List.forall_mem_append.mpr ⟨htypes, by simpa using Sorted.string "null"⟩
    next =>
      split
      next anyOf hanyOf =>
        have hbranches := sorted_array.mp (h.of_get hanyOf)
        refine h.insert (.array ?_)
        unfold pushNullSchema
        split_ifs
        · exact hbranches
        · exact List.forall_mem_append.mpr ⟨hbranches, by simpa using sorted_nullSchema⟩
      next => exact sorted_wrapNullable h
  | array | null | bool | number | string => exact sorted_wrapNullable h

lemma sorted_closeMap (h : (object out).Sorted) : (object (closeMap out)).Sorted := by
  have hrequired : (object (normalizeRequiredProperties out)).Sorted := by
    unfold normalizeRequiredProperties
    split
    next properties hproperties =>
      obtain ⟨hsorted, hvalues⟩ := sorted_object.mp (h.of_get hproperties)
      have hproperties' : (object (requireProperties out properties)).Sorted := by
        refine .object (hsorted.map_entries fun _ => rfl) ?_
        intro e' he'
        obtain ⟨e, he, rfl⟩ := List.mem_map.mp he'
        simp only [requireProperty]
        split_ifs
        · exact hvalues e he
        · exact sorted_makeSchemaNullable (hvalues e he)
      exact (h.insert hproperties').insert (sorted_strings _)
    next => exact h
  by_cases hcloses : Closes out
  · rw [closeMap_of_closes hcloses]
    exact hrequired.insert (.bool false)
  · rw [closeMap_of_not_closes hcloses]
    exact hrequired

lemma sorted_normalizeStrictSchemaKeyword (h : value.Sorted)
    (ih : ∀ t ∈ schemasAt key value, t.Sorted → (strictNormalizeSchema t).Sorted) :
    (normalizeStrictSchemaKeyword key value).Sorted := by
  by_cases hkey : key ∈ mapKeywords
  · rw [OpenAiSchema.normalizeStrictSchemaKeyword, if_pos hkey]
    cases value with
    | object children =>
      obtain ⟨hsorted, hvalues⟩ := sorted_object.mp h
      rw [schemasAt_map hkey] at ih
      rw [normalizeMapKeyword_object]
      refine .object (hsorted.map _) ?_
      intro c' hc'
      obtain ⟨c, hc, rfl⟩ := List.mem_map.mp hc'
      exact ih c.2 (List.mem_map_of_mem hc) (hvalues c hc)
    | array | null | bool | number | string =>
      rw [normalizeMapKeyword_of_ne fun children => by simp]
      exact ih _ (List.mem_singleton_self _) h
  · rw [normalizeStrictSchemaKeyword_of_notMem hkey]
    apply ih _ _ h
    rw [schemasAt_of_notMem hkey]
    exact List.mem_singleton_self value

lemma sorted_strictNormalizeSchema (h : s.Sorted) : (strictNormalizeSchema s).Sorted := by
  induction s using induction_schemas with
  | object map ih =>
    obtain ⟨hsorted, hvalues⟩ := sorted_object.mp h
    rw [strictNormalizeSchema_object]
    refine sorted_closeMap (.object (hsorted.map_entries fun _ => rfl) ?_)
    intro e' he'
    obtain ⟨e, he, rfl⟩ := List.mem_map.mp he'
    exact sorted_normalizeStrictSchemaKeyword (hvalues e he) fun t ht => ih e he t ht
  | array items ih =>
    rw [strictNormalizeSchema_array]
    apply Sorted.array
    intro item' hitem'
    obtain ⟨item, hitem, rfl⟩ := List.mem_map.mp hitem'
    exact ih item hitem (sorted_array.mp h item hitem)
  | leaf s hobject harray =>
    rw [strictNormalizeSchema_leaf hobject harray]
    exact h

lemma normalizeStrictSchemaKeyword_eq_self
    (h : ∀ t ∈ schemasAt key value, strictNormalizeSchema t = t) :
    normalizeStrictSchemaKeyword key value = value := by
  by_cases hkey : key ∈ mapKeywords
  · rw [normalizeStrictSchemaKeyword, if_pos hkey]
    cases value with
    | object children =>
      rw [schemasAt_map hkey] at h
      rw [normalizeMapKeyword_object]
      congr 1
      conv_rhs => rw [← List.map_id children]
      apply List.map_congr_left
      intro c hc
      rw [h c.2 (List.mem_map_of_mem hc)]
      rfl
    | array | null | bool | number | string =>
      rw [normalizeMapKeyword_of_ne fun children => by simp]
      exact h _ (List.mem_singleton_self _)
  · rw [normalizeStrictSchemaKeyword_of_notMem hkey]
    apply h
    rw [schemasAt_of_notMem hkey]
    exact List.mem_singleton_self value

lemma existingRequiredKeys_of_get {names : List String}
    (h : SortedMap.get "required" map = some (.array (names.map .string))) :
    existingRequiredKeys map = names := by
  simp [existingRequiredKeys, h, List.filterMap_map, Function.comp_def, asStr]

lemma ClosedMap.closeMap_eq (h : ClosedMap map) (hsorted : SortedMap.Sorted map) :
    closeMap map = map := by
  have hrequired : normalizeRequiredProperties map = map := by
    unfold normalizeRequiredProperties
    split
    next properties hproperties =>
      have hget := h.required properties hproperties
      have hsame : properties.map (requireProperty (existingRequiredKeys map)) = properties := by
        conv_rhs => rw [← List.map_id properties]
        apply List.map_congr_left
        intro e he
        have hmem : e.1 ∈ propertyNames properties :=
          List.mem_mergeSort.mpr (List.mem_map_of_mem he)
        rw [existingRequiredKeys_of_get hget, requireProperty, if_pos hmem]
        rfl
      simp only [hsame, hsorted.insert_of_get hproperties, hsorted.insert_of_get hget]
    next => rfl
  by_cases hcloses : Closes map
  · rw [closeMap_of_closes hcloses, hrequired, hsorted.insert_of_get (h.additional hcloses)]
  · rw [closeMap_of_not_closes hcloses, hrequired]

lemma IsStrict.strictNormalizeSchema_eq (h : IsStrict s) (hsorted : s.Sorted) :
    strictNormalizeSchema s = s := by
  induction s using induction_schemas with
  | object map ih =>
    obtain ⟨hclosed, hvalues⟩ := isStrict_object.mp h
    obtain ⟨hmap, hparts⟩ := sorted_object.mp hsorted
    have hentries : map.map normalizeEntry = map := by
      conv_rhs => rw [← List.map_id map]
      apply List.map_congr_left
      intro e he
      have hvalue : normalizeStrictSchemaKeyword e.1 e.2 = e.2 := by
        apply normalizeStrictSchemaKeyword_eq_self
        intro t ht
        apply ih e he t ht (hvalues e he t ht)
        rcases mem_parts_of_mem_schemasAt ht with rfl | ht
        · exact hparts e he
        · exact (hparts e he).of_mem_parts ht
      rw [normalizeEntry, hvalue]
      rfl
    rw [strictNormalizeSchema_object, hentries, hclosed.closeMap_eq hmap]
  | array items ih =>
    rw [strictNormalizeSchema_array]
    congr 1
    conv_rhs => rw [← List.map_id items]
    apply List.map_congr_left
    intro item hitem
    exact ih item hitem (isStrict_array.mp h item hitem) (sorted_array.mp hsorted item hitem)
  | leaf s hobject harray => exact strictNormalizeSchema_leaf hobject harray

/-- The walk changes what is not strict, and nothing else. -/
theorem strictNormalizeSchema_eq_self_iff (hsorted : s.Sorted) :
    strictNormalizeSchema s = s ↔ IsStrict s := by
  constructor
  · intro h
    rw [← h]
    exact isStrict_strictNormalizeSchema s
  · intro h
    exact h.strictNormalizeSchema_eq hsorted

theorem strictNormalizeSchema_idem (hsorted : s.Sorted) :
    strictNormalizeSchema (strictNormalizeSchema s) = strictNormalizeSchema s :=
  (isStrict_strictNormalizeSchema s).strictNormalizeSchema_eq (sorted_strictNormalizeSchema hsorted)

end Jcode.OpenAiSchema
