import Jcode.Provider.StrictProperties
import Mathlib.Data.List.Forall2

/-!
# Equivalent strict schemas

A strict schema stands for the schema that it is made from: its objects are closed, a property that
was required takes no null that it did not take before, and one that was optional takes null and
whatever it took. It does where the literals of the optional properties allow it.
-/

namespace Jcode.OpenAiSchema

open Json

variable {map properties : Fields} {items : List Json} {s t v : Json}

/-! ### One property -/

/-- Null is taken, and whatever was taken before. -/
structure Widens (old new : Json) : Prop where
  null : Valid new .null
  keeps : ∀ v : Json, v.Sorted → Valid old v → Valid new v

/-- No enum or const keeps null out, and a value that only they let in is strict. -/
structure Widenable (schema : Json) : Prop where
  null : Valid schema .null ∨ TakesNull (· = .null) schema
  strict : ∀ v : Json, v.Sorted → Valid schema v →
    IsStrict v ∨ Accepts (fun _ => False) schema v

lemma strictNormalizeSchema_eq_null : strictNormalizeSchema s = .null ↔ s = .null := by
  cases s with
  | object => simp
  | array => simp
  | null | bool | number | string => simp [strictNormalizeSchema]

lemma valid_strictNormalizeSchema :
    Valid (strictNormalizeSchema s) v ↔ Accepts (strictNormalizeSchema · = v) s v :=
  accepts_strictNormalizeSchema

lemma valid_null_strictNormalizeSchema : Valid (strictNormalizeSchema s) .null ↔ Valid s .null := by
  simp only [valid_strictNormalizeSchema, strictNormalizeSchema_eq_null]

/-- A value that is not strict is no literal behind the walk. -/
lemma valid_of_not_isStrict (h : ¬ IsStrict v) :
    Valid (strictNormalizeSchema s) v ↔ Accepts (fun _ => False) s v := by
  rw [valid_strictNormalizeSchema]
  constructor
  · apply Accepts.mono
    rintro w rfl
    exact h (isStrict_strictNormalizeSchema w)
  · apply Accepts.mono
    intro w hw
    exact hw.elim

lemma valid_of_isStrict (h : IsStrict v) (hsorted : v.Sorted) (hvalid : Valid s v) :
    Valid (strictNormalizeSchema s) v := by
  rw [valid_strictNormalizeSchema]
  apply hvalid.mono
  rintro w rfl
  exact h.strictNormalizeSchema_eq hsorted

/-- What becomes of an optional property. -/
theorem widens_iff (h : s.Sorted) :
    Widens s (makeSchemaNullable (strictNormalizeSchema s)) ↔ Widenable s := by
  have hvalid : ∀ v, Valid (makeSchemaNullable (strictNormalizeSchema s)) v ↔
      Valid (strictNormalizeSchema s) v ∨ v = .null ∧ TakesNull (· = v) (strictNormalizeSchema s) :=
    fun v => accepts_makeSchemaNullable (sorted_strictNormalizeSchema h)
  have hnull : Valid (makeSchemaNullable (strictNormalizeSchema s)) .null ↔
      Valid s .null ∨ TakesNull (· = .null) s := by
    rw [hvalid, valid_null_strictNormalizeSchema, takesNull_strictNormalizeSchema]
    simp only [strictNormalizeSchema_eq_null, true_and]
  constructor
  · intro hwidens
    refine ⟨hnull.mp hwidens.null, ?_⟩
    intro v hv hold
    by_cases hstrict : IsStrict v
    · exact .inl hstrict
    · right
      rcases (hvalid v).mp (hwidens.keeps v hv hold) with hnew | ⟨rfl, -⟩
      · exact (valid_of_not_isStrict hstrict).mp hnew
      · exact absurd .null hstrict
  · intro hwidenable
    refine ⟨hnull.mpr hwidenable.null, ?_⟩
    intro v hv hold
    apply (hvalid v).mpr
    left
    by_cases hstrict : IsStrict v
    · exact valid_of_isStrict hstrict hv hold
    · exact (valid_of_not_isStrict hstrict).mpr
        ((hwidenable.strict v hv hold).resolve_left hstrict)

/-! ### Places in a strict schema -/

lemma notMem_mapKeywords_of_schema : ∀ key ∈ schemaKeywords, key ∉ mapKeywords := by decide

lemma notMem_mapKeywords_of_list : ∀ key ∈ listKeywords, key ∉ mapKeywords := by decide

lemma IsStrict.subschema (h : IsStrict s) (hsub : Subschema s t) : IsStrict t := by
  induction hsub with
  | refl => exact h
  | @schema fields key value t hkey _ hmem _ ih =>
    apply ih
    apply (isStrict_object.mp h).2 _ hmem
    rw [schemasAt_of_notMem (notMem_mapKeywords_of_schema key hkey)]
    exact List.mem_singleton_self value
  | @list fields key items item t hkey _ hmem hitem _ ih =>
    apply ih
    apply isStrict_array.mp _ item hitem
    apply (isStrict_object.mp h).2 _ hmem
    exact List.mem_singleton_self _
  | @map fields children key child t hkey _ hmem hchild _ ih =>
    apply ih
    apply (isStrict_object.mp h).2 _ hmem
    rw [schemasAt_map hkey]
    exact List.mem_map_of_mem hchild

/-- The schemas that are not left out with the other properties. -/
abbrev Kept : Json → Json → Prop :=
  Within fun map key => key = "additionalProperties" → ¬ Closes map

/-- What is in a schema is in the nullable one, but for the types and the alternatives. -/
lemma exists_subschema_makeSchemaNullable (hsorted : s.Sorted) (h : Subschema s t) :
    ∃ t', Subschema (makeSchemaNullable s) t' ∧ t'.get "properties" = t.get "properties" := by
  have hwrap : ∃ t', Subschema (wrapNullable s) t' ∧ t'.get "properties" = t.get "properties" := by
    refine ⟨t, ?_, rfl⟩
    exact .list (by decide) trivial List.mem_cons_self List.mem_cons_self h
  cases s with
  | object map =>
    have hmap := (sorted_object.mp hsorted).1
    have hinsert : ∀ (key : String) (value : Json), key ≠ "properties" →
        (∀ items : List Json, key ∈ listKeywords → SortedMap.get key map = some (.array items) →
          ∃ items', value = .array items' ∧ items ⊆ items') →
        key ∉ schemaKeywords → key ∉ mapKeywords →
        ∃ t', Subschema (.object (SortedMap.insert key value map)) t' ∧
          t'.get "properties" = t.get "properties" := by
      intro key value hproperties hlist hschema hmapKey
      cases h with
      | refl => exact ⟨_, .refl _, SortedMap.get_insert_of_ne hproperties⟩
      | @schema _ key' value' _ hkey _ hmem h =>
        have hne : key' ≠ key := fun heq => hschema (heq ▸ hkey)
        exact ⟨t, .schema hkey trivial (SortedMap.mem_insert_of_ne hmem hne) h, rfl⟩
      | @list _ key' items item _ hkey _ hmem hitem h =>
        by_cases hne : key' = key
        · subst hne
          obtain ⟨items', rfl, hsub⟩ := hlist items hkey (hmap.get_of_mem hmem)
          have hmem' := SortedMap.mem_of_get
            (SortedMap.get_insert_self (k := key') (v := .array items') (m := map))
          exact ⟨t, .list hkey trivial hmem' (hsub hitem) h, rfl⟩
        · exact ⟨t, .list hkey trivial (SortedMap.mem_insert_of_ne hmem hne) hitem h, rfl⟩
      | @map _ children key' child _ hkey _ hmem hchild h =>
        have hne : key' ≠ key := fun heq => hmapKey (heq ▸ hkey)
        exact ⟨t, .map hkey trivial (SortedMap.mem_insert_of_ne hmem hne) hchild h, rfl⟩
    simp only [makeSchemaNullable]
    split
    next t' htype =>
      split_ifs
      · exact ⟨t, h, rfl⟩
      · exact hinsert "type" _ (by decide) (fun _ hkey => absurd hkey (by decide)) (by decide)
          (by decide)
    next types htype =>
      exact hinsert "type" _ (by decide) (fun _ hkey => absurd hkey (by decide)) (by decide)
        (by decide)
    next =>
      split
      next anyOf hanyOf =>
        refine hinsert "anyOf" _ (by decide) ?_ (by decide) (by decide)
        intro items _ hget
        rw [hanyOf] at hget
        cases hget
        refine ⟨_, rfl, ?_⟩
        unfold pushNullSchema
        split_ifs
        · exact fun _ h => h
        · exact List.subset_append_left _ _
      next => exact hwrap
  | array | null | bool | number | string => exact hwrap

lemma closes_normalizeEntry : Closes (map.map normalizeEntry) ↔ Closes map := by
  have htyped : schemaIsObjectTyped (map.map normalizeEntry) = schemaIsObjectTyped map := by
    unfold schemaIsObjectTyped
    rw [get_normalizeEntry]
    cases SortedMap.get "type" map with
    | none => rfl
    | some value =>
      rw [Option.map_some, normalizeStrictSchemaKeyword_of_notMem (by decide)]
      cases value with
      | array types =>
        rw [strictNormalizeSchema_array]
        simp only [List.any_map, Function.comp_def, asStr_strictNormalizeSchema]
      | object => rw [strictNormalizeSchema_object]
      | null | bool | number | string => rfl
  rw [Closes, Closes, htyped, get_normalizeEntry, Option.isSome_map]

lemma get_properties_normalizeEntry
    (h : SortedMap.get "properties" map = some (.object properties)) :
    SortedMap.get "properties" (map.map normalizeEntry) =
      some (.object (properties.map fun e => (e.1, strictNormalizeSchema e.2))) := by
  rw [get_normalizeEntry, h, Option.map_some, normalizeStrictSchemaKeyword, if_pos (by decide),
    normalizeMapKeyword_object]

lemma existingRequiredKeys_normalizeEntry :
    existingRequiredKeys (map.map normalizeEntry) = existingRequiredKeys map := by
  unfold existingRequiredKeys
  rw [get_normalizeEntry]
  cases SortedMap.get "required" map with
  | none => rfl
  | some value =>
    rw [Option.map_some, normalizeStrictSchemaKeyword_of_notMem (by decide)]
    cases value with
    | array arr =>
      rw [strictNormalizeSchema_array]
      simp only [List.filterMap_map, Function.comp_def, asStr_strictNormalizeSchema]
    | object => rw [strictNormalizeSchema_object]
    | null | bool | number | string => rfl

/-- The properties that an object of a schema has behind the walk. -/
def normalizedProperties (map properties : Fields) : Fields :=
  properties.map fun property =>
    (property.1,
      if property.1 ∈ existingRequiredKeys map then strictNormalizeSchema property.2
      else makeSchemaNullable (strictNormalizeSchema property.2))

lemma get_properties_strictNormalizeSchema
    (h : SortedMap.get "properties" map = some (.object properties)) :
    (strictNormalizeSchema (.object map)).get "properties" =
      some (.object (normalizedProperties map properties)) := by
  rw [strictNormalizeSchema_object]
  change SortedMap.get "properties" _ = _
  rw [get_properties_closeMap (get_properties_normalizeEntry h), requireProperties,
    existingRequiredKeys_normalizeEntry, List.map_map]
  rfl

/-- Every schema that is kept is in the result, with its properties. -/
theorem exists_subschema_strictNormalizeSchema (hsorted : s.Sorted) (h : Kept s t) :
    ∃ t', Subschema (strictNormalizeSchema s) t' ∧
      t'.get "properties" = (strictNormalizeSchema t).get "properties" := by
  induction h with
  | refl s => exact ⟨_, .refl _, rfl⟩
  | @schema fields key value t hkey hreads hmem _ ih =>
    obtain ⟨t', hsub, hget⟩ := ih ((sorted_object.mp hsorted).2 _ hmem)
    have hentry := List.mem_map_of_mem (f := normalizeEntry) hmem
    rw [normalizeEntry, normalizeStrictSchemaKeyword_of_notMem
      (notMem_mapKeywords_of_schema key hkey)] at hentry
    refine ⟨t', ?_, hget⟩
    rw [strictNormalizeSchema_object]
    refine .schema hkey trivial (mem_closeMap_of_ne hentry ?_ ?_ ?_) hsub
    · rintro rfl
      exact absurd hkey (by decide)
    · rintro rfl
      exact absurd hkey (by decide)
    · intro hadditional
      rw [closes_normalizeEntry]
      exact hreads hadditional
  | @list fields key items item t hkey _ hmem hitem _ ih =>
    have harray := sorted_array.mp ((sorted_object.mp hsorted).2 _ hmem)
    obtain ⟨t', hsub, hget⟩ := ih (harray item hitem)
    have hentry := List.mem_map_of_mem (f := normalizeEntry) hmem
    rw [normalizeEntry, normalizeStrictSchemaKeyword_of_notMem
      (notMem_mapKeywords_of_list key hkey), strictNormalizeSchema_array] at hentry
    refine ⟨t', ?_, hget⟩
    rw [strictNormalizeSchema_object]
    refine .list hkey trivial (mem_closeMap_of_ne hentry ?_ ?_ ?_) (List.mem_map_of_mem hitem) hsub
    · rintro rfl
      exact absurd hkey (by decide)
    · rintro rfl
      exact absurd hkey (by decide)
    · rintro rfl
      exact absurd hkey (by decide)
  | @map fields children key child t hkey _ hmem hchild _ ih =>
    obtain ⟨hmap, hvalues⟩ := sorted_object.mp hsorted
    have hchildSorted := (sorted_object.mp (hvalues _ hmem)).2 child hchild
    obtain ⟨t', hsub, hget⟩ := ih hchildSorted
    by_cases hproperties : key = "properties"
    · subst hproperties
      have hnew := get_properties_strictNormalizeSchema (hmap.get_of_mem hmem)
      rw [strictNormalizeSchema_object] at hnew ⊢
      have hproperty := List.mem_map_of_mem hchild (f := fun property : String × Json =>
        (property.1, if property.1 ∈ existingRequiredKeys fields then
          strictNormalizeSchema property.2
          else makeSchemaNullable (strictNormalizeSchema property.2)))
      have hclosed := SortedMap.mem_of_get hnew
      by_cases hrequired : child.1 ∈ existingRequiredKeys fields
      · rw [if_pos hrequired] at hproperty
        exact ⟨t', .map hkey trivial hclosed hproperty hsub, hget⟩
      · rw [if_neg hrequired] at hproperty
        obtain ⟨t'', hsub', hget'⟩ := exists_subschema_makeSchemaNullable
          (sorted_strictNormalizeSchema hchildSorted) hsub
        exact ⟨t'', .map hkey trivial hclosed hproperty hsub', hget'.trans hget⟩
    · have hentry := List.mem_map_of_mem (f := normalizeEntry) hmem
      rw [normalizeEntry, normalizeStrictSchemaKeyword, if_pos hkey,
        normalizeMapKeyword_object] at hentry
      refine ⟨t', ?_, hget⟩
      rw [strictNormalizeSchema_object]
      refine .map hkey trivial (mem_closeMap_of_ne hentry hproperties ?_ ?_)
        (List.mem_map_of_mem hchild) hsub
      · rintro rfl
        exact absurd hkey (by decide)
      · rintro rfl
        exact absurd hkey (by decide)

/-! ### The whole schema -/

/-- What becomes of a property of an object. -/
structure PropertyKept (map : Fields) (old new : String × Json) : Prop where
  name : new.1 = old.1
  required : old.1 ∈ existingRequiredKeys map → Valid new.2 .null → Valid old.2 .null
  optional : old.1 ∉ existingRequiredKeys map → Widens old.2 new.2

/-- The result is strict, stays as it is, and its properties stand for those there were. -/
structure IsEquivalentStrict (s : Json) : Prop where
  closed : ∀ map properties, Subschema (strictNormalizeSchema s) (.object map) →
    SortedMap.get "properties" map = some (.object properties) →
    SortedMap.get "additionalProperties" map = some (.bool false) ∧
      SortedMap.get "required" map = some (.array ((propertyNames properties).map .string))
  properties : ∀ map properties, Kept s (.object map) →
    SortedMap.get "properties" map = some (.object properties) →
    ∃ properties' : Fields,
      (strictNormalizeSchema (.object map)).get "properties" = some (.object properties') ∧
      (∃ t, Subschema (strictNormalizeSchema s) t ∧
        t.get "properties" = some (.object properties')) ∧
      List.Forall₂ (PropertyKept map) properties properties'
  stable : strictNormalizeSchema (strictNormalizeSchema s) = strictNormalizeSchema s

/-- Every optional property can be widened. -/
def PropertiesWidenable (s : Json) : Prop :=
  ∀ map properties, Kept s (.object map) →
    SortedMap.get "properties" map = some (.object properties) →
    ∀ property ∈ properties, property.1 ∉ existingRequiredKeys map → Widenable property.2

lemma propertyKept_iff {property : String × Json} (hsorted : property.2.Sorted) :
    PropertyKept map property (property.1, if property.1 ∈ existingRequiredKeys map then
        strictNormalizeSchema property.2
        else makeSchemaNullable (strictNormalizeSchema property.2)) ↔
      (property.1 ∉ existingRequiredKeys map → Widenable property.2) := by
  constructor
  · intro h hoptional
    have hwidens := h.optional hoptional
    rw [if_neg hoptional] at hwidens
    exact (widens_iff hsorted).mp hwidens
  · intro h
    refine ⟨rfl, ?_, ?_⟩
    · intro hrequired hnull
      rw [if_pos hrequired] at hnull
      exact valid_null_strictNormalizeSchema.mp hnull
    · intro hoptional
      rw [if_neg hoptional]
      exact (widens_iff hsorted).mpr (h hoptional)

section

variable (hsorted : s.Sorted)
include hsorted

lemma forall_propertyKept_iff (hkept : Kept s (.object map))
    (hproperties : SortedMap.get "properties" map = some (.object properties)) :
    List.Forall₂ (PropertyKept map) properties (normalizedProperties map properties) ↔
      ∀ property ∈ properties, property.1 ∉ existingRequiredKeys map → Widenable property.2 := by
  have hvalues := (sorted_object.mp ((hkept.sorted hsorted).of_get hproperties)).2
  rw [normalizedProperties, List.forall₂_map_right_iff, List.forall₂_same]
  exact forall₂_congr fun property hmem => propertyKept_iff (hvalues property hmem)

lemma IsEquivalentStrict.widenable (h : IsEquivalentStrict s) : PropertiesWidenable s := by
  intro map properties hkept hproperties
  obtain ⟨properties', hget, -, hall⟩ := h.properties map properties hkept hproperties
  rw [get_properties_strictNormalizeSchema hproperties] at hget
  cases hget
  exact (forall_propertyKept_iff hsorted hkept hproperties).mp hall

lemma PropertiesWidenable.isEquivalentStrict (h : PropertiesWidenable s) :
    IsEquivalentStrict s := by
  refine ⟨?_, ?_, strictNormalizeSchema_idem hsorted⟩
  · intro map properties hsub hproperties
    have hstrict := (isStrict_strictNormalizeSchema s).subschema hsub
    have hclosed := (isStrict_object.mp hstrict).1
    refine ⟨hclosed.additional (.inr ?_), hclosed.required properties hproperties⟩
    rw [hproperties]
    rfl
  · intro map properties hkept hproperties
    have hget := get_properties_strictNormalizeSchema hproperties
    obtain ⟨t, hsub, ht⟩ := exists_subschema_strictNormalizeSchema hsorted hkept
    exact ⟨_, hget, ⟨t, hsub, ht.trans hget⟩,
      (forall_propertyKept_iff hsorted hkept hproperties).mpr (h map properties hkept hproperties)⟩

/-- The strict schema is equivalent if, and only if, the optional properties can be widened. -/
theorem strictNormalizeSchema_isEquivalent_iff : IsEquivalentStrict s ↔ PropertiesWidenable s :=
  ⟨fun h => h.widenable hsorted, fun h => h.isEquivalentStrict hsorted⟩

end

/-! ### Two schemas -/

/-- A limit may be left out. -/
def readSchema : Json :=
  .object [("properties", .object [("limit", .object [("type", .string "integer")]),
      ("path", .object [("type", .string "string")])]),
    ("required", .array [.string "path"]), ("type", .string "object")]

lemma sorted_typeSchema (name : String) : (object [("type", .string name)]).Sorted :=
  .object (List.pairwise_singleton _ _) (by simpa using Sorted.string name)

lemma sorted_readSchema : readSchema.Sorted := by
  refine .object (by decide) ?_
  simp only [List.forall_mem_cons, List.not_mem_nil, false_imp_iff, implies_true, and_true]
  refine ⟨.object (by decide) ?_, sorted_strings ["path"], .string "object"⟩
  simp [sorted_typeSchema]

lemma widenable_typeSchema (name : String) : Widenable (.object [("type", .string name)]) := by
  have haccepts : ∀ (allows : Json → Prop) (v : Json),
      Accepts allows (.object [("type", .string name)]) v ↔ v.IsOfType name := by
    intro allows v
    rw [accepts_object, List.forall_mem_singleton, keywordAccepts_type]
    rfl
  refine ⟨.inr ?_, ?_⟩
  · intro e he hne
    rw [List.mem_singleton.mp he] at hne
    exact absurd rfl hne
  · intro v _ hvalid
    right
    rw [haccepts]
    exact (haccepts _ v).mp hvalid

lemma kept_typeSchema {name : String} (h : Kept (.object [("type", .string name)]) t) :
    t = .object [("type", .string name)] := by
  cases h with
  | refl => rfl
  | schema hkey _ hmem =>
    cases List.mem_singleton.mp hmem
    exact absurd hkey (by decide)
  | list hkey _ hmem => cases List.mem_singleton.mp hmem
  | map hkey _ hmem => cases List.mem_singleton.mp hmem

lemma propertiesWidenable_readSchema : PropertiesWidenable readSchema := by
  intro map properties hkept hproperties property hmem hoptional
  cases hkept with
  | refl =>
    cases hproperties
    simp only [List.mem_cons, List.not_mem_nil, or_false] at hmem
    rcases hmem with rfl | rfl
    · exact widenable_typeSchema "integer"
    · exact widenable_typeSchema "string"
  | schema hkey _ hentry =>
    simp only [List.mem_cons, List.not_mem_nil, or_false, Prod.mk.injEq] at hentry
    rcases hentry with ⟨rfl, -⟩ | ⟨rfl, -⟩ | ⟨rfl, -⟩ <;>
      exact absurd hkey (by decide)
  | list hkey _ hentry =>
    simp only [List.mem_cons, List.not_mem_nil, or_false, Prod.mk.injEq] at hentry
    rcases hentry with ⟨rfl, -⟩ | ⟨rfl, -⟩ | ⟨rfl, -⟩ <;>
      exact absurd hkey (by decide)
  | map hkey _ hentry hchild h =>
    simp only [List.mem_cons, List.not_mem_nil, or_false, Prod.mk.injEq, object.injEq] at hentry
    rcases hentry with ⟨rfl, rfl⟩ | ⟨rfl, -⟩ | ⟨rfl, -⟩
    · simp only [List.mem_cons, List.not_mem_nil, or_false] at hchild
      rcases hchild with rfl | rfl <;>
        (cases kept_typeSchema h; cases hproperties)
    · exact absurd hkey (by decide)
    · exact absurd hkey (by decide)

theorem isEquivalentStrict_readSchema : IsEquivalentStrict readSchema :=
  (strictNormalizeSchema_isEquivalent_iff sorted_readSchema).mpr propertiesWidenable_readSchema

/-- A mode is one of two words. -/
def modeSchema : Json :=
  .object [("properties", .object [("mode", .object [
      ("enum", .array [.string "fast", .string "slow"]), ("type", .string "string")])]),
    ("type", .string "object")]

lemma sorted_modeSchema : modeSchema.Sorted := by
  have hmode : (object [("enum", .array [.string "fast", .string "slow"]),
      ("type", .string "string")]).Sorted := by
    refine .object (by decide) ?_
    simpa using ⟨sorted_strings ["fast", "slow"], Sorted.string "string"⟩
  have hproperties : (object [("mode", .object [("enum", .array [.string "fast", .string "slow"]),
      ("type", .string "string")])]).Sorted :=
    .object (List.pairwise_singleton _ _) (by simpa using hmode)
  exact .object (by decide) (by simpa using ⟨hproperties, Sorted.string "object"⟩)

/-- Null has the type behind the walk, but it is not in the enum. -/
theorem not_isEquivalentStrict :
    ¬ ∀ s : Json, s.Sorted → schemaSupportsStrict s = true → IsEquivalentStrict s := by
  intro h
  have hequivalent := h modeSchema sorted_modeSchema (by decide)
  have hwidenable := hequivalent.widenable sorted_modeSchema _ _ (.refl _) rfl _
    List.mem_cons_self (by decide)
  rcases hwidenable.null with hnull | hnull
  · rw [Valid, accepts_object] at hnull
    have hstring := (hnull ("type", .string "string") (by simp)).type rfl
    simp [TypeAccepts, IsOfType] at hstring
  · have henum := (hnull ("enum", .array [.string "fast", .string "slow"]) (by simp)
      (by decide)).enum rfl
    obtain ⟨w, hw, rfl⟩ := henum
    simp at hw

end Jcode.OpenAiSchema
