import Jcode.Provider.StrictValues

/-!
# The properties of a strict schema

What a property that was optional may be behind `strict_normalize_schema`. An enum or a const is
walked through like a schema, and null is only added to the types or to the alternatives.
-/

namespace Jcode.OpenAiSchema

open Json

variable {allows : Json → Prop} {map out properties : Fields} {types anyOf : List Json}
  {key : String} {s t v value : Json}

/-! ### What is accepted behind the walk -/

/-- The keys that the walk writes. -/
def writtenKeys : List String := ["properties", "required", "additionalProperties"]

lemma mem_closeMap_of_ne {e : String × Json} (h : e ∈ out) (hproperties : e.1 ≠ "properties")
    (hrequired : e.1 ≠ "required") (hadditional : e.1 = "additionalProperties" → ¬ Closes out) :
    e ∈ closeMap out := by
  have hmem : e ∈ normalizeRequiredProperties out := by
    unfold normalizeRequiredProperties
    split
    next => exact SortedMap.mem_insert_of_ne (SortedMap.mem_insert_of_ne h hproperties) hrequired
    next => exact h
  by_cases hcloses : Closes out
  · rw [closeMap_of_closes hcloses]
    exact SortedMap.mem_insert_of_ne hmem fun h => hadditional h hcloses
  · rw [closeMap_of_not_closes hcloses]
    exact hmem

/-- Only the written keys are looked at behind the walk. -/
lemma forall_mem_closeMap {P : String × Json → Prop}
    (h : ∀ key ∈ writtenKeys, ∀ value, P (key, value)) :
    (∀ e ∈ closeMap out, P e) ↔ ∀ e ∈ out, P e := by
  constructor
  · intro hall e he
    by_cases hkey : e.1 ∈ writtenKeys
    · exact h e.1 hkey e.2
    · simp only [writtenKeys, List.mem_cons, List.not_mem_nil, or_false, not_or] at hkey
      obtain ⟨hproperties, hrequired, hadditional⟩ := hkey
      exact hall e (mem_closeMap_of_ne he hproperties hrequired fun h => absurd h hadditional)
  · intro hall e he
    rcases mem_closeMap he with he | rfl | ⟨properties, -, rfl | rfl⟩
    · exact hall e he
    · exact h _ (by simp [writtenKeys]) _
    · exact h _ (by simp [writtenKeys]) _
    · exact h _ (by simp [writtenKeys]) _

lemma typeAccepts_strictNormalizeSchema :
    TypeAccepts (strictNormalizeSchema value) v ↔ TypeAccepts value v := by
  cases value with
  | array types =>
    have hmem : ∀ name, .string name ∈ types.map strictNormalizeSchema ↔ .string name ∈ types := by
      intro name
      rw [List.mem_map]
      constructor
      · rintro ⟨t, ht, heq⟩
        have hname := congrArg asStr heq
        rw [asStr_strictNormalizeSchema] at hname
        cases t with
        | string text => cases hname; exact ht
        | object | array | null | bool | number => cases hname
      · intro h
        exact ⟨_, h, rfl⟩
    simp only [strictNormalizeSchema_array, TypeAccepts, hmem]
  | object => simp [TypeAccepts]
  | null | bool | number | string => rfl

lemma enumAccepts_strictNormalizeSchema :
    EnumAccepts allows (strictNormalizeSchema value) ↔
      EnumAccepts (fun w => allows (strictNormalizeSchema w)) value := by
  cases value with
  | array literals => simp [EnumAccepts]
  | object => simp [EnumAccepts]
  | null | bool | number | string => rfl

lemma notMem_mapKeywords (h : key ∈ decidingKeywords) : key ∉ mapKeywords := by
  revert h
  revert key
  decide

/-- A literal stands for what the walk makes of it. -/
lemma keywordAccepts_normalize
    (ih : ∀ branches, value = .array branches → ∀ b ∈ branches,
      (Accepts allows (strictNormalizeSchema b) v ↔
        Accepts (fun w => allows (strictNormalizeSchema w)) b v)) :
    KeywordAccepts allows key (normalizeStrictSchemaKeyword key value) v ↔
      KeywordAccepts (fun w => allows (strictNormalizeSchema w)) key value v := by
  by_cases hkey : key ∈ decidingKeywords
  · rw [normalizeStrictSchemaKeyword_of_notMem (notMem_mapKeywords hkey)]
    have hanyOf : (∀ branches, strictNormalizeSchema value = .array branches →
        ∃ b ∈ branches, Accepts allows b v) ↔ ∀ branches, value = .array branches →
        ∃ b ∈ branches, Accepts (fun w => allows (strictNormalizeSchema w)) b v := by
      cases value with
      | array branches =>
        simp only [strictNormalizeSchema_array, array.injEq, forall_eq']
        constructor
        · rintro ⟨b', hb', h⟩
          obtain ⟨b, hb, rfl⟩ := List.mem_map.mp hb'
          exact ⟨b, hb, (ih branches rfl b hb).mp h⟩
        · rintro ⟨b, hb, h⟩
          exact ⟨_, List.mem_map_of_mem hb, (ih branches rfl b hb).mpr h⟩
      | object => simp
      | null | bool | number | string => simp [strictNormalizeSchema]
    constructor
    · intro h
      exact ⟨fun hkey => typeAccepts_strictNormalizeSchema.mp (h.type hkey),
        fun hkey => enumAccepts_strictNormalizeSchema.mp (h.enum hkey), h.const,
        fun hkey => hanyOf.mp (h.anyOf hkey)⟩
    · intro h
      exact ⟨fun hkey => typeAccepts_strictNormalizeSchema.mpr (h.type hkey),
        fun hkey => enumAccepts_strictNormalizeSchema.mpr (h.enum hkey), h.const,
        fun hkey => hanyOf.mpr (h.anyOf hkey)⟩
  · exact ⟨fun _ => .of_notMem hkey, fun _ => .of_notMem hkey⟩

lemma keywordAccepts_of_written (h : key ∈ writtenKeys) : KeywordAccepts allows key value v := by
  apply KeywordAccepts.of_notMem
  revert h
  revert key
  decide

/-- What the walk leaves of acceptance. -/
theorem accepts_strictNormalizeSchema : Accepts allows (strictNormalizeSchema s) v ↔
    Accepts (fun w => allows (strictNormalizeSchema w)) s v := by
  induction s using induction_parts with
  | h s ih =>
    cases s with
    | object map =>
      rw [strictNormalizeSchema_object, accepts_object,
        forall_mem_closeMap fun key hkey value => keywordAccepts_of_written hkey,
        List.forall_mem_map, accepts_object]
      apply forall₂_congr
      intro e he
      apply keywordAccepts_normalize
      intro branches hvalue b hb
      refine (ih e.2 (List.mem_map_of_mem he)).2 b ?_
      rw [hvalue]
      exact hb
    | array items => simp [Accepts]
    | null | bool | number | string => simp [strictNormalizeSchema, Accepts]

/-! ### Null -/

lemma isOfType_null : v.IsOfType "null" ↔ v = .null := by
  cases v <;> simp [IsOfType]

lemma accepts_nullSchema : Accepts allows nullSchema v ↔ v = .null := by
  rw [nullSchema, accepts_object, List.forall_mem_singleton, keywordAccepts_type]
  exact isOfType_null

lemma accepts_wrapNullable :
    Accepts allows (wrapNullable s) v ↔ Accepts allows s v ∨ v = .null := by
  rw [wrapNullable, accepts_object, List.forall_mem_singleton, keywordAccepts_anyOf]
  simp [accepts_nullSchema]

lemma typeAccepts_pushNullType :
    TypeAccepts (.array (pushNullType types)) v ↔ TypeAccepts (.array types) v ∨ v = .null := by
  unfold pushNullType
  split_ifs with h
  · rw [iff_self_or]
    rintro rfl
    obtain ⟨t, ht, hnull⟩ := List.any_eq_true.mp h
    cases t with
    | string name =>
      simp only [asStr, Option.some.injEq, decide_eq_true_eq] at hnull
      exact ⟨name, ht, hnull⟩
    | object | array | null | bool | number => simp [asStr] at hnull
  · simp only [TypeAccepts, List.mem_append, List.mem_singleton, string.injEq, or_and_right,
      exists_or, exists_eq_left, isOfType_null]

lemma accepts_null_of_mem_pushNullSchema :
    (∃ b ∈ pushNullSchema anyOf, Accepts allows b v) ↔ (∃ b ∈ anyOf, Accepts allows b v) ∨
      v = .null ∧ ∀ b ∈ anyOf, schemaContainsNullType b = false := by
  unfold pushNullSchema
  split_ifs with h
  · obtain ⟨b, hb, hnull⟩ := List.any_eq_true.mp h
    have hnot : ¬ ∀ b ∈ anyOf, schemaContainsNullType b = false := by
      intro hall
      rw [hall b hb] at hnull
      cases hnull
    simp [hnot]
  · have hall : ∀ b ∈ anyOf, schemaContainsNullType b = false := by
      simpa using h
    simp only [List.mem_append, List.mem_singleton, or_and_right, exists_or, exists_eq_left,
      accepts_nullSchema, and_iff_left hall]

/-- The other keywords allow null, where it is added. -/
def TakesNull (allows : Json → Prop) : Json → Prop
  | .object map =>
    match SortedMap.get "type" map with
    | some (.string _) | some (.array _) =>
      ∀ e ∈ map, e.1 ≠ "type" → KeywordAccepts allows e.1 e.2 .null
    | _ =>
      match SortedMap.get "anyOf" map with
      | some (.array anyOf) => (∀ b ∈ anyOf, schemaContainsNullType b = false) ∧
          ∀ e ∈ map, e.1 ≠ "anyOf" → KeywordAccepts allows e.1 e.2 .null
      | _ => True
  | _ => True

/-- A keyword that takes null as well is put in the place of another. -/
lemma accepts_insert_null {value' : Json} {added : Prop} (hmap : SortedMap.Sorted map)
    (hget : SortedMap.get key map = some value)
    (h : KeywordAccepts allows key value' v ↔
      KeywordAccepts allows key value v ∨ v = .null ∧ added) :
    Accepts allows (.object (SortedMap.insert key value' map)) v ↔
      Accepts allows (.object map) v ∨
        v = .null ∧ added ∧ ∀ e ∈ map, e.1 ≠ key → KeywordAccepts allows e.1 e.2 .null := by
  rw [accepts_insert hmap, accepts_of_get hmap hget, h]
  constructor
  · rintro ⟨hkeyword | ⟨rfl, hadded⟩, hrest⟩
    · exact .inl ⟨hkeyword, hrest⟩
    · exact .inr ⟨rfl, hadded, hrest⟩
  · rintro (⟨hkeyword, hrest⟩ | ⟨rfl, hadded, hrest⟩)
    · exact ⟨.inl hkeyword, hrest⟩
    · exact ⟨.inr ⟨rfl, hadded⟩, hrest⟩

/-- Null is not added to the type. -/
structure Untyped (map : Fields) : Prop where
  string : ∀ t, SortedMap.get "type" map ≠ some (.string t)
  array : ∀ types, SortedMap.get "type" map ≠ some (.array types)

section

variable (h : Untyped map)
include h

lemma Untyped.makeSchemaNullable_of_get (hget : SortedMap.get "anyOf" map = some (.array anyOf)) :
    makeSchemaNullable (.object map) =
      .object (SortedMap.insert "anyOf" (.array (pushNullSchema anyOf)) map) := by
  cases htype : SortedMap.get "type" map with
  | none => simp only [makeSchemaNullable, htype, hget]
  | some value =>
    cases value with
    | string t => exact absurd htype (h.string t)
    | array types => exact absurd htype (h.array types)
    | object | null | bool | number => simp only [makeSchemaNullable, htype, hget]

lemma Untyped.makeSchemaNullable_of_ne
    (hget : ∀ anyOf, SortedMap.get "anyOf" map ≠ some (.array anyOf)) :
    makeSchemaNullable (.object map) = wrapNullable (.object map) := by
  cases htype : SortedMap.get "type" map with
  | none => simp only [makeSchemaNullable, htype]
  | some value =>
    cases value with
    | string t => exact absurd htype (h.string t)
    | array types => exact absurd htype (h.array types)
    | object | null | bool | number => simp only [makeSchemaNullable, htype]

lemma Untyped.takesNull_of_get (hget : SortedMap.get "anyOf" map = some (.array anyOf)) :
    TakesNull allows (.object map) ↔ (∀ b ∈ anyOf, schemaContainsNullType b = false) ∧
      ∀ e ∈ map, e.1 ≠ "anyOf" → KeywordAccepts allows e.1 e.2 .null := by
  cases htype : SortedMap.get "type" map with
  | none => simp only [TakesNull, htype, hget]
  | some value =>
    cases value with
    | string t => exact absurd htype (h.string t)
    | array types => exact absurd htype (h.array types)
    | object | null | bool | number => simp only [TakesNull, htype, hget]

lemma Untyped.takesNull_of_ne
    (hget : ∀ anyOf, SortedMap.get "anyOf" map ≠ some (.array anyOf)) :
    TakesNull allows (.object map) := by
  cases htype : SortedMap.get "type" map with
  | none => simp only [TakesNull, htype]
  | some value =>
    cases value with
    | string t => exact absurd htype (h.string t)
    | array types => exact absurd htype (h.array types)
    | object | null | bool | number => simp only [TakesNull, htype]

/-- Null is one more alternative, or the schema is one of two. -/
lemma Untyped.accepts_makeSchemaNullable (hmap : SortedMap.Sorted map) :
    Accepts allows (makeSchemaNullable (.object map)) v ↔
      Accepts allows (.object map) v ∨ v = .null ∧ TakesNull allows (.object map) := by
  by_cases hget : ∃ anyOf, SortedMap.get "anyOf" map = some (.array anyOf)
  · obtain ⟨anyOf, hanyOf⟩ := hget
    rw [h.makeSchemaNullable_of_get hanyOf, h.takesNull_of_get hanyOf]
    apply accepts_insert_null hmap hanyOf
    rw [keywordAccepts_anyOf, keywordAccepts_anyOf, accepts_null_of_mem_pushNullSchema]
  · rw [not_exists] at hget
    rw [h.makeSchemaNullable_of_ne hget, and_iff_left (h.takesNull_of_ne hget)]
    exact accepts_wrapNullable

end

/-- Null is added, and nothing else. -/
theorem accepts_makeSchemaNullable (hsorted : s.Sorted) :
    Accepts allows (makeSchemaNullable s) v ↔
      Accepts allows s v ∨ v = .null ∧ TakesNull allows s := by
  cases s with
  | object map =>
    have hmap := (sorted_object.mp hsorted).1
    by_cases hstring : ∃ t, SortedMap.get "type" map = some (.string t)
    · obtain ⟨t, htype⟩ := hstring
      have hkeyword : KeywordAccepts allows "type" (.array [.string t, .string "null"]) v ↔
          KeywordAccepts allows "type" (.string t) v ∨ v = .null ∧ True := by
        rw [keywordAccepts_type, keywordAccepts_type, and_true]
        simp [TypeAccepts, or_and_right, exists_or, isOfType_null]
      simp only [makeSchemaNullable, TakesNull, htype]
      split_ifs with hnull
      · rw [iff_self_or]
        rintro ⟨rfl, hrest⟩
        rw [accepts_of_get hmap htype, keywordAccepts_type]
        exact ⟨hnull, hrest⟩
      · rw [accepts_insert_null hmap htype hkeyword, true_and]
    by_cases harray : ∃ types, SortedMap.get "type" map = some (.array types)
    · obtain ⟨types, htype⟩ := harray
      have hkeyword : KeywordAccepts allows "type" (.array (pushNullType types)) v ↔
          KeywordAccepts allows "type" (.array types) v ∨ v = .null ∧ True := by
        rw [keywordAccepts_type, keywordAccepts_type, and_true, typeAccepts_pushNullType]
      simp only [makeSchemaNullable, TakesNull, htype]
      rw [accepts_insert_null hmap htype hkeyword, true_and]
    have huntyped : Untyped map := ⟨not_exists.mp hstring, not_exists.mp harray⟩
    exact huntyped.accepts_makeSchemaNullable hmap
  | array | null | bool | number | string =>
    simp only [makeSchemaNullable, TakesNull, and_true]
    exact accepts_wrapNullable

lemma get_strictNormalizeSchema (hwritten : key ∉ writtenKeys) (hkey : key ∉ mapKeywords) :
    (strictNormalizeSchema s).get key = (s.get key).map strictNormalizeSchema := by
  cases s with
  | object map =>
    simp only [writtenKeys, List.mem_cons, List.not_mem_nil, or_false, not_or] at hwritten
    obtain ⟨hproperties, hrequired, hadditional⟩ := hwritten
    rw [strictNormalizeSchema_object]
    change SortedMap.get key (closeMap (map.map normalizeEntry)) = (SortedMap.get key map).map _
    rw [get_closeMap hadditional hproperties hrequired, get_normalizeEntry]
    congr 1
    funext value
    exact normalizeStrictSchemaKeyword_of_notMem hkey
  | array => simp [Json.get]
  | null | bool | number | string => rfl

lemma schemaContainsNullType_strictNormalizeSchema :
    schemaContainsNullType (strictNormalizeSchema s) = schemaContainsNullType s := by
  rw [schemaContainsNullType, getStr, get_strictNormalizeSchema (by decide) (by decide),
    schemaContainsNullType, getStr]
  cases s.get "type" with
  | none => rfl
  | some t => rw [Option.map_some, Option.bind_some, Option.bind_some, asStr_strictNormalizeSchema]

/-- Behind the walk, null can be added where it could before. -/
lemma takesNull_strictNormalizeSchema : TakesNull allows (strictNormalizeSchema s) ↔
    TakesNull (fun w => allows (strictNormalizeSchema w)) s := by
  cases s with
  | object map =>
    have hget : ∀ key ∉ writtenKeys, key ∉ mapKeywords →
        SortedMap.get key (closeMap (map.map normalizeEntry)) =
          (SortedMap.get key map).map strictNormalizeSchema := by
      intro key hwritten hkey
      have h := get_strictNormalizeSchema (s := .object map) hwritten hkey
      rwa [strictNormalizeSchema_object] at h
    have hrest : ∀ key, (∀ e ∈ closeMap (map.map normalizeEntry), e.1 ≠ key →
          KeywordAccepts allows e.1 e.2 .null) ↔ ∀ e ∈ map, e.1 ≠ key →
          KeywordAccepts (fun w => allows (strictNormalizeSchema w)) e.1 e.2 .null := by
      intro key
      rw [forall_mem_closeMap fun key hkey value _ => keywordAccepts_of_written hkey,
        List.forall_mem_map]
      refine forall₂_congr fun e _ => imp_congr_right fun _ => ?_
      exact keywordAccepts_normalize fun _ _ _ _ => accepts_strictNormalizeSchema
    rw [strictNormalizeSchema_object]
    simp only [TakesNull, hrest, hget "type" (by decide) (by decide),
      hget "anyOf" (by decide) (by decide)]
    have hanyOf : (match (SortedMap.get "anyOf" map).map strictNormalizeSchema with
        | some (.array anyOf) => (∀ b ∈ anyOf, schemaContainsNullType b = false) ∧
            ∀ e ∈ map, e.1 ≠ "anyOf" →
              KeywordAccepts (fun w => allows (strictNormalizeSchema w)) e.1 e.2 .null
        | _ => True) ↔ match SortedMap.get "anyOf" map with
        | some (.array anyOf) => (∀ b ∈ anyOf, schemaContainsNullType b = false) ∧
            ∀ e ∈ map, e.1 ≠ "anyOf" →
              KeywordAccepts (fun w => allows (strictNormalizeSchema w)) e.1 e.2 .null
        | _ => True := by
      cases SortedMap.get "anyOf" map with
      | none => rfl
      | some value =>
        cases value with
        | array anyOf => simp [schemaContainsNullType_strictNormalizeSchema]
        | object => simp
        | null | bool | number | string => rfl
    cases SortedMap.get "type" map with
    | none => exact hanyOf
    | some value =>
      cases value with
      | string => rfl
      | array => simp
      | object => simpa using hanyOf
      | null | bool | number => exact hanyOf
  | array => simp [TakesNull]
  | null | bool | number | string => rfl

end Jcode.OpenAiSchema
