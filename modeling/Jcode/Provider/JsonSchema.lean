import Jcode.Foundation.SortedMap
import Jcode.Provider.Sse
import Mathlib.Data.String.Basic

/-!
# JSON schemas

The objects of a value are sorted maps. A value holds schemas at certain of its keywords, and as a
schema it accepts other values: `type`, `enum`, `const` and `anyOf` decide here, and a keyword whose
value has the wrong form decides nothing.
-/

namespace Jcode.Json

abbrev Fields := List (String × Json)

/-! ### Induction on values -/

/-- The values directly inside. -/
def parts : Json → List Json
  | .array items => items
  | .object fields => fields.map Prod.snd
  | _ => []

variable {P : Json → Prop} {s : Json}

lemma sizeOf_lt_of_mem_parts {c : Json} (h : c ∈ s.parts) : sizeOf c < sizeOf s := by
  cases s with
  | array items =>
    have hlt : sizeOf c < sizeOf items := List.sizeOf_lt_of_mem h
    rw [Json.array.sizeOf_spec]
    omega
  | object fields =>
    obtain ⟨⟨key, value⟩, he, rfl⟩ := List.mem_map.mp h
    have hlt := List.sizeOf_lt_of_mem he
    rw [Prod.mk.sizeOf_spec] at hlt
    rw [Json.object.sizeOf_spec]
    show sizeOf value < _
    omega
  | null | bool | number | string => cases h

/-- The hypothesis is there for the parts of a value and for their parts. -/
theorem induction_parts (h : ∀ s : Json, (∀ c ∈ s.parts, P c ∧ ∀ d ∈ c.parts, P d) → P s)
    (s : Json) : P s := by
  induction hn : sizeOf s using Nat.strongRecOn generalizing s with
  | ind n ih =>
    subst hn
    apply h
    intro c hc
    have hlt := sizeOf_lt_of_mem_parts hc
    refine ⟨ih _ hlt c rfl, ?_⟩
    intro d hd
    exact ih _ ((sizeOf_lt_of_mem_parts hd).trans hlt) d rfl

/-! ### Sorted objects -/

/-- Every object is a sorted map. -/
inductive Sorted : Json → Prop
  | null : Sorted .null
  | bool (value : Bool) : Sorted (.bool value)
  | number (asU64 : Option Nat) (text : String) : Sorted (.number asU64 text)
  | string (value : String) : Sorted (.string value)
  | array {items : List Json} (h : ∀ item ∈ items, Sorted item) : Sorted (.array items)
  | object {fields : Fields} (h : SortedMap.Sorted fields) (hvalues : ∀ e ∈ fields, Sorted e.2) :
    Sorted (.object fields)

variable {fields : Fields} {items : List Json}

lemma sorted_array : Sorted (.array items) ↔ ∀ item ∈ items, Sorted item :=
  ⟨fun h => by cases h with | array h => exact h, .array⟩

lemma sorted_object :
    Sorted (.object fields) ↔ SortedMap.Sorted fields ∧ ∀ e ∈ fields, Sorted e.2 :=
  ⟨fun h => by cases h with | object h hvalues => exact ⟨h, hvalues⟩, fun h => .object h.1 h.2⟩

lemma Sorted.of_mem_parts {c : Json} (h : s.Sorted) (hc : c ∈ s.parts) : c.Sorted := by
  cases h with
  | array h => exact h c hc
  | object h hvalues =>
    obtain ⟨e, he, rfl⟩ := List.mem_map.mp hc
    exact hvalues e he
  | null | bool | number | string => cases hc

variable {key : String} {value : Json}

lemma Sorted.of_get (h : (Json.object fields).Sorted)
    (hget : SortedMap.get key fields = some value) : value.Sorted :=
  (sorted_object.mp h).2 _ (SortedMap.mem_of_get hget)

lemma Sorted.insert (h : (Json.object fields).Sorted) (hvalue : value.Sorted) :
    (Json.object (SortedMap.insert key value fields)).Sorted := by
  obtain ⟨hsorted, hvalues⟩ := sorted_object.mp h
  refine .object hsorted.insert ?_
  intro e he
  rcases SortedMap.mem_insert he with rfl | he
  · exact hvalue
  · exact hvalues e he

/-! ### Schemas in schemas -/

/-- The keywords whose values are maps of schemas. -/
def mapKeywords : List String := ["properties", "$defs", "definitions", "patternProperties"]

/-- The keywords whose values are lists of schemas. -/
def listKeywords : List String := ["allOf", "anyOf", "oneOf", "prefixItems", "items"]

/-- The keywords whose values are schemas. -/
def schemaKeywords : List String :=
  ["items", "additionalItems", "unevaluatedItems", "contains", "additionalProperties",
    "unevaluatedProperties", "propertyNames", "not", "if", "then", "else"]

/-- One schema is at a place for schemas in another, and every keyword on the way is one that
`reads` admits. -/
inductive Within (reads : Fields → String → Prop) : Json → Json → Prop
  | refl (s : Json) : Within reads s s
  | schema {fields : Fields} {key : String} {value t : Json} (hkey : key ∈ schemaKeywords)
    (hreads : reads fields key) (hmem : (key, value) ∈ fields) (h : Within reads value t) :
    Within reads (.object fields) t
  | list {fields : Fields} {key : String} {items : List Json} {item t : Json}
    (hkey : key ∈ listKeywords) (hreads : reads fields key) (hmem : (key, .array items) ∈ fields)
    (hitem : item ∈ items) (h : Within reads item t) : Within reads (.object fields) t
  | map {fields children : Fields} {key : String} {child : String × Json} {t : Json}
    (hkey : key ∈ mapKeywords) (hreads : reads fields key)
    (hmem : (key, .object children) ∈ fields) (hchild : child ∈ children)
    (h : Within reads child.2 t) : Within reads (.object fields) t

abbrev Subschema : Json → Json → Prop := Within fun _ _ => True

lemma Within.sorted {reads : Fields → String → Prop} {t : Json} (h : Within reads s t)
    (hsorted : s.Sorted) : t.Sorted := by
  induction h with
  | refl => exact hsorted
  | schema _ _ hmem _ ih => exact ih ((sorted_object.mp hsorted).2 _ hmem)
  | list _ _ hmem hitem _ ih =>
    exact ih (sorted_array.mp ((sorted_object.mp hsorted).2 _ hmem) _ hitem)
  | map _ _ hmem hchild _ ih =>
    exact ih ((sorted_object.mp ((sorted_object.mp hsorted).2 _ hmem)).2 _ hchild)

/-! ### Acceptance -/

/-- A value is of a type. -/
def IsOfType : Json → String → Prop
  | .null, name => name = "null"
  | .bool _, name => name = "boolean"
  | .number _ text, name => name = "number" ∨ name = "integer" ∧ ∀ c ∈ text.toList, c ∉ ".eE".toList
  | .string _, name => name = "string"
  | .array _, name => name = "array"
  | .object _, name => name = "object"

def TypeAccepts : Json → Json → Prop
  | .string name, v => v.IsOfType name
  | .array types, v => ∃ name, .string name ∈ types ∧ v.IsOfType name
  | _, _ => True

section

-- the literals that stand for the value
variable (allows : Json → Prop)

def EnumAccepts : Json → Prop
  | .array literals => ∃ w ∈ literals, allows w
  | _ => True

mutual

/-- A schema accepts a value. -/
def Accepts : Json → Json → Prop
  | .bool value, _ => value = true
  | .object fields, v => AcceptsAll fields v
  | _, _ => True

def AcceptsAll : Fields → Json → Prop
  | [], _ => True
  | (key, value) :: fields, v =>
    (key = "type" → TypeAccepts value v) ∧ (key = "enum" → EnumAccepts allows value) ∧
      (key = "const" → allows value) ∧ (key = "anyOf" → AnyOfAccepts value v) ∧
      AcceptsAll fields v

def AnyOfAccepts : Json → Json → Prop
  | .array branches, v => AcceptsSome branches v
  | _, _ => True

def AcceptsSome : List Json → Json → Prop
  | [], _ => False
  | branch :: branches, v => Accepts branch v ∨ AcceptsSome branches v

end

/-- What one keyword of a schema asks of a value. -/
structure KeywordAccepts (key : String) (value v : Json) : Prop where
  type : key = "type" → TypeAccepts value v
  enum : key = "enum" → EnumAccepts allows value
  const : key = "const" → allows value
  anyOf : key = "anyOf" → ∀ branches, value = .array branches → ∃ b ∈ branches, Accepts allows b v

/-- A value is valid by the four keywords. -/
abbrev Valid (schema v : Json) : Prop := Accepts (· = v) schema v

variable {allows} {v : Json}

lemma acceptsSome_iff {branches : List Json} :
    AcceptsSome allows branches v ↔ ∃ b ∈ branches, Accepts allows b v := by
  induction branches with
  | nil => simp [AcceptsSome]
  | cons branch branches ih => simp [AcceptsSome, ih]

lemma acceptsAll_iff :
    AcceptsAll allows fields v ↔ ∀ e ∈ fields, KeywordAccepts allows e.1 e.2 v := by
  induction fields with
  | nil => simp [AcceptsAll]
  | cons e fields ih =>
    obtain ⟨key, value⟩ := e
    have hanyOf : AnyOfAccepts allows value v ↔
        ∀ branches, value = .array branches → ∃ b ∈ branches, Accepts allows b v := by
      cases value <;> simp [AnyOfAccepts, acceptsSome_iff]
    rw [AcceptsAll, List.forall_mem_cons, ih, hanyOf]
    constructor
    · rintro ⟨htype, henum, hconst, hanyOf, hrest⟩
      exact ⟨⟨htype, henum, hconst, hanyOf⟩, hrest⟩
    · rintro ⟨h, hrest⟩
      exact ⟨h.type, h.enum, h.const, h.anyOf, hrest⟩

lemma accepts_object :
    Accepts allows (.object fields) v ↔ ∀ e ∈ fields, KeywordAccepts allows e.1 e.2 v := by
  rw [Accepts, acceptsAll_iff]

/-- The keywords that decide. -/
def decidingKeywords : List String := ["type", "enum", "const", "anyOf"]

lemma KeywordAccepts.of_notMem (h : key ∉ decidingKeywords) :
    KeywordAccepts allows key value v := by
  simp only [decidingKeywords, List.mem_cons, List.not_mem_nil, or_false, not_or] at h
  obtain ⟨htype, henum, hconst, hanyOf⟩ := h
  exact ⟨fun h => absurd h htype, fun h => absurd h henum, fun h => absurd h hconst,
    fun h => absurd h hanyOf⟩

lemma keywordAccepts_type : KeywordAccepts allows "type" value v ↔ TypeAccepts value v :=
  ⟨fun h => h.type rfl, fun h => ⟨fun _ => h, by simp, by simp, by simp⟩⟩

lemma keywordAccepts_anyOf {branches : List Json} :
    KeywordAccepts allows "anyOf" (.array branches) v ↔ ∃ b ∈ branches, Accepts allows b v := by
  constructor
  · intro h
    exact h.anyOf rfl branches rfl
  · rintro h
    refine ⟨by simp, by simp, by simp, ?_⟩
    rintro - branches ⟨⟩
    exact h

/-- More literals, more values. -/
theorem Accepts.mono {allows' : Json → Prop} (hallows : ∀ w, allows w → allows' w)
    (h : Accepts allows s v) : Accepts allows' s v := by
  induction s using induction_parts with
  | h s ih =>
    cases s with
    | object fields =>
      rw [accepts_object] at h ⊢
      intro e he
      have hkeyword := h e he
      refine ⟨hkeyword.type, ?_, fun hkey => hallows _ (hkeyword.const hkey), ?_⟩
      · intro hkey
        have henum := hkeyword.enum hkey
        cases hvalue : e.2 with
        | array literals =>
          rw [hvalue] at henum
          obtain ⟨w, hw, hallowed⟩ := henum
          exact ⟨w, hw, hallows w hallowed⟩
        | object | null | bool | number | string => trivial
      · intro hkey branches hvalue
        obtain ⟨b, hb, hbranch⟩ := hkeyword.anyOf hkey branches hvalue
        refine ⟨b, hb, (ih e.2 (List.mem_map_of_mem he)).2 b ?_ hbranch⟩
        rw [hvalue]
        exact hb
    | array | null | number | string => simp [Accepts]
    | bool value => simpa [Accepts] using h

/-- One keyword is looked at apart from the others. -/
lemma accepts_insert (h : SortedMap.Sorted fields) :
    Accepts allows (.object (SortedMap.insert key value fields)) v ↔
      KeywordAccepts allows key value v ∧
        ∀ e ∈ fields, e.1 ≠ key → KeywordAccepts allows e.1 e.2 v := by
  simp only [accepts_object, h.mem_insert_iff, or_imp, forall_and, forall_eq, and_imp]

lemma accepts_of_get (h : SortedMap.Sorted fields) (hget : SortedMap.get key fields = some value) :
    Accepts allows (.object fields) v ↔ KeywordAccepts allows key value v ∧
      ∀ e ∈ fields, e.1 ≠ key → KeywordAccepts allows e.1 e.2 v := by
  conv_lhs => rw [← h.insert_of_get hget]
  exact accepts_insert h

end

end Jcode.Json
