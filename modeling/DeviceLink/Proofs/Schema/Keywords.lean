import DeviceLink.Proofs.Schema
import DeviceLink.Proofs.Text.Numeral

/-! Schemas as JSON documents: each keyword of a document asks something of values of one type, and
nothing of the others; what all of them admit are the values without fault. -/
namespace DeviceLink.Schema

inductive Keyword
  | type
  | enum
  | pattern
  | items
  | propertyNames
  | required
  | properties

def Keyword.name : Keyword → String
  | .type => "type"
  | .enum => "enum"
  | .pattern => "pattern"
  | .items => "items"
  | .propertyNames => "propertyNames"
  | .required => "required"
  | .properties => "properties"

def typeName : Json → String
  | .null => "null"
  | .bool _ => "boolean"
  | .number _ => "number"
  | .string _ => "string"
  | .array _ => "array"
  | .object _ => "object"

mutual

/-- A document admits the values that obey all its keywords. -/
inductive Admits : Json → Json → Prop
  | object {keywords : List (String × Json)} {v : Json} :
    (∀ (k : Keyword) (w : Json), Ascending.find? k.name keywords = some w → Obeys k w v) →
    Admits (.object keywords) v

/-- A value obeys a keyword: only `type` and `enum` ask something of every value, `pattern` does so
of strings, `items` of arrays, and the others of objects. -/
inductive Obeys : Keyword → Json → Json → Prop
  | type {v : Json} : Obeys .type (.string (typeName v)) v
  | enum {values : List Json} {v : Json} : v ∈ values → Obeys .enum (.array values) v
  | pattern {p : Pattern} {v : Json} : (∀ s, v = .string s → p.accepts s) →
    Obeys .pattern (.string p.source) v
  | items {item v : Json} : (∀ l, v = .array l → ∀ i ∈ l, Admits item i) → Obeys .items item v
  | propertyNames {names v : Json} :
    (∀ members, v = .object members → ∀ m ∈ members, Admits names (.string m.1)) →
    Obeys .propertyNames names v
  | required {names : List String} {v : Json} :
    (∀ members, v = .object members → ∀ name ∈ names, (Ascending.find? name members).isSome) →
    Obeys .required (.strings names) v
  | properties {schemas : List (String × Json)} {v : Json} :
    (∀ members, v = .object members → ∀ p ∈ schemas, ∀ w,
      Ascending.find? p.1 members = some w → Admits p.2 w) →
    Obeys .properties (.object schemas) v

end

section Patterns

/-- Patterns that are written alike are the same. -/
theorem Pattern.source_injective : Function.Injective source := by
  have hbegin : ∀ count, (hexDigits count).source.toList =
      "^[0-9a-fA-F]\x7b".toList ++ (Text.decimal count ++ "\x7d$".toList) := by
    intro count
    simp only [source, String.toList_append, String.toList_ofList, List.append_assoc]
  intro p p' h
  have hlist := congrArg String.toList h
  cases p with
  | nonBlank =>
    cases p' with
    | nonBlank => rfl
    | hexDigits count =>
      rw [hbegin] at hlist
      exact absurd (congrArg List.head? hlist) (by simp [source])
  | hexDigits count =>
    cases p' with
    | nonBlank =>
      rw [hbegin] at hlist
      exact absurd (congrArg List.head? hlist) (by simp [source])
    | hexDigits count' =>
      rw [hbegin, hbegin] at hlist
      have hcount := List.append_cancel_right (List.append_cancel_left hlist)
      rw [Text.decimal_injective hcount]

end Patterns

section Keywords

variable {v w : Json}

theorem admits_iff {keywords : List (String × Json)} : Admits (.object keywords) v ↔
    ∀ (k : Keyword) (w : Json), Ascending.find? k.name keywords = some w → Obeys k w v := by
  constructor
  · intro h
    cases h with
    | object hkeywords => exact hkeywords
  · exact .object

theorem forall_keyword {P : Keyword → Prop} : (∀ k, P k) ↔
    P .type ∧ P .enum ∧ P .pattern ∧ P .items ∧ P .propertyNames ∧ P .required ∧
      P .properties := by
  constructor
  · intro h
    exact ⟨h _, h _, h _, h _, h _, h _, h _⟩
  · intro h k
    obtain ⟨htype, henum, hpattern, hitems, hnames, hrequired, hproperties⟩ := h
    cases k <;> assumption

theorem obeys_type {type : String} : Obeys .type (.string type) v ↔ typeName v = type := by
  constructor
  · intro h
    cases h with
    | type => rfl
  · intro h
    rw [← h]
    exact .type

theorem obeys_enum {names : List String} :
    Obeys .enum (.strings names) v ↔ ∃ s ∈ names, v = .string s := by
  constructor
  · intro h
    cases h with
    | enum hv =>
      obtain ⟨s, hs, rfl⟩ := List.mem_map.mp hv
      exact ⟨s, hs, rfl⟩
  · intro h
    obtain ⟨s, hs, rfl⟩ := h
    exact .enum (List.mem_map_of_mem hs)

theorem obeys_pattern {p : Pattern} :
    Obeys .pattern (.string p.source) v ↔ ∀ s, v = .string s → p.accepts s := by
  constructor
  · intro h
    generalize hsource : p.source = source at h
    cases h with
    | pattern hp =>
      rw [Pattern.source_injective hsource]
      exact hp
  · exact .pattern

theorem obeys_items {item : Json} :
    Obeys .items item v ↔ ∀ l, v = .array l → ∀ i ∈ l, Admits item i := by
  constructor
  · intro h
    cases h with
    | items hitems => exact hitems
  · exact .items

theorem obeys_propertyNames {names : Json} : Obeys .propertyNames names v ↔
    ∀ members, v = .object members → ∀ m ∈ members, Admits names (.string m.1) := by
  constructor
  · intro h
    cases h with
    | propertyNames hnames => exact hnames
  · exact .propertyNames

theorem obeys_required {names : List String} : Obeys .required (.strings names) v ↔
    ∀ members, v = .object members → ∀ name ∈ names, (Ascending.find? name members).isSome := by
  constructor
  · intro h
    generalize hnames : Json.strings names = keyword at h
    cases h with
    | required hrequired =>
      have hsame := List.map_injective_iff.mpr (fun _ _ => Json.string.inj) (Json.array.inj hnames)
      rw [hsame]
      exact hrequired
  · exact .required

theorem obeys_properties {schemas : List (String × Json)} : Obeys .properties (.object schemas) v ↔
    ∀ members, v = .object members → ∀ p ∈ schemas, ∀ w,
      Ascending.find? p.1 members = some w → Admits p.2 w := by
  constructor
  · intro h
    cases h with
    | properties hproperties => exact hproperties
  · exact .properties

end Keywords

section Documents

variable {v : Json}

theorem typeName_eq_string : typeName v = "string" ↔ ∃ s, v = .string s := by
  cases v <;> simp [typeName]

theorem typeName_eq_number : typeName v = "number" ↔ ∃ x, v = .number x := by
  cases v <;> simp [typeName]

theorem typeName_eq_array : typeName v = "array" ↔ ∃ l, v = .array l := by
  cases v <;> simp [typeName]

theorem typeName_eq_object : typeName v = "object" ↔ ∃ members, v = .object members := by
  cases v <;> simp [typeName]

theorem admits_type {type : String} :
    Admits (.object [typeMember type]) v ↔ typeName v = type := by
  simp [admits_iff, forall_keyword, Ascending.find?, typeMember, Keyword.name, obeys_type]

theorem admits_pattern {p : Pattern} {type : String} :
    Admits (.object [("pattern", .string p.source), typeMember type]) v ↔
      typeName v = type ∧ ∀ s, v = .string s → p.accepts s := by
  simp [admits_iff, forall_keyword, Ascending.find?, typeMember, Keyword.name, obeys_type,
    obeys_pattern]

theorem admits_enum {names : List String} :
    Admits (.object [("enum", .strings names)]) v ↔ ∃ s ∈ names, v = .string s := by
  simp [admits_iff, forall_keyword, Ascending.find?, Keyword.name, obeys_enum]

theorem admits_items {item : Json} {type : String} :
    Admits (.object [("items", item), typeMember type]) v ↔
      typeName v = type ∧ ∀ l, v = .array l → ∀ i ∈ l, Admits item i := by
  simp [admits_iff, forall_keyword, Ascending.find?, typeMember, Keyword.name, obeys_type,
    obeys_items]

theorem admits_propertyNames {names : Json} {type : String} :
    Admits (.object [("propertyNames", names), typeMember type]) v ↔
      typeName v = type ∧
        ∀ members, v = .object members → ∀ m ∈ members, Admits names (.string m.1) := by
  simp [admits_iff, forall_keyword, Ascending.find?, typeMember, Keyword.name, obeys_type,
    obeys_propertyNames]

private theorem admits_properties {schemas : List (String × Json)} {required : List String}
    {type : String} :
    Admits (.object [("properties", .object schemas), ("required", .strings required),
      typeMember type]) v ↔
      typeName v = type ∧
        (∀ members, v = .object members → ∀ name ∈ required,
          (Ascending.find? name members).isSome) ∧
        ∀ members, v = .object members → ∀ p ∈ schemas, ∀ w,
          Ascending.find? p.1 members = some w → Admits p.2 w := by
  simp [admits_iff, forall_keyword, Ascending.find?, typeMember, Keyword.name, obeys_type,
    obeys_required, obeys_properties]

mutual

/-- The document of a schema admits exactly the values in which the schema finds no fault. -/
theorem admits_toJson : ∀ (s : Schema) (v : Json), Admits s.toJson v ↔ s.fault? v = none
  | .text none, v => by
    rw [toJson, admits_type, typeName_eq_string, fault?_text_eq_none]
    simp
  | .text (some p), v => by
    rw [toJson, admits_pattern, typeName_eq_string, fault?_text_eq_none]
    constructor
    · intro h
      obtain ⟨⟨s, rfl⟩, hpattern⟩ := h
      have hp : p.accepts s := hpattern s rfl
      exact ⟨s, rfl, by simpa using hp⟩
    · intro h
      obtain ⟨s, rfl, hpattern⟩ := h
      have hp : p.accepts s := hpattern p rfl
      exact ⟨⟨s, rfl⟩, by simpa using hp⟩
  | .number, v => by
    rw [toJson, admits_type, typeName_eq_number, fault?_number_eq_none]
  | .oneOf names, v => by
    rw [toJson, admits_enum, fault?_oneOf_eq_none]
  | .list item, v => by
    rw [toJson, admits_items, typeName_eq_array, fault?_list_eq_none]
    -- the items of the array are admitted by the document of their own schema
    constructor
    · intro h
      obtain ⟨⟨l, rfl⟩, hitems⟩ := h
      exact ⟨l, rfl, fun i hi => (admits_toJson item i).mp (hitems l rfl i hi)⟩
    · intro h
      obtain ⟨l, rfl, hitems⟩ := h
      refine ⟨⟨l, rfl⟩, fun l' hl' i hi => ?_⟩
      cases hl'
      exact (admits_toJson item i).mpr (hitems i hi)
  | .dictionary names, v => by
    rw [toJson, admits_propertyNames, typeName_eq_object, fault?_dictionary_eq_none]
    simp only [admits_enum]
    constructor
    · intro h
      obtain ⟨⟨members, rfl⟩, hnames⟩ := h
      refine ⟨members, rfl, fun m hm => ?_⟩
      obtain ⟨s, hs, hname⟩ := hnames members rfl m hm
      rw [Json.string.inj hname]
      exact hs
    · intro h
      obtain ⟨members, rfl, hnames⟩ := h
      refine ⟨⟨members, rfl⟩, fun members' hmembers m hm => ?_⟩
      cases hmembers
      exact ⟨m.1, hnames m hm, rfl⟩
  | .record required properties, v => by
    rw [toJson, admits_properties, typeName_eq_object, fault?_record_eq_none]
    simp only [← propertyFault?_eq_none, ← admits_propertiesToJson properties]
    constructor
    · intro h
      obtain ⟨⟨members, rfl⟩, hrequired, hproperties⟩ := h
      exact ⟨members, rfl, hproperties members rfl, hrequired members rfl⟩
    · intro h
      obtain ⟨members, rfl, hproperties, hrequired⟩ := h
      refine ⟨⟨members, rfl⟩, fun members' hmembers => ?_, fun members' hmembers => ?_⟩
      · cases hmembers
        exact hrequired
      · cases hmembers
        exact hproperties

/-- The members of an object are admitted one by one, each by the document of its property. -/
theorem admits_propertiesToJson : ∀ (properties : List (String × Schema))
    (members : List (String × Json)),
    (∀ p ∈ propertiesToJson properties, ∀ w, Ascending.find? p.1 members = some w →
      Admits p.2 w) ↔ propertyFault? properties members = none
  | [], _ => by simp [propertiesToJson, propertyFault?]
  | (name, s) :: rest, members => by
    rw [propertiesToJson, propertyFault?, List.forall_mem_cons, Option.or_eq_none_iff,
      admits_propertiesToJson rest members, Option.bind_eq_none_iff]
    simp only [admits_toJson s]

end

end Documents

end DeviceLink.Schema
