import DeviceLink.Proofs.Ascending
import DeviceLink.Proofs.Result
import DeviceLink.Schema.Payload

/-! Schemas: what a value without fault looks like, schema by schema. -/
namespace DeviceLink.Schema

variable {v : Json}

theorem fault?_text_eq_none {pattern : Option Pattern} :
    (text pattern).fault? v = none ↔ ∃ s, v = .string s ∧ ∀ p ∈ pattern, p.accepts s := by
  cases v with
  | string s => cases pattern <;> simp [fault?]
  | _ => simp [fault?]

theorem fault?_string_eq_none {p : Pattern} {s : String} :
    (text (some p)).fault? (.string s) = none ↔ p.accepts s := by
  simp [fault?_text_eq_none]

theorem fault?_number_eq_none : number.fault? v = none ↔ ∃ n, v = .number n := by
  cases v <;> simp [fault?]

theorem listFault?_eq_none {names : List String} :
    listFault? names v = none ↔ ∃ s ∈ names, v = .string s := by
  cases v <;> simp [listFault?]

theorem fault?_oneOf_eq_none {names : List String} :
    (oneOf names).fault? v = none ↔ ∃ s ∈ names, v = .string s := by
  rw [fault?, listFault?_eq_none]

theorem fault?_list_eq_none {item : Schema} :
    (list item).fault? v = none ↔
      ∃ items, v = .array items ∧ ∀ i ∈ items, item.fault? i = none := by
  cases v <;> simp [fault?]

theorem fault?_dictionary_eq_none {names : List String} :
    (dictionary names).fault? v = none ↔
      ∃ members, v = .object members ∧ ∀ m ∈ members, m.1 ∈ names := by
  cases v <;> simp [fault?, listFault?_eq_none]

/-- Properties ask nothing of members that are absent. -/
theorem propertyFault?_eq_none {properties : List (String × Schema)}
    {members : List (String × Json)} : propertyFault? properties members = none ↔
      ∀ p ∈ properties, ∀ v ∈ Ascending.find? p.1 members, p.2.fault? v = none := by
  induction properties with
  | nil => simp [propertyFault?]
  | cons p rest ih =>
    rw [propertyFault?, Option.or_eq_none_iff, ih, List.forall_mem_cons]
    simp [Option.bind_eq_none_iff]

theorem fault?_record_eq_none {required : List String} {properties : List (String × Schema)} :
    (record required properties).fault? v = none ↔ ∃ members, v = .object members ∧
      (∀ p ∈ properties, ∀ v ∈ Ascending.find? p.1 members, p.2.fault? v = none) ∧
      ∀ name ∈ required, (Ascending.find? name members).isSome := by
  cases v with
  | object members => simp [fault?, propertyFault?_eq_none, Option.isSome_iff_ne_none]
  | _ => simp [fault?]

theorem fault?_strings_eq_none {item : Schema} {Good : String → Prop}
    (hitem : ∀ v, item.fault? v = none ↔ ∃ s, v = .string s ∧ Good s) :
    (list item).fault? v = none ↔ ∃ l, v = .strings l ∧ ∀ s ∈ l, Good s := by
  rw [fault?_list_eq_none]
  constructor
  · intro h
    obtain ⟨items, rfl, hitems⟩ := h
    have hstrings : ∀ i ∈ items, ∃ s, i = .string s := by
      intro i hi
      obtain ⟨s, hs, -⟩ := (hitem i).mp (hitems i hi)
      exact ⟨s, hs⟩
    obtain ⟨l, rfl⟩ := exists_eq_map hstrings
    refine ⟨l, rfl, fun s hs => ?_⟩
    have hs := (hitem _).mp (hitems _ (List.mem_map_of_mem hs))
    simpa using hs
  · intro h
    obtain ⟨l, rfl, hl⟩ := h
    refine ⟨_, rfl, List.forall_mem_map.mpr fun s hs => ?_⟩
    exact (hitem _).mpr ⟨s, rfl, hl s hs⟩

theorem fault?_names_eq_none : names.fault? v = none ↔
    ∃ l, v = .strings l ∧ ∀ s ∈ l, Pattern.nonBlank.accepts s := by
  apply fault?_strings_eq_none
  intro v
  simp [fault?_text_eq_none]

theorem token_mem_parameterTokens (n : ParameterName) : n.token ∈ parameterTokens :=
  List.mem_map_of_mem n.mem_all

theorem mem_parameterTokens {s : String} :
    s ∈ parameterTokens ↔ ∃ n : ParameterName, s = n.token := by
  constructor
  · intro h
    obtain ⟨n, -, hn⟩ := List.mem_map.mp h
    exact ⟨n, hn.symm⟩
  · intro h
    obtain ⟨n, rfl⟩ := h
    exact token_mem_parameterTokens n

/-- The strings of a list that names parameters are tokens. -/
theorem fault?_parameters_eq_none : (list (oneOf parameterTokens)).fault? v = none ↔
    ∃ l : List ParameterName, v = .strings (l.map ParameterName.token) := by
  have hitem : ∀ v, (oneOf parameterTokens).fault? v = none ↔
      ∃ s, v = .string s ∧ s ∈ parameterTokens := by
    intro v
    rw [fault?_oneOf_eq_none]
    exact exists_congr fun s => and_comm
  rw [fault?_strings_eq_none hitem]
  constructor
  · intro h
    obtain ⟨l, rfl, hl⟩ := h
    obtain ⟨names, rfl⟩ := exists_eq_map fun s hs => mem_parameterTokens.mp (hl s hs)
    exact ⟨names, rfl⟩
  · intro h
    obtain ⟨l, rfl⟩ := h
    exact ⟨_, rfl, List.forall_mem_map.mpr fun n _ => token_mem_parameterTokens n⟩

end DeviceLink.Schema
