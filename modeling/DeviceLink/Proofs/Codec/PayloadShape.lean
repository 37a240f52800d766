import DeviceLink.Proofs.Codec.Payload
import DeviceLink.Proofs.Schema.Keywords

/-! The shapes of payloads: which values obey the schema of each kind of message. -/
namespace DeviceLink

namespace Schema

/-- A text with a character that is not blank. -/
def IsName (v : Json) : Prop := ∃ s, v = .string s ∧ ∃ c ∈ s.toList, isBlank c = false

def IsNames (v : Json) : Prop := ∃ items, v = .array items ∧ ∀ i ∈ items, IsName i

def IsText (v : Json) : Prop := ∃ s, v = .string s

def IsNumber (v : Json) : Prop := ∃ x, v = .number x

/-- A hash in hexadecimal digits of either case, 32 of them. -/
def IsHash (v : Json) : Prop :=
  ∃ s, v = .string s ∧ s.toList.length = 32 ∧ ∀ c ∈ s.toList, Text.isHexDigit c = true

section Members

variable (members : List (String × Json)) (name : String) (Is : Json → Prop)

/-- The member of a name is there, and it is what it should be. -/
def Has : Prop := ∃ v, Ascending.find? name members = some v ∧ Is v

/-- The member of a name is what it should be if it is there. -/
def MayHave : Prop := ∀ v, Ascending.find? name members = some v → Is v

theorem has_iff : Has members name Is ↔
    MayHave members name Is ∧ (Ascending.find? name members).isSome := by
  unfold Has MayHave
  cases Ascending.find? name members <;> simp

end Members

/-- Feed values: an array of objects, each with a time that is a number. -/
def IsTimedGroups (v : Json) : Prop :=
  ∃ groups, v = .array groups ∧
    ∀ g ∈ groups, ∃ members, g = .object members ∧ Has members "timestamp" IsNumber

/-- Parameters: an object with no other names than tokens. -/
def IsParameterObject (v : Json) : Prop :=
  ∃ members, v = .object members ∧ ∀ m ∈ members, ∃ n : ParameterName, m.1 = n.token

def IsTokens (v : Json) : Prop :=
  ∃ items, v = .array items ∧ ∀ i ∈ items, ∃ n : ParameterName, i = .string n.token

def IsDetails (v : Json) : Prop :=
  ∃ members, v = .object members ∧ Has members "feeds" IsNames ∧ Has members "attributes" IsNames

def IsFile (v : Json) : Prop :=
  ∃ members, v = .object members ∧ Has members "name" IsText ∧ Has members "size" IsNumber ∧
    Has members "hash" IsHash

/-- A found device: an object with a key that is a name, and a type and an external id that are
texts if they are there. -/
def IsFoundDevice (v : Json) : Prop :=
  ∃ members, v = .object members ∧ Has members "deviceKey" IsName ∧
    MayHave members "deviceType" IsText ∧ MayHave members "externalId" IsText

/-- Found devices: an object with a time and the devices, and with a type and an external id that
are texts if they are there. -/
def IsFoundDevices (v : Json) : Prop :=
  ∃ members, v = .object members ∧ Has members "timestampFrom" IsNumber ∧
    Has members "matchingDevices"
      (fun w => ∃ items, w = .array items ∧ ∀ i ∈ items, IsFoundDevice i) ∧
    MayHave members "deviceType" IsText ∧ MayHave members "externalId" IsText

/-- The shape of the payloads of a kind of message, for the kinds that have one. -/
def HasShape : MessageType → Json → Prop
  | .feedValues, v => IsTimedGroups v
  | .parameterSync, v => IsParameterObject v
  | .synchronizeParameters, v => IsTokens v
  | .fileDelete, v => IsNames v
  | .childrenSynchronizationResponse, v => IsNames v
  | .detailsSynchronizationResponse, v => IsDetails v
  | .fileUploadInit, v => IsFile v
  | .registeredDevicesResponse, v => IsFoundDevices v
  | _, _ => False

section Faults

variable {v : Json}

theorem fault?_name_iff : (text (some .nonBlank)).fault? v = none ↔ IsName v := by
  simp [fault?_text_eq_none, IsName, Pattern.accepts]

theorem fault?_hash_iff : (text (some (.hexDigits 32))).fault? v = none ↔ IsHash v := by
  simp [fault?_text_eq_none, IsHash, Pattern.accepts]

theorem fault?_plain_iff : (text none).fault? v = none ↔ IsText v := by
  simp [fault?_text_eq_none, IsText]

theorem fault?_quantity_iff : number.fault? v = none ↔ IsNumber v := fault?_number_eq_none

theorem fault?_names_iff : names.fault? v = none ↔ IsNames v := by
  simp only [names, fault?_list_eq_none, fault?_name_iff, IsNames]

theorem fault?_parameterSync_iff :
    (dictionary parameterTokens).fault? v = none ↔ IsParameterObject v := by
  simp only [fault?_dictionary_eq_none, mem_parameterTokens, IsParameterObject]

private theorem fault?_token_iff :
    (oneOf parameterTokens).fault? v = none ↔ ∃ n : ParameterName, v = .string n.token := by
  simp only [fault?_oneOf_eq_none, mem_parameterTokens]
  constructor
  · intro h
    obtain ⟨_, ⟨n, rfl⟩, hv⟩ := h
    exact ⟨n, hv⟩
  · intro h
    obtain ⟨n, hv⟩ := h
    exact ⟨_, ⟨n, rfl⟩, hv⟩

theorem fault?_tokens_iff : (list (oneOf parameterTokens)).fault? v = none ↔ IsTokens v := by
  simp only [fault?_list_eq_none, fault?_token_iff, IsTokens]

/-- In a record the members that are asked for are there, and no member with a schema is at
fault. -/
theorem fault?_members_iff {required : List String} {properties : List (String × Schema)}
    {Is : List (String × Json) → Prop}
    (h : ∀ members, (∀ p ∈ properties, MayHave members p.1 fun w => p.2.fault? w = none) ∧
      (∀ name ∈ required, (Ascending.find? name members).isSome) ↔ Is members) :
    (record required properties).fault? v = none ↔ ∃ members, v = .object members ∧ Is members :=
  fault?_record_eq_none.trans (exists_congr fun members => and_congr_right fun _ => h members)

theorem fault?_feedValues_iff : feedValues.fault? v = none ↔ IsTimedGroups v := by
  have hgroup : ∀ g, (record ["timestamp"] [("timestamp", .number)]).fault? g = none ↔
      ∃ members, g = .object members ∧ Has members "timestamp" IsNumber := by
    refine fun g => fault?_members_iff fun members => ?_
    simp only [List.forall_mem_singleton, fault?_quantity_iff, has_iff]
  simp only [feedValues, fault?_list_eq_none, hgroup, IsTimedGroups]

theorem fault?_details_iff : details.fault? v = none ↔ IsDetails v := by
  apply fault?_members_iff
  intro members
  simp only [List.forall_mem_cons, fault?_names_iff, has_iff]
  tauto

theorem fault?_fileUpload_iff : fileUpload.fault? v = none ↔ IsFile v := by
  apply fault?_members_iff
  intro members
  simp only [List.forall_mem_cons, fault?_hash_iff, fault?_plain_iff, fault?_quantity_iff, has_iff]
  tauto

private theorem fault?_matchingDevice_iff : matchingDevice.fault? v = none ↔ IsFoundDevice v := by
  apply fault?_members_iff
  intro members
  simp only [List.forall_mem_cons, fault?_name_iff, fault?_plain_iff, has_iff]
  tauto

private theorem fault?_registeredDevices_iff :
    registeredDevices.fault? v = none ↔ IsFoundDevices v := by
  apply fault?_members_iff
  intro members
  simp only [List.forall_mem_cons, fault?_plain_iff, fault?_quantity_iff,
    fault?_list_eq_none, fault?_matchingDevice_iff, has_iff]
  tauto

/-- A schema finds no fault in exactly the values of the shape of its kind. -/
theorem fault?_iff_hasShape {t : MessageType} {schema : Schema} (h : ofType? t = some schema) :
    schema.fault? v = none ↔ HasShape t v := by
  cases t with
  | feedValues =>
    cases h
    exact fault?_feedValues_iff
  | parameterSync =>
    cases h
    exact fault?_parameterSync_iff
  | synchronizeParameters =>
    cases h
    exact fault?_tokens_iff
  | detailsSynchronizationResponse =>
    cases h
    exact fault?_details_iff
  | fileUploadInit =>
    cases h
    exact fault?_fileUpload_iff
  | fileDelete =>
    cases h
    exact fault?_names_iff
  | childrenSynchronizationResponse =>
    cases h
    exact fault?_names_iff
  | registeredDevicesResponse =>
    cases h
    exact fault?_registeredDevices_iff
  | _ => cases h

end Faults

def shapedTypes : List MessageType :=
  [.feedValues, .parameterSync, .synchronizeParameters, .detailsSynchronizationResponse,
    .fileUploadInit, .fileDelete, .childrenSynchronizationResponse, .registeredDevicesResponse]

theorem ofType?_eq_none {t : MessageType} : ofType? t = none ↔ t ∉ shapedTypes := by
  cases t <;> decide

private theorem not_hasShape {t : MessageType} {v : Json} (h : ofType? t = none) :
    ¬ HasShape t v := by
  cases t <;> first | exact id | cases h

end Schema

namespace Payload

variable (t : MessageType) (v : Json)

/-- A value is valid for a kind of message exactly if it has the shape of the payloads of that kind,
that is, if the keywords of the schema document admit it. For kinds without a shape every value is
refused for that alone. -/
theorem validateValue_iff_hasShape :
    (validateValue t v = .ok () ↔ Schema.HasShape t v) ∧
    (validateValue t v = .ok () ↔
      ∃ schema, Schema.ofType? t = some schema ∧ Schema.Admits schema.toJson v) ∧
    (validateValue t v = .error (.noSchema t) ↔ t ∉ Schema.shapedTypes) := by
  refine ⟨?_, ?_, ?_⟩
  · rw [validateValue_eq_ok]
    cases hschema : Schema.ofType? t with
    | none =>
      refine iff_of_false (fun h => ?_) (Schema.not_hasShape hschema)
      obtain ⟨_, ⟨⟩, -⟩ := h
    | some schema =>
      rw [← Schema.fault?_iff_hasShape hschema]
      simp
  · simp only [validateValue_eq_ok, Schema.admits_toJson]
  · rw [← Schema.ofType?_eq_none]
    unfold validateValue
    cases Schema.ofType? t with
    | none => simp
    | some schema => cases hfault : schema.fault? v <;> simp [hfault]

end Payload

end DeviceLink
