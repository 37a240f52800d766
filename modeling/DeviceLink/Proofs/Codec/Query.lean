import DeviceLink.Codec.Record
import DeviceLink.Proofs.Codec.Payload
import DeviceLink.Proofs.Json.Shape
import DeviceLink.Proofs.Schema

/-! Look-ups of devices: the request is read as it was written, and so is its answer, which is
first checked against a schema. -/
namespace DeviceLink

open Json (Shape)
open Text (octets)

namespace RegisteredDevice

variable (d : RegisteredDevice)

theorem robust (room : Nat) : shape.Robust (room + 1) d := by
  refine Shape.Robust.refine (Shape.robust_record ?_ ?_ _) rfl
  · exact .required (.defaulted (.defaulted .nil))
  · decide

theorem exists_arranged : ∃ members, (shape.toJson d).arranged = .object members ∧
    Ascending.find? "deviceKey" members = some (.string d.deviceKey) ∧
    Ascending.find? "externalId" members = some (.string d.externalId) ∧
    Ascending.find? "deviceType" members = some (.string d.deviceType) := by
  refine ⟨_, Json.arranged_object _, ?_, ?_, ?_⟩
  · exact (Shape.find?_arranged (by decide) _ _).trans rfl
  · exact (Shape.find?_arranged (by decide) _ _).trans rfl
  · exact (Shape.find?_arranged (by decide) _ _).trans rfl

/-- A device is described by an object with its key; what is empty may be left out. -/
def DescribedBy (v : Json) : Prop :=
  ∃ members, v = .object members ∧
    Ascending.find? "deviceKey" members = some (.string d.deviceKey) ∧
    (Ascending.find? "externalId" members).getD (.string "") = .string d.externalId ∧
    (Ascending.find? "deviceType" members).getD (.string "") = .string d.deviceType

theorem getD_eq_string {o : Option Json} {s : String} : o.getD (.string "") = .string s ↔
    ∃ slot : Option String, o.mapM Shape.text.ofJson = .ok slot ∧ slot.getD "" = s := by
  simp only [Shape.mapM_text_eq_ok]
  constructor
  · intro h
    cases o with
    | none => exact ⟨none, rfl, Json.string.inj h⟩
    | some v => exact ⟨some s, congrArg some h, rfl⟩
  · intro h
    obtain ⟨slot, rfl, rfl⟩ := h
    cases slot <;> rfl

variable {d} in
theorem ofJson_eq_ok {v : Json} : shape.ofJson v = .ok d ↔ d.DescribedBy v := by
  constructor
  · intro h
    obtain ⟨members, ⟨key, id, type, ⟨⟩⟩, rfl, h, hcheck⟩ := Shape.ofJson_record_eq_ok.mp h
    obtain ⟨v, hv, hkey, h⟩ := Shape.ofMembers_required_eq_ok.mp h
    obtain ⟨hid, h⟩ := Shape.ofMembers_defaulted_eq_ok.mp h
    obtain ⟨htype, -⟩ := Shape.ofMembers_defaulted_eq_ok.mp h
    cases hcheck
    rw [Shape.ofJson_text_eq_ok.mp hkey] at hv
    exact ⟨members, rfl, hv, getD_eq_string.mpr ⟨id, hid, rfl⟩,
      getD_eq_string.mpr ⟨type, htype, rfl⟩⟩
  · intro h
    obtain ⟨members, rfl, hkey, hid, htype⟩ := h
    obtain ⟨id, hid, hid'⟩ := getD_eq_string.mp hid
    obtain ⟨type, htype, htype'⟩ := getD_eq_string.mp htype
    have hend : Json.Row.nil.ofMembers members = .ok () := rfl
    have hrow := Shape.ofMembers_required_eq_ok.mpr ⟨_, hkey, Shape.ofJson_text_eq_ok.mpr rfl,
      Shape.ofMembers_defaulted_eq_ok.mpr ⟨hid,
        Shape.ofMembers_defaulted_eq_ok.mpr ⟨htype, hend⟩⟩⟩
    refine Shape.ofJson_record_eq_ok.mpr ⟨members, _, rfl, hrow, ?_⟩
    dsimp only
    rw [hid', htype']

theorem ofJson_arranged : shape.ofJson (shape.toJson d).arranged = .ok d := by
  obtain ⟨members, harranged, hkey, hid, htype⟩ := exists_arranged d
  rw [ofJson_eq_ok, harranged]
  refine ⟨members, rfl, hkey, ?_, ?_⟩
  · rw [hid, Option.getD_some]
  · rw [htype, Option.getD_some]

/-- A device is at fault exactly if its key is blank. -/
theorem fault?_arranged : Schema.matchingDevice.fault? (shape.toJson d).arranged = none ↔
    Schema.Pattern.nonBlank.accepts d.deviceKey := by
  obtain ⟨members, harranged, hkey, hid, htype⟩ := exists_arranged d
  rw [harranged, Schema.matchingDevice, Schema.fault?_record_eq_none]
  simp [hkey, hid, htype, Schema.fault?_text_eq_none]

end RegisteredDevice

namespace DeviceQuery

section Request

theorem reads_nullable {room : Nat} {slot : Option String} : ∀ s ∈ slot,
    Shape.text.ReadsBack room s ∧
      ∃ b t, octets (Shape.text.toJson s).chars = b :: t ∧ Json.isBlank b = false ∧
        b ≠ 0x6E := by
  intro s _
  exact ⟨Shape.readsBack_text room s, 0x22, _, Json.octets_literal s, by decide, by decide⟩

theorem readsBack (q : DeviceQuery) (room : Nat) : shape.ReadsBack (room + 1) (q, none) := by
  refine Shape.ReadsBack.refine (Shape.readsBack_record ?_ ?_) rfl
  · decide
  · refine ⟨Shape.readsBack_uint64 room q.timestampFrom, reads_nullable, reads_nullable, ?_,
      trivial⟩
    intro devices hdevices
    cases hdevices

end Request

/-- A text is not null. -/
theorem filter_map_string (slot : Option String) :
    ((slot.map Json.string).filter fun v => !v.isNull) = slot.map .string := by
  cases slot <;> rfl

/-- A look-up is held, with the devices found, by the members of an object; a member that is null
counts as absent. -/
theorem ofJson_eq_ok {v : Json} {q : DeviceQuery} {devices : Option (List RegisteredDevice)} :
    shape.ofJson v = .ok (q, devices) ↔ ∃ members, v = .object members ∧
      Ascending.find? "timestampFrom" members = some (.ofNat q.timestampFrom.toNat) ∧
      ((Ascending.find? "deviceType" members).filter fun v => !v.isNull) =
        q.deviceType.map .string ∧
      ((Ascending.find? "externalId" members).filter fun v => !v.isNull) =
        q.externalId.map .string ∧
      ((Ascending.find? "matchingDevices" members).filter fun v => !v.isNull).mapM
        (Shape.list RegisteredDevice.shape).ofJson = .ok devices := by
  constructor
  · intro h
    obtain ⟨members, ⟨since, type, id, devices, ⟨⟩⟩, rfl, h, hcheck⟩ :=
      Shape.ofJson_record_eq_ok.mp h
    obtain ⟨v, hv, htime, h⟩ := Shape.ofMembers_required_eq_ok.mp h
    obtain ⟨htype, h⟩ := Shape.ofMembers_nullable_eq_ok.mp h
    obtain ⟨hid, h⟩ := Shape.ofMembers_nullable_eq_ok.mp h
    obtain ⟨hdevices, -⟩ := Shape.ofMembers_nullable_eq_ok.mp h
    cases hcheck
    rw [Shape.ofJson_uint64_eq_ok.mp htime] at hv
    exact ⟨members, rfl, hv, Shape.mapM_text_eq_ok.mp htype, Shape.mapM_text_eq_ok.mp hid,
      hdevices⟩
  · intro h
    obtain ⟨members, rfl, htime, htype, hid, hdevices⟩ := h
    have hend : Json.Row.nil.ofMembers members = .ok () := rfl
    have hrow := Shape.ofMembers_required_eq_ok.mpr ⟨_, htime, Shape.ofJson_uint64 _,
      Shape.ofMembers_nullable_eq_ok.mpr ⟨Shape.mapM_text_eq_ok.mpr htype,
        Shape.ofMembers_nullable_eq_ok.mpr ⟨Shape.mapM_text_eq_ok.mpr hid,
          Shape.ofMembers_nullable_eq_ok.mpr ⟨hdevices, hend⟩⟩⟩⟩
    exact Shape.ofJson_record_eq_ok.mpr ⟨members, _, rfl, hrow, rfl⟩

section Answer

variable (q : DeviceQuery) (devices : List RegisteredDevice)

theorem whole_toJson (room : Nat) : Json.Whole (room + 3) (shape.toJson (q, some devices)) := by
  have htime := Json.whole_ofNat q.timestampFrom (room + 2)
  have hdevices : (Shape.list RegisteredDevice.shape).Robust (room + 2) devices :=
    Shape.robust_list fun d _ => d.robust room
  have hslot : ∀ {name : String} {slot : Option String}, ∀ m ∈ (slot.map fun s =>
      (name, Shape.text.toJson s)).toList, Json.Whole (room + 2) m.2 := by
    intro name slot m hm
    obtain ⟨s, -, rfl⟩ := Option.map_eq_some_iff.mp (Option.mem_toList.mp hm)
    exact .string s
  apply Json.Whole.object
  intro m hm
  rcases List.mem_cons.mp hm with rfl | hm
  · exact htime
  rcases List.mem_append.mp hm with hm | hm
  · exact hslot m hm
  rcases List.mem_append.mp hm with hm | hm
  · exact hslot m hm
  · rw [List.mem_singleton.mp hm]
    exact hdevices.whole

theorem exists_arranged : ∃ members,
    (shape.toJson (q, some devices)).arranged = .object members ∧
    Ascending.find? "timestampFrom" members = some (.ofNat q.timestampFrom.toNat) ∧
    Ascending.find? "deviceType" members = q.deviceType.map .string ∧
    Ascending.find? "externalId" members = q.externalId.map .string ∧
    Ascending.find? "matchingDevices" members =
      some (.array (devices.map fun d => (RegisteredDevice.shape.toJson d).arranged)) := by
  have hdevices : ((Shape.list RegisteredDevice.shape).toJson devices).arranged =
      .array (devices.map fun d => (RegisteredDevice.shape.toJson d).arranged) := by
    rw [Shape.toJson, Json.arranged_array, List.map_map]
    rfl
  obtain ⟨since, type, id⟩ := q
  refine ⟨_, Json.arranged_object _, ?_, ?_, ?_, ?_⟩
  · exact (Shape.find?_arranged (by decide) _ _).trans rfl
  · refine (Shape.find?_arranged (by decide) _ _).trans ?_
    cases type <;> cases id <;> rfl
  · refine (Shape.find?_arranged (by decide) _ _).trans ?_
    cases type <;> cases id <;> rfl
  · refine (Shape.find?_arranged (by decide) _ _).trans ?_
    rw [← hdevices]
    cases type <;> cases id <;> rfl

theorem ofJson_arranged :
    shape.ofJson (shape.toJson (q, some devices)).arranged = .ok (q, some devices) := by
  obtain ⟨members, harranged, htime, htype, hid, hdevices⟩ := exists_arranged q devices
  rw [harranged]
  apply ofJson_eq_ok.mpr
  refine ⟨members, rfl, htime, ?_, ?_, ?_⟩
  · rw [htype, filter_map_string]
  · rw [hid, filter_map_string]
  · rw [hdevices, Option.filter_some_pos rfl, optionMapM_eq_ok]
    refine Option.Rel.some (Shape.ofJson_list_eq_ok.mpr ⟨_, rfl, ?_⟩)
    simp [List.forall₂_map_left_iff, List.forall₂_same, RegisteredDevice.ofJson_arranged]

/-- An answer is at fault exactly if the key of one of its devices is blank. -/
theorem fault?_arranged :
    Schema.registeredDevices.fault? (shape.toJson (q, some devices)).arranged = none ↔
      ∀ d ∈ devices, Schema.Pattern.nonBlank.accepts d.deviceKey := by
  obtain ⟨members, harranged, htime, htype, hid, hdevices⟩ := exists_arranged q devices
  have hlist : (Schema.list Schema.matchingDevice).fault?
      (.array (devices.map fun d => (RegisteredDevice.shape.toJson d).arranged)) = none ↔
        ∀ d ∈ devices, Schema.Pattern.nonBlank.accepts d.deviceKey := by
    rw [Schema.fault?, List.findSome?_eq_none_iff, List.forall_mem_map]
    exact forall₂_congr fun d _ => d.fault?_arranged
  rw [harranged, Schema.registeredDevices, Schema.fault?_record_eq_none]
  simp [htime, htype, hid, hdevices, hlist, Schema.fault?_text_eq_none,
    Schema.fault?_number_eq_none, Json.ofNat]

end Answer

end DeviceQuery

end DeviceLink
