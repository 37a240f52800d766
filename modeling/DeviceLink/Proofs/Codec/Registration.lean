import DeviceLink.Proofs.Codec.Area
import DeviceLink.Proofs.Codec.Query
import DeviceLink.Proofs.Codec.Record
import DeviceLink.Proofs.Topic

/-! Registration between a gateway and the devices that it serves: what one end sends is what the
other end reads. -/
namespace DeviceLink

/-- A request as the other end has it: parameters in their canonical spelling, and a filter of a
look-up that was empty left out. -/
def Message.received : Message → Message
  | .deviceRegistration devices => .deviceRegistration (devices.map Device.canonical)
  | .registeredDevicesRequest q =>
    .registeredDevicesRequest
      ⟨q.timestampFrom, q.deviceType.filter (· ≠ ""), q.externalId.filter (· ≠ "")⟩
  | m => m

/-- The names of devices in an answer are not blank. -/
def Message.KeysVisible : Message → Prop
  | .childrenSynchronizationResponse children =>
    ∀ key ∈ children, Schema.Pattern.nonBlank.accepts key
  | .registeredDevicesResponse _ devices =>
    ∀ d ∈ devices, Schema.Pattern.nonBlank.accepts d.deviceKey
  | _ => True

section Kinds

variable {t : MessageType} {read : Envelope → Except CodecError Message}

theorem GatewayRegistration.messageType_channel (h : reader? t = some read) (d : Direction)
    (key : String) : Area.gatewayRegistration.messageType (Topic.channel d key t) = t := by
  rw [Area.messageType, messageType, Topic.messageType_channel]
  cases t with
  | deviceRegistration | deviceRemoval | childrenSynchronizationRequest
  | registeredDevicesRequest => decide
  | _ => cases h

theorem Registration.messageType_channel (h : reader? t = some read) (d : Direction)
    (key : String) : Area.registration.messageType (Topic.channel d key t) = t := by
  show Topic.messageType (Topic.channel d key t) = t
  rw [Topic.messageType_channel]
  cases t with
  | deviceRegistrationResponse | childrenSynchronizationResponse
  | registeredDevicesResponse => decide
  | _ => cases h

end Kinds

namespace GatewayRegistration

variable {channel : String}

theorem readDevices_render {devices : List Device} (hne : devices ≠ [])
    (hnames : ∀ d ∈ devices, d.name ≠ "" ∧ d.key ≠ "") (hd : ∀ d ∈ devices, d.NoDouble) :
    readDevices ⟨channel, Text.encode (DeviceRecord.list.render (devices.map .ofDevice))⟩ =
      .ok (.deviceRegistration (devices.map Device.canonical)) := by
  have hrecords : Payload.typed DeviceRecord.list
      ⟨channel, Text.encode (DeviceRecord.list.render (devices.map .ofDevice))⟩ =
        .ok (devices.map .ofDevice) :=
    Payload.typed_render (DeviceRecord.readsBack_list hd 122)
  have hdevices : (devices.map DeviceRecord.ofDevice).mapM DeviceRecord.toDevice =
      .ok (devices.map Device.canonical) := by
    apply mapM_map_of_forall_ok
    intro d hmem
    obtain ⟨hname, hkey⟩ := hnames d hmem
    exact DeviceRecord.toDevice_ofDevice (hd d hmem) hname hkey
  have hempty : ¬ (devices.map DeviceRecord.ofDevice).isEmpty = true := by
    rw [List.isEmpty_iff, List.map_eq_nil_iff]
    exact hne
  unfold readDevices
  simp only [hrecords, hdevices, if_neg hempty, bind, Except.bind]

theorem readRemoval_strings {keys : List String} (hne : keys ≠ []) (hkeys : ∀ k ∈ keys, k ≠ "") :
    readRemoval ⟨channel, (Json.strings keys).encode⟩ = .ok (.deviceRemoval keys) := by
  have hgiven : ¬ (keys = [] ∨ "" ∈ keys) := by
    rintro (hnil | hmem)
    · exact hne hnil
    · exact hkeys "" hmem rfl
  unfold readRemoval
  simp only [Payload.json_strings, Payload.strings_strings, if_neg hgiven, bind, Except.bind]

private theorem readQuery_render (q : DeviceQuery) :
    readQuery ⟨channel, Text.encode (DeviceQuery.shape.render (q, none))⟩ =
      .ok (.registeredDevicesRequest q) := by
  have hquery : Payload.typed DeviceQuery.shape
      ⟨channel, Text.encode (DeviceQuery.shape.render (q, none))⟩ = .ok (q, none) :=
    Payload.typed_render (q.readsBack 126)
  unfold readQuery
  simp only [hquery, bind, Except.bind]

theorem exists_reader {m : Message} {text : String} (h : Registration.payload m = .ok text)
    (hd : m.NoDouble) : ∃ read, reader? m.type = some read ∧
      ∀ channel, read ⟨channel, Text.encode text⟩ = .ok m.received := by
  cases m with
  | deviceRegistration devices =>
    dsimp only [Registration.payload] at h
    split_ifs at h with hempty
    obtain ⟨⟨⟩, hnames, h⟩ := bind_eq_ok.mp h
    cases h
    have hgiven : ∀ d ∈ devices, d.name ≠ "" ∧ d.key ≠ "" := by
      intro d hmem
      obtain ⟨⟨⟩, hname, hkey⟩ := bind_eq_ok.mp (forM_eq_ok.mp hnames d hmem)
      exact ⟨Payload.require_eq_ok.mp hname, Payload.require_eq_ok.mp hkey⟩
    exact ⟨readDevices, rfl, fun _ => readDevices_render hempty hgiven hd⟩
  | deviceRemoval keys =>
    dsimp only [Registration.payload] at h
    split_ifs at h with hempty
    obtain ⟨⟨⟩, hkeys, h⟩ := bind_eq_ok.mp h
    cases h
    have hgiven := Payload.forM_require_eq_ok.mp hkeys
    exact ⟨readRemoval, rfl, fun _ => readRemoval_strings hempty hgiven⟩
  | childrenSynchronizationRequest => exact ⟨_, rfl, fun _ => rfl⟩
  | registeredDevicesRequest q =>
    cases h
    exact ⟨readQuery, rfl, fun _ => readQuery_render _⟩
  | _ => cases h

/-- A request of a device reaches the gateway's end as the request that it is: devices, and their
feeds and attributes, in their order. -/
theorem request_received {key : String} {m : Message} {e : Envelope}
    (h : (Area.registration.make key m).value = some e) (hd : m.NoDouble) :
    Area.gatewayRegistration.messageType e.channel = m.type ∧
      (Area.gatewayRegistration.parse e).value = some m.received := by
  obtain ⟨-, text, htext, rfl⟩ := Area.of_make (by decide) h
  obtain ⟨read, hreader, hread⟩ := exists_reader htext hd
  have htype := messageType_channel hreader Area.registration.outgoing key
  exact ⟨htype, Area.parse_value htype hreader (hread _)⟩

def pump (size : String) : Device where
  name := "Pump"
  key := "a/b"
  guid := ""
  parameters := ParameterTable.empty.insert .maximumMessageSize size
  feeds := [⟨"Flow", "F", .inputOutput, "", by decide, by decide⟩]
  attributes := [⟨"Serial", .string, "007", by decide⟩]

theorem request_received_numeral :
    ∃ e, (Area.registration.make "GW" (.deviceRegistration [pump "007"])).value = some e ∧
      (Message.deviceRegistration [pump "007"]).NoDouble ∧
      Area.gatewayRegistration.messageType e.channel = .deviceRegistration ∧
      (Area.gatewayRegistration.parse e).value = some (.deviceRegistration [pump "7"]) := by
  have hmake : (Area.registration.make "GW" (.deviceRegistration [pump "007"])).value.isSome =
      true := rfl
  have hdouble : (Message.deviceRegistration [pump "007"]).NoDouble := by
    intro d hd n v hv
    rw [List.mem_singleton.mp hd] at hv
    revert v
    cases n <;> decide
  have hparameters : (pump "007").parameters.map Value.canonical = (pump "7").parameters := by
    apply ParameterTable.ext
    intro n
    cases n <;> decide
  have hreceived : (Message.deviceRegistration [pump "007"]).received =
      .deviceRegistration [pump "7"] := by
    show Message.deviceRegistration [(pump "007").canonical] = _
    rw [Device.canonical, hparameters]
    rfl
  obtain ⟨e, he⟩ := Option.isSome_iff_exists.mp hmake
  have h := request_received he hdouble
  rw [hreceived] at h
  exact ⟨e, he, hdouble, h⟩

end GatewayRegistration

namespace Registration

variable {channel : String}

theorem readResult_render (success failed : List String) :
    readResult ⟨channel, Text.encode (registrationResult.render (success, failed))⟩ =
      .ok (.deviceRegistrationResponse success failed) := by
  have hresult : Payload.typed registrationResult
      ⟨channel, Text.encode (registrationResult.render (success, failed))⟩ =
        .ok (success, failed) :=
    Payload.typed_render (readsBack_registrationResult success failed 125)
  unfold readResult
  simp only [hresult, bind, Except.bind]

/-- A list of names is at fault exactly if one of them is blank. -/
theorem fault?_names (children : List String) :
    Schema.names.fault? (Json.strings children) = none ↔
      ∀ key ∈ children, Schema.Pattern.nonBlank.accepts key := by
  rw [Schema.names, Json.strings, Schema.fault?, List.findSome?_eq_none_iff, List.forall_mem_map]
  exact forall₂_congr fun key _ => Schema.fault?_string_eq_none

theorem readChildren_strings {children : List String}
    (hchannel : Topic.messageType channel = .childrenSynchronizationResponse)
    (h : ∀ key ∈ children, Schema.Pattern.nonBlank.accepts key) :
    readChildren ⟨channel, (Json.strings children).encode⟩ =
      .ok (.childrenSynchronizationResponse children) := by
  have harranged := (Payload.ordered_strings children).arranged_eq
  have hschema : Schema.ofType? (Topic.messageType channel) = some Schema.names := by
    rw [hchannel]
    rfl
  have hfault : Schema.names.fault? (Json.strings children).arranged = none := by
    rw [harranged]
    exact (fault?_names children).mpr h
  have hvalid := Payload.validated_encode hschema (Payload.whole_strings children 126) hfault
  rw [harranged] at hvalid
  unfold readChildren
  simp only [hvalid, Payload.strings_strings, bind, Except.bind]

theorem readDevices_render {q : DeviceQuery} {devices : List RegisteredDevice}
    (hchannel : Topic.messageType channel = .registeredDevicesResponse)
    (h : ∀ d ∈ devices, Schema.Pattern.nonBlank.accepts d.deviceKey) :
    readDevices ⟨channel, Text.encode (DeviceQuery.shape.render (q, some devices))⟩ =
      .ok (.registeredDevicesResponse q devices) := by
  have hschema : Schema.ofType? (Topic.messageType channel) = some Schema.registeredDevices := by
    rw [hchannel]
    rfl
  have hvalid : Payload.validated
      ⟨channel, Text.encode (DeviceQuery.shape.render (q, some devices))⟩ =
        .ok (DeviceQuery.shape.toJson (q, some devices)).arranged :=
    Payload.validated_encode hschema (q.whole_toJson devices 124)
      ((q.fault?_arranged devices).mpr h)
  unfold readDevices
  simp only [hvalid, q.ofJson_arranged devices, Except.mapError, bind, Except.bind,
    Option.getD_some]

theorem exists_reader {m : Message} {text : String} (h : GatewayRegistration.payload m = .ok text)
    (hkeys : m.KeysVisible) : ∃ read, reader? m.type = some read ∧
      ∀ channel, Topic.messageType channel = m.type →
        read ⟨channel, Text.encode text⟩ = .ok m := by
  cases m with
  | deviceRegistrationResponse success failed =>
    dsimp only [GatewayRegistration.payload] at h
    split_ifs at h with hempty
    cases h
    exact ⟨readResult, rfl, fun _ _ => readResult_render success failed⟩
  | childrenSynchronizationResponse children =>
    obtain ⟨-, -, h⟩ := bind_eq_ok.mp h
    cases h
    exact ⟨readChildren, rfl, fun _ hchannel => readChildren_strings hchannel hkeys⟩
  | registeredDevicesResponse q devices =>
    obtain ⟨-, -, h⟩ := bind_eq_ok.mp h
    cases h
    exact ⟨readDevices, rfl, fun _ hchannel => readDevices_render hchannel hkeys⟩
  | _ => cases h

/-- An answer reaches the device's end as the answer that it is. -/
theorem answer_received {key : String} {m : Message} {e : Envelope}
    (h : (Area.gatewayRegistration.make key m).value = some e) (hkeys : m.KeysVisible) :
    Area.registration.messageType e.channel = m.type ∧
      (Area.registration.parse e).value = some m := by
  obtain ⟨-, text, htext, rfl⟩ := Area.of_make (by decide) h
  obtain ⟨read, hreader, hread⟩ := exists_reader htext hkeys
  have htype := messageType_channel hreader Area.gatewayRegistration.outgoing key
  exact ⟨htype, Area.parse_value htype hreader (hread _ htype)⟩

theorem answer_received_empty :
    ∃ e, (Area.gatewayRegistration.make "GW"
        (.registeredDevicesResponse ⟨5, some "", none⟩ [⟨"a/b", "", "Pump"⟩])).value = some e ∧
      (∀ d ∈ [RegisteredDevice.mk "a/b" "" "Pump"],
        Schema.Pattern.nonBlank.accepts d.deviceKey) ∧
      Area.registration.messageType e.channel = .registeredDevicesResponse ∧
      (Area.registration.parse e).value =
        some (.registeredDevicesResponse ⟨5, some "", none⟩ [⟨"a/b", "", "Pump"⟩]) := by
  have hmake : (Area.gatewayRegistration.make "GW" (.registeredDevicesResponse
      ⟨5, some "", none⟩ [⟨"a/b", "", "Pump"⟩])).value.isSome = true := rfl
  have hkeys : ∀ d ∈ [RegisteredDevice.mk "a/b" "" "Pump"],
      Schema.Pattern.nonBlank.accepts d.deviceKey := by
    decide
  obtain ⟨e, he⟩ := Option.isSome_iff_exists.mp hmake
  exact ⟨e, he, hkeys, answer_received he hkeys⟩

end Registration

end DeviceLink
