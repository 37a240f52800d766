import DeviceLink.Proofs.Codec.FeedValues
import DeviceLink.Proofs.Codec.Registration
import DeviceLink.Proofs.Parameter

/-! Conformance: what is sent obeys the schema of its kind, doubles included, unless it names a
device by a blank key. -/
namespace DeviceLink

namespace Data

section FeedValues

variable {readings : List Reading} {groups : Groups}

/-- Doubles may be rounded on the way, but every group keeps its names. -/
theorem reread_groupsJson (h : Grouped readings groups) : (groupsJson groups).reread =
    .array (groups.map fun g => .object (g.2.map fun m => (m.1, m.2.reread))) := by
  have hgroup : ∀ g ∈ groups, (Json.object g.2).reread =
      .object (g.2.map fun m => (m.1, m.2.reread)) := by
    intro g hg
    have hsorted : Ascending.Sorted (g.2.map fun m => (m.1, m.2.reread)) :=
      List.pairwise_map.mpr (h.groupOf g hg).sorted
    rw [Json.reread_object, hsorted.ofList_eq]
  rw [groupsJson, Json.reread_array, List.map_map]
  exact congrArg Json.array (List.map_congr_left hgroup)

theorem find?_time_reread {timestamp : UInt64} {members : List (String × Json)}
    (h : GroupOf readings timestamp members) :
    Ascending.find? timestampName (members.map fun m => (m.1, m.2.reread)) =
      some (.ofNat timestamp.toNat) := by
  rw [Ascending.find?_map, h.time]
  rfl

theorem fault?_reread_groupsJson (h : Grouped readings groups) :
    Schema.feedValues.fault? (groupsJson groups).reread = none := by
  rw [reread_groupsJson h]
  apply fault?_feedValues
  rw [List.forall_mem_map]
  exact fun g hg => ⟨_, _, rfl, find?_time_reread (h.groupOf g hg)⟩

end FeedValues

section Parameters

/-- Only names of parameters are written. -/
theorem fault?_parametersJson (parameters : List (ParameterName × String)) :
    (Schema.dictionary Schema.parameterTokens).fault? (parametersJson parameters).reread =
      none := by
  unfold parametersJson
  rw [Json.reread_object]
  refine Schema.fault?_dictionary_eq_none.mpr ⟨_, rfl, fun m hm => ?_⟩
  obtain ⟨_, hm', rfl⟩ := List.mem_map.mp (Ascending.mem_ofList hm)
  obtain ⟨p, -, rfl⟩ := List.mem_map.mp (Ascending.mem_ofList hm')
  exact Schema.token_mem_parameterTokens p.1

theorem legible_parametersJson (parameters : List (ParameterName × String)) (room : Nat) :
    Json.Legible (room + 1) (parametersJson parameters) := by
  refine .object fun m hm => ?_
  obtain ⟨p, -, rfl⟩ := List.mem_map.mp (Ascending.mem_ofList hm)
  exact Value.legible_toJson p.2 room

theorem json_parametersJson (channel : String) (parameters : List (ParameterName × String)) :
    Payload.json ⟨channel, (parametersJson parameters).encode⟩ =
      .ok (parametersJson parameters).reread :=
  Payload.json_encode_reread (legible_parametersJson parameters 126)

end Parameters

theorem keysVisible_of_payload {m : Message} {text : String} (h : payload m = .ok text) :
    m.KeysVisible := by
  cases m with
  | childrenSynchronizationResponse | registeredDevicesResponse => cases h
  | _ => trivial

/-- Data that is sent obeys its schema. -/
theorem succeeds_validated {channel : String} {m : Message} {text : String}
    (h : payload m = .ok text) (hchannel : Topic.messageType channel = m.type)
    (hschema : (Schema.ofType? m.type).isSome) :
    Succeeds (Payload.validated ⟨channel, Text.encode text⟩) := by
  cases m with
  | feedValues readings =>
    obtain ⟨groups, hfold, rfl⟩ := payload_feedValues h
    have hgrouped := grouped_of_foldlM hfold
    have hfeed : Schema.ofType? (Topic.messageType channel) = some Schema.feedValues :=
      congrArg Schema.ofType? hchannel
    exact (Payload.succeeds_validated_encode hfeed (legible_groupsJson hgrouped 124)).mpr
      (fault?_reread_groupsJson hgrouped)
  | parametersUpdate parameters =>
    dsimp only [payload] at h
    split_ifs at h
    cases h
    have hparameters : Schema.ofType? (Topic.messageType channel) =
        some (.dictionary Schema.parameterTokens) :=
      congrArg Schema.ofType? hchannel
    exact (Payload.succeeds_validated_encode hparameters
      (legible_parametersJson parameters 126)).mpr (fault?_parametersJson parameters)
  | synchronizeParameters names =>
    dsimp only [payload] at h
    split_ifs at h
    cases h
    have hnames : Schema.ofType? (Topic.messageType channel) =
        some (.list (.oneOf Schema.parameterTokens)) :=
      congrArg Schema.ofType? hchannel
    have hwhole := Payload.whole_strings (names.map ParameterName.token) 126
    apply (Payload.succeeds_validated_encode hnames hwhole.legible).mpr
    rw [Payload.reread_strings]
    exact Schema.fault?_parameters_eq_none.mpr ⟨names, rfl⟩
  | feedRegistration | feedRemoval | attributeRegistration | pullFeedValues | parametersPull
  | detailsSynchronizationRequest => cases hschema
  | _ => cases h

end Data

namespace GatewayRegistration

/-- Answers that are sent obey their schema unless a device in them has a blank key. -/
theorem succeeds_validated_iff {channel : String} {m : Message} {text : String}
    (h : payload m = .ok text) (hchannel : Topic.messageType channel = m.type)
    (hschema : (Schema.ofType? m.type).isSome) :
    Succeeds (Payload.validated ⟨channel, Text.encode text⟩) ↔ m.KeysVisible := by
  cases m with
  | childrenSynchronizationResponse children =>
    obtain ⟨-, -, h⟩ := bind_eq_ok.mp h
    cases h
    have hnames : Schema.ofType? (Topic.messageType channel) = some Schema.names :=
      congrArg Schema.ofType? hchannel
    have hwhole := Payload.whole_strings children 126
    have hvalid := Payload.succeeds_validated_encode hnames hwhole.legible
    rw [Payload.reread_strings] at hvalid
    exact hvalid.trans (Registration.fault?_names children)
  | registeredDevicesResponse q devices =>
    obtain ⟨-, -, h⟩ := bind_eq_ok.mp h
    cases h
    have hdevices : Schema.ofType? (Topic.messageType channel) =
        some Schema.registeredDevices :=
      congrArg Schema.ofType? hchannel
    have hwhole := q.whole_toJson devices 124
    have hvalid := Payload.succeeds_validated_encode hdevices hwhole.legible
    rw [hwhole.reread_eq] at hvalid
    exact hvalid.trans (q.fault?_arranged devices)
  | deviceRegistrationResponse => cases hschema
  | _ => cases h

end GatewayRegistration

namespace Area

theorem messageType_of_schema {t : MessageType} (h : (Schema.ofType? t).isSome) (d : Direction)
    (key : String) : Topic.messageType (Topic.channel d key t) = t := by
  rw [Topic.messageType_channel]
  revert h
  cases t <;> decide

theorem sender_of_schema {a : Area} {m : Message} {text : String} (h : a.payload m = .ok text)
    (hschema : (Schema.ofType? m.type).isSome) : a = .data ∨ a = .gatewayRegistration := by
  cases a with
  | data => exact Or.inl rfl
  | gatewayRegistration => exact Or.inr rfl
  | registration =>
    cases m with
    | deviceRegistration | deviceRemoval | childrenSynchronizationRequest
    | registeredDevicesRequest => cases hschema
    | _ => cases h
  | fileManagement =>
    cases m with
    | fileUploadStatus | fileBinaryRequest | fileUrlDownloadStatus | fileListResponse =>
      cases hschema
    | _ => cases h
  | firmwareUpdate =>
    cases m with
    | firmwareUpdateStatus => cases hschema
    | _ => cases h
  | platformStatus =>
    cases m with
    | platformStatus => cases hschema
    | _ => cases h
  | gatewaySubdevice | error => cases h

/-- A message that has a schema, once made, obeys it exactly if no device in it has a blank
key. -/
theorem valid_iff_keysVisible {a : Area} (ha : a ≠ .gatewaySubdevice) {key : String} {m : Message}
    {e : Envelope} (h : (a.make key m).value = some e) (hschema : (Schema.ofType? m.type).isSome) :
    Succeeds (Payload.validated e) ↔ m.KeysVisible := by
  by_cases hstatus : a = .platformStatus
  · subst hstatus
    obtain ⟨text, htext, -⟩ := bind_eq_ok.mp (make_eq_some.mp h)
    rcases sender_of_schema htext hschema with hdata | hgateway
    · cases hdata
    · cases hgateway
  obtain ⟨-, text, htext, rfl⟩ := of_make ⟨hstatus, ha⟩ h
  have hchannel := messageType_of_schema hschema a.outgoing key
  rcases sender_of_schema htext hschema with rfl | rfl
  · have hvisible : m.KeysVisible := Data.keysVisible_of_payload htext
    exact iff_of_true (Data.succeeds_validated htext hchannel hschema) hvisible
  · exact GatewayRegistration.succeeds_validated_iff htext hchannel hschema

theorem valid_iff_keysVisible_double :
    ∃ e, (Area.data.make "K" (.feedValues
        [.single "T" "1.5e300" 5, ⟨"P", "-0", ["0.1"], 5⟩])).value = some e ∧
      Area.data ≠ .gatewaySubdevice ∧ (Schema.ofType? .feedValues).isSome ∧
      Succeeds (Payload.validated e) := by
  have hmake : (Area.data.make "K" (.feedValues
      [.single "T" "1.5e300" 5, ⟨"P", "-0", ["0.1"], 5⟩])).value.isSome = true := rfl
  have harea : Area.data ≠ .gatewaySubdevice := by decide
  have hschema : (Schema.ofType? .feedValues).isSome := by decide
  obtain ⟨e, he⟩ := Option.isSome_iff_exists.mp hmake
  exact ⟨e, he, harea, hschema, (valid_iff_keysVisible harea he hschema).mpr trivial⟩

/-- A child whose key is a space is sent, in a list that the schema rejects. -/
theorem blank_child_sent :
    ∃ e, (Area.gatewayRegistration.make "D" (.childrenSynchronizationResponse [" "])).value =
        some e ∧ ¬ Succeeds (Payload.validated e) := by
  have hpayload : GatewayRegistration.payload (.childrenSynchronizationResponse [" "]) =
      .ok (Json.strings [" "]).text := rfl
  have hblank : ¬ (Message.childrenSynchronizationResponse [" "]).KeysVisible := by
    intro hvisible
    exact absurd (hvisible " " (List.mem_singleton_self _)) (by decide)
  have hschema : (Schema.ofType? .childrenSynchronizationResponse).isSome := by decide
  have hchannel := messageType_of_schema hschema .platformToDevice "D"
  have hvalid := GatewayRegistration.succeeds_validated_iff hpayload hchannel hschema
  exact ⟨_, rfl, mt hvalid.mp hblank⟩

end Area

end DeviceLink
