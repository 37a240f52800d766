import DeviceLink.Proofs.Codec.Query
import DeviceLink.Proofs.Codec.Validity
import DeviceLink.Proofs.Json.Natural
import DeviceLink.Proofs.Schema

/-! Acceptance: lists that obey their schema are read as they stand, without another check but that
of one number. -/
namespace DeviceLink

namespace Schema

theorem exists_of_required {required : List String} {properties : List (String × Schema)}
    {members : List (String × Json)} (name : String) (schema : Schema)
    (h : (record required properties).fault? (.object members) = none)
    (hproperty : (name, schema) ∈ properties) (hname : name ∈ required) :
    ∃ v, Ascending.find? name members = some v ∧ schema.fault? v = none := by
  obtain ⟨_, ⟨⟩, hproperties, hrequired⟩ := fault?_record_eq_none.mp h
  obtain ⟨v, hv⟩ := Option.isSome_iff_exists.mp (hrequired name hname)
  exact ⟨v, hv, hproperties _ hproperty v hv⟩

theorem exists_text {required : List String} {properties : List (String × Schema)}
    {members : List (String × Json)} (name : String)
    (h : (record required properties).fault? (.object members) = none)
    (hproperty : (name, .text none) ∈ properties) :
    ∃ slot : Option String, Ascending.find? name members = slot.map .string := by
  obtain ⟨_, ⟨⟩, hproperties, -⟩ := fault?_record_eq_none.mp h
  cases hfind : Ascending.find? name members with
  | none => exact ⟨none, rfl⟩
  | some v =>
    obtain ⟨s, rfl, -⟩ := fault?_text_eq_none.mp (hproperties _ hproperty v hfind)
    exact ⟨some s, rfl⟩

end Schema

namespace RegisteredDevice

/-- Whatever obeys the schema of a found device describes one. -/
theorem exists_describedBy {v : Json} (h : Schema.matchingDevice.fault? v = none) :
    ∃ d : RegisteredDevice, d.DescribedBy v := by
  obtain ⟨members, rfl, -⟩ := Schema.fault?_record_eq_none.mp h
  obtain ⟨_, hkey, hfault⟩ := Schema.exists_of_required "deviceKey"
    (.text (some .nonBlank)) h (by simp) (by simp)
  obtain ⟨key, rfl, -⟩ := Schema.fault?_text_eq_none.mp hfault
  obtain ⟨id, hid⟩ := Schema.exists_text "externalId" h (by simp)
  obtain ⟨type, htype⟩ := Schema.exists_text "deviceType" h (by simp)
  refine ⟨⟨key, id.getD "", type.getD ""⟩, members, rfl, hkey, ?_, ?_⟩
  · rw [hid]
    cases id <;> rfl
  · rw [htype]
    cases type <;> rfl

end RegisteredDevice

/-- A message says what JSON lists: the strings of arrays and the members of objects, verbatim and
in their order. -/
inductive Message.Lists : Message → Json → Prop
  | parameters (names : List ParameterName) :
    Lists (.synchronizeParameters names) (.strings (names.map ParameterName.token))
  | details {members : List (String × Json)} {feeds attributes : List String} :
    Ascending.find? "feeds" members = some (.strings feeds) →
    Ascending.find? "attributes" members = some (.strings attributes) →
    Lists (.detailsSynchronizationResponse feeds attributes) (.object members)
  | files (names : List String) : Lists (.fileDelete names) (.strings names)
  | children (keys : List String) : Lists (.childrenSynchronizationResponse keys) (.strings keys)
  | devices {members : List (String × Json)} {q : DeviceQuery} {items : List Json}
      {devices : List RegisteredDevice} :
    Ascending.find? "timestampFrom" members = some (.ofNat q.timestampFrom.toNat) →
    Ascending.find? "deviceType" members = q.deviceType.map .string →
    Ascending.find? "externalId" members = q.externalId.map .string →
    Ascending.find? "matchingDevices" members = some (.array items) →
    List.Forall₂ (fun v d => d.DescribedBy v) items devices →
    Lists (.registeredDevicesResponse q devices) (.object members)

/-- Kinds of messages that are checked against a schema before they are taken apart, with the area
that does so. -/
inductive Area.Checks : Area → MessageType → Prop
  | parameters : Checks .data .synchronizeParameters
  | details : Checks .data .detailsSynchronizationResponse
  | files : Checks .fileManagement .fileDelete
  | children : Checks .registration .childrenSynchronizationResponse
  | devices : Checks .registration .registeredDevicesResponse

/-- An answer to a look-up tells its time as a whole number of 64 bits without a sign; nothing is
asked of other kinds. -/
def MessageType.TimeFits (t : MessageType) (v : Json) : Prop :=
  t = .registeredDevicesResponse → ∃ n < limit64, v.get? "timestampFrom" = some (.ofNat n)

theorem MessageType.eq_of_not_timeFits {t : MessageType} {v : Json} (h : ¬ t.TimeFits v) :
    t = .registeredDevicesResponse := by
  by_contra hne
  exact h fun heq => absurd heq hne

/-- What is read from JSON that obeys a schema is the message that lists it, and nothing is refused
but a time. -/
structure ReadsLists (t : MessageType) (schema : Schema)
    (read : Envelope → Except CodecError Message) : Prop where
  refused : ∀ e c, Payload.validated e = .error c → read e = .error c
  taken : ∀ e v m, Payload.validated e = .ok v → m.type = t → m.Lists v → read e = .ok m
  lists : ∀ e v m, Payload.validated e = .ok v → schema.fault? v = none → read e = .ok m →
    m.type = t ∧ m.Lists v
  fits : ∀ e v, Payload.validated e = .ok v → schema.fault? v = none →
    (Succeeds (read e) ↔ t.TimeFits v)

namespace ReadsLists

variable {t : MessageType} {schema : Schema} {read : Envelope → Except CodecError Message}

theorem of_total (ht : t ≠ .registeredDevicesResponse)
    (htotal : ∀ v, schema.fault? v = none → ∃ m : Message, m.type = t ∧ m.Lists v)
    (hrefused : ∀ e c, Payload.validated e = .error c → read e = .error c)
    (htaken : ∀ e v m, Payload.validated e = .ok v → m.type = t → m.Lists v → read e = .ok m) :
    ReadsLists t schema read where
  refused := hrefused
  taken := htaken
  lists e v m hv hfault h := by
    obtain ⟨m', htype, hlists⟩ := htotal v hfault
    cases (htaken e v m' hv htype hlists).symm.trans h
    exact ⟨htype, hlists⟩
  fits e v hv hfault := by
    obtain ⟨m, htype, hlists⟩ := htotal v hfault
    have hfits : t.TimeFits v := fun heq => absurd heq ht
    exact iff_of_true ⟨m, htaken e v m hv htype hlists⟩ hfits

section Content

variable {e : Envelope} (h : ReadsLists t schema read)
  (hfault : ∀ v, Payload.validated e = .ok v → schema.fault? v = none)

include h

theorem exists_validated {m : Message} (hm : read e = .ok m) :
    ∃ v, Payload.validated e = .ok v := by
  cases hv : Payload.validated e with
  | error c => cases (h.refused e c hv).symm.trans hm
  | ok v => exact ⟨v, rfl⟩

include hfault

theorem succeeds_iff :
    Succeeds (read e) ↔ ∃ v, Payload.validated e = .ok v ∧ t.TimeFits v := by
  constructor
  · intro hread
    obtain ⟨m, hm⟩ := hread
    obtain ⟨v, hv⟩ := h.exists_validated hm
    exact ⟨v, hv, (h.fits e v hv (hfault v hv)).mp ⟨m, hm⟩⟩
  · intro hvalid
    obtain ⟨v, hv, hfits⟩ := hvalid
    exact (h.fits e v hv (hfault v hv)).mpr hfits

theorem eq_ok_iff {m : Message} :
    read e = .ok m ↔ ∃ v, Payload.validated e = .ok v ∧ m.type = t ∧ m.Lists v := by
  constructor
  · intro hm
    obtain ⟨v, hv⟩ := h.exists_validated hm
    exact ⟨v, hv, h.lists e v m hv (hfault v hv) hm⟩
  · intro hlists
    obtain ⟨v, hv, htype, hlists⟩ := hlists
    exact h.taken e v m hv htype hlists

theorem of_eq_error {c : CodecError} (hc : read e = .error c) :
    Payload.validated e = .error c ∨ ∃ v, Payload.validated e = .ok v ∧ ¬ t.TimeFits v := by
  cases hv : Payload.validated e with
  | error c' =>
    cases (h.refused e c' hv).symm.trans hc
    exact Or.inl rfl
  | ok v =>
    refine Or.inr ⟨v, rfl, fun hfits => ?_⟩
    obtain ⟨m, hm⟩ := (h.fits e v hv (hfault v hv)).mpr hfits
    cases hm.symm.trans hc

end Content

end ReadsLists

theorem Data.readsLists_parameters : ReadsLists .synchronizeParameters
    (.list (.oneOf Schema.parameterTokens)) readSynchronizeParameters := by
  apply ReadsLists.of_total (by decide)
  · intro v h
    obtain ⟨l, rfl⟩ := Schema.fault?_parameters_eq_none.mp h
    exact ⟨_, rfl, .parameters l⟩
  · intro e c h
    simp only [readSynchronizeParameters, h, bind, Except.bind]
  · intro e v m hv htype hlists
    cases hlists with
    | parameters l =>
      have hl : (l.map ParameterName.token).mapM Payload.parameter = .ok l :=
        mapM_map_of_inverse (fun _ => Payload.parameter_eq_ok.mpr rfl) l
      simp only [readSynchronizeParameters, hv, Payload.strings_strings, hl, bind, Except.bind]
    | _ => cases htype

theorem Data.readsLists_details :
    ReadsLists .detailsSynchronizationResponse Schema.details readDetails := by
  apply ReadsLists.of_total (by decide)
  · intro v h
    obtain ⟨members, rfl, -⟩ := Schema.fault?_record_eq_none.mp h
    obtain ⟨_, hfeeds, hfault⟩ := Schema.exists_of_required "feeds" .names h (by simp)
      (by simp)
    obtain ⟨feeds, rfl, -⟩ := Schema.fault?_names_eq_none.mp hfault
    obtain ⟨_, hattributes, hfault⟩ := Schema.exists_of_required "attributes" .names h
      (by simp) (by simp)
    obtain ⟨attributes, rfl, -⟩ := Schema.fault?_names_eq_none.mp hfault
    exact ⟨_, rfl, .details hfeeds hattributes⟩
  · intro e c h
    simp only [readDetails, h, bind, Except.bind]
  · intro e v m hv htype hlists
    cases hlists with
    | details hfeeds hattributes =>
      simp only [readDetails, hv, Json.get?, hfeeds, hattributes, Option.getD_some,
        Payload.strings_strings, bind, Except.bind]
    | _ => cases htype

theorem FileManagement.readsLists_files : ReadsLists .fileDelete Schema.names readDelete := by
  apply ReadsLists.of_total (by decide)
  · intro v h
    obtain ⟨l, rfl, -⟩ := Schema.fault?_names_eq_none.mp h
    exact ⟨_, rfl, .files l⟩
  · intro e c h
    simp only [readDelete, h, bind, Except.bind]
  · intro e v m hv htype hlists
    cases hlists with
    | files l => simp only [readDelete, hv, Payload.strings_strings, bind, Except.bind]
    | _ => cases htype

namespace Registration

theorem readsLists_children :
    ReadsLists .childrenSynchronizationResponse Schema.names readChildren := by
  apply ReadsLists.of_total (by decide)
  · intro v h
    obtain ⟨l, rfl, -⟩ := Schema.fault?_names_eq_none.mp h
    exact ⟨_, rfl, .children l⟩
  · intro e c h
    simp only [readChildren, h, bind, Except.bind]
  · intro e v m hv htype hlists
    cases hlists with
    | children l => simp only [readChildren, hv, Payload.strings_strings, bind, Except.bind]
    | _ => cases htype

theorem readDevices_eq_ok {e : Envelope} {v : Json} {m : Message}
    (hv : Payload.validated e = .ok v) : readDevices e = .ok m ↔ ∃ q devices,
      DeviceQuery.shape.ofJson v = .ok (q, devices) ∧
        m = .registeredDevicesResponse q (devices.getD []) := by
  constructor
  · intro h
    obtain ⟨_, hv', h⟩ := bind_eq_ok.mp h
    cases hv.symm.trans hv'
    obtain ⟨⟨q, devices⟩, hshape, h⟩ := bind_eq_ok.mp h
    cases h
    exact ⟨q, devices, mapError_eq_ok.mp hshape, rfl⟩
  · intro h
    obtain ⟨q, devices, hshape, rfl⟩ := h
    exact bind_eq_ok.mpr ⟨v, hv, bind_eq_ok.mpr ⟨_, mapError_eq_ok.mpr hshape, rfl⟩⟩

theorem of_fault? {v : Json} (h : Schema.registeredDevices.fault? v = none) :
    ∃ (members : List (String × Json)) (x : Json.Number) (type id : Option String)
      (items : List Json) (devices : List RegisteredDevice), v = .object members ∧
      Ascending.find? "timestampFrom" members = some (.number x) ∧
      Ascending.find? "deviceType" members = type.map .string ∧
      Ascending.find? "externalId" members = id.map .string ∧
      Ascending.find? "matchingDevices" members = some (.array items) ∧
      List.Forall₂ (fun v d => d.DescribedBy v) items devices := by
  obtain ⟨members, rfl, -⟩ := Schema.fault?_record_eq_none.mp h
  obtain ⟨_, htime, hfault⟩ := Schema.exists_of_required "timestampFrom" .number h (by simp)
    (by simp)
  obtain ⟨x, rfl⟩ := Schema.fault?_number_eq_none.mp hfault
  obtain ⟨type, htype⟩ := Schema.exists_text "deviceType" h (by simp)
  obtain ⟨id, hid⟩ := Schema.exists_text "externalId" h (by simp)
  obtain ⟨_, hitems, hfault⟩ := Schema.exists_of_required "matchingDevices"
    (.list Schema.matchingDevice) h (by simp) (by simp)
  obtain ⟨items, rfl, hfaults⟩ := Schema.fault?_list_eq_none.mp hfault
  obtain ⟨devices, hdevices⟩ := exists_forall₂ fun i hi =>
    RegisteredDevice.exists_describedBy (hfaults i hi)
  exact ⟨members, x, type, id, items, devices, rfl, htime, htype, hid, hitems, hdevices⟩

theorem taken_devices {e : Envelope} {v : Json} {m : Message} (hv : Payload.validated e = .ok v)
    (hkind : m.type = .registeredDevicesResponse) (hlists : m.Lists v) :
    readDevices e = .ok m := by
  cases hlists with
  | @devices members q items devices htime htype hid hitems hdevices =>
    have hshape : DeviceQuery.shape.ofJson (.object members) = .ok (q, some devices) := by
      apply DeviceQuery.ofJson_eq_ok.mpr
      refine ⟨members, rfl, htime, ?_, ?_, ?_⟩
      · rw [htype, DeviceQuery.filter_map_string]
      · rw [hid, DeviceQuery.filter_map_string]
      · rw [hitems, Option.filter_some_pos rfl, optionMapM_eq_ok]
        have hlist := hdevices.imp fun v d => RegisteredDevice.ofJson_eq_ok.mpr
        exact .some (Json.Shape.ofJson_list_eq_ok.mpr ⟨items, rfl, hlist⟩)
    exact (readDevices_eq_ok hv).mpr ⟨q, some devices, hshape, rfl⟩
  | _ => cases hkind

theorem lists_devices {e : Envelope} {v : Json} {m : Message} (hv : Payload.validated e = .ok v)
    (hfault : Schema.registeredDevices.fault? v = none) (h : readDevices e = .ok m) :
    m.type = .registeredDevicesResponse ∧ m.Lists v := by
  obtain ⟨q, devices, hshape, rfl⟩ := (readDevices_eq_ok hv).mp h
  obtain ⟨members, x, type, id, items, -, rfl, -, htype, hid, hitems, -⟩ := of_fault? hfault
  obtain ⟨_, ⟨⟩, htime, htype', hid', hdevices⟩ := DeviceQuery.ofJson_eq_ok.mp hshape
  rw [htype, DeviceQuery.filter_map_string, ← htype] at htype'
  rw [hid, DeviceQuery.filter_map_string, ← hid] at hid'
  rw [hitems, Option.filter_some_pos rfl, optionMapM_eq_ok] at hdevices
  cases hdevices with
  | some hlist =>
    obtain ⟨_, ⟨⟩, hlist⟩ := Json.Shape.ofJson_list_eq_ok.mp hlist
    exact ⟨rfl, .devices htime htype' hid' hitems
      (hlist.imp fun v d => RegisteredDevice.ofJson_eq_ok.mp)⟩

/-- Only a time that is no unsigned number of 64 bits is refused. -/
theorem readsLists_devices :
    ReadsLists .registeredDevicesResponse Schema.registeredDevices readDevices where
  refused e c h := by simp only [readDevices, h, bind, Except.bind]
  taken e v m := taken_devices
  lists e v m := lists_devices
  fits e v hv hfault := by
    constructor
    · intro h _
      obtain ⟨m, hm⟩ := h
      obtain ⟨htype, hlists⟩ := lists_devices hv hfault hm
      cases hlists with
      | @devices members q items devices htime =>
        exact ⟨q.timestampFrom.toNat, q.timestampFrom.toNat_lt, htime⟩
      | _ => cases htype
    · intro h
      obtain ⟨members, x, type, id, items, devices, rfl, -, htype, hid, hitems, hdevices⟩ :=
        of_fault? hfault
      obtain ⟨n, hn, htime⟩ := h rfl
      have hsince : Ascending.find? "timestampFrom" members =
          some (.ofNat (UInt64.ofNat n).toNat) := by
        rw [UInt64.toNat_ofNat_of_lt' hn]
        exact htime
      exact ⟨.registeredDevicesResponse ⟨.ofNat n, type, id⟩ devices,
        taken_devices hv rfl (.devices hsince htype hid hitems hdevices)⟩

end Registration

namespace Area

/-- Each kind has a schema and a reader that takes what obeys it. -/
theorem Checks.readsLists {a : Area} {t : MessageType} (h : a.Checks t) : ∃ schema read,
    Schema.ofType? t = some schema ∧ a.reader? t = some read ∧ ReadsLists t schema read := by
  cases h with
  | parameters => exact ⟨_, _, rfl, rfl, Data.readsLists_parameters⟩
  | details => exact ⟨_, _, rfl, rfl, Data.readsLists_details⟩
  | files => exact ⟨_, _, rfl, rfl, FileManagement.readsLists_files⟩
  | children => exact ⟨_, _, rfl, rfl, Registration.readsLists_children⟩
  | devices => exact ⟨_, _, rfl, rfl, Registration.readsLists_devices⟩

theorem Checks.messageType_eq {a : Area} {t : MessageType} (h : a.Checks t) (channel : String) :
    a.messageType channel = Topic.messageType channel := by
  cases h <;> rfl

private theorem fault?_of_validated {t : MessageType} {schema : Schema} {e : Envelope} {v : Json}
    (hschema : Schema.ofType? t = some schema) (htype : Topic.messageType e.channel = t)
    (hv : Payload.validated e = .ok v) : schema.fault? v = none := by
  obtain ⟨schema', hschema', -, hfault⟩ := Payload.validated_eq_ok.mp hv
  rw [htype] at hschema'
  cases hschema.symm.trans hschema'
  exact hfault

/-- Content that obeys the schema of its kind is read, as the message that lists what stands in
it; the time of an answer to a look-up must besides be a numeral without sign, fraction or exponent
that is less than `2 ^ 64`. Nothing else is refused once the schema is obeyed. -/
theorem checked_lists_accepted {a : Area} {t : MessageType} (h : a.Checks t) {e : Envelope}
    (htype : a.messageType e.channel = t) :
    ((a.parseAs t e).value.isSome ↔ ∃ v, Payload.validated e = .ok v ∧ t.TimeFits v) ∧
    (∀ m, (a.parseAs t e).value = some m ↔
      ∃ v, Payload.validated e = .ok v ∧ m.type = t ∧ m.Lists v) ∧
    (∀ c, a.readAs t e = .error c → Payload.validated e = .error c ∨
      t = .registeredDevicesResponse ∧ ∃ v, Payload.validated e = .ok v ∧ ¬ t.TimeFits v) ∧
    ∀ room s n rest, Json.readValue room s = .ok (.ofNat n, rest) ↔
      n < limit64 ∧ Json.skipBlanks s = Text.octets (Text.decimal n) ++ rest ∧
        Json.EndsNumber rest := by
  obtain ⟨schema, read, hschema, hreader, hreads⟩ := h.readsLists
  have hfault : ∀ v, Payload.validated e = .ok v → schema.fault? v = none := fun v =>
    fault?_of_validated hschema ((h.messageType_eq e.channel).symm.trans htype)
  have hparse : ∀ m, (a.parseAs t e).value = some m ↔ read e = .ok m := by
    intro m
    rw [parseAs_eq_some hreader]
    exact and_iff_right htype
  refine ⟨?_, ?_, ?_, fun room s n rest => Json.readValue_eq_ofNat⟩
  · rw [Option.isSome_iff_exists, exists_congr hparse]
    exact hreads.succeeds_iff hfault
  · intro m
    rw [hparse, hreads.eq_ok_iff hfault]
  · intro c hc
    rw [readAs_eq htype hreader] at hc
    refine (hreads.of_eq_error hfault hc).imp_right fun herror => ?_
    obtain ⟨v, hv, hfits⟩ := herror
    exact ⟨t.eq_of_not_timeFits hfits, v, hv, hfits⟩

/-- An answer with the largest time and a filter; one of its devices leaves all out but its key. -/
def lookupAnswer : Json := .object
  [("timestampFrom", .ofNat 18446744073709551615),
    ("matchingDevices", .array [.object [("deviceKey", .string "a/b")],
      .object [("deviceType", .string "Pump"), ("deviceKey", .string "K")]]),
    ("externalId", .string "x")]

private theorem whole_lookupAnswer : Json.Whole Json.maxDepth lookupAnswer := by
  refine .object (List.forall_mem_cons.mpr ⟨.integer (by decide) (by decide), ?_⟩)
  refine List.forall_mem_cons.mpr ⟨.array ?_, List.forall_mem_singleton.mpr (.string _)⟩
  refine List.forall_mem_cons.mpr ⟨.object (List.forall_mem_singleton.mpr (.string _)), ?_⟩
  refine List.forall_mem_singleton.mpr (.object (List.forall_mem_cons.mpr ⟨.string _, ?_⟩))
  exact List.forall_mem_singleton.mpr (.string _)

theorem checked_lists_accepted_lookup :
    let e : Envelope := ⟨"p2d/GW/registered_devices", lookupAnswer.encode⟩
    Area.registration.Checks .registeredDevicesResponse ∧
      Area.registration.messageType e.channel = .registeredDevicesResponse ∧
      (Area.registration.parseAs .registeredDevicesResponse e).value =
        some (.registeredDevicesResponse ⟨18446744073709551615, none, some "x"⟩
          [⟨"a/b", "", ""⟩, ⟨"K", "", "Pump"⟩]) := by
  intro e
  have htype : Area.registration.messageType e.channel = .registeredDevicesResponse := by decide
  have hschema : Schema.ofType? (Topic.messageType e.channel) = some Schema.registeredDevices :=
    congrArg Schema.ofType? htype
  have hvalid : Payload.validated e = .ok lookupAnswer.arranged :=
    Payload.validated_encode hschema whole_lookupAnswer rfl
  have hlists : Message.Lists (.registeredDevicesResponse ⟨18446744073709551615, none, some "x"⟩
      [⟨"a/b", "", ""⟩, ⟨"K", "", "Pump"⟩]) lookupAnswer.arranged :=
    .devices rfl rfl rfl rfl (.cons ⟨_, rfl, rfl, rfl, rfl⟩ (.cons ⟨_, rfl, rfl, rfl, rfl⟩ .nil))
  obtain ⟨-, hparse, -⟩ := checked_lists_accepted .devices htype
  exact ⟨.devices, htype, (hparse _).mpr ⟨_, hvalid, rfl, hlists⟩⟩

end Area

end DeviceLink
