import DeviceLink.Proofs.Channel
import DeviceLink.Proofs.Codec.Relay

/-! Routing: each reader takes one kind of message and gives one, and each message that is sent
travels on the channel of its area, device and kind. -/
namespace DeviceLink

/-- All that a computation can result in is messages of one kind. -/
def Yields (t : MessageType) (r : Except CodecError Message) : Prop := ∀ m, r = .ok m → m.type = t

section Yields

variable {α : Type} {t : MessageType}

theorem yields_ok {m : Message} (h : m.type = t) : Yields t (.ok m) := by
  rintro _ ⟨⟩
  exact h

theorem yields_error (e : CodecError) : Yields t (.error e) := by
  intro m h
  cases h

theorem yields_bind {x : Except CodecError α} {f : α → Except CodecError Message}
    (h : ∀ a, Yields t (f a)) : Yields t (x >>= f) := by
  intro m hm
  obtain ⟨a, -, ha⟩ := bind_eq_ok.mp hm
  exact h a m ha

/-- The last step of most readers puts what was read into a message. -/
theorem yields_bind_ok {x : Except CodecError α} {f : α → Message} (h : ∀ a, (f a).type = t) :
    Yields t (x >>= fun a => .ok (f a)) :=
  yields_bind fun a => yields_ok (h a)

end Yields

namespace Area

def readable : Area → List MessageType
  | .data =>
    [.feedValues, .parameterSync, .timeSync, .detailsSynchronizationResponse, .feedRegistration,
      .feedRemoval, .attributeRegistration, .synchronizeParameters]
  | .registration =>
    [.deviceRegistrationResponse, .childrenSynchronizationResponse, .registeredDevicesResponse]
  | .gatewayRegistration =>
    [.deviceRegistration, .deviceRemoval, .childrenSynchronizationRequest,
      .registeredDevicesRequest]
  | .fileManagement =>
    [.fileUploadInit, .fileUploadAbort, .fileBinaryResponse, .fileUrlDownloadInit,
      .fileUrlDownloadAbort, .fileListRequest, .fileDelete, .filePurge]
  | .firmwareUpdate => [.firmwareUpdateInstall, .firmwareUpdateAbort]
  | .error => [.error]
  | .platformStatus => [.platformConnectionStatus]
  | .gatewaySubdevice => []

theorem isSome_reader? (a : Area) (t : MessageType) :
    (a.reader? t).isSome ↔ t ∈ a.readable := by
  cases a <;> cases t <;> decide

end Area

section Readers

variable {t : MessageType} {read : Envelope → Except CodecError Message}

theorem Data.yields (h : Data.reader? t = some read) (e : Envelope) : Yields t (read e) := by
  cases t with
  | feedValues =>
    cases h
    exact yields_bind fun _ => yields_bind_ok fun _ => rfl
  | parameterSync =>
    cases h
    refine yields_bind fun v => ?_
    cases v with
    | object members => exact yields_bind_ok fun _ => rfl
    | _ => exact yields_error _
  | timeSync =>
    cases h
    refine yields_bind fun v => ?_
    split
    · exact yields_ok rfl
    · exact yields_error _
  | detailsSynchronizationResponse =>
    cases h
    exact yields_bind fun _ => yields_bind fun _ => yields_bind_ok fun _ => rfl
  | feedRegistration | feedRemoval | attributeRegistration =>
    cases h
    exact yields_bind fun _ => yields_bind_ok fun _ => rfl
  | synchronizeParameters =>
    cases h
    exact yields_bind fun _ => yields_bind fun _ => yields_bind_ok fun _ => rfl
  | _ => cases h

theorem Registration.yields (h : Registration.reader? t = some read) (e : Envelope) :
    Yields t (read e) := by
  cases t with
  | deviceRegistrationResponse =>
    cases h
    exact yields_bind_ok fun _ => rfl
  | childrenSynchronizationResponse | registeredDevicesResponse =>
    cases h
    exact yields_bind fun _ => yields_bind_ok fun _ => rfl
  | _ => cases h

theorem GatewayRegistration.yields (h : GatewayRegistration.reader? t = some read)
    (e : Envelope) : Yields t (read e) := by
  cases t with
  | deviceRegistration =>
    cases h
    refine yields_bind fun records => ?_
    split
    · exact yields_error _
    · exact yields_bind_ok fun _ => rfl
  | deviceRemoval =>
    cases h
    refine yields_bind fun v => yields_bind fun keys => ?_
    split
    · exact yields_error _
    · exact yields_ok rfl
  | childrenSynchronizationRequest =>
    cases h
    exact yields_ok rfl
  | registeredDevicesRequest =>
    cases h
    exact yields_bind_ok fun _ => rfl
  | _ => cases h

theorem FileManagement.yields (h : FileManagement.reader? t = some read) (e : Envelope) :
    Yields t (read e) := by
  cases t with
  | fileUploadInit =>
    cases h
    exact yields_bind fun _ => yields_bind fun _ => yields_ok rfl
  | fileUploadAbort | fileUrlDownloadInit | fileUrlDownloadAbort =>
    cases h
    exact yields_bind_ok fun _ => rfl
  | fileBinaryResponse | fileListRequest | filePurge =>
    cases h
    exact yields_ok rfl
  | fileDelete =>
    cases h
    exact yields_bind fun _ => yields_bind_ok fun _ => rfl
  | _ => cases h

theorem FirmwareUpdate.yields (h : FirmwareUpdate.reader? t = some read) (e : Envelope) :
    Yields t (read e) := by
  cases t with
  | firmwareUpdateInstall =>
    cases h
    exact yields_bind_ok fun _ => rfl
  | firmwareUpdateAbort =>
    cases h
    exact yields_ok rfl
  | _ => cases h

theorem ErrorReport.yields (h : ErrorReport.reader? t = some read) (e : Envelope) :
    Yields t (read e) := by
  cases t with
  | error =>
    cases h
    exact yields_bind fun _ => yields_bind_ok fun _ => rfl
  | _ => cases h

theorem PlatformStatus.yields (h : PlatformStatus.reader? t = some read) (e : Envelope) :
    Yields t (read e) := by
  cases t with
  | platformConnectionStatus =>
    cases h
    refine yields_bind fun token => ?_
    split
    · exact yields_ok rfl
    · exact yields_error _
  | _ => cases h

end Readers

namespace Area

variable {a : Area}

theorem yields_of_reader? {t : MessageType} {read : Envelope → Except CodecError Message}
    (h : a.reader? t = some read) (e : Envelope) : Yields t (read e) := by
  cases a with
  | data => exact Data.yields h e
  | registration => exact Registration.yields h e
  | gatewayRegistration => exact GatewayRegistration.yields h e
  | fileManagement => exact FileManagement.yields h e
  | firmwareUpdate => exact FirmwareUpdate.yields h e
  | error => exact ErrorReport.yields h e
  | platformStatus => exact PlatformStatus.yields h e
  | gatewaySubdevice => cases h

theorem readAs_of_notMem {t : MessageType} {e : Envelope} (h : t ∉ a.readable) :
    ∃ cause, a.readAs t e = .error cause := by
  have hnone : a.reader? t = none :=
    Option.not_isSome_iff_eq_none.mp (mt (isSome_reader? a t).mp h)
  by_cases htype : a.messageType e.channel = t
  · refine ⟨.unsupported t, ?_⟩
    rw [readAs, if_neg (not_not.mpr htype), hnone]
  · exact ⟨_, readAs_of_ne htype⟩

theorem report_eq_none {α : Type} {verb : String} {type : MessageType} {r : Except CodecError α}
    {cause : CodecError} (h : r = .error cause) : (a.report verb type r).value = none := by
  rw [h]
  rfl

theorem type_of_read {e : Envelope} {m : Message} (h : a.read e = .ok m) :
    m.type = a.messageType e.channel := by
  cases hreader : a.reader? (a.messageType e.channel) with
  | none =>
    have hmem := mt (isSome_reader? a _).mpr (Option.not_isSome_iff_eq_none.mpr hreader)
    obtain ⟨cause, hcause⟩ := readAs_of_notMem (e := e) hmem
    rw [read, hcause] at h
    cases h
  | some read =>
    rw [read_eq hreader] at h
    exact yields_of_reader? hreader e m h

/-- Where a message that is made travels: the status of the platform on a channel that names no
device, all else on the channel of the device and its kind. -/
theorem channel_of_write (ha : a ≠ .gatewaySubdevice) {key : String} {m : Message} {e : Envelope}
    (h : a.write key m = .ok e) :
    a = .platformStatus ∧ m.type = .platformConnectionStatus ∧
        e.channel = PlatformStatus.channel ∨
      a ≠ .platformStatus ∧ e.channel = Topic.channel a.outgoing key m.type := by
  by_cases hstatus : a = .platformStatus
  · subst hstatus
    obtain ⟨text, htext, he⟩ := bind_eq_ok.mp h
    refine Or.inl ⟨rfl, ?_, ?_⟩
    · cases m with
      | platformStatus status => rfl
      | _ => cases htext
    · cases he
      rfl
  · obtain ⟨-, text, -, rfl⟩ := (write_eq_ok ⟨hstatus, ha⟩).mp h
    exact Or.inr ⟨hstatus, rfl⟩

theorem routed_of_write (ha : a ≠ .gatewaySubdevice) {key : String} {m : Message} {e : Envelope}
    (h : a.write key m = .ok e) :
    Topic.direction? e.channel = some a.outgoing ∧
      Topic.deviceKey e.channel = (if a = .platformStatus then "" else key) ∧
      (Topic.messageType e.channel).token = m.type.token := by
  rcases channel_of_write ha h with ⟨rfl, htype, hchannel⟩ | ⟨hstatus, hchannel⟩
  · rw [hchannel, htype, if_pos rfl]
    decide
  · rw [hchannel, if_neg hstatus, Topic.direction?_channel, Topic.deviceKey_channel,
      Topic.messageType_channel]
    exact ⟨rfl, rfl, Topic.token_ofToken_token m.type⟩

end Area

namespace Subdevice

variable {e : Envelope} {direction : Direction} {type : MessageType}

theorem elements_eq_ok {items : List Json} (h : elements e = .ok (direction, items)) :
    Topic.messageType e.channel ≠ .unknown := by
  unfold elements at h
  dsimp only at h
  split_ifs at h with hunknown
  exact hunknown

private theorem channel_of_unwrap {item : Json} {u : Envelope}
    (h : unwrap direction type item = .ok u) :
    ∃ key, u.channel = Topic.channel direction key type := by
  unfold unwrap at h
  split at h
  · cases h
  · split at h
    · cases h
    · obtain ⟨content, -, hu⟩ := bind_eq_ok.mp h
      cases hu
      exact ⟨_, rfl⟩

private theorem messageType_of_mem_parse {u : Envelope} (h : u ∈ (parse e).value) :
    Topic.messageType u.channel = Topic.messageType e.channel := by
  unfold parse at h
  cases helements : elements e with
  | error cause =>
    rw [helements] at h
    cases h
  | ok r =>
    obtain ⟨direction, items⟩ := r
    rw [helements] at h
    obtain ⟨result, hmem, hvalue⟩ := List.mem_filterMap.mp h
    obtain ⟨item, -, rfl⟩ := List.mem_map.mp hmem
    obtain ⟨key, hkey⟩ := channel_of_unwrap (Area.report_eq_some.mp hvalue)
    have htoken := MessageType.token_ofToken (elements_eq_ok helements)
    rw [hkey, Topic.messageType_channel, Topic.messageType, htoken]

end Subdevice

namespace Area

/-- A reader takes the kind that it is for and nothing else, a message that is read has the kind
of its channel, and one that is sent is found on the channel of its area, device and kind. -/
theorem typed_and_routed :
    (∀ (a : Area) t e, a.messageType e.channel ≠ t → (a.parseAs t e).value = none) ∧
    (∀ (a : Area), ∀ t ∈ a.readable, ∃ read, a.reader? t = some read ∧
      ∀ e, a.messageType e.channel = t →
        a.parse e = a.parseAs t e ∧ a.parseAs t e = a.report "parse" t (read e)) ∧
    (∀ (a : Area) e, a.messageType e.channel ∉ a.readable → (a.parse e).value = none) ∧
    (∀ (a : Area) e m, (a.parse e).value = some m → m.type = a.messageType e.channel) ∧
    (∀ (a : Area) key m e, a ≠ .gatewaySubdevice → (a.make key m).value = some e →
      Topic.direction? e.channel = some a.outgoing ∧
        Topic.deviceKey e.channel = (if a = .platformStatus then "" else key) ∧
        (Topic.messageType e.channel).token = m.type.token) ∧
    ∀ e, ∀ u ∈ (Subdevice.parse e).value,
      Topic.messageType u.channel = Topic.messageType e.channel := by
  refine ⟨?_, ?_, ?_, ?_, ?_, ?_⟩
  · intro a t e htype
    exact report_eq_none (readAs_of_ne htype)
  · intro a t ht
    obtain ⟨read, hreader⟩ := Option.isSome_iff_exists.mp ((isSome_reader? a t).mpr ht)
    refine ⟨read, hreader, ?_⟩
    rintro e rfl
    have hread := read_eq hreader
    exact ⟨rfl, congrArg (a.report "parse" _) hread⟩
  · intro a e hmem
    obtain ⟨cause, hcause⟩ := readAs_of_notMem hmem
    exact report_eq_none hcause
  · intro a e m hm
    exact type_of_read (parse_eq_some.mp hm)
  · intro a key m e ha he
    exact routed_of_write ha (make_eq_some.mp he)
  · intro e u hu
    exact Subdevice.messageType_of_mem_parse hu

theorem typed_and_routed_shared :
    (∃ read, Area.gatewayRegistration.reader? .childrenSynchronizationRequest = some read ∧
      Area.gatewayRegistration.parse ⟨"d2p/a/b/children_synchronization", []⟩ =
        Area.gatewayRegistration.report "parse" .childrenSynchronizationRequest
          (read ⟨"d2p/a/b/children_synchronization", []⟩)) ∧
    (Area.registration.parseAs .registeredDevicesResponse
      ⟨"p2d/D/children_synchronization", []⟩).value = none ∧
    (Area.platformStatus.parse ⟨"p2d/D/time", []⟩).value = none ∧
    MessageType.childrenSynchronizationRequest =
      Area.gatewayRegistration.messageType "d2p/D/children_synchronization" ∧
    Topic.deviceKey "p2d/a/b/children_synchronization" = "a/b" ∧
    ∃ w, (Area.gatewaySubdevice.make "G" (.gatewaySubdevice
        ⟨Topic.channel .deviceToPlatform "S" .timeSync, []⟩)).value = some w ∧
      Topic.messageType (Topic.channel .deviceToPlatform "S" .timeSync) =
        Topic.messageType w.channel := by
  obtain ⟨hgate, hreaders, hunread, hkind, hmade, hcarried⟩ := typed_and_routed
  refine ⟨?_, ?_, ?_, ?_, ?_, ?_⟩
  · obtain ⟨read, hreader, hread⟩ :=
      hreaders .gatewayRegistration .childrenSynchronizationRequest (by decide)
    have hparse := hread ⟨"d2p/a/b/children_synchronization", []⟩ (by decide)
    exact ⟨read, hreader, hparse.1.trans hparse.2⟩
  · exact hgate .registration .registeredDevicesResponse _ (by decide)
  · exact hunread .platformStatus _ (by decide)
  · exact hkind .gatewayRegistration ⟨"d2p/D/children_synchronization", []⟩
      .childrenSynchronizationRequest (by rfl)
  · exact (hmade .gatewayRegistration "a/b" (.childrenSynchronizationResponse [])
      ⟨"p2d/a/b/children_synchronization", Text.encode "[]"⟩ (by decide) (by rfl)).2.1
  · have htype : MessageType.timeSync ∈ Subdevice.types := by decide
    obtain ⟨w, hw, hu⟩ := Subdevice.exists_passed_nil (show "G" ≠ "" by decide)
      (show "S" ≠ "" by decide) htype (by decide)
    refine ⟨w, hw, hcarried w ⟨Topic.channel .deviceToPlatform "S" .timeSync, []⟩ ?_⟩
    rw [hu]
    exact List.mem_singleton_self _

end Area

end DeviceLink
