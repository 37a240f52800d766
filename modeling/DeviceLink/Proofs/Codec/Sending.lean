import DeviceLink.Proofs.Codec.Area

/-! What is sent: a message of an area is turned into an envelope exactly when its mandatory
fields are there. -/
namespace DeviceLink

namespace Data

def Sendable : Message → Prop
  | .feedValues readings =>
    readings ≠ [] ∧ ∀ r ∈ readings, r.reference ≠ "" ∧ r.reference ≠ "timestamp"
  | .feedRegistration feeds => feeds ≠ []
  | .feedRemoval references => references ≠ [] ∧ ∀ reference ∈ references, reference ≠ ""
  | .attributeRegistration attributes => attributes ≠ []
  | .parametersUpdate parameters => parameters ≠ []
  | .synchronizeParameters names => names ≠ []
  | .pullFeedValues | .parametersPull | .detailsSynchronizationRequest => True
  | _ => False

private theorem succeeds_addReading (groups : Groups) (r : Reading) :
    Succeeds (addReading groups r) ↔ r.reference ≠ "" ∧ r.reference ≠ "timestamp" := by
  unfold addReading
  rw [Payload.succeeds_require, succeeds_ite, succeeds_ite]
  exact and_congr_right fun _ => and_iff_left ⟨List.cons_ne_nil _ _, succeeds_ok _⟩

theorem succeeds_feedValuesJson (readings : List Reading) : Succeeds (feedValuesJson readings) ↔
    readings ≠ [] ∧ ∀ r ∈ readings, r.reference ≠ "" ∧ r.reference ≠ "timestamp" := by
  unfold feedValuesJson
  rw [succeeds_ite, succeeds_bind_ok, succeeds_foldlM succeeds_addReading]

theorem succeeds_listText {α : Type} (field : String) (shape : Json.Shape α) (l : List α) :
    Succeeds (listText field shape l) ↔ l ≠ [] := by
  unfold listText
  rw [succeeds_ite, List.isEmpty_iff]
  exact and_iff_left (succeeds_ok _)

theorem succeeds_payload (m : Message) : Succeeds (payload m) ↔ Sendable m := by
  cases m with
  | feedValues readings => exact succeeds_bind_ok.trans (succeeds_feedValuesJson readings)
  | feedRegistration feeds =>
    refine (succeeds_listText _ _ _).trans ?_
    exact not_congr List.map_eq_nil_iff
  | feedRemoval references =>
    refine succeeds_ite.trans (and_congr_right fun _ => ?_)
    exact Payload.succeeds_forM_require
  | attributeRegistration attributes =>
    refine (succeeds_listText _ _ _).trans ?_
    exact not_congr List.map_eq_nil_iff
  | parametersUpdate parameters => exact succeeds_ite.trans (and_iff_left (succeeds_ok _))
  | synchronizeParameters names => exact succeeds_ite.trans (and_iff_left (succeeds_ok _))
  | pullFeedValues | parametersPull | detailsSynchronizationRequest =>
    exact iff_of_true (succeeds_ok _) trivial
  | _ => exact iff_of_false (not_succeeds_error _) id

end Data

namespace Registration

def Sendable : Message → Prop
  | .deviceRegistration devices => devices ≠ [] ∧ ∀ d ∈ devices, d.name ≠ "" ∧ d.key ≠ ""
  | .deviceRemoval keys => keys ≠ [] ∧ ∀ key ∈ keys, key ≠ ""
  | .childrenSynchronizationRequest | .registeredDevicesRequest _ => True
  | _ => False

theorem forM_require_eq_ok {devices : List Device} :
    (devices.forM fun d => do
      Payload.require "device name" d.name
      Payload.require "device key" d.key) = .ok () ↔
      ∀ d ∈ devices, d.name ≠ "" ∧ d.key ≠ "" := by
  rw [forM_eq_ok]
  refine forall₂_congr fun d _ => ?_
  rw [bind_eq_ok]
  constructor
  · rintro ⟨⟨⟩, hname, hkey⟩
    exact ⟨Payload.require_eq_ok.mp hname, Payload.require_eq_ok.mp hkey⟩
  · rintro ⟨hname, hkey⟩
    exact ⟨(), Payload.require_eq_ok.mpr hname, Payload.require_eq_ok.mpr hkey⟩

theorem succeeds_payload (m : Message) : Succeeds (payload m) ↔ Sendable m := by
  cases m with
  | deviceRegistration devices =>
    refine succeeds_ite.trans (and_congr_right fun _ => ?_)
    refine succeeds_bind_unit.trans ?_
    rw [forM_require_eq_ok]
    exact and_iff_left (succeeds_ok _)
  | deviceRemoval keys =>
    exact succeeds_ite.trans (and_congr_right fun _ => Payload.succeeds_forM_require)
  | childrenSynchronizationRequest | registeredDevicesRequest q =>
    exact iff_of_true (succeeds_ok _) trivial
  | _ => exact iff_of_false (not_succeeds_error _) id

end Registration

namespace GatewayRegistration

def Sendable : Message → Prop
  | .deviceRegistrationResponse success failed => ¬ (success = [] ∧ failed = [])
  | .childrenSynchronizationResponse children => ∀ key ∈ children, key ≠ ""
  | .registeredDevicesResponse _ devices => ∀ d ∈ devices, d.deviceKey ≠ ""
  | _ => False

theorem succeeds_payload (m : Message) : Succeeds (payload m) ↔ Sendable m := by
  cases m with
  | deviceRegistrationResponse success failed =>
    exact succeeds_ite.trans (and_iff_left (succeeds_ok _))
  | childrenSynchronizationResponse children => exact Payload.succeeds_forM_require
  | registeredDevicesResponse q devices => exact Payload.succeeds_forM_require
  | _ => exact iff_of_false (not_succeeds_error _) id

end GatewayRegistration

theorem succeeds_reportedCode {failed : Bool} {code : Option Nat} :
    Succeeds (reportedCode failed code) ↔ (failed = true → code ≠ none) := by
  cases failed with
  | false => exact iff_of_true (succeeds_ok none) fun h => by cases h
  | true =>
    cases code with
    | none => exact iff_of_false (not_succeeds_error _) fun h => h rfl rfl
    | some c => exact iff_of_true (succeeds_ok (some c)) fun _ h => by cases h

namespace FileManagement

def Sendable : Message → Prop
  | .fileUploadStatus name status error => name ≠ "" ∧ (status = .error → error ≠ none)
  | .fileBinaryRequest name _ => name ≠ ""
  | .fileUrlDownloadStatus url _ status error => url ≠ "" ∧ (status = .error → error ≠ none)
  | .fileListResponse files => ∀ f ∈ files, f.name ≠ ""
  | _ => False

theorem succeeds_status {status : FileTransferStatus} {error : Option FileTransferError} :
    Succeeds (reportedCode (status = .error) (error.map FileTransferError.code)) ↔
      (status = .error → error ≠ none) := by
  rw [succeeds_reportedCode, decide_eq_true_iff]
  exact imp_congr_right fun _ => not_congr Option.map_eq_none_iff

theorem succeeds_payload (m : Message) : Succeeds (payload m) ↔ Sendable m := by
  cases m with
  | fileUploadStatus name status error =>
    refine Payload.succeeds_require.trans (and_congr_right fun _ => ?_)
    exact succeeds_bind_ok.trans succeeds_status
  | fileBinaryRequest name chunkIndex =>
    exact Payload.succeeds_require.trans (and_iff_left (succeeds_ok _))
  | fileUrlDownloadStatus url fileName status error =>
    refine Payload.succeeds_require.trans (and_congr_right fun _ => ?_)
    exact succeeds_bind_ok.trans succeeds_status
  | fileListResponse files => exact Payload.succeeds_forM_require
  | _ => exact iff_of_false (not_succeeds_error _) id

end FileManagement

namespace FirmwareUpdate

def Sendable : Message → Prop
  | .firmwareUpdateStatus status error => status = .error → error ≠ none
  | _ => False

theorem succeeds_payload (m : Message) : Succeeds (payload m) ↔ Sendable m := by
  cases m with
  | firmwareUpdateStatus status error =>
    refine succeeds_bind_ok.trans ?_
    rw [succeeds_reportedCode, decide_eq_true_iff]
    exact imp_congr_right fun _ => not_congr Option.map_eq_none_iff
  | _ => exact iff_of_false (not_succeeds_error _) id

end FirmwareUpdate

namespace PlatformStatus

def Sendable : Message → Prop
  | .platformStatus status => status ≠ .none
  | _ => False

theorem succeeds_payload (m : Message) : Succeeds (payload m) ↔ Sendable m := by
  cases m with
  | platformStatus status =>
    refine Payload.succeeds_require.trans ((and_iff_left (succeeds_ok _)).trans ?_)
    show status.token ≠ "" ↔ status ≠ .none
    cases status <;> decide
  | _ => exact iff_of_false (not_succeeds_error _) id

end PlatformStatus

namespace Subdevice

/-- The envelopes that a gateway carries: of a kind that may be carried, and of a named device. -/
def Sendable : Message → Prop
  | .gatewaySubdevice e => Topic.messageType e.channel ∈ types ∧ Topic.deviceKey e.channel ≠ ""
  | _ => False

theorem succeeds_wrap (gatewayKey : String) (e : Envelope) : Succeeds (wrap gatewayKey e) ↔
    gatewayKey ≠ "" ∧ Sendable (.gatewaySubdevice e) := by
  unfold wrap
  refine Payload.succeeds_require.trans (and_congr_right fun _ => ?_)
  refine succeeds_ite.trans (and_congr not_not ?_)
  exact Payload.succeeds_require.trans (and_iff_left (succeeds_ok _))

end Subdevice

namespace Area

/-- The messages that an area sends. -/
def Sendable : Area → Message → Prop
  | .data => Data.Sendable
  | .registration => Registration.Sendable
  | .gatewayRegistration => GatewayRegistration.Sendable
  | .fileManagement => FileManagement.Sendable
  | .firmwareUpdate => FirmwareUpdate.Sendable
  | .platformStatus => PlatformStatus.Sendable
  | .gatewaySubdevice => Subdevice.Sendable
  | .error => fun _ => False

theorem succeeds_payload {a : Area} (ha : a ≠ .gatewaySubdevice) (m : Message) :
    Succeeds (a.payload m) ↔ a.Sendable m := by
  cases a with
  | data => exact Data.succeeds_payload m
  | registration => exact Registration.succeeds_payload m
  | gatewayRegistration => exact GatewayRegistration.succeeds_payload m
  | fileManagement => exact FileManagement.succeeds_payload m
  | firmwareUpdate => exact FirmwareUpdate.succeeds_payload m
  | platformStatus => exact PlatformStatus.succeeds_payload m
  | gatewaySubdevice => exact absurd rfl ha
  | error => exact iff_of_false (not_succeeds_error _) id

theorem succeeds_write_of_keyed {a : Area} (ha : a.Keyed) (key : String) (m : Message) :
    Succeeds (a.write key m) ↔ key ≠ "" ∧ a.Sendable m := by
  have hpayload := succeeds_payload ha.2 m
  constructor
  · rintro ⟨e, he⟩
    obtain ⟨hkey, text, htext, -⟩ := (write_eq_ok ha).mp he
    exact ⟨hkey, hpayload.mp ⟨text, htext⟩⟩
  · rintro ⟨hkey, hm⟩
    obtain ⟨text, htext⟩ := hpayload.mpr hm
    exact ⟨_, (write_eq_ok ha).mpr ⟨hkey, text, htext, rfl⟩⟩

private theorem succeeds_write_gatewaySubdevice (key : String) (m : Message) :
    Succeeds (Area.gatewaySubdevice.write key m) ↔
      key ≠ "" ∧ Area.gatewaySubdevice.Sendable m := by
  cases m with
  | gatewaySubdevice e => exact Subdevice.succeeds_wrap key e
  | _ => exact Payload.succeeds_require.trans (and_congr_right fun _ =>
      iff_of_false (not_succeeds_error _) id)

/-- A message is sent exactly when its area has such messages, its mandatory fields are there,
and, but for the status of the platform, a device is named. -/
theorem make_isSome_iff (a : Area) (key : String) (m : Message) :
    (a.make key m).value.isSome ↔ (a = .platformStatus ∨ key ≠ "") ∧ a.Sendable m := by
  rw [make, isSome_report]
  by_cases hstatus : a = .platformStatus
  · subst hstatus
    rw [and_iff_right (Or.inl rfl)]
    exact succeeds_bind_ok.trans (succeeds_payload (by decide) m)
  · rw [or_iff_right hstatus]
    by_cases hgateway : a = .gatewaySubdevice
    · subst hgateway
      exact succeeds_write_gatewaySubdevice key m
    · exact succeeds_write_of_keyed ⟨hstatus, hgateway⟩ key m

end Area

end DeviceLink
