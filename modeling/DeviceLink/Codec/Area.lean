import DeviceLink.Codec.Data
import DeviceLink.Codec.Notice
import DeviceLink.Codec.Registration
import DeviceLink.Codec.Subdevice
import DeviceLink.Codec.Transfer
import DeviceLink.Log

/-! The areas of the protocol: which channels each listens on, what it sends and what it reads. -/
namespace DeviceLink

inductive Area
  | data
  /-- Registration of subdevices, seen from the gateway. -/
  | registration
  /-- Registration of subdevices, seen from the devices that the gateway serves. -/
  | gatewayRegistration
  | fileManagement
  | firmwareUpdate
  | gatewaySubdevice
  | error
  | platformStatus
  deriving DecidableEq, Repr

namespace Area

def all : List Area :=
  [.data, .registration, .gatewayRegistration, .fileManagement, .firmwareUpdate,
    .gatewaySubdevice, .error, .platformStatus]

def name : Area → String
  | .data => "data"
  | .registration => "registration"
  | .gatewayRegistration => "gateway_registration"
  | .fileManagement => "file_management"
  | .firmwareUpdate => "firmware_update"
  | .gatewaySubdevice => "gateway_subdevice"
  | .error => "error"
  | .platformStatus => "platform_status"

def ofName? (name : String) : Option Area := all.find? fun a => a.name = name

/-- The kind of message that a channel names to an area. -/
def messageType : Area → String → MessageType
  | .gatewayRegistration, channel => GatewayRegistration.messageType channel
  | _, channel => Topic.messageType channel

def outgoing : Area → Direction
  | .gatewayRegistration | .platformStatus | .error => .platformToDevice
  | .gatewaySubdevice => .gatewayToPlatform
  | _ => .deviceToPlatform

def incoming : Area → Direction
  | .gatewayRegistration => .deviceToPlatform
  | .gatewaySubdevice => .platformToGateway
  | _ => .platformToDevice

def inboundTypes : Area → List MessageType
  | .data => [.feedValues, .parameterSync, .timeSync, .detailsSynchronizationResponse]
  | .registration =>
    [.deviceRegistrationResponse, .childrenSynchronizationResponse, .registeredDevicesResponse]
  | .gatewayRegistration =>
    [.deviceRegistration, .deviceRemoval, .childrenSynchronizationRequest,
      .registeredDevicesRequest]
  | .fileManagement =>
    [.fileUploadInit, .fileUploadAbort, .fileBinaryResponse, .fileUrlDownloadInit,
      .fileUrlDownloadAbort, .fileListRequest, .fileDelete, .filePurge]
  | .firmwareUpdate => [.firmwareUpdateInstall, .firmwareUpdateAbort]
  | .error => [.error]
  | .gatewaySubdevice | .platformStatus => []

/-- The channels that belong to no device. -/
def globalChannels : Area → List String
  | .platformStatus => [PlatformStatus.channel]
  | _ => []

def deviceChannels (a : Area) (key : String) : List String :=
  if a = .gatewaySubdevice then [Topic.wildcard a.incoming key]
  else a.inboundTypes.map (Topic.channel a.incoming key)

def responseType? : Area → MessageType → Option MessageType
  | .data, .pullFeedValues | .gatewaySubdevice, .pullFeedValues => some .feedValues
  | .data, .pullParameters | .data, .synchronizeParameters
  | .gatewaySubdevice, .pullParameters | .gatewaySubdevice, .synchronizeParameters =>
    some .parameterSync
  | .data, .detailsSynchronizationRequest | .gatewaySubdevice, .detailsSynchronizationRequest =>
    some .detailsSynchronizationResponse
  | .fileManagement, .fileBinaryRequest | .gatewaySubdevice, .fileBinaryRequest =>
    some .fileBinaryResponse
  | .registration, .deviceRegistration => some .deviceRegistrationResponse
  | .registration, .childrenSynchronizationRequest => some .childrenSynchronizationResponse
  | .registration, .registeredDevicesRequest => some .registeredDevicesResponse
  | _, _ => none

def responseChannel? (a : Area) (type : MessageType) (key : String) : Option String :=
  (a.responseType? type).map (Topic.channel a.incoming key)

/-- The payload of a message, in the areas whose messages are made from a device's key. -/
def payload : Area → Message → Except CodecError String
  | .data, m => Data.payload m
  | .registration, m => Registration.payload m
  | .gatewayRegistration, m => GatewayRegistration.payload m
  | .fileManagement, m => FileManagement.payload m
  | .firmwareUpdate, m => FirmwareUpdate.payload m
  | .platformStatus, m => PlatformStatus.payload m
  | .gatewaySubdevice, m | .error, m => .error (.unsupported m.type)

def write (a : Area) (key : String) (m : Message) : Except CodecError Envelope :=
  match a, m with
  | .gatewaySubdevice, .gatewaySubdevice e => Subdevice.wrap key e
  | .platformStatus, m => do
    let text ← a.payload m
    .ok (.ofText PlatformStatus.channel text)
  | a, m => do
    Payload.require "device key" key
    let text ← a.payload m
    .ok (.ofText (Topic.channel a.outgoing key m.type) text)

def reader? : Area → MessageType → Option (Envelope → Except CodecError Message)
  | .data => Data.reader?
  | .registration => Registration.reader?
  | .gatewayRegistration => GatewayRegistration.reader?
  | .fileManagement => FileManagement.reader?
  | .firmwareUpdate => FirmwareUpdate.reader?
  | .error => ErrorReport.reader?
  | .platformStatus => PlatformStatus.reader?
  | .gatewaySubdevice => fun _ => none

/-- The message of an envelope, whose channel must name the kind that is asked for. -/
def readAs (a : Area) (type : MessageType) (e : Envelope) : Except CodecError Message :=
  let actual := a.messageType e.channel
  if actual ≠ type then .error (.typeMismatch type actual)
  else match a.reader? type with
    | some read => read e
    | none => .error (.unsupported type)

/-- The message of an envelope, of the kind that its channel names. -/
def read (a : Area) (e : Envelope) : Except CodecError Message :=
  a.readAs (a.messageType e.channel) e

def failure (a : Area) (verb : String) (type : MessageType) (cause : CodecError) : LogEntry :=
  ⟨.error, "Failed to " ++ verb ++ " '" ++ type.display ++ "' message: " ++ cause.message,
    [("protocol", .text a.name)]⟩

/-- A result without its error, which is reported instead. -/
def report {α : Type} (a : Area) (verb : String) (type : MessageType) :
    Except CodecError α → Logged (Option α)
  | .ok v => ⟨some v, []⟩
  | .error cause => ⟨none, [a.failure verb type cause]⟩

/-- Makes the envelope of a message, or reports why not. -/
def make (a : Area) (key : String) (m : Message) : Logged (Option Envelope) :=
  a.report "serialize" m.type (a.write key m)

def parseAs (a : Area) (type : MessageType) (e : Envelope) : Logged (Option Message) :=
  a.report "parse" type (a.readAs type e)

def parse (a : Area) (e : Envelope) : Logged (Option Message) :=
  a.parseAs (a.messageType e.channel) e

end Area

namespace Subdevice

/-- The envelopes of subdevices inside an envelope of their gateway. Elements that are not
understood are reported and left out. -/
def parse (e : Envelope) : Logged (List Envelope) :=
  let type := Topic.messageType e.channel
  match elements e with
  | .error cause => ⟨[], [Area.gatewaySubdevice.failure "parse" type cause]⟩
  | .ok (direction, items) =>
    let results := items.map fun item =>
      Area.gatewaySubdevice.report "parse" type (unwrap direction type item)
    ⟨results.filterMap Logged.value, results.flatMap Logged.log⟩

end Subdevice
end DeviceLink
