import DeviceLink.MessageType
import DeviceLink.Parameter
import DeviceLink.Schema.Basic

/-! The schemas of message payloads. -/
namespace DeviceLink.Schema

def parameterTokens : List String := ParameterName.all.map ParameterName.token

/-- Strings that are not blank. -/
def names : Schema := .list (.text (some .nonBlank))

/-- Objects that tell their time. -/
def feedValues : Schema := .list (.record ["timestamp"] [("timestamp", .number)])

def details : Schema :=
  .record ["feeds", "attributes"] [("attributes", names), ("feeds", names)]

def fileUpload : Schema :=
  .record ["name", "size", "hash"]
    [("hash", .text (some (.hexDigits 32))), ("name", .text none), ("size", .number)]

/-- One device of a look-up's answer. -/
def matchingDevice : Schema :=
  .record ["deviceKey"]
    [("deviceKey", .text (some .nonBlank)), ("deviceType", .text none), ("externalId", .text none)]

def registeredDevices : Schema :=
  .record ["timestampFrom", "matchingDevices"]
    [("deviceType", .text none), ("externalId", .text none),
      ("matchingDevices", .list matchingDevice), ("timestampFrom", .number)]

/-- The schema of a kind of message, for the kinds that have one. All are constants, so each kind
that is listed has its schema, whatever is checked. -/
def ofType? : MessageType → Option Schema
  | .feedValues => some feedValues
  | .parameterSync => some (.dictionary parameterTokens)
  | .synchronizeParameters => some (.list (.oneOf parameterTokens))
  | .detailsSynchronizationResponse => some details
  | .fileUploadInit => some fileUpload
  | .fileDelete | .childrenSynchronizationResponse => some names
  | .registeredDevicesResponse => some registeredDevices
  | _ => none

end DeviceLink.Schema
