import DeviceLink.Codec.Record

/-! Subdevice registration: requests of a gateway and answers of the platform, each with both
ends. -/
namespace DeviceLink

namespace Registration

def payload : Message → Except CodecError String
  | .deviceRegistration devices =>
    if devices = [] then .error (.missingField "devices")
    else do
      devices.forM fun d => do
        Payload.require "device name" d.name
        Payload.require "device key" d.key
      .ok (DeviceRecord.list.render (devices.map .ofDevice))
  | .deviceRemoval keys =>
    if keys = [] then .error (.missingField "device keys")
    else do
      keys.forM (Payload.require "device key")
      .ok (Json.strings keys).text
  | .childrenSynchronizationRequest => .ok ""
  | .registeredDevicesRequest q =>
    let given (s : Option String) := s.filter (· ≠ "")
    .ok (DeviceQuery.shape.render
      (⟨q.timestampFrom, given q.deviceType, given q.externalId⟩, none))
  | m => .error (.unsupported m.type)

def readResult (e : Envelope) : Except CodecError Message := do
  let (success, failed) ← Payload.typed registrationResult e
  .ok (.deviceRegistrationResponse success failed)

def readChildren (e : Envelope) : Except CodecError Message := do
  let v ← Payload.validated e
  let children ← Payload.strings "children" v
  .ok (.childrenSynchronizationResponse children)

def readDevices (e : Envelope) : Except CodecError Message := do
  let v ← Payload.validated e
  let (q, devices) ← (DeviceQuery.shape.ofJson v).mapError .json
  .ok (.registeredDevicesResponse q (devices.getD []))

def reader? : MessageType → Option (Envelope → Except CodecError Message)
  | .deviceRegistrationResponse => some readResult
  | .childrenSynchronizationResponse => some readChildren
  | .registeredDevicesResponse => some readDevices
  | _ => none

end Registration

namespace GatewayRegistration

/-- The kind of a message to a gateway: where a request and its answer share a token, it is the
request. -/
def messageType (channel : String) : MessageType :=
  match Topic.messageType channel with
  | .registeredDevicesResponse => .registeredDevicesRequest
  | .childrenSynchronizationResponse => .childrenSynchronizationRequest
  | t => t

def payload : Message → Except CodecError String
  | .deviceRegistrationResponse success failed =>
    if success = [] ∧ failed = [] then .error (.missingField "success or failed device keys")
    else .ok (registrationResult.render (success, failed))
  | .childrenSynchronizationResponse children => do
    children.forM (Payload.require "child device key")
    .ok (Json.strings children).text
  | .registeredDevicesResponse q devices => do
    devices.forM fun d => Payload.require "matching device key" d.deviceKey
    .ok (DeviceQuery.shape.render (q, some devices))
  | m => .error (.unsupported m.type)

def readDevices (e : Envelope) : Except CodecError Message := do
  let records ← Payload.typed DeviceRecord.list e
  if records.isEmpty then .error (.missingField "devices")
  else
    let devices ← records.mapM DeviceRecord.toDevice
    .ok (.deviceRegistration devices)

def readRemoval (e : Envelope) : Except CodecError Message := do
  let v ← Payload.json e
  let keys ← Payload.strings "device keys" v
  if keys = [] ∨ "" ∈ keys then .error (.missingField "device keys")
  else .ok (.deviceRemoval keys)

def readQuery (e : Envelope) : Except CodecError Message := do
  let (q, _) ← Payload.typed DeviceQuery.shape e
  .ok (.registeredDevicesRequest q)

def reader? : MessageType → Option (Envelope → Except CodecError Message)
  | .deviceRegistration => some readDevices
  | .deviceRemoval => some readRemoval
  | .childrenSynchronizationRequest => some fun _ => .ok .childrenSynchronizationRequest
  | .registeredDevicesRequest => some readQuery
  | _ => none

end GatewayRegistration
end DeviceLink
