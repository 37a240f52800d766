import DeviceLink.Codec.Payload

/-! Notices of the platform: error reports and its connection status. -/
namespace DeviceLink

namespace ErrorReport

/-- An error report; its channel must name a device. Nothing tells the time, so reports that say the
same are the same. -/
def read (e : Envelope) : Except CodecError Message := do
  let key := Topic.deviceKey e.channel
  Payload.require "device key" key
  let text ← Payload.text e
  .ok (.error key (Text.removeQuotes text))

def reader? : MessageType → Option (Envelope → Except CodecError Message)
  | .error => some read
  | _ => none

end ErrorReport

namespace PlatformStatus

/-- The channel of the connection status, which belongs to no device. -/
def channel : String :=
  Direction.platformToDevice.token ++ "/" ++ MessageType.platformConnectionStatus.token

def payload : Message → Except CodecError String
  | .platformStatus status => do
    Payload.require "status" status.token
    .ok status.token
  | m => .error (.unsupported m.type)

def read (e : Envelope) : Except CodecError Message := do
  let token ← Payload.scalar "status" e
  match ConnectivityStatus.ofToken? token with
  | some status => .ok (.platformStatus status)
  | none => .error (.invalidField "status" (.unknownStatus token))

def reader? : MessageType → Option (Envelope → Except CodecError Message)
  | .platformConnectionStatus => some read
  | _ => none

end PlatformStatus
end DeviceLink
