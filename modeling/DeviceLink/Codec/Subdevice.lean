import DeviceLink.Codec.Payload
import DeviceLink.Text.Base64

/-! Traffic of subdevices, carried by their gateway. -/
namespace DeviceLink.Subdevice

def types : List MessageType :=
  [.feedValues, .pullFeedValues, .feedRegistration, .feedRemoval, .attributeRegistration,
    .parameterSync, .pullParameters, .synchronizeParameters, .timeSync,
    .detailsSynchronizationRequest, .detailsSynchronizationResponse, .fileUploadInit,
    .fileUploadStatus, .fileUploadAbort, .fileBinaryRequest, .fileBinaryResponse,
    .fileUrlDownloadInit, .fileUrlDownloadAbort, .fileUrlDownloadStatus, .fileListRequest,
    .fileListResponse, .fileDelete, .filePurge, .firmwareUpdateInstall, .firmwareUpdateStatus,
    .firmwareUpdateAbort]

def deviceName : String := "device"

def payloadName : String := "payload"

/-- Content as JSON: base64 for chunks of files, the value itself where the content is JSON, and
a string otherwise. -/
def contentToJson (type : MessageType) (content : Octets) : Json :=
  if type = .fileBinaryResponse then .string (String.ofList (Text.Base64.encode content))
  else if content = [] then .string ""
  else match Json.parse content with
    | .ok v => v
    | .error _ => .string (Text.decodeLossy content)

def wrap (gatewayKey : String) (e : Envelope) : Except CodecError Envelope := do
  Payload.require "gateway key" gatewayKey
  let type := Topic.messageType e.channel
  if type ∉ types then .error (.unsupported type)
  else
    let key := Topic.deviceKey e.channel
    Payload.require "subdevice key" key
    let body := Json.object
      [(deviceName, .string key), (payloadName, contentToJson type e.content)]
    .ok (.ofText (Topic.channel .gatewayToPlatform gatewayKey type) body.text)

/-- Content from JSON: strings are taken as they are, other values as their text. -/
def contentOfJson (type : MessageType) (v : Json) : Except CodecError Octets :=
  match v with
  | .string s =>
    if type = .fileBinaryResponse then
      match Text.Base64.decode? s.toList with
      | some content => .ok content
      | none => .error .notBase64
    else .ok (Text.encode s)
  | v =>
    if type = .fileBinaryResponse then .error (.invalidField payloadName .notBase64Text)
    else .ok v.encode

def unwrap (direction : Direction) (type : MessageType) (element : Json) :
    Except CodecError Envelope :=
  match ((element.get? deviceName).bind Json.string?).filter (· ≠ "") with
  | none => .error (.missingField deviceName)
  | some key =>
    match element.get? payloadName with
    | none => .error (.missingField payloadName)
    | some v => do
      let content ← contentOfJson type v
      .ok ⟨Topic.channel direction key type, content⟩

def innerDirection? : Direction → Option Direction
  | .platformToGateway => some .platformToDevice
  | .gatewayToPlatform => some .deviceToPlatform
  | _ => none

/-- The carried messages of an envelope with their direction: one object, or an array. -/
def elements (e : Envelope) : Except CodecError (Direction × List Json) :=
  let type := Topic.messageType e.channel
  if type = .unknown then .error (.unsupported type)
  else
    match (Topic.direction? e.channel).bind innerDirection? with
    | none => .error (.invalidField "channel" (.notGatewayChannel e.channel))
    | some direction => do
      match ← Payload.json e with
      | .array items => .ok (direction, items)
      | .object members => .ok (direction, [.object members])
      | _ => .error (.invalidField payloadName .notObjectOrObjects)

end DeviceLink.Subdevice
