import DeviceLink.Message
import DeviceLink.Outline.Basic

/-! The outlines of messages. -/
namespace DeviceLink.Outline

def octets (content : Octets) : Outline := list (content.map fun b => number b.toNat)

def reading (r : Reading) : Outline :=
  record "Reading"
    [("reference", quoted r.reference), ("values", strings r.values),
      ("timestamp", number r.timestamp.toNat)]

def feed (f : Feed) : Outline :=
  record "Feed"
    [("name", quoted f.name), ("reference", quoted f.reference), ("feed_type", token f.type.token),
      ("unit", quoted f.unit)]

def attributeOf (a : Attribute) : Outline :=
  record "Attribute"
    [("name", quoted a.name), ("data_type", token a.type.token), ("value", quoted a.value)]

def file (f : FileInformation) : List (String × Outline) :=
  [("name", quoted f.name), ("size", number f.size.toNat), ("hash", quoted f.hash)]

def device (d : Device) : Outline :=
  record "DeviceRegistrationData"
    [("name", quoted d.name), ("key", quoted d.key), ("guid", quoted d.guid),
      ("parameters", dictionary (d.parameters.entries.map fun p =>
        ((token p.1.token).text, quoted p.2))),
      ("feeds", list (d.feeds.map feed)), ("attributes", list (d.attributes.map attributeOf))]

def registered (d : RegisteredDevice) : Outline :=
  record "RegisteredDeviceInformation"
    [("device_key", quoted d.deviceKey), ("external_id", quoted d.externalId),
      ("device_type", quoted d.deviceType)]

def query (q : DeviceQuery) : List (String × Outline) :=
  [("timestamp_from", number q.timestampFrom.toNat),
    ("device_type", optional (q.deviceType.map quoted)),
    ("external_id", optional (q.externalId.map quoted))]

def chunk (c : FileChunk) : List (String × Outline) :=
  [("previous_hash", octets c.previousHash), ("data", octets c.data),
    ("current_hash", octets c.currentHash)]

def envelope (e : Envelope) : Outline :=
  record "Message" [("content", octets e.content), ("channel", quoted e.channel)]

/-- The name of a message and its fields. Of a report of an error, the time at which it arrived
is not kept, and its place is marked. -/
def fields : Message → String × List (String × Outline)
  | .feedValues l => ("FeedValues", [("readings", list (l.map reading))])
  | .pullFeedValues => ("PullFeedValues", [])
  | .feedRegistration l => ("FeedRegistration", [("feeds", list (l.map feed))])
  | .feedRemoval l => ("FeedRemoval", [("references", strings l)])
  | .attributeRegistration l =>
    ("AttributeRegistration", [("attributes", list (l.map attributeOf))])
  | .parametersUpdate l =>
    ("ParametersUpdate",
      [("parameters", list (l.map fun p => pair (token p.1.token) (quoted p.2)))])
  | .parametersPull => ("ParametersPull", [])
  | .synchronizeParameters l =>
    ("SynchronizeParameters", [("parameters", list (l.map fun n => token n.token))])
  | .timeSync t => ("TimeSync", [("timestamp", number t.toNat)])
  | .detailsSynchronizationRequest => ("DetailsSynchronizationRequest", [])
  | .detailsSynchronizationResponse f a =>
    ("DetailsSynchronizationResponse", [("feeds", strings f), ("attributes", strings a)])
  | .fileUploadInitiate f => ("FileUploadInitiate", file f)
  | .fileUploadStatus n s e =>
    ("FileUploadStatus",
      [("name", quoted n), ("status", token s.token),
        ("error", optional (e.map fun e => .word e.name))])
  | .fileUploadAbort n => ("FileUploadAbort", [("name", quoted n)])
  | .fileBinaryRequest n i =>
    ("FileBinaryRequest", [("name", quoted n), ("chunk_index", number i.toNat)])
  | .fileBinaryResponse c => ("FileBinaryResponse", chunk c)
  | .fileUrlDownloadInit u => ("FileUrlDownloadInit", [("file_url", quoted u)])
  | .fileUrlDownloadAbort u => ("FileUrlDownloadAbort", [("file_url", quoted u)])
  | .fileUrlDownloadStatus u n s e =>
    ("FileUrlDownloadStatus",
      [("file_url", quoted u), ("file_name", optional (n.map quoted)), ("status", token s.token),
        ("error", optional (e.map fun e => .word e.name))])
  | .fileListRequest => ("FileListRequest", [])
  | .fileListResponse l =>
    ("FileListResponse", [("files", list (l.map fun f => record "FileInformation" (file f)))])
  | .fileDelete l => ("FileDelete", [("files", strings l)])
  | .filePurge => ("FilePurge", [])
  | .firmwareUpdateInstall f => ("FirmwareUpdateInstall", [("file", quoted f)])
  | .firmwareUpdateStatus s e =>
    ("FirmwareUpdateStatus",
      [("status", token s.token), ("error", optional (e.map fun e => .word e.name))])
  | .firmwareUpdateAbort => ("FirmwareUpdateAbort", [])
  | .deviceRegistration l => ("DeviceRegistration", [("devices", list (l.map device))])
  | .deviceRegistrationResponse s f =>
    ("DeviceRegistrationResponse", [("success", strings s), ("failed", strings f)])
  | .deviceRemoval l => ("DeviceRemoval", [("keys", strings l)])
  | .childrenSynchronizationRequest => ("ChildrenSynchronizationRequest", [])
  | .childrenSynchronizationResponse l =>
    ("ChildrenSynchronizationResponse", [("children", strings l)])
  | .registeredDevicesRequest q => ("RegisteredDevicesRequest", query q)
  | .registeredDevicesResponse q l =>
    ("RegisteredDevicesResponse",
      query q ++ [("matching_devices", list (l.map registered))])
  | .error k t =>
    ("Error",
      [("device_key", quoted k), ("message", quoted t), ("arrival_time", .word "<time>")])
  | .platformStatus s => ("PlatformStatus", [("status", token s.name)])
  | .gatewaySubdevice e => ("GatewaySubdevice", [("message", envelope e)])

def message (m : Message) : Outline :=
  let (name, parts) := fields m
  wrapped name (record (name ++ "Message") parts)

end DeviceLink.Outline
