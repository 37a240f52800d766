import DeviceLink.Codec.Payload

/-! File transfers and firmware updates: commands to a device and its reports. -/
namespace DeviceLink

/-- The code of a report's error: a failure must name one, and anything else has none. -/
def reportedCode (failed : Bool) (code : Option Nat) : Except CodecError (Option Nat) :=
  if failed then
    match code with
    | none => .error (.missingField "error")
    | some c => .ok (some c)
  else .ok none

def codeMembers (code : Option Nat) : List (String × Json) :=
  (code.map fun c => ("error", Json.ofNat c)).toList

namespace FileManagement

def payload : Message → Except CodecError String
  | .fileUploadStatus name status error => do
    Payload.require "name" name
    let code ← reportedCode (status = .error) (error.map FileTransferError.code)
    .ok (Json.object ([("name", .string name), ("status", .string status.token)]
      ++ codeMembers code)).text
  | .fileBinaryRequest name chunkIndex => do
    Payload.require "name" name
    .ok (Json.object [("name", .string name), ("chunkIndex", .ofNat chunkIndex.toNat)]).text
  | .fileUrlDownloadStatus url fileName status error => do
    Payload.require "file url" url
    let code ← reportedCode (status = .error) (error.map FileTransferError.code)
    let named := ((fileName.filter (· ≠ "")).map fun n => ("fileName", Json.string n)).toList
    .ok (Json.object ([("fileUrl", .string url), ("status", .string status.token)] ++ named
      ++ codeMembers code)).text
  | .fileListResponse files => do
    files.forM fun f => Payload.require "file name" f.name
    .ok ((Json.Shape.list FileInformation.shape).render files)
  | m => .error (.unsupported m.type)

def readUpload (e : Envelope) : Except CodecError Message := do
  let file ← Payload.typed FileInformation.shape e
  Payload.require "name" file.name
  .ok (.fileUploadInitiate file)

def readUploadAbort (e : Envelope) : Except CodecError Message := do
  let name ← Payload.scalar "name" e
  .ok (.fileUploadAbort name)

def readDownload (e : Envelope) : Except CodecError Message := do
  let url ← Payload.scalar "file url" e
  .ok (.fileUrlDownloadInit url)

def readDownloadAbort (e : Envelope) : Except CodecError Message := do
  let url ← Payload.scalar "file url" e
  .ok (.fileUrlDownloadAbort url)

def readDelete (e : Envelope) : Except CodecError Message := do
  let v ← Payload.validated e
  let names ← Payload.strings "files" v
  .ok (.fileDelete names)

def reader? : MessageType → Option (Envelope → Except CodecError Message)
  | .fileUploadInit => some readUpload
  | .fileUploadAbort => some readUploadAbort
  | .fileBinaryResponse => some fun e => .ok (.fileBinaryResponse (.ofFrame e.content))
  | .fileUrlDownloadInit => some readDownload
  | .fileUrlDownloadAbort => some readDownloadAbort
  | .fileListRequest => some fun _ => .ok .fileListRequest
  | .fileDelete => some readDelete
  | .filePurge => some fun _ => .ok .filePurge
  | _ => none

end FileManagement

namespace FirmwareUpdate

def payload : Message → Except CodecError String
  | .firmwareUpdateStatus status error => do
    let code ← reportedCode (status = .error) (error.map FirmwareUpdateError.code)
    .ok (Json.object (("status", .string status.token) :: codeMembers code)).text
  | m => .error (.unsupported m.type)

def readInstall (e : Envelope) : Except CodecError Message := do
  let file ← Payload.scalar "file name" e
  .ok (.firmwareUpdateInstall file)

def reader? : MessageType → Option (Envelope → Except CodecError Message)
  | .firmwareUpdateInstall => some readInstall
  | .firmwareUpdateAbort => some fun _ => .ok .firmwareUpdateAbort
  | _ => none

end FirmwareUpdate
end DeviceLink
