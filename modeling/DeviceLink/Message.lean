import DeviceLink.Connectivity
import DeviceLink.Device
import DeviceLink.Envelope
import DeviceLink.Firmware
import DeviceLink.Reading
import DeviceLink.Topic
import DeviceLink.Transfer

/-! Messages by what they say. -/
namespace DeviceLink

inductive Message
  | feedValues (readings : List Reading)
  | pullFeedValues
  | feedRegistration (feeds : List Feed)
  | feedRemoval (references : List String)
  | attributeRegistration (attributes : List Attribute)
  | parametersUpdate (parameters : List (ParameterName × String))
  | parametersPull
  | synchronizeParameters (names : List ParameterName)
  | timeSync (timestamp : UInt64)
  | detailsSynchronizationRequest
  | detailsSynchronizationResponse (feeds attributes : List String)
  | fileUploadInitiate (file : FileInformation)
  | fileUploadStatus (name : String) (status : FileTransferStatus)
      (error : Option FileTransferError)
  | fileUploadAbort (name : String)
  | fileBinaryRequest (name : String) (chunkIndex : UInt64)
  | fileBinaryResponse (chunk : FileChunk)
  | fileUrlDownloadInit (url : String)
  | fileUrlDownloadAbort (url : String)
  | fileUrlDownloadStatus (url : String) (fileName : Option String) (status : FileTransferStatus)
      (error : Option FileTransferError)
  | fileListRequest
  | fileListResponse (files : List FileInformation)
  | fileDelete (names : List String)
  | filePurge
  | firmwareUpdateInstall (file : String)
  | firmwareUpdateStatus (status : FirmwareUpdateStatus) (error : Option FirmwareUpdateError)
  | firmwareUpdateAbort
  | deviceRegistration (devices : List Device)
  | deviceRegistrationResponse (success failed : List String)
  | deviceRemoval (keys : List String)
  | childrenSynchronizationRequest
  | childrenSynchronizationResponse (children : List String)
  | registeredDevicesRequest (query : DeviceQuery)
  | registeredDevicesResponse (query : DeviceQuery) (devices : List RegisteredDevice)
  /-- An error report. The time of its arrival, which its reader takes from a clock, is left out. -/
  | error (deviceKey text : String)
  | platformStatus (status : ConnectivityStatus)
  /-- The envelope of a subdevice, carried by its gateway. -/
  | gatewaySubdevice (envelope : Envelope)
  deriving DecidableEq, Repr

namespace Message

/-- The kind of a message; a carried envelope has the kind its own channel names. -/
def type : Message → MessageType
  | .feedValues _ => .feedValues
  | .pullFeedValues => .pullFeedValues
  | .feedRegistration _ => .feedRegistration
  | .feedRemoval _ => .feedRemoval
  | .attributeRegistration _ => .attributeRegistration
  | .parametersUpdate _ => .parameterSync
  | .parametersPull => .pullParameters
  | .synchronizeParameters _ => .synchronizeParameters
  | .timeSync _ => .timeSync
  | .detailsSynchronizationRequest => .detailsSynchronizationRequest
  | .detailsSynchronizationResponse _ _ => .detailsSynchronizationResponse
  | .fileUploadInitiate _ => .fileUploadInit
  | .fileUploadStatus _ _ _ => .fileUploadStatus
  | .fileUploadAbort _ => .fileUploadAbort
  | .fileBinaryRequest _ _ => .fileBinaryRequest
  | .fileBinaryResponse _ => .fileBinaryResponse
  | .fileUrlDownloadInit _ => .fileUrlDownloadInit
  | .fileUrlDownloadAbort _ => .fileUrlDownloadAbort
  | .fileUrlDownloadStatus _ _ _ _ => .fileUrlDownloadStatus
  | .fileListRequest => .fileListRequest
  | .fileListResponse _ => .fileListResponse
  | .fileDelete _ => .fileDelete
  | .filePurge => .filePurge
  | .firmwareUpdateInstall _ => .firmwareUpdateInstall
  | .firmwareUpdateStatus _ _ => .firmwareUpdateStatus
  | .firmwareUpdateAbort => .firmwareUpdateAbort
  | .deviceRegistration _ => .deviceRegistration
  | .deviceRegistrationResponse _ _ => .deviceRegistrationResponse
  | .deviceRemoval _ => .deviceRemoval
  | .childrenSynchronizationRequest => .childrenSynchronizationRequest
  | .childrenSynchronizationResponse _ => .childrenSynchronizationResponse
  | .registeredDevicesRequest _ => .registeredDevicesRequest
  | .registeredDevicesResponse _ _ => .registeredDevicesResponse
  | .error _ _ => .error
  | .platformStatus _ => .platformConnectionStatus
  | .gatewaySubdevice e => Topic.carriedType e.channel

end Message
end DeviceLink
