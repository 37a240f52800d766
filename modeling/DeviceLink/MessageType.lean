/-! The kinds of messages and the tokens they have in channels. -/
namespace DeviceLink

/-- The kinds of messages that travel between devices, gateways and the platform. -/
inductive MessageType
  | feedValues
  | pullFeedValues
  | feedRegistration
  | feedRemoval
  | attributeRegistration
  | parameterSync
  | pullParameters
  | synchronizeParameters
  | timeSync
  | fileUploadInit
  | fileUploadStatus
  | fileUploadAbort
  | fileBinaryRequest
  | fileBinaryResponse
  | fileUrlDownloadInit
  | fileUrlDownloadAbort
  | fileUrlDownloadStatus
  | fileListRequest
  | fileListResponse
  | fileDelete
  | filePurge
  | firmwareUpdateInstall
  | firmwareUpdateStatus
  | firmwareUpdateAbort
  | detailsSynchronizationRequest
  | detailsSynchronizationResponse
  | deviceRegistration
  | deviceRegistrationResponse
  | deviceRemoval
  | childrenSynchronizationRequest
  | childrenSynchronizationResponse
  | registeredDevicesRequest
  | registeredDevicesResponse
  | platformConnectionStatus
  | error
  /-- The channel names no kind of message. -/
  | unknown
  deriving DecidableEq, Repr

namespace MessageType

/-- Every kind of message that has a token. -/
def all : List MessageType :=
  [.feedValues, .pullFeedValues, .feedRegistration, .feedRemoval, .attributeRegistration,
    .parameterSync, .pullParameters, .synchronizeParameters, .timeSync, .fileUploadInit,
    .fileUploadStatus, .fileUploadAbort, .fileBinaryRequest, .fileBinaryResponse,
    .fileUrlDownloadInit, .fileUrlDownloadAbort, .fileUrlDownloadStatus, .fileListRequest,
    .fileListResponse, .fileDelete, .filePurge, .firmwareUpdateInstall, .firmwareUpdateStatus,
    .firmwareUpdateAbort, .detailsSynchronizationRequest, .detailsSynchronizationResponse,
    .deviceRegistration, .deviceRegistrationResponse, .deviceRemoval,
    .childrenSynchronizationRequest, .childrenSynchronizationResponse, .registeredDevicesRequest,
    .registeredDevicesResponse, .platformConnectionStatus, .error]

/-- The token in the last segment of a channel; a request and its answer may share one. -/
def token : MessageType → String
  | .feedValues => "feed_values"
  | .pullFeedValues => "pull_feed_values"
  | .feedRegistration => "feed_registration"
  | .feedRemoval => "feed_removal"
  | .attributeRegistration => "attribute_registration"
  | .parameterSync => "parameters"
  | .pullParameters => "pull_parameters"
  | .synchronizeParameters => "synchronize_parameters"
  | .timeSync => "time"
  | .fileUploadInit => "file_upload_initiate"
  | .fileUploadStatus => "file_upload_status"
  | .fileUploadAbort => "file_upload_abort"
  | .fileBinaryRequest => "file_binary_request"
  | .fileBinaryResponse => "file_binary_response"
  | .fileUrlDownloadInit => "file_url_download_initiate"
  | .fileUrlDownloadAbort => "file_url_download_abort"
  | .fileUrlDownloadStatus => "file_url_download_status"
  | .fileListRequest | .fileListResponse => "file_list"
  | .fileDelete => "file_delete"
  | .filePurge => "file_purge"
  | .firmwareUpdateInstall => "firmware_update_install"
  | .firmwareUpdateStatus => "firmware_update_status"
  | .firmwareUpdateAbort => "firmware_update_abort"
  | .detailsSynchronizationRequest | .detailsSynchronizationResponse => "details_synchronization"
  | .deviceRegistration => "device_registration"
  | .deviceRegistrationResponse => "device_registration_response"
  | .deviceRemoval => "device_removal"
  | .childrenSynchronizationRequest | .childrenSynchronizationResponse =>
    "children_synchronization"
  | .registeredDevicesRequest | .registeredDevicesResponse => "registered_devices"
  | .platformConnectionStatus => "connection_status"
  | .error => "error"
  | .unknown => ""

/-- The kinds that a token shared by two stands for: the one a device receives. -/
def received : List MessageType :=
  all.filter fun t => t ≠ .fileListResponse ∧ t ≠ .detailsSynchronizationRequest ∧
    t ≠ .childrenSynchronizationRequest ∧ t ≠ .registeredDevicesRequest

def ofToken (token : String) : MessageType :=
  (received.find? fun t => t.token = token).getD .unknown

/-- The name of a kind in text for people. -/
def display : MessageType → String
  | .unknown => "unknown"
  | t => t.token

/-- The name of a kind in stored values. -/
def name : MessageType → String
  | .feedValues => "FEED_VALUES"
  | .pullFeedValues => "PULL_FEED_VALUES"
  | .feedRegistration => "FEED_REGISTRATION"
  | .feedRemoval => "FEED_REMOVAL"
  | .attributeRegistration => "ATTRIBUTE_REGISTRATION"
  | .parameterSync => "PARAMETER_SYNC"
  | .pullParameters => "PULL_PARAMETERS"
  | .synchronizeParameters => "SYNCHRONIZE_PARAMETERS"
  | .timeSync => "TIME_SYNC"
  | .fileUploadInit => "FILE_UPLOAD_INIT"
  | .fileUploadStatus => "FILE_UPLOAD_STATUS"
  | .fileUploadAbort => "FILE_UPLOAD_ABORT"
  | .fileBinaryRequest => "FILE_BINARY_REQUEST"
  | .fileBinaryResponse => "FILE_BINARY_RESPONSE"
  | .fileUrlDownloadInit => "FILE_URL_DOWNLOAD_INIT"
  | .fileUrlDownloadAbort => "FILE_URL_DOWNLOAD_ABORT"
  | .fileUrlDownloadStatus => "FILE_URL_DOWNLOAD_STATUS"
  | .fileListRequest => "FILE_LIST_REQUEST"
  | .fileListResponse => "FILE_LIST_RESPONSE"
  | .fileDelete => "FILE_DELETE"
  | .filePurge => "FILE_PURGE"
  | .firmwareUpdateInstall => "FIRMWARE_UPDATE_INSTALL"
  | .firmwareUpdateStatus => "FIRMWARE_UPDATE_STATUS"
  | .firmwareUpdateAbort => "FIRMWARE_UPDATE_ABORT"
  | .detailsSynchronizationRequest => "DETAILS_SYNCHRONIZATION_REQUEST"
  | .detailsSynchronizationResponse => "DETAILS_SYNCHRONIZATION_RESPONSE"
  | .deviceRegistration => "DEVICE_REGISTRATION"
  | .deviceRegistrationResponse => "DEVICE_REGISTRATION_RESPONSE"
  | .deviceRemoval => "DEVICE_REMOVAL"
  | .childrenSynchronizationRequest => "CHILDREN_SYNCHRONIZATION_REQUEST"
  | .childrenSynchronizationResponse => "CHILDREN_SYNCHRONIZATION_RESPONSE"
  | .registeredDevicesRequest => "REGISTERED_DEVICES_REQUEST"
  | .registeredDevicesResponse => "REGISTERED_DEVICES_RESPONSE"
  | .platformConnectionStatus => "PLATFORM_CONNECTION_STATUS"
  | .error => "ERROR"
  | .unknown => "UNKNOWN"

def ofName? (name : String) : Option MessageType :=
  (unknown :: all).find? fun t => t.name = name

end MessageType
end DeviceLink
