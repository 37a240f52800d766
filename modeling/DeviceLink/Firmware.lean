/-! Firmware updates: progress and failures. -/
namespace DeviceLink

inductive FirmwareUpdateStatus
  | awaitingDevice
  | installing
  | success
  | error
  | aborted
  deriving DecidableEq, Repr

namespace FirmwareUpdateStatus

def all : List FirmwareUpdateStatus := [.awaitingDevice, .installing, .success, .error, .aborted]

def token : FirmwareUpdateStatus → String
  | .awaitingDevice => "AWAITING_DEVICE"
  | .installing => "INSTALLING"
  | .success => "SUCCESS"
  | .error => "ERROR"
  | .aborted => "ABORTED"

def ofToken? (token : String) : Option FirmwareUpdateStatus := all.find? fun s => s.token = token

end FirmwareUpdateStatus

inductive FirmwareUpdateError
  | unknownError
  | unknownFile
  | installationFailed
  | retryCountExceeded
  deriving DecidableEq, Repr

namespace FirmwareUpdateError

def all : List FirmwareUpdateError :=
  [.unknownError, .unknownFile, .installationFailed, .retryCountExceeded]

/-- The number that a reason travels as. -/
def code : FirmwareUpdateError → Nat
  | .unknownError => 0
  | .unknownFile => 1
  | .installationFailed => 2
  | .retryCountExceeded => 3

def ofCode? (code : Nat) : Option FirmwareUpdateError := all.find? fun e => e.code = code

def name : FirmwareUpdateError → String
  | .unknownError => "UnknownError"
  | .unknownFile => "UnknownFile"
  | .installationFailed => "InstallationFailed"
  | .retryCountExceeded => "RetryCountExceeded"

end FirmwareUpdateError
end DeviceLink
