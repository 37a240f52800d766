import DeviceLink.Ascending

/-! The parameters that the platform can set on a device. -/
namespace DeviceLink

/-- The names of parameters, in their fixed order. -/
inductive ParameterName
  | connectivityType
  | outboundDataMode
  | outboundDataRetentionTime
  | maximumMessageSize
  | fileTransferPlatformEnabled
  | fileTransferUrlEnabled
  | firmwareUpdateEnabled
  | firmwareUpdateCheckTime
  | firmwareUpdateRepository
  | firmwareVersion
  | gateway
  | gatewayParent
  | externalId
  deriving DecidableEq, Repr

namespace ParameterName

def all : List ParameterName :=
  [.connectivityType, .outboundDataMode, .outboundDataRetentionTime, .maximumMessageSize,
    .fileTransferPlatformEnabled, .fileTransferUrlEnabled, .firmwareUpdateEnabled,
    .firmwareUpdateCheckTime, .firmwareUpdateRepository, .firmwareVersion, .gateway,
    .gatewayParent, .externalId]

theorem mem_all (n : ParameterName) : n ∈ all := by cases n <;> decide

def token : ParameterName → String
  | .connectivityType => "CONNECTIVITY_TYPE"
  | .outboundDataMode => "OUTBOUND_DATA_MODE"
  | .outboundDataRetentionTime => "OUTBOUND_DATA_RETENTION_TIME"
  | .maximumMessageSize => "MAXIMUM_MESSAGE_SIZE"
  | .fileTransferPlatformEnabled => "FILE_TRANSFER_PLATFORM_ENABLED"
  | .fileTransferUrlEnabled => "FILE_TRANSFER_URL_ENABLED"
  | .firmwareUpdateEnabled => "FIRMWARE_UPDATE_ENABLED"
  | .firmwareUpdateCheckTime => "FIRMWARE_UPDATE_CHECK_TIME"
  | .firmwareUpdateRepository => "FIRMWARE_UPDATE_REPOSITORY"
  | .firmwareVersion => "FIRMWARE_VERSION"
  | .gateway => "GATEWAY"
  | .gatewayParent => "GATEWAY_PARENT"
  | .externalId => "EXTERNAL_ID"

def ofToken? (token : String) : Option ParameterName := all.find? fun n => n.token = token

end ParameterName

/-- The value of a parameter in a list that may name it more than once: the first one. -/
def parameterValue? (parameters : List (ParameterName × String)) (name : ParameterName) :
    Option String :=
  (parameters.find? fun p => p.1 = name).map Prod.snd

/-- A value for some of the parameters. -/
structure ParameterTable where
  value? : ParameterName → Option String

namespace ParameterTable

theorem ext {a b : ParameterTable} (h : ∀ n, a.value? n = b.value? n) : a = b := by
  cases a; cases b; congr; exact funext h

instance : DecidableEq ParameterTable := fun a b =>
  if h : ∀ n ∈ ParameterName.all, a.value? n = b.value? n then
    isTrue (ext fun n => h n (ParameterName.mem_all n))
  else isFalse fun e => h fun _ _ => e ▸ rfl

def empty : ParameterTable := ⟨fun _ => none⟩

def insert (t : ParameterTable) (name : ParameterName) (value : String) : ParameterTable :=
  ⟨fun n => if n = name then some value else t.value? n⟩

/-- The table of a list, the last of repeated names counting. -/
def ofList (entries : List (ParameterName × String)) : ParameterTable :=
  entries.foldl (fun t e => t.insert e.1 e.2) empty

def entries (t : ParameterTable) : List (ParameterName × String) :=
  ParameterName.all.filterMap fun n => (t.value? n).map fun v => (n, v)

instance : Repr ParameterTable := ⟨fun t p => reprPrec t.entries p⟩

end ParameterTable
end DeviceLink
