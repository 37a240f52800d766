import DeviceLink.Cli.Arguments
import DeviceLink.Codec.Area
import DeviceLink.Outline.Message

/-! The commands of the command line, and what each prints. -/
namespace DeviceLink.Cli

inductive Failure
  | invalidPayload (channel : String) (cause : CodecError)
  | unknownType (channel : String)
  | noSubdeviceMessages
  | onlySent (type : MessageType)
  | notDecoded
  | noResponse (type : MessageType)
  deriving Repr

/-- The causes that an error is shown with: a fault of JSON text is the first of a numbered list,
and any other cause stands alone. -/
def causeLine : CodecError → String
  | .json cause => "    0: " ++ (CodecError.json cause).message
  | cause => "    " ++ cause.message

def Failure.message : Failure → String
  | .invalidPayload channel cause =>
    "Payload on '" ++ channel ++ "' is not valid\n\nCaused by:\n" ++ causeLine cause
  | .unknownType channel => "Unknown message type on channel '" ++ channel ++ "'"
  | .noSubdeviceMessages => "No subdevice messages could be decoded"
  | .onlySent type => "'" ++ type.display ++ "' messages are only ever sent by a device"
  | .notDecoded => "Message could not be decoded"
  | .noResponse type => "'" ++ type.display ++ "' requests do not expect a response"

def inspect (channel : String) : List String :=
  ["direction:    " ++ ((Topic.direction? channel).map Direction.token).getD "unknown",
    "device type:  " ++ (Topic.deviceType channel).name,
    "device key:   " ++ Topic.deviceKey channel,
    "message type: " ++ (Topic.messageType channel).display]

def deviceAreas : List Area := [.data, .fileManagement, .firmwareUpdate, .error, .platformStatus]

def gatewayAreas : List Area :=
  [.registration, .gatewaySubdevice, .gatewayRegistration, .error, .platformStatus]

/-- A name, filled up with spaces to the width of a column. -/
def column (name : String) : String := name ++ String.ofList (List.replicate (18 - name.length) ' ')

/-- The channels that a device or a gateway listens on, each with its area. -/
def channels (deviceKey : String) (gateway : Bool) : List String :=
  (if gateway then gatewayAreas else deviceAreas).flatMap fun a =>
    (a.globalChannels ++ a.deviceChannels deviceKey).map fun c => column a.name ++ " " ++ c

/-- Checks a payload against the schema of its channel. As in `Payload.validated` there is nothing
to report on the way. -/
def validate (e : Envelope) : Except Failure (List String) :=
  match Payload.validated e with
  | .ok _ => .ok ["valid"]
  | .error cause => .error (.invalidPayload e.channel cause)

/-- The kinds of messages that a device sends to its own gateway. -/
def isRegistrationRequest : MessageType → Bool
  | .deviceRegistration | .deviceRemoval | .childrenSynchronizationResponse
  | .registeredDevicesResponse => true
  | _ => false

/-- The area whose messages of a kind a device receives. -/
def receivingArea? : MessageType → Option Area
  | .feedValues | .parameterSync | .timeSync | .detailsSynchronizationResponse
  | .feedRegistration | .feedRemoval | .attributeRegistration | .synchronizeParameters =>
    some .data
  | .fileUploadInit | .fileUploadAbort | .fileBinaryResponse | .fileUrlDownloadInit
  | .fileUrlDownloadAbort | .fileListRequest | .fileDelete | .filePurge => some .fileManagement
  | .firmwareUpdateInstall | .firmwareUpdateAbort => some .firmwareUpdate
  | .deviceRegistrationResponse | .childrenSynchronizationResponse
  | .registeredDevicesResponse => some .registration
  | .error => some .error
  | .platformConnectionStatus => some .platformStatus
  | _ => none

def outlined (a : Area) (e : Envelope) : Logged (Except Failure (List String)) :=
  let r := a.parse e
  ⟨match r.value with
    | some m => .ok [(Outline.message m).text]
    | none => .error .notDecoded, r.log⟩

def unwrapped (e : Envelope) : Logged (Except Failure (List String)) :=
  let r := Subdevice.parse e
  ⟨if r.value.isEmpty then .error .noSubdeviceMessages else .ok (r.value.map Envelope.display),
    r.log⟩

def decode (e : Envelope) : Logged (Except Failure (List String)) :=
  let type := Topic.messageType e.channel
  if type = .unknown then ⟨.error (.unknownType e.channel), []⟩
  else
    match Topic.direction? e.channel with
    | some .platformToGateway | some .gatewayToPlatform => unwrapped e
    | direction =>
      if direction = some .deviceToPlatform ∧ isRegistrationRequest type then
        outlined .gatewayRegistration e
      else
        match receivingArea? type with
        | some a => outlined a e
        | none => ⟨.error (.onlySent type), []⟩

def responseChannel (channel : String) : Except Failure (List String) :=
  let type := Topic.messageType channel
  let key := Topic.deviceKey channel
  match (deviceAreas ++ gatewayAreas).findSome? fun a => a.responseChannel? type key with
  | some c => .ok [c]
  | none => .error (.noResponse type)

/-- The lines that a command prints, or why it fails. -/
def run : Command → Logged (Except Failure (List String))
  | .inspect channel => ⟨.ok (inspect channel), []⟩
  | .channels key gateway => ⟨.ok (channels key gateway), []⟩
  | .validate e => ⟨validate e, []⟩
  | .decode e => decode e
  | .responseChannel channel => ⟨responseChannel channel, []⟩

structure Outcome where
  code : Nat
  output : String
  errors : String
  deriving DecidableEq, Repr

def lines (l : List String) : String := String.join (l.map (· ++ "\n"))

/-- How to use the program or one of its commands, without the descriptions of its options. -/
def usage : Option Verb → String
  | none => lines (["Usage: wolk [OPTIONS] <COMMAND>", "", "Commands:"] ++
      Verb.all.map fun v => "  " ++ v.name)
  | some verb => lines ["Usage: wolk " ++ verb.name ++ " [OPTIONS]" ++
      String.join (verb.places.map fun p => " <" ++ p ++ ">")]

def stopped : Stop → Outcome
  | .help verb => ⟨0, usage verb, ""⟩
  | .version => ⟨0, "wolk 0.1.0\n", ""⟩
  | .refused cause => ⟨2, "", "error: " ++ cause.message ++ "\n\n" ++ usage none⟩

/-- A line without the time, and without the details of the entry. -/
def logLine (e : LogEntry) : String := e.level.name ++ " " ++ e.message

/-- The effect of the program with some arguments; what is logged on the way is shown too when
`logging` holds. -/
def outcome (logging : Bool) (arguments : List String) : Outcome :=
  match read arguments with
  | .error stop => stopped stop
  | .ok (command, verbose) =>
    let r := run command
    let shown := r.log.filter fun e => verbose || e.level ≠ .debug
    let log := if logging then lines (shown.map logLine) else ""
    match r.value with
    | .ok l => ⟨0, lines l, log⟩
    | .error failure => ⟨1, "", log ++ "Error: " ++ failure.message ++ "\n"⟩

end DeviceLink.Cli
