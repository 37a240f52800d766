import DeviceLink.Codec.Error
import DeviceLink.Json.Shape
import DeviceLink.Message
import DeviceLink.Schema.Payload

/-! Payloads: what every part of the protocol does with the content of an envelope. -/
namespace DeviceLink.Payload

def json (e : Envelope) : Except CodecError Json := (Json.parse e.content).mapError .json

def typed {α : Type} (shape : Json.Shape α) (e : Envelope) : Except CodecError α :=
  (shape.parse e.content).mapError .json

def text (e : Envelope) : Except CodecError String :=
  match Text.decode? e.content with
  | some s => .ok s
  | none => .error .notUtf8

/-- A mandatory text. -/
def require (field value : String) : Except CodecError Unit :=
  if value = "" then .error (.missingField field) else .ok ()

/-- The content as bare text, without the quotes that older platforms put around it; something
must be left. -/
def scalar (field : String) (e : Envelope) : Except CodecError String := do
  let value := Text.removeQuotes (← text e)
  require field value
  .ok value

def validateValue (type : MessageType) (v : Json) : Except CodecError Unit :=
  match Schema.ofType? type with
  | none => .error (.noSchema type)
  | some schema =>
    match schema.fault? v with
    | some fault => .error (.schemaViolation type fault)
    | none => .ok ()

/-- The content as JSON that obeys the schema of the kind of message named by the channel. It keeps
no log: the schemas are at hand without being compiled, and its error goes to the caller. -/
def validated (e : Envelope) : Except CodecError Json :=
  let type := Topic.messageType e.channel
  if (Schema.ofType? type).isNone then .error (.noSchema type)
  else do
    let v ← json e
    validateValue type v
    .ok v

/-- The strings of an array that holds nothing else. -/
def strings (field : String) : Json → Except CodecError (List String)
  | .array items => items.mapM fun
    | .string s => .ok s
    | _ => .error (.invalidField field .notStrings)
  | _ => .error (.invalidField field .notArray)

def parameter (token : String) : Except CodecError ParameterName :=
  match ParameterName.ofToken? token with
  | some n => .ok n
  | none => .error (.invalidField "parameters" (.unknownParameter token))

end DeviceLink.Payload
