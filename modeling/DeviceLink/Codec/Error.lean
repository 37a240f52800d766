import DeviceLink.Json.Error
import DeviceLink.MessageType
import DeviceLink.Schema.Basic

/-! Why a message is not sent or not understood. -/
namespace DeviceLink

/-- What is wrong with a field that is there. -/
inductive FieldFault
  | notArray
  | notStrings
  | notObject
  | notObjects
  | notObjectOrObjects
  | notUnsigned
  | notBase64Text
  | nonNumericMember (reference : String)
  | unsupportedValue (reference : String)
  | unknownParameter (name : String)
  | notParameterValue (name : String)
  | notScalar (name : String)
  | reserved (name : String)
  | notGatewayChannel (channel : String)
  | unknownStatus (token : String)
  deriving DecidableEq, Repr

def FieldFault.message : FieldFault → String
  | .notArray => "expected an array"
  | .notStrings => "expected an array of strings"
  | .notObject => "expected an object"
  | .notObjects => "expected an array of objects"
  | .notObjectOrObjects => "expected an object or an array of objects"
  | .notUnsigned => "expected an unsigned integer"
  | .notBase64Text => "expected a base64 string"
  | .nonNumericMember reference => "'" ++ reference ++ "' holds a non-numeric array member"
  | .unsupportedValue reference => "'" ++ reference ++ "' holds an unsupported value"
  | .unknownParameter name => "unknown parameter '" ++ name ++ "'"
  | .notParameterValue name =>
    "value of '" ++ name ++ "' is not a string, boolean, number or null"
  | .notScalar name => "'" ++ name ++ "' is not a scalar"
  | .reserved name => "'" ++ name ++ "' is reserved"
  | .notGatewayChannel channel => "'" ++ channel ++ "' is not a gateway channel"
  | .unknownStatus token => "unknown status '" ++ token ++ "'"

/-- The causes for which a message is not sent or not understood. -/
inductive CodecError
  /-- The channel names another kind of message than the one asked for. -/
  | typeMismatch (expected actual : MessageType)
  /-- This part of the protocol has no such message. -/
  | unsupported (type : MessageType)
  /-- The kind of message has no schema. -/
  | noSchema (type : MessageType)
  | schemaViolation (type : MessageType) (fault : Schema.Fault)
  | json (cause : Json.ReadError)
  | notUtf8
  | missingField (field : String)
  | invalidField (field : String) (fault : FieldFault)
  | violation (cause : Violation)
  | notBase64
  deriving Repr

def CodecError.message : CodecError → String
  | .typeMismatch expected actual =>
    "Expected '" ++ expected.display ++ "' message, got '" ++ actual.display ++ "'"
  | .unsupported type =>
    "Message type '" ++ type.display ++ "' is not supported by this protocol"
  | .noSchema type => "No JSON schema registered for message type '" ++ type.display ++ "'"
  | .schemaViolation type fault =>
    "Payload does not match the '" ++ type.display ++ "' schema: " ++ fault.message
  | .json cause => "Invalid JSON payload: " ++ cause.message
  | .notUtf8 => "Payload is not valid UTF-8"
  | .missingField field => "Missing or empty field: " ++ field
  | .invalidField field fault => "Invalid field '" ++ field ++ "': " ++ fault.message
  | .violation cause => cause.message
  | .notBase64 => "Invalid base64 payload"

end DeviceLink
