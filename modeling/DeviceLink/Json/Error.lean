import DeviceLink.Violation

/-! Why a text is not read as the JSON that is asked for: the kind of fault, without the line and
column where it stands. -/
namespace DeviceLink.Json

inductive ReadError
  /-- The input ends inside a value. -/
  | truncated
  /-- The input is not JSON, nests too deep, or holds a number beyond all doubles. -/
  | malformed
  /-- A value of another type than the one asked for. -/
  | wrongType
  /-- A whole number outside the range asked for. -/
  | outOfRange
  /-- An array that ends before all fields of a record are given. -/
  | tooShort
  /-- A name outside its vocabulary. -/
  | unknownName
  | missingMember (name : String)
  | repeatedMember (name : String)
  /-- Text that is not base64 where octets are expected. -/
  | notBase64
  /-- The parts were read but break a rule of the model. -/
  | refused (cause : Violation)
  deriving DecidableEq, Repr

def ReadError.message : ReadError → String
  | .truncated => "eof"
  | .malformed => "syntax"
  | .wrongType => "invalid type"
  | .outOfRange => "invalid value"
  | .tooShort => "invalid length"
  | .unknownName => "unknown variant"
  | .missingMember name => "missing field `" ++ name ++ "`"
  | .repeatedMember name => "duplicate field `" ++ name ++ "`"
  | .notBase64 => "base64"
  | .refused cause => cause.message

/-- A reader takes a value from the front of its input. -/
abbrev Reader (α : Type) := List UInt8 → Except ReadError (α × List UInt8)

end DeviceLink.Json
