import DeviceLink.Json.Shape

/-! Feeds and attributes of a device. -/
namespace DeviceLink

/-- Whether a feed only reports values or can also be actuated. -/
inductive FeedType
  | input
  | inputOutput
  deriving DecidableEq, Repr

namespace FeedType

def all : List FeedType := [.input, .inputOutput]

def token : FeedType → String
  | .input => "IN"
  | .inputOutput => "IN_OUT"

def ofToken? (token : String) : Option FeedType := all.find? fun t => t.token = token

end FeedType

inductive DataType
  | string
  | numeric
  | boolean
  | enumeration
  | location
  | vector
  | hexadecimal
  | date
  deriving DecidableEq, Repr

namespace DataType

def all : List DataType :=
  [.string, .numeric, .boolean, .enumeration, .location, .vector, .hexadecimal, .date]

def token : DataType → String
  | .string => "STRING"
  | .numeric => "NUMERIC"
  | .boolean => "BOOLEAN"
  | .enumeration => "ENUM"
  | .location => "LOCATION"
  | .vector => "VECTOR"
  | .hexadecimal => "HEXADECIMAL"
  | .date => "DATE"

def ofToken? (token : String) : Option DataType := all.find? fun t => t.token = token

end DataType

/-- A named, typed data channel of a device. -/
structure Feed where
  name : String
  /-- The short name that readings use. -/
  reference : String
  type : FeedType
  unit : String
  name_ne : name ≠ ""
  reference_ne : reference ≠ ""
  deriving DecidableEq, Repr

namespace Feed

/-- A feed; its name is checked before its reference. -/
def make? (name reference : String) (type : FeedType) (unit : String) : Except Violation Feed :=
  if hn : name = "" then .error (.emptyField "feed name")
  else if hr : reference = "" then .error (.emptyField "feed reference")
  else .ok ⟨name, reference, type, unit, hn, hr⟩

/-- A feed whose type is given by its token, which is checked first. -/
def ofTokens? (name reference type unit : String) : Except Violation Feed :=
  match FeedType.ofToken? type with
  | none => .error (.invalidToken "feed type" type)
  | some t => make? name reference t unit

def stored : Json.Shape Feed :=
  .refine
    (.record (.required "name" .text (.required "reference" .text
      (.required "feed_type" (.token FeedType.ofToken? FeedType.token)
        (.required "unit" .text .nil)))))
    (fun (name, reference, type, unit, ()) =>
      (make? name reference type unit).mapError .refused)
    fun f => (f.name, f.reference, f.type, f.unit, ())

end Feed

/-- A fixed property of a device. -/
structure Attribute where
  name : String
  type : DataType
  value : String
  name_ne : name ≠ ""
  deriving DecidableEq, Repr

namespace Attribute

def make? (name : String) (type : DataType) (value : String) : Except Violation Attribute :=
  if hn : name = "" then .error (.emptyField "attribute name")
  else .ok ⟨name, type, value, hn⟩

def ofTokens? (name type value : String) : Except Violation Attribute :=
  match DataType.ofToken? type with
  | none => .error (.invalidToken "data type" type)
  | some t => make? name t value

def stored : Json.Shape Attribute :=
  .refine
    (.record (.required "name" .text
      (.required "data_type" (.token DataType.ofToken? DataType.token)
        (.required "value" .text .nil))))
    (fun (name, type, value, ()) => (make? name type value).mapError .refused)
    fun a => (a.name, a.type, a.value, ())

end Attribute
end DeviceLink
