import DeviceLink.Double.Decimal
import DeviceLink.Double.Layout
import DeviceLink.Json.Shape
import DeviceLink.Text.Numeral
import DeviceLink.Text.Utf8

/-! Values kept as text, and the readings of that text. -/
namespace DeviceLink

/-- How a value is best represented outside. -/
inductive ValueKind
  | boolean
  | uint
  | int
  | double
  | string
  deriving DecidableEq, Repr

namespace Value

open Text

def bool? (v : String) : Option Bool :=
  if v = "true" then some true else if v = "false" then some false else none

/-- The unsigned 64-bit number that a text spells in digits. -/
def uint? (v : String) : Option Nat := below? limit64 (digits? v.toList)

/-- The signed 64-bit number that a text spells in digits, with a minus sign if negative. -/
def int? (v : String) : Option Int :=
  match v.toList with
  | '-' :: s => ((digits? s).filter (· ≤ limit63)).map fun n => -(n : Int)
  | s => ((digits? s).filter (· < limit63)).map fun n => (n : Int)

/-- The double nearest to the decimal that a text spells. -/
def double? (v : String) : Option Double := Double.read? v.toList

def isHex (v : String) : Bool := (hexDigits? v.toList).isSome

/-- The unsigned 64-bit number that a text spells in hexadecimal digits. -/
def hex? (v : String) : Option Nat := below? limit64 (hexDigits? v.toList)

/-- The first kind, in this order, that a text can be read as: a truth value, an unsigned number,
a signed number, a double, and otherwise a string. -/
def kind (v : String) : ValueKind :=
  if (bool? v).isSome then .boolean
  else if (uint? v).isSome then .uint
  else if (int? v).isSome then .int
  else if (double? v).isSome then .double
  else .string

end Value

structure Location where
  latitude : Double
  longitude : Double
  deriving DecidableEq, Repr

namespace Location

/-- The position in a text `latitude,longitude`; white space around either part is ignored. -/
def ofText? (v : String) : Option Location :=
  let s := v.toList
  match s.dropWhile (· != ',') with
  | [] => none
  | _ :: longitude => do
    let latitude ← Double.read? (Text.trim (s.takeWhile (· != ',')))
    let longitude ← Double.read? (Text.trim longitude)
    some ⟨latitude, longitude⟩

def text (l : Location) : String :=
  String.ofList (l.latitude.text .plain ++ ',' :: l.longitude.text .plain)

def stored : Json.Shape Location :=
  .refine (.record (.required "latitude" .double (.required "longitude" .double .nil)))
    (fun (latitude, longitude, ()) => .ok ⟨latitude, longitude⟩)
    fun l => (l.latitude, l.longitude, ())

end Location
end DeviceLink
