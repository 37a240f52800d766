import DeviceLink.Ascending
import DeviceLink.Double.Basic
import DeviceLink.Text.Numeral

/-! JSON values. -/
namespace DeviceLink

/-- A JSON number: a whole number within 64 bits, or a double. -/
inductive Json.Number
  | integer (n : Int)
  | double (x : Double)
  deriving DecidableEq, Repr

/-- A JSON value; the members of an object keep their order. -/
inductive Json
  | null
  | bool (b : Bool)
  | number (n : Json.Number)
  | string (s : String)
  | array (items : List Json)
  | object (members : List (String × Json))
  deriving Repr

namespace Json

def ofNat (n : Nat) : Json := .number (.integer n)

def strings (l : List String) : Json := .array (l.map .string)

def get? (name : String) : Json → Option Json
  | .object members => Ascending.find? name members
  | _ => none

/-- An unsigned 64-bit number. -/
def natural? : Json → Option Nat
  | .number (.integer n) => if 0 ≤ n ∧ n < limit64 then some n.toNat else none
  | _ => none

def isNull : Json → Bool
  | .null => true
  | _ => false

def string? : Json → Option String
  | .string s => some s
  | _ => none

end Json
end DeviceLink
