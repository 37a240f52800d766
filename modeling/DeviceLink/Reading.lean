import DeviceLink.Value

/-! Readings: the values of a feed at one time, which is given and not taken from a clock. -/
namespace DeviceLink

/-- The values of a feed at one time, one at least. -/
structure Reading where
  reference : String
  /-- The first value. -/
  value : String
  /-- The values after the first. -/
  more : List String
  /-- Milliseconds since the epoch. -/
  timestamp : UInt64
  deriving DecidableEq, Repr

namespace Reading

def values (r : Reading) : List String := r.value :: r.more

def single (reference value : String) (timestamp : UInt64) : Reading :=
  ⟨reference, value, [], timestamp⟩

/-- A reading of a list of values, which must not be empty. -/
def ofValues? (reference : String) (values : List String) (timestamp : UInt64) :
    Except Violation Reading :=
  match values with
  | [] => .error (.emptyValues reference)
  | v :: more => .ok ⟨reference, v, more, timestamp⟩

def isMulti (r : Reading) : Bool := r.more ≠ []

def kind (r : Reading) : ValueKind := Value.kind r.value

def bool? (r : Reading) : Option Bool := Value.bool? r.value

def uint? (r : Reading) : Option Nat := Value.uint? r.value

def int? (r : Reading) : Option Int := Value.int? r.value

def double? (r : Reading) : Option Double := Value.double? r.value

def isHex (r : Reading) : Bool := Value.isHex r.value

def hex? (r : Reading) : Option Nat := Value.hex? r.value

def location? (r : Reading) : Option Location := Location.ofText? r.value

def stored : Json.Shape Reading :=
  .refine
    (.record (.required "reference" .text (.required "values" (.list .text)
      (.required "timestamp" .uint64 .nil))))
    (fun (reference, values, timestamp, ()) =>
      (ofValues? reference values timestamp).mapError .refused)
    fun r => (r.reference, r.values, r.timestamp, ())

end Reading
end DeviceLink
