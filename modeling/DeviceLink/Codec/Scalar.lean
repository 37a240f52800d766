import DeviceLink.Value

/-! Values kept as text, as JSON scalars. -/
namespace DeviceLink.Value

/-- A value as the most specific JSON scalar that it can be read as; doubles beyond the finite
ones stay text. -/
def toJson (v : String) : Json :=
  match kind v with
  | .boolean => .bool (v = "true")
  | .uint => ((uint? v).map fun n => Json.ofNat n).getD (.string v)
  | .int => ((int? v).map fun n => Json.number (.integer n)).getD (.string v)
  | .double =>
    (((double? v).filter Double.isFinite).map fun x => Json.number (.double x)).getD (.string v)
  | .string => .string v

/-- The text of a JSON scalar; null and containers have none. -/
def ofJson? : Json → Option String
  | .bool b => some (if b then "true" else "false")
  | .number n => some (String.ofList n.chars)
  | .string s => some s
  | _ => none

end DeviceLink.Value
