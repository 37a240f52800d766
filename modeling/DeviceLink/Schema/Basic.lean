import DeviceLink.Json.Text

/-! Schemas: the shapes that payloads must have, and the first fault of a value that has not. -/
namespace DeviceLink

/-- What a string must look like. -/
inductive Schema.Pattern
  /-- Some character is not blank. -/
  | nonBlank
  /-- Hexadecimal digits, this many and nothing else. -/
  | hexDigits (count : Nat)
  deriving DecidableEq, Repr

namespace Schema

/-- The characters that leave a string blank. -/
def isBlank (c : Char) : Bool :=
  let n := c.toNat
  (9 ≤ n && n ≤ 13) || n == 0x20 || n == 0xA0 || n == 0xFEFF || n == 0x2003 || n == 0x2029

namespace Pattern

def source : Pattern → String
  | .nonBlank => "\\S"
  | .hexDigits count => "^[0-9a-fA-F]\x7b" ++ String.ofList (Text.decimal count) ++ "\x7d$"

def accepts : Pattern → String → Bool
  | .nonBlank, s => s.toList.any fun c => !isBlank c
  | .hexDigits count, s => s.toList.length = count && s.toList.all Text.isHexDigit

end Pattern

end Schema

/-- A schema for JSON values. Values of this type are schemas by construction, patterns included:
there is no document to compile first, so no compilation that could fail and be reported. -/
inductive Schema
  /-- A string, perhaps of a certain look. -/
  | text (pattern : Option Schema.Pattern)
  /-- Any number. -/
  | number
  /-- One of some strings. -/
  | oneOf (names : List String)
  /-- An array of items of one schema. -/
  | list (item : Schema)
  /-- An object all of whose names are among some strings. -/
  | dictionary (names : List String)
  /-- An object with certain members; the properties are given in ascending order. -/
  | record (required : List String) (properties : List (String × Schema))
  deriving Repr

namespace Schema

inductive Fault
  | wrongType (value : Json) (type : String)
  | missing (name : String)
  | mismatch (value : String) (pattern : Pattern)
  | notListed (value : Json) (names : List String)
  deriving Repr

def Fault.message : Fault → String
  | .wrongType v type => v.text ++ " is not of type \"" ++ type ++ "\""
  | .missing name => (Json.string name).text ++ " is a required property"
  | .mismatch v pattern => (Json.string v).text ++ " does not match \"" ++ pattern.source ++ "\""
  | .notListed v names => v.text ++ " is not one of " ++ (Json.strings names).text

def listFault? (names : List String) (v : Json) : Option Fault :=
  match v with
  | .string s => if s ∈ names then none else some (.notListed v names)
  | _ => some (.notListed v names)

mutual

/-- The first fault of a value: items, properties and names come before required members, and
these before the type of the value itself. -/
def fault? : Schema → Json → Option Fault
  | .text pattern, v =>
    match v with
    | .string s => pattern.bind fun p => if p.accepts s then none else some (.mismatch s p)
    | _ => some (.wrongType v "string")
  | .number, v =>
    match v with
    | .number _ => none
    | _ => some (.wrongType v "number")
  | .oneOf names, v => listFault? names v
  | .list item, v =>
    match v with
    | .array items => items.findSome? item.fault?
    | _ => some (.wrongType v "array")
  | .dictionary names, v =>
    match v with
    | .object members => members.findSome? fun m => listFault? names (.string m.1)
    | _ => some (.wrongType v "object")
  | .record required properties, v =>
    match v with
    | .object members =>
      (propertyFault? properties members).or
        ((required.find? fun name => (Ascending.find? name members).isNone).map .missing)
    | _ => some (.wrongType v "object")

def propertyFault? : List (String × Schema) → List (String × Json) → Option Fault
  | [], _ => none
  | (name, schema) :: rest, members =>
    ((Ascending.find? name members).bind schema.fault?).or (propertyFault? rest members)

end

def typeMember (type : String) : String × Json := ("type", .string type)

mutual

/-- The schema as a JSON document. -/
def toJson : Schema → Json
  | .text none => .object [typeMember "string"]
  | .text (some p) => .object [("pattern", .string p.source), typeMember "string"]
  | .number => .object [typeMember "number"]
  | .oneOf names => .object [("enum", .strings names)]
  | .list item => .object [("items", item.toJson), typeMember "array"]
  | .dictionary names =>
    .object [("propertyNames", .object [("enum", .strings names)]), typeMember "object"]
  | .record required properties =>
    .object [("properties", .object (propertiesToJson properties)),
      ("required", .strings required), typeMember "object"]

def propertiesToJson : List (String × Schema) → List (String × Json)
  | [] => []
  | (name, schema) :: rest => (name, schema.toJson) :: propertiesToJson rest

end

end Schema
end DeviceLink
