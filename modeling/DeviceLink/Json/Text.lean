import DeviceLink.Json.Basic
import DeviceLink.Double.Layout
import DeviceLink.Text.Utf8

/-! The text of JSON values: compact, with members in the order they have. -/
namespace DeviceLink.Json

open Text

/-- A character inside a string literal: short escapes where they exist, four hexadecimal digits
for the other control characters, and all else as it is. -/
def escaped (c : Char) : List Char :=
  if c = '"' then ['\\', '"']
  else if c = '\\' then ['\\', '\\']
  else if c = '\n' then ['\\', 'n']
  else if c = '\r' then ['\\', 'r']
  else if c = '\t' then ['\\', 't']
  else if c.toNat = 8 then ['\\', 'b']
  else if c.toNat = 12 then ['\\', 'f']
  else if c.toNat < 32 then
    ['\\', 'u', '0', '0', Nat.digitChar (c.toNat / 16), Nat.digitChar (c.toNat % 16)]
  else [c]

def literal (s : String) : List Char := '"' :: (s.toList.flatMap escaped ++ ['"'])

def Number.chars : Number → List Char
  | .integer n => decimalInt n
  | .double x => x.text .json

mutual

def chars : Json → List Char
  | .null => ['n', 'u', 'l', 'l']
  | .bool true => ['t', 'r', 'u', 'e']
  | .bool false => ['f', 'a', 'l', 's', 'e']
  | .number n => n.chars
  | .string s => literal s
  | .array items => '[' :: (itemChars true items ++ [']'])
  | .object members => '\x7b' :: (memberChars true members ++ ['\x7d'])

/-- Items with commas between them; `first` holds where no item stands before. -/
def itemChars : Bool → List Json → List Char
  | _, [] => []
  | first, v :: rest => (if first then [] else [',']) ++ chars v ++ itemChars false rest

/-- Members with commas between them; `first` holds where no member stands before. -/
def memberChars : Bool → List (String × Json) → List Char
  | _, [] => []
  | first, (name, v) :: rest =>
    (if first then [] else [',']) ++ literal name ++ ':' :: chars v ++ memberChars false rest

end

def text (v : Json) : String := String.ofList v.chars

def encode (v : Json) : Octets := Text.encode v.text

end DeviceLink.Json
