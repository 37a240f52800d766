import DeviceLink.Text.Literal
import DeviceLink.Text.Numeral

/-! Outlines: values laid out for people, one part a line. -/
namespace DeviceLink

/-- A value laid out in lines. -/
inductive Outline
  /-- A value on a line of its own. -/
  | word (text : String)
  /-- Parts between an opening and a closing line; a lead stands before each part. -/
  | block (opening : String) (parts : List (String × Outline)) (closing : String)
  deriving Repr

namespace Outline

def margin (depth : Nat) : String := String.ofList (List.replicate (4 * depth) ' ')

mutual

/-- The text of an outline whose lines stand at a depth. -/
def render (depth : Nat) : Outline → String
  | .word text => text
  | .block opening parts closing =>
    opening ++ "\n" ++ renderParts (depth + 1) parts ++ margin depth ++ closing

/-- The text of the parts of a block, each with a comma after it. -/
def renderParts (depth : Nat) : List (String × Outline) → String
  | [] => ""
  | (lead, part) :: rest =>
    margin depth ++ lead ++ render depth part ++ ",\n" ++ renderParts depth rest

end

def text (o : Outline) : String := o.render 0

/-- Some values; none stand in one line. -/
def list (items : List Outline) : Outline :=
  if items.isEmpty then .word "[]" else .block "[" (items.map fun item => ("", item)) "]"

/-- A name with named fields; without fields it stands alone. -/
def record (name : String) (fields : List (String × Outline)) : Outline :=
  if fields.isEmpty then .word name
  else .block (name ++ " \x7b") (fields.map fun f => (f.1 ++ ": ", f.2)) "\x7d"

def wrapped (name : String) (value : Outline) : Outline := .block (name ++ "(") [("", value)] ")"

def pair (a b : Outline) : Outline := .block "(" [("", a), ("", b)] ")"

def dictionary (entries : List (String × Outline)) : Outline :=
  if entries.isEmpty then .word "\x7b\x7d"
  else .block "\x7b" (entries.map fun e => (e.1 ++ ": ", e.2)) "\x7d"

def number (n : Nat) : Outline := .word (String.ofList (Text.decimal n))

def quoted (s : String) : Outline := .word (Text.quoted s)

def strings (l : List String) : Outline := list (l.map quoted)

def optional (o : Option Outline) : Outline :=
  match o with
  | none => .word "None"
  | some o => wrapped "Some" o

/-- The words of a token, each with a capital letter, without the lines between them. -/
def joinWords : Bool → List Char → List Char
  | _, [] => []
  | capital, c :: rest =>
    if c = '_' then joinWords true rest
    else (if capital then c.toUpper else c.toLower) :: joinWords false rest

def token (t : String) : Outline := .word (String.ofList (joinWords true t.toList))

end Outline
end DeviceLink
