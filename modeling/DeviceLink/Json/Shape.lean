import DeviceLink.Json.Reader
import DeviceLink.Json.Text

/-! Typed JSON: the shapes that values of a type take, read and written. -/
namespace DeviceLink.Json

mutual

/-- How values of a type stand in JSON. -/
inductive Shape : Type → Type 1
  /-- A value that is no container; `accept` says which ones are meant. -/
  | leaf {α : Type} (accept : Json → Except ReadError α) (put : α → Json) : Shape α
  /-- Any value at all. -/
  | any : Shape Json
  /-- A name of a vocabulary, alone or as the only member of an object, with null beside it. -/
  | token {α : Type} (ofToken? : String → Option α) (token : α → String) : Shape α
  /-- An array of items. -/
  | list {α : Type} (item : Shape α) : Shape (List α)
  /-- An object whose names are keys; all entries are kept, in the order of the text. -/
  | dictionary {κ α : Type} (ofName? : String → Option κ) (name : κ → String)
      (value : Shape α) : Shape (List (κ × α))
  /-- An object of named fields, or an array of the fields in their order. -/
  | record {α : Type} (row : Row α) : Shape α
  /-- A shape whose values are checked as soon as they are read. -/
  | refine {α β : Type} (shape : Shape α) (check : α → Except ReadError β)
      (forget : β → α) : Shape β

/-- The fields of a record, in order. -/
inductive Row : Type → Type 1
  | nil : Row Unit
  /-- A field that must be there. -/
  | required {α β : Type} (name : String) (shape : Shape α) (rest : Row β) : Row (α × β)
  /-- A field that may be absent. -/
  | defaulted {α β : Type} (name : String) (shape : Shape α) (rest : Row β) : Row (Option α × β)
  /-- A field that may be absent or null. -/
  | nullable {α β : Type} (name : String) (shape : Shape α) (rest : Row β) : Row (Option α × β)

end

/-- Refuses a value of another type; a value that is no container is first read to its end. -/
def readOther {α : Type} : Reader α
  | [] => .error .truncated
  | b :: s =>
    if b = 0x5B ∨ b = 0x7B then .error .wrongType
    else do
      let _ ← readScalar (b :: s)
      .error .wrongType

def readLeaf {α : Type} (accept : Json → Except ReadError α) : Reader α := fun s =>
  match skipBlanks s with
  | [] => .error .truncated
  | b :: s =>
    if b = 0x5B ∨ b = 0x7B then .error .wrongType
    else do
      let (v, s) ← readScalar (b :: s)
      let a ← accept v
      .ok (a, s)

def acceptText : Json → Except ReadError String
  | .string s => .ok s
  | _ => .error .wrongType

def acceptNull : Json → Except ReadError Unit
  | .null => .ok ()
  | _ => .error .wrongType

def acceptNatural (limit : Nat) : Json → Except ReadError Nat
  | .number (.integer n) => if 0 ≤ n ∧ n < limit then .ok n.toNat else .error .outOfRange
  | _ => .error .wrongType

def acceptDouble : Json → Except ReadError Double
  | .number (.integer n) => .ok (Double.ofInt n)
  | .number (.double x) => .ok x
  | _ => .error .wrongType

def known {α : Type} (ofToken? : String → Option α) (name : String) : Except ReadError α :=
  match ofToken? name with
  | some a => .ok a
  | none => .error .unknownName

/-- The name of a member; nothing but a string can be one. -/
def readName : Reader String := fun s =>
  match skipBlanks s with
  | [] => .error .truncated
  | b :: s => if b = 0x22 then readString s else .error .malformed

/-- A name of a vocabulary in either of its forms. -/
def readToken {α : Type} (room : Nat) (ofToken? : String → Option α) : Reader α := fun s =>
  match skipBlanks s with
  | [] => .error .truncated
  | b :: s =>
    if b = 0x22 then do
      let (name, s) ← readString s
      let a ← known ofToken? name
      .ok (a, s)
    else if b ≠ 0x7B ∨ room = 0 then .error .malformed
    else do
      let (name, s) ← readName s
      let a ← known ofToken? name
      let s ← readColon s
      let (_, s) ← readLeaf acceptNull s
      match skipBlanks s with
      | [] => .error .truncated
      | c :: s => if c = 0x7D then .ok (a, s) else .error .malformed

/-- The end of an array all of whose fields are read. -/
def readClose (s : List UInt8) : Except ReadError (List UInt8) :=
  match skipBlanks s with
  | [] => .error .truncated
  | b :: s => if b = 0x5D then .ok s else .error .malformed

def readNullable {α : Type} (value : Reader α) : Reader (Option α) := fun s =>
  match skipBlanks s with
  | [] => .error .truncated
  | b :: t =>
    if b = 0x6E then do
      let t ← readWord [0x75, 0x6C, 0x6C] t
      .ok (none, t)
    else do
      let (a, t) ← value s
      .ok (some a, t)

/-- What has been read of a record, field by field. -/
@[reducible] def Row.Slots : {α : Type} → Row α → Type
  | _, .nil => Unit
  | _, .required (α := α) _ _ rest => Option α × rest.Slots
  | _, .defaulted (α := α) _ _ rest => Option α × rest.Slots
  | _, .nullable (α := α) _ _ rest => Option (Option α) × rest.Slots

def Row.empty : {α : Type} → (row : Row α) → row.Slots
  | _, .nil => ()
  | _, .required _ _ rest => (none, rest.empty)
  | _, .defaulted _ _ rest => (none, rest.empty)
  | _, .nullable _ _ rest => (none, rest.empty)

/-- The record of what was read; the first required field without a value is named. -/
def Row.ofSlots : {α : Type} → (row : Row α) → row.Slots → Except ReadError α
  | _, .nil, _ => .ok ()
  | _, .required name _ rest, slots =>
    match slots.1 with
    | none => .error (.missingMember name)
    | some a => (rest.ofSlots slots.2).map fun b => (a, b)
  | _, .defaulted _ _ rest, slots => (rest.ofSlots slots.2).map fun b => (slots.1, b)
  | _, .nullable _ _ rest, slots => (rest.ofSlots slots.2).map fun b => (slots.1.join, b)

/-- Reads the value of a field into its slot, unless the slot is taken. -/
def readSlot {α : Type} (name : String) (value : Reader α) (slot : Option α) :
    Reader (Option α) := fun s =>
  match slot with
  | some _ => .error (.repeatedMember name)
  | none => do
    let s ← readColon s
    let (a, s) ← value s
    .ok (some a, s)

/-- Reads the next field of a record in array form, or finds the array at its end. -/
def readElement {α : Type} (value : Reader α) (first : Bool) : Reader (Option α) := fun s => do
  let (more, s) ← readSeparator 0x5D first s
  if more then
    let (a, s) ← value s
    .ok (some a, s)
  else .ok (none, s)

mutual

/-- Reads a value of a shape in which at most `room` containers are nested. -/
def Shape.read : {α : Type} → Shape α → Nat → Reader α
  | _, .leaf accept _, _ => readLeaf accept
  | _, .any, room => readValue room
  | _, .token ofToken? _, room => readToken room ofToken?
  | _, .list item, room => fun s =>
    match skipBlanks s with
    | [] => .error .truncated
    | b :: s =>
      if b ≠ 0x5B then readOther (b :: s)
      else match room with
        | 0 => .error .malformed
        | room + 1 => readItems (item.read room) (s.length + 1) true s
  | _, .dictionary ofName? _ value, room => fun s =>
    match skipBlanks s with
    | [] => .error .truncated
    | b :: s =>
      if b ≠ 0x7B then readOther (b :: s)
      else match room with
        | 0 => .error .malformed
        | room + 1 => do
          let (entries, s) ← readMembers (fun name entries s => do
            let k ← known ofName? name
            let s ← readColon s
            let (a, s) ← value.read room s
            .ok ((k, a) :: entries, s)) (s.length + 1) true [] s
          .ok (entries.reverse, s)
  | _, .record row, room => fun s =>
    match skipBlanks s with
    | [] => .error .truncated
    | b :: s =>
      if b = 0x5B then
        match room with
        | 0 => .error .malformed
        | room + 1 => do
          let (a, s) ← row.readElements room true s
          let s ← readClose s
          .ok (a, s)
      else if b = 0x7B then
        match room with
        | 0 => .error .malformed
        | room + 1 => do
          let (slots, s) ← readMembers (row.readMember room) (s.length + 1) true row.empty s
          let a ← row.ofSlots slots
          .ok (a, s)
      else readOther (b :: s)
  | _, .refine shape check _, room => fun s => do
    let (a, s) ← shape.read room s
    let b ← check a
    .ok (b, s)

/-- Reads the rest of a member into the slot of its field; an unknown member is passed over. -/
def Row.readMember : {α : Type} → (row : Row α) → Nat → String → row.Slots → Reader row.Slots
  | _, .nil, _, _, _ => fun s => do
    let s ← readColon s
    let s ← skipValue s
    .ok ((), s)
  | _, .required name shape rest, room, key, slots => fun s =>
    if key = name then do
      let (slot, s) ← readSlot name (shape.read room) slots.1 s
      .ok ((slot, slots.2), s)
    else do
      let (more, s) ← rest.readMember room key slots.2 s
      .ok ((slots.1, more), s)
  | _, .defaulted name shape rest, room, key, slots => fun s =>
    if key = name then do
      let (slot, s) ← readSlot name (shape.read room) slots.1 s
      .ok ((slot, slots.2), s)
    else do
      let (more, s) ← rest.readMember room key slots.2 s
      .ok ((slots.1, more), s)
  | _, .nullable name shape rest, room, key, slots => fun s =>
    if key = name then do
      let (slot, s) ← readSlot name (readNullable (shape.read room)) slots.1 s
      .ok ((slot, slots.2), s)
    else do
      let (more, s) ← rest.readMember room key slots.2 s
      .ok ((slots.1, more), s)

/-- Reads the fields of a record in array form; only fields that may be absent may be left out. -/
def Row.readElements : {α : Type} → Row α → Nat → Bool → Reader α
  | _, .nil, _, _, s => .ok ((), s)
  | _, .required _ shape rest, room, first, s => do
    let (slot, s) ← readElement (shape.read room) first s
    match slot with
    | none => .error .tooShort
    | some a => do
      let (b, s) ← rest.readElements room false s
      .ok ((a, b), s)
  | _, .defaulted _ shape rest, room, first, s => do
    let (slot, s) ← readElement (shape.read room) first s
    let (b, s) ← rest.readElements room false s
    .ok ((slot, b), s)
  | _, .nullable _ shape rest, room, first, s => do
    let (slot, s) ← readElement (readNullable (shape.read room)) first s
    let (b, s) ← rest.readElements room false s
    .ok ((slot.join, b), s)

end

mutual

/-- The JSON of a value of a shape; the members of a record stand in the order of its fields. -/
def Shape.toJson : {α : Type} → Shape α → α → Json
  | _, .leaf _ put, a => put a
  | _, .any, v => v
  | _, .token _ token, a => .string (token a)
  | _, .list item, l => .array (l.map item.toJson)
  | _, .dictionary _ name value, l => .object (l.map fun e => (name e.1, value.toJson e.2))
  | _, .record row, a => .object (row.toMembers a)
  | _, .refine shape _ forget, b => shape.toJson (forget b)

/-- The members of a record; a field without a value is left out. -/
def Row.toMembers : {α : Type} → Row α → α → List (String × Json)
  | _, .nil, () => []
  | _, .required name shape rest, (a, more) => (name, shape.toJson a) :: rest.toMembers more
  | _, .defaulted name shape rest, (slot, more) =>
    (slot.map fun a => (name, shape.toJson a)).toList ++ rest.toMembers more
  | _, .nullable name shape rest, (slot, more) =>
    (slot.map fun a => (name, shape.toJson a)).toList ++ rest.toMembers more

end

mutual

/-- The value of a shape that a JSON value holds, records being objects. -/
def Shape.ofJson : {α : Type} → Shape α → Json → Except ReadError α
  | _, .leaf accept _, v => accept v
  | _, .any, v => .ok v
  | _, .token ofToken? _, v =>
    match v with
    | .string name => known ofToken? name
    | .object [(name, .null)] => known ofToken? name
    | _ => .error .wrongType
  | _, .list item, v =>
    match v with
    | .array items => items.mapM item.ofJson
    | _ => .error .wrongType
  | _, .dictionary ofName? _ value, v =>
    match v with
    | .object members => members.mapM fun m => do
      let k ← known ofName? m.1
      let a ← value.ofJson m.2
      .ok (k, a)
    | _ => .error .wrongType
  | _, .record row, v =>
    match v with
    | .object members => row.ofMembers members
    | _ => .error .wrongType
  | _, .refine shape check _, v => do
    let a ← shape.ofJson v
    check a

def Row.ofMembers : {α : Type} → Row α → List (String × Json) → Except ReadError α
  | _, .nil, _ => .ok ()
  | _, .required name shape rest, members =>
    match Ascending.find? name members with
    | none => .error (.missingMember name)
    | some v => do
      let a ← shape.ofJson v
      let b ← rest.ofMembers members
      .ok (a, b)
  | _, .defaulted name shape rest, members => do
    let slot ← (Ascending.find? name members).mapM shape.ofJson
    let b ← rest.ofMembers members
    .ok (slot, b)
  | _, .nullable name shape rest, members => do
    let slot ← ((Ascending.find? name members).filter fun v => !v.isNull).mapM shape.ofJson
    let b ← rest.ofMembers members
    .ok (slot, b)

end

namespace Shape

def text : Shape String := .leaf acceptText .string

def uint64 : Shape UInt64 :=
  .leaf (fun v => (acceptNatural limit64 v).map UInt64.ofNat) fun n => .ofNat n.toNat

def uint32 : Shape UInt32 :=
  .leaf (fun v => (acceptNatural limit32 v).map UInt32.ofNat) fun n => .ofNat n.toNat

def double : Shape Double := .leaf acceptDouble fun x => .number (.double x)

def parse {α : Type} (shape : Shape α) (s : Octets) : Except ReadError α := do
  let r ← shape.read maxDepth s
  finish r

def render {α : Type} (shape : Shape α) (a : α) : String := (shape.toJson a).text

end Shape
end DeviceLink.Json
