import DeviceLink.Json.Number
import DeviceLink.Text.Utf8

/-! Reading JSON values of any type from octets. -/
namespace DeviceLink.Json

/-- White space between tokens: space, tab, line feed and carriage return. -/
def isBlank (b : UInt8) : Bool := b = 0x20 || b = 0x09 || b = 0x0A || b = 0x0D

def skipBlanks (s : List UInt8) : List UInt8 := s.dropWhile isBlank

def readWord : List UInt8 → List UInt8 → Except ReadError (List UInt8)
  | [], s => .ok s
  | _ :: _, [] => .error .truncated
  | w :: word, b :: s => if w = b then readWord word s else .error .malformed

def hexValue? (b : UInt8) : Option Nat :=
  let c := Char.ofNat b.toNat
  if Text.isHexDigit c then some (Text.hexDigitValue c) else none

/-- Four hexadecimal digits; fewer than four octets are a cut input, whatever they are. -/
def readHex4 : Reader Nat
  | a :: b :: c :: d :: s =>
    match hexValue? a, hexValue? b, hexValue? c, hexValue? d with
    | some a, some b, some c, some d => .ok (((a * 16 + b) * 16 + c) * 16 + d, s)
    | _, _, _, _ => .error .malformed
  | _ => .error .truncated

/-- The second half of a surrogate pair whose first half is `high`. -/
def readLowSurrogate (high : Nat) : Reader Char
  | [] => .error .truncated
  | b :: s =>
    if b ≠ 0x5C then .error .malformed
    else match s with
      | [] => .error .truncated
      | c :: s =>
        if c ≠ 0x75 then .error .malformed
        else do
          let (low, s) ← readHex4 s
          if 0xDC00 ≤ low ∧ low ≤ 0xDFFF then
            .ok (Char.ofNat ((high - 0xD800) * 1024 + (low - 0xDC00) + 0x10000), s)
          else .error .malformed

/-- The character of an escape, after the backslash; surrogates must come in pairs. -/
def readEscape : Reader Char
  | [] => .error .truncated
  | b :: s =>
    if b = 0x22 ∨ b = 0x5C ∨ b = 0x2F then .ok (Char.ofNat b.toNat, s)
    else if b = 0x62 then .ok (Char.ofNat 8, s)
    else if b = 0x66 then .ok (Char.ofNat 12, s)
    else if b = 0x6E then .ok ('\n', s)
    else if b = 0x72 then .ok ('\r', s)
    else if b = 0x74 then .ok ('\t', s)
    else if b = 0x75 then do
      let (n, s) ← readHex4 s
      if n < 0xD800 ∨ 0xDFFF < n then .ok (Char.ofNat n, s)
      else if 0xDC00 ≤ n then .error .malformed
      else readLowSurrogate n s
    else .error .malformed

/-- The octets of a string after its opening quote, escapes resolved. The fuel is an upper bound
for the number of characters. -/
def readBody : Nat → Octets → Reader Octets
  | 0, _, _ => .error .truncated
  | _ + 1, _, [] => .error .truncated
  | fuel + 1, body, b :: s =>
    if b = 0x22 then .ok (body.reverse, s)
    else if b = 0x5C then do
      let (c, s) ← readEscape s
      readBody fuel ((String.utf8EncodeChar c).reverse ++ body) s
    else if b < 0x20 then .error .malformed
    else readBody fuel (b :: body) s

/-- A string after its opening quote; its octets must be UTF-8. -/
def readString : Reader String := fun s => do
  let (body, s) ← readBody (s.length + 1) [] s
  match Text.decode? body with
  | some text => .ok (text, s)
  | none => .error .malformed

/-- A value that is no container, from its first octet on. -/
def readScalar : Reader Json
  | [] => .error .truncated
  | b :: s =>
    if b = 0x6E then do
      let s ← readWord [0x75, 0x6C, 0x6C] s
      .ok (.null, s)
    else if b = 0x74 then do
      let s ← readWord [0x72, 0x75, 0x65] s
      .ok (.bool true, s)
    else if b = 0x66 then do
      let s ← readWord [0x61, 0x6C, 0x73, 0x65] s
      .ok (.bool false, s)
    else if b = 0x2D then do
      let (n, s) ← readNumber true s
      .ok (.number n, s)
    else if isDigit b then do
      let (n, s) ← readNumber false (b :: s)
      .ok (.number n, s)
    else if b = 0x22 then do
      let (text, s) ← readString s
      .ok (.string text, s)
    else .error .malformed

/-- What stands between two items of a container: nothing before the first, a comma before any
other. True when an item follows, false at the closing octet, which is left in place. -/
def readSeparator (close : UInt8) (first : Bool) (s : List UInt8) :
    Except ReadError (Bool × List UInt8) :=
  match skipBlanks s with
  | [] => .error .truncated
  | b :: s =>
    if b = close then .ok (false, b :: s)
    else if first then .ok (true, b :: s)
    else if b ≠ 0x2C then .error .malformed
    else match skipBlanks s with
      | [] => .error .truncated
      | c :: s => if c = close then .error .malformed else .ok (true, c :: s)

/-- Items up to the end of an array, its opening bracket read. The fuel is an upper bound for
their number. -/
def readItems {α : Type} (item : Reader α) : Nat → Bool → Reader (List α)
  | 0, _, _ => .error .malformed
  | fuel + 1, first, s => do
    let (more, s) ← readSeparator 0x5D first s
    if more then do
      let (a, s) ← item s
      let (rest, s) ← readItems item fuel false s
      .ok (a :: rest, s)
    else .ok ([], s.drop 1)

def readColon (s : List UInt8) : Except ReadError (List UInt8) :=
  match skipBlanks s with
  | [] => .error .truncated
  | b :: s => if b = 0x3A then .ok s else .error .malformed

/-- Members up to the end of an object, its opening brace read. Each name is handed to `member`,
which reads the rest of the member into the state. The fuel is an upper bound for their number. -/
def readMembers {σ : Type} (member : String → σ → Reader σ) : Nat → Bool → σ → Reader σ
  | 0, _, _, _ => .error .malformed
  | fuel + 1, first, state, s => do
    let (more, s) ← readSeparator 0x7D first s
    if more then
      match s with
      | [] => .error .truncated
      | b :: s =>
        if b ≠ 0x22 then .error .malformed
        else do
          let (name, s) ← readString s
          let (state, s) ← member name state s
          readMembers member fuel false state s
    else .ok (state, s.drop 1)

/-- A value in which at most `room` containers are nested; of members with equal names the last
one counts, and members are kept in ascending order. -/
def readValue : Nat → Reader Json
  | 0, s =>
    match skipBlanks s with
    | [] => .error .truncated
    | b :: s => if b = 0x5B ∨ b = 0x7B then .error .malformed else readScalar (b :: s)
  | room + 1, s =>
    match skipBlanks s with
    | [] => .error .truncated
    | b :: s =>
      if b = 0x5B then do
        let (items, s) ← readItems (readValue room) (s.length + 1) true s
        .ok (.array items, s)
      else if b = 0x7B then do
        let (members, s) ← readMembers (readMember room) (s.length + 1) true [] s
        .ok (.object members, s)
      else readScalar (b :: s)
where
  /-- The value of a member, set under its name. -/
  readMember (room : Nat) (name : String) (members : List (String × Json)) :
      Reader (List (String × Json)) := fun s => do
    let s ← readColon s
    let (v, s) ← readValue room s
    .ok (Ascending.insert name v members, s)

def maxDepth : Nat := 127

/-- Nothing but white space may follow the value of a text. -/
def finish {α : Type} : α × List UInt8 → Except ReadError α
  | (a, s) => if skipBlanks s = [] then .ok a else .error .malformed

def parse (s : Octets) : Except ReadError Json := do
  let r ← readValue maxDepth s
  finish r

/-- Passes over the rest of a string, whose octets and surrogates are not looked at. -/
def skipBody : Nat → List UInt8 → Except ReadError (List UInt8)
  | 0, _ => .error .truncated
  | _ + 1, [] => .error .truncated
  | fuel + 1, b :: s =>
    if b = 0x22 then .ok s
    else if b = 0x5C then
      match s with
      | [] => .error .truncated
      | c :: t =>
        if c = 0x75 then do
          let (_, t) ← readHex4 t
          skipBody fuel t
        else do
          let (_, t) ← readEscape (c :: t)
          skipBody fuel t
    else if b < 0x20 then .error .malformed
    else skipBody fuel s

def skipString (s : List UInt8) : Except ReadError (List UInt8) := skipBody (s.length + 1) s

def skipScalar : List UInt8 → Except ReadError (List UInt8)
  | [] => .error .truncated
  | b :: s =>
    if b = 0x22 then skipString s
    else if b = 0x2D then skipNumber s
    else if isDigit b then skipNumber (b :: s)
    else do
      let (_, s) ← readScalar (b :: s)
      .ok s

/-- Passes over members of an object; their names are not looked at either. -/
def skipMembers (value : List UInt8 → Except ReadError (List UInt8)) :
    Nat → Bool → List UInt8 → Except ReadError (List UInt8)
  | 0, _, _ => .error .malformed
  | fuel + 1, first, s => do
    let (more, s) ← readSeparator 0x7D first s
    if more then
      match s with
      | [] => .error .truncated
      | b :: s =>
        if b ≠ 0x22 then .error .malformed
        else do
          let s ← skipString s
          let s ← readColon s
          let s ← value s
          skipMembers value fuel false s
    else .ok (s.drop 1)

/-- Passes over a value of any depth; the fuel is an upper bound for that depth. -/
def skipValueFrom : Nat → List UInt8 → Except ReadError (List UInt8)
  | 0, _ => .error .malformed
  | fuel + 1, s =>
    match skipBlanks s with
    | [] => .error .truncated
    | b :: s =>
      if b = 0x5B then do
        let (_, s) ← readItems (fun s => (skipValueFrom fuel s).map fun s => ((), s))
          (s.length + 1) true s
        .ok s
      else if b = 0x7B then skipMembers (skipValueFrom fuel) (s.length + 1) true s
      else skipScalar (b :: s)

/-- Passes over a value that nobody asks for: only its bracket structure, words, escapes and the
shape of its numbers are checked. -/
def skipValue (s : List UInt8) : Except ReadError (List UInt8) := skipValueFrom (s.length + 1) s

end DeviceLink.Json
