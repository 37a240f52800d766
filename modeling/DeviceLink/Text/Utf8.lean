/-! Text as octets in UTF-8: writing, strict reading, and reading with a replacement character. -/
namespace DeviceLink

/-- The raw content of a payload or a file. -/
abbrev Octets := List UInt8

namespace Text

def encode (s : String) : Octets := s.toList.flatMap String.utf8EncodeChar

def isTail (b : UInt8) : Bool := 0x80 ≤ b && b ≤ 0xBF

/-- Whether `b` may follow the lead octet `a`: this rules out overlong forms, surrogates and
everything above U+10FFFF, and holds of no `b` when `a` leads nothing. -/
def follows (a b : UInt8) : Bool :=
  if a < 0xC2 || 0xF4 < a then false
  else if a = 0xE0 then 0xA0 ≤ b && b ≤ 0xBF
  else if a = 0xED then 0x80 ≤ b && b ≤ 0x9F
  else if a = 0xF0 then 0x90 ≤ b && b ≤ 0xBF
  else if a = 0xF4 then 0x80 ≤ b && b ≤ 0x8F
  else isTail b

def tailBits (b : UInt8) : Nat := b.toNat % 64

/-- What the octet `a`, followed by `t`, begins: a character, or nothing when it goes wrong, with
the number of octets of `t` that belong to it. -/
def unit (a : UInt8) (t : Octets) : Option Char × Nat :=
  if a < 0x80 then (some (Char.ofNat a.toNat), 0)
  else match t with
    | [] => (none, 0)
    | b :: u =>
      if !follows a b then (none, 0)
      else if a < 0xE0 then (some (Char.ofNat (a.toNat % 32 * 64 + tailBits b)), 1)
      else match u with
        | [] => (none, 1)
        | c :: v =>
          if !isTail c then (none, 1)
          else if a < 0xF0 then
            (some (Char.ofNat ((a.toNat % 16 * 64 + tailBits b) * 64 + tailBits c)), 2)
          else match v with
            | [] => (none, 2)
            | d :: _ =>
              if !isTail d then (none, 2)
              else (some (Char.ofNat
                (((a.toNat % 8 * 64 + tailBits b) * 64 + tailBits c) * 64 + tailBits d)), 3)

/-- The units of the octets after the first `skip` of them. -/
def scanFrom : Nat → Octets → List (Option Char)
  | _, [] => []
  | skip + 1, _ :: t => scanFrom skip t
  | 0, a :: t => (unit a t).1 :: scanFrom (unit a t).2 t

/-- The characters of the octets; each longest run that starts a character without ending it
counts as one fault, written `none`. -/
def scan (octets : Octets) : List (Option Char) := scanFrom 0 octets

/-- The text of well-formed octets, and nothing for any others. -/
def decode? (octets : Octets) : Option String := ((scan octets).mapM id).map String.ofList

/-- The text of any octets, with U+FFFD for each fault. -/
def decodeLossy (octets : Octets) : String :=
  String.ofList ((scan octets).map fun c => c.getD '\uFFFD')

/-- The Unicode property White_Space. -/
def isWhiteSpace (c : Char) : Bool :=
  let n := c.toNat
  (9 ≤ n && n ≤ 13) || n == 0x20 || n == 0x85 || n == 0xA0 || n == 0x1680 ||
    (0x2000 ≤ n && n ≤ 0x200A) || n == 0x2028 || n == 0x2029 || n == 0x202F || n == 0x205F ||
    n == 0x3000

def trim (s : List Char) : List Char :=
  ((s.dropWhile isWhiteSpace).reverse.dropWhile isWhiteSpace).reverse

/-- Every double quote is removed, wherever it stands. -/
def removeQuotes (s : String) : String := String.ofList (s.toList.filter (· != '"'))

end Text
end DeviceLink
