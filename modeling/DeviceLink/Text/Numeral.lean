/-! Numerals: how whole numbers are written, and the spellings that are read back. -/
namespace DeviceLink

/-- One past the largest unsigned 64-bit number. -/
abbrev limit64 : Nat := 18446744073709551616

abbrev limit63 : Nat := 9223372036854775808

abbrev limit32 : Nat := 4294967296

abbrev limit31 : Nat := 2147483648

namespace Text

/-- The decimal numeral of a natural number, without leading zeros. -/
def decimal (n : Nat) : List Char := Nat.toDigits 10 n

/-- The decimal numeral of a whole number; a sign stands before negative numbers only. -/
def decimalInt : Int → List Char
  | .ofNat n => decimal n
  | .negSucc n => '-' :: decimal (n + 1)

def isHexDigit (c : Char) : Bool :=
  c.isDigit || ('a' ≤ c && c ≤ 'f') || ('A' ≤ c && c ≤ 'F')

def hexDigitValue (c : Char) : Nat :=
  if c.isDigit then c.toNat - 48 else if c ≤ 'F' then c.toNat - 55 else c.toNat - 87

/-- The value of a numeral: ASCII digits, at least one, leading zeros allowed. -/
def digits? (s : List Char) : Option Nat :=
  if s ≠ [] ∧ s.all Char.isDigit then some (Nat.ofDigitChars 10 s 0) else none

/-- The value of a hexadecimal numeral: at least one digit, of either case. -/
def hexDigits? (s : List Char) : Option Nat :=
  if s ≠ [] ∧ s.all isHexDigit then some (s.foldl (fun n c => n * 16 + hexDigitValue c) 0) else none

def below? (limit : Nat) (n : Option Nat) : Option Nat := n.filter (· < limit)

/-- A numeral below a limit, with a plus sign allowed before it. -/
def natural? (limit : Nat) : List Char → Option Nat
  | '+' :: s => below? limit (digits? s)
  | s => below? limit (digits? s)

def hexOctet (b : UInt8) : List Char :=
  [Nat.digitChar (b.toNat / 16), Nat.digitChar (b.toNat % 16)]

end Text
end DeviceLink
