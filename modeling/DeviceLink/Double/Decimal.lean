import DeviceLink.Double.Basic

/-! Doubles written as decimals in plain text. -/
namespace DeviceLink.Double

/-- The parts of a decimal: sign, digits before and after the point, and the exponent. -/
structure Numeral where
  negative : Bool
  whole : List Char
  fraction : List Char
  exponent : Int
  deriving DecidableEq, Repr

/-- A sign, if one stands first, and what follows it. -/
def signed : List Char → Bool × List Char
  | '-' :: s => (true, s)
  | '+' :: s => (false, s)
  | s => (false, s)

/-- The exponent part: nothing, or a letter with an optional sign and digits to the end. -/
def exponent? : List Char → Option Int
  | [] => some 0
  | c :: s =>
    let (negative, digits) := signed s
    if (c = 'e' ∨ c = 'E') ∧ digits ≠ [] ∧ digits.all Char.isDigit then
      let n : Int := Nat.ofDigitChars 10 digits 0
      some (if negative then -n else n)
    else none

/-- A decimal: an optional sign, digits with at most one point among or around them, and an
optional exponent part. -/
def numeral? (s : List Char) : Option Numeral :=
  let (negative, s) := signed s
  let whole := s.takeWhile Char.isDigit
  let rest := s.dropWhile Char.isDigit
  let (fraction, rest) := match rest with
    | '.' :: t => (t.takeWhile Char.isDigit, t.dropWhile Char.isDigit)
    | t => ([], t)
  if whole = [] ∧ fraction = [] then none
  else (exponent? rest).map fun e => ⟨negative, whole, fraction, e⟩

def Numeral.value (n : Numeral) : Double :=
  withSign n.negative
    (ofDecimal (Nat.ofDigitChars 10 (n.whole ++ n.fraction) 0) (n.exponent - n.fraction.length))

def read? (s : List Char) : Option Double := (numeral? s).map Numeral.value

end DeviceLink.Double
