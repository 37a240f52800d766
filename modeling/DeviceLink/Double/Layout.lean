import DeviceLink.Double.Shortest

/-! How the digits of a double are laid out. -/
namespace DeviceLink.Double

structure Layout where
  /-- The decimal exponents of numbers that are written without an exponent part. -/
  positional : Int → Bool
  /-- Whether a whole number keeps a point and a zero. -/
  keepsPoint : Bool
  tie : Tie

namespace Layout

/-- In JSON numbers from 1e-5 up to 1e16 are written out with a point, all others with an exponent,
and of two equally near digit strings the even one is taken. These are the habits of the writer in
use; others lay out the same numbers with other bounds, or without a `+` before an exponent. -/
def json : Layout := ⟨fun e => -5 ≤ e && e < 16, true, .even⟩

/-- Plain text never has an exponent, and of two equally near digit strings takes the larger. -/
def plain : Layout := ⟨fun _ => true, false, .up⟩

end Layout

/-- Digits with the point after the first `whole` of them, zeros filling the gaps. -/
def placePoint (keepsPoint : Bool) (digits : List Char) (whole : Int) : List Char :=
  if whole ≤ 0 then '0' :: '.' :: List.replicate whole.natAbs '0' ++ digits
  else
    let w := whole.toNat
    if digits.length ≤ w then
      digits ++ List.replicate (w - digits.length) '0' ++ (if keepsPoint then ['.', '0'] else [])
    else digits.take w ++ '.' :: digits.drop w

/-- Digits with a point after the first and the exponent of that first digit, always with a sign. -/
def withExponent (digits : List Char) (exponent : Int) : List Char :=
  let mantissa := match digits with
    | [] => []
    | [d] => [d]
    | d :: more => d :: '.' :: more
  mantissa ++ 'e' :: (if exponent < 0 then '-' else '+') :: Nat.toDigits 10 exponent.natAbs

def text (layout : Layout) (x : Double) : List Char :=
  if !x.isFinite && !x.isInfinite then ['N', 'a', 'N']
  else
    let magnitude :=
      if x.isInfinite then ['i', 'n', 'f']
      else if x.isZero then '0' :: (if layout.keepsPoint then ['.', '0'] else [])
      else
        let c := x.shortest layout.tie
        let digits := Nat.toDigits 10 c.count
        let exponent : Int := (c.place : Int) + digits.length - 1 - 400
        if layout.positional exponent then placePoint layout.keepsPoint digits (exponent + 1)
        else withExponent digits exponent
    if x.isNegative then '-' :: magnitude else magnitude

end DeviceLink.Double
