import DeviceLink.Power

/-! Double-precision numbers by their bits, with exactly rounded conversion from ratios. -/
namespace DeviceLink

/-- A double-precision number, given by its sixty-four bits. -/
structure Double where
  bits : UInt64
  deriving DecidableEq, Repr

namespace Double

/-- The bits below the sign. -/
def magnitudeBits (x : Double) : Nat := x.bits.toNat % twoTo 63

def isNegative (x : Double) : Bool := twoTo 63 ≤ x.bits.toNat

/-- The magnitude bits of infinity; above them lie the numbers that are not any number. -/
def infinityBits : Nat := 2047 * twoTo 52

/-- A number proper: neither infinite nor undefined. -/
def isFinite (x : Double) : Bool := x.magnitudeBits < infinityBits

def isInfinite (x : Double) : Bool := x.magnitudeBits = infinityBits

def isZero (x : Double) : Bool := x.magnitudeBits = 0

def ofMagnitude (negative : Bool) (magnitude : Nat) : Double :=
  ⟨UInt64.ofNat (if negative then twoTo 63 + magnitude else magnitude)⟩

def withSign (negative : Bool) (x : Double) : Double := ofMagnitude negative x.magnitudeBits

def zero : Double := ofMagnitude false 0

def infinity : Double := ofMagnitude false infinityBits

def undefinedValue : Double := ofMagnitude false (infinityBits + twoTo 51)

/-- The whole significand of a finite number. -/
def significand (x : Double) : Nat :=
  if x.magnitudeBits < twoTo 52 then x.magnitudeBits else twoTo 52 + x.magnitudeBits % twoTo 52

/-- The power of two, shifted by 1074, that a finite number's significand is multiplied by. -/
def scale (x : Double) : Nat := x.magnitudeBits / twoTo 52 - 1

/-- The magnitude of a finite number as a ratio. -/
def ratio (x : Double) : Nat × Nat := (x.significand * twoTo x.scale, twoTo 1074)

/-- The whole number nearest to `n / d`, an even one when two are equally near. -/
def roundHalfEven (n d : Nat) : Nat :=
  let q := n / d
  let r := n % d
  if 2 * r < d then q else if d < 2 * r then q + 1 else q + q % 2

/-- The scale at which `n / d` has a significand of 53 bits, or the least scale. -/
def scaleOfRatio (n d : Nat) : Nat :=
  let guess := n.log2 + 1022 - d.log2
  if n * twoTo 1074 < d * twoTo (guess + 52) then guess - 1 else guess

/-- The double nearest to `n / d`, an even one when two are equally near. -/
def ofRatio (n d : Nat) : Double :=
  let s := scaleOfRatio n d
  let m := roundHalfEven (n * twoTo 1074) (d * twoTo s)
  ofMagnitude false (min infinityBits (if m < twoTo 52 then m else s * twoTo 52 + m))

def ofNat (n : Nat) : Double := ofRatio n 1

def ofInt (n : Int) : Double := if n < 0 then withSign true (ofNat n.natAbs) else ofNat n.natAbs

/-- The rounded product of two finite magnitudes. -/
def mul (x y : Double) : Double :=
  ofRatio (x.ratio.1 * y.ratio.1) (x.ratio.2 * y.ratio.2)

/-- The rounded quotient of two finite magnitudes, the second not zero. -/
def div (x y : Double) : Double :=
  ofRatio (x.ratio.1 * y.ratio.2) (x.ratio.2 * y.ratio.1)

/-- The double nearest to `n · 10 ^ e`; beyond the range it is infinite. -/
def ofDecimal (n : Nat) (e : Int) : Double :=
  if n = 0 then zero
  else
    let size : Int := (Nat.toDigits 10 n).length + e
    if 310 < size then infinity
    else if size < -330 then zero
    else if 0 ≤ e then ofNat (n * tenTo e.toNat)
    else ofRatio n (tenTo (-e).toNat)

end Double
end DeviceLink
