import DeviceLink.Double.Basic

/-! The fewest decimal digits that round to a double. -/
namespace DeviceLink.Double

/-- Which of two equally near decimals is taken. -/
inductive Tie
  /-- The one whose last digit is even. -/
  | even
  /-- The larger one. -/
  | up
  deriving DecidableEq, Repr

/-- The decimal `count · 10 ^ (place - 400)`. -/
structure Decimal where
  count : Nat
  place : Nat
  deriving DecidableEq, Repr

namespace Decimal

/-- The numerator of a decimal over `10 ^ 400`. -/
def numerator (c : Decimal) : Nat := c.count * tenTo c.place

/-- Trailing zeros of the count become part of the place; `fuel` bounds their number. -/
def normalizeFrom : Nat → Decimal → Decimal
  | 0, c => c
  | fuel + 1, c =>
    if c.count ≠ 0 ∧ c.count % 10 = 0 then normalizeFrom fuel ⟨c.count / 10, c.place + 1⟩ else c

/-- A count of at most 17 digits without trailing zeros. -/
def normalize (c : Decimal) : Decimal := normalizeFrom 17 c

end Decimal

/-- Four times the ratio of a finite magnitude, with the ends of the interval that rounds to it,
all over `2 ^ 1076`: below a power of two the neighbour is half as far. -/
def interval (x : Double) : Nat × Nat × Nat :=
  let step := twoTo x.scale
  let mid := 4 * (x.significand * step)
  let lower := if x.significand = twoTo 52 ∧ 0 < x.scale then step else 2 * step
  (mid - lower, mid, mid + 2 * step)

/-- Whether a decimal rounds to `x`: the ends of the interval do when the significand is even. -/
def roundsFrom (x : Double) (c : Decimal) : Bool :=
  let (low, _, high) := x.interval
  let here := c.numerator * twoTo 1076
  let low := low * tenTo 400
  let high := high * tenTo 400
  if x.significand % 2 = 0 then low ≤ here && here ≤ high else low < here && here < high

def leadingPlace (x : Double) : Nat :=
  let n := x.ratio.1 * tenTo 400
  (Nat.toDigits 10 (n / x.ratio.2)).length - 1

def nearer (tie : Tie) (x : Double) (down up : Decimal) : Decimal :=
  let mid := x.interval.2.1 * tenTo 400
  let below := mid - down.numerator * twoTo 1076
  let above := up.numerator * twoTo 1076 - mid
  if below < above then down
  else if above < below then up
  else match tie with
    | .even => if down.count % 2 = 0 then down else up
    | .up => up

/-- The decimal of the grid with its last digit at `place` that rounds to `x`, if there is one. -/
def onGrid? (tie : Tie) (x : Double) (place : Nat) : Option Decimal :=
  let floor := x.ratio.1 * tenTo 400 / (x.ratio.2 * tenTo place)
  let down : Decimal := ⟨floor, place⟩
  let up : Decimal := ⟨floor + 1, place⟩
  match x.roundsFrom down, x.roundsFrom up with
  | true, true => some (nearer tie x down up)
  | true, false => some down
  | false, true => some up
  | false, false => none

/-- The decimal with the fewest digits that rounds to a positive finite magnitude, and the
nearest of those. -/
def shortest (tie : Tie) (x : Double) : Decimal :=
  let top := x.leadingPlace
  (((List.range 17).findSome? fun n => onGrid? tie x (top - n)).getD
    ⟨x.ratio.1 * tenTo 400 / x.ratio.2, 0⟩).normalize

end DeviceLink.Double
