import DeviceLink.Json.Basic
import DeviceLink.Json.Error

/-! Number literals: their grammar, and the number a literal stands for. -/
namespace DeviceLink.Json

def isDigit (b : UInt8) : Bool := 0x30 ≤ b && b ≤ 0x39

def digitValue (b : UInt8) : Nat := b.toNat - 0x30

/-- The digits at the front, as numbers, and the rest. -/
def spanDigits (s : List UInt8) : List Nat × List UInt8 :=
  ((s.takeWhile isDigit).map digitValue, s.dropWhile isDigit)

/-- A number literal without its sign. -/
structure Literal where
  /-- The digits before the point. -/
  whole : List Nat
  /-- The digits after the point, if there is one. -/
  fraction : Option (List Nat)
  /-- The sign and digits of the exponent, if there is one. -/
  exponent : Option (Bool × List Nat)
  deriving DecidableEq, Repr

namespace Literal

/-- The digits before the point: a zero alone, or digits that start with another one. -/
def readWhole : Reader (List Nat)
  | [] => .error .truncated
  | b :: s =>
    if b = 0x30 then
      match s with
      | c :: _ => if isDigit c then .error .malformed else .ok ([0], s)
      | [] => .ok ([0], s)
    else if isDigit b then .ok (spanDigits (b :: s))
    else .error .malformed

def readDigits (s : List UInt8) : Except ReadError (List Nat × List UInt8) :=
  match s with
  | [] => .error .truncated
  | b :: _ => if isDigit b then .ok (spanDigits s) else .error .malformed

/-- A point and the digits after it, if a point stands first. -/
def readFraction : Reader (Option (List Nat))
  | 0x2E :: s => do
    let (digits, s) ← readDigits s
    .ok (some digits, s)
  | s => .ok (none, s)

/-- A sign, if one stands first; true for minus. -/
def readSign : List UInt8 → Bool × List UInt8
  | 0x2B :: s => (false, s)
  | 0x2D :: s => (true, s)
  | s => (false, s)

def isExponentMark (b : UInt8) : Bool := b = 0x65 || b = 0x45

def readExponent : Reader (Option (Bool × List Nat))
  | [] => .ok (none, [])
  | b :: s =>
    if isExponentMark b then do
      let (negative, s) := readSign s
      let (digits, s) ← readDigits s
      .ok (some (negative, digits), s)
    else .ok (none, b :: s)

def read : Reader Literal := fun s => do
  let (whole, s) ← readWhole s
  let (fraction, s) ← readFraction s
  let (exponent, s) ← readExponent s
  .ok (⟨whole, fraction, exponent⟩, s)

/-- Digits are gathered into a significand until the next would take it past 64 bits; the second
part counts the digits that are left. -/
def gather : Nat → List Nat → Nat × Nat
  | m, [] => (m, 0)
  | m, d :: rest => if m * 10 + d < limit64 then gather (m * 10 + d) rest else (m, rest.length + 1)

/-- The digits of an exponent, or nothing when they exceed 31 bits. -/
def exponentValue? (digits : List Nat) : Option Nat :=
  let n := digits.foldl (fun n d => n * 10 + d) 0
  if n < limit31 then some n else none

/-- `m · 10 ^ e` in at most two roundings after that of `m`: the power is rounded on its own, and
below the least power the division is done in two steps. A result past all doubles is refused. -/
def scaled? (m : Nat) (e : Int) : Option Double :=
  let f := Double.ofNat m
  if 308 < e then if f.isZero then some f else none
  else if 0 ≤ e then
    let x := f.mul (Double.ofDecimal 1 e)
    if x.isInfinite then none else some x
  else if -308 ≤ e then some (f.div (Double.ofDecimal 1 (-e)))
  else if -616 ≤ e then
    some ((f.div (Double.ofDecimal 1 308)).div (Double.ofDecimal 1 (-e - 308)))
  else some .zero

/-- The magnitude of a literal that is no whole number of 64 bits. -/
def magnitude? (l : Literal) : Option Double :=
  let (m, dropped) := gather 0 l.whole
  let fraction := l.fraction.getD []
  let (m, ignored) := gather m fraction
  let start : Int := (dropped : Int) - ((fraction.length - ignored : Nat) : Int)
  match l.exponent with
  | none => scaled? m start
  | some (negative, digits) =>
    match exponentValue? digits with
    | some e => scaled? m (if negative then start - e else start + e)
    | none => if m = 0 ∨ negative then some .zero else none

/-- The number of a literal: whole numbers within 64 bits stay whole, negative zero and all
others are doubles. -/
def number? (negative : Bool) (l : Literal) : Option Number :=
  let (m, dropped) := gather 0 l.whole
  if l.fraction = none ∧ l.exponent = none ∧ dropped = 0 ∧
      (negative = false ∨ (0 < m ∧ m ≤ limit63)) then
    some (.integer (if negative then -m else m))
  else (l.magnitude?).map fun x => .double (x.withSign negative)

end Literal

def readNumber (negative : Bool) : Reader Number := fun s => do
  let (l, s) ← Literal.read s
  match l.number? negative with
  | some n => .ok (n, s)
  | none => .error .malformed

/-- Passes over a number after its sign; one that is cut short is malformed here. -/
def skipNumber (s : List UInt8) : Except ReadError (List UInt8) :=
  match Literal.read s with
  | .ok (_, s) => .ok s
  | .error _ => .error .malformed

end DeviceLink.Json
