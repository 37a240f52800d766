import DeviceLink.Text.Utf8

/-! Base64 in the standard alphabet: always padded, and read only in the form that is written. -/
namespace DeviceLink.Text.Base64

def symbol (n : Nat) : Char :=
  if n < 26 then Char.ofNat (n + 65)
  else if n < 52 then Char.ofNat (n + 71)
  else if n < 62 then Char.ofNat (n - 4)
  else if n = 62 then '+' else '/'

/-- The six-bit number of a symbol; padding is not a symbol. -/
def value? (c : Char) : Option Nat :=
  let n := c.toNat
  if 65 ≤ n && n ≤ 90 then some (n - 65)
  else if 97 ≤ n && n ≤ 122 then some (n - 71)
  else if 48 ≤ n && n ≤ 57 then some (n + 4)
  else if n = 43 then some 62
  else if n = 47 then some 63
  else none

/-- Three octets become four symbols; a shorter last group is padded to four. -/
def encode : Octets → List Char
  | [] => []
  | [a] => [symbol (a.toNat / 4), symbol (a.toNat % 4 * 16), '=', '=']
  | [a, b] =>
    [symbol (a.toNat / 4), symbol (a.toNat % 4 * 16 + b.toNat / 16), symbol (b.toNat % 16 * 4), '=']
  | a :: b :: c :: rest =>
    symbol (a.toNat / 4) :: symbol (a.toNat % 4 * 16 + b.toNat / 16) ::
      symbol (b.toNat % 16 * 4 + c.toNat / 64) :: symbol (c.toNat % 64) :: encode rest

/-- The one octet of a last group with two pads, whose spare bits must be zero. -/
def lastOctet? (p q : Char) : Option Octets := do
  let a ← value? p
  let b ← value? q
  if b % 16 = 0 then some [UInt8.ofNat (a * 4 + b / 16)] else none

/-- The two octets of a last group with one pad, whose spare bits must be zero. -/
def lastOctets? (p q r : Char) : Option Octets := do
  let a ← value? p
  let b ← value? q
  let c ← value? r
  if c % 4 = 0 then some [UInt8.ofNat (a * 4 + b / 16), UInt8.ofNat (b % 16 * 16 + c / 4)] else none

/-- Reads whole groups; padding may stand in the last group only. -/
def decode? : List Char → Option Octets
  | [] => some []
  | [p, q, '=', '='] => lastOctet? p q
  | [p, q, r, '='] => lastOctets? p q r
  | p :: q :: r :: s :: rest => do
    let a ← value? p
    let b ← value? q
    let c ← value? r
    let d ← value? s
    let more ← decode? rest
    some (UInt8.ofNat (a * 4 + b / 16) :: UInt8.ofNat (b % 16 * 16 + c / 4) ::
      UInt8.ofNat (c % 4 * 64 + d) :: more)
  | _ => none

end DeviceLink.Text.Base64
