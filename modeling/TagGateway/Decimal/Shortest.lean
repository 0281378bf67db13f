/-!
The fewest decimal digits that read back to a binary number. A positive double is m · 2^q; the
reals that round to it form an interval, closed when m is even. For 1, 2, … digits the two
neighbours of the number on that decimal grid are tried: the first grid with a neighbour inside
the interval gives the digits, of two neighbours the nearer, and an even last digit on a tie.
All arithmetic is exact.
-/

set_option autoImplicit false

namespace TagGateway.Decimal

structure Scaled where
  digits : Nat
  exponent : Int
  deriving DecidableEq, Repr

/-- A positive binary number with the quarters that bound what rounds to it:
`low · 2^(exponent-2)` up to `high · 2^(exponent-2)`, around `4 · significand`. -/
structure Binary where
  significand : Nat
  exponent : Int
  low : Nat
  high : Nat
  closed : Bool
  deriving DecidableEq, Repr

/-- The binary number of a positive finite double, from its bits. Below a power of two the
spacing halves, save at the smallest exponent. -/
def Binary.ofBits (bits : UInt64) : Binary :=
  let fraction : Nat := bits.toNat % 0x10000000000000
  let biased : Nat := bits.toNat / 0x10000000000000 % 0x800
  let m : Nat := if biased = 0 then fraction else 0x10000000000000 + fraction
  let q : Int := if biased = 0 then -1074 else (biased : Int) - 1075
  { significand := m
    exponent := q
    low := if fraction = 0 ∧ 1 < biased then 4 * m - 1 else 4 * m - 2
    high := 4 * m + 2
    closed := m % 2 = 0 }

def power (two ten : Int) : Nat × Nat :=
  (Nat.pow 2 two.toNat * Nat.pow 10 ten.toNat, Nat.pow 2 (-two).toNat * Nat.pow 10 (-ten).toNat)

def leading (n d : Nat) : Int :=
  if d ≤ n then ((Nat.toDigits 10 (n / d)).length : Int) - 1
  else -((Nat.toDigits 10 ((d - 1) / n)).length : Int)

def Binary.covers (b : Binary) (k : Int) (c : Nat) : Bool :=
  let (up, down) := power (2 - b.exponent) k
  let value := c * up
  if b.closed then b.low * down ≤ value && value ≤ b.high * down
  else b.low * down < value && value < b.high * down

def Binary.onGrid? (b : Binary) (k : Int) : Option Nat :=
  let (up, down) := power b.exponent (-k)
  let below := b.significand * up / down
  let rest := b.significand * up % down
  match b.covers k below, b.covers k (below + 1) with
  | true, true =>
    if 2 * rest < down then some below
    else if down < 2 * rest then some (below + 1)
    else some (if below % 2 = 0 then below else below + 1)
  | true, false => some below
  | false, true => some (below + 1)
  | false, false => none

def Scaled.strip : Nat → Scaled → Scaled
  | 0, s => s
  | fuel + 1, s =>
    if s.digits ≠ 0 ∧ s.digits % 10 = 0 then
      strip fuel { digits := s.digits / 10, exponent := s.exponent + 1 }
    else s

/-- Seventeen digits always suffice, so the last grid is never passed. -/
def Binary.shortest (b : Binary) : Scaled :=
  let (n, d) := power b.exponent 0
  let lead := leading (b.significand * n) d
  let found := (List.range 17).findSome? fun (i : Nat) =>
    let k := lead - (i : Int)
    (b.onGrid? k).map fun c => Scaled.mk c k
  match found with
  | some s => s.strip 17
  | none => { digits := b.significand, exponent := 0 }

def shortest (x : Float) : Scaled := (Binary.ofBits x.toBits).shortest

end TagGateway.Decimal
