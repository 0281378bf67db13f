import TagGateway.Json.Basic

/-!
JSON numerals and their values. A numeral without fraction and exponent is an integer if 64 bits
hold it. Any other is a double computed from its leading digits, as many as fit 64 bits, by one
multiplication or division by a power of ten; the digits past those only count as places.
-/

set_option autoImplicit false

namespace TagGateway.Json

structure Numeral where
  negative : Bool
  whole : List Char
  fraction : Option (List Char)
  exponent : Option (Bool × List Char)
  deriving DecidableEq, Repr

namespace Numeral

def wholeOk : List Char → Bool
  | [] => false
  | [_] => true
  | first :: _ => first != '0'

def splitFraction : List Char → Option (Option (List Char) × List Char)
  | '.' :: rest =>
    let digits := rest.takeWhile Char.isDigit
    if digits.isEmpty then none else some (some digits, rest.dropWhile Char.isDigit)
  | rest => some (none, rest)

def splitSign : List Char → Bool × List Char
  | '+' :: rest => (false, rest)
  | '-' :: rest => (true, rest)
  | rest => (false, rest)

def splitExponent : List Char → Option (Option (Bool × List Char))
  | [] => some none
  | mark :: rest =>
    let (negative, digits) := splitSign rest
    if (mark == 'e' || mark == 'E') && !digits.isEmpty && digits.all Char.isDigit then
      some (some (negative, digits))
    else none

def ofChars? (text : List Char) : Option Numeral := do
  let (negative, unsigned) := match text with
    | '-' :: rest => (true, rest)
    | rest => (false, rest)
  let whole := unsigned.takeWhile Char.isDigit
  if !wholeOk whole then none
  let (fraction, rest) ← splitFraction (unsigned.dropWhile Char.isDigit)
  let exponent ← splitExponent rest
  pure { negative, whole, fraction, exponent }

def maxSignificand : Nat := 0xFFFFFFFFFFFFFFFF

/-- Takes digits into the significand while it stays in range, and returns those left over. -/
def absorb (significand : Nat) : List Char → Nat × List Char
  | [] => (significand, [])
  | c :: rest =>
    let next := 10 * significand + (c.toNat - '0'.toNat)
    if next ≤ maxSignificand then absorb next rest else (significand, c :: rest)

def scaleDown (x : Float) (places : Nat) : Float :=
  if places ≤ 308 then x / Float.ofScientific 1 false places
  else if x == 0.0 then x
  else scaleDown (x / Float.ofScientific 1 false 308) (places - 308)
termination_by places

def scale (significand : Nat) (exponent : Int) : Option Float :=
  let x := (UInt64.ofNat significand).toFloat
  if exponent < 0 then some (scaleDown x (-exponent).toNat)
  else if exponent ≤ 308 then
    let y := x * Float.ofScientific 1 false exponent.toNat
    if y.isInf then none else some y
  else if x == 0.0 then some x
  else none

def toFloat (n : Numeral) : Option Float :=
  let (whole, dropped) := absorb 0 n.whole
  let (significand, places) := match n.fraction with
    | none => (whole, 0)
    | some digits =>
      let (s, left) := absorb whole digits
      (s, digits.length - left.length)
  let shift : Int := match n.exponent with
    | none => 0
    | some (negative, digits) =>
      let e : Int := Nat.ofDigitChars 10 digits 0
      if negative then -e else e
  (scale significand (dropped.length - places + shift)).map fun x => if n.negative then -x else x

/-- The value of a numeral. Minus zero is a double. -/
def value (n : Numeral) : Json :=
  let asFloat := match n.toFloat with
    | some x => Json.float x
    | none => .broken
  match n.fraction, n.exponent with
  | none, none =>
    let size := Nat.ofDigitChars 10 n.whole 0
    if n.negative then
      if 0 < size ∧ size ≤ 0x8000000000000000 then .int (-(size : Int)) else asFloat
    else if size ≤ maxSignificand then .int size
    else asFloat
  | _, _ => asFloat

end Numeral

end TagGateway.Json
