import TagGateway.Decimal.Shortest
import TagGateway.Json.Basic
import TagGateway.Text.Octets

set_option autoImplicit false

namespace TagGateway.Json

def positional (exponent : Int) : Bool := -5 ≤ exponent && exponent ≤ 15

/-- A positive double from its digits: a point and a digit after it in positional notation, an
explicit sign in the exponent otherwise. -/
def layout (s : Decimal.Scaled) : List Char :=
  let digits := Nat.toDigits 10 s.digits
  let lead : Int := s.exponent + digits.length - 1
  if positional lead then
    if 0 ≤ s.exponent then digits ++ List.replicate s.exponent.toNat '0' ++ ['.', '0']
    else if 0 ≤ lead then
      digits.take (lead.toNat + 1) ++ '.' :: digits.drop (lead.toNat + 1)
    else '0' :: '.' :: List.replicate (-lead - 1).toNat '0' ++ digits
  else
    let exponent := (if lead < 0 then '-' else '+') :: Nat.toDigits 10 lead.natAbs
    match digits with
    | [digit] => digit :: 'e' :: exponent
    | first :: more => first :: '.' :: more ++ 'e' :: exponent
    | [] => []

def printFloat (x : Float) : List Char :=
  if !x.isFinite then ['n', 'u', 'l', 'l']
  else
    let sign := if 0x8000000000000000 ≤ x.toBits then ['-'] else []
    if x == 0.0 then sign ++ ['0', '.', '0'] else sign ++ layout (Decimal.shortest x.abs)

def printInt (n : Int) : List Char :=
  if n < 0 then '-' :: Nat.toDigits 10 n.natAbs else Nat.toDigits 10 n.natAbs

def printOctet (b : UInt8) : Bytes :=
  if b = 0x22 then [0x5C, 0x22]
  else if b = 0x5C then [0x5C, 0x5C]
  else if b = 0x08 then Bytes.ofChars ['\\', 'b']
  else if b = 0x09 then Bytes.ofChars ['\\', 't']
  else if b = 0x0A then Bytes.ofChars ['\\', 'n']
  else if b = 0x0C then Bytes.ofChars ['\\', 'f']
  else if b = 0x0D then Bytes.ofChars ['\\', 'r']
  else if b < 0x20 then
    Bytes.ofChars ['\\', 'u', '0', '0', Nat.digitChar (b.toNat / 16), Nat.digitChar (b.toNat % 16)]
  else [b]

def printString (text : String) : Bytes :=
  0x22 :: (Bytes.ofString text).flatMap printOctet ++ [0x22]

mutual

def print : Json → Bytes
  | .null => Bytes.ofChars ['n', 'u', 'l', 'l']
  | .bool true => Bytes.ofChars ['t', 'r', 'u', 'e']
  | .bool false => Bytes.ofChars ['f', 'a', 'l', 's', 'e']
  | .int n => Bytes.ofChars (printInt n)
  | .float x => Bytes.ofChars (printFloat x)
  | .str text => printString text
  | .arr items => 0x5B :: printItems items ++ [0x5D]
  | .obj members => 0x7B :: printMembers members ++ [0x7D]
  | .broken => Bytes.ofChars ['n', 'u', 'l', 'l']

def printItems : List Json → Bytes
  | [] => []
  | [item] => item.print
  | item :: rest => item.print ++ 0x2C :: printItems rest

def printMembers : List (String × Json) → Bytes
  | [] => []
  | [(name, value)] => printString name ++ 0x3A :: value.print
  | (name, value) :: rest => printString name ++ 0x3A :: (value.print ++ 0x2C :: printMembers rest)

end

end TagGateway.Json
