import TagGateway.Json.Numeral
import TagGateway.Text.Octets
import TagGateway.Text.Octets

/-!
From octets to JSON tokens, one octet at a time. A string token holds its text, or nothing when
its octets and escapes form no text: a lone surrogate, or octets that are not UTF-8.
-/

set_option autoImplicit false

namespace TagGateway.Json

inductive Token where
  | openList
  | closeList
  | openRecord
  | closeRecord
  | comma
  | colon
  | scalar (value : Json)
  | text (content : Option String)

/-- A piece of a string as written: an octet, or a 16-bit unit given by its number. -/
inductive Piece where
  | octet (b : UInt8)
  | unit (code : Nat)
  deriving DecidableEq, Repr

def isHighSurrogate (code : Nat) : Bool := 0xD800 ≤ code && code < 0xDC00

def isLowSurrogate (code : Nat) : Bool := 0xDC00 ≤ code && code < 0xE000

def codePoint (code : Nat) : Bytes := Bytes.ofString (String.singleton (Char.ofNat code))

/-- The octets of a string. A high surrogate needs a low one right after it. -/
def assemble : List Piece → Option Bytes
  | [] => some []
  | .octet b :: rest => (assemble rest).map (b :: ·)
  | .unit code :: rest =>
    if isLowSurrogate code then none
    else if isHighSurrogate code then
      match rest with
      | .unit low :: rest =>
        if isLowSurrogate low then
          (assemble rest).map
            (codePoint (0x10000 + (code - 0xD800) * 0x400 + (low - 0xDC00)) ++ ·)
        else none
      | _ => none
    else (assemble rest).map (codePoint code ++ ·)

def content (pieces : List Piece) : Option String :=
  (assemble pieces.reverse).bind Bytes.toString?

/-- Where the scanner stands between two octets. Pieces and digits are kept newest first. -/
inductive Mode where
  | between
  | word (letters : List Char) (value : Json)
  | numeral (digits : List Char)
  | string (pieces : List Piece)
  | escape (pieces : List Piece)
  | unit (pieces : List Piece) (left : Nat) (code : Nat)

def isSpace (c : Char) : Bool := c == ' ' || c == '\n' || c == '\t' || c == '\r'

def isNumeralChar (c : Char) : Bool :=
  c.isDigit || c == '-' || c == '+' || c == '.' || c == 'e' || c == 'E'

def escapeOctet? (c : Char) : Option UInt8 :=
  match c with
  | '"' => some 0x22
  | '\\' => some 0x5C
  | '/' => some 0x2F
  | 'b' => some 0x08
  | 'f' => some 0x0C
  | 'n' => some 0x0A
  | 'r' => some 0x0D
  | 't' => some 0x09
  | _ => none

def Mode.enter (b : UInt8) : Option (List Token × Mode) :=
  let c := Char.ofNat b.toNat
  if isSpace c then some ([], .between)
  else match c with
    | '[' => some ([.openList], .between)
    | ']' => some ([.closeList], .between)
    | '{' => some ([.openRecord], .between)
    | '}' => some ([.closeRecord], .between)
    | ',' => some ([.comma], .between)
    | ':' => some ([.colon], .between)
    | '"' => some ([], .string [])
    | 'n' => some ([], .word ['u', 'l', 'l'] .null)
    | 't' => some ([], .word ['r', 'u', 'e'] (.bool true))
    | 'f' => some ([], .word ['a', 'l', 's', 'e'] (.bool false))
    | c => if c.isDigit || c == '-' then some ([], .numeral [c]) else none

/-- One octet. A numeral ends at the first octet that cannot belong to it. -/
def Mode.step (b : UInt8) : Mode → Option (List Token × Mode)
  | .between => Mode.enter b
  | .word [] _ => none
  | .word [letter] value =>
    if b = letter.toUInt8 then some ([.scalar value], .between) else none
  | .word (letter :: more) value =>
    if b = letter.toUInt8 then some ([], .word more value) else none
  | .numeral digits =>
    let c := Char.ofNat b.toNat
    if isNumeralChar c then some ([], .numeral (c :: digits))
    else do
      let numeral ← Numeral.ofChars? digits.reverse
      let (tokens, mode) ← Mode.enter b
      pure (.scalar numeral.value :: tokens, mode)
  | .string pieces =>
    if b = 0x22 then some ([.text (content pieces)], .between)
    else if b = 0x5C then some ([], .escape pieces)
    else if b < 0x20 then none
    else some ([], .string (.octet b :: pieces))
  | .escape pieces =>
    let c := Char.ofNat b.toNat
    if c = 'u' then some ([], .unit pieces 3 0)
    else (escapeOctet? c).map fun octet => ([], .string (.octet octet :: pieces))
  | .unit pieces left code => do
    let digit ← Octets.digitValue? (Char.ofNat b.toNat)
    let code := 16 * code + digit
    match left with
    | 0 => pure ([], .string (.unit code :: pieces))
    | left + 1 => pure ([], .unit pieces left code)

def Mode.finish : Mode → Option (List Token)
  | .between => some []
  | .numeral digits => do
    let numeral ← Numeral.ofChars? digits.reverse
    pure [.scalar numeral.value]
  | _ => none

def scanOctet : List Token × Mode → UInt8 → Option (List Token × Mode)
  | (tokens, mode), b => (mode.step b).map fun (new, mode) => (new.reverse ++ tokens, mode)

def scan (text : Bytes) : Option (List Token) := do
  let (tokens, mode) ← text.foldlM scanOctet ([], .between)
  let last ← mode.finish
  pure (tokens.reverse ++ last)

end TagGateway.Json
