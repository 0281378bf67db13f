import TagGateway.Json.Basic
import TagGateway.Text.Octets
import Std.Data.TreeMap

/-!
How values travel as JSON. `Wire` pairs a writer with a reader; the reader refuses what does not
have the type's form, and never guesses: an integer has no fraction and no exponent and is in the
range of its type, octets are hexadecimal text, an absent value is `null`.
-/

set_option autoImplicit false

namespace TagGateway

/-- How a JSON value reached its reader. The three differ in what may stand for the content of an
alternative that has none, or has named fields. -/
inductive Origin where
  | text
  | message
  | value
  deriving DecidableEq, Repr

class Wire (α : Type) where
  write : α → Json
  read : Origin → Json → Option α

namespace Wire

def natBelow (bound : Nat) : Json → Option Nat
  | .int n => if 0 ≤ n ∧ n < bound then some n.toNat else none
  | _ => none

def intWithin (half : Nat) : Json → Option Int
  | .int n => if -(half : Int) ≤ n ∧ n < half then some n else none
  | _ => none

instance : Wire Bool where
  write b := .bool b
  read
    | _, .bool b => some b
    | _, _ => none

instance : Wire String where
  write text := .str text
  read
    | _, .str text => some text
    | _, _ => none

instance : Wire UInt8 where
  write n := .int n.toNat
  read _ value := (natBelow UInt8.size value).map UInt8.ofNat

instance : Wire UInt16 where
  write n := .int n.toNat
  read _ value := (natBelow UInt16.size value).map UInt16.ofNat

instance : Wire UInt32 where
  write n := .int n.toNat
  read _ value := (natBelow UInt32.size value).map UInt32.ofNat

instance : Wire UInt64 where
  write n := .int n.toNat
  read _ value := (natBelow UInt64.size value).map UInt64.ofNat

instance : Wire Int8 where
  write n := .int n.toInt
  read _ value := (intWithin 0x80 value).map Int8.ofInt

instance : Wire Int16 where
  write n := .int n.toInt
  read _ value := (intWithin 0x8000 value).map Int16.ofInt

instance : Wire Int64 where
  write n := .int n.toInt
  read _ value := (intWithin 0x8000000000000000 value).map Int64.ofInt

/-- A double takes integers too; one that is not finite is written as `null`. -/
instance : Wire Float where
  write x := if x.isFinite then .float x else .null
  read
    | _, .float x => some x
    | _, .int n => some (Float.ofInt n)
    | _, _ => none

instance : Wire Octets where
  write octets := .str octets.hex
  read
    | _, .str text => Octets.ofHex? text
    | _, _ => none

instance {α : Type} [Wire α] : Wire (Option α) where
  write
    | some a => write a
    | none => .null
  read
    | _, .null => some none
    | origin, value => (read origin value).map some

instance {α : Type} [Wire α] : Wire (List α) where
  write items := .arr (items.map write)
  read
    | origin, .arr items => items.mapM (read origin)
    | _, _ => none

/-- A table travels as an object; of members with one name the last counts. -/
instance {α : Type} [Wire α] : Wire (Std.TreeMap String α) where
  write table := .obj (table.toList.map fun (name, a) => (name, write a))
  read
    | origin, .obj members =>
      members.foldlM (fun table (name, value) => (read origin value).map (table.insert name ·)) ∅
    | _, _ => none

end Wire

end TagGateway
