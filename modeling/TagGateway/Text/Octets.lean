set_option autoImplicit false

namespace TagGateway

abbrev Bytes := List UInt8

def Bytes.ofString (text : String) : Bytes := text.toUTF8.data.toList

def Bytes.toString? (bytes : Bytes) : Option String := String.fromUTF8? ⟨bytes.toArray⟩

def Bytes.ofChars (chars : List Char) : Bytes := chars.map Char.toUInt8

@[simp] theorem Bytes.toString?_ofString (text : String) :
    (Bytes.ofString text).toString? = some text := by
  have h : (⟨(Bytes.ofString text).toArray⟩ : ByteArray) = text.toByteArray := by
    simp [Bytes.ofString]
  rw [Bytes.toString?, h, String.fromUTF8?, dif_pos text.isValidUTF8]
  rfl

structure Octets where
  toList : List UInt8 := []
  deriving DecidableEq, Repr

namespace Octets

def digitValue? (c : Char) : Option Nat :=
  if '0' ≤ c ∧ c ≤ '9' then some (c.toNat - '0'.toNat)
  else if 'a' ≤ c ∧ c ≤ 'f' then some (c.toNat - 'a'.toNat + 10)
  else if 'A' ≤ c ∧ c ≤ 'F' then some (c.toNat - 'A'.toNat + 10)
  else none

def pair (b : UInt8) : List Char :=
  [Nat.digitChar (b.toNat / 16), Nat.digitChar (b.toNat % 16)]

def hexChars (bytes : List UInt8) : List Char := bytes.flatMap pair

def hex (o : Octets) : String := String.ofList (hexChars o.toList)

def ofHexChars? : List Char → Option (List UInt8)
  | [] => some []
  | [_] => none
  | high :: low :: rest => do
    let h ← digitValue? high
    let l ← digitValue? low
    let bytes ← ofHexChars? rest
    pure (UInt8.ofNat (16 * h + l) :: bytes)

def ofHex? (text : String) : Option Octets := (ofHexChars? text.toList).map Octets.mk

theorem digitValue?_digitChar : ∀ n : Fin 16, digitValue? (Nat.digitChar n) = some n.val := by
  decide

theorem ofHexChars?_hexChars (bytes : List UInt8) : ofHexChars? (hexChars bytes) = some bytes := by
  induction bytes with
  | nil => rfl
  | cons b rest ih =>
    have hb : b.toNat < 256 := b.toNat_lt
    have hh := digitValue?_digitChar ⟨b.toNat / 16, by omega⟩
    have hl := digitValue?_digitChar ⟨b.toNat % 16, by omega⟩
    have hs : 16 * (b.toNat / 16) + b.toNat % 16 = b.toNat := by omega
    change ofHexChars? (pair b ++ hexChars rest) = _
    simp only [pair, List.cons_append, List.nil_append, ofHexChars?, hh, hl, ih]
    show some (UInt8.ofNat (16 * (b.toNat / 16) + b.toNat % 16) :: rest) = some (b :: rest)
    rw [hs, UInt8.ofNat_toNat]

@[simp] theorem ofHex?_hex (o : Octets) : ofHex? o.hex = some o := by
  simp [ofHex?, hex, ofHexChars?_hexChars]

theorem hex_injective {a b : Octets} (h : a.hex = b.hex) : a = b :=
  Option.some.inj (by rw [← ofHex?_hex a, ← ofHex?_hex b, h])

end Octets

end TagGateway
