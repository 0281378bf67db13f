import TagGateway.Json.Printer
import TagGateway.Proofs.Wire.Passes

/-!
Types whose values come back from their texts as they were. Main statement: a lossless type is one
whose parts are, for words, options, lists, names, records and tagged alternatives.
-/

set_option autoImplicit false

namespace TagGateway

open Fields (Gives)

namespace Wire

class Lossless (α : Type) [Wire α] where
  /-- How deep the texts of the type nest. -/
  depth : Nat
  passes (a : α) : Passes depth a a

export Lossless (passes)

/-- A lossless type whose values are never written as `null`, so that they can be left out. -/
class Definite (α : Type) [Wire α] extends Lossless α where
  refuses (origin : Origin) : (read origin .null : Option α) = none

section Basic

variable {α : Type} [Wire α]

@[reducible]
def Definite.ofNat {toNat : α → Nat} {ofNat : Nat → α} {bound : Nat}
    (writes : ∀ a, write a = .int (toNat a))
    (reads : ∀ origin json, read origin json = (natBelow bound json).map ofNat)
    (below : ∀ a, toNat a < bound) (most : bound ≤ 0x10000000000000000)
    (inverse : ∀ a, ofNat (toNat a) = a) : Definite α where
  depth := 0
  passes a := by
    have hlt := below a
    have hreread : (write a).reread = .int (toNat a) := by
      rw [writes, Json.reread, Json.Numeral.value_ofInt (by omega) (by omega)]
    refine { sound := ?_, read := fun origin => ?_ }
    · simp [hreread]
    · simp [hreread, reads, natBelow, hlt, inverse]
  refuses origin := by rw [reads]; rfl

@[reducible]
def Definite.ofInt {toInt : α → Int} {ofInt : Int → α} {half : Nat}
    (writes : ∀ a, write a = .int (toInt a))
    (reads : ∀ origin json, read origin json = (intWithin half json).map ofInt)
    (least : ∀ a, -(half : Int) ≤ toInt a) (below : ∀ a, toInt a < half)
    (most : half ≤ 0x8000000000000000) (inverse : ∀ a, ofInt (toInt a) = a) : Definite α where
  depth := 0
  passes a := by
    have hle := least a
    have hlt := below a
    have hreread : (write a).reread = .int (toInt a) := by
      rw [writes, Json.reread, Json.Numeral.value_ofInt (by omega) (by omega)]
    refine { sound := ?_, read := fun origin => ?_ }
    · simp [hreread]
    · simp [hreread, reads, intWithin, hle, hlt, inverse]
  refuses origin := by rw [reads]; rfl

instance : Definite Bool where
  depth := 0
  passes _ := { sound := rfl, read := fun _ => rfl }
  refuses _ := rfl

instance : Definite String where
  depth := 0
  passes _ := { sound := rfl, read := fun _ => rfl }
  refuses _ := rfl

instance : Definite Octets where
  depth := 0
  passes octets := { sound := rfl, read := fun _ => Octets.ofHex?_hex octets }
  refuses _ := rfl

instance : Definite UInt8 :=
  .ofNat (fun _ => rfl) (fun _ _ => rfl) UInt8.toNat_lt (by decide) fun _ => UInt8.ofNat_toNat

instance : Definite UInt16 :=
  .ofNat (fun _ => rfl) (fun _ _ => rfl) UInt16.toNat_lt (by decide) fun _ => UInt16.ofNat_toNat

instance : Definite UInt32 :=
  .ofNat (fun _ => rfl) (fun _ _ => rfl) UInt32.toNat_lt (by decide) fun _ => UInt32.ofNat_toNat

instance : Definite UInt64 :=
  .ofNat (fun _ => rfl) (fun _ _ => rfl) UInt64.toNat_lt (by decide) fun _ => UInt64.ofNat_toNat

instance : Definite Int8 :=
  .ofInt (fun _ => rfl) (fun _ _ => rfl) Int8.le_toInt Int8.toInt_lt (by decide) Int8.ofInt_toInt

instance : Definite Int16 :=
  .ofInt (fun _ => rfl) (fun _ _ => rfl) Int16.le_toInt Int16.toInt_lt (by decide) Int16.ofInt_toInt

instance : Definite Int64 :=
  .ofInt (fun _ => rfl) (fun _ _ => rfl) Int64.le_toInt Int64.toInt_lt (by decide) Int64.ofInt_toInt

theorem read_option {origin : Origin} {json : Json} (h : json ≠ .null) :
    (read origin json : Option (Option α)) = (read origin json).map some := by
  cases json with
  | null => exact absurd rfl h
  | _ => rfl

instance [Definite α] : Lossless (Option α) where
  depth := Lossless.depth α
  passes
    | none => { sound := rfl, read := fun _ => rfl }
    | some a =>
      { sound := (passes a).sound
        read := fun origin => by
          have ha := (passes a).read origin
          have hne : (write a).reread ≠ .null := fun hnull => by
            simp [hnull, Definite.refuses] at ha
          exact (read_option hne).trans (by rw [ha]; rfl) }

instance [Lossless α] : Definite (List α) where
  depth := Lossless.depth α + 1
  passes items := by
    simpa using passes_list id fun a (_ : a ∈ items) => passes a
  refuses _ := rfl

@[reducible]
def Definite.ofChoice {β : Type} [Choice β]
    (found : ∀ b : β, Choice.find? (Choice.name b) = some b) : Definite β where
  depth := 0
  passes b := { sound := rfl, read := fun _ => found b }
  refuses _ := rfl

@[reducible]
def Definite.ofRecord {fields : Fields α} {members : α → List (String × Json)} {depth : Nat}
    (reads : ∀ origin, (read origin : Json → Option α) = fields.run origin)
    (writes : ∀ a, write a = .obj (members a))
    (distinct : ∀ a, ((members a).map (·.1)).Nodup)
    (gives : ∀ origin a, Gives depth origin (members a) fields (members a) a) : Definite α where
  depth := depth + 1
  passes a := .record reads (writes a) (distinct a) (gives · a)
  refuses origin := by rw [reads]; rfl

/-- An alternative with content is an object of one member. -/
theorem Passes.alternative {name : String} {content : Json} {a : α} {depth : Nat}
    (writes : write a = .obj [(name, content)]) (sound : content.reread.sound depth)
    (reads : ∀ origin, Wire.read origin (.obj [(name, content.reread)]) = some a) :
    Passes (depth + 1) a a where
  sound := by simp [writes, sound]
  read origin := by
    rw [writes]
    exact reads origin

end Basic

def encode {α : Type} [Wire α] (a : α) : Bytes := (write a).print

def decode? {α : Type} [Wire α] (text : Bytes) : Option α := Json.parse text >>= read .text

theorem decode?_encode_of_passes {α : Type} [Wire α] {depth : Nat} {a b : α}
    (h : Passes depth a b) : decode? (encode a) = some b := by
  simp [decode?, encode, Json.parse_print, h.read]

theorem decode?_encode {α : Type} [Wire α] [Lossless α] (a : α) : decode? (encode a) = some a :=
  decode?_encode_of_passes (passes a)

end Wire

end TagGateway
