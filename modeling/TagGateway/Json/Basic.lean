/-!
JSON values. An object keeps its members in order and may repeat a name: whether a repeated name is
an error or the last one counts is the reader's choice. `broken` stands for a value that follows
the grammar and that no reader accepts, so that a field nobody reads may hold one.
-/

set_option autoImplicit false

namespace TagGateway

/-- A JSON value. Integers are those of 64 bits, signed or unsigned; all other numbers are
doubles. -/
inductive Json where
  | null
  | bool (value : Bool)
  | int (value : Int)
  | float (value : Float)
  | str (text : String)
  | arr (items : List Json)
  | obj (members : List (String × Json))
  /-- A number beyond the range of doubles, a string that is no text, an object with such a
  name. -/
  | broken

instance : Inhabited Json := ⟨.null⟩

namespace Json

def maxDepth : Nat := 127

mutual

@[simp] def sound (depth : Nat) : Json → Bool
  | .broken => false
  | .arr items => 0 < depth && soundItems (depth - 1) items
  | .obj members => 0 < depth && soundMembers (depth - 1) members
  | _ => true

@[simp] def soundItems (depth : Nat) : List Json → Bool
  | [] => true
  | item :: rest => item.sound depth && soundItems depth rest

@[simp] def soundMembers (depth : Nat) : List (String × Json) → Bool
  | [] => true
  | (_, value) :: rest => value.sound depth && soundMembers depth rest

end

mutual

/-- The value with every name once: of members with one name the last counts. -/
def settle : Json → Json
  | .arr items => .arr (settleItems items)
  | .obj members => .obj (settleMembers members)
  | value => value

def settleItems : List Json → List Json
  | [] => []
  | item :: rest => item.settle :: settleItems rest

def settleMembers : List (String × Json) → List (String × Json)
  | [] => []
  | (name, value) :: rest =>
    if rest.any (·.1 == name) then settleMembers rest
    else (name, value.settle) :: settleMembers rest

end

end Json

end TagGateway
