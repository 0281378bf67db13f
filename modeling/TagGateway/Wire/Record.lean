import TagGateway.Wire.Basic

/-!
Records and alternatives as JSON. A record is an object with a member for each field, or an array
of its fields in their order. Members of other names are ignored; a field given twice is an error.
Alternatives without content are their names; those with content are objects of one member, or are
told apart by a tag beside their fields.
-/

set_option autoImplicit false

namespace TagGateway

inductive Layout where
  | named (members : List (String × Json))
  | listed (items : List Json)

abbrev Fields (α : Type) := ReaderT Origin (StateT Layout Option) α

namespace Fields

def next (name : String) : Fields (Option Json) := fun _ layout =>
  match layout with
  | .named members =>
    match members.filter (·.1 == name) with
    | [] => some (none, layout)
    | [(_, value)] => some (some value, layout)
    | _ => none
  | .listed [] => some (none, layout)
  | .listed (value :: rest) => some (some value, .listed rest)

def value {α : Type} [Wire α] (json : Json) : Fields α := fun origin layout =>
  (Wire.read origin json).map (·, layout)

def required {α : Type} [Wire α] (name : String) : Fields α := do
  match ← next name with
  | some json => value json
  | none => failure

def orElse {α : Type} [Wire α] (name : String) (default : α) : Fields α := do
  match ← next name with
  | some json => value json
  | none => pure default

def nullable {α : Type} [Wire α] (name : String) : Fields (Option α) := do
  match ← next name with
  | some json => value json
  | none => fun _ layout =>
    match layout with
    | .named _ => some (none, layout)
    | .listed _ => none

/-- Reads a record. An array must have no items left. -/
def run {α : Type} (fields : Fields α) (origin : Origin) : Json → Option α
  | .obj members => (fields origin (.named members)).map (·.1)
  | .arr items =>
    match fields origin (.listed items) with
    | some (a, .listed []) => some a
    | _ => none
  | _ => none

end Fields

def Wire.field {α : Type} [Wire α] (name : String) (a : α) : String × Json := (name, Wire.write a)

@[simp] theorem Wire.fst_field {α : Type} [Wire α] (name : String) (a : α) :
    (field name a).1 = name := rfl

@[simp] theorem Wire.snd_field {α : Type} [Wire α] (name : String) (a : α) :
    (field name a).2 = Wire.write a := rfl

def Origin.isUnit : Origin → Json → Bool
  | _, .null => true
  | .message, .obj [] => true
  | _, _ => false

class Choice (α : Type) where
  all : List α
  name : α → String

namespace Choice

def find? {α : Type} [Choice α] (text : String) : Option α :=
  (all (α := α)).find? fun a => name a == text

/-- An alternative travels as its name, or as an object that gives the name no content. -/
instance {α : Type} [Choice α] : Wire α where
  write a := .str (name a)
  read
    | _, .str text => find? text
    | origin, .obj [(text, content)] => if origin.isUnit content then find? text else none
    | _, _ => none

end Choice

structure Tagged where
  tag : String
  fields : Json

/-- Splits the tag off: the member of that name, or the first item of an array. The tag decides
how the rest is read, so the whole must be readable first. -/
def Tagged.of? (name : String) (json : Json) : Option Tagged :=
  if !json.sound Json.maxDepth then none
  else match json with
    | .obj members =>
      match members.filter (·.1 == name) with
      | [(_, .str tag)] => some { tag, fields := .obj (members.filter (·.1 != name)) }
      | _ => none
    | .arr (.str tag :: items) => some { tag, fields := .arr items }
    | _ => none

def Tagged.write (name tag : String) (members : List (String × Json)) : Json :=
  .obj ((name, .str tag) :: members)

end TagGateway
