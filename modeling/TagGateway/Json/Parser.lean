import TagGateway.Json.Scanner

set_option autoImplicit false

namespace TagGateway.Json

/-- An array or object that is open around the value being read, with what it holds so far, newest
first. -/
inductive Frame where
  | list (items : List Json)
  | record (members : List (Option String × Json)) (name : Option String)

/-- What the next token may be. -/
inductive Parser where
  | value (stack : List Frame)
  | firstItem (stack : List Frame)
  | afterItem (items : List Json) (stack : List Frame)
  | firstName (stack : List Frame)
  | name (members : List (Option String × Json)) (stack : List Frame)
  | colon (members : List (Option String × Json)) (name : Option String) (stack : List Frame)
  | afterMember (members : List (Option String × Json)) (stack : List Frame)
  | done (value : Json)

namespace Parser

def complete (v : Json) : List Frame → Parser
  | [] => .done v
  | .list items :: stack => .afterItem (v :: items) stack
  | .record members key :: stack => .afterMember ((key, v) :: members) stack

/-- An object, from its members, newest first. A name that is no text breaks it. -/
def record (members : List (Option String × Json)) : Json :=
  match members.reverse.mapM fun (key, v) => key.map (·, v) with
  | some members => .obj members
  | none => .broken

def text : Option String → Json
  | some content => .str content
  | none => .broken

def start (stack : List Frame) : Token → Option Parser
  | .openList => some (.firstItem stack)
  | .openRecord => some (.firstName stack)
  | .scalar v => some (complete v stack)
  | .text content => some (complete (text content) stack)
  | _ => none

def step : Parser → Token → Option Parser
  | .value stack, token => start stack token
  | .firstItem stack, .closeList => some (complete (.arr []) stack)
  | .firstItem stack, token => start (.list [] :: stack) token
  | .afterItem items stack, .comma => some (.value (.list items :: stack))
  | .afterItem items stack, .closeList => some (complete (.arr items.reverse) stack)
  | .firstName stack, .closeRecord => some (complete (.obj []) stack)
  | .firstName stack, .text key => some (.colon [] key stack)
  | .name members stack, .text key => some (.colon members key stack)
  | .colon members key stack, .colon => some (.value (.record members key :: stack))
  | .afterMember members stack, .comma => some (.name members stack)
  | .afterMember members stack, .closeRecord => some (complete (record members) stack)
  | _, _ => none

def run (parser : Parser) (tokens : List Token) : Option Parser := tokens.foldlM step parser

end Parser

def parse (text : Bytes) : Option Json := do
  let tokens ← scan text
  match ← (Parser.value []).run tokens with
  | .done value => some value
  | _ => none

end TagGateway.Json
