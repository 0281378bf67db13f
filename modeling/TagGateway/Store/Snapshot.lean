import TagGateway.Inventory.Wire
import TagGateway.Json.Parser
import TagGateway.Json.Printer
import TagGateway.Store.Disk

set_option autoImplicit false

namespace TagGateway

inductive LoadError where
  | unreadable
  | malformed
  deriving DecidableEq, Repr

namespace Disk

variable {R : Type} [Wire R]

def persist (d : Disk) (name : String) (records : List (TagRecord R)) (fault : Option Fault) :
    Bool × Disk :=
  d.replace name (Wire.write records).print fault

def load (d : Disk) (name : String) : Except LoadError (List (TagRecord R)) :=
  match d.nodes[name]? with
  | none => .ok []
  | some .directory => .error .unreadable
  | some (.file content) =>
    match Json.parse content >>= Wire.read .text with
    | some records => .ok records
    | none => .error .malformed

def loadOrEmpty (d : Disk) (name : String) : List (TagRecord R) :=
  match d.load name with
  | .ok records => records
  | .error _ => []

end Disk

end TagGateway
