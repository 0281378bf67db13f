import TagGateway.Inventory.Wire
import TagGateway.Json.Parser
import TagGateway.Json.Printer
import TagGateway.Reader.CapabilitiesWire
import TagGateway.Reader.OperationWire
import TagGateway.Scan.BehaviorWire

set_option autoImplicit false

namespace TagGateway

namespace Text

/-- The ranges of the `White_Space` property, first and last code point of each. -/
def blankRanges : List (Nat × Nat) :=
  [(0x0009, 0x000D), (0x0020, 0x0020), (0x0085, 0x0085), (0x00A0, 0x00A0), (0x1680, 0x1680),
   (0x2000, 0x200A), (0x2028, 0x2029), (0x202F, 0x202F), (0x205F, 0x205F), (0x3000, 0x3000)]

def isBlank (c : Char) : Bool :=
  blankRanges.any fun (first, last) => first ≤ c.toNat && c.toNat ≤ last

def trimChars (chars : List Char) : List Char :=
  ((chars.dropWhile isBlank).reverse.dropWhile isBlank).reverse

def trim (text : String) : String := String.ofList (trimChars text.toList)

end Text

open Wire (field)

inductive Inbound (R : Type) where
  | report (device : String) (origin : Int64) (entries : List Json)
  | readerConnected (device : String) (capabilities : Capabilities)
  | readerClosed (device : String)
  | setBehavior (behavior : Behavior)
  | setEnvironment (environment : Environment)
  | startAll
  | stopAll
  | updateConfig (config : InventoryConfig R)
  | snapshot

inductive Outbound (R : Type) where
  | events (batch : List Event)
  | command (device : String) (command : Command)
  | inventory (records : List (TagRecord R))
  | error (message : String)

inductive LineError where
  | empty
  | malformed
  deriving DecidableEq, Repr

def LineError.message : LineError → String
  | empty => "empty line"
  | malformed => "malformed message"

/-- A value kept as it came; of members with one name the last counts. -/
instance : Wire Json where
  write value := value
  read _ value := if value.sound Json.maxDepth then some value.settle else none

structure RawReport where
  entries : List Json

instance : Wire RawReport where
  write r := .obj [field "tag_reports" r.entries]
  read := Fields.run do
    let entries ← Fields.orElse "tag_reports" []
    pure { entries }

def decodeReadings (entries : List Json) : List Reading := entries.filterMap (Wire.read .value)

variable {R : Type}

namespace Inbound

def device? : Inbound R → Option String
  | report device .. | readerConnected device _ | readerClosed device => some device
  | _ => none

def kind : Inbound R → String
  | report .. => "report"
  | readerConnected .. => "reader_connected"
  | readerClosed _ => "reader_closed"
  | setBehavior _ => "set_behavior"
  | setEnvironment _ => "set_environment"
  | startAll => "start_all"
  | stopAll => "stop_all"
  | updateConfig _ => "update_config"
  | snapshot => "snapshot"

variable [Level R] [Wire R]

def readReport : Fields (Inbound R) := do
  let device ← Fields.required "device"
  let origin ← Fields.required "origin_ns"
  let raw : RawReport ← Fields.required "report"
  pure (.report device origin raw.entries)

def readConnected : Fields (Inbound R) := do
  let device ← Fields.required "device"
  let capabilities ← Fields.required "capabilities"
  pure (.readerConnected device capabilities)

def readClosed : Fields (Inbound R) := do
  let device ← Fields.required "device"
  pure (.readerClosed device)

def readBehavior : Fields (Inbound R) := do
  let behavior ← Fields.required "behavior"
  pure (.setBehavior behavior)

def readEnvironment : Fields (Inbound R) := do
  let environment ← Fields.required "environment"
  pure (.setEnvironment environment)

def readConfig : Fields (Inbound R) := do
  let config ← Fields.required "config"
  pure (.updateConfig config)

def fieldsOf? : String → Option (Fields (Inbound R))
  | "report" => some readReport
  | "reader_connected" => some readConnected
  | "reader_closed" => some readClosed
  | "set_behavior" => some readBehavior
  | "set_environment" => some readEnvironment
  | "start_all" => some (pure .startAll)
  | "stop_all" => some (pure .stopAll)
  | "update_config" => some readConfig
  | "snapshot" => some (pure .snapshot)
  | _ => none

def ofJson? (json : Json) : Option (Inbound R) := do
  let tagged ← Tagged.of? "type" json
  let fields ← fieldsOf? tagged.tag
  fields.run .message tagged.fields

def ofLine (line : String) : Except LineError (Inbound R) :=
  let text := Text.trim line
  if text = "" then .error .empty
  else
    match Json.parse (Bytes.ofString text) >>= ofJson? with
    | some message => .ok message
    | none => .error .malformed

end Inbound

variable [Wire R]

def Outbound.toJson : Outbound R → Json
  | .events batch => Tagged.write "type" "events" [field "events" batch]
  | .command device told =>
    Tagged.write "type" "device_command" [field "device" device, field "command" told]
  | .inventory records => Tagged.write "type" "inventory" [field "tags" records]
  | .error message => Tagged.write "type" "error" [field "message" message]

def Outbound.line (message : Outbound R) : Bytes := message.toJson.print

end TagGateway
