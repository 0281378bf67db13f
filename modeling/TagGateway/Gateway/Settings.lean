import TagGateway.Inventory.Wire
import TagGateway.Json.Parser
import TagGateway.Store.Disk

set_option autoImplicit false

namespace TagGateway

open Wire (field)

structure Settings (R : Type) where
  gatewayId : String
  cachePath : String
  workers : UInt64
  reportQueue : UInt64
  eventQueue : UInt64
  ageOutCheckSeconds : UInt32
  trustVendors : Bool
  inventory : InventoryConfig R

/-- Values from outside, which go before those of the file unless they are empty. -/
structure Overrides where
  gatewayId : Option String := none
  cachePath : Option String := none

inductive SettingsError where
  | unreadable
  | malformed
  | invalid (fault : ConfigFault)
  deriving DecidableEq, Repr

def SettingsError.message : SettingsError → String
  | unreadable => "config io error: the file cannot be read"
  | malformed => "config json error: the file holds no settings"
  | invalid fault => fault.message

namespace Settings

variable {R : Type} [Level R]

def default : Settings R :=
  { gatewayId := "gateway-unknown", cachePath := "tag_cache.json", workers := 2, reportQueue := 1024
    eventQueue := 256, ageOutCheckSeconds := 3600, trustVendors := false
    inventory := InventoryConfig.default }

def validate (s : Settings R) : Except ConfigFault Unit :=
  if s.workers = 0 then .error (.notPositive "worker_count")
  else if s.reportQueue = 0 ∨ s.eventQueue = 0 then .error .noQueue
  else if s.ageOutCheckSeconds = 0 then .error (.notPositive "age_out_check_interval_seconds")
  else s.inventory.validate

def chosen (override : Option String) (value : String) : String :=
  match override with
  | some text => if text = "" then value else text
  | none => value

def withOverrides (s : Settings R) (o : Overrides) : Settings R :=
  { s with
    gatewayId := chosen o.gatewayId s.gatewayId
    cachePath := chosen o.cachePath s.cachePath }

end Settings

instance {R : Type} [Level R] [Wire R] : Wire (Settings R) where
  write s := .obj [field "gateway_id" s.gatewayId, field "cache_path" s.cachePath,
    field "worker_count" s.workers, field "report_queue_capacity" s.reportQueue,
    field "event_queue_capacity" s.eventQueue,
    field "age_out_check_interval_seconds" s.ageOutCheckSeconds,
    field "trust_vendor_complete_reports" s.trustVendors, field "processor" s.inventory]
  read := Fields.run do
    let default : Settings R := Settings.default
    let gatewayId ← Fields.orElse "gateway_id" default.gatewayId
    let cachePath ← Fields.orElse "cache_path" default.cachePath
    let workers ← Fields.orElse "worker_count" default.workers
    let reportQueue ← Fields.orElse "report_queue_capacity" default.reportQueue
    let eventQueue ← Fields.orElse "event_queue_capacity" default.eventQueue
    let ageOutCheckSeconds ←
      Fields.orElse "age_out_check_interval_seconds" default.ageOutCheckSeconds
    let trustVendors ← Fields.orElse "trust_vendor_complete_reports" default.trustVendors
    let inventory ← Fields.orElse "processor" default.inventory
    pure { gatewayId, cachePath, workers, reportQueue, eventQueue, ageOutCheckSeconds,
           trustVendors, inventory }

namespace Settings

variable {R : Type} [Level R] [Wire R]

def ofNode : Option Node → Except SettingsError (Settings R)
  | none => .ok default
  | some .directory => .error .unreadable
  | some (.file content) =>
    match Json.parse content >>= Wire.read .text with
    | some settings => .ok settings
    | none => .error .malformed

def load (node : Option Node) (overrides : Overrides) : Except SettingsError (Settings R) := do
  let stored : Settings R ← ofNode node
  let settings := stored.withOverrides overrides
  match settings.validate with
  | .ok () => .ok settings
  | .error fault => .error (.invalid fault)

end Settings

end TagGateway
