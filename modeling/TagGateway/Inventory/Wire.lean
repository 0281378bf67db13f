import TagGateway.Inventory.Basic
import TagGateway.Wire.Record

set_option autoImplicit false

namespace TagGateway

open Wire (field)

namespace Event

def readArrived : Fields Event := do
  let epc ← Fields.required "epc"
  let tid ← Fields.required "tid"
  let time ← Fields.required "timestamp"
  let location ← Fields.required "location"
  pure (.arrived epc tid time location)

def readMoved : Fields Event := do
  let epc ← Fields.required "epc"
  let tid ← Fields.required "tid"
  let time ← Fields.required "timestamp"
  let old ← Fields.required "old_location"
  let new ← Fields.required "new_location"
  pure (.moved epc tid time old new)

def readDeparted : Fields Event := do
  let epc ← Fields.required "epc"
  let tid ← Fields.required "tid"
  let time ← Fields.required "timestamp"
  let lastRead ← Fields.required "last_read"
  let lastKnown ← Fields.required "last_known_location"
  pure (.departed epc tid time lastRead lastKnown)

def fieldsOf? : String → Option (Fields Event)
  | "arrived" => some readArrived
  | "moved" => some readMoved
  | "departed" => some readDeparted
  | _ => none

def members : Event → List (String × Json)
  | arrived epc tid time location =>
    [field "epc" epc, field "tid" tid, field "timestamp" time, field "location" location]
  | moved epc tid time old new =>
    [field "epc" epc, field "tid" tid, field "timestamp" time, field "old_location" old,
     field "new_location" new]
  | departed epc tid time lastRead lastKnown =>
    [field "epc" epc, field "tid" tid, field "timestamp" time, field "last_read" lastRead,
     field "last_known_location" lastKnown]

end Event

instance : Wire Event where
  write e := Tagged.write "event" e.kind e.members
  read _ json := do
    let tagged ← Tagged.of? "event" json
    let fields ← Event.fieldsOf? tagged.tag
    fields.run .message tagged.fields

instance : Choice TagState where
  all := [.unknown, .present, .departed]
  name
    | .unknown => "unknown"
    | .present => "present"
    | .departed => "departed"

variable {R : Type}

instance [Wire R] : Wire (PlaceRecord R) where
  write p := .obj [field "last_read" p.lastRead, field "mean_rssi" p.mean, field "count" p.count]
  read := Fields.run do
    let lastRead ← Fields.required "last_read"
    let mean ← Fields.nullable "mean_rssi"
    let count ← Fields.required "count"
    pure { lastRead, mean, count }

instance [Wire R] : Wire (TagRecord R) where
  write t := .obj [field "epc" t.epc, field "tid" t.tid, field "location" t.location,
    field "last_read" t.lastRead, field "last_arrived" t.lastArrived,
    field "last_departed" t.lastDeparted, field "state" t.state, field "stats" t.stats]
  read := Fields.run do
    let epc ← Fields.required "epc"
    let tid ← Fields.orElse "tid" ""
    let location ← Fields.orElse "location" ""
    let lastRead ← Fields.required "last_read"
    let lastArrived ← Fields.required "last_arrived"
    let lastDeparted ← Fields.required "last_departed"
    let state ← Fields.required "state"
    let stats ← Fields.orElse "stats" ∅
    pure { epc, tid, location, lastRead, lastArrived, lastDeparted, state, stats }

variable [Level R]

instance [Wire R] : Wire (Mobility R) where
  write m := .obj [field "slope" m.slope, field "threshold" m.threshold,
    field "holdoff_millis" m.holdoff]
  read := Fields.run do
    let default : Mobility R := Mobility.default
    let slope ← Fields.orElse "slope" default.slope
    let threshold ← Fields.orElse "threshold" default.threshold
    let holdoff ← Fields.orElse "holdoff_millis" default.holdoff
    pure { slope, threshold, holdoff }

instance [Wire R] : Wire (InventoryConfig R) where
  write c := .obj [field "departed_threshold_seconds" c.departedSeconds,
    field "departed_check_interval_seconds" c.departedCheckSeconds,
    field "age_out_hours" c.ageOutHours, field "adjust_last_read_on_by_origin" c.adjustByOrigin,
    field "aliases" c.aliases, field "mobility" c.mobility]
  read := Fields.run do
    let default : InventoryConfig R := InventoryConfig.default
    let departedSeconds ← Fields.orElse "departed_threshold_seconds" default.departedSeconds
    let departedCheckSeconds ←
      Fields.orElse "departed_check_interval_seconds" default.departedCheckSeconds
    let ageOutHours ← Fields.orElse "age_out_hours" default.ageOutHours
    let adjustByOrigin ← Fields.orElse "adjust_last_read_on_by_origin" default.adjustByOrigin
    let aliases ← Fields.orElse "aliases" default.aliases
    let mobility ← Fields.orElse "mobility" default.mobility
    pure { departedSeconds, departedCheckSeconds, ageOutHours, adjustByOrigin, aliases, mobility }

end TagGateway
