import TagGateway.Reader.Operation
import TagGateway.Reading.Wire

set_option autoImplicit false

namespace TagGateway

open Wire (field)

instance : Wire ReportContent where
  write c := .obj [field "enable_ro_spec_id" c.roSpec, field "enable_spec_index" c.specIndex,
    field "enable_inventory_parameter_spec_id" c.inventorySpec,
    field "enable_antenna_id" c.antenna, field "enable_channel_index" c.channel,
    field "enable_peak_rssi" c.peakRssi, field "enable_first_seen_timestamp" c.firstSeen,
    field "enable_last_seen_timestamp" c.lastSeen, field "enable_tag_seen_count" c.seenCount,
    field "enable_access_spec_id" c.accessSpec]
  read := Fields.run do
    let roSpec ← Fields.orElse "enable_ro_spec_id" false
    let specIndex ← Fields.orElse "enable_spec_index" false
    let inventorySpec ← Fields.orElse "enable_inventory_parameter_spec_id" false
    let antenna ← Fields.orElse "enable_antenna_id" false
    let channel ← Fields.orElse "enable_channel_index" false
    let peakRssi ← Fields.orElse "enable_peak_rssi" false
    let firstSeen ← Fields.orElse "enable_first_seen_timestamp" false
    let lastSeen ← Fields.orElse "enable_last_seen_timestamp" false
    let seenCount ← Fields.orElse "enable_tag_seen_count" false
    let accessSpec ← Fields.orElse "enable_access_spec_id" false
    pure { roSpec, specIndex, inventorySpec, antenna, channel, peakRssi, firstSeen, lastSeen,
           seenCount, accessSpec }

instance : Choice ReportTrigger where
  all := [.none, .everyNTagsOrAiSpecEnd, .everyNTagsOrRoSpecEnd]
  name
    | .none => "none"
    | .everyNTagsOrAiSpecEnd => "upon_n_tags_or_end_of_ai_spec"
    | .everyNTagsOrRoSpecEnd => "upon_n_tags_or_end_of_ro_spec"

instance : Wire ReportSpec where
  write r := .obj [field "trigger" r.trigger, field "n" r.tags,
    field "content_selector" r.content, field "custom" r.custom]
  read := Fields.run do
    let trigger ← Fields.required "trigger"
    let tags ← Fields.required "n"
    let content ← Fields.required "content_selector"
    let custom ← Fields.orElse "custom" []
    pure { trigger, tags, content, custom }

instance : Choice ReaderEvent where
  all := [.gpi, .roSpec, .bufferFillWarning, .exception, .antenna]
  name
    | .gpi => "gpi_event"
    | .roSpec => "ro_spec_event"
    | .bufferFillWarning => "report_buffer_fill_warning"
    | .exception => "reader_exception"
    | .antenna => "antenna_event"

instance : Wire EventNotifications where
  write n := .obj [field "enabled" n.enabled]
  read := Fields.run do
    let enabled ← Fields.required "enabled"
    pure { enabled }

instance : Wire Keepalive where
  write k := .obj [field "periodic" k.periodic, field "interval_ms" k.intervalMs]
  read := Fields.run do
    let periodic ← Fields.required "periodic"
    let intervalMs ← Fields.required "interval_ms"
    pure { periodic, intervalMs }

instance : Wire Transmitter where
  write t := .obj [field "hop_table_id" t.hopTable, field "channel_index" t.channel,
    field "transmit_power" t.power]
  read := Fields.run do
    let hopTable ← Fields.required "hop_table_id"
    let channel ← Fields.required "channel_index"
    let power ← Fields.required "transmit_power"
    pure { hopTable, channel, power }

instance : Wire Receiver where
  write r := .obj [field "receiver_sensitivity" r.sensitivity]
  read := Fields.run do
    let sensitivity ← Fields.required "receiver_sensitivity"
    pure { sensitivity }

instance : Choice MemoryBank where
  all := [.reserved, .epc, .tid, .user]
  name
    | .reserved => "reserved"
    | .epc => "epc"
    | .tid => "tid"
    | .user => "user"

instance : Wire TagMask where
  write m := .obj [field "memory_bank" m.bank, field "most_significant_bit" m.firstBit,
    field "mask" m.mask, field "mask_bit_len" m.bitLength]
  read := Fields.run do
    let bank ← Fields.required "memory_bank"
    let firstBit ← Fields.required "most_significant_bit"
    let mask ← Fields.orElse "mask" {}
    let bitLength ← Fields.orElse "mask_bit_len" 0
    pure { bank, firstBit, mask, bitLength }

instance : Choice FilterTarget where
  all := [.session0, .session1, .session2, .session3, .selected]
  name
    | .session0 => "inventoried_s0"
    | .session1 => "inventoried_s1"
    | .session2 => "inventoried_s2"
    | .session3 => "inventoried_s3"
    | .selected => "selected_flag"

instance : Choice FilterAction where
  all := [.setAElseB, .setAElseKeep, .keepElseB, .flipElseKeep, .setBElseA, .setBElseKeep,
    .keepElseA, .keepElseFlip]
  name
    | .setAElseB => "assert_sl_or_a_deassert_sl_or_b"
    | .setAElseKeep => "assert_sl_or_a_noop"
    | .keepElseB => "noop_deassert_sl_or_b"
    | .flipElseKeep => "negate_sl_or_ab_ba_noop"
    | .setBElseA => "deassert_sl_or_b_assert_sl_or_a"
    | .setBElseKeep => "deassert_sl_or_b_noop"
    | .keepElseA => "noop_assert_sl_or_a"
    | .keepElseFlip => "noop_negate_sl_or_ab_ba"

instance : Wire StateAwareFilter where
  write f := .obj [field "target" f.target, field "action" f.action]
  read := Fields.run do
    let target ← Fields.required "target"
    let action ← Fields.required "action"
    pure { target, action }

instance : Wire SelectFilter where
  write f := .obj [field "truncate" f.truncate, field "mask" f.mask,
    field "state_aware_action" f.stateAware]
  read := Fields.run do
    let truncate ← Fields.required "truncate"
    let mask ← Fields.required "mask"
    let stateAware ← Fields.nullable "state_aware_action"
    pure { truncate, mask, stateAware }

instance : Wire RfControl where
  write c := .obj [field "mode_index" c.mode, field "tari" c.tari]
  read := Fields.run do
    let mode ← Fields.required "mode_index"
    let tari ← Fields.required "tari"
    pure { mode, tari }

instance : Choice SessionState where
  all := [.a, .b]
  name
    | .a => "a"
    | .b => "b"

instance : Choice SelectedState where
  all := [.on, .off, .either]
  name
    | .on => "sl"
    | .off => "not_sl"
    | .either => "either"

instance : Wire StateAwareSingulation where
  write s := .obj [field "session_state" s.session, field "sl_state" s.selected]
  read := Fields.run do
    let session ← Fields.required "session_state"
    let selected ← Fields.required "sl_state"
    pure { session, selected }

instance : Wire Singulation where
  write s := .obj [field "session" s.session, field "tag_population" s.population,
    field "tag_transit_time" s.transitTime, field "state_aware_action" s.stateAware]
  read := Fields.run do
    let session ← Fields.required "session"
    let population ← Fields.required "tag_population"
    let transitTime ← Fields.required "tag_transit_time"
    let stateAware ← Fields.nullable "state_aware_action"
    pure { session, population, transitTime, stateAware }

instance : Wire InventoryCommand where
  write c := .obj [field "tag_inventory_state_aware" c.stateAware, field "filters" c.filters,
    field "rf_control" c.rfControl, field "singulation_control" c.singulation,
    field "custom" c.custom]
  read := Fields.run do
    let stateAware ← Fields.orElse "tag_inventory_state_aware" false
    let filters ← Fields.orElse "filters" []
    let rfControl ← Fields.orElse "rf_control" none
    let singulation ← Fields.orElse "singulation_control" none
    let custom ← Fields.orElse "custom" []
    pure { stateAware, filters, rfControl, singulation, custom }

instance : Wire AntennaConfig where
  write a := .obj [field "antenna_id" a.antenna, field "rf_receiver" a.receiver,
    field "rf_transmitter" a.transmitter, field "inventory_commands" a.commands]
  read := Fields.run do
    let antenna ← Fields.orElse "antenna_id" 0
    let receiver ← Fields.orElse "rf_receiver" none
    let transmitter ← Fields.orElse "rf_transmitter" none
    let commands ← Fields.orElse "inventory_commands" []
    pure { antenna, receiver, transmitter, commands }

instance : Wire InventorySpec where
  write i := .obj [field "spec_id" i.id, field "protocol_id" i.protocol,
    field "antenna_configurations" i.antennas]
  read := Fields.run do
    let id ← Fields.required "spec_id"
    let protocol ← Fields.required "protocol_id"
    let antennas ← Fields.orElse "antenna_configurations" []
    pure { id, protocol, antennas }

instance : Choice AiStopKind where
  all := [.null, .duration, .gpiWithTimeout, .tagObservation]
  name
    | .null => "null"
    | .duration => "duration"
    | .gpiWithTimeout => "gpi_with_timeout"
    | .tagObservation => "tag_observation"

instance : Wire AiStop where
  write s := .obj [field "trigger_type" s.kind, field "duration_ms" s.durationMs]
  read := Fields.run do
    let kind ← Fields.required "trigger_type"
    let durationMs ← Fields.required "duration_ms"
    pure { kind, durationMs }

instance : Wire AiSpec where
  write a := .obj [field "antenna_ids" a.antennas, field "stop_trigger" a.stop,
    field "inventory_parameter_specs" a.inventories]
  read := Fields.run do
    let antennas ← Fields.required "antenna_ids"
    let stop ← Fields.required "stop_trigger"
    let inventories ← Fields.required "inventory_parameter_specs"
    pure { antennas, stop, inventories }

instance : Wire GpiStart where
  write g := .obj [field "port" g.port, field "event" g.level, field "timeout_ms" g.timeoutMs]
  read := Fields.run do
    let port ← Fields.required "port"
    let level ← Fields.required "event"
    let timeoutMs ← Fields.required "timeout_ms"
    pure { port, level, timeoutMs }

instance : Wire StartTrigger where
  write
    | .null => .str "null"
    | .immediate => .str "immediate"
    | .gpi value => .obj [field "gpi" value]
  read
    | _, .str "null" => some .null
    | _, .str "immediate" => some .immediate
    | origin, .obj [("null", content)] => if origin.isUnit content then some .null else none
    | origin, .obj [("immediate", content)] =>
      if origin.isUnit content then some .immediate else none
    | origin, .obj [("gpi", content)] => (Wire.read origin content).map .gpi
    | _, _ => none

def StopTrigger.readDuration : Fields StopTrigger := do
  let ms ← Fields.required "duration_ms"
  pure (.duration ms)

/-- In a value kept as it came, the named fields of an alternative make an object only. -/
instance : Wire StopTrigger where
  write
    | .null => .str "null"
    | .duration ms => .obj [("duration", .obj [field "duration_ms" ms])]
  read
    | _, .str "null" => some .null
    | origin, .obj [("null", content)] => if origin.isUnit content then some .null else none
    | .value, .obj [("duration", .arr _)] => none
    | origin, .obj [("duration", content)] => StopTrigger.readDuration.run origin content
    | _, _ => none

instance : Wire Boundary where
  write b := .obj [field "start_trigger" b.start, field "stop_trigger" b.stop]
  read := Fields.run do
    let start ← Fields.required "start_trigger"
    let stop ← Fields.required "stop_trigger"
    pure { start, stop }

instance : Choice RoSpecState where
  all := [.disabled, .inactive, .active]
  name
    | .disabled => "disabled"
    | .inactive => "inactive"
    | .active => "active"

instance : Wire RoSpec where
  write r := .obj [field "id" r.id, field "priority" r.priority, field "state" r.state,
    field "boundary" r.boundary, field "ai_specs" r.aiSpecs, field "report_spec" r.report]
  read := Fields.run do
    let id ← Fields.required "id"
    let priority ← Fields.required "priority"
    let state ← Fields.required "state"
    let boundary ← Fields.required "boundary"
    let aiSpecs ← Fields.required "ai_specs"
    let report ← Fields.nullable "report_spec"
    pure { id, priority, state, boundary, aiSpecs, report }

instance : Wire ReaderConfig where
  write c := .obj [field "reset_to_factory_default" c.factoryReset,
    field "reader_event_notification_spec" c.notifications,
    field "antenna_configurations" c.antennas, field "ro_report_spec" c.report,
    field "keepalive_spec" c.keepalive,
    field "hold_events_and_reports_upon_reconnect" c.holdOnReconnect, field "custom" c.custom]
  read := Fields.run do
    let factoryReset ← Fields.orElse "reset_to_factory_default" false
    let notifications ← Fields.orElse "reader_event_notification_spec" none
    let antennas ← Fields.orElse "antenna_configurations" []
    let report ← Fields.orElse "ro_report_spec" none
    let keepalive ← Fields.orElse "keepalive_spec" none
    let holdOnReconnect ← Fields.orElse "hold_events_and_reports_upon_reconnect" none
    let custom ← Fields.orElse "custom" []
    pure { factoryReset, notifications, antennas, report, keepalive, holdOnReconnect, custom }

namespace Command

def readId (make : UInt32 → Command) : Fields Command := do
  let id ← Fields.required "id"
  pure (make id)

def readSetConfig : Fields Command := do
  let config ← Fields.required "config"
  pure (.setConfig config)

def readAdd : Fields Command := do
  let spec ← Fields.required "ro_spec"
  pure (.add spec)

def fieldsOf? : String → Option (Fields Command)
  | "set_config" => some readSetConfig
  | "add_ro_spec" => some readAdd
  | "delete_all_ro_specs" => some (pure .deleteAll)
  | "enable_ro_spec" => some (readId .enable)
  | "disable_ro_spec" => some (readId .disable)
  | "start_ro_spec" => some (readId .start)
  | "stop_ro_spec" => some (readId .stop)
  | _ => none

end Command

instance : Wire Command where
  write
    | .setConfig config => Tagged.write "op" "set_config" [field "config" config]
    | .add spec => Tagged.write "op" "add_ro_spec" [field "ro_spec" spec]
    | .deleteAll => Tagged.write "op" "delete_all_ro_specs" []
    | .enable id => Tagged.write "op" "enable_ro_spec" [field "id" id]
    | .disable id => Tagged.write "op" "disable_ro_spec" [field "id" id]
    | .start id => Tagged.write "op" "start_ro_spec" [field "id" id]
    | .stop id => Tagged.write "op" "stop_ro_spec" [field "id" id]
  read _ json := do
    let tagged ← Tagged.of? "op" json
    let fields ← Command.fieldsOf? tagged.tag
    fields.run .message tagged.fields

end TagGateway
