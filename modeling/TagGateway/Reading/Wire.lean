import TagGateway.Reading.Basic
import TagGateway.Wire.Record

set_option autoImplicit false

namespace TagGateway

open Wire (field)

instance : Wire CustomParameter where
  write p := .obj [field "vendor_id" p.vendor, field "subtype" p.subtype, field "data" p.data]
  read := Fields.run do
    let vendor ← Fields.required "vendor_id"
    let subtype ← Fields.required "subtype"
    let data ← Fields.orElse "data" {}
    pure { vendor, subtype, data }

instance : Wire ShortEpc where
  write e := .obj [field "epc" e.epc]
  read := Fields.run do
    let epc ← Fields.required "epc"
    pure { epc }

instance : Wire LongEpc where
  write e := .obj [field "epc" e.epc, field "bit_len" e.bitLength]
  read := Fields.run do
    let epc ← Fields.required "epc"
    let bitLength ← Fields.orElse "bit_len" 0
    pure { epc, bitLength }

instance : Wire MemoryRead where
  write r := .obj [field "result" r.status, field "op_spec_id" r.opSpec, field "data" r.words]
  read := Fields.run do
    let status ← Fields.required "result"
    let opSpec ← Fields.required "op_spec_id"
    let words ← Fields.orElse "data" []
    pure { status, opSpec, words }

def ReportFields.members (f : ReportFields) : List (String × Json) :=
  [field "ro_spec_id" f.roSpec, field "spec_index" f.specIndex,
   field "inventory_parameter_spec_id" f.inventorySpec, field "antenna_id" f.antenna,
   field "peak_rssi" f.peakRssi, field "channel_index" f.channel,
   field "first_seen_utc" f.firstSeenUtc, field "first_seen_uptime" f.firstSeenUptime,
   field "last_seen_utc" f.lastSeenUtc, field "last_seen_uptime" f.lastSeenUptime,
   field "tag_seen_count" f.seenCount, field "access_spec_id" f.accessSpec]

def ReportFields.read : Fields ReportFields := do
  let roSpec ← Fields.orElse "ro_spec_id" none
  let specIndex ← Fields.orElse "spec_index" none
  let inventorySpec ← Fields.orElse "inventory_parameter_spec_id" none
  let antenna ← Fields.orElse "antenna_id" none
  let peakRssi ← Fields.orElse "peak_rssi" none
  let channel ← Fields.orElse "channel_index" none
  let firstSeenUtc ← Fields.orElse "first_seen_utc" none
  let firstSeenUptime ← Fields.orElse "first_seen_uptime" none
  let lastSeenUtc ← Fields.orElse "last_seen_utc" none
  let lastSeenUptime ← Fields.orElse "last_seen_uptime" none
  let seenCount ← Fields.orElse "tag_seen_count" none
  let accessSpec ← Fields.orElse "access_spec_id" none
  pure { roSpec, specIndex, inventorySpec, antenna, peakRssi, channel, firstSeenUtc,
         firstSeenUptime, lastSeenUtc, lastSeenUptime, seenCount, accessSpec }

instance : Wire Reading where
  write r := .obj (field "epc_96" r.shortEpc :: field "epc_data" r.longEpc ::
    (r.fields.members ++ [field "read_results" r.memory, field "custom" r.custom]))
  read := Fields.run do
    let shortEpc ← Fields.orElse "epc_96" none
    let longEpc ← Fields.orElse "epc_data" none
    let fields ← ReportFields.read
    let memory ← Fields.orElse "read_results" []
    let custom ← Fields.orElse "custom" []
    pure { shortEpc, longEpc, fields, memory, custom }

end TagGateway
