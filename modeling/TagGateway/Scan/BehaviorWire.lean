import TagGateway.Scan.Behavior
import TagGateway.Wire.Record

set_option autoImplicit false

namespace TagGateway

open Wire (field)

instance : Choice ScanType where
  all := [.fast, .normal, .deep]
  name
    | .fast => "fast"
    | .normal => "normal"
    | .deep => "deep"

instance : Wire GpiTrigger where
  write g := .obj [field "port" g.port, field "event" g.level, field "timeout_ms" g.timeoutMs]
  read := Fields.run do
    let port ← Fields.required "port"
    let level ← Fields.required "event"
    let timeoutMs ← Fields.orElse "timeout_ms" 0
    pure { port, level, timeoutMs }

instance : Wire ImpinjOptions where
  write o := .obj [field "fast_id" o.fastId]
  read := Fields.run do
    let fastId ← Fields.orElse "fast_id" false
    pure { fastId }

instance : Wire Behavior where
  write b := .obj [field "scan_type" b.scan, field "max_power" b.maxPower,
    field "duration_ms" b.durationMs, field "gpi_trigger" b.gpi,
    field "frequencies" b.frequencies, field "impinj_options" b.impinj]
  read := Fields.run do
    let scan ← Fields.orElse "scan_type" .normal
    let maxPower ← Fields.orElse "max_power" 3000
    let durationMs ← Fields.orElse "duration_ms" 0
    let gpi ← Fields.orElse "gpi_trigger" none
    let frequencies ← Fields.orElse "frequencies" []
    let impinj ← Fields.orElse "impinj_options" none
    pure { scan, maxPower, durationMs, gpi, frequencies, impinj }

instance : Wire Environment where
  write e := .obj [field "num_nearby_readers" e.nearbyReaders,
    field "tag_population" e.tagPopulation, field "tag_transit_time_ms" e.tagTransitMs]
  read := Fields.run do
    let nearbyReaders ← Fields.orElse "num_nearby_readers" 0
    let tagPopulation ← Fields.orElse "tag_population" 0
    let tagTransitMs ← Fields.orElse "tag_transit_time_ms" 0
    pure { nearbyReaders, tagPopulation, tagTransitMs }

end TagGateway
