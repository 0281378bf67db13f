import TagGateway.Reader.Capabilities
import TagGateway.Reading.Wire

set_option autoImplicit false

namespace TagGateway

open Wire (field)

instance : Wire GpioCounts where
  write g := .obj [field "num_gpis" g.inputs, field "num_gpos" g.outputs]
  read := Fields.run do
    let inputs ← Fields.required "num_gpis"
    let outputs ← Fields.required "num_gpos"
    pure { inputs, outputs }

instance : Wire GeneralCapabilities where
  write g := .obj [field "max_supported_antennas" g.antennas,
    field "can_set_antenna_properties" g.canSetAntennaProperties,
    field "has_utc_clock" g.hasUtcClock, field "device_manufacturer" g.manufacturer,
    field "model" g.model, field "firmware_version" g.firmware, field "gpio" g.gpio]
  read := Fields.run do
    let antennas ← Fields.orElse "max_supported_antennas" 0
    let canSetAntennaProperties ← Fields.orElse "can_set_antenna_properties" false
    let hasUtcClock ← Fields.orElse "has_utc_clock" false
    let manufacturer ← Fields.orElse "device_manufacturer" 0
    let model ← Fields.orElse "model" 0
    let firmware ← Fields.orElse "firmware_version" ""
    let gpio ← Fields.orElse "gpio" none
    pure { antennas, canSetAntennaProperties, hasUtcClock, manufacturer, model, firmware, gpio }

instance : Wire ProtocolCapabilities where
  write p := .obj [field "can_do_rf_survey" p.canSurvey,
    field "can_report_buffer_fill_warning" p.canWarnOfFullBuffer,
    field "supports_client_request_op_spec" p.supportsClientRequests,
    field "can_do_tag_inventory_state_aware_singulation" p.stateAwareSingulation,
    field "supports_event_and_report_holding" p.canHoldEvents,
    field "max_priority_level_supported" p.maxPriority, field "max_ro_specs" p.maxRoSpecs,
    field "max_specs_per_ro_spec" p.maxSpecsPerRoSpec,
    field "max_inventory_parameter_specs_per_ai_spec" p.maxInventorySpecsPerAiSpec,
    field "max_access_specs" p.maxAccessSpecs,
    field "max_op_specs_per_access_spec" p.maxOpSpecsPerAccessSpec]
  read := Fields.run do
    let canSurvey ← Fields.orElse "can_do_rf_survey" false
    let canWarnOfFullBuffer ← Fields.orElse "can_report_buffer_fill_warning" false
    let supportsClientRequests ← Fields.orElse "supports_client_request_op_spec" false
    let stateAwareSingulation ← Fields.orElse "can_do_tag_inventory_state_aware_singulation" false
    let canHoldEvents ← Fields.orElse "supports_event_and_report_holding" false
    let maxPriority ← Fields.orElse "max_priority_level_supported" 0
    let maxRoSpecs ← Fields.orElse "max_ro_specs" 0
    let maxSpecsPerRoSpec ← Fields.orElse "max_specs_per_ro_spec" 0
    let maxInventorySpecsPerAiSpec ← Fields.orElse "max_inventory_parameter_specs_per_ai_spec" 0
    let maxAccessSpecs ← Fields.orElse "max_access_specs" 0
    let maxOpSpecsPerAccessSpec ← Fields.orElse "max_op_specs_per_access_spec" 0
    pure { canSurvey, canWarnOfFullBuffer, supportsClientRequests, stateAwareSingulation,
           canHoldEvents, maxPriority, maxRoSpecs, maxSpecsPerRoSpec, maxInventorySpecsPerAiSpec,
           maxAccessSpecs, maxOpSpecsPerAccessSpec }

instance : Wire PowerLevel where
  write l := .obj [field "index" l.index, field "transmit_power_value" l.value]
  read := Fields.run do
    let index ← Fields.required "index"
    let value ← Fields.required "transmit_power_value"
    pure { index, value }

instance : Wire HopTable where
  write t := .obj [field "hop_table_id" t.id, field "frequencies" t.frequencies]
  read := Fields.run do
    let id ← Fields.required "hop_table_id"
    let frequencies ← Fields.required "frequencies"
    pure { id, frequencies }

instance : Wire FixedTable where
  write t := .obj [field "frequencies" t.frequencies]
  read := Fields.run do
    let frequencies ← Fields.required "frequencies"
    pure { frequencies }

instance : Wire FrequencyTables where
  write f := .obj [field "hopping" f.hopping, field "hop_tables" f.hopTables,
    field "fixed_frequency_table" f.fixedTable]
  read := Fields.run do
    let hopping ← Fields.orElse "hopping" false
    let hopTables ← Fields.orElse "hop_tables" []
    let fixedTable ← Fields.orElse "fixed_frequency_table" none
    pure { hopping, hopTables, fixedTable }

instance : Choice SpectralMask where
  all := [.unknown, .single, .multi, .dense]
  name
    | .unknown => "unknown"
    | .single => "single_interrogator"
    | .multi => "multi_interrogator"
    | .dense => "dense_interrogator"

instance : Choice Modulation where
  all := [.fm0, .miller2, .miller4, .miller8]
  name
    | .fm0 => "fm0"
    | .miller2 => "miller2"
    | .miller4 => "miller4"
    | .miller8 => "miller8"

instance : Choice DivideRatio where
  all := [.eight, .sixtyFourThirds]
  name
    | .eight => "dr8"
    | .sixtyFourThirds => "dr64_over3"

instance : Choice ForwardModulation where
  all := [.prAsk, .ssbAsk, .dsbAsk]
  name
    | .prAsk => "pr_ask"
    | .ssbAsk => "ssb_ask"
    | .dsbAsk => "dsb_ask"

instance : Wire RfMode where
  write m := .obj [field "mode_id" m.id, field "divide_ratio" m.divideRatio,
    field "epc_hag_conformance" m.epcConformance, field "modulation" m.modulation,
    field "forward_link_modulation" m.forwardModulation, field "spectral_mask" m.mask,
    field "backscatter_data_rate" m.backscatterRate, field "pie_ratio" m.pieRatio,
    field "min_tari_time" m.minTari, field "max_tari_time" m.maxTari,
    field "step_tari_time" m.stepTari]
  read := Fields.run do
    let id ← Fields.orElse "mode_id" 0
    let divideRatio ← Fields.orElse "divide_ratio" .eight
    let epcConformance ← Fields.orElse "epc_hag_conformance" false
    let modulation ← Fields.orElse "modulation" .fm0
    let forwardModulation ← Fields.orElse "forward_link_modulation" .prAsk
    let mask ← Fields.orElse "spectral_mask" .unknown
    let backscatterRate ← Fields.orElse "backscatter_data_rate" 0
    let pieRatio ← Fields.orElse "pie_ratio" 0
    let minTari ← Fields.orElse "min_tari_time" 0
    let maxTari ← Fields.orElse "max_tari_time" 0
    let stepTari ← Fields.orElse "step_tari_time" 0
    pure { id, divideRatio, epcConformance, modulation, forwardModulation, mask, backscatterRate,
           pieRatio, minTari, maxTari, stepTari }

instance : Wire UhfCapabilities where
  write u := .obj [field "transmit_power_levels" u.powerLevels,
    field "frequency_information" u.frequencies, field "c1g2_rf_modes" u.modes]
  read := Fields.run do
    let powerLevels ← Fields.orElse "transmit_power_levels" []
    let frequencies ← Fields.orElse "frequency_information" none
    let modes ← Fields.orElse "c1g2_rf_modes" []
    pure { powerLevels, frequencies, modes }

instance : Wire RegulatoryCapabilities where
  write r := .obj [field "country_code" r.country, field "communications_standard" r.standard,
    field "uhf_band_capabilities" r.uhf]
  read := Fields.run do
    let country ← Fields.orElse "country_code" 0
    let standard ← Fields.orElse "communications_standard" 0
    let uhf ← Fields.orElse "uhf_band_capabilities" none
    pure { country, standard, uhf }

instance : Wire AirCapabilities where
  write a := .obj [field "supports_block_erase" a.blockErase,
    field "supports_block_write" a.blockWrite, field "supports_block_permalock" a.blockPermalock,
    field "supports_tag_recommissioning" a.tagRecommissioning,
    field "supports_umi_method2" a.umiMethod2, field "supports_xpc" a.xpc,
    field "max_num_select_filters_per_query" a.maxSelectFilters]
  read := Fields.run do
    let blockErase ← Fields.orElse "supports_block_erase" false
    let blockWrite ← Fields.orElse "supports_block_write" false
    let blockPermalock ← Fields.orElse "supports_block_permalock" false
    let tagRecommissioning ← Fields.orElse "supports_tag_recommissioning" false
    let umiMethod2 ← Fields.orElse "supports_umi_method2" false
    let xpc ← Fields.orElse "supports_xpc" false
    let maxSelectFilters ← Fields.orElse "max_num_select_filters_per_query" 0
    pure { blockErase, blockWrite, blockPermalock, tagRecommissioning, umiMethod2, xpc,
           maxSelectFilters }

instance : Wire Capabilities where
  write c := .obj [field "general_device_capabilities" c.general,
    field "llrp_capabilities" c.protocol, field "regulatory_capabilities" c.regulatory,
    field "c1g2_llrp_capabilities" c.air, field "custom" c.custom]
  read := Fields.run do
    let general ← Fields.orElse "general_device_capabilities" none
    let protocol ← Fields.orElse "llrp_capabilities" none
    let regulatory ← Fields.orElse "regulatory_capabilities" none
    let air ← Fields.orElse "c1g2_llrp_capabilities" none
    let custom ← Fields.orElse "custom" []
    pure { general, protocol, regulatory, air, custom }

end TagGateway
