import TagGateway.Reader.Operation
import TagGateway.Scan.Mode
import TagGateway.Scan.Power

set_option autoImplicit false

namespace TagGateway

inductive FrequencyPlan where
  | hopping (table : HopTable)
  | fixed (channels : List UInt32)
  deriving DecidableEq, Repr

def FrequencyPlan.size : FrequencyPlan → Nat
  | hopping table => table.frequencies.length
  | fixed channels => channels.length

def FrequencyTables.plan (tables : FrequencyTables) : Except BehaviorError FrequencyPlan :=
  if tables.hopping then
    match tables.hopTables with
    | table :: _ =>
      if table.frequencies.isEmpty then .error (.missing .hopTable) else .ok (.hopping table)
    | [] => .error (.missing .hopTable)
  else
    match tables.fixedTable with
    | some table =>
      if table.frequencies.isEmpty then .error (.missing .fixedTable)
      else .ok (.fixed table.frequencies)
    | none => .error (.missing .fixedTable)

structure DeviceModel where
  manufacturer : UInt32
  model : UInt32
  firmware : String
  hasUtcClock : Bool
  /-- In ascending order of power. -/
  powerLevels : List PowerLevel
  powerLevels_ne : powerLevels ≠ []
  modes : List RfMode
  modes_ne : modes ≠ []
  /-- An operation names a mode in 16 bits. -/
  modes_fit : ∀ m ∈ modes, m.id.toNat < 0x10000
  frequencies : FrequencyTables
  plan : FrequencyPlan
  plan_eq : frequencies.plan = .ok plan
  inputs : UInt16
  outputs : UInt16
  /-- Zero for no limit. -/
  maxSpecs : UInt32
  stateAware : Bool
  holdsEvents : Bool
  maxFilters : UInt16
  deriving DecidableEq

@[simp] def Option.need {α : Type} (part : CapabilityPart) : Option α → Except BehaviorError α
  | some a => .ok a
  | none => .error (.missing part)

namespace DeviceModel

theorem table_ne_nil {levels : List PowerLevel} (h : levels ≠ []) :
    PowerLevel.table levels ≠ [] := by
  unfold PowerLevel.table
  split
  · exact h
  · intro hs
    have := congrArg List.length hs
    simp at this
    exact h this

/-- The model of a reader. Parts are looked for in a fixed order, and the first that is missing is
reported. -/
def ofCapabilities (caps : Capabilities) : Except BehaviorError DeviceModel := do
  let general ← Option.need .general caps.general
  let protocol ← Option.need .protocol caps.protocol
  let regulatory ← Option.need .regulatory caps.regulatory
  let air ← Option.need .air caps.air
  let uhf ← Option.need .uhf regulatory.uhf
  if hp : uhf.powerLevels = [] then .error (.missing .powerTable) else
  let modes := uhf.modes.filter fun m => m.id.toNat < 0x10000
  if hm : modes = [] then .error (.missing .modeTable) else
  let frequencies ← Option.need .frequencies uhf.frequencies
  match hf : frequencies.plan with
  | .error e => .error e
  | .ok plan =>
    let gpio := general.gpio.getD {}
    .ok
      { manufacturer := general.manufacturer
        model := general.model
        firmware := general.firmware
        hasUtcClock := general.hasUtcClock
        powerLevels := PowerLevel.table uhf.powerLevels
        powerLevels_ne := table_ne_nil hp
        modes
        modes_ne := hm
        modes_fit := fun m h => by simpa using (List.mem_filter.1 h).2
        frequencies
        plan
        plan_eq := hf
        inputs := gpio.inputs
        outputs := gpio.outputs
        maxSpecs := protocol.maxSpecsPerRoSpec
        stateAware := protocol.stateAwareSingulation
        holdsEvents := protocol.canHoldEvents
        maxFilters := air.maxSelectFilters }

/-- The fields that reports are asked for. A reader without a clock has no first sighting to
report. -/
def content (d : DeviceModel) : ReportContent :=
  { roSpec := true, specIndex := true, antenna := true, channel := true, peakRssi := true,
    firstSeen := d.hasUtcClock, lastSeen := true, seenCount := true }

def report (d : DeviceModel) : ReportSpec :=
  { trigger := .everyNTagsOrAiSpecEnd, tags := 1, content := d.content }

def keepaliveMs : UInt32 := 10000

def config (d : DeviceModel) : ReaderConfig :=
  { notifications := some
      { enabled := [.roSpec, .exception, .antenna] ++ if 0 < d.inputs then [.gpi] else [] }
    report := some d.report
    keepalive := some { periodic := true, intervalMs := keepaliveMs }
    holdOnReconnect := if d.holdsEvents then some false else none }

def powerAtMost (d : DeviceModel) (ceiling : Int16) : PowerLevel :=
  PowerLevel.atMost ceiling d.powerLevels d.powerLevels_ne

def bestMode (d : DeviceModel) (e : Environment) : RfMode :=
  let target := targetMask e.nearbyReaders.toNat d.plan.size
  (TagGateway.bestMode RfMode.beats d.modes target).getD (d.modes.head d.modes_ne)

/-- Whether tags of either state can be inventoried in turn: that takes two antenna operations in
one reader operation. -/
def supportsDualTarget (d : DeviceModel) : Bool :=
  d.stateAware && (d.maxSpecs == 0 || 2 ≤ d.maxSpecs)

end DeviceModel

end TagGateway
