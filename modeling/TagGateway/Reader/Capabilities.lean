import TagGateway.Reading.Basic

set_option autoImplicit false

namespace TagGateway

structure GpioCounts where
  inputs : UInt16 := 0
  outputs : UInt16 := 0
  deriving DecidableEq, Repr

structure GeneralCapabilities where
  antennas : UInt16 := 0
  canSetAntennaProperties : Bool := false
  hasUtcClock : Bool := false
  manufacturer : UInt32 := 0
  model : UInt32 := 0
  firmware : String := ""
  gpio : Option GpioCounts := none
  deriving DecidableEq, Repr

structure ProtocolCapabilities where
  canSurvey : Bool := false
  canWarnOfFullBuffer : Bool := false
  supportsClientRequests : Bool := false
  stateAwareSingulation : Bool := false
  canHoldEvents : Bool := false
  maxPriority : UInt8 := 0
  maxRoSpecs : UInt32 := 0
  /-- Zero for no limit. -/
  maxSpecsPerRoSpec : UInt32 := 0
  maxInventorySpecsPerAiSpec : UInt32 := 0
  maxAccessSpecs : UInt32 := 0
  maxOpSpecsPerAccessSpec : UInt32 := 0
  deriving DecidableEq, Repr

/-- A step of transmit power: its index in the reader's table, and hundredths of a dBm. -/
structure PowerLevel where
  index : UInt16
  value : Int16
  deriving DecidableEq, Repr

/-- Frequencies in kHz, in the order of hopping. -/
structure HopTable where
  id : UInt8
  frequencies : List UInt32
  deriving DecidableEq, Repr

structure FixedTable where
  frequencies : List UInt32
  deriving DecidableEq, Repr

structure FrequencyTables where
  hopping : Bool := false
  hopTables : List HopTable := []
  fixedTable : Option FixedTable := none
  deriving DecidableEq, Repr

inductive SpectralMask where
  | unknown
  | single
  | multi
  | dense
  deriving DecidableEq, Repr

inductive Modulation where
  | fm0
  | miller2
  | miller4
  | miller8
  deriving DecidableEq, Repr

inductive DivideRatio where
  | eight
  | sixtyFourThirds
  deriving DecidableEq, Repr

inductive ForwardModulation where
  | prAsk
  | ssbAsk
  | dsbAsk
  deriving DecidableEq, Repr

structure RfMode where
  id : UInt32 := 0
  divideRatio : DivideRatio := .eight
  epcConformance : Bool := false
  modulation : Modulation := .fm0
  forwardModulation : ForwardModulation := .prAsk
  mask : SpectralMask := .unknown
  /-- In bits per second. -/
  backscatterRate : UInt32 := 0
  /-- In thousandths. -/
  pieRatio : UInt32 := 0
  /-- In nanoseconds, as the two below. -/
  minTari : UInt32 := 0
  maxTari : UInt32 := 0
  stepTari : UInt32 := 0
  deriving DecidableEq, Repr

structure UhfCapabilities where
  powerLevels : List PowerLevel := []
  frequencies : Option FrequencyTables := none
  modes : List RfMode := []
  deriving DecidableEq, Repr

structure RegulatoryCapabilities where
  country : UInt16 := 0
  standard : UInt16 := 0
  uhf : Option UhfCapabilities := none
  deriving DecidableEq, Repr

structure AirCapabilities where
  blockErase : Bool := false
  blockWrite : Bool := false
  blockPermalock : Bool := false
  tagRecommissioning : Bool := false
  umiMethod2 : Bool := false
  xpc : Bool := false
  maxSelectFilters : UInt16 := 0
  deriving DecidableEq, Repr

structure Capabilities where
  general : Option GeneralCapabilities := none
  protocol : Option ProtocolCapabilities := none
  regulatory : Option RegulatoryCapabilities := none
  air : Option AirCapabilities := none
  custom : List CustomParameter := []
  deriving DecidableEq, Repr

namespace SpectralMask

def level : SpectralMask → Nat
  | unknown => 0
  | single => 1
  | multi => 2
  | dense => 3

def relax : SpectralMask → Option SpectralMask
  | dense => some multi
  | multi => some single
  | single => some unknown
  | unknown => none

theorem level_of_relax {m weaker : SpectralMask} (h : m.relax = some weaker) :
    m.level = weaker.level + 1 := by
  cases m <;> simp [relax] at h <;> subst h <;> rfl

theorem level_of_relax_eq_none {m : SpectralMask} (h : m.relax = none) : m.level = 0 := by
  cases m <;> simp [relax] at h
  rfl

end SpectralMask

def Modulation.symbolsPerBit : Modulation → UInt32
  | fm0 => 1
  | miller2 => 2
  | miller4 => 4
  | miller8 => 8

end TagGateway
