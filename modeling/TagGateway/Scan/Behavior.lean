import TagGateway.Overflow
import TagGateway.Reader.Capabilities

set_option autoImplicit false

namespace TagGateway

inductive ScanType where
  | fast
  | normal
  | deep
  deriving DecidableEq, Repr

/-- The session whose flag the tags keep. -/
def ScanType.session : ScanType → UInt8
  | fast => 0
  | normal => 1
  | deep => 2

structure GpiTrigger where
  port : UInt16
  level : Bool
  timeoutMs : UInt32 := 0
  deriving DecidableEq, Repr

structure ImpinjOptions where
  fastId : Bool := false
  deriving DecidableEq, Repr

structure Behavior where
  scan : ScanType := .normal
  maxPower : Int16 := 3000
  durationMs : UInt32 := 0
  gpi : Option GpiTrigger := none
  /-- In kHz, the one wanted most first; only where readers do not hop. -/
  frequencies : List UInt32 := []
  impinj : Option ImpinjOptions := none
  deriving DecidableEq, Repr

structure Environment where
  nearbyReaders : UInt32 := 0
  tagPopulation : UInt16 := 0
  tagTransitMs : UInt32 := 0
  deriving DecidableEq, Repr

inductive CapabilityPart where
  | general
  | protocol
  | regulatory
  | air
  | uhf
  | powerTable
  | modeTable
  | frequencies
  | hopTable
  | fixedTable
  deriving DecidableEq, Repr

def CapabilityPart.title : CapabilityPart → String
  | general => "general device capabilities"
  | protocol => "LLRP capabilities"
  | regulatory => "regulatory capabilities"
  | air => "C1G2 LLRP capabilities"
  | uhf => "UHF band capabilities"
  | powerTable => "transmit power level table"
  | modeTable => "C1G2 RF mode table"
  | frequencies => "frequency information"
  | hopTable => "frequency hop table"
  | fixedTable => "fixed frequency table"

inductive BehaviorError where
  | missing (part : CapabilityPart)
  | powerTooLow (requested least : Int16)
  | noFrequency (requested : List UInt32)
  | noInputs
  | noSuchInput (port inputs : UInt16)
  /-- The number of a channel, counted from one, does not fit its word. -/
  | channelNumber (cause : Overflow)
  | modeNumber (id : UInt32)
  deriving DecidableEq, Repr

def BehaviorError.overflow? : BehaviorError → Option Overflow
  | channelNumber cause => some cause
  | _ => none

def bracketed (numbers : List UInt32) : String :=
  "[" ++ ", ".intercalate (numbers.map fun n => toString n.toNat) ++ "]"

def BehaviorError.detail : BehaviorError → String
  | missing part => part.title
  | powerTooLow requested least =>
    "requested power " ++ toString requested.toInt ++ " is below the device minimum "
      ++ toString least.toInt
  | noFrequency requested =>
    "none of the requested frequencies " ++ bracketed requested ++ " are available"
  | noInputs => "GPI trigger requested but the device has no GPIs"
  | noSuchInput port inputs =>
    "GPI port " ++ toString port.toNat ++ " is out of range 1..=" ++ toString inputs.toNat
  | channelNumber cause => cause.message
  | modeNumber id => "RF mode " ++ toString id.toNat ++ " out of range"

def BehaviorError.message (e : BehaviorError) : String :=
  match e with
  | missing _ => "missing capability info: " ++ e.detail
  | channelNumber _ => e.detail
  | _ => "behavior unsatisfiable: " ++ e.detail

end TagGateway
