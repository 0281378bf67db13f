import TagGateway.Reading.Basic

set_option autoImplicit false

namespace TagGateway

structure ReportContent where
  roSpec : Bool := false
  specIndex : Bool := false
  inventorySpec : Bool := false
  antenna : Bool := false
  channel : Bool := false
  peakRssi : Bool := false
  firstSeen : Bool := false
  lastSeen : Bool := false
  seenCount : Bool := false
  accessSpec : Bool := false
  deriving DecidableEq, Repr

inductive ReportTrigger where
  | none
  | everyNTagsOrAiSpecEnd
  | everyNTagsOrRoSpecEnd
  deriving DecidableEq, Repr

structure ReportSpec where
  trigger : ReportTrigger
  /-- Zero to report only at the end. -/
  tags : UInt16
  content : ReportContent
  custom : List CustomParameter := []
  deriving DecidableEq, Repr

inductive ReaderEvent where
  | gpi
  | roSpec
  | bufferFillWarning
  | exception
  | antenna
  deriving DecidableEq, Repr

structure EventNotifications where
  enabled : List ReaderEvent
  deriving DecidableEq, Repr

structure Keepalive where
  periodic : Bool
  intervalMs : UInt32
  deriving DecidableEq, Repr

/-- Where and how strongly to transmit: the hop table, the channel counted from one, and the index
of a power level. -/
structure Transmitter where
  hopTable : UInt16
  channel : UInt16
  power : UInt16
  deriving DecidableEq, Repr

structure Receiver where
  sensitivity : UInt16
  deriving DecidableEq, Repr

inductive MemoryBank where
  | reserved
  | epc
  | tid
  | user
  deriving DecidableEq, Repr

structure TagMask where
  bank : MemoryBank
  firstBit : UInt16
  mask : Octets := {}
  bitLength : UInt16 := 0
  deriving DecidableEq, Repr

inductive FilterTarget where
  | session0
  | session1
  | session2
  | session3
  | selected
  deriving DecidableEq, Repr

inductive FilterAction where
  | setAElseB
  | setAElseKeep
  | keepElseB
  | flipElseKeep
  | setBElseA
  | setBElseKeep
  | keepElseA
  | keepElseFlip
  deriving DecidableEq, Repr

structure StateAwareFilter where
  target : FilterTarget
  action : FilterAction
  deriving DecidableEq, Repr

structure SelectFilter where
  truncate : Bool
  mask : TagMask
  stateAware : Option StateAwareFilter
  deriving DecidableEq, Repr

structure RfControl where
  mode : UInt16
  /-- In nanoseconds, zero for the mode's own. -/
  tari : UInt16
  deriving DecidableEq, Repr

inductive SessionState where
  | a
  | b
  deriving DecidableEq, Repr

inductive SelectedState where
  | on
  | off
  | either
  deriving DecidableEq, Repr

structure StateAwareSingulation where
  session : SessionState
  selected : SelectedState
  deriving DecidableEq, Repr

structure Singulation where
  session : UInt8
  population : UInt16
  /-- In milliseconds. -/
  transitTime : UInt32
  stateAware : Option StateAwareSingulation
  deriving DecidableEq, Repr

structure InventoryCommand where
  stateAware : Bool := false
  filters : List SelectFilter := []
  rfControl : Option RfControl := none
  singulation : Option Singulation := none
  custom : List CustomParameter := []
  deriving DecidableEq, Repr

structure AntennaConfig where
  /-- Zero for every antenna. -/
  antenna : UInt16 := 0
  receiver : Option Receiver := none
  transmitter : Option Transmitter := none
  commands : List InventoryCommand := []
  deriving DecidableEq, Repr

structure InventorySpec where
  id : UInt16
  protocol : UInt8
  antennas : List AntennaConfig := []
  deriving DecidableEq, Repr

inductive AiStopKind where
  | null
  | duration
  | gpiWithTimeout
  | tagObservation
  deriving DecidableEq, Repr

structure AiStop where
  kind : AiStopKind
  durationMs : UInt32
  deriving DecidableEq, Repr

structure AiSpec where
  antennas : List UInt16
  stop : AiStop
  inventories : List InventorySpec
  deriving DecidableEq, Repr

structure GpiStart where
  port : UInt16
  level : Bool
  timeoutMs : UInt32
  deriving DecidableEq, Repr

inductive StartTrigger where
  | null
  | immediate
  | gpi (value : GpiStart)
  deriving DecidableEq, Repr

inductive StopTrigger where
  | null
  | duration (ms : UInt32)
  deriving DecidableEq, Repr

structure Boundary where
  start : StartTrigger
  stop : StopTrigger
  deriving DecidableEq, Repr

inductive RoSpecState where
  | disabled
  | inactive
  | active
  deriving DecidableEq, Repr

structure RoSpec where
  id : UInt32
  priority : UInt8
  state : RoSpecState
  boundary : Boundary
  aiSpecs : List AiSpec
  report : Option ReportSpec
  deriving DecidableEq, Repr

structure ReaderConfig where
  factoryReset : Bool := false
  notifications : Option EventNotifications := none
  antennas : List AntennaConfig := []
  report : Option ReportSpec := none
  keepalive : Option Keepalive := none
  holdOnReconnect : Option Bool := none
  custom : List CustomParameter := []
  deriving DecidableEq, Repr

inductive Command where
  | setConfig (config : ReaderConfig)
  | add (spec : RoSpec)
  | deleteAll
  | enable (id : UInt32)
  | disable (id : UInt32)
  | start (id : UInt32)
  | stop (id : UInt32)
  deriving DecidableEq, Repr

def Command.name : Command → String
  | setConfig _ => "SET_READER_CONFIG"
  | add _ => "ADD_ROSPEC"
  | deleteAll => "DELETE_ROSPEC"
  | enable _ => "ENABLE_ROSPEC"
  | disable _ => "DISABLE_ROSPEC"
  | start _ => "START_ROSPEC"
  | stop _ => "STOP_ROSPEC"

end TagGateway
