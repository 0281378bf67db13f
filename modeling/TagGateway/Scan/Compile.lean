import TagGateway.Device.Model

/-!
From a behavior to the operation of one reader, by the standard of the protocol. A fast or normal
scan inventories in one session. A deep scan inventories tags of state A and of state B in turn
where the reader can, and otherwise sets the tags that it finds back to state A first.
-/

set_option autoImplicit false

namespace TagGateway

def managedRoSpec : UInt32 := 1

def gen2Protocol : UInt8 := 1

def dualTargetMs : UInt32 := 500

def defaultPopulation : UInt16 := 32

/-- A channel's number, counted from one, in 16 bits. -/
def channelNumber (index : Nat) : Except BehaviorError UInt16 :=
  let low := index % 0x10000
  if low = 0xFFFF then .error (.channelNumber .add) else .ok (UInt16.ofNat (low + 1))

def firstOffered (wanted table : List UInt32) : Option Nat :=
  wanted.findSome? fun f => table.findIdx? (· == f)

def sessionFlag (session : UInt8) : FilterTarget :=
  match session with
  | 0 => .session0
  | 1 => .session1
  | 2 => .session2
  | _ => .session3

def rearmFilter (session : UInt8) : SelectFilter :=
  { truncate := false
    mask := { bank := .epc, firstBit := 0x20 }
    stateAware := some { target := sessionFlag session, action := .setAElseB } }

def Behavior.stopTrigger (b : Behavior) : StopTrigger :=
  if 0 < b.durationMs then .duration b.durationMs else .null

namespace DeviceModel

variable (d : DeviceModel)

def startTrigger (b : Behavior) : Except BehaviorError StartTrigger :=
  match b.gpi with
  | none => .ok .null
  | some gpi =>
    if d.inputs = 0 then .error .noInputs
    else if gpi.port = 0 ∨ d.inputs < gpi.port then .error (.noSuchInput gpi.port d.inputs)
    else .ok (.gpi { port := gpi.port, level := gpi.level, timeoutMs := gpi.timeoutMs })

/-- Power and channel. A reader that hops starts at the first frequency of its table; another
takes the first frequency wanted that it has, or its first one where none is wanted. -/
def transmitter (b : Behavior) : Except BehaviorError Transmitter := do
  let power := d.powerAtMost b.maxPower
  if b.maxPower.toInt < power.value.toInt then .error (.powerTooLow b.maxPower power.value) else
  match d.plan with
  | .hopping table =>
    .ok { hopTable := UInt16.ofNat table.id.toNat, channel := 1, power := power.index }
  | .fixed channels =>
    let index ←
      if b.frequencies.isEmpty then .ok 0
      else match firstOffered b.frequencies channels with
        | some index => .ok index
        | none => .error (.noFrequency b.frequencies)
    let channel ← channelNumber index
    .ok { hopTable := 0, channel, power := power.index }

def singulation (session : UInt8) (e : Environment) (stateAware : Option StateAwareSingulation) :
    Singulation :=
  { session
    population := if 0 < e.tagPopulation then e.tagPopulation else defaultPopulation
    transitTime := e.tagTransitMs
    stateAware }

def rfControl (e : Environment) : Except BehaviorError RfControl :=
  let mode := d.bestMode e
  if mode.id.toNat < 0x10000 then .ok { mode := UInt16.ofNat mode.id.toNat, tari := 0 }
  else .error (.modeNumber mode.id)

def aiSpec (id : UInt16) (stop : AiStop) (transmitter : Transmitter) (command : InventoryCommand) :
    AiSpec :=
  { antennas := [0]
    stop
    inventories :=
      [{ id, protocol := gen2Protocol
         antennas := [{ antenna := 0, transmitter := some transmitter, commands := [command] }] }] }

def endless : AiStop := { kind := .null, durationMs := 0 }

def oneTargetCommand (b : Behavior) (e : Environment) (rf : RfControl) : InventoryCommand :=
  { stateAware := false
    rfControl := some rf
    singulation := some (singulation b.scan.session e none) }

def dualTargetCommand (b : Behavior) (e : Environment) (rf : RfControl) (state : SessionState) :
    InventoryCommand :=
  { stateAware := true
    rfControl := some rf
    singulation := some
      (singulation b.scan.session e (some { session := state, selected := .either })) }

/-- The command that sets tags back to state A, where the reader can select at all, and then
inventories those. -/
def rearmCommand (b : Behavior) (e : Environment) (rf : RfControl) : InventoryCommand :=
  { stateAware := d.stateAware
    filters := if d.maxFilters = 0 then [] else [rearmFilter b.scan.session]
    rfControl := some rf
    singulation := some (singulation b.scan.session e
      (if d.stateAware then some { session := .a, selected := .either } else none)) }

def aiSpecs (b : Behavior) (e : Environment) (transmitter : Transmitter) (rf : RfControl) :
    List AiSpec :=
  match b.scan with
  | .fast | .normal => [aiSpec 1 endless transmitter (oneTargetCommand b e rf)]
  | .deep =>
    if d.supportsDualTarget then
      let stop : AiStop := { kind := .duration, durationMs := dualTargetMs }
      [aiSpec 1 stop transmitter (dualTargetCommand b e rf .a),
       aiSpec 2 stop transmitter (dualTargetCommand b e rf .b)]
    else [aiSpec 1 endless transmitter (d.rearmCommand b e rf)]

def roSpec (b : Behavior) (start : StartTrigger) (aiSpecs : List AiSpec) : RoSpec :=
  { id := managedRoSpec
    priority := 0
    state := .disabled
    boundary := { start, stop := b.stopTrigger }
    aiSpecs
    report := some d.report }

def compile (b : Behavior) (e : Environment) : Except BehaviorError RoSpec := do
  let start ← d.startTrigger b
  let transmitter ← d.transmitter b
  let rf ← d.rfControl e
  .ok (d.roSpec b start (d.aiSpecs b e transmitter rf))

end DeviceModel

end TagGateway
