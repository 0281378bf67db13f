import Std.Sync.Mutex
import Std.Time.DateTime.Timestamp
import TagGateway.Gateway.Station
import TagGateway.Link.Lines

/-!
The program: a gateway between standard input and standard output. Its settings come from a file
and the environment. Messages are handled line by line while sweeps run beside them, and at the end
of the input the inventory is kept once more. Standard output carries messages only.
-/

set_option autoImplicit false

namespace TagGateway.Program

/-- What a path leads to. What cannot be read counts as a directory. -/
def nodeAt (path : String) : IO (Option Node) := do
  try
    let content ← IO.FS.readBinFile path
    return some (.file content.data.toList)
  catch
    | .noFileOrDirectory .. => return none
    | _ => return some .directory

def replaceFile (path : String) (content : Bytes) : IO Bool := do
  try
    IO.FS.writeBinFile (temporary path) ⟨content.toArray⟩
    IO.FS.rename (temporary path) path
    return true
  catch _ => return false

def nextOctets : IO ByteArray := do
  let stdin ← IO.getStdin
  let mut line := ByteArray.empty
  repeat
    let octet ← stdin.read 1
    line := line ++ octet
    if octet.isEmpty || octet.data.contains lineFeed then break
  return line

def nextLine : IO (Option Bytes) := do
  try
    let line : Bytes := (← nextOctets).data.toList
    return if line.isEmpty || line.toString?.isNone then none else some line
  catch _ => return none

def keep (path : String) (step : Gateway Float × Option (List (TagRecord Float))) :
    IO (Gateway Float) := do
  match step.2 with
  | none => return step.1
  | some records => return step.1.kept (← replaceFile path (Wire.write records).print)

def deliver (g : Gateway Float) : IO (Gateway Float) := do
  let (batches, events) := g.publisher.queue.drain
  let (messages, outbound) := g.link.outbound.drain
  let stream := streamOf (messages ++ batches.map Outbound.events)
  try
    let out ← IO.getStdout
    out.write ⟨stream.toArray⟩
    out.flush
    return { g with publisher.queue := events, link.outbound := outbound }
  catch _ => return { g with publisher.queue := events.close, link.outbound := outbound.close }

def require {α : Type} : Except Overflow α → IO α
  | .ok a => return a
  | .error cause => throw (IO.userError cause.message)

def now : IO Int64 := do
  return Int64.ofInt (← Std.Time.Timestamp.now).toMillisecondsSinceUnixEpoch.val

def sweep (path : String) (departedDue ageOutDue : Bool) (g : Gateway Float) :
    IO (Gateway Float) := do
  let mut g := g
  if departedDue then
    g ← keep path (← require (g.sweepDeparted (← now)))
    g ← keep path g.flushIfDirty
  if ageOutDue then
    g ← keep path (← require (g.sweepAgeOut (← now)))
  deliver g

def change {α : Type} (shared : Std.Mutex (Gateway Float))
    (step : Gateway Float → IO (α × Gateway Float)) : IO α :=
  shared.atomically do
    let (a, g) ← step (← get)
    set g
    return a

/-- Sweeps four times a second whatever is due, until it is told to stop. The intervals are those
of the configuration at that time. -/
def sweepUntil (stop : IO.Ref Bool) (settings : Settings Float)
    (shared : Std.Mutex (Gateway Float)) : IO Unit := do
  let mut departed ← IO.monoMsNow
  let mut ageOut := departed
  repeat
    if ← stop.get then break
    IO.sleep 250
    let time ← IO.monoMsNow
    let ageOutDue := Station.isDue (time - ageOut) settings.ageOutCheckSeconds
    let since := time - departed
    let departedDue ← change shared fun g => do
      let due := Station.isDue since g.inventory.config.departedCheckSeconds
      return (due, ← sweep settings.cachePath due ageOutDue g)
    if departedDue then departed := time
    if ageOutDue then ageOut := time

def handleLine (line : Bytes) (g : Gateway Float) : IO (Bool × Gateway Float) := do
  let (g, outcome) := g.handleAll (messagesOf (linesOf line))
  let g ← deliver g
  match outcome with
  | .ok () => return (true, g)
  | .error cause =>
    IO.eprintln cause.message
    return (false, g)

/-- Commands for which there is room. The output is emptied after each message. -/
def roomForCommands : Nat := UInt64.size

def run (settings : Settings Float) : IO Unit := do
  let path := settings.cachePath
  let g : Gateway Float := .new settings settings.eventQueue.toNat roomForCommands
  let disk : Disk := match ← nodeAt path with
    | some node => ({} : Disk).put path node
    | none => {}
  let g := { g with inventory := g.inventory.restore (disk.loadOrEmpty path) }
  let shared ← Std.Mutex.new g
  let stop ← IO.mkRef false
  let sweeper ← IO.asTask (sweepUntil stop settings shared) .dedicated
  repeat
    let some line ← nextLine | break
    if !(← change shared (handleLine line)) then break
  stop.set true
  if let .error e := sweeper.get then IO.eprintln (toString e)
  change shared fun g => do
    let (g, records) := g.flush
    return ((), ← keep path (g, some records))

end TagGateway.Program

def main : IO UInt32 := do
  let path := (← IO.getEnv "RFID_GATEWAY_CONFIG").getD "gateway.json"
  let overrides : TagGateway.Overrides :=
    { gatewayId := ← IO.getEnv "RFID_GATEWAY_ID", cachePath := ← IO.getEnv "RFID_CACHE_PATH" }
  match TagGateway.Settings.load (← TagGateway.Program.nodeAt path) overrides with
  | .error e =>
    IO.eprintln ("Config load failed: " ++ e.message)
    return 1
  | .ok settings =>
    TagGateway.Program.run settings
    return 0
