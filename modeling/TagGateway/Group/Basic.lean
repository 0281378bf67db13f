import Std.Data.TreeMap
import TagGateway.Device.CarryForward
import TagGateway.Group.Service

/-!
A group of readers that all do the same. A reader joins when it could be set up for the group's
behavior. A new behavior is compiled for every reader before any of them hears of it; if it suits
them all it holds from then on, and each reader is told, whether or not others fail.
-/

set_option autoImplicit false

namespace TagGateway

structure GroupReader where
  device : Device
  carries : Bool
  seen : LastSeen := {}

/-- A reader that joins. A group may trust vendors that say they leave nothing out. -/
def GroupReader.new (device : Device) (trust : Bool) : GroupReader :=
  { device, carries := !(trust && device.vendor.reportsAllFields) }

def GroupReader.process (r : GroupReader) (batch : List Reading) : GroupReader × List Reading :=
  let (seen, batch) := r.device.completeAll r.carries r.seen batch
  ({ r with seen }, batch)

inductive ReaderError where
  | behavior (cause : BehaviorError)
  | service (cause : ServiceError)
  | unknown (name : String)
  deriving DecidableEq, Repr

def ReaderError.message : ReaderError → String
  | behavior cause => cause.message
  | service cause => cause.message
  | unknown name => "reader " ++ name ++ " is not managed by this group"

def ReaderError.overflow? : ReaderError → Option Overflow
  | behavior cause => cause.overflow?
  | _ => none

inductive GroupError where
  | rejected (reader : String) (cause : BehaviorError)
  | push (failures : List Failure)
  deriving DecidableEq, Repr

def GroupError.message : GroupError → String
  | rejected reader cause => "reader " ++ reader ++ ": " ++ cause.message
  | push failures => failureText failures

def GroupError.overflow? : GroupError → Option Overflow
  | rejected _ cause => cause.overflow?
  | push _ => none

structure Group where
  readers : Std.TreeMap String GroupReader := ∅
  behavior : Behavior := {}
  environment : Environment := {}
  running : Bool := false
  trust : Bool := false

/-- The commands that replace what a reader does by one operation. An operation that an input
starts is left to that input. -/
def installation (spec : RoSpec) (running : Bool) : List Command :=
  [.deleteAll, .add spec, .enable spec.id]
    ++ if running ∧ spec.boundary.start = .null then [.start spec.id] else []

namespace Group

variable {σ : Type}

def names (g : Group) : List String := g.readers.keys

def prepare (g : Group) (caps : Capabilities) : Except BehaviorError (Device × RoSpec) := do
  let device ← Device.ofCapabilities caps
  let spec ← device.compile g.behavior g.environment
  .ok (device, spec)

def configure (svc : Service σ) (g : Group) (name : String) (s : σ) :
    Except ReaderError GroupReader × σ :=
  match svc.capabilities name s with
  | (.error e, s) => (.error (.service e), s)
  | (.ok caps, s) =>
    match g.prepare caps with
    | .error e => (.error (.behavior e), s)
    | .ok (device, spec) =>
      match svc.performAll name (.setConfig device.config :: installation spec g.running) s with
      | (.error e, s) => (.error (.service e), s)
      | (.ok (), s) => (.ok (.new device g.trust), s)

/-- Lets a reader join, or join anew under a name that is taken. If that fails the group stays as
it was. -/
def add (svc : Service σ) (g : Group) (name : String) (s : σ) :
    Except ReaderError Unit × Group × σ :=
  match configure svc g name s with
  | (.ok reader, s) => (.ok (), { g with readers := g.readers.insert name reader }, s)
  | (.error e, s) => (.error e, g, s)

/-- Lets a reader go. It is told nothing. -/
def remove (g : Group) (name : String) : Group := { g with readers := g.readers.erase name }

@[simp] theorem getElem?_remove (g : Group) (name other : String) :
    (g.remove name).readers[other]? = if name = other then none else g.readers[other]? := by
  simp [remove, Std.TreeMap.getElem?_erase]

def compileAll (g : Group) : Except GroupError (List (String × RoSpec)) :=
  g.readers.toList.mapM fun (name, r) =>
    match r.device.compile g.behavior g.environment with
    | .ok spec => .ok (name, spec)
    | .error e => .error (.rejected name e)

def outcome {ε : Type} (error : List Failure → ε) (failures : List Failure) : Except ε Unit :=
  if failures.isEmpty then .ok () else .error (error failures)

def change (svc : Service σ) (g changed : Group) (s : σ) : Except GroupError Unit × Group × σ :=
  match changed.compileAll with
  | .error e => (.error e, g, s)
  | .ok specs =>
    let (failures, s) := svc.performEach
      (specs.map fun (name, spec) => (name, installation spec changed.running)) s
    (outcome .push failures, changed, s)

def setBehavior (svc : Service σ) (g : Group) (behavior : Behavior) (s : σ) :
    Except GroupError Unit × Group × σ :=
  change svc g { g with behavior } s

def setEnvironment (svc : Service σ) (g : Group) (environment : Environment) (s : σ) :
    Except GroupError Unit × Group × σ :=
  change svc g { g with environment } s

def tellAll (svc : Service σ) (g : Group) (command : Command) (s : σ) :
    Except (List Failure) Unit × σ :=
  let (failures, s) := svc.performEach (g.names.map fun name => (name, [command])) s
  (outcome id failures, s)

/-- Starts all readers, unless an input does that. -/
def startAll (svc : Service σ) (g : Group) (s : σ) : Except (List Failure) Unit × Group × σ :=
  let g := { g with running := true }
  if g.behavior.gpi.isSome then (.ok (), g, s)
  else
    let (result, s) := tellAll svc g (.start managedRoSpec) s
    (result, g, s)

def stopAll (svc : Service σ) (g : Group) (s : σ) : Except (List Failure) Unit × Group × σ :=
  let g := { g with running := false }
  let (result, s) := tellAll svc g (.stop managedRoSpec) s
  (result, g, s)

def process (g : Group) (name : String) (batch : List Reading) :
    Except ReaderError (Group × List Reading) :=
  match g.readers[name]? with
  | some reader =>
    let (reader, batch) := reader.process batch
    .ok ({ g with readers := g.readers.insert name reader }, batch)
  | none => .error (.unknown name)

end Group

end TagGateway
