import TagGateway.Gateway.Dispatch
import TagGateway.Gateway.Settings
import TagGateway.Group.Basic
import TagGateway.Link.Readers

set_option autoImplicit false

namespace TagGateway

structure Publisher where
  queue : Queue (List Event)
  dropped : Nat := 0

/-- Sends a batch off, and says whether it is on its way. An empty one is not sent, and that is no
failure. -/
def Publisher.publish (p : Publisher) (batch : List Event) : Bool × Publisher :=
  if batch.isEmpty then (true, p)
  else
    match p.queue.offer batch with
    | (.taken, queue) => (true, { p with queue })
    | (.full, queue) => (false, { queue, dropped := p.dropped + 1 })
    | (.closed, queue) => (false, { p with queue })

structure Gateway (R : Type) where
  inventory : Inventory R
  group : Group
  link : ReaderLink R
  publisher : Publisher
  dirty : Bool := false

namespace Gateway

variable {R : Type} [Level R]

def new (s : Settings R) (eventCapacity outboundCapacity : Nat) : Gateway R :=
  { inventory := .new s.inventory
    group := { trust := s.trustVendors }
    link := { outbound := { capacity := outboundCapacity } }
    publisher := { queue := { capacity := eventCapacity } } }

def complain (g : Gateway R) (message : String) : Gateway R :=
  { g with link := (g.link.offer (.error message)).2 }

def conclude {ε : Type} (g : Gateway R) (what : String) (text : ε → String)
    (overflow? : ε → Option Overflow) : Except ε Unit → Gateway R × Except Overflow Unit
  | .ok () => (g, .ok ())
  | .error e =>
    match overflow? e with
    | some cause => (g, .error cause)
    | none => (g.complain (what ++ text e), .ok ())

/-- Takes a batch of readings from one reader, which need not be in the group. -/
def report (g : Gateway R) (device : String) (origin : Int64) (batch : List Reading) :
    Gateway R × Except Overflow Unit :=
  let (group, batch) := match g.group.process device batch with
    | .ok completed => completed
    | .error _ => (g.group, batch)
  match g.inventory.report device origin batch with
  | (inventory, .error e) => ({ g with group, inventory }, .error e)
  | (inventory, .ok events) =>
    let g := { g with group, inventory }
    if events.isEmpty then (g, .ok ())
    else ({ g with dirty := true, publisher := (g.publisher.publish events).2 }, .ok ())

def handle (g : Gateway R) : Inbound R → Gateway R × Except Overflow Unit
  | .report device origin entries =>
    let batch := decodeReadings entries
    if batch.isEmpty then (g, .ok ()) else g.report device origin batch
  | .readerConnected device caps =>
    let (result, group, link) := g.group.add ReaderLink.service device (g.link.remember device caps)
    { g with group, link }.conclude ("reader " ++ device ++ " not added: ")
      ReaderError.message ReaderError.overflow? result
  | .readerClosed device =>
    ({ g with group := g.group.remove device, link := g.link.forget device }, .ok ())
  | .setBehavior behavior =>
    let (result, group, link) := g.group.setBehavior ReaderLink.service behavior g.link
    { g with group, link }.conclude "set behavior: " GroupError.message GroupError.overflow? result
  | .setEnvironment environment =>
    let (result, group, link) := g.group.setEnvironment ReaderLink.service environment g.link
    { g with group, link }.conclude "set environment: "
      GroupError.message GroupError.overflow? result
  | .startAll =>
    let (result, group, link) := g.group.startAll ReaderLink.service g.link
    { g with group, link }.conclude "start all: " failureText (fun _ => none) result
  | .stopAll =>
    let (result, group, link) := g.group.stopAll ReaderLink.service g.link
    { g with group, link }.conclude "stop all: " failureText (fun _ => none) result
  | .updateConfig config =>
    match g.inventory.updateConfig config with
    | .ok inventory => ({ g with inventory }, .ok ())
    | .error fault => (g.complain ("update config: " ++ fault.message), .ok ())
  | .snapshot =>
    ({ g with link.outbound := g.link.outbound.put (.inventory g.inventory.snapshot) }, .ok ())

def handleAll (g : Gateway R) : List (Inbound R) → Gateway R × Except Overflow Unit
  | [] => (g, .ok ())
  | message :: rest =>
    match g.handle message with
    | (g, .ok ()) => g.handleAll rest
    | (g, .error e) => (g, .error e)

/-- Handles messages, each on behalf of its handler. A worker does nothing more after an overflow,
and what was still to be handled by it is lost; an overflow of the dispatcher ends it all. -/
def handleBy (g : Gateway R) (gone : List Handler) :
    List (Handler × Inbound R) → Gateway R × Except Overflow Unit
  | [] => (g, .ok ())
  | (handler, message) :: rest =>
    if handler ∈ gone then g.handleBy gone rest
    else
      match g.handle message with
      | (g, .ok ()) => g.handleBy gone rest
      | (g, .error e) =>
        if handler = .dispatcher then (g, .error e) else g.handleBy (handler :: gone) rest

def sweepDeparted (g : Gateway R) (now : Int64) :
    Except Overflow (Gateway R × Option (List (TagRecord R))) := do
  let (inventory, events, records) ← g.inventory.sweepDeparted now
  .ok ({ g with inventory, publisher := (g.publisher.publish events).2 }, records)

def sweepAgeOut (g : Gateway R) (now : Int64) :
    Except Overflow (Gateway R × Option (List (TagRecord R))) := do
  let (inventory, _, records) ← g.inventory.ageOut now
  .ok ({ g with inventory }, records)

def flushIfDirty (g : Gateway R) : Gateway R × Option (List (TagRecord R)) :=
  ({ g with dirty := false }, if g.dirty then some g.inventory.snapshot else none)

def flush (g : Gateway R) : Gateway R × List (TagRecord R) :=
  ({ g with dirty := false }, g.inventory.snapshot)

def kept (g : Gateway R) (success : Bool) : Gateway R := { g with dirty := g.dirty || !success }

end Gateway

end TagGateway
