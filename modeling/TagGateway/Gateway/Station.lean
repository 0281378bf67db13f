import TagGateway.Gateway.Basic
import TagGateway.Store.Snapshot

/-!
A gateway with the file in which it keeps its inventory. Every attempt to keep it may fail.
-/

set_option autoImplicit false

namespace TagGateway

structure Station (R : Type) where
  gateway : Gateway R
  disk : Disk
  fileName : String

namespace Station

variable {R : Type} [Level R] [Wire R]

def restore (st : Station R) : Station R :=
  { st with gateway.inventory := st.gateway.inventory.restore (st.disk.loadOrEmpty st.fileName) }

def handle (st : Station R) (message : Inbound R) : Station R × Except Overflow Unit :=
  let (gateway, outcome) := st.gateway.handle message
  ({ st with gateway }, outcome)

def save (st : Station R) (records : List (TagRecord R)) (fault : Option Fault) : Station R :=
  let (success, disk) := st.disk.persist st.fileName records fault
  { st with gateway := st.gateway.kept success, disk }

def follow (st : Station R) (step : Gateway R × Option (List (TagRecord R)))
    (fault : Option Fault) : Station R :=
  let st := { st with gateway := step.1 }
  match step.2 with
  | some records => st.save records fault
  | none => st

def sweepDeparted (st : Station R) (now : Int64) (fault : Option Fault) :
    Except Overflow (Station R) := do
  let step ← st.gateway.sweepDeparted now
  .ok (st.follow step fault)

def sweepAgeOut (st : Station R) (now : Int64) (fault : Option Fault) :
    Except Overflow (Station R) := do
  let step ← st.gateway.sweepAgeOut now
  .ok (st.follow step fault)

def flushIfDirty (st : Station R) (fault : Option Fault) : Station R :=
  st.follow st.gateway.flushIfDirty fault

def flush (st : Station R) (fault : Option Fault) : Station R :=
  let (gateway, records) := st.gateway.flush
  { st with gateway }.save records fault

def isDue (elapsedMillis : Nat) (seconds : UInt32) : Bool := seconds.toNat * 1000 ≤ elapsedMillis

/-- Does what is due: the departures with what they leave to keep, and then the forgetting. -/
def tick (st : Station R) (now : Int64) (departedDue ageOutDue : Bool) :
    Except Overflow (Station R) := do
  let swept ← if departedDue then st.sweepDeparted now none else .ok st
  let flushed := if departedDue then swept.flushIfDirty none else swept
  if ageOutDue then flushed.sweepAgeOut now none else .ok flushed

end Station

end TagGateway
