import TagGateway.Device.Impinj
import TagGateway.Inventory.Clock
import TagGateway.Inventory.Config
import TagGateway.Inventory.Snapshot

/-!
The inventory: a record for every tag ever identified and not yet forgotten. Reports change it, and
two sweeps: one finds the tags that have departed, the other forgets those that departed long ago.
-/

set_option autoImplicit false

namespace TagGateway

structure Inventory (R : Type) where
  tags : Std.TreeMap String (Tag R)
  config : InventoryConfig R

variable {R : Type} [Level R]

def Reading.strength? (r : Reading) : Option R :=
  (Impinj.peakRssi? r.custom).map (Level.ratio · 100)
    <|> r.fields.peakRssi.map fun dbm => Level.ofInt dbm.toInt

def Reading.sighting? (r : Reading) (c : InventoryConfig R) (device : String) (origin : Int64)
    (offset : Int) : Option (Sighting R) :=
  r.epc?.map fun epc =>
    { epc
      tid := r.tid?
      time := effectiveMillis origin offset r
      place := r.fields.antenna.map (c.locationName device)
      strength := r.strength? }

namespace Inventory

def new (config : InventoryConfig R) : Inventory R := { tags := ∅, config }

omit [Level R] in
@[simp] theorem tags_new (config : InventoryConfig R) : (new config).tags = ∅ := rfl

/-- Takes one reading. The tag is there afterwards, even if the reading failed halfway. -/
def sight (inv : Inventory R) (s : Sighting R) : Inventory R × Except Overflow (Option Event) :=
  let (tag, outcome) := (inv.tags.getD s.epc (.new s.epc)).sight inv.config.mobility s
  ({ inv with tags := inv.tags.insert s.epc tag }, outcome)

def sightAll (inv : Inventory R) :
    List (Sighting R) → Inventory R × Except Overflow (List Event)
  | [] => (inv, .ok [])
  | s :: rest =>
    match inv.sight s with
    | (inv, .error e) => (inv, .error e)
    | (inv, .ok event) =>
      let (inv, outcome) := inv.sightAll rest
      (inv, outcome.map (event.toList ++ ·))

def sightings (c : InventoryConfig R) (device : String) (origin : Int64) (batch : List Reading) :
    List (Sighting R) :=
  let offset := if c.adjustByOrigin then clockOffset origin batch else 0
  batch.filterMap fun r => r.sighting? c device origin offset

def report (inv : Inventory R) (device : String) (origin : Int64) (batch : List Reading) :
    Inventory R × Except Overflow (List Event) :=
  inv.sightAll (sightings inv.config device origin batch)

def snapshot (inv : Inventory R) : List (TagRecord R) := inv.tags.toList.map (·.2.snapshot)

/-- Lets the tags depart that are overdue. If there are any, the records as they are then come
along. -/
def sweepDeparted (inv : Inventory R) (now : Int64) :
    Except Overflow (Inventory R × List Event × Option (List (TagRecord R))) := do
  let expiry ← difference now.toInt inv.config.departedMillis
  let overdue := inv.tags.toList.filter fun (_, t) => t.isOverdue expiry
  if overdue.isEmpty then .ok (inv, [], none)
  else
    let tags := inv.tags.map fun _ t => if t.isOverdue expiry then t.depart now else t
    let inv := { inv with tags }
    .ok (inv, overdue.map fun (_, t) => t.departure now, some inv.snapshot)

/-- Forgets the tags that departed long ago, and says how many. If there are any, the records that
are left come along. -/
def ageOut (inv : Inventory R) (now : Int64) :
    Except Overflow (Inventory R × Nat × Option (List (TagRecord R))) := do
  let expiry ← difference now.toInt inv.config.ageOutMillis
  let tags := inv.tags.filter fun _ t => !t.isStale expiry
  let removed := inv.tags.size - tags.size
  if removed = 0 then .ok (inv, 0, none)
  else
    let inv := { inv with tags }
    .ok (inv, removed, some inv.snapshot)

def updateConfig (inv : Inventory R) (config : InventoryConfig R) :
    Except ConfigFault (Inventory R) := do
  config.validate
  .ok { inv with config }

/-- Takes tags over from their records, in place of those with the same EPCs. -/
def restore (inv : Inventory R) (records : List (TagRecord R)) : Inventory R :=
  { inv with tags := records.foldl (fun tags t => tags.insert t.epc (.ofRecord t)) inv.tags }

end Inventory

end TagGateway
