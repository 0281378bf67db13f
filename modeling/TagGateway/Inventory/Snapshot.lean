import TagGateway.Inventory.Tag

/-!
Records of tags as they are kept and shown. Of a location's samples a record keeps their mean and
their number; a tag made from a record starts with that mean as its one sample.
-/

set_option autoImplicit false

namespace TagGateway

structure PlaceRecord (R : Type) where
  lastRead : Int64
  mean : Option R
  count : UInt64

structure TagRecord (R : Type) where
  epc : String
  tid : String := ""
  location : String := ""
  lastRead : Int64
  lastArrived : Int64
  lastDeparted : Int64
  state : TagState
  stats : Std.TreeMap String (PlaceRecord R) := ∅

variable {R : Type} [Level R]

def PlaceStats.record (s : PlaceStats R) : PlaceRecord R :=
  { lastRead := s.lastRead, mean := s.mean?, count := UInt64.ofNat s.samples.count }

def PlaceStats.ofRecord (p : PlaceRecord R) : PlaceStats R :=
  let stats : PlaceStats R := { PlaceStats.empty with lastRead := p.lastRead }
  match p.mean with
  | some mean => if 0 < p.count then { stats with samples := stats.samples.add mean } else stats
  | none => stats

def Tag.snapshot (t : Tag R) : TagRecord R :=
  { epc := t.epc, tid := t.tid, location := t.location, lastRead := t.lastRead
    lastArrived := t.lastArrived, lastDeparted := t.lastDeparted, state := t.state
    stats := t.stats.map fun _ s => s.record }

def Tag.ofRecord (t : TagRecord R) : Tag R :=
  { epc := t.epc, tid := t.tid, location := t.location, lastRead := t.lastRead
    lastArrived := t.lastArrived, lastDeparted := t.lastDeparted, state := t.state
    stats := t.stats.map fun _ p => .ofRecord p }

section Fields

variable (t : Tag R) (r : TagRecord R) (place : String)

@[simp] theorem PlaceStats.lastRead_record (s : PlaceStats R) :
    s.record.lastRead = s.lastRead := rfl

@[simp] theorem Tag.getElem?_stats_snapshot :
    t.snapshot.stats[place]? = t.stats[place]?.map PlaceStats.record := by
  simp [snapshot]

@[simp] theorem Tag.location_ofRecord : (ofRecord r).location = r.location := rfl

@[simp] theorem Tag.lastRead_ofRecord : (ofRecord r).lastRead = r.lastRead := rfl

@[simp] theorem Tag.lastArrived_ofRecord : (ofRecord r).lastArrived = r.lastArrived := rfl

@[simp] theorem Tag.lastDeparted_ofRecord : (ofRecord r).lastDeparted = r.lastDeparted := rfl

@[simp] theorem Tag.getElem?_stats_ofRecord :
    (ofRecord r).stats[place]? = r.stats[place]?.map PlaceStats.ofRecord := by
  simp [ofRecord]

@[simp] theorem Tag.mem_stats_ofRecord : place ∈ (ofRecord r).stats ↔ place ∈ r.stats := by
  simp [ofRecord]

@[simp] theorem Tag.isEmpty_stats_ofRecord :
    (ofRecord r).stats.isEmpty = r.stats.isEmpty := by
  simp [ofRecord]

end Fields

end TagGateway
