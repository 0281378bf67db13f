import Std.Data.TreeMap
import TagGateway.Inventory.Mobility
import TagGateway.Inventory.Window

/-!
One tag's record: where the tag is, and how strongly each location has heard it of late. A location
that hears a tag takes it over from the current one when its mean is above that of the current one
by more than the weight, and it has heard the tag twice at least.
-/

set_option autoImplicit false

namespace TagGateway

/-- Times are in milliseconds. -/
inductive Event where
  | arrived (epc tid : String) (time : Int64) (location : String)
  | moved (epc tid : String) (time : Int64) (old new : String)
  | departed (epc tid : String) (time lastRead : Int64) (lastKnown : String)
  deriving DecidableEq, Repr

namespace Event

def epc : Event → String
  | arrived epc .. | moved epc .. | departed epc .. => epc

def kind : Event → String
  | arrived .. => "arrived"
  | moved .. => "moved"
  | departed .. => "departed"

def timeText (time : Int64) : String := " (" ++ toString time.toInt ++ ")"

def text : Event → String
  | arrived epc _ time location => "arrived " ++ epc ++ " at " ++ location ++ timeText time
  | moved epc _ time old new => "moved " ++ epc ++ " " ++ old ++ " -> " ++ new ++ timeText time
  | departed epc _ time _ lastKnown => "departed " ++ epc ++ " from " ++ lastKnown ++ timeText time

end Event

/-- Whether a tag is there. A tag that was never located is neither. -/
inductive TagState where
  | unknown
  | present
  | departed
  deriving DecidableEq, Repr

def sampleCapacity : Nat := 20

structure PlaceStats (R : Type) where
  lastRead : Int64
  samples : Window R

structure Tag (R : Type) where
  epc : String
  tid : String
  location : String
  lastRead : Int64
  lastArrived : Int64
  lastDeparted : Int64
  state : TagState
  stats : Std.TreeMap String (PlaceStats R)

structure Sighting (R : Type) where
  epc : String
  tid : Option String
  time : Int64
  place : Option String
  strength : Option R

def laterOf (a b : Int64) : Int64 := if a < b then b else a

variable {R : Type} [Level R]

namespace PlaceStats

def empty : PlaceStats R := { lastRead := 0, samples := .empty sampleCapacity (by decide) }

def update (s : PlaceStats R) (strength : Option R) (time : Int64) : PlaceStats R :=
  { lastRead := laterOf s.lastRead time
    samples := match strength with
      | some x => s.samples.add x
      | none => s.samples }

def mean? (s : PlaceStats R) : Option R := s.samples.mean?

@[simp] theorem lastRead_empty : (empty : PlaceStats R).lastRead = 0 := rfl

@[simp] theorem lastRead_update (s : PlaceStats R) (strength : Option R) (time : Int64) :
    (s.update strength time).lastRead = laterOf s.lastRead time := rfl

@[simp] theorem samples_update_some (s : PlaceStats R) (x : R) (time : Int64) :
    (s.update (some x) time).samples = s.samples.add x := rfl

@[simp] theorem samples_update_none (s : PlaceStats R) (time : Int64) :
    (s.update none time).samples = s.samples := rfl

end PlaceStats

namespace Tag

def new (epc : String) : Tag R :=
  { epc, tid := "", location := "", lastRead := 0, lastArrived := 0, lastDeparted := 0,
    state := .unknown, stats := ∅ }

def sampleCount (t : Tag R) : Nat :=
  (t.stats.toList.map fun (_, s) => s.samples.count).foldl (· + ·) 0

def shouldAssign (t : Tag R) (incoming : String) (reference : Int64) (m : Mobility R) :
    Except Overflow Bool :=
  if t.location = "" ∨ t.location = incoming then .ok true
  else
    match t.stats[t.location]?.bind fun s => s.mean?.map fun mean => (mean, s.lastRead) with
    | none => .ok true
    | some (mean, lastRead) =>
      match (t.stats[incoming]?.filter fun s => 2 ≤ s.samples.count).bind (·.mean?) with
      | none => .ok false
      | some challenger => do
        let weight ← m.weight reference.toInt lastRead.toInt
        .ok (Level.lt (mean + weight) challenger)

/-- What a reading says of the tag, wherever it was read. -/
def observe (t : Tag R) (s : Sighting R) : Tag R :=
  { t with tid := s.tid.getD t.tid, lastRead := laterOf t.lastRead s.time }

def record (t : Tag R) (place : String) (s : Sighting R) : Tag R :=
  { t with stats := t.stats.insert place ((t.stats.getD place .empty).update s.strength s.time) }

def settle (t : Tag R) (location : String) : Tag R × Option Event :=
  match t.state with
  | .unknown | .departed =>
    ({ t with location, state := .present, lastArrived := t.lastRead },
     some (.arrived t.epc t.tid t.lastRead location))
  | .present =>
    ({ t with location },
     if t.location ≠ "" ∧ location ≠ t.location then
       some (.moved t.epc t.tid t.lastRead t.location location)
     else none)

/-- Takes a reading. One without a location only says that the tag was read. -/
def sight (t : Tag R) (m : Mobility R) (s : Sighting R) : Tag R × Except Overflow (Option Event) :=
  let t := t.observe s
  match s.place with
  | none => (t, .ok none)
  | some place =>
    let t := t.record place s
    match t.shouldAssign place s.time m with
    | .error e => (t, .error e)
    | .ok assign =>
      let (t, event) := t.settle (if assign then place else t.location)
      (t, .ok event)

def isOverdue (t : Tag R) (expiry : Int) : Bool :=
  t.state = .present && t.lastRead.toInt < expiry

def isStale (t : Tag R) (expiry : Int) : Bool :=
  t.state = .departed && t.lastRead.toInt < expiry

/-- The tag is gone. Should it come back, all locations start anew. -/
def depart (t : Tag R) (now : Int64) : Tag R :=
  { t with state := .departed, lastDeparted := now, stats := ∅ }

def departure (t : Tag R) (now : Int64) : Event :=
  .departed t.epc t.tid now t.lastRead t.location

section Fields

omit [Level R]

variable (t : Tag R) (epc : String) (s : Sighting R) (now : Int64)

@[simp] theorem location_new : (new epc : Tag R).location = "" := rfl

@[simp] theorem lastRead_new : (new epc : Tag R).lastRead = 0 := rfl

@[simp] theorem lastArrived_new : (new epc : Tag R).lastArrived = 0 := rfl

@[simp] theorem lastDeparted_new : (new epc : Tag R).lastDeparted = 0 := rfl

@[simp] theorem state_new : (new epc : Tag R).state = .unknown := rfl

@[simp] theorem stats_new : (new epc : Tag R).stats = ∅ := rfl

@[simp] theorem lastRead_observe : (t.observe s).lastRead = laterOf t.lastRead s.time := rfl

@[simp] theorem lastArrived_observe : (t.observe s).lastArrived = t.lastArrived := rfl

@[simp] theorem lastRead_depart : (t.depart now).lastRead = t.lastRead := rfl

@[simp] theorem lastArrived_depart : (t.depart now).lastArrived = t.lastArrived := rfl

@[simp] theorem lastDeparted_depart : (t.depart now).lastDeparted = now := rfl

@[simp] theorem state_depart : (t.depart now).state = .departed := rfl

@[simp] theorem stats_depart : (t.depart now).stats = ∅ := rfl

theorem isOverdue_iff {t : Tag R} {expiry : Int} :
    t.isOverdue expiry = true ↔ t.state = .present ∧ t.lastRead.toInt < expiry := by
  simp [isOverdue]

theorem isStale_iff {t : Tag R} {expiry : Int} :
    t.isStale expiry = true ↔ t.state = .departed ∧ t.lastRead.toInt < expiry := by
  simp [isStale]

end Fields

end Tag

end TagGateway
