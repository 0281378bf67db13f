import TagGateway.Device.Basic

/-!
Fields that a reader leaves out of a reading. A reader may leave out a field that is as in the
reading before, so each field in use is carried forward from the last reading that had it, through
the batches of that reader in their order.
-/

set_option autoImplicit false

namespace TagGateway

inductive ReportField : Type → Type where
  | roSpec : ReportField UInt32
  | specIndex : ReportField UInt16
  | inventorySpec : ReportField UInt16
  | antenna : ReportField UInt16
  | peakRssi : ReportField Int8
  | channel : ReportField UInt16
  | firstSeenUtc : ReportField UInt64
  | firstSeenUptime : ReportField UInt64
  | lastSeenUtc : ReportField UInt64
  | lastSeenUptime : ReportField UInt64
  | seenCount : ReportField UInt16
  | accessSpec : ReportField UInt32

namespace ReportField

def get {α : Type} (f : ReportFields) : ReportField α → Option α
  | roSpec => f.roSpec
  | specIndex => f.specIndex
  | inventorySpec => f.inventorySpec
  | antenna => f.antenna
  | peakRssi => f.peakRssi
  | channel => f.channel
  | firstSeenUtc => f.firstSeenUtc
  | firstSeenUptime => f.firstSeenUptime
  | lastSeenUtc => f.lastSeenUtc
  | lastSeenUptime => f.lastSeenUptime
  | seenCount => f.seenCount
  | accessSpec => f.accessSpec

/-- Whether a field is in use, where this content is reported. Readers with a clock give times of
day, others the time since they were switched on. -/
def inUse {α : Type} (content : ReportContent) (hasUtcClock : Bool) : ReportField α → Bool
  | roSpec => content.roSpec
  | specIndex => content.specIndex
  | inventorySpec => content.inventorySpec
  | antenna => content.antenna
  | peakRssi => content.peakRssi
  | channel => content.channel
  | firstSeenUtc => content.firstSeen && hasUtcClock
  | firstSeenUptime => content.firstSeen && !hasUtcClock
  | lastSeenUtc => content.lastSeen && hasUtcClock
  | lastSeenUptime => content.lastSeen && !hasUtcClock
  | seenCount => content.seenCount
  | accessSpec => content.accessSpec

end ReportField

def ReportFields.ofValues (value : {α : Type} → ReportField α → Option α) : ReportFields :=
  { roSpec := value .roSpec
    specIndex := value .specIndex
    inventorySpec := value .inventorySpec
    antenna := value .antenna
    peakRssi := value .peakRssi
    channel := value .channel
    firstSeenUtc := value .firstSeenUtc
    firstSeenUptime := value .firstSeenUptime
    lastSeenUtc := value .lastSeenUtc
    lastSeenUptime := value .lastSeenUptime
    seenCount := value .seenCount
    accessSpec := value .accessSpec }

@[simp] theorem ReportField.get_ofValues {α : Type}
    (value : {α : Type} → ReportField α → Option α) (field : ReportField α) :
    field.get (.ofValues value) = value field := by
  cases field <;> rfl

structure LastSeen where
  fields : ReportFields := {}
  custom : List CustomParameter := []
  deriving DecidableEq, Repr

namespace LastSeen

def completed (content : ReportContent) (hasUtcClock : Bool) (seen reported : ReportFields) :
    ReportFields :=
  .ofValues fun field =>
    if field.inUse content hasUtcClock then field.get reported <|> field.get seen
    else field.get reported

def remembered (content : ReportContent) (hasUtcClock : Bool) (seen reported : ReportFields) :
    ReportFields :=
  .ofValues fun field =>
    if field.inUse content hasUtcClock then field.get reported <|> field.get seen
    else field.get seen

def carryFields (d : DeviceModel) (seen : LastSeen) (r : Reading) : LastSeen × Reading :=
  ({ seen with fields := remembered d.content d.hasUtcClock seen.fields r.fields },
   { r with fields := completed d.content d.hasUtcClock seen.fields r.fields })

/-- Carries the first custom parameter of a kind. One that is carried goes to the end. -/
def carryCustom (vendor subtype : UInt32) (seen : LastSeen) (r : Reading) : LastSeen × Reading :=
  match r.custom.find? (·.isOf vendor subtype) with
  | some p =>
    ({ seen with custom := seen.custom.filter (fun q => !q.isOf vendor subtype) ++ [p] }, r)
  | none =>
    match seen.custom.find? (·.isOf vendor subtype) with
    | some p => (seen, { r with custom := r.custom ++ [p] })
    | none => (seen, r)

end LastSeen

namespace Device

def complete (d : Device) (carry : Bool) (seen : LastSeen) (r : Reading) : LastSeen × Reading :=
  let (seen, r) := if carry then seen.carryFields d.model r else (seen, r)
  match d.vendor with
  | .generic => (seen, r)
  | .impinj =>
    let (seen, r) :=
      if carry then seen.carryCustom Impinj.vendor Impinj.peakRssi r else (seen, r)
    (seen, Impinj.adoptTid r)

/-- Completes a batch, each reading from those before it. -/
@[simp] def completeAll (d : Device) (carry : Bool) (seen : LastSeen) :
    List Reading → LastSeen × List Reading
  | [] => (seen, [])
  | r :: rest =>
    let (seen, r) := d.complete carry seen r
    let (seen, rest) := d.completeAll carry seen rest
    (seen, r :: rest)

end Device

end TagGateway
